import TestFocus.Proofs.Reading.Consumption

namespace TestFocus

namespace Cursor

variable {c c' : Cursor} {n : Nat} {text : String}

theorem lt_of_peekNth? {t : Token} (h : c.peekNth? n = some t) : c.pos + n < c.tokens.length := by
  simp only [peekNth?] at h
  exact (List.getElem?_eq_some_iff.mp h).1

theorem lt_of_nthIs (h : c.nthIs n text = true) : c.pos + n < c.tokens.length := by
  cases hpeek : c.peekNth? n with
  | none => simp [nthIs, hpeek] at h
  | some t => exact lt_of_peekNth? hpeek

theorem lt_of_peekText? {word : String} (h : c.peekText? = some word) :
    c.pos < c.tokens.length := by
  obtain ⟨t, ht, -⟩ := Option.map_eq_some_iff.mp h
  exact lt_of_peekNth? ht

theorem advance_eq (hc : c.pos < c.tokens.length) : c.advance = { c with pos := c.pos + 1 } := by
  simp [advance, isEmpty, Nat.not_le.mpr hc]

end Cursor

namespace Reader

variable {α β : Type} {x y : Reader α} {f : α → Reader β} {c : Cursor}

-- When the reader succeeds on this cursor, it has moved on.
def TakesAt (reader : Reader α) (c : Cursor) : Prop :=
  ∀ a c', reader c = .ok a c' → c.Reaches c' ∧ c.pos < c'.pos

-- Whenever the reader succeeds, it has taken a token.
def Takes (reader : Reader α) : Prop :=
  ∀ c, c.Inside → reader.TakesAt c

namespace TakesAt

theorem bind (hx : TakesAt x c) (hf : ∀ a, Forward (f a)) : TakesAt (x >>= f) c := by
  intro b c'' h
  rw [bind_apply] at h
  split at h
  · next a c' ha =>
    obtain ⟨hreach, hlt⟩ := hx a c' ha
    have hreach' := (hf a).reaches hreach.inside h
    exact ⟨hreach.trans hreach', Nat.lt_of_lt_of_le hlt hreach'.le⟩
  · cases h

theorem throw (e : ParseError) : TakesAt (throw e : Reader α) c := by
  rintro _ _ ⟨⟩

theorem ite {p : Prop} [Decidable p] (hx : TakesAt x c) (hy : TakesAt y c) :
    TakesAt (if p then x else y) c := by
  split
  · exact hx
  · exact hy

theorem discard (hx : TakesAt x c) : TakesAt (discard x : Reader Unit) c := by
  intro b c' h
  rw [discard_apply] at h
  split at h
  · next a c'' ha =>
    obtain ⟨-, rfl⟩ := h
    exact hx a _ ha
  · cases h

theorem covered {x : Reader Unit} (hx : TakesAt x c) : TakesAt (covered x) c := by
  have hrest := hx.bind fun _ => .bind .get fun after => .pure (after.textSince c.pos)
  exact hrest

theorem advance (hc : c.pos < c.tokens.length) : TakesAt Reader.advance c := by
  rintro _ _ ⟨⟩
  have hinside : c.Inside := Nat.le_of_lt hc
  refine ⟨hinside.advance, ?_⟩
  rw [Cursor.advance_eq hc]
  exact Nat.lt_succ_self _

end TakesAt

namespace Takes

theorem reaches {c' : Cursor} {a : α} (hx : Takes x) (hc : c.Inside) (h : x c = .ok a c') :
    c.Reaches c' :=
  (hx c hc a c' h).1

theorem bind (hx : Takes x) (hf : ∀ a, Forward (f a)) : Takes (x >>= f) :=
  fun c hc => (hx c hc).bind hf

-- The token may also be taken later on.
theorem after (hx : Forward x) (hf : ∀ a, Takes (f a)) : Takes (x >>= f) := by
  intro c hc b c'' h
  rw [bind_apply] at h
  split at h
  · next a c' ha =>
    have hreach := hx.reaches hc ha
    obtain ⟨hreach', hlt⟩ := hf a c' hreach.inside b c'' h
    exact ⟨hreach.trans hreach', Nat.lt_of_le_of_lt hreach.le hlt⟩
  · cases h

-- One token after another.
theorem lt_of_bind (hx : TakesAt x c) (hf : ∀ a, Takes (f a)) {b : β} {c' : Cursor}
    (h : (x >>= f) c = .ok b c') : c.pos + 1 < c'.pos := by
  rw [bind_apply] at h
  split at h
  · next a c'' ha =>
    obtain ⟨hreach, hlt⟩ := hx a c'' ha
    have hlt' := (hf a c'' hreach.inside b c' h).2
    omega
  · cases h

theorem throw (e : ParseError) : Takes (throw e : Reader α) :=
  fun _ _ => .throw e

theorem ite {p : Prop} [Decidable p] (hx : Takes x) (hy : Takes y) :
    Takes (if p then x else y) :=
  fun c hc => .ite (hx c hc) (hy c hc)

theorem discard (hx : Takes x) : Takes (discard x : Reader Unit) :=
  fun c hc => (hx c hc).discard

theorem covered {x : Reader Unit} (hx : Takes x) : Takes (covered x) :=
  fun c hc => (hx c hc).covered

theorem get_bind {f : Cursor → Reader β} (hf : ∀ c, c.Inside → TakesAt (f c) c) :
    Takes (get >>= f) :=
  hf

theorem of_advance (hx : ∀ c a c', x c = .ok a c' → c' = c.advance ∧ c.peek?.isSome) :
    Takes x := by
  intro c hc a c' h
  obtain ⟨rfl, hsome⟩ := hx c a c' h
  obtain ⟨t, ht⟩ := Option.isSome_iff_exists.mp hsome
  exact TakesAt.advance (Cursor.lt_of_peekNth? ht) _ _ rfl

theorem next (expected : String) : Takes (next expected) := by
  refine of_advance fun c t c' h => ?_
  unfold Reader.next at h
  split at h <;> cases h
  next hpeek => exact ⟨rfl, by rw [hpeek]; rfl⟩

theorem expect (text expected : String) : Takes (expect text expected) := by
  refine of_advance fun c t c' h => ?_
  unfold Reader.expect at h
  split at h
  · next hpeek =>
    split at h <;> cases h
    exact ⟨rfl, by rw [hpeek]; rfl⟩
  · cases h

theorem comma : Takes comma :=
  .discard (.expect _ _)

theorem string (expected : String) : Takes (string expected) :=
  .bind (.next _) fun _ => .ite (.pure _) (.throw _)

-- Either this token, or what comes in its place.
theorem eat_or (text : String) (hx : Forward x) (hy : Takes y) :
    Takes (do if ← Reader.eat text then x else y) := by
  intro c hc a c' h
  rw [bind_apply] at h
  unfold Reader.eat at h
  split at h
  · next taken middle heat =>
    split at heat
    · next hnext =>
      cases heat
      have hadvance : TakesAt Reader.advance c := .advance (Cursor.lt_of_nthIs hnext)
      exact hadvance.bind (fun _ => hx) a c' h
    · cases heat
      exact hy c hc a c' h
  · cases h

theorem group : Takes group := by
  refine .after .get fun _ => .bind (.next _) fun opening => ?_
  split
  · exact .throw _
  · exact .bind .get fun _ => .bind (.advanceBy _) fun _ => .bind .get fun _ =>
      .ite (.pure _) (.throw _)

theorem skipGroup : Takes skipGroup :=
  .discard group

theorem typeHead : Takes typeHead := by
  refine get_bind fun c hc => ?_
  cases hpeek : c.peek? with
  | none => exact .throw _
  | some t =>
    have hadvance : TakesAt Reader.advance c := .advance (Cursor.lt_of_peekNth? hpeek)
    refine .ite (skipGroup c hc) (.ite ?_ (.throw _))
    exact hadvance.discard.bind fun _ => .bind .get fun _ => .ite .skipGroup (.pure _)

theorem type : Takes type :=
  .covered (.bind .typeHead fun _ => .bind .get fun _ => .typeSuffixes _)

theorem inlineAssembly : Takes inlineAssembly :=
  .covered (.bind (.discard (.expect _ _)) fun _ => .bind (.discard (.run _)) fun _ =>
    .bind (.discard (.string _)) fun _ => .bind .comma fun _ => .discard (.string _))

section Nested

variable {value : Reader String}

theorem constantExpression (hvalue : Forward value) : Takes (constantExpression value) := by
  refine .bind (.next _) fun head => .ite (.constantCast hvalue) ?_
  exact .bind .get fun _ => .bind (.constantFlags _ _ _) fun _ => .bind (.eat _) fun _ =>
    .bind (.discard (.operandWith hvalue)) fun _ => .bind .get fun _ =>
      .bind (.moreOperands hvalue _ _) fun _ => .ite (.discard (.expect _ _)) (.pure _)

theorem wordValue (hvalue : Forward value) (text : String) (hc : c.pos < c.tokens.length) :
    TakesAt (wordValue value text) c := by
  have hinside : c.Inside := Nat.le_of_lt hc
  have hadvance : TakesAt (Functor.discard Reader.advance : Reader Unit) c :=
    (TakesAt.advance hc).discard
  refine .ite ?_ (.ite hadvance (.ite ?_ (.ite (inlineAssembly.discard c hinside)
    (.ite (constantExpression hvalue c hinside) (.throw _)))))
  · exact hadvance.bind fun _ => .bind .get fun _ => .ite .skipGroup (.pure _)
  · exact hadvance.bind fun _ => .bind .get fun _ => .ite .skipGroup (.discard hvalue)

theorem valueOver (hvalue : Forward value) : Takes (valueOver value) := by
  refine .covered (get_bind fun c hc => ?_)
  cases hpeek : c.peek? with
  | none => exact .throw _
  | some t =>
    exact .ite (skipGroup c hc)
      (.ite (wordValue hvalue _ (Cursor.lt_of_peekNth? hpeek)) (.throw _))

theorem typedOrBare (hvalue : Takes value) (hforward : Forward value) :
    Takes (typedOrBare value) := by
  have htyped : Takes (do Functor.discard Reader.type; (Functor.discard value : Reader Unit)) :=
    .bind (.discard .type) fun _ => .discard hforward
  intro c hc a c' h
  rw [Reader.typedOrBare, bind_apply] at h
  unfold Reader.attempt at h
  cases hattempt : (do Functor.discard Reader.type; Functor.discard value : Reader Unit) c with
  | ok b c'' =>
    rw [hattempt] at h
    obtain ⟨-, rfl⟩ := h
    exact htyped c hc b _ hattempt
  | error e c'' =>
    rw [hattempt] at h
    exact hvalue.discard c hc a c' h

theorem operandWith (hvalue : Takes value) (hforward : Forward value) :
    Takes (operandWith value) := by
  have hrest := typedOrBare hvalue hforward
  exact .covered (.after (.eat _) fun _ => .ite (.after .get fun _ =>
    .ite (.after .skipGroup fun _ => hrest) hrest) hrest)

end Nested

theorem valueWithin (depth : Nat) : Takes (valueWithin depth) := by
  cases depth with
  | zero => exact .throw _
  | succ depth => exact valueOver (.valueWithin depth)

theorem value : Takes value :=
  .after .get fun _ => .valueWithin _

theorem operand : Takes operand :=
  operandWith value .value

theorem typedValue : Takes typedValue :=
  .bind .type fun _ => .bind .value fun _ => .pure _

theorem label : Takes label :=
  .bind (.discard (.expect _ _)) fun _ => .value

theorem keywordAttribute : Takes keywordAttribute :=
  .covered (.bind (.next _) fun _ => .bind .get fun _ =>
    .ite .skipGroup (.ite (.discard .advance) (.pure _)))

end Takes

end Reader

end TestFocus
