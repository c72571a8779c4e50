import TestFocus.Proofs.Reading.Window
import TestFocus.Proofs.Reading.Words
import TestFocus.Proofs.Reading.ValueText

namespace TestFocus

open Lexer Text Piece Grammar

-- Where a value ends: with the window, or before a token of the window that no value goes on with.
def Window.Ended (w : Window) (c : Cursor) : Prop :=
  c.pos = w.stop ∨ c.nextIs ")" = true ∨ c.nextIs "to" = true ∨
    c.nextIs "," = true ∧ c.pos + 1 < w.stop

namespace Window.Sees

variable {w : Window} {c d : Cursor}

-- On the part alone, that is the end of the text, or the same token.
theorem ended_part (h : w.Sees c d) (hended : w.Ended c) :
    d.remaining = 0 ∨ ∃ s ∈ [")", "to", ","], d.nextIs s = true := by
  by_cases hc : c.pos < w.stop
  · rcases hended with hstop | hclose | hto | ⟨hcomma, -⟩
    · omega
    · exact .inr ⟨")", by simp, by rwa [h.nextIs_eq hc]⟩
    · exact .inr ⟨"to", by simp, by rwa [h.nextIs_eq hc]⟩
    · exact .inr ⟨",", by simp, by rwa [h.nextIs_eq hc]⟩
  · exact .inl (h.remaining_eq_zero (Nat.le_antisymm h.le (Nat.not_lt.mp hc)))

end Window.Sees

namespace Reader

variable {w : Window} {P : Cursor → Prop} {c d c' : Cursor}

namespace Keeps

theorem typeSuffixes (rounds : Nat) :
    Keeps w P unseen (typeSuffixes rounds) (typeSuffixes rounds) := by
  induction rounds with
  | zero => exact .pure rfl
  | succ rounds ih =>
    have hgroup : Keeps w P unseen (do Reader.skipGroup; Reader.typeSuffixes rounds)
        (do Reader.skipGroup; Reader.typeSuffixes rounds) := .next_bind .skipGroup fun _ _ _ => ih
    have hgroupTakes : Takes (do Reader.skipGroup; Reader.typeSuffixes rounds) :=
      .bind .skipGroup fun _ => .typeSuffixes rounds
    refine .get_bind (Forward.typeSuffixes (rounds + 1)) fun c d hsees => ?_
    refine .look_next hsees "*" ?_ ?_ fun _ => ?_
    · intro hstar
      exact (takesAt_next hstar).bind fun _ => .typeSuffixes rounds
    · intro _ _
      exact (Keeps.next_bind (.discard .advance) fun _ _ _ => ih).follows c d hsees
    refine .look ?_ ?_ ?_ fun _ _ => ?_
    · simp only [Bool.and_eq_true]
      exact fun hpart => ⟨hsees.nthIs_of_part hpart.1, hsees.nthIs_of_part hpart.2⟩
    · -- the parenthesis is missing in the part, and the reader takes it
      intro hwhole hpart a c' h
      rw [Bool.and_eq_true] at hwhole
      have hbeyond : w.stop ≤ c.pos + 1 := by
        rcases Bool.and_eq_false_iff.mp hpart with hnext | hnext
        · have := hsees.beyond_of_nthIs hwhole.1 hnext
          omega
        · exact hsees.beyond_of_nthIs hwhole.2 hnext
      have hlt := Takes.lt_of_bind (takesAt_next hwhole.1) (fun _ => hgroupTakes) h
      omega
    · intro _ _
      exact (Keeps.next_bind (.discard .advance) fun _ _ _ => hgroup).follows c d hsees
    · refine .look_next hsees "(" (fun _ => hgroupTakes c hsees.inside) ?_ fun _ => .pure hsees rfl
      exact fun _ _ => hgroup.follows c d hsees

theorem typeHead : Keeps w P unseen typeHead typeHead := by
  refine .get_bind .typeHead fun c d hsees => .of_takes (Takes.typeHead c hsees.inside) fun hc => ?_
  obtain ⟨t, t', ht, ht', hface⟩ := hsees.exists_peek? hc
  rw [ht, ht']
  simp only [Token.isPunct_eq_of_face hface, Token.isWord_eq_of_face hface,
    Token.text_eq_of_face hface]
  refine .ite (fun _ => Keeps.skipGroup.follows c d hsees) fun _ => .ite (fun _ => ?_) fun _ =>
    .throw _ _
  refine (Keeps.next_bind (.discard .advance) fun _ _ _ => ?_).follows c d hsees
  refine .get_bind (.bind .get fun _ => .ite .skipGroup (.pure _)) fun c d hsees => ?_
  by_cases htarget : t'.text = "target"
  · simp only [htarget, decide_true, Bool.true_and]
    exact .look_next hsees "(" (fun _ => Takes.skipGroup c hsees.inside)
      (fun _ _ => Keeps.skipGroup.follows c d hsees) fun _ => .pure hsees rfl
  · simp only [htarget, decide_false, Bool.false_and]
    exact .pure hsees rfl

theorem type : Keeps w P unseen type type :=
  .covered (.next_bind .typeHead fun _ _ _ =>
    .rounds typeSuffixes fun _ hc _ hn => settles_typeSuffixes.loop_eq hc hn ())

theorem inlineAssembly : Keeps w P unseen inlineAssembly inlineAssembly :=
  .covered (.next_bind (.discard (.expect _ _)) fun _ _ _ => .next_bind (.discard (.run _))
    fun _ _ _ => .next_bind (.discard (.string _)) fun _ _ _ => .next_bind .comma fun _ _ _ =>
      .discard (.string _))

-- The flags are followed by an operand, so the window goes on behind them.
theorem constantFlags (head : String) (rounds : Nat) (compared : Bool) :
    Keeps w (Before w) unseen (constantFlags head rounds compared)
      (constantFlags head rounds compared) := by
  induction rounds generalizing compared with
  | zero => exact .pure rfl
  | succ rounds ih =>
    have hflag (compared : Bool) : Keeps w (Before w) unseen
        (do Functor.discard Reader.advance; Reader.constantFlags head rounds compared)
        (do Functor.discard Reader.advance; Reader.constantFlags head rounds compared) :=
      .next_bind (.discard .advance) fun _ _ _ => ih _
    have hgroup : Keeps w (Before w) unseen
        (do Reader.skipGroup; Reader.constantFlags head rounds compared)
        (do Reader.skipGroup; Reader.constantFlags head rounds compared) :=
      .next_bind .skipGroup fun _ _ _ => ih _
    have hforward := Forward.constantFlags head (rounds + 1) compared
    refine .get_bind hforward fun c d hsees =>
      .of_before (fun _ _ => hforward.reaches hsees.inside) fun hc => ?_
    rw [hsees.peekText?_eq hc]
    cases c.peekText? with
    | none => exact .pure hsees rfl
    | some word =>
      refine .ite (fun _ => (hflag _).follows c d hsees) fun _ => .ite (fun _ => ?_) fun _ =>
        .ite (fun _ => (hflag _).follows c d hsees) fun _ => .pure hsees rfl
      refine (Keeps.next_bind (.discard .advance) fun _ _ _ => ?_).follows c d hsees
      have hforward : Forward (do
          if (← get).nextIs "(" then Reader.skipGroup
          Reader.constantFlags head rounds compared) :=
        .bind .get fun _ => .ite hgroup.forward (ih _).forward
      refine .get_bind hforward fun c d hsees =>
        .of_before (fun _ _ => hforward.reaches hsees.inside) fun hc => ?_
      rw [hsees.nextIs_eq hc]
      exact .ite (fun _ => hgroup.follows c d hsees) fun _ => (ih _).follows c d hsees

end Keeps

section Typed

variable {value : Reader String} {text s : String} {n rounds : Nat}

-- Only a name that is a value too can be read as a type and as a value.
theorem wordValue_typeWord (hword : Keyword.isTypeWord text = true)
    (h : wordValue value text c = .ok () c') : isSimpleValue text = true ∧ c' = c.advance := by
  have hopens : Ty.opens text = true := by simp [Ty.opens, hword]
  have hbang : startsWithChar text '!' = false := Ty.startsWithChar_of_opens hopens
  have hwrapper : symbolWrappers.contains text = false :=
    WordClass.contains_of_opens (d := .wrapper) (by decide) hopens
  have hassembly : text ≠ "asm" := by
    rintro rfl
    cases WordClass.contains_of_opens (d := .mark) (by decide) hopens
  have hexpression : Keyword.isConstantExpression text = false := by
    have hconversion := WordClass.contains_of_opens (d := .conversion) (by decide) hopens
    have hoperator := WordClass.contains_of_opens (d := .operator) (by decide) hopens
    simp only [List.contains_eq_mem, decide_eq_false_iff_not] at hconversion hoperator
    rw [← Bool.not_eq_true, Val.isConstantExpression_iff]
    exact not_or.mpr ⟨hconversion, hoperator⟩
  simp only [wordValue, hbang, hwrapper, hassembly, hexpression] at h
  by_cases hsimple : isSimpleValue text = true
  · simp [hsimple, Reader.advance] at h
    exact ⟨hsimple, h.symm⟩
  · simp [hsimple] at h

-- What is read as a value is as long as what the part begins with as a type.
theorem sees_of_typeHead (hsees : w.Sees c d) (hvalue : valueWithin n c = .ok s c')
    (hle : c'.pos ≤ w.stop) {d' : Cursor} (hhead : typeHead d = .ok () d') : w.Sees c' d' := by
  have hlt := (Takes.valueWithin n c hsees.inside s c' hvalue).2
  have hc : c.pos < w.stop := Nat.lt_of_lt_of_le hlt hle
  obtain ⟨t, t', ht, ht', hface⟩ := hsees.exists_peek? hc
  cases n with
  | zero => cases hvalue
  | succ n =>
    obtain ⟨hvalue, -⟩ := covered_eq_ok_iff.mp hvalue
    simp only [bind_apply, get_apply, ht] at hvalue
    simp only [typeHead, bind_apply, get_apply, ht', ← Token.isPunct_eq_of_face hface,
      ← Token.isWord_eq_of_face hface, ← Token.text_eq_of_face hface] at hhead
    by_cases hgroup : (t.isPunct "\x7b" || t.isPunct "[" || t.isPunct "<") = true
    · have hgroup' : (t.isPunct "[" || t.isPunct "\x7b" || t.isPunct "<") = true := by
        rwa [Bool.or_comm (t.isPunct "[")]
      rw [if_pos hgroup] at hvalue
      rw [if_pos hgroup'] at hhead
      obtain ⟨_, d'', hread, -, hsees'⟩ :=
        (Keeps.skipGroup (P := Anywhere)).follows c d hsees () c' hvalue hle trivial
      obtain ⟨-, rfl⟩ : () = () ∧ d'' = d' := by simpa [hread] using hhead
      exact hsees'
    · have hgroup' : ¬(t.isPunct "[" || t.isPunct "\x7b" || t.isPunct "<") = true := by
        rwa [Bool.or_comm (t.isPunct "[")]
      rw [if_neg hgroup] at hvalue
      rw [if_neg hgroup'] at hhead
      by_cases hword : (t.isWord && Keyword.isTypeWord t.text) = true
      · rw [if_pos hword] at hhead
        rw [Bool.and_eq_true] at hword
        rw [if_pos hword.1] at hvalue
        obtain ⟨hsimple, rfl⟩ := wordValue_typeWord hword.2 hvalue
        have htarget : t.text ≠ "target" := by
          intro htarget
          rw [htarget] at hsimple
          revert hsimple
          decide
        simp [Reader.advance, htarget] at hhead
        exact hhead ▸ hsees.advance hc
      · rw [if_neg hword] at hhead
        cases hhead

theorem typeSuffixes_ended (hsees : w.Sees c d) (hended : w.Ended c) :
    typeSuffixes rounds d = .ok () d := by
  rcases hsees.ended_part hended with hnone | ⟨s, hs, hnext⟩
  · exact typeSuffixes_noTokens hnone rounds
  · cases rounds with
    | zero => rfl
    | succ rounds =>
      have hother (t : String) (ht : t ∉ [")", "to", ","]) : d.nextIs t = false :=
        Cursor.nthIs_unique hnext (by rintro rfl; exact ht hs)
      simp [typeSuffixes, hother "*" (by decide), hother "addrspace" (by decide),
        hother "(" (by decide)]

theorem valueOver_closing {t : Token} (hpeek : d.peek? = some t)
    (ht : t.text ∈ [")", "to", ","]) :
    valueOver value d = .error (.unexpected "value" t.text) d := by
  have hnone : ∀ s ∈ [")", "to", ","], s ≠ "\x7b" ∧ s ≠ "[" ∧ s ≠ "<" ∧
      startsWithChar s '!' = false ∧ isSimpleValue s = false ∧
      symbolWrappers.contains s = false ∧ s ≠ "asm" ∧
      Keyword.isConstantExpression s = false := by decide
  obtain ⟨hbrace, hbracket, hangle, hbang, hsimple, hwrapper, hassembly, hexpression⟩ :=
    hnone t.text ht
  have hpunct : t.isPunct "\x7b" = false ∧ t.isPunct "[" = false ∧ t.isPunct "<" = false := by
    simp [Token.isPunct, hbrace, hbracket, hangle]
  have hword : wordValue value t.text d = .error (.unexpected "value" t.text) d := by
    simp only [wordValue, hbang, hsimple, hwrapper, hassembly, hexpression]
    rfl
  by_cases hkind : t.isWord = true <;> simp [valueOver, covered, hpeek, hpunct, hkind, hword]

theorem valueWithin_ended (hsees : w.Sees c d) (hended : w.Ended c) :
    ∃ e d', valueWithin n d = .error e d' := by
  rcases hsees.ended_part hended with hnone | ⟨s, hs, hnext⟩
  · exact ⟨_, _, valueWithin_noTokens hnone n⟩
  · obtain ⟨t, ht, rfl⟩ : ∃ t, d.peek? = some t ∧ t.text = s := by
      simpa [Cursor.nextIs, Cursor.nthIs, Cursor.peek?] using hnext
    cases n with
    | zero => exact ⟨_, _, rfl⟩
    | succ n => exact ⟨_, _, valueOver_closing ht hs⟩

theorem typed_error (hsees : w.Sees c d) (hvalue : valueWithin n c = .ok s c')
    (hle : c'.pos ≤ w.stop) (hended : w.Ended c') :
    ∃ e d', (do Functor.discard Reader.type; (Functor.discard (valueWithin n) : Reader Unit)) d =
      .error e d' := by
  cases htype : Reader.type d with
  | error e d' => exact ⟨e, d', by simp [htype]⟩
  | ok ty d' =>
    obtain ⟨hsuffixes, -⟩ := covered_eq_ok_iff.mp htype
    simp only [bind_apply, get_apply] at hsuffixes
    split at hsuffixes
    · next _ middle hhead =>
      have hmiddle := sees_of_typeHead hsees hvalue hle hhead
      rw [typeSuffixes_ended hmiddle hended] at hsuffixes
      obtain ⟨-, rfl⟩ := hsuffixes
      obtain ⟨e, last, herror⟩ := valueWithin_ended (n := n) hmiddle hended
      exact ⟨e, last, by simp [htype, herror]⟩
    · cases hsuffixes

end Typed

theorem begins_expect {text : String} (expected : String)
    (hended : ∀ c : Cursor, c.nextIs text = true → w.Ended c) :
    Begins w w.Ended P (Functor.discard (expect text expected) : Reader Unit) := by
  intro c _ c' _ h _ _
  apply hended
  rw [discard_apply] at h
  unfold expect at h
  cases hpeek : c.peek? with
  | none => simp [hpeek] at h
  | some t =>
    by_cases htext : t.text = text
    · simpa [Cursor.nextIs, Cursor.nthIs, Cursor.peek?] using ⟨t, hpeek, htext⟩
    · simp [hpeek, htext] at h

theorem begins_closing (parenthesized : Bool) : Begins w w.Ended w.Ended
    (if parenthesized then Functor.discard (expect ")" "')'") else pure () : Reader Unit) :=
  .ite (begins_expect _ fun _ hclose => .inr (.inl hclose)) (.pure ())

-- Is there one more operand?
def goesOn (parenthesized : Bool) (c : Cursor) : Bool :=
  c.nextIs "," && !(parenthesized && c.nthIs 1 ")") && !(!parenthesized && isAnnotationStart c)

-- One more operand, and those after it.
def oneMore (n : Nat) (parenthesized : Bool) (rounds : Nat) : Reader Unit := do
  discard advance
  discard (operandWith (valueWithin n))
  moreOperands (valueWithin n) parenthesized rounds

theorem moreOperands_apply (n : Nat) (parenthesized : Bool) (rounds : Nat) (c : Cursor) :
    moreOperands (valueWithin n) parenthesized (rounds + 1) c =
      if goesOn parenthesized c then oneMore n parenthesized rounds c else .ok () c := by
  cases h : goesOn parenthesized c <;> unfold goesOn at h <;> simp only [moreOperands] <;>
    simp only [bind_apply, get_apply] <;> simp only [h] <;> rfl

theorem lt_of_oneMore {n rounds : Nat} {parenthesized : Bool}
    (hgoes : goesOn parenthesized c = true) (h : oneMore n parenthesized rounds c = .ok () c') :
    c.pos + 1 < c'.pos := by
  have hcomma : c.nextIs "," = true := by
    simp only [goesOn, Bool.and_eq_true] at hgoes
    exact hgoes.1.1
  have hvalues : Forward (valueWithin n) := .valueWithin n
  have hoperand : Takes (do
      Functor.discard (operandWith (valueWithin n))
      moreOperands (valueWithin n) parenthesized rounds) :=
    .bind (.discard (.operandWith (.valueWithin n) hvalues)) fun _ => .moreOperands hvalues _ _
  exact Takes.lt_of_bind (takesAt_next hcomma) (fun _ => hoperand) h

-- More operands are read behind a comma, or none.
theorem begins_moreOperands (n : Nat) (parenthesized : Bool) (rounds : Nat) :
    Begins w w.Ended w.Ended (moreOperands (valueWithin n) parenthesized rounds) := by
  intro c _ c' hc h hle hended
  cases rounds with
  | zero =>
    cases h
    exact hended
  | succ rounds =>
    rw [moreOperands_apply] at h
    split at h
    · next hgoes =>
      have hlt := lt_of_oneMore hgoes h
      simp only [goesOn, Bool.and_eq_true] at hgoes
      exact .inr (.inr (.inr ⟨hgoes.1.1, by omega⟩))
    · cases h
      exact hended

theorem goesOn_eq (hsees : w.Sees c d) (hc : c.pos + 1 < w.stop) (parenthesized : Bool) :
    goesOn parenthesized d = goesOn parenthesized c := by
  obtain ⟨t, t', ht, ht', hface⟩ := hsees.exists_peekNth? hc
  have hcomma := hsees.nextIs_eq (Nat.lt_of_succ_lt hc) ","
  simp only [goesOn, isAnnotationStart, hcomma, hsees.nthIs_eq hc, ht, ht', Option.any_some,
    Token.isWord_eq_of_face hface, Token.text_eq_of_face hface]

-- Where the operands end within the window, they end in the part.
theorem goesOn_ended (hsees : w.Sees c d) (hended : w.Ended c) {parenthesized : Bool}
    (hgoes : goesOn parenthesized c = false) : goesOn parenthesized d = false := by
  by_cases hc : c.pos + 1 < w.stop
  · rwa [goesOn_eq hsees hc]
  · have hcomma : ¬d.nextIs "," = true := by
      intro hpart
      have hwhole : c.nextIs "," = true := hsees.nthIs_of_part hpart
      rcases hended with hstop | hclose | hto | ⟨-, hlt⟩
      · rw [Cursor.nextIs_eq_false (hsees.remaining_eq_zero hstop)] at hpart
        cases hpart
      · have hother : c.nextIs "," = false := Cursor.nthIs_unique hclose (by decide)
        rw [hwhole] at hother
        cases hother
      · have hother : c.nextIs "," = false := Cursor.nthIs_unique hto (by decide)
        rw [hwhole] at hother
        cases hother
      · exact hc hlt
    simp [goesOn, hcomma]

namespace Keeps

section Nested

variable {n : Nat}
  (hvalue : Keeps w w.Ended unseen (Reader.valueWithin n) (Reader.valueWithin n))

include hvalue

theorem typedOrBare : Keeps w w.Ended unseen (typedOrBare (Reader.valueWithin n))
    (typedOrBare (Reader.valueWithin n)) := by
  have htyped : Keeps w w.Ended unseen
      (do Functor.discard Reader.type; (Functor.discard (Reader.valueWithin n) : Reader Unit))
      (do Functor.discard Reader.type; (Functor.discard (Reader.valueWithin n) : Reader Unit)) :=
    .next_bind (.discard .type) fun _ _ _ => .discard hvalue
  refine ⟨.typedOrBare (.valueWithin n), fun c d hsees => ?_⟩
  intro _ c' h hle hended
  rw [Reader.typedOrBare, bind_apply] at h ⊢
  unfold Reader.attempt at h ⊢
  cases hread : (do
      Functor.discard Reader.type
      (Functor.discard (Reader.valueWithin n) : Reader Unit)) c with
  | ok _ c'' =>
    rw [hread] at h
    obtain ⟨-, rfl⟩ := h
    obtain ⟨_, d', hpart, -, hsees'⟩ := htyped.follows c d hsees _ _ hread hle hended
    exact ⟨(), d', by rw [hpart]; rfl, rfl, hsees'⟩
  | error e c'' =>
    rw [hread] at h
    obtain ⟨s, hs⟩ : ∃ s, Reader.valueWithin n c = .ok s c' := by
      cases hs : Reader.valueWithin n c with
      | ok s c'' =>
        simp [hs] at h
        exact ⟨s, by rw [h]⟩
      | error e c'' => simp [hs] at h
    obtain ⟨e', d'', herror⟩ := typed_error hsees hs hle hended
    obtain ⟨s', d', hpart, -, hsees'⟩ := hvalue.follows c d hsees s c' hs hle hended
    exact ⟨(), d', by rw [herror]; simp [hpart], rfl, hsees'⟩

theorem operandWith : Keeps w w.Ended unseen (operandWith (Reader.valueWithin n))
    (operandWith (Reader.valueWithin n)) := by
  have hrest := typedOrBare hvalue
  have hrestTakes : Takes (Reader.typedOrBare (Reader.valueWithin n)) :=
    .typedOrBare (.valueWithin n) (.valueWithin n)
  have hgroup : Keeps w w.Ended unseen
      (do Reader.skipGroup; Reader.typedOrBare (Reader.valueWithin n))
      (do Reader.skipGroup; Reader.typedOrBare (Reader.valueWithin n)) :=
    .next_bind .skipGroup fun _ _ _ => hrest
  have hgroupTakes : Takes (do Reader.skipGroup; Reader.typedOrBare (Reader.valueWithin n)) :=
    .bind .skipGroup fun _ => hrest.forward
  refine .covered (.next_bind (.eat _) fun found found' hfound => ?_)
  obtain rfl : found = found' := hfound
  refine .ite ?_ hrest
  refine .get_bind (.bind .get fun _ => .ite hgroup.forward hrest.forward) fun c d hsees =>
    .of_takes (.ite (hgroupTakes c hsees.inside) (hrestTakes c hsees.inside)) fun hc => ?_
  rw [hsees.nextIs_eq hc]
  exact .ite (fun _ => hgroup.follows c d hsees) fun _ => hrest.follows c d hsees

-- Where there is no comma in the part, there is none within the window.
theorem moreOperands (parenthesized : Bool) (rounds : Nat) :
    Keeps w w.Ended unseen (moreOperands (Reader.valueWithin n) parenthesized rounds)
      (moreOperands (Reader.valueWithin n) parenthesized rounds) := by
  induction rounds with
  | zero => exact .pure rfl
  | succ rounds ih =>
    have hmore : Keeps w w.Ended unseen (oneMore n parenthesized rounds)
        (oneMore n parenthesized rounds) :=
      .next_bind (.discard .advance) fun _ _ _ => .bind (.discard (operandWith hvalue))
        (fun _ _ _ => ih) fun _ => begins_moreOperands n parenthesized rounds
    refine ⟨.moreOperands (.valueWithin n) _ _, fun c d hsees => ?_⟩
    intro _ c' h hle hended
    rw [moreOperands_apply] at h ⊢
    split at h
    · next hgoes =>
      have hlt := lt_of_oneMore hgoes h
      rw [goesOn_eq hsees (by omega), if_pos hgoes]
      exact hmore.follows c d hsees () c' h hle hended
    · next hgoes =>
      cases h
      rw [goesOn_ended hsees hended (Bool.not_eq_true _ ▸ hgoes)]
      exact ⟨(), d, rfl, rfl, hsees⟩

omit hvalue in
theorem closing (parenthesized : Bool) : Keeps w w.Ended unseen
    (if parenthesized then Functor.discard (Reader.expect ")" "')'") else return () : Reader Unit)
    (if parenthesized then Functor.discard (Reader.expect ")" "')'") else return ()) :=
  .ite (.discard (.expect _ _)) (.pure rfl)

theorem constantCast : Keeps w w.Ended unseen (constantCast (Reader.valueWithin n))
    (constantCast (Reader.valueWithin n)) := by
  refine .next_bind (.discard (.run _)) fun _ _ _ =>
    .next_bind (.eat _) fun found found' hfound => ?_
  obtain rfl : found = found' := hfound
  have htarget : Keeps w w.Ended unseen
      (do
        Functor.discard Reader.type
        if found then Functor.discard (Reader.expect ")" "')'"))
      (do
        Functor.discard Reader.type
        if found then Functor.discard (Reader.expect ")" "')'")) :=
    .next_bind (.discard .type) fun _ _ _ => closing found
  refine .next_bind (.discard .type) fun _ _ _ => .bind (.discard hvalue) (fun _ _ _ =>
    .next_bind (.discard (.expect _ _)) fun _ _ _ => htarget) fun _ => ?_
  exact .bind (begins_expect _ fun _ hto => .inr (.inr (.inl hto))) (fun _ => begins_anywhere)
    (.discard (.expect _ _)) fun _ => htarget.forward

theorem constantExpression : Keeps w w.Ended unseen (constantExpression (Reader.valueWithin n))
    (constantExpression (Reader.valueWithin n)) := by
  refine .next_bind (.next _) fun head head' hface => ?_
  rw [Token.text_eq_of_face hface]
  refine .ite (constantCast hvalue) ?_
  have hvalues : Forward (Reader.valueWithin n) := .valueWithin n
  refine .rounds_bind (fun rounds => constantFlags _ rounds _)
    (fun _ hc _ hn => (settles_constantFlags _).loop_eq hc hn _) (fun _ _ _ => ?_) fun _ => ?_
  · refine .next_bind (.eat _) fun found found' hfound => ?_
    obtain rfl : found = found' := hfound
    refine .bind (.discard (operandWith hvalue)) (fun _ _ _ => ?_) fun _ => ?_
    · exact .rounds_bind (moreOperands hvalue found)
        (fun _ hc _ hn => (settles_moreOperands hvalues found).loop_eq hc hn ())
        (fun _ _ _ => closing found) fun _ => begins_closing found
    · exact .get_bind fun c => .bind (begins_moreOperands n found _) (fun _ => begins_closing found)
        (.moreOperands hvalues _ _) fun _ => .ite (.discard (.expect _ _)) (.pure _)
  · exact Takes.begins (.after (.eat _) fun found =>
      .bind (.discard (.operandWith (.valueWithin n) hvalues)) fun _ => .bind .get fun _ =>
        .bind (.moreOperands hvalues _ _) fun _ => .ite (.discard (.expect _ _)) (.pure _))

omit hvalue in
-- The fields of a metadata node.
theorem optionalGroup : Keeps w w.Ended unseen
    (do
      let c ← get
      if c.nextIs "\x7b" || c.nextIs "(" then Reader.skipGroup)
    (do
      let c ← get
      if c.nextIs "\x7b" || c.nextIs "(" then Reader.skipGroup) := by
  refine .get_bind (.bind .get fun _ => .ite .skipGroup (.pure _)) fun c d hsees => ?_
  refine .look ?_ ?_ (fun _ _ => Keeps.skipGroup.follows c d hsees) fun _ _ => .pure hsees rfl
  · simp only [Bool.or_eq_true]
    exact Or.imp hsees.nthIs_of_part hsees.nthIs_of_part
  · intro hwhole hpart a c' h
    rw [Bool.or_eq_false_iff] at hpart
    have hend : w.stop ≤ c.pos := by
      rcases Bool.or_eq_true_iff.mp hwhole with hnext | hnext
      · exact hsees.beyond_of_nthIs hnext hpart.1
      · exact hsees.beyond_of_nthIs hnext hpart.2
    have hlt := (Takes.skipGroup c hsees.inside a c' h).2
    omega

theorem wordValue (text : String) : Keeps w w.Ended unseen
    (wordValue (Reader.valueWithin n) text) (wordValue (Reader.valueWithin n) text) := by
  refine .ite (.next_bind (.discard .advance) fun _ _ _ => optionalGroup) (.ite (.discard .advance)
    (.ite (.next_bind (.discard .advance) fun _ _ _ => ?_) (.ite (.discard .inlineAssembly)
      (.ite (constantExpression hvalue) (.throw _ _)))))
  have hforward : Forward (do
      if (← get).nextIs "(" then Reader.skipGroup
      else (Functor.discard (Reader.valueWithin n) : Reader Unit)) :=
    .bind .get fun _ => .ite .skipGroup (.discard (.valueWithin n))
  refine .get_bind hforward fun c d hsees => .of_takes (.ite (Takes.skipGroup c hsees.inside)
    ((Takes.valueWithin n).discard c hsees.inside)) fun hc => ?_
  rw [hsees.nextIs_eq hc]
  exact .ite (fun _ => Keeps.skipGroup.follows c d hsees) fun _ =>
    (Keeps.discard hvalue).follows c d hsees

theorem valueOver : Keeps w w.Ended unseen (valueOver (Reader.valueWithin n))
    (valueOver (Reader.valueWithin n)) := by
  have htakes : Takes (Reader.valueOver (Reader.valueWithin n)) := .valueOver (.valueWithin n)
  refine ⟨.valueOver (.valueWithin n), fun c d hsees =>
    .of_takes (htakes c hsees.inside) fun hc => ?_⟩
  obtain ⟨t, t', ht, ht', hface⟩ := hsees.exists_peek? hc
  refine .covered (.get_bind ?_)
  rw [ht, ht']
  simp only [Token.isPunct_eq_of_face hface, Token.isWord_eq_of_face hface,
    Token.text_eq_of_face hface]
  exact .ite (fun _ => Keeps.skipGroup.follows c d hsees) fun _ =>
    .ite (fun _ => (wordValue hvalue _).follows c d hsees) fun _ => .throw _ _

end Nested

theorem valueWithin (depth : Nat) :
    Keeps w w.Ended unseen (valueWithin depth) (valueWithin depth) := by
  induction depth with
  | zero => exact .throw _ _
  | succ depth ih => exact valueOver ih

theorem value : Keeps w w.Ended unseen value value :=
  .rounds valueWithin fun _ hc _ hn => settles_valueWithin.loop_eq hc hn ()

theorem operand : Keeps w w.Ended unseen operand operand := by
  refine ⟨.operand, fun c d hsees => ?_⟩
  intro s c' h hle hended
  rw [AgreeBelow.operand c.remaining c hsees.inside (Nat.lt_succ_self _)] at h
  rw [AgreeBelow.operand c.remaining d hsees.inside_part (Nat.lt_succ_of_le hsees.remaining_le)]
  exact (operandWith (valueWithin c.remaining)).follows c d hsees s c' h hle hended

end Keeps

end Reader

end TestFocus
