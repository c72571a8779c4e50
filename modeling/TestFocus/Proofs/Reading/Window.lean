import TestFocus.Proofs.Reading.Rounds

-- A reader on a text, and the same reader on a part of its tokens alone. As long as it ends
-- within the part, it takes the same way there; only where it looks at tokens beyond the part,
-- something may be seen that is missing there.

namespace TestFocus

-- A token without its place.
def Token.face (t : Token) : TokenKind × String :=
  (t.kind, t.text)

-- The tokens of a text from one position up to another, and the same tokens of a text of their own.
structure Window where
  whole : List Token
  part : List Token
  start : Nat
  stop : Nat
  stop_le : stop ≤ whole.length
  same : part.map Token.face = ((whole.take stop).drop start).map Token.face

-- The cursors stand before the same token of the window, or at its end.
structure Window.Sees (w : Window) (c d : Cursor) : Prop where
  whole : c.tokens = w.whole
  part : d.tokens = w.part
  pos : c.pos = w.start + d.pos
  le : c.pos ≤ w.stop

theorem Token.kind_eq_of_face {t u : Token} (h : t.face = u.face) : t.kind = u.kind :=
  congrArg Prod.fst h

theorem Token.text_eq_of_face {t u : Token} (h : t.face = u.face) : t.text = u.text :=
  congrArg Prod.snd h

theorem Token.isPunct_eq_of_face {t u : Token} (h : t.face = u.face) (text : String) :
    t.isPunct text = u.isPunct text := by
  rw [Token.isPunct, Token.isPunct, kind_eq_of_face h, text_eq_of_face h]

theorem Token.isWord_eq_of_face {t u : Token} (h : t.face = u.face) : t.isWord = u.isWord := by
  rw [Token.isWord, Token.isWord, kind_eq_of_face h]

namespace Window

variable {w : Window}

theorem length_part : w.part.length = w.stop - w.start := by
  have hlength := congrArg List.length w.same
  have hle := w.stop_le
  simp only [List.length_map, List.length_drop, List.length_take] at hlength
  omega

theorem getElem?_part {i : Nat} (hi : w.start + i < w.stop) :
    w.part[i]?.map Token.face = w.whole[w.start + i]?.map Token.face := by
  have hsame := congrArg (·[i]?) w.same
  simpa [List.getElem?_take, hi] using hsame

end Window

namespace Cursor

theorem nthIs_unique {c : Cursor} {n : Nat} {s t : String} (hs : c.nthIs n s = true) (hne : s ≠ t) :
    c.nthIs n t = false := by
  simp only [nthIs, beq_iff_eq] at hs
  simp [nthIs, hs, hne]

end Cursor

namespace Window.Sees

variable {w : Window} {c d : Cursor} (h : w.Sees c d)

include h

theorem inside : c.Inside := by
  have hstop := w.stop_le
  have hle := h.le
  rw [Cursor.Inside, h.whole]
  omega

theorem inside_part : d.Inside := by
  have hle := h.le
  have hpos := h.pos
  rw [Cursor.Inside, h.part, length_part]
  omega

theorem remaining_part : d.remaining = w.stop - c.pos := by
  have hpos := h.pos
  rw [Cursor.remaining, h.part, length_part]
  omega

theorem remaining_le : d.remaining ≤ c.remaining := by
  have hstop := w.stop_le
  rw [h.remaining_part, Cursor.remaining, h.whole]
  omega

theorem remaining_eq_zero (hc : c.pos = w.stop) : d.remaining = 0 := by
  rw [h.remaining_part, hc, Nat.sub_self]

-- Within the window, the cursors see the same.
theorem peekNth? {n : Nat} (hn : c.pos + n < w.stop) :
    (d.peekNth? n).map Token.face = (c.peekNth? n).map Token.face := by
  have hsame := getElem?_part (w := w) (i := d.pos + n) (by have := h.pos; omega)
  rw [← Nat.add_assoc, ← h.pos] at hsame
  rwa [Cursor.peekNth?, Cursor.peekNth?, h.whole, h.part]

theorem nthIs_eq {n : Nat} (hn : c.pos + n < w.stop) (text : String) :
    d.nthIs n text = c.nthIs n text := by
  have htexts := congrArg (Option.map Prod.snd) (h.peekNth? hn)
  simp only [Option.map_map, Function.comp_def, Token.face] at htexts
  simp only [Cursor.nthIs, htexts]

theorem nextIs_eq (hc : c.pos < w.stop) (text : String) : d.nextIs text = c.nextIs text :=
  h.nthIs_eq hc text

theorem peekText?_eq (hc : c.pos < w.stop) : d.peekText? = c.peekText? := by
  have htexts := congrArg (Option.map Prod.snd) (h.peekNth? (n := 0) hc)
  simp only [Option.map_map, Function.comp_def, Token.face] at htexts
  exact htexts

-- Beyond the window, only the cursor on the whole text sees something.
theorem nthIs_of_part {n : Nat} {text : String} (hpart : d.nthIs n text = true) :
    c.nthIs n text = true := by
  have hlt := Cursor.lt_of_nthIs hpart
  rw [h.part, length_part] at hlt
  rwa [← h.nthIs_eq (by have := h.pos; omega)]

theorem beyond_of_nthIs {n : Nat} {text : String} (hwhole : c.nthIs n text = true)
    (hpart : d.nthIs n text = false) : w.stop ≤ c.pos + n := by
  by_contra hn
  rw [h.nthIs_eq (Nat.not_le.mp hn), hwhole] at hpart
  cases hpart

-- Within the window, there is a token, and it is the same for both.
theorem exists_peekNth? {n : Nat} (hn : c.pos + n < w.stop) :
    ∃ t t', c.peekNth? n = some t ∧ d.peekNth? n = some t' ∧ t.face = t'.face := by
  have hstop := w.stop_le
  have hwhole : c.pos + n < c.tokens.length := by rw [h.whole]; omega
  have hpeek : c.peekNth? n = some c.tokens[c.pos + n] := List.getElem?_eq_getElem hwhole
  have hsame := h.peekNth? hn
  rw [hpeek, Option.map_some, Option.map_eq_some_iff] at hsame
  obtain ⟨t', ht', hface⟩ := hsame
  exact ⟨_, t', hpeek, ht', hface.symm⟩

theorem exists_peek? (hc : c.pos < w.stop) :
    ∃ t t', c.peek? = some t ∧ d.peek? = some t' ∧ t.face = t'.face :=
  h.exists_peekNth? hc

theorem advance (hc : c.pos < w.stop) : w.Sees c.advance d.advance := by
  have hstop := w.stop_le
  have hpos := h.pos
  have hwhole : c.pos < c.tokens.length := by rw [h.whole]; omega
  have hpart : d.pos < d.tokens.length := by rw [h.part, length_part]; omega
  rw [Cursor.advance_eq hwhole, Cursor.advance_eq hpart]
  exact ⟨h.whole, h.part, by simp only [hpos]; omega, hc⟩

theorem advance_of_le (hc : c.advance.pos ≤ w.stop) : w.Sees c.advance d.advance := by
  by_cases hlt : c.pos < w.stop
  · exact h.advance hlt
  · -- neither cursor moves
    have hend : c.pos = w.stop := Nat.le_antisymm h.le (Nat.not_lt.mp hlt)
    have hpart : d.tokens.length ≤ d.pos := by
      have hzero := h.remaining_eq_zero hend
      simp only [Cursor.remaining] at hzero
      omega
    have hwhole : c.tokens.length ≤ c.pos := by
      by_contra hmore
      rw [Cursor.advance_eq (Nat.not_le.mp hmore)] at hc
      have hc : c.pos + 1 ≤ w.stop := hc
      omega
    have hc' : c.advance = c := by simp [Cursor.advance, Cursor.isEmpty, hwhole]
    have hd' : d.advance = d := by simp [Cursor.advance, Cursor.isEmpty, hpart]
    rwa [hc', hd']

theorem advanceBy {n : Nat} (hn : c.pos + n ≤ w.stop) : w.Sees (c.advanceBy n) (d.advanceBy n) := by
  have hstop := w.stop_le
  have hpos := h.pos
  have hwhole : min (c.pos + n) c.tokens.length = c.pos + n := by rw [h.whole]; omega
  have hpart : min (d.pos + n) d.tokens.length = d.pos + n := by
    rw [h.part, length_part]
    omega
  refine ⟨h.whole, h.part, ?_, ?_⟩
  · simp only [Cursor.advanceBy, hwhole, hpart]
    omega
  · simpa only [Cursor.advanceBy, hwhole] using hn

theorem advance_end {n : Nat} (hn : n ≤ c.rest.length) (hle : (c.advanceBy n).pos ≤ w.stop) :
    c.pos + n ≤ w.stop := by
  have hinside := h.inside
  simp only [Cursor.Inside] at hinside
  simp only [Cursor.rest, List.length_drop] at hn
  simp only [Cursor.advanceBy] at hle
  omega

theorem rest : d.rest.map Token.face = (c.rest.take (w.stop - c.pos)).map Token.face := by
  have hdrop := congrArg (List.drop d.pos) w.same
  rw [← List.map_drop, ← List.map_drop, List.drop_drop, List.drop_take, ← h.pos] at hdrop
  rw [Cursor.rest, Cursor.rest, h.whole, h.part, hdrop]

end Window.Sees

namespace Bracket

variable {awaited : List String} {ts us : List Token} {n k : Nat}

theorem matchGroup_face (h : ts.map Token.face = us.map Token.face) (awaited : List String) :
    matchGroup awaited ts = matchGroup awaited us := by
  induction ts generalizing us awaited with
  | nil =>
    obtain rfl : us = [] := by simpa using h.symm
    rfl
  | cons t ts ih =>
    obtain ⟨u, us, rfl⟩ : ∃ u us', us = u :: us' := by
      cases us with
      | nil => simp at h
      | cons u us => exact ⟨u, us, rfl⟩
    obtain ⟨hface, hrest⟩ := List.cons.inj h
    cases awaited with
    | nil => rfl
    | cons closer outer =>
      simp only [matchGroup, Token.kind_eq_of_face hface, Token.text_eq_of_face hface, ih hrest]

-- The closers due behind a token, unless it closes what is not open.
def dueAfter (closer : String) (outer : List String) (t : Token) : Option (List String) :=
  if t.kind ≠ .punct then some (closer :: outer)
  else match closer? t.text with
    | some nested => some (nested :: closer :: outer)
    | none =>
      if t.text = closer then some outer
      else if isCloser t.text then none
      else some (closer :: outer)

theorem matchGroup_cons (closer : String) (outer : List String) (t : Token) (ts : List Token) :
    matchGroup (closer :: outer) (t :: ts) = match dueAfter closer outer t with
      | some due => ((matchGroup due ts).1, (matchGroup due ts).2 + 1)
      | none => (false, 1) := by
  simp only [matchGroup, dueAfter]
  by_cases hkind : t.kind = .punct
  · simp only [hkind, ne_eq, not_true_eq_false, if_false]
    cases closer? t.text with
    | some nested => rfl
    | none =>
      by_cases hcloser : t.text = closer
      · simp only [hcloser, if_true]
      · by_cases hother : isCloser t.text = true <;> simp only [hcloser, hother, if_false, if_true]
        rfl
  · simp only [ne_eq, hkind, not_false_eq_true, if_true]

theorem exists_due {closer : String} {outer : List String} {t : Token}
    (h : matchGroup (closer :: outer) (t :: ts) = (true, n)) :
    ∃ due m, dueAfter closer outer t = some due ∧ matchGroup due ts = (true, m) ∧ n = m + 1 := by
  rw [matchGroup_cons] at h
  cases hdue : dueAfter closer outer t with
  | none =>
    rw [hdue] at h
    cases h
  | some due =>
    rw [hdue] at h
    obtain ⟨hclosed, hcount⟩ := Prod.mk.inj h
    exact ⟨due, (matchGroup due ts).2, rfl, Prod.ext hclosed rfl, hcount.symm⟩

theorem matchGroup_le (h : matchGroup awaited ts = (true, n)) : n ≤ ts.length := by
  induction ts generalizing awaited n with
  | nil =>
    cases awaited with
    | nil => cases h; exact Nat.le_refl _
    | cons closer outer => cases h
  | cons t ts ih =>
    cases awaited with
    | nil => cases h; exact Nat.zero_le _
    | cons closer outer =>
      obtain ⟨due, m, -, hrest, rfl⟩ := exists_due h
      exact Nat.succ_le_succ (ih hrest)

-- A group that is closed within the first tokens is closed in those tokens alone.
theorem matchGroup_take (h : matchGroup awaited ts = (true, n)) (hn : n ≤ k) :
    matchGroup awaited (ts.take k) = (true, n) := by
  induction ts generalizing awaited n k with
  | nil => rwa [List.take_nil]
  | cons t ts ih =>
    cases awaited with
    | nil =>
      cases h
      simp [matchGroup]
    | cons closer outer =>
      obtain ⟨due, m, hdue, hrest, rfl⟩ := exists_due h
      obtain ⟨k, rfl⟩ : ∃ i, k = i + 1 := ⟨k - 1, by omega⟩
      rw [List.take_succ_cons, matchGroup_cons, hdue]
      simp only [ih hrest (Nat.le_of_succ_le_succ hn)]

end Bracket

namespace Reader

-- The closing bracket of a group that begins with the token.
def groupCloser? (t : Token) : Option String :=
  if t.isWord then none else Bracket.closer? t.text

theorem group_apply (c : Cursor) : group c = match c.peek? with
    | none => .error (.unexpectedEnd "opening bracket") c
    | some t => match groupCloser? t with
      | none => .error (.unexpected "opening bracket" t.text) c.advance
      | some closer => match Bracket.matchGroup [closer] c.advance.rest with
        | (true, n) =>
          .ok ((c.advance.advanceBy n).textSince c.pos) (c.advance.advanceBy n)
        | (false, n) =>
          .error (.unbalanced t.text (c.advance.advanceBy n).source) (c.advance.advanceBy n) := by
  simp only [group, next, bind_apply, get_apply]
  cases c.peek? with
  | none => rfl
  | some t =>
    have hcloser : (if t.isWord then none else Bracket.closer? t.text) = groupCloser? t := rfl
    simp only [hcloser]
    cases groupCloser? t with
    | none => rfl
    | some closer =>
      simp only [bind_apply, get_apply, modify_apply]
      cases Bracket.matchGroup [closer] c.advance.rest with
      | mk closed n => cases closed <;> rfl

-- All that is read as a bracketed group.
theorem group_eq_ok_iff {c c' : Cursor} {s : String} :
    group c = .ok s c' ↔ ∃ t closer n, c.peek? = some t ∧ groupCloser? t = some closer ∧
      Bracket.matchGroup [closer] c.advance.rest = (true, n) ∧
      c' = c.advance.advanceBy n ∧ s = (c.advance.advanceBy n).textSince c.pos := by
  rw [group_apply]
  constructor
  · intro h
    split at h
    · cases h
    · next t hpeek =>
      split at h
      · cases h
      · next closer hcloser =>
        split at h
        · next n hmatch =>
          cases h
          exact ⟨t, closer, n, hpeek, hcloser, hmatch, rfl, rfl⟩
        · cases h
  · rintro ⟨t, closer, n, hpeek, hcloser, hmatch, rfl, rfl⟩
    simp only [hpeek, hcloser, hmatch]

theorem covered_eq_ok_iff {x : Reader Unit} {c c' : Cursor} {s : String} :
    covered x c = .ok s c' ↔ x c = .ok () c' ∧ s = c'.textSince c.pos := by
  simp only [covered, bind_apply, get_apply, pure_apply]
  cases h : x c with
  | ok a c'' =>
    constructor
    · intro hok
      cases hok
      exact ⟨rfl, rfl⟩
    · rintro ⟨⟨⟩, rfl⟩
      rfl
  | error e c'' => simp

variable {α β κ ι : Type} {w : Window} {P Q : Cursor → Prop} {v : α → κ} {u : β → ι}
  {x y x' y' : Reader α} {f g : α → Reader β} {c d : Cursor}

-- If the reader succeeds on the whole text, ends within the window and where `after` holds, then
-- the reader on the part succeeds too, ends before the same token, and returns what looks the same.
def FollowsAt (w : Window) (after : Cursor → Prop) (view : α → κ) (x y : Reader α) (c d : Cursor) :
    Prop :=
  ∀ a c', x c = .ok a c' → c'.pos ≤ w.stop → after c' →
    ∃ b d', y d = .ok b d' ∧ view a = view b ∧ w.Sees c' d'

structure Keeps (w : Window) (after : Cursor → Prop) (view : α → κ) (x y : Reader α) : Prop where
  forward : Forward x
  follows : ∀ c d, w.Sees c d → FollowsAt w after view x y c d

-- Wherever the reader ends within the window and where `after` holds, it began where `before`
-- holds.
def Begins (w : Window) (before after : Cursor → Prop) (x : Reader α) : Prop :=
  ∀ c a c', c.Inside → x c = .ok a c' → c'.pos ≤ w.stop → after c' → before c

-- The result does not matter.
def unseen (_ : α) : Unit := ()

def Anywhere (_ : Cursor) : Prop := True

-- The window goes on.
def Before (w : Window) (c : Cursor) : Prop := c.pos < w.stop

theorem begins_anywhere : Begins w Anywhere Q x :=
  fun _ _ _ _ _ _ _ => trivial

namespace Begins

variable {R : Cursor → Prop}

theorem pure (a : α) : Begins w P P (pure a : Reader α) := by
  rintro c _ _ - ⟨⟩ - hafter
  exact hafter

theorem bind (hx : Begins w P R x) (hf : ∀ a, Begins w R Q (f a)) (hforward : Forward x)
    (hforward' : ∀ a, Forward (f a)) : Begins w P Q (x >>= f) := by
  intro c b c'' hc h hle hafter
  rw [bind_apply] at h
  split at h
  · next a c' ha =>
    have hinside := (hforward.reaches hc ha).inside
    have hreach := (hforward' a).reaches hinside h
    exact hx c a c' hc ha (Nat.le_trans hreach.le hle) (hf a c' b c'' hinside h hle hafter)
  · cases h

theorem get_bind {f : Cursor → Reader β} (hf : ∀ c, Begins w P Q (f c)) :
    Begins w P Q (get >>= f) :=
  fun c => hf c c

theorem ite {p : Prop} [Decidable p] (hx : Begins w P Q x) (hx' : Begins w P Q x') :
    Begins w P Q (if p then x else x') := by
  split
  · exact hx
  · exact hx'

end Begins

theorem Takes.begins (hx : Takes x) : Begins w (Before w) Q x := by
  intro c a c' hc h hle _
  exact Nat.lt_of_lt_of_le (hx c hc a c' h).2 hle

namespace FollowsAt

theorem bind (hsees : w.Sees c d) (hforward : Forward x) (hx : FollowsAt w P v x y c d)
    (hf : ∀ a b, v a = v b → Keeps w Q u (f a) (g b)) (hbegins : ∀ a, Begins w P Q (f a)) :
    FollowsAt w Q u (x >>= f) (y >>= g) c d := by
  intro b c'' h hle hafter
  rw [bind_apply] at h
  split at h
  · next a c' ha =>
    have hinside : c'.Inside := (hforward.reaches hsees.inside ha).inside
    have hreach := (hf a a rfl).forward.reaches hinside h
    have hbefore : P c' := hbegins a c' b c'' hinside h hle hafter
    obtain ⟨a', d', ha', hview, hsees'⟩ := hx a c' ha (Nat.le_trans hreach.le hle) hbefore
    obtain ⟨b', d'', hb', hview', hsees''⟩ :=
      (hf a a' hview).follows c' d' hsees' b c'' h hle hafter
    exact ⟨b', d'', by rw [bind_apply, ha']; exact hb', hview', hsees''⟩
  · cases h

theorem pure {a b : α} (hsees : w.Sees c d) (hview : v a = v b) :
    FollowsAt w P v (pure a) (pure b) c d := by
  rintro _ _ ⟨⟩ _ _
  exact ⟨b, d, rfl, hview, hsees⟩

theorem throw (e e' : ParseError) : FollowsAt w P v (throw e) (throw e') c d := by
  rintro _ _ ⟨⟩

theorem ite {p : Prop} [Decidable p] (hx : p → FollowsAt w P v x y c d)
    (hx' : ¬p → FollowsAt w P v x' y' c d) :
    FollowsAt w P v (if p then x else x') (if p then y else y') c d := by
  split
  · next hp => exact hx hp
  · next hp => exact hx' hp

theorem get_bind {f g : Cursor → Reader β} (hf : FollowsAt w P u (f c) (g d) c d) :
    FollowsAt w P u (get >>= f) (get >>= g) c d :=
  hf

theorem covered {x y : Reader Unit} (hx : FollowsAt w P unseen x y c d) :
    FollowsAt w P unseen (covered x) (covered y) c d := by
  intro s c' h hle hafter
  have hread := (covered_eq_ok_iff.mp h).1
  obtain ⟨b, d', hb, -, hsees'⟩ := hx () c' hread hle hafter
  exact ⟨_, d', covered_eq_ok_iff.mpr ⟨hb, rfl⟩, rfl, hsees'⟩

-- A reader that has to take a token does not begin at the end of the window.
theorem of_takes (htakes : TakesAt x c)
    (hx : c.pos < w.stop → FollowsAt w P v x y c d) : FollowsAt w P v x y c d := by
  intro a c' h hle
  have hlt := (htakes a c' h).2
  exact hx (Nat.lt_of_lt_of_le hlt hle) a c' h hle

-- Nor does a reader that does not end there.
theorem of_before (hreach : ∀ a c', x c = .ok a c' → c.Reaches c')
    (hx : c.pos < w.stop → FollowsAt w (Before w) v x y c d) :
    FollowsAt w (Before w) v x y c d := by
  intro a c' h hle hbefore
  exact hx (Nat.lt_of_le_of_lt (hreach a c' h).le hbefore) a c' h hle hbefore

-- A look at the next tokens may see more in the whole text; but what is then read there goes beyond
-- the window.
theorem look {p q : Bool} (hqp : q = true → p = true)
    (hbeyond : p = true → q = false → ∀ a c', x c = .ok a c' → w.stop < c'.pos)
    (hx : p = true → q = true → FollowsAt w P v x y c d)
    (hx' : p = false → q = false → FollowsAt w P v x' y' c d) :
    FollowsAt w P v (if p then x else x') (if q then y else y') c d := by
  cases q with
  | true =>
    rw [hqp rfl]
    exact hx (hqp rfl) rfl
  | false =>
    cases p with
    | true =>
      intro a c' h hle
      have := hbeyond rfl rfl a c' h
      omega
    | false => exact hx' rfl rfl

-- The look is at the next token only, and that token is then taken.
theorem look_next (hsees : w.Sees c d) (text : String) (htakes : c.nextIs text = true → TakesAt x c)
    (hx : c.nextIs text = true → c.pos < w.stop → FollowsAt w P v x y c d)
    (hx' : c.nextIs text = false → FollowsAt w P v x' y' c d) :
    FollowsAt w P v (if c.nextIs text then x else x') (if d.nextIs text then y else y') c d := by
  refine look hsees.nthIs_of_part ?_ ?_ fun hwhole _ => hx' hwhole
  · intro hwhole hpart a c' h
    have hend := hsees.beyond_of_nthIs hwhole hpart
    have hlt := (htakes hwhole a c' h).2
    omega
  · intro hwhole _
    exact of_takes (htakes hwhole) (hx hwhole)

end FollowsAt

namespace Keeps

theorem bind (hx : Keeps w P v x y) (hf : ∀ a b, v a = v b → Keeps w Q u (f a) (g b))
    (hbegins : ∀ a, Begins w P Q (f a)) : Keeps w Q u (x >>= f) (y >>= g) :=
  ⟨.bind hx.forward fun a => (hf a a rfl).forward,
    fun c d hsees => .bind hsees hx.forward (hx.follows c d hsees) hf hbegins⟩

-- Whatever comes next.
theorem next_bind (hx : Keeps w Anywhere v x y)
    (hf : ∀ a b, v a = v b → Keeps w Q u (f a) (g b)) : Keeps w Q u (x >>= f) (y >>= g) :=
  .bind hx hf fun _ => begins_anywhere

theorem pure {a b : α} (hview : v a = v b) : Keeps w P v (pure a) (pure b) :=
  ⟨.pure a, fun _ _ hsees => .pure hsees hview⟩

theorem throw (e e' : ParseError) : Keeps w P v (throw e) (throw e') :=
  ⟨.throw e, fun _ _ _ => .throw e e'⟩

theorem ite {p : Prop} [Decidable p] (hx : Keeps w P v x y) (hx' : Keeps w P v x' y') :
    Keeps w P v (if p then x else x') (if p then y else y') := by
  split
  · exact hx
  · exact hx'

theorem get_bind {f g : Cursor → Reader β} (hforward : Forward (get >>= f))
    (hf : ∀ c d, w.Sees c d → FollowsAt w P u (f c) (g d) c d) :
    Keeps w P u (get >>= f) (get >>= g) :=
  ⟨hforward, hf⟩

theorem discard (hx : Keeps w P v x y) :
    Keeps w P unseen (discard x : Reader Unit) (discard y) := by
  refine ⟨.discard hx.forward, fun c d hsees => ?_⟩
  intro _ c' h hle hafter
  rw [discard_apply] at h
  split at h
  · next a c'' ha =>
    obtain ⟨-, rfl⟩ := h
    obtain ⟨b, d', hb, -, hsees'⟩ := hx.follows c d hsees a _ ha hle hafter
    exact ⟨(), d', by rw [discard_apply, hb], rfl, hsees'⟩
  · cases h

theorem covered {x y : Reader Unit} (hx : Keeps w P unseen x y) :
    Keeps w P unseen (covered x) (covered y) :=
  ⟨.covered hx.forward, fun c d hsees => .covered (hx.follows c d hsees)⟩

-- The bounds on the rounds differ, but neither is reached.
theorem rounds {F : Nat → Reader α} (hF : ∀ n, Keeps w P v (F n) (F n))
    (hsettles : ∀ c : Cursor, c.Inside → ∀ n, c.remaining ≤ n → F n c = F c.remaining c) :
    Keeps w P v (do F (← get).remaining) (do F (← get).remaining) := by
  refine .get_bind (.bind .get fun c => (hF _).forward) fun c d hsees => ?_
  intro a c' h hle hafter
  rw [← hsettles d hsees.inside_part c.remaining hsees.remaining_le]
  exact (hF c.remaining).follows c d hsees a c' h hle hafter

theorem rounds_bind {F : Nat → Reader α} (hF : ∀ n, Keeps w P v (F n) (F n))
    (hsettles : ∀ c : Cursor, c.Inside → ∀ n, c.remaining ≤ n → F n c = F c.remaining c)
    (hf : ∀ a b, v a = v b → Keeps w Q u (f a) (g b)) (hbegins : ∀ a, Begins w P Q (f a)) :
    Keeps w Q u (do f (← F (← get).remaining)) (do g (← F (← get).remaining)) := by
  have hrounds := Keeps.bind (.rounds hF hsettles) hf hbegins
  simpa only [bind_assoc] using hrounds

theorem advance : Keeps w P unseen advance advance := by
  refine ⟨.advance, fun c d hsees => ?_⟩
  rintro _ _ ⟨⟩ hle -
  exact ⟨_, _, rfl, rfl, hsees.advance_of_le hle⟩

theorem next (expected : String) : Keeps w P Token.face (next expected) (next expected) := by
  refine ⟨.next expected, fun c d hsees => .of_takes (Takes.next _ c hsees.inside) ?_⟩
  intro hc
  obtain ⟨t, t', ht, ht', hface⟩ := hsees.exists_peek? hc
  unfold FollowsAt Reader.next
  rw [ht, ht']
  rintro _ _ ⟨⟩ - -
  exact ⟨t', _, rfl, hface, hsees.advance hc⟩

theorem expect (text expected : String) :
    Keeps w P unseen (expect text expected) (expect text expected) := by
  refine ⟨.expect _ _, fun c d hsees => .of_takes (Takes.expect _ _ c hsees.inside) ?_⟩
  intro hc
  obtain ⟨t, t', ht, ht', hface⟩ := hsees.exists_peek? hc
  unfold FollowsAt Reader.expect
  rw [ht, ht']
  simp only [Token.text_eq_of_face hface]
  split
  · rintro _ _ ⟨⟩ - -
    exact ⟨t', _, rfl, trivial, hsees.advance hc⟩
  · rintro _ _ ⟨⟩

theorem eat (text : String) : Keeps w P id (eat text) (eat text) := by
  refine ⟨.eat text, fun c d hsees => ?_⟩
  intro taken c' h hle _
  unfold Reader.eat at h ⊢
  split at h
  · next hnext =>
    cases h
    have hlt : c.pos < w.stop := by
      rwa [Cursor.advance_eq (Cursor.lt_of_nthIs hnext)] at hle
    rw [hsees.nextIs_eq hlt, if_pos hnext]
    exact ⟨true, _, rfl, rfl, hsees.advance hlt⟩
  · next hnext =>
    cases h
    have hpart : ¬d.nextIs text = true := fun hpart => hnext (hsees.nthIs_of_part hpart)
    rw [if_neg hpart]
    exact ⟨false, d, rfl, rfl, hsees⟩

theorem comma : Keeps w P unseen comma comma :=
  .discard (.expect _ _)

theorem string (expected : String) : Keeps w P unseen (string expected) (string expected) := by
  refine .next_bind (.next _) fun t t' hface => ?_
  rw [Token.kind_eq_of_face hface, Token.text_eq_of_face hface]
  exact .ite (.pure rfl) (.throw _ _)

theorem run (p : String → Bool) : Keeps w P id (run p) (run p) := by
  refine ⟨.run p, fun c d hsees => ?_⟩
  rintro _ _ ⟨⟩ hle -
  have htexts : d.rest.map (·.text) = (c.rest.map (·.text)).take (w.stop - c.pos) := by
    have hsame := congrArg (List.map Prod.snd) hsees.rest
    simpa [Token.face, Function.comp_def] using hsame
  have htaken := (List.takeWhile_sublist p (l := c.rest.map (·.text))).length_le
  rw [List.length_map] at htaken
  have hend := hsees.advance_end htaken hle
  have hpart : (d.rest.map (·.text)).takeWhile p = (c.rest.map (·.text)).takeWhile p := by
    rw [htexts, ← List.take_takeWhile, List.take_of_length_le (by omega)]
  refine ⟨_, _, rfl, hpart.symm, ?_⟩
  rw [hpart]
  exact hsees.advanceBy hend

theorem group : Keeps w P unseen group group := by
  refine ⟨.group, fun c d hsees => .of_takes (Takes.group c hsees.inside) ?_⟩
  intro hc s c' h hle _
  obtain ⟨t, closer, n, ht, hcloser, hmatch, rfl, -⟩ := group_eq_ok_iff.mp h
  obtain ⟨u, t', hu, ht', hface⟩ := hsees.exists_peek? hc
  obtain rfl : u = t := Option.some.inj (hu.symm.trans ht)
  have hnext := hsees.advance hc
  have hend := hnext.advance_end (Bracket.matchGroup_le hmatch) hle
  refine ⟨_, _, group_eq_ok_iff.mpr ⟨t', closer, n, ht', ?_, ?_, rfl, rfl⟩, rfl,
    hnext.advanceBy hend⟩
  · rwa [groupCloser?, ← Token.isWord_eq_of_face hface, ← Token.text_eq_of_face hface]
  · rw [Bracket.matchGroup_face hnext.rest]
    exact Bracket.matchGroup_take hmatch (by omega)

theorem skipGroup : Keeps w P unseen skipGroup skipGroup :=
  .discard group

end Keeps

end Reader

end TestFocus
