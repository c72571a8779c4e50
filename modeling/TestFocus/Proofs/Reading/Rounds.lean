import Mathlib.Logic.Function.Iterate
import TestFocus.Proofs.Reading.Progress

-- The loops of the readers. Each of them, and the nesting of values, is given a bound on its
-- rounds: the number of tokens left. A round takes a token before the next one begins, so a loop
-- ends by itself and a greater bound changes nothing.

namespace TestFocus

namespace Cursor

variable {c c' : Cursor}

theorem Reaches.remaining_le (h : c.Reaches c') : c'.remaining ≤ c.remaining := by
  have hle := h.le
  simp only [remaining, h.tokens]
  omega

theorem Reaches.remaining_lt (h : c.Reaches c') (hlt : c.pos < c'.pos) :
    c'.remaining < c.remaining := by
  have hinside := h.inside
  simp only [Inside, h.tokens] at hinside
  simp only [remaining, h.tokens]
  omega

theorem peekNth?_eq_none (hc : c.remaining = 0) (n : Nat) : c.peekNth? n = none := by
  simp only [remaining] at hc
  rw [peekNth?, List.getElem?_eq_none_iff]
  omega

theorem nthIs_eq_false (hc : c.remaining = 0) (n : Nat) (text : String) :
    c.nthIs n text = false := by
  simp [nthIs, peekNth?_eq_none hc]

theorem nextIs_eq_false (hc : c.remaining = 0) (text : String) : c.nextIs text = false :=
  nthIs_eq_false hc 0 text

end Cursor

namespace Reader

variable {α β : Type} {k : Nat} {x y : Reader α} {f g : α → Reader β}

-- The readers do the same as long as fewer than `k` tokens are left.
def AgreeBelow (k : Nat) (x y : Reader α) : Prop :=
  ∀ c, c.Inside → c.remaining < k → x c = y c

namespace AgreeBelow

theorem refl (k : Nat) (x : Reader α) : AgreeBelow k x x :=
  fun _ _ _ => rfl

theorem zero (x y : Reader α) : AgreeBelow 0 x y :=
  fun _ _ hk => absurd hk (Nat.not_lt_zero _)

theorem bind (hx : AgreeBelow k x y) (hforward : Forward x)
    (hf : ∀ a, AgreeBelow k (f a) (g a)) : AgreeBelow k (x >>= f) (y >>= g) := by
  intro c hc hk
  rw [bind_apply, bind_apply, ← hx c hc hk]
  cases h : x c with
  | ok a c' =>
    have hreach := hforward.reaches hc h
    exact hf a c' hreach.inside (Nat.lt_of_le_of_lt hreach.remaining_le hk)
  | error e c' => rfl

theorem get_bind {f g : Cursor → Reader β}
    (hf : ∀ c, c.Inside → c.remaining < k → f c c = g c c) :
    AgreeBelow k (get >>= f) (get >>= g) :=
  hf

-- After the same start.
theorem rest (hx : Forward x) (hf : ∀ a, AgreeBelow k (f a) (g a)) :
    AgreeBelow k (x >>= f) (x >>= g) :=
  .bind (.refl k x) hx hf

-- Before the same end.
theorem start (hx : AgreeBelow k x y) : AgreeBelow k (x >>= f) (y >>= f) := by
  intro c hc hk
  rw [bind_apply, bind_apply, hx c hc hk]

theorem discard (hx : AgreeBelow k x y) :
    AgreeBelow k (discard x : Reader Unit) (discard y) := by
  intro c hc hk
  rw [discard_apply, discard_apply, hx c hc hk]

theorem attempt (hx : AgreeBelow k x y) : AgreeBelow k (attempt x) (attempt y) := by
  intro c hc hk
  unfold Reader.attempt
  rw [hx c hc hk]

theorem ite {p : Prop} [Decidable p] {x' y' : Reader α} (hx : AgreeBelow k x y)
    (hx' : AgreeBelow k x' y') :
    AgreeBelow k (if p then x else x') (if p then y else y') := by
  split
  · exact hx
  · exact hx'

theorem covered {x y : Reader Unit} (hx : AgreeBelow k x y) :
    AgreeBelow k (covered x) (covered y) :=
  .rest .get fun _ => .start hx

end AgreeBelow

theorem ite_eq {p : Prop} [Decidable p] {x' y' : Reader α} {c : Cursor} (hx : p → x c = y c)
    (hx' : ¬p → x' c = y' c) : (if p then x else x') c = (if p then y else y') c := by
  split
  · next hp => exact hx hp
  · next hp => exact hx' hp

-- A token taken first leaves one token less for the rest.
theorem TakesAt.bind_eq {c : Cursor} (hx : TakesAt x c) (hk : c.remaining < k + 1)
    (hf : ∀ a, AgreeBelow k (f a) (g a)) : (x >>= f) c = (x >>= g) c := by
  rw [bind_apply, bind_apply]
  cases h : x c with
  | ok a c' =>
    obtain ⟨hreach, hlt⟩ := hx a c' h
    have hless := hreach.remaining_lt hlt
    exact hf a c' hreach.inside (by omega)
  | error e c' => rfl

theorem Takes.bind_agree (hx : Takes x) (hf : ∀ a, AgreeBelow k (f a) (g a)) :
    AgreeBelow (k + 1) (x >>= f) (x >>= g) :=
  fun c hc hk => (hx c hc).bind_eq hk hf

theorem takesAt_next {c : Cursor} {text : String} (h : c.nextIs text = true) :
    TakesAt (Functor.discard advance : Reader Unit) c :=
  (TakesAt.advance (Cursor.lt_of_nthIs h)).discard

section Loops

variable {σ : Type} {round : (σ → Reader α) → σ → Reader α} {loop rest : Nat → σ → Reader α}

-- A round goes on with the next one only where a token less is left.
def Descends (round : (σ → Reader α) → σ → Reader α) : Prop :=
  ∀ k again again', (∀ s, Forward (again s)) → (∀ s, AgreeBelow k (again s) (again' s)) →
    ∀ s, AgreeBelow (k + 1) (round again s) (round again' s)

-- The loop ends by itself: unrolled more often than there are tokens left, it never comes to what
-- would be done after that, whatever it is. The bound on its rounds cuts nothing short.
structure Settles (round : (σ → Reader α) → σ → Reader α) (loop : Nat → σ → Reader α)
    (bound : Cursor → Nat) : Prop where
  unfolds : ∀ n s, loop (n + 1) s = round (loop n) s
  settled : ∀ c : Cursor, c.Inside → ∀ n s rest, c.remaining < n →
    round^[n] rest s c = loop (bound c) s c

-- The rounds of a loop that keeps nothing from one round to the next.
def stateless (round : Reader α → Reader α) (again : Unit → Reader α) : Unit → Reader α :=
  fun _ => round (again ())

theorem iterate_loop (hunfolds : ∀ n s, loop (n + 1) s = round (loop n) s) (n m : Nat) :
    round^[n] (loop m) = loop (m + n) := by
  induction n with
  | zero => rfl
  | succ n ih =>
    rw [Function.iterate_succ_apply', ih]
    exact (funext (hunfolds (m + n))).symm

-- The induction is on the rounds; each of them has one token more to take.
theorem Descends.agree_iterate {rest : σ → Reader α} (hdescends : Descends round)
    (hunfolds : ∀ n s, loop (n + 1) s = round (loop n) s) (hforward : ∀ n s, Forward (loop n s))
    (hrest : ∀ s, AgreeBelow k (loop 0 s) (rest s)) (n : Nat) :
    ∀ s, AgreeBelow (k + n) (loop n s) (round^[n] rest s) := by
  induction n with
  | zero => exact hrest
  | succ n ih =>
    intro s
    rw [hunfolds, Function.iterate_succ_apply']
    exact hdescends (k + n) (loop n) (round^[n] rest) (hforward n) ih s

namespace Settles

theorem of_descends (hunfolds : ∀ n s, loop (n + 1) s = round (loop n) s)
    (hforward : ∀ n s, Forward (loop n s)) (hdescends : Descends round) :
    Settles round loop (fun c => c.remaining + 1) := by
  refine ⟨hunfolds, fun c hc n s rest hn => ?_⟩
  have hany (m : Nat) (rest : σ → Reader α) (hm : c.remaining < m) :
      loop m s c = round^[m] rest s c :=
    hdescends.agree_iterate hunfolds hforward (fun _ => .zero _ _) m s c hc (by omega)
  calc round^[n] rest s c
    _ = loop n s c := (hany n rest hn).symm
    _ = round^[c.remaining + 1] (loop (n - (c.remaining + 1))) s c := by
      rw [iterate_loop hunfolds, Nat.sub_add_cancel hn]
    _ = loop (c.remaining + 1) s c := (hany _ _ (Nat.lt_succ_self _)).symm

-- Where the loop does not begin a round on no tokens, it gets by with as many rounds as tokens.
theorem of_end (hunfolds : ∀ n s, loop (n + 1) s = round (loop n) s)
    (hforward : ∀ n s, Forward (loop n s)) (hdescends : Descends round)
    (hend : ∀ c : Cursor, c.remaining = 0 → ∀ s, loop 0 s c = loop 1 s c) :
    Settles round loop Cursor.remaining := by
  have hsettles := of_descends hunfolds hforward hdescends
  refine ⟨hunfolds, fun c hc n s rest hn => ?_⟩
  have hlast (s : σ) : AgreeBelow 1 (loop 0 s) (loop 1 s) :=
    fun c _ hk => hend c (Nat.lt_one_iff.mp hk) s
  calc round^[n] rest s c
    _ = loop (c.remaining + 1) s c := hsettles.settled c hc n s rest hn
    _ = round^[c.remaining] (loop 1) s c := by rw [iterate_loop hunfolds, Nat.add_comm]
    _ = loop c.remaining s c :=
      (hdescends.agree_iterate hunfolds hforward hlast c.remaining s c hc (by omega)).symm

-- More rounds than tokens change nothing.
theorem loop_eq (h : Settles round loop Cursor.remaining) {c : Cursor} (hc : c.Inside) {n : Nat}
    (hn : c.remaining ≤ n) (s : σ) : loop n s c = loop c.remaining s c := by
  rcases Nat.eq_or_lt_of_le hn with rfl | hlt
  · rfl
  · have hiterate := iterate_loop h.unfolds n 0
    rw [← h.settled c hc n s (loop 0) hlt, hiterate, Nat.zero_add]

end Settles

end Loops

-- One more suffix, and what comes after it.
def suffixRound (again : Reader Unit) : Reader Unit := do
  let c ← get
  if c.nextIs "*" then
    discard advance
    again
  else if c.nextIs "addrspace" && c.nthIs 1 "(" then
    discard advance
    skipGroup
    again
  else if c.nextIs "(" then
    skipGroup
    again
  else pure ()

theorem typeSuffixes_noTokens {c : Cursor} (hc : c.remaining = 0) (rounds : Nat) :
    typeSuffixes rounds c = .ok () c := by
  cases rounds with
  | zero => rfl
  | succ rounds =>
    simp [typeSuffixes, Cursor.nextIs_eq_false hc, Cursor.nthIs_eq_false hc]

theorem descends_suffixRound : Descends (stateless suffixRound) := by
  intro k again again' hforward hagain s
  refine .get_bind fun c hc hk => ite_eq ?_ fun _ => ite_eq ?_ fun _ => ite_eq ?_ fun _ => rfl
  · intro hstar
    exact (takesAt_next hstar).bind_eq hk fun _ => hagain s
  · intro hspace
    rw [Bool.and_eq_true] at hspace
    exact (takesAt_next hspace.1).bind_eq hk fun _ => .rest .skipGroup fun _ => hagain s
  · intro _
    exact (Takes.skipGroup c hc).bind_eq hk fun _ => hagain s

theorem settles_typeSuffixes :
    Settles (stateless suffixRound) (fun rounds _ => typeSuffixes rounds) Cursor.remaining :=
  .of_end (fun _ _ => rfl) (fun rounds _ => .typeSuffixes rounds) descends_suffixRound
    fun _ hc _ => (typeSuffixes_noTokens hc 1).symm

-- One more flag of a constant expression, and what comes after it.
def flagRound (head : String) (again : Bool → Reader Unit) (compared : Bool) : Reader Unit := do
  let c ← get
  match c.peekText? with
  | none => pure ()
  | some word =>
    if Keyword.isOverflowFlag word || Keyword.isFastMathFlag word ||
        word = "inbounds" || word = "nusw" then
      discard advance
      again compared
    else if word = "inrange" && head = "getelementptr" then
      discard advance
      if (← get).nextIs "(" then skipGroup
      again compared
    else if !compared && ((head = "icmp" && Keyword.isIntegerPredicate word) ||
        (head = "fcmp" && Keyword.isFloatPredicate word)) then
      discard advance
      again true
    else pure ()

theorem descends_flagRound (head : String) : Descends (flagRound head) := by
  intro k again again' hforward hagain compared
  refine .get_bind fun c hc hk => ?_
  cases hpeek : c.peekText? with
  | none => rfl
  | some word =>
    have hadvance : TakesAt (Functor.discard advance : Reader Unit) c :=
      (TakesAt.advance (Cursor.lt_of_peekText? hpeek)).discard
    refine ite_eq ?_ fun _ => ite_eq ?_ fun _ => ite_eq ?_ fun _ => rfl
    · intro _
      exact hadvance.bind_eq hk fun _ => hagain compared
    · intro _
      exact hadvance.bind_eq hk fun _ => .rest .get fun _ =>
        .ite (.rest .skipGroup fun _ => hagain compared) (hagain compared)
    · intro _
      exact hadvance.bind_eq hk fun _ => hagain true

theorem settles_constantFlags (head : String) :
    Settles (flagRound head) (constantFlags head) Cursor.remaining := by
  refine .of_end (fun _ _ => rfl) (.constantFlags head) (descends_flagRound head) ?_
  intro c hc compared
  simp [constantFlags, Cursor.peekText?, Cursor.peek?, Cursor.peekNth?_eq_none hc]

-- One more operand of a constant expression, and what comes after it.
def operandRound (value : Reader String) (parenthesized : Bool) (again : Reader Unit) :
    Reader Unit := do
  let c ← get
  if c.nextIs "," && !(parenthesized && c.nthIs 1 ")") &&
      !(!parenthesized && isAnnotationStart c) then
    discard advance
    discard (operandWith value)
    again
  else pure ()

section Nested

variable {value value' : Reader String}

theorem descends_operandRound (hforward : Forward value) (parenthesized : Bool) :
    Descends (stateless (operandRound value parenthesized)) := by
  intro k again again' _ hagain s
  refine .get_bind fun c hc hk => ite_eq ?_ fun _ => rfl
  intro hcomma
  simp only [Bool.and_eq_true] at hcomma
  exact (takesAt_next hcomma.1.1).bind_eq hk fun _ =>
    .rest (.discard (.operandWith hforward)) fun _ => hagain s

theorem settles_moreOperands (hforward : Forward value) (parenthesized : Bool) :
    Settles (stateless (operandRound value parenthesized))
      (fun rounds _ => moreOperands value parenthesized rounds) Cursor.remaining := by
  refine .of_end (fun _ _ => rfl) (fun rounds _ => .moreOperands hforward parenthesized rounds)
    (descends_operandRound hforward parenthesized) ?_
  intro c hc _
  simp [moreOperands, Cursor.nextIs_eq_false hc]

namespace AgreeBelow

theorem typedOrBare (hvalue : AgreeBelow k value value') (hforward : Forward value) :
    AgreeBelow k (typedOrBare value) (typedOrBare value') := by
  have htyped : Forward (do Functor.discard Reader.type; (Functor.discard value : Reader Unit)) :=
    .bind (.discard .type) fun _ => .discard hforward
  refine .bind (.attempt (.rest (.discard .type) fun _ => .discard hvalue)) (.attempt htyped)
    fun typed => ?_
  cases typed with
  | none => exact .discard hvalue
  | some _ => exact .refl k _

theorem operandWith (hvalue : AgreeBelow k value value') (hforward : Forward value) :
    AgreeBelow k (operandWith value) (operandWith value') := by
  have hrest := typedOrBare hvalue hforward
  exact .covered (.rest (.eat _) fun _ => .ite (.rest .get fun _ =>
    .ite (.rest .skipGroup fun _ => hrest) hrest) hrest)

theorem moreOperands (hvalue : AgreeBelow k value value') (hforward : Forward value)
    (parenthesized : Bool) (rounds : Nat) :
    AgreeBelow k (moreOperands value parenthesized rounds)
      (moreOperands value' parenthesized rounds) := by
  induction rounds with
  | zero => exact .refl k _
  | succ rounds ih =>
    exact .rest .get fun _ => .ite (.rest (.discard .advance) fun _ =>
      .bind (.discard (operandWith hvalue hforward)) (.discard (.operandWith hforward)) fun _ => ih)
      (.refl k _)

theorem constantCast (hvalue : AgreeBelow k value value') :
    AgreeBelow k (constantCast value) (constantCast value') :=
  .rest (.discard (.run _)) fun _ => .rest (.eat _) fun _ => .rest (.discard .type) fun _ =>
    .start (.discard hvalue)

-- The first token is the head, so what is nested in the expression is one token further on.
theorem constantExpression (hvalue : AgreeBelow k value value') (hforward : Forward value) :
    AgreeBelow (k + 1) (constantExpression value) (constantExpression value') := by
  refine (Takes.next _).bind_agree fun head => .ite (constantCast hvalue) ?_
  exact .rest .get fun _ => .rest (.constantFlags _ _ _) fun _ => .rest (.eat _) fun _ =>
    .bind (.discard (operandWith hvalue hforward)) (.discard (.operandWith hforward)) fun _ =>
      .rest .get fun _ => .start (moreOperands hvalue hforward _ _)

theorem wordValue (hvalue : AgreeBelow k value value') (hforward : Forward value) (text : String)
    {c : Cursor} (hc : c.pos < c.tokens.length) (hk : c.remaining < k + 1) :
    wordValue value text c = wordValue value' text c := by
  have hadvance : TakesAt (Functor.discard Reader.advance : Reader Unit) c :=
    (TakesAt.advance hc).discard
  have hexpression := constantExpression hvalue hforward c (Nat.le_of_lt hc) hk
  refine ite_eq (fun _ => rfl) fun _ => ite_eq (fun _ => rfl) fun _ => ite_eq ?_ fun _ =>
    ite_eq (fun _ => rfl) fun _ => ite_eq (fun _ => hexpression) fun _ => rfl
  intro _
  exact hadvance.bind_eq hk fun _ => .rest .get fun _ => .ite (.refl k _) (.discard hvalue)

theorem valueOver (hvalue : AgreeBelow k value value') (hforward : Forward value) :
    AgreeBelow (k + 1) (valueOver value) (valueOver value') := by
  refine .covered (.get_bind fun c hc hk => ?_)
  cases hpeek : c.peek? with
  | none => rfl
  | some t =>
    have hlt : c.pos < c.tokens.length := Cursor.lt_of_peekNth? hpeek
    exact ite_eq (fun _ => rfl) fun _ =>
      ite_eq (fun _ => wordValue hvalue hforward _ hlt hk) fun _ => rfl

end AgreeBelow

end Nested

theorem valueWithin_noTokens {c : Cursor} (hc : c.remaining = 0) (depth : Nat) :
    valueWithin depth c = .error (.unexpectedEnd "value") c := by
  cases depth with
  | zero => rfl
  | succ depth =>
    simp [valueWithin, valueOver, covered, Cursor.peek?, Cursor.peekNth?_eq_none hc]

theorem descends_valueOver : Descends (stateless valueOver) :=
  fun _ _ _ hforward hagain s => (hagain s).valueOver (hforward s)

theorem settles_valueWithin :
    Settles (stateless valueOver) (fun depth _ => valueWithin depth) Cursor.remaining := by
  refine .of_end (fun _ _ => rfl) (fun depth _ => .valueWithin depth) descends_valueOver ?_
  intro c hc _
  rw [valueWithin_noTokens hc, valueWithin_noTokens hc]

-- Any nesting that the tokens left allow is read.
theorem AgreeBelow.value (k : Nat) : AgreeBelow (k + 1) value (Reader.valueWithin k) :=
  fun _ hc hk => (settles_valueWithin.loop_eq hc (Nat.le_of_lt_succ hk) ()).symm

theorem AgreeBelow.operand (k : Nat) :
    AgreeBelow (k + 1) operand (Reader.operandWith (Reader.valueWithin k)) :=
  operandWith (value k) .value

end Reader

end TestFocus
