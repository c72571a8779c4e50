import TestFocus.Definition.Header
import TestFocus.Proofs.Reading.Position

namespace TestFocus

-- The cursor stands on one of its tokens, or behind the last one.
def Cursor.Inside (c : Cursor) : Prop :=
  c.pos ≤ c.tokens.length

instance (c : Cursor) : Decidable c.Inside :=
  inferInstanceAs (Decidable (c.pos ≤ c.tokens.length))

-- The cursor `c'` stands inside of the same tokens as `c`, and not before it.
structure Cursor.Reaches (c c' : Cursor) : Prop where
  source : c'.source = c.source
  tokens : c'.tokens = c.tokens
  le : c.pos ≤ c'.pos
  inside : c'.Inside

namespace Cursor.Inside

variable {c : Cursor} (hc : c.Inside)

include hc

theorem refl : c.Reaches c :=
  ⟨rfl, rfl, Nat.le_refl _, hc⟩

theorem advance : c.Reaches c.advance := by
  unfold Cursor.advance
  split
  · exact hc.refl
  · next h =>
    simp only [isEmpty, decide_eq_true_eq, Nat.not_le] at h
    exact ⟨rfl, rfl, Nat.le_succ _, h⟩

theorem advanceBy (n : Nat) : c.Reaches (c.advanceBy n) :=
  ⟨rfl, rfl, Nat.le_min.mpr ⟨Nat.le_add_right _ _, hc⟩, Nat.min_le_right _ _⟩

end Cursor.Inside

theorem Cursor.Reaches.trans {c c' c'' : Cursor} (h : c.Reaches c') (h' : c'.Reaches c'') :
    c.Reaches c'' :=
  ⟨h'.source.trans h.source, h'.tokens.trans h.tokens, Nat.le_trans h.le h'.le, h'.inside⟩

namespace Reader

variable {α β : Type}

-- An operand, its `inrange` aside: where the typed form fails, the bare value is read from where
-- the operand begins.
def typedOrBare (value : Reader String) : Reader Unit := do
  match ← attempt (do discard type; discard value) with
  | some _ => return ()
  | none => discard value

-- One more item of a list with commas in between.
def commaStep (item : Reader α) (done : List α) : Reader (List α) := do
  separator done
  return done ++ [← item]

-- One more parameter, or an ellipsis.
def parameterStep (done : List (Parameter × Bool)) : Reader (List (Parameter × Bool)) := do
  separator done
  if ← eat "..." then return done ++ [(Parameter.variadic, false)]
  else return done ++ [← parameter (done.countP (·.2))]

-- Where a reading ends, whether it succeeds or fails.
def ending : EStateM.Result ParseError Cursor α → Cursor
  | .ok _ c => c
  | .error _ c => c

-- Whether the reader succeeds or fails, it has only moved forward.
def Forward (reader : Reader α) : Prop :=
  ∀ c : Cursor, c.Inside → c.Reaches (ending (reader c))

namespace Forward

theorem reaches {x : Reader α} {c c' : Cursor} {a : α} (hx : Forward x) (hc : c.Inside)
    (h : x c = .ok a c') : c.Reaches c' := by
  have hreach := hx c hc
  rwa [h] at hreach

theorem pure (a : α) : Forward (pure a) :=
  fun _ hc => hc.refl

theorem get : Forward (get : Reader Cursor) :=
  fun _ hc => hc.refl

theorem throw (e : ParseError) : Forward (throw e : Reader α) :=
  fun _ hc => hc.refl

theorem bind {x : Reader α} {f : α → Reader β} (hx : Forward x) (hf : ∀ a, Forward (f a)) :
    Forward (x >>= f) := by
  intro c hc
  have hreach := hx c hc
  rw [bind_apply]
  cases h : x c with
  | ok a c' =>
    rw [h] at hreach
    exact hreach.trans (hf a c' hreach.inside)
  | error e c' =>
    rw [h] at hreach
    exact hreach

theorem map {x : Reader α} (f : α → β) (hx : Forward x) : Forward (f <$> x) := by
  intro c hc
  have hreach := hx c hc
  rw [map_apply]
  cases h : x c <;> rwa [h] at hreach

theorem discard {x : Reader α} (hx : Forward x) : Forward (discard x : Reader Unit) := by
  intro c hc
  have hreach := hx c hc
  rw [discard_apply]
  cases h : x c <;> rwa [h] at hreach

theorem ite {p : Prop} [Decidable p] {x y : Reader α} (hx : Forward x) (hy : Forward y) :
    Forward (if p then x else y) := by
  split
  · exact hx
  · exact hy

theorem attempt {x : Reader α} (hx : Forward x) : Forward (attempt x) := by
  intro c hc
  have hreach := hx c hc
  unfold Reader.attempt
  cases h : x c with
  | ok a c' => rwa [h] at hreach
  | error e c' => exact hc.refl

theorem covered {x : Reader Unit} (hx : Forward x) : Forward (covered x) :=
  .bind .get fun _ => .bind hx fun _ => .bind .get fun _ => .pure _

theorem advance : Forward Reader.advance :=
  fun _ hc => hc.advance

-- A reader that stays, or takes the next token, moves forward.
theorem of_advance {x : Reader α} (hx : ∀ c, ending (x c) = c ∨ ending (x c) = c.advance) :
    Forward x := by
  intro c hc
  rcases hx c with h | h
  · rw [h]
    exact hc.refl
  · rw [h]
    exact hc.advance

theorem next (expected : String) : Forward (next expected) := by
  refine of_advance fun c => ?_
  unfold Reader.next
  split
  · exact .inr rfl
  · exact .inl rfl

theorem expect (text expected : String) : Forward (expect text expected) := by
  refine of_advance fun c => ?_
  unfold Reader.expect
  split
  · split
    · exact .inr rfl
    · exact .inl rfl
  · exact .inl rfl

theorem eat (text : String) : Forward (eat text) := by
  refine of_advance fun c => ?_
  unfold Reader.eat
  split
  · exact .inr rfl
  · exact .inl rfl

theorem eatIf (p : String → Bool) : Forward (eatIf p) := by
  refine of_advance fun c => ?_
  unfold Reader.eatIf
  split
  · exact .inr rfl
  · exact .inl rfl

theorem run (p : String → Bool) : Forward (run p) :=
  fun _ hc => hc.advanceBy _

theorem finish (context : String) : Forward (finish context) := by
  refine of_advance fun c => ?_
  unfold Reader.finish
  split
  · exact .inl rfl
  · exact .inl rfl

theorem comma : Forward comma :=
  .discard (.expect _ _)

theorem string (expected : String) : Forward (string expected) :=
  .bind (.next _) fun _ => .ite (.pure _) (.throw _)

theorem advanceBy (n : Nat) : Forward (modify (·.advanceBy n) : Reader PUnit) :=
  fun _ hc => hc.advanceBy n

theorem group : Forward group := by
  refine .bind .get fun _ => .bind (.next _) fun opening => ?_
  split
  · exact .throw _
  · exact .bind .get fun _ => .bind (.advanceBy _) fun _ => .bind .get fun _ =>
      .ite (.pure _) (.throw _)

theorem skipGroup : Forward skipGroup :=
  .discard group

theorem untilCloseFrom (close : String) {step : List α → Reader (List α)}
    (hstep : ∀ done, Forward (step done)) (rounds : Nat) (done : List α) :
    Forward (untilCloseFrom close step rounds done) := by
  induction rounds generalizing done with
  | zero => exact .pure done
  | succ rounds ih => exact .bind (.eat _) fun _ => .ite (.pure _) (.bind (hstep _) fun _ => ih _)

theorem untilClose (close : String) {step : List α → Reader (List α)}
    (hstep : ∀ done, Forward (step done)) : Forward (untilClose close step) :=
  .bind .get fun _ => .untilCloseFrom close hstep _ _

theorem separator (done : List α) : Forward (separator done) :=
  .ite (.pure _) .comma

theorem commaStep {item : Reader α} (hitem : Forward item) (done : List α) :
    Forward (commaStep item done) :=
  .bind (.separator done) fun _ => .bind hitem fun _ => .pure _

theorem commaList (close : String) {item : Reader α} (hitem : Forward item) :
    Forward (commaList close item) :=
  .untilClose close (.commaStep hitem)

theorem typeSuffixes (rounds : Nat) : Forward (typeSuffixes rounds) := by
  induction rounds with
  | zero => exact .pure _
  | succ rounds ih =>
    have hrest : Forward (do Reader.skipGroup; Reader.typeSuffixes rounds) :=
      .bind .skipGroup fun _ => ih
    exact .bind .get fun _ => .ite (.bind (.discard .advance) fun _ => ih)
      (.ite (.bind (.discard .advance) fun _ => hrest) (.ite hrest (.pure _)))

theorem typeHead : Forward typeHead := by
  refine .bind .get fun c => ?_
  cases c.peek? with
  | none => exact .throw _
  | some token =>
    exact .ite .skipGroup (.ite (.bind (.discard .advance) fun _ => .bind .get fun _ =>
      .ite .skipGroup (.pure _)) (.throw _))

theorem type : Forward type :=
  .covered (.bind .typeHead fun _ => .bind .get fun _ => .typeSuffixes _)

theorem inlineAssembly : Forward inlineAssembly :=
  .covered (.bind (.discard (.expect _ _)) fun _ => .bind (.discard (.run _)) fun _ =>
    .bind (.discard (.string _)) fun _ => .bind .comma fun _ => .discard (.string _))

section Nested

variable {value : Reader String} (hvalue : Forward value)

include hvalue

theorem typedOrBare : Forward (typedOrBare value) := by
  refine .bind (.attempt (.bind (.discard .type) fun _ => .discard hvalue)) fun typed => ?_
  cases typed with
  | none => exact .discard hvalue
  | some _ => exact .pure _

theorem operandWith : Forward (operandWith value) := by
  have hrest : Forward (Reader.typedOrBare value) := typedOrBare hvalue
  exact .covered (.bind (.eat _) fun _ => .ite (.bind .get fun _ =>
    .ite (.bind .skipGroup fun _ => hrest) hrest) hrest)

theorem moreOperands (parenthesized : Bool) (rounds : Nat) :
    Forward (moreOperands value parenthesized rounds) := by
  induction rounds with
  | zero => exact .pure _
  | succ rounds ih =>
    exact .bind .get fun _ => .ite (.bind (.discard .advance) fun _ =>
      .bind (.discard (operandWith hvalue)) fun _ => ih) (.pure _)

theorem constantCast : Forward (constantCast value) :=
  .bind (.discard (.run _)) fun _ => .bind (.eat _) fun _ => .bind (.discard .type) fun _ =>
    .bind (.discard hvalue) fun _ => .bind (.discard (.expect _ _)) fun _ =>
      .bind (.discard .type) fun _ => .ite (.discard (.expect _ _)) (.pure _)

omit hvalue in
theorem constantFlags (head : String) (rounds : Nat) (compared : Bool) :
    Forward (constantFlags head rounds compared) := by
  induction rounds generalizing compared with
  | zero => exact .pure _
  | succ rounds ih =>
    refine .bind .get fun c => ?_
    cases c.peekText? with
    | none => exact .pure _
    | some word =>
      exact .ite (.bind (.discard .advance) fun _ => ih _)
        (.ite (.bind (.discard .advance) fun _ => .bind .get fun _ =>
            .ite (.bind .skipGroup fun _ => ih _) (ih _))
          (.ite (.bind (.discard .advance) fun _ => ih _) (.pure _)))

theorem constantExpression : Forward (constantExpression value) := by
  refine .bind (.next _) fun head => .ite (constantCast hvalue) ?_
  exact .bind .get fun _ => .bind (constantFlags _ _ _) fun _ => .bind (.eat _) fun _ =>
    .bind (.discard (operandWith hvalue)) fun _ => .bind .get fun _ =>
      .bind (moreOperands hvalue _ _) fun _ => .ite (.discard (.expect _ _)) (.pure _)

theorem wordValue (text : String) : Forward (wordValue value text) :=
  .ite (.bind (.discard .advance) fun _ => .bind .get fun _ => .ite .skipGroup (.pure _))
    (.ite (.discard .advance)
      (.ite (.bind (.discard .advance) fun _ => .bind .get fun _ =>
          .ite .skipGroup (.discard hvalue))
        (.ite (.discard .inlineAssembly)
          (.ite (constantExpression hvalue) (.throw _)))))

theorem valueOver : Forward (valueOver value) := by
  refine .covered (.bind .get fun c => ?_)
  cases c.peek? with
  | none => exact .throw _
  | some token => exact .ite .skipGroup (.ite (wordValue hvalue _) (.throw _))

end Nested

theorem valueWithin (depth : Nat) : Forward (valueWithin depth) := by
  induction depth with
  | zero => exact .throw _
  | succ depth ih => exact valueOver ih

theorem value : Forward value :=
  .bind .get fun _ => .valueWithin _

theorem operand : Forward operand :=
  operandWith value

theorem typedValue : Forward typedValue :=
  .bind .type fun _ => .bind .value fun _ => .pure _

theorem label : Forward label :=
  .bind (.discard (.expect _ _)) fun _ => .value

theorem keywordAttribute : Forward keywordAttribute :=
  .covered (.bind (.next _) fun _ => .bind .get fun _ =>
    .ite .skipGroup (.ite (.discard .advance) (.pure _)))

theorem parameterAttributesWithin (rounds : Nat) (done : List String) :
    Forward (parameterAttributesWithin rounds done) := by
  induction rounds generalizing done with
  | zero => exact .pure _
  | succ rounds ih =>
    refine .bind .get fun c => ?_
    cases c.peek? with
    | none => exact .pure _
    | some token => exact .ite (.bind .keywordAttribute fun _ => ih _) (.pure _)

theorem parameterAttributes : Forward parameterAttributes :=
  .bind .get fun _ => .parameterAttributesWithin _ _

theorem stringAttribute : Forward stringAttribute :=
  .covered (.bind (.discard .advance) fun _ => .bind (.eat _) fun _ =>
    .ite (.discard (.next _)) (.pure _))

theorem functionAttributesWithin (rounds : Nat) (done : List String) :
    Forward (functionAttributesWithin rounds done) := by
  induction rounds generalizing done with
  | zero => exact .pure _
  | succ rounds ih =>
    refine .bind .get fun c => ?_
    cases c.peek? with
    | none => exact .pure _
    | some token =>
      exact .ite (.bind (.discard .advance) fun _ => ih _)
        (.ite (.bind .keywordAttribute fun _ => ih _)
          (.ite (.bind .stringAttribute fun _ => ih _) (.pure _)))

theorem functionAttributes : Forward functionAttributes :=
  .bind .get fun _ => .functionAttributesWithin _ _

theorem callingConvention : Forward callingConvention :=
  .bind .get fun _ => .ite (.map _ (.covered (.bind (.discard .advance) fun _ =>
    .discard (.next _)))) (.eatIf _)

theorem addressSpace : Forward addressSpace :=
  .bind .get fun _ => .ite (.map _ (.covered (.bind (.discard .advance) fun _ => .skipGroup)))
    (.pure _)

theorem unquoted (expected : String) : Forward (unquoted expected) :=
  .map _ (.string _)

theorem parameter (unnamed : Nat) : Forward (parameter unnamed) := by
  refine .bind .type fun _ => .bind .parameterAttributes fun _ => .bind .get fun c => ?_
  cases c.peek? with
  | none => exact .pure _
  | some token => exact .ite (.bind (.discard .advance) fun _ => .pure _) (.pure _)

theorem parameterStep (done : List (Parameter × Bool)) : Forward (parameterStep done) :=
  .bind (.separator _) fun _ => .bind (.eat _) fun _ =>
    .ite (.pure _) (.bind (.parameter _) fun _ => .pure _)

theorem parameters : Forward parameters :=
  .bind (.discard (.expect _ _)) fun _ => .bind (.untilClose _ .parameterStep) fun _ => .pure _

theorem typedConstant : Forward typedConstant :=
  .bind .typedValue fun _ => .pure _

theorem comdatName (name : String) : Forward (comdatName name) :=
  .bind .get fun _ => .ite (.bind .group fun _ => .pure _) (.pure _)

theorem lateAttributes (d : Definition) : Forward (lateAttributes d) :=
  .bind .get fun _ => .bind .functionAttributes fun _ => .bind .get fun _ =>
    .ite (.pure _) (.pure _)

theorem headerClause (d : Definition) (keyword : String) : Forward (headerClause d keyword) := by
  have hclause {β : Type} {x : Reader β} {f : β → Option Definition} (hx : Forward x) :
      Forward (do Functor.discard Reader.advance; return f (← x)) :=
    .bind (.discard .advance) fun _ => .bind hx fun _ => .pure _
  unfold Reader.headerClause
  split
  · exact hclause (.unquoted _)
  · exact hclause (.unquoted _)
  · exact hclause (.comdatName _)
  · exact hclause (.next _)
  · exact hclause (.unquoted _)
  · exact hclause .typedConstant
  · exact hclause .typedConstant
  · exact hclause .typedConstant
  · exact .ite (hclause .value) (.lateAttributes d)

theorem headerClauses (rounds : Nat) (d : Definition) : Forward (headerClauses rounds d) := by
  induction rounds generalizing d with
  | zero => exact .pure _
  | succ rounds ih =>
    refine .bind .get fun c => ?_
    cases c.peekText? with
    | none => exact .pure _
    | some keyword =>
      refine .bind (.headerClause d keyword) fun next => ?_
      cases next with
      | none => exact .pure _
      | some d => exact ih d

theorem functionName : Forward functionName :=
  .bind (.next _) fun _ => .ite (.pure _) (.throw _)

theorem header : Forward header :=
  .bind (.discard (.expect _ _)) fun _ => .bind (.eatIf _) fun _ => .bind (.eatIf _) fun _ =>
    .bind (.eatIf _) fun _ => .bind (.eatIf _) fun _ => .bind .callingConvention fun _ =>
      .bind .parameterAttributes fun _ => .bind .type fun _ => .bind .functionName fun _ =>
        .bind .parameters fun _ => .bind (.eatIf _) fun _ => .bind .addressSpace fun _ =>
          .bind .functionAttributes fun _ => .bind .get fun _ => .bind (.headerClauses _ _) fun _ =>
            .bind (.finish _) fun _ => .pure _

end Forward

-- Whenever the reader succeeds, no token is left.
def Exhausts (reader : Reader α) : Prop :=
  ∀ c a c', reader c = .ok a c' → c'.isEmpty = true

namespace Exhausts

theorem bind {x : Reader α} {f : α → Reader β} (hf : ∀ a, Exhausts (f a)) :
    Exhausts (x >>= f) := by
  intro c b c'' h
  rw [bind_apply] at h
  split at h
  · next a c' _ => exact hf a c' b c'' h
  · cases h

theorem finish (context : String) (a : α) : Exhausts (do Reader.finish context; return a) := by
  intro c b c' h
  simp only [bind_apply, Reader.finish] at h
  split at h
  · next c'' hfinish =>
    split at hfinish
    · next hempty =>
      cases hfinish
      cases h
      exact hempty
    · cases hfinish
  · cases h

theorem header : Exhausts header :=
  .bind fun _ => .bind fun _ => .bind fun _ => .bind fun _ => .bind fun _ => .bind fun _ =>
    .bind fun _ => .bind fun _ => .bind fun _ => .bind fun _ => .bind fun _ => .bind fun _ =>
      .bind fun _ => .bind fun _ => .bind fun _ => .finish _ _

end Exhausts

-- A reader that moves forward until no token is left has taken every token of the text.
theorem exists_tokens_of_parse {reader : Reader α} (hforward : Forward reader)
    (hexhausts : Exhausts reader) {text : String} {a : α} (h : reader.parse text = .ok a) :
    ∃ tokens, tokenize text = .ok tokens ∧
      reader ⟨text, tokens, 0⟩ = .ok a ⟨text, tokens, tokens.length⟩ := by
  simp only [parse, Cursor.ofText] at h
  cases htokens : tokenize text with
  | error e =>
    rw [htokens] at h
    cases h
  | ok tokens =>
    refine ⟨tokens, rfl, ?_⟩
    rw [htokens] at h
    cases hread : reader ⟨text, tokens, 0⟩ with
    | error e c' =>
      simp only [bind, Except.bind, Except.map, hread] at h
      cases h
    | ok b c' =>
      simp only [bind, Except.bind, Except.map, hread] at h
      cases h
      have hreach := hforward.reaches (Nat.zero_le _) hread
      have hempty := hexhausts _ _ _ hread
      have hpos : c'.pos = tokens.length := by
        have hinside := hreach.inside
        simp only [Cursor.isEmpty, decide_eq_true_eq] at hempty
        rw [Cursor.Inside, hreach.tokens] at hinside
        rw [hreach.tokens] at hempty
        exact Nat.le_antisymm hinside hempty
      obtain ⟨source, tokens', pos⟩ := c'
      obtain ⟨rfl, rfl, rfl⟩ : source = text ∧ tokens' = tokens ∧ pos = tokens.length :=
        ⟨hreach.source, hreach.tokens, hpos⟩
      rfl

end Reader

end TestFocus
