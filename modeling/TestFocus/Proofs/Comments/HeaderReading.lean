import TestFocus.Program
import TestFocus.Proofs.Comments.Lockstep

namespace TestFocus

open Text Line Padded

-- Added blanks do not decide whether an attribute promises not to write.
theorem Padded.Spaced.isReadOnly_eq (h : Spaced s s') : isReadOnly s = isReadOnly s' := by
  have hrest : (afterStart? s "memory(").any (fun rest => !containsText rest "write") =
      (afterStart? s' "memory(").any (fun rest => !containsText rest "write") := by
    have hblank : ' ' ∉ "memory(".toList := by decide
    rcases rel_cases (h.rel_afterStart? hblank) with ⟨hnone, hnone'⟩ | ⟨rest, rest', hs, hs', hrest⟩
    · rw [hnone, hnone']
    · have hwrite : "write".toList = 'w' :: "rite".toList := rfl
      simp only [hs, hs', Option.any_some, hrest.containsText_eq hwrite (by decide)]
  have hnone : (s == "readnone") = (s' == "readnone") := h.beq_eq (by decide)
  have honly : (s == "readonly") = (s' == "readonly") := h.beq_eq (by decide)
  simp only [isReadOnly, hnone, honly, hrest]

theorem any_isReadOnly_eq {given given' : List String} (h : List.Forall₂ Spaced given given') :
    given.any isReadOnly = given'.any isReadOnly := by
  induction h with
  | nil => rfl
  | cons hs _ ih => rw [List.any_cons, List.any_cons, hs.isReadOnly_eq, ih]

-- A reference to a group is the same; another attribute may differ in blanks.
def AlikeAttributes (s s' : String) : Prop :=
  s = s' ∨ Spaced s s' ∧ startsWithChar s '#' = false

structure Parameter.Alike (p p' : Parameter) : Prop where
  register : p.register = p'.register
  attributes : List.Forall₂ Spaced p.attributes p'.attributes

structure Definition.Alike (d d' : Definition) : Prop where
  name : d.name = d'.name
  sectionName : d.sectionName = d'.sectionName
  parameters : List.Forall₂ Parameter.Alike d.parameters d'.parameters
  attributes : List.Forall₂ AlikeAttributes d.attributes d'.attributes
  callSites : d.callSites = d'.callSites

namespace Reader.Matches

variable {w : Tokenized} {α β : Type}

theorem typeSuffixes (rounds : Nat) :
    Matches w Any (typeSuffixes rounds) (typeSuffixes rounds) := by
  induction rounds with
  | zero => exact .pure trivial
  | succ rounds ih =>
    have hrest : Matches w Any (do Reader.skipGroup; Reader.typeSuffixes rounds)
        (do Reader.skipGroup; Reader.typeSuffixes rounds) := .bind .skipGroup fun _ _ _ => ih
    refine .bind .get fun c c' hcursor => ?_
    simp only [hcursor.nextIs_eq, hcursor.nthIs_eq]
    exact .ite (.bind (.discard .advance) fun _ _ _ => ih)
      (.ite (.bind (.discard .advance) fun _ _ _ => hrest) (.ite hrest (.pure trivial)))

theorem typeHead : Matches w Any typeHead typeHead := by
  refine .bind .get fun c c' hcursor => ?_
  rcases rel_cases hcursor.peek? with ⟨hnone, hnone'⟩ | ⟨t, t', ht, ht', htoken⟩
  · rw [hnone, hnone']
    exact .throw _ _
  · rw [ht, ht']
    simp only [Token.isPunct, Token.isWord, htoken.kind, htoken.text]
    refine .ite .skipGroup (.ite (.bind (.discard .advance) fun _ _ _ => ?_) (.throw _ _))
    refine .bind .get fun c c' hcursor => ?_
    rw [hcursor.nextIs_eq]
    exact .ite .skipGroup (.pure trivial)

theorem type : Matches w Spaced type type := by
  refine .covered (.bind .typeHead fun _ _ _ => .bind .get fun c c' hcursor => ?_)
  rw [hcursor.remaining_eq]
  exact .typeSuffixes _

theorem inlineAssembly : Matches w Spaced inlineAssembly inlineAssembly :=
  .covered (.bind (.discard (.expect _ _)) fun _ _ _ => .bind (.discard (.run _)) fun _ _ _ =>
    .bind (.discard (.string _)) fun _ _ _ => .bind .comma fun _ _ _ => .discard (.string _))

section Nested

variable {value : Reader String} (hvalue : Matches w Spaced value value)

include hvalue

theorem operandWith : Matches w Spaced (operandWith value) (operandWith value) := by
  have htyped : Matches w (Option.Rel Any)
      (Reader.attempt (do Functor.discard Reader.type; Functor.discard value))
      (Reader.attempt (do Functor.discard Reader.type; Functor.discard value)) :=
    .attempt (.bind (.discard .type) fun _ _ _ => .discard hvalue)
  refine .covered (.bind (.eat _) fun given given' heq => ?_)
  rw [← heq]
  refine .ite (.bind .get fun c c' hcursor => ?_) ?_
  · rw [hcursor.nextIs_eq]
    refine .ite (.bind .skipGroup fun _ _ _ => .bind htyped fun typed typed' hrel => ?_)
      (.bind htyped fun typed typed' hrel => ?_)
    all_goals
      cases hrel with
      | none => exact .discard hvalue
      | some _ => exact .pure trivial
  · refine .bind htyped fun typed typed' hrel => ?_
    cases hrel with
    | none => exact .discard hvalue
    | some _ => exact .pure trivial

theorem moreOperands (parenthesized : Bool) (rounds : Nat) :
    Matches w Any (moreOperands value parenthesized rounds)
      (moreOperands value parenthesized rounds) := by
  induction rounds with
  | zero => exact .pure trivial
  | succ rounds ih =>
    refine .bind .get fun c c' hcursor => ?_
    have hannotation : isAnnotationStart c = isAnnotationStart c' := by
      simp only [isAnnotationStart, hcursor.nextIs_eq]
      rcases rel_cases (hcursor.peekNth? 1) with ⟨hnone, hnone'⟩ | ⟨t, t', ht, ht', htoken⟩
      · rw [hnone, hnone']
      · rw [ht, ht']
        simp only [Option.any_some, Token.isWord, htoken.kind, htoken.text]
    rw [hcursor.nextIs_eq, hcursor.nthIs_eq, hannotation]
    exact .ite (.bind (.discard .advance) fun _ _ _ =>
      .bind (.discard (operandWith hvalue)) fun _ _ _ => ih) (.pure trivial)

theorem constantCast : Matches w Any (constantCast value) (constantCast value) := by
  refine .bind (.discard (.run _)) fun _ _ _ => .bind (.eat _) fun parenthesized _ heq => ?_
  rw [← heq]
  exact .bind (.discard .type) fun _ _ _ => .bind (.discard hvalue) fun _ _ _ =>
    .bind (.discard (.expect _ _)) fun _ _ _ => .bind (.discard .type) fun _ _ _ =>
      .ite (.discard (.expect _ _)) (.pure trivial)

omit hvalue in
theorem constantFlags (head : String) (rounds : Nat) (compared : Bool) :
    Matches w Any (constantFlags head rounds compared) (constantFlags head rounds compared) := by
  induction rounds generalizing compared with
  | zero => exact .pure trivial
  | succ rounds ih =>
    refine .bind .get fun c c' hcursor => ?_
    rw [hcursor.peekText?_eq]
    cases c'.peekText? with
    | none => exact .pure trivial
    | some word =>
      refine .ite (.bind (.discard .advance) fun _ _ _ => ih _)
        (.ite (.bind (.discard .advance) fun _ _ _ => .bind .get fun c c' hcursor => ?_)
          (.ite (.bind (.discard .advance) fun _ _ _ => ih _) (.pure trivial)))
      rw [hcursor.nextIs_eq]
      exact .ite (.bind .skipGroup fun _ _ _ => ih _) (ih _)

theorem constantExpression :
    Matches w Any (constantExpression value) (constantExpression value) := by
  refine .bind (.next _) fun t t' htoken => ?_
  rw [htoken.text]
  refine .ite (constantCast hvalue) (.bind .get fun c c' hcursor => ?_)
  rw [hcursor.remaining_eq]
  refine .bind (constantFlags _ _ _) fun _ _ _ => .bind (.eat _) fun parenthesized _ heq => ?_
  rw [← heq]
  refine .bind (.discard (operandWith hvalue)) fun _ _ _ => .bind .get fun c c' hcursor => ?_
  rw [hcursor.remaining_eq]
  exact .bind (moreOperands hvalue _ _) fun _ _ _ => .ite (.discard (.expect _ _)) (.pure trivial)

theorem wordValue (text : String) :
    Matches w Any (wordValue value text) (wordValue value text) := by
  refine .ite (.bind (.discard .advance) fun _ _ _ => .bind .get fun c c' hcursor => ?_)
    (.ite (.discard .advance) (.ite (.bind (.discard .advance) fun _ _ _ =>
        .bind .get fun c c' hcursor => ?_)
      (.ite (.discard .inlineAssembly) (.ite (constantExpression hvalue) (.throw _ _)))))
  · rw [hcursor.nextIs_eq, hcursor.nextIs_eq]
    exact .ite .skipGroup (.pure trivial)
  · rw [hcursor.nextIs_eq]
    exact .ite .skipGroup (.discard hvalue)

theorem valueOver : Matches w Spaced (valueOver value) (valueOver value) := by
  refine .covered (.bind .get fun c c' hcursor => ?_)
  rcases rel_cases hcursor.peek? with ⟨hnone, hnone'⟩ | ⟨t, t', ht, ht', htoken⟩
  · rw [hnone, hnone']
    exact .throw _ _
  · rw [ht, ht']
    simp only [Token.isPunct, Token.isWord, htoken.kind, htoken.text]
    exact .ite .skipGroup (.ite (wordValue hvalue _) (.throw _ _))

end Nested

theorem valueWithin (depth : Nat) : Matches w Spaced (valueWithin depth) (valueWithin depth) := by
  induction depth with
  | zero => exact .throw _ _
  | succ depth ih => exact valueOver ih

theorem value : Matches w Spaced value value := by
  refine .bind .get fun c c' hcursor => ?_
  rw [hcursor.remaining_eq]
  exact .valueWithin _

theorem typedValue : Matches w Any typedValue typedValue :=
  .bind .type fun _ _ _ => .bind .value fun _ _ _ => .pure trivial

theorem keywordAttribute_outcome {c c' : Cursor} (hcursor : c.Alike w c') :
    Outcome w (fun s s' => Spaced s s' ∧ ∀ d, startsWithChar s d = true →
        c.peek?.any fun token => startsWithChar token.text d)
      (keywordAttribute c) (keywordAttribute c') := by
  refine covered_outcome (.bind (.next _) fun t t' htoken => .bind .get fun c c' hcursor => ?_)
    hcursor
  rw [hcursor.nextIs_eq, hcursor.nextFits_eq, htoken.text]
  exact .ite .skipGroup (.ite (.discard .advance) (.pure trivial))

theorem stringAttribute_outcome {c c' : Cursor} (hcursor : c.Alike w c') :
    Outcome w (fun s s' => Spaced s s' ∧ ∀ d, startsWithChar s d = true →
        c.peek?.any fun token => startsWithChar token.text d)
      (stringAttribute c) (stringAttribute c') := by
  refine covered_outcome (.bind (.discard .advance) fun _ _ _ => .bind (.eat _) ?_) hcursor
  rintro valued _ rfl
  exact .ite (.discard (.next _)) (.pure trivial)

theorem parameterAttributes :
    Matches w (List.Forall₂ Spaced) parameterAttributes parameterAttributes := by
  have hwithin (rounds : Nat) (done done' : List String) (hdone : List.Forall₂ Spaced done done') :
      Matches w (List.Forall₂ Spaced) (parameterAttributesWithin rounds done)
        (parameterAttributesWithin rounds done') := by
    induction rounds generalizing done done' with
    | zero => exact .pure hdone
    | succ rounds ih =>
      refine .get_bind fun c c' hcursor => ?_
      rcases rel_cases hcursor.peek? with ⟨hnone, hnone'⟩ | ⟨t, t', ht, ht', htoken⟩
      · rw [hnone, hnone']
        exact .ok hdone hcursor
      · rw [ht, ht']
        simp only [Token.isWord, htoken.kind, htoken.text]
        refine .ite (fun _ => ?_) fun _ => .ok hdone hcursor
        refine (keywordAttribute_outcome hcursor).bind fun s s' hs => ?_
        exact ih _ _ (List.rel_append hdone (.cons hs.1 .nil))
  refine .bind .get fun c c' hcursor => ?_
  rw [hcursor.remaining_eq]
  exact hwithin _ _ _ .nil

theorem functionAttributes :
    Matches w (List.Forall₂ AlikeAttributes) functionAttributes functionAttributes := by
  have hwithin (rounds : Nat) (done done' : List String)
      (hdone : List.Forall₂ AlikeAttributes done done') :
      Matches w (List.Forall₂ AlikeAttributes) (functionAttributesWithin rounds done)
        (functionAttributesWithin rounds done') := by
    induction rounds generalizing done done' with
    | zero => exact .pure hdone
    | succ rounds ih =>
      refine .get_bind fun c c' hcursor => ?_
      rcases rel_cases hcursor.peek? with ⟨hnone, hnone'⟩ | ⟨t, t', ht, ht', htoken⟩
      · rw [hnone, hnone']
        exact .ok hdone hcursor
      · -- an attribute of its own begins as its first token does, so it is no reference to a group
        have hown (s s' : String) (hgroup : startsWithChar t.text '#' = false)
            (hs : Spaced s s' ∧ ∀ d, startsWithChar s d = true →
              c.peek?.any fun token => startsWithChar token.text d) : AlikeAttributes s s' := by
          refine .inr ⟨hs.1, ?_⟩
          by_contra hsharp
          rw [Bool.not_eq_false] at hsharp
          have hstart := hs.2 '#' hsharp
          rw [ht, Option.any_some, hgroup] at hstart
          cases hstart
        rw [ht, ht']
        simp only [Token.isWord, ← htoken.kind, ← htoken.text]
        refine .ite (fun _ => ?_) fun hnogroup => .ite (fun hknown => ?_) fun _ =>
          .ite (fun hstring => ?_) fun _ => .ok hdone hcursor
        · exact (Matches.discard .advance c c' hcursor).bind fun _ _ _ =>
            ih _ _ (List.rel_append hdone (.cons (.inl rfl) .nil))
        · have hgroup : startsWithChar t.text '#' = false := by
            simp only [Bool.and_eq_true] at hknown
            simpa [hknown.1] using hnogroup
          refine (keywordAttribute_outcome hcursor).bind fun s s' hs => ?_
          exact ih _ _ (List.rel_append hdone (.cons (hown s s' hgroup hs) .nil))
        · have hgroup : startsWithChar t.text '#' = false := by
            obtain ⟨ch, hhead, hquote, -⟩ := htoken.start
            rw [startsWithChar, hhead, hquote hstring]
            rfl
          refine (stringAttribute_outcome hcursor).bind fun s s' hs => ?_
          exact ih _ _ (List.rel_append hdone (.cons (hown s s' hgroup hs) .nil))
  refine .bind .get fun c c' hcursor => ?_
  rw [hcursor.remaining_eq]
  exact hwithin _ _ _ .nil

theorem callingConvention : Matches w Any callingConvention callingConvention := by
  refine .bind .get fun c c' hcursor => ?_
  rw [hcursor.nextIs_eq]
  exact .ite (.map (.covered (.bind (.discard .advance) fun _ _ _ => .discard (.next _)))
    fun _ _ _ => trivial) (.any (.eatIf _))

theorem addressSpace : Matches w Any addressSpace addressSpace := by
  refine .bind .get fun c c' hcursor => ?_
  rw [hcursor.nextIs_eq, hcursor.nthIs_eq]
  exact .ite (.map (.covered (.bind (.discard .advance) fun _ _ _ => .skipGroup))
    fun _ _ _ => trivial) (.pure trivial)

theorem unquoted (expected : String) : Matches w Eq (unquoted expected) (unquoted expected) :=
  .map (.string _) fun _ _ heq => congrArg _ heq

theorem parameter (unnamed : Nat) :
    Matches w (fun p p' => p.1.Alike p'.1 ∧ p.2 = p'.2) (parameter unnamed)
      (parameter unnamed) := by
  refine .bind .type fun _ _ _ => .bind .parameterAttributes fun _ _ hattributes =>
    .bind .get fun c c' hcursor => ?_
  rcases rel_cases hcursor.peek? with ⟨hnone, hnone'⟩ | ⟨t, t', ht, ht', htoken⟩
  · rw [hnone, hnone']
    exact .pure ⟨⟨rfl, hattributes⟩, rfl⟩
  · rw [ht, ht']
    simp only [Token.isWord, htoken.kind, htoken.text]
    exact .ite (.bind (.discard .advance) fun _ _ _ => .pure ⟨⟨rfl, hattributes⟩, rfl⟩)
      (.pure ⟨⟨rfl, hattributes⟩, rfl⟩)

theorem parameters : Matches w (List.Forall₂ Parameter.Alike) parameters parameters := by
  refine .bind (.discard (.expect _ _)) fun _ _ _ =>
    .bind (R := List.Forall₂ fun p p' => p.1.Alike p'.1 ∧ p.2 = p'.2) (.untilClose _ ?_) ?_
  · intro done done' hdone
    have hcount : done.countP (·.2) = done'.countP (·.2) := by
      induction hdone with
      | nil => rfl
      | cons hp _ ih => rw [List.countP_cons, List.countP_cons, ih, hp.2]
    refine .bind (.separator hdone) fun _ _ _ => .bind (.eat _) fun variadic _ heq => ?_
    rw [← heq, hcount]
    refine .ite (.pure (List.rel_append hdone (.cons ⟨⟨rfl, .nil⟩, rfl⟩ .nil))) ?_
    exact .bind (.parameter _) fun _ _ hp => .pure (List.rel_append hdone (.cons hp .nil))
  · intro read read' hread
    apply Matches.pure
    rw [List.forall₂_map_left_iff, List.forall₂_map_right_iff]
    exact hread.imp fun _ _ hp => hp.1

theorem typedConstant : Matches w Any typedConstant typedConstant :=
  .bind .typedValue fun _ _ _ => .pure trivial

theorem comdatName (name name' : String) :
    Matches w Any (comdatName name) (comdatName name') := by
  refine .bind .get fun c c' hcursor => ?_
  rw [hcursor.nextIs_eq]
  exact .ite (.bind .group fun _ _ _ => .pure trivial) (.pure trivial)

theorem lateAttributes {d d' : Definition} (h : d.Alike d') :
    Matches w (Option.Rel Definition.Alike) (lateAttributes d) (lateAttributes d') := by
  refine .bind .get fun before before' hbefore => .bind .functionAttributes fun _ _ hattributes =>
    .bind .get fun c c' hcursor => ?_
  rw [hbefore.pos, hcursor.pos]
  refine .ite (.pure .none) (.pure (.some ?_))
  exact { h with attributes := List.rel_append h.attributes hattributes }

theorem headerClause {d d' : Definition} (h : d.Alike d') (keyword : String) :
    Matches w (Option.Rel Definition.Alike) (headerClause d keyword) (headerClause d' keyword) := by
  have hclause {α : Type} {R : α → α → Prop} {x x' : Reader α} {f f' : α → Definition}
      (hx : Matches w R x x') (hf : ∀ a a', R a a' → (f a).Alike (f' a')) :
      Matches w (Option.Rel Definition.Alike)
        (do Functor.discard Reader.advance; return some (f (← x)))
        (do Functor.discard Reader.advance; return some (f' (← x'))) :=
    .bind (.discard .advance) fun _ _ _ => .bind hx fun a a' ha => .pure (.some (hf a a' ha))
  unfold Reader.headerClause
  split
  · exact hclause (.unquoted _) fun _ _ heq => { h with sectionName := congrArg some heq }
  · exact hclause (.unquoted _) fun _ _ _ => { h with }
  · exact hclause (.comdatName _ _) fun _ _ _ => { h with }
  · exact hclause (.next _) fun _ _ _ => { h with }
  · exact hclause (.unquoted _) fun _ _ _ => { h with }
  · exact hclause .typedConstant fun _ _ _ => { h with }
  · exact hclause .typedConstant fun _ _ _ => { h with }
  · exact hclause .typedConstant fun _ _ _ => { h with }
  · exact .ite (hclause .value fun _ _ _ => { h with }) (.lateAttributes h)

theorem headerClauses (rounds : Nat) {d d' : Definition} (h : d.Alike d') :
    Matches w Definition.Alike (headerClauses rounds d) (headerClauses rounds d') := by
  induction rounds generalizing d d' with
  | zero => exact .pure h
  | succ rounds ih =>
    refine .bind .get fun c c' hcursor => ?_
    rw [hcursor.peekText?_eq]
    cases c'.peekText? with
    | none => exact .pure h
    | some keyword =>
      refine .bind (.headerClause h keyword) fun next next' hnext => ?_
      cases hnext with
      | none => exact .pure h
      | some hd => exact ih hd

theorem functionName : Matches w Eq functionName functionName := by
  refine .bind (.next _) fun t t' htoken => ?_
  rw [htoken.text]
  exact .ite (.pure rfl) (.throw _ _)

theorem header : Matches w Definition.Alike header header := by
  refine .bind (.discard (.expect _ _)) fun _ _ _ => .bind (.eatIf _) fun _ _ _ =>
    .bind (.eatIf _) fun _ _ _ => .bind (.eatIf _) fun _ _ _ => .bind (.eatIf _) fun _ _ _ =>
      .bind .callingConvention fun _ _ _ => .bind .parameterAttributes fun _ _ _ =>
        .bind .type fun _ _ _ => .bind .functionName fun _ _ hname =>
          .bind .parameters fun _ _ hparameters => .bind (.eatIf _) fun _ _ _ =>
            .bind .addressSpace fun _ _ _ => .bind .functionAttributes fun _ _ hattributes =>
              .bind .get fun c c' hcursor => ?_
  rw [hcursor.remaining_eq]
  refine .bind (.headerClauses _ ?_) fun _ _ hd => .bind (.finish _) fun _ _ _ => .pure hd
  exact ⟨hname, rfl, hparameters, hattributes, rfl⟩

end Reader.Matches

theorem Reader.parse_eq {α : Type} (reader : Reader α) (text : String) :
    reader.parse text = match Lexer.scan .between 0 text.toList with
      | none => .error (.unterminatedString text)
      | some tokens => match reader ⟨text, tokens, 0⟩ with
        | .ok a _ => .ok a
        | .error e _ => .error e := by
  unfold Reader.parse Cursor.ofText tokenize
  cases Lexer.scan .between 0 text.toList with
  | none => rfl
  | some tokens => rfl

-- A header and the header with added blanks are both read, and alike, or neither can be read.
theorem Definition.parse_alike {w : Padded} (hw : Loose false false w) (hline : '\n' ∉ bare w) :
    (∃ d d', Definition.parse (String.ofList (bare w)) = .ok d ∧
        Definition.parse (String.ofList (full w)) = .ok d' ∧ d.Alike d') ∨
      ∃ e e', Definition.parse (String.ofList (bare w)) = .error e ∧
        Definition.parse (String.ofList (full w)) = .error e' := by
  simp only [Definition.parse, Reader.parse_eq, String.toList_ofList]
  rcases rel_cases (alike_tokenize hw hline) with ⟨hnone, hnone'⟩ | ⟨ts, ts', hts, hts', htokens⟩
  · rw [hnone, hnone']
    exact .inr ⟨_, _, rfl, rfl⟩
  · simp only [hts, hts']
    have hcursor : Cursor.Alike ⟨w, ts, ts', hw, htokens⟩ ⟨String.ofList (bare w), ts, 0⟩
        ⟨String.ofList (full w), ts', 0⟩ := ⟨rfl, rfl, rfl, rfl, rfl⟩
    have hread := Reader.Matches.header _ _ hcursor
    generalize Reader.header ⟨String.ofList (bare w), ts, 0⟩ = r,
      Reader.header ⟨String.ofList (full w), ts', 0⟩ = r' at hread
    cases hread with
    | ok hd _ => exact .inl ⟨_, _, rfl, rfl, hd⟩
    | error e e' => exact .inr ⟨e, e', rfl, rfl⟩

end TestFocus
