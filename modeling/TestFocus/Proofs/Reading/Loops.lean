import TestFocus.Proofs.Reading.Rounds
import TestFocus.Proofs.Reading.StatementProgress

namespace TestFocus

namespace Reader

variable {α β : Type} {c c' : Cursor}

-- One more attribute of a parameter, and what comes after it.
def parameterAttributeRound (again : List String → Reader (List String)) (done : List String) :
    Reader (List String) := do
  match (← get).peek? with
  | none => pure done
  | some token =>
    if token.isWord && Keyword.isParameterAttribute token.text then
      again (done ++ [← keywordAttribute])
    else pure done

theorem descends_parameterAttributeRound : Descends parameterAttributeRound := by
  intro k again again' _ hagain done
  refine .get_bind fun c hc hk => ?_
  cases c.peek? with
  | none => rfl
  | some token =>
    exact ite_eq (fun _ => (Takes.keywordAttribute c hc).bind_eq hk fun _ => hagain _) fun _ => rfl

theorem settles_parameterAttributes :
    Settles parameterAttributeRound parameterAttributesWithin Cursor.remaining := by
  refine .of_end (fun _ _ => rfl) .parameterAttributesWithin descends_parameterAttributeRound ?_
  intro c hc done
  simp [parameterAttributesWithin, Cursor.peek?, Cursor.peekNth?_eq_none hc]

-- One more attribute of a function, and what comes after it.
def functionAttributeRound (again : List String → Reader (List String)) (done : List String) :
    Reader (List String) := do
  match (← get).peek? with
  | none => pure done
  | some token =>
    if token.isWord && Text.startsWithChar token.text '#' then
      discard advance
      again (done ++ [token.text])
    else if token.isWord && Keyword.isFunctionAttribute token.text then
      again (done ++ [← keywordAttribute])
    else if token.kind = .string then
      again (done ++ [← stringAttribute])
    else pure done

theorem takesAt_stringAttribute (hc : c.pos < c.tokens.length) : TakesAt stringAttribute c :=
  .covered ((TakesAt.advance hc).discard.bind fun _ => .bind (.eat _) fun _ =>
    .ite (.discard (.next _)) (.pure _))

theorem descends_functionAttributeRound : Descends functionAttributeRound := by
  intro k again again' _ hagain done
  refine .get_bind fun c hc hk => ?_
  cases hpeek : c.peek? with
  | none => rfl
  | some token =>
    have hlt : c.pos < c.tokens.length := Cursor.lt_of_peekNth? hpeek
    refine ite_eq ?_ fun _ => ite_eq ?_ fun _ => ite_eq ?_ fun _ => rfl
    · intro _
      exact (TakesAt.advance hlt).discard.bind_eq hk fun _ => hagain _
    · intro _
      exact (Takes.keywordAttribute c hc).bind_eq hk fun _ => hagain _
    · intro _
      exact (takesAt_stringAttribute hlt).bind_eq hk fun _ => hagain _

theorem settles_functionAttributes :
    Settles functionAttributeRound functionAttributesWithin Cursor.remaining := by
  refine .of_end (fun _ _ => rfl) .functionAttributesWithin descends_functionAttributeRound ?_
  intro c hc done
  simp [functionAttributesWithin, Cursor.peek?, Cursor.peekNth?_eq_none hc]

-- Either there is no attribute, or a token is taken.
theorem functionAttributes_cases {known : List String} (hc : c.Inside)
    (h : functionAttributes c = .ok known c') : known = [] ∨ c.pos < c'.pos := by
  change functionAttributesWithin c.remaining [] c = .ok known c' at h
  cases hremaining : c.remaining with
  | zero =>
    rw [hremaining] at h
    cases h
    exact .inl rfl
  | succ rounds =>
    have hagain (done : List String) : Forward (functionAttributesWithin rounds done) :=
      .functionAttributesWithin rounds done
    rw [hremaining, functionAttributesWithin, bind_apply, get_apply] at h
    cases hpeek : c.peek? with
    | none =>
      simp only [hpeek] at h
      cases h
      exact .inl rfl
    | some token =>
      have hlt : c.pos < c.tokens.length := Cursor.lt_of_peekNth? hpeek
      simp only [hpeek] at h
      split at h
      · exact .inr ((TakesAt.advance hlt).discard.bind (fun _ => hagain _) known c' h).2
      split at h
      · exact .inr ((Takes.keywordAttribute c hc).bind (fun _ => hagain _) known c' h).2
      split at h
      · exact .inr ((takesAt_stringAttribute hlt).bind (fun _ => hagain _) known c' h).2
      · cases h
        exact .inl rfl

-- One more mark of an address computation, and what comes after it.
def markRound (again : Bool → Reader Bool) (inbounds : Bool) : Reader Bool := do
  let c ← get
  if c.nextIs "inbounds" then
    discard advance
    again true
  else if c.nextIs "nusw" || c.nextIs "nuw" then
    discard advance
    again inbounds
  else if c.nextIs "inrange" && c.nthIs 1 "(" then
    discard advance
    skipGroup
    again inbounds
  else pure inbounds

theorem descends_markRound : Descends markRound := by
  intro k again again' _ hagain inbounds
  refine .get_bind fun c hc hk => ite_eq ?_ fun _ => ite_eq ?_ fun _ => ite_eq ?_ fun _ => rfl
  · intro hnext
    exact (takesAt_next hnext).bind_eq hk fun _ => hagain true
  · intro hnext
    have htakes : TakesAt (Functor.discard advance : Reader Unit) c := by
      rcases Bool.or_eq_true_iff.mp hnext with hnext | hnext
      · exact takesAt_next hnext
      · exact takesAt_next hnext
    exact htakes.bind_eq hk fun _ => hagain inbounds
  · intro hnext
    rw [Bool.and_eq_true] at hnext
    exact (takesAt_next hnext.1).bind_eq hk fun _ => .rest .skipGroup fun _ => hagain inbounds

theorem settles_elementPointerMarks :
    Settles markRound elementPointerMarks Cursor.remaining := by
  refine .of_end (fun _ _ => rfl) .elementPointerMarks descends_markRound ?_
  intro c hc inbounds
  simp [elementPointerMarks, Cursor.nextIs_eq_false hc]

-- One more index of an address computation, and what comes after it.
def elementIndexRound (again : List (String × String) → Reader (List (String × String)))
    (done : List (String × String)) : Reader (List (String × String)) := do
  let c ← get
  if c.nextIs "," && !isAnnotationStart c then
    discard advance
    discard (eat "inrange")
    again (done ++ [← typedValue])
  else pure done

theorem descends_elementIndexRound : Descends elementIndexRound := by
  intro k again again' _ hagain done
  refine .get_bind fun c hc hk => ite_eq ?_ fun _ => rfl
  intro hcomma
  rw [Bool.and_eq_true] at hcomma
  exact (takesAt_next hcomma.1).bind_eq hk fun _ => .rest (.discard (.eat _)) fun _ =>
    .rest .typedValue fun _ => hagain _

theorem settles_elementIndices :
    Settles elementIndexRound elementIndices Cursor.remaining := by
  refine .of_end (fun _ _ => rfl) .elementIndices descends_elementIndexRound ?_
  intro c hc done
  simp [elementIndices, Cursor.nextIs_eq_false hc]

-- One more index of an aggregate, and what comes after it.
def aggregateIndexRound (again : List String → Reader (List String)) (done : List String) :
    Reader (List String) := do
  let c ← get
  if c.nextIs "," && !isAnnotationStart c then
    discard advance
    let word := (← next "aggregate index").text
    if Keyword.isNumber word then again (done ++ [word])
    else throw (.unexpected "aggregate index" word)
  else pure done

theorem descends_aggregateIndexRound : Descends aggregateIndexRound := by
  intro k again again' _ hagain done
  refine .get_bind fun c hc hk => ite_eq ?_ fun _ => rfl
  intro hcomma
  rw [Bool.and_eq_true] at hcomma
  exact (takesAt_next hcomma.1).bind_eq hk fun _ => .rest (.next _) fun _ =>
    .ite (hagain _) (.refl k _)

theorem settles_aggregateIndices :
    Settles aggregateIndexRound aggregateIndicesWithin Cursor.remaining := by
  refine .of_end (fun _ _ => rfl) .aggregateIndicesWithin descends_aggregateIndexRound ?_
  intro c hc done
  simp [aggregateIndicesWithin, Cursor.nextIs_eq_false hc]

-- One more predecessor of a phi, and what comes after it.
def incomingRound (again : List (String × String) → Reader (List (String × String)))
    (done : List (String × String)) : Reader (List (String × String)) := do
  let c ← get
  if c.nextIs "," && c.nthIs 1 "[" then
    discard advance
    again (done ++ [← incoming])
  else pure done

theorem descends_incomingRound : Descends incomingRound := by
  intro k again again' _ hagain done
  refine .get_bind fun c hc hk => ite_eq ?_ fun _ => rfl
  intro hcomma
  rw [Bool.and_eq_true] at hcomma
  exact (takesAt_next hcomma.1).bind_eq hk fun _ => .rest .incoming fun _ => hagain _

theorem settles_moreIncoming : Settles incomingRound moreIncoming Cursor.remaining := by
  refine .of_end (fun _ _ => rfl) .moreIncoming descends_incomingRound ?_
  intro c hc done
  simp [moreIncoming, Cursor.nextIs_eq_false hc]

-- One more annotation of an instruction, and what comes after it.
def annotationRound (again : Reader Unit) : Reader Unit := do
  if ← eat "," then
    let token ← next "annotation"
    if token.text = "align" then
      discard (next "alignment")
      again
    else if token.isWord && Text.startsWithChar token.text '!' then
      discard value
      again
    else throw (.unexpected "annotation" token.text)
  else pure ()

theorem descends_annotationRound : Descends (stateless annotationRound) := by
  intro k again again' _ hagain s
  refine .rest (.eat _) fun _ => .ite ((Takes.next _).bind_agree fun _ => ?_) (.refl _ _)
  exact .ite (.rest (.discard (.next _)) fun _ => hagain s)
    (.ite (.rest (.discard .value) fun _ => hagain s) (.refl k _))

theorem settles_skipAnnotations :
    Settles (stateless annotationRound) (fun rounds _ => skipAnnotations rounds)
      Cursor.remaining := by
  refine .of_end (fun _ _ => rfl) (fun rounds _ => .skipAnnotations rounds)
    descends_annotationRound ?_
  intro c hc _
  simp [skipAnnotations, eat, Cursor.nextIs_eq_false hc]

-- One more clause behind the parameters, and what comes after it.
def clauseRound (again : Definition → Reader Definition) (d : Definition) : Reader Definition := do
  match (← get).peekText? with
  | none => pure d
  | some keyword =>
    match ← headerClause d keyword with
    | none => pure d
    | some d => again d

theorem lt_of_lateAttributes {d d' : Definition} (hc : c.Inside)
    (h : lateAttributes d c = .ok (some d') c') : c.pos < c'.pos := by
  simp only [lateAttributes, bind_apply, get_apply] at h
  split at h
  · next attributes middle hread =>
    have hle := (Forward.functionAttributes.reaches hc hread).le
    split at h
    · cases h
    · next hmoved =>
      cases h
      omega
  · cases h

-- A clause begins with its keyword, late attributes aside.
theorem headerClause_cases (hc : c.pos < c.tokens.length) (d : Definition) (keyword : String) :
    headerClause d keyword = lateAttributes d ∨ TakesAt (headerClause d keyword) c := by
  have hclause {β : Type} {x : Reader β} {f : β → Option Definition} (hx : Forward x) :
      TakesAt (do Functor.discard advance; return f (← x)) c :=
    (TakesAt.advance hc).discard.bind fun _ => .bind hx fun _ => .pure _
  unfold headerClause
  split
  · exact .inr (hclause (.unquoted _))
  · exact .inr (hclause (.unquoted _))
  · exact .inr (hclause (.comdatName _))
  · exact .inr (hclause (.next _))
  · exact .inr (hclause (.unquoted _))
  · exact .inr (hclause .typedConstant)
  · exact .inr (hclause .typedConstant)
  · exact .inr (hclause .typedConstant)
  · split
    · exact .inr (hclause .value)
    · exact .inl rfl

theorem lt_of_headerClause {d d' : Definition} {keyword : String} (hc : c.pos < c.tokens.length)
    (h : headerClause d keyword c = .ok (some d') c') : c.pos < c'.pos := by
  rcases headerClause_cases hc d keyword with hlate | htakes
  · rw [hlate] at h
    exact lt_of_lateAttributes (Nat.le_of_lt hc) h
  · exact (htakes _ c' h).2

theorem descends_clauseRound : Descends clauseRound := by
  intro k again again' _ hagain d
  refine .get_bind fun c hc hk => ?_
  cases hpeek : c.peekText? with
  | none => rfl
  | some keyword =>
    dsimp only
    rw [bind_apply, bind_apply]
    cases hclause : headerClause d keyword c with
    | error e c' => rfl
    | ok next c' =>
      cases next with
      | none => rfl
      | some d' =>
        have hreach := (Forward.headerClause d keyword).reaches hc hclause
        have hlt := lt_of_headerClause (Cursor.lt_of_peekText? hpeek) hclause
        have hless := hreach.remaining_lt hlt
        exact hagain d' c' hreach.inside (by omega)

theorem settles_headerClauses : Settles clauseRound headerClauses Cursor.remaining := by
  refine .of_end (fun _ _ => rfl) .headerClauses descends_clauseRound ?_
  intro c hc d
  simp [headerClauses, Cursor.peekText?, Cursor.peek?, Cursor.peekNth?_eq_none hc]

-- Either the closing token, or one more step and what comes after it.
def closeRound (close : String) (step : List α → Reader (List α))
    (again : List α → Reader (List α)) (done : List α) : Reader (List α) := do
  if ← eat close then return done
  else again (← step done)

-- A loop up to a closing token begins one round more than there are tokens, to fail in it.
def EndsAtClose (close : String) (step : List α → Reader (List α)) : Prop :=
  Settles (closeRound close step) (untilCloseFrom close step) (fun c => c.remaining + 1)

theorem endsAtClose (close : String) {step : List α → Reader (List α)}
    (hforward : ∀ done, Forward (step done)) (htakes : ∀ done, Takes (step done)) :
    EndsAtClose close step := by
  refine .of_descends (fun _ _ => rfl) (.untilCloseFrom close hforward) ?_
  intro k again again' _ hagain done
  exact .rest (.eat _) fun _ => .ite (.refl _ _) ((htakes done).bind_agree fun done => hagain done)

theorem endsAtClose_commaList (close : String) {item : Reader α} (hforward : Forward item)
    (htakes : Takes item) : EndsAtClose close (commaStep item) :=
  endsAtClose close (.commaStep hforward) fun done =>
    .after (.separator done) fun _ => .bind htakes fun _ => .pure _

-- Where no known attribute follows, a keyword is taken instead.
theorem Takes.groupStep (done : List String) : Takes (groupStep done) := by
  intro c hc all c' h
  rw [Reader.groupStep, bind_apply] at h
  cases hread : functionAttributes c with
  | error e middle =>
    rw [hread] at h
    cases h
  | ok known middle =>
    have hreach := Forward.functionAttributes.reaches hc hread
    simp only [hread] at h
    split at h
    · have hkeyword := keywordAttribute.bind fun word => .pure (done ++ [word])
      obtain ⟨hreach', hlt⟩ := hkeyword middle hreach.inside all c' h
      exact ⟨hreach.trans hreach', Nat.lt_of_le_of_lt hreach.le hlt⟩
    · next hknown =>
      cases h
      have hne : known ≠ [] := by simpa using hknown
      exact ⟨hreach, (functionAttributes_cases hc hread).resolve_left hne⟩

-- The readers with a loop up to a closing token are these loops, with something in front of them
-- and behind.
structure ReadUntilClose : Prop where
  list : ∀ {α : Type} (close : String) (item : Reader α),
    commaList close item = untilClose close (commaStep item)
  switch : switch = do
    let (ty, value) ← typedValue
    comma
    let default ← label
    discard (expect "[" "'['")
    return .switch ty value default (← untilClose "]" caseStep)
  arguments : arguments = do
    discard (expect "(" "'('")
    untilClose ")" argumentStep
  parameters : parameters = do
    discard (expect "(" "'('")
    return (← untilClose ")" parameterStep).map (·.1)
  aliasLine : aliasLine = do
    let name := (← next "alias name").text
    discard (expect "=" "'='")
    discard (untilClose "alias" aliasStep)
    discard type
    comma
    let (_, aliasee) ← typedValue
    match Operand.referencedGlobal aliasee with
    | some target => return (name, target)
    | none => throw (.unexpected "aliasee" aliasee)
  attributeGroup : attributeGroup = do
    discard (expect "attributes" "'attributes'")
    let id := (← next "attribute group id").text
    discard (expect "=" "'='")
    discard (expect "\x7b" "'\x7b'")
    let attributes ← untilClose "\x7d" groupStep
    finish "attribute group"
    return (id, attributes)

theorem read_until_close : ReadUntilClose :=
  ⟨fun _ _ => rfl, rfl, rfl, rfl, rfl, rfl⟩

-- Each loop of the readers ends by itself, values and the loops inside of them at any depth.
structure LoopsSettle : Prop where
  values : Settles (stateless valueOver) (fun depth _ => valueWithin depth) Cursor.remaining
  suffixes : Settles (stateless suffixRound) (fun rounds _ => typeSuffixes rounds)
    Cursor.remaining
  flags : ∀ head, Settles (flagRound head) (constantFlags head) Cursor.remaining
  operands : ∀ depth parenthesized,
    Settles (stateless (operandRound (valueWithin depth) parenthesized))
      (fun rounds _ => moreOperands (valueWithin depth) parenthesized rounds) Cursor.remaining
  ofParameters : Settles parameterAttributeRound parameterAttributesWithin Cursor.remaining
  ofFunctions : Settles functionAttributeRound functionAttributesWithin Cursor.remaining
  marks : Settles markRound elementPointerMarks Cursor.remaining
  elementIndices : Settles elementIndexRound Reader.elementIndices Cursor.remaining
  aggregateIndices : Settles aggregateIndexRound aggregateIndicesWithin Cursor.remaining
  incoming : Settles incomingRound moreIncoming Cursor.remaining
  annotations : Settles (stateless annotationRound) (fun rounds _ => skipAnnotations rounds)
    Cursor.remaining
  clauses : Settles clauseRound headerClauses Cursor.remaining
  cases : EndsAtClose "]" caseStep
  labels : EndsAtClose "]" (commaStep label)
  arguments : EndsAtClose ")" argumentStep
  bundles : EndsAtClose "]" (commaStep operandBundle)
  bundled : EndsAtClose ")" (commaStep typedValue)
  parameters : EndsAtClose ")" parameterStep
  aliasWords : EndsAtClose "alias" aliasStep
  groupEntries : EndsAtClose "\x7d" groupStep

theorem loops_settle : LoopsSettle where
  values := settles_valueWithin
  suffixes := settles_typeSuffixes
  flags := settles_constantFlags
  operands depth := settles_moreOperands (.valueWithin depth)
  ofParameters := settles_parameterAttributes
  ofFunctions := settles_functionAttributes
  marks := settles_elementPointerMarks
  elementIndices := settles_elementIndices
  aggregateIndices := settles_aggregateIndices
  incoming := settles_moreIncoming
  annotations := settles_skipAnnotations
  clauses := settles_headerClauses
  cases := endsAtClose "]" .caseStep fun _ => .bind .switchCase fun _ => .pure _
  labels := endsAtClose_commaList "]" .label .label
  arguments := endsAtClose ")" .argumentStep fun done =>
    .after (.separator done) fun _ => .eat_or "..." (.pure _) (.bind .argument fun _ => .pure _)
  bundles := endsAtClose_commaList "]" .operandBundle .operandBundle
  bundled := endsAtClose_commaList ")" .typedValue .typedValue
  parameters := endsAtClose ")" .parameterStep fun done =>
    .after (.separator done) fun _ =>
      .eat_or "..." (.pure _) (.bind (.parameter _) fun _ => .pure _)
  aliasWords := endsAtClose "alias" .aliasStep fun _ => .bind (.discard (.next _)) fun _ => .pure _
  groupEntries := endsAtClose "\x7d" .groupStep .groupStep

end Reader

end TestFocus
