import TestFocus.Proofs.Reading.ValueText

-- Reading a value gives back exactly what was written, and stops right behind it. The operands
-- of a constant expression are tried as a type with a value first, and then as a value alone, so
-- a type that stands alone has to be readable as a value too.

namespace TestFocus

open Lexer Text Piece Cursor

namespace Reader

open Grammar

variable {n rounds : Nat} {ps rest : List Piece}

theorem endsType_of_opens {s : String} (hs : Val.opens s = true) (ss : List String) :
    EndsType (s :: ss) := by
  have hne {t : String} (ht : Val.opens t = false) : s ≠ t := by
    rintro rfl
    rw [hs] at ht
    cases ht
  have hstar : s ≠ "*" := hne (by decide)
  have hopen : s ≠ "(" := hne (by decide)
  have hspace : s ≠ "addrspace" := hne (by decide)
  simp [hstar, hopen, hspace]

-- An operand ends in front of a comma or of the closing parenthesis.
def EndsOperand (ps : List Piece) : Prop :=
  ∃ s qs, ps = punct s :: qs ∧ (s = "," ∨ s = ")")

-- The pieces are read as one value, whatever follows.
def IsValue (n : Nat) (ps : List Piece) : Prop :=
  ∀ read rest,
    valueWithin n (between read (ps ++ rest)) = .ok (print ps) (between (read ++ ps) rest)

-- The pieces are read as one operand of a constant expression.
structure IsOperand (n : Nat) (ps : List Piece) : Prop where
  opening : ∃ s ss, texts ps = s :: ss ∧ s ≠ ")"
  reads : ∀ read rest, EndsOperand rest →
    operandWith (valueWithin n) (between read (ps ++ rest)) =
      .ok (print ps) (between (read ++ ps) rest)

theorem EndsOperand.endsType (h : EndsOperand rest) : EndsType (texts rest) := by
  obtain ⟨s, qs, rfl, rfl | rfl⟩ := h <;> simp [EndsType]

-- No value begins where an operand ends.
theorem EndsOperand.valueWithin_error (h : EndsOperand rest) (n : Nat) (read : List Piece) :
    ∃ e c, valueWithin n (between read rest) = .error e c := by
  obtain ⟨s, qs, rfl, hs⟩ := h
  cases n with
  | zero => exact ⟨_, _, rfl⟩
  | succ n =>
    rcases hs with rfl | rfl <;>
      simp [valueWithin, valueOver, covered, placed, Token.isPunct, Token.isWord]

theorem isValue_simple (v : Simple) (n : Nat) : IsValue (n + 1) [word v.text] := by
  intro read rest
  simpa [print, text] using valueWithin_simple v n read rest

theorem isValue_group {opening closing : String} (hopening : opening ∈ ["[", "\x7b", "<"])
    (hclose : Bracket.closer? opening = some closing) (hps : Balanced ps) (n : Nat) :
    IsValue (n + 1) (punct opening :: (ps ++ [punct closing])) := by
  intro read rest
  have hskip := skipGroup_balanced read rest hclose hps
  have hopens : ((placed read .punct opening).isPunct "\x7b" = true ∨
      (placed read .punct opening).isPunct "[" = true) ∨
      (placed read .punct opening).isPunct "<" = true := by
    simpa [placed, Token.isPunct, or_assoc, or_left_comm] using hopening
  refine covered_of_ok ((solid_token .punct opening).append (solid_token .punct closing) ps) ?_
  simp [hopens, hskip]

-- A type and a value.
theorem isOperand_typed (t : Ty) (v : Val) (hv : IsValue n v.pieces) :
    IsOperand n (t.pieces ++ space :: v.pieces) := by
  obtain ⟨s, ss, hs, hopens⟩ := t.exists_opening
  obtain ⟨s', ss', hs', hopens'⟩ := v.exists_opening
  have hparen : s ≠ ")" := ne_of_opens hopens (by decide)
  have hinrange : s ≠ "inrange" := ne_of_opens hopens (by decide)
  refine ⟨⟨s, _, by rw [texts_append, hs, List.cons_append], hparen⟩, fun read rest _ => ?_⟩
  refine covered_of_ok (t.solid_pieces.append v.solid_pieces [space]) ?_
  have heat : (texts (t.pieces ++ space :: (v.pieces ++ rest))).head? ≠ some "inrange" := by
    simp [hs, hinrange]
  have hends : EndsType (texts (space :: (v.pieces ++ rest))) := by
    rw [texts_gap, texts_append, hs']
    exact endsType_of_opens hopens' _
  have htype := type_between t read _ hends
  have hvalue := hv (read ++ (t.pieces ++ [space])) rest
  simp [eat_of_ne heat, attempt, htype, hvalue]

-- A type alone is read again as a value, which the name or the bracket that it begins with opens.
theorem isOperand_type (t : Ty) (ht : IsValue n t.pieces) : IsOperand n t.pieces := by
  obtain ⟨s, ss, hs, hopens⟩ := t.exists_opening
  have hparen : s ≠ ")" := ne_of_opens hopens (by decide)
  have hinrange : s ≠ "inrange" := ne_of_opens hopens (by decide)
  refine ⟨⟨s, ss, hs, hparen⟩, fun read rest hrest => ?_⟩
  refine covered_of_ok t.solid_pieces ?_
  have heat : (texts (t.pieces ++ rest)).head? ≠ some "inrange" := by simp [hs, hinrange]
  obtain ⟨e, c, herror⟩ := hrest.valueWithin_error n (read ++ t.pieces)
  simp [eat_of_ne heat, attempt, type_between t read rest hrest.endsType, herror, ht read rest]

theorem isOperand_simple (v : Simple) (n : Nat) (hv : Keyword.isTypeWord v.text = false) :
    IsOperand (n + 1) [word v.text] := by
  have hparen : v.text ≠ ")" := v.ne_of_not (by decide)
  have hinrange : v.text ≠ "inrange" := v.ne_of_not (by decide)
  refine ⟨⟨_, _, rfl, hparen⟩, fun read rest _ => ?_⟩
  refine covered_of_ok (solid_token _ _) ?_
  have hvalue := isValue_simple v n read rest
  simp at hvalue
  simp [hinrange, attempt, type, covered, typeHead, placed, Token.isPunct, Token.isWord, hv, hvalue]

-- A word that may stand between the head of a constant expression and its operands.
def isFlag (word : String) : Bool :=
  Keyword.isOverflowFlag word || Keyword.isFastMathFlag word || word == "inbounds" || word == "nusw"

theorem isFlag_iff {s : String} : isFlag s = true ↔ s ∈ WordClass.overflow.words ∨
    s ∈ WordClass.fastMath.words ∨ s ∈ WordClass.pointerFlag.words := by
  simp [isFlag, Keyword.isOverflowFlag, Keyword.isFastMathFlag, WordClass.words, or_assoc]

theorem constantFlags_flags {head : String} {flags : List String}
    (hflags : ∀ s ∈ flags, isFlag s = true) (rounds : Nat) (compared : Bool)
    (read rest : List Piece) :
    constantFlags head (rounds + flags.length) compared (between read (spaced flags ++ rest)) =
      constantFlags head rounds compared (between (read ++ spaced flags) rest) := by
  induction flags generalizing read with
  | nil => simp
  | cons s flags ih =>
    have hs : isFlag s = true := hflags s (by simp)
    have hrest := ih (fun s hs => hflags s (by simp [hs])) (read ++ [word s, space])
    simp only [isFlag, Bool.or_eq_true, beq_iff_eq] at hs
    rw [List.length_cons, ← Nat.add_assoc]
    simp [constantFlags, hs, hrest]

theorem constantFlags_predicate {head p : String}
    (hp : head = "icmp" ∧ p ∈ Keyword.integerPredicates ∨
      head = "fcmp" ∧ p ∈ Keyword.floatPredicates) (rounds : Nat) (read rest : List Piece) :
    constantFlags head (rounds + 1) false (between read (word p :: space :: rest)) =
      constantFlags head rounds true (between (read ++ [word p, space]) rest) := by
  have hmem : p ∈ predicates := List.mem_append.mpr (hp.imp (·.2) (·.2))
  have hflag : isFlag p = false := by
    rw [Bool.eq_false_iff, ne_eq, isFlag_iff]
    have := not_mem_words_of_predicate hmem
    simp_all
  have hinrange : p ≠ "inrange" := by
    rintro rfl
    exact not_mem_words_of_predicate hmem .mark (by simp) (by simp [WordClass.words])
  have hcompares : head = "icmp" ∧ Keyword.isIntegerPredicate p = true ∨
      head = "fcmp" ∧ Keyword.isFloatPredicate p = true := by
    simpa [Keyword.isIntegerPredicate, Keyword.isFloatPredicate] using hp
  simp only [isFlag, Bool.or_eq_false_iff, beq_eq_false_iff_ne] at hflag
  simp [constantFlags, hflag, hinrange, hcompares]

theorem constantFlags_paren (head : String) (rounds : Nat) (compared : Bool)
    (read rest : List Piece) :
    constantFlags head rounds compared (between read (punct "(" :: rest)) =
      .ok () (between read (punct "(" :: rest)) := by
  have hparen : isFlag "(" = false ∧ Keyword.isIntegerPredicate "(" = false ∧
      Keyword.isFloatPredicate "(" = false := by decide
  simp only [isFlag, Bool.or_eq_false_iff] at hparen
  cases rounds with
  | zero => rfl
  | succ rounds => simp [constantFlags, hparen]

-- What is read between the head of a constant expression and its parenthesis.
structure IsOpening (keyword : String) (flags : List String) (predicate : Option String) :
    Prop where
  operator : keyword ∈ WordClass.operator.words
  flags : ∀ s ∈ flags, isFlag s = true
  predicate : ∀ p ∈ predicate, keyword = "icmp" ∧ p ∈ Keyword.integerPredicates ∨
    keyword = "fcmp" ∧ p ∈ Keyword.floatPredicates

theorem constantFlags_head {keyword : String} {flags : List String} {predicate : Option String}
    (h : IsOpening keyword flags predicate)
    (hrounds : (flags ++ predicate.toList).length ≤ rounds) (read rest : List Piece) :
    constantFlags keyword rounds false
        (between read (spaced (flags ++ predicate.toList) ++ punct "(" :: rest)) =
      .ok () (between (read ++ spaced (flags ++ predicate.toList)) (punct "(" :: rest)) := by
  rw [List.length_append] at hrounds
  cases predicate with
  | none =>
    obtain ⟨k, rfl⟩ : ∃ k, rounds = k + flags.length := ⟨rounds - flags.length, by omega⟩
    simp [constantFlags_flags h.flags, constantFlags_paren]
  | some p =>
    obtain ⟨k, rfl⟩ : ∃ k, rounds = k + 1 + flags.length :=
      ⟨rounds - 1 - flags.length, by simp at hrounds; omega⟩
    have hsplit : spaced (flags ++ (some p).toList) = spaced flags ++ [word p, space] := by
      simp [spaced]
    rw [hsplit, List.append_assoc, constantFlags_flags h.flags, List.cons_append, List.cons_append,
      constantFlags_predicate (h.predicate p rfl), List.nil_append, constantFlags_paren]
    simp

-- The operands after the first, up to the closing parenthesis.
theorem moreOperands_between {parts : List (List Piece)} (hparts : ∀ ps ∈ parts, IsOperand n ps)
    (hrounds : parts.length ≤ rounds) (read rest : List Piece) :
    moreOperands (valueWithin n) true rounds (between read (commaed parts ++ punct ")" :: rest)) =
      .ok () (between (read ++ commaed parts) (punct ")" :: rest)) := by
  induction parts generalizing rounds read with
  | nil =>
    cases rounds with
    | zero => simp [moreOperands]
    | succ rounds => simp [moreOperands]
  | cons ps parts ih =>
    obtain ⟨rounds, rfl⟩ : ∃ k, rounds = k + 1 := ⟨rounds - 1, by simp at hrounds; omega⟩
    obtain ⟨s, ss, hs, hparen⟩ := (hparts ps (by simp)).opening
    have hends : EndsOperand (commaed parts ++ punct ")" :: rest) := by
      cases parts with
      | nil => exact ⟨_, _, rfl, .inr rfl⟩
      | cons ps parts => exact ⟨_, _, rfl, .inl rfl⟩
    have hfirst := (hparts ps (by simp)).reads (read ++ [punct ",", space]) _ hends
    have hmore := ih (fun ps hps => hparts ps (by simp [hps])) (by simpa using hrounds)
      (read ++ punct "," :: space :: ps)
    simp at hfirst hmore
    simp [moreOperands, hs, hparen, hfirst, hmore]

theorem constantExpression_between {keyword : String} {flags : List String}
    {predicate : Option String} (h : IsOpening keyword flags predicate) {first : List Piece}
    {parts : List (List Piece)} (hfirst : IsOperand n first)
    (hparts : ∀ ps ∈ parts, IsOperand n ps) (read rest : List Piece) :
    constantExpression (valueWithin n)
        (between read
          (called (keyword :: (flags ++ predicate.toList)) (first :: parts) ++ rest)) =
      .ok () (between (read ++ called (keyword :: (flags ++ predicate.toList)) (first :: parts))
        rest) := by
  have hconversion : Keyword.isConversion keyword = false := by
    rw [Bool.eq_false_iff, ne_eq, Val.isConversion_iff]
    exact WordClass.disjoint (by decide) h.operator
  have hends : EndsOperand (commaed parts ++ punct ")" :: rest) := by
    cases parts with
    | nil => exact ⟨_, _, rfl, .inr rfl⟩
    | cons ps parts => exact ⟨_, _, rfl, .inl rfl⟩
  -- Every word and every operand has a token of its own, so there are enough rounds.
  have hwords : (flags ++ predicate.toList).length ≤
      (texts (spaced (flags ++ predicate.toList) ++
        punct "(" :: (first ++ (commaed parts ++ punct ")" :: rest)))).length := by
    simp
  have hoperands : parts.length ≤ (texts (commaed parts ++ punct ")" :: rest)).length := by
    have := length_le_texts_commaed parts
    rw [texts_append, List.length_append]
    omega
  have hflags := constantFlags_head h hwords (read ++ [word keyword, space])
    (first ++ (commaed parts ++ punct ")" :: rest))
  have hread := hfirst.reads
    (read ++ [word keyword, space] ++ spaced (flags ++ predicate.toList) ++ [punct "("]) _ hends
  have hmore := moreOperands_between hparts hoperands
    (read ++ [word keyword, space] ++ spaced (flags ++ predicate.toList) ++ [punct "("] ++ first)
    rest
  simp only [List.append_assoc, List.cons_append, List.nil_append] at hflags hread hmore
  simp only [called, spaced_cons, commas_cons, constantExpression, bind_apply, discard_apply,
    next_token, eat_token, expect_token, get_apply, remaining_between, between_gap, placed,
    hconversion, Bool.false_eq_true, if_true, if_false, List.cons_append, List.append_assoc,
    List.nil_append, hflags, hread, hmore]

theorem constantExpression_cast {opcode : Word [.conversion]} {flags : List (Word [.overflow])}
    {fromType toType : Ty} {v : Val} (hv : IsValue n v.pieces) (read rest : List Piece) :
    constantExpression (valueWithin n)
        (between read ((Val.cast opcode flags fromType v toType).pieces ++ rest)) =
      .ok () (between (read ++ (Val.cast opcode flags fromType v toType).pieces) rest) := by
  obtain ⟨s, ss, hs, hopens⟩ := v.exists_opening
  have hconversion : Keyword.isConversion opcode.text = true :=
    Val.isConversion_iff.mpr opcode.mem_words
  have hflags : (texts (spaced (flags.map (·.text)))).all Keyword.isOverflowFlag = true := by
    rw [texts_spaced, List.all_map, List.all_eq_true]
    intro w _
    simpa [Keyword.isOverflowFlag, WordClass.words] using w.known
  have hparen : Keyword.isOverflowFlag "(" = false := by decide
  have hrun := run_append Keyword.isOverflowFlag (read ++ [word opcode.text, space]) _
    (punct "(" :: (fromType.pieces ++ space :: (v.pieces ++ space :: word "to" :: space ::
      (toType.pieces ++ punct ")" :: rest)))) hflags (by simpa using hparen)
  have hends (rest : List Piece) : EndsType (texts (v.pieces ++ rest)) := by
    rw [texts_append, hs]
    exact endsType_of_opens hopens _
  have hvalue (read rest : List Piece) := hv read rest
  simp [-texts_append, Val.pieces, called, constantExpression, hconversion, constantCast, hrun,
    hends, hvalue, placed]

-- A word that heads a constant expression is read together with the expression.
theorem isValue_called {s : String} {words : List String} {parts : List (List Piece)}
    (hs : s ∈ WordClass.conversion.words ∨ s ∈ WordClass.operator.words)
    (hread : ∀ read rest,
      constantExpression (valueWithin n) (between read (called (s :: words) parts ++ rest)) =
        .ok () (between (read ++ called (s :: words) parts) rest)) :
    IsValue (n + 1) (called (s :: words) parts) := by
  intro read rest
  let w : Word [.conversion, .operator] := ⟨s, by simpa using hs⟩
  have hbang : startsWithChar s '!' = false := w.startsWithChar_eq_false (by decide)
  have hsimple : isSimpleValue s = false := w.isSimpleValue_eq_false (by decide)
  have hwrapper : s ∉ symbolWrappers := w.not_mem_words (d := .wrapper) (by decide)
  have hasm : s ≠ "asm" := by
    rintro rfl
    exact w.not_mem_words (d := .mark) (by decide) (by simp [w, WordClass.words])
  have hexpression := hread read rest
  refine covered_of_ok (solid_called s) ?_
  simp only [called, spaced_cons, List.cons_append, List.append_assoc, List.nil_append]
    at hexpression ⊢
  simp [placed, Token.isPunct, Token.isWord, wordValue, hbang, hsimple, hwrapper, hasm,
    Val.isConstantExpression_iff.mpr hs, hexpression]

end Reader

namespace Grammar

-- The types that are read as values too: a name, or something in brackets.
def Ty.isOperand : Ty → Bool
  | named _ | array _ _ | vector _ _ _ | record _ _ => true
  | _ => false

-- Each `getelementptr` outside of brackets has a source type that is read as a value too.
inductive Val.Readable : Val → Prop where
  | simple (v : Simple) : Readable (.simple v)
  | record (isPacked : Bool) (fields : List (Ty × Val)) : Readable (.record isPacked fields)
  | array (elements : List (Ty × Val)) : Readable (.array elements)
  | vector (elements : List (Ty × Val)) : Readable (.vector elements)
  | cast {opcode : Word [.conversion]} {flags : List (Word [.overflow])} {fromType toType : Ty}
      {value : Val} : Readable value → Readable (.cast opcode flags fromType value toType)
  | elementPointer {flags : List (Word [.overflow, .pointerFlag])} {source : Ty}
      {operands : List (Ty × Val)} : source.isOperand = true → (∀ o ∈ operands, Readable o.2) →
      Readable (.elementPointer flags source operands)
  | operation {head : Head} {type : Ty} {value : Val} {operands : List (Ty × Val)}
      {indices : List Nat} : Readable value → (∀ o ∈ operands, Readable o.2) →
      Readable (.operation head type value operands indices)

end Grammar

namespace Reader

open Grammar

theorem isValue_type {t : Ty} (ht : t.isOperand = true) (n : Nat) : IsValue (n + 1) t.pieces := by
  cases t with
  | named name => exact isValue_simple (.register name) n
  | array length element =>
    rw [Ty.pieces, ← List.append_assoc]
    exact isValue_group (by simp) rfl (balanced_spaced_append element.balanced_pieces) n
  | vector isScalable length element =>
    rw [Ty.pieces, ← List.append_assoc]
    exact isValue_group (by simp) rfl (balanced_spaced_append element.balanced_pieces) n
  | record isPacked fields =>
    have hfields : ∀ ps ∈ Ty.parts fields, Balanced ps := by
      simpa using fun t _ => t.balanced_pieces
    cases isPacked with
    | false => exact isValue_group (by simp) rfl (balanced_padded hfields) n
    | true => exact isValue_group (by simp) rfl (balanced_braced hfields) n
  | _ => cases ht

-- A value is deeper than the operands of the constant expression that it is.
theorem length_lt_called {ps : List Piece} {parts : List (List Piece)} (hps : ps ∈ parts)
    (s : String) (words : List String) :
    (texts ps).length < (texts (called (s :: words) parts)).length := by
  have := length_texts_le_commas hps
  simp [called]
  omega

theorem exists_succ_of_length {v : Val} (hn : (texts v.pieces).length ≤ n) : ∃ k, n = k + 1 := by
  obtain ⟨s, ss, hs, -⟩ := v.exists_opening
  rw [hs, List.length_cons] at hn
  exact ⟨n - 1, by omega⟩

theorem isOperand_index (k n : Nat) : IsOperand (n + 1) [word k.repr] := by
  have hindex : (Simple.ofNat k).text = k.repr := Simple.text_ofNat k
  rw [← hindex]
  exact isOperand_simple _ n (by rw [hindex]; exact WordClass.isTypeWord_repr k)

theorem balanced_allPieces (operands : List (Ty × Val)) :
    ∀ ps ∈ Val.allPieces operands, Balanced ps := by
  rw [Val.allPieces_eq]
  exact Val.balanced_operands fun o _ => o.2.balanced_pieces

-- Operands of a constant expression that are read one level further down.
theorem isOperand_allPieces {operands : List (Ty × Val)}
    (hoperands : ∀ o ∈ operands, ∀ {n : Nat}, (texts o.2.pieces).length ≤ n → IsValue n o.2.pieces)
    (hn : ∀ ps ∈ Val.allPieces operands, (texts ps).length ≤ n) :
    ∀ ps ∈ Val.allPieces operands, IsOperand n ps := by
  rw [Val.allPieces_eq, List.forall_mem_map] at hn ⊢
  intro o ho
  have hlength := hn o ho
  rw [Val.typedPieces_eq] at hlength ⊢
  refine isOperand_typed o.1 o.2 (hoperands o ho ?_)
  simp at hlength
  omega

theorem isOpening_elementPointer (flags : List (Word [.overflow, .pointerFlag])) :
    IsOpening "getelementptr" (flags.map (·.text)) none := by
  refine ⟨Val.mem_operators, List.forall_mem_map.mpr fun w _ => isFlag_iff.mpr ?_, by simp⟩
  rcases (by simpa using w.known : w.text ∈ WordClass.overflow.words ∨
    w.text ∈ WordClass.pointerFlag.words) with hw | hw
  · exact .inl hw
  · exact .inr (.inr hw)

theorem isOpening_head (head : Head) :
    IsOpening head.keyword.text (head.flags.map (·.text)) head.predicate := by
  refine ⟨head.keyword.mem_words, List.forall_mem_map.mpr fun w _ => isFlag_iff.mpr ?_,
    head.predicate_known⟩
  simpa using w.known

-- Whatever the number of tokens that the value has, as many levels are enough to read it.
theorem isValue_of_readable {v : Val} (hv : v.Readable) {n : Nat}
    (hn : (texts v.pieces).length ≤ n) : IsValue n v.pieces := by
  induction hv generalizing n with
  | simple v =>
    obtain ⟨n, rfl⟩ := exists_succ_of_length hn
    exact isValue_simple v n
  | record isPacked fields =>
    obtain ⟨n, rfl⟩ := exists_succ_of_length hn
    cases isPacked with
    | false => exact isValue_group (by simp) rfl (balanced_padded (balanced_allPieces fields)) n
    | true => exact isValue_group (by simp) rfl (balanced_braced (balanced_allPieces fields)) n
  | array elements =>
    obtain ⟨n, rfl⟩ := exists_succ_of_length hn
    exact isValue_group (by simp) rfl (balanced_commas (balanced_allPieces elements)) n
  | vector elements =>
    obtain ⟨n, rfl⟩ := exists_succ_of_length hn
    exact isValue_group (by simp) rfl (balanced_commas (balanced_allPieces elements)) n
  | @cast opcode flags fromType toType value _ ih =>
    obtain ⟨n, rfl⟩ := exists_succ_of_length hn
    refine isValue_called (.inl opcode.mem_words) fun read rest => ?_
    refine constantExpression_cast (ih ?_) read rest
    simp [Val.pieces, called] at hn
    omega
  | @elementPointer flags source operands hsource _ ih =>
    obtain ⟨n, rfl⟩ := exists_succ_of_length hn
    have hlength {ps : List Piece} (hps : ps ∈ source.pieces :: Val.allPieces operands) :
        (texts ps).length ≤ n := by
      have := length_lt_called hps "getelementptr" (flags.map (·.text))
      rw [Val.pieces] at hn
      omega
    obtain ⟨k, rfl⟩ : ∃ k, n = k + 1 := by
      obtain ⟨s, ss, hs, -⟩ := source.exists_opening
      have := hlength List.mem_cons_self
      rw [hs, List.length_cons] at this
      exact ⟨n - 1, by omega⟩
    have hread := constantExpression_between (isOpening_elementPointer flags)
      (isOperand_type source (isValue_type hsource k))
      (isOperand_allPieces ih fun ps hps => hlength (List.mem_cons_of_mem _ hps))
    rw [Option.toList_none, List.append_nil] at hread
    exact isValue_called (.inr Val.mem_operators) hread
  | @operation head type value operands indices _ _ ihv iho =>
    obtain ⟨n, rfl⟩ := exists_succ_of_length hn
    have hlength {ps : List Piece} (hps : ps ∈ (type.pieces ++ space :: value.pieces) ::
        Val.allPieces operands ++ indices.map fun n => [word n.repr]) : (texts ps).length ≤ n := by
      have := length_lt_called hps head.keyword.text
        (head.flags.map (·.text) ++ head.predicate.toList)
      rw [Val.pieces, Head.words] at hn
      omega
    have hvalue : (texts value.pieces).length ≤ n := by
      have := hlength (List.mem_append_left _ List.mem_cons_self)
      simp at this
      omega
    obtain ⟨k, rfl⟩ := exists_succ_of_length hvalue
    have hfirst : IsOperand (k + 1) (type.pieces ++ space :: value.pieces) :=
      isOperand_typed type value (ihv hvalue)
    have hparts : ∀ ps ∈ Val.allPieces operands ++ indices.map fun n => [word n.repr],
        IsOperand (k + 1) ps := by
      refine List.forall_mem_append.mpr ⟨isOperand_allPieces iho fun ps hps => ?_,
        List.forall_mem_map.mpr fun index _ => isOperand_index index k⟩
      exact hlength (List.mem_append_left _ (List.mem_cons_of_mem _ hps))
    exact isValue_called (.inr head.keyword.mem_words)
      (constantExpression_between (isOpening_head head) hfirst hparts)

-- The tokens of the two texts in a row are those of the one followed by those of the other.
def Separate (text rest : String) : Prop :=
  ∃ ts us, tokenize text = .ok ts ∧ tokenize rest = .ok us ∧
    tokenize (text ++ rest) = .ok (ts ++ us.map (·.shift (byteLength text.toList)))

-- Whatever begins with no character of a name is separate from a value before it.
theorem separate_of_free (v : Val) {rest : String} {us : List Token}
    (hrest : tokenize rest = .ok us) (hfree : Free rest.toList.head?) : Separate v.print rest := by
  obtain ⟨qs, rfl, hqs, rfl⟩ := tokenize_eq_ok_iff.mp hrest
  have hfirst : Free (first qs none) := by simpa [first, Piece.print] using hfree
  have hfits : Fits (v.pieces ++ qs) none := by
    simpa using ⟨v.apart_pieces _ hfirst, hqs⟩
  refine ⟨_, _, tokenize_eq_ok_iff.mpr ⟨v.pieces, rfl, v.apart_pieces _ free_none, rfl⟩, hrest,
    tokenize_eq_ok_iff.mpr ⟨v.pieces ++ qs, by simp [Val.print, Piece.print], hfits, ?_⟩⟩
  rw [place_append, ← place_add]
  simp [Val.print, Piece.print]

-- Reading a value undoes writing it, in front of any text that is separate from it, as long as each
-- `getelementptr` outside of brackets goes over a named or a bracketed type.
theorem value_print (v : Val) (hv : v.Readable) (rest : String) (hrest : Separate v.print rest) :
    ReadsBefore value v.print "" rest := by
  obtain ⟨ts, us, hts, hus, hboth⟩ := hrest
  obtain ⟨qs, rfl, hqs, rfl⟩ := tokenize_eq_ok_iff.mp hus
  have hplace : ts = place 0 v.pieces := by
    have := tokenize_eq_ok_iff.mpr ⟨v.pieces, rfl, v.apart_pieces _ free_none, rfl⟩
    exact Except.ok.inj (hts.symm.trans this)
  have hall : tokenize (Piece.print (v.pieces ++ ([] ++ qs))) =
      .ok (place 0 (v.pieces ++ ([] ++ qs))) := by
    rw [hplace, ← place_add] at hboth
    simpa [Val.print, Piece.print, place_append] using hboth
  have hvalue : value (between [] (v.pieces ++ ([] ++ qs))) =
      .ok v.print (between v.pieces ([] ++ qs)) := by
    have hread := isValue_of_readable hv
      (Nat.le_add_right (texts v.pieces).length (texts qs).length) [] qs
    simpa [value, Val.print] using hread
  have hblank : Piece.print [] = "" := by simp [Piece.print]
  rw [← hblank]
  exact readsBefore_of_pieces texts_nil hus hall hvalue

-- `getelementptr` over a cast and a selection.
def nestedValue : Val :=
  .elementPointer [⟨"inbounds", by decide⟩] (.array 4 (.integer 8))
    [(.pointer none, .cast ⟨"bitcast", by decide⟩ [] (.pointer none)
        (.simple (.global (.bare ['g'] (by decide) (by decide)))) (.pointer none)),
      (.integer 64, .operation ⟨⟨"select", by decide⟩, [], none, by simp⟩ (.integer 1)
        (.simple (.literal ⟨"true", by decide⟩))
        [(.integer 64, .simple (.ofNat 1)), (.integer 64, .simple (.number ['-', '2'] rfl rfl))]
        [])]

theorem readable_nestedValue : nestedValue.Readable := by
  refine .elementPointer rfl ?_
  simp only [List.forall_mem_cons, List.not_mem_nil, false_implies, implies_true, and_true]
  refine ⟨.cast (.simple _), .operation (.simple _) ?_⟩
  simp only [List.forall_mem_cons, List.not_mem_nil, false_implies, implies_true, and_true]
  exact ⟨.simple _, .simple _⟩

theorem value_print_nested :
    nestedValue.print =
        "getelementptr inbounds ([4 x i8], ptr bitcast (ptr @g to ptr), " ++
          "i64 select (i1 true, i64 1, i64 -2))" ∧
      ReadsBefore value nestedValue.print "" ", align 8" :=
  ⟨by decide +kernel, value_print _ readable_nestedValue _
    (separate_of_free _ (by decide +kernel : tokenize ", align 8" = .ok
      [⟨.punct, ",", 0, 1⟩, ⟨.word, "align", 2, 7⟩, ⟨.word, "8", 8, 9⟩])
      (by simp [Free, isNameChar]))⟩

-- Any other source type is read neither as a typed operand nor as a value.
example : (value.parse "getelementptr (i8, ptr @g, i64 4)").toOption = none := by decide +kernel

end Reader

end TestFocus
