import TestFocus.Proofs.Reading.AnnotationText

namespace TestFocus

open Lexer Text Piece Cursor

-- The opcodes of a family of operators.
def OperatorFamily.opcodes : OperatorFamily → List String
  | integer => Keyword.integerOperators
  | float => Keyword.floatOperators
  | bitwise => Keyword.bitwiseOperators

namespace Grammar

-- `[ value, %label ]`
structure Incoming where
  value : Simple
  source : Simple

def Incoming.pieces (i : Incoming) : List Piece :=
  [punct "[", space, word i.value.text, punct ",", space, word i.source.text, space, punct "]"]

-- The position of a part of an aggregate.
structure PartIndex where
  value : Simple
  isNumber : Keyword.isNumber value.text = true

def PartIndex.pieces (i : PartIndex) : List Piece :=
  [word i.value.text]

inductive Computation where
  | unary (flags : List (Word [.overflow, .fastMath])) (operand : Typed)
  | binary (family : OperatorFamily) (opcode : String) (known : opcode ∈ family.opcodes)
      (flags : List (Word [.overflow, .fastMath])) (left : Typed) (right : Simple)
  | conversion (opcode : Word [.conversion]) (flags : List String)
      (flags_known : flags ⊆ ["nneg", "nuw", "nsw"]) (source : Typed) (target : Ty)
  | compareIntegers (isSameSign : Bool) (predicate : String)
      (known : predicate ∈ Keyword.integerPredicates) (left : Typed) (right : Simple)
  | compareFloats (flags : List (Word [.fastMath])) (predicate : String)
      (known : predicate ∈ Keyword.floatPredicates) (left : Typed) (right : Simple)
  | phi (flags : List (Word [.fastMath])) (type : Ty) (first : Incoming) (more : List Incoming)
  | select (flags : List (Word [.fastMath])) (condition ifTrue ifFalse : Typed)
  | freeze (operand : Typed)
  | extractElement (vector index : Typed)
  | insertElement (vector element index : Typed)
  | shuffleVector (first second mask : Typed)
  | extractValue (aggregate : Typed) (first : PartIndex) (more : List PartIndex)
  | insertValue (aggregate element : Typed) (first : PartIndex) (more : List PartIndex)

namespace Computation

def keyword : Computation → String
  | unary _ _ => "fneg"
  | binary _ opcode _ _ _ _ => opcode
  | conversion opcode _ _ _ _ => opcode.text
  | compareIntegers _ _ _ _ _ => "icmp"
  | compareFloats _ _ _ _ _ => "fcmp"
  | phi _ _ _ _ => "phi"
  | select _ _ _ _ => "select"
  | freeze _ => "freeze"
  | extractElement _ _ => "extractelement"
  | insertElement _ _ _ => "insertelement"
  | shuffleVector _ _ _ => "shufflevector"
  | extractValue _ _ _ => "extractvalue"
  | insertValue _ _ _ _ => "insertvalue"

-- `ty left, right`
def pair (left : Typed) (right : Simple) : List Piece :=
  left.pieces ++ [punct ",", space, word right.text]

def operands : Computation → List Piece
  | unary flags operand => space :: (spaced (flags.map (·.text)) ++ operand.pieces)
  | binary _ _ _ flags left right => space :: (spaced (flags.map (·.text)) ++ pair left right)
  | conversion _ flags _ source target =>
    space :: (spaced flags ++ (source.pieces ++ space :: word "to" :: space :: target.pieces))
  | compareIntegers isSameSign predicate _ left right =>
    space :: (spaced (marked isSameSign "samesign") ++ word predicate :: space :: pair left right)
  | compareFloats flags predicate _ left right =>
    space :: (spaced (flags.map (·.text)) ++ word predicate :: space :: pair left right)
  | phi flags type first more =>
    space :: (spaced (flags.map (·.text)) ++ (type.pieces ++ space ::
      (first.pieces ++ commaed (more.map (·.pieces)))))
  | select flags condition ifTrue ifFalse =>
    space :: (spaced (flags.map (·.text)) ++
      commas [condition.pieces, ifTrue.pieces, ifFalse.pieces])
  | freeze operand => space :: operand.pieces
  | extractElement vector index => space :: commas [vector.pieces, index.pieces]
  | insertElement vector element index =>
    space :: commas [vector.pieces, element.pieces, index.pieces]
  | shuffleVector first second mask => space :: commas [first.pieces, second.pieces, mask.pieces]
  | extractValue aggregate first more =>
    space :: (aggregate.pieces ++ commaed ((first :: more).map (·.pieces)))
  | insertValue aggregate element first more =>
    space :: (commas [aggregate.pieces, element.pieces] ++
      commaed ((first :: more).map (·.pieces)))

-- What the computation says.
def statement : Computation → Statement
  | unary flags operand =>
    .unary "fneg" (flags.map (·.text)) operand.type.print operand.value.text
  | binary family opcode _ flags left right =>
    .binary family opcode (flags.map (·.text)) left.type.print left.value.text right.text
  | conversion opcode _ _ source target =>
    .conversion opcode.text source.type.print source.value.text target.print
  | compareIntegers _ predicate _ left right =>
    .compareIntegers predicate left.type.print left.value.text right.text
  | compareFloats flags predicate _ left right =>
    .compareFloats (flags.map (·.text)) predicate left.type.print left.value.text right.text
  | phi _ type first more =>
    .phi type.print ((first :: more).map fun i => (i.value.text, i.source.text))
  | select _ condition ifTrue ifFalse =>
    .select condition.value.text ifTrue.type.print ifTrue.value.text ifFalse.value.text
  | freeze operand => .freeze operand.type.print operand.value.text
  | extractElement vector index =>
    .extractElement vector.type.print vector.value.text index.value.text
  | insertElement vector element index =>
    .insertElement vector.type.print vector.value.text element.value.text index.value.text
  | shuffleVector first second mask =>
    .shuffleVector first.type.print first.value.text second.value.text mask.value.text
  | extractValue aggregate first more =>
    .extractValue aggregate.type.print aggregate.value.text
      ((first :: more).map (·.value.text))
  | insertValue aggregate element first more =>
    .insertValue aggregate.type.print aggregate.value.text element.value.text
      ((first :: more).map (·.value.text))

def sentence (c : Computation) : Sentence :=
  { tail := none, keyword := c.keyword, operands := c.operands }

theorem isWord_flag {s : String} (hs : s ∈ ["nneg", "nuw", "nsw"]) : IsWord s :=
  WordClass.isWord_of_mem (c := .overflow) (by
    revert s
    decide)

theorem apart_parts (parts : List PartIndex) : Apart (commaed (parts.map (·.pieces))) :=
  apart_commaed (List.forall_mem_map.mpr fun i _ => by simp [PartIndex.pieces])

theorem apart_incoming (i : Incoming) : Apart i.pieces := by
  simp [Incoming.pieces]

theorem apart_pair (left : Typed) (right : Simple) : Apart (pair left right) := by
  simp [pair]

theorem apart_operands (c : Computation) : Apart c.operands := by
  have hflags {classes : List WordClass} (flags : List (Word classes)) :
      ∀ s ∈ flags.map (·.text), IsWord s := fun s => Word.isWord_of_mem_map
  cases c with
  | unary flags operand => simp [operands, apart_spaced_append (hflags flags)]
  | binary family opcode known flags left right =>
    simp [operands, apart_spaced_append (hflags flags), apart_pair]
  | conversion opcode flags flags_known source target =>
    simp [operands, apart_spaced_append fun s hs => isWord_flag (flags_known hs), isWord_to]
  | compareIntegers isSameSign predicate known left right =>
    have hsign : IsWord "samesign" := isWord_ofList rfl
    have hpredicate : IsWord predicate := isWord_predicate (List.mem_append_left _ known)
    simp [operands, apart_spaced_append fun _ => isWord_of_mem_marked hsign, hpredicate, apart_pair]
  | compareFloats flags predicate known left right =>
    have hpredicate : IsWord predicate := isWord_predicate (List.mem_append_right _ known)
    simp [operands, apart_spaced_append (hflags flags), hpredicate, apart_pair]
  | phi flags type first more =>
    have hmore : Apart (commaed (more.map (·.pieces))) :=
      apart_commaed (List.forall_mem_map.mpr fun i _ => apart_incoming i)
    simp [operands, apart_spaced_append (hflags flags),
      apart_append (apart_incoming first) detached_commaed, hmore]
  | select flags condition ifTrue ifFalse =>
    simp [operands, apart_spaced_append (hflags flags)]
  | freeze operand => simp [operands]
  | extractElement vector index => simp [operands]
  | insertElement vector element index => simp [operands]
  | shuffleVector first second mask => simp [operands]
  | extractValue aggregate first more =>
    have hparts := apart_parts (first :: more)
    simp [operands, apart_append aggregate.apart_pieces] at hparts ⊢
    exact hparts
  | insertValue aggregate element first more =>
    have hparts := apart_parts (first :: more)
    simp [operands] at hparts ⊢
    exact hparts

end Computation

end Grammar

namespace Reader

open Grammar

variable {read rest : List Piece}

theorem operatorFlags_between (flags : List (Word [.overflow, .fastMath])) (operand : Typed)
    (read rest : List Piece) :
    operatorFlags (between read (spaced (flags.map (·.text)) ++ (operand.pieces ++ rest))) =
      .ok (flags.map (·.text))
        (between (read ++ spaced (flags.map (·.text))) (operand.pieces ++ rest)) := by
  have hflags : (texts (spaced (flags.map (·.text)))).all fun word =>
      Keyword.isOverflowFlag word || Keyword.isFastMathFlag word := by
    simp only [texts_spaced, List.all_map, List.all_eq_true, Function.comp_apply]
    intro w _
    simpa [WordClass.words, Keyword.isOverflowFlag, Keyword.isFastMathFlag] using w.known
  have hoverflow := lacks_typed (d := .overflow) (by decide) operand rest
  have hfastMath := lacks_typed (d := .fastMath) (by decide) operand rest
  have hrest : (texts (operand.pieces ++ rest)).head?.any (fun word =>
      Keyword.isOverflowFlag word || Keyword.isFastMathFlag word) = false := by
    cases hhead : (texts (operand.pieces ++ rest)).head? with
    | none => rfl
    | some s =>
      rw [hhead] at hoverflow hfastMath
      rw [Option.any_some, Bool.or_eq_false_iff]
      exact ⟨hoverflow, hfastMath⟩
  have hrun := run_append _ read _ _ hflags hrest
  rwa [texts_spaced] at hrun

theorem conversionFlags_between {flags : List String} (hflags : flags ⊆ ["nneg", "nuw", "nsw"])
    (operand : Typed) (read rest : List Piece) :
    run ["nneg", "nuw", "nsw"].contains
        (between read (spaced flags ++ (operand.pieces ++ rest))) =
      .ok flags (between (read ++ spaced flags) (operand.pieces ++ rest)) := by
  have hall : (texts (spaced flags)).all ["nneg", "nuw", "nsw"].contains := by
    rw [texts_spaced, List.all_eq_true]
    exact fun s hs => List.contains_iff_mem.mpr (hflags hs)
  have hopening : ∀ s ∈ ["nneg", "nuw", "nsw"], Ty.opens s = false := by decide
  have hrest : (texts (operand.pieces ++ rest)).head?.any ["nneg", "nuw", "nsw"].contains =
      false := by
    cases hhead : (texts (operand.pieces ++ rest)).head? with
    | none => rfl
    | some s =>
      rw [Option.any_some, List.contains_eq_mem, decide_eq_false_iff_not]
      exact fun hs => head?_typed_ne (hopening s hs) operand rest hhead
  have hrun := run_append _ read _ _ hall hrest
  rwa [texts_spaced] at hrun

theorem operandPair_between (left : Typed) (right : Simple) (read rest : List Piece) :
    operandPair (between read (Computation.pair left right ++ rest)) =
      .ok (left.type.print, left.value.text, right.text)
        (between (read ++ Computation.pair left right) rest) := by
  simp [operandPair, Computation.pair]

theorem predicate_between {p : String → Bool} {s : String} (hs : p s = true) (expected : String)
    (read rest : List Piece) :
    predicate p expected (between read (word s :: rest)) =
      .ok s (between (read ++ [word s]) rest) := by
  simp [predicate, placed, hs]

theorem incoming_between (i : Incoming) (read rest : List Piece) :
    incoming (between read (i.pieces ++ rest)) =
      .ok (i.value.text, i.source.text) (between (read ++ i.pieces) rest) := by
  simp [incoming, Incoming.pieces]

theorem moreIncoming_between (is : List Incoming) (notes : List Note)
    (done : List (String × String)) (read : List Piece) :
    moreIncoming (texts (commaed (is.map (·.pieces)) ++ trailing notes)).length done
        (between read (commaed (is.map (·.pieces)) ++ trailing notes)) =
      .ok (done ++ is.map fun i => (i.value.text, i.source.text))
        (between (read ++ commaed (is.map (·.pieces))) (trailing notes)) := by
  refine loop_commaed (fun rounds done read => ?_) (fun i _ rounds done read rest => ?_) done read
  · have hbracket : (texts (trailing notes))[1]? ≠ some "[" := by
      cases notes with
      | nil => simp
      | cons n notes =>
        cases n with
        | align n => simp [Note.pieces]
        | attachment kind n =>
          obtain ⟨c, cs, hlist⟩ := kind.toList_after '!'
          have hne : kind.after '!' ≠ "[" := ne_of_head? (by simp [hlist])
          simp [Note.pieces, hne]
    cases rounds <;> simp [moreIncoming, hbracket]
  · have hread := incoming_between i (read ++ [punct ",", space]) rest
    simp [Incoming.pieces] at hread
    simp [moreIncoming, Incoming.pieces, hread]

theorem aggregateIndicesWithin_one (i : PartIndex) (rounds : Nat) (done : List String)
    (read rest : List Piece) :
    aggregateIndicesWithin (rounds + 1) done
        (between read (punct "," :: space :: (i.pieces ++ rest))) =
      aggregateIndicesWithin rounds (done ++ [i.value.text])
        (between (read ++ punct "," :: space :: i.pieces) rest) := by
  have htexts : texts (space :: word i.value.text :: rest) = i.value.text :: texts rest := by simp
  have hitem := isAnnotationStart_item read htexts (i.value.ne_of_not (by decide))
    i.value.startsWithChar_bang
  simp [aggregateIndicesWithin, PartIndex.pieces, hitem, i.isNumber, placed]

theorem aggregateIndicesWithin_between (is : List PartIndex) (notes : List Note)
    (read : List Piece) :
    aggregateIndicesWithin (texts (commaed (is.map (·.pieces)) ++ trailing notes)).length []
        (between read (commaed (is.map (·.pieces)) ++ trailing notes)) =
      .ok (is.map (·.value.text))
        (between (read ++ commaed (is.map (·.pieces))) (trailing notes)) := by
  refine loop_commaed (fun rounds done read => ?_) (fun i _ => aggregateIndicesWithin_one i) [] read
  have hend := isAnnotationStart_trailing read notes
  cases rounds <;> simp [aggregateIndicesWithin, hend]

theorem aggregateIndices_between (first : PartIndex) (more : List PartIndex) (notes : List Note)
    (read : List Piece) :
    aggregateIndices
        (between read (commaed ((first :: more).map (·.pieces)) ++ trailing notes)) =
      .ok ((first :: more).map (·.value.text))
        (between (read ++ commaed ((first :: more).map (·.pieces))) (trailing notes)) := by
  simp only [aggregateIndices, bind_apply, get_apply, remaining_between,
    aggregateIndicesWithin_between]
  simp

theorem type_trailing (t : Ty) (read : List Piece) (notes : List Note) :
    type (between read (t.pieces ++ trailing notes)) =
      .ok t.print (between (read ++ t.pieces) (trailing notes)) := by
  refine type_between t read _ ?_
  cases notes <;> simp

end Reader

-- An opcode belongs to one family, and no conversion is an operator.
theorem operatorFamily_of_mem (family : OperatorFamily) : ∀ opcode ∈ family.opcodes,
    Reader.operatorFamily opcode = family ∧ InstructionKind.ofKeyword? opcode = some .binary := by
  cases family <;> decide

theorem ofKeyword?_conversion :
    ∀ opcode ∈ Keyword.conversions, InstructionKind.ofKeyword? opcode = some .conversion := by
  decide

namespace Grammar

open Reader

theorem Computation.reads (c : Computation) : ∃ reader,
    c.statement.kind.reader? c.keyword none = some reader ∧
      ∀ read notes, reader (between read (c.operands ++ trailing notes)) =
        .ok c.statement (between (read ++ c.operands) (trailing notes)) := by
  cases c with
  | unary flags operand =>
    refine ⟨_, rfl, fun read notes => ?_⟩
    simp [operands, statement, keyword, Reader.unary, operatorFlags_between]
  | binary family opcode known flags left right =>
    refine ⟨_, rfl, fun read notes => ?_⟩
    have hflags (read rest : List Piece) := operatorFlags_between flags left read rest
    simp [operands, statement, keyword, Reader.binary, pair, operandPair, hflags,
      (operatorFamily_of_mem family opcode known).1]
  | conversion opcode flags flags_known source target =>
    refine ⟨_, rfl, fun read notes => ?_⟩
    have hflags (read rest : List Piece) := conversionFlags_between flags_known source read rest
    simp [operands, statement, keyword, Reader.conversion, hflags, type_trailing]
  | compareIntegers isSameSign predicate known left right =>
    refine ⟨_, rfl, fun read notes => ?_⟩
    have hpredicate : Keyword.isIntegerPredicate predicate = true := List.contains_iff_mem.mpr known
    have hne : predicate ≠ "samesign" := by
      rintro rfl
      exact absurd known (by decide)
    have hsign (read rest : List Piece) :
        eat "samesign" (between read (spaced (marked isSameSign "samesign") ++
          word predicate :: rest)) = .ok isSameSign
            (between (read ++ spaced (marked isSameSign "samesign")) (word predicate :: rest)) :=
      eat_marked isSameSign "samesign" read (by simpa using hne)
    simp [operands, statement, Reader.compareIntegers, hsign, predicate_between hpredicate,
      operandPair_between]
  | compareFloats flags predicate known left right =>
    refine ⟨_, rfl, fun read notes => ?_⟩
    have hpredicate : Keyword.isFloatPredicate predicate = true := List.contains_iff_mem.mpr known
    have hlacks (rest : List Piece) : Lacks .fastMath (texts (word predicate :: rest)).head? := by
      simpa [Lacks] using
        not_mem_words_of_predicate (List.mem_append_right _ known) .fastMath (by simp)
    have hflags (read rest : List Piece) := fastMathFlags_between flags read (hlacks rest)
    simp [operands, statement, Reader.compareFloats, hflags, predicate_between hpredicate,
      operandPair_between]
  | phi flags type first more =>
    refine ⟨_, rfl, fun read notes => ?_⟩
    have hflags (read rest : List Piece) := fastMathFlags_between flags read
      (lacks_type (by decide) type rest)
    have hends (rest : List Piece) : EndsType (texts (space :: (first.pieces ++ rest))) := by
      simp [Incoming.pieces]
    have htype (read rest : List Piece) := type_between type read _ (hends rest)
    simp only [operands, statement, Reader.phi, List.cons_append, List.append_assoc, between_gap,
      bind_apply, discard_apply, get_apply, remaining_between, hflags, htype, incoming_between,
      moreIncoming_between, pure_apply]
    simp
  | select flags condition ifTrue ifFalse =>
    refine ⟨_, rfl, fun read notes => ?_⟩
    have hflags (read rest : List Piece) := fastMathFlags_between flags read
      (lacks_typed (by decide) condition rest)
    simp [operands, statement, Reader.select, hflags]
  | freeze operand =>
    refine ⟨_, rfl, fun read notes => ?_⟩
    simp [operands, statement, Reader.freeze]
  | extractElement vector index =>
    refine ⟨_, rfl, fun read notes => ?_⟩
    simp [operands, statement, Reader.extractElement]
  | insertElement vector element index =>
    refine ⟨_, rfl, fun read notes => ?_⟩
    simp [operands, statement, Reader.insertElement]
  | shuffleVector first second mask =>
    refine ⟨_, rfl, fun read notes => ?_⟩
    simp [operands, statement, Reader.shuffleVector]
  | extractValue aggregate first more =>
    refine ⟨_, rfl, fun read notes => ?_⟩
    simp only [operands, statement, Reader.extractValue, List.cons_append, List.append_assoc,
      between_gap, bind_apply, typedValue_between, aggregateIndices_between, pure_apply]
    simp
  | insertValue aggregate element first more =>
    refine ⟨_, rfl, fun read notes => ?_⟩
    simp only [operands, statement, Reader.insertValue, commas_cons, commaed_cons, commaed_nil,
      List.append_nil, List.cons_append, List.append_assoc, between_gap, bind_apply,
      typedValue_between, comma_token, aggregateIndices_between, pure_apply]
    simp

theorem Computation.ofKeyword?_keyword (c : Computation) :
    InstructionKind.ofKeyword? c.keyword = some c.statement.kind := by
  open InstructionKind in
  cases c with
  | unary => exact ofKeyword?_of_mem ("fneg", .unary) (by decide)
  | binary family opcode known => exact (operatorFamily_of_mem family opcode known).2
  | conversion opcode => exact ofKeyword?_conversion opcode.text opcode.mem_words
  | compareIntegers => exact ofKeyword?_of_mem ("icmp", .compareIntegers) (by decide)
  | compareFloats => exact ofKeyword?_of_mem ("fcmp", .compareFloats) (by decide)
  | phi => exact ofKeyword?_of_mem ("phi", .phi) (by decide)
  | select => exact ofKeyword?_of_mem ("select", .select) (by decide)
  | freeze => exact ofKeyword?_of_mem ("freeze", .freeze) (by decide)
  | extractElement =>
    exact ofKeyword?_of_mem ("extractelement", .extractElement) (by decide)
  | insertElement => exact ofKeyword?_of_mem ("insertelement", .insertElement) (by decide)
  | shuffleVector => exact ofKeyword?_of_mem ("shufflevector", .shuffleVector) (by decide)
  | extractValue => exact ofKeyword?_of_mem ("extractvalue", .extractValue) (by decide)
  | insertValue => exact ofKeyword?_of_mem ("insertvalue", .insertValue) (by decide)

-- The reader of a computation reads it in front of any notes.
theorem Computation.means (c : Computation) : c.sentence.Means c.statement := by
  refine ⟨by simp [sentence], c.apart_operands, ?_, c.ofKeyword?_keyword, c.reads⟩
  cases c <;> simp [sentence, operands]

end Grammar

end TestFocus
