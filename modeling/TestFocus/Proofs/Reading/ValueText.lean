import TestFocus.Proofs.Reading.SimpleValue

namespace TestFocus

open Lexer Text Piece Cursor

namespace Grammar

-- The words in front of the operands of a constant expression that is no cast.
structure Head where
  keyword : Word [.operator]
  flags : List (Word [.overflow, .fastMath, .pointerFlag])
  predicate : Option String
  predicate_known : ∀ p ∈ predicate, keyword.text = "icmp" ∧ p ∈ Keyword.integerPredicates ∨
    keyword.text = "fcmp" ∧ p ∈ Keyword.floatPredicates

inductive Val where
  | simple (v : Simple)
  | record (isPacked : Bool) (fields : List (Ty × Val))
  | array (elements : List (Ty × Val))
  | vector (elements : List (Ty × Val))
  | cast (opcode : Word [.conversion]) (flags : List (Word [.overflow])) (fromType : Ty)
      (value : Val) (toType : Ty)
  | elementPointer (flags : List (Word [.overflow, .pointerFlag])) (source : Ty)
      (operands : List (Ty × Val))
  | operation (head : Head) (type : Ty) (value : Val) (operands : List (Ty × Val))
      (indices : List Nat)

-- `head (a, b, c)`
def called (words : List String) (parts : List (List Piece)) : List Piece :=
  spaced words ++ punct "(" :: (commas parts ++ [punct ")"])

def Head.words (h : Head) : List String :=
  h.keyword.text :: (h.flags.map (·.text) ++ h.predicate.toList)

namespace Val

mutual
def pieces : Val → List Piece
  | simple v => [word v.text]
  | record false fields => braced (allPieces fields)
  | record true fields => punct "<" :: (braced (allPieces fields) ++ [punct ">"])
  | array elements => punct "[" :: (commas (allPieces elements) ++ [punct "]"])
  | vector elements => punct "<" :: (commas (allPieces elements) ++ [punct ">"])
  | cast opcode flags fromType value toType =>
    called (opcode.text :: flags.map (·.text))
      [fromType.pieces ++ space :: (value.pieces ++ space :: word "to" :: space :: toType.pieces)]
  | elementPointer flags source operands =>
    called ("getelementptr" :: flags.map (·.text)) (source.pieces :: allPieces operands)
  | operation head type value operands indices =>
    called head.words ((type.pieces ++ space :: value.pieces) :: allPieces operands ++
      indices.map fun n => [word n.repr])

def typedPieces : Ty × Val → List Piece
  | (type, value) => type.pieces ++ space :: value.pieces

def allPieces : List (Ty × Val) → List (List Piece)
  | [] => []
  | operand :: operands => typedPieces operand :: allPieces operands
end

-- A value as it is written.
def print (v : Val) : String :=
  Piece.print v.pieces

@[simp]
theorem allPieces_eq (operands : List (Ty × Val)) :
    allPieces operands = operands.map typedPieces := by
  induction operands with
  | nil => rfl
  | cons operand operands ih => simp [allPieces, ih]

-- What holds of a value when it holds of the values in it holds of every value.
@[induction_eliminator]
theorem induct {motive : Val → Prop} (simple : ∀ v, motive (simple v))
    (record : ∀ isPacked fields, (∀ o ∈ fields, motive o.2) → motive (record isPacked fields))
    (array : ∀ elements, (∀ o ∈ elements, motive o.2) → motive (array elements))
    (vector : ∀ elements, (∀ o ∈ elements, motive o.2) → motive (vector elements))
    (cast : ∀ opcode flags fromType value toType, motive value →
      motive (cast opcode flags fromType value toType))
    (elementPointer : ∀ flags source operands, (∀ o ∈ operands, motive o.2) →
      motive (elementPointer flags source operands))
    (operation : ∀ head type value operands indices, motive value →
      (∀ o ∈ operands, motive o.2) → motive (operation head type value operands indices))
    (v : Val) : motive v :=
  @Val.rec motive (fun operands => ∀ o ∈ operands, motive o.2) (fun o => motive o.2) simple record
    array vector cast elementPointer operation (by simp)
    (fun _ _ ho hoperands => List.forall_mem_cons.mpr ⟨ho, hoperands⟩) (fun _ _ h => h) v

end Val

theorem isWord_elementPointer : IsWord "getelementptr" :=
  isWord_ofList rfl

@[simp]
theorem Head.isWord_of_mem {h : Head} : ∀ s ∈ h.words, IsWord s := by
  intro s hs
  simp only [words, List.mem_cons, List.mem_append, List.mem_map, Option.mem_toList] at hs
  rcases hs with rfl | ⟨w, -, rfl⟩ | hs
  · exact h.keyword.isWord
  · exact w.isWord
  · refine isWord_predicate (List.mem_append.mpr ?_)
    exact (h.predicate_known s hs).imp (·.2) (·.2)

section Called

variable {words : List String} {parts : List (List Piece)}

theorem apart_called (hwords : ∀ s ∈ words, IsWord s) (hparts : ∀ ps ∈ parts, Apart ps) :
    Apart (called words parts) := by
  simp [called, apart_spaced_append hwords, apart_commas_append hparts]

theorem balanced_called (hparts : ∀ ps ∈ parts, Balanced ps) : Balanced (called words parts) :=
  balanced_spaced_append (.group rfl (balanced_commas hparts) .nil)

theorem solid_called (s : String) : Solid (called (s :: words) parts) := by
  have hgroup : Solid ([punct "("] ++ (commas parts ++ [punct ")"])) :=
    (solid_token _ _).append (solid_token _ _) _
  exact (solid_token .word s).append hgroup (space :: spaced words)

end Called

namespace Val

theorem typedPieces_eq (o : Ty × Val) :
    typedPieces o = o.1.pieces ++ space :: o.2.pieces := by
  rw [typedPieces]

theorem apart_operands {operands : List (Ty × Val)} (h : ∀ o ∈ operands, Apart o.2.pieces) :
    ∀ ps ∈ operands.map typedPieces, Apart ps :=
  List.forall_mem_map.mpr fun o ho => by simp [typedPieces_eq, h o ho]

theorem balanced_operands {operands : List (Ty × Val)} (h : ∀ o ∈ operands, Balanced o.2.pieces) :
    ∀ ps ∈ operands.map typedPieces, Balanced ps :=
  List.forall_mem_map.mpr fun o ho => by
    rw [typedPieces_eq]
    exact o.1.balanced_pieces.append (.gap " " (h o ho))

@[simp]
theorem apart_pieces (v : Val) : Apart v.pieces := by
  induction v with
  | simple v => simp [pieces]
  | record isPacked fields ih =>
    cases isPacked <;> simp [pieces, apart_braced (apart_operands ih)]
  | array elements ih => simp [pieces, apart_commas_append (apart_operands ih)]
  | vector elements ih => simp [pieces, apart_commas_append (apart_operands ih)]
  | cast opcode flags fromType value toType ih =>
    refine apart_called ?_ (by simp [ih, isWord_to])
    exact List.forall_mem_cons.mpr ⟨opcode.isWord, fun s => Word.isWord_of_mem_map⟩
  | elementPointer flags source operands ih =>
    refine apart_called ?_ ?_
    · exact List.forall_mem_cons.mpr ⟨isWord_elementPointer, fun s => Word.isWord_of_mem_map⟩
    · rw [allPieces_eq]
      exact List.forall_mem_cons.mpr ⟨source.apart_pieces, apart_operands ih⟩
  | operation head type value operands indices ihv iho =>
    have hindices : ∀ ps ∈ indices.map fun n => [word n.repr], Apart ps := by simp
    refine apart_called Head.isWord_of_mem ?_
    simp only [allPieces_eq, List.cons_append, List.forall_mem_cons, List.forall_mem_append]
    exact ⟨by simp [ihv], apart_operands iho, hindices⟩

theorem balanced_pieces (v : Val) : Balanced v.pieces := by
  induction v with
  | simple v => exact balanced_word _ .nil
  | record isPacked fields ih =>
    have hbraced : Balanced (braced (allPieces fields)) :=
      balanced_braced (by simpa using balanced_operands ih)
    cases isPacked with
    | false => exact hbraced
    | true => exact .group rfl hbraced .nil
  | array elements ih =>
    exact .group rfl (balanced_commas (by simpa using balanced_operands ih)) .nil
  | vector elements ih =>
    exact .group rfl (balanced_commas (by simpa using balanced_operands ih)) .nil
  | cast opcode flags fromType value toType ih =>
    have htail : Balanced (space :: word "to" :: space :: toType.pieces) :=
      .gap " " (balanced_word _ (.gap " " toType.balanced_pieces))
    refine balanced_called ?_
    simpa using fromType.balanced_pieces.append (.gap " " (ih.append htail))
  | elementPointer flags source operands ih =>
    refine balanced_called ?_
    rw [allPieces_eq]
    exact List.forall_mem_cons.mpr ⟨source.balanced_pieces, balanced_operands ih⟩
  | operation head type value operands indices ihv iho =>
    have hindices : ∀ ps ∈ indices.map fun n => [word n.repr], Balanced ps :=
      List.forall_mem_map.mpr fun n _ => balanced_word _ .nil
    refine balanced_called ?_
    simp only [allPieces_eq, List.cons_append, List.forall_mem_cons, List.forall_mem_append]
    exact ⟨type.balanced_pieces.append (.gap " " ihv), balanced_operands iho, hindices⟩

theorem solid_pieces (v : Val) : Solid v.pieces := by
  have hgroup (opening closing : String) (ps : List Piece) :
      Solid (punct opening :: (ps ++ [punct closing])) :=
    (solid_token .punct opening).append (solid_token .punct closing) ps
  cases v with
  | simple v => exact solid_token _ _
  | record isPacked fields => cases isPacked <;> exact hgroup _ _ _
  | array elements => exact hgroup _ _ _
  | vector elements => exact hgroup _ _ _
  | cast opcode flags fromType value toType => exact solid_called _
  | elementPointer flags source operands => exact solid_called _
  | operation head type value operands indices => exact solid_called _

-- Can a value begin with the token?
def opens (s : String) : Bool :=
  Reader.isSimpleValue s || Keyword.isConstantExpression s || ["[", "\x7b", "<"].contains s

theorem isConstantExpression_iff {s : String} : Keyword.isConstantExpression s = true ↔
    s ∈ WordClass.conversion.words ∨ s ∈ WordClass.operator.words := by
  simp [Keyword.isConstantExpression, Keyword.isConversion, Keyword.isIntegerOperator,
    Keyword.isFloatOperator, Keyword.isBitwiseOperator, WordClass.words, or_assoc]

theorem isConversion_iff {s : String} :
    Keyword.isConversion s = true ↔ s ∈ WordClass.conversion.words := by
  simp [Keyword.isConversion, WordClass.words]

theorem mem_operators : "getelementptr" ∈ WordClass.operator.words := by
  simp [WordClass.words, Keyword.constantOperators]

theorem opens_of_mem {s : String}
    (hs : s ∈ WordClass.conversion.words ∨ s ∈ WordClass.operator.words) : opens s = true := by
  simp [opens, isConstantExpression_iff.mpr hs]

theorem exists_opening (v : Val) : ∃ s ss, texts v.pieces = s :: ss ∧ opens s = true := by
  have hbracket : opens "[" = true ∧ opens "\x7b" = true ∧ opens "<" = true := by decide
  have hsimple (v : Simple) : opens v.text = true := by simp [opens]
  cases v with
  | simple v => exact ⟨_, _, rfl, hsimple v⟩
  | record isPacked fields =>
    cases isPacked with
    | false => exact ⟨_, _, rfl, hbracket.2.1⟩
    | true => exact ⟨_, _, rfl, hbracket.2.2⟩
  | array elements => exact ⟨_, _, rfl, hbracket.1⟩
  | vector elements => exact ⟨_, _, rfl, hbracket.2.2⟩
  | cast opcode flags fromType value toType =>
    exact ⟨_, _, rfl, opens_of_mem (.inl opcode.mem_words)⟩
  | elementPointer flags source operands => exact ⟨_, _, rfl, opens_of_mem (.inr mem_operators)⟩
  | operation head type value operands indices =>
    exact ⟨_, _, rfl, opens_of_mem (.inr head.keyword.mem_words)⟩

end Val

end Grammar

end TestFocus
