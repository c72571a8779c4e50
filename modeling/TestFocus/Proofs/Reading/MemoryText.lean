import TestFocus.Proofs.Reading.AnnotationText

namespace TestFocus

open Lexer Text Piece Cursor

namespace Grammar

-- `syncscope("scope") ordering ...`
structure Synchronization where
  scope : Option Quoted
  orderings : List (Word [.ordering])

namespace Synchronization

def scopePieces : Option Quoted → List Piece
  | none => []
  | some scope => [space, word "syncscope", punct "(", scope.piece, punct ")"]

-- The scope and the orderings, with a space before each.
def pieces (s : Synchronization) : List Piece :=
  scopePieces s.scope ++ led (s.orderings.map (·.text))

end Synchronization

-- A mark of an address computation, before the type that it steps over.
inductive PointerMark where
  | inbounds | nusw | nuw
  | inrange (group : Group)

namespace PointerMark

def pieces : PointerMark → List Piece
  | inbounds => [word "inbounds", space]
  | nusw => [word "nusw", space]
  | nuw => [word "nuw", space]
  | inrange group => word "inrange" :: punct "(" :: (group.pieces ++ [punct ")", space])

def isInbounds : PointerMark → Bool
  | inbounds => true
  | _ => false

end PointerMark

-- `ty index`, which may be marked
structure ElementIndex where
  isInRange : Bool
  operand : Typed

def ElementIndex.pieces (i : ElementIndex) : List Piece :=
  spaced (marked i.isInRange "inrange") ++ i.operand.pieces

inductive Memory where
  | load (isVolatile isAtomic : Bool) (type : Ty) (address : Typed) (order : Synchronization)
  | store (isVolatile isAtomic : Bool) (value address : Typed) (order : Synchronization)
  | compareExchange (weak isVolatile : Bool) (address compare newValue : Typed)
      (order : Synchronization)
  | readModifyWrite (isVolatile : Bool) (operation : String) (isWord : IsWord operation)
      (ne_volatile : operation ≠ "volatile") (address value : Typed) (order : Synchronization)
  | elementPointer (marks : List PointerMark) (sourceType : Ty) (base : Typed)
      (indices : List ElementIndex)

namespace Memory

def keyword : Memory → String
  | load _ _ _ _ _ => "load"
  | store _ _ _ _ _ => "store"
  | compareExchange _ _ _ _ _ _ => "cmpxchg"
  | readModifyWrite _ _ _ _ _ _ _ => "atomicrmw"
  | elementPointer _ _ _ _ => "getelementptr"

-- The qualifiers of an access, in the order in which they are written.
def access (isVolatile isAtomic : Bool) : List Piece :=
  spaced (marked isAtomic "atomic" ++ marked isVolatile "volatile")

def operands : Memory → List Piece
  | load isVolatile isAtomic type address order =>
    space :: (access isVolatile isAtomic ++ (type.pieces ++ punct "," :: space ::
      (address.pieces ++ order.pieces)))
  | store isVolatile isAtomic value address order =>
    space :: (access isVolatile isAtomic ++ (value.pieces ++ punct "," :: space ::
      (address.pieces ++ order.pieces)))
  | compareExchange weak isVolatile address compare newValue order =>
    space :: (spaced (marked weak "weak") ++ (spaced (marked isVolatile "volatile") ++
      (address.pieces ++ punct "," :: space :: (compare.pieces ++ punct "," :: space ::
        (newValue.pieces ++ order.pieces)))))
  | readModifyWrite isVolatile operation _ _ address value order =>
    space :: (spaced (marked isVolatile "volatile") ++ word operation :: space ::
      (address.pieces ++ punct "," :: space :: (value.pieces ++ order.pieces)))
  | elementPointer marks sourceType base indices =>
    space :: (marks.flatMap (·.pieces) ++ (sourceType.pieces ++ punct "," :: space ::
      (base.pieces ++ commaed (indices.map (·.pieces)))))

-- What the access says.
def statement : Memory → Statement
  | load isVolatile isAtomic type address _ =>
    .load isVolatile isAtomic type.print address.type.print address.value.text
  | store isVolatile isAtomic value address _ =>
    .store isVolatile isAtomic value.type.print value.value.text address.type.print
      address.value.text
  | compareExchange weak isVolatile address compare newValue _ =>
    .compareExchange weak isVolatile address.value.text compare.value.text compare.type.print
      newValue.value.text
  | readModifyWrite isVolatile operation _ _ address value _ =>
    .readModifyWrite isVolatile operation address.value.text value.type.print value.value.text
  | elementPointer marks sourceType base indices =>
    .elementPointer (marks.any (·.isInbounds)) sourceType.print base.type.print base.value.text
      (indices.map fun i => (i.operand.type.print, i.operand.value.text))

def sentence (m : Memory) : Sentence :=
  { tail := none, keyword := m.keyword, operands := m.operands }

theorem isWord_marks : IsWord "syncscope" ∧ IsWord "inbounds" ∧ IsWord "nusw" ∧ IsWord "nuw" ∧
    IsWord "inrange" ∧ IsWord "weak" ∧ IsWord "volatile" ∧ IsWord "atomic" := by
  refine ⟨?_, ?_, ?_, ?_, ?_, ?_, ?_, ?_⟩ <;> exact isWord_ofList rfl

end Memory

open Memory

section Layout

variable {ps : List Piece}

@[simp]
theorem Synchronization.detached_pieces (s : Synchronization) : Detached s.pieces := by
  cases hscope : s.scope <;> simp [pieces, scopePieces, hscope]

@[simp]
theorem Synchronization.apart_pieces (s : Synchronization) : Apart s.pieces := by
  have hwords : ∀ t ∈ s.orderings.map (·.text), IsWord t := fun t => Word.isWord_of_mem_map
  have hled := apart_led_append hwords detached_nil
  rw [List.append_nil] at hled
  cases hscope : s.scope with
  | none => simp [pieces, scopePieces, hscope, hled]
  | some scope => simp [pieces, scopePieces, hscope, hled, isWord_marks, scope.closed]

theorem PointerMark.apart_pieces_append (m : PointerMark) : Apart (m.pieces ++ ps) ↔ Apart ps := by
  cases m with
  | inbounds | nusw | nuw => simp [pieces, isWord_marks]
  | inrange group => simp [pieces, isWord_marks, group.apart]

theorem PointerMark.apart_all_append (marks : List PointerMark) :
    Apart (marks.flatMap (·.pieces) ++ ps) ↔ Apart ps := by
  induction marks with
  | nil => simp
  | cons m marks ih => simp [m.apart_pieces_append, ih]

theorem ElementIndex.apart_pieces (i : ElementIndex) : Apart i.pieces := by
  simp [pieces, apart_spaced_append fun _ => isWord_of_mem_marked isWord_marks.2.2.2.2.1]

theorem ElementIndex.exists_opening (i : ElementIndex) : ∃ s ss, texts i.pieces = s :: ss ∧
    s ≠ "align" ∧ startsWithChar s '!' = false := by
  cases hrange : i.isInRange with
  | true =>
    exact ⟨"inrange", _, by simp [pieces, hrange]; rfl, by decide,
      by decide⟩
  | false =>
    obtain ⟨s, ss, hs, hopens⟩ := i.operand.exists_opening
    exact ⟨s, ss, by simpa [pieces, hrange] using hs,
      Reader.ne_of_opens hopens (by decide), Ty.startsWithChar_of_opens hopens⟩

theorem Memory.apart_operands (m : Memory) : Apart m.operands := by
  have hmarked {s : String} (hs : IsWord s) (isMarked : Bool) (ps : List Piece) :
      Apart (spaced (marked isMarked s) ++ ps) ↔ Apart ps :=
    apart_spaced_append fun _ => isWord_of_mem_marked hs
  have haccess (isVolatile isAtomic : Bool) (ps : List Piece) :
      Apart (access isVolatile isAtomic ++ ps) ↔ Apart ps := by
    refine apart_spaced_append fun t ht => ?_
    rcases List.mem_append.mp ht with ht | ht
    · exact isWord_of_mem_marked isWord_marks.2.2.2.2.2.2.2 ht
    · exact isWord_of_mem_marked isWord_marks.2.2.2.2.2.2.1 ht
  cases m with
  | load isVolatile isAtomic type address order => simp [operands, haccess]
  | store isVolatile isAtomic value address order => simp [operands, haccess]
  | compareExchange weak isVolatile address compare newValue order =>
    simp [operands, hmarked, isWord_marks]
  | readModifyWrite isVolatile operation isWord ne_volatile address value order =>
    simp [operands, hmarked, isWord_marks, isWord]
  | elementPointer marks sourceType base indices =>
    have hindices : Apart (commaed (indices.map (·.pieces))) :=
      apart_commaed (List.forall_mem_map.mpr fun i _ => i.apart_pieces)
    simp [operands, PointerMark.apart_all_append, hindices]

end Layout

end Grammar

namespace Reader

open Grammar

variable {read rest : List Piece}

theorem skipOrdering_between (s : Synchronization) (read : List Piece) (notes : List Note) :
    skipOrdering (between read (s.pieces ++ trailing notes)) =
      .ok () (between (read ++ s.pieces) (trailing notes)) := by
  have hwords : (texts (led (s.orderings.map (·.text)))).all Keyword.isAtomicOrdering := by
    simpa [Keyword.isAtomicOrdering, WordClass.words] using fun w _ => Word.mem_words w
  have hrun (read : List Piece) := run_append Keyword.isAtomicOrdering read _ _ hwords
    (lacks_trailing .ordering notes)
  cases hscope : s.scope with
  | none =>
    have hscope' : (texts (led (s.orderings.map (·.text)) ++ trailing notes)).head? ≠
        some "syncscope" := by
      cases horderings : s.orderings with
      | nil =>
        exact head?_trailing (P := (· ≠ some "syncscope")) (by simp) (by decide) notes
      | cons w ws =>
        have hmem : "syncscope" ∉ WordClass.ordering.words := by decide
        simp
        rintro h
        exact hmem (h ▸ w.mem_words)
    simp [skipOrdering, Synchronization.pieces, Synchronization.scopePieces, hscope,
      eat_of_ne hscope', hrun]
  | some scope =>
    have hskip (rest : List Piece) := skipGroup_balanced (read ++ [space, word "syncscope"]) rest
      (rfl : Bracket.closer? "(" = some ")") (.token (by simp) .nil : Balanced [scope.piece])
    simp at hskip
    simp [skipOrdering, Synchronization.pieces, Synchronization.scopePieces, hscope, hskip, hrun]

theorem accessQualifiers_between (isVolatile isAtomic : Bool) (read : List Piece)
    (hrest : Lacks .access (texts rest).head?) :
    accessQualifiers (between read (Memory.access isVolatile isAtomic ++ rest)) =
      .ok (isVolatile, isAtomic) (between (read ++ Memory.access isVolatile isAtomic) rest) := by
  have hwords :
      (texts (Memory.access isVolatile isAtomic)).all ["volatile", "atomic"].contains := by
    cases isVolatile <;> cases isAtomic <;> decide
  have hrun := run_append ["volatile", "atomic"].contains read _ rest hwords hrest
  simp only [accessQualifiers, bind_apply, hrun, pure_apply]
  cases isVolatile <;> cases isAtomic <;> simp [Memory.access]

theorem elementPointerMarks_end (hrest : ∀ s ∈ ["inbounds", "nusw", "nuw", "inrange"],
    (texts rest).head? ≠ some s) (rounds : Nat) (done : Bool) (read : List Piece) :
    elementPointerMarks rounds done (between read rest) = .ok done (between read rest) := by
  simp only [List.forall_mem_cons, List.not_mem_nil, IsEmpty.forall_iff, implies_true,
    and_true] at hrest
  cases rounds <;> simp [elementPointerMarks, hrest]

theorem elementPointerMarks_one (m : PointerMark) (rounds : Nat) (done : Bool)
    (read rest : List Piece) :
    elementPointerMarks (rounds + 1) done (between read (m.pieces ++ rest)) =
      elementPointerMarks rounds (done || m.isInbounds) (between (read ++ m.pieces) rest) := by
  cases m with
  | inbounds | nusw | nuw =>
    simp [elementPointerMarks, PointerMark.pieces, PointerMark.isInbounds]
  | inrange group =>
    have hskip := skipGroup_balanced (read ++ [word "inrange"]) (space :: rest)
      (rfl : Bracket.closer? "(" = some ")") group.balanced
    simp at hskip
    simp [elementPointerMarks, PointerMark.pieces, PointerMark.isInbounds, hskip]

theorem elementPointerMarks_between (marks : List PointerMark)
    (hrest : ∀ s ∈ ["inbounds", "nusw", "nuw", "inrange"], (texts rest).head? ≠ some s)
    (rounds : Nat) (hrounds : marks.length ≤ rounds) (done : Bool) (read : List Piece) :
    elementPointerMarks rounds done (between read (marks.flatMap (·.pieces) ++ rest)) =
      .ok (done || marks.any (·.isInbounds))
        (between (read ++ marks.flatMap (·.pieces)) rest) := by
  induction marks generalizing rounds done read with
  | nil => simpa using elementPointerMarks_end hrest rounds done read
  | cons m marks ih =>
    obtain ⟨rounds, rfl⟩ : ∃ k, rounds = k + 1 := ⟨rounds - 1, by simp at hrounds; omega⟩
    have hmore := ih rounds (by simpa using hrounds) (done || m.isInbounds) (read ++ m.pieces)
    simp only [List.append_assoc] at hmore
    simp [elementPointerMarks_one, hmore, Bool.or_assoc]

theorem length_le_marks (marks : List PointerMark) (rest : List Piece) :
    marks.length ≤ (texts (marks.flatMap (·.pieces) ++ rest)).length := by
  induction marks with
  | nil => simp
  | cons m marks ih =>
    have hone : 0 < (texts m.pieces).length := by cases m <;> simp [PointerMark.pieces]
    simp only [List.flatMap_cons, List.append_assoc, texts_append, List.length_append,
      List.length_cons] at ih ⊢
    omega

theorem elementIndices_one (i : ElementIndex) (rounds : Nat) (done : List (String × String))
    (read rest : List Piece) :
    elementIndices (rounds + 1) done (between read (punct "," :: space :: (i.pieces ++ rest))) =
      elementIndices rounds (done ++ [(i.operand.type.print, i.operand.value.text)])
        (between (read ++ punct "," :: space :: i.pieces) rest) := by
  obtain ⟨s, ss, hs, halign, hbang⟩ := i.exists_opening
  have htexts : texts (space :: (i.pieces ++ rest)) = s :: (ss ++ texts rest) := by simp [hs]
  have hitem := isAnnotationStart_item read htexts halign hbang
  have hrange : (texts (i.operand.pieces ++ rest)).head? ≠ some "inrange" := by
    obtain ⟨t, ts, ht, hopens⟩ := i.operand.exists_opening
    simpa [ht] using ne_of_opens hopens (by decide)
  have heat (read : List Piece) := eat_marked i.isInRange "inrange" read hrange
  simp only [ElementIndex.pieces, List.append_assoc] at hitem
  simp [elementIndices, ElementIndex.pieces, hitem, heat]

theorem elementIndices_between (is : List ElementIndex) (notes : List Note) (read : List Piece) :
    elementIndices (texts (commaed (is.map (·.pieces)) ++ trailing notes)).length []
        (between read (commaed (is.map (·.pieces)) ++ trailing notes)) =
      .ok (is.map fun i => (i.operand.type.print, i.operand.value.text))
        (between (read ++ commaed (is.map (·.pieces))) (trailing notes)) := by
  refine loop_commaed (fun rounds done read => ?_) (fun i _ => elementIndices_one i) [] read
  have hend := isAnnotationStart_trailing read notes
  cases rounds <;> simp [elementIndices, hend]

end Reader

namespace Grammar

open Reader

theorem Memory.reads (m : Memory) : ∃ reader,
    m.statement.kind.reader? m.keyword none = some reader ∧
      ∀ read notes, reader (between read (m.operands ++ trailing notes)) =
        .ok m.statement (between (read ++ m.operands) (trailing notes)) := by
  cases m with
  | load isVolatile isAtomic type address order =>
    refine ⟨_, rfl, fun read notes => ?_⟩
    have haccess (read rest : List Piece) := accessQualifiers_between isVolatile isAtomic read
      (lacks_type (d := .access) (by decide) type rest)
    simp [operands, statement, Reader.load, haccess, skipOrdering_between]
  | store isVolatile isAtomic value address order =>
    refine ⟨_, rfl, fun read notes => ?_⟩
    have haccess (read rest : List Piece) := accessQualifiers_between isVolatile isAtomic read
      (lacks_typed (d := .access) (by decide) value rest)
    simp [operands, statement, Reader.store, haccess, skipOrdering_between]
  | compareExchange weak isVolatile address compare newValue order =>
    refine ⟨_, rfl, fun read notes => ?_⟩
    have hvolatile (read rest : List Piece) := eat_marked isVolatile "volatile" read
      (head?_typed_ne (by decide) address rest)
    have hweak (read rest : List Piece) :
        eat "weak" (between read (spaced (marked weak "weak") ++
          (spaced (marked isVolatile "volatile") ++ (address.pieces ++ rest)))) =
          .ok weak (between (read ++ spaced (marked weak "weak"))
            (spaced (marked isVolatile "volatile") ++ (address.pieces ++ rest))) := by
      refine eat_marked weak "weak" read ?_
      cases isVolatile with
      | false => simpa using head?_typed_ne (by decide) address rest
      | true => simp
    simp [operands, statement, Reader.compareExchange, hweak, hvolatile,
      skipOrdering_between]
  | readModifyWrite isVolatile operation isWord ne_volatile address value order =>
    refine ⟨_, rfl, fun read notes => ?_⟩
    have hvolatile (read rest : List Piece) :
        eat "volatile" (between read (spaced (marked isVolatile "volatile") ++
          word operation :: rest)) = .ok isVolatile
            (between (read ++ spaced (marked isVolatile "volatile")) (word operation :: rest)) :=
      eat_marked isVolatile "volatile" read (by simpa using ne_volatile)
    simp [operands, statement, Reader.readModifyWrite, hvolatile, placed,
      skipOrdering_between]
  | elementPointer marks sourceType base indices =>
    refine ⟨_, rfl, fun read notes => ?_⟩
    have hopening : ∀ s ∈ ["inbounds", "nusw", "nuw", "inrange"], Ty.opens s = false := by
      decide
    have hmarks (read rest : List Piece) := elementPointerMarks_between marks
      (fun s hs => head?_type_ne (hopening s hs) sourceType rest) _
      (length_le_marks marks (sourceType.pieces ++ rest)) false read
    have hindices (read : List Piece) := elementIndices_between indices notes read
    simp only [operands, statement, Reader.elementPointer, List.cons_append,
      List.append_assoc, between_gap, bind_apply, get_apply, remaining_between, hmarks,
      type_comma, comma_token, typedValue_between, hindices]
    simp

-- The reader of a memory access reads it in front of any notes.
theorem Memory.means (m : Memory) : m.sentence.Means m.statement := by
  refine ⟨by simp [sentence], m.apart_operands, ?_, ?_, m.reads⟩
  · cases m <;> simp [sentence, operands]
  · cases m with
    | load => exact InstructionKind.ofKeyword?_of_mem ("load", .load) (by decide)
    | store => exact InstructionKind.ofKeyword?_of_mem ("store", .store) (by decide)
    | compareExchange =>
      exact InstructionKind.ofKeyword?_of_mem ("cmpxchg", .compareExchange) (by decide)
    | readModifyWrite =>
      exact InstructionKind.ofKeyword?_of_mem ("atomicrmw", .readModifyWrite) (by decide)
    | elementPointer =>
      exact InstructionKind.ofKeyword?_of_mem ("getelementptr", .elementPointer) (by decide)

end Grammar

end TestFocus
