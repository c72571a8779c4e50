import TestFocus.Instruction
import TestFocus.Proofs.Reading.AttributeText

namespace TestFocus

open Lexer Text Piece Cursor Grammar

namespace Grammar

-- `!7`
def node (n : Nat) : String :=
  "!" ++ n.repr

-- What may follow the operands: `align 8` or `!dbg !7`.
inductive Note where
  | align (n : Nat)
  | attachment (kind : Name) (n : Nat)

def Note.pieces : Note → List Piece
  | align n => [word "align", space, word n.repr]
  | attachment kind n => [word (kind.after '!'), space, word (node n)]

-- Each note with a comma before it.
def trailing (notes : List Note) : List Piece :=
  commaed (notes.map (·.pieces))

@[simp]
theorem trailing_nil : trailing [] = [] := rfl

@[simp]
theorem trailing_cons (n : Note) (notes : List Note) :
    trailing (n :: notes) = punct "," :: space :: (n.pieces ++ trailing notes) := rfl

@[simp]
theorem isWord_node (n : Nat) : IsWord (node n) :=
  isWord_numbered rfl n

theorem isWord_align : IsWord "align" :=
  WordClass.isWord_of_mem (c := .parameterAttribute)
    (by simp [WordClass.words, Keyword.parameterAttributes])

theorem Note.apart_pieces (n : Note) : Apart n.pieces := by
  cases n with
  | align n => simp [pieces, isWord_align]
  | attachment kind n =>
    have hkind : IsWord (kind.after '!') := kind.isWord_after rfl
    simp [pieces, hkind]

theorem apart_trailing (notes : List Note) : Apart (trailing notes) :=
  apart_commaed (List.forall_mem_map.mpr fun n _ => n.apart_pieces)

theorem detached_trailing (notes : List Note) : Detached (trailing notes) := by
  cases notes <;> simp

end Grammar

namespace Reader

open Grammar

variable {read rest : List Piece}

-- Metadata stands for itself unless a group follows it.
theorem value_node (n : Nat) (read : List Piece) {rest : List Piece}
    (hbrace : (texts rest).head? ≠ some "\x7b") (hparen : (texts rest).head? ≠ some "(") :
    value (between read (word (node n) :: rest)) =
      .ok (node n) (between (read ++ [word (node n)]) rest) := by
  have hbang : startsWithChar (node n) '!' = true := by simp [startsWithChar, node]
  have hread (depth : Nat) : valueWithin (depth + 1) (between read ([word (node n)] ++ rest)) =
      .ok (print [word (node n)]) (between (read ++ [word (node n)]) rest) := by
    refine covered_of_ok (solid_token _ _) ?_
    simp [placed, Token.isPunct, Token.isWord, wordValue, hbang, hbrace, hparen]
  simp [print, text] at hread
  simp [value, hread]

theorem head?_trailing {P : Option String → Prop} (hnone : P none) (hcomma : P (some ","))
    (notes : List Note) : P (texts (trailing notes)).head? := by
  cases notes with
  | nil => exact hnone
  | cons n notes => simpa using hcomma

theorem lacks_trailing (d : WordClass) (notes : List Note) :
    Lacks d (texts (trailing notes)).head? :=
  head?_trailing (P := Lacks d) rfl (lacks_of_not_isKeyword (by decide) d) notes

theorem isAnnotationStart_comma (read ps : List Piece) :
    isAnnotationStart (between read (punct "," :: ps)) = (next? ps).any fun t =>
      t.2 == "align" || (t.1 == .word && startsWithChar t.2 '!') := by
  have hnext : (between read (punct "," :: ps)).peekNth? 1 =
      (between (read ++ [punct ","]) ps).peek? := by
    simp [peek?, peekNth?_between, place, text]
  rw [isAnnotationStart, hnext, ← map_peek?_between (read ++ [punct ","]) ps]
  simp [Token.isWord, Option.any_map]

-- A list with commas goes on with an item that opens with no note.
theorem isAnnotationStart_item (read : List Piece) {ps : List Piece} {s : String} {ss : List String}
    (hps : texts ps = s :: ss) (halign : s ≠ "align") (hbang : startsWithChar s '!' = false) :
    isAnnotationStart (between read (punct "," :: ps)) = false := by
  have hnext : (next? ps).map (·.2) = some s := by rw [← head?_texts, hps]; rfl
  obtain ⟨⟨kind, t⟩, hps', rfl⟩ := Option.map_eq_some_iff.mp hnext
  simp [isAnnotationStart_comma, hps', halign, hbang]

-- And it ends in front of the notes.
theorem isAnnotationStart_trailing (read : List Piece) (notes : List Note) :
    ¬((texts (trailing notes)).head? = some "," ∧
      isAnnotationStart (between read (trailing notes)) = false) := by
  cases notes with
  | nil => simp
  | cons n notes =>
    cases n with
    | align n => simp [isAnnotationStart_comma, Note.pieces, next?]
    | attachment kind n =>
      obtain ⟨c, cs, hlist⟩ := kind.toList_after '!'
      simp [isAnnotationStart_comma, Note.pieces, next?, startsWithChar, hlist]

theorem skipAnnotations_note (n : Note) (rounds : Nat) (read : List Piece) {rest : List Piece}
    (hbrace : (texts rest).head? ≠ some "\x7b") (hparen : (texts rest).head? ≠ some "(") :
    skipAnnotations (rounds + 1) (between read (punct "," :: space :: (n.pieces ++ rest))) =
      skipAnnotations rounds (between (read ++ punct "," :: space :: n.pieces) rest) := by
  cases n with
  | align n => simp [skipAnnotations, Note.pieces, placed]
  | attachment kind n =>
    obtain ⟨c, cs, hlist⟩ := kind.toList_after '!'
    have hbang : startsWithChar (kind.after '!') '!' = true := by simp [startsWithChar, hlist]
    have halign : kind.after '!' ≠ "align" := ne_of_head? (by simp [hlist])
    simp [skipAnnotations, Note.pieces, placed, Token.isWord, hbang, halign,
      value_node n _ hbrace hparen]

theorem skipAnnotations_trailing (notes : List Note) (rounds : Nat)
    (hrounds : notes.length ≤ rounds) (read : List Piece) :
    skipAnnotations rounds (between read (trailing notes)) =
      .ok () (between (read ++ trailing notes) []) := by
  induction notes generalizing rounds read with
  | nil =>
    cases rounds with
    | zero => simp [skipAnnotations]
    | succ rounds => simp [skipAnnotations, eat]
  | cons n notes ih =>
    obtain ⟨rounds, rfl⟩ : ∃ k, rounds = k + 1 := ⟨rounds - 1, by simp at hrounds; omega⟩
    have hbrace := head?_trailing (P := (· ≠ some "\x7b")) (by simp) (by decide) notes
    have hparen := head?_trailing (P := (· ≠ some "(")) (by simp) (by decide) notes
    have hmore := ih rounds (by simpa using hrounds) (read ++ punct "," :: space :: n.pieces)
    simp only [List.append_assoc, List.cons_append] at hmore
    rw [trailing_cons, skipAnnotations_note n rounds read hbrace hparen, hmore]

theorem length_le_trailing (notes : List Note) :
    notes.length ≤ (texts (trailing notes)).length := by
  have := length_le_texts_commaed (notes.map (·.pieces))
  rwa [List.length_map] at this

end Reader

-- The kind of the instruction that a statement belongs to.
def Statement.kind : Statement → InstructionKind
  | ret _ _ => .ret
  | branch _ _ _ => .branch
  | switch _ _ _ _ => .switch
  | indirectBranch _ _ _ => .indirectBranch
  | invoke _ _ _ => .invoke
  | callBranch _ _ _ => .callBranch
  | resume _ _ => .resume
  | unreachable => .unreachable
  | unary _ _ _ _ => .unary
  | binary _ _ _ _ _ _ => .binary
  | extractElement _ _ _ => .extractElement
  | insertElement _ _ _ _ => .insertElement
  | shuffleVector _ _ _ _ => .shuffleVector
  | extractValue _ _ _ => .extractValue
  | insertValue _ _ _ _ => .insertValue
  | load _ _ _ _ _ => .load
  | store _ _ _ _ _ _ => .store
  | compareExchange _ _ _ _ _ _ => .compareExchange
  | readModifyWrite _ _ _ _ _ => .readModifyWrite
  | elementPointer _ _ _ _ _ => .elementPointer
  | conversion _ _ _ _ => .conversion
  | compareIntegers _ _ _ _ => .compareIntegers
  | compareFloats _ _ _ _ _ => .compareFloats
  | phi _ _ => .phi
  | select _ _ _ _ => .select
  | freeze _ _ => .freeze
  | call _ => .call

namespace InstructionKind

-- No keyword of one family is an operator or a conversion, or stands for two families.
theorem ofKeyword?_of_mem : ∀ p ∈ keywords, ofKeyword? p.1 = some p.2 := by
  decide

theorem mem_of_ofKeyword? {s : String} {kind : InstructionKind} (h : ofKeyword? s = some kind) :
    s ∈ WordClass.operator.words ∨ s ∈ WordClass.conversion.words ∨ s ∈ keywords.map (·.1) := by
  unfold ofKeyword? at h
  split at h
  · next hoperator =>
    left
    simp only [Keyword.isIntegerOperator, Keyword.isFloatOperator, Keyword.isBitwiseOperator,
      Bool.or_eq_true, List.contains_iff_mem] at hoperator
    simp [WordClass.words, ← or_assoc, hoperator]
  · split at h
    · next hconversion =>
      exact .inr (.inl (by simpa [Keyword.isConversion, WordClass.words] using hconversion))
    · obtain ⟨before, after, hkeywords, -⟩ := List.lookup_eq_some_iff.mp h
      exact .inr (.inr (by simp [hkeywords]))

theorem isKeyword_of_ofKeyword? {s : String} {kind : InstructionKind}
    (h : ofKeyword? s = some kind) : isKeyword s.toList = true := by
  have hspelled : ∃ css, Spelled (keywords.map (·.1)) css ∧ css.all Grammar.isKeyword = true := by
    apply Exists.intro
    apply And.intro
    · repeat constructor
    · decide
  obtain ⟨css, hcss, hkeyword⟩ := hspelled
  rcases mem_of_ofKeyword? h with hs | hs | hs
  · exact WordClass.isKeyword_of_mem hs
  · exact WordClass.isKeyword_of_mem hs
  · exact hcss.isKeyword hkeyword hs

end InstructionKind

namespace Grammar

-- `%register = `
def assigned : Option Name → List Piece
  | none => []
  | some register => [word (register.after '%'), space, punct "=", space]

-- A statement as it is written: a tail marker if it is a call, the keyword and the operands.
structure Sentence where
  tail : Option (Word [.tail])
  keyword : String
  operands : List Piece

-- A sentence on its line, with the register that it defines and the notes behind it.
def Sentence.line (s : Sentence) (assignee : Option Name) (notes : List Note) : List Piece :=
  assigned assignee ++ (spaced (s.tail.toList.map (·.text)) ++
    word s.keyword :: (s.operands ++ trailing notes))

-- The keyword selects a reader that reads the operands in front of any notes.
structure Sentence.Means (s : Sentence) (statement : Statement) : Prop where
  isCall : s.tail.isSome → s.keyword = "call"
  apart : Apart s.operands
  detached : Detached s.operands
  ofKeyword? : InstructionKind.ofKeyword? s.keyword = some statement.kind
  reads : ∃ reader, statement.kind.reader? s.keyword (s.tail.map (·.text)) = some reader ∧
    ∀ read notes, reader (between read (s.operands ++ trailing notes)) =
      .ok statement (between (read ++ s.operands) (trailing notes))

theorem Sentence.Means.isKeyword_keyword {s : Sentence} {statement : Statement}
    (hs : s.Means statement) : isKeyword s.keyword.toList = true :=
  InstructionKind.isKeyword_of_ofKeyword? hs.ofKeyword?

end Grammar

namespace Reader

open Grammar

theorem assignee_some (register : Name) (read rest : List Piece) :
    assignee (between read (assigned (some register) ++ rest)) =
      .ok (some (register.after '%')) (between (read ++ assigned (some register)) rest) := by
  obtain ⟨c, cs, hlist⟩ := register.toList_after '%'
  have hpercent : startsWithChar (register.after '%') '%' = true := by
    simp [startsWithChar, hlist]
  simp [assignee, assigned, placed, hpercent]

theorem assignee_none {s : String} (hs : isKeyword s.toList = true) (read rest : List Piece) :
    assignee (between read (word s :: rest)) = .ok none (between read (word s :: rest)) := by
  have hpercent : startsWithChar s '%' = false := startsWithChar_of_isKeyword hs (by decide)
  simp [assignee, placed, hpercent]

theorem instructionKeyword_between {s : Sentence} {statement : Statement} (hs : s.Means statement)
    (read rest : List Piece) :
    instructionKeyword
        (between read (spaced (s.tail.toList.map (·.text)) ++ word s.keyword :: rest)) =
      .ok (s.tail.map (·.text), s.keyword)
        (between (read ++ (spaced (s.tail.toList.map (·.text)) ++ [word s.keyword])) rest) := by
  cases htail : s.tail with
  | none =>
    have hmarkers : ∀ s ∈ Keyword.tailMarkers, InstructionKind.ofKeyword? s = none := by
      decide
    have hmarker : Keyword.isTailMarker s.keyword = false := by
      by_contra h
      have := hs.ofKeyword?.symm.trans
        (hmarkers s.keyword (by simpa [Keyword.isTailMarker] using h))
      cases this
    simp [instructionKeyword, placed, hmarker]
  | some w =>
    have hmarker : Keyword.isTailMarker w.text = true := by
      simpa [Keyword.isTailMarker, WordClass.words] using w.mem_words
    have hcall := hs.isCall (by simp [htail])
    simp [instructionKeyword, placed, hmarker, hcall]

theorem assignee_line {s : Sentence} {statement : Statement} (hs : s.Means statement)
    (register : Option Name) (rest : List Piece) :
    assignee (between [] (assigned register ++ (spaced (s.tail.toList.map (·.text)) ++
        word s.keyword :: rest))) =
      .ok (register.map (·.after '%')) (between (assigned register)
        (spaced (s.tail.toList.map (·.text)) ++ word s.keyword :: rest)) := by
  cases register with
  | some register => simpa using assignee_some register [] _
  | none =>
    cases htail : s.tail with
    | none => simpa [assigned] using assignee_none hs.isKeyword_keyword [] rest
    | some w =>
      have hw : isKeyword w.text.toList = true := WordClass.isKeyword_of_mem w.mem_words
      simpa [assigned] using assignee_none hw [] (space :: word s.keyword :: rest)

theorem instruction_line {s : Sentence} {statement : Statement} (hs : s.Means statement)
    (register : Option Name) (notes : List Note) :
    instruction (between [] (s.line register notes)) =
      .ok { assignee := register.map (·.after '%'), kind := statement.kind,
            statement := some statement } (between (s.line register notes) []) := by
  obtain ⟨reader, hreader, hreads⟩ := hs.reads
  have hkeyword (read rest : List Piece) := instructionKeyword_between hs read rest
  have hskip (read : List Piece) :=
    skipAnnotations_trailing notes _ (length_le_trailing notes) read
  simp only [instruction, Sentence.line, bind_apply, assignee_line hs, hkeyword, hs.ofKeyword?,
    hreader, hreads, get_apply, remaining_between, hskip, finish_nil, pure_apply]
  simp

theorem apart_line {s : Sentence} {statement : Statement} (hs : s.Means statement)
    (register : Option Name) (notes : List Note) : Apart (s.line register notes) := by
  have hwords : ∀ t ∈ s.tail.toList.map (·.text), IsWord t := fun t => Word.isWord_of_mem_map
  have hkeyword : IsWord s.keyword := by
    obtain ⟨l, cs, hlist, -, hplain, -⟩ := exists_letter_of_isKeyword hs.isKeyword_keyword
    exact isWord_of_toList hlist hplain
  have hrest : Detached (s.operands ++ trailing notes) :=
    hs.detached.append (detached_trailing notes)
  have hsentence : Apart (spaced (s.tail.toList.map (·.text)) ++
      word s.keyword :: (s.operands ++ trailing notes)) := by
    simp [apart_spaced_append hwords, hkeyword, hrest,
      apart_append hs.apart (detached_trailing notes), apart_trailing]
  cases register with
  | none => simpa [Sentence.line, assigned] using hsentence
  | some register => simpa [Sentence.line, assigned] using hsentence

-- A line is read back as what it says.
theorem parse_line {s : Sentence} {statement : Statement} (hs : s.Means statement)
    (register : Option Name) (notes : List Note) :
    Instruction.parse (print (s.line register notes)) =
      .ok { assignee := register.map (·.after '%'), kind := statement.kind,
            statement := some statement } :=
  parse_pieces (apart_line hs register notes none free_none) (instruction_line hs register notes)

end Reader

end TestFocus
