import Mathlib.Data.List.Nodup
import Mathlib.Data.List.Pairwise
import TestFocus.Proofs.Reading.TypeText
import TestFocus.Reader.Value

namespace TestFocus

open Lexer Text Piece Cursor

namespace Grammar

-- The strings written as lists of their characters.
inductive Spelled : List String → List (List Char) → Prop where
  | nil : Spelled [] []
  | cons {cs : List Char} {ss : List String} {css : List (List Char)} :
      Spelled ss css → Spelled (String.ofList cs :: ss) (cs :: css)

-- One number for the characters of a word; different numbers are enough to tell two words apart.
def code (cs : List Char) : Nat :=
  cs.foldl (fun n c => n * 256 + c.toNat) 0

-- The characters of a keyword: a lower case letter first, and no width of an integer type.
def isKeyword : List Char → Bool
  | c :: cs =>
    'a' ≤ c && c ≤ 'z' && isPlain (c :: cs) && !(c == 'i' && !cs.isEmpty && cs.all isAsciiDigit)
  | [] => false

theorem Spelled.eq_map {ss : List String} {css : List (List Char)} (h : Spelled ss css) :
    ss = css.map String.ofList := by
  induction h with
  | nil => rfl
  | cons _ ih => rw [List.map_cons, ← ih]

theorem Spelled.nodup {ss : List String} {css : List (List Char)} (h : Spelled ss css)
    (hcss : (css.map code).Nodup) : ss.Nodup := by
  rw [h.eq_map]
  exact (List.Nodup.of_map code hcss).map fun _ _ => String.ofList_inj.mp

theorem Spelled.isKeyword {ss : List String} {css : List (List Char)} (h : Spelled ss css)
    (hcss : css.all isKeyword = true) {s : String} (hs : s ∈ ss) :
    Grammar.isKeyword s.toList = true := by
  rw [h.eq_map] at hs
  obtain ⟨cs, hcs, rfl⟩ := List.mem_map.mp hs
  rw [String.toList_ofList]
  exact List.all_eq_true.mp hcss cs hcs

theorem Spelled.isWord {ss : List String} {css : List (List Char)} (h : Spelled ss css)
    (hcss : css.all isPlain = true) {s : String} (hs : s ∈ ss) : IsWord s := by
  rw [h.eq_map] at hs
  obtain ⟨cs, hcs, rfl⟩ := List.mem_map.mp hs
  exact isWord_ofList (List.all_eq_true.mp hcss cs hcs)

theorem exists_letter_of_isKeyword {s : String} (hs : isKeyword s.toList = true) :
    ∃ l cs, s.toList = l :: cs ∧ ('a' ≤ l ∧ l ≤ 'z') ∧ isPlain (l :: cs) = true ∧
      (l = 'i' → cs ≠ [] → cs.all isAsciiDigit = false) := by
  cases hlist : s.toList with
  | nil => simp [hlist, isKeyword] at hs
  | cons l cs =>
    refine ⟨l, cs, rfl, ?_⟩
    simp only [hlist, isKeyword, Bool.and_eq_true, decide_eq_true_eq] at hs
    refine ⟨hs.1.1, hs.1.2, ?_⟩
    rintro rfl hne
    simpa [hne] using hs.2

theorem head_ne {l d : Char} (hl : 'a' ≤ l ∧ l ≤ 'z') (hd : ¬('a' ≤ d ∧ d ≤ 'z')) : l ≠ d := by
  rintro rfl
  exact hd hl

theorem startsWithChar_of_isKeyword {s : String} (hs : isKeyword s.toList = true) {d : Char}
    (hd : ¬('a' ≤ d ∧ d ≤ 'z')) : startsWithChar s d = false := by
  obtain ⟨l, cs, hlist, hl, -, -⟩ := exists_letter_of_isKeyword hs
  simpa [startsWithChar, hlist] using head_ne hl hd

-- Classes of words that can stand at one place of a line.
inductive WordClass where
  | linkage | preemption | visibility | storage | convention | parameterAttribute | fastMath
  | overflow | pointerFlag | access | ordering | tail | typeName | literal | conversion | operator
  | wrapper | addressMark | mark
deriving DecidableEq

namespace WordClass

def words : WordClass → List String
  | linkage => Keyword.linkages
  | preemption => Keyword.preemptions
  | visibility => Keyword.visibilities
  | storage => Keyword.storageClasses
  | convention => Keyword.callingConventions
  | parameterAttribute => Keyword.parameterAttributes
  | fastMath => Keyword.fastMathFlags
  | overflow => Keyword.overflowFlags
  | pointerFlag => ["inbounds", "nusw"]
  | access => ["volatile", "atomic"]
  | ordering => Keyword.atomicOrderings
  | tail => Keyword.tailMarkers
  | typeName => Keyword.typeNames
  | literal => Reader.literals
  | conversion => Keyword.conversions
  | operator =>
    Keyword.integerOperators ++ Keyword.floatOperators ++ Keyword.bitwiseOperators ++
      Keyword.constantOperators
  | wrapper => Reader.symbolWrappers
  | addressMark => Keyword.addressMarks
  | mark => ["addrspace", "inrange", "to", "asm"]

def all : List WordClass :=
  [linkage, preemption, visibility, storage, convention, parameterAttribute, fastMath, overflow,
    pointerFlag, access, ordering, tail, typeName, literal, conversion, operator, wrapper,
    addressMark, mark]

theorem exists_spelled :
    ∃ css, Spelled (all.flatMap words) css ∧ (css.map code).Nodup ∧ css.all isKeyword = true := by
  apply Exists.intro
  apply And.intro
  · repeat constructor
  · decide +kernel

variable {c d : WordClass} {s : String}

theorem mem_all (c : WordClass) : c ∈ all := by
  cases c <;> simp [all]

theorem disjoint (hcd : c ≠ d) (hs : s ∈ c.words) : s ∉ d.words := by
  obtain ⟨css, hcss, hnodup, -⟩ := exists_spelled
  have hpairs := (List.nodup_flatMap.mp (hcss.nodup hnodup)).2
  have : Std.Symm (Function.onFun List.Disjoint words) := ⟨fun _ _ h _ ha hb => h hb ha⟩
  have hdisjoint : List.Disjoint c.words d.words := hpairs.forall (mem_all c) (mem_all d) hcd
  exact fun hs' => hdisjoint hs hs'

theorem isKeyword_of_mem (hs : s ∈ c.words) : isKeyword s.toList = true := by
  obtain ⟨css, hcss, -, hkeyword⟩ := exists_spelled
  exact hcss.isKeyword hkeyword (List.mem_flatMap.mpr ⟨c, mem_all c, hs⟩)

theorem exists_letter (hs : s ∈ c.words) : ∃ l cs, s.toList = l :: cs ∧ ('a' ≤ l ∧ l ≤ 'z') ∧
    isPlain (l :: cs) = true ∧ (l = 'i' → cs ≠ [] → cs.all isAsciiDigit = false) :=
  exists_letter_of_isKeyword (isKeyword_of_mem hs)

theorem isWord_of_mem (hs : s ∈ c.words) : IsWord s := by
  obtain ⟨l, cs, hlist, -, hplain, -⟩ := exists_letter hs
  exact isWord_of_toList hlist hplain

theorem opens_eq_false (hs : s ∈ c.words) (hc : c ≠ typeName) : Ty.opens s = false := by
  obtain ⟨l, cs, hlist, hl, -, hwidth⟩ := exists_letter hs
  have hname : s ∉ Keyword.typeNames := disjoint hc hs
  have hlocal : Keyword.isLocalName s = false := by
    unfold Keyword.isLocalName
    split
    · next h => exact absurd (List.cons.inj (hlist.symm.trans h)).1 (head_ne hl (by decide))
    · rfl
  have hinteger : Keyword.isIntegerType s = false := by
    unfold Keyword.isIntegerType
    split
    · next d ds h =>
      obtain ⟨rfl, rfl⟩ := List.cons.inj (hlist.symm.trans h)
      exact hwidth rfl (by simp)
    · rfl
  have hbracket (d : Char) (hd : ¬('a' ≤ d ∧ d ≤ 'z')) : s ≠ String.ofList [d] := by
    rintro rfl
    rw [String.toList_ofList] at hlist
    exact head_ne hl hd (List.cons.inj hlist).1.symm
  have hopen : s ≠ "[" ∧ s ≠ "\x7b" ∧ s ≠ "<" :=
    ⟨hbracket '[' (by decide), hbracket '\x7b' (by decide), hbracket '<' (by decide)⟩
  simp [Ty.opens, Keyword.isTypeWord, hlocal, hinteger, hname, hopen]

theorem isAsciiDigit_letter {l : Char} (hl : 'a' ≤ l ∧ l ≤ 'z') : isAsciiDigit l = false := by
  by_contra h
  simp only [isAsciiDigit, Bool.not_eq_false, Bool.and_eq_true, decide_eq_true_eq] at h
  exact absurd (Char.le_trans hl.1 h.2) (by decide)

theorem isSimpleValue_eq_false (hs : s ∈ c.words) (hc : c ≠ literal) :
    Reader.isSimpleValue s = false := by
  obtain ⟨l, cs, hlist, hl, hplain, -⟩ := exists_letter hs
  have hliteral : s ∉ Reader.literals := disjoint hc hs
  have hregister : Operand.isRegister s = false := by
    simp only [Operand.isRegister, hlist]
    split
    · next h =>
      obtain ⟨rfl, -⟩ := List.cons.inj h
      simp [head_ne hl (d := '%') (by decide), head_ne hl (d := '@') (by decide)]
    · rfl
  have hnumber : Keyword.isNumber s = false := by
    simp only [Keyword.isNumber, hlist]
    split
    · next h => exact absurd (List.cons.inj h).1 (head_ne hl (by decide))
    · next h =>
      obtain ⟨rfl, -⟩ := List.cons.inj h
      exact isAsciiDigit_letter hl
    · next h => cases h
  have hchars : startsWith s "c\"" = false := by
    have hprefix : "c\"".toList = ['c', '"'] := String.toList_ofList
    by_contra h
    rw [Bool.not_eq_false, startsWith, hlist, hprefix, List.isPrefixOf_iff_prefix] at h
    obtain ⟨rest, hrest⟩ := h
    obtain ⟨rfl, rfl⟩ := List.cons.inj hrest
    simp [isPlain, isNameChar] at hplain
  simp [Reader.isSimpleValue, hregister, hnumber, hchars, hliteral]

-- A word of one class, what opens a type and what is a value do not belong to other classes.
theorem contains_of_mem (hcd : c ≠ d) (hs : s ∈ c.words) : d.words.contains s = false := by
  simpa using disjoint hcd hs

theorem contains_of_opens (hd : d ≠ typeName) (hs : Ty.opens s = true) :
    d.words.contains s = false := by
  rw [List.contains_eq_mem, decide_eq_false_iff_not]
  intro hmem
  rw [opens_eq_false hmem hd] at hs
  cases hs

theorem contains_of_simple (hd : d ≠ literal) (hs : Reader.isSimpleValue s = true) :
    d.words.contains s = false := by
  rw [List.contains_eq_mem, decide_eq_false_iff_not]
  intro hmem
  rw [isSimpleValue_eq_false hmem hd] at hs
  cases hs

-- A number is no type.
theorem isTypeWord_repr (n : Nat) : Keyword.isTypeWord n.repr = false := by
  obtain ⟨d, ds, hds, hall⟩ := digits_repr n
  simp only [List.all_cons, Bool.and_eq_true] at hall
  have hlocal : Keyword.isLocalName n.repr = false := by
    unfold Keyword.isLocalName
    split
    · next h => exact absurd (List.cons.inj (hds.symm.trans h)).1 (ne_of_isAsciiDigit hall.1 rfl)
    · rfl
  have hinteger : Keyword.isIntegerType n.repr = false := by
    unfold Keyword.isIntegerType
    split
    · next h => exact absurd (List.cons.inj (hds.symm.trans h)).1 (ne_of_isAsciiDigit hall.1 rfl)
    · rfl
  have hname : n.repr ∉ Keyword.typeNames := by
    intro hmem
    obtain ⟨l, cs, hlist, hl, -, -⟩ := exists_letter (c := typeName) hmem
    obtain ⟨rfl, -⟩ := List.cons.inj (hds.symm.trans hlist)
    rw [isAsciiDigit_letter hl] at hall
    cases hall.1
  simp [Keyword.isTypeWord, hlocal, hinteger, hname]

end WordClass

-- A word of one of some classes.
structure Word (classes : List WordClass) where
  text : String
  known : text ∈ classes.flatMap WordClass.words

namespace Word

variable {classes : List WordClass} (w : Word classes)

theorem exists_mem : ∃ c ∈ classes, w.text ∈ c.words :=
  List.mem_flatMap.mp w.known

theorem mem_words {c : WordClass} (w : Word [c]) : w.text ∈ c.words := by
  simpa using w.known

@[simp]
theorem isWord : IsWord w.text := by
  obtain ⟨c, -, hc⟩ := w.exists_mem
  exact WordClass.isWord_of_mem hc

@[simp]
theorem isWord_of_mem_map {ws : List (Word classes)} {s : String} (hs : s ∈ ws.map text) :
    IsWord s := by
  obtain ⟨w, -, rfl⟩ := List.mem_map.mp hs
  exact w.isWord

theorem not_mem_words {d : WordClass} (hd : d ∉ classes) : w.text ∉ d.words := by
  obtain ⟨c, hc, hw⟩ := w.exists_mem
  exact WordClass.disjoint (by rintro rfl; exact hd hc) hw

theorem opens_eq_false (hclasses : .typeName ∉ classes) : Ty.opens w.text = false := by
  obtain ⟨c, hc, hw⟩ := w.exists_mem
  exact WordClass.opens_eq_false hw (by rintro rfl; exact hclasses hc)

theorem isSimpleValue_eq_false (hclasses : .literal ∉ classes) :
    Reader.isSimpleValue w.text = false := by
  obtain ⟨c, hc, hw⟩ := w.exists_mem
  exact WordClass.isSimpleValue_eq_false hw (by rintro rfl; exact hclasses hc)

theorem startsWithChar_eq_false {d : Char} (hd : ¬('a' ≤ d ∧ d ≤ 'z')) :
    startsWithChar w.text d = false := by
  obtain ⟨c, -, hw⟩ := w.exists_mem
  exact startsWithChar_of_isKeyword (WordClass.isKeyword_of_mem hw) hd

end Word

theorem isKeyword_functionAttribute {s : String} (hs : s ∈ Keyword.functionAttributes) :
    isKeyword s.toList = true := by
  have hspelled : ∃ css, Spelled Keyword.functionAttributes css ∧ css.all isKeyword = true := by
    apply Exists.intro
    apply And.intro
    · repeat constructor
    · decide
  obtain ⟨css, hcss, hkeyword⟩ := hspelled
  exact hcss.isKeyword hkeyword hs

theorem isWord_functionAttribute {s : String} (hs : s ∈ Keyword.functionAttributes) : IsWord s := by
  obtain ⟨l, cs, hlist, -, hplain, -⟩ :=
    exists_letter_of_isKeyword (isKeyword_functionAttribute hs)
  exact isWord_of_toList hlist hplain

def predicates : List String :=
  Keyword.integerPredicates ++ Keyword.floatPredicates

variable {s : String}

theorem isWord_predicate (hs : s ∈ predicates) : IsWord s := by
  have hspelled : ∃ css, Spelled predicates css ∧ css.all isPlain = true := by
    apply Exists.intro
    apply And.intro
    · repeat constructor
    · decide
  obtain ⟨css, hcss, hplain⟩ := hspelled
  exact hcss.isWord hplain hs

theorem not_mem_words_of_predicate (hs : s ∈ predicates) :
    ∀ c ∈ [WordClass.overflow, .fastMath, .pointerFlag, .mark], s ∉ c.words := by
  revert s
  decide

theorem head?_type {P : Option String → Prop} (hopens : ∀ s, Ty.opens s = true → P (some s))
    (t : Ty) (rest : List Piece) : P (texts (t.pieces ++ rest)).head? := by
  obtain ⟨s, ss, hs, hs'⟩ := t.exists_opening
  simpa [hs] using hopens s hs'

-- No type begins with the mark of metadata.
theorem Ty.startsWithChar_of_opens (hs : Ty.opens s = true) : startsWithChar s '!' = false := by
  simp only [opens, Keyword.isTypeWord, Bool.or_eq_true, List.contains_iff_mem] at hs
  rcases hs with ((hlocal | hinteger) | hname) | hbracket
  · unfold Keyword.isLocalName at hlocal
    split at hlocal
    · next h => simp [startsWithChar, h]
    · cases hlocal
  · unfold Keyword.isIntegerType at hinteger
    split at hinteger
    · next h => simp [startsWithChar, h]
    · cases hinteger
  · exact startsWithChar_of_isKeyword (WordClass.isKeyword_of_mem (c := .typeName) hname)
      (by decide)
  · revert s
    decide

end Grammar

namespace Reader

open Grammar

-- The word that comes next, if there is one, is not of the class.
def Lacks (d : WordClass) (next : Option String) : Prop :=
  next.any d.words.contains = false

theorem lacks_type {d : WordClass} (hd : d ≠ .typeName) (t : Ty) (rest : List Piece) :
    Lacks d (texts (t.pieces ++ rest)).head? :=
  head?_type (P := Lacks d) (fun _ => WordClass.contains_of_opens hd) t rest

theorem lacks_of_not_isKeyword {s : String} (hs : isKeyword s.toList = false) (d : WordClass) :
    Lacks d (some s) := by
  rw [Lacks, Option.any_some, List.contains_eq_mem, decide_eq_false_iff_not]
  intro hmem
  rw [WordClass.isKeyword_of_mem hmem] at hs
  cases hs

theorem lacks_spaced {d e : WordClass} (hd : d ≠ e) (ws : List (Word [e])) {rest : List Piece}
    (hrest : Lacks d (texts rest).head?) :
    Lacks d (texts (spaced (ws.map (·.text)) ++ rest)).head? := by
  cases ws with
  | nil => exact hrest
  | cons w ws => simpa [Lacks] using WordClass.disjoint hd.symm w.mem_words

theorem eatIf_optional {d : WordClass} {p : String → Bool} (hp : p = d.words.contains)
    (o : Option (Word [d])) (read : List Piece) {rest : List Piece}
    (hrest : Lacks d (texts rest).head?) :
    eatIf p (between read (spaced (o.toList.map (·.text)) ++ rest)) =
      .ok (o.map (·.text)) (between (read ++ spaced (o.toList.map (·.text))) rest) := by
  subst hp
  cases o with
  | none => simpa using eatIf_of_not _ hrest
  | some w => simp [w.mem_words]

end Reader

end TestFocus
