import TestFocus.Proofs.Reading.AttributeText

namespace TestFocus

open Lexer Text Piece Cursor

namespace Grammar

-- `fastcc`, `cc 10` and the like
inductive Convention where
  | named (word : Word [.convention]) (is_named : word.text ≠ "cc")
  | numbered (n : Nat)

namespace Convention

def pieces : Convention → List Piece
  | named w _ => [word w.text]
  | numbered n => [word "cc", space, word n.repr]

def text (c : Convention) : String :=
  print c.pieces

-- A convention with a space behind it, or nothing.
def optional : Option Convention → List Piece
  | none => []
  | some c => c.pieces ++ [space]

theorem isWord_cc : IsWord "cc" :=
  isWord_ofList rfl

@[simp]
theorem apart_optional_append (c : Option Convention) {ps : List Piece} :
    Apart (optional c ++ ps) ↔ Apart ps := by
  cases c with
  | none => simp [optional]
  | some c => cases c <;> simp [optional, pieces, isWord_cc]

theorem head?_optional {P : Option String → Prop}
    (hwords : ∀ s ∈ WordClass.convention.words, P (some s)) (c : Option Convention)
    {rest : List Piece} (hrest : P (texts rest).head?) : P (texts (optional c ++ rest)).head? := by
  cases c with
  | none => exact hrest
  | some c =>
    cases c with
    | named w is_named => simpa [optional, pieces] using hwords _ w.mem_words
    | numbered n =>
      have hcc : "cc" ∈ WordClass.convention.words := by
        simp [WordClass.words, Keyword.callingConventions]
      simpa [optional, pieces] using hwords _ hcc

end Convention

-- An address space with a space behind it, or nothing.
def optionalSpace : Option Nat → List Piece
  | none => []
  | some n => addressSpace n ++ [space]

@[simp]
theorem apart_optionalSpace_append (n : Option Nat) {ps : List Piece} :
    Apart (optionalSpace n ++ ps) ↔ Apart ps := by
  cases n <;> simp [optionalSpace, addressSpace]

theorem head?_optionalSpace {P : Option String → Prop} (hspace : P (some "addrspace"))
    (n : Option Nat) {rest : List Piece} (hrest : P (texts rest).head?) :
    P (texts (optionalSpace n ++ rest)).head? := by
  cases n with
  | none => exact hrest
  | some n => simpa [optionalSpace, addressSpace] using hspace

theorem isWord_parameterAttribute {s : String} (hs : s ∈ Keyword.parameterAttributes) : IsWord s :=
  WordClass.isWord_of_mem (c := .parameterAttribute) hs

@[simp]
theorem apart_allBefore {as : List (Attribute Keyword.parameterAttributes)} {ps : List Piece} :
    Apart (Attribute.allBefore as ++ ps) ↔ Apart ps :=
  Attribute.apart_allBefore_append fun _ => isWord_parameterAttribute

end Grammar

namespace Reader

open Grammar

section Lacks

variable {d : WordClass} {rest : List Piece}

theorem lacks_optionalSpace (hd : d ≠ .mark) (n : Option Nat)
    (hrest : Lacks d (texts rest).head?) : Lacks d (texts (optionalSpace n ++ rest)).head? :=
  head?_optionalSpace (P := Lacks d)
    (WordClass.contains_of_mem (c := .mark) hd.symm (by simp [WordClass.words])) n hrest

theorem lacks_allBefore (hd : d ≠ .parameterAttribute)
    (as : List (Attribute Keyword.parameterAttributes)) (hrest : Lacks d (texts rest).head?) :
    Lacks d (texts (Attribute.allBefore as ++ rest)).head? :=
  Attribute.head?_allBefore (P := Lacks d)
    (fun _ => WordClass.contains_of_mem (c := .parameterAttribute) hd.symm) as hrest

theorem lacks_convention (hd : d ≠ .convention) (c : Option Convention)
    (hrest : Lacks d (texts rest).head?) : Lacks d (texts (Convention.optional c ++ rest)).head? :=
  Convention.head?_optional (P := Lacks d)
    (fun _ => WordClass.contains_of_mem (c := .convention) hd.symm) c hrest

end Lacks

theorem callingConvention_between (c : Option Convention) (read : List Piece) {rest : List Piece}
    (hrest : (texts rest).head?.any Keyword.isCallingConvention = false) :
    callingConvention (between read (Convention.optional c ++ rest)) =
      .ok (c.map (·.text)) (between (read ++ Convention.optional c) rest) := by
  cases c with
  | none =>
    have hcc : (texts rest).head? ≠ some "cc" := by
      intro h
      rw [h] at hrest
      exact absurd hrest (by decide)
    simp [callingConvention, Convention.optional, hcc, eatIf_of_not _ hrest]
  | some c =>
    cases c with
    | named w is_named =>
      have hknown : Keyword.isCallingConvention w.text = true := by
        simpa [Keyword.isCallingConvention, WordClass.words] using w.mem_words
      simp [callingConvention, Convention.optional, Convention.pieces, Convention.text, is_named,
        hknown]
    | numbered n =>
      have hread (rest : List Piece) :
          covered (do discard advance; discard (next "calling convention number"))
            (between read ([word "cc", space, word n.repr] ++ rest)) =
              .ok (print [word "cc", space, word n.repr])
                (between (read ++ [word "cc", space, word n.repr]) rest) := by
        refine covered_of_ok ((solid_token _ _).append (solid_token _ _) [space]) ?_
        simp
      simp only [List.cons_append, List.nil_append] at hread
      simp [callingConvention, Convention.optional, Convention.pieces, Convention.text, hread]

theorem addressSpace_some (n : Nat) (read rest : List Piece) :
    addressSpace (between read (Grammar.addressSpace n ++ rest)) =
      .ok (some (print (Grammar.addressSpace n)))
        (between (read ++ Grammar.addressSpace n) rest) := by
  have hclose : Bracket.closer? "(" = some ")" := rfl
  have hskip := skipGroup_balanced (read ++ [word "addrspace"]) rest hclose
    (balanced_word n.repr .nil)
  have hread : covered (do discard advance; skipGroup)
      (between read (Grammar.addressSpace n ++ rest)) =
        .ok (print (Grammar.addressSpace n)) (between (read ++ Grammar.addressSpace n) rest) := by
    refine covered_of_ok ((solid_token _ _).append (solid_token _ _) [punct "(", word n.repr]) ?_
    simp [Grammar.addressSpace] at hskip ⊢
    simp [hskip]
  simp [Grammar.addressSpace] at hread
  simp [addressSpace, Grammar.addressSpace, hread]

theorem addressSpace_none {rest : List Piece} (read : List Piece)
    (hrest : (texts rest).head? ≠ some "addrspace") :
    addressSpace (between read rest) = .ok none (between read rest) := by
  simp [addressSpace, hrest]

theorem addressSpace_between (n : Option Nat) (read : List Piece) {rest : List Piece}
    (hrest : (texts rest).head? ≠ some "addrspace") :
    addressSpace (between read (optionalSpace n ++ rest)) =
      .ok (n.map fun n => print (Grammar.addressSpace n))
        (between (read ++ optionalSpace n) rest) := by
  cases n with
  | none => simpa [optionalSpace] using addressSpace_none read hrest
  | some n => simpa [optionalSpace] using addressSpace_some n read (space :: rest)

-- No suffix of a type begins so.
def NoSuffix (next : Option String) : Prop :=
  ∀ s ∈ next, s ∉ ["*", "(", "addrspace"]

theorem endsType_of_noSuffix {ss : List String} (h : NoSuffix ss.head?) : EndsType ss := by
  cases ss with
  | nil => exact endsType_nil
  | cons s ss =>
    have hs := h s (by simp)
    simp only [List.mem_cons, List.not_mem_nil, or_false, not_or] at hs
    simp [hs]

theorem noSuffix_parameterAttribute {s : String} (hs : s ∈ Keyword.parameterAttributes) :
    NoSuffix (some s) := by
  rintro _ ⟨⟩ hsuffix
  have hdisjoint : ∀ s ∈ ["*", "(", "addrspace"], s ∉ Keyword.parameterAttributes := by
    decide
  exact hdisjoint s hsuffix hs

theorem noSuffix_simple (v : Simple) : NoSuffix (some v.text) := by
  rintro _ ⟨⟩
  simp

-- A type ends in front of attributes and a value.
theorem type_attributes (t : Ty) (as : List (Attribute Keyword.parameterAttributes)) (v : Simple)
    (read rest : List Piece) :
    type (between read (t.pieces ++ space :: (Attribute.allBefore as ++ word v.text :: rest))) =
      .ok t.print (between (read ++ t.pieces)
        (space :: (Attribute.allBefore as ++ word v.text :: rest))) := by
  refine type_between t read _ (endsType_of_noSuffix ?_)
  rw [texts_gap]
  exact Attribute.head?_allBefore (P := NoSuffix) (fun _ => noSuffix_parameterAttribute) as
    (by simpa using noSuffix_simple v)

theorem parameterAttributes_simple (as : List (Attribute Keyword.parameterAttributes)) (v : Simple)
    (read rest : List Piece) :
    parameterAttributes (between read (Attribute.allBefore as ++ word v.text :: rest)) =
      .ok (as.map (·.text))
        (between (read ++ Attribute.allBefore as) (word v.text :: rest)) := by
  have hnone : Keyword.isParameterAttribute v.text = false :=
    v.contains_words (c := .parameterAttribute) (by decide)
  exact parameterAttributes_between as read (by simpa using hnone) (by simp)

end Reader

end TestFocus
