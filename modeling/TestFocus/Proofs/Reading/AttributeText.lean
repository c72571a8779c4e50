import TestFocus.Proofs.Reading.SimpleValue
import TestFocus.Reader.Attribute

namespace TestFocus

open Lexer Text Piece Cursor

namespace Grammar

-- What may stand between parentheses.
structure Group where
  pieces : List Piece
  balanced : Balanced pieces
  apart : Apart pieces

-- The keywords that take a number without parentheses.
def alignments : List String :=
  ["align", "alignstack"]

-- A keyword of a list with its argument, if it has one: `nonnull`, `align 8`, `sret(%T)`.
inductive Attribute (keywords : List String) where
  | bare (keyword : String) (known : keyword ∈ keywords) (is_bare : keyword ∉ alignments)
  | numbered (keyword : String) (known : keyword ∈ keywords) (is_numbered : keyword ∈ alignments)
      (n : Nat)
  | grouped (keyword : String) (known : keyword ∈ keywords) (group : Group)

namespace Attribute

variable {keywords : List String}

def keyword : Attribute keywords → String
  | bare keyword _ _ | numbered keyword _ _ _ | grouped keyword _ _ => keyword

def pieces : Attribute keywords → List Piece
  | bare keyword _ _ => [word keyword]
  | numbered keyword _ _ n => [word keyword, space, word n.repr]
  | grouped keyword _ group => word keyword :: punct "(" :: (group.pieces ++ [punct ")"])

def text (a : Attribute keywords) : String :=
  print a.pieces

theorem known (a : Attribute keywords) : a.keyword ∈ keywords := by
  cases a <;> assumption

theorem exists_pieces (a : Attribute keywords) : ∃ ps, a.pieces = word a.keyword :: ps := by
  cases a <;> exact ⟨_, rfl⟩

theorem apart_pieces (a : Attribute keywords) (ha : IsWord a.keyword) : Apart a.pieces := by
  cases a with
  | bare keyword known is_bare => simp_all [pieces, Attribute.keyword]
  | numbered keyword known is_numbered n => simp_all [pieces, Attribute.keyword]
  | grouped keyword known group => simp_all [pieces, Attribute.keyword, group.apart]

theorem solid_pieces (a : Attribute keywords) : Solid a.pieces := by
  cases a with
  | bare keyword known is_bare => exact solid_token _ _
  | numbered keyword known is_numbered n => exact (solid_token _ _).append (solid_token _ _) [space]
  | grouped keyword known group =>
    exact (solid_token _ _).append (solid_token _ _) (punct "(" :: group.pieces)

-- Attributes with a space behind each.
def allBefore (as : List (Attribute keywords)) : List Piece :=
  as.flatMap fun a => a.pieces ++ [space]

@[simp]
theorem allBefore_nil : allBefore ([] : List (Attribute keywords)) = [] := rfl

@[simp]
theorem allBefore_cons (a : Attribute keywords) (as : List (Attribute keywords)) :
    allBefore (a :: as) = a.pieces ++ space :: allBefore as := by
  simp [allBefore]

-- What the attributes begin with, or what follows them.
theorem head?_allBefore {P : Option String → Prop} (hkeywords : ∀ s ∈ keywords, P (some s))
    (as : List (Attribute keywords)) {rest : List Piece} (hrest : P (texts rest).head?) :
    P (texts (allBefore as ++ rest)).head? := by
  cases as with
  | nil => exact hrest
  | cons a as =>
    obtain ⟨ps, hps⟩ := a.exists_pieces
    simpa [hps] using hkeywords _ a.known

theorem length_le_allBefore (as : List (Attribute keywords)) :
    as.length ≤ (texts (allBefore as)).length := by
  induction as with
  | nil => simp
  | cons a as ih =>
    obtain ⟨ps, hps⟩ := a.exists_pieces
    simp only [allBefore_cons, hps, List.cons_append, texts_token, texts_append, texts_gap,
      List.length_cons, List.length_append]
    omega

theorem apart_allBefore_append {as : List (Attribute keywords)} (has : ∀ s ∈ keywords, IsWord s)
    {ps : List Piece} : Apart (allBefore as ++ ps) ↔ Apart ps := by
  induction as with
  | nil => simp
  | cons a as ih => simp [a.apart_pieces (has _ a.known), ih]

end Attribute

-- `#0`, a keyword with its argument, `"key"` or `"key"="value"`
inductive FunctionAttribute where
  | group (n : Nat)
  | keyword (a : Attribute Keyword.functionAttributes)
  | single (name : Quoted)
  | pair (name value : Quoted)

namespace FunctionAttribute

def pieces : FunctionAttribute → List Piece
  | group n => [word ("#" ++ n.repr)]
  | keyword a => a.pieces
  | single name => [name.piece]
  | pair name value => [name.piece, punct "=", value.piece]

def text (f : FunctionAttribute) : String :=
  print f.pieces

-- Attributes with a space before each.
def allAfter (fs : List FunctionAttribute) : List Piece :=
  fs.flatMap fun f => space :: f.pieces

theorem isWord_group (n : Nat) : IsWord ("#" ++ n.repr) :=
  isWord_numbered rfl n

theorem apart_pieces (f : FunctionAttribute) : Apart f.pieces := by
  cases f with
  | group n => simp [pieces, isWord_group]
  | keyword a => exact a.apart_pieces (isWord_functionAttribute a.known)
  | single name => simp [pieces, name.closed]
  | pair name value => simp [pieces, name.closed, value.closed]

theorem solid_pieces (f : FunctionAttribute) : Solid f.pieces := by
  cases f with
  | group n => exact solid_token _ _
  | keyword a => exact a.solid_pieces
  | single name => exact solid_token _ _
  | pair name value => exact (solid_token _ _).append (solid_token _ _) [punct "="]

-- Can an attribute of a function begin so?
def Opens (s : String) : Prop :=
  s ∈ Keyword.functionAttributes ∨ startsWithChar s '#' = true ∨ startsWithChar s '"' = true

instance (s : String) : Decidable (Opens s) :=
  inferInstanceAs (Decidable (_ ∨ _ ∨ _))

theorem exists_opening (f : FunctionAttribute) : ∃ s ss, texts f.pieces = s :: ss ∧ Opens s := by
  have hquote (body : List Char) : startsWithChar (quote body) '"' = true := by
    simp [startsWithChar, quote]
  cases f with
  | group n => exact ⟨"#" ++ n.repr, [], by simp [pieces], .inr (.inl (by simp [startsWithChar]))⟩
  | keyword a =>
    obtain ⟨ps, hps⟩ := a.exists_pieces
    exact ⟨a.keyword, texts ps, by simp [pieces, hps], .inl a.known⟩
  | single name => exact ⟨quote name.body, _, by simp [pieces]; rfl, .inr (.inr (hquote _))⟩
  | pair name value => exact ⟨quote name.body, _, by simp [pieces]; rfl, .inr (.inr (hquote _))⟩

@[simp]
theorem allAfter_nil : allAfter [] = [] := rfl

@[simp]
theorem allAfter_cons (f : FunctionAttribute) (fs : List FunctionAttribute) :
    allAfter (f :: fs) = space :: (f.pieces ++ allAfter fs) := by
  simp [allAfter]

theorem length_le_allAfter (fs : List FunctionAttribute) :
    fs.length ≤ (texts (allAfter fs)).length := by
  induction fs with
  | nil => simp
  | cons f fs ih =>
    obtain ⟨kind, s, ps, hps⟩ := f.solid_pieces.exists_head
    simp only [allAfter_cons, hps, List.cons_append, texts_token, texts_append, texts_gap,
      List.length_cons, List.length_append]
    omega

@[simp]
theorem detached_allAfter_append {fs : List FunctionAttribute} {ps : List Piece}
    (hps : Detached ps) : Detached (allAfter fs ++ ps) := by
  cases fs with
  | nil => simpa using hps
  | cons f fs => simp

@[simp]
theorem apart_allAfter_append {fs : List FunctionAttribute} {ps : List Piece} (hps : Detached ps) :
    Apart (allAfter fs ++ ps) ↔ Apart ps := by
  induction fs with
  | nil => simp
  | cons f fs ih => simp [f.apart_pieces, hps, ih]

end FunctionAttribute

end Grammar

namespace Reader

open Grammar

variable {keywords : List String}

theorem keywordAttribute_between (a : Attribute keywords) (read rest : List Piece)
    (hrest : (texts rest).head? ≠ some "(") :
    keywordAttribute (between read (a.pieces ++ rest)) =
      .ok a.text (between (read ++ a.pieces) rest) := by
  refine covered_of_ok a.solid_pieces ?_
  cases a with
  | bare keyword known is_bare =>
    simp only [alignments, List.mem_cons, List.not_mem_nil, or_false, not_or] at is_bare
    simp [Attribute.pieces, hrest, is_bare, placed]
  | numbered keyword known is_numbered n =>
    simp only [alignments, List.mem_cons, List.not_mem_nil, or_false] at is_numbered
    have hparen : n.repr ≠ "(" := by
      intro h
      have := isNumber_repr n
      rw [h] at this
      exact absurd this (by decide)
    simp [Attribute.pieces, hparen, is_numbered, isNumber_repr, placed]
  | grouped keyword known group =>
    have hclose : Bracket.closer? "(" = some ")" := rfl
    have hskip := skipGroup_balanced (read ++ [word keyword]) rest hclose group.balanced
    simp at hskip
    simp [Attribute.pieces, hskip]

-- The attributes of a parameter end where the next token is not one.
theorem parameterAttributesWithin_end {rest : List Piece}
    (hrest : (texts rest).head?.any Keyword.isParameterAttribute = false) (rounds : Nat)
    (done : List String) (read : List Piece) :
    parameterAttributesWithin rounds done (between read rest) = .ok done (between read rest) := by
  cases rounds with
  | zero => rfl
  | succ rounds =>
    rw [← peekText?_between read, Cursor.peekText?] at hrest
    cases hpeek : (between read rest).peek? with
    | none => simp [parameterAttributesWithin, hpeek]
    | some t =>
      have ht : Keyword.isParameterAttribute t.text = false := by simpa [hpeek] using hrest
      simp [parameterAttributesWithin, hpeek, ht]

theorem parameterAttributesWithin_between (as : List (Attribute Keyword.parameterAttributes))
    {rest : List Piece} (hrest : (texts rest).head?.any Keyword.isParameterAttribute = false)
    (hparen : (texts rest).head? ≠ some "(") (rounds : Nat) (hrounds : as.length ≤ rounds)
    (done : List String) (read : List Piece) :
    parameterAttributesWithin rounds done (between read (Attribute.allBefore as ++ rest)) =
      .ok (done ++ as.map (·.text)) (between (read ++ Attribute.allBefore as) rest) := by
  induction as generalizing rounds done read with
  | nil => simpa [Attribute.allBefore] using parameterAttributesWithin_end hrest rounds done read
  | cons a as ih =>
    obtain ⟨rounds, rfl⟩ : ∃ k, rounds = k + 1 := ⟨rounds - 1, by simp at hrounds; omega⟩
    obtain ⟨ps, hps⟩ := a.exists_pieces
    have hnext : (texts (space :: (Attribute.allBefore as ++ rest))).head? ≠ some "(" := by
      rw [texts_gap]
      refine Attribute.head?_allBefore (P := (· ≠ some "(")) ?_ as hparen
      rintro s hs ⟨⟩
      exact absurd hs (by decide)
    have hfirst := keywordAttribute_between a read _ hnext
    have hmore := ih rounds (by simpa using hrounds) (done ++ [a.text])
      (read ++ (a.pieces ++ [space]))
    have hknown : Keyword.isParameterAttribute a.keyword = true := by
      simpa [Keyword.isParameterAttribute] using a.known
    have hpeek : (between read (a.pieces ++ space :: (Attribute.allBefore as ++ rest))).peek? =
        some (placed read .word a.keyword) := by
      rw [hps, List.cons_append, peek?_between_token]
    simp only [Attribute.allBefore_cons, List.append_assoc, List.cons_append, between_gap,
      List.nil_append] at hfirst hmore hpeek ⊢
    simp [parameterAttributesWithin, hpeek, placed, Token.isWord, hknown, hfirst, hmore]

theorem parameterAttributes_between (as : List (Attribute Keyword.parameterAttributes))
    (read : List Piece) {rest : List Piece}
    (hrest : (texts rest).head?.any Keyword.isParameterAttribute = false)
    (hparen : (texts rest).head? ≠ some "(") :
    parameterAttributes (between read (Attribute.allBefore as ++ rest)) =
      .ok (as.map (·.text)) (between (read ++ Attribute.allBefore as) rest) := by
  have hrounds : as.length ≤ (texts (Attribute.allBefore as ++ rest)).length := by
    have := Attribute.length_le_allBefore as
    rw [texts_append, List.length_append]
    omega
  simp only [parameterAttributes, bind_apply, get_apply, remaining_between]
  exact parameterAttributesWithin_between as hrest hparen _ hrounds [] read

-- What follows the attributes of a function is none of them, and no argument of one.
def EndsAttributes (ps : List Piece) : Prop :=
  ∀ t ∈ next? ps, t.1 ≠ .string ∧ startsWithChar t.2 '#' = false ∧
    Keyword.isFunctionAttribute t.2 = false ∧ t.2 ≠ "(" ∧ t.2 ≠ "="

theorem functionAttributesWithin_end {rest : List Piece} (hrest : EndsAttributes rest)
    (rounds : Nat) (done : List String) (read : List Piece) :
    functionAttributesWithin rounds done (between read rest) = .ok done (between read rest) := by
  cases rounds with
  | zero => rfl
  | succ rounds =>
    have hnext := map_peek?_between read rest
    cases hpeek : (between read rest).peek? with
    | none => simp [functionAttributesWithin, hpeek]
    | some t =>
      rw [hpeek] at hnext
      obtain ⟨hkind, hhash, hknown, -, -⟩ := hrest _ hnext.symm
      simp [functionAttributesWithin, hpeek, hkind, hhash, hknown]

theorem functionAttributesWithin_one (f : FunctionAttribute) (read : List Piece) {rest : List Piece}
    (hparen : (texts rest).head? ≠ some "(") (hequals : (texts rest).head? ≠ some "=")
    (rounds : Nat) (done : List String) :
    functionAttributesWithin (rounds + 1) done (between read (f.pieces ++ rest)) =
      functionAttributesWithin rounds (done ++ [f.text]) (between (read ++ f.pieces) rest) := by
  cases f with
  | group n =>
    have hhash : startsWithChar ("#" ++ n.repr) '#' = true := by simp [startsWithChar]
    have htext : (FunctionAttribute.group n).text = "#" ++ n.repr := by
      simp [FunctionAttribute.text, FunctionAttribute.pieces]
    simp [functionAttributesWithin, FunctionAttribute.pieces, placed, Token.isWord, hhash, htext]
  | keyword a =>
    obtain ⟨ps, hps⟩ := a.exists_pieces
    have hknown : Keyword.isFunctionAttribute a.keyword = true := by
      simpa [Keyword.isFunctionAttribute] using a.known
    have hhash : startsWithChar a.keyword '#' = false :=
      startsWithChar_of_isKeyword (isKeyword_functionAttribute a.known) (by decide)
    have hread := keywordAttribute_between a read rest hparen
    have hpeek : (between read (a.pieces ++ rest)).peek? = some (placed read .word a.keyword) := by
      rw [hps, List.cons_append, peek?_between_token]
    have htext : (FunctionAttribute.keyword a).text = a.text := rfl
    simp [functionAttributesWithin, FunctionAttribute.pieces, hpeek, placed, Token.isWord, hhash,
      hknown, hread, htext]
  | single name =>
    have hread : stringAttribute (between read ([name.piece] ++ rest)) =
        .ok (print [name.piece]) (between (read ++ [name.piece]) rest) := by
      refine covered_of_ok (solid_token _ _) ?_
      simp [eat_of_ne hequals]
    simp at hread
    simp [functionAttributesWithin, FunctionAttribute.pieces, FunctionAttribute.text, placed,
      Token.isWord, hread]
  | pair name value =>
    have hread : stringAttribute (between read ([name.piece, punct "=", value.piece] ++ rest)) =
        .ok (print [name.piece, punct "=", value.piece])
          (between (read ++ [name.piece, punct "=", value.piece]) rest) := by
      refine covered_of_ok ((solid_token _ _).append (solid_token _ _) [punct "="]) ?_
      simp
    simp at hread
    simp [functionAttributesWithin, FunctionAttribute.pieces, FunctionAttribute.text, placed,
      Token.isWord, hread]

theorem head?_allAfter {P : Option String → Prop}
    (hopens : ∀ s, FunctionAttribute.Opens s → P (some s)) (fs : List FunctionAttribute)
    {rest : List Piece} (hrest : P (texts rest).head?) :
    P (texts (FunctionAttribute.allAfter fs ++ rest)).head? := by
  cases fs with
  | nil => exact hrest
  | cons f fs =>
    obtain ⟨s, ss, hs, hs'⟩ := f.exists_opening
    simpa [hs] using hopens s hs'

theorem head?_allAfter_ne {s : String} (hs : ¬FunctionAttribute.Opens s)
    (fs : List FunctionAttribute) {rest : List Piece} (hrest : (texts rest).head? ≠ some s) :
    (texts (FunctionAttribute.allAfter fs ++ rest)).head? ≠ some s := by
  refine head?_allAfter (P := (· ≠ some s)) (fun t ht => ?_) fs hrest
  rintro ⟨⟩
  exact hs ht

theorem EndsAttributes.head?_ne {rest : List Piece} (hrest : EndsAttributes rest) :
    (texts rest).head? ≠ some "(" ∧ (texts rest).head? ≠ some "=" := by
  rw [head?_texts]
  cases hnext : next? rest with
  | none => simp
  | some t =>
    obtain ⟨-, -, -, hparen, hequals⟩ := hrest t hnext
    simp [hparen, hequals]

theorem functionAttributesWithin_between (fs : List FunctionAttribute) {rest : List Piece}
    (hrest : EndsAttributes rest) (rounds : Nat) (hrounds : fs.length ≤ rounds)
    (done : List String) (read : List Piece) :
    functionAttributesWithin rounds done (between read (FunctionAttribute.allAfter fs ++ rest)) =
      .ok (done ++ fs.map (·.text)) (between (read ++ FunctionAttribute.allAfter fs) rest) := by
  induction fs generalizing rounds done read with
  | nil => simpa using functionAttributesWithin_end hrest rounds done read
  | cons f fs ih =>
    obtain ⟨rounds, rfl⟩ : ∃ k, rounds = k + 1 := ⟨rounds - 1, by simp at hrounds; omega⟩
    have hparen := head?_allAfter_ne (by decide) fs hrest.head?_ne.1
    have hequals := head?_allAfter_ne (by decide) fs hrest.head?_ne.2
    have hmore := ih rounds (by simpa using hrounds) (done ++ [f.text])
      (read ++ (space :: f.pieces))
    simp only [List.append_assoc, List.cons_append] at hmore
    simp [functionAttributesWithin_one f _ hparen hequals, hmore]

theorem functionAttributes_between (fs : List FunctionAttribute) (read : List Piece)
    {rest : List Piece} (hrest : EndsAttributes rest) :
    functionAttributes (between read (FunctionAttribute.allAfter fs ++ rest)) =
      .ok (fs.map (·.text)) (between (read ++ FunctionAttribute.allAfter fs) rest) := by
  have hrounds : fs.length ≤ (texts (FunctionAttribute.allAfter fs ++ rest)).length := by
    have := FunctionAttribute.length_le_allAfter fs
    rw [texts_append, List.length_append]
    omega
  simp only [functionAttributes, bind_apply, get_apply, remaining_between]
  exact functionAttributesWithin_between fs hrest _ hrounds [] read

end Reader

end TestFocus
