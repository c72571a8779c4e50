import TestFocus.Proofs.Comments.Line
import Mathlib.Data.List.Basic
import Mathlib.Data.Option.Defs

namespace TestFocus

open Text Line

theorem rel_cases {α β : Type} {R : α → β → Prop} {x : Option α} {y : Option β}
    (h : Option.Rel R x y) : x = none ∧ y = none ∨ ∃ a b, x = some a ∧ y = some b ∧ R a b := by
  cases h with
  | none => exact .inl ⟨rfl, rfl⟩
  | some hab => exact .inr ⟨_, _, rfl, rfl, hab⟩

-- A text with the characters that are added to it marked.
abbrev Padded := List (Char × Bool)

namespace Padded

-- The text without what is added.
def bare (w : Padded) : List Char :=
  (w.filter (!·.2)).map (·.1)

-- The text with what is added.
def full (w : Padded) : List Char :=
  w.map (·.1)

-- A text to which nothing is added.
def ofList (cs : List Char) : Padded :=
  cs.map (·, false)

section Texts

variable (u v : Padded)

@[simp]
theorem bare_append : bare (u ++ v) = bare u ++ bare v := by
  simp [bare]

@[simp]
theorem full_append : full (u ++ v) = full u ++ full v := by
  simp [full]

@[simp]
theorem bare_nil : bare [] = [] := rfl

@[simp]
theorem full_nil : full [] = [] := rfl

@[simp]
theorem bare_cons_false (c : Char) : bare ((c, false) :: u) = c :: bare u := rfl

@[simp]
theorem bare_cons_true (c : Char) : bare ((c, true) :: u) = bare u := rfl

@[simp]
theorem full_cons (c : Char) (added : Bool) : full ((c, added) :: u) = c :: full u := rfl

@[simp]
theorem bare_ofList (cs : List Char) : bare (ofList cs) = cs := by
  induction cs with
  | nil => rfl
  | cons c cs ih => exact congrArg (c :: ·) ih

@[simp]
theorem full_ofList (cs : List Char) : full (ofList cs) = cs := by
  induction cs with
  | nil => rfl
  | cons c cs ih => exact congrArg (c :: ·) ih

end Texts

-- Does the text end in a blank?
def endsBlank (afterBlank : Bool) : List Char → Bool
  | [] => afterBlank
  | c :: cs => endsBlank (c == ' ') cs

-- What is added are blanks, each directly behind a blank and outside of quotes.
def Loose (inQuotes afterBlank : Bool) : Padded → Prop
  | [] => True
  | (c, added) :: w =>
    (added = true → c = ' ' ∧ inQuotes = false ∧ afterBlank = true) ∧
      Loose (if c == '"' then !inQuotes else inQuotes) (c == ' ') w

variable {inQuotes afterBlank : Bool} {u v w : Padded}

theorem loose_append :
    Loose inQuotes afterBlank (u ++ v) ↔ Loose inQuotes afterBlank u ∧
      Loose (isOpen inQuotes (full u)) (endsBlank afterBlank (full u)) v := by
  induction u generalizing inQuotes afterBlank with
  | nil => simp [Loose, isOpen, endsBlank]
  | cons x u ih =>
    obtain ⟨c, added⟩ := x
    simp only [List.cons_append, Loose, ih, full_cons, isOpen, endsBlank, and_assoc]

theorem loose_ofList (cs : List Char) : Loose inQuotes afterBlank (ofList cs) := by
  induction cs generalizing inQuotes afterBlank with
  | nil => trivial
  | cons c cs ih => exact ⟨nofun, ih⟩

-- Nothing is added in front of the first character that both texts have.
theorem Loose.added_eq_false {c : Char} {added : Bool}
    (hw : Loose inQuotes false ((c, added) :: w)) : added = false := by
  cases added with
  | true => cases (hw.1 rfl).2.2
  | false => rfl

-- Two texts that differ in blanks added behind blanks, outside of quotes.
def Spaced (s s' : String) : Prop :=
  ∃ inQuotes w, Loose inQuotes false w ∧ s = String.ofList (bare w) ∧ s' = String.ofList (full w)

theorem Spaced.refl (s : String) : Spaced s s :=
  ⟨false, ofList s.toList, loose_ofList _, by simp, by simp⟩

-- A start without blanks is a start of both texts, and nothing is added to it.
theorem Loose.exists_append {cs : List Char} (hcs : ' ' ∉ cs) (hw : Loose inQuotes false w)
    (h : cs <+: bare w ∨ cs <+: full w) :
    ∃ v inQuotes', w = ofList cs ++ v ∧ Loose inQuotes' false v := by
  induction cs generalizing inQuotes w with
  | nil => exact ⟨w, inQuotes, rfl, hw⟩
  | cons c cs ih =>
    rw [List.mem_cons, not_or] at hcs
    cases w with
    | nil => simp at h
    | cons x w =>
      obtain ⟨d, added⟩ := x
      obtain rfl := hw.added_eq_false
      obtain ⟨-, hw⟩ := hw
      rw [bare_cons_false, full_cons, List.cons_prefix_cons, List.cons_prefix_cons,
        ← and_or_left] at h
      obtain ⟨rfl, h⟩ := h
      have hblank : (c == ' ') = false := by simpa using Ne.symm hcs.1
      rw [hblank] at hw
      obtain ⟨v, inQuotes', rfl, hv⟩ := ih hcs.2 hw h
      exact ⟨v, inQuotes', rfl, hv⟩

theorem Loose.prefix_iff {cs : List Char} (hcs : ' ' ∉ cs) (hw : Loose inQuotes false w) :
    cs <+: bare w ↔ cs <+: full w := by
  constructor
  · intro h
    obtain ⟨v, -, rfl, -⟩ := hw.exists_append hcs (.inl h)
    simp
  · intro h
    obtain ⟨v, -, rfl, -⟩ := hw.exists_append hcs (.inr h)
    simp

theorem Loose.eq_nil_iff (hw : Loose inQuotes false w) : bare w = [] ↔ full w = [] := by
  cases w with
  | nil => simp
  | cons x w =>
    obtain ⟨c, added⟩ := x
    obtain rfl := hw.added_eq_false
    simp

theorem Loose.eq_iff {cs : List Char} (hcs : ' ' ∉ cs) (hw : Loose inQuotes false w) :
    bare w = cs ↔ full w = cs := by
  constructor
  · intro h
    obtain ⟨v, inQuotes', rfl, hv⟩ := hw.exists_append hcs (.inl (h ▸ List.prefix_refl _))
    have hnil : bare v = [] := by simpa using h
    simp [hv.eq_nil_iff.mp hnil]
  · intro h
    obtain ⟨v, inQuotes', rfl, hv⟩ := hw.exists_append hcs (.inr (h ▸ List.prefix_refl _))
    have hnil : full v = [] := by simpa using h
    simp [hv.eq_nil_iff.mpr hnil]

-- A part without blanks lies in both texts or in neither.
theorem Loose.isInfixOf_eq {c : Char} {cs : List Char} (hcs : ' ' ∉ c :: cs)
    (hw : Loose inQuotes afterBlank w) :
    isInfixOf (c :: cs) (bare w) = isInfixOf (c :: cs) (full w) := by
  induction w generalizing inQuotes afterBlank with
  | nil => rfl
  | cons x w ih =>
    obtain ⟨d, added⟩ := x
    cases added with
    | true =>
      obtain ⟨rfl, -, -⟩ := hw.1 rfl
      have hne : (c == ' ') = false := by
        rw [List.mem_cons, not_or] at hcs
        simpa using Ne.symm hcs.1
      simp [isInfixOf, ih hw.2, List.isPrefixOf, hne]
    | false =>
      have hreal : Loose inQuotes false ((d, false) :: w) := ⟨nofun, hw.2⟩
      have hstart : (c :: cs).isPrefixOf (d :: bare w) = (c :: cs).isPrefixOf (d :: full w) := by
        rw [Bool.eq_iff_iff, List.isPrefixOf_iff_prefix, List.isPrefixOf_iff_prefix]
        exact hreal.prefix_iff hcs
      simp only [bare_cons_false, full_cons, isInfixOf, ih hw.2, hstart]

variable {s s' : String}

theorem Spaced.beq_eq (h : Spaced s s') {t : String} (ht : ' ' ∉ t.toList) :
    (s == t) = (s' == t) := by
  obtain ⟨inQuotes, w, hw, rfl, rfl⟩ := h
  rw [Bool.eq_iff_iff, beq_iff_eq, beq_iff_eq, ← String.toList_inj, ← String.toList_inj,
    String.toList_ofList, String.toList_ofList]
  exact hw.eq_iff ht

theorem Spaced.startsWithChar_eq (h : Spaced s s') (c : Char) :
    startsWithChar s c = startsWithChar s' c := by
  obtain ⟨inQuotes, w, hw, rfl, rfl⟩ := h
  simp only [startsWithChar, String.toList_ofList]
  cases w with
  | nil => rfl
  | cons x w =>
    obtain ⟨d, added⟩ := x
    obtain rfl := hw.added_eq_false
    rfl

theorem Spaced.containsText_eq (h : Spaced s s') {t : String} {c : Char} {cs : List Char}
    (ht : t.toList = c :: cs) (hblank : ' ' ∉ c :: cs) :
    containsText s t = containsText s' t := by
  obtain ⟨inQuotes, w, hw, rfl, rfl⟩ := h
  simp only [containsText, String.toList_ofList, ht]
  exact hw.isInfixOf_eq hblank

theorem Spaced.rel_afterStart? (h : Spaced s s') {start : String} (hstart : ' ' ∉ start.toList) :
    Option.Rel Spaced (afterStart? s start) (afterStart? s' start) := by
  obtain ⟨inQuotes, w, hw, rfl, rfl⟩ := h
  simp only [Text.afterStart?, String.toList_ofList]
  by_cases hprefix : start.toList <+: bare w
  · obtain ⟨v, inQuotes', rfl, hv⟩ := hw.exists_append hstart (.inl hprefix)
    have hrest (cs : List Char) :
        start.toList.isPrefixOf? (start.toList ++ cs) = some cs := by
      rw [List.isPrefixOf?_eq_some_iff_append_eq]
    rw [bare_append, full_append, bare_ofList, full_ofList, hrest, hrest]
    exact .some ⟨inQuotes', v, hv, rfl, rfl⟩
  · have hnone {cs : List Char} (hcs : ¬start.toList <+: cs) :
        start.toList.isPrefixOf? cs = none := by
      by_contra hsome
      obtain ⟨rest, hrest⟩ := Option.ne_none_iff_exists'.mp hsome
      rw [List.isPrefixOf?_eq_some_iff_append_eq] at hrest
      exact hcs ⟨rest, hrest⟩
    rw [hnone hprefix, hnone (mt (hw.prefix_iff hstart).mpr hprefix)]
    exact .none

end Padded

end TestFocus
