import TestFocus.Proofs.Comments.Padding
import TestFocus.Proofs.Reading.Layout
import Mathlib.Data.List.Induction

namespace TestFocus

open Text Line Padded

namespace Padded

variable {inQuotes afterBlank : Bool} {w : Padded}

theorem endsBlank_append (afterBlank : Bool) (cs ds : List Char) :
    endsBlank afterBlank (cs ++ ds) = endsBlank (endsBlank afterBlank cs) ds := by
  induction cs generalizing afterBlank with
  | nil => rfl
  | cons c cs ih => exact ih _

theorem getLast?_of_endsBlank {cs : List Char} (h : endsBlank false cs = true) :
    cs.getLast? = some ' ' := by
  rcases List.eq_nil_or_concat cs with rfl | ⟨cs, c, rfl⟩
  · cases h
  · rw [List.concat_eq_append, endsBlank_append] at h
    rw [List.concat_eq_append, List.getLast?_concat, beq_iff_eq.mp h]

theorem Loose.endsBlank_eq (hw : Loose inQuotes afterBlank w) :
    endsBlank afterBlank (bare w) = endsBlank afterBlank (full w) := by
  induction w generalizing inQuotes afterBlank with
  | nil => rfl
  | cons x w ih =>
    obtain ⟨c, added⟩ := x
    cases added with
    | true =>
      obtain ⟨rfl, -, rfl⟩ := hw.1 rfl
      exact ih hw.2
    | false => exact ih hw.2

theorem Loose.isOpen_eq (hw : Loose inQuotes afterBlank w) :
    isOpen inQuotes (bare w) = isOpen inQuotes (full w) := by
  induction w generalizing inQuotes afterBlank with
  | nil => rfl
  | cons x w ih =>
    obtain ⟨c, added⟩ := x
    cases added with
    | true =>
      obtain ⟨rfl, -, -⟩ := hw.1 rfl
      exact ih hw.2
    | false => exact ih hw.2

-- Both texts end in the same character: in front of an added blank there is another one.
theorem Loose.getLast?_eq (hw : Loose inQuotes false w) :
    (bare w).getLast? = (full w).getLast? := by
  rcases List.eq_nil_or_concat w with rfl | ⟨u, ⟨c, added⟩, rfl⟩
  · rfl
  · rw [List.concat_eq_append, loose_append] at hw
    obtain ⟨hu, hlast, -⟩ := hw
    cases added with
    | true =>
      obtain ⟨rfl, -, hblank⟩ := hlast rfl
      rw [← hu.endsBlank_eq] at hblank
      simp [getLast?_of_endsBlank hblank]
    | false => simp

-- What is dropped at the end of both texts is the same up to added blanks.
theorem Loose.exists_dropEndWhile (p : Char → Bool) (hw : Loose inQuotes false w) :
    ∃ v, v <+: w ∧ dropEndWhile p (bare w) = bare v ∧ dropEndWhile p (full w) = full v := by
  induction w using List.reverseRecOn with
  | nil => exact ⟨[], List.prefix_refl _, rfl, rfl⟩
  | append_singleton u x ih =>
    have hall := hw
    obtain ⟨c, added⟩ := x
    obtain ⟨hu, hlast, -⟩ := loose_append.mp hw
    have hsame (hp : p c = false) (hc : (full (u ++ [(c, added)])).getLast? = some c) :
        ∃ v, v <+: u ++ [(c, added)] ∧ dropEndWhile p (bare (u ++ [(c, added)])) = bare v ∧
          dropEndWhile p (full (u ++ [(c, added)])) = full v := by
      refine ⟨_, List.prefix_refl _, ?_, ?_⟩
      · apply Piece.dropEndWhile_of_getLast?
        rw [hall.getLast?_eq, hc]
        simpa using hp
      · apply Piece.dropEndWhile_of_getLast?
        rw [hc]
        simpa using hp
    cases hp : p c with
    | false => exact hsame hp (by simp)
    | true =>
      obtain ⟨v, hv, hbare, hfull⟩ := ih hu
      have hdrop (cs : List Char) : dropEndWhile p (cs ++ [c]) = dropEndWhile p cs :=
        dropEndWhile_append_of_all (by simpa using hp) cs
      refine ⟨v, hv.trans (List.prefix_append _ _), ?_, ?_⟩
      · cases added with
        | true => simpa using hbare
        | false => rw [bare_append, ← hbare]; exact hdrop _
      · rw [full_append, ← hfull]
        exact hdrop _

theorem Loose.of_prefix {v : Padded} (hw : Loose inQuotes afterBlank w) (h : v <+: w) :
    Loose inQuotes afterBlank v := by
  obtain ⟨u, rfl⟩ := h
  exact (loose_append.mp hw).1

end Padded

-- Two headers that differ in added blanks.
def Headings (s s' : String) : Prop :=
  ∃ w, Loose false false w ∧ '\n' ∉ bare w ∧ s = String.ofList (bare w) ∧
    s' = String.ofList (full w)

theorem headings_refl {s : String} (hline : '\n' ∉ s.toList) : Headings s s :=
  ⟨Padded.ofList s.toList, loose_ofList _, by simpa using hline, by simp, by simp⟩

-- Headers of which more lines may follow; blanks at the end are added only outside of quotes.
def Unclosed (s s' : String) : Prop :=
  ∃ t blanks, Headings s t ∧ s' = t ++ String.ofList (List.replicate blanks ' ') ∧
    (blanks = 0 ∨ IsBalanced s)

theorem Headings.unclosed {s s' : String} (h : Headings s s') : Unclosed s s' :=
  ⟨s', 0, h, by simp, .inl rfl⟩

theorem loose_replicate (blanks : Nat) :
    Loose false true (List.replicate blanks (' ', true)) := by
  induction blanks with
  | zero => trivial
  | succ blanks ih => exact ⟨fun _ => ⟨rfl, rfl, rfl⟩, ih⟩

theorem bare_replicate (blanks : Nat) : bare (List.replicate blanks (' ', true)) = [] := by
  induction blanks with
  | zero => rfl
  | succ blanks ih => exact ih

theorem full_replicate (blanks : Nat) :
    full (List.replicate blanks (' ', true)) = List.replicate blanks ' ' := by
  simp [full]

-- One more line is put to both headers.
theorem Unclosed.append {s s' : String} (h : Unclosed s s') {line : String}
    (hline : '\n' ∉ line.toList) : Headings (s ++ " " ++ line) (s' ++ " " ++ line) := by
  obtain ⟨_, blanks, ⟨w, hw, hnone, rfl, rfl⟩, rfl, hbalanced⟩ := h
  refine ⟨w ++ (' ', false) :: (List.replicate blanks (' ', true) ++ Padded.ofList line.toList),
    ?_, ?_, ?_, ?_⟩
  · have hblanks : Loose (isOpen false (full w)) true (List.replicate blanks (' ', true)) := by
      rcases hbalanced with rfl | hbalanced
      · trivial
      · rw [IsBalanced, String.toList_ofList, hw.isOpen_eq] at hbalanced
        rw [hbalanced]
        exact loose_replicate blanks
    rw [loose_append]
    refine ⟨hw, nofun, ?_⟩
    rw [loose_append]
    exact ⟨hblanks, loose_ofList _⟩
  · simp [bare_replicate, hnone, hline]
  · rw [← String.toList_inj]
    simp [bare_replicate]
  · have hblanks : List.replicate blanks ' ' ++ [' '] = ' ' :: List.replicate blanks ' ' := by
      rw [← List.replicate_succ', List.replicate_succ]
    rw [← String.toList_inj]
    simp only [String.toList_append, String.toList_ofList, full_append, full_cons, full_replicate,
      full_ofList, List.append_assoc]
    have hspace : " ".toList = [' '] := rfl
    rw [← List.append_assoc (List.replicate blanks ' '), hspace, hblanks, List.cons_append]

-- A line without content leaves one more blank at the end of the second header.
theorem Unclosed.append_blank {s s' : String} (h : Unclosed s s') (hbalanced : IsBalanced s) :
    Unclosed s (s' ++ " " ++ "") := by
  obtain ⟨t, blanks, hheadings, rfl, -⟩ := h
  refine ⟨t, blanks + 1, hheadings, ?_, .inr hbalanced⟩
  rw [← String.toList_inj]
  simp [List.replicate_succ']

theorem Headings.endsWithChar_eq {s s' : String} (h : Headings s s') (c : Char) :
    endsWithChar s c = endsWithChar s' c := by
  obtain ⟨w, hw, -, rfl, rfl⟩ := h
  simp only [endsWithChar, String.toList_ofList, hw.getLast?_eq]

theorem endsWithChar_append_blank (s : String) : endsWithChar (s ++ " " ++ "") '\x7b' = false := by
  simp [endsWithChar]

theorem Headings.dropEndWhile {s s' : String} (h : Headings s s') (p : Char → Bool) :
    Headings (String.ofList (Text.dropEndWhile p s.toList))
      (String.ofList (Text.dropEndWhile p s'.toList)) := by
  obtain ⟨w, hw, hline, rfl, rfl⟩ := h
  obtain ⟨v, hv, hbare, hfull⟩ := hw.exists_dropEndWhile p
  refine ⟨v, hw.of_prefix hv, ?_, by simp [hbare], by simp [hfull]⟩
  obtain ⟨u, rfl⟩ := hv
  rw [bare_append, List.mem_append, not_or] at hline
  exact hline.1

theorem Headings.closed {s s' : String} (h : Headings s s') :
    Headings (trimEnd (trimEndChar '\x7b' s)) (trimEnd (trimEndChar '\x7b' s')) :=
  (h.dropEndWhile (· == '\x7b')).dropEndWhile isSpace

-- Where the text ends before the brace, blanks at the end are trimmed away.
theorem Unclosed.closed {s s' : String} (h : Unclosed s s')
    (hopen : endsWithChar s '\x7b' = false) :
    Headings (trimEnd (trimEndChar '\x7b' s)) (trimEnd (trimEndChar '\x7b' s')) := by
  obtain ⟨t, blanks, hheadings, rfl, -⟩ := h
  have hkeep {t : String} (ht : endsWithChar t '\x7b' = false) : trimEndChar '\x7b' t = t := by
    rw [trimEndChar, Piece.dropEndWhile_of_getLast?, String.ofList_toList]
    intro c hc
    rw [endsWithChar, hc] at ht
    simpa using ht
  have hopen' : endsWithChar t '\x7b' = false := by rw [← hheadings.endsWithChar_eq, hopen]
  have htrim : trimEnd (trimEndChar '\x7b' (t ++ String.ofList (List.replicate blanks ' '))) =
      trimEnd t := by
    cases blanks with
    | zero =>
      rw [List.replicate_zero, String.ofList_nil, String.append_empty, hkeep hopen']
    | succ blanks =>
      rw [hkeep (by simp [endsWithChar, List.replicate_succ'])]
      simp only [trimEnd, String.toList_append, String.toList_ofList]
      rw [dropEndWhile_append_of_all]
      intro c hc
      rw [(List.mem_replicate.mp hc).2]
      rfl
  rw [htrim, hkeep hopen]
  exact hheadings.dropEndWhile isSpace

end TestFocus
