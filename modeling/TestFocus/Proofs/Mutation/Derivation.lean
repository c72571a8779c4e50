import Mathlib.Data.List.Induction
import Mathlib.Order.Lattice
import TestFocus.Proofs.Mutation.Inspection

-- How the classifier comes to an answer, without the memo table: an answer that was not cut
-- short and that rests on no open question may be used again wherever the budget exceeds its
-- height. The rules say once what the classifier can do; what holds of its answers is proved by
-- induction over them.

namespace TestFocus.Mutation

open Inquiry

-- The open questions with what is assumed of them, the innermost first. The position of an entry is
-- the number of entries below it.
abbrev Stack := List (Question × Verdict)

-- An answer with what it leaves behind: the lowest position of an open question that was read, the
-- number of calls below that were looked at, and whether some branch met the depth limit.
structure Report where
  verdict : Verdict
  low : Option Nat
  height : Nat
  truncated : Bool

-- Questions with the reports on them, the oldest first.
abbrev Reports := List (Question × Report)

def Reports.log (reports : Reports) : Log :=
  reports.map fun e => (e.1, e.2.verdict)

-- What an opening becomes by a report on a question asked below it.
def Opening.absorb (o : Opening) (r : Report) : Opening :=
  { o with
    low := match r.low with
      | none => o.low
      | some position => Memo.lower o.low position
    height := max o.height (r.height + 1)
    truncated := o.truncated || r.truncated }

-- The opening of a question after reports on the questions below it.
def Reports.opening (q : Question) (reports : Reports) : Opening :=
  reports.foldl (fun o e => o.absorb e.2) { question := q }

-- An opening at `position` that is closed with a verdict.
def Opening.report (closed : Opening) (position : Nat) (verdict : Verdict) : Report :=
  { verdict
    low := if Memo.isInsideCycle closed position then closed.low else none
    height := closed.height
    truncated := closed.truncated }

-- The verdict of the last inspection: the one that opened a cycle keeps what was assumed.
def Opening.settled (closed : Opening) (position : Nat) (assumed verdict : Verdict) : Verdict :=
  if closed.low = some position && !verdict.kind.isMutator then assumed.merge verdict else verdict

inductive Judgement where
  -- the question comes up
  | asked (budget : Nat) (x : Question)
  -- the body of the question is inspected under this assumption
  | assumed (budget : Nat) (q : Question) (verdict : Verdict)
  | answered (budget : Nat) (x : Question) (r : Report)

inductive Derives (p : Program) : Stack → Judgement → Prop
  | query (budget : Nat) (x : Question) : Derives p [] (.asked budget x)
  | descend {stack : Stack} {budget : Nat} {q x : Question} {assumed : Verdict}
      {reports : Reports} {next : Verdict → Inquiry Verdict}
      (hassumed : Derives p stack (.assumed budget q assumed))
      (hreports : ∀ y r, (y, r) ∈ reports →
        Derives p ((q, assumed) :: stack) (.answered budget y r))
      (hleads : Leads (p.inquiry q) reports.log (.ask x next)) :
      Derives p ((q, assumed) :: stack) (.asked budget x)
  | assume {stack : Stack} {budget : Nat} {x q : Question}
      (hasked : Derives p stack (.asked (budget + 1) x)) (htarget : p.target? x = some q)
      (hnew : q ∉ stack.map Prod.fst) :
      Derives p stack (.assumed budget q .inspector)
  | retry {stack : Stack} {budget : Nat} {q : Question} {assumed verdict : Verdict}
      {reports : Reports}
      (hassumed : Derives p stack (.assumed budget q assumed))
      (hreports : ∀ y r, (y, r) ∈ reports →
        Derives p ((q, assumed) :: stack) (.answered budget y r))
      (hleads : Leads (p.inquiry q) reports.log (.done verdict))
      (hlow : (reports.opening q).low = some stack.length)
      (hkind : verdict.kind ≠ .mutator) :
      Derives p stack (.assumed budget q (assumed.merge verdict))
  | beyond {stack : Stack} {x : Question} (hasked : Derives p stack (.asked 0 x)) :
      Derives p stack (.answered 0 x ⟨.uncertain, none, 0, true⟩)
  | missing {stack : Stack} {budget : Nat} {x : Question}
      (hasked : Derives p stack (.asked (budget + 1) x)) (htarget : p.target? x = none) :
      Derives p stack (.answered (budget + 1) x ⟨.uncertain, none, 0, false⟩)
  | pending {above below : Stack} {budget : Nat} {x q : Question} {assumed : Verdict}
      (hasked : Derives p (above ++ (q, assumed) :: below) (.asked (budget + 1) x))
      (htarget : p.target? x = some q) :
      Derives p (above ++ (q, assumed) :: below)
        (.answered (budget + 1) x ⟨assumed, some below.length, 0, false⟩)
  | known {stack other : Stack} {budget budget' height : Nat} {x y q : Question}
      {verdict : Verdict} (hasked : Derives p stack (.asked (budget + 1) x))
      (htarget : p.target? x = some q) (htarget' : p.target? y = some q)
      (hanswered : Derives p other (.answered budget' y ⟨verdict, none, height, false⟩))
      (hheight : height < budget + 1) :
      Derives p stack (.answered (budget + 1) x ⟨verdict, none, height, false⟩)
  | inspected {stack : Stack} {budget : Nat} {x q : Question} {assumed verdict : Verdict}
      {reports : Reports}
      (hasked : Derives p stack (.asked (budget + 1) x)) (htarget : p.target? x = some q)
      (hassumed : Derives p stack (.assumed budget q assumed))
      (hreports : ∀ y r, (y, r) ∈ reports →
        Derives p ((q, assumed) :: stack) (.answered budget y r))
      (hleads : Leads (p.inquiry q) reports.log (.done verdict)) :
      Derives p stack (.answered (budget + 1) x ((reports.opening q).report stack.length
        ((reports.opening q).settled stack.length assumed verdict)))

namespace Reports

@[simp] theorem log_nil : Reports.log [] = [] := rfl

@[simp] theorem log_append (first second : Reports) :
    Reports.log (first ++ second) = first.log ++ second.log :=
  List.map_append

theorem mem_log_iff {reports : Reports} {x : Question} {v : Verdict} :
    (x, v) ∈ reports.log ↔ ∃ r, (x, r) ∈ reports ∧ r.verdict = v := by
  constructor
  · intro h
    obtain ⟨⟨y, r⟩, hm, heq⟩ := List.mem_map.mp h
    cases heq
    exact ⟨r, hm, rfl⟩
  · rintro ⟨r, hm, rfl⟩
    exact List.mem_map.mpr ⟨(x, r), hm, rfl⟩

@[simp] theorem opening_nil (q : Question) : opening q [] = { question := q } := rfl

@[simp] theorem opening_snoc (q : Question) (reports : Reports) (x : Question) (r : Report) :
    opening q (reports ++ [(x, r)]) = (opening q reports).absorb r := by
  simp [opening]

@[simp] theorem opening_question (q : Question) (reports : Reports) :
    (opening q reports).question = q := by
  induction reports using List.reverseRecOn with
  | nil => rfl
  | append_singleton reports e ih =>
    obtain ⟨x, r⟩ := e
    rw [opening_snoc]
    exact ih

-- The summary of an opening covers every report below it.
theorem opening_covers (q : Question) {reports : Reports} {x : Question} {r : Report}
    (hm : (x, r) ∈ reports) :
    r.height + 1 ≤ (opening q reports).height ∧
      ((opening q reports).truncated = false → r.truncated = false) ∧
      ∀ n, r.low = some n → ∃ k ≤ n, (opening q reports).low = some k := by
  induction reports using List.reverseRecOn with
  | nil => simp at hm
  | append_singleton reports e ih =>
    obtain ⟨y, s⟩ := e
    rw [opening_snoc]
    rcases List.mem_append.mp hm with hm | hm
    · obtain ⟨hheight, htrunc, hlow⟩ := ih hm
      refine ⟨le_trans hheight (le_max_left _ _), ?_, ?_⟩
      · intro hfalse
        exact htrunc (Bool.or_eq_false_iff.mp hfalse).1
      · intro n hn
        obtain ⟨k, hk, hopen⟩ := hlow n hn
        cases hs : s.low with
        | none => exact ⟨k, hk, by simp [Opening.absorb, hs, hopen]⟩
        | some j =>
          exact ⟨min k j, by omega, by simp [Opening.absorb, hs, hopen, Memo.lower]⟩
    · cases List.mem_singleton.mp hm
      refine ⟨le_max_right _ _, ?_, ?_⟩
      · intro hfalse
        exact (Bool.or_eq_false_iff.mp hfalse).2
      · intro n hn
        cases hopen : (opening q reports).low with
        | none => exact ⟨n, le_rfl, by simp [Opening.absorb, hn, hopen, Memo.lower]⟩
        | some k => exact ⟨min k n, by omega, by simp [Opening.absorb, hn, hopen, Memo.lower]⟩

-- The lowest position is that of some report.
theorem exists_of_opening_low (q : Question) {reports : Reports} {n : Nat}
    (h : (opening q reports).low = some n) : ∃ x r, (x, r) ∈ reports ∧ r.low = some n := by
  induction reports using List.reverseRecOn generalizing n with
  | nil => simp at h
  | append_singleton reports e ih =>
    obtain ⟨y, s⟩ := e
    rw [opening_snoc] at h
    have hlast : (y, s) ∈ reports ++ [(y, s)] := by simp
    cases hs : s.low with
    | none =>
      simp only [Opening.absorb, hs] at h
      obtain ⟨x, r, hm, hr⟩ := ih h
      exact ⟨x, r, List.mem_append_left _ hm, hr⟩
    | some j =>
      simp only [Opening.absorb, hs] at h
      cases hopen : (opening q reports).low with
      | none =>
        simp only [hopen, Memo.lower, Option.some.injEq] at h
        exact ⟨y, s, hlast, by rw [hs, h]⟩
      | some k =>
        simp only [hopen, Memo.lower, Option.some.injEq] at h
        rcases le_total k j with hle | hle
        · obtain ⟨x, r, hm, hr⟩ := ih hopen
          exact ⟨x, r, List.mem_append_left _ hm, by rw [hr, ← h, min_eq_left hle]⟩
        · exact ⟨y, s, hlast, by rw [hs, ← h, min_eq_right hle]⟩

-- The height is that of some report, and so is a truncation.
theorem opening_height_le (q : Question) {reports : Reports} {n : Nat}
    (h : ∀ x r, (x, r) ∈ reports → r.height + 1 ≤ n) : (opening q reports).height ≤ n := by
  induction reports using List.reverseRecOn with
  | nil => simp
  | append_singleton reports e ih =>
    obtain ⟨y, s⟩ := e
    rw [opening_snoc]
    have hlast := h y s (by simp)
    have hrest := ih fun x r hm => h x r (List.mem_append_left _ hm)
    exact max_le hrest hlast

theorem exists_of_opening_truncated (q : Question) {reports : Reports}
    (h : (opening q reports).truncated = true) : ∃ x r, (x, r) ∈ reports ∧ r.truncated = true := by
  induction reports using List.reverseRecOn with
  | nil => simp at h
  | append_singleton reports e ih =>
    obtain ⟨y, s⟩ := e
    rw [opening_snoc] at h
    rcases Bool.or_eq_true_iff.mp h with h | h
    · obtain ⟨x, r, hm, hr⟩ := ih h
      exact ⟨x, r, List.mem_append_left _ hm, hr⟩
    · exact ⟨y, s, by simp, h⟩

end Reports

end TestFocus.Mutation
