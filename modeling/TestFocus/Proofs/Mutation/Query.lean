import TestFocus.Proofs.Mutation.MemoRun

namespace TestFocus

open Mutation Inquiry

-- What can be asked of a classifier, with the number of calls from the search that asks.
inductive Query where
  | argument (function register : String) (isReference : Bool) (depth : Nat)
  | callArgument (call : Call) (index depth : Nat)
  | result (function : String) (depth : Nat)

namespace Query

def run (p : Program) : Query → Classify Verdict
  | argument function register isReference depth =>
    p.classifyArgument function register isReference depth
  | callArgument call index depth => p.classifyCallArgument call index depth
  | result function depth => p.classifyResult function depth

def depth : Query → Nat
  | argument _ _ _ depth => depth
  | callArgument _ _ depth => depth
  | result _ depth => depth

-- The question that a query asks, unless it is settled at once.
def inquiry (p : Program) : Query → Inquiry Verdict
  | argument function register isReference _ =>
    if isReference then askArgument function register else .done .inspector
  | callArgument call index _ => Mutation.callArgument p askArgument call index
  | result function _ => askResult function

theorem run_eq (p : Program) (q : Query) :
    q.run p = (q.inquiry p).run (p.ask (p.budgetAt q.depth)) := by
  cases q with
  | argument function register isReference depth =>
    cases isReference <;> rfl
  | callArgument call index depth =>
    simp only [run, inquiry, Program.classifyCallArgument, run_callArgument, Query.depth]
    rfl
  | result function depth => rfl

end Query

namespace Program

-- The memo table after some queries.
def memoAfter (p : Program) (queries : List Query) : Memo :=
  queries.foldl (fun m q => ((q.run p).run m).2) .empty

-- The verdict on a query after some others.
def verdictAfter (p : Program) (queries : List Query) (q : Query) : Verdict :=
  ((q.run p).run (p.memoAfter queries)).1

end Program

namespace Mutation

variable {p : Program}

-- A computation at the outermost level: all it learns can be derived.
theorem run_outermost (hp : p.WellNamed) (budget : Nat) (t : Inquiry Verdict) (m : Memo)
    (hm : Consistent p (fun _ => True) m []) :
    ∃ (reports : Reports) (verdict : Verdict) (m' : Memo),
      (t.run (p.ask budget)).run m = (verdict, m') ∧ Consistent p (fun _ => True) m' [] ∧
      Leads t reports.log (.done verdict) ∧
      ∀ x r, (x, r) ∈ reports → Derives p [] (.answered budget x r) := by
  induction t generalizing m with
  | done verdict => exact ⟨[], verdict, m, rfl, hm, .here _, by simp⟩
  | ask x next ih =>
    obtain ⟨r, m', hrun, hanswered, -, hm'⟩ := ask_answers hp hm (.query budget x)
    obtain ⟨reports, verdict, m'', hrun', hm'', hleads, hreports⟩ := ih r.verdict m' hm'
    refine ⟨(x, r) :: reports, verdict, m'', ?_, hm'', .step hleads, ?_⟩
    · rw [← hrun']
      exact run_bind_of_run hrun
    · intro y s hmem
      rcases List.mem_cons.mp hmem with heq | hmem
      · cases heq
        exact hanswered
      · exact hreports y s hmem

theorem consistent_memoAfter (hp : p.WellNamed) (queries : List Query) :
    Consistent p (fun _ => True) (p.memoAfter queries) [] := by
  induction queries using List.reverseRecOn with
  | nil => exact .empty p _
  | append_singleton queries q ih =>
    have hafter : p.memoAfter (queries ++ [q]) = ((q.run p).run (p.memoAfter queries)).2 := by
      simp [Program.memoAfter]
    obtain ⟨reports, verdict, m', hrun, hm', -⟩ :=
      run_outermost hp (p.budgetAt q.depth) (q.inquiry p) _ ih
    rw [hafter, q.run_eq p, hrun]
    exact hm'

-- The verdict on a query, in every state of the table that queries lead to, can be derived.
theorem verdictAfter_derived (hp : p.WellNamed) (queries : List Query) (q : Query) :
    ∃ reports : Reports,
      Leads (q.inquiry p) reports.log (.done (p.verdictAfter queries q)) ∧
      ∀ x r, (x, r) ∈ reports → Derives p [] (.answered (p.budgetAt q.depth) x r) := by
  obtain ⟨reports, verdict, m', hrun, -, hleads, hreports⟩ :=
    run_outermost hp (p.budgetAt q.depth) (q.inquiry p) _ (consistent_memoAfter hp queries)
  have hverdict : p.verdictAfter queries q = verdict := by
    rw [Program.verdictAfter, q.run_eq p, hrun]
  rw [hverdict]
  exact ⟨reports, hleads, hreports⟩

-- A query that asks one question gets the answer to it.
theorem verdictAfter_of_ask (hp : p.WellNamed) (queries : List Query) {q : Query} {x : Question}
    (h : q.inquiry p = .ask x .done) :
    ∃ r, Derives p [] (.answered (p.budgetAt q.depth) x r) ∧
      p.verdictAfter queries q = r.verdict := by
  obtain ⟨reports, hleads, hreports⟩ := verdictAfter_derived hp queries q
  rw [h] at hleads
  obtain ⟨v, rest, hlog, hrest⟩ := leads_ask_done_iff.mp hleads
  have hv := (leads_done_iff.mp hrest).2
  cases hv
  have hm : (x, p.verdictAfter queries q) ∈ reports.log := by simp [hlog]
  obtain ⟨r, hr, heq⟩ := Reports.mem_log_iff.mp hm
  exact ⟨r, hreports x r hr, heq.symm⟩

end Mutation

end TestFocus
