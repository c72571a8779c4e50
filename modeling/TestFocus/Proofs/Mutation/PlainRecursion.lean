import Mathlib.Logic.Relation
import TestFocus.Proofs.Mutation.Asking
import TestFocus.Proofs.Mutation.Sketch

namespace TestFocus

open Mutation Inquiry

namespace Program

-- The two questions of the classifier, answered by recursion on the budget alone.
def plainArgument (p : Program) : Nat → String → String → Verdict
  | 0, _, _ => .uncertain
  | budget + 1, function, register =>
    match p.body? function with
    | none => .uncertain
    | some body =>
      Id.run (classifyReference (callArgument p (p.plainArgument budget)) body (p.callsOf body)
        register)

def plainResult (p : Program) : Nat → String → Verdict
  | 0, _ => .uncertain
  | budget + 1, function =>
    match p.body? function with
    | none => .uncertain
    | some body =>
      Id.run (classifyReturns p (p.plainResult budget) body body.dataflow.returns .inspector)

def plain (p : Program) (budget : Nat) : Question → Verdict
  | .argument function register => p.plainArgument budget function register
  | .result function => p.plainResult budget function

-- A call in the body of `caller` by the name of a function, and the scanned function it stands for.
def Calls (p : Program) (caller callee : String) : Prop :=
  ∃ body node call target, p.bodies.get? caller = some body ∧ body.call? node = some call ∧
    call.isDirect ∧ p.body? (p.registry.resolve call.callee) = some target ∧ target.name = callee

def Acyclic (p : Program) : Prop :=
  ∀ function, ¬Relation.TransGen p.Calls function function

end Program

-- The verdict on a query without a memo table.
def Query.plain (p : Program) : Query → Verdict
  | .argument function register isReference depth =>
    if isReference then p.plainArgument (p.budgetAt depth) function register else .inspector
  | .callArgument call index depth =>
    Id.run (Mutation.callArgument p (p.plainArgument (p.budgetAt depth)) call index)
  | .result function depth => p.plainResult (p.budgetAt depth) function

theorem Query.plain_eq (p : Program) (q : Query) :
    q.plain p = (q.inquiry p).eval (p.plain (p.budgetAt q.depth)) := by
  cases q with
  | argument function register isReference depth => cases isReference <;> rfl
  | callArgument call index depth =>
    simp only [Query.plain, Query.inquiry, eval, run_callArgument]
    rfl
  | result function depth => rfl

namespace Program

theorem plain_zero (p : Program) (x : Question) : p.plain 0 x = .uncertain := by
  cases x <;> rfl

theorem plain_of_target?_none {p : Program} {x : Question} (budget : Nat)
    (h : p.target? x = none) : p.plain budget x = .uncertain := by
  have hbody : p.body? x.function = none := Option.map_eq_none_iff.mp h
  cases budget with
  | zero => exact plain_zero p x
  | succ budget =>
    cases x with
    | argument function register =>
      simp only [Question.function] at hbody
      simp only [plain, plainArgument, hbody]
    | result function =>
      simp only [Question.function] at hbody
      simp only [plain, plainResult, hbody]

theorem plain_of_target?_some {p : Program} (hp : p.WellNamed) {x q : Question} (budget : Nat)
    (h : p.target? x = some q) :
    p.plain (budget + 1) x = (p.inquiry q).eval (p.plain budget) := by
  obtain ⟨body, hbody, hget, rfl⟩ := exists_body_of_target? hp h
  rw [inquiry_eq hget]
  cases x with
  | argument function register =>
    simp only [Question.function] at hbody
    simp only [plain, plainArgument, hbody, inspection, Question.about, eval,
      run_classifyReference, run_callArgument]
    rfl
  | result function =>
    simp only [Question.function] at hbody
    simp only [plain, plainResult, hbody, inspection, Question.about, eval, run_classifyReturns]
    rfl

end Program

namespace Mutation

variable {p : Program}

-- Every question below another one is about a function that the other one's function calls.
theorem calls_of_leads (hp : p.WellNamed) {q x q' : Question} {log : Log}
    {next : Verdict → Inquiry Verdict} (hleads : Leads (p.inquiry q) log (.ask x next))
    (htarget : p.target? x = some q') : p.Calls q.function q'.function := by
  obtain ⟨target, hfound, -, rfl⟩ := Program.exists_body_of_target? hp htarget
  cases hget : p.bodies.get? q.function with
  | none =>
    simp only [Program.inquiry, hget, leads_done_iff] at hleads
    cases hleads.2
  | some body =>
    rw [Program.inquiry_eq hget] at hleads
    obtain ⟨node, call, hcall, hdirect, -, hfunction⟩ :=
      (allAsked_inspection p body q).leads hleads
    refine ⟨body, node, call, target, hget, hcall, hdirect, ?_, by simp⟩
    rw [← hfunction]
    exact hfound

-- What the derivations say where no function calls itself: no open question is ever met again, so
-- an answer is what plain recursion gives, and it stays the same for all budgets beyond its height
-- unless it was cut short.
def PlainClaim (p : Program) : Stack → Judgement → Prop
  | stack, .asked _ x => ∀ q, p.target? x = some q → ∀ entry ∈ stack,
      Relation.TransGen p.Calls entry.1.function q.function
  | stack, .assumed _ q verdict => verdict = .inspector ∧ ∀ entry ∈ stack,
      Relation.TransGen p.Calls entry.1.function q.function
  | _, .answered budget x r => r.low = none ∧ r.verdict = p.plain budget x ∧
      (r.truncated = false → ∀ larger, r.height < larger → p.plain larger x = r.verdict)

theorem opening_low_eq_none (q : Question) {reports : Reports}
    (h : ∀ x r, (x, r) ∈ reports → r.low = none) : (reports.opening q).low = none := by
  cases hlow : (reports.opening q).low with
  | none => rfl
  | some n =>
    obtain ⟨x, r, hm, hr⟩ := Reports.exists_of_opening_low q hlow
    rw [h x r hm] at hr
    cases hr

theorem Derives.plainClaim (hp : p.WellNamed) (hacyclic : p.Acyclic) {stack : Stack}
    {j : Judgement} (h : Derives p stack j) : PlainClaim p stack j := by
  induction h with
  | query budget x => exact fun _ _ entry hm => absurd hm (by simp)
  | @descend stack budget q x assumed reports next hassumed _ hleads ihassumed _ =>
    intro q' htarget entry hm
    have hcall := calls_of_leads hp hleads htarget
    rcases List.mem_cons.mp hm with rfl | hm
    · exact .single hcall
    · exact (ihassumed.2 entry hm).tail hcall
  | assume hasked htarget _ ihasked => exact ⟨rfl, ihasked _ htarget⟩
  | @retry stack budget q assumed verdict reports _ _ _ hlow _ _ ihreports =>
    have hnone := opening_low_eq_none q fun x r hm => (ihreports x r hm).1
    rw [hnone] at hlow
    cases hlow
  | beyond hasked _ => exact ⟨rfl, (Program.plain_zero p _).symm, nofun⟩
  | missing hasked htarget _ =>
    exact ⟨rfl, (Program.plain_of_target?_none _ htarget).symm, fun _ _ _ =>
      Program.plain_of_target?_none _ htarget⟩
  | @pending above below budget x q assumed hasked htarget ihasked =>
    exact absurd (ihasked q htarget (q, assumed) (by simp)) (hacyclic _)
  | @known stack other budget budget' height x y q verdict _ htarget htarget' _ hheight _ ih =>
    obtain ⟨-, -, hplain⟩ := ih
    have hsame (larger : Nat) (h : height < larger) : p.plain larger x = verdict := by
      obtain ⟨n, rfl⟩ := Nat.exists_eq_add_one_of_ne_zero (Nat.ne_zero_of_lt h)
      rw [Program.plain_of_target?_some hp n htarget,
        ← Program.plain_of_target?_some hp n htarget']
      exact hplain rfl _ h
    exact ⟨rfl, (hsame _ hheight).symm, fun _ larger h => hsame larger h⟩
  | @inspected stack budget x q assumed verdict reports _ htarget _ _ hleads _ _ ihreports =>
    have hnone := opening_low_eq_none q fun x r hm => (ihreports x r hm).1
    have hsettled : (reports.opening q).settled stack.length assumed verdict = verdict := by
      simp [Opening.settled, hnone]
    refine ⟨by simp [Opening.report, hnone], ?_, ?_⟩
    · rw [Program.plain_of_target?_some hp budget htarget]
      refine (hsettled.trans (eval_eq_of_leads hleads ?_).symm)
      intro y v hm
      obtain ⟨r, hr, rfl⟩ := Reports.mem_log_iff.mp hm
      exact (ihreports y r hr).2.1
    · intro htrunc larger hlarger
      obtain ⟨n, rfl⟩ := Nat.exists_eq_add_one_of_ne_zero (Nat.ne_zero_of_lt hlarger)
      rw [Program.plain_of_target?_some hp n htarget]
      refine (eval_eq_of_leads hleads ?_).trans hsettled.symm
      intro y v hm
      obtain ⟨r, hr, rfl⟩ := Reports.mem_log_iff.mp hm
      obtain ⟨hheight, hcut, -⟩ := Reports.opening_covers q hr
      refine ((ihreports y r hr).2.2 (hcut htrunc) n ?_).symm
      have : (reports.opening q).height < n + 1 := hlarger
      omega

-- Calls that lead from higher to lower ranks never come back.
theorem acyclic_ofSketches {sketches : List Sketch} {maxDepth : Nat} (rank : String → Nat)
    (h : ∀ s ∈ sketches, ∀ c ∈ s.calls, rank c.callee < rank s.name) :
    (Program.ofSketches sketches maxDepth).Acyclic := by
  have hcalls (f g : String) (hcall : (Program.ofSketches sketches maxDepth).Calls f g) :
      rank g < rank f := by
    obtain ⟨body, node, call, target, hbody, hcall, -, htarget, rfl⟩ := hcall
    obtain ⟨s, hs, rfl, c, hc, rfl⟩ := Program.calls_ofSketches hbody hcall
    rw [Program.wellNamed_ofSketches _ _ _ _ htarget, Program.resolve_ofSketches]
    exact h s hs c hc
  intro function hcycle
  have hdescends (g : String) (hpath : Relation.TransGen
      (Program.ofSketches sketches maxDepth).Calls function g) : rank g < rank function := by
    induction hpath with
    | single hcall => exact hcalls _ _ hcall
    | tail _ hcall ih => exact (hcalls _ _ hcall).trans ih
  exact lt_irrefl _ (hdescends function hcycle)

-- Without recursion the memo table changes no verdict: whatever was asked before, a query gets the
-- verdict that plain recursion down to the depth limit gives.
theorem verdictAfter_eq_plain (hp : p.WellNamed) (hacyclic : p.Acyclic) (earlier : List Query)
    (q : Query) : p.verdictAfter earlier q = q.plain p := by
  obtain ⟨reports, hleads, hreports⟩ := verdictAfter_derived hp earlier q
  rw [Query.plain_eq]
  refine (eval_eq_of_leads hleads ?_).symm
  intro x v hm
  obtain ⟨r, hr, rfl⟩ := Reports.mem_log_iff.mp hm
  exact ((hreports x r hr).plainClaim hp hacyclic).2.1

-- Three functions that pass a pointer on, the last of which writes through it.
def nestedCalls : Program :=
  .ofSketches
    [{ name := "@outer", calls := [{ callee := "@middle", value := "%0" }] },
     { name := "@middle", calls := [{ callee := "@inner", value := "%0" }] },
     { name := "@inner", dataflow := Dataflow.empty.store "%0" "1" }] 2

theorem nestedCalls_acyclic : nestedCalls.Acyclic := by
  apply acyclic_ofSketches fun name =>
    if name = "@outer" then 2 else if name = "@middle" then 1 else 0
  simp

-- The write is out of reach of the first query and in reach of the second one.
theorem verdictAfter_eq_plain_nestedCalls :
    nestedCalls.WellNamed ∧ nestedCalls.Acyclic ∧
      nestedCalls.verdictAfter [.argument "@outer" "%0" true 1] (.argument "@outer" "%0" true 0) =
        Query.plain nestedCalls (.argument "@outer" "%0" true 0) :=
  ⟨Program.wellNamed_ofSketches _ _, nestedCalls_acyclic,
    verdictAfter_eq_plain (Program.wellNamed_ofSketches _ _) nestedCalls_acyclic _ _⟩

end Mutation

end TestFocus
