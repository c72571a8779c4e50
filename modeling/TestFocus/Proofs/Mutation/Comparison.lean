import TestFocus.Proofs.Mutation.AliasWalk
import TestFocus.Proofs.Mutation.PlainRecursion

-- Two runs of one inquiry. The verdicts that a run is given can be compared with those of
-- another one, and so can its outcome: worse verdicts lead to a worse outcome, and as long as
-- nothing is mutated they lead to more questions.

namespace TestFocus.Mutation

open Inquiry

variable {p : Program} {H : Question → Prop}

-- The second verdict is at least as bad as the first. What is returned counts only if it matters,
-- and only as long as nothing is mutated.
def AtMost (matters : Prop) (v w : Verdict) : Prop :=
  w.kind = .mutator ∨ v.kind ≠ .mutator ∧ (matters → v.isReturned → w.isReturned)

theorem AtMost.kind_ne {matters : Prop} {v w : Verdict} (h : AtMost matters v w)
    (hw : w.kind ≠ .mutator) : v.kind ≠ .mutator := by
  obtain hmutator | ⟨hv, -⟩ := h
  · exact absurd hmutator hw
  · exact hv

theorem AtMost.imp {matters matters' : Prop} {v w : Verdict} (h : AtMost matters v w)
    (himp : matters' → matters) : AtMost matters' v w := by
  obtain hmutator | ⟨hv, hreturned⟩ := h
  · exact .inl hmutator
  · exact .inr ⟨hv, fun hmatters => hreturned (himp hmatters)⟩

-- Neither a mutation nor a returned reference that matters.
theorem AtMost.of_not_returned {matters : Prop} {v : Verdict} (w : Verdict)
    (hv : v.kind ≠ .mutator) (hreturned : matters → v.isReturned = false) : AtMost matters v w := by
  refine .inr ⟨hv, fun hmatters h => ?_⟩
  rw [hreturned hmatters] at h
  cases h

-- The question is about a function that belongs to `H`, the ones that may hand a reference back.
def MayReturn (p : Program) (H : Question → Prop) (x : Question) : Prop :=
  ∃ q, p.target? x = some q ∧ H q

def Bounded (p : Program) (H : Question → Prop) (log : Log) : Prop :=
  ∀ x a, (x, a) ∈ log → x.isArgument → a.isReturned → MayReturn p H x

-- The registers of a body that may hold an alias, because of the flow inside of the body or because
-- a call hands it back.
inductive Carried (p : Program) (H : Question → Prop) (body : Body) (register : String) :
    String → Prop
  | self : Carried p H body register register
  | flow {name next : String} (hname : Carried p H body register name)
      (hnext : next ∈ aliasesOf body.dataflow name) : Carried p H body register next
  | back {name next : String} {node index : Nat} {call : Call} {x : Question}
      (hname : Carried p H body register name)
      (htake : (node, call, index) ∈ passings (p.callsOf body) name)
      (hask : callArgument p askArgument call index = .ask x .done) (hx : MayReturn p H x)
      (hnext : body.assignee? node = some next) : Carried p H body register next

-- The inspection of the first question hands a reference to a call that asks the second one, and
-- keeps what it gets back.
def Keeps (p : Program) (H : Question → Prop) (q x : Question) : Prop :=
  ∃ function register body name node call index next, q = .argument function register ∧
    p.bodies.get? function = some body ∧ Carried p H body register name ∧
    (node, call, index) ∈ passings (p.callsOf body) name ∧
    callArgument p askArgument call index = .ask x .done ∧ body.assignee? node = some next

-- The verdicts of the second log are at least as bad wherever both logs have one.
def LogAtMost (p : Program) (H : Question → Prop) (q : Question) (log log' : Log) : Prop :=
  ∀ x a a', (x, a) ∈ log → (x, a') ∈ log' → AtMost (Keeps p H q x) a a'

-- What a run has in common with a run of the same inquiry on worse verdicts, if that one does not
-- end with a mutation.
structure Dominated (q : Question) (log : Log) (v : Verdict) (log' : Log) (v' : Verdict) :
    Prop where
  kind : v.kind ≠ .mutator
  returned : q.isArgument → v.isReturned → v'.isReturned
  asked : ∀ x a, (x, a) ∈ log → ∃ a', (x, a') ∈ log'
  inspector : v'.kind = .inspector → (∀ x a, (x, a) ∈ log → a.kind = .inspector) →
    v.kind = .inspector

section Argument

theorem direct_callArgument (p : Program) : Direct (callArgument p askArgument) := by
  intro call index
  obtain ⟨v, heq, -⟩ | ⟨register, heq, -⟩ := callArgument_cases p call index
  · exact .inl ⟨v, heq⟩
  · exact .inr ⟨_, heq⟩

-- A question about an argument, and the parameter that it is passed to.
theorem askArgument_of_ask {call : Call} {index : Nat} {x : Question}
    (h : callArgument p askArgument call index = .ask x .done) :
    ∃ callee parameter, callArgument p askArgument call index = askArgument callee parameter ∧
      x = .argument callee parameter := by
  obtain ⟨v, heq, -⟩ | ⟨parameter, heq, -⟩ := callArgument_cases p call index
  · rw [heq] at h
    cases h
  · rw [heq] at h
    cases h
    exact ⟨_, parameter, heq, rfl⟩

theorem isArgument_of_callArgument {call : Call} {index : Nat} {x : Question}
    (h : callArgument p askArgument call index = .ask x .done) : x.isArgument := by
  obtain ⟨callee, parameter, -, rfl⟩ := askArgument_of_ask h
  rfl

theorem Keeps.isArgument {q x : Question} (h : Keeps p H q x) : x.isArgument := by
  obtain ⟨function, register, body, name, node, call, index, next, -, -, -, -, hask, -⟩ := h
  exact isArgument_of_callArgument hask

-- An argument that is settled at once is not handed back.
theorem not_returned_of_done {call : Call} {index : Nat} {w : Verdict}
    (h : callArgument p askArgument call index = .done w) : w.isReturned = false := by
  obtain ⟨v, heq, hv, -⟩ | ⟨parameter, heq, -⟩ := callArgument_cases p call index
  · rw [h] at heq
    cases heq
    exact hv
  · rw [h] at heq
    cases heq

-- What is handed back to a register that may hold an alias may hold one.
theorem Carried.replied {body : Body} {register name next : String} {log : Log} {node index : Nat}
    {call : Call} {w : Verdict} (hname : Carried p H body register name) (hlog : Bounded p H log)
    (htake : (node, call, index) ∈ passings (p.callsOf body) name)
    (hw : Replied (callArgument p askArgument) log call index w) (hret : w.isReturned)
    (hnext : body.assignee? node = some next) : Carried p H body register next := by
  obtain hdone | ⟨x, hask, hm⟩ := hw
  · rw [not_returned_of_done hdone] at hret
    cases hret
  · exact .back hname htake hask (hlog x w hm (isArgument_of_callArgument hask) hret) hnext

theorem dominated_classifyReference {body : Body} {function register : String} {log log' : Log}
    {v v' : Verdict} (hbody : p.bodies.get? function = some body)
    (h : Leads (classifyReference (callArgument p askArgument) body (p.callsOf body) register) log
      (.done v))
    (h' : Leads (classifyReference (callArgument p askArgument) body (p.callsOf body) register) log'
      (.done v'))
    (hbounded : Bounded p H log) (hlog : LogAtMost p H (.argument function register) log log')
    (hv' : v'.kind ≠ .mutator) : Dominated (.argument function register) log v log' v' := by
  have hdirect := direct_callArgument p
  obtain ⟨-, -, names, -, hregister, hhandled⟩ := handled_of_walkAliases hdirect
    (stepsSuffice_start body.dataflow (p.callsOf body) register) h' (List.Subset.refl _) hv'
  have hhandled (name : String) (hm : name ∈ names) := hhandled name hm (by simp)
  -- a reply of the second run to each call that takes one of the names
  have hcompare {name : String} {node index : Nat} {call : Call} {w : Verdict}
      (hname : name ∈ names ∧ Carried p H body register name)
      (htake : (node, call, index) ∈ passings (p.callsOf body) name)
      (hw : Replied (callArgument p askArgument) log call index w) :
      w.kind ≠ .mutator ∧ (w.isReturned → ∀ next, body.assignee? node = some next →
        next ∈ names) ∧
      (w.kind.rank ≤ v'.kind.rank ∨ ∃ x, (x, w) ∈ log) := by
    obtain ⟨w', hw', hrank, hback⟩ := (hhandled name hname.1).passed node call index htake
    have hkind' := MutationKind.ne_mutator_of_rank_le hrank hv'
    obtain rfl | ⟨x, hask, hm, hm'⟩ := hw.both hw'
    · exact ⟨hkind', hback, .inl hrank⟩
    · obtain hmutator | ⟨hkind, hreturned⟩ := hlog x w w' hm hm'
      · exact absurd hmutator hkind'
      · refine ⟨hkind, fun hret next hnext => hback (hreturned ?_ hret) next hnext, .inr ⟨x, hm⟩⟩
        exact ⟨function, register, body, name, node, call, index, next, rfl, hbody, hname.2, htake,
          hask, hnext⟩
  obtain ⟨hfound, hreturned, hasked⟩ := found_of_walkAliases
    (A := fun name => name ∈ names ∧ Carried p H body register name) hdirect
    (fun name next hname hnext => ⟨(hhandled name hname.1).flow next hnext, .flow hname.2 hnext⟩)
    (fun name node call index w next hname htake hw _ hret hnext =>
      ⟨(hcompare hname htake hw).2.1 hret next hnext,
        hname.2.replied hbounded htake hw hret hnext⟩)
    h (List.Subset.refl _) (by
      intro name hm
      cases List.mem_singleton.mp hm
      exact ⟨hregister hm, .self⟩)
  refine ⟨?_, ?_, ?_, ?_⟩
  · obtain heq | ⟨name, hname, ⟨-, hstored⟩ | ⟨node, call, index, w, htake, hw, hkind⟩⟩ := hfound
    · rw [heq]
      exact nofun
    · rw [(hhandled name hname.1).stored] at hstored
      cases hstored
    · rw [← hkind]
      exact (hcompare hname htake hw).1
  · intro _ hret
    obtain hret | ⟨name, hname, hret⟩ := hreturned hret
    · cases hret
    · exact (hhandled name hname.1).returned hret
  · intro x a hm
    obtain ⟨name, node, call, index, hname, htake, heq⟩ := hasked x a hm
    obtain ⟨w', hw' | ⟨x', heq', hm'⟩, -⟩ := (hhandled name hname.1).passed node call index htake
    · rw [heq] at hw'
      cases hw'
    · rw [heq] at heq'
      cases heq'
      exact ⟨w', hm'⟩
  · intro hinspector hall
    obtain heq | ⟨name, hname, ⟨-, hstored⟩ | ⟨node, call, index, w, htake, hw, hkind⟩⟩ := hfound
    · exact heq
    · rw [(hhandled name hname.1).stored] at hstored
      cases hstored
    · rw [← hkind]
      obtain hrank | ⟨x, hm⟩ := (hcompare hname htake hw).2.2
      · exact MutationKind.eq_inspector_of_rank_le hrank hinspector
      · exact hall x w hm

end Argument

end TestFocus.Mutation
