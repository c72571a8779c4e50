import TestFocus.Proofs.Mutation.Recursion

namespace TestFocus

open Mutation Inquiry Relation

namespace Program

-- The registers of a body that hold an alias of `register` because of the flow inside of the body.
def HasAlias (body : Body) (register : String) : String → Prop :=
  ReflTransGen (fun name next => next ∈ aliasesOf body.dataflow name) register

-- The function stores through an alias of the register, or hands one to an intrinsic that fills it.
def Writes (p : Program) (function register : String) : Prop :=
  ∃ body name, p.body? function = some body ∧ HasAlias body register name ∧
    (body.dataflow.isStoredThrough name ∨
      ∃ node call, (node, call, 0) ∈ passings (p.callsOf body) name ∧
        isMemoryIntrinsic (p.registry.resolve call.callee))

-- The function hands an alias of the register to a parameter of `callee` that is looked into.
def PassesTo (p : Program) (function register callee parameter : String) : Prop :=
  ∃ body name node call index, p.body? function = some body ∧ HasAlias body register name ∧
    (node, call, index) ∈ passings (p.callsOf body) name ∧
    callArgument p askArgument call index = askArgument callee parameter

-- A chain of this many calls leads from the register of the function to a write.
inductive ReachesWrite (p : Program) : String → String → Nat → Prop
  | here {function register : String} (hwrites : p.Writes function register) :
      ReachesWrite p function register 0
  | call {function register callee parameter : String} {calls : Nat}
      (hpasses : p.PassesTo function register callee parameter)
      (hreaches : ReachesWrite p callee parameter calls) :
      ReachesWrite p function register (calls + 1)

def ReturnsNothing (p : Program) : Prop :=
  ∀ name body, p.bodies.get? name = some body → body.dataflow.returns = []

end Program

namespace Mutation

variable {p : Program}

-- Nothing is handed back where nothing is returned.
theorem returnExact_of_returnsNothing (hvoid : p.ReturnsNothing) :
    ReturnExact p (fun _ => False) where
  closed := by
    intro q log v hargument hleads _ hreturned
    cases hbody : p.bodies.get? q.function with
    | none =>
      have hdone : p.inquiry q = .done .uncertain := by
        simp only [Program.inquiry, hbody]
      rw [hdone] at hleads
      have heq := (leads_done_iff.mp hleads).2
      cases heq
      cases hreturned
    | some body =>
      rw [Program.inquiry_eq hbody] at hleads
      cases q with
      | result function => cases hargument
      | argument function register =>
        obtain ⟨-, hfound, -⟩ := found_of_walkAliases (A := fun _ => True)
          (direct_callArgument p) (fun _ _ _ _ => trivial) (fun _ _ _ _ _ _ _ _ _ _ _ _ => trivial)
          hleads (List.Subset.refl _) (fun _ _ => trivial)
        obtain hret | ⟨name, -, hret⟩ := hfound hreturned
        · cases hret
        · rw [Dataflow.isReturned, hvoid _ _ hbody] at hret
          cases hret
  attained := fun _ h => h.elim
  acyclic := fun _ _ _ h => h

-- An argument of a call at the position where an alias is passed.
theorem argument_of_mem_passings {calls : List (Nat × Call)} {value : String} {node index : Nat}
    {call : Call} (h : (node, call, index) ∈ passings calls value) :
    ∃ argument, call.arguments[index]? = some argument := by
  obtain ⟨⟨node', call'⟩, -, htake⟩ := List.mem_flatMap.mp h
  obtain ⟨⟨argument, index'⟩, hfilter, heq⟩ := List.mem_map.mp htake
  cases heq
  exact ⟨argument, List.mem_zipIdx_iff_getElem?.mp (List.mem_filter.mp hfilter).1⟩

theorem callArgument_of_isMemoryIntrinsic {calls : List (Nat × Call)} {value : String} {node : Nat}
    {call : Call} (h : (node, call, 0) ∈ passings calls value)
    (hintrinsic : isMemoryIntrinsic (p.registry.resolve call.callee)) :
    callArgument p askArgument call 0 = .done .mutator := by
  obtain ⟨argument, hargument⟩ := argument_of_mem_passings h
  simp only [callArgument, hargument, hintrinsic, ite_true]
  rfl

-- The walk over a body: a mutation is a write to an alias, or a call that mutates.
theorem exists_of_mutator {body : Body} {register : String} {log : Log} {v : Verdict}
    (hleads : Leads (classifyReference (callArgument p askArgument) body (p.callsOf body) register)
      log (.done v))
    (hlog : ∀ x a, (x, a) ∈ log → a.isReturned = false) (hv : v.kind = .mutator) :
    ∃ name, Program.HasAlias body register name ∧
      ((body.dataflow.isStoredThrough name ∨
        ∃ node call, (node, call, 0) ∈ passings (p.callsOf body) name ∧
          isMemoryIntrinsic (p.registry.resolve call.callee)) ∨
      ∃ node call index callee parameter w,
        (node, call, index) ∈ passings (p.callsOf body) name ∧
        callArgument p askArgument call index = askArgument callee parameter ∧
        (.argument callee parameter, w) ∈ log ∧ w.kind = .mutator) := by
  have hback (name : String) (node : Nat) (call : Call) (index : Nat) (w : Verdict) (next : String)
      (_ : Program.HasAlias body register name)
      (_ : (node, call, index) ∈ passings (p.callsOf body) name)
      (hw : Replied (callArgument p askArgument) log call index w) (_ : w.kind ≠ .mutator)
      (hret : w.isReturned) (_ : body.assignee? node = some next) :
      Program.HasAlias body register next := by
    obtain hdone | ⟨x, -, hm⟩ := hw
    · rw [not_returned_of_done hdone] at hret
      cases hret
    · rw [hlog x w hm] at hret
      cases hret
  obtain ⟨hfound, -, -⟩ := found_of_walkAliases (direct_callArgument p)
    (fun name next hname hnext => ReflTransGen.tail hname hnext) hback hleads (List.Subset.refl _)
    (by
      intro name hm
      cases List.mem_singleton.mp hm
      exact .refl)
  obtain heq | ⟨name, hname, ⟨-, hstored⟩ | ⟨node, call, index, w, htake, hw, hkind⟩⟩ := hfound
  · rw [hv] at heq
    cases heq
  · exact ⟨name, hname, .inl (.inl hstored)⟩
  · rw [hv] at hkind
    refine ⟨name, hname, ?_⟩
    obtain hdone | ⟨x, hask, hm⟩ := hw
    · obtain ⟨v, heq, -, hmutator⟩ | ⟨parameter, heq, -⟩ := callArgument_cases p call index
      · rw [hdone] at heq
        cases heq
        obtain ⟨hintrinsic, rfl⟩ := hmutator hkind
        exact .inl (.inr ⟨node, call, htake, hintrinsic⟩)
      · rw [hdone] at heq
        cases heq
    · obtain ⟨v, heq, -⟩ | ⟨parameter, heq, -⟩ := callArgument_cases p call index
      · rw [hask] at heq
        cases heq
      · rw [heq] at hask
        cases hask
        exact .inr ⟨node, call, index, _, parameter, w, htake, heq, hm, hkind⟩

-- Without a mutation no alias is written to, and no call that takes one mutates.
theorem not_mutator_of_alias {body : Body} {register : String} {log : Log} {v : Verdict}
    (hleads : Leads (classifyReference (callArgument p askArgument) body (p.callsOf body) register)
      log (.done v))
    (hv : v.kind ≠ .mutator) {name : String} (halias : Program.HasAlias body register name) :
    body.dataflow.isStoredThrough name = false ∧
      ∀ node call index, (node, call, index) ∈ passings (p.callsOf body) name →
        ∃ w, Replied (callArgument p askArgument) log call index w ∧ w.kind ≠ .mutator := by
  obtain ⟨-, -, names, -, hregister, hhandled⟩ := handled_of_walkAliases (direct_callArgument p)
    (stepsSuffice_start body.dataflow (p.callsOf body) register) hleads (List.Subset.refl _) hv
  have hname : name ∈ names := by
    induction halias with
    | refl => exact hregister (by simp)
    | tail _ hnext ih => exact (hhandled _ ih (by simp)).flow _ hnext
  have hname := hhandled name hname (by simp)
  refine ⟨hname.stored, ?_⟩
  intro node call index htake
  obtain ⟨w, hw, hrank, -⟩ := hname.passed node call index htake
  exact ⟨w, hw, MutationKind.ne_mutator_of_rank_le hrank hv⟩

-- The inspection of a body by plain recursion: it asks about arguments only, and nothing is handed
-- back to it.
theorem exists_leads_plainArgument (hp : p.WellNamed) (hvoid : p.ReturnsNothing) (budget : Nat)
    {function : String} (register : String) {body : Body} (hbody : p.body? function = some body) :
    ∃ log, Leads (classifyReference (callArgument p askArgument) body (p.callsOf body) register) log
        (.done (p.plainArgument (budget + 1) function register)) ∧
      (∀ x a, (x, a) ∈ log → a = p.plain budget x) ∧
      ∀ x a, (x, a) ∈ log → a.isReturned = false := by
  have htarget : p.target? (.argument function register) = some (.argument body.name register) := by
    simp only [Program.target?, Question.function, hbody, Option.map_some, Question.about]
  obtain ⟨body', hbody', hget, -⟩ := Program.exists_body_of_target? hp htarget
  rw [Question.function, hbody] at hbody'
  cases hbody'
  have hplain := Program.plain_of_target?_some hp budget htarget
  rw [Program.inquiry_eq hget] at hplain
  obtain ⟨log, hleads, hlog⟩ := exists_leads_eval (p.plain budget)
    (p.inspection body (.argument body.name register))
  rw [← hplain] at hleads
  refine ⟨log, hleads, hlog, fun x a hm => ?_⟩
  obtain ⟨-, -, hasked⟩ := found_of_walkAliases (A := fun _ => True) (direct_callArgument p)
    (fun _ _ _ _ => trivial) (fun _ _ _ _ _ _ _ _ _ _ _ _ => trivial) hleads
    (List.Subset.refl _) (fun _ _ => trivial)
  obtain ⟨name, node, call, index, -, -, hask⟩ := hasked x a hm
  by_contra hreturned
  rw [hlog x a hm] at hreturned
  obtain ⟨-, -, hfalse⟩ := plain_mayReturn hp (returnExact_of_returnsNothing hvoid) budget x
    (isArgument_of_callArgument hask) (by simpa using hreturned)
  exact hfalse

-- One level of plain recursion: a mutation is a write in the body itself, or one that is found for
-- a parameter that an alias is handed to.
theorem plainArgument_succ_kind_iff (hp : p.WellNamed) (hvoid : p.ReturnsNothing) (budget : Nat)
    (function register : String) :
    (p.plainArgument (budget + 1) function register).kind = .mutator ↔
      p.Writes function register ∨ ∃ callee parameter,
        p.PassesTo function register callee parameter ∧
          (p.plainArgument budget callee parameter).kind = .mutator := by
  cases hbody : p.body? function with
  | none =>
    constructor
    · intro hkind
      simp only [Program.plainArgument, hbody] at hkind
      cases hkind
    · rintro (⟨body, name, hsome, -⟩ |
        ⟨callee, parameter, ⟨body, name, node, call, index, hsome, -⟩, -⟩)
      · rw [hbody] at hsome
        cases hsome
      · rw [hbody] at hsome
        cases hsome
  | some body =>
    obtain ⟨log, hleads, hlog, hreturned⟩ :=
      exists_leads_plainArgument hp hvoid budget register hbody
    constructor
    · intro hmutator
      obtain ⟨name, halias, hwrite | ⟨node, call, index, callee, parameter, w, htake, hpass, hm,
        hkind⟩⟩ := exists_of_mutator hleads hreturned hmutator
      · exact .inl ⟨body, name, hbody, halias, hwrite⟩
      · rw [hlog _ w hm] at hkind
        exact .inr ⟨callee, parameter, ⟨body, name, node, call, index, hbody, halias, htake, hpass⟩,
          hkind⟩
    · intro hreaches
      by_contra hkind
      have hclean {name : String} (halias : Program.HasAlias body register name) :=
        not_mutator_of_alias hleads hkind halias
      obtain ⟨body', name, hsome, halias, hwrite⟩ |
        ⟨callee, parameter,
          ⟨body', name, node, call, index, hsome, halias, htake, hpass⟩, hfound⟩ := hreaches
      · rw [hbody] at hsome
        cases hsome
        obtain hstored | ⟨node, call, htake, hintrinsic⟩ := hwrite
        · rw [(hclean halias).1] at hstored
          cases hstored
        · obtain ⟨w, hdone | ⟨x, hask, -⟩, hw⟩ := (hclean halias).2 node call 0 htake
          · rw [callArgument_of_isMemoryIntrinsic htake hintrinsic] at hdone
            cases hdone
            exact hw rfl
          · rw [callArgument_of_isMemoryIntrinsic htake hintrinsic] at hask
            cases hask
      · rw [hbody] at hsome
        cases hsome
        obtain ⟨w, hdone | ⟨x, hask, hm⟩, hw⟩ := (hclean halias).2 node call index htake
        · rw [hpass] at hdone
          cases hdone
        · rw [hpass] at hask
          cases hask
          rw [hlog _ w hm] at hw
          exact hw hfound

-- Plain recursion finds a mutation exactly when a chain that the budget covers leads to a write.
theorem plainArgument_kind_iff (hp : p.WellNamed) (hvoid : p.ReturnsNothing) (budget : Nat)
    (function register : String) :
    (p.plainArgument budget function register).kind = .mutator ↔
      ∃ calls < budget, p.ReachesWrite function register calls := by
  induction budget generalizing function register with
  | zero => simp [Program.plainArgument, Verdict.uncertain]
  | succ budget ih =>
    rw [plainArgument_succ_kind_iff hp hvoid]
    constructor
    · rintro (hwrites | ⟨callee, parameter, hpasses, hkind⟩)
      · exact ⟨0, by omega, .here hwrites⟩
      · obtain ⟨calls, hcalls, hreaches⟩ := (ih callee parameter).mp hkind
        exact ⟨calls + 1, by omega, .call hpasses hreaches⟩
    · rintro ⟨calls, hcalls, hreaches⟩
      cases hreaches with
      | here hwrites => exact .inl hwrites
      | call hpasses hreaches =>
        exact .inr ⟨_, _, hpasses, (ih _ _).mpr ⟨_, by omega, hreaches⟩⟩

-- Where no function returns a value, a reference counts as changed exactly when a chain of calls
-- within the depth limit leads to a write, in every state that earlier queries lead to.
theorem verdictAfter_mutator_iff_reachesWrite (hp : p.WellNamed) (hvoid : p.ReturnsNothing)
    (earlier : List Query) (function register : String) (depth : Nat) :
    (p.verdictAfter earlier (.argument function register true depth)).kind = .mutator ↔
      depth ≤ p.maxDepth ∧
        ∃ calls ≤ p.maxDepth - depth, p.ReachesWrite function register calls := by
  obtain ⟨r, hanswered, hverdict⟩ := verdictAfter_of_ask hp earlier
    (q := .argument function register true depth) (x := .argument function register) rfl
  rw [hverdict, hanswered.kind_eq_mutator_iff hp (returnExact_of_returnsNothing hvoid)]
  have hplain := plainArgument_kind_iff hp hvoid (p.budgetAt depth) function register
  refine hplain.trans ?_
  simp only [Program.budgetAt, budgetFor]
  constructor
  · rintro ⟨calls, hcalls, hreaches⟩
    exact ⟨by omega, calls, by omega, hreaches⟩
  · rintro ⟨hdepth, calls, hcalls, hreaches⟩
    exact ⟨calls, by omega, hreaches⟩

-- Two functions that call each other with the pointer they got, one of which writes through it.
def alternating : Program :=
  .ofSketches
    [{ name := "@even", calls := [{ callee := "@odd", value := "%0" }] },
     { name := "@odd", calls := [{ callee := "@even", value := "%0" }],
       dataflow := Dataflow.empty.store "%0" "1" }] 1

theorem alternating_returnsNothing : alternating.ReturnsNothing := by
  intro name body hbody
  obtain ⟨s, hs, -, rfl⟩ := Program.exists_sketch hbody
  simp only [List.mem_cons, List.not_mem_nil, or_false] at hs
  obtain rfl | rfl := hs <;> rfl

-- The write is one call away, which the depth limit still allows.
theorem verdictAfter_mutator_iff_reachesWrite_alternating :
    alternating.WellNamed ∧ alternating.ReturnsNothing ∧
      ((alternating.verdictAfter [.argument "@odd" "%0" true 1, .argument "@even" "%0" true 1]
          (.argument "@even" "%0" true 0)).kind = .mutator ↔
        0 ≤ alternating.maxDepth ∧ ∃ calls ≤ alternating.maxDepth - 0,
          alternating.ReachesWrite "@even" "%0" calls) :=
  ⟨Program.wellNamed_ofSketches _ _, alternating_returnsNothing,
    verdictAfter_mutator_iff_reachesWrite (Program.wellNamed_ofSketches _ _)
      alternating_returnsNothing _ _ _ _⟩

end Mutation

end TestFocus
