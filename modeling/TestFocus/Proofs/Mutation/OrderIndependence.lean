import TestFocus.Proofs.Mutation.Certainty

namespace TestFocus

open Mutation Inquiry Relation

namespace Program

-- In the body of `function`, the register `name` holds what `register` points to, because of the
-- flow inside of the body or because a call hands it back.
inductive Carries (p : Program) : String → String → String → Prop
  | self (function register : String) : Carries p function register register
  | flow {function register name next : String} {body : Body}
      (hname : Carries p function register name) (hbody : p.bodies.get? function = some body)
      (hnext : next ∈ aliasesOf body.dataflow name) : Carries p function register next
  | back {function register name next callee parameter out : String} {body target : Body}
      {node index : Nat} {call : Call}
      (hname : Carries p function register name) (hbody : p.bodies.get? function = some body)
      (htake : (node, call, index) ∈ passings (p.callsOf body) name)
      (hpass : callArgument p askArgument call index = askArgument callee parameter)
      (htarget : p.body? callee = some target) (hout : Carries p target.name parameter out)
      (hreturned : target.dataflow.isReturned out) (hnext : body.assignee? node = some next) :
      Carries p function register next

-- The function returns what the register points to.
def HandsBack (p : Program) (function register : String) : Prop :=
  ∃ body name, p.bodies.get? function = some body ∧ p.Carries function register name ∧
    body.dataflow.isReturned name

-- The call at `node` hands what the register of the first slot points to to the parameter of the
-- second one.
def HandsOnAt (p : Program) (slot : String × String) (node : Nat) (slot' : String × String) :
    Prop :=
  ∃ body name call index callee target, p.bodies.get? slot.1 = some body ∧
    p.Carries slot.1 slot.2 name ∧ (node, call, index) ∈ passings (p.callsOf body) name ∧
    callArgument p askArgument call index = askArgument callee slot'.2 ∧
    p.body? callee = some target ∧ target.name = slot'.1

def HandsOn (p : Program) (slot slot' : String × String) : Prop :=
  ∃ node, p.HandsOnAt slot node slot'

-- Such a call that keeps its result.
def KeepsResultOf (p : Program) (slot slot' : String × String) : Prop :=
  ∃ body node next, p.bodies.get? slot.1 = some body ∧ p.HandsOnAt slot node slot' ∧
    body.assignee? node = some next

-- No call on a cycle keeps a reference that is handed back to it.
def NoKeptReturnOnCycle (p : Program) : Prop :=
  ∀ slot slot', p.KeepsResultOf slot slot' → ReflTransGen p.HandsOn slot' slot →
    ¬p.HandsBack slot'.1 slot'.2

end Program

namespace Mutation

variable {p : Program}

-- The questions about references that are handed back.
def HandedBack (p : Program) : Question → Prop
  | .argument function register => p.HandsBack function register
  | .result _ => False

theorem body_of_body? (hp : p.WellNamed) {callee : String} {target : Body}
    (h : p.body? callee = some target) : p.bodies.get? target.name = some target := by
  rw [hp _ _ h]
  exact h

theorem target?_argument {callee parameter : String} {target : Body}
    (h : p.body? callee = some target) :
    p.target? (.argument callee parameter) = some (.argument target.name parameter) := by
  simp only [Program.target?, Question.function, h, Option.map_some, Question.about]

theorem argument_of_target? {callee parameter : String} {q : Question}
    (h : p.target? (.argument callee parameter) = some q) :
    ∃ target, p.body? callee = some target ∧ q = .argument target.name parameter := by
  obtain ⟨target, htarget, rfl⟩ := Option.map_eq_some_iff.mp h
  exact ⟨target, htarget, rfl⟩

theorem carries_of_carried (hp : p.WellNamed) {function register name : String} {body : Body}
    (hbody : p.bodies.get? function = some body)
    (h : Carried p (HandedBack p) body register name) : p.Carries function register name := by
  induction h with
  | self => exact .self _ _
  | flow _ hnext ih => exact .flow ih hbody hnext
  | back _ htake hask hx hnext ih =>
    obtain ⟨callee, parameter, hpass, rfl⟩ := askArgument_of_ask hask
    obtain ⟨q, hq, hreturns⟩ := hx
    obtain ⟨target, htarget, rfl⟩ := argument_of_target? hq
    obtain ⟨target', out, hget, hout, hreturned⟩ := hreturns
    rw [body_of_body? hp htarget] at hget
    cases hget
    exact .back ih hbody htake hpass htarget hout hreturned hnext

-- What a walk on bounded answers finds, it finds at registers that carry the reference.
theorem found_at_carrier (hp : p.WellNamed) {function register : String} {body : Body}
    (hbody : p.bodies.get? function = some body) {log : Log} {v : Verdict}
    (hleads : Leads (p.inquiry (.argument function register)) log (.done v))
    (hlog : Bounded p (HandedBack p) log) :
    (v.isReturned → ∃ name, p.Carries function register name ∧ body.dataflow.isReturned name) ∧
      ∀ x a, (x, a) ∈ log → ∃ name node call index, p.Carries function register name ∧
        (node, call, index) ∈ passings (p.callsOf body) name ∧
        callArgument p askArgument call index = .ask x .done := by
  rw [Program.inquiry_eq hbody] at hleads
  obtain ⟨-, hreturned, hasked⟩ := found_of_walkAliases
    (A := Carried p (HandedBack p) body register) (direct_callArgument p)
    (fun name next hname hnext => .flow hname hnext)
    (fun name node call index w next hname htake hw _ hret hnext =>
      hname.replied hlog htake hw hret hnext)
    hleads (List.Subset.refl _) (by
      intro name hm
      cases List.mem_singleton.mp hm
      exact .self)
  constructor
  · intro hret
    obtain hret | ⟨name, hname, hret⟩ := hreturned hret
    · cases hret
    · exact ⟨name, carries_of_carried hp hbody hname, hret⟩
  · intro x a hm
    obtain ⟨name, node, call, index, hname, hrest⟩ := hasked x a hm
    exact ⟨name, node, call, index, carries_of_carried hp hbody hname, hrest⟩

-- A question about a reference that is handed on, from the call that asks it.
theorem handsOnAt_of_ask {function register name : String} {body : Body} {node index : Nat}
    {call : Call} {x q : Question} (hbody : p.bodies.get? function = some body)
    (hname : p.Carries function register name)
    (htake : (node, call, index) ∈ passings (p.callsOf body) name)
    (hask : callArgument p askArgument call index = .ask x .done) (htarget : p.target? x = some q) :
    ∃ callee parameter, q = .argument callee parameter ∧
      p.HandsOnAt (function, register) node (callee, parameter) := by
  obtain ⟨callee, parameter, hpass, rfl⟩ := askArgument_of_ask hask
  obtain ⟨target, hfound, rfl⟩ := argument_of_target? htarget
  exact ⟨target.name, parameter, rfl, body, name, call, index, callee, target, hbody, hname, htake,
    hpass, hfound, rfl⟩

-- The questions below a question about a reference are about what it is handed on to.
theorem handsOn_of_below (hp : p.WellNamed) {function register : String} {q : Question}
    (h : Below p (HandedBack p) (.argument function register) q) :
    ∃ callee parameter, q = .argument callee parameter ∧
      p.HandsOn (function, register) (callee, parameter) := by
  obtain ⟨log, v, x, a, hleads, hlog, hm, htarget⟩ := h
  cases hbody : p.bodies.get? function with
  | none =>
    have hdone : p.inquiry (.argument function register) = .done .uncertain := by
      simp only [Program.inquiry, Question.function, hbody]
    rw [hdone] at hleads
    obtain ⟨rfl, -⟩ := leads_done_iff.mp hleads
    cases hm
  | some body =>
    obtain ⟨name, node, call, index, hname, htake, hask⟩ :=
      (found_at_carrier hp hbody hleads hlog).2 x a hm
    obtain ⟨callee, parameter, rfl, hhands⟩ := handsOnAt_of_ask hbody hname htake hask htarget
    exact ⟨callee, parameter, rfl, node, hhands⟩

theorem handsOn_of_path (hp : p.WellNamed) {function register : String} {q : Question}
    (h : ReflTransGen (Below p (HandedBack p)) (.argument function register) q) :
    ∃ callee parameter, q = .argument callee parameter ∧
      ReflTransGen p.HandsOn (function, register) (callee, parameter) := by
  induction h with
  | refl => exact ⟨function, register, rfl, .refl⟩
  | tail _ hbelow ih =>
    obtain ⟨callee, parameter, rfl, hpath⟩ := ih
    obtain ⟨callee', parameter', rfl, hhands⟩ := handsOn_of_below hp hbelow
    exact ⟨callee', parameter', rfl, hpath.tail hhands⟩

-- A walk on benign answers that ends without a mutation handles every register that carries the
-- reference.
theorem mem_of_carries (hp : p.WellNamed) {function register name : String}
    (h : p.Carries function register name) {body : Body}
    (hbody : p.bodies.get? function = some body) {log : Log} {v : Verdict} {names : List String}
    (hlog : ∀ y w, (y, w) ∈ log → w = benign p (HandedBack p) y) (hregister : register ∈ names)
    (hhandled : ∀ n ∈ names,
      Handled (callArgument p askArgument) body (p.callsOf body) log v names n) :
    name ∈ names := by
  induction h with
  | self => exact hregister
  | flow _ hbody' hnext ih =>
    rw [hbody] at hbody'
    cases hbody'
    exact (hhandled _ (ih hbody hregister)).flow _ hnext
  | @back function register name next callee parameter out body' target node index call _ hbody'
      htake hpass htarget hout hreturned hnext ih _ =>
    rw [hbody] at hbody'
    cases hbody'
    obtain ⟨w, hw, -, hback⟩ := (hhandled _ (ih hbody hregister)).passed node call index htake
    refine hback ?_ next hnext
    obtain hdone | ⟨x, hask, hm⟩ := hw
    · rw [hpass] at hdone
      cases hdone
    · rw [hpass] at hask
      cases hask
      rw [hlog _ w hm]
      simp only [benign, decide_eq_true_eq]
      exact ⟨rfl, _, target?_argument htarget, target, out, body_of_body? hp htarget, hout,
        hreturned⟩

theorem returnExact_handedBack (hp : p.WellNamed) (hcycle : p.NoKeptReturnOnCycle) :
    ReturnExact p (HandedBack p) where
  closed := by
    intro q log v hargument hleads hlog hreturned
    cases q with
    | result function => cases hargument
    | argument function register =>
      cases hbody : p.bodies.get? function with
      | none =>
        have hdone : p.inquiry (.argument function register) = .done .uncertain := by
          simp only [Program.inquiry, Question.function, hbody]
        rw [hdone] at hleads
        have heq := (leads_done_iff.mp hleads).2
        cases heq
        cases hreturned
      | some body =>
        obtain ⟨name, hname, hret⟩ := (found_at_carrier hp hbody hleads hlog).1 hreturned
        exact ⟨body, name, hbody, hname, hret⟩
  attained := by
    intro q hargument hreturns hkind
    cases q with
    | result function => cases hargument
    | argument function register =>
      obtain ⟨body, name, hbody, hname, hret⟩ := hreturns
      obtain ⟨log, hleads, hlog⟩ :=
        exists_leads_benign p (HandedBack p) (.argument function register)
      generalize (p.inquiry (.argument function register)).eval (benign p (HandedBack p)) = v at *
      rw [Program.inquiry_eq hbody] at hleads
      obtain ⟨-, -, names, -, hregister, hhandled⟩ := handled_of_walkAliases
        (direct_callArgument p) (stepsSuffice_start body.dataflow (p.callsOf body) register) hleads
        (List.Subset.refl _) hkind
      have hhandled (n : String) (hn : n ∈ names) := hhandled n hn (by simp)
      have hmem := mem_of_carries hp hname hbody hlog (hregister (by simp)) hhandled
      exact (hhandled name hmem).returned hret
  acyclic := by
    intro q x q' hkeeps htarget hpath
    obtain ⟨function, register, body, name, node, call, index, next, rfl, hbody, hname, htake, hask,
      hnext⟩ := hkeeps
    obtain ⟨callee, parameter, rfl, hhands⟩ := handsOnAt_of_ask hbody
      (carries_of_carried hp hbody hname) htake hask htarget
    obtain ⟨function', register', heq, hpath⟩ := handsOn_of_path hp hpath
    cases heq
    exact hcycle _ _ ⟨body, node, next, hbody, hhands, hnext⟩ hpath

-- A query is settled at once or asks one question.
theorem Query.inquiry_cases (p : Program) (q : Query) :
    (∃ v, q.inquiry p = .done v) ∨ ∃ x, q.inquiry p = .ask x .done := by
  cases q with
  | argument function register isReference depth =>
    cases isReference with
    | false => exact .inl ⟨.inspector, rfl⟩
    | true => exact .inr ⟨_, rfl⟩
  | callArgument call index depth => exact direct_callArgument p call index
  | result function depth => exact .inr ⟨_, rfl⟩

-- Whatever was asked before, the kind of the next verdict is the one that a fresh table gives, as
-- long as no call on a cycle keeps a reference that is handed back to it.
theorem verdictAfter_kind_eq_fresh (hp : p.WellNamed) (hcycle : p.NoKeptReturnOnCycle)
    (earlier : List Query) (q : Query) :
    (p.verdictAfter earlier q).kind = (p.verdictAfter [] q).kind := by
  obtain ⟨v, heq⟩ | ⟨x, heq⟩ := Query.inquiry_cases p q
  · have hfixed (queries : List Query) : p.verdictAfter queries q = v := by
      obtain ⟨reports, hleads, -⟩ := verdictAfter_derived hp queries q
      rw [heq] at hleads
      have hdone := (leads_done_iff.mp hleads).2
      cases hdone
      rfl
    rw [hfixed earlier, hfixed []]
  · obtain ⟨r, hanswered, hverdict⟩ := verdictAfter_of_ask hp earlier heq
    obtain ⟨r', hanswered', hverdict'⟩ := verdictAfter_of_ask hp [] heq
    rw [hverdict, hverdict']
    exact hanswered.kind_unique hp (returnExact_handedBack hp hcycle) hanswered'

-- The call of the sketch behind a reference that is handed on.
theorem exists_call_of_handsOnAt {sketches : List Sketch} {maxDepth node : Nat}
    {slot slot' : String × String} {body : Body}
    (hbody : (Program.ofSketches sketches maxDepth).bodies.get? slot.1 = some body)
    (h : (Program.ofSketches sketches maxDepth).HandsOnAt slot node slot') :
    ∃ s ∈ sketches, s.name = slot.1 ∧ s.body = body ∧
      ∃ c, s.calls[node]? = some c ∧ c.callee = slot'.1 := by
  obtain ⟨body', name, call, index, callee, target, hbody', -, htake, hpass, htarget, hname⟩ := h
  rw [hbody] at hbody'
  cases hbody'
  have hcall := call?_of_mem_callsOf (mem_of_mem_passings htake)
  obtain ⟨s, hs, hslot, rfl⟩ := Program.exists_sketch hbody
  rw [Sketch.call?_body] at hcall
  obtain ⟨c, hc, rfl⟩ := Option.map_eq_some_iff.mp hcall
  refine ⟨s, hs, hslot, rfl, c, hc, ?_⟩
  obtain ⟨v, heq, -⟩ | ⟨parameter, heq, -⟩ := callArgument_cases
    (Program.ofSketches sketches maxDepth) (Sketch.call c) index
  · rw [heq] at hpass
    cases hpass
  · rw [heq] at hpass
    cases hpass
    rw [← hname, Program.wellNamed_ofSketches _ _ _ _ htarget]
    rfl

-- Results are kept only from functions that call nothing, which are on no cycle.
theorem noKeptReturnOnCycle_ofSketches {sketches : List Sketch} {maxDepth : Nat}
    (h : ∀ s ∈ sketches, ∀ c ∈ s.calls, c.result.isSome → ∀ t ∈ sketches, t.name = c.callee →
      t.calls = []) : (Program.ofSketches sketches maxDepth).NoKeptReturnOnCycle := by
  rintro slot slot' ⟨body, node, next, hbody, hhands, hnext⟩ hpath -
  obtain ⟨s, hs, hname, rfl, c, hc, hcallee⟩ := exists_call_of_handsOnAt hbody hhands
  rw [Sketch.assignee?_body, hc, Option.bind_some] at hnext
  have hleaf := h s hs c (List.mem_of_getElem? hc) (by simp [hnext])
  rcases hpath.cases_head with rfl | ⟨slot'', ⟨node', hhands'⟩, -⟩
  · rw [hleaf s hs (hname.trans hcallee.symm)] at hc
    cases hc
  · obtain ⟨body', -, -, -, -, -, hbody', -⟩ := id hhands'
    obtain ⟨t, ht, hname', -, c', hc', -⟩ := exists_call_of_handsOnAt hbody' hhands'
    rw [hleaf t ht (hname'.trans hcallee.symm)] at hc'
    cases hc'

-- `@walk` and `@step` call each other. `@walk` keeps the pointer that `@same` hands back, and drops
-- the one that `@step` does.
def walkingInSteps : Program :=
  .ofSketches
    [{ name := "@walk",
       calls := [{ callee := "@same", value := "%0", result := some "%1" },
         { callee := "@step", value := "%1" }] },
     { name := "@step", calls := [{ callee := "@walk", value := "%0" }],
       dataflow := Dataflow.empty.ret "%0" },
     { name := "@same", dataflow := Dataflow.empty.ret "%0" }] 4

theorem walkingInSteps_noKeptReturnOnCycle : walkingInSteps.NoKeptReturnOnCycle :=
  noKeptReturnOnCycle_ofSketches (by simp)

theorem verdictAfter_kind_eq_fresh_walkingInSteps :
    walkingInSteps.WellNamed ∧ walkingInSteps.NoKeptReturnOnCycle ∧
      (walkingInSteps.verdictAfter [.argument "@step" "%0" true 1, .result "@walk" 2]
        (.argument "@walk" "%0" true 1)).kind =
      (walkingInSteps.verdictAfter [] (.argument "@walk" "%0" true 1)).kind :=
  ⟨Program.wellNamed_ofSketches _ _, walkingInSteps_noKeptReturnOnCycle,
    verdictAfter_kind_eq_fresh (Program.wellNamed_ofSketches _ _)
      walkingInSteps_noKeptReturnOnCycle _ _⟩

-- `@g` keeps the pointer that its call of itself hands back, and writes through it. Asked first,
-- `@f` is inspected while that pointer is not known to be handed back.
def keptOnCycle : Program :=
  .ofSketches
    [{ name := "@f", calls := [{ callee := "@g", value := "%0" }] },
     { name := "@g",
       calls := [{ callee := "@g", value := "%0", result := some "%2" },
         { callee := "@f", value := "%0" }],
       dataflow := (Dataflow.empty.store "%2" "1").ret "%0" }] 5

example :
    (keptOnCycle.verdictAfter [.argument "@g" "%0" true 1] (.argument "@f" "%0" true 1)).kind =
        .mutator ∧
      (keptOnCycle.verdictAfter [] (.argument "@f" "%0" true 1)).kind = .inspector := by
  decide

end Mutation

end TestFocus
