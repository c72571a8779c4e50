import TestFocus.Proofs.Mutation.AliasWalk

namespace TestFocus

-- One of the arguments of the call, the one at `index`, is the value.
def Call.Receives (call : Call) (index : Nat) (value : String) : Prop :=
  ∃ argument, call.arguments[index]? = some argument ∧ argument.value = value

-- An alias in `name` becomes one in another register: the name is stored and loaded back, a pointer
-- is loaded through it, or it is the base of an address, cast or merged.
inductive Dataflow.CarriesAlias (d : Dataflow) (name : String) : String → Prop
  | reloaded {store load : Use} {value : String} {isPointer : Bool} (hstore : store ∈ d.usesOf name)
      (hstored : store.provenance = .storedFrom value) (hload : load ∈ d.usesOf store.register)
      (hloaded : load.provenance = .loadedFrom store.register isPointer) :
      CarriesAlias d name load.register
  | loaded {use : Use} {address : String} (huse : use ∈ d.usesOf name)
      (hloaded : use.provenance = .loadedFrom address true) : CarriesAlias d name use.register
  | addressed {use : Use} {base : String} (huse : use ∈ d.usesOf name)
      (haddressed : use.provenance = .referencedFrom base) : CarriesAlias d name use.register
  | converted {use : Use} {source : String} (huse : use ∈ d.usesOf name)
      (hconverted : use.provenance = .converted source) : CarriesAlias d name use.register
  | merged {use : Use} {sources : List String} (huse : use ∈ d.usesOf name)
      (hmerged : use.provenance = .assigned sources) : CarriesAlias d name use.register

namespace Mutation

open Inquiry

-- The registers of a body that hold an alias of `register`, when `answer` tells what calls do.
inductive IsAlias (answer : Call → Nat → Verdict) (body : Body) (calls : List (Nat × Call))
    (register : String) : String → Prop
  | self : IsAlias answer body calls register register
  | flow {name next : String} (hname : IsAlias answer body calls register name)
      (hnext : body.dataflow.CarriesAlias name next) : IsAlias answer body calls register next
  | handedBack {name next : String} {node index : Nat} {call : Call}
      (hname : IsAlias answer body calls register name) (hcall : (node, call) ∈ calls)
      (hreceives : call.Receives index name) (hkind : (answer call index).kind ≠ .mutator)
      (hreturned : (answer call index).isReturned) (hnext : body.assignee? node = some next) :
      IsAlias answer body calls register next

-- What happens to one name: a store through it is a mutation, and a call that receives it does what
-- the answer says.
inductive Effect (answer : Call → Nat → Verdict) (body : Body) (calls : List (Nat × Call))
    (name : String) : MutationKind → Prop
  | stored (hstored : body.dataflow.isStoredThrough name) : Effect answer body calls name .mutator
  | passed {node index : Nat} {call : Call} (hcall : (node, call) ∈ calls)
      (hreceives : call.Receives index name) :
      Effect answer body calls name (answer call index).kind

-- What happens to the aliases of the register.
def AliasEffect (answer : Call → Nat → Verdict) (body : Body) (calls : List (Nat × Call))
    (register : String) (kind : MutationKind) : Prop :=
  ∃ name, IsAlias answer body calls register name ∧ Effect answer body calls name kind

-- The verdict on a reference when the verdicts on calls are given by a function.
def referenceVerdict (answer : Call → Nat → Verdict) (body : Body) (calls : List (Nat × Call))
    (register : String) : Verdict :=
  Id.run (classifyReference (fun call index => answer call index) body calls register)

theorem mem_passings_iff {calls : List (Nat × Call)} {value : String} {node index : Nat}
    {call : Call} :
    (node, call, index) ∈ passings calls value ↔
      (node, call) ∈ calls ∧ call.Receives index value := by
  simp only [passings, List.mem_flatMap, List.mem_map, List.mem_filter, Call.Receives]
  constructor
  · rintro ⟨⟨node', call'⟩, hcall, ⟨argument, index'⟩, ⟨hmem, hvalue⟩, heq⟩
    cases heq
    exact ⟨hcall, argument, List.mem_zipIdx_iff_getElem?.mp hmem, by simpa using hvalue⟩
  · rintro ⟨hcall, argument, hargument, hvalue⟩
    exact ⟨(node, call), hcall, (argument, index),
      ⟨List.mem_zipIdx_iff_getElem?.mpr hargument, by simpa using hvalue⟩, rfl⟩

theorem mem_reloads_iff {d : Dataflow} {address register : String} :
    register ∈ d.reloads address ↔
      ∃ use ∈ d.usesOf address, (∃ isPointer, use.provenance = .loadedFrom address isPointer) ∧
        use.register = register := by
  have hloads (provenance : Provenance) : Dataflow.loadsFrom address provenance = true ↔
      ∃ isPointer, provenance = .loadedFrom address isPointer := by
    cases provenance <;> simp [Dataflow.loadsFrom]
  simp only [Dataflow.reloads, List.mem_map, List.mem_filter, hloads, and_assoc]

theorem mem_aliasesOf_iff {d : Dataflow} {name next : String} :
    next ∈ aliasesOf d name ↔ d.CarriesAlias name next := by
  rw [aliasesOf, List.mem_flatMap]
  constructor
  · rintro ⟨use, huse, hnext⟩
    unfold aliasesThrough at hnext
    split at hnext
    · next hstored =>
      obtain ⟨load, hload, ⟨isPointer, hloaded⟩, rfl⟩ := mem_reloads_iff.mp hnext
      exact .reloaded huse hstored hload hloaded
    · next hloaded =>
      split at hnext
      · next hpointer =>
        cases List.mem_singleton.mp hnext
        subst hpointer
        exact .loaded huse hloaded
      · cases hnext
    · next haddressed =>
      cases List.mem_singleton.mp hnext
      exact .addressed huse haddressed
    · next hconverted =>
      cases List.mem_singleton.mp hnext
      exact .converted huse hconverted
    · next hmerged =>
      cases List.mem_singleton.mp hnext
      exact .merged huse hmerged
    · cases hnext
    · cases hnext
  · intro h
    cases h with
    | @reloaded store load value isPointer hstore hstored hload hloaded =>
      refine ⟨store, hstore, ?_⟩
      simp only [aliasesThrough, hstored]
      exact mem_reloads_iff.mpr ⟨load, hload, ⟨isPointer, hloaded⟩, rfl⟩
    | @loaded use address huse hloaded => exact ⟨use, huse, by simp [aliasesThrough, hloaded]⟩
    | @addressed use base huse h => exact ⟨use, huse, by simp [aliasesThrough, h]⟩
    | @converted use source huse h => exact ⟨use, huse, by simp [aliasesThrough, h]⟩
    | @merged use sources huse h => exact ⟨use, huse, by simp [aliasesThrough, h]⟩

section

variable {answer : Call → Nat → Verdict} {body : Body} {calls : List (Nat × Call)}
  {register : String}

theorem direct_fixed (answer : Call → Nat → Verdict) :
    Direct fun call index => .done (answer call index) :=
  fun call index => .inl ⟨answer call index, rfl⟩

theorem replied_fixed_iff {log : Log} {call : Call} {index : Nat} {v : Verdict} :
    Replied (fun call index => .done (answer call index)) log call index v ↔
      v = answer call index := by
  constructor
  · rintro (hdone | ⟨x, hask, -⟩)
    · cases hdone
      rfl
    · cases hask
  · rintro rfl
    exact .inl rfl

theorem exists_leads_referenceVerdict (answer : Call → Nat → Verdict) (body : Body)
    (calls : List (Nat × Call)) (register : String) :
    ∃ log, Leads
      (classifyReference (fun call index => .done (answer call index)) body calls register) log
      (.done (referenceVerdict answer body calls register)) := by
  obtain ⟨log, hleads, -⟩ := exists_leads_eval (fun _ => .uncertain)
    (classifyReference (fun call index => .done (answer call index)) body calls register)
  refine ⟨log, ?_⟩
  rw [eval, run_classifyReference] at hleads
  exact hleads

-- Without a mutation the walk has handled every alias: nothing that happens to one is worse than
-- the kind that it ends with, and what is returned counts.
theorem referenceVerdict_covers
    (hkind : (referenceVerdict answer body calls register).kind ≠ .mutator) {name : String}
    (hname : IsAlias answer body calls register name) :
    (∀ kind, Effect answer body calls name kind →
        kind.rank ≤ (referenceVerdict answer body calls register).kind.rank) ∧
      (body.dataflow.isReturned name →
        (referenceVerdict answer body calls register).isReturned) := by
  obtain ⟨log, hleads⟩ := exists_leads_referenceVerdict answer body calls register
  obtain ⟨-, -, names, -, hregister, hhandled⟩ := handled_of_walkAliases (direct_fixed answer)
    (stepsSuffice_start body.dataflow calls register) hleads (List.Subset.refl _) hkind
  have hhandled (name : String) (hm : name ∈ names) := hhandled name hm (by simp)
  -- the handled names are closed under the flow of aliases, so every alias is one of them
  have hmem : name ∈ names := by
    induction hname with
    | self => exact hregister (by simp)
    | flow _ hnext ih => exact (hhandled _ ih).flow _ (mem_aliasesOf_iff.mpr hnext)
    | handedBack _ hcall hreceives _ hreturned hnext ih =>
      obtain ⟨w, hw, -, hback⟩ :=
        (hhandled _ ih).passed _ _ _ (mem_passings_iff.mpr ⟨hcall, hreceives⟩)
      rw [replied_fixed_iff.mp hw] at hback
      exact hback hreturned _ hnext
  refine ⟨?_, (hhandled name hmem).returned⟩
  rintro kind (hstored | ⟨hcall, hreceives⟩)
  · rw [(hhandled name hmem).stored] at hstored
    cases hstored
  · obtain ⟨w, hw, hrank, -⟩ :=
      (hhandled name hmem).passed _ _ _ (mem_passings_iff.mpr ⟨hcall, hreceives⟩)
    rwa [replied_fixed_iff.mp hw] at hrank

-- Whatever the walk finds happens to an alias.
theorem referenceVerdict_found (answer : Call → Nat → Verdict) (body : Body)
    (calls : List (Nat × Call)) (register : String) :
    ((referenceVerdict answer body calls register).kind = .inspector ∨
        AliasEffect answer body calls register (referenceVerdict answer body calls register).kind) ∧
      ((referenceVerdict answer body calls register).isReturned →
        ∃ name, IsAlias answer body calls register name ∧ body.dataflow.isReturned name) := by
  obtain ⟨log, hleads⟩ := exists_leads_referenceVerdict answer body calls register
  obtain ⟨hfound, hreturned, -⟩ := found_of_walkAliases
    (A := IsAlias answer body calls register) (direct_fixed answer)
    (fun name next hname hnext => .flow hname (mem_aliasesOf_iff.mp hnext))
    (fun name node call index w next hname htake hw hkind hret hnext => by
      obtain ⟨hcall, hreceives⟩ := mem_passings_iff.mp htake
      rw [replied_fixed_iff.mp hw] at hkind hret
      exact .handedBack hname hcall hreceives hkind hret hnext)
    hleads (List.Subset.refl _) (by
      intro name hm
      cases List.mem_singleton.mp hm
      exact .self)
  constructor
  · obtain heq | ⟨name, hname, ⟨hkind, hstored⟩ | ⟨node, call, index, w, htake, hw, hkind⟩⟩ :=
      hfound
    · exact .inl heq
    · rw [hkind]
      exact .inr ⟨name, hname, .stored hstored⟩
    · obtain ⟨hcall, hreceives⟩ := mem_passings_iff.mp htake
      rw [replied_fixed_iff.mp hw] at hkind
      rw [← hkind]
      exact .inr ⟨name, hname, .passed hcall hreceives⟩
  · intro hret
    obtain hret | hfound := hreturned hret
    · cases hret
    · exact hfound

theorem referenceVerdict_isWorst (answer : Call → Nat → Verdict) (body : Body)
    (calls : List (Nat × Call)) (register : String) :
    (referenceVerdict answer body calls register).kind.IsWorst
      (AliasEffect answer body calls register) := by
  refine ⟨(referenceVerdict_found answer body calls register).1, ?_⟩
  rintro kind ⟨name, hname, heffect⟩
  by_cases hkind : (referenceVerdict answer body calls register).kind = .mutator
  · rw [hkind]
    exact MutationKind.rank_le_two _
  · exact (referenceVerdict_covers hkind hname).1 kind heffect

theorem referenceVerdict_isReturned_iff
    (hkind : (referenceVerdict answer body calls register).kind ≠ .mutator) :
    (referenceVerdict answer body calls register).isReturned ↔
      ∃ name, IsAlias answer body calls register name ∧ body.dataflow.isReturned name := by
  constructor
  · exact (referenceVerdict_found answer body calls register).2
  · rintro ⟨name, hname, hreturned⟩
    exact (referenceVerdict_covers hkind hname).2 hreturned

-- The verdict on a reference does not depend on the order of the walk: it is a mutation exactly
-- when one happens to some alias, and short of that an alias in a call of which nothing certain is
-- known makes it uncertain.
theorem referenceVerdict_closure (p : Program) (answer : Call → Nat → Verdict) (body : Body)
    (register : String) :
    ((referenceVerdict answer body (p.callsOf body) register).kind = .mutator ↔
        AliasEffect answer body (p.callsOf body) register .mutator) ∧
      ((referenceVerdict answer body (p.callsOf body) register).kind = .uncertain ↔
        ¬AliasEffect answer body (p.callsOf body) register .mutator ∧
          AliasEffect answer body (p.callsOf body) register .uncertain) ∧
      ((referenceVerdict answer body (p.callsOf body) register).kind = .inspector ↔
        ¬AliasEffect answer body (p.callsOf body) register .mutator ∧
          ¬AliasEffect answer body (p.callsOf body) register .uncertain) ∧
      ((referenceVerdict answer body (p.callsOf body) register).kind ≠ .mutator →
        ((referenceVerdict answer body (p.callsOf body) register).isReturned ↔
          ∃ name, IsAlias answer body (p.callsOf body) register name ∧
            body.dataflow.isReturned name)) := by
  have hworst := referenceVerdict_isWorst answer body (p.callsOf body) register
  exact ⟨hworst.mutator_iff, hworst.uncertain_iff, hworst.inspector_iff,
    referenceVerdict_isReturned_iff⟩

end

end Mutation

end TestFocus
