import TestFocus.Proofs.Mutation.Inspection

namespace TestFocus.Mutation

open Inquiry

-- The questions that an inspection may ask are about functions that the body calls by name and that
-- may be looked into.
def AskedBy (p : Program) (body : Body) (x : Question) : Prop :=
  ∃ node call, body.call? node = some call ∧ call.isDirect ∧
    ¬p.isOffLimits (p.registry.resolve call.callee) ∧
    x.function = p.registry.resolve call.callee

-- Passing an argument is settled at once, or by the parameter of a function that may be looked
-- into.
theorem callArgument_cases (p : Program) (call : Call) (index : Nat) :
    (∃ v, callArgument p askArgument call index = .done v ∧ v.isReturned = false ∧
      (v.kind = .mutator → isMemoryIntrinsic (p.registry.resolve call.callee) ∧ index = 0)) ∨
    (∃ register, callArgument p askArgument call index =
        askArgument (p.registry.resolve call.callee) register ∧
      call.isDirect ∧ ¬p.isOffLimits (p.registry.resolve call.callee)) := by
  simp only [callArgument]
  split
  · exact .inl ⟨_, rfl, rfl, nofun⟩
  · split
    · next hintrinsic =>
      refine .inl ⟨_, rfl, ?_, ?_⟩
      · split <;> rfl
      · intro hkind
        refine ⟨hintrinsic, ?_⟩
        split at hkind
        · next hindex => exact hindex
        · cases hkind
    · split
      · exact .inl ⟨_, rfl, rfl, nofun⟩
      · next hlimits =>
        simp only [Bool.or_eq_true, not_or] at hlimits
        split
        · exact .inl ⟨_, rfl, rfl, nofun⟩
        · split
          · exact .inl ⟨_, rfl, rfl, nofun⟩
          · next hdirect =>
            split
            · exact .inl ⟨_, rfl, rfl, nofun⟩
            · split
              · exact .inl ⟨_, rfl, rfl, nofun⟩
              · split
                · exact .inl ⟨_, rfl, rfl, nofun⟩
                · split
                  · exact .inl ⟨_, rfl, rfl, nofun⟩
                  · exact .inr ⟨_, rfl, by simpa using hdirect, hlimits.2⟩

theorem callKindOfResult_cases (p : Program) (call : Call) :
    (∃ kind, callKindOfResult p askResult call = .done kind ∧ kind ≠ .mutator) ∨
    (callKindOfResult p askResult call =
        .ask (.result (p.registry.resolve call.callee)) (fun v => .done v.kind) ∧
      call.isDirect ∧ ¬p.isOffLimits (p.registry.resolve call.callee)) := by
  simp only [callKindOfResult]
  split
  · exact .inl ⟨_, rfl, by simp⟩
  · next hlimits =>
    split
    · next hdirect => exact .inr ⟨rfl, hdirect, hlimits⟩
    · exact .inl ⟨_, rfl, by simp⟩

theorem allAsked_passAlias {P : Question → Prop} {inspect : Call → Nat → Inquiry Verdict}
    (body : Body) {takes : List (Nat × Call × Nat)}
    (h : ∀ node call index, (node, call, index) ∈ takes → (inspect call index).AllAsked P)
    (kind : MutationKind) (worklist : List String) :
    (passAlias inspect body takes kind worklist).AllAsked P := by
  induction takes generalizing kind worklist with
  | nil => trivial
  | cons take rest ih =>
    obtain ⟨node, call, index⟩ := take
    apply AllAsked.bind (h node call index (by simp))
    intro v
    split
    · trivial
    · exact ih (fun node call index hm => h node call index (List.mem_cons_of_mem _ hm)) _ _

theorem mem_of_mem_passings {calls : List (Nat × Call)} {value : String} {node index : Nat}
    {call : Call} (h : (node, call, index) ∈ passings calls value) : (node, call) ∈ calls := by
  obtain ⟨⟨node', call'⟩, hm, htake⟩ := List.mem_flatMap.mp h
  obtain ⟨entry, -, heq⟩ := List.mem_map.mp htake
  cases heq
  exact hm

theorem allAsked_walkAliases {P : Question → Prop} {inspect : Call → Nat → Inquiry Verdict}
    (body : Body) {calls : List (Nat × Call)}
    (h : ∀ node call index, (node, call) ∈ calls → (inspect call index).AllAsked P) (steps : Nat)
    (seen worklist : List String) (verdict : Verdict) :
    (walkAliases inspect body calls steps seen worklist verdict).AllAsked P := by
  induction steps generalizing seen worklist verdict with
  | zero => trivial
  | succ steps ih =>
    cases worklist with
    | nil => trivial
    | cons name worklist =>
      simp only [walkAliases]
      split
      · exact ih _ _ _
      · split
        · trivial
        · apply AllAsked.bind
          · apply allAsked_passAlias
            intro node call index hm
            exact h node call index (mem_of_mem_passings hm)
          · intro out
            cases out with
            | none => trivial
            | some out => exact ih _ _ _

theorem call?_of_mem_callsOf {p : Program} {body : Body} {node : Nat} {call : Call}
    (h : (node, call) ∈ p.callsOf body) : body.call? node = some call := by
  obtain ⟨site, -, hsite⟩ := List.mem_filterMap.mp h
  obtain ⟨call', hcall, heq⟩ := Option.map_eq_some_iff.mp hsite
  cases heq
  exact hcall

theorem allAsked_walkSources (p : Program) (body : Body) (steps : Nat)
    (seen worklist : List String) (verdict : Verdict) :
    (walkSources p askResult body steps seen worklist verdict).AllAsked (AskedBy p body) := by
  induction steps generalizing seen worklist verdict with
  | zero => trivial
  | succ steps ih =>
    cases worklist with
    | nil => trivial
    | cons value worklist =>
      simp only [walkSources]
      split
      · exact ih _ _ _
      · split
        all_goals first | exact ih _ _ _ | trivial | skip
        split
        · exact ih _ _ _
        · next node _ _ call hcall =>
          apply AllAsked.bind
          · obtain ⟨kind, heq, -⟩ | ⟨heq, hdirect, hlimits⟩ := callKindOfResult_cases p call
            · rw [heq]
              trivial
            · rw [heq]
              exact ⟨⟨node, call, hcall, hdirect, hlimits, rfl⟩, fun _ => trivial⟩
          · intro kind
            split
            · trivial
            · exact ih _ _ _

theorem allAsked_classifyReturns (p : Program) (body : Body) (values : List String)
    (verdict : Verdict) :
    (classifyReturns p askResult body values verdict).AllAsked (AskedBy p body) := by
  induction values generalizing verdict with
  | nil => trivial
  | cons value rest ih =>
    apply AllAsked.bind (allAsked_walkSources p body _ _ _ _)
    intro v
    dsimp only
    split
    · trivial
    · exact ih _

theorem allAsked_inspection (p : Program) (body : Body) (q : Question) :
    (p.inspection body q).AllAsked (AskedBy p body) := by
  cases q with
  | argument function register =>
    apply allAsked_walkAliases
    intro node call index hm
    obtain ⟨v, heq, -⟩ | ⟨parameter, heq, hdirect, hlimits⟩ := callArgument_cases p call index
    · rw [heq]
      trivial
    · rw [heq]
      exact ⟨⟨node, call, call?_of_mem_callsOf hm, hdirect, hlimits, rfl⟩, fun _ => trivial⟩
  | result function => exact allAsked_classifyReturns p body _ _

end TestFocus.Mutation
