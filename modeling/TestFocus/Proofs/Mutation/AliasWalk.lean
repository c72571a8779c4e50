import TestFocus.Proofs.Mutation.AliasSteps
import TestFocus.Proofs.Mutation.Inspection

namespace TestFocus

namespace MutationKind

-- How far a kind is from an inspector.
def rank : MutationKind → Nat
  | inspector => 0
  | uncertain => 1
  | mutator => 2

theorem rank_merge (a b : MutationKind) : (a.merge b).rank = max a.rank b.rank := by
  cases a <;> cases b <;> rfl

theorem merge_eq_or (a b : MutationKind) : a.merge b = a ∨ a.merge b = b := by
  cases a <;> cases b <;> simp [merge]

theorem merge_ne_mutator {a b : MutationKind} (ha : a ≠ mutator) (hb : b ≠ mutator) :
    a.merge b ≠ mutator := by
  obtain h | h := a.merge_eq_or b
  · rwa [h]
  · rwa [h]

theorem rank_le_two (a : MutationKind) : a.rank ≤ 2 := by
  cases a <;> decide

@[simp] theorem merge_inspector (a : MutationKind) : a.merge inspector = a := by
  cases a <;> rfl

@[simp] theorem merge_mutator (a : MutationKind) : a.merge mutator = mutator := by
  cases a <;> rfl

theorem ne_mutator_of_rank_le {a b : MutationKind} (h : a.rank ≤ b.rank) (hb : b ≠ mutator) :
    a ≠ mutator := by
  cases a <;> cases b <;> simp_all [rank]

theorem eq_inspector_of_rank_le {a b : MutationKind} (h : a.rank ≤ b.rank) (hb : b = inspector) :
    a = inspector := by
  cases a <;> cases b <;> simp_all [rank]

@[simp] theorem isMutator_iff (a : MutationKind) : a.isMutator = true ↔ a = mutator := by
  simp [isMutator]

-- The worst of the kinds that were found, an inspector if there are none.
structure IsWorst (kind : MutationKind) (found : MutationKind → Prop) : Prop where
  attained : kind = inspector ∨ found kind
  bound : ∀ other, found other → other.rank ≤ kind.rank

theorem IsWorst.mutator_iff {kind : MutationKind} {found : MutationKind → Prop}
    (h : kind.IsWorst found) : kind = mutator ↔ found mutator := by
  constructor
  · rintro rfl
    exact h.attained.resolve_left nofun
  · intro hfound
    by_contra hkind
    exact ne_mutator_of_rank_le (h.bound _ hfound) hkind rfl

theorem IsWorst.inspector_iff {kind : MutationKind} {found : MutationKind → Prop}
    (h : kind.IsWorst found) : kind = inspector ↔ ¬found mutator ∧ ¬found uncertain := by
  constructor
  · rintro rfl
    exact ⟨fun hfound => absurd (h.bound _ hfound) (by decide),
      fun hfound => absurd (h.bound _ hfound) (by decide)⟩
  · rintro ⟨hmutator, huncertain⟩
    obtain heq | hfound := h.attained
    · exact heq
    · cases kind with
      | mutator => exact absurd hfound hmutator
      | inspector => rfl
      | uncertain => exact absurd hfound huncertain

theorem IsWorst.uncertain_iff {kind : MutationKind} {found : MutationKind → Prop}
    (h : kind.IsWorst found) : kind = uncertain ↔ ¬found mutator ∧ found uncertain := by
  constructor
  · rintro rfl
    exact ⟨fun hfound => absurd (h.bound _ hfound) (by decide), h.attained.resolve_left nofun⟩
  · rintro ⟨hmutator, huncertain⟩
    cases kind with
    | mutator => exact absurd (h.mutator_iff.mp rfl) hmutator
    | inspector => exact absurd huncertain (h.inspector_iff.mp rfl).2
    | uncertain => rfl

theorem IsWorst.of_none {found : MutationKind → Prop} (h : ∀ kind, ¬found kind) :
    inspector.IsWorst found :=
  ⟨.inl rfl, fun kind hfound => absurd hfound (h kind)⟩

-- Nothing is worse than a mutator, whatever else is found.
theorem IsWorst.of_mutator {kind : MutationKind} {found found' : MutationKind → Prop}
    (h : kind.IsWorst found) (hkind : kind = mutator) (hfound : found mutator → found' mutator) :
    kind.IsWorst found' := by
  subst hkind
  exact ⟨.inr (hfound (h.mutator_iff.mp rfl)), fun other _ => other.rank_le_two⟩

-- A merged kind is the one from before or was found.
theorem IsWorst.attained_merge {kind : MutationKind} {found : MutationKind → Prop}
    (h : kind.IsWorst found) (before : MutationKind) :
    before.merge kind = before ∨ found (before.merge kind) := by
  obtain heq | heq := before.merge_eq_or kind
  · exact .inl heq
  · obtain hkind | hfound := h.attained
    · rw [hkind, merge_inspector]
      exact .inl rfl
    · rw [heq]
      exact .inr hfound

-- The kinds found in two places, merged.
theorem IsWorst.merge {a b : MutationKind} {found found' : MutationKind → Prop}
    (h : a.IsWorst found) (h' : b.IsWorst found') :
    (a.merge b).IsWorst fun k => found k ∨ found' k := by
  constructor
  · obtain heq | heq := a.merge_eq_or b
    · rw [heq]
      exact h.attained.imp_right .inl
    · rw [heq]
      exact h'.attained.imp_right .inr
  · rintro k (hk | hk)
    · rw [rank_merge]
      exact (h.bound k hk).trans (le_max_left _ _)
    · rw [rank_merge]
      exact (h'.bound k hk).trans (le_max_right _ _)

end MutationKind

namespace Mutation

open Inquiry

-- Every argument is settled at once or by one question.
def Direct (inspect : Call → Nat → Inquiry Verdict) : Prop :=
  ∀ call index, (∃ v, inspect call index = .done v) ∨ ∃ x, inspect call index = .ask x .done

-- The log holds this verdict on an argument.
def Replied (inspect : Call → Nat → Inquiry Verdict) (log : Log) (call : Call) (index : Nat)
    (v : Verdict) : Prop :=
  inspect call index = .done v ∨ ∃ x, inspect call index = .ask x .done ∧ (x, v) ∈ log

section

variable {inspect : Call → Nat → Inquiry Verdict} {body : Body} {calls : List (Nat × Call)}
  {log all : Log}

theorem Replied.mono {call : Call} {index : Nat} {v : Verdict}
    (h : Replied inspect log call index v) (hsub : log ⊆ all) :
    Replied inspect all call index v := by
  obtain h | ⟨x, h, hm⟩ := h
  · exact .inl h
  · exact .inr ⟨x, h, hsub hm⟩

-- In two logs an argument is settled by the same verdict, or by those on one question.
theorem Replied.both {log' : Log} {call : Call} {index : Nat} {v v' : Verdict}
    (h : Replied inspect log call index v) (h' : Replied inspect log' call index v') :
    v = v' ∨ ∃ x, inspect call index = .ask x .done ∧ (x, v) ∈ log ∧ (x, v') ∈ log' := by
  obtain h | ⟨x, h, hm⟩ := h
  · obtain h' | ⟨x', h', -⟩ := h'
    · rw [h] at h'
      cases h'
      exact .inl rfl
    · rw [h] at h'
      cases h'
  · obtain h' | ⟨x', h', hm'⟩ := h'
    · rw [h] at h'
      cases h'
    · rw [h] at h'
      cases h'
      exact .inr ⟨x, h, hm, hm'⟩

theorem replied_of_leads (hdirect : Direct inspect) {call : Call} {index : Nat} {v : Verdict}
    (h : Leads (inspect call index) log (.done v)) :
    Replied inspect log call index v ∧
      ∀ x a, (x, a) ∈ log → inspect call index = .ask x .done ∧ a = v := by
  obtain ⟨w, heq⟩ | ⟨x, heq⟩ := hdirect call index
  · rw [heq, leads_done_iff] at h
    obtain ⟨rfl, hv⟩ := h
    cases hv
    exact ⟨.inl heq, by simp⟩
  · rw [heq, leads_ask_done_iff] at h
    obtain ⟨w, rest, rfl, hrest⟩ := h
    obtain ⟨rfl, hv⟩ := leads_done_iff.mp hrest
    cases hv
    refine ⟨.inr ⟨x, heq, by simp⟩, ?_⟩
    intro y a hm
    cases List.mem_singleton.mp hm
    exact ⟨heq, rfl⟩

-- One call: it mutates and the pass ends, or its result joins the worklist and the pass goes on.
theorem passAlias_step (hdirect : Direct inspect) {node index : Nat} {call : Call}
    {rest : List (Nat × Call × Nat)} {kind : MutationKind} {worklist : List String}
    {out : Option (MutationKind × List String)}
    (h : Leads (passAlias inspect body ((node, call, index) :: rest) kind worklist) log
      (.done out)) :
    ∃ v first second, log = first ++ second ∧ Replied inspect first call index v ∧
      (∀ x a, (x, a) ∈ first → inspect call index = .ask x .done ∧ a = v) ∧
      (v.kind = .mutator ∧ out = none ∧ second = [] ∨
        v.kind ≠ .mutator ∧ Leads (passAlias inspect body rest (kind.merge v.kind)
          ((if v.isReturned then (body.assignee? node).toList else []) ++ worklist)) second
          (.done out)) := by
  simp only [passAlias, bind_eq] at h
  obtain ⟨first, second, v, rfl, hv, hnext⟩ := leads_bind_done_iff.mp h
  obtain ⟨hreplied, hfirst⟩ := replied_of_leads hdirect hv
  refine ⟨v, first, second, rfl, hreplied, hfirst, ?_⟩
  by_cases hkind : v.kind = .mutator
  · rw [if_pos (by simpa using hkind)] at hnext
    obtain ⟨rfl, hout⟩ := leads_done_iff.mp hnext
    cases hout
    exact .inl ⟨hkind, rfl, rfl⟩
  · rw [if_neg (by simpa using hkind)] at hnext
    exact .inr ⟨hkind, hnext⟩

-- A pass ends early because of a mutator.
theorem exists_mutator_of_passAlias_none (hdirect : Direct inspect)
    {takes : List (Nat × Call × Nat)} {kind : MutationKind} {worklist : List String}
    (h : Leads (passAlias inspect body takes kind worklist) log (.done none)) (hsub : log ⊆ all) :
    ∃ node call index v, (node, call, index) ∈ takes ∧ Replied inspect all call index v ∧
      v.kind = .mutator := by
  induction takes generalizing kind worklist log with
  | nil => cases (leads_done_iff.mp h).2
  | cons take rest ih =>
    obtain ⟨node, call, index⟩ := take
    obtain ⟨v, first, second, rfl, hreplied, -, ⟨hkind, -⟩ | ⟨-, hnext⟩⟩ :=
      passAlias_step hdirect h
    · have hfirst := List.append_subset.mp hsub
      exact ⟨node, call, index, v, by simp, hreplied.mono hfirst.1, hkind⟩
    · obtain ⟨node', call', index', w, hm, hrest⟩ := ih hnext (List.append_subset.mp hsub).2
      exact ⟨node', call', index', w, List.mem_cons_of_mem _ hm, hrest⟩

-- A pass that ends has met every call, and the results that are aliases are on the worklist.
theorem replied_of_passAlias_some (hdirect : Direct inspect) {takes : List (Nat × Call × Nat)}
    {kind kind' : MutationKind} {worklist worklist' : List String}
    (h : Leads (passAlias inspect body takes kind worklist) log (.done (some (kind', worklist'))))
    (hsub : log ⊆ all) :
    kind.rank ≤ kind'.rank ∧ worklist ⊆ worklist' ∧
      ∀ node call index, (node, call, index) ∈ takes → ∃ v, Replied inspect all call index v ∧
        v.kind.rank ≤ kind'.rank ∧
        (v.isReturned → ∀ next, body.assignee? node = some next → next ∈ worklist') := by
  induction takes generalizing kind worklist log with
  | nil =>
    have heq := (leads_done_iff.mp h).2
    cases heq
    simp
  | cons take rest ih =>
    obtain ⟨node, call, index⟩ := take
    obtain ⟨v, first, second, rfl, hreplied, -, ⟨-, hout, -⟩ | ⟨hkind, hnext⟩⟩ :=
      passAlias_step hdirect h
    · cases hout
    · obtain ⟨hfirst, hsecond⟩ := List.append_subset.mp hsub
      obtain ⟨hrank, hworklist, hrest⟩ := ih hnext hsecond
      rw [MutationKind.rank_merge] at hrank
      have hall := List.append_subset.mp hworklist
      refine ⟨by omega, hall.2, ?_⟩
      intro node' call' index' hm
      rcases List.mem_cons.mp hm with heq | hm
      · cases heq
        refine ⟨v, hreplied.mono hfirst, by omega, ?_⟩
        intro hreturned next hnext'
        apply hall.1
        simp [hreturned, hnext']
      · exact hrest node' call' index' hm

-- Where the kind and the worklist after a pass come from.
theorem sources_of_passAlias_some (hdirect : Direct inspect) {takes : List (Nat × Call × Nat)}
    {kind kind' : MutationKind} {worklist worklist' : List String}
    (h : Leads (passAlias inspect body takes kind worklist) log (.done (some (kind', worklist'))))
    (hsub : log ⊆ all) :
    (kind' = kind ∨ ∃ node call index v, (node, call, index) ∈ takes ∧
      Replied inspect all call index v ∧ v.kind = kind') ∧
    ∀ next ∈ worklist', next ∈ worklist ∨ ∃ node call index v, (node, call, index) ∈ takes ∧
      Replied inspect all call index v ∧ v.kind ≠ .mutator ∧ v.isReturned ∧
      body.assignee? node = some next := by
  induction takes generalizing kind worklist log with
  | nil =>
    have heq := (leads_done_iff.mp h).2
    cases heq
    simp
  | cons take rest ih =>
    obtain ⟨node, call, index⟩ := take
    obtain ⟨v, first, second, rfl, hreplied, -, ⟨-, hout, -⟩ | ⟨hkind, hnext⟩⟩ :=
      passAlias_step hdirect h
    · cases hout
    · obtain ⟨hfirst, hsecond⟩ := List.append_subset.mp hsub
      obtain ⟨hkind', hworklist⟩ := ih hnext hsecond
      constructor
      · obtain hmerge | ⟨node', call', index', w, hm, hrest⟩ := hkind'
        · obtain hleft | hright := kind.merge_eq_or v.kind
          · exact .inl (hmerge.trans hleft)
          · exact .inr ⟨node, call, index, v, by simp, hreplied.mono hfirst,
              (hmerge.trans hright).symm⟩
        · exact .inr ⟨node', call', index', w, List.mem_cons_of_mem _ hm, hrest⟩
      · intro next hm
        obtain hm | ⟨node', call', index', w, hm, hrest⟩ := hworklist next hm
        · rcases List.mem_append.mp hm with hm | hm
          · by_cases hreturned : v.isReturned
            · rw [if_pos hreturned, Option.mem_toList] at hm
              exact .inr ⟨node, call, index, v, by simp, hreplied.mono hfirst, hkind, hreturned, hm⟩
            · rw [if_neg hreturned] at hm
              cases hm
          · exact .inl hm
        · exact .inr ⟨node', call', index', w, List.mem_cons_of_mem _ hm, hrest⟩

-- The questions of a pass are about its calls, and their verdicts count.
theorem asked_of_passAlias (hdirect : Direct inspect) {takes : List (Nat × Call × Nat)}
    {kind : MutationKind} {worklist : List String} {out : Option (MutationKind × List String)}
    (h : Leads (passAlias inspect body takes kind worklist) log (.done out)) {x : Question}
    {a : Verdict} (hm : (x, a) ∈ log) :
    (∃ node call index, (node, call, index) ∈ takes ∧ inspect call index = .ask x .done) ∧
      ∀ kind' worklist', out = some (kind', worklist') → a.kind.rank ≤ kind'.rank := by
  induction takes generalizing kind worklist log with
  | nil =>
    obtain ⟨rfl, -⟩ := leads_done_iff.mp h
    cases hm
  | cons take rest ih =>
    obtain ⟨node, call, index⟩ := take
    obtain ⟨v, first, second, rfl, -, hfirst, ⟨-, rfl, rfl⟩ | ⟨-, hnext⟩⟩ :=
      passAlias_step hdirect h
    · rw [List.append_nil] at hm
      exact ⟨⟨node, call, index, by simp, (hfirst x a hm).1⟩, nofun⟩
    · rcases List.mem_append.mp hm with hm | hm
      · obtain ⟨heq, rfl⟩ := hfirst x a hm
        refine ⟨⟨node, call, index, by simp, heq⟩, ?_⟩
        rintro kind' worklist' rfl
        have hrank := (replied_of_passAlias_some hdirect hnext (List.Subset.refl _)).1
        rw [MutationKind.rank_merge] at hrank
        omega
      · obtain ⟨⟨node', call', index', hm', heq⟩, hrank⟩ := ih hnext hm
        exact ⟨⟨node', call', index', List.mem_cons_of_mem _ hm', heq⟩, hrank⟩

theorem length_of_passAlias_some (hdirect : Direct inspect) {takes : List (Nat × Call × Nat)}
    {kind kind' : MutationKind} {worklist worklist' : List String}
    (h : Leads (passAlias inspect body takes kind worklist) log
      (.done (some (kind', worklist')))) :
    worklist'.length ≤ worklist.length + takes.length := by
  induction takes generalizing kind worklist log with
  | nil =>
    have heq := (leads_done_iff.mp h).2
    cases heq
    simp
  | cons take rest ih =>
    obtain ⟨node, call, index⟩ := take
    obtain ⟨v, first, second, rfl, -, -, ⟨-, hout, -⟩ | ⟨-, hnext⟩⟩ := passAlias_step hdirect h
    · cases hout
    · have hlength := ih hnext
      have hresult : (if v.isReturned then (body.assignee? node).toList else []).length ≤ 1 := by
        split
        · cases body.assignee? node <;> simp
        · simp
      rw [List.length_append] at hlength
      rw [List.length_cons]
      omega

-- One name: it was handled before, it is stored through, a call that takes it mutates, or the walk
-- goes on with what holds an alias because of it.
theorem walkAliases_step {steps : Nat} {seen worklist : List String} {name : String}
    {verdict v : Verdict}
    (h : Leads (walkAliases inspect body calls (steps + 1) seen (name :: worklist) verdict) log
      (.done v)) :
    (name ∈ seen ∧ Leads (walkAliases inspect body calls steps seen worklist verdict) log
      (.done v)) ∨
    (name ∉ seen ∧ body.dataflow.isStoredThrough name ∧ log = [] ∧
      v = { verdict with kind := .mutator }) ∨
    (name ∉ seen ∧ body.dataflow.isStoredThrough name = false ∧
      Leads (passAlias inspect body (passings calls name) verdict.kind worklist) log
        (.done none) ∧
      v = ⟨.mutator, verdict.isReturned || body.dataflow.isReturned name⟩) ∨
    (name ∉ seen ∧ body.dataflow.isStoredThrough name = false ∧
      ∃ first second kind worklist', log = first ++ second ∧
        Leads (passAlias inspect body (passings calls name) verdict.kind worklist) first
          (.done (some (kind, worklist'))) ∧
        Leads (walkAliases inspect body calls steps (name :: seen)
          ((aliasesOf body.dataflow name).reverse ++ worklist')
          ⟨kind, verdict.isReturned || body.dataflow.isReturned name⟩) second (.done v)) := by
  simp only [walkAliases] at h
  by_cases hseen : name ∈ seen
  · rw [if_pos (by simpa using hseen)] at h
    exact .inl ⟨hseen, h⟩
  · rw [if_neg (by simpa using hseen)] at h
    by_cases hstored : body.dataflow.isStoredThrough name
    · rw [if_pos hstored] at h
      obtain ⟨rfl, hv⟩ := leads_done_iff.mp h
      cases hv
      exact .inr (.inl ⟨hseen, hstored, rfl, rfl⟩)
    · rw [if_neg hstored] at h
      obtain ⟨first, second, out, rfl, hpass, hnext⟩ := leads_bind_done_iff.mp h
      rw [Bool.not_eq_true] at hstored
      cases out with
      | none =>
        obtain ⟨rfl, hv⟩ := leads_done_iff.mp hnext
        cases hv
        rw [List.append_nil]
        exact .inr (.inr (.inl ⟨hseen, hstored, hpass, rfl⟩))
      | some out =>
        obtain ⟨kind, worklist'⟩ := out
        exact .inr (.inr (.inr ⟨hseen, hstored, first, second, kind, worklist', rfl, hpass, hnext⟩))

-- What a walk that ends with `v` has found out about a name, `names` being all it has handled.
structure Handled (inspect : Call → Nat → Inquiry Verdict) (body : Body)
    (calls : List (Nat × Call)) (log : Log) (v : Verdict) (names : List String)
    (name : String) : Prop where
  stored : body.dataflow.isStoredThrough name = false
  returned : body.dataflow.isReturned name → v.isReturned
  flow : ∀ next ∈ aliasesOf body.dataflow name, next ∈ names
  passed : ∀ node call index, (node, call, index) ∈ passings calls name →
    ∃ w, Replied inspect log call index w ∧ w.kind.rank ≤ v.kind.rank ∧
      (w.isReturned → ∀ next, body.assignee? node = some next → next ∈ names)

-- Without a mutation the walk handles all that is on the worklist, and all that follows from it.
theorem handled_of_walkAliases (hdirect : Direct inspect) {steps : Nat}
    {seen worklist : List String} {verdict v : Verdict}
    (hsteps : StepsSuffice body.dataflow calls steps seen worklist)
    (h : Leads (walkAliases inspect body calls steps seen worklist verdict) log (.done v))
    (hsub : log ⊆ all) (hv : v.kind ≠ .mutator) :
    verdict.kind.rank ≤ v.kind.rank ∧ (verdict.isReturned → v.isReturned) ∧
      ∃ names, seen ⊆ names ∧ worklist ⊆ names ∧
        ∀ name ∈ names, name ∉ seen → Handled inspect body calls all v names name := by
  induction steps generalizing seen worklist verdict log with
  | zero =>
    have hlength : worklist.length = 0 := by
      simp only [StepsSuffice] at hsteps
      omega
    obtain rfl := List.length_eq_zero_iff.mp hlength
    have heq := (leads_done_iff.mp h).2
    cases heq
    exact ⟨le_rfl, id, seen, by simp, by simp, fun name hm hnew => absurd hm hnew⟩
  | succ steps ih =>
    cases worklist with
    | nil =>
      have heq := (leads_done_iff.mp h).2
      cases heq
      exact ⟨le_rfl, id, seen, by simp, by simp, fun name hm hnew => absurd hm hnew⟩
    | cons name worklist =>
      obtain ⟨hseen, hnext⟩ | ⟨-, -, -, rfl⟩ | ⟨-, -, -, rfl⟩ |
        ⟨hseen, hstored, first, second, kind, worklist', rfl, hpass, hnext⟩ := walkAliases_step h
      · obtain ⟨hrank, hreturned, names, hnames, hworklist, hhandled⟩ := ih hsteps.skip hnext hsub
        exact ⟨hrank, hreturned, names, hnames, List.cons_subset.mpr ⟨hnames hseen, hworklist⟩,
          hhandled⟩
      · exact absurd rfl hv
      · exact absurd rfl hv
      · obtain ⟨hfirst, hsecond⟩ := List.append_subset.mp hsub
        have hsteps' := hsteps.handle hseen (length_of_passAlias_some hdirect hpass)
        obtain ⟨hrank, hreturned, names, hnames, hworklist, hhandled⟩ := ih hsteps' hnext hsecond
        obtain ⟨hkind, hkept, hreplied⟩ := replied_of_passAlias_some hdirect hpass hfirst
        -- the rest of the walk handles the aliases of this name and the results of its calls
        obtain ⟨haliases, hworklist'⟩ := List.append_subset.mp hworklist
        obtain ⟨hname, hseen'⟩ := List.cons_subset.mp hnames
        refine ⟨le_trans hkind hrank, fun h => hreturned (by simp [h]), names, hseen',
          List.cons_subset.mpr ⟨hname, fun n hn => hworklist' (hkept hn)⟩, ?_⟩
        intro name' hm hnew
        by_cases heq : name' = name
        · subst heq
          refine ⟨hstored, fun h => hreturned (by simp [h]),
            fun next hn => haliases (List.mem_reverse.mpr hn), ?_⟩
          intro node call index htake
          obtain ⟨w, hw, hwrank, hback⟩ := hreplied node call index htake
          exact ⟨w, hw, le_trans hwrank hrank, fun hret next hn => hworklist' (hback hret next hn)⟩
        · exact hhandled name' hm (by simp [heq, hnew])

-- What a stretch of a walk finds between two verdicts, all of it at names of a set.
structure Found (inspect : Call → Nat → Inquiry Verdict) (body : Body) (calls : List (Nat × Call))
    (all : Log) (A : String → Prop) (verdict : Verdict) (log : Log) (v : Verdict) : Prop where
  kind : v.kind = verdict.kind ∨ ∃ name, A name ∧
    (v.kind = .mutator ∧ body.dataflow.isStoredThrough name ∨
      ∃ node call index w, (node, call, index) ∈ passings calls name ∧
        Replied inspect all call index w ∧ w.kind = v.kind)
  returned : v.isReturned → verdict.isReturned ∨ ∃ name, A name ∧ body.dataflow.isReturned name
  asked : ∀ x a, (x, a) ∈ log → ∃ name node call index, A name ∧
    (node, call, index) ∈ passings calls name ∧ inspect call index = .ask x .done

theorem Found.refl {A : String → Prop} (verdict : Verdict) :
    Found inspect body calls all A verdict [] verdict :=
  ⟨.inl rfl, .inl, by simp⟩

theorem Found.append {A : String → Prop} {verdict between v : Verdict} {first second : Log}
    (h : Found inspect body calls all A verdict first between)
    (h' : Found inspect body calls all A between second v) :
    Found inspect body calls all A verdict (first ++ second) v where
  kind := by
    obtain heq | hfound := h'.kind
    · rw [heq]
      exact h.kind
    · exact .inr hfound
  returned hret := by
    obtain hret | hret := h'.returned hret
    · exact h.returned hret
    · exact .inr hret
  asked x a hm := by
    obtain hm | hm := List.mem_append.mp hm
    · exact h.asked x a hm
    · exact h'.asked x a hm

-- One name of the set, and the calls that take it.
theorem found_of_passAlias (hdirect : Direct inspect) {A : String → Prop} {name : String}
    {verdict : Verdict} {kind : MutationKind} {worklist : List String}
    {out : Option (MutationKind × List String)} (hname : A name)
    (h : Leads (passAlias inspect body (passings calls name) verdict.kind worklist) log (.done out))
    (hkind : kind = verdict.kind ∨ ∃ node call index w, (node, call, index) ∈ passings calls name ∧
      Replied inspect all call index w ∧ w.kind = kind) :
    Found inspect body calls all A verdict log
      ⟨kind, verdict.isReturned || body.dataflow.isReturned name⟩ where
  kind := hkind.imp_right fun hfound => ⟨name, hname, .inr hfound⟩
  returned hret := (Bool.or_eq_true_iff.mp hret).imp_right fun hret => ⟨name, hname, hret⟩
  asked x a hm := by
    obtain ⟨⟨node, call, index, htake, heq⟩, -⟩ := asked_of_passAlias hdirect h hm
    exact ⟨name, node, call, index, hname, htake, heq⟩

-- Whatever a walk finds, it finds at names of a set that holds the worklist and is closed under the
-- flow of aliases.
theorem found_of_walkAliases (hdirect : Direct inspect) {A : String → Prop} {steps : Nat}
    {seen worklist : List String} {verdict v : Verdict}
    (hflow : ∀ name next, A name → next ∈ aliasesOf body.dataflow name → A next)
    (hback : ∀ name node call index w next, A name → (node, call, index) ∈ passings calls name →
      Replied inspect all call index w → w.kind ≠ .mutator → w.isReturned →
      body.assignee? node = some next → A next)
    (h : Leads (walkAliases inspect body calls steps seen worklist verdict) log (.done v))
    (hsub : log ⊆ all) (hworklist : ∀ name ∈ worklist, A name) :
    Found inspect body calls all A verdict log v := by
  induction steps generalizing seen worklist verdict log with
  | zero =>
    obtain ⟨rfl, hv⟩ := leads_done_iff.mp h
    cases hv
    exact .refl _
  | succ steps ih =>
    cases worklist with
    | nil =>
      obtain ⟨rfl, hv⟩ := leads_done_iff.mp h
      cases hv
      exact .refl _
    | cons name worklist =>
      obtain ⟨hname, hworklist⟩ := List.forall_mem_cons.mp hworklist
      obtain ⟨-, hnext⟩ | ⟨-, hstored, rfl, rfl⟩ | ⟨-, -, hpass, rfl⟩ |
        ⟨-, -, first, second, kind, worklist', rfl, hpass, hnext⟩ := walkAliases_step h
      · exact ih hnext hsub hworklist
      · exact ⟨.inr ⟨name, hname, .inl ⟨rfl, hstored⟩⟩, .inl, by simp⟩
      · exact found_of_passAlias hdirect hname hpass
          (.inr (exists_mutator_of_passAlias_none hdirect hpass hsub))
      · obtain ⟨hfirst, hsecond⟩ := List.append_subset.mp hsub
        obtain ⟨hkind, hsources⟩ := sources_of_passAlias_some hdirect hpass hfirst
        refine (found_of_passAlias hdirect hname hpass hkind).append (ih hnext hsecond ?_)
        -- what joined the worklist is in the set too
        intro next hm
        obtain hm | hm := List.mem_append.mp hm
        · exact hflow name next hname (List.mem_reverse.mp hm)
        · obtain hm | ⟨node, call, index, w, htake, hw, hwkind, hret, hassignee⟩ :=
            hsources next hm
          · exact hworklist next hm
          · exact hback name node call index w next hname htake hw hwkind hret hassignee

-- Every verdict that a walk is given counts.
theorem rank_le_of_walkAliases (hdirect : Direct inspect) {steps : Nat}
    {seen worklist : List String} {verdict v : Verdict}
    (h : Leads (walkAliases inspect body calls steps seen worklist verdict) log (.done v)) :
    verdict.kind.rank ≤ v.kind.rank ∧ ∀ x a, (x, a) ∈ log → a.kind.rank ≤ v.kind.rank := by
  induction steps generalizing seen worklist verdict log with
  | zero =>
    obtain ⟨rfl, hv⟩ := leads_done_iff.mp h
    cases hv
    exact ⟨le_rfl, by simp⟩
  | succ steps ih =>
    cases worklist with
    | nil =>
      obtain ⟨rfl, hv⟩ := leads_done_iff.mp h
      cases hv
      exact ⟨le_rfl, by simp⟩
    | cons name worklist =>
      obtain ⟨-, hnext⟩ | ⟨-, -, -, rfl⟩ | ⟨-, -, -, rfl⟩ |
        ⟨-, -, first, second, kind, worklist', rfl, hpass, hnext⟩ := walkAliases_step h
      · exact ih hnext
      · exact ⟨MutationKind.rank_le_two _, fun _ a _ => a.kind.rank_le_two⟩
      · exact ⟨MutationKind.rank_le_two _, fun _ a _ => a.kind.rank_le_two⟩
      · obtain ⟨hrank, hasked⟩ := ih hnext
        have hkind := (replied_of_passAlias_some hdirect hpass (List.Subset.refl _)).1
        refine ⟨le_trans hkind hrank, ?_⟩
        intro x a hm
        rcases List.mem_append.mp hm with hm | hm
        · exact le_trans ((asked_of_passAlias hdirect hpass hm).2 kind worklist' rfl) hrank
        · exact hasked x a hm

end

end Mutation

end TestFocus
