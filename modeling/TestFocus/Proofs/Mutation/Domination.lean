import TestFocus.Proofs.Mutation.Comparison

namespace TestFocus.Mutation

open Inquiry

variable {p : Program} {H : Question → Prop}

-- What the walk does with a value does not depend on what it has found so far: it goes on, it meets
-- a computed value, or it meets a call.
theorem walkSources_shape (p : Program) (body : Body) (steps : Nat) (seen worklist : List String)
    (value : String) :
    (∃ seen' worklist' returned, ∀ verdict : Verdict,
      walkSources p askResult body (steps + 1) seen (value :: worklist) verdict =
        walkSources p askResult body steps seen' worklist'
          { verdict with isReturned := verdict.isReturned || returned }) ∨
    (∀ verdict, walkSources p askResult body (steps + 1) seen (value :: worklist) verdict =
      .done .mutator) ∨
    (∃ seen' call, ∀ verdict : Verdict,
      walkSources p askResult body (steps + 1) seen (value :: worklist) verdict =
        (callKindOfResult p askResult call).bind fun k =>
          if (verdict.kind.merge k).isMutator then
            .done { verdict with kind := verdict.kind.merge k }
          else walkSources p askResult body steps seen' worklist
            { verdict with kind := verdict.kind.merge k }) := by
  have hskip (seen' worklist' : List String) (verdict : Verdict) :
      walkSources p askResult body steps seen' worklist' verdict =
        walkSources p askResult body steps seen' worklist'
          { verdict with isReturned := verdict.isReturned || false } := by
    rw [Bool.or_false]
  simp only [walkSources]
  split
  · exact .inl ⟨seen, worklist, false, hskip _ _⟩
  · split
    · exact .inl ⟨_, _, false, hskip _ _⟩
    · exact .inr (.inl fun _ => rfl)
    · exact .inl ⟨_, _, false, hskip _ _⟩
    · exact .inl ⟨_, _, true, fun _ => by rw [Bool.or_true]⟩
    · exact .inl ⟨_, _, false, hskip _ _⟩
    · exact .inl ⟨_, _, false, hskip _ _⟩
    · exact .inl ⟨_, _, false, hskip _ _⟩
    · split
      · exact .inl ⟨_, _, false, hskip _ _⟩
      · next call _ => exact .inr (.inr ⟨_, call, fun _ => rfl⟩)

-- What a call contributes is settled at once or by one question.
theorem leads_callKindOfResult {call : Call} {log : Log} {k : MutationKind}
    (h : Leads (callKindOfResult p askResult call) log (.done k)) :
    (log = [] ∧ callKindOfResult p askResult call = .done k ∧ k ≠ .mutator) ∨
    ∃ x c, callKindOfResult p askResult call = .ask x (fun v => .done v.kind) ∧ log = [(x, c)] ∧
      c.kind = k := by
  obtain ⟨kind, heq, hkind⟩ | ⟨heq, -⟩ := callKindOfResult_cases p call
  · rw [heq] at h
    obtain ⟨rfl, hk⟩ := leads_done_iff.mp h
    cases hk
    exact .inl ⟨rfl, heq, hkind⟩
  · rw [heq] at h
    obtain ⟨c, rest, rfl, hrest⟩ := leads_ask_done_iff.mp h
    obtain ⟨rfl, hk⟩ := leads_done_iff.mp hrest
    cases hk
    exact .inr ⟨_, c, heq, rfl, rfl⟩

theorem rank_le_of_walkSources {body : Body} {steps : Nat} {seen worklist : List String}
    {verdict v : Verdict} {log : Log}
    (h : Leads (walkSources p askResult body steps seen worklist verdict) log (.done v)) :
    verdict.kind.rank ≤ v.kind.rank ∧ ∀ x a, (x, a) ∈ log → a.kind.rank ≤ v.kind.rank := by
  induction steps generalizing seen worklist verdict log with
  | zero =>
    obtain ⟨rfl, hv⟩ := leads_done_iff.mp h
    cases hv
    exact ⟨le_rfl, by simp⟩
  | succ steps ih =>
    cases worklist with
    | nil =>
      obtain ⟨rfl, hv⟩ := leads_done_iff.mp h
      cases hv
      exact ⟨le_rfl, by simp⟩
    | cons value worklist =>
      obtain ⟨seen', worklist', returned, hshape⟩ | hshape | ⟨seen', call, hshape⟩ :=
        walkSources_shape p body steps seen worklist value
      · rw [hshape] at h
        obtain ⟨hrank, hasked⟩ := ih h
        exact ⟨hrank, hasked⟩
      · rw [hshape] at h
        obtain ⟨rfl, hv⟩ := leads_done_iff.mp h
        cases hv
        exact ⟨MutationKind.rank_le_two _, by simp⟩
      · rw [hshape] at h
        obtain ⟨first, second, k, rfl, hk, hnext⟩ := leads_bind_done_iff.mp h
        have hrest : (verdict.kind.merge k).rank ≤ v.kind.rank ∧
            ∀ x a, (x, a) ∈ second → a.kind.rank ≤ v.kind.rank := by
          split at hnext
          · obtain ⟨rfl, hv⟩ := leads_done_iff.mp hnext
            cases hv
            exact ⟨le_rfl, by simp⟩
          · obtain ⟨hrank, hasked⟩ := ih hnext
            exact ⟨hrank, hasked⟩
        rw [MutationKind.rank_merge] at hrest
        refine ⟨by omega, ?_⟩
        intro x a hm
        rcases List.mem_append.mp hm with hm | hm
        · obtain ⟨rfl, -⟩ | ⟨y, c, -, rfl, rfl⟩ := leads_callKindOfResult hk
          · cases hm
          · cases List.mem_singleton.mp hm
            omega
        · exact hrest.2 x a hm

-- What two walks over the same values have in common, the second one being on worse verdicts and
-- not ending with a mutation.
structure SourcesDominated (verdict : Verdict) (log : Log) (v : Verdict) (log' : Log)
    (v' : Verdict) : Prop where
  kind : v.kind ≠ .mutator
  asked : ∀ x a, (x, a) ∈ log → ∃ a', (x, a') ∈ log'
  inspector : v'.kind = .inspector → verdict.kind = .inspector →
    (∀ x a, (x, a) ∈ log → a.kind = .inspector) → v.kind = .inspector

theorem LogAtMost.left {q : Question} {first second first' second' : Log}
    (h : LogAtMost p H q (first ++ second) (first' ++ second')) : LogAtMost p H q first first' :=
  fun x a a' hm hm' => h x a a' (List.mem_append_left _ hm) (List.mem_append_left _ hm')

theorem LogAtMost.right {q : Question} {first second first' second' : Log}
    (h : LogAtMost p H q (first ++ second) (first' ++ second')) : LogAtMost p H q second second' :=
  fun x a a' hm hm' => h x a a' (List.mem_append_right _ hm) (List.mem_append_right _ hm')

-- A stretch that adds a kind to the verdict, and what the walks have in common behind it.
theorem SourcesDominated.prepend {verdict between v v' : Verdict} {k k' : MutationKind}
    {first first' second second' : Log} (h : SourcesDominated between second v second' v')
    (hbetween : between.kind = verdict.kind.merge k) (hk' : k'.rank ≤ v'.kind.rank)
    (hasked : ∀ x a, (x, a) ∈ first → ∃ a', (x, a') ∈ first')
    (hinspector : k' = .inspector → (∀ x a, (x, a) ∈ first → a.kind = .inspector) →
      k = .inspector) : SourcesDominated verdict (first ++ second) v (first' ++ second') v' where
  kind := h.kind
  asked x a hm := by
    rcases List.mem_append.mp hm with hm | hm
    · obtain ⟨a', hm'⟩ := hasked x a hm
      exact ⟨a', List.mem_append_left _ hm'⟩
    · obtain ⟨a', hm'⟩ := h.asked x a hm
      exact ⟨a', List.mem_append_right _ hm'⟩
  inspector hv' hverdict hall := by
    have hk := hinspector (MutationKind.eq_inspector_of_rank_le hk' hv')
      fun x a hm => hall x a (List.mem_append_left _ hm)
    apply h.inspector hv'
    · rw [hbetween, hverdict, hk]
      rfl
    · exact fun x a hm => hall x a (List.mem_append_right _ hm)

-- One call in two walks: the questions agree, and so do the kinds as far as the verdicts do.
theorem dominated_callKindOfResult {q : Question} {call : Call} {log log' : Log}
    {k k' : MutationKind}
    (h : Leads (callKindOfResult p askResult call) log (.done k))
    (h' : Leads (callKindOfResult p askResult call) log' (.done k'))
    (hlog : LogAtMost p H q log log') (hk' : k' ≠ .mutator) :
    k ≠ .mutator ∧ (∀ x a, (x, a) ∈ log → ∃ a', (x, a') ∈ log') ∧
      (k' = .inspector → (∀ x a, (x, a) ∈ log → a.kind = .inspector) → k = .inspector) := by
  obtain ⟨rfl, heq, hk⟩ | ⟨x, c, heq, rfl, rfl⟩ := leads_callKindOfResult h
  · obtain ⟨-, heq', -⟩ | ⟨x', c', heq', -⟩ := leads_callKindOfResult h'
    · rw [heq] at heq'
      cases heq'
      exact ⟨hk, by simp, fun hinspector _ => hinspector⟩
    · rw [heq] at heq'
      cases heq'
  · obtain ⟨-, heq', -⟩ | ⟨x', c', heq', rfl, rfl⟩ := leads_callKindOfResult h'
    · rw [heq] at heq'
      cases heq'
    · rw [heq] at heq'
      cases heq'
      refine ⟨(hlog x c c' (by simp) (by simp)).kind_ne hk', ?_, ?_⟩
      · intro y a hm
        cases List.mem_singleton.mp hm
        exact ⟨c', by simp⟩
      · intro _ hall
        exact hall x c (by simp)

theorem dominated_walkSources {q : Question} {body : Body} {steps : Nat}
    {seen worklist : List String}
    {verdict verdict' v v' : Verdict} {log log' : Log}
    (h : Leads (walkSources p askResult body steps seen worklist verdict) log (.done v))
    (h' : Leads (walkSources p askResult body steps seen worklist verdict') log' (.done v'))
    (hlog : LogAtMost p H q log log') (hv' : v'.kind ≠ .mutator)
    (hverdict : verdict.kind ≠ .mutator) :
    SourcesDominated verdict log v log' v' := by
  induction steps generalizing seen worklist verdict verdict' log log' with
  | zero =>
    obtain ⟨rfl, hv⟩ := leads_done_iff.mp h
    cases hv
    exact ⟨hverdict, by simp, fun _ hinspector _ => hinspector⟩
  | succ steps ih =>
    cases worklist with
    | nil =>
      obtain ⟨rfl, hv⟩ := leads_done_iff.mp h
      cases hv
      exact ⟨hverdict, by simp, fun _ hinspector _ => hinspector⟩
    | cons value worklist =>
      obtain ⟨seen', worklist', returned, hshape⟩ | hshape | ⟨seen', call, hshape⟩ :=
        walkSources_shape p body steps seen worklist value
      · rw [hshape] at h h'
        obtain ⟨hkind, hasked, hinspector⟩ := ih h h' hlog hverdict
        exact ⟨hkind, hasked, hinspector⟩
      · rw [hshape] at h'
        have heq := (leads_done_iff.mp h').2
        cases heq
        exact absurd rfl hv'
      · rw [hshape] at h h'
        obtain ⟨first, second, k, rfl, hk, hnext⟩ := leads_bind_done_iff.mp h
        obtain ⟨first', second', k', rfl, hk', hnext'⟩ := leads_bind_done_iff.mp h'
        -- the second walk goes on, since it does not end with a mutation
        have hgoes : verdict'.kind.merge k' ≠ .mutator := by
          intro hmutator
          rw [if_pos (by simpa using hmutator)] at hnext'
          have heq := (leads_done_iff.mp hnext').2
          cases heq
          exact hv' hmutator
        rw [if_neg (by simpa using hgoes)] at hnext'
        have hmerge := MutationKind.rank_merge verdict'.kind k'
        have hk'rank : k'.rank ≤ (verdict'.kind.merge k').rank := by omega
        obtain ⟨hkind, hasked, hinspector⟩ := dominated_callKindOfResult hk hk' hlog.left
          (MutationKind.ne_mutator_of_rank_le hk'rank hgoes)
        have hgoes' := MutationKind.merge_ne_mutator hverdict hkind
        rw [if_neg (by simpa using hgoes')] at hnext
        exact (ih hnext hnext' hlog.right hgoes').prepend rfl
          (le_trans hk'rank (rank_le_of_walkSources hnext').1) hasked hinspector

theorem rank_le_of_classifyReturns {body : Body} {values : List String} {verdict v : Verdict}
    {log : Log} (h : Leads (classifyReturns p askResult body values verdict) log (.done v)) :
    verdict.kind.rank ≤ v.kind.rank ∧ ∀ x a, (x, a) ∈ log → a.kind.rank ≤ v.kind.rank := by
  induction values generalizing verdict log with
  | nil =>
    obtain ⟨rfl, hv⟩ := leads_done_iff.mp h
    cases hv
    exact ⟨le_rfl, by simp⟩
  | cons value rest ih =>
    simp only [classifyReturns, bind_eq] at h
    obtain ⟨first, second, w, rfl, hw, hnext⟩ := leads_bind_done_iff.mp h
    obtain ⟨-, hfirst⟩ := rank_le_of_walkSources hw
    have hrest : (verdict.merge w).kind.rank ≤ v.kind.rank ∧
        ∀ x a, (x, a) ∈ second → a.kind.rank ≤ v.kind.rank := by
      split at hnext
      · obtain ⟨rfl, hv⟩ := leads_done_iff.mp hnext
        cases hv
        exact ⟨le_rfl, by simp⟩
      · exact ih hnext
    simp only [Verdict.merge, MutationKind.rank_merge] at hrest
    refine ⟨by omega, ?_⟩
    intro x a hm
    rcases List.mem_append.mp hm with hm | hm
    · have := hfirst x a hm
      omega
    · exact hrest.2 x a hm

theorem dominated_classifyReturns {q : Question} {body : Body} {values : List String}
    {verdict verdict' v v' : Verdict} {log log' : Log}
    (h : Leads (classifyReturns p askResult body values verdict) log (.done v))
    (h' : Leads (classifyReturns p askResult body values verdict') log' (.done v'))
    (hlog : LogAtMost p H q log log') (hv' : v'.kind ≠ .mutator)
    (hverdict : verdict.kind ≠ .mutator) :
    SourcesDominated verdict log v log' v' := by
  induction values generalizing verdict verdict' log log' with
  | nil =>
    obtain ⟨rfl, hv⟩ := leads_done_iff.mp h
    cases hv
    exact ⟨hverdict, by simp, fun _ hinspector _ => hinspector⟩
  | cons value rest ih =>
    simp only [classifyReturns, bind_eq] at h h'
    obtain ⟨first, second, w, rfl, hw, hnext⟩ := leads_bind_done_iff.mp h
    obtain ⟨first', second', w', rfl, hw', hnext'⟩ := leads_bind_done_iff.mp h'
    have hgoes : (verdict'.merge w').kind ≠ .mutator := by
      intro hmutator
      rw [if_pos (by simpa using hmutator)] at hnext'
      have heq := (leads_done_iff.mp hnext').2
      cases heq
      exact hv' hmutator
    rw [if_neg (by simpa using hgoes)] at hnext'
    have hw'rank : w'.kind.rank ≤ (verdict'.merge w').kind.rank := by
      simp only [Verdict.merge, MutationKind.rank_merge]
      omega
    obtain ⟨hkind, hasked, hinspector⟩ := dominated_walkSources hw hw' hlog.left
      (MutationKind.ne_mutator_of_rank_le hw'rank hgoes) (by decide)
    have hgoes' : (verdict.merge w).kind ≠ .mutator :=
      MutationKind.merge_ne_mutator hverdict hkind
    rw [if_neg (by simpa using hgoes')] at hnext
    exact (ih hnext hnext' hlog.right hgoes').prepend rfl
      (le_trans hw'rank (rank_le_of_classifyReturns hnext').1) hasked fun hw' => hinspector hw' rfl

-- Worse verdicts lead to a worse outcome.
theorem dominated_inquiry {q : Question} {log log' : Log} {v v' : Verdict}
    (h : Leads (p.inquiry q) log (.done v)) (h' : Leads (p.inquiry q) log' (.done v'))
    (hbounded : Bounded p H log) (hlog : LogAtMost p H q log log') (hv' : v'.kind ≠ .mutator) :
    Dominated q log v log' v' := by
  cases hbody : p.bodies.get? q.function with
  | none =>
    have hdone : p.inquiry q = .done .uncertain := by
      simp only [Program.inquiry, hbody]
    rw [hdone] at h h'
    obtain ⟨rfl, hv⟩ := leads_done_iff.mp h
    obtain ⟨-, hv'eq⟩ := leads_done_iff.mp h'
    cases hv
    cases hv'eq
    exact ⟨hv', fun _ hret => hret, by simp, fun hinspector _ => hinspector⟩
  | some body =>
    rw [Program.inquiry_eq hbody] at h h'
    cases q with
    | argument function register =>
      exact dominated_classifyReference hbody h h' hbounded hlog hv'
    | result function =>
      obtain ⟨hkind, hasked, hinspector⟩ := dominated_classifyReturns h h' hlog hv' (by decide)
      exact ⟨hkind, (fun hargument => by cases hargument), hasked,
        fun hv'inspector => hinspector hv'inspector rfl⟩

-- Every verdict that an inquiry is given counts.
theorem rank_le_of_inquiry {q : Question} {log : Log} {v : Verdict}
    (h : Leads (p.inquiry q) log (.done v)) {x : Question} {a : Verdict} (hm : (x, a) ∈ log) :
    a.kind.rank ≤ v.kind.rank := by
  cases hbody : p.bodies.get? q.function with
  | none =>
    have hdone : p.inquiry q = .done .uncertain := by
      simp only [Program.inquiry, hbody]
    rw [hdone] at h
    obtain ⟨rfl, -⟩ := leads_done_iff.mp h
    cases hm
  | some body =>
    rw [Program.inquiry_eq hbody] at h
    cases q with
    | argument function register =>
      exact (rank_le_of_walkAliases (direct_callArgument p) h).2 x a hm
    | result function => exact (rank_le_of_classifyReturns h).2 x a hm

end TestFocus.Mutation
