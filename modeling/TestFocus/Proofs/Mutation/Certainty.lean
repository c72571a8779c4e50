import TestFocus.Proofs.Mutation.Recursion

-- When an answer that is no mutation is certain. Two things make it uncertain: the depth limit,
-- and a function that cannot be looked into. Both can be told from the questions that come up
-- when nothing is mutated, and neither depends on the order in which they come up.

namespace TestFocus.Mutation

open Inquiry Relation

-- The questions that come up where nothing is mutated.
def BenignAsks (p : Program) (H : Question → Prop) (q x : Question) : Prop :=
  ∃ log v a, Leads (p.inquiry q) log (.done v) ∧ (∀ y w, (y, w) ∈ log → w = benign p H y) ∧
    (x, a) ∈ log

-- The budget covers every chain of such questions that repeats none of them and none of `isOpen`.
def Short (p : Program) (H : Question → Prop) : Nat → (Question → Prop) → Question → Prop
  | 0, _, _ => False
  | budget + 1, isOpen, x => ∀ q, p.target? x = some q → isOpen q ∨
      ∀ y, BenignAsks p H q y → Short p H budget (fun s => s = q ∨ isOpen s) y

-- Outside of `isOpen`, the inspections of these questions are certain as far as the questions below
-- are, and those are questions about scanned functions among these.
def CalmUpTo (p : Program) (H : Question → Prop) (isOpen X : Question → Prop) : Prop :=
  ∀ q, X q → isOpen q ∨ ((p.inquiry q).eval (benign p H)).kind = .inspector ∧
    ∀ y, BenignAsks p H q y → ∃ q', p.target? y = some q' ∧ X q'

variable {p : Program} {H : Question → Prop}

theorem Short.mono {budget budget' : Nat} {isOpen isOpen' : Question → Prop} {x : Question}
    (h : Short p H budget isOpen x) (hbudget : budget ≤ budget')
    (hopen : ∀ s, isOpen s → isOpen' s) : Short p H budget' isOpen' x := by
  induction budget generalizing budget' isOpen isOpen' x with
  | zero => exact h.elim
  | succ budget ih =>
    obtain ⟨n, rfl⟩ := Nat.exists_eq_add_one_of_ne_zero (by omega : budget' ≠ 0)
    intro q htarget
    obtain hq | hbelow := h q htarget
    · exact .inl (hopen q hq)
    · right
      intro y hy
      refine ih (hbelow y hy) (by omega) ?_
      rintro s (hs | hs)
      · exact .inl hs
      · exact .inr (hopen s hs)

-- Only the scanned function counts.
theorem Short.congr {budget : Nat} {isOpen : Question → Prop} {x y : Question}
    (h : Short p H budget isOpen y) (htarget : p.target? y = p.target? x) :
    Short p H budget isOpen x := by
  cases budget with
  | zero => exact h
  | succ budget =>
    intro q hq
    exact h q (htarget.trans hq)

-- A run whose answers are bounded is below the benign one.
theorem logAtMost_benign {q : Question} {log log' : Log} (hlog : Bounded p H log)
    (hkind : ∀ x a, (x, a) ∈ log → a.kind ≠ .mutator)
    (hlog' : ∀ y w, (y, w) ∈ log' → w = benign p H y) : LogAtMost p H q log log' := by
  intro x a a' hm hm'
  refine .inr ⟨hkind x a hm, fun hkeeps hreturned => ?_⟩
  rw [hlog' x a' hm']
  simp only [benign, decide_eq_true_eq]
  exact ⟨hkeeps.isArgument, hlog x a hm hkeeps.isArgument hreturned⟩

-- What comes up where nothing is mutated was asked by an inspection that is no mutation and met no
-- limit.
theorem exists_report_of_benignAsks (hH : ReturnExact p H) {stack : Stack} {budget : Nat}
    {q : Question} {assumed verdict : Verdict} {reports : Reports}
    (hassumed : Derives p stack (.assumed budget q assumed))
    (hreports : ∀ y r, (y, r) ∈ reports → Derives p ((q, assumed) :: stack) (.answered budget y r))
    (hleads : Leads (p.inquiry q) reports.log (.done verdict)) (hverdict : verdict.kind ≠ .mutator)
    (htrunc : (reports.opening q).truncated = false) {y : Question} (hy : BenignAsks p H q y) :
    ∃ r, (y, r) ∈ reports := by
  obtain ⟨log, v, a, hbenign, hlog, hm⟩ := hy
  have hdominated := dominated_benign hH hassumed hreports hleads hverdict htrunc
    (fun y r hr => (hreports y r hr).attainClaim hH) hbenign hlog
  obtain ⟨a', hm'⟩ := hdominated.asked y a hm
  obtain ⟨r, hr, -⟩ := Reports.mem_log_iff.mp hm'
  exact ⟨r, hr⟩

theorem inspector_of_benign (hH : ReturnExact p H) {stack : Stack} {budget : Nat}
    {q : Question} {assumed verdict : Verdict} {reports : Reports}
    (hassumed : Derives p stack (.assumed budget q assumed))
    (hreports : ∀ y r, (y, r) ∈ reports → Derives p ((q, assumed) :: stack) (.answered budget y r))
    (hleads : Leads (p.inquiry q) reports.log (.done verdict))
    (hcertain : verdict.kind = .inspector) (htrunc : (reports.opening q).truncated = false) :
    ((p.inquiry q).eval (benign p H)).kind = .inspector := by
  have hverdict : verdict.kind ≠ .mutator := by
    rw [hcertain]
    exact nofun
  obtain ⟨log, hbenign, hlog⟩ := exists_leads_benign p H q
  have hdominated := dominated_benign hH hassumed hreports hleads hverdict htrunc
    (fun y r hr => (hreports y r hr).attainClaim hH) hbenign hlog
  apply hdominated.inspector hcertain
  intro y a hm
  rw [hlog y a hm]
  rfl

-- A branch that met the depth limit leaves its mark, and without one the height is in the budget.
def LimitClaim : Judgement → Prop
  | .answered budget _ r => (r.truncated = true → r.verdict.kind ≠ .inspector) ∧
      (r.truncated = false → r.height < budget)
  | _ => True

theorem Derives.limitClaim {stack : Stack} {j : Judgement} (h : Derives p stack j) :
    LimitClaim j := by
  induction h with
  | query => trivial
  | descend => trivial
  | assume => trivial
  | retry => trivial
  | beyond => exact ⟨fun _ => nofun, nofun⟩
  | missing => exact ⟨nofun, fun _ => Nat.succ_pos _⟩
  | pending => exact ⟨nofun, fun _ => Nat.succ_pos _⟩
  | known hasked htarget htarget' hanswered hheight => exact ⟨nofun, fun _ => hheight⟩
  | @inspected stack budget x q assumed verdict reports _ _ _ _ hleads _ _ ihreports =>
    constructor
    · intro htrunc hinspector
      obtain ⟨y, r, hr, htruncated⟩ := Reports.exists_of_opening_truncated q htrunc
      apply (ihreports y r hr).1 htruncated
      have hrank := rank_le_of_inquiry hleads (Reports.mem_log_iff.mpr ⟨r, hr, rfl⟩)
      exact MutationKind.eq_inspector_of_rank_le (le_trans hrank (rank_le_settled _ _ _ _))
        hinspector
    · intro htrunc
      refine Nat.lt_succ_of_le (Reports.opening_height_le q ?_)
      intro y r hr
      exact (ihreports y r hr).2 ((Reports.opening_covers q hr).2.1 htrunc)

-- The height of an answer that is no mutation and met no limit covers all questions that come up
-- where nothing is mutated.
def ShortClaim (p : Program) (H : Question → Prop) (stack : Stack) : Judgement → Prop
  | .answered _ x r => r.verdict.kind ≠ .mutator → r.truncated = false →
      Short p H (r.height + 1) (fun s => ∃ a, OpenFrom r.low stack (s, a)) x
  | _ => True

theorem Derives.shortClaim (hH : ReturnExact p H) {stack : Stack} {j : Judgement}
    (h : Derives p stack j) : ShortClaim p H stack j := by
  induction h with
  | query => trivial
  | descend => trivial
  | assume => trivial
  | retry => trivial
  | beyond =>
    intro _ htrunc
    cases htrunc
  | missing hasked htarget _ =>
    intro _ _ q hq
    rw [htarget] at hq
    cases hq
  | @pending above below budget x q assumed hasked htarget _ =>
    intro _ _ q' hq'
    rw [htarget] at hq'
    cases hq'
    exact .inl ⟨assumed, below.length, above, below, rfl, rfl, le_rfl⟩
  | @known stack other budget budget' height x y q verdict _ htarget htarget' _ _ _ ih =>
    intro hkind htrunc
    refine ((ih hkind htrunc).congr (htarget'.trans htarget.symm)).mono le_rfl ?_
    rintro s ⟨a, hs⟩
    exact absurd hs not_openFrom_none
  | @inspected stack budget x q assumed verdict reports _ htarget hassumed hreports hleads _ _
      ihreports =>
    intro hsettled htrunc q' hq'
    rw [htarget] at hq'
    cases hq'
    right
    intro y hy
    have hverdict := verdict_ne_of_settled hsettled
    obtain ⟨r, hr⟩ := exists_report_of_benignAsks hH hassumed hreports hleads hverdict htrunc hy
    obtain ⟨hheight, hcut, -⟩ := Reports.opening_covers q hr
    have hshort := ihreports y r hr (kind_ne_of_report hleads hverdict hr) (hcut htrunc)
    refine hshort.mono hheight ?_
    rintro s ⟨b, hs⟩
    obtain heq | hs := hs.cons
    · cases heq
      exact .inl rfl
    · exact .inr ⟨b, hs.report hr⟩

-- A certain answer belongs to questions whose inspections are certain, up to the open questions
-- that were read.
def CalmClaim (p : Program) (H : Question → Prop) (stack : Stack) : Judgement → Prop
  | .answered _ x r => r.verdict.kind = .inspector → ∃ X q, p.target? x = some q ∧ X q ∧
      CalmUpTo p H (fun s => ∃ a, OpenFrom r.low stack (s, a)) X
  | _ => True

theorem Derives.calmClaim (hH : ReturnExact p H) {stack : Stack} {j : Judgement}
    (h : Derives p stack j) : CalmClaim p H stack j := by
  induction h with
  | query => trivial
  | descend => trivial
  | assume => trivial
  | retry => trivial
  | beyond => nofun
  | missing => nofun
  | @pending above below budget x q assumed _ htarget _ =>
    intro _
    refine ⟨fun s => s = q, q, htarget, rfl, ?_⟩
    rintro s rfl
    exact .inl ⟨assumed, below.length, above, below, rfl, rfl, le_rfl⟩
  | @known stack other budget budget' height x y q verdict _ htarget htarget' _ _ _ ih =>
    intro hinspector
    obtain ⟨X, q', hq', hX, hcalm⟩ := ih hinspector
    rw [htarget'] at hq'
    cases hq'
    refine ⟨X, q, htarget, hX, ?_⟩
    intro s hs
    obtain ⟨a, hopen⟩ | hrest := hcalm s hs
    · exact absurd hopen not_openFrom_none
    · exact .inr hrest
  | @inspected stack budget x q assumed verdict reports hasked htarget hassumed hreports hleads _ _
      ihreports =>
    intro hinspector
    have hanswered := Derives.inspected hasked htarget hassumed hreports hleads
    have htrunc : (reports.opening q).truncated = false := by
      by_contra htrunc
      exact hanswered.limitClaim.1 (Bool.eq_true_of_not_eq_false htrunc) hinspector
    have hcertain : verdict.kind = .inspector :=
      MutationKind.eq_inspector_of_rank_le (rank_le_settled _ _ _ _) hinspector
    have hverdict : verdict.kind ≠ .mutator := by
      rw [hcertain]
      exact nofun
    have hbelow (y : Question) (r : Report) (hr : (y, r) ∈ reports) :=
      ihreports y r hr (MutationKind.eq_inspector_of_rank_le
        (rank_le_of_inquiry hleads (Reports.mem_log_iff.mpr ⟨r, hr, rfl⟩)) hcertain)
    -- the question itself, and all that is calm for some report below it
    let X : Question → Prop := fun s => s = q ∨ ∃ y r Y, (y, r) ∈ reports ∧ Y s ∧
      CalmUpTo p H (fun s => ∃ a, OpenFrom r.low ((q, assumed) :: stack) (s, a)) Y
    have hself : ((p.inquiry q).eval (benign p H)).kind = .inspector ∧
        ∀ y, BenignAsks p H q y → ∃ q', p.target? y = some q' ∧ X q' := by
      refine ⟨inspector_of_benign hH hassumed hreports hleads hcertain htrunc, fun y hy => ?_⟩
      obtain ⟨r, hr⟩ := exists_report_of_benignAsks hH hassumed hreports hleads hverdict htrunc hy
      obtain ⟨Y, q', hq', hY, hcalm⟩ := hbelow y r hr
      exact ⟨q', hq', .inr ⟨y, r, Y, hr, hY, hcalm⟩⟩
    refine ⟨X, q, htarget, .inl rfl, ?_⟩
    rintro s (rfl | ⟨y, r, Y, hr, hY, hcalm⟩)
    · exact .inr hself
    · obtain ⟨a, hopen⟩ | ⟨hkind, hasks⟩ := hcalm s hY
      · obtain heq | hopen := hopen.cons
        · cases heq
          exact .inr hself
        · exact .inl ⟨a, hopen.report hr⟩
      · refine .inr ⟨hkind, fun y' hy' => ?_⟩
        obtain ⟨q', hq', hY'⟩ := hasks y' hy'
        exact ⟨q', hq', .inr ⟨y, r, Y, hr, hY', hcalm⟩⟩

-- A question is inspected only while it is not open.
def NewClaim (stack : Stack) : Judgement → Prop
  | .assumed _ q _ => q ∉ stack.map Prod.fst
  | _ => True

theorem Derives.newClaim {stack : Stack} {j : Judgement} (h : Derives p stack j) :
    NewClaim stack j := by
  induction h with
  | assume hasked htarget hnew => exact hnew
  | retry hassumed hreports hleads hlow hkind ihassumed => exact ihassumed
  | query => trivial
  | descend => trivial
  | beyond => trivial
  | missing => trivial
  | pending => trivial
  | known => trivial
  | inspected => trivial

-- Among questions whose inspections are certain, an answer is certain if the budget covers it and
-- nothing uncertain was assumed of the open questions that were read.
def CertainClaim (p : Program) (H X : Question → Prop) (stack : Stack) : Judgement → Prop
  | .asked _ _ => True
  | .assumed budget q assumed => X q →
      (∀ y, BenignAsks p H q y → Short p H budget (fun s => s = q ∨ s ∈ stack.map Prod.fst) y) →
      assumed.kind = .inspector
  | .answered budget x r => r.verdict.kind ≠ .mutator →
      (∃ q, p.target? x = some q ∧ X q) → Short p H budget (· ∈ stack.map Prod.fst) x →
      (∀ s a, OpenFrom r.low stack (s, a) → X s → a.kind = .inspector) →
      r.verdict.kind = .inspector

-- One inspection among such questions.
theorem inspector_of_reports (hH : ReturnExact p H) {X : Question → Prop}
    (hX : CalmUpTo p H (fun _ => False) X) {stack : Stack} {budget : Nat} {q : Question}
    {assumed verdict : Verdict} {reports : Reports} (hq : X q)
    (hshort : ∀ y, BenignAsks p H q y →
      Short p H budget (fun s => s = q ∨ s ∈ stack.map Prod.fst) y)
    (hreports : ∀ y r, (y, r) ∈ reports → Derives p ((q, assumed) :: stack) (.answered budget y r))
    (hleads : Leads (p.inquiry q) reports.log (.done verdict)) (hverdict : verdict.kind ≠ .mutator)
    (ihreports : ∀ y r, (y, r) ∈ reports →
      CertainClaim p H X ((q, assumed) :: stack) (.answered budget y r))
    (hopen : ∀ y r, (y, r) ∈ reports → ∀ s a, OpenFrom r.low ((q, assumed) :: stack) (s, a) →
      X s → a.kind = .inspector) : verdict.kind = .inspector := by
  obtain hfalse | ⟨hcalm, hbelow⟩ := hX q hq
  · exact hfalse.elim
  obtain ⟨log, hbenign, hlog⟩ := exists_leads_benign p H q
  have hbounded := bounded_log fun y r hr => ((hreports y r hr).boundClaim hH).1
  have hkinds (y : Question) (a : Verdict) (hm : (y, a) ∈ reports.log) : a.kind ≠ .mutator :=
    MutationKind.ne_mutator_of_rank_le (rank_le_of_inquiry hleads hm) hverdict
  have hdominated := dominated_inquiry hleads hbenign hbounded
    (logAtMost_benign hbounded hkinds hlog) (by
    rw [hcalm]
    exact nofun)
  apply hdominated.inspector hcalm
  intro y a hm
  obtain ⟨r, hr, rfl⟩ := Reports.mem_log_iff.mp hm
  obtain ⟨a', hm'⟩ := hdominated.asked y _ hm
  have hasks : BenignAsks p H q y := ⟨log, _, a', hbenign, hlog, hm'⟩
  apply ihreports y r hr (hkinds y _ hm) (hbelow y hasks) _ (hopen y r hr)
  refine (hshort y hasks).mono le_rfl ?_
  rintro s (rfl | hs)
  · simp
  · exact List.mem_cons_of_mem _ hs

theorem Derives.certainClaim (hH : ReturnExact p H) {X : Question → Prop}
    (hX : CalmUpTo p H (fun _ => False) X) {stack : Stack} {j : Judgement} (h : Derives p stack j) :
    CertainClaim p H X stack j := by
  induction h with
  | query => trivial
  | descend => trivial
  | assume => exact fun _ _ => rfl
  | @retry stack budget q assumed verdict reports _ hreports hleads hlow hkind ihassumed
      ihreports =>
    intro hq hshort
    have hassumed := ihassumed hq hshort
    have hverdict := inspector_of_reports hH hX hq hshort hreports hleads hkind ihreports (by
      intro y r hr s a hs _
      -- the question itself is the lowest one that was read
      obtain ⟨n, above, below, hn, heq, hle⟩ := hs
      obtain ⟨k, hk, hopening⟩ := (Reports.opening_covers q hr).2.2 n hn
      rw [hlow] at hopening
      cases hopening
      cases above with
      | nil =>
        cases heq
        exact hassumed
      | cons _ above =>
        have htotal := congrArg List.length heq
        simp only [List.length_append, List.length_cons] at htotal
        omega)
    simp only [Verdict.merge, hassumed, hverdict]
    rfl
  | beyond =>
    intro _ _ hshort
    exact hshort.elim
  | missing hasked htarget =>
    rintro _ ⟨q, hq, -⟩
    rw [htarget] at hq
    cases hq
  | @pending above below budget x q assumed _ htarget _ =>
    rintro _ ⟨q', hq', hX'⟩ _ hopen
    rw [htarget] at hq'
    cases hq'
    exact hopen q assumed ⟨below.length, above, below, rfl, rfl, le_rfl⟩ hX'
  | @known stack other budget budget' height x y q verdict _ htarget htarget' hanswered _ _ ih =>
    rintro hkind ⟨q', hq', hX'⟩ _ _
    rw [htarget] at hq'
    cases hq'
    apply ih hkind ⟨q, htarget', hX'⟩
    · refine (hanswered.shortClaim hH hkind rfl).mono (hanswered.limitClaim.2 rfl) ?_
      rintro s ⟨a, hs⟩
      exact absurd hs not_openFrom_none
    · intro s a hs
      exact absurd hs not_openFrom_none
  | @inspected stack budget x q assumed verdict reports _ htarget hassumed hreports hleads _
      ihassumed ihreports =>
    rintro hsettled ⟨q', hq', hq⟩ hshort hopen
    rw [htarget] at hq'
    cases hq'
    have hshort : ∀ y, BenignAsks p H q y →
        Short p H budget (fun s => s = q ∨ s ∈ stack.map Prod.fst) y := by
      obtain hold | hshort := hshort q htarget
      · exact absurd hold hassumed.newClaim
      · exact hshort
    have hcertain := ihassumed hq hshort
    have hverdict := inspector_of_reports hH hX hq hshort hreports hleads
      (verdict_ne_of_settled hsettled) ihreports (by
        intro y r hr s a hs hs'
        obtain heq | hs := hs.cons
        · cases heq
          exact hcertain
        · exact hopen s a (hs.report hr) hs')
    obtain heq | ⟨-, -, heq⟩ := settled_cases (reports.opening q) stack.length assumed verdict
    · simpa only [Opening.report, heq] using hverdict
    · simp only [Opening.report, heq, Verdict.merge, hcertain, hverdict]
      rfl

-- From outside, an answer is certain exactly when plain recursion finds no mutation, the budget
-- covers the questions that come up, and each of them can be inspected.
theorem Derives.kind_eq_inspector_iff (hp : p.WellNamed) (hH : ReturnExact p H) {budget : Nat}
    {x : Question} {r : Report} (h : Derives p [] (.answered budget x r)) :
    r.verdict.kind = .inspector ↔ (p.plain budget x).kind ≠ .mutator ∧
      Short p H budget (fun _ => False) x ∧
      ∃ X q, p.target? x = some q ∧ X q ∧ CalmUpTo p H (fun _ => False) X := by
  have hmutator := h.kind_eq_mutator_iff hp hH
  have hempty {s : Question} : ¬∃ a, OpenFrom r.low [] (s, a) := by
    rintro ⟨a, n, above, below, -, heq, -⟩
    simp at heq
  constructor
  · intro hinspector
    have hkind : r.verdict.kind ≠ .mutator := by
      rw [hinspector]
      exact nofun
    have htrunc : r.truncated = false := by
      by_contra htrunc
      exact h.limitClaim.1 (Bool.eq_true_of_not_eq_false htrunc) hinspector
    have hshort := h.shortClaim hH hkind htrunc
    obtain ⟨X, q, hq, hX, hcalm⟩ := h.calmClaim hH hinspector
    refine ⟨fun hplain => hkind (hmutator.mpr hplain), ?_, X, q, hq, hX, ?_⟩
    · exact hshort.mono (h.limitClaim.2 htrunc) fun s hs => hempty hs
    · intro s hs
      obtain hs | hs := hcalm s hs
      · exact absurd hs hempty
      · exact .inr hs
  · rintro ⟨hplain, hshort, X, q, hq, hX, hcalm⟩
    apply h.certainClaim hH hcalm (fun hkind => hplain (hmutator.mp hkind)) ⟨q, hq, hX⟩
    · exact hshort.mono le_rfl fun s hs => hs.elim
    · intro s a hs
      exact absurd ⟨a, hs⟩ hempty

-- Two answers to a question asked from outside are of the same kind.
theorem Derives.kind_unique (hp : p.WellNamed) (hH : ReturnExact p H) {budget : Nat}
    {x : Question} {r r' : Report} (h : Derives p [] (.answered budget x r))
    (h' : Derives p [] (.answered budget x r')) : r.verdict.kind = r'.verdict.kind := by
  have hmutator := (h.kind_eq_mutator_iff hp hH).trans
    (h'.kind_eq_mutator_iff hp hH).symm
  have hinspector := (h.kind_eq_inspector_iff hp hH).trans (h'.kind_eq_inspector_iff hp hH).symm
  cases hr : r.verdict.kind with
  | mutator => exact (hmutator.mp hr).symm
  | inspector => exact (hinspector.mp hr).symm
  | uncertain =>
    cases hr' : r'.verdict.kind with
    | mutator =>
      rw [hmutator.mpr hr'] at hr
      cases hr
    | inspector =>
      rw [hinspector.mpr hr'] at hr
      cases hr
    | uncertain => rfl

end TestFocus.Mutation
