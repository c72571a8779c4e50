import TestFocus.Proofs.Mutation.Domination

-- References that are handed back under recursion. As long as no call on a cycle keeps a
-- reference that is handed back to it, an open question is never assumed to hand back too
-- little.

namespace TestFocus.Mutation

open Inquiry Relation

-- The second question comes up in a run of the inquiry of the first.
def Below (p : Program) (H : Question → Prop) (q q' : Question) : Prop :=
  ∃ log v x a, Leads (p.inquiry q) log (.done v) ∧ Bounded p H log ∧ (x, a) ∈ log ∧
    p.target? x = some q'

-- The verdict where nothing is mutated and all that may be handed back is.
open Classical in
noncomputable def benign (p : Program) (H : Question → Prop) (x : Question) : Verdict :=
  { kind := .inspector, isReturned := decide (x.isArgument ∧ MayReturn p H x) }

-- `H` is what is handed back, and nothing that is kept on a cycle belongs to it.
structure ReturnExact (p : Program) (H : Question → Prop) : Prop where
  closed : ∀ {q : Question} {log : Log} {v : Verdict}, q.isArgument →
    Leads (p.inquiry q) log (.done v) → Bounded p H log → v.isReturned → H q
  attained : ∀ {q : Question}, q.isArgument → H q →
    ((p.inquiry q).eval (benign p H)).kind ≠ .mutator →
    ((p.inquiry q).eval (benign p H)).isReturned
  acyclic : ∀ {q x q' : Question}, Keeps p H q x → p.target? x = some q' →
    ReflTransGen (Below p H) q' q → ¬H q'

variable {p : Program} {H : Question → Prop}

theorem below_of_leads {q x q' : Question} {log : Log} {next : Verdict → Inquiry Verdict}
    (hleads : Leads (p.inquiry q) log (.ask x next)) (hlog : Bounded p H log)
    (htarget : p.target? x = some q') : Below p H q q' := by
  obtain ⟨rest, hrest, hverdicts⟩ := exists_leads_eval (fun _ => .uncertain) (next .uncertain)
  refine ⟨log ++ (x, .uncertain) :: rest, _, x, .uncertain, hleads.trans (.step hrest), ?_,
    by simp, htarget⟩
  intro y a hm hargument hreturned
  rcases List.mem_append.mp hm with hm | hm
  · exact hlog y a hm hargument hreturned
  · rcases List.mem_cons.mp hm with heq | hm
    · cases heq
      cases hreturned
    · cases hverdicts y a hm
      cases hreturned

section Stack

-- What is assumed of open questions.
def Harmless (H : Question → Prop) (stack : Stack) : Prop :=
  ∀ q a, (q, a) ∈ stack → a.kind ≠ .mutator ∧ (q.isArgument → a.isReturned → H q)

-- The lowest position that was read is the one of an entry, and the question leads there.
def ReadsEntry (p : Program) (H : Question → Prop) (stack : Stack) (x : Question) (r : Report) :
    Prop :=
  ∀ n, r.low = some n → ∃ above entry below q, stack = above ++ entry :: below ∧
    below.length = n ∧ p.target? x = some q ∧ ReflTransGen (Below p H) q entry.1

-- The open questions lead to the one that is looked at, nothing is assumed that is not bounded, and
-- a question leads to the open ones that were read below it.
def BoundClaim (p : Program) (H : Question → Prop) (stack : Stack) : Judgement → Prop
  | .asked _ x => Harmless H stack ∧
      ∀ q, p.target? x = some q → ∀ entry ∈ stack, TransGen (Below p H) entry.1 q
  | .assumed _ q assumed => Harmless H ((q, assumed) :: stack) ∧
      ∀ entry ∈ stack, TransGen (Below p H) entry.1 q
  | .answered _ x r => (x.isArgument → r.verdict.isReturned → MayReturn p H x) ∧
      ReadsEntry p H stack x r

theorem bounded_log {reports : Reports}
    (h : ∀ y r, (y, r) ∈ reports → y.isArgument → r.verdict.isReturned → MayReturn p H y) :
    Bounded p H reports.log := by
  intro y a hm hargument hreturned
  obtain ⟨r, hr, rfl⟩ := Reports.mem_log_iff.mp hm
  exact h y r hr hargument hreturned

-- A closed question leads to the entries that the questions below it lead to.
theorem readsEntry_report {x q : Question} {assumed verdict v : Verdict} {stack : Stack}
    {reports : Reports} (htarget : p.target? x = some q)
    (hleads : Leads (p.inquiry q) reports.log (.done verdict)) (hlog : Bounded p H reports.log)
    (h : ∀ y r, (y, r) ∈ reports → ReadsEntry p H ((q, assumed) :: stack) y r) :
    ReadsEntry p H stack x ((reports.opening q).report stack.length v) := by
  intro n hlow
  simp only [Opening.report] at hlow
  split at hlow
  · next hinside =>
    obtain ⟨y, r, hm, hr⟩ := Reports.exists_of_opening_low q hlow
    obtain ⟨above, entry, below, q', heq, hlength, htarget', hpath⟩ := h y r hm _ hr
    have hless : n < stack.length := by simpa [Memo.isInsideCycle, hlow] using hinside
    have hbelow : Below p H q q' :=
      ⟨reports.log, verdict, y, r.verdict, hleads, hlog, Reports.mem_log_iff.mpr ⟨r, hm, rfl⟩,
        htarget'⟩
    cases above with
    | nil =>
      cases heq
      omega
    | cons _ above =>
      cases heq
      exact ⟨above, entry, below, q, rfl, hlength, htarget, .head hbelow hpath⟩
  · cases hlow

theorem Derives.boundClaim (hH : ReturnExact p H) {stack : Stack} {j : Judgement}
    (h : Derives p stack j) : BoundClaim p H stack j := by
  induction h with
  | query budget x => exact ⟨by simp [Harmless], by simp⟩
  | @descend stack budget q x assumed reports next _ _ hleads ihassumed ihreports =>
    refine ⟨ihassumed.1, ?_⟩
    intro q' htarget entry hm
    have hbelow := below_of_leads hleads (bounded_log fun y r hr => (ihreports y r hr).1) htarget
    rcases List.mem_cons.mp hm with rfl | hm
    · exact .single hbelow
    · exact (ihassumed.2 entry hm).tail hbelow
  | assume hasked htarget _ ihasked =>
    refine ⟨?_, ihasked.2 _ htarget⟩
    intro q a hm
    rcases List.mem_cons.mp hm with heq | hm
    · cases heq
      exact ⟨nofun, nofun⟩
    · exact ihasked.1 q a hm
  | @retry stack budget q assumed verdict reports _ _ hleads hlow hkind ihassumed ihreports =>
    refine ⟨?_, ihassumed.2⟩
    intro q' a hm
    rcases List.mem_cons.mp hm with heq | hm
    · cases heq
      obtain ⟨hassumed, hreturned⟩ := ihassumed.1 q assumed (by simp)
      refine ⟨MutationKind.merge_ne_mutator hassumed hkind, ?_⟩
      intro hargument hmerged
      rcases Bool.or_eq_true_iff.mp hmerged with hret | hret
      · exact hreturned hargument hret
      · exact hH.closed hargument hleads (bounded_log fun y r hr => (ihreports y r hr).1) hret
    · exact ihassumed.1 q' a (List.mem_cons_of_mem _ hm)
  | beyond => exact ⟨nofun, nofun⟩
  | missing => exact ⟨nofun, nofun⟩
  | @pending above below budget x q assumed _ htarget ihasked =>
    refine ⟨?_, ?_⟩
    · intro hargument hreturned
      rw [← Program.isArgument_of_target? htarget] at hargument
      exact ⟨q, htarget, (ihasked.1 q assumed (by simp)).2 hargument hreturned⟩
    · intro n hn
      cases hn
      exact ⟨above, (q, assumed), below, q, rfl, rfl, htarget, .refl⟩
  | @known stack other budget budget' height x y q verdict _ htarget htarget' _ _ _ ihanswered =>
    refine ⟨?_, nofun⟩
    intro hargument hreturned
    have hsame : y.isArgument = x.isArgument := by
      rw [← Program.isArgument_of_target? htarget, ← Program.isArgument_of_target? htarget']
    obtain ⟨q', hq', hreturns⟩ := ihanswered.1 (by rwa [hsame]) hreturned
    rw [htarget'] at hq'
    cases hq'
    exact ⟨q, htarget, hreturns⟩
  | @inspected stack budget x q assumed verdict reports _ htarget _ _ hleads _ ihassumed
      ihreports =>
    have hlog := bounded_log fun y r hr => (ihreports y r hr).1
    refine ⟨?_, readsEntry_report htarget hleads hlog fun y r hr => (ihreports y r hr).2⟩
    intro hargument hreturned
    rw [← Program.isArgument_of_target? htarget] at hargument
    refine ⟨q, htarget, ?_⟩
    simp only [Opening.report, Opening.settled] at hreturned
    split at hreturned
    · rcases Bool.or_eq_true_iff.mp hreturned with hret | hret
      · exact (ihassumed.1 q assumed (by simp)).2 hargument hret
      · exact hH.closed hargument hleads hlog hret
    · exact hH.closed hargument hleads hlog hreturned

-- A question whose answer rests on an open one leads back to the question that asks it, so nothing
-- that is kept is handed back there.
theorem not_mayReturn_of_low (hH : ReturnExact p H) {stack : Stack} {budget : Nat} {q y : Question}
    {assumed : Verdict} {r : Report} (hassumed : Derives p stack (.assumed budget q assumed))
    (hreport : Derives p ((q, assumed) :: stack) (.answered budget y r)) (hlow : r.low ≠ none)
    (hkeeps : Keeps p H q y) : ¬MayReturn p H y := by
  rintro ⟨q', htarget, hreturns⟩
  obtain ⟨n, hn⟩ := Option.ne_none_iff_exists'.mp hlow
  obtain ⟨above, entry, below, q'', heq, -, htarget', hpath⟩ := (hreport.boundClaim hH).2 n hn
  rw [htarget] at htarget'
  cases htarget'
  refine hH.acyclic hkeeps htarget ?_ hreturns
  have hentry : entry ∈ (q, assumed) :: stack := by
    rw [heq]
    simp
  rcases List.mem_cons.mp hentry with rfl | hentry
  · exact hpath
  · exact hpath.trans ((hassumed.boundClaim hH).2 entry hentry).to_reflTransGen

end Stack

-- The last inspection settles a question, or what was assumed of it joins the verdict.
theorem settled_cases (closed : Opening) (position : Nat) (assumed verdict : Verdict) :
    closed.settled position assumed verdict = verdict ∨
      closed.low = some position ∧ verdict.kind ≠ .mutator ∧
        closed.settled position assumed verdict = assumed.merge verdict := by
  unfold Opening.settled
  split
  · next h =>
    obtain ⟨hlow, hkind⟩ : closed.low = some position ∧ verdict.kind ≠ .mutator := by
      simpa [MutationKind.isMutator] using h
    exact .inr ⟨hlow, hkind, rfl⟩
  · exact .inl rfl

theorem settled_ne_mutator {closed : Opening} {position : Nat} {assumed verdict : Verdict}
    (hassumed : assumed.kind ≠ .mutator) (hverdict : verdict.kind ≠ .mutator) :
    (closed.settled position assumed verdict).kind ≠ .mutator := by
  obtain heq | ⟨-, -, heq⟩ := settled_cases closed position assumed verdict
  · rwa [heq]
  · rw [heq]
    exact MutationKind.merge_ne_mutator hassumed hverdict

-- What the last inspection hands back, the settled question hands back.
theorem isReturned_settled (closed : Opening) (position : Nat) (assumed : Verdict)
    {verdict : Verdict} (h : verdict.isReturned) :
    (closed.settled position assumed verdict).isReturned := by
  obtain heq | ⟨-, -, heq⟩ := settled_cases closed position assumed verdict
  · rwa [heq]
  · simp only [heq, Verdict.merge, h, Bool.or_true]

-- A verdict below the last inspection is below what settles the question.
theorem AtMost.settled {matters : Prop} {v verdict : Verdict} (h : AtMost matters v verdict)
    (closed : Opening) (position : Nat) (assumed : Verdict) :
    AtMost matters v (closed.settled position assumed verdict) := by
  obtain hmutator | ⟨hkind, hreturned⟩ := h
  · obtain heq | ⟨-, hverdict, -⟩ := settled_cases closed position assumed verdict
    · exact .inl (by rwa [heq])
    · exact absurd hmutator hverdict
  · exact .inr ⟨hkind, fun hmatters hret => isReturned_settled _ _ _ (hreturned hmatters hret)⟩

-- The verdict that settles a question has at least the kind of the last inspection.
theorem rank_le_settled (closed : Opening) (position : Nat) (assumed verdict : Verdict) :
    verdict.kind.rank ≤ (closed.settled position assumed verdict).kind.rank := by
  obtain heq | ⟨-, -, heq⟩ := settled_cases closed position assumed verdict
  · rw [heq]
  · rw [heq, Verdict.merge, MutationKind.rank_merge]
    exact le_max_right _ _

theorem verdict_ne_of_settled {closed : Opening} {position : Nat} {assumed verdict : Verdict}
    (h : (closed.settled position assumed verdict).kind ≠ .mutator) : verdict.kind ≠ .mutator :=
  MutationKind.ne_mutator_of_rank_le (rank_le_settled closed position assumed verdict) h

-- Every report below a question that is no mutation is none either.
theorem kind_ne_of_report {q : Question} {reports : Reports} {verdict : Verdict}
    (hleads : Leads (p.inquiry q) reports.log (.done verdict)) (hverdict : verdict.kind ≠ .mutator)
    {y : Question} {r : Report} (hr : (y, r) ∈ reports) : r.verdict.kind ≠ .mutator :=
  MutationKind.ne_mutator_of_rank_le
    (rank_le_of_inquiry hleads (Reports.mem_log_iff.mpr ⟨r, hr, rfl⟩)) hverdict

-- Where the answer rests on no open question, what is handed back can be compared; elsewhere
-- nothing that is kept is handed back.
theorem AtMost.kept (hH : ReturnExact p H) {stack : Stack} {budget : Nat} {q y : Question}
    {assumed v w : Verdict} {r : Report} (hassumed : Derives p stack (.assumed budget q assumed))
    (hreport : Derives p ((q, assumed) :: stack) (.answered budget y r))
    (h : AtMost (y.isArgument ∧ r.low = none) v w)
    (hv : y.isArgument → v.isReturned → MayReturn p H y) : AtMost (Keeps p H q y) v w := by
  obtain hmutator | ⟨hkind, hreturned⟩ := h
  · exact .inl hmutator
  · refine .inr ⟨hkind, fun hkeeps hret => ?_⟩
    by_cases hlow : r.low = none
    · exact hreturned ⟨hkeeps.isArgument, hlow⟩ hret
    · exact absurd (hv hkeeps.isArgument hret)
        (not_mayReturn_of_low hH hassumed hreport hlow hkeeps)

section Benign

theorem exists_leads_benign (p : Program) (H : Question → Prop) (q : Question) :
    ∃ log, Leads (p.inquiry q) log (.done ((p.inquiry q).eval (benign p H))) ∧
      ∀ y w, (y, w) ∈ log → w = benign p H y :=
  exists_leads_eval (benign p H) (p.inquiry q)

theorem mayReturn_of_benign {x : Question} (h : (benign p H x).isReturned) : MayReturn p H x := by
  simp only [benign, decide_eq_true_eq] at h
  exact h.2

theorem bounded_benign {log : Log} (hlog : ∀ y w, (y, w) ∈ log → w = benign p H y) :
    Bounded p H log := by
  intro x a hm _ hreturned
  rw [hlog x a hm] at hreturned
  exact mayReturn_of_benign hreturned

-- An answer that is no mutation, met no limit and rests on no open question attains the bound on
-- what is handed back.
def AttainClaim (p : Program) (H : Question → Prop) : Judgement → Prop
  | .answered _ x r => r.verdict.kind ≠ .mutator → r.truncated = false → r.low = none →
      x.isArgument → MayReturn p H x → r.verdict.isReturned
  | _ => True

-- An inspection that is no mutation and met no limit is above the benign one.
theorem dominated_benign (hH : ReturnExact p H) {stack : Stack} {budget : Nat} {q : Question}
    {assumed verdict : Verdict} {reports : Reports}
    (hassumed : Derives p stack (.assumed budget q assumed))
    (hreports : ∀ y r, (y, r) ∈ reports → Derives p ((q, assumed) :: stack) (.answered budget y r))
    (hleads : Leads (p.inquiry q) reports.log (.done verdict)) (hverdict : verdict.kind ≠ .mutator)
    (htrunc : (reports.opening q).truncated = false)
    (ihreports : ∀ y r, (y, r) ∈ reports → AttainClaim p H (.answered budget y r)) {log : Log}
    {v : Verdict} (hbenign : Leads (p.inquiry q) log (.done v))
    (hlog : ∀ y w, (y, w) ∈ log → w = benign p H y) : Dominated q log v reports.log verdict := by
  apply dominated_inquiry hbenign hleads (bounded_benign hlog) _ hverdict
  intro y a a' hm hm'
  obtain ⟨r, hr, rfl⟩ := Reports.mem_log_iff.mp hm'
  rw [hlog y a hm]
  refine AtMost.kept hH hassumed (hreports y r hr) (.inr ⟨nofun, ?_⟩)
    fun _ => mayReturn_of_benign
  rintro ⟨hargument, hlow⟩ hreturned
  exact ihreports y r hr (kind_ne_of_report hleads hverdict hr)
    ((Reports.opening_covers q hr).2.1 htrunc) hlow hargument (mayReturn_of_benign hreturned)

theorem attained_of_inspection (hH : ReturnExact p H) {stack : Stack} {budget : Nat} {q : Question}
    {assumed verdict : Verdict} {reports : Reports}
    (hassumed : Derives p stack (.assumed budget q assumed))
    (hreports : ∀ y r, (y, r) ∈ reports → Derives p ((q, assumed) :: stack) (.answered budget y r))
    (hleads : Leads (p.inquiry q) reports.log (.done verdict)) (hverdict : verdict.kind ≠ .mutator)
    (htrunc : (reports.opening q).truncated = false)
    (ihreports : ∀ y r, (y, r) ∈ reports → AttainClaim p H (.answered budget y r))
    (hargument : q.isArgument) (hreturns : H q) : verdict.isReturned := by
  obtain ⟨log, hbenign, hlog⟩ := exists_leads_benign p H q
  have hdominated :=
    dominated_benign hH hassumed hreports hleads hverdict htrunc ihreports hbenign hlog
  exact hdominated.returned hargument (hH.attained hargument hreturns hdominated.kind)

theorem Derives.attainClaim (hH : ReturnExact p H) {stack : Stack} {j : Judgement}
    (h : Derives p stack j) : AttainClaim p H j := by
  induction h with
  | query => trivial
  | descend => trivial
  | assume => trivial
  | retry => trivial
  | beyond => nofun
  | missing hasked htarget =>
    rintro _ _ _ _ ⟨q, hq, -⟩
    rw [htarget] at hq
    cases hq
  | pending => nofun
  | @known stack other budget budget' height x y q verdict _ htarget htarget' _ _ _ ih =>
    rintro hkind _ _ hargument ⟨q', hq', hreturns⟩
    rw [htarget] at hq'
    cases hq'
    refine ih hkind rfl rfl ?_ ⟨q, htarget', hreturns⟩
    rwa [← Program.isArgument_of_target? htarget', Program.isArgument_of_target? htarget]
  | @inspected stack budget x q assumed verdict reports _ htarget hassumed hreports hleads _ _
      ihreports =>
    rintro hsettled htrunc _ hargument ⟨q', hq', hreturns⟩
    rw [htarget] at hq'
    cases hq'
    have hargument : q.isArgument := by rwa [Program.isArgument_of_target? htarget]
    have hreturned := attained_of_inspection hH hassumed hreports hleads
      (verdict_ne_of_settled hsettled) htrunc ihreports hargument hreturns
    exact isReturned_settled (reports.opening q) stack.length assumed hreturned

end Benign

end TestFocus.Mutation
