import TestFocus.Proofs.Mutation.HandedBack

-- Answers under recursion. As long as no call on a cycle keeps a reference that is handed back
-- to it, the open questions hide no mutation: a question is answered by a mutation exactly when
-- plain recursion down to the depth limit finds one.

namespace TestFocus.Program

open Mutation Inquiry

variable {p : Program}

-- Plain recursion for a question about a scanned function.
def plainTarget (p : Program) : Nat → Question → Verdict
  | 0, _ => .uncertain
  | budget + 1, q => (p.inquiry q).eval (p.plain budget)

theorem plain_eq_plainTarget (hp : p.WellNamed) {x q : Question} (h : p.target? x = some q)
    (budget : Nat) : p.plain budget x = p.plainTarget budget q := by
  cases budget with
  | zero => exact plain_zero p x
  | succ budget => exact plain_of_target?_some hp budget h

end TestFocus.Program

namespace TestFocus.Mutation

open Inquiry Relation

variable {p : Program} {H : Question → Prop}

-- The outcomes of two runs of an inquiry.
theorem atMost_of_leads {q : Question} {log log' : Log} {v v' : Verdict}
    (h : Leads (p.inquiry q) log (.done v)) (h' : Leads (p.inquiry q) log' (.done v'))
    (hbounded : Bounded p H log) (hlog : LogAtMost p H q log log') : AtMost q.isArgument v v' := by
  by_cases hv' : v'.kind = .mutator
  · exact .inl hv'
  · have hdominated := dominated_inquiry h h' hbounded hlog hv'
    exact .inr ⟨hdominated.kind, hdominated.returned⟩

theorem plain_mayReturn (hp : p.WellNamed) (hH : ReturnExact p H) (budget : Nat) (x : Question)
    (hargument : x.isArgument) (hreturned : (p.plain budget x).isReturned) : MayReturn p H x := by
  induction budget generalizing x with
  | zero =>
    rw [Program.plain_zero] at hreturned
    cases hreturned
  | succ budget ih =>
    cases htarget : p.target? x with
    | none =>
      rw [Program.plain_of_target?_none _ htarget] at hreturned
      cases hreturned
    | some q =>
      rw [Program.plain_of_target?_some hp budget htarget] at hreturned
      obtain ⟨log, hleads, hlog⟩ := exists_leads_eval (p.plain budget) (p.inquiry q)
      refine ⟨q, htarget, hH.closed ?_ hleads ?_ hreturned⟩
      · rwa [Program.isArgument_of_target? htarget]
      · intro y a hm hy hret
        rw [hlog y a hm] at hret
        exact ih y hy hret

theorem bounded_plain (hp : p.WellNamed) (hH : ReturnExact p H) {budget : Nat} {log : Log}
    (hlog : ∀ y w, (y, w) ∈ log → w = p.plain budget y) : Bounded p H log := by
  intro x a hm hargument hreturned
  rw [hlog x a hm] at hreturned
  exact plain_mayReturn hp hH budget x hargument hreturned

-- With more levels plain recursion finds more.
theorem plainTarget_atMost_succ (hp : p.WellNamed) (hH : ReturnExact p H) (budget : Nat)
    (q : Question) :
    AtMost q.isArgument (p.plainTarget budget q) (p.plainTarget (budget + 1) q) := by
  induction budget generalizing q with
  | zero => exact .of_not_returned _ nofun fun _ => rfl
  | succ budget ih =>
    have hplain (x : Question) :
        AtMost x.isArgument (p.plain budget x) (p.plain (budget + 1) x) := by
      cases htarget : p.target? x with
      | none =>
        rw [Program.plain_of_target?_none _ htarget]
        exact .of_not_returned _ nofun fun _ => rfl
      | some q' =>
        rw [Program.plain_eq_plainTarget hp htarget, Program.plain_eq_plainTarget hp htarget,
          ← Program.isArgument_of_target? htarget]
        exact ih q'
    obtain ⟨log, hleads, hlog⟩ := exists_leads_eval (p.plain budget) (p.inquiry q)
    obtain ⟨log', hleads', hlog'⟩ := exists_leads_eval (p.plain (budget + 1)) (p.inquiry q)
    refine atMost_of_leads hleads hleads' (bounded_plain hp hH hlog) ?_
    intro x a a' hm hm'
    rw [hlog x a hm, hlog' x a' hm']
    exact (hplain x).imp Keeps.isArgument

-- No answer is worse than plain recursion, with the same budget or with any that exceeds the
-- height.
def UpperClaim (p : Program) : Judgement → Prop
  | .asked _ _ => True
  | .assumed budget q assumed => AtMost q.isArgument assumed (p.plainTarget (budget + 1) q)
  | .answered budget x r =>
      AtMost (x.isArgument ∧ r.low = none) r.verdict (p.plain budget x) ∧
      (r.truncated = false → ∀ larger, r.height < larger →
        AtMost (x.isArgument ∧ r.low = none) r.verdict (p.plain larger x))

-- An inspection is not worse than plain recursion if no answer below it is.
theorem inspection_atMost_plain (hH : ReturnExact p H) {stack : Stack} {budget n : Nat}
    {q : Question} {assumed verdict : Verdict} {reports : Reports}
    (hassumed : Derives p stack (.assumed budget q assumed))
    (hreports : ∀ y r, (y, r) ∈ reports → Derives p ((q, assumed) :: stack) (.answered budget y r))
    (hleads : Leads (p.inquiry q) reports.log (.done verdict))
    (hbelow : ∀ y r, (y, r) ∈ reports →
      AtMost (y.isArgument ∧ r.low = none) r.verdict (p.plain n y)) :
    AtMost q.isArgument verdict (p.plainTarget (n + 1) q) := by
  have hbounds (y : Question) (r : Report) (hr : (y, r) ∈ reports) :=
    ((hreports y r hr).boundClaim hH).1
  obtain ⟨log, hleads', hlog⟩ := exists_leads_eval (p.plain n) (p.inquiry q)
  refine atMost_of_leads hleads hleads' (bounded_log hbounds) ?_
  intro y a a' hm hm'
  obtain ⟨r, hr, rfl⟩ := Reports.mem_log_iff.mp hm
  rw [hlog y a' hm']
  exact (hbelow y r hr).kept hH hassumed (hreports y r hr) (hbounds y r hr)

-- Two verdicts that are no mutations and below a third one are so together.
theorem AtMost.merge {matters : Prop} {a v w : Verdict} (ha : AtMost matters a w)
    (hv : AtMost matters v w) : AtMost matters (a.merge v) w := by
  obtain hmutator | ⟨hakind, hareturned⟩ := ha
  · exact .inl hmutator
  · obtain hmutator | ⟨hvkind, hvreturned⟩ := hv
    · exact .inl hmutator
    · refine .inr ⟨MutationKind.merge_ne_mutator hakind hvkind, fun hmatters hret => ?_⟩
      rcases Bool.or_eq_true_iff.mp hret with hret | hret
      · exact hareturned hmatters hret
      · exact hvreturned hmatters hret

theorem Derives.upperClaim (hp : p.WellNamed) (hH : ReturnExact p H) {stack : Stack}
    {j : Judgement} (h : Derives p stack j) : UpperClaim p j := by
  induction h with
  | query => trivial
  | descend => trivial
  | assume => exact .of_not_returned _ nofun fun _ => rfl
  | @retry stack budget q assumed verdict reports hassumed hreports hleads _ _ ihassumed
      ihreports =>
    exact AtMost.merge ihassumed
      (inspection_atMost_plain hH hassumed hreports hleads fun y r hr => (ihreports y r hr).1)
  | beyond => exact ⟨.of_not_returned _ nofun fun _ => rfl, nofun⟩
  | missing =>
    exact ⟨.of_not_returned _ nofun fun _ => rfl,
      fun _ _ _ => .of_not_returned _ nofun fun _ => rfl⟩
  | @pending above below budget x q assumed hasked htarget _ =>
    have hkind := ((hasked.boundClaim hH).1 q assumed (by simp)).1
    exact ⟨.of_not_returned _ hkind nofun, fun _ _ _ => .of_not_returned _ hkind nofun⟩
  | @known stack other budget budget' height x y q verdict _ htarget htarget' _ hheight _ ih =>
    have hsame (larger : Nat) (h : height < larger) :
        AtMost (x.isArgument ∧ (none : Option Nat) = none) verdict (p.plain larger x) := by
      have hupper := ih.2 rfl larger h
      rw [Program.plain_eq_plainTarget hp htarget'] at hupper
      rw [Program.plain_eq_plainTarget hp htarget]
      rwa [← Program.isArgument_of_target? htarget',
        Program.isArgument_of_target? htarget] at hupper
    exact ⟨hsame _ hheight, fun _ => hsame⟩
  | @inspected stack budget x q assumed verdict reports hasked htarget hassumed hreports hleads _
      ihassumed ihreports =>
    have hself := inspection_atMost_plain hH hassumed hreports hleads
      fun y r hr => (ihreports y r hr).1
    have hlarger (larger : Nat) (htrunc : (reports.opening q).truncated = false)
        (h : (reports.opening q).height < larger) :
        AtMost q.isArgument verdict (p.plainTarget larger q) := by
      obtain ⟨n, rfl⟩ := Nat.exists_eq_add_one_of_ne_zero (Nat.ne_zero_of_lt h)
      refine inspection_atMost_plain hH hassumed hreports hleads ?_
      intro y r hr
      obtain ⟨hheight, hcut, -⟩ := Reports.opening_covers q hr
      exact (ihreports y r hr).2 (hcut htrunc) n (by omega)
    simp only [UpperClaim, Program.plain_eq_plainTarget hp htarget,
      ← Program.isArgument_of_target? htarget]
    obtain heq | ⟨hlow, hkind, heq⟩ :=
      settled_cases (reports.opening q) stack.length assumed verdict
    · simp only [Opening.report, heq]
      exact ⟨hself.imp And.left, fun htrunc larger h => (hlarger larger htrunc h).imp And.left⟩
    · simp only [Opening.report, heq]
      refine ⟨(AtMost.merge ihassumed hself).imp And.left, fun htrunc larger h => ?_⟩
      -- what is assumed to be handed back, the last inspection hands back too
      have hharmless := (hassumed.boundClaim hH).1 q assumed (by simp)
      obtain hmutator | ⟨hverdict, hreturned⟩ := hlarger larger htrunc h
      · exact .inl hmutator
      · refine .inr ⟨MutationKind.merge_ne_mutator hharmless.1 hverdict, fun hmatters hret => ?_⟩
        apply hreturned hmatters.1
        rcases Bool.or_eq_true_iff.mp hret with hret | hret
        · exact attained_of_inspection hH hassumed hreports hleads hverdict htrunc
            (fun y r hr => (hreports y r hr).attainClaim hH) hmatters.1
            (hharmless.2 hmatters.1 hret)
        · exact hret

-- The entry is open at the position or above it.
def OpenFrom (low : Option Nat) (stack : Stack) (entry : Question × Verdict) : Prop :=
  ∃ n above below, low = some n ∧ stack = above ++ entry :: below ∧ n ≤ below.length

theorem not_openFrom_none {stack : Stack} {entry : Question × Verdict} :
    ¬OpenFrom none stack entry := by
  rintro ⟨n, above, below, hlow, -⟩
  cases hlow

theorem OpenFrom.cons {low : Option Nat} {top entry : Question × Verdict} {stack : Stack}
    (h : OpenFrom low (top :: stack) entry) : entry = top ∨ OpenFrom low stack entry := by
  obtain ⟨n, above, below, hlow, heq, hn⟩ := h
  cases above with
  | nil =>
    cases heq
    exact .inl rfl
  | cons _ above =>
    cases heq
    exact .inr ⟨n, above, below, hlow, rfl, hn⟩

-- What was read below a question that is closed was read by the question itself, as far as it is
-- still open.
theorem OpenFrom.report {q : Question} {entry : Question × Verdict} {stack : Stack}
    {reports : Reports} {y : Question} {r : Report} {v : Verdict} (hm : (y, r) ∈ reports)
    (h : OpenFrom r.low stack entry) :
    OpenFrom ((reports.opening q).report stack.length v).low stack entry := by
  obtain ⟨n, above, below, hlow, rfl, hn⟩ := h
  obtain ⟨k, hk, hopening⟩ := (Reports.opening_covers q hm).2.2 n hlow
  have hinside : Memo.isInsideCycle (reports.opening q) (above ++ entry :: below).length := by
    simp only [Memo.isInsideCycle, hopening, Option.any_some, List.length_append, List.length_cons,
      decide_eq_true_eq]
    omega
  refine ⟨k, above, below, ?_, rfl, le_trans hk hn⟩
  rw [Opening.report, if_pos hinside, hopening]

-- No answer is better than plain recursion, as long as plain recursion finds no mutation for the
-- open questions that were read.
def LowerClaim (p : Program) (stack : Stack) : Judgement → Prop
  | .answered budget x r => ∀ c, (c ≤ budget ∨ r.truncated = false) →
      (∀ s a, OpenFrom r.low stack (s, a) → (p.plainTarget c s).kind ≠ .mutator) →
      AtMost (x.isArgument ∧ r.low = none) (p.plain c x) r.verdict
  | _ => True

-- An inspection is not better than plain recursion if no answer below it is.
theorem plain_atMost_inspection (hp : p.WellNamed) (hH : ReturnExact p H) {stack : Stack}
    {budget c : Nat} {q : Question} {assumed verdict : Verdict} {reports : Reports}
    (hassumed : Derives p stack (.assumed budget q assumed))
    (hreports : ∀ y r, (y, r) ∈ reports → Derives p ((q, assumed) :: stack) (.answered budget y r))
    (hleads : Leads (p.inquiry q) reports.log (.done verdict))
    (hbelow : ∀ y r, (y, r) ∈ reports →
      AtMost (y.isArgument ∧ r.low = none) (p.plain c y) r.verdict) :
    AtMost q.isArgument (p.plainTarget (c + 1) q) verdict := by
  obtain ⟨log, hleads', hlog⟩ := exists_leads_eval (p.plain c) (p.inquiry q)
  refine atMost_of_leads hleads' hleads (bounded_plain hp hH hlog) ?_
  intro y a a' hm hm'
  obtain ⟨r, hr, rfl⟩ := Reports.mem_log_iff.mp hm'
  rw [hlog y a hm]
  exact (hbelow y r hr).kept hH hassumed (hreports y r hr) (plain_mayReturn hp hH c y)

-- What plain recursion finds for the question itself, one level less is enough for what it reads.
theorem plain_atMost_settled (hp : p.WellNamed) (hH : ReturnExact p H) {stack : Stack}
    {budget : Nat} {q : Question} {assumed verdict : Verdict} {reports : Reports}
    (hassumed : Derives p stack (.assumed budget q assumed))
    (hreports : ∀ y r, (y, r) ∈ reports → Derives p ((q, assumed) :: stack) (.answered budget y r))
    (hleads : Leads (p.inquiry q) reports.log (.done verdict))
    (hlower : ∀ y r, (y, r) ∈ reports →
      LowerClaim p ((q, assumed) :: stack) (.answered budget y r)) {c : Nat}
    (hc : c ≤ budget + 1 ∨ (reports.opening q).truncated = false)
    (hopen : ∀ s a, OpenFrom ((reports.opening q).report stack.length
        ((reports.opening q).settled stack.length assumed verdict)).low stack (s, a) →
      (p.plainTarget c s).kind ≠ .mutator) :
    AtMost q.isArgument (p.plainTarget c q)
      ((reports.opening q).settled stack.length assumed verdict) := by
  -- by induction the question itself, which is open below, is no mutation one level down
  induction c with
  | zero => exact .of_not_returned _ nofun fun _ => rfl
  | succ c ih =>
    by_cases hverdict : verdict.kind = .mutator
    · exact AtMost.settled (.inl hverdict) _ _ _
    have hc' : c ≤ budget ∨ (reports.opening q).truncated = false :=
      hc.imp_left Nat.le_of_succ_le_succ
    have hopen' (s : Question) (a : Verdict)
        (hs : OpenFrom ((reports.opening q).report stack.length
          ((reports.opening q).settled stack.length assumed verdict)).low stack (s, a)) :
        (p.plainTarget c s).kind ≠ .mutator :=
      (plainTarget_atMost_succ hp hH c s).kind_ne (hopen s a hs)
    have hassumed' : assumed.kind ≠ .mutator := ((hassumed.boundClaim hH).1 q assumed (by simp)).1
    have hself : (p.plainTarget c q).kind ≠ .mutator :=
      (ih (hc'.imp_left (Nat.le_succ_of_le ·)) hopen').kind_ne
        (settled_ne_mutator hassumed' hverdict)
    have hbelow (y : Question) (r : Report) (hr : (y, r) ∈ reports) :
        AtMost (y.isArgument ∧ r.low = none) (p.plain c y) r.verdict := by
      apply hlower y r hr c (hc'.imp_right (Reports.opening_covers q hr).2.1)
      intro s a hs
      obtain heq | hs := hs.cons
      · cases heq
        exact hself
      · exact hopen' s a (hs.report hr)
    exact (plain_atMost_inspection hp hH hassumed hreports hleads hbelow).settled _ _ _

theorem Derives.lowerClaim (hp : p.WellNamed) (hH : ReturnExact p H) {stack : Stack}
    {j : Judgement} (h : Derives p stack j) : LowerClaim p stack j := by
  induction h with
  | query => trivial
  | descend => trivial
  | assume => trivial
  | retry => trivial
  | beyond =>
    intro c hc _
    obtain hc | hc := hc
    · rw [Nat.le_zero.mp hc, Program.plain_zero]
      exact .of_not_returned _ nofun fun _ => rfl
    · cases hc
  | missing hasked htarget _ =>
    intro c _ _
    rw [Program.plain_of_target?_none c htarget]
    exact .of_not_returned _ nofun fun _ => rfl
  | @pending above below budget x q assumed hasked htarget _ =>
    intro c _ hopen
    have hkind := hopen q assumed ⟨below.length, above, below, rfl, rfl, le_rfl⟩
    rw [← Program.plain_eq_plainTarget hp htarget] at hkind
    exact .of_not_returned _ hkind nofun
  | @known stack other budget budget' height x y q verdict _ htarget htarget' _ _ _ ih =>
    intro c _ _
    have hlower := ih c (.inr rfl) fun s a hs => absurd hs not_openFrom_none
    rw [Program.plain_eq_plainTarget hp htarget'] at hlower
    rw [Program.plain_eq_plainTarget hp htarget]
    rwa [← Program.isArgument_of_target? htarget', Program.isArgument_of_target? htarget] at hlower
  | inspected _ htarget hassumed hreports hleads _ _ ihreports =>
    intro c hc hopen
    rw [Program.plain_eq_plainTarget hp htarget, ← Program.isArgument_of_target? htarget]
    exact (plain_atMost_settled hp hH hassumed hreports hleads ihreports hc hopen).imp And.left

-- From outside, an answer is a mutation exactly when plain recursion finds one.
theorem Derives.kind_eq_mutator_iff (hp : p.WellNamed) (hH : ReturnExact p H) {budget : Nat}
    {x : Question} {r : Report} (h : Derives p [] (.answered budget x r)) :
    r.verdict.kind = .mutator ↔ (p.plain budget x).kind = .mutator := by
  have hupper := (h.upperClaim hp hH).1
  have hlower := h.lowerClaim hp hH budget (.inl le_rfl) (by
    rintro s a ⟨n, above, below, -, heq, -⟩
    simp at heq)
  constructor
  · intro hr
    by_contra hplain
    exact hupper.kind_ne hplain hr
  · intro hplain
    by_contra hr
    exact hlower.kind_ne hr hplain

end TestFocus.Mutation
