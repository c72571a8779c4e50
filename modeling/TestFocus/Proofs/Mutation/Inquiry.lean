import TestFocus.Mutation.Classifier

-- The inspection of one body as a computation that asks questions about other functions. What is
-- asked next depends on the verdicts so far and on nothing else, so every run of it, with a memo
-- table or without one, follows the same tree.

namespace TestFocus.Mutation

-- Either finished, or a question with what follows each verdict on it.
inductive Inquiry (α : Type) where
  | done (a : α)
  | ask (question : Question) (next : Verdict → Inquiry α)

-- Questions with the verdicts that were given on them, the oldest first.
abbrev Log := List (Question × Verdict)

namespace Inquiry

variable {α β : Type} {m : Type → Type} [Monad m]

def bind : Inquiry α → (α → Inquiry β) → Inquiry β
  | done a, f => f a
  | ask x next, f => ask x fun v => (next v).bind f

instance : Monad Inquiry where
  pure := done
  bind := bind

-- Answers the questions one after another.
def run (answer : Question → m Verdict) : Inquiry α → m α
  | done a => pure a
  | ask x next => do
    let v ← answer x
    (next v).run answer

-- The outcome when the verdicts are given by a function.
def eval (answer : Question → Verdict) (t : Inquiry α) : α :=
  Id.run (t.run (m := Id) answer)

-- After the verdicts in the log, `rest` is left.
inductive Leads : Inquiry α → Log → Inquiry α → Prop
  | here (t : Inquiry α) : Leads t [] t
  | step {x : Question} {next : Verdict → Inquiry α} {v : Verdict} {log : Log} {rest : Inquiry α} :
      Leads (next v) log rest → Leads (ask x next) ((x, v) :: log) rest

-- All questions that may come up.
def AllAsked (P : Question → Prop) : Inquiry α → Prop
  | done _ => True
  | ask x next => P x ∧ ∀ v, (next v).AllAsked P

@[simp] theorem pure_eq (a : α) : (pure a : Inquiry α) = done a := rfl

@[simp] theorem bind_eq (t : Inquiry α) (f : α → Inquiry β) : t >>= f = t.bind f := rfl

@[simp] theorem done_bind (a : α) (f : α → Inquiry β) : (done a).bind f = f a := rfl

@[simp] theorem ask_bind (x : Question) (next : Verdict → Inquiry α) (f : α → Inquiry β) :
    (ask x next).bind f = ask x fun v => (next v).bind f := rfl

@[simp] theorem run_done (answer : Question → m Verdict) (a : α) :
    (done a).run answer = pure a := rfl

theorem run_bind [LawfulMonad m] (answer : Question → m Verdict) (t : Inquiry α)
    (f : α → Inquiry β) :
    (t.bind f).run answer = t.run answer >>= fun a => (f a).run answer := by
  induction t with
  | done a => simp [run]
  | ask x next ih => simp [run, ih]

@[simp] theorem eval_done (answer : Question → Verdict) (a : α) : (done a).eval answer = a := rfl

@[simp] theorem eval_ask (answer : Question → Verdict) (x : Question)
    (next : Verdict → Inquiry α) :
    (ask x next).eval answer = (next (answer x)).eval answer := rfl

theorem leads_done_iff {a : α} {log : Log} {rest : Inquiry α} :
    Leads (done a) log rest ↔ log = [] ∧ rest = done a := by
  constructor
  · rintro ⟨⟩
    exact ⟨rfl, rfl⟩
  · rintro ⟨rfl, rfl⟩
    exact .here _

theorem leads_ask_done_iff {x : Question} {next : Verdict → Inquiry α} {log : Log} {a : α} :
    Leads (ask x next) log (done a) ↔
      ∃ v rest, log = (x, v) :: rest ∧ Leads (next v) rest (done a) := by
  constructor
  · rintro ⟨⟩
    exact ⟨_, _, rfl, by assumption⟩
  · rintro ⟨v, rest, rfl, h⟩
    exact .step h

-- A finished run of a sequence is a finished run of each part.
theorem leads_bind_done_iff {t : Inquiry α} {f : α → Inquiry β} {log : Log} {b : β} :
    Leads (t.bind f) log (done b) ↔
      ∃ first second a, log = first ++ second ∧ Leads t first (done a) ∧
        Leads (f a) second (done b) := by
  induction t generalizing log with
  | done a =>
    simp only [done_bind, leads_done_iff]
    constructor
    · intro h
      exact ⟨[], log, a, rfl, ⟨rfl, rfl⟩, h⟩
    · rintro ⟨first, second, c, rfl, ⟨rfl, hc⟩, h⟩
      cases hc
      exact h
  | ask x next ih =>
    simp only [ask_bind, leads_ask_done_iff]
    constructor
    · rintro ⟨v, rest, rfl, h⟩
      obtain ⟨first, second, a, rfl, ht, hf⟩ := (ih v).mp h
      exact ⟨(x, v) :: first, second, a, rfl, ⟨v, first, rfl, ht⟩, hf⟩
    · rintro ⟨first, second, a, rfl, ⟨v, rest, rfl, ht⟩, hf⟩
      exact ⟨v, rest ++ second, rfl, (ih v).mpr ⟨rest, second, a, rfl, ht, hf⟩⟩

theorem Leads.trans {t u w : Inquiry α} {first second : Log} (h : Leads t first u)
    (h' : Leads u second w) : Leads t (first ++ second) w := by
  induction h with
  | here => exact h'
  | step _ ih => exact .step (ih h')

-- One more question.
theorem Leads.snoc {t : Inquiry α} {log : Log} {x : Question} {next : Verdict → Inquiry α}
    (h : Leads t log (ask x next)) (v : Verdict) : Leads t (log ++ [(x, v)]) (next v) :=
  h.trans (.step (.here _))

-- The verdicts lead to one end, and to the same one whatever stands behind them.
theorem Leads.unique {t : Inquiry α} {log log' rest rest' : Log} {a a' : α}
    (h : Leads t log (done a)) (h' : Leads t log' (done a')) (heq : log ++ rest = log' ++ rest') :
    log = log' ∧ a = a' ∧ rest = rest' := by
  induction t generalizing log log' with
  | done b =>
    obtain ⟨rfl, ha⟩ := leads_done_iff.mp h
    obtain ⟨rfl, ha'⟩ := leads_done_iff.mp h'
    cases ha
    cases ha'
    exact ⟨rfl, rfl, heq⟩
  | ask x next ih =>
    obtain ⟨v, later, rfl, hnext⟩ := leads_ask_done_iff.mp h
    obtain ⟨v', later', rfl, hnext'⟩ := leads_ask_done_iff.mp h'
    simp only [List.cons_append, List.cons.injEq, Prod.mk.injEq, true_and] at heq
    obtain ⟨rfl, heq⟩ := heq
    obtain ⟨rfl, ha, hrest⟩ := ih v hnext hnext' heq
    exact ⟨rfl, ha, hrest⟩

-- Every question in the log of a run was asked after the verdicts before it.
theorem Leads.asked {t rest : Inquiry α} {log : Log} (h : Leads t log rest) {x : Question}
    {v : Verdict} (hm : (x, v) ∈ log) :
    ∃ before next, before ⊆ log ∧ Leads t before (ask x next) := by
  induction h with
  | here => simp at hm
  | @step y next w log rest _ ih =>
    rcases List.mem_cons.mp hm with heq | hm
    · cases heq
      exact ⟨[], next, by simp, .here _⟩
    · obtain ⟨before, after, hsub, hleads⟩ := ih hm
      refine ⟨(y, w) :: before, after, ?_, .step hleads⟩
      exact List.cons_subset_cons _ hsub

-- The log of a run whose verdicts are given by a function.
theorem exists_leads_eval (answer : Question → Verdict) (t : Inquiry α) :
    ∃ log, Leads t log (done (t.eval answer)) ∧ ∀ x v, (x, v) ∈ log → v = answer x := by
  induction t with
  | done a => exact ⟨[], .here _, by simp⟩
  | ask x next ih =>
    obtain ⟨log, hleads, hlog⟩ := ih (answer x)
    refine ⟨(x, answer x) :: log, .step hleads, ?_⟩
    intro y v hm
    rcases List.mem_cons.mp hm with heq | hm
    · cases heq
      rfl
    · exact hlog y v hm

theorem eval_eq_of_leads {answer : Question → Verdict} {t : Inquiry α} {log : Log} {a : α}
    (h : Leads t log (done a)) (hlog : ∀ x v, (x, v) ∈ log → v = answer x) :
    t.eval answer = a := by
  induction t generalizing log with
  | done b =>
    have heq := (leads_done_iff.mp h).2
    cases heq
    rfl
  | ask x next ih =>
    obtain ⟨v, rest, rfl, hnext⟩ := leads_ask_done_iff.mp h
    obtain rfl := hlog x v (by simp)
    exact ih _ hnext fun y w hm => hlog y w (List.mem_cons_of_mem _ hm)

theorem AllAsked.bind {P : Question → Prop} {t : Inquiry α} {f : α → Inquiry β}
    (h : t.AllAsked P) (hf : ∀ a, (f a).AllAsked P) : (t.bind f).AllAsked P := by
  induction t with
  | done a => exact hf a
  | ask x next ih => exact ⟨h.1, fun v => ih v (h.2 v)⟩

-- Only the answers to the questions that may come up matter.
theorem AllAsked.run_congr {P : Question → Prop} {t : Inquiry α} (h : t.AllAsked P)
    {answer answer' : Question → m Verdict} (hanswer : ∀ x, P x → answer x = answer' x) :
    t.run answer = t.run answer' := by
  induction t with
  | done a => rfl
  | ask x next ih =>
    simp only [run, hanswer x h.1]
    congr 1
    funext v
    exact ih v (h.2 v)

theorem AllAsked.leads {P : Question → Prop} {t : Inquiry α} {log : Log} {x : Question}
    {next : Verdict → Inquiry α} (h : t.AllAsked P) (hl : Leads t log (ask x next)) : P x := by
  generalize hrest : ask x next = rest at hl
  induction hl with
  | here =>
    subst hrest
    exact h.1
  | step _ ih => exact ih (h.2 _) hrest

end Inquiry

end TestFocus.Mutation
