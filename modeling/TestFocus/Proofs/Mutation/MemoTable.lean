import TestFocus.Proofs.Mutation.Derivation

namespace TestFocus.Mutation

open Inquiry

namespace Memo

theorem lookup_filter_ne (slots : List (Question × Slot)) (q q' : Question) (h : q' ≠ q) :
    (slots.filter (·.1 != q)).lookup q' = slots.lookup q' := by
  induction slots with
  | nil => rfl
  | cons entry slots ih =>
    obtain ⟨key, s⟩ := entry
    by_cases hkey : key = q
    · subst hkey
      have hb : (q' == key) = false := beq_eq_false_iff_ne.mpr h
      simp [List.lookup_cons, ih, hb]
    · simp [List.lookup_cons, ih, hkey]

theorem lookup_filter_self (slots : List (Question × Slot)) (q : Question) :
    (slots.filter (·.1 != q)).lookup q = none := by
  rw [List.lookup_eq_none_iff]
  intro entry hm
  have hne := (List.mem_filter.mp hm).2
  exact bne_comm.trans hne

@[simp] theorem slot?_put (m : Memo) (q q' : Question) (s : Slot) :
    (m.put q s).slot? q' = if q' = q then some s else m.slot? q' := by
  by_cases h : q' = q
  · simp [slot?, put, h]
  · have hb : (q' == q) = false := beq_eq_false_iff_ne.mpr h
    simp [slot?, put, List.lookup_cons, h, hb, lookup_filter_ne]

@[simp] theorem slot?_erase (m : Memo) (q q' : Question) :
    (m.erase q).slot? q' = if q' = q then none else m.slot? q' := by
  by_cases h : q' = q
  · subst h
    simp [slot?, erase, lookup_filter_self]
  · simp [slot?, erase, h, lookup_filter_ne]

@[simp] theorem slot?_modifyTop (m : Memo) (f : Opening → Opening) (q : Question) :
    (m.modifyTop f).slot? q = m.slot? q := by
  unfold modifyTop
  split <;> rfl

@[simp] theorem slot?_recordHop (m : Memo) (below : Nat) (q : Question) :
    (m.recordHop below).slot? q = m.slot? q :=
  slot?_modifyTop m _ q

@[simp] theorem slot?_push (m : Memo) (q q' : Question) (assumed : Verdict) :
    (m.push q assumed).slot? q' = if q' = q then some (.pending assumed) else m.slot? q' :=
  slot?_put m q q' _

@[simp] theorem openings_put (m : Memo) (q : Question) (s : Slot) :
    (m.put q s).openings = m.openings := rfl

@[simp] theorem openings_erase (m : Memo) (q : Question) : (m.erase q).openings = m.openings := rfl

@[simp] theorem openings_push (m : Memo) (q : Question) (assumed : Verdict) :
    (m.push q assumed).openings = { question := q } :: m.openings := rfl

-- Changes the innermost opening, if there is one.
def onTop (f : Opening → Opening) : List Opening → List Opening
  | [] => []
  | top :: below => f top :: below

@[simp] theorem openings_modifyTop (m : Memo) (f : Opening → Opening) :
    (m.modifyTop f).openings = onTop f m.openings := by
  unfold modifyTop
  split
  · next h => simp [h, onTop]
  · next h => simp [h, onTop]

theorem map_question_onTop (f : Opening → Opening) (hf : ∀ o, (f o).question = o.question)
    (openings : List Opening) :
    (onTop f openings).map (·.question) = openings.map (·.question) := by
  cases openings with
  | nil => rfl
  | cons top below => simp [onTop, hf]

theorem onTop_onTop (f g : Opening → Opening) (openings : List Opening) :
    onTop g (onTop f openings) = onTop (g ∘ f) openings := by
  cases openings <;> rfl

-- The position of a question that is open once.
theorem positionOf_eq (q : Question) (above below : List Opening) (o : Opening)
    (ho : o.question = q) (hnew : q ∉ above.map (·.question)) :
    positionOf q (above ++ o :: below) = some below.length := by
  induction above with
  | nil => simp [positionOf, ho]
  | cons top above ih =>
    simp only [List.map_cons, List.mem_cons, not_or] at hnew
    simp only [List.cons_append, positionOf, if_neg (Ne.symm hnew.1)]
    exact ih hnew.2

end Memo

-- An answer that may be used again.
def Known (p : Program) (q : Question) (verdict : Verdict) (height : Nat) : Prop :=
  ∃ stack budget x, p.target? x = some q ∧
    Derives p stack (.answered budget x ⟨verdict, none, height, false⟩)

-- The table and the openings agree with the open questions, as far as the questions `on` go.
structure Consistent (p : Program) (on : Question → Prop) (m : Memo) (stack : Stack) : Prop where
  openings : m.openings.map (·.question) = stack.map Prod.fst
  nodup : (stack.map Prod.fst).Nodup
  pending : ∀ q assumed, on q → (m.slot? q = some (.pending assumed) ↔ (q, assumed) ∈ stack)
  done : ∀ q verdict height, on q → m.slot? q = some (.done verdict height) →
    Known p q verdict height

namespace Consistent

variable {p : Program} {on : Question → Prop} {m m' : Memo} {stack : Stack}

theorem empty (p : Program) (on : Question → Prop) : Consistent p on .empty [] where
  openings := rfl
  nodup := List.nodup_nil
  pending := by simp [Memo.empty, Memo.slot?]
  done := by simp [Memo.empty, Memo.slot?]

-- Only the slots and the open questions count.
theorem congr (h : Consistent p on m stack)
    (hopenings : m'.openings.map (·.question) = m.openings.map (·.question))
    (hslots : ∀ q, on q → m'.slot? q = m.slot? q) : Consistent p on m' stack where
  openings := hopenings.trans h.openings
  nodup := h.nodup
  pending q assumed hq := by rw [hslots q hq, h.pending q assumed hq]
  done q verdict height hq := by
    rw [hslots q hq]
    exact h.done q verdict height hq

theorem mono {off : Question → Prop} (h : Consistent p on m stack) (hoff : ∀ q, off q → on q) :
    Consistent p off m stack where
  openings := h.openings
  nodup := h.nodup
  pending q assumed hq := h.pending q assumed (hoff q hq)
  done q verdict height hq := h.done q verdict height (hoff q hq)

theorem push {q : Question} (h : Consistent p (· ≠ q) m stack) (hnew : q ∉ stack.map Prod.fst)
    (assumed : Verdict) :
    Consistent p (fun _ => True) (m.push q assumed) ((q, assumed) :: stack) where
  openings := by simp [h.openings]
  nodup := List.nodup_cons.mpr ⟨hnew, h.nodup⟩
  pending q' assumed' _ := by
    by_cases heq : q' = q
    · subst heq
      have hnot : (q', assumed') ∉ stack := fun hm => hnew (List.mem_map.mpr ⟨_, hm, rfl⟩)
      simp [hnot, eq_comm]
    · simp [heq, h.pending q' assumed' heq]
  done q' verdict height _ := by
    by_cases heq : q' = q
    · simp [heq]
    · simpa [heq] using h.done q' verdict height heq

theorem tail {q : Question} {assumed : Verdict}
    (h : Consistent p (fun _ => True) m ((q, assumed) :: stack)) {top : Opening}
    {below : List Opening} (hm : m.openings = top :: below) :
    Consistent p (· ≠ q) { m with openings := below } stack where
  openings := by simpa [hm] using congrArg List.tail h.openings
  nodup := (List.nodup_cons.mp h.nodup).2
  pending q' assumed' hne := by
    have hiff := h.pending q' assumed' trivial
    simpa [Memo.slot?, hne] using hiff
  done q' verdict height _ hs := h.done q' verdict height trivial hs

-- A question that is not open gets a slot of its own, or none.
theorem fill {q : Question} (h : Consistent p (· ≠ q) m stack) (hnew : q ∉ stack.map Prod.fst)
    (hslots : ∀ q', q' ≠ q → m'.slot? q' = m.slot? q')
    (hopenings : m'.openings.map (·.question) = m.openings.map (·.question))
    (hslot : ∀ s, m'.slot? q = some s → ∃ verdict height, s = .done verdict height ∧
      Known p q verdict height) : Consistent p (fun _ => True) m' stack where
  openings := hopenings.trans h.openings
  nodup := h.nodup
  pending q' assumed _ := by
    by_cases heq : q' = q
    · subst heq
      have hnot : (q', assumed) ∉ stack := fun hm => hnew (List.mem_map.mpr ⟨_, hm, rfl⟩)
      constructor
      · intro hs
        obtain ⟨verdict, height, heq, -⟩ := hslot _ hs
        cases heq
      · intro hm
        exact absurd hm hnot
    · rw [hslots q' heq, h.pending q' assumed heq]
  done q' verdict height _ hs := by
    by_cases heq : q' = q
    · subst heq
      obtain ⟨verdict', height', heq, hknown⟩ := hslot _ hs
      cases heq
      exact hknown
    · exact h.done q' verdict height heq (by rw [← hslots q' heq, hs])

end Consistent

end TestFocus.Mutation
