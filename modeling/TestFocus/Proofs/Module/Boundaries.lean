import TestFocus.Proofs.Comments.Line

namespace TestFocus

namespace Line

-- The next line with content, whatever markers stand before it, is a clause of a landing pad.
def clauseAhead : List Entry → Bool
  | [] => false
  | .marker _ :: entries => clauseAhead entries
  | .text text :: _ => isLandingPadClause text

-- What comes next continues an instruction, if one is pending.
def continuationAhead : List Entry → Bool
  | .text text :: _ => isContinuation text
  | _ => false

namespace Folding

-- The state with more lines done before it.
def after (f : Folding) (lines : List LogicalLine) : Folding :=
  { f with done := lines ++ f.done }

theorem pending_flush (f : Folding) : f.flush.pending = none := by
  unfold flush
  split
  · rfl
  · assumption

theorem inLandingPad_flush (f : Folding) : f.flush.inLandingPad = f.inLandingPad := by
  unfold flush
  split <;> rfl

theorem flush_of_pending_eq_none {f : Folding} (h : f.pending = none) : f.flush = f := by
  unfold flush
  rw [h]

theorem flush_after (f : Folding) (lines : List LogicalLine) :
    (f.after lines).flush = f.flush.after lines := by
  obtain ⟨done, pending, inLandingPad⟩ := f
  cases pending with
  | none => rfl
  | some line => simp [after, flush]

theorem addLabel_after (f : Folding) (lines : List LogicalLine) (label : String) :
    (f.after lines).addLabel label = (f.addLabel label).after lines := by
  simp [addLabel, after]

-- A line that is no clause is read as at the beginning, once what is pending is done.
theorem start_eq {f : Folding} {text : String}
    (h : (f.inLandingPad && isLandingPadClause text) = false) (number : Nat) :
    f.start number text = (empty.start number text).after f.flush.done := by
  have hflush : ({ f with inLandingPad := false } : Folding).flush = empty.after f.flush.done := by
    obtain ⟨done, pending, inLandingPad⟩ := f
    cases pending <;> simp [flush, after, empty]
  have hempty : ({ empty with inLandingPad := false } : Folding).flush = empty := rfl
  have hclause : (empty.inLandingPad && isLandingPadClause text) = false := rfl
  unfold start
  rw [h, hclause, hflush, hempty]
  simp only [Bool.false_eq_true, if_false]
  split
  · exact addLabel_after empty f.flush.done _
  · split <;> rfl

theorem start_of_clause {f : Folding} {text : String}
    (h : (f.inLandingPad && isLandingPadClause text) = true) (number : Nat) :
    f.start number text = f := by
  unfold start
  rw [h, if_pos rfl]

theorem start_after (f : Folding) (lines : List LogicalLine) (number : Nat) (text : String) :
    (f.after lines).start number text = (f.start number text).after lines := by
  cases hclause : f.inLandingPad && isLandingPadClause text with
  | true => rw [start_of_clause hclause, start_of_clause (f := f.after lines) hclause]
  | false =>
    rw [start_eq hclause, start_eq (f := f.after lines) hclause, flush_after]
    simp [after]

theorem addEntry_after (f : Folding) (lines : List LogicalLine) (number : Nat) (entry : Entry) :
    (f.after lines).addEntry number entry = (f.addEntry number entry).after lines := by
  cases entry with
  | marker label => simp only [addEntry, flush_after, addLabel_after]
  | text text =>
    have hpending : (f.after lines).pending = f.pending := rfl
    simp only [addEntry, hpending]
    split
    · split
      · rfl
      · exact start_after f lines number text
    · exact start_after f lines number text

-- What is done already stays in front of what is added.
theorem foldl_add_after (f : Folding) (lines : List LogicalLine) (body : List SourceLine) :
    body.foldl add (f.after lines) = (body.foldl add f).after lines := by
  induction body generalizing f with
  | nil => rfl
  | cons line body ih =>
    rw [List.foldl_cons, List.foldl_cons, add_eq, add_eq]
    cases entryOf? line.text with
    | none => exact ih f
    | some entry =>
      simp only [Option.map_some, Option.getD_some, addEntry_after]
      exact ih _

-- While a landing pad is read, no instruction is pending.
def Calm (f : Folding) : Prop :=
  f.inLandingPad = true → f.pending = none

theorem Calm.start {f : Folding} (h : Calm f) (number : Nat) (text : String) :
    Calm (f.start number text) := by
  cases hclause : f.inLandingPad && isLandingPadClause text with
  | true =>
    rw [start_of_clause hclause]
    exact h
  | false =>
    have hempty : Calm (empty.start number text) := by
      unfold Folding.start
      split
      · exact fun _ => rfl
      · dsimp only
        split
        · exact fun _ => rfl
        · split
          · exact fun _ => rfl
          · exact nofun
    rw [start_eq hclause]
    exact hempty

theorem Calm.addEntry {f : Folding} (h : Calm f) (number : Nat) (entry : Entry) :
    Calm (f.addEntry number entry) := by
  cases entry with
  | marker label => exact fun _ => pending_flush f
  | text text =>
    cases hpending : f.pending with
    | none =>
      simp only [Folding.addEntry, hpending]
      exact h.start number text
    | some line =>
      simp only [Folding.addEntry, hpending]
      split
      · intro hlanding
        rw [h hlanding] at hpending
        cases hpending
      · exact h.start number text

theorem calm_foldl_add (body : List SourceLine) {f : Folding} (h : Calm f) :
    Calm (body.foldl add f) := by
  induction body generalizing f with
  | nil => exact h
  | cons line body ih =>
    rw [List.foldl_cons, add_eq]
    cases entryOf? line.text with
    | none => exact ih h
    | some entry => exact ih (h.addEntry line.number entry)

-- What follows does not belong to the line that is pending, nor to the landing pad that is read.
structure Rests (f : Folding) (entries : List Entry) : Prop where
  calm : Calm f
  closed : ∀ line depth, f.pending = some (line, depth) →
    depth ≤ 0 ∧ continuationAhead entries = false
  outside : f.inLandingPad = true → clauseAhead entries = false

variable {f : Folding} {entries : List Entry} {label text : String}

-- A marker puts an end to what is pending, but not to a landing pad.
theorem Rests.addMarker (h : Rests f (.marker label :: entries)) (number : Nat) :
    Rests (f.addEntry number (.marker label)) entries where
  calm := h.calm.addEntry number _
  closed line depth hpending := by
    have hnone : (f.addEntry number (.marker label)).pending = none := pending_flush f
    rw [hnone] at hpending
    cases hpending
  outside hlanding := h.outside ((inLandingPad_flush f).symm.trans hlanding)

theorem Rests.addText (h : Rests f (.text text :: entries)) (number : Nat) :
    f.addEntry number (.text text) = (empty.addEntry number (.text text)).after f.flush.done := by
  have hstart : f.addEntry number (.text text) = f.start number text := by
    cases hpending : f.pending with
    | none => simp only [addEntry, hpending]
    | some line =>
      obtain ⟨hclosed, hnext⟩ := h.closed line.1 line.2 hpending
      have hcontinued : (decide (0 < line.2) || isContinuation text) = false := by
        have hopen : ¬0 < line.2 := by omega
        rw [decide_eq_false hopen, Bool.false_or]
        exact hnext
      simp only [addEntry, hpending, hcontinued, Bool.false_eq_true, if_false]
  have hclause : (f.inLandingPad && isLandingPadClause text) = false := by
    cases hlanding : f.inLandingPad with
    | false => rfl
    | true => exact h.outside hlanding
  rw [hstart, start_eq hclause]
  rfl

-- From such a state on, the lines are folded as they are by themselves.
theorem Rests.foldl_add {body : List SourceLine} (h : Rests f (Line.entries body)) :
    (body.foldl add f).flush.done = f.flush.done ++ (body.foldl add .empty).flush.done := by
  induction body generalizing f with
  | nil => exact (List.append_nil _).symm
  | cons line body ih =>
    rw [Line.entries, List.filterMap_cons] at h
    rw [List.foldl_cons, List.foldl_cons, add_eq, add_eq]
    cases hentry : entryOf? line.text with
    | none =>
      rw [hentry] at h
      exact ih h
    | some entry =>
      rw [hentry] at h
      simp only [Option.map_some, Option.getD_some]
      cases entry with
      | marker label =>
        have hdone : (f.addEntry line.number (.marker label)).flush.done =
            f.flush.done ++ [.label (Operand.labelRegister label)] :=
          congrArg (·.done) (flush_of_pending_eq_none (f := f.flush.addLabel label)
            (pending_flush f))
        have hempty : empty.addEntry line.number (.marker label) =
            empty.after [.label (Operand.labelRegister label)] := rfl
        rw [ih (h.addMarker line.number), hdone, hempty, foldl_add_after, flush_after,
          List.append_assoc]
        rfl
      | text text =>
        rw [h.addText line.number, foldl_add_after, flush_after]
        rfl

end Folding

-- The lines before come to rest before the lines after.
def IsBoundary (before after : List SourceLine) : Prop :=
  (before.foldl Folding.add .empty).Rests (entries after)

end Line

end TestFocus
