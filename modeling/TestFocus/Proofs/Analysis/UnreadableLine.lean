import TestFocus.Proofs.Comments.Scanning
import TestFocus.Proofs.Module.Boundaries

namespace TestFocus

def Diagnostic.unnumbered (d : Diagnostic) : Diagnostic :=
  { d with line := 0 }

namespace Line

-- A line with content that stands for an instruction of its own, which cannot be read.
structure IsUnreadable (raw : String) (e : ParseError) : Prop where
  unmarked : labelMarker raw = none
  filled : (content raw).isEmpty = false
  closed : bracketDepth false (content raw).toList ≤ 0
  unlabelled : blockLabel (content raw) = none
  starting : isContinuation (content raw) = false
  notLandingPad : isLandingPad (content raw) = false
  kept : isIgnored (content raw) = false
  error : Instruction.parse (content raw) = .error e

-- A place between two complete logical lines. What stands after it is no continuation of a line,
-- and neither that nor the line that is put there is a clause of a landing pad before it.
structure IsGap (before : List SourceLine) (raw : String) (after : List SourceLine) : Prop where
  complete : ∀ pending ∈ (before.foldl Folding.add .empty).pending, pending.2 ≤ 0
  uncontinued : continuationAhead (entries after) = false
  outside : (before.foldl Folding.add .empty).inLandingPad = true →
    isLandingPadClause (content raw) = false ∧ clauseAhead (entries after) = false

variable {before after : List SourceLine} {line : SourceLine} {e : ParseError}

theorem calm_foldl_add_empty (body : List SourceLine) :
    (body.foldl Folding.add .empty).Calm :=
  Folding.calm_foldl_add body nofun

theorem IsGap.boundary {raw : String} (h : IsGap before raw after) : IsBoundary before after where
  calm := calm_foldl_add_empty before
  closed line depth hpending := ⟨h.complete (line, depth) hpending, h.uncontinued⟩
  outside hlanding := (h.outside hlanding).2

-- The line is pending when it has been read by itself.
theorem IsUnreadable.add_empty (h : IsUnreadable line.text e) :
    Folding.empty.add line =
      { done := []
        pending := some (⟨line.number, content line.text⟩,
          bracketDepth false (content line.text).toList)
        inLandingPad := false } := by
  simp [Folding.add, h.unmarked, h.filled, Folding.empty, Folding.start, Folding.flush,
    h.unlabelled, h.notLandingPad]

theorem IsUnreadable.boundary (h : IsUnreadable line.text e)
    (hafter : continuationAhead (entries after) = false) : IsBoundary [line] after := by
  rw [IsBoundary, List.foldl_cons, List.foldl_nil, h.add_empty]
  refine ⟨nofun, ?_, nofun⟩
  rintro _ _ ⟨⟩
  exact ⟨h.closed, hafter⟩

end Line

namespace Scan

variable (framework : Framework)

-- The report of a line that cannot be read.
def reportOf? (function : String) : LogicalLine → Option Diagnostic
  | .label _ => none
  | .instruction line =>
    match Instruction.parse line.text with
    | .error e => some (.ofError (some function) line.number e)
    | .ok _ => none

-- The reports of the lines that cannot be read, in order.
def reports (function : String) (lines : List LogicalLine) : List Diagnostic :=
  lines.filterMap (reportOf? function)

end Scan

end TestFocus
