import TestFocus.Proofs.Module.Boundaries
import Mathlib.Data.List.Induction
import Mathlib.Data.List.Infix

namespace TestFocus

namespace Text

theorem isInfixOf_iff {part cs : List Char} : isInfixOf part cs = true ↔ part <:+: cs := by
  induction cs with
  | nil => simp [isInfixOf]
  | cons c cs ih =>
    rw [isInfixOf, Bool.or_eq_true, List.isPrefixOf_iff_prefix, ih, List.infix_cons_iff]

end Text

namespace Line

-- A marker or a line with content.
def isFilled (line : SourceLine) : Bool :=
  (entryOf? line.text).isSome

inductive Segment where
  | marker (line : SourceLine) (name : String)
  | label (line : SourceLine) (name : String)
  | landingPad (line : SourceLine)
  | clause (line : SourceLine)
  | instruction (first : SourceLine) (further : List SourceLine)

-- The open square brackets of a run of lines, each of which is read by itself.
def openBrackets : List SourceLine → Int
  | [] => 0
  | line :: run => bracketDepth false (content line.text).toList + openBrackets run

-- A run of lines as one, under the number of the first.
def joined (first : SourceLine) (further : List SourceLine) : SourceLine :=
  { number := first.number
    text := " ".intercalate ((first :: further).map fun line => content line.text) }

namespace Segment

def first : Segment → SourceLine
  | marker line _ | label line _ | landingPad line | clause line | instruction line _ => line

def further : Segment → List SourceLine
  | instruction _ further => further
  | _ => []

def lines (s : Segment) : List SourceLine :=
  s.first :: s.further

-- The label or the instruction that a segment amounts to; a landing pad is left out.
def emitted : Segment → List LogicalLine
  | marker _ name | label _ name => [.label (Operand.labelRegister name)]
  | landingPad _ | clause _ => []
  | instruction first further => [.instruction (joined first further)]

def isMarker : Segment → Bool
  | marker _ _ => true
  | _ => false

def isOfPad : Segment → Bool
  | landingPad _ | clause _ => true
  | _ => false

-- The lines that the next line may continue.
def running : Segment → List SourceLine
  | instruction first further => first :: further
  | _ => []

end Segment

def running (before : List Segment) : List SourceLine :=
  (before.getLast?.map Segment.running).getD []

-- Up to markers, a landing pad or one of its clauses comes last.
def insidePad (before : List Segment) : Bool :=
  (before.filter (!·.isMarker)).getLast?.any Segment.isOfPad

-- A line is drawn to the instruction before it if that has brackets open, or if the line names the
-- destinations of an invoke.
def Continues (run : List SourceLine) (line : SourceLine) : Prop :=
  labelMarker line.text = none ∧ run ≠ [] ∧
    (0 < openBrackets run ∨ isContinuation (content line.text) = true)

def Begins (before : List Segment) (line : SourceLine) : Prop :=
  labelMarker line.text = none ∧ ¬Continues (running before) line

def IsClause (before : List Segment) (line : SourceLine) : Prop :=
  insidePad before = true ∧ isLandingPadClause (content line.text) = true

-- What the lines of a segment are like, given the segments before it.
def Segment.Stands (before : List Segment) : Segment → Prop
  | marker line name => labelMarker line.text = some name
  | clause line => Begins before line ∧ IsClause before line
  | label line name =>
    Begins before line ∧ ¬IsClause before line ∧ blockLabel (content line.text) = some name
  | landingPad line =>
    Begins before line ∧ ¬IsClause before line ∧ blockLabel (content line.text) = none ∧
      isLandingPad (content line.text) = true
  | instruction first further =>
    Begins before first ∧ ¬IsClause before first ∧ blockLabel (content first.text) = none ∧
      isLandingPad (content first.text) = false ∧
      ∀ read line, read ++ [line] <+: further → Continues (first :: read) line

-- Every filled line of the body is in one segment, in order.
structure IsSegmentation (body : List SourceLine) (segments : List Segment) : Prop where
  lines : segments.flatMap Segment.lines = body.filter isFilled
  stands : ∀ before s, before ++ [s] <+: segments → s.Stands before

variable {before segments : List Segment} {s : Segment} {line first : SourceLine}
  {further run : List SourceLine} {f : Folding}

theorem running_concat (before : List Segment) (s : Segment) :
    running (before ++ [s]) = s.running := by
  simp [running]

theorem insidePad_marker (before : List Segment) (line : SourceLine) (name : String) :
    insidePad (before ++ [.marker line name]) = insidePad before := by
  simp [insidePad, Segment.isMarker]

theorem insidePad_concat (before : List Segment) (h : s.isMarker = false) :
    insidePad (before ++ [s]) = s.isOfPad := by
  simp [insidePad, h]

theorem joined_concat (first : SourceLine) (further : List SourceLine) (line : SourceLine) :
    joined first (further ++ [line]) =
      { joined first further with
        text := (joined first further).text ++ " " ++ content line.text } := by
  have hne : (first :: further).map (fun line => content line.text) ≠ [] := by simp
  simp only [joined, ← List.cons_append, List.map_append]
  rw [String.intercalate_append_of_ne_nil hne (by simp)]
  simp

theorem openBrackets_concat (run : List SourceLine) (line : SourceLine) :
    openBrackets (run ++ [line]) =
      openBrackets run + bracketDepth false (content line.text).toList := by
  induction run with
  | nil => simp [openBrackets]
  | cons first run ih =>
    rw [List.cons_append, openBrackets, openBrackets, ih]
    omega

theorem isClause_iff :
    IsClause before line ↔
      (insidePad before && isLandingPadClause (content line.text)) = true := by
  rw [IsClause, Bool.and_eq_true]

theorem not_isClause_iff :
    ¬IsClause before line ↔
      (insidePad before && isLandingPadClause (content line.text)) = false := by
  rw [isClause_iff, Bool.not_eq_true]

def opening (before : List Segment) (line : SourceLine) : Segment :=
  if insidePad before && isLandingPadClause (content line.text) then .clause line
  else
    match blockLabel (content line.text) with
    | some name => .label line name
    | none => if isLandingPad (content line.text) then .landingPad line else .instruction line []

theorem lines_opening (before : List Segment) (line : SourceLine) :
    (opening before line).lines = [line] := by
  unfold opening
  split
  · rfl
  · split
    · rfl
    · split <;> rfl

theorem stands_opening (h : Begins before line) : (opening before line).Stands before := by
  unfold opening
  cases hclause : insidePad before && isLandingPadClause (content line.text) with
  | true => exact ⟨h, isClause_iff.mpr hclause⟩
  | false =>
    have hclause' : ¬IsClause before line := not_isClause_iff.mpr hclause
    cases hlabel : blockLabel (content line.text) with
    | some name => exact ⟨h, hclause', hlabel⟩
    | none =>
      cases hpad : isLandingPad (content line.text) with
      | true => exact ⟨h, hclause', hlabel, hpad⟩
      | false =>
        refine ⟨h, hclause', hlabel, hpad, ?_⟩
        intro read line' hread
        simpa using hread.length_le

def pendingOf : List SourceLine → Option (SourceLine × Int)
  | [] => none
  | first :: further => some (joined first further, openBrackets (first :: further))

-- A pending instruction is the last segment already, as far as it has been read.
structure Folding.Reads (f : Folding) (segments : List Segment) : Prop where
  done : f.flush.done = segments.flatMap Segment.emitted
  pending : f.pending = pendingOf (running segments)
  inLandingPad : f.inLandingPad = insidePad segments

theorem exists_of_running_ne_nil (h : running segments ≠ []) :
    ∃ before first further, segments = before ++ [.instruction first further] := by
  obtain rfl | ⟨before, s, rfl⟩ := segments.eq_nil_or_concat'
  · exact absurd rfl h
  · rw [running_concat] at h
    cases s with
    | instruction first further => exact ⟨before, first, further, rfl⟩
    | _ => exact absurd rfl h

theorem running_eq_nil (h : insidePad segments = true) : running segments = [] := by
  by_contra hrunning
  obtain ⟨before, first, further, rfl⟩ := exists_of_running_ne_nil hrunning
  rw [insidePad_concat before rfl] at h
  cases h

namespace Folding

theorem reads_empty : empty.Reads [] where
  done := rfl
  pending := rfl
  inLandingPad := rfl

theorem Reads.addMarker (h : f.Reads segments) (line : SourceLine) (name : String) :
    (f.addEntry line.number (.marker name)).Reads (segments ++ [.marker line name]) where
  done := by
    have hflush : (f.flush.addLabel name).flush = f.flush.addLabel name :=
      flush_of_pending_eq_none (pending_flush f)
    rw [addEntry, hflush, addLabel, h.done, List.flatMap_append]
    rfl
  pending := by
    rw [running_concat]
    exact pending_flush f
  inLandingPad := by
    rw [insidePad_marker, ← h.inLandingPad]
    exact inLandingPad_flush f

-- What a line by itself leaves, behind what was done before it.
theorem Reads.follow {g : Folding} (h : f.Reads segments) (hmarker : s.isMarker = false)
    (hdone : g.flush.done = s.emitted) (hpending : g.pending = pendingOf s.running)
    (hpad : g.inLandingPad = s.isOfPad) : (g.after f.flush.done).Reads (segments ++ [s]) where
  done := by
    rw [flush_after, List.flatMap_append, List.flatMap_singleton, ← h.done, ← hdone]
    rfl
  pending := by
    rw [running_concat]
    exact hpending
  inLandingPad := by
    rw [insidePad_concat segments hmarker]
    exact hpad

-- A line that continues nothing is read as the segment that it begins.
theorem Reads.start (h : f.Reads segments) (line : SourceLine) :
    (f.start line.number (content line.text)).Reads (segments ++ [opening segments line]) := by
  cases hclause : f.inLandingPad && isLandingPadClause (content line.text) with
  | true =>
    have hopening : opening segments line = .clause line := by
      rw [opening, ← h.inLandingPad, hclause, if_pos rfl]
    have hinside : insidePad segments = true :=
      h.inLandingPad ▸ (Bool.and_eq_true_iff.mp hclause).1
    rw [start_of_clause hclause, hopening]
    refine ⟨?_, ?_, ?_⟩
    · rw [List.flatMap_append, h.done]
      exact (List.append_nil _).symm
    · rw [h.pending, running_eq_nil hinside, running_concat]
      rfl
    · rw [h.inLandingPad, hinside, insidePad_concat segments rfl]
      rfl
  | false =>
    rw [start_eq hclause]
    rw [h.inLandingPad] at hclause
    cases hlabel : blockLabel (content line.text) with
    | some name =>
      have hopening : opening segments line = .label line name := by simp [opening, hclause, hlabel]
      have hstart : empty.start line.number (content line.text) =
          { empty with done := [.label (Operand.labelRegister name)] } := by
        simp [Folding.start, empty, flush, addLabel, hlabel]
      rw [hopening, hstart]
      exact h.follow rfl rfl rfl rfl
    | none =>
      cases hpad : isLandingPad (content line.text) with
      | true =>
        have hopening : opening segments line = .landingPad line := by
          simp [opening, hclause, hlabel, hpad]
        have hstart : empty.start line.number (content line.text) =
            { empty with inLandingPad := true } := by
          simp [Folding.start, empty, flush, hlabel, hpad]
        rw [hopening, hstart]
        exact h.follow rfl rfl rfl rfl
      | false =>
        have hopening : opening segments line = .instruction line [] := by
          simp [opening, hclause, hlabel, hpad]
        have hstart : empty.start line.number (content line.text) =
            { empty with pending := pendingOf [line] } := by
          simp [Folding.start, empty, flush, hlabel, hpad, pendingOf, joined, openBrackets]
        rw [hopening, hstart]
        exact h.follow rfl rfl rfl rfl

theorem Reads.addText_of_begins (h : f.Reads segments) (hline : Begins segments line) :
    f.addEntry line.number (.text (content line.text)) =
      f.start line.number (content line.text) := by
  cases hrunning : running segments with
  | nil =>
    have hpending : f.pending = none := by rw [h.pending, hrunning]; rfl
    simp only [addEntry, hpending]
  | cons first further =>
    have hpending : f.pending =
        some (joined first further, openBrackets (first :: further)) := by
      rw [h.pending, hrunning]; rfl
    have hcontinues := hline.2
    rw [hrunning] at hcontinues
    have hclosed : ¬(0 < openBrackets (first :: further) ∨
        isContinuation (content line.text) = true) :=
      fun hopen => hcontinues ⟨hline.1, List.cons_ne_nil _ _, hopen⟩
    simp only [addEntry, hpending]
    rw [if_neg (by simpa using hclosed)]

-- A line that continues an instruction is added to it.
theorem Reads.extend (h : f.Reads (before ++ [.instruction first further]))
    (hline : Continues (first :: further) line) :
    (f.addEntry line.number (.text (content line.text))).Reads
      (before ++ [.instruction first (further ++ [line])]) := by
  have hpending : f.pending = some (joined first further, openBrackets (first :: further)) := by
    rw [h.pending, running_concat]
    rfl
  have hdone : f.done = before.flatMap Segment.emitted := by
    have hflush := h.done
    rw [flush, hpending, List.flatMap_append] at hflush
    exact List.append_cancel_right hflush
  have hadd : f.addEntry line.number (.text (content line.text)) =
      { f with pending := pendingOf (first :: (further ++ [line])) } := by
    rw [pendingOf, joined_concat, ← List.cons_append, openBrackets_concat]
    simp only [addEntry, hpending]
    rw [if_pos (by simpa using hline.2.2)]
  rw [hadd]
  refine ⟨?_, ?_, ?_⟩
  · rw [List.flatMap_append, ← hdone]
    rfl
  · rw [running_concat]
    rfl
  · rw [insidePad_concat before rfl]
    exact h.inLandingPad.trans (insidePad_concat before rfl)

end Folding

theorem isFilled_of_entryOf? {entry : Entry} (h : entryOf? line.text = some entry) :
    isFilled line = true := by
  rw [isFilled, h]
  rfl

namespace IsSegmentation

variable {body : List SourceLine}

theorem nil : IsSegmentation [] [] where
  lines := rfl
  stands before s hprefix := by
    have hnil := List.prefix_nil.mp hprefix
    simp at hnil

theorem skip (h : IsSegmentation body segments) (hline : isFilled line = false) :
    IsSegmentation (body ++ [line]) segments where
  lines := by simpa [hline] using h.lines
  stands := h.stands

theorem concat (h : IsSegmentation body segments) (hstands : s.Stands segments)
    (hlines : s.lines = [line]) (hline : isFilled line = true) :
    IsSegmentation (body ++ [line]) (segments ++ [s]) where
  lines := by simp [h.lines, hlines, hline]
  stands before t hprefix := by
    rcases List.prefix_concat_iff.mp hprefix with heq | hprefix
    · obtain ⟨rfl, rfl⟩ := List.append_singleton_inj.mp heq
      exact hstands
    · exact h.stands before t hprefix

theorem extend (h : IsSegmentation body (before ++ [.instruction first further]))
    (hcontinues : Continues (first :: further) line) (hline : isFilled line = true) :
    IsSegmentation (body ++ [line]) (before ++ [.instruction first (further ++ [line])]) where
  lines := by
    have hlines := h.lines
    rw [List.flatMap_append, List.flatMap_singleton] at hlines
    rw [List.flatMap_append, List.flatMap_singleton, List.filter_append, ← hlines]
    simp [Segment.lines, Segment.first, Segment.further, hline]
  stands other t hprefix := by
    rcases List.prefix_concat_iff.mp hprefix with heq | hprefix
    · obtain ⟨rfl, rfl⟩ := List.append_singleton_inj.mp heq
      obtain ⟨hbegins, hclause, hlabel, hpad, hfurther⟩ := h.stands other _ List.prefix_rfl
      refine ⟨hbegins, hclause, hlabel, hpad, fun read next hread => ?_⟩
      rcases List.prefix_concat_iff.mp hread with heq | hread
      · obtain ⟨rfl, rfl⟩ := List.append_singleton_inj.mp heq
        exact hcontinues
      · exact hfurther read next hread
    · exact h.stands other t (List.IsPrefix.trans hprefix (List.prefix_append before _))

end IsSegmentation

-- A filled line of the body adds a segment, or it is added to the last one.
theorem exists_segmentation_concat {body : List SourceLine} (h : IsSegmentation body segments)
    (hreads : f.Reads segments) (line : SourceLine) :
    ∃ segments', IsSegmentation (body ++ [line]) segments' ∧ (f.add line).Reads segments' := by
  rw [Folding.add_eq]
  cases hentry : entryOf? line.text with
  | none =>
    have hline : isFilled line = false := by rw [isFilled, hentry]; rfl
    exact ⟨segments, h.skip hline, hreads⟩
  | some entry =>
    have hline := isFilled_of_entryOf? hentry
    unfold entryOf? at hentry
    cases hmarker : labelMarker line.text with
    | some name =>
      rw [hmarker] at hentry
      obtain rfl : Entry.marker name = entry := Option.some_inj.mp hentry
      have hstands : (Segment.marker line name).Stands segments := hmarker
      exact ⟨_, h.concat hstands rfl hline, hreads.addMarker line name⟩
    | none =>
      simp only [hmarker, Option.ite_none_left_eq_some, Option.some_inj] at hentry
      obtain ⟨-, rfl⟩ := hentry
      by_cases hcontinues : Continues (running segments) line
      · obtain ⟨before, first, further, rfl⟩ := exists_of_running_ne_nil hcontinues.2.1
        rw [running_concat] at hcontinues
        exact ⟨_, h.extend hcontinues hline, hreads.extend hcontinues⟩
      · have hbegins : Begins segments line := ⟨hmarker, hcontinues⟩
        rw [Option.map_some, Option.getD_some, hreads.addText_of_begins hbegins]
        exact ⟨_, h.concat (stands_opening hbegins) (lines_opening segments line) hline,
          hreads.start line⟩

theorem exists_segmentation (body : List SourceLine) :
    ∃ segments, IsSegmentation body segments ∧ (body.foldl Folding.add .empty).Reads segments := by
  induction body using List.reverseRecOn with
  | nil => exact ⟨[], .nil, Folding.reads_empty⟩
  | append_singleton body line ih =>
    obtain ⟨segments, h, hreads⟩ := ih
    rw [List.foldl_append, List.foldl_cons, List.foldl_nil]
    exact exists_segmentation_concat h hreads line

namespace Segment

-- The segment as its first line begins it.
def alone : Segment → Segment
  | instruction first _ => instruction first []
  | s => s

theorem eq_of_alone {t : Segment} (halone : s.alone = t.alone) (hfurther : s.further = t.further) :
    s = t := by
  cases s <;> cases t <;> simp_all [alone, further]

theorem exists_instruction (h : s.further ≠ []) :
    ∃ first further, s = .instruction first further := by
  cases s with
  | instruction first further => exact ⟨first, further, rfl⟩
  | _ => exact absurd rfl h

-- What the first line of a segment begins depends on the segments before it only.
theorem Stands.alone_eq (h : s.Stands before) :
    s.alone = ((labelMarker s.first.text).map (marker s.first)).getD (opening before s.first) := by
  cases s with
  | marker line name =>
    have hmarker : labelMarker line.text = some name := h
    simp [alone, first, hmarker]
  | label line name =>
    obtain ⟨⟨hmarker, -⟩, hclause, hlabel⟩ := h
    simp [alone, first, opening, hmarker, not_isClause_iff.mp hclause, hlabel]
  | landingPad line =>
    obtain ⟨⟨hmarker, -⟩, hclause, hlabel, hpad⟩ := h
    simp [alone, first, opening, hmarker, not_isClause_iff.mp hclause, hlabel, hpad]
  | clause line =>
    obtain ⟨⟨hmarker, -⟩, hclause⟩ := h
    simp [alone, first, opening, hmarker, isClause_iff.mp hclause]
  | instruction line further =>
    obtain ⟨⟨hmarker, -⟩, hclause, hlabel, hpad, -⟩ := h
    simp [alone, first, opening, hmarker, not_isClause_iff.mp hclause, hlabel, hpad]

theorem Stands.not_continues (h : s.Stands before) : ¬Continues (Line.running before) s.first := by
  cases s with
  | marker line name =>
    intro hcontinues
    have hmarker : labelMarker line.text = some name := h
    exact Option.some_ne_none name (hmarker.symm.trans hcontinues.1)
  | _ => exact h.1.2

end Segment

-- The segments stand where they are when others come before them.
def StandsAfter (before segments : List Segment) : Prop :=
  ∀ between s, between ++ [s] <+: segments → s.Stands (before ++ between)

namespace StandsAfter

variable {rest rest' : List Segment} {t : Segment} {extra lines : List SourceLine}

theorem head (h : StandsAfter before (s :: rest)) : s.Stands before := by
  simpa using h [] s (List.prefix_append [s] rest)

theorem tail (h : StandsAfter before (s :: rest)) : StandsAfter (before ++ [s]) rest := by
  intro between t hprefix
  have hstands := h (s :: between) t (List.cons_prefix_cons.mpr ⟨rfl, hprefix⟩)
  rwa [List.append_assoc, List.singleton_append]

-- An instruction has all the lines that continue it: the next line would continue it as well.
theorem eq_nil_of_further (hrest : StandsAfter (before ++ [s]) rest) (hstands : t.Stands before)
    (halone : s.alone = t.alone) (hfurther : t.further = s.further ++ extra)
    (hlines : rest.flatMap Segment.lines = extra ++ lines) : extra = [] := by
  cases extra with
  | nil => rfl
  | cons line extra =>
    have hne : t.further ≠ [] := by simp [hfurther]
    obtain ⟨first, further, rfl⟩ := Segment.exists_instruction hne
    obtain ⟨first', further', rfl⟩ : ∃ first further, s = .instruction first further := by
      cases s with
      | instruction first further => exact ⟨first, further, rfl⟩
      | _ => cases halone
    obtain rfl : first' = first := by simpa [Segment.alone] using halone
    have hread : further' ++ [line] <+: further := by
      have heq : further = further' ++ line :: extra := hfurther
      simp [heq]
    have hcontinues : Continues (first' :: further') line :=
      hstands.2.2.2.2 further' line hread
    cases rest with
    | nil => cases hlines
    | cons next rest =>
      have hfirst : next.first = line := (List.cons.inj hlines).1
      have hnot := hrest.head.not_continues
      rw [hfirst, running_concat] at hnot
      exact absurd hcontinues hnot

theorem eq_of_lines (h : StandsAfter before segments) {segments' : List Segment}
    (h' : StandsAfter before segments')
    (hlines : segments.flatMap Segment.lines = segments'.flatMap Segment.lines) :
    segments = segments' := by
  induction segments generalizing before segments' with
  | nil =>
    cases segments' with
    | nil => rfl
    | cons t rest' => cases hlines
  | cons s rest ih =>
    cases segments' with
    | nil => cases hlines
    | cons t rest' =>
      obtain ⟨hfirst, hfurther⟩ := List.cons.inj hlines
      have halone : s.alone = t.alone := by
        rw [h.head.alone_eq, h'.head.alone_eq, hfirst]
      have hst : s = t := by
        refine Segment.eq_of_alone halone ?_
        rcases List.append_eq_append_iff.mp hfurther with ⟨extra, heq, hrest⟩ | ⟨extra, heq, hrest⟩
        · rw [heq, eq_nil_of_further h.tail h'.head halone heq hrest, List.append_nil]
        · rw [heq, eq_nil_of_further h'.tail h.head halone.symm heq hrest, List.append_nil]
      subst hst
      rw [ih h.tail h'.tail (List.append_cancel_left hfurther)]

end StandsAfter

theorem IsSegmentation.eq {body : List SourceLine} {segments' : List Segment}
    (h : IsSegmentation body segments) (h' : IsSegmentation body segments') :
    segments = segments' := by
  have hafter : StandsAfter [] segments := h.stands
  exact hafter.eq_of_lines h'.stands (h.lines.trans h'.lines.symm)

end Line

namespace LogicalLine

-- The line is an instruction that has the part in its text.
def Mentions : LogicalLine → String → Prop
  | .label _, _ => False
  | .instruction line, part => part.toList <:+: line.text.toList

instance decidableMentions : (line : LogicalLine) → (part : String) → Decidable (line.Mentions part)
  | .label _, _ => inferInstanceAs (Decidable False)
  | .instruction _, _ => inferInstanceAs (Decidable (_ <:+: _))

theorem isKept_eq (line : LogicalLine) :
    Line.isKept line =
      decide (¬line.Mentions "@llvm.dbg." ∧ ¬line.Mentions "@llvm.lifetime.") := by
  cases line with
  | label register => simp [Line.isKept, Mentions]
  | instruction line =>
    rw [Bool.eq_iff_iff, decide_eq_true_iff]
    simp only [Line.isKept, Line.isIgnored, Text.containsText, Mentions, Bool.not_eq_true',
      Bool.or_eq_false_iff, ← Text.isInfixOf_iff, Bool.not_eq_true]

end LogicalLine

-- The filled lines of a body fall into segments in exactly one way. Its labels and instructions are
-- those of the segments, less the instructions that mention debug information or lifetimes.
theorem logicalLines_segments (body : List SourceLine) :
    ∃ segments, Line.IsSegmentation body segments ∧
      (∀ segments', Line.IsSegmentation body segments' → segments' = segments) ∧
      (body.foldl Line.Folding.add .empty).flush.done = segments.flatMap Line.Segment.emitted ∧
      logicalLines body =
        (segments.flatMap Line.Segment.emitted).filter fun line =>
          decide (¬line.Mentions "@llvm.dbg." ∧ ¬line.Mentions "@llvm.lifetime.") := by
  obtain ⟨segments, h, hreads⟩ := Line.exists_segmentation body
  refine ⟨segments, h, fun _ h' => h'.eq h, hreads.done, ?_⟩
  rw [logicalLines, hreads.done]
  exact List.filter_congr fun line _ => line.isKept_eq

end TestFocus
