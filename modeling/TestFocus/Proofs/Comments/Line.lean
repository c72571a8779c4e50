import TestFocus.Module.Line
import Mathlib.Data.List.TakeWhile

namespace TestFocus

namespace Text

def IsBlank (s : String) : Prop :=
  ∀ c ∈ s.toList, isSpace c = true

instance (s : String) : Decidable (IsBlank s) :=
  decidable_of_iff (s.toList.all isSpace = true) List.all_eq_true

theorem dropEndWhile_append_of_all {p : Char → Bool} {ds : List Char}
    (h : ∀ c ∈ ds, p c = true) (cs : List Char) :
    dropEndWhile p (cs ++ ds) = dropEndWhile p cs := by
  have hreverse : ds.reverse.dropWhile p = [] :=
    List.dropWhile_eq_nil_iff.mpr (by simpa using h)
  simp only [dropEndWhile, List.reverse_append, List.dropWhile_append, hreverse, List.isEmpty_nil,
    if_true]

-- Spaces at the end of a text are trimmed away.
theorem trim_append_blank {space : String} (h : IsBlank space) (s : String) :
    trim (s ++ space) = trim s := by
  simp only [trim, String.toList_append, List.dropWhile_append]
  split
  · next hempty =>
    rw [List.isEmpty_iff] at hempty
    rw [hempty, List.dropWhile_eq_nil_iff.mpr h]
  · rw [dropEndWhile_append_of_all h]

theorem trim_of_isBlank {space : String} (h : IsBlank space) : trim space = "" := by
  simp only [trim, List.dropWhile_eq_nil_iff.mpr h]
  rfl

end Text

namespace Line

open Text

-- Is a double quote open after the characters?
def isOpen (inQuotes : Bool) : List Char → Bool
  | [] => inQuotes
  | c :: cs => isOpen (if c == '"' then !inQuotes else inQuotes) cs

-- The double quotes of a text are balanced.
def IsBalanced (s : String) : Prop :=
  isOpen false s.toList = false

instance (s : String) : Decidable (IsBalanced s) :=
  inferInstanceAs (Decidable (_ = _))

-- What is cut lies in the first part, or all of the first part is kept.
theorem beforeComment_append (inQuotes : Bool) (cs ds : List Char) :
    beforeComment inQuotes (cs ++ ds) = beforeComment inQuotes cs ∨
      beforeComment inQuotes cs = cs ∧
        beforeComment inQuotes (cs ++ ds) = cs ++ beforeComment (isOpen inQuotes cs) ds := by
  induction cs generalizing inQuotes with
  | nil => exact .inr ⟨rfl, rfl⟩
  | cons c cs ih =>
    simp only [List.cons_append, beforeComment, isOpen]
    split
    · exact .inl rfl
    · rcases ih (if c == '"' then !inQuotes else inQuotes) with heq | ⟨hall, heq⟩
      · exact .inl (by rw [heq])
      · exact .inr ⟨by rw [hall], by rw [heq]⟩

theorem ne_of_isSpace {c d : Char} (hc : isSpace c = true) (hd : isSpace d = false) : c ≠ d := by
  rintro rfl
  rw [hc] at hd
  cases hd

theorem beforeComment_blank_append {cs : List Char} (h : ∀ c ∈ cs, isSpace c = true)
    (ds : List Char) : beforeComment false (cs ++ ds) = cs ++ beforeComment false ds := by
  induction cs with
  | nil => rfl
  | cons c cs ih =>
    rw [List.forall_mem_cons] at h
    have hsemicolon : (c == ';') = false := by
      simpa using ne_of_isSpace h.1 (by decide)
    have hquote : (c == '"') = false := by
      simpa using ne_of_isSpace h.1 (by decide)
    simp [beforeComment, hsemicolon, hquote, ih h.2]

-- A comment that is appended with space in front of it.
def withComment (raw space comment : String) : String :=
  raw ++ space ++ ";" ++ comment

-- A comment behind balanced quotes does not change the content of a line.
theorem content_withComment {raw space : String} (hraw : IsBalanced raw) (hspace : IsBlank space)
    (comment : String) : content (withComment raw space comment) = content raw := by
  have htail : beforeComment false (space.toList ++ ';' :: comment.toList) = space.toList := by
    rw [beforeComment_blank_append hspace]
    exact List.append_nil _
  have htext : (withComment raw space comment).toList =
      raw.toList ++ (space.toList ++ ';' :: comment.toList) := by
    simp [withComment]
  simp only [content, stripComment, htext]
  rcases beforeComment_append false raw.toList (space.toList ++ ';' :: comment.toList) with
    heq | ⟨hall, heq⟩
  · rw [heq]
  · rw [heq, hraw, htail, hall, String.ofList_append, String.ofList_toList, String.ofList_toList]
    exact trim_append_blank hspace raw

-- A line of white space, or one that holds nothing but a comment.
inductive IsVacant : String → Prop where
  | blank {space : String} : IsBlank space → IsVacant space
  | comment {space : String} (text : String) : IsBlank space → IsVacant (withComment "" space text)

theorem content_of_isVacant {raw : String} (h : IsVacant raw) : content raw = "" := by
  cases h with
  | @blank space h =>
    have hall := beforeComment_blank_append h []
    rw [List.append_nil] at hall
    simp only [content, stripComment, hall, beforeComment, List.append_nil, String.ofList_toList]
    exact trim_of_isBlank h
  | comment text h =>
    have hempty : IsBalanced "" := rfl
    rw [content_withComment hempty h]
    rfl

inductive Entry where
  | marker (label : String)
  | text (text : String)
deriving DecidableEq

-- The marker or the content of a line, if it has any.
def entryOf? (raw : String) : Option Entry :=
  match labelMarker raw with
  | some label => some (.marker label)
  | none => if (content raw).isEmpty then none else some (.text (content raw))

theorem entryOf?_withComment {raw space comment : String} (hraw : IsBalanced raw)
    (hspace : IsBlank space) (hmarker : labelMarker raw = none)
    (hmarker' : labelMarker (withComment raw space comment) = none) :
    entryOf? (withComment raw space comment) = entryOf? raw := by
  simp only [entryOf?, hmarker, hmarker', content_withComment hraw hspace]

theorem entryOf?_of_isVacant {raw : String} (h : IsVacant raw) (hmarker : labelMarker raw = none) :
    entryOf? raw = none := by
  simp only [entryOf?, hmarker, content_of_isVacant h]
  rfl

end Line

-- The lines of a body without their numbers.
def SourceLine.unnumbered (line : SourceLine) : SourceLine :=
  { line with number := 0 }

namespace LogicalLine

def unnumbered : LogicalLine → LogicalLine
  | .label register => .label register
  | .instruction line => .instruction line.unnumbered

theorem text_eq_of_unnumbered {line line' : SourceLine}
    (h : (instruction line).unnumbered = (instruction line').unnumbered) :
    line.text = line'.text := by
  simpa [unnumbered, SourceLine.unnumbered] using h

theorem isKept_unnumbered (line : LogicalLine) :
    Line.isKept line.unnumbered = Line.isKept line := by
  cases line with
  | label register => rfl
  | instruction line => rfl

end LogicalLine

-- The entries of a body, in order.
def Line.entries (body : List SourceLine) : List Line.Entry :=
  body.filterMap fun line => Line.entryOf? line.text

namespace Line.Folding

def unnumbered (f : Folding) : Folding :=
  { done := f.done.map LogicalLine.unnumbered
    pending := f.pending.map fun (line, depth) => (line.unnumbered, depth)
    inLandingPad := f.inLandingPad }

def addEntry (f : Folding) (number : Nat) : Entry → Folding
  | .marker label => f.flush.addLabel label
  | .text text =>
    match f.pending with
    | some (line, depth) =>
      if 0 < depth || isContinuation text then
        { f with pending := some ({ line with text := line.text ++ " " ++ text },
                                  depth + bracketDepth false text.toList) }
      else f.start number text
    | none => f.start number text

theorem add_eq (f : Folding) (raw : SourceLine) :
    f.add raw = ((entryOf? raw.text).map (f.addEntry raw.number)).getD f := by
  unfold add entryOf?
  cases labelMarker raw.text with
  | some label => rfl
  | none =>
    by_cases hempty : (content raw.text).isEmpty
    · simp only [hempty, if_true, Option.map_none, Option.getD_none]
    · simp only [if_neg hempty]
      rfl

theorem unnumbered_flush (f : Folding) : f.flush.unnumbered = f.unnumbered.flush := by
  obtain ⟨done, pending, inLandingPad⟩ := f
  cases pending with
  | none => rfl
  | some line => simp [flush, unnumbered, LogicalLine.unnumbered]

theorem unnumbered_addLabel (f : Folding) (label : String) :
    (f.addLabel label).unnumbered = f.unnumbered.addLabel label := by
  simp [addLabel, unnumbered, LogicalLine.unnumbered]

theorem unnumbered_start (f : Folding) (number : Nat) (text : String) :
    (f.start number text).unnumbered = f.unnumbered.start 0 text := by
  have hflush : ({ f with inLandingPad := false } : Folding).flush.unnumbered =
      ({ f.unnumbered with inLandingPad := false } : Folding).flush := unnumbered_flush _
  have hlanding : f.unnumbered.inLandingPad = f.inLandingPad := rfl
  simp only [start, hlanding, ← hflush]
  split
  · rfl
  · split
    · exact unnumbered_addLabel _ _
    · split
      · rfl
      · rfl

theorem unnumbered_addEntry (f : Folding) (number : Nat) (entry : Entry) :
    (f.addEntry number entry).unnumbered = f.unnumbered.addEntry 0 entry := by
  cases entry with
  | marker label => simp only [addEntry, unnumbered_addLabel, unnumbered_flush]
  | text text =>
    obtain ⟨done, pending, inLandingPad⟩ := f
    cases pending with
    | none => exact unnumbered_start _ number text
    | some pending =>
      obtain ⟨line, depth⟩ := pending
      simp only [addEntry, unnumbered, Option.map_some]
      split
      · rfl
      · exact unnumbered_start _ number text

-- Up to the numbers, a body is folded entry by entry.
theorem unnumbered_foldl_add (body : List SourceLine) (f : Folding) :
    (body.foldl add f).unnumbered =
      (entries body).foldl (addEntry · 0) f.unnumbered := by
  induction body generalizing f with
  | nil => rfl
  | cons line body ih =>
    rw [List.foldl_cons, ih, add_eq, entries, entries, List.filterMap_cons]
    cases entryOf? line.text with
    | none => rfl
    | some entry =>
      rw [List.foldl_cons, ← unnumbered_addEntry f line.number]
      rfl

end Line.Folding

-- Bodies with the same entries have the same labels and instructions.
theorem logicalLines_unnumbered {body body' : List SourceLine}
    (h : Line.entries body = Line.entries body') :
    (logicalLines body).map LogicalLine.unnumbered =
      (logicalLines body').map LogicalLine.unnumbered := by
  have hlines (body : List SourceLine) :
      (logicalLines body).map LogicalLine.unnumbered =
        ((body.foldl Line.Folding.add .empty).unnumbered.flush.done).filter Line.isKept := by
    have hkept : Line.isKept ∘ LogicalLine.unnumbered = Line.isKept :=
      funext LogicalLine.isKept_unnumbered
    rw [← Line.Folding.unnumbered_flush, logicalLines]
    simp only [Line.Folding.unnumbered, List.filter_map, hkept]
  rw [hlines, hlines, Line.Folding.unnumbered_foldl_add, Line.Folding.unnumbered_foldl_add, h]

end TestFocus
