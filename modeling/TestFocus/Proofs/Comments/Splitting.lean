import TestFocus.Module.Source
import TestFocus.Proofs.Comments.Heading
import Mathlib.Data.List.Forall2

namespace TestFocus

open Text Line

theorem not_mem_linesFrom {line cs : List Char} (hline : '\n' ∉ line) :
    ∀ raw ∈ linesFrom line cs, '\n' ∉ raw.toList := by
  induction cs generalizing line with
  | nil =>
    intro raw hraw
    simp only [linesFrom] at hraw
    split at hraw
    · cases hraw
    · simpa [List.mem_singleton.mp hraw] using hline
  | cons c cs ih =>
    intro raw hraw
    simp only [linesFrom] at hraw
    split at hraw
    · rcases List.mem_cons.mp hraw with rfl | hraw
      · split
        · simp_all
        · simpa using hline
      · exact ih (by simp) raw hraw
    · next hc => exact ih (by simpa [Ne.symm hc] using hline) raw hraw

-- No line holds the end of a line.
theorem not_mem_lines (text : String) : ∀ raw ∈ lines text, '\n' ∉ raw.toList :=
  not_mem_linesFrom (by simp)

theorem dropEndWhile_subset (p : Char → Bool) (cs : List Char) :
    Text.dropEndWhile p cs ⊆ cs := by
  intro c hc
  rw [Text.dropEndWhile, List.mem_reverse] at hc
  exact List.mem_reverse.mp ((List.dropWhile_sublist p).subset hc)

theorem beforeComment_subset (inQuotes : Bool) (cs : List Char) :
    beforeComment inQuotes cs ⊆ cs := by
  induction cs generalizing inQuotes with
  | nil => exact List.Subset.refl _
  | cons c cs ih =>
    simp only [beforeComment]
    split
    · exact List.nil_subset _
    · exact List.cons_subset_cons c (ih _)

theorem content_subset (raw : String) : (content raw).toList ⊆ raw.toList := by
  intro c hc
  simp only [content, trim, stripComment, String.toList_ofList] at hc
  exact beforeComment_subset false _
    ((List.dropWhile_sublist isSpace).subset (dropEndWhile_subset isSpace _ hc))

theorem mem_dropWhile {p : Char → Bool} {cs : List Char} {c : Char} (hc : c ∈ cs)
    (hp : p c = false) : c ∈ cs.dropWhile p := by
  induction cs with
  | nil => cases hc
  | cons d cs ih =>
    rw [List.dropWhile_cons]
    split
    · next hd =>
      rcases List.mem_cons.mp hc with rfl | hc
      · rw [hp] at hd
        cases hd
      · exact ih hc
    · exact hc

-- Nothing but spaces is trimmed away.
theorem mem_trim {s : String} {c : Char} (hc : c ∈ s.toList) (hspace : isSpace c = false) :
    c ∈ (trim s).toList := by
  simp only [trim, dropEndWhile, String.toList_ofList, List.mem_reverse]
  exact mem_dropWhile (List.mem_reverse.mpr (mem_dropWhile hc hspace)) hspace

theorem trim_withComment_ne (raw space comment : String) :
    trim (withComment raw space comment) ≠ "\x7d" := by
  intro htrim
  have hmem : ';' ∈ (trim (withComment raw space comment)).toList :=
    mem_trim (by simp [withComment]) (by decide)
  rw [htrim] at hmem
  exact absurd hmem (by decide)

theorem Line.IsVacant.trim_ne {raw : String} (h : IsVacant raw) : trim raw ≠ "\x7d" := by
  cases h with
  | blank h =>
    rw [trim_of_isBlank h]
    decide
  | comment text h => exact trim_withComment_ne _ _ _

-- What a line stands in: nothing, a header of which this much is read, or a body.
inductive Region where
  | outside
  | header (text : String)
  | body
deriving DecidableEq

namespace Region

def ofHeader (text : String) : Region :=
  if endsWithChar text '\x7b' then .body else .header text

-- What the next line stands in.
def after (region : Region) (raw : String) : Region :=
  match region with
  | .outside =>
    if ModuleSource.isDefinition (content raw) then ofHeader (content raw) else .outside
  | .header text => ofHeader (text ++ " " ++ content raw)
  | .body => if trim raw = "\x7d" then .outside else .body

-- The quotes of a header that is not read to its end are balanced so far.
def IsBetweenTokens : Region → Prop
  | .header text => IsBalanced text
  | _ => True

instance : (region : Region) → Decidable region.IsBetweenTokens
  | .outside => .isTrue trivial
  | .header text => inferInstanceAs (Decidable (IsBalanced text))
  | .body => .isTrue trivial

-- The line ends the body that it stands in.
def Ends (region : Region) (raw : String) : Prop :=
  region = .body ∧ trim raw = "\x7d"

instance (region : Region) (raw : String) : Decidable (region.Ends raw) :=
  inferInstanceAs (Decidable (_ ∧ _))

end Region

-- The second list has the lines of the first one, some with a comment behind them, and some vacant
-- lines more. No marker is touched or made, no line is put inside of quotes, and the brace that
-- ends a body stays without a comment.
inductive Relaid : Region → List String → List String → Prop where
  | nil (region : Region) : Relaid region [] []
  | kept {region : Region} {lines lines' : List String} (raw : String) :
      Relaid (region.after raw) lines lines' → Relaid region (raw :: lines) (raw :: lines')
  | commented {region : Region} {lines lines' : List String} {raw space comment : String} :
      IsBalanced raw → IsBlank space → labelMarker raw = none →
      labelMarker (withComment raw space comment) = none → ¬region.Ends raw →
      Relaid (region.after raw) lines lines' →
      Relaid region (raw :: lines) (withComment raw space comment :: lines')
  | inserted {region : Region} {lines lines' : List String} {raw : String} :
      IsVacant raw → labelMarker raw = none → region.IsBetweenTokens →
      Relaid region lines lines' → Relaid region lines (raw :: lines')

-- Headers differ in added blanks, bodies in lines without entries.
structure FunctionSource.Alike (f f' : FunctionSource) : Prop where
  header : Headings f.header.text f'.header.text
  body : entries f.body = entries f'.body

structure ModuleSource.Alike (m m' : ModuleSource) : Prop where
  aliases : List.Forall₂ (fun line line' => line.text = line'.text) m.aliases m'.aliases
  attributeGroups : List.Forall₂ (fun line line' => line.text = line'.text ∧
    startsWith line.text "attributes #" = true) m.attributeGroups m'.attributeGroups
  functions : List.Forall₂ FunctionSource.Alike m.functions m'.functions

namespace ModuleSource

-- Two splittings stand in the same region.
inductive Place.Alike : Place → Place → Region → Prop where
  | outside : Alike .outside .outside .outside
  | header {line line' : SourceLine} : Unclosed line.text line'.text →
      endsWithChar line.text '\x7b' = false →
      Alike (.header line) (.header line') (.header line.text)
  | body {header header' : SourceLine} {lines lines' : List SourceLine} :
      Headings header.text header'.text → entries lines = entries lines' →
      Alike (.body header lines) (.body header' lines') .body

variable {m m' : ModuleSource} {place place' : Place} {region : Region}

theorem Place.alike_ofHeader {line line' : SourceLine} (h : Headings line.text line'.text) :
    (ofHeader line).Alike (ofHeader line') (Region.ofHeader line.text) := by
  simp only [ofHeader, Region.ofHeader, ← h.endsWithChar_eq]
  split
  · exact .body h rfl
  · next hopen => exact .header h.unclosed (by simpa using hopen)

theorem entries_reverse (lines : List SourceLine) :
    entries lines.reverse = (entries lines).reverse := by
  simp only [entries, List.filterMap_reverse]

theorem Alike.addFunction (hm : m.Alike m') {header header' : SourceLine}
    {lines lines' : List SourceLine}
    (hheader : Headings (closeHeader header).text (closeHeader header').text)
    (hlines : entries lines = entries lines') :
    (m.addFunction header lines).Alike (m'.addFunction header' lines') := by
  have hbody : entries lines.reverse = entries lines'.reverse := by
    rw [entries_reverse, entries_reverse, hlines]
  exact { hm with functions := List.rel_append hm.functions (.cons ⟨hheader, hbody⟩ .nil) }

theorem Alike.addOutside (hm : m.Alike m') {line line' : SourceLine}
    (htext : line.text = line'.text) (hline : '\n' ∉ line.text.toList) :
    (m.addOutside line).1.Alike (m'.addOutside line').1 ∧
      (m.addOutside line).2.Alike (m'.addOutside line').2
        (if isDefinition line.text then .ofHeader line.text else .outside) := by
  simp only [ModuleSource.addOutside, ← htext]
  split
  · exact ⟨hm, Place.alike_ofHeader (htext ▸ headings_refl hline)⟩
  · split
    · next hgroup =>
      have hline' : List.Forall₂ (fun line line' => line.text = line'.text ∧
          startsWith line.text "attributes #" = true) [line] [line'] := .cons ⟨htext, hgroup⟩ .nil
      exact ⟨{ hm with attributeGroups := List.rel_append hm.attributeGroups hline' }, .outside⟩
    · split
      · exact ⟨{ hm with aliases := List.rel_append hm.aliases (.cons htext .nil) }, .outside⟩
      · exact ⟨hm, .outside⟩

-- A line and the line that takes its place keep the splittings in step.
theorem Alike.add (hm : m.Alike m') (hplace : place.Alike place' region) (number number' : Nat)
    {raw raw' : String} (hline : '\n' ∉ raw.toList) (hcontent : content raw' = content raw)
    (hentry : entryOf? raw' = entryOf? raw)
    (hend : region = .body → (trim raw' = "\x7d" ↔ trim raw = "\x7d")) :
    (m.add place number raw).1.Alike (m'.add place' number' raw').1 ∧
      (m.add place number raw).2.Alike (m'.add place' number' raw').2 (region.after raw) := by
  have hplain : '\n' ∉ (content raw).toList := fun hmem => hline (content_subset raw hmem)
  cases hplace with
  | outside => exact hm.addOutside hcontent.symm hplain
  | @header line line' hunclosed hopen =>
    simp only [ModuleSource.add, hcontent]
    exact ⟨hm, Place.alike_ofHeader (hunclosed.append hplain)⟩
  | @body header header' lines lines' hheader hlines =>
    simp only [ModuleSource.add, Region.after, hend rfl]
    split
    · exact ⟨hm.addFunction hheader.closed hlines, .outside⟩
    · refine ⟨hm, .body hheader ?_⟩
      simp only [entries, List.filterMap_cons, hentry]
      cases entryOf? raw with
      | none => exact hlines
      | some entry => exact congrArg (entry :: ·) hlines

-- A vacant line that only the second text has.
theorem Alike.add_vacant (m' : ModuleSource) (hplace : place.Alike place' region)
    (number' : Nat) {raw' : String} (hvacant : IsVacant raw') (hmarker : labelMarker raw' = none)
    (hbetween : region.IsBetweenTokens) :
    (m'.add place' number' raw').1 = m' ∧ place.Alike (m'.add place' number' raw').2 region := by
  have hcontent := content_of_isVacant hvacant
  cases hplace with
  | outside =>
    rw [ModuleSource.add, hcontent]
    exact ⟨rfl, .outside⟩
  | @header line line' hunclosed hopen =>
    rw [ModuleSource.add, hcontent, Place.ofHeader, endsWithChar_append_blank]
    exact ⟨rfl, .header (hunclosed.append_blank hbetween) hopen⟩
  | @body header header' lines lines' hheader hlines =>
    rw [ModuleSource.add, if_neg hvacant.trim_ne]
    refine ⟨rfl, .body hheader ?_⟩
    rw [hlines, entries, entries, List.filterMap_cons_none]
    exact entryOf?_of_isVacant hvacant hmarker

theorem Alike.finish (hm : m.Alike m') (hplace : place.Alike place' region) :
    (m.finish place).Alike (m'.finish place') := by
  cases hplace with
  | outside => exact hm
  | header hunclosed hopen => exact hm.addFunction (hunclosed.closed hopen) rfl
  | body hheader hlines => exact hm.addFunction hheader.closed hlines

-- The induction is on the way in which the lines were laid out anew.
theorem Alike.splitFrom {lines lines' : List String} (h : Relaid region lines lines')
    (hlines : ∀ raw ∈ lines, '\n' ∉ raw.toList) (hm : m.Alike m')
    (hplace : place.Alike place' region) (number number' : Nat) :
    (m.splitFrom place number lines).Alike (m'.splitFrom place' number' lines') := by
  induction h generalizing m m' place place' number number' with
  | nil region => exact hm.finish hplace
  | kept raw _ ih =>
    rw [List.forall_mem_cons] at hlines
    obtain ⟨hm', hplace'⟩ := hm.add hplace number number' hlines.1 rfl rfl fun _ => Iff.rfl
    exact ih hlines.2 hm' hplace' _ _
  | commented hraw hspace hmarker hmarker' hend _ ih =>
    rw [List.forall_mem_cons] at hlines
    obtain ⟨hm', hplace'⟩ := hm.add hplace number number' hlines.1
      (content_withComment hraw hspace _) (entryOf?_withComment hraw hspace hmarker hmarker')
      fun hbody => iff_of_false (trim_withComment_ne _ _ _) fun htrim => hend ⟨hbody, htrim⟩
    exact ih hlines.2 hm' hplace' _ _
  | @inserted region lines lines' raw hvacant hmarker hbetween _ ih =>
    obtain ⟨hsame, hplace'⟩ := add_vacant m' hplace number' hvacant hmarker hbetween
    have hrest := ih hlines hm hplace' number (number' + 1)
    have hstep : m'.splitFrom place' number' (raw :: lines') =
        (m'.add place' number' raw).1.splitFrom (m'.add place' number' raw).2 (number' + 1)
          lines' := rfl
    rw [hstep, hsame]
    exact hrest

end ModuleSource

-- Two texts whose lines differ in comments and vacant lines have the same parts.
theorem ModuleSource.split_alike {text text' : String}
    (h : Relaid .outside (lines text) (lines text')) : (split text).Alike (split text') := by
  have hempty : empty.Alike empty := ⟨.nil, .nil, .nil⟩
  exact hempty.splitFrom h (not_mem_lines text) .outside 1 1

-- A comment behind the brace that ends a body takes the rest of the module into that body.
example :
    let second := "\ndefine void @g() \x7b\n\x7d"
    (ModuleSource.split ("define void @f() \x7b\n\x7d" ++ second)).functions.length = 2 ∧
      (ModuleSource.split ("define void @f() \x7b\n\x7d;" ++ second)).functions.length = 1 := by
  decide +kernel

end TestFocus
