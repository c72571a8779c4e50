import TestFocus.Module.Source
import TestFocus.Proofs.Comments.Line

namespace TestFocus

open Text Line

-- A definition, by the line of its header and the lines of its body, or a line between definitions.
inductive ModuleItem where
  | function (header : String) (body : List String)
  | line (text : String)
deriving Repr, DecidableEq

namespace ModuleItem

def lines : ModuleItem → List String
  | function header body => header :: (body ++ ["\x7d"])
  | line text => [text]

-- A header is one line with its brace, only the last line of a definition closes its body, and no
-- other line begins a definition.
def Valid : ModuleItem → Prop
  | function header body =>
    startsWith header "define " = true ∧ endsWithChar (content header) '\x7b' = true ∧
      ∀ raw ∈ body, trim raw ≠ "\x7d"
  | line text => startsWith (content text) "define" = false

instance : DecidablePred Valid := fun item =>
  match item with
  | function header body =>
    inferInstanceAs (Decidable (startsWith header "define " = true ∧
      endsWithChar (content header) '\x7b' = true ∧ ∀ raw ∈ body, trim raw ≠ "\x7d"))
  | line text => inferInstanceAs (Decidable (startsWith (content text) "define" = false))

-- A line by itself, without the characters that end one.
def IsPlain (raw : String) : Prop :=
  '\n' ∉ raw.toList ∧ '\r' ∉ raw.toList

instance : DecidablePred IsPlain := fun raw =>
  inferInstanceAs (Decidable ('\n' ∉ raw.toList ∧ '\r' ∉ raw.toList))

def layout (items : List ModuleItem) : String :=
  "\n".intercalate (items.flatMap lines)

-- The items with the numbers of their first lines.
def numbered : Nat → List ModuleItem → List (Nat × ModuleItem)
  | _, [] => []
  | number, item :: items =>
    (number, item) :: numbered (number + item.lines.length) items

def function? : Nat × ModuleItem → Option FunctionSource
  | (number, function header body) =>
    some { header := { number, text := trimEnd (trimEndChar '\x7b' (content header)) }
           body := body.mapIdx fun i text => { number := number + 1 + i, text } }
  | (_, line _) => none

-- A line between definitions, without its comment, if that satisfies `p`.
def lineOf? (p : String → Bool) : Nat × ModuleItem → Option SourceLine
  | (number, line text) =>
    if p (content text) then some { number, text := content text } else none
  | (_, function _ _) => none

def parts (items : List (Nat × ModuleItem)) : ModuleSource :=
  { aliases := items.filterMap (lineOf? ModuleSource.isAlias)
    attributeGroups := items.filterMap (lineOf? (startsWith · "attributes #"))
    functions := items.filterMap function? }

end ModuleItem

namespace Text

variable {raw : String} {raws : List String} {cs read : List Char}

theorem linesFrom_append (hcs : '\n' ∉ cs) (read rest : List Char) :
    linesFrom read (cs ++ rest) = linesFrom (cs.reverse ++ read) rest := by
  induction cs generalizing read with
  | nil => rfl
  | cons c cs ih =>
    rw [List.mem_cons, not_or] at hcs
    have hstep : linesFrom read (c :: (cs ++ rest)) = linesFrom (c :: read) (cs ++ rest) := by
      conv => lhs; unfold linesFrom
      rw [if_neg (Ne.symm hcs.1)]
    rw [List.cons_append, hstep, ih hcs.2]
    simp

-- The end of a line that has no characters of line ends within.
theorem linesFrom_newline (hraw : ModuleItem.IsPlain raw) (rest : List Char) :
    linesFrom [] (raw.toList ++ '\n' :: rest) = raw :: linesFrom [] rest := by
  rw [linesFrom_append hraw.1, List.append_nil]
  conv => lhs; unfold linesFrom
  rw [if_pos rfl]
  split
  · next before hread =>
    have hmem : '\r' ∈ raw.toList.reverse := by simp [hread]
    exact absurd (List.mem_reverse.mp hmem) hraw.2
  · simp

-- An empty last line is none.
theorem lines_intercalate (hraws : ∀ raw ∈ raws, ModuleItem.IsPlain raw) :
    lines ("\n".intercalate raws) =
      if raws.getLast? = some "" then raws.dropLast else raws := by
  have hnewline : "\n".toList = ['\n'] := rfl
  rw [lines, String.toList_intercalate, hnewline]
  induction raws with
  | nil => rfl
  | cons raw raws ih =>
    rw [List.forall_mem_cons] at hraws
    cases raws with
    | nil =>
      have hlast : linesFrom [] raw.toList = linesFrom raw.toList.reverse [] := by
        simpa using linesFrom_append hraws.1.1 [] []
      rw [List.map_singleton, List.intercalate_singleton, hlast]
      by_cases hempty : raw = ""
      · simp [hempty, linesFrom]
      · simp [hempty, linesFrom]
    | cons raw' raws =>
      have hrest := ih hraws.2
      rw [List.map_cons, List.map_cons, List.intercalate_cons_cons, List.append_assoc,
        List.singleton_append, linesFrom_newline hraws.1, ← List.map_cons, hrest,
        List.getLast?_cons_cons, List.dropLast_cons_cons]
      split <;> rfl

end Text

namespace ModuleItem

variable {header raw text : String} {body : List String}

theorem dropEndWhile_append {p : Char → Bool} {cs ds : List Char} (hds : ¬∀ c ∈ ds, p c = true) :
    dropEndWhile p (cs ++ ds) = cs ++ dropEndWhile p ds := by
  have hne : (ds.reverse.dropWhile p).isEmpty = false := by
    rw [← Bool.not_eq_true, List.isEmpty_iff, List.dropWhile_eq_nil_iff]
    simpa using hds
  simp [dropEndWhile, List.dropWhile_append, hne]

-- What makes a line a header is not cut from it.
theorem isDefinition_content (hstart : startsWith header "define " = true)
    (hend : endsWithChar (content header) '\x7b' = true) :
    ModuleSource.isDefinition (content header) = true := by
  have hdefine : "define ".toList = ['d', 'e', 'f', 'i', 'n', 'e', ' '] := rfl
  obtain ⟨rest, hrest⟩ := List.isPrefixOf_iff_prefix.mp hstart
  have hstripped : (content header).toList =
      dropEndWhile isSpace ("define ".toList ++ beforeComment false rest) := by
    have hspace : isSpace 'd' = false := rfl
    simp [content, trim, stripComment, ← hrest, hdefine, beforeComment, hspace]
  by_cases hblank : ∀ c ∈ beforeComment false rest, isSpace c = true
  · -- such a line would not end in a brace
    rw [dropEndWhile_append_of_all hblank, hdefine] at hstripped
    rw [endsWithChar, hstripped] at hend
    exact absurd hend (by decide)
  · rw [dropEndWhile_append hblank] at hstripped
    simp [ModuleSource.isDefinition, startsWith, hstripped]

theorem isDefinition_line (hline : startsWith text "define" = false) :
    ModuleSource.isDefinition text = false := by
  have hword : "define".toList <+: "define ".toList := ⟨[' '], rfl⟩
  rw [startsWith, ← Bool.not_eq_true, List.isPrefixOf_iff_prefix] at hline
  have hstart : startsWith text "define " = false := by
    rw [startsWith, ← Bool.not_eq_true, List.isPrefixOf_iff_prefix]
    exact fun hstart => hline (hword.trans hstart)
  have hne : text ≠ "define" := by
    rintro rfl
    exact hline (List.prefix_refl _)
  simp [ModuleSource.isDefinition, hstart, hne]

theorem isAlias_attributes (htext : startsWith text "attributes #" = true) :
    ModuleSource.isAlias text = false := by
  have hattributes : "attributes #".toList = 'a' :: "ttributes #".toList := rfl
  obtain ⟨rest, hrest⟩ := List.isPrefixOf_iff_prefix.mp htext
  rw [hattributes] at hrest
  simp [ModuleSource.isAlias, startsWithChar, ← hrest]

end ModuleItem

namespace ModuleSource

variable {m m' : ModuleSource}

-- The parts of one text and of another behind it.
def join (m m' : ModuleSource) : ModuleSource :=
  { aliases := m.aliases ++ m'.aliases
    attributeGroups := m.attributeGroups ++ m'.attributeGroups
    functions := m.functions ++ m'.functions }

theorem join_assoc (m m' m'' : ModuleSource) : (m.join m').join m'' = m.join (m'.join m'') := by
  simp [join]

theorem join_empty (m : ModuleSource) : m.join empty = m := by
  simp [join, empty]

open ModuleItem

-- The lines of a body up to the brace that closes it; `read` are those read before, last first.
theorem splitFrom_body (m : ModuleSource) (header : SourceLine) (read : List SourceLine)
    (number : Nat) {body : List String} (hbody : ∀ raw ∈ body, trim raw ≠ "\x7d")
    (rest : List String) :
    m.splitFrom (.body header read) number (body ++ "\x7d" :: rest) =
      (m.addFunction header
        ((body.mapIdx fun i text => { number := number + i, text }).reverse ++ read)).splitFrom
          .outside (number + body.length + 1) rest := by
  induction body generalizing read number with
  | nil =>
    have hbrace : trim "\x7d" = "\x7d" := rfl
    simp [splitFrom, add, hbrace]
  | cons raw body ih =>
    rw [List.forall_mem_cons] at hbody
    rw [List.cons_append, splitFrom, add, if_neg hbody.1]
    simp only [ih _ _ hbody.2, List.mapIdx_cons, List.reverse_cons, List.append_assoc,
      List.singleton_append, List.length_cons, Nat.add_zero, Nat.add_assoc, Nat.add_comm 1]

theorem splitFrom_item (m : ModuleSource) (number : Nat) {item : ModuleItem} (hvalid : item.Valid)
    (rest : List String) :
    m.splitFrom .outside number (item.lines ++ rest) =
      (m.join (parts [(number, item)])).splitFrom .outside (number + item.lines.length) rest := by
  cases item with
  | function header body =>
    obtain ⟨hstart, hend, hbody⟩ := hvalid
    have hplace : m.add .outside number header =
        (m, .body { number, text := content header } []) := by
      simp [add, addOutside, isDefinition_content hstart hend, Place.ofHeader, hend]
    have hparts : m.join (parts [(number, .function header body)]) =
        m.addFunction { number, text := content header }
          (body.mapIdx fun i text => { number := number + 1 + i, text }).reverse := by
      simp [join, parts, addFunction, closeHeader, List.filterMap, lineOf?, function?]
    have hlength : number + 1 + body.length + 1 = number + (body.length + 1 + 1) := by omega
    rw [ModuleItem.lines, List.cons_append, List.append_assoc, splitFrom, hplace, hparts]
    simp only [List.singleton_append, splitFrom_body m _ _ _ hbody, List.append_nil, hlength,
      List.length_cons, List.length_append, List.length_nil, Nat.zero_add]
  | line text =>
    have hdefinition := isDefinition_line hvalid
    rw [ModuleItem.lines, List.singleton_append, splitFrom]
    by_cases hgroup : startsWith (content text) "attributes #" = true
    · have halias := isAlias_attributes hgroup
      simp [add, addOutside, hdefinition, hgroup, halias, join, parts, List.filterMap, lineOf?,
        function?]
    · cases halias : isAlias (content text) <;>
        simp [add, addOutside, hdefinition, hgroup, halias, join, parts, List.filterMap, lineOf?,
          function?]

theorem parts_cons (numbered : Nat × ModuleItem) (items : List (Nat × ModuleItem)) :
    parts (numbered :: items) = (parts [numbered]).join (parts items) := by
  simp only [parts, join, ← List.filterMap_append, List.singleton_append]

theorem splitFrom_items (m : ModuleSource) (number : Nat) {items : List ModuleItem}
    (hvalid : ∀ item ∈ items, item.Valid) :
    m.splitFrom .outside number (items.flatMap ModuleItem.lines) =
      m.join (parts (numbered number items)) := by
  induction items generalizing m number with
  | nil => exact (join_empty m).symm
  | cons item items ih =>
    rw [List.forall_mem_cons] at hvalid
    rw [List.flatMap_cons, splitFrom_item m number hvalid.1, ih _ _ hvalid.2, join_assoc,
      ← parts_cons, numbered]

end ModuleSource

namespace ModuleItem

variable {items : List ModuleItem}

-- A definition ends in its brace, so that an empty last line is an item by itself.
theorem eq_append_of_getLast? (hlast : (items.flatMap lines).getLast? = some "") :
    ∃ before, items = before ++ [line ""] := by
  obtain rfl | ⟨before, item, rfl⟩ := List.eq_nil_or_concat items
  · simp at hlast
  · cases item with
    | function header body => simp [lines, List.getLast?_cons] at hlast
    | line text =>
      have htext : text = "" := by simpa [lines] using hlast
      exact ⟨before, by simp [htext]⟩

theorem parts_append (number : Nat) (items : List ModuleItem) :
    parts (numbered number (items ++ [line ""])) = parts (numbered number items) := by
  induction items generalizing number with
  | nil => rfl
  | cons item items ih =>
    rw [List.cons_append, numbered, numbered, ModuleSource.parts_cons, ih,
      ← ModuleSource.parts_cons]

theorem lines_prefix {item : ModuleItem} {number start : Nat}
    (hitem : (number, item) ∈ numbered start items) :
    start ≤ number ∧ item.lines <+: (items.flatMap lines).drop (number - start) := by
  induction items generalizing start with
  | nil => simp [numbered] at hitem
  | cons first items ih =>
    rw [numbered, List.mem_cons] at hitem
    obtain heq | hlater := hitem
    · obtain ⟨rfl, rfl⟩ := Prod.mk.inj heq
      exact ⟨Nat.le_refl _, by simp⟩
    · obtain ⟨hle, hprefix⟩ := ih hlater
      have hdrop : number - start =
          first.lines.length + (number - (start + first.lines.length)) := by omega
      refine ⟨by omega, ?_⟩
      rwa [List.flatMap_cons, hdrop, List.drop_length_add_append]

end ModuleItem

-- Every line of a part stands in the text at the number the part has for it: the lines of an item
-- are those from its number on.
theorem ModuleSource.split_layout {items : List ModuleItem} (hvalid : ∀ item ∈ items, item.Valid)
    (hplain : ∀ item ∈ items, ∀ raw ∈ item.lines, ModuleItem.IsPlain raw) :
    split (ModuleItem.layout items) = ModuleItem.parts (ModuleItem.numbered 1 items) ∧
      ∀ number item, (number, item) ∈ ModuleItem.numbered 1 items →
        1 ≤ number ∧ item.lines <+: (items.flatMap ModuleItem.lines).drop (number - 1) := by
  refine ⟨?_, fun number item hitem => ModuleItem.lines_prefix hitem⟩
  have hraws : ∀ raw ∈ items.flatMap ModuleItem.lines, ModuleItem.IsPlain raw := by
    simpa using fun raw item hitem => hplain item hitem raw
  rw [split, ModuleItem.layout, lines_intercalate hraws]
  split
  · next hlast =>
    obtain ⟨before, rfl⟩ := ModuleItem.eq_append_of_getLast? hlast
    have hbefore : ∀ item ∈ before, item.Valid := fun item hitem =>
      hvalid item (List.mem_append_left _ hitem)
    have hdrop : ((before ++ [ModuleItem.line ""]).flatMap ModuleItem.lines).dropLast =
        before.flatMap ModuleItem.lines := by
      simp [ModuleItem.lines]
    rw [hdrop, splitFrom_items _ _ hbefore, ModuleItem.parts_append]
    rfl
  · rw [splitFrom_items _ _ hvalid]
    rfl

theorem ModuleSource.split_layout_alias :
    split (ModuleItem.layout
        [.line "@g = alias i32, ptr @f ; second name",
          .function "define i32 @f() \x7b ; first" ["  ret i32 0", "  ; \x7d"],
          .line "attributes #0 = \x7b \"x\" \x7d", .line ""]) =
      { aliases := [{ number := 1, text := "@g = alias i32, ptr @f" }]
        attributeGroups := [{ number := 6, text := "attributes #0 = \x7b \"x\" \x7d" }]
        functions := [{
          header := { number := 2, text := "define i32 @f()" }
          body :=
            [{ number := 3, text := "  ret i32 0" }, { number := 4, text := "  ; \x7d" }] }] } :=
  (split_layout (by decide) (by decide)).1

end TestFocus
