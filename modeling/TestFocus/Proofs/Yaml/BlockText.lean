import TestFocus.Proofs.Yaml.Scanning

namespace TestFocus.Yaml

theorem indentLines_breaks {breaks : List Char} (h : ∀ c ∈ breaks, isBreak c) (cs : List Char) :
    indentLines true (breaks ++ cs) = breaks ++ indentLines true cs := by
  induction breaks with
  | nil => rfl
  | cons c breaks ih =>
    obtain ⟨hc, hbreaks⟩ := List.forall_mem_cons.mp h
    rw [List.cons_append, indentLines, if_pos hc, ih hbreaks, List.cons_append]

theorem indentLines_char {c : Char} (hc : isBreak c = false) (cs : List Char) :
    indentLines false (c :: cs) = c :: indentLines false cs := by
  simp [indentLines, hc]

theorem indentLines_line {line : List Char} (h : ∀ c ∈ line, isBreak c = false) (cs : List Char) :
    indentLines false (line ++ cs) = line ++ indentLines false cs := by
  induction line with
  | nil => rfl
  | cons c line ih =>
    obtain ⟨hc, hline⟩ := List.forall_mem_cons.mp h
    rw [List.cons_append, indentLines_char hc, ih hline, List.cons_append]

theorem indentLines_lineEnd {line breaks : List Char} {b : Char}
    (hline : ∀ c ∈ line, isBreak c = false) (hbreaks : ∀ c ∈ b :: breaks, isBreak c)
    (cs : List Char) :
    indentLines false (line ++ b :: (breaks ++ cs)) =
      line ++ b :: (breaks ++ indentLines true cs) := by
  obtain ⟨hb, hbreaks⟩ := List.forall_mem_cons.mp hbreaks
  rw [indentLines_line hline, indentLines, if_pos hb, indentLines_breaks hbreaks]

theorem indentLines_start {c : Char} (hc : isBreak c = false) (cs : List Char) :
    indentLines true (c :: cs) = ' ' :: ' ' :: indentLines false (c :: cs) := by
  simp [indentLines, hc]

theorem isWritable_indentLines {cs : List Char} (h : ∀ c ∈ cs, isWritable c) (atStart : Bool) :
    ∀ c ∈ indentLines atStart cs, isWritable c := by
  induction cs generalizing atStart with
  | nil => simp [indentLines]
  | cons c cs ih =>
    obtain ⟨hc, hcs⟩ := List.forall_mem_cons.mp h
    have hspace : isWritable ' ' := by decide
    rw [indentLines]
    split
    · exact List.forall_mem_cons.mpr ⟨hc, ih hcs true⟩
    split
    · exact List.forall_mem_cons.mpr ⟨hspace, List.forall_mem_cons.mpr ⟨hspace,
        List.forall_mem_cons.mpr ⟨hc, ih hcs false⟩⟩⟩
    · exact List.forall_mem_cons.mpr ⟨hc, ih hcs false⟩

theorem length_le_indentLines (atStart : Bool) (cs : List Char) :
    cs.length ≤ (indentLines atStart cs).length := by
  induction cs generalizing atStart with
  | nil => simp
  | cons c cs ih =>
    have htrue := ih true
    have hfalse := ih false
    rw [indentLines]
    split
    · simpa using htrue
    split
    · simp only [List.length_cons]
      omega
    · simpa using hfalse

theorem chompingFor_append {c : Char} (hc : isBreak c = false) (before cs : List Char) :
    chompingFor (before ++ c :: cs) = chompingFor (c :: cs) := by
  simp only [chompingFor, List.reverse_append, List.reverse_cons, List.append_assoc]
  cases cs.reverse with
  | nil => cases before.reverse <;> simp [hc]
  | cons last others => cases others <;> rfl

theorem chompingFor_breaks {breaks : List Char} (hne : breaks ≠ []) (h : ∀ c ∈ breaks, isBreak c) :
    chompingFor breaks = .keep := by
  have hreverse : ∀ c ∈ breaks.reverse, isBreak c := by simpa using h
  unfold chompingFor
  split
  · next heq => exact absurd (List.reverse_eq_nil_iff.mp heq) hne
  · next last heq => simp [hreverse last (by simp [heq])]
  · next last before others heq =>
    simp [hreverse last (by simp [heq]), hreverse before (by simp [heq])]

theorem chompingFor_line {line : List Char} {c : Char} (hc : isBreak c = false) :
    chompingFor (line ++ [c]) = .strip := by
  rw [chompingFor_append hc]
  simp [chompingFor, hc]

theorem chompingFor_end {line breaks : List Char} {c b : Char} (hc : isBreak c = false)
    (h : ∀ d ∈ b :: breaks, isBreak d) :
    chompingFor (line ++ c :: b :: breaks) = if breaks = [] then .clip else .keep := by
  rw [chompingFor_append hc]
  obtain ⟨hb, hbreaks⟩ := List.forall_mem_cons.mp h
  have hreverse : ∀ d ∈ breaks.reverse, isBreak d := by simpa using hbreaks
  simp only [chompingFor, List.reverse_cons, List.append_assoc]
  cases hlast : breaks.reverse with
  | nil => simp [List.reverse_eq_nil_iff.mp hlast, hb, hc]
  | cons last others =>
    have hne : breaks ≠ [] := by
      rintro rfl
      cases hlast
    have hlast' := hreverse last (by simp [hlast])
    cases others with
    | nil => simp [hne, hlast', hb]
    | cons before others => simp [hne, hlast', hreverse before (by simp [hlast])]

theorem blockHeader?_marks (isGiven : Bool) (chomping : Chomping) (l k : Nat) (rest : List Char) :
    blockHeader? (placeFrom l k
        ((if isGiven then ['2'] else []) ++ chomping.mark ++ '\n' :: rest)) =
      some (⟨if isGiven then some 2 else none, chomping⟩, placeFrom (l + 1) 0 rest) := by
  have hfeed (k : Nat) : placeFrom l k ('\n' :: rest) = ⟨'\n', l, k⟩ :: placeFrom (l + 1) 0 rest :=
    placeFrom_break (by decide) (by decide) l k rest
  cases isGiven <;> cases chomping <;>
    simp [Chomping.mark, placeFrom_char, hfeed, blockHeader?, blockMarks?, isBlockMark, chomping?,
      indentDigit?, skipLine?, skipBlanks, startsWith, atLineEnd, isBlank, isBreak]

theorem emptyLines_breaks {breaks : List Char} (hchars : ∀ c ∈ breaks, isWritable c)
    (h : ∀ c ∈ breaks, isBreak c) (indent : Option Nat) (deepest l : Nat) (rest : List Char) :
    emptyLines indent deepest (placeFrom l 0 (breaks ++ rest)) =
      (emptyLines indent deepest (placeFrom (l + breaks.length) 0 rest)).map
        fun (more, deepest, after) => (breaks ++ more, deepest, after) := by
  induction breaks generalizing l with
  | nil => simp
  | cons c breaks ih =>
    obtain ⟨hc, hchars⟩ := List.forall_mem_cons.mp hchars
    obtain ⟨hbreak, hbreaks⟩ := List.forall_mem_cons.mp h
    rw [List.cons_append, placeFrom_break hc hbreak, emptyLines]
    simp only [hbreak, if_true, ih hchars hbreaks, Option.map_map, List.length_cons,
      Nat.add_assoc, Nat.add_comm 1]
    rfl

theorem emptyLines_space {indent : Option Nat} {k : Nat} (hk : indent.all (k < ·))
    (deepest l : Nat) (rest : List Char) :
    emptyLines indent deepest (placeFrom l k (' ' :: rest)) =
      emptyLines indent (max deepest (k + 1)) (placeFrom l (k + 1) rest) := by
  have hspace : isBreak ' ' = false := by decide
  rw [placeFrom_char hspace, emptyLines]
  simp [hspace, hk]

-- Text starts at the indentation, or, without one to go by, where something other than a blank
-- stands.
theorem emptyLines_text {c : Char} (hc : isBreak c = false) {indent : Option Nat} {k : Nat}
    (hindent : indent = some k ∨ indent = none ∧ isBlank c = false) (deepest l : Nat)
    (rest : List Char) :
    emptyLines indent deepest (placeFrom l k (c :: rest)) =
      some ([], deepest, placeFrom l k (c :: rest)) := by
  rw [placeFrom_char hc, emptyLines]
  obtain rfl | ⟨rfl, hblank⟩ := hindent
  · simp [hc]
  · simp only [isBlank, Bool.or_eq_false_iff, beq_eq_false_iff_ne] at hblank
    simp [hc, hblank]

theorem emptyLines_line {c : Char} (hc : isBreak c = false) {indent : Option Nat}
    (hindent : indent = some 2 ∨ indent = none ∧ isBlank c = false) (deepest l : Nat)
    (rest : List Char) :
    emptyLines indent deepest (placeFrom l 0 (' ' :: ' ' :: c :: rest)) =
      some ([], max deepest 2, placeFrom l 2 (c :: rest)) := by
  have hwithin (k : Nat) (hk : k < 2) : indent.all (k < ·) := by
    obtain rfl | ⟨rfl, -⟩ := hindent
    · simpa using hk
    · rfl
  rw [emptyLines_space (hwithin 0 (by decide)), emptyLines_space (hwithin 1 (by decide)),
    emptyLines_text hc hindent, show max (max deepest (0 + 1)) (1 + 1) = max deepest 2 by omega]

theorem emptyLines_end {rest : List Char} (hrest : EndsEntry rest) (deepest l : Nat) :
    emptyLines (some 2) deepest (placeFrom l 0 rest) = some ([], deepest, placeFrom l 0 rest) := by
  cases rest with
  | nil => simp [placeFrom, emptyLines]
  | cons c rest =>
    have hgap := not_isGapChar_of_isKeyChar (hrest c (by simp))
    simp only [isGapChar, isBlank, Bool.or_eq_false_iff, beq_eq_false_iff_ne] at hgap
    rw [placeFrom_char hgap.2, emptyLines]
    simp [hgap]

theorem blockLines_end {rest : List Char} (hrest : EndsEntry rest) (rounds l : Nat) :
    blockLines 2 rounds (placeFrom l 0 rest) = some ([], placeFrom l 0 rest) := by
  cases rounds with
  | zero => rfl
  | succ rounds =>
    cases rest with
    | nil => rfl
    | cons c rest =>
      have hgap := not_isGapChar_of_isKeyChar (hrest c (by simp))
      rw [placeFrom_char (Bool.or_eq_false_iff.mp hgap).2]
      rfl

-- What ends the last line of a value: its own last line end, or else a line feed.
def lineEndAfter (cs : List Char) : List Char :=
  if cs.getLast?.any isBreak then [] else ['\n']

-- Characters of one line.
structure IsLine (cs : List Char) : Prop where
  ne_nil : cs ≠ []
  not_isBreak : ∀ c ∈ cs, isBreak c = false

-- Lines with text, and the line ends between them and after the last one.
inductive IsLines : List Char → Prop
  | unended {line : List Char} (hline : IsLine line) : IsLines line
  | ended {line breaks : List Char} {b : Char} (hline : IsLine line)
      (hbreaks : ∀ c ∈ b :: breaks, isBreak c) : IsLines (line ++ b :: breaks)
  | more {line breaks cs : List Char} {b : Char} (hline : IsLine line)
      (hbreaks : ∀ c ∈ b :: breaks, isBreak c) (hcs : IsLines cs) :
      IsLines (line ++ b :: (breaks ++ cs))

theorem IsLine.exists_cons {line : List Char} (h : IsLine line) :
    ∃ c cs, line = c :: cs ∧ isBreak c = false := by
  cases line with
  | nil => exact absurd rfl h.ne_nil
  | cons c cs => exact ⟨c, cs, rfl, h.not_isBreak c (by simp)⟩

theorem IsLines.exists_cons {cs : List Char} (h : IsLines cs) :
    ∃ c rest, cs = c :: rest ∧ isBreak c = false := by
  cases h with
  | unended hline => exact hline.exists_cons
  | ended hline | more hline =>
    obtain ⟨c, line, rfl, hc⟩ := hline.exists_cons
    exact ⟨c, _, rfl, hc⟩

theorem exists_append (p : Char → Bool) (cs : List Char) :
    ∃ first rest, cs = first ++ rest ∧ (∀ c ∈ first, p c) ∧ ∀ c ∈ rest.head?, p c = false := by
  induction cs with
  | nil => exact ⟨[], [], rfl, by simp, by simp⟩
  | cons c cs ih =>
    cases hc : p c with
    | false => exact ⟨[], c :: cs, rfl, by simp, by simpa using hc⟩
    | true =>
      obtain ⟨first, rest, rfl, hfirst, hrest⟩ := ih
      exact ⟨c :: first, rest, rfl, List.forall_mem_cons.mpr ⟨hc, hfirst⟩, hrest⟩

theorem isLines_of_head {c : Char} {cs : List Char} (hc : isBreak c = false) :
    IsLines (c :: cs) := by
  induction hlength : cs.length using Nat.strongRecOn generalizing c cs with
  | ind n ih =>
    obtain ⟨first, tail, rfl, hfirst, htail⟩ := exists_append (fun d => !isBreak d) cs
    have hline : IsLine (c :: first) :=
      ⟨by simp, List.forall_mem_cons.mpr ⟨hc, by simpa using hfirst⟩⟩
    cases tail with
    | nil =>
      rw [List.append_nil]
      exact .unended hline
    | cons b tail =>
      obtain ⟨breaks, next, rfl, hbreaks, hnext⟩ := exists_append isBreak tail
      have hbreaks : ∀ d ∈ b :: breaks, isBreak d :=
        List.forall_mem_cons.mpr ⟨by simpa using htail b rfl, hbreaks⟩
      cases next with
      | nil =>
        rw [List.append_nil]
        exact .ended hline hbreaks
      | cons d next =>
        have hshorter : next.length < n := by
          simp only [List.length_cons, List.length_append] at hlength
          omega
        exact .more hline hbreaks (ih next.length hshorter (hnext d rfl) rfl)

theorem takeWhile_placeFrom {line : List Char} (h : ∀ c ∈ line, isBreak c = false) {b : Char}
    (hb : isWritable b) (hbreak : isBreak b) (l k : Nat) (rest : List Char) :
    ((placeFrom l k (line ++ b :: rest)).takeWhile fun p => !isBreak p.char).map (·.char) = line ∧
      ∃ k', skipToLineEnd (placeFrom l k (line ++ b :: rest)) =
        ⟨b, l, k'⟩ :: placeFrom (l + 1) 0 rest := by
  induction line generalizing k with
  | nil =>
    rw [List.nil_append, placeFrom_break hb hbreak]
    exact ⟨by simp [hbreak], k, by simp [skipToLineEnd, hbreak]⟩
  | cons c line ih =>
    obtain ⟨hc, hline⟩ := List.forall_mem_cons.mp h
    obtain ⟨htake, k', hskip⟩ := ih hline (k + 1)
    rw [List.cons_append, placeFrom_char hc]
    exact ⟨by simp [hc, htake], k', by simpa [skipToLineEnd, hc] using hskip⟩

theorem blockLines_line {line : List Char} (hline : IsLine line) {b : Char} (hb : isWritable b)
    (hbreak : isBreak b) (rounds l : Nat) (rest : List Char) :
    blockLines 2 (rounds + 1) (placeFrom l 2 (line ++ b :: rest)) =
      (emptyLines (some 2) 0 (placeFrom (l + 1) 0 rest)).bind fun (more, _, after) =>
        (blockLines 2 rounds after).map fun (lines, after) =>
          ({ text := line, lineEnd := some b, more } :: lines, after) := by
  obtain ⟨htake, k', hskip⟩ := takeWhile_placeFrom hline.not_isBreak hb hbreak l 2 rest
  have hhead : (placeFrom l 2 (line ++ b :: rest)).head?.any (·.column == 2) = true := by
    obtain ⟨c, cs, rfl, hc⟩ := hline.exists_cons
    rw [List.cons_append, placeFrom_char hc]
    rfl
  rw [blockLines, if_neg (by simp [hhead])]
  simp [htake, hskip]

theorem lineEndAfter_append {cs : List Char} (hne : cs ≠ []) (before : List Char) :
    lineEndAfter (before ++ cs) = lineEndAfter cs := by
  rw [lineEndAfter, lineEndAfter, List.getLast?_append]
  simp [List.getLast?_eq_some_getLast hne]

theorem IsLine.exists_last {line : List Char} (h : IsLine line) :
    ∃ init c, line = init ++ [c] ∧ isBreak c = false :=
  ⟨_, _, (List.dropLast_concat_getLast h.ne_nil).symm, h.not_isBreak _ (List.getLast_mem h.ne_nil)⟩

theorem IsLine.lineEndAfter {line : List Char} (h : IsLine line) : lineEndAfter line = ['\n'] := by
  obtain ⟨init, c, rfl, hc⟩ := h.exists_last
  simp [Yaml.lineEndAfter, hc]

theorem lineEndAfter_breaks {breaks : List Char} {b : Char} (h : ∀ c ∈ b :: breaks, isBreak c)
    (before : List Char) : lineEndAfter (before ++ b :: breaks) = [] := by
  have hne : b :: breaks ≠ [] := by simp
  have hlast := h _ (List.getLast_mem hne)
  rw [lineEndAfter_append hne, lineEndAfter, List.getLast?_eq_some_getLast hne,
    if_pos (by simpa using hlast)]

theorem IsLine.chompingFor {line : List Char} (h : IsLine line) : chompingFor line = .strip := by
  obtain ⟨init, c, rfl, hc⟩ := h.exists_last
  exact chompingFor_line hc

-- Behind the last line with text, the line ends that the header lets stand are those of the text.
theorem IsLine.chomped {line breaks : List Char} (hline : IsLine line) {b : Char}
    (hbreaks : ∀ c ∈ b :: breaks, isBreak c) :
    BlockLine.chomped (Yaml.chompingFor (line ++ b :: breaks))
      { text := line, lineEnd := some b, more := breaks } = b :: breaks := by
  obtain ⟨init, c, rfl, hc⟩ := hline.exists_last
  rw [List.append_assoc, List.singleton_append, chompingFor_end hc hbreaks]
  split
  · next hnil => simp [BlockLine.chomped, hnil]
  · rfl

theorem blockLines_written {cs : List Char} (h : IsLines cs) (hchars : ∀ c ∈ cs, isWritable c)
    (rounds : Nat) (hrounds : cs.length ≤ rounds) {rest : List Char} (hrest : EndsEntry rest)
    (l : Nat) :
    ∃ lines l', blockLines 2 rounds
        (placeFrom l 2 (indentLines false cs ++ (lineEndAfter cs ++ rest))) =
      some (lines, placeFrom l' 0 rest) ∧ lines ≠ [] ∧
        joinLines false (chompingFor cs) lines = cs := by
  -- one round for each line with text; the line ends below it are skipped within the round
  induction h generalizing rounds l with
  | @unended line hline =>
    have hpos := List.length_pos_iff.mpr hline.ne_nil
    obtain ⟨rounds, rfl⟩ := Nat.exists_eq_add_one_of_ne_zero (show rounds ≠ 0 by omega)
    have hindent := indentLines_line hline.not_isBreak []
    rw [List.append_nil] at hindent
    refine ⟨[{ text := line, lineEnd := some '\n', more := [] }], l + 1, ?_, by simp, ?_⟩
    · rw [hindent, hline.lineEndAfter, List.singleton_append, indentLines, List.append_nil,
        blockLines_line hline (by decide) (by decide), emptyLines_end hrest]
      simp [blockLines_end hrest]
    · simp [hline.chompingFor, joinLines, BlockLine.chomped]
  | @ended line breaks b hline hbreaks =>
    have hpos := List.length_pos_iff.mpr hline.ne_nil
    simp only [List.length_append] at hrounds
    obtain ⟨rounds, rfl⟩ := Nat.exists_eq_add_one_of_ne_zero (show rounds ≠ 0 by omega)
    obtain ⟨hb, hbreaks'⟩ := List.forall_mem_cons.mp hbreaks
    have hindent := indentLines_lineEnd hline.not_isBreak hbreaks []
    rw [List.append_nil, indentLines, List.append_nil] at hindent
    have hempty := emptyLines_breaks (fun c hc => hchars c (by simp [hc])) hbreaks' (some 2) 0
      (l + 1) rest
    rw [emptyLines_end hrest] at hempty
    refine ⟨[{ text := line, lineEnd := some b, more := breaks }], l + 1 + breaks.length, ?_,
      by simp, ?_⟩
    · rw [hindent, lineEndAfter_breaks hbreaks, List.nil_append, List.append_assoc,
        List.cons_append, blockLines_line hline (hchars b (by simp)) hb, hempty]
      simp [blockLines_end hrest]
    · rw [joinLines, hline.chomped hbreaks]
  | @more line breaks cs b hline hbreaks hcs ih =>
    obtain ⟨hb, hbreaks'⟩ := List.forall_mem_cons.mp hbreaks
    obtain ⟨c, next, rfl, hc⟩ := hcs.exists_cons
    have hpos := List.length_pos_iff.mpr hline.ne_nil
    simp only [List.length_append, List.length_cons] at hrounds ih
    obtain ⟨rounds, rfl⟩ := Nat.exists_eq_add_one_of_ne_zero (show rounds ≠ 0 by omega)
    have hfirst := indentLines_char hc next
    have hempty := emptyLines_breaks (fun c hc => hchars c (by simp [hc])) hbreaks' (some 2) 0
      (l + 1) (' ' :: ' ' :: indentLines false (c :: next) ++ (lineEndAfter (c :: next) ++ rest))
    rw [hfirst, List.cons_append, List.cons_append, List.cons_append,
      emptyLines_line hc (.inl rfl)] at hempty
    obtain ⟨lines, l', hlines, hne, hjoin⟩ := ih (fun d hd => hchars d (by simp at hd; simp [hd]))
      rounds (by omega) (l + 1 + breaks.length)
    have hsplit : line ++ b :: (breaks ++ c :: next) = line ++ b :: breaks ++ c :: next := by simp
    refine ⟨{ text := line, lineEnd := some b, more := breaks } :: lines, l', ?_, by simp, ?_⟩
    · rw [indentLines_lineEnd hline.not_isBreak hbreaks, indentLines_start hc, hsplit,
        lineEndAfter_append (by simp), List.append_assoc, List.cons_append, List.append_assoc,
        blockLines_line hline (hchars b (by simp)) hb, hfirst, List.cons_append, List.cons_append,
        List.cons_append, hempty]
      rw [hfirst, List.cons_append] at hlines
      simp [hlines]
    · rw [hsplit, chompingFor_append hc]
      cases lines with
      | nil => exact absurd rfl hne
      | cons second lines => simp [joinLines, between, hjoin]

theorem readBlock_breaks {breaks : List Char} (hne : breaks ≠ [])
    (hchars : ∀ c ∈ breaks, isWritable c) (hbreaks : ∀ c ∈ breaks, isBreak c) {rest : List Char}
    (hrest : EndsEntry rest) (l k : Nat) :
    ∃ l', readBlock false (some 0) (placeFrom l k (indentMark breaks ++ (chompingFor breaks).mark ++
        '\n' :: (indentLines true breaks ++ (lineEndAfter breaks ++ rest)))) =
      some (String.ofList breaks, placeFrom l' 0 rest) := by
  have hmark : indentMark breaks = if true then ['2'] else [] := by
    cases breaks with
    | nil => exact absurd rfl hne
    | cons b breaks => simp [indentMark, hbreaks b (by simp)]
  have hindent := indentLines_breaks hbreaks []
  rw [List.append_nil, indentLines, List.append_nil] at hindent
  have hend : lineEndAfter breaks = [] := by
    cases breaks with
    | nil => exact absurd rfl hne
    | cons b breaks => exact lineEndAfter_breaks hbreaks []
  have hempty := emptyLines_breaks hchars hbreaks (some 2) 0 (l + 1) rest
  rw [emptyLines_end hrest] at hempty
  refine ⟨l + 1 + breaks.length, ?_⟩
  rw [readBlock, hmark, blockHeader?_marks, hindent, hend, List.nil_append]
  simp [blockIndent, hempty, blockLines_end hrest, chompingFor_breaks hne hbreaks, joinLines]

-- The header says how deep the lines stand unless the first of them shows it.
theorem indentMark_cases {breaks next : List Char} {c : Char} (hc : isBreak c = false)
    (hchars : ∀ d ∈ c :: next, isWritable d) (hbreaks : ∀ b ∈ breaks, isBreak b) :
    ∃ isGiven : Bool, indentMark (breaks ++ c :: next) = (if isGiven then ['2'] else []) ∧
      (isGiven = false → isBlank c = false) := by
  refine ⟨(breaks ++ c :: next).head?.any fun c => c == ' ' || isBreak c, rfl, fun hgiven => ?_⟩
  cases breaks with
  | nil =>
    have htab : c ≠ '\t' := by
      rintro rfl
      exact absurd (hchars '\t' (by simp)) (by decide)
    simpa [isBlank, htab, hc] using hgiven
  | cons b breaks => simp [hbreaks b (by simp)] at hgiven

theorem readBlock_lines {breaks next : List Char} {c : Char} (hc : isBreak c = false)
    (hchars : ∀ d ∈ breaks ++ c :: next, isWritable d) (hbreaks : ∀ c ∈ breaks, isBreak c)
    {rest : List Char} (hrest : EndsEntry rest) (l k : Nat) :
    ∃ l', readBlock false (some 0) (placeFrom l k (indentMark (breaks ++ c :: next) ++
        (chompingFor (breaks ++ c :: next)).mark ++ '\n' ::
          (indentLines true (breaks ++ c :: next) ++
            (lineEndAfter (breaks ++ c :: next) ++ rest)))) =
      some (String.ofList (breaks ++ c :: next), placeFrom l' 0 rest) := by
  have htail : ∀ d ∈ c :: next, isWritable d := fun d hd => hchars d (List.mem_append_right _ hd)
  have hfirst := indentLines_char hc next
  obtain ⟨isGiven, hmark, hindent⟩ := indentMark_cases hc htail hbreaks
  obtain ⟨depth, hdepth'⟩ : ∃ depth, (if isGiven then some 2 else none) = depth := ⟨_, rfl⟩
  have hdepth : depth = some 2 ∨ depth = none ∧ isBlank c = false := by
    cases isGiven with
    | true => exact .inl hdepth'.symm
    | false => exact .inr ⟨hdepth'.symm, hindent rfl⟩
  have hgiven : depth.map (fun d => blockIndent (some 0) (some d) 0) = depth := by
    obtain rfl | ⟨rfl, -⟩ := hdepth <;> rfl
  have htwo : blockIndent (some 0) depth 2 = 2 := by
    obtain rfl | ⟨rfl, -⟩ := hdepth <;> rfl
  have hempty : emptyLines depth 0 (placeFrom (l + 1) 0 (breaks ++ ' ' :: ' ' ::
        (indentLines false (c :: next) ++ (lineEndAfter (c :: next) ++ rest)))) =
      some (breaks, 2, placeFrom (l + 1 + breaks.length) 2
        (indentLines false (c :: next) ++ (lineEndAfter (c :: next) ++ rest))) := by
    rw [emptyLines_breaks (fun d hd => hchars d (List.mem_append_left _ hd)) hbreaks, hfirst,
      List.cons_append, emptyLines_line hc hdepth]
    simp
  have hlength : (c :: next).length ≤ (placeFrom (l + 1 + breaks.length) 2
      (indentLines false (c :: next) ++ (lineEndAfter (c :: next) ++ rest))).length :=
    Nat.le_trans (length_le_indentLines false _)
      (le_length_placeFrom (isWritable_indentLines htail false) _ _ _)
  obtain ⟨lines, l', hlines, hne, hjoin⟩ := blockLines_written (isLines_of_head hc) htail _
    (Nat.le_succ_of_le hlength) hrest (l + 1 + breaks.length)
  refine ⟨l', ?_⟩
  rw [readBlock, hmark, blockHeader?_marks, hdepth', indentLines_breaks hbreaks,
    indentLines_start hc, lineEndAfter_append (by simp), chompingFor_append hc]
  simp only [Option.bind_some, List.append_assoc, List.cons_append]
  rw [hgiven, hempty, Option.bind_some]
  simp only [htwo, hlines, Option.map_some]
  rw [if_neg (by simp [hne]), hjoin]

theorem nodeToken?_literal {s : Scan} (hs : s.layout.isBraces = false) (hkey : s.keyStart = none)
    (l k : Nat) {rest after : List Placed} {text : String}
    (hread : readBlock false s.layout.column? rest = some (text, after)) :
    nodeToken? s ⟨'|', l, k⟩ rest =
      some ((s.allowKey true).emit (.scalar text .literal), after) := by
  simp [nodeToken?, hs, Scan.dropKey?, hkey, hread, Scan.allowKey, Scan.emit]

theorem readsAs_literalBlock {text : String} (hchars : ∀ c ∈ text.toList, isWritable c)
    (hne : text.toList ≠ []) :
    ReadsAs ((literalBlock text).toList ++ lineEndAfter text.toList) text .literal := by
  intro n l k tokens rest hk hrest
  have hwritten : (literalBlock text).toList = '|' :: (indentMark text.toList ++
      (chompingFor text.toList).mark ++ '\n' :: indentLines true text.toList) := by
    simp [literalBlock]
  have hread : ∃ l', readBlock false (some 0) (placeFrom l (k + 1) (indentMark text.toList ++
      (chompingFor text.toList).mark ++ '\n' :: (indentLines true text.toList ++
        (lineEndAfter text.toList ++ rest)))) = some (text, placeFrom l' 0 rest) := by
    obtain ⟨breaks, next, heq, hbreaks, hnext⟩ := exists_append isBreak text.toList
    have htext : String.ofList text.toList = text := String.ofList_toList
    rw [← htext]
    rw [heq] at hne hchars
    simp only [String.toList_ofList, heq]
    cases next with
    | nil =>
      rw [List.append_nil] at hne hchars ⊢
      exact readBlock_breaks hne hchars hbreaks hrest l (k + 1)
    | cons c next => exact readBlock_lines (hnext c rfl) hchars hbreaks hrest l (k + 1)
  obtain ⟨l', hread⟩ := hread
  refine ⟨l', ?_⟩
  have hnode := nodeToken?_literal (s := .inValue tokens) rfl rfl l k hread
  rw [hwritten]
  simp only [List.cons_append, List.append_assoc] at hnode ⊢
  rw [placeFrom_char (by decide), tokensFrom_value (by decide) (by decide) hk (by simp), hnode]
  rfl

end TestFocus.Yaml
