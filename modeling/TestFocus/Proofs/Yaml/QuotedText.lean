import TestFocus.Proofs.Yaml.Scanning
import Mathlib.Algebra.GroupWithZero.Nat

namespace TestFocus.Yaml

-- A quoted text that is read up to the line end behind its closing quote is the value of its entry.
theorem readsAs_quoted {q : Char} (hq : isQuote q) {chars : List Char} {text : String}
    (hread : ∀ (l k : Nat) (rest : List Char), 0 < k → ∃ l' k',
      readQuoted (placeFrom l k (q :: (chars ++ '\n' :: rest))) =
        some (text, placeFrom l' k' ('\n' :: rest))) :
    ReadsAs (q :: chars ++ ['\n']) text .quoted := by
  intro n l k tokens rest hk hrest
  obtain ⟨l', k', hread⟩ := hread l k rest hk
  refine ⟨l' + 1, ?_⟩
  have hq' : q = '"' ∨ q = '\x27' := by simpa [isQuote] using hq
  have hbreak : isBreak q = false := by obtain rfl | rfl := hq' <;> decide
  rw [List.append_assoc, List.cons_append, List.singleton_append]
  rw [placeFrom_char hbreak] at hread ⊢
  rw [tokensFrom_value (by obtain rfl | rfl := hq' <;> decide)
    (by obtain rfl | rfl := hq' <;> decide) hk
    (fun hmem => by obtain rfl | rfl := hq' <;> exact absurd hmem (by decide))]
  have hnode : nodeToken? (.inValue tokens) ⟨q, l, k⟩
      (placeFrom l (k + 1) (chars ++ '\n' :: rest)) =
        some ((Scan.inValue tokens).emit (.scalar text .quoted),
          placeFrom l' k' ('\n' :: rest)) := by
    obtain rfl | rfl := hq' <;>
      simp [nodeToken?, hread, isQuote, Scan.startNode?, Scan.inValue, Layout.isBraces]
  rw [hnode, placeFrom_break (by decide) (by decide), Option.bind_some]
  exact tokensFrom_lineEnd n rfl ..

theorem hasAdjacent_cons {p q : Char → Bool} {c : Char} {cs : List Char}
    (h : hasAdjacent p q (c :: cs) = false) :
    (p c → ∀ d ∈ cs.head?, q d = false) ∧ hasAdjacent p q cs = false := by
  cases cs with
  | nil => exact ⟨by simp, rfl⟩
  | cons d cs =>
    simp only [hasAdjacent, Bool.or_eq_false_iff, Bool.and_eq_false_iff] at h
    obtain ⟨hadjacent, hrest⟩ := h
    refine ⟨fun hc e he => ?_, hrest⟩
    cases Option.mem_some_iff.mp he
    exact hadjacent.resolve_left (by simp [hc])

-- A quote is written twice.
def writtenInQuotes (c : Char) : List Char :=
  if c == '\x27' then ['\x27', '\x27'] else [c]

theorem singleQuotedFrom_gap {c : Char} (hc : isGapChar c) (read : List Char) (gap : Gap)
    (l k : Nat) (rest : List Placed) :
    singleQuotedFrom read gap (⟨c, l, k⟩ :: rest) = singleQuotedFrom read (gap.push c) rest := by
  rw [singleQuotedFrom]
  exact if_pos hc

theorem singleQuotedFrom_char {c : Char} (hblank : isBlank c = false) (hbreak : isBreak c = false)
    (read : List Char) (gap : Gap) (l : Nat) {k : Nat} (hk : 0 < k) (rest : List Char) :
    singleQuotedFrom read gap (placeFrom l k (writtenInQuotes c ++ rest)) =
      singleQuotedFrom (c :: (gap.text.reverse ++ read)) .empty
        (placeFrom l (k + (writtenInQuotes c).length) rest) := by
  unfold writtenInQuotes
  split
  · next hquote =>
    cases beq_iff_eq.mp hquote
    rw [List.cons_append, List.singleton_append, placeFrom_char (by decide),
      placeFrom_char (by decide), singleQuotedFrom]
    simp [isBlank, isBreak, isDocumentMark_of_column hk]
  · next hquote =>
    rw [List.singleton_append, placeFrom_char hbreak, singleQuotedFrom]
    simp [hblank, hbreak, isDocumentMark_of_column hk, hquote]

theorem singleQuotedFrom_close (read : List Char) (gap : Gap) (l : Nat) {k : Nat} (hk : 0 < k)
    (rest : List Char) :
    singleQuotedFrom read gap (placeFrom l k ('\x27' :: '\n' :: rest)) =
      some (String.ofList (read.reverse ++ gap.text), placeFrom l (k + 1) ('\n' :: rest)) := by
  rw [placeFrom_char (by decide), placeFrom_break (by decide) (by decide), singleQuotedFrom]
  simp [isBlank, isBreak, isDocumentMark_of_column hk]

theorem singleQuotedLines_char {c : Char} (hc : isBreak c = false) (atStart : Bool)
    (cs : List Char) :
    singleQuotedLines atStart (c :: cs) =
      (if atStart then [' ', ' '] else []) ++
        (writtenInQuotes c ++ singleQuotedLines false cs) := by
  rw [singleQuotedLines, if_neg (by simp [hc])]
  cases atStart <;> rfl

-- What a gap in front of `cs` can be: blanks that no line end follows, or, where a line starts,
-- line ends that no space follows. None of the line ends is a line feed, which would be folded.
def FitsGap (atStart : Bool) (cs : List Char) : Gap → Prop
  | .blanks read => atStart = false ∧ ∀ c ∈ cs.head?, isBreak c → read = []
  | .broken first _ => atStart = true ∧ (∃ c, first = some c ∧ c ≠ '\n') ∧ cs.head? ≠ some ' '

theorem Gap.text_broken {c : Char} (hc : c ≠ '\n') (more : List Char) :
    (Gap.broken (some c) more).text = c :: more.reverse := by
  unfold Gap.text
  split
  · next heq => cases heq
  · next heq =>
    cases heq
    exact absurd rfl hc
  · next heq =>
    cases heq
    exact absurd rfl hc
  · next heq =>
    cases heq
    rfl

theorem FitsGap.push {atStart : Bool} {c : Char} {cs : List Char} {gap : Gap}
    (h : FitsGap atStart (c :: cs) gap) (hc : c ≠ '\n')
    (hblank : isBreak c = false → atStart = false ∧ ∀ d ∈ cs.head?, isBreak d = false)
    (hbreak : isBreak c → cs.head? ≠ some ' ') :
    FitsGap (isBreak c) cs (gap.push c) ∧ (gap.push c).text = gap.text ++ [c] := by
  cases gap with
  | blanks read =>
    obtain ⟨-, hread⟩ := h
    cases hc' : isBreak c with
    | false =>
      simp only [Gap.push, hc', Bool.false_eq_true, if_false]
      have hnext := (hblank hc').2
      refine ⟨⟨rfl, fun d hd hd' => ?_⟩, by simp [Gap.text]⟩
      rw [hnext d hd] at hd'
      cases hd'
    | true =>
      cases hread c rfl hc'
      simp only [Gap.push, hc', if_true, Gap.text_broken hc]
      exact ⟨⟨rfl, ⟨c, rfl, hc⟩, hbreak hc'⟩, rfl⟩
  | broken first more =>
    obtain ⟨rfl, ⟨first, rfl, hfirst⟩, -⟩ := h
    cases hc' : isBreak c with
    | false => exact absurd (hblank hc').1 (by simp)
    | true =>
      simp only [Gap.push, hc', if_true, Gap.text_broken hfirst]
      exact ⟨⟨rfl, ⟨first, rfl, hfirst⟩, hbreak hc'⟩, by simp⟩

-- The indentation of a line belongs to the gap that crosses the line end.
theorem FitsGap.singleQuotedFrom_start {atStart : Bool} {cs : List Char} {gap : Gap}
    (h : FitsGap atStart cs gap) (read : List Char) (l : Nat) {k : Nat}
    (hk : atStart = false → 0 < k) :
    ∃ k', 0 < k' ∧ ∀ rest,
      singleQuotedFrom read gap
          (placeFrom l k ((if atStart then [' ', ' '] else []) ++ rest)) =
        singleQuotedFrom read gap (placeFrom l k' rest) := by
  cases gap with
  | blanks =>
    obtain ⟨rfl, -⟩ := h
    exact ⟨k, hk rfl, fun rest => rfl⟩
  | broken first more =>
    obtain ⟨rfl, -⟩ := h
    refine ⟨k + 2, by omega, fun rest => ?_⟩
    rw [if_pos rfl, List.cons_append, List.cons_append, List.nil_append,
      placeFrom_char (by decide), placeFrom_char (by decide), singleQuotedFrom, singleQuotedFrom]
    simp [isBlank, isBreak, Gap.push]

theorem singleQuotedFrom_lines {cs : List Char} (hchars : ∀ c ∈ cs, isWritable c ∧ c ≠ '\n')
    (hbefore : hasAdjacent isSpaceChar isBreak cs = false)
    (hbehind : hasAdjacent isBreak isSpaceChar cs = false) {atStart : Bool} {gap : Gap}
    (hgap : FitsGap atStart cs gap) (read : List Char) (l : Nat) {k : Nat}
    (hk : atStart = false → 0 < k) (rest : List Char) :
    ∃ l' k', singleQuotedFrom read gap
        (placeFrom l k (singleQuotedLines atStart cs ++ '\x27' :: '\n' :: rest)) =
      some (String.ofList (read.reverse ++ (gap.text ++ cs)), placeFrom l' k' ('\n' :: rest)) := by
  induction cs generalizing atStart gap read l k with
  | nil =>
    obtain ⟨k', hk', hstart⟩ := hgap.singleQuotedFrom_start read l hk
    refine ⟨l, k' + 1, ?_⟩
    rw [singleQuotedLines, hstart, singleQuotedFrom_close read gap l hk', List.append_nil]
  | cons c cs ih =>
    obtain ⟨⟨hc, hfeed⟩, hchars'⟩ := List.forall_mem_cons.mp hchars
    obtain ⟨hspace, hbefore'⟩ := hasAdjacent_cons hbefore
    obtain ⟨hline, hbehind'⟩ := hasAdjacent_cons hbehind
    have hpush := hgap.push hfeed
    have hline' : isBreak c → cs.head? ≠ some ' ' :=
      fun hbreak heq => absurd (hline hbreak ' ' heq) (by decide)
    -- line ends and blanks go on with the gap, any other character ends it
    cases hbreak : isBreak c with
    | true =>
      obtain ⟨hgap', htext⟩ := hpush (by simp [hbreak]) hline'
      rw [hbreak] at hgap'
      obtain ⟨l', k', hread⟩ := ih hchars' hbefore' hbehind' hgap' read (l + 1) (k := 0) (by simp)
      refine ⟨l', k', ?_⟩
      rw [singleQuotedLines, if_pos hbreak, List.cons_append, placeFrom_break hc hbreak,
        singleQuotedFrom_gap (by simp [isGapChar, hbreak]), hread, htext, List.append_assoc,
        List.singleton_append]
    | false =>
      rw [singleQuotedLines_char hbreak]
      by_cases hblank : c = ' '
      · subst hblank
        have hstart : atStart = false := by
          cases gap with
          | blanks => exact hgap.1
          | broken => exact absurd rfl hgap.2.2
        subst hstart
        obtain ⟨hgap', htext⟩ := hpush (fun _ => ⟨rfl, hspace rfl⟩) hline'
        rw [hbreak] at hgap'
        obtain ⟨l', k', hread⟩ := ih hchars' hbefore' hbehind' hgap' read l (fun _ => k.succ_pos)
        refine ⟨l', k', ?_⟩
        have hwritten : writtenInQuotes ' ' = [' '] := rfl
        rw [if_neg (by simp), hwritten, List.nil_append, List.singleton_append, List.cons_append,
          placeFrom_char hbreak, singleQuotedFrom_gap (by decide), hread, htext,
          List.append_assoc, List.singleton_append]
      · have hblank' : isBlank c = false := by
          have htab : c ≠ '\t' := by
            rintro rfl
            exact absurd hc (by decide)
          simp [isBlank, hblank, htab]
        obtain ⟨k₁, hk₁, hstart⟩ := hgap.singleQuotedFrom_start read l hk
        have hempty : FitsGap false cs .empty := ⟨rfl, fun _ _ _ => rfl⟩
        obtain ⟨l', k', hread⟩ := ih hchars' hbefore' hbehind' hempty
          (c :: (gap.text.reverse ++ read)) l (k := k₁ + (writtenInQuotes c).length)
          (fun _ => by omega)
        refine ⟨l', k', ?_⟩
        rw [List.append_assoc, List.append_assoc, hstart,
          singleQuotedFrom_char hblank' hbreak _ _ _ hk₁, hread]
        simp [Gap.empty, Gap.text]

theorem readsAs_singleQuoted {text : String} (hchars : ∀ c ∈ text.toList, isWritable c ∧ c ≠ '\n')
    (h : isSingleQuotable text.toList) :
    ReadsAs ((singleQuoted text).toList ++ ['\n']) text .quoted := by
  simp only [isSingleQuotable, Bool.and_eq_true, Bool.not_eq_true'] at h
  obtain ⟨⟨-, hbefore⟩, hbehind⟩ := h
  have hwritten : (singleQuoted text).toList =
      '\x27' :: (singleQuotedLines false text.toList ++ ['\x27']) := by
    simp [singleQuoted]
  rw [hwritten]
  refine readsAs_quoted (by decide) fun l k rest hk => ?_
  have hgap : FitsGap false text.toList .empty := ⟨rfl, fun _ _ _ => rfl⟩
  obtain ⟨l', k', hread⟩ := singleQuotedFrom_lines hchars hbefore hbehind hgap [] l
    (k := k + 1) (fun _ => k.succ_pos) rest
  refine ⟨l', k', ?_⟩
  rw [placeFrom_char (by decide), readQuoted]
  simpa [Gap.empty, Gap.text] using hread

theorem doubleQuotedFrom_close (read blanks : List Char) (l : Nat) {k : Nat} (hk : 0 < k)
    (rest : List Char) :
    doubleQuotedFrom read (.blanks blanks) (placeFrom l k ('"' :: rest)) =
      some (String.ofList (read.reverse ++ blanks.reverse), placeFrom l (k + 1) rest) := by
  rw [placeFrom_char (by decide), doubleQuotedFrom]
  simp [isBlank, isBreak, isDocumentMark_of_column hk, Gap.text]

theorem doubleQuotedFrom_space (read blanks : List Char) (l k : Nat) (rest : List Char) :
    doubleQuotedFrom read (.blanks blanks) (placeFrom l k (' ' :: rest)) =
      doubleQuotedFrom read (.blanks (' ' :: blanks)) (placeFrom l (k + 1) rest) := by
  rw [placeFrom_char (by decide), doubleQuotedFrom]
  simp [isBlank, isBreak, Gap.push]

-- A character that needs no backslash.
theorem doubleQuotedFrom_char {c : Char} (hgap : isGapChar c = false) (hquote : c ≠ '"')
    (hbackslash : c ≠ '\\') (read blanks : List Char) (l : Nat) {k : Nat} (hk : 0 < k)
    (rest : List Char) :
    doubleQuotedFrom read (.blanks blanks) (placeFrom l k (c :: rest)) =
      doubleQuotedFrom (c :: (blanks ++ read)) .empty (placeFrom l (k + 1) rest) := by
  have hgap' := Bool.or_eq_false_iff.mp hgap
  rw [placeFrom_char hgap'.2, doubleQuotedFrom]
  simp [hgap', isDocumentMark_of_column hk, hquote, hbackslash, Gap.text]

theorem take_placeFrom {cs : List Char} (h : ∀ c ∈ cs, isBreak c = false) (l k : Nat)
    (rest : List Char) :
    ((placeFrom l k (cs ++ rest)).take cs.length).map (·.char) = cs ∧
      (placeFrom l k (cs ++ rest)).drop cs.length = placeFrom l (k + cs.length) rest := by
  induction cs generalizing k with
  | nil => exact ⟨by simp, by simp⟩
  | cons c cs ih =>
    obtain ⟨hc, hcs⟩ := List.forall_mem_cons.mp h
    obtain ⟨htake, hdrop⟩ := ih hcs (k + 1)
    rw [List.cons_append, placeFrom_char hc]
    exact ⟨by simp [htake], by simp [hdrop, Nat.add_assoc, Nat.add_comm 1]⟩

-- A backslash with a letter and the digits that the letter asks for.
theorem doubleQuotedFrom_escape {c letter : Char} (digits : List Char)
    (hletter : isBreak letter = false) (hdigits : ∀ d ∈ digits, isBreak d = false)
    (hwidth : escapeWidth letter = digits.length) (hescaped : escaped? letter digits = some c)
    (read blanks : List Char) (l : Nat)
    {k : Nat} (hk : 0 < k) (rest : List Char) :
    doubleQuotedFrom read (.blanks blanks) (placeFrom l k ('\\' :: letter :: (digits ++ rest))) =
      doubleQuotedFrom (c :: (blanks ++ read)) .empty
        (placeFrom l (k + (digits.length + 2)) rest) := by
  obtain ⟨htake, hdrop⟩ := take_placeFrom hdigits l (k + 1 + 1) rest
  have hblank : isBlank '\\' = false := by decide
  have hbreak : isBreak '\\' = false := by decide
  rw [placeFrom_char hbreak, placeFrom_char hletter, doubleQuotedFrom,
    show k + (digits.length + 2) = k + 1 + 1 + digits.length by omega]
  simp [hblank, hbreak, isDocumentMark_of_column hk, hletter, hwidth, htake, hdrop, hescaped,
    Gap.text]

def hexDigit (d : Nat) : Char :=
  (Nat.digitChar d).toUpper

theorem hexDigit_spec : ∀ d < 16, digitValue (hexDigit d) = d ∧ isBreak (hexDigit d) = false := by
  decide

theorem hexDigits_succ (width n : Nat) :
    hexDigits (width + 1) n = hexDigit (n / 16 ^ width % 16) :: hexDigits width n := by
  simp [hexDigits, hexDigit, List.range_succ]

theorem isBreak_hexDigits (width n : Nat) : ∀ c ∈ hexDigits width n, isBreak c = false := by
  induction width with
  | zero => simp [hexDigits]
  | succ width ih =>
    rw [hexDigits_succ]
    exact List.forall_mem_cons.mpr ⟨(hexDigit_spec _ (Nat.mod_lt _ (by decide))).2, ih⟩

theorem foldl_hexDigits (width n start : Nat) :
    (hexDigits width n).foldl (fun m c => 16 * m + digitValue c) start =
      16 ^ width * start + n % 16 ^ width := by
  induction width generalizing start with
  | zero => simp [hexDigits, Nat.mod_one]
  | succ width ih =>
    have hdigit := (hexDigit_spec (n / 16 ^ width % 16) (Nat.mod_lt _ (by decide))).1
    rw [hexDigits_succ, List.foldl_cons, ih, hdigit, Nat.mod_pow_succ, Nat.pow_succ,
      Nat.mul_add, Nat.mul_assoc]
    omega

theorem digitValue_hexDigits (width n : Nat) : ∀ c ∈ hexDigits width n, digitValue c < 16 := by
  induction width with
  | zero => simp [hexDigits]
  | succ width ih =>
    have hlt := Nat.mod_lt (n / 16 ^ width) (show 16 > 0 by decide)
    rw [hexDigits_succ]
    exact List.forall_mem_cons.mpr ⟨by rwa [(hexDigit_spec _ hlt).1], ih⟩

theorem codePoint?_hexDigits {c : Char} {width : Nat} (hwidth : 0 < width)
    (hc : c.toNat < 16 ^ width) : codePoint? (hexDigits width c.toNat) = some c := by
  have hempty : (hexDigits width c.toNat).isEmpty = false := by
    obtain ⟨width, rfl⟩ := Nat.exists_eq_add_one_of_ne_zero (Nat.ne_of_gt hwidth)
    rw [hexDigits_succ]
    rfl
  have hany : (hexDigits width c.toNat).any (fun d => decide (16 ≤ digitValue d)) = false := by
    rw [List.any_eq_false]
    intro d hd
    have := digitValue_hexDigits width c.toNat d hd
    simpa using this
  have hnat : natInBase? 16 (hexDigits width c.toNat) = some c.toNat := by
    rw [natInBase?, hempty, hany, if_neg (by simp), foldl_hexDigits, Nat.mul_zero, Nat.zero_add,
      Nat.mod_eq_of_lt hc]
  have hvalid : c.toNat.isValidChar := c.valid
  rw [codePoint?, hnat, Option.bind_some, if_pos hvalid, Char.ofNat_toNat]

theorem doubleQuotedFrom_hexDigits {c letter : Char} {width : Nat}
    (hletter : isBreak letter = false) (hwidth : escapeWidth letter = width) (hpos : 0 < width)
    (hc : c.toNat < 16 ^ width) (read blanks : List Char) (l : Nat)
    {k : Nat} (hk : 0 < k) (rest : List Char) :
    doubleQuotedFrom read (.blanks blanks)
        (placeFrom l k (['\\', letter] ++ hexDigits width c.toNat ++ rest)) =
      doubleQuotedFrom (c :: (blanks ++ read)) .empty
        (placeFrom l (k + (['\\', letter] ++ hexDigits width c.toNat).length) rest) := by
  have hlength : (hexDigits width c.toNat).length = width := by simp [hexDigits]
  have hescaped : escaped? letter (hexDigits width c.toNat) = some c := by
    rw [escaped?, hwidth, if_neg (Nat.ne_of_gt hpos), if_neg (by omega),
      codePoint?_hexDigits hpos hc]
  have htotal : (['\\', letter] ++ hexDigits width c.toNat).length =
      (hexDigits width c.toNat).length + 2 := by simp
  rw [htotal]
  exact doubleQuotedFrom_escape (hexDigits width c.toNat) hletter (isBreak_hexDigits _ _)
    (hwidth.trans hlength.symm) hescaped read blanks l hk rest

theorem escapeLetters_spec : ∀ e ∈ escapeLetters,
    isBreak e.2 = false ∧ escapeWidth e.2 = 0 ∧ escaped? e.2 [] = some e.1 := by
  decide

-- Every character but a space ends the gap, however it is written.
theorem doubleQuotedFrom_escapeChar {c : Char} (hc : c ≠ ' ') (read blanks : List Char) (l : Nat)
   
    {k : Nat} (hk : 0 < k) (rest : List Char) :
    doubleQuotedFrom read (.blanks blanks) (placeFrom l k (escapeChar c ++ rest)) =
      doubleQuotedFrom (c :: (blanks ++ read)) .empty
        (placeFrom l (k + (escapeChar c).length) rest) := by
  cases hletter : escapeLetters.lookup c with
  | some letter =>
    have hmem : (c, letter) ∈ escapeLetters := by
      obtain ⟨before, after, heq, -⟩ := List.lookup_eq_some_iff.mp hletter
      rw [heq]
      simp
    obtain ⟨hbreak, hwidth, hescaped⟩ := escapeLetters_spec (c, letter) hmem
    have hescape : escapeChar c = ['\\', letter] := by simp [escapeChar, hletter]
    rw [hescape]
    exact doubleQuotedFrom_escape [] hbreak (by simp) hwidth hescaped read blanks l hk rest
  | none =>
    have hne {d : Char} (hd : d ∈ escapeLetters.map (·.1)) : c ≠ d := by
      obtain ⟨e, he, rfl⟩ := List.mem_map.mp hd
      simpa using List.lookup_eq_none_iff.mp hletter e he
    by_cases hwritable : isWritable c
    · have hescape : escapeChar c = [c] := by simp [escapeChar, hletter, hwritable]
      have hgap : isGapChar c = false := by
        simp [isGapChar, isBlank, isBreak, hc, hne (d := '\t') (by decide),
          hne (d := '\n') (by decide), hne (d := '\r') (by decide),
          hne (d := '\u0085') (by decide), hne (d := '\u2028') (by decide),
          hne (d := '\u2029') (by decide)]
      rw [hescape]
      exact doubleQuotedFrom_char hgap (hne (by decide)) (hne (by decide)) read blanks l hk rest
    · by_cases hsmall : c.toNat ≤ 0xFF
      · have hescape : escapeChar c = ['\\', 'x'] ++ hexDigits 2 c.toNat := by
          simp [escapeChar, hletter, hwritable, hsmall]
        rw [hescape]
        exact doubleQuotedFrom_hexDigits (by decide) (by decide) (by decide) (by omega) read blanks
          l hk rest
      · have hescape : escapeChar c = ['\\', 'u'] ++ hexDigits 4 c.toNat := by
          simp [escapeChar, hletter, hwritable, hsmall]
        have hlarge : c.toNat < 16 ^ 4 := by
          simp [isWritable] at hwritable
          omega
        rw [hescape]
        exact doubleQuotedFrom_hexDigits (by decide) (by decide) (by decide) hlarge read blanks l
          hk rest

theorem doubleQuotedFrom_escaped (cs read blanks : List Char) (l : Nat) {k : Nat} (hk : 0 < k)
    (rest : List Char) :
    ∃ k', doubleQuotedFrom read (.blanks blanks)
        (placeFrom l k (cs.flatMap escapeChar ++ '"' :: rest)) =
      some (String.ofList (read.reverse ++ (blanks.reverse ++ cs)), placeFrom l k' rest) := by
  induction cs generalizing read blanks k with
  | nil => exact ⟨k + 1, by simpa using doubleQuotedFrom_close read blanks l hk rest⟩
  | cons c cs ih =>
    rw [List.flatMap_cons]
    by_cases hc : c = ' '
    · subst hc
      have hescape : escapeChar ' ' = [' '] := by decide
      obtain ⟨k', hread⟩ := ih read (' ' :: blanks) k.succ_pos
      refine ⟨k', ?_⟩
      rw [hescape, List.singleton_append, List.cons_append, doubleQuotedFrom_space, hread]
      simp
    · obtain ⟨k', hread⟩ := ih (c :: (blanks ++ read)) [] (k := k + (escapeChar c).length)
        (by omega)
      refine ⟨k', ?_⟩
      rw [List.append_assoc, doubleQuotedFrom_escapeChar hc _ _ _ hk, Gap.empty, hread]
      simp

theorem readsAs_doubleQuoted (text : String) :
    ReadsAs ((doubleQuoted text).toList ++ ['\n']) text .quoted := by
  have hwritten : (doubleQuoted text).toList =
      '"' :: (text.toList.flatMap escapeChar ++ ['"']) := by
    simp [doubleQuoted]
  rw [hwritten]
  refine readsAs_quoted (by decide) fun l k rest hk => ?_
  obtain ⟨k', hread⟩ :=
    doubleQuotedFrom_escaped text.toList [] [] l (k := k + 1) k.succ_pos ('\n' :: rest)
  refine ⟨l, k', ?_⟩
  rw [placeFrom_char (by decide), readQuoted]
  simpa [Gap.empty] using hread

end TestFocus.Yaml
