import TestFocus.Yaml.Document
import TestFocus.Yaml.Writer

namespace TestFocus.Yaml

theorem placeFrom_char {c : Char} (hc : isBreak c = false) (l k : Nat) (cs : List Char) :
    placeFrom l k (c :: cs) = ⟨c, l, k⟩ :: placeFrom l (k + 1) cs := by
  rw [placeFrom, if_neg (by simp [hc])]
  rintro rest rfl
  exact absurd hc (by decide)

theorem isBreak_cases {c : Char} (hw : isWritable c) (hc : isBreak c) :
    c = '\n' ∨ c = '\u2028' ∨ c = '\u2029' := by
  simp only [isBreak, Bool.or_eq_true, beq_iff_eq] at hc
  rcases hc with (((rfl | rfl) | rfl) | rfl) | rfl
  · simp
  · exact absurd hw (by decide)
  · exact absurd hw (by decide)
  · simp
  · simp

theorem placeFrom_break {c : Char} (hw : isWritable c) (hc : isBreak c) (l k : Nat)
    (cs : List Char) : placeFrom l k (c :: cs) = ⟨c, l, k⟩ :: placeFrom (l + 1) 0 cs := by
  rcases isBreak_cases hw hc with rfl | rfl | rfl <;> simp [placeFrom, isBreak, alikeBreak]

theorem le_length_placeFrom {cs : List Char} (h : ∀ c ∈ cs, isWritable c) (l k : Nat)
    (rest : List Char) : cs.length ≤ (placeFrom l k (cs ++ rest)).length := by
  induction cs generalizing l k with
  | nil => simp
  | cons c cs ih =>
    obtain ⟨hc, hcs⟩ := List.forall_mem_cons.mp h
    rw [List.cons_append]
    cases hbreak : isBreak c with
    | true => simpa [placeFrom_break hc hbreak] using ih hcs (l + 1) 0
    | false => simpa [placeFrom_char hbreak] using ih hcs l (k + 1)

theorem isGapChar_alikeBreak {c : Char} (hc : isBreak c) :
    isGapChar (alikeBreak c) = isGapChar c := by
  simp only [isBreak, Bool.or_eq_true, beq_iff_eq] at hc
  rcases hc with (((rfl | rfl) | rfl) | rfl) | rfl <;> decide

theorem atGap_placeFrom (l k : Nat) (cs : List Char) :
    atGap (placeFrom l k cs) = cs.head?.all isGapChar := by
  unfold placeFrom
  split
  · rfl
  · rfl
  · next c rest _ =>
    split
    · next hc => exact isGapChar_alikeBreak hc
    · rfl

theorem isDocumentMark_of_column {k : Nat} (h : 0 < k) (c : Char) (l : Nat) (rest : List Placed) :
    isDocumentMark (⟨c, l, k⟩ :: rest) = false := by
  simp [isDocumentMark, Nat.ne_of_gt h]

theorem isDocumentMark_of_char {c : Char} (hhyphen : c ≠ '-') (hdot : c ≠ '.') (l k : Nat)
    (rest : List Placed) : isDocumentMark (⟨c, l, k⟩ :: rest) = false := by
  simp [isDocumentMark, hhyphen, hdot]

theorem char_ne {p : Char → Bool} {c d : Char} (hc : p c) (hd : p d = false) : c ≠ d := by
  rintro rfl
  rw [hc] at hd
  cases hd

def specialChars : List Char :=
  [' ', '\t', '\n', '\r', '\u0085', '\u2028', '\u2029', '-', '?', ':'] ++ openingIndicators

def isOrdinary (c : Char) : Bool :=
  !specialChars.contains c

theorem isOrdinary_of {p : Char → Bool} (h : specialChars.any p = false) {c : Char} (hc : p c) :
    isOrdinary c := by
  have hnot : c ∉ specialChars := fun hmem => List.any_eq_false.mp h c hmem hc
  simpa [isOrdinary] using hnot

theorem not_isGapChar_of_isOrdinary {c : Char} (hc : isOrdinary c) : isGapChar c = false := by
  refine Bool.eq_false_iff.mpr fun h => ?_
  simp only [isGapChar, isBlank, isBreak, Bool.or_eq_true, beq_iff_eq] at h
  rcases h with (rfl | rfl) | ((((rfl | rfl) | rfl) | rfl) | rfl) <;> exact absurd hc (by decide)

theorem opensPlain_of_isOrdinary {c : Char} (hc : isOrdinary c) (next : Option Char) :
    opensPlain false c next := by
  have hspecial : openingIndicators.any isOrdinary = false := by decide
  have hindicator : c ∉ openingIndicators := fun hmem =>
    List.any_eq_false.mp hspecial c hmem hc
  have hhyphen : c ≠ '-' := char_ne hc (by decide)
  have hquestion : c ≠ '?' := char_ne hc (by decide)
  have hcolon : c ≠ ':' := char_ne hc (by decide)
  simp [opensPlain, hhyphen, hquestion, hcolon, not_isGapChar_of_isOrdinary hc, hindicator]

-- Keys are made of small letters and underscores.
def isKeyChar (c : Char) : Bool :=
  ('a' ≤ c && c ≤ 'z') || c == '_'

theorem isOrdinary_of_isKeyChar {c : Char} (hc : isKeyChar c) : isOrdinary c :=
  isOrdinary_of (by decide) hc

theorem not_isGapChar_of_isKeyChar {c : Char} (hc : isKeyChar c) : isGapChar c = false :=
  not_isGapChar_of_isOrdinary (isOrdinary_of_isKeyChar hc)

theorem tokensFrom_space (n : Nat) (s : Scan) (l k : Nat) (rest : List Placed) :
    tokensFrom n s (⟨' ', l, k⟩ :: rest) = tokensFrom n s rest := by
  cases n with
  | zero => rfl
  | succ n => simp [tokensFrom, skipGap, isBreak]

theorem Scan.leaveMapping?_allowKey (s : Scan) (allowed : Bool) :
    (s.allowKey allowed).leaveMapping? = s.leaveMapping? := by
  obtain ⟨tokens, layout, _, start⟩ := s
  by_cases h : start.any (·.isRequired) = true <;>
    cases layout <;> simp [leaveMapping?, close, dropKey?, allowKey, h]

-- A key may start on a new line.
theorem tokensFrom_lineEnd (n : Nat) {s : Scan} (hs : s.layout.isBraces = false) (l k : Nat)
    (rest : List Placed) :
    tokensFrom n s (⟨'\n', l, k⟩ :: rest) = tokensFrom n (s.allowKey true) rest := by
  cases n with
  | zero => rfl
  | succ n =>
    have hskip : skipGap s.layout.isBraces s.keyAllowed false (⟨'\n', l, k⟩ :: rest) =
        skipGap s.layout.isBraces true false rest := by simp [skipGap, isBreak, hs]
    rw [tokensFrom, hskip, tokensFrom, Scan.leaveMapping?_allowKey]
    rfl

theorem tokensFrom_char {c : Char} (hgap : isGapChar c = false) (hcomment : c ≠ '#')
    (n : Nat) (s : Scan) (l k : Nat) (rest : List Placed) :
    tokensFrom (n + 1) s (⟨c, l, k⟩ :: rest) =
      (nextToken? s ⟨c, l, k⟩ rest).bind fun (s, rest) => tokensFrom n s rest := by
  simp only [isGapChar, Bool.or_eq_false_iff] at hgap
  have hskip : skipGap s.layout.isBraces s.keyAllowed false (⟨c, l, k⟩ :: rest) =
      (s.keyAllowed, ⟨c, l, k⟩ :: rest) := by
    have hblank := hgap.1
    simp only [isBlank, Bool.or_eq_false_iff, beq_eq_false_iff_ne] at hblank
    simp [skipGap, hgap.2, hblank, hcomment]
  rw [tokensFrom, hskip]
  rfl

theorem not_mem_of_opensPlain {c : Char} {next : Option Char} (h : opensPlain false c next) :
    isGapChar c = false ∧ c ∉ openingIndicators := by
  simp only [opensPlain] at h
  split at h
  · next hc =>
    rw [beq_iff_eq.mp hc]
    decide
  split at h
  · next hc =>
    rcases Bool.or_eq_true_iff.mp hc with hc | hc <;> rw [beq_iff_eq.mp hc] <;> decide
  · simpa using h

theorem nodeToken?_plain {s s' : Scan} {p : Placed} {rest after : List Placed} {text : String}
    {crossed : Bool} (hs : s.layout.isBraces = false)
    (hopens : opensPlain false p.char (rest.head?.map (·.char)))
    (hstart : s.startNode? p = some s')
    (hread : readPlain false s'.layout.valueIndent (p :: rest) = some (text, crossed, after)) :
    nodeToken? s p rest =
      some ((s'.allowKey (s'.keyAllowed || crossed)).emit (.scalar text .plain), after) := by
  obtain ⟨-, hindicator⟩ := not_mem_of_opensPlain hopens
  have hne {d : Char} (hd : d ∈ openingIndicators) : p.char ≠ d := fun h => hindicator (h ▸ hd)
  have hblock : (p.char == '|' || p.char == '>') = false := by
    simp [hne (d := '|') (by decide), hne (d := '>') (by decide)]
  have hquote : isQuote p.char = false := by
    simp [isQuote, hne (d := '"') (by decide), hne (d := '\x27') (by decide)]
  simp only [nodeToken?, hs]
  split
  · next hc => exact absurd hc (hne (by decide))
  · next hc => exact absurd hc (hne (by decide))
  · next hc => exact absurd hc (hne (by decide))
  · simp [hblock, hquote, hopens, hstart, hread]

-- In a block mapping, a node that is neither a mark nor indented too little.
theorem nextToken?_node {s : Scan} {p : Placed} {rest : List Placed}
    (hlayout : s.layout.isBraces = false) (hkey : s.keyStart = none)
    (hclose : s.closeRightOf p.column = s) (hdirective : p.char ≠ '%')
    (hmark : isDocumentMark (p :: rest) = false) (hflow : p.char ∉ ['\x7b', '\x7d', ','])
    (hgap : p.char ∈ ['?', ':'] → atGap rest = false) :
    nextToken? s p rest = nodeToken? s p rest := by
  have hexpire : s.expireKey? p = some s := by simp [Scan.expireKey?, hkey]
  unfold nextToken?
  rw [hexpire]
  simp only [Option.bind_eq_bind, Option.bind_some, hclose, hlayout, Bool.false_or]
  rw [if_neg (by simp [hdirective]), if_neg (by simp [hmark])]
  split
  · next hc => exact absurd (by simp [hc]) hflow
  · next hc => exact absurd (by simp [hc]) hflow
  · next hc => exact absurd (by simp [hc]) hflow
  · next hc => rw [if_neg (by simp [hgap (by simp [hc])])]
  · next hc => rw [if_neg (by simp [hgap (by simp [hc])])]
  · rfl

-- The state in which a line is read: no mapping is open or one whose keys start their lines, and
-- the next thing may be a key.
structure Scan.StartsLine (s : Scan) : Prop where
  layout : s.layout = .outside ∨ s.layout = .block 0
  keyAllowed : s.keyAllowed = true
  keyStart : s.keyStart = none

theorem plainFrom_key {key : List Char} (hkey : ∀ c ∈ key, isKeyChar c) (indent : Nat)
    (read : List Char) (l k : Nat) (rest : List Char) :
    plainFrom false indent read .empty (placeFrom l k (key ++ ':' :: ' ' :: rest)) =
      some (String.ofList (read.reverse ++ key), false,
        placeFrom l (k + key.length) (':' :: ' ' :: rest)) := by
  induction key generalizing read k with
  | nil =>
    have hcolon : isBreak ':' = false := by decide
    have hgap : atGap (placeFrom l (k + 1) (' ' :: rest)) = true := by
      rw [atGap_placeFrom]
      rfl
    simp [placeFrom_char hcolon, plainFrom, hgap, isBlank, isBreak, Gap.isEmpty, Gap.empty,
      Gap.isBroken]
  | cons c key ih =>
    obtain ⟨hc, hkey⟩ := List.forall_mem_cons.mp hkey
    have hgap := not_isGapChar_of_isKeyChar hc
    simp only [isGapChar, Bool.or_eq_false_iff] at hgap
    have hcolon : c ≠ ':' := char_ne hc (by decide)
    rw [List.cons_append, placeFrom_char hgap.2, plainFrom]
    have hih := ih hkey (c :: read) (k + 1)
    simp only [Gap.empty] at hih
    simp [hgap, hcolon, Gap.isEmpty, Gap.empty, Gap.text, hih, Nat.add_assoc, Nat.add_comm 1]

theorem Scan.StartsLine.closeRightOf {s : Scan} (hs : s.StartsLine) (k : Nat) :
    s.closeRightOf k = s := by
  obtain h | h := hs.layout <;> simp [Scan.closeRightOf, Layout.column?, h]

-- The state behind the text of a key: a colon may follow.
def Scan.onKey (l : Nat) (key : List Char) (s : Scan) : Scan :=
  { s with
    tokens := .scalar (String.ofList key) .plain :: s.tokens
    keyAllowed := false
    keyStart := some {
      line := l
      column := 0
      isRequired := s.layout.column? == some 0
      count := s.tokens.length } }

-- The tokens up to the value of an entry, last first. The first entry opens the mapping.
def keyTokens (layout : Layout) (key : List Char) : List Token :=
  .value :: .scalar (String.ofList key) .plain :: .key ::
    (if layout = .outside then [.blockStart] else [])

-- The state in front of the value of an entry.
def Scan.inValue (tokens : List Token) : Scan :=
  { tokens, layout := .block 0, keyAllowed := false, keyStart := none }

-- The state behind an entry, where the next one may start.
def Scan.atLine (tokens : List Token) : Scan :=
  { tokens, layout := .block 0, keyAllowed := true, keyStart := none }

theorem tokensFrom_keyText {s : Scan} (hs : s.StartsLine) {key : List Char} (hne : key ≠ [])
    (hkey : ∀ c ∈ key, isKeyChar c) (n l : Nat) (rest : List Char) :
    tokensFrom (n + 1) s (placeFrom l 0 (key ++ ':' :: ' ' :: rest)) =
      tokensFrom n (s.onKey l key) (placeFrom l key.length (':' :: ' ' :: rest)) := by
  have hread : readPlain false s.layout.valueIndent (placeFrom l 0 (key ++ ':' :: ' ' :: rest)) =
      some (String.ofList key, false, placeFrom l key.length (':' :: ' ' :: rest)) := by
    simpa [readPlain] using plainFrom_key hkey s.layout.valueIndent [] l 0 rest
  have hlayout : s.layout.isBraces = false := by
    obtain h | h := hs.layout <;> rw [h] <;> rfl
  cases key with
  | nil => exact absurd rfl hne
  | cons c key =>
    have hc := (List.forall_mem_cons.mp hkey).1
    have hchar {d : Char} (hd : isKeyChar d = false) : c ≠ d := char_ne hc hd
    have hgap := not_isGapChar_of_isKeyChar hc
    rw [List.cons_append, placeFrom_char (Bool.or_eq_false_iff.mp hgap).2] at hread ⊢
    have hstart : s.startNode? ⟨c, l, 0⟩ = some { s with
        keyAllowed := false
        keyStart := some {
          line := l
          column := 0
          isRequired := s.layout.column? == some 0
          count := s.tokens.length } } := by
      simp [Scan.startNode?, Scan.dropKey?, hs.keyAllowed, hs.keyStart]
    rw [tokensFrom_char hgap (hchar (by decide)),
      nextToken?_node hlayout hs.keyStart (hs.closeRightOf 0) (hchar (by decide))
        (isDocumentMark_of_char (hchar (by decide)) (hchar (by decide)) ..)
        (by simp [hchar (d := '\x7b') (by decide), hchar (d := '\x7d') (by decide),
          hchar (d := ',') (by decide)])
        (by simp [hchar (d := '?') (by decide), hchar (d := ':') (by decide)]),
      nodeToken?_plain hlayout (opensPlain_of_isOrdinary (isOrdinary_of_isKeyChar hc) _) hstart
        hread]
    rfl

theorem tokensFrom_colon {s : Scan} (hs : s.StartsLine) {key : List Char} {k : Nat}
    (hlength : k ≤ keyLimit) (n l : Nat) (rest : List Char) :
    tokensFrom (n + 1) (s.onKey l key) (placeFrom l k (':' :: ' ' :: rest)) =
      tokensFrom n (.inValue (keyTokens s.layout key ++ s.tokens))
        (placeFrom l (k + 1) (' ' :: rest)) := by
  have hgap : atGap (placeFrom l (k + 1) (' ' :: rest)) = true := by
    rw [atGap_placeFrom]
    rfl
  rw [placeFrom_char (by decide), tokensFrom_char (by decide) (by decide)]
  have hexpire : (s.onKey l key).expireKey? ⟨':', l, k⟩ = some (s.onKey l key) := by
    simp [Scan.expireKey?, Scan.onKey]
    omega
  have hclose : (s.onKey l key).closeRightOf k = s.onKey l key := by
    obtain h | h := hs.layout <;> simp [Scan.closeRightOf, Scan.onKey, Layout.column?, h]
  have hmark : isDocumentMark (⟨':', l, k⟩ :: placeFrom l (k + 1) (' ' :: rest)) = false :=
    isDocumentMark_of_char (by decide) (by decide) ..
  have hopen : (s.onKey l key).openValue? ⟨':', l, k⟩ =
      some (.inValue (keyTokens s.layout key ++ s.tokens)) := by
    obtain h | h := hs.layout <;>
      simp [Scan.openValue?, Scan.onKey, Scan.inValue, Scan.insertAt, Layout.openAt?, keyTokens, h]
  unfold nextToken?
  rw [hexpire]
  simp only [Option.bind_eq_bind, Option.bind_some, hclose, hgap, Bool.or_true]
  rw [if_neg (by simp), if_neg (by simp [hmark])]
  simp [hopen]

-- What may follow a value: nothing, or the line of another key.
def EndsEntry (rest : List Char) : Prop :=
  ∀ c ∈ rest.head?, isKeyChar c

theorem tokensFrom_value {c : Char} (hgap : isGapChar c = false)
    (hmark : c ∉ ['#', '%', '\x7b', '\x7d', ',']) {k : Nat} (hk : 0 < k) {rest : List Placed}
    (hopen : c ∈ ['?', ':'] → atGap rest = false) (n l : Nat) (tokens : List Token) :
    tokensFrom (n + 1) (.inValue tokens) (⟨c, l, k⟩ :: rest) =
      (nodeToken? (.inValue tokens) ⟨c, l, k⟩ rest).bind fun (s, rest) => tokensFrom n s rest := by
  simp only [List.mem_cons, List.not_mem_nil, or_false, not_or] at hmark
  obtain ⟨hcomment, hdirective, hflow⟩ := hmark
  rw [tokensFrom_char hgap hcomment, nextToken?_node rfl rfl rfl hdirective
    (isDocumentMark_of_column hk ..) (by simpa using hflow) hopen]

-- Behind a key the characters are read as a scalar, up to the start of the line after them.
def ReadsAs (written : List Char) (text : String) (style : Style) : Prop :=
  ∀ (n l k : Nat) (tokens : List Token) (rest : List Char), 0 < k → EndsEntry rest →
    ∃ l', tokensFrom (n + 1) (.inValue tokens) (placeFrom l k (written ++ rest)) =
      tokensFrom n (.atLine (.scalar text style :: tokens)) (placeFrom l' 0 rest)

-- An entry of a file: its key, its value as it is written, to the end of the last line, and as it
-- is read.
structure WrittenEntry where
  key : String
  value : List Char
  text : String
  style : Style

namespace WrittenEntry

def chars (e : WrittenEntry) : List Char :=
  e.key.toList ++ ':' :: ' ' :: e.value

def tokens (e : WrittenEntry) : List Token :=
  [.key, .scalar e.key .plain, .value, .scalar e.text e.style]

structure IsReadable (e : WrittenEntry) : Prop where
  key_ne_nil : e.key.toList ≠ []
  key_chars : ∀ c ∈ e.key.toList, isKeyChar c
  key_length : e.key.toList.length ≤ keyLimit
  value : ReadsAs e.value e.text e.style

theorem endsEntry_flatMap {entries : List WrittenEntry} (h : ∀ e ∈ entries, e.IsReadable) :
    EndsEntry (entries.flatMap chars) := by
  cases entries with
  | nil => simp [EndsEntry]
  | cons e entries =>
    have he := (List.forall_mem_cons.mp h).1
    cases hkey : e.key.toList with
    | nil => exact absurd hkey he.key_ne_nil
    | cons c key =>
      have hc := he.key_chars c (by simp [hkey])
      simp [EndsEntry, chars, hkey, hc]

theorem IsReadable.tokensFrom {e : WrittenEntry} (h : e.IsReadable) {s : Scan} (hs : s.StartsLine)
    (n l : Nat) {rest : List Char} (hrest : EndsEntry rest) :
    ∃ l', tokensFrom (n + 3) s (placeFrom l 0 (e.chars ++ rest)) =
      tokensFrom n
        (.atLine (.scalar e.text e.style :: (keyTokens s.layout e.key.toList ++ s.tokens)))
        (placeFrom l' 0 rest) := by
  obtain ⟨l', hvalue⟩ := h.value n l (e.key.toList.length + 2)
    (keyTokens s.layout e.key.toList ++ s.tokens) rest (by omega) hrest
  refine ⟨l', ?_⟩
  rw [← hvalue, chars, List.append_assoc, List.cons_append, List.cons_append,
    tokensFrom_keyText hs h.key_ne_nil h.key_chars, tokensFrom_colon hs h.key_length,
    placeFrom_char (by decide), tokensFrom_space]

-- Inside of the mapping, the tokens of the entries that are left.
theorem tokensFrom_entries {entries : List WrittenEntry} (h : ∀ e ∈ entries, e.IsReadable)
    (n l : Nat) (tokens : List Token) :
    Yaml.tokensFrom (3 * entries.length + n + 1) (.atLine tokens)
        (placeFrom l 0 (entries.flatMap chars)) =
      some (tokens.reverse ++ entries.flatMap WrittenEntry.tokens ++ [.blockEnd]) := by
  induction entries generalizing l tokens with
  | nil => simp [Yaml.tokensFrom, placeFrom, skipGap, Scan.leaveMapping?, Scan.close, Scan.dropKey?,
      Scan.allowKey, Scan.atLine]
  | cons e entries ih =>
    obtain ⟨he, hentries⟩ := List.forall_mem_cons.mp h
    have hs : (Scan.atLine tokens).StartsLine := ⟨.inr rfl, rfl, rfl⟩
    obtain ⟨l', hentry⟩ := he.tokensFrom hs (3 * entries.length + n + 1) l
      (endsEntry_flatMap hentries)
    rw [List.flatMap_cons, show 3 * (e :: entries).length + n + 1 =
      3 * entries.length + n + 1 + 3 by simp only [List.length_cons]; omega, hentry, ih hentries]
    simp [keyTokens, WrittenEntry.tokens, Scan.atLine]

end WrittenEntry

end TestFocus.Yaml
