import TestFocus.Proofs.Yaml.Scanning

namespace TestFocus.Yaml

-- A plain scalar on one line: nothing in it has a meaning of its own.
structure IsPlain (cs : List Char) : Prop where
  opens : ∃ c rest, cs = c :: rest ∧ opensPlain false c rest.head? ∧ continuesPlain c rest
  isWritable : ∀ c ∈ cs, isWritable c
  not_isBreak : ∀ c ∈ cs, isBreak c = false
  last : cs.getLast? ≠ some ' '

theorem isPlain_of_readsBackPlain {text : String} (hchars : ∀ c ∈ text.toList, isWritable c)
    (h : readsBackPlain text) : IsPlain text.toList := by
  unfold readsBackPlain at h
  split at h
  · cases h
  · next c rest heq =>
    simp only [Bool.and_eq_true, Bool.not_eq_true', Text.endsWithChar] at h
    obtain ⟨⟨⟨⟨⟨-, -⟩, hbreaks⟩, hlast⟩, hopens⟩, hcontinues⟩ := h
    refine ⟨⟨c, rest, heq, hopens, hcontinues⟩, hchars, ?_, by simpa using hlast⟩
    rw [heq]
    simpa using hbreaks

theorem atGap_line (cs rest : List Char) (l k : Nat) :
    atGap (placeFrom l k (cs ++ '\n' :: rest)) = cs.head?.all isGapChar := by
  rw [atGap_placeFrom]
  cases cs <;> rfl

-- Of the next character only counts whether it is a gap.
theorem opensPlain_congr {n m : Option Char} (h : n.all isGapChar = m.all isGapChar) (c : Char) :
    opensPlain false c n = opensPlain false c m := by
  simp [opensPlain, h]

-- The lines of a plain scalar have to stand deeper than the keys.
theorem plainFrom_end {rest : List Char} (hrest : EndsEntry rest) (read : List Char)
    (first : Option Char) (more : List Char) (l : Nat) :
    plainFrom false 1 read (.broken first more) (placeFrom l 0 rest) =
      some (String.ofList read.reverse, true, placeFrom l 0 rest) := by
  cases rest with
  | nil => simp [placeFrom, plainFrom, Gap.isBroken]
  | cons c rest =>
    have hgap := not_isGapChar_of_isKeyChar (hrest c (by simp))
    simp only [isGapChar, Bool.or_eq_false_iff] at hgap
    rw [placeFrom_char hgap.2, plainFrom]
    simp [hgap, Gap.isEmpty, Gap.isBroken, endsAfterGap]

theorem plainFrom_line {cs : List Char} (hchars : ∀ c ∈ cs, isWritable c)
    (hbreaks : ∀ c ∈ cs, isBreak c = false) (hlast : cs.getLast? ≠ some ' ') {before : Char}
    (hcontinues : continuesPlain before cs) (blanks : List Char) (hblanks : blanks ≠ [] → cs ≠ [])
    (hbefore : blanks ≠ [] → isGapChar before) {rest : List Char} (hrest : EndsEntry rest)
    (read : List Char) (l : Nat) {k : Nat} (hk : 0 < k) :
    plainFrom false 1 read (.blanks blanks) (placeFrom l k (cs ++ '\n' :: rest)) =
      some (String.ofList (read.reverse ++ (blanks.reverse ++ cs)), true,
        placeFrom (l + 1) 0 rest) := by
  induction cs generalizing before blanks read k with
  | nil =>
    have hnil : blanks = [] := by
      by_cases h : blanks = []
      · exact h
      · exact absurd rfl (hblanks h)
    subst hnil
    rw [List.nil_append, placeFrom_break (by decide) (by decide), plainFrom]
    simp [isBlank, isBreak, Gap.push, plainFrom_end hrest]
  | cons c cs ih =>
    obtain ⟨hc, hchars'⟩ := List.forall_mem_cons.mp hchars
    obtain ⟨hbreak, hbreaks'⟩ := List.forall_mem_cons.mp hbreaks
    simp only [continuesPlain, Bool.and_eq_true, Bool.not_eq_true'] at hcontinues
    obtain ⟨⟨hcolon, hcomment⟩, hcontinues⟩ := hcontinues
    have hlast' : cs.getLast? ≠ some ' ' := by
      cases cs with
      | nil => simp
      | cons d cs => simpa using hlast
    rw [List.cons_append, placeFrom_char hbreak, plainFrom]
    by_cases hspace : c = ' '
    · subst hspace
      have hne : cs ≠ [] := by
        rintro rfl
        exact hlast rfl
      have hstep := ih hchars' hbreaks' hlast' hcontinues (' ' :: blanks) (fun _ => hne)
        (fun _ => by decide) read (Nat.succ_pos k)
      simpa [isBlank, isBreak, Gap.push] using hstep
    · have hblank : isBlank c = false := by
        have htab : c ≠ '\t' := by
          rintro rfl
          exact absurd hc (by decide)
        simp [isBlank, hspace, htab]
      -- neither a comment nor a line that stands too far to the left
      have hstays : (!(Gap.blanks blanks).isEmpty &&
          endsAfterGap false 1 ⟨c, l, k⟩ (placeFrom l (k + 1) (cs ++ '\n' :: rest))) = false := by
        by_cases hempty : blanks = []
        · simp [hempty, Gap.isEmpty]
        · rw [hbefore hempty, Bool.and_true] at hcomment
          simp [endsAfterGap, hcomment, isDocumentMark_of_column hk]
          omega
      rw [← atGap_line cs rest l (k + 1)] at hcolon
      have hstep := ih hchars' hbreaks' hlast' hcontinues [] (by simp) (by simp)
        (c :: (blanks ++ read)) (Nat.succ_pos k)
      simpa [hblank, hbreak, hstays, hcolon, Gap.text, Gap.empty] using hstep

theorem IsPlain.readPlain {cs : List Char} (h : IsPlain cs) {rest : List Char}
    (hrest : EndsEntry rest) (l : Nat) {k : Nat} (hk : 0 < k) :
    readPlain false 1 (placeFrom l k (cs ++ '\n' :: rest)) =
      some (String.ofList cs, true, placeFrom (l + 1) 0 rest) := by
  obtain ⟨c, after, rfl, hopens, hcontinues⟩ := h.opens
  have hcontinues' : continuesPlain 'a' (c :: after) := by
    have hgap : isGapChar 'a' = false := by decide
    simp only [continuesPlain, hcontinues, hgap, Bool.and_false, Bool.not_false, Bool.and_true,
      Bool.not_eq_true']
    by_cases hcolon : c = ':'
    · simpa [hcolon, opensPlain] using hopens
    · simp [hcolon]
  exact plainFrom_line h.isWritable h.not_isBreak h.last hcontinues' [] (by simp) (by simp) hrest
    [] l hk

theorem IsPlain.readsAs {cs : List Char} (h : IsPlain cs) :
    ReadsAs (cs ++ ['\n']) (String.ofList cs) .plain := by
  intro n l k tokens rest hk hrest
  refine ⟨l + 1, ?_⟩
  have hread := h.readPlain hrest l hk
  obtain ⟨c, after, rfl, hopens, -⟩ := h.opens
  obtain ⟨hgap, hindicator⟩ := not_mem_of_opensPlain hopens
  have hnext := atGap_line after rest l (k + 1)
  have hopens' : opensPlain false c
      ((placeFrom l (k + 1) (after ++ '\n' :: rest)).head?.map (·.char)) := by
    rw [opensPlain_congr (m := after.head?)]
    · exact hopens
    · rw [Option.all_map]
      exact hnext
  have hmark : c ∉ ['#', '%', '\x7b', '\x7d', ','] := fun hmem => hindicator <| by
    have hsubset : ['#', '%', '\x7b', '\x7d', ','] ⊆ openingIndicators := by
      simp [openingIndicators]
    exact hsubset hmem
  have hopen : c ∈ ['?', ':'] → atGap (placeFrom l (k + 1) (after ++ '\n' :: rest)) = false := by
    intro hc
    rw [hnext]
    simp only [List.mem_cons, List.not_mem_nil, or_false] at hc
    obtain rfl | rfl := hc <;> simpa [opensPlain] using hopens
  have hstart : (Scan.inValue tokens).startNode? ⟨c, l, k⟩ = some (.inValue tokens) := rfl
  rw [List.append_assoc, List.cons_append, List.singleton_append]
  rw [List.cons_append] at hread
  rw [placeFrom_char (h.not_isBreak c (by simp))] at hread ⊢
  rw [tokensFrom_value hgap hmark hk hopen, nodeToken?_plain rfl hopens' hstart hread]
  rfl

theorem isAsciiDigit_of_mem_toDigits {n : Nat} {c : Char} (hc : c ∈ Nat.toDigits 10 n) :
    Text.isAsciiDigit c := by
  have := Nat.isDigit_of_mem_toDigits (by decide) (by decide) hc
  simpa [Char.isDigit, Text.isAsciiDigit, Char.le_def] using this

theorem isWritable_of_isAsciiDigit {c : Char} (hc : Text.isAsciiDigit c) : isWritable c := by
  simp only [Text.isAsciiDigit, Bool.and_eq_true, decide_eq_true_eq, Char.le_def,
    UInt32.le_iff_toNat_le] at hc
  have hlow : '0'.val.toNat = 48 := rfl
  have hhigh : '9'.val.toNat = 57 := rfl
  simp only [isWritable, Char.toNat, Bool.or_eq_true, Bool.and_eq_true, decide_eq_true_eq]
  omega

theorem continuesPlain_digits {cs : List Char} (h : ∀ c ∈ cs, Text.isAsciiDigit c)
    (before : Char) : continuesPlain before cs := by
  induction cs generalizing before with
  | nil => rfl
  | cons c cs ih =>
    obtain ⟨hc, hcs⟩ := List.forall_mem_cons.mp h
    have hcolon : c ≠ ':' := char_ne hc (by decide)
    have hcomment : c ≠ '#' := char_ne hc (by decide)
    simp [continuesPlain, hcolon, hcomment, ih hcs c]

theorem isPlain_digits {cs : List Char} (hne : cs ≠ []) (h : ∀ c ∈ cs, Text.isAsciiDigit c) :
    IsPlain cs := by
  have hordinary (c : Char) (hc : c ∈ cs) : isOrdinary c := isOrdinary_of (by decide) (h c hc)
  refine ⟨?_, fun c hc => isWritable_of_isAsciiDigit (h c hc), fun c hc =>
    (Bool.or_eq_false_iff.mp (not_isGapChar_of_isOrdinary (hordinary c hc))).2, ?_⟩
  · cases cs with
    | nil => exact absurd rfl hne
    | cons c cs =>
      exact ⟨c, cs, rfl, opensPlain_of_isOrdinary (hordinary c (by simp)) _,
        continuesPlain_digits (fun d hd => h d (by simp [hd])) c⟩
  · intro hlast
    exact absurd (h ' ' (List.mem_of_getLast? hlast)) (by decide)

theorem head_toDigits {n : Nat} (hn : 0 < n) : (Nat.toDigits 10 n).head? ≠ some '0' := by
  induction n using Nat.strongRecOn with
  | ind n ih =>
    by_cases hsmall : n < 10
    · have hdigit : ∀ d < 10, 0 < d → Nat.digitChar d ≠ '0' := by decide
      simpa [Nat.toDigits_of_lt_base hsmall] using hdigit n hsmall hn
    · have hquotient := ih (n / 10) (Nat.div_lt_self hn (by decide))
        (Nat.div_pos (by omega) (by decide))
      rw [Nat.toDigits_of_base_le (by decide) (by omega), List.head?_append,
        List.head?_eq_some_head Nat.toDigits_ne_nil, Option.some_or]
      rwa [List.head?_eq_some_head Nat.toDigits_ne_nil] at hquotient

theorem natInBase?_toDigits (n : Nat) : natInBase? 10 (Nat.toDigits 10 n) = some n := by
  have hvalue (c : Char) (hc : c ∈ Nat.toDigits 10 n) :
      digitValue c = c.toNat - '0'.toNat ∧ digitValue c < 10 := by
    have hdigit := isAsciiDigit_of_mem_toDigits hc
    have heq : digitValue c = c.toNat - '0'.toNat := by rw [digitValue, if_pos hdigit]
    refine ⟨heq, ?_⟩
    simp only [Text.isAsciiDigit, Bool.and_eq_true, decide_eq_true_eq, Char.le_def,
      UInt32.le_iff_toNat_le] at hdigit
    have hlow : '0'.toNat = 48 := rfl
    have hhigh : '9'.val.toNat = 57 := rfl
    rw [heq, hlow, Char.toNat]
    omega
  have hempty : (Nat.toDigits 10 n).isEmpty = false := by simp [Nat.toDigits_ne_nil]
  have hbelow : (Nat.toDigits 10 n).any (fun c => decide (10 ≤ digitValue c)) = false := by
    rw [List.any_eq_false]
    intro c hc
    simpa using (hvalue c hc).2
  have hfold : (Nat.toDigits 10 n).foldl (fun m c => 10 * m + digitValue c) 0 =
      Nat.ofDigitChars 10 (Nat.toDigits 10 n) 0 := by
    rw [Nat.ofDigitChars_eq_foldl]
    refine List.foldl_rel rfl fun c hc m m' hm => ?_
    rw [hm, (hvalue c hc).1]
  rw [natInBase?, hempty, hbelow, if_neg (by simp), hfold,
    Nat.ofDigitChars_toDigits (by decide) (by decide)]

theorem unsigned?_toDigits (n : Nat) : unsigned? (Nat.toDigits 10 n) = some n := by
  obtain rfl | hn := Nat.eq_zero_or_pos n
  · decide
  have hhead := head_toDigits hn
  have hnat := natInBase?_toDigits n
  have hdigits (c : Char) (hc : c ∈ Nat.toDigits 10 n) := isAsciiDigit_of_mem_toDigits hc
  generalize Nat.toDigits 10 n = cs at hhead hnat hdigits
  have hplain : magnitude? cs = some n := by
    unfold magnitude?
    split
    · simp at hhead
    · simp at hhead
    · simp at hhead
    · have hzero : hasLeadingZero cs = false := by
        unfold hasLeadingZero
        split
        · simp at hhead
        · rfl
      rw [hzero, if_neg (by simp), hnat]
  unfold unsigned?
  split
  · exact absurd (hdigits '+' (by simp)) (by decide)
  · exact hplain

-- A number is read as what it was.
theorem nat?_toString (n : Nat) : Scalar.nat? ⟨toString n, .plain, none⟩ = some n := by
  simp only [Scalar.nat?, Scalar.isNumeric, if_true, Nat.toString_eq_repr, Nat.toList_repr]
  exact unsigned?_toDigits n

theorem isPlain_toString (n : Nat) : IsPlain (toString n).toList := by
  rw [Nat.toString_eq_repr, Nat.toList_repr]
  exact isPlain_digits Nat.toDigits_ne_nil fun c hc => isAsciiDigit_of_mem_toDigits hc

-- A number does not stand for nothing.
theorem optional?_toString (n : Nat) :
    Scalar.optional? ⟨toString n, .plain, none⟩ = some (some ⟨toString n, .plain, none⟩) := by
  rw [Nat.toString_eq_repr]
  have hne : n.repr ≠ "" := fun h => by
    have hnil := Nat.toList_repr (n := n)
    rw [h] at hnil
    exact Nat.toDigits_ne_nil hnil.symm
  have hword : n.repr ∉ nullWords := fun hmem => by
    have hall : nullWords.all (fun w => !w.toList.all Text.isAsciiDigit) = true := by decide
    have hnot := List.all_eq_true.mp hall _ hmem
    rw [Nat.toList_repr, List.all_eq_true.mpr fun c hc => isAsciiDigit_of_mem_toDigits hc] at hnot
    cases hnot
  simp [Scalar.optional?, hne, hword]

end TestFocus.Yaml
