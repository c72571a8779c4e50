import TestFocus.Proofs.Yaml.BlockText
import TestFocus.Proofs.Yaml.Entries
import TestFocus.Proofs.Yaml.PlainText
import TestFocus.Proofs.Yaml.QuotedText

namespace TestFocus.Yaml

-- The form that a text is written in.
def writtenStyle (text : String) : Style :=
  let cs := text.toList
  if cs.contains '\n' then if isBlockable cs then .literal else .quoted
  else if !cs.all isWritable then .quoted
  else if readsBackPlain text then .plain
  else .quoted

-- What stands behind the key of an entry, to the end of the last line.
def valueChars (value : String) : List Char :=
  value.toList ++ lineEndAfter value.toList

theorem toList_writeEntry (key value : String) :
    (writeEntry key value).toList = key.toList ++ ':' :: ' ' :: valueChars value := by
  unfold writeEntry valueChars lineEndAfter
  split <;> simp

theorem IsPlain.isLine {cs : List Char} (h : IsPlain cs) : IsLine cs := by
  refine ⟨?_, h.not_isBreak⟩
  obtain ⟨c, rest, rfl, -⟩ := h.opens
  simp

theorem lineEndAfter_concat {c : Char} (hc : isBreak c = false) (cs : List Char) :
    lineEndAfter (cs ++ [c]) = ['\n'] := by
  simp [lineEndAfter, hc]

theorem getLast?_indentLines (atStart : Bool) (cs : List Char) :
    (indentLines atStart cs).getLast? = cs.getLast? := by
  induction cs generalizing atStart with
  | nil => rfl
  | cons c cs ih =>
    have hlast (starts : Bool) :
        (c :: indentLines starts cs).getLast? = (c :: cs).getLast? := by
      rw [List.getLast?_cons, List.getLast?_cons, ih]
    rw [indentLines]
    split
    · exact hlast true
    split
    · rw [List.getLast?_cons_cons, List.getLast?_cons_cons, hlast]
    · exact hlast false

theorem lineEndAfter_literalBlock {text : String} (hne : text.toList ≠ []) :
    lineEndAfter (literalBlock text).toList = lineEndAfter text.toList := by
  have hlast := getLast?_indentLines true text.toList
  have hwritten : indentLines true text.toList ≠ [] := fun h => by
    rw [h] at hlast
    exact hne (List.getLast?_eq_none_iff.mp hlast.symm)
  have hsplit : (literalBlock text).toList = '|' :: (indentMark text.toList ++
      ((chompingFor text.toList).mark ++ ['\n'])) ++ indentLines true text.toList := by
    simp [literalBlock]
  rw [hsplit, lineEndAfter_append hwritten, lineEndAfter, hlast, ← lineEndAfter]

theorem isWritable_singleQuotedLines {cs : List Char} (h : ∀ c ∈ cs, isWritable c)
    (atStart : Bool) : ∀ c ∈ singleQuotedLines atStart cs, isWritable c := by
  have hspace : isWritable ' ' := by decide
  have hquote : isWritable '\x27' := by decide
  induction cs generalizing atStart with
  | nil => cases atStart <;> simp [singleQuotedLines, hspace]
  | cons c cs ih =>
    obtain ⟨hc, hcs⟩ := List.forall_mem_cons.mp h
    have hwritten : ∀ d ∈ if c == '\x27' then ['\x27', '\x27'] else [c], isWritable d := by
      split <;> simp [hquote, hc]
    have hline : ∀ d ∈ (if c == '\x27' then ['\x27', '\x27'] else [c]) ++
        singleQuotedLines false cs, isWritable d :=
      List.forall_mem_append.mpr ⟨hwritten, ih hcs false⟩
    rw [singleQuotedLines]
    split
    · exact List.forall_mem_cons.mpr ⟨hc, ih hcs true⟩
    simp only
    split
    · exact List.forall_mem_cons.mpr ⟨hspace, List.forall_mem_cons.mpr ⟨hspace, hline⟩⟩
    · exact hline

theorem isWritable_hexDigits (width n : Nat) : ∀ c ∈ hexDigits width n, isWritable c := by
  have hdigit : ∀ d < 16, isWritable (hexDigit d) := by decide
  induction width with
  | zero => simp [hexDigits]
  | succ width ih =>
    rw [hexDigits_succ]
    exact List.forall_mem_cons.mpr ⟨hdigit _ (Nat.mod_lt _ (by decide)), ih⟩

theorem isWritable_escapeChar (c : Char) : ∀ d ∈ escapeChar c, isWritable d := by
  have hbackslash : isWritable '\\' := by decide
  have hcode (letter : Char) (hletter : isWritable letter) (width : Nat) :
      ∀ d ∈ ['\\', letter] ++ hexDigits width c.toNat, isWritable d :=
    List.forall_mem_append.mpr ⟨by simp [hbackslash, hletter], isWritable_hexDigits width _⟩
  unfold escapeChar
  split
  · next letter hletter =>
    have hall : ∀ e ∈ escapeLetters, isWritable e.2 := by decide
    obtain ⟨before, after, heq, -⟩ := List.lookup_eq_some_iff.mp hletter
    have hmem := hall (c, letter) (by simp [heq])
    simp [hbackslash, hmem]
  split
  · next hc => simpa using hc
  split
  · exact hcode 'x' (by decide) 2
  · exact hcode 'u' (by decide) 4

theorem isWritable_literalBlock {text : String} (h : ∀ c ∈ text.toList, isWritable c) :
    ∀ c ∈ (literalBlock text).toList, isWritable c := by
  have hmark : (chompingFor text.toList).mark.all isWritable = true := by
    cases chompingFor text.toList <;> decide
  have hindent : (indentMark text.toList).all isWritable = true := by
    unfold indentMark
    split <;> decide
  have hopen : ['|'].all isWritable = true := by decide
  have hline : ['\n'].all isWritable = true := by decide
  have hsplit : (literalBlock text).toList = ['|'] ++ (indentMark text.toList ++
      (chompingFor text.toList).mark ++ ['\n'] ++ indentLines true text.toList) := by
    simp [literalBlock]
  have hlines := List.all_eq_true.mpr (isWritable_indentLines h true)
  rw [← List.all_eq_true, hsplit]
  simp only [List.all_append, hopen, hindent, hmark, hline, hlines, Bool.and_self]

theorem isWritable_valueChars {value : String} (h : ∀ c ∈ value.toList, isWritable c) :
    ∀ c ∈ valueChars value, isWritable c := by
  have hend : (lineEndAfter value.toList).all isWritable = true := by
    unfold lineEndAfter
    split <;> decide
  exact List.forall_mem_append.mpr ⟨h, List.all_eq_true.mp hend⟩

-- Whatever is true of the four forms, each for the texts that are written in it.
theorem writeScalar_induction {motive : String → String → Style → Prop}
    (literal : ∀ text, text.toList ≠ [] → (∀ c ∈ text.toList, isWritable c) →
      motive text (literalBlock text) .literal)
    (plain : ∀ text, (∀ c ∈ text.toList, isWritable c) → readsBackPlain text →
      motive text text .plain)
    (single : ∀ text, (∀ c ∈ text.toList, isWritable c ∧ c ≠ '\n') →
      isSingleQuotable text.toList → motive text (singleQuoted text) .quoted)
    (double : ∀ text, motive text (doubleQuoted text) .quoted) (text : String) :
    motive text (writeScalar text) (writtenStyle text) := by
  simp only [writeScalar, writtenStyle]
  cases hline : text.toList.contains '\n' with
  | true =>
    simp only [if_true]
    split
    · next hblock =>
      simp only [isBlockable, Bool.and_eq_true, List.all_eq_true] at hblock
      refine literal text (fun hnil => ?_) hblock.1.1
      rw [hnil] at hline
      cases hline
    · exact double text
  | false =>
    simp only [Bool.false_eq_true, if_false]
    cases hall : text.toList.all isWritable with
    | false => exact double text
    | true =>
      have hchars := List.all_eq_true.mp hall
      simp only [Bool.not_true, Bool.false_eq_true, if_false]
      split
      · next hplain => exact plain text hchars hplain
      split
      · next hsingle =>
        refine single text (fun c hc => ⟨hchars c hc, ?_⟩) hsingle
        rintro rfl
        simp [hc] at hline
      · exact double text

theorem readsAs_writeScalar (text : String) :
    ReadsAs (valueChars (writeScalar text)) text (writtenStyle text) := by
  have hquote : isBreak '\x27' = false := by decide
  have hquotes : isBreak '"' = false := by decide
  refine writeScalar_induction (motive := fun text value style =>
    ReadsAs (valueChars value) text style) ?literal ?plain ?single ?double text
  case literal =>
    intro text hne hchars
    rw [valueChars, lineEndAfter_literalBlock hne]
    exact readsAs_literalBlock hchars hne
  case plain =>
    intro text hchars hplain
    have h := isPlain_of_readsBackPlain hchars hplain
    rw [valueChars, h.isLine.lineEndAfter]
    simpa using h.readsAs
  case single =>
    intro text hchars hsingle
    have hend : lineEndAfter (singleQuoted text).toList = ['\n'] := by
      simpa [singleQuoted] using
        lineEndAfter_concat hquote ('\x27' :: singleQuotedLines false text.toList)
    rw [valueChars, hend]
    exact readsAs_singleQuoted hchars hsingle
  case double =>
    intro text
    have hend : lineEndAfter (doubleQuoted text).toList = ['\n'] := by
      simpa [doubleQuoted] using
        lineEndAfter_concat hquotes ('"' :: text.toList.flatMap escapeChar)
    rw [valueChars, hend]
    exact readsAs_doubleQuoted text

theorem isWritable_writeScalar (text : String) : ∀ c ∈ (writeScalar text).toList, isWritable c := by
  have hquote : isWritable '\x27' := by decide
  have hquotes : isWritable '"' := by decide
  refine writeScalar_induction (motive := fun _ value _ => ∀ c ∈ value.toList, isWritable c)
    ?literal ?plain ?single ?double text
  case literal => exact fun text _ hchars => isWritable_literalBlock hchars
  case plain => exact fun text hchars _ => hchars
  case single =>
    intro text hchars _
    have hlines := isWritable_singleQuotedLines (fun c hc => (hchars c hc).1) false
    simpa [singleQuoted, hquote, or_imp, forall_and] using hlines
  case double =>
    intro text
    have hescaped : ∀ c ∈ text.toList.flatMap escapeChar, isWritable c := by
      simp only [List.mem_flatMap]
      rintro c ⟨d, -, hc⟩
      exact isWritable_escapeChar d c hc
    simp only [doubleQuoted, String.toList_append, String.toList_ofList, List.forall_mem_append]
    exact ⟨⟨by simpa using hquotes, hescaped⟩, by simpa using hquotes⟩

-- A text is never written as what stands for nothing.
theorem optional?_writtenStyle (text : String) :
    Scalar.optional? ⟨text, writtenStyle text, none⟩ =
      some (some ⟨text, writtenStyle text, none⟩) := by
  refine writeScalar_induction (motive := fun text _ style =>
    Scalar.optional? ⟨text, style, none⟩ = some (some ⟨text, style, none⟩))
    (fun _ _ _ => rfl) ?plain (fun _ _ _ => rfl) (fun _ => rfl) text
  intro text _ hplain
  have hambiguous : isAmbiguous text = false := by
    unfold readsBackPlain at hplain
    split at hplain
    · cases hplain
    · simp only [Bool.and_eq_true, Bool.not_eq_true'] at hplain
      exact hplain.1.1.1.1.1
  simp only [isAmbiguous, Bool.or_eq_false_iff] at hambiguous
  obtain ⟨⟨⟨⟨⟨hempty, hnull⟩, -⟩, -⟩, -⟩, -⟩ := hambiguous
  simp only [Scalar.optional?, hempty, hnull, Bool.or_false, Bool.false_eq_true, if_false]

end TestFocus.Yaml
