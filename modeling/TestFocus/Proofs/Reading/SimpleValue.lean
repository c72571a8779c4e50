import TestFocus.Proofs.Reading.Words

namespace TestFocus

open Lexer Text Piece Cursor

namespace Grammar

-- Values of one token.
inductive Simple where
  | register (name : Name)
  | global (name : Name)
  | number (chars : List Char) (isNumber : Keyword.isNumber (String.ofList chars) = true)
      (chars_name : chars.all isNameChar = true)
  | literal (word : Word [.literal])
  | characters (body : List Char) (body_closed : '"' ∉ body)

def Simple.text : Simple → String
  | register name => name.after '%'
  | global name => name.after '@'
  | number chars _ _ => String.ofList chars
  | literal word => word.text
  | characters body _ => String.ofList ('c' :: '"' :: (body ++ ['"']))

namespace Simple

-- The first character of a number, and what may follow when it is a minus sign.
theorem number_cases {cs : List Char} (hcs : Keyword.isNumber (String.ofList cs) = true) :
    (∃ d ds, cs = d :: ds ∧ isAsciiDigit d = true) ∨ ∃ d ds, cs = '-' :: d :: ds := by
  simp only [Keyword.isNumber, String.toList_ofList] at hcs
  split at hcs
  · exact .inr ⟨_, _, rfl⟩
  · exact .inl ⟨_, _, rfl, hcs⟩
  · cases hcs

theorem isRegister_after (name : Name) {sigil : Char} (hsigil : sigil = '%' ∨ sigil = '@') :
    Operand.isRegister (name.after sigil) = true := by
  obtain ⟨c, cs, hlist⟩ := name.toList_after sigil
  simpa [Operand.isRegister, hlist] using hsigil

variable (v : Simple)

@[simp]
theorem isWord_text : IsWord v.text := by
  cases v with
  | register name => exact Name.isWord_after rfl name
  | global name => exact Name.isWord_after rfl name
  | number chars isNumber chars_name =>
    refine isWord_ofList ?_
    rcases number_cases isNumber with ⟨d, ds, rfl, hd⟩ | ⟨d, ds, rfl⟩
    · simp only [List.all_cons, Bool.and_eq_true] at chars_name
      simp [isPlain, chars_name, takesQuote_digit hd]
    · simp only [List.all_cons, Bool.and_eq_true] at chars_name
      simp [isPlain, chars_name, takesQuote]
  | literal word => exact word.isWord
  | characters body body_closed => exact isWord_quoted rfl body_closed

@[simp]
theorem isSimpleValue_text : Reader.isSimpleValue v.text = true := by
  cases v with
  | register name => simp [Reader.isSimpleValue, text, isRegister_after name (.inl rfl)]
  | global name => simp [Reader.isSimpleValue, text, isRegister_after name (.inr rfl)]
  | number chars isNumber chars_name =>
    simp only [text, Reader.isSimpleValue, isNumber, Bool.or_true, Bool.true_or]
  | literal word =>
    have hliteral : word.text ∈ Reader.literals := by simpa [WordClass.words] using word.known
    simp [Reader.isSimpleValue, text, hliteral]
  | characters body body_closed =>
    have hprefix : "c\"".toList = ['c', '"'] := String.toList_ofList
    have hchars : startsWith (characters body body_closed).text "c\"" = true := by
      rw [startsWith, hprefix, text, String.toList_ofList]
      rfl
    simp only [Reader.isSimpleValue, hchars, Bool.or_true, Bool.true_or]

theorem startsWithChar_bang : startsWithChar v.text '!' = false := by
  cases v with
  | register name =>
    obtain ⟨c, cs, hlist⟩ := name.toList_after '%'
    simp [startsWithChar, text, hlist]
  | global name =>
    obtain ⟨c, cs, hlist⟩ := name.toList_after '@'
    simp [startsWithChar, text, hlist]
  | number chars isNumber chars_name =>
    simp only [startsWithChar, text, String.toList_ofList]
    rcases number_cases isNumber with ⟨d, ds, rfl, hd⟩ | ⟨d, ds, rfl⟩
    · have hne : d ≠ '!' := by
        rintro rfl
        cases hd
      simp [hne]
    · simp
  | literal word => exact word.startsWithChar_eq_false (by decide)
  | characters body body_closed =>
    simp only [startsWithChar, text, String.toList_ofList]
    rfl

-- A number of the ordinary kind.
def ofNat (n : Nat) : Simple :=
  number n.repr.toList (by rw [String.ofList_toList]; exact isNumber_repr n)
    (by
      obtain ⟨d, ds, hds, hall⟩ := digits_repr n
      rw [hds]
      exact List.all_eq_true.mpr fun c hc =>
        isNameChar_of_isAsciiDigit (List.all_eq_true.mp hall c hc))

theorem text_ofNat (n : Nat) : (ofNat n).text = n.repr :=
  String.ofList_toList

theorem ne_of_not {s : String} (hs : Reader.isSimpleValue s = false) : v.text ≠ s := by
  intro h
  rw [← h, isSimpleValue_text] at hs
  cases hs

theorem contains_words {c : WordClass} (hc : c ≠ .literal) : c.words.contains v.text = false :=
  WordClass.contains_of_simple hc v.isSimpleValue_text

@[simp]
theorem text_ne : v.text ≠ "*" ∧ v.text ≠ "(" ∧ v.text ≠ "addrspace" :=
  ⟨v.ne_of_not (by decide), v.ne_of_not (by decide),
    v.ne_of_not (by decide)⟩

end Simple

-- `ty value`
structure Typed where
  type : Ty
  value : Simple

namespace Typed

def pieces (o : Typed) : List Piece :=
  o.type.pieces ++ [space, word o.value.text]

@[simp]
theorem apart_pieces (o : Typed) : Apart o.pieces := by
  simp [pieces]

theorem exists_opening (o : Typed) : ∃ s ss, texts o.pieces = s :: ss ∧ Ty.opens s = true := by
  obtain ⟨s, ss, hs, hopens⟩ := o.type.exists_opening
  exact ⟨s, ss ++ [o.value.text], by simp [pieces, hs], hopens⟩

end Typed

-- `label %dest`
def labelled (v : Simple) : List Piece :=
  [word "label", space, word v.text]

theorem isWord_label : IsWord "label" :=
  isWord_ofList rfl

theorem isWord_to : IsWord "to" :=
  isWord_ofList rfl

@[simp]
theorem apart_labelled (v : Simple) : Apart (labelled v) := by
  simp [labelled, isWord_label]

end Grammar

namespace Reader

open Grammar

variable {read rest : List Piece}

theorem ne_of_opens {s t : String} (hs : Ty.opens s = true) (ht : Ty.opens t = false) : s ≠ t := by
  rintro rfl
  rw [hs] at ht
  cases ht

theorem head?_type_ne {s : String} (hs : Ty.opens s = false) (t : Ty) (rest : List Piece) :
    (texts (t.pieces ++ rest)).head? ≠ some s :=
  head?_type (P := (· ≠ some s)) (fun t ht => by simpa using ne_of_opens ht hs) t rest

theorem head?_typed_ne {s : String} (hs : Ty.opens s = false) (o : Typed) (rest : List Piece) :
    (texts (o.pieces ++ rest)).head? ≠ some s := by
  rw [Typed.pieces, List.append_assoc]
  exact head?_type_ne hs o.type _

theorem lacks_typed {d : WordClass} (hd : d ≠ .typeName) (o : Typed) (rest : List Piece) :
    Lacks d (texts (o.pieces ++ rest)).head? := by
  rw [Typed.pieces, List.append_assoc]
  exact lacks_type hd o.type _

theorem fastMathFlags_between (flags : List (Word [.fastMath])) (read : List Piece)
    {rest : List Piece} (hrest : Lacks .fastMath (texts rest).head?) :
    run Keyword.isFastMathFlag (between read (spaced (flags.map (·.text)) ++ rest)) =
      .ok (flags.map (·.text)) (between (read ++ spaced (flags.map (·.text))) rest) := by
  have hflags : (texts (spaced (flags.map (·.text)))).all Keyword.isFastMathFlag := by
    simpa [Keyword.isFastMathFlag, WordClass.words] using fun w _ => Word.mem_words w
  simpa using run_append Keyword.isFastMathFlag read _ rest hflags hrest

theorem valueWithin_simple (v : Simple) (n : Nat) (read rest : List Piece) :
    valueWithin (n + 1) (between read (word v.text :: rest)) =
      .ok v.text (between (read ++ [word v.text]) rest) := by
  have hread : valueWithin (n + 1) (between read ([word v.text] ++ rest)) =
      .ok (print [word v.text]) (between (read ++ [word v.text]) rest) := by
    refine covered_of_ok (solid_token _ _) ?_
    simp [placed, Token.isPunct, Token.isWord, wordValue, v.startsWithChar_bang]
  simpa [print, text] using hread

@[simp]
theorem value_simple (v : Simple) (read rest : List Piece) :
    value (between read (word v.text :: rest)) =
      .ok v.text (between (read ++ [word v.text]) rest) := by
  simp [value, valueWithin_simple]

theorem type_comma (t : Ty) (read rest : List Piece) :
    type (between read (t.pieces ++ punct "," :: rest)) =
      .ok t.print (between (read ++ t.pieces) (punct "," :: rest)) := by
  simp

@[simp]
theorem typedValue_between (o : Typed) (read rest : List Piece) :
    typedValue (between read (o.pieces ++ rest)) =
      .ok (o.type.print, o.value.text) (between (read ++ o.pieces) rest) := by
  simp [typedValue, Typed.pieces]

@[simp]
theorem label_between (v : Simple) (read rest : List Piece) :
    label (between read (labelled v ++ rest)) =
      .ok v.text (between (read ++ labelled v) rest) := by
  simp [label, labelled]

end Reader

end TestFocus
