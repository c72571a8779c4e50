import TestFocus.Keyword
import TestFocus.Proofs.Reading.Position

namespace TestFocus

open Lexer Text

namespace Piece

abbrev word (s : String) : Piece := token .word s

abbrev punct (s : String) : Piece := token .punct s

abbrev space : Piece := gap " "

-- The text in double quotes.
def quote (body : List Char) : String :=
  String.ofList ('"' :: (body ++ ['"']))

abbrev quoted (body : List Char) : Piece := token .string (quote body)

-- Each word with a space behind it.
def spaced (words : List String) : List Piece :=
  words.flatMap fun s => [word s, space]

-- Each word with a space before it.
def led (words : List String) : List Piece :=
  words.flatMap fun s => [space, word s]

-- The word, or nothing.
def marked (isMarked : Bool) (s : String) : List String :=
  if isMarked then [s] else []

-- Each part with a comma and a space before it.
def commaed (parts : List (List Piece)) : List Piece :=
  parts.flatMap fun ps => punct "," :: space :: ps

-- The parts with commas between them.
def commas : List (List Piece) → List Piece
  | [] => []
  | ps :: parts => ps ++ commaed parts

variable {s : String} {ps qs : List Piece} {parts : List (List Piece)} {next : Option Char}

@[simp]
theorem spaced_nil : spaced [] = [] := rfl

@[simp]
theorem spaced_cons (s : String) (words : List String) :
    spaced (s :: words) = word s :: space :: spaced words := rfl

@[simp]
theorem led_nil : led [] = [] := rfl

@[simp]
theorem led_cons (s : String) (words : List String) :
    led (s :: words) = space :: word s :: led words := rfl

@[simp]
theorem marked_true (s : String) : marked true s = [s] := rfl

@[simp]
theorem marked_false (s : String) : marked false s = [] := rfl

@[simp]
theorem commaed_nil : commaed [] = [] := rfl

@[simp]
theorem commaed_cons (ps : List Piece) (parts : List (List Piece)) :
    commaed (ps :: parts) = punct "," :: space :: (ps ++ commaed parts) := rfl

@[simp]
theorem commas_nil : commas [] = [] := rfl

@[simp]
theorem commas_cons (ps : List Piece) (parts : List (List Piece)) :
    commas (ps :: parts) = ps ++ commaed parts := rfl

@[simp]
theorem texts_spaced (words : List String) : texts (spaced words) = words := by
  induction words with
  | nil => rfl
  | cons s words ih => simp [ih]

@[simp]
theorem texts_led (words : List String) : texts (led words) = words := by
  induction words with
  | nil => rfl
  | cons s words ih => simp [ih]

theorem length_le_texts_commaed (parts : List (List Piece)) :
    parts.length ≤ (texts (commaed parts)).length := by
  induction parts with
  | nil => simp
  | cons ps parts ih =>
    simp only [commaed_cons, texts_token, texts_gap, texts_append, List.length_cons,
      List.length_append]
    omega

theorem length_texts_le_commas (hps : ps ∈ parts) :
    (texts ps).length ≤ (texts (commas parts)).length := by
  have hcommaed (parts : List (List Piece)) (hps : ps ∈ parts) :
      (texts ps).length ≤ (texts (commaed parts)).length := by
    obtain ⟨before, after, rfl⟩ := List.append_of_mem hps
    simp [commaed]
    omega
  cases parts with
  | nil => cases hps
  | cons qs parts =>
    rcases List.mem_cons.mp hps with rfl | hps
    · simp
    · have := hcommaed parts hps
      simp
      omega

-- Nothing is dropped from a text that does not begin, or end, with what would be dropped.
theorem dropWhile_of_head? {p : Char → Bool} {cs : List Char} (h : ∀ c ∈ cs.head?, p c = false) :
    cs.dropWhile p = cs := by
  cases cs with
  | nil => rfl
  | cons c cs => simp [h c rfl]

theorem dropEndWhile_of_getLast? {p : Char → Bool} {cs : List Char}
    (h : ∀ c ∈ cs.getLast?, p c = false) : dropEndWhile p cs = cs := by
  rw [dropEndWhile, dropWhile_of_head?, List.reverse_reverse]
  rwa [List.head?_reverse]

-- Quotes around a text without quotes are taken off again.
theorem trimChar_quote {body : List Char} (hbody : '"' ∉ body) :
    trimChar '"' (quote body) = String.ofList body := by
  have hne {c : Char} (hc : c ∈ body) : (c == '"') = false :=
    beq_eq_false_iff_ne.mpr fun h => hbody (h ▸ hc)
  have hlast : dropEndWhile (· == '"') body = body :=
    dropEndWhile_of_getLast? fun c hc => hne (List.mem_of_getLast? hc)
  cases body with
  | nil => rfl
  | cons c cs =>
    have hstart : (c :: cs ++ ['"']).dropWhile (· == '"') = c :: cs ++ ['"'] :=
      dropWhile_of_head? fun d hd => hne (by simp_all)
    have hend : dropEndWhile (· == '"') (c :: cs ++ ['"']) = c :: cs := by
      simpa [dropEndWhile] using hlast
    simp only [trimChar, quote, String.toList_ofList, List.dropWhile_cons, beq_self_eq_true,
      if_true, hstart, hend]

-- What comes next is not part of a name.
def Free (next : Option Char) : Prop :=
  ∀ c ∈ next, isNameChar c = false

-- The text is a whole word wherever no name goes on behind it.
def IsWord (s : String) : Prop :=
  (word s).Valid ∧ ∀ next, Free next → (word s).Meets next

-- The characters of a word without quotes, and not of one that a quote would make longer.
def isPlain : List Char → Bool
  | c :: cs => (isSigil c || isNameChar c) && cs.all isNameChar && !takesQuote (c :: cs)
  | [] => false

def delimiters : List String :=
  [",", "(", ")", "[", "]", "\x7b", "\x7d", "<", ">", "*", "="]

-- The pieces stay apart, and end wherever no name goes on behind them.
def Apart (ps : List Piece) : Prop :=
  ∀ next, Free next → Fits ps next

-- A name before the pieces does not go on in them.
def Detached (ps : List Piece) : Prop :=
  ∀ next, Free next → Free (first ps next)

theorem isWord_ofList {cs : List Char} (hcs : isPlain cs = true) : IsWord (String.ofList cs) := by
  cases cs with
  | nil => cases hcs
  | cons c cs =>
    simp only [isPlain, Bool.and_eq_true, Bool.not_eq_true'] at hcs
    constructor
    · rw [Valid, String.toList_ofList]
      exact .bare hcs.1.1 hcs.1.2
    · intro next hnext d hd
      simp [continues, hcs.2, hnext d hd]

theorem isWord_of_toList {cs : List Char} (hs : s.toList = cs) (hcs : isPlain cs = true) :
    IsWord s := by
  rw [← String.ofList_toList (s := s), hs]
  exact isWord_ofList hcs

theorem isWord_quoted {c : Char} {body : List Char} (hc : (isSigil c || c == 'c') = true)
    (hbody : '"' ∉ body) : IsWord (String.ofList (c :: '"' :: (body ++ ['"']))) := by
  constructor
  · simpa [Valid] using Shape.quoted hc hbody
  · intro next _ d _
    simp [continues]

theorem valid_punct (hs : s ∈ delimiters) : (punct s).Valid := by
  simp only [delimiters, List.mem_cons, List.not_mem_nil, or_false] at hs
  rcases hs with rfl | rfl | rfl | rfl | rfl | rfl | rfl | rfl | rfl | rfl | rfl <;>
    exact Shape.punct rfl

@[simp]
theorem mem_delimiters :
    "," ∈ delimiters ∧ "(" ∈ delimiters ∧ ")" ∈ delimiters ∧ "[" ∈ delimiters ∧
      "]" ∈ delimiters ∧ "\x7b" ∈ delimiters ∧ "\x7d" ∈ delimiters ∧ "<" ∈ delimiters ∧
      ">" ∈ delimiters ∧ "*" ∈ delimiters ∧ "=" ∈ delimiters := by
  simp [delimiters]

theorem free_none : Free none := by simp [Free]

@[simp]
theorem detached_nil : Detached [] := fun _ hnext => hnext

@[simp]
theorem detached_space : Detached (space :: ps) := by
  simp [Detached, Free, first, text, isNameChar]

@[simp]
theorem detached_punct (hs : s ∈ delimiters) : Detached (punct s :: ps) := by
  simp only [delimiters, List.mem_cons, List.not_mem_nil, or_false] at hs
  rcases hs with rfl | rfl | rfl | rfl | rfl | rfl | rfl | rfl | rfl | rfl | rfl <;>
    simp [Detached, Free, first, text, isNameChar]

@[simp]
theorem detached_quoted {body : List Char} : Detached (quoted body :: ps) := by
  simp [Detached, Free, first, text, isNameChar, quote]

theorem Detached.append (hps : Detached ps) (hqs : Detached qs) : Detached (ps ++ qs) := by
  intro next hnext
  rw [first_append]
  exact hps _ (hqs next hnext)

@[simp]
theorem detached_commaed : Detached (commaed parts) := by
  cases parts <;> simp

@[simp]
theorem detached_commaed_append (hqs : Detached qs) : Detached (commaed parts ++ qs) :=
  detached_commaed.append hqs

@[simp]
theorem apart_nil : Apart [] := fun _ _ => trivial

@[simp]
theorem apart_word (hs : IsWord s) (hps : Detached ps) : Apart (word s :: ps) ↔ Apart ps := by
  constructor
  · intro h next hnext
    exact (h next hnext).2.2
  · intro h next hnext
    exact ⟨hs.1, hs.2 _ (hps next hnext), h next hnext⟩

@[simp]
theorem apart_punct (hs : s ∈ delimiters) : Apart (punct s :: ps) ↔ Apart ps := by
  simp [Apart, valid_punct hs, Meets, continues]

@[simp]
theorem apart_space : Apart (space :: ps) ↔ Apart ps := by
  have hvalid : space.Valid := Blank.char rfl
  have hmeets (next : Option Char) : space.Meets next := by
    intro c _
    simp [continues, startsWithChar]
  simp [Apart, hvalid, hmeets]

@[simp]
theorem apart_quoted {body : List Char} (hbody : '"' ∉ body) :
    Apart (quoted body :: ps) ↔ Apart ps := by
  have hvalid : (quoted body).Valid := by
    simpa [Valid, quote] using Shape.string hbody
  simp [Apart, hvalid, Meets, continues]

@[simp]
theorem apart_append (hps : Apart ps) (hqs : Detached qs) : Apart (ps ++ qs) ↔ Apart qs := by
  constructor
  · intro h next hnext
    exact (fits_append.mp (h next hnext)).2
  · intro h next hnext
    exact fits_append.mpr ⟨hps _ (hqs next hnext), h next hnext⟩

@[simp]
theorem apart_spaced_append {words : List String} (hwords : ∀ s ∈ words, IsWord s) :
    Apart (spaced words ++ ps) ↔ Apart ps := by
  induction words with
  | nil => simp
  | cons s words ih =>
    have hs : IsWord s := hwords s (by simp)
    simp [hs, ih fun s hs => hwords s (by simp [hs])]

@[simp]
theorem detached_led {words : List String} : Detached (led words) := by
  cases words <;> simp

@[simp]
theorem detached_led_append {words : List String} (hps : Detached ps) :
    Detached (led words ++ ps) :=
  detached_led.append hps

@[simp]
theorem apart_led_append {words : List String} (hwords : ∀ s ∈ words, IsWord s)
    (hps : Detached ps) : Apart (led words ++ ps) ↔ Apart ps := by
  induction words with
  | nil => simp
  | cons s words ih =>
    have hs : IsWord s := hwords s (by simp)
    simp [hs, hps, ih fun s hs => hwords s (by simp [hs])]

theorem isWord_of_mem_marked {isMarked : Bool} {t : String} (hs : IsWord s)
    (ht : t ∈ marked isMarked s) : IsWord t := by
  cases isMarked with
  | false => simp at ht
  | true => simpa [List.mem_singleton.mp ht] using hs

theorem apart_commaed (hparts : ∀ ps ∈ parts, Apart ps) : Apart (commaed parts) := by
  induction parts with
  | nil => simp
  | cons ps parts ih =>
    have hps : Apart ps := hparts ps (by simp)
    simp [hps, ih fun ps hps => hparts ps (by simp [hps])]

@[simp]
theorem apart_commaed_append (hparts : ∀ ps ∈ parts, Apart ps) (hqs : Detached qs) :
    Apart (commaed parts ++ qs) ↔ Apart qs :=
  apart_append (apart_commaed hparts) hqs

@[simp]
theorem apart_commas_append (hparts : ∀ ps ∈ parts, Apart ps) (hqs : Detached qs) :
    Apart (commas parts ++ qs) ↔ Apart qs := by
  cases parts with
  | nil => simp
  | cons ps parts =>
    have hps : Apart ps := hparts ps (by simp)
    simp [hps, hqs, apart_commaed_append fun ps hps => hparts ps (List.mem_cons_of_mem _ hps)]

-- White space, one gap for each character.
def blanks (cs : List Char) : List Piece :=
  cs.map fun c => gap (String.ofList [c])

@[simp]
theorem spell_blanks (cs : List Char) : spell (blanks cs) = cs := by
  induction cs with
  | nil => rfl
  | cons c cs ih =>
    rw [blanks, List.map_cons, spell_cons, ← blanks, ih]
    simp [text]

@[simp]
theorem texts_blanks (cs : List Char) : texts (blanks cs) = [] := by
  induction cs with
  | nil => rfl
  | cons c cs ih => simpa [blanks] using ih

theorem fits_blanks {cs : List Char} (hcs : ∀ c ∈ cs, isBlank c = true) (next : Option Char) :
    Fits (blanks cs) next := by
  induction cs with
  | nil => trivial
  | cons c cs ih =>
    have hc : isBlank c = true := hcs c (by simp)
    have hne : c ≠ ';' := by
      rintro rfl
      cases hc
    refine ⟨by simpa [Valid] using Blank.char hc, ?_, ih fun d hd => hcs d (by simp [hd])⟩
    simp [Meets, continues, startsWithChar, hne]

theorem free_blank {c : Char} (hc : isBlank c = true) : Free (some c) := by
  simp only [isBlank, Bool.or_eq_true, beq_iff_eq] at hc
  rcases hc with (((rfl | rfl) | rfl) | rfl) | rfl <;> simp [Free] <;> rfl

theorem digits_repr (n : Nat) : ∃ d ds, n.repr.toList = d :: ds ∧
    (d :: ds).all isAsciiDigit = true := by
  have hne : Nat.toDigits 10 n ≠ [] := Nat.toDigits_ne_nil
  obtain ⟨d, ds, hds⟩ := List.exists_cons_of_ne_nil hne
  refine ⟨d, ds, by simp [hds], ?_⟩
  rw [← hds, List.all_eq_true]
  intro c hc
  have := Nat.isDigit_of_mem_toDigits (by decide) (by decide) hc
  simpa [Char.isDigit, isAsciiDigit, Char.le_def] using this

theorem ne_of_isAsciiDigit {c d : Char} (hc : isAsciiDigit c = true) (hd : isAsciiDigit d = false) :
    c ≠ d := by
  rintro rfl
  rw [hc] at hd
  cases hd

theorem isNumber_repr (n : Nat) : Keyword.isNumber n.repr = true := by
  obtain ⟨d, ds, hds, hall⟩ := digits_repr n
  simp only [List.all_cons, Bool.and_eq_true] at hall
  unfold Keyword.isNumber
  split
  · next h => exact absurd (List.cons.inj (hds.symm.trans h)).1 (ne_of_isAsciiDigit hall.1 rfl)
  · next h =>
    obtain ⟨rfl, -⟩ := List.cons.inj (hds.symm.trans h)
    exact hall.1
  · next h => cases hds.symm.trans h

theorem isNameChar_of_isAsciiDigit {c : Char} (hc : isAsciiDigit c = true) :
    isNameChar c = true := by
  simp only [isAsciiDigit] at hc
  simp [isNameChar, hc]

theorem takesQuote_digit {c : Char} {cs : List Char} (hc : isAsciiDigit c = true) :
    takesQuote (c :: cs) = false := by
  cases cs with
  | nil =>
    have hne (d : Char) (hd : isAsciiDigit d = false) : c ≠ d := ne_of_isAsciiDigit hc hd
    simp [takesQuote, isSigil, hne '%' rfl, hne '@' rfl, hne '!' rfl, hne '#' rfl, hne 'c' rfl]
  | cons d ds => rfl

@[simp]
theorem isWord_repr (n : Nat) : IsWord n.repr := by
  obtain ⟨d, ds, hds, hall⟩ := digits_repr n
  simp only [List.all_cons, Bool.and_eq_true] at hall
  have hnames : ds.all isNameChar = true :=
    List.all_eq_true.mpr fun c hc =>
      isNameChar_of_isAsciiDigit (List.all_eq_true.mp hall.2 c hc)
  apply isWord_of_toList hds
  simp [isPlain, isNameChar_of_isAsciiDigit hall.1, hnames, takesQuote_digit hall.1]

-- A number with a character before it: `i32`, `#0`, `!7`.
theorem isWord_numbered {c : Char} (hc : (isSigil c || isNameChar c) = true) (n : Nat) :
    IsWord (String.ofList [c] ++ n.repr) := by
  obtain ⟨d, ds, hds, hall⟩ := digits_repr n
  have hnames : (d :: ds).all isNameChar = true :=
    List.all_eq_true.mpr fun c hc => isNameChar_of_isAsciiDigit (List.all_eq_true.mp hall c hc)
  have hlist : (String.ofList [c] ++ n.repr).toList = c :: d :: ds := by simp [hds]
  apply isWord_of_toList hlist
  rw [isPlain, hnames, hc]
  rfl

theorem balanced_word (s : String) (hps : Balanced ps) : Balanced (word s :: ps) :=
  .token (by simp) hps

theorem balanced_spaced_append {words : List String} (hps : Balanced ps) :
    Balanced (spaced words ++ ps) := by
  induction words with
  | nil => exact hps
  | cons s words ih => exact balanced_word s (.gap " " ih)

theorem balanced_commaed (hparts : ∀ ps ∈ parts, Balanced ps) : Balanced (commaed parts) := by
  induction parts with
  | nil => exact .nil
  | cons ps parts ih =>
    have hps : Balanced ps := hparts ps (by simp)
    have hcomma : Bracket.closer? "," = none ∧ Bracket.isCloser "," = false := by decide
    exact .token (fun _ => hcomma)
      (.gap " " (hps.append (ih fun ps hps => hparts ps (by simp [hps]))))

theorem balanced_commas (hparts : ∀ ps ∈ parts, Balanced ps) : Balanced (commas parts) := by
  cases parts with
  | nil => exact .nil
  | cons ps parts =>
    exact (hparts ps (by simp)).append (balanced_commaed fun ps hps => hparts ps (by simp [hps]))

end Piece

namespace Reader

open Piece Cursor

theorem eat_marked (isMarked : Bool) (s : String) (read : List Piece) {rest : List Piece}
    (hrest : (texts rest).head? ≠ some s) :
    eat s (between read (spaced (marked isMarked s) ++ rest)) =
      .ok isMarked (between (read ++ spaced (marked isMarked s)) rest) := by
  cases isMarked with
  | false => simpa using eat_of_ne hrest
  | true => simp

-- What stands before an item of a list.
def before : Bool → List Piece
  | true => []
  | false => [punct ",", space]

@[simp]
theorem before_true : before true = [] := rfl

@[simp]
theorem before_false : before false = [punct ",", space] := rfl

theorem laid_before {α : Type} (lay : α → List Piece) (xs : List α) :
    laid (fun isFirst x => before isFirst ++ lay x) true xs = commas (xs.map lay) := by
  have hmore (xs : List α) :
      laid (fun isFirst x => before isFirst ++ lay x) false xs = commaed (xs.map lay) := by
    induction xs with
    | nil => rfl
    | cons x xs ih => simp [laid, ih]
  cases xs with
  | nil => rfl
  | cons x xs => simp [laid, hmore]

@[simp]
theorem separator_before {α : Type} (done : List α) (read rest : List Piece) :
    separator done (between read (before done.isEmpty ++ rest)) =
      .ok () (between (read ++ before done.isEmpty) rest) := by
  cases done <;> simp [separator]

section Items

variable {α β : Type} {close : String} {step : List β → Reader (List β)} {item : Reader β}

-- A list is laid out with commas between the items, and may have room before its closing token.
theorem untilClose_commas (lay : α → List Piece) (result : α → β) (xs : List α)
    {gaps : List Piece} (hgaps : texts gaps = []) (hclose : close ≠ ",")
    (hopen : ∀ x ∈ xs, ∃ s ss, texts (lay x) = s :: ss ∧ s ≠ close)
    (hstep : ∀ done, ∀ x ∈ xs, ∀ read rest,
      step done (between read (before done.isEmpty ++ (lay x ++ rest))) =
        .ok (done ++ [result x]) (between (read ++ (before done.isEmpty ++ lay x)) rest))
    (read rest : List Piece) :
    untilClose close step
        (between read (commas (xs.map lay) ++ (gaps ++ punct close :: rest))) =
      .ok (xs.map result)
        (between (read ++ (commas (xs.map lay) ++ (gaps ++ [punct close]))) rest) := by
  rw [← laid_before]
  refine untilClose_laid (fun done x hx read rest => ?_) (fun isFirst x hx => ?_) hgaps read rest
  · simpa only [List.append_assoc] using hstep done x hx read rest
  · cases isFirst with
    | true => exact hopen x hx
    | false => exact ⟨",", texts (lay x), by simp, hclose.symm⟩

theorem commaList_commas (lay : α → List Piece) (result : α → β) (xs : List α)
    {gaps : List Piece} (hgaps : texts gaps = []) (hclose : close ≠ ",")
    (hopen : ∀ x ∈ xs, ∃ s ss, texts (lay x) = s :: ss ∧ s ≠ close)
    (hitem : ∀ x ∈ xs, ∀ read rest,
      item (between read (lay x ++ rest)) = .ok (result x) (between (read ++ lay x) rest))
    (read rest : List Piece) :
    commaList close item (between read (commas (xs.map lay) ++ (gaps ++ punct close :: rest))) =
      .ok (xs.map result)
        (between (read ++ (commas (xs.map lay) ++ (gaps ++ [punct close]))) rest) := by
  refine untilClose_commas lay result xs hgaps hclose hopen (fun done x hx read rest => ?_) read
    rest
  simp [hitem x hx]

section Loop

variable {loop : Nat → List β → Reader (List β)} {lay : α → List Piece} {result : α → β}
  {xs : List α} {rest : List Piece}

-- A loop that takes an item behind a comma each round, and stops in front of what follows, takes
-- all items.
theorem loopWithin_commaed
    (hend : ∀ rounds done read, loop rounds done (between read rest) = .ok done (between read rest))
    (hone : ∀ x ∈ xs, ∀ rounds done read rest,
      loop (rounds + 1) done (between read (punct "," :: space :: (lay x ++ rest))) =
        loop rounds (done ++ [result x]) (between (read ++ punct "," :: space :: lay x) rest))
    (rounds : Nat) (hrounds : xs.length ≤ rounds) (done : List β) (read : List Piece) :
    loop rounds done (between read (commaed (xs.map lay) ++ rest)) =
      .ok (done ++ xs.map result) (between (read ++ commaed (xs.map lay)) rest) := by
  induction xs generalizing rounds done read with
  | nil => simpa using hend rounds done read
  | cons x xs ih =>
    obtain ⟨rounds, rfl⟩ : ∃ k, rounds = k + 1 := ⟨rounds - 1, by simp at hrounds; omega⟩
    have hmore := ih (fun y hy => hone y (List.mem_cons_of_mem x hy)) rounds
      (by simpa using hrounds) (done ++ [result x]) (read ++ punct "," :: space :: lay x)
    simp only [List.append_assoc, List.cons_append] at hmore
    simp [hone x (by simp), hmore]

theorem loop_commaed
    (hend : ∀ rounds done read, loop rounds done (between read rest) = .ok done (between read rest))
    (hone : ∀ x ∈ xs, ∀ rounds done read rest,
      loop (rounds + 1) done (between read (punct "," :: space :: (lay x ++ rest))) =
        loop rounds (done ++ [result x]) (between (read ++ punct "," :: space :: lay x) rest))
    (done : List β) (read : List Piece) :
    loop (texts (commaed (xs.map lay) ++ rest)).length done
        (between read (commaed (xs.map lay) ++ rest)) =
      .ok (done ++ xs.map result) (between (read ++ commaed (xs.map lay)) rest) := by
  -- Each item has a comma, so there are enough rounds.
  refine loopWithin_commaed hend hone _ ?_ done read
  have hlength := length_le_texts_commaed (xs.map lay)
  rw [List.length_map] at hlength
  rw [texts_append, List.length_append]
  omega

end Loop

end Items

end Reader

end TestFocus
