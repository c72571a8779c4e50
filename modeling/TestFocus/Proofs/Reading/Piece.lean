import TestFocus.Text.Basic
import TestFocus.Token.Lexer
import Mathlib.Data.List.Basic

-- A text as a sequence of pieces: its tokens and the gaps between them. A text is split into
-- tokens exactly when it is spelled by pieces that stay apart, and the tokens are then those
-- pieces in place.

namespace TestFocus

open Lexer Text

namespace Lexer

-- A character that is a token by itself.
def isPunctuation (c : Char) : Bool :=
  !(isBlank c || c == ';' || c == '"' || isSigil c || isNameChar c)

-- The shapes that the characters of a token can have.
inductive Shape : TokenKind → List Char → Prop where
  | bare {c : Char} {cs : List Char} : (isSigil c || isNameChar c) = true → cs.all isNameChar →
      Shape .word (c :: cs)
  | quoted {c : Char} {body : List Char} : (isSigil c || c == 'c') = true → '"' ∉ body →
      Shape .word (c :: '"' :: (body ++ ['"']))
  | string {body : List Char} : '"' ∉ body → Shape .string ('"' :: (body ++ ['"']))
  | punct {c : Char} : isPunctuation c = true → Shape .punct [c]

-- What stands between tokens: a blank character, or a comment up to the end of its line.
inductive Blank : List Char → Prop where
  | char {c : Char} : isBlank c = true → Blank [c]
  | comment {cs : List Char} : '\n' ∉ cs → Blank (';' :: cs)

end Lexer

inductive Piece where
  | token (kind : TokenKind) (text : String)
  | gap (text : String)
deriving Repr, DecidableEq

-- The token at a place that many bytes later.
def Token.shift (t : Token) (bytes : Nat) : Token :=
  { t with start := t.start + bytes, stop := t.stop + bytes }

namespace Piece

def text : Piece → String
  | token _ text => text
  | gap text => text

def isToken : Piece → Bool
  | token _ _ => true
  | gap _ => false

def Valid : Piece → Prop
  | token kind text => Shape kind text.toList
  | gap text => Blank text.toList

-- Would the character, coming next, be a part of this piece?
def continues : Piece → Char → Bool
  | token .word text, c =>
    !text.toList.contains '"' && (isNameChar c || (c == '"' && takesQuote text.toList))
  | token _ _, _ => false
  | gap text, c => startsWithChar text ';' && c != '\n'

-- The piece ends before this character, or before the end of the text.
def Meets (p : Piece) (next : Option Char) : Prop :=
  ∀ c ∈ next, p.continues c = false

def spell (ps : List Piece) : List Char :=
  ps.flatMap (·.text.toList)

def print (ps : List Piece) : String :=
  String.ofList (spell ps)

-- The first character of what the pieces spell, or else `next`.
def first (ps : List Piece) (next : Option Char) : Option Char :=
  (spell ps).head?.or next

-- Each piece has the shape of one, and ends before the next; the last one before `next`.
def Fits : List Piece → Option Char → Prop
  | [], _ => True
  | p :: ps, next => p.Valid ∧ p.Meets (first ps next) ∧ Fits ps next

-- The tokens among the pieces, the first piece standing at the given offset.
def place : Nat → List Piece → List Token
  | _, [] => []
  | offset, token kind text :: ps =>
    { kind, text, start := offset, stop := offset + byteLength text.toList } ::
      place (offset + byteLength text.toList) ps
  | offset, gap text :: ps => place (offset + byteLength text.toList) ps

-- The texts of the tokens among the pieces.
def texts (ps : List Piece) : List String :=
  (ps.filter (·.isToken)).map text

-- Kind and text of the first token among the pieces.
def next? : List Piece → Option (TokenKind × String)
  | [] => none
  | token kind text :: _ => some (kind, text)
  | gap _ :: ps => next? ps

end Piece

namespace Text

variable {cs ds : List Char}

@[simp]
theorem byteLength_append (cs ds : List Char) :
    byteLength (cs ++ ds) = byteLength cs + byteLength ds := by
  induction cs with
  | nil => simp [byteLength]
  | cons c cs ih => simp only [List.cons_append, byteLength, ih, Nat.add_assoc]

theorem dropBytes_append (cs ds : List Char) : dropBytes (byteLength cs) (cs ++ ds) = ds := by
  induction cs with
  | nil => simp [byteLength, dropBytes]
  | cons c cs ih =>
    obtain ⟨n, hn⟩ : ∃ n, byteLength (c :: cs) = n + 1 :=
      Nat.exists_eq_succ_of_ne_zero (by have := c.utf8Size_pos; simp only [byteLength]; omega)
    have hrest : n + 1 - c.utf8Size = byteLength cs := by rw [← hn]; simp [byteLength]
    rw [hn, List.cons_append, dropBytes, hrest, ih]

theorem takeBytes_append (cs ds : List Char) : takeBytes (byteLength cs) (cs ++ ds) = cs := by
  induction cs with
  | nil => simp [byteLength, takeBytes]
  | cons c cs ih =>
    obtain ⟨n, hn⟩ : ∃ n, byteLength (c :: cs) = n + 1 :=
      Nat.exists_eq_succ_of_ne_zero (by have := c.utf8Size_pos; simp only [byteLength]; omega)
    have hrest : n + 1 - c.utf8Size = byteLength cs := by rw [← hn]; simp [byteLength]
    rw [hn, List.cons_append, takeBytes, hrest, ih]

-- Cutting out the middle of three texts.
theorem slice_append (cs ds es : List Char) :
    slice (String.ofList (cs ++ (ds ++ es))) (byteLength cs) (byteLength cs + byteLength ds) =
      String.ofList ds := by
  simp only [slice, String.toList_ofList, Nat.add_sub_cancel_left, dropBytes_append,
    takeBytes_append]

end Text

namespace Lexer

variable {next : List Char}

theorem takesQuote_reverse (cs : List Char) : takesQuote cs.reverse = takesQuote cs := by
  match cs with
  | [] => rfl
  | [_] => rfl
  | a :: b :: cs =>
    cases hcs : (a :: b :: cs).reverse with
    | nil => simp at hcs
    | cons x xs =>
      cases xs with
      | nil =>
        have := congrArg List.length hcs
        simp at this
      | cons y ys => rfl

-- From here on the lexer is run character by character.
attribute [local simp] scan step

theorem enter_blank (offset : Nat) {c : Char} (hc : isBlank c = true) :
    enter offset c = (none, .between) := by
  simp [enter, hc]

theorem ne_of_isSigil_or_isNameChar {c d : Char} (hc : (isSigil c || isNameChar c) = true)
    (hd : (isSigil d || isNameChar d) = false) : c ≠ d := by
  rintro rfl
  rw [hc] at hd
  cases hd

theorem enter_word (offset : Nat) {c : Char} (hc : (isSigil c || isNameChar c) = true) :
    enter offset c = (none, .word offset [c]) := by
  have hne (d : Char) (hd : (isSigil d || isNameChar d) = false) : (c == d) = false := by
    simpa using ne_of_isSigil_or_isNameChar hc hd
  simp only [enter, isBlank, hne ' ' rfl, hne '\t' rfl, hne '\r' rfl, hne '\n' rfl, hne '\x0c' rfl,
    hne ';' rfl, hne '"' rfl, hc, Bool.or_self, Bool.false_eq_true, if_false, if_true]

theorem enter_punctuation (offset : Nat) {c : Char} (hc : isPunctuation c = true) :
    enter offset c = (some (close .punct offset (offset + c.utf8Size) [c]), .between) := by
  simp only [isPunctuation, Bool.not_eq_true', Bool.or_eq_false_iff] at hc
  simp [enter, hc]

-- A quote is no part of a bare word.
theorem quote_not_mem_bare {c : Char} {cs : List Char} (hc : (isSigil c || isNameChar c) = true)
    (hcs : cs.all isNameChar) : '"' ∉ c :: cs := by
  intro hmem
  rcases List.mem_cons.mp hmem with rfl | hmem
  · cases hc
  · have := List.all_eq_true.mp hcs _ hmem
    cases this

-- Name characters are added to an unfinished word.
theorem scan_word_append (start : Nat) (read cs next : List Char) (offset : Nat)
    (hcs : cs.all isNameChar) :
    scan (.word start read) offset (cs ++ next) =
      scan (.word start (cs.reverse ++ read)) (offset + byteLength cs) next := by
  induction cs generalizing read offset with
  | nil => simp [byteLength]
  | cons c cs ih =>
    simp only [List.all_cons, Bool.and_eq_true] at hcs
    simp only [List.cons_append, scan, step, hcs.1, if_true, List.nil_append, Option.map_id_fun',
      id_eq]
    rw [ih _ _ hcs.2]
    simp [byteLength, Nat.add_assoc]

-- An unfinished word is finished by whatever does not continue it.
theorem scan_word_end (start : Nat) (read next : List Char) (offset : Nat)
    (hnext : ∀ c ∈ next.head?, (isNameChar c || (c == '"' && takesQuote read)) = false) :
    scan (.word start read) offset next =
      (scan .between offset next).map (close .word start offset read :: ·) := by
  cases next with
  | nil => simp [scan]
  | cons c cs =>
    have hc := hnext c rfl
    rw [Bool.or_eq_false_iff] at hc
    simp [scan, step, hc.1, hc.2, Function.comp_def]

-- Quotes end at the next quote.
theorem scan_quoted (kind : TokenKind) (start : Nat) (read body next : List Char) (offset : Nat)
    (hbody : '"' ∉ body) :
    scan (.quoted kind start read) offset (body ++ '"' :: next) =
      (scan .between (offset + byteLength body + 1) next).map
        (close kind start (offset + byteLength body + 1) ('"' :: (body.reverse ++ read)) :: ·) := by
  induction body generalizing read offset with
  | nil => simp [scan, step, byteLength, Char.utf8Size]
  | cons c body ih =>
    simp only [List.mem_cons, not_or] at hbody
    have hc : (c == '"') = false := by simpa using Ne.symm hbody.1
    simp only [List.cons_append, scan, step, hc, Bool.false_eq_true, if_false, List.nil_append,
      Option.map_id_fun', id_eq]
    rw [ih _ _ hbody.2]
    simp [byteLength, Nat.add_assoc]

theorem scan_quoted_unclosed (kind : TokenKind) (start : Nat) (read cs : List Char) (offset : Nat)
    (hcs : '"' ∉ cs) : scan (.quoted kind start read) offset cs = none := by
  induction cs generalizing read offset with
  | nil => rfl
  | cons c cs ih =>
    simp only [List.mem_cons, not_or] at hcs
    have hc : (c == '"') = false := by simpa using Ne.symm hcs.1
    simp [scan, step, hc, ih _ _ hcs.2]

-- A comment lasts to the end of its line.
theorem scan_comment (cs next : List Char) (offset : Nat) (hcs : '\n' ∉ cs)
    (hnext : ∀ c ∈ next.head?, c = '\n') :
    scan .comment offset (cs ++ next) = scan .between (offset + byteLength cs) next := by
  induction cs generalizing offset with
  | nil =>
    cases next with
    | nil => rfl
    | cons c next =>
      obtain rfl : c = '\n' := hnext c rfl
      simp [scan, step, enter, isBlank, byteLength]
  | cons c cs ih =>
    simp only [List.mem_cons, not_or] at hcs
    have hc : (c == '\n') = false := by simpa using Ne.symm hcs.1
    simp only [List.cons_append, scan, step, hc, Bool.false_eq_true, if_false, List.nil_append,
      Option.map_id_fun', id_eq]
    rw [ih _ hcs.2]
    simp [byteLength, Nat.add_assoc]

-- A token that the next character does not continue.
theorem scan_shape {kind : TokenKind} {s : String} {next : List Char} {offset : Nat}
    (hshape : Shape kind s.toList)
    (hnext : ∀ c ∈ next.head?, (Piece.token kind s).continues c = false) :
    scan .between offset (s.toList ++ next) =
      (scan .between (offset + byteLength s.toList) next).map
        (close kind offset (offset + byteLength s.toList) s.toList.reverse :: ·) := by
  have hsize : '"'.utf8Size = 1 := rfl
  generalize hcs : s.toList = cs at hshape ⊢
  cases hshape with
  | @bare c cs hc hall =>
    have hquote : (c :: cs).contains '"' = false := by simpa using quote_not_mem_bare hc hall
    have hend : ∀ d ∈ next.head?,
        (isNameChar d || (d == '"' && takesQuote (c :: cs).reverse)) = false := by
      intro d hd
      have := hnext d hd
      simpa only [Piece.continues, hcs, hquote, Bool.not_false, Bool.true_and,
        takesQuote_reverse] using this
    simp only [List.cons_append, scan, step, enter_word offset hc, Option.toList_none,
      List.nil_append, Option.map_id_fun', id_eq]
    rw [scan_word_append _ _ _ _ _ hall, ← List.reverse_cons, scan_word_end _ _ _ _ hend]
    simp [byteLength, Nat.add_assoc]
  | @quoted c body hc hbody =>
    have hword : (isSigil c || isNameChar c) = true := by
      rcases Bool.or_eq_true_iff.mp hc with hc | hc
      · simp [hc]
      · simp [beq_iff_eq.mp hc, isNameChar]
    have htakes : takesQuote [c] = true := hc
    have hname : isNameChar '"' = false := rfl
    simp only [List.cons_append, List.append_assoc, List.nil_append, scan, step,
      enter_word offset hword, htakes, hname, beq_self_eq_true, Bool.and_self, Bool.false_eq_true,
      if_false, if_true, Option.toList_none, Option.map_id_fun', id_eq]
    rw [scan_quoted _ _ _ _ _ _ hbody]
    simp [byteLength, Nat.add_assoc, hsize]
  | @string body hbody =>
    simp only [List.cons_append, List.append_assoc, List.nil_append, scan, step, enter]
    simp [isBlank, scan_quoted _ _ _ _ _ _ hbody, byteLength, Nat.add_assoc, hsize,
      Function.comp_def]
  | punct hc => simp [scan, step, enter_punctuation offset hc, byteLength]

theorem scan_blank {s : String} {next : List Char} {offset : Nat} (hblank : Blank s.toList)
    (hnext : ∀ c ∈ next.head?, (Piece.gap s).continues c = false) :
    scan .between offset (s.toList ++ next) =
      scan .between (offset + byteLength s.toList) next := by
  generalize hcs : s.toList = cs at hblank ⊢
  cases hblank with
  | char hc => simp [scan, step, enter_blank offset hc, byteLength]
  | @comment cs hnewline =>
    have hline : ∀ c ∈ next.head?, c = '\n' := by
      simpa [Piece.continues, startsWithChar, hcs] using hnext
    simp only [List.cons_append, scan, step, enter, isBlank]
    simp [scan_comment _ _ _ hnewline hline, byteLength, Nat.add_assoc]

end Lexer

namespace Piece

variable {p : Piece} {ps qs : List Piece} {next : Option Char}

@[simp]
theorem spell_nil : spell [] = [] := rfl

@[simp]
theorem spell_cons (p : Piece) (ps : List Piece) : spell (p :: ps) = p.text.toList ++ spell ps :=
  rfl

@[simp]
theorem spell_append (ps qs : List Piece) : spell (ps ++ qs) = spell ps ++ spell qs :=
  List.flatMap_append

@[simp]
theorem print_token (kind : TokenKind) (s : String) : print [token kind s] = s := by
  rw [print, spell_cons, spell_nil, List.append_nil, text, String.ofList_toList]

@[simp]
theorem texts_nil : texts [] = [] := by simp [texts]

@[simp]
theorem texts_token (kind : TokenKind) (s : String) (ps : List Piece) :
    texts (token kind s :: ps) = s :: texts ps := by
  simp [texts, isToken, text]

@[simp]
theorem texts_gap (s : String) (ps : List Piece) : texts (gap s :: ps) = texts ps := by
  simp [texts, isToken]

@[simp]
theorem texts_append (ps qs : List Piece) : texts (ps ++ qs) = texts ps ++ texts qs := by
  simp [texts]

theorem place_append (offset : Nat) (ps qs : List Piece) :
    place offset (ps ++ qs) = place offset ps ++ place (offset + byteLength (spell ps)) qs := by
  induction ps generalizing offset with
  | nil => simp [place, byteLength]
  | cons p ps ih => cases p <;> simp [place, ih, text, Nat.add_assoc]

theorem map_text_place (offset : Nat) (ps : List Piece) :
    (place offset ps).map (·.text) = texts ps := by
  induction ps generalizing offset with
  | nil => rfl
  | cons p ps ih => cases p <;> simp [place, ih]

theorem length_place (offset : Nat) (ps : List Piece) :
    (place offset ps).length = (texts ps).length := by
  rw [← map_text_place offset ps, List.length_map]

theorem place_add (offset shift : Nat) (ps : List Piece) :
    place (offset + shift) ps = (place offset ps).map (·.shift shift) := by
  induction ps generalizing offset with
  | nil => rfl
  | cons p ps ih =>
    cases p with
    | token kind s =>
      have := ih (offset + byteLength s.toList)
      simpa [place, Token.shift, Nat.add_right_comm] using this
    | gap s =>
      have := ih (offset + byteLength s.toList)
      simpa [place, Nat.add_right_comm] using this

-- A piece that ends before `next` is scanned into its token, or into nothing.
theorem scan_piece (p : Piece) (next : List Char) (hvalid : p.Valid) (hmeets : p.Meets next.head?)
    (offset : Nat) :
    scan .between offset (p.text.toList ++ next) =
      (scan .between (offset + byteLength p.text.toList) next).map (place offset [p] ++ ·) := by
  cases p with
  | gap s =>
    rw [text, scan_blank hvalid hmeets]
    simp [place]
  | token kind s =>
    rw [text, scan_shape hvalid hmeets]
    simp [place, close]

-- Pieces that stay apart are scanned one by one.
theorem scan_spell (ps : List Piece) (next : List Char) (hps : Fits ps next.head?) (offset : Nat) :
    scan .between offset (spell ps ++ next) =
      (scan .between (offset + byteLength (spell ps)) next).map (place offset ps ++ ·) := by
  induction ps generalizing offset with
  | nil => simp [place, byteLength]
  | cons p ps ih =>
    obtain ⟨hvalid, hmeets, hps⟩ := hps
    have hmeets' : p.Meets (spell ps ++ next).head? := by rwa [List.head?_append]
    have hplace : place offset (p :: ps) =
        place offset [p] ++ place (offset + byteLength p.text.toList) ps := by
      simpa using place_append offset [p] ps
    rw [spell_cons, List.append_assoc, scan_piece p _ hvalid hmeets', ih hps, hplace]
    simp [Function.comp_def, Nat.add_assoc]

theorem exists_first_word {c : Char} {cs : List Char} {offset : Nat} {ts : List Token}
    (hc : (isSigil c || isNameChar c) = true)
    (hscan : scan .between offset (c :: cs) = some ts) :
    ∃ (p : Piece) (rest : List Char), c :: cs = p.text.toList ++ rest ∧ p.text ≠ "" ∧ p.Valid ∧
      p.Meets rest.head? := by
  have hcs : cs.takeWhile isNameChar ++ cs.dropWhile isNameChar = cs :=
    List.takeWhile_append_dropWhile
  have hnames : (cs.takeWhile isNameChar).all isNameChar := List.all_takeWhile
  have hrest := List.head?_dropWhile_not isNameChar cs
  generalize cs.takeWhile isNameChar = names, cs.dropWhile isNameChar = rest at hcs hnames hrest
  subst hcs
  by_cases hquote : rest.head? = some '"' ∧ takesQuote (c :: names) = true
  · -- The quote belongs to the word, and the word is over at the next one.
    obtain ⟨hhead, htakes⟩ := hquote
    obtain ⟨rest, rfl⟩ := List.head?_eq_some_iff.mp hhead
    obtain rfl : names = [] := by
      cases names with
      | nil => rfl
      | cons d names => cases htakes
    have hmem : '"' ∈ rest := by
      by_contra hmem
      have hname : isNameChar '"' = false := rfl
      simp [scan, step, enter_word offset hc, htakes, hname, scan_quoted_unclosed _ _ _ _ _ hmem]
        at hscan
    obtain ⟨body, rest, rfl, hbody⟩ := List.eq_append_cons_of_mem hmem
    refine ⟨token .word (String.ofList (c :: '"' :: (body ++ ['"']))), rest, by simp [text],
      by simp [text], ?_, ?_⟩
    · simpa [Valid] using Shape.quoted htakes hbody
    · simp [Meets, continues]
  · refine ⟨token .word (String.ofList (c :: names)), rest, by simp [text], by simp [text], ?_, ?_⟩
    · simpa [Valid] using Shape.bare hc hnames
    · intro d hd
      simp only [Option.mem_def] at hd
      simp only [hd] at hrest hquote
      simp only [continues, String.toList_ofList, hrest, Bool.false_or]
      by_cases hdquote : d = '"'
      · subst hdquote
        simp_all
      · simp [hdquote]

-- The first piece of a text that can be split into tokens.
theorem exists_first {c : Char} {cs : List Char} {offset : Nat} {ts : List Token}
    (hscan : scan .between offset (c :: cs) = some ts) :
    ∃ (p : Piece) (rest : List Char), c :: cs = p.text.toList ++ rest ∧ p.text ≠ "" ∧ p.Valid ∧
      p.Meets rest.head? := by
  by_cases hword : (isSigil c || isNameChar c) = true
  · exact exists_first_word hword hscan
  by_cases hblank : isBlank c = true
  · refine ⟨gap (String.ofList [c]), cs, by simp [text], by simp [text], ?_, ?_⟩
    · simpa [Valid] using Blank.char hblank
    · have hne : c ≠ ';' := by
        rintro rfl
        cases hblank
      simp [Meets, continues, startsWithChar, hne]
  by_cases hcomment : c = ';'
  · subst hcomment
    have hcs : cs.takeWhile (· != '\n') ++ cs.dropWhile (· != '\n') = cs :=
      List.takeWhile_append_dropWhile
    have hline : '\n' ∉ cs.takeWhile (· != '\n') := by
      intro hmem
      have := List.all_eq_true.mp (List.all_takeWhile (p := (· != '\n')) (l := cs)) _ hmem
      cases this
    have hrest := List.head?_dropWhile_not (· != '\n') cs
    refine ⟨gap (String.ofList (';' :: cs.takeWhile (· != '\n'))), cs.dropWhile (· != '\n'),
      by simp [text, hcs], by simp [text], by simpa [Valid] using Blank.comment hline, ?_⟩
    intro d hd
    rw [Option.mem_def] at hd
    simpa [hd, continues, startsWithChar] using hrest
  by_cases hquote : c = '"'
  · subst hquote
    have hmem : '"' ∈ cs := by
      by_contra hmem
      simp [scan, step, enter, isBlank, scan_quoted_unclosed _ _ _ _ _ hmem] at hscan
    obtain ⟨body, rest, rfl, hbody⟩ := List.eq_append_cons_of_mem hmem
    refine ⟨token .string (String.ofList ('"' :: (body ++ ['"']))), rest, by simp [text],
      by simp [text], ?_, ?_⟩
    · simpa [Valid] using Shape.string hbody
    · simp [Meets, continues]
  · refine ⟨token .punct (String.ofList [c]), cs, by simp [text], by simp [text], ?_, ?_⟩
    · have hpunct : isPunctuation c = true := by
        simp_all [isPunctuation]
      simpa [Valid] using Shape.punct hpunct
    · simp [Meets, continues]

-- A text that can be split into tokens is spelled by pieces that stay apart.
theorem exists_pieces (cs : List Char) (offset : Nat) (ts : List Token)
    (hscan : scan .between offset cs = some ts) :
    ∃ ps, cs = spell ps ∧ Fits ps none ∧ ts = place offset ps := by
  obtain ⟨n, hn⟩ : ∃ n, cs.length ≤ n := ⟨_, Nat.le_refl _⟩
  induction n generalizing cs offset ts with
  | zero =>
    obtain rfl : cs = [] := List.length_eq_zero_iff.mp (by omega)
    exact ⟨[], rfl, trivial, by simpa [scan, place] using hscan.symm⟩
  | succ n ih =>
    cases cs with
    | nil => exact ⟨[], rfl, trivial, by simpa [scan, place] using hscan.symm⟩
    | cons c cs =>
      obtain ⟨p, rest, hcs, hne, hvalid, hmeets⟩ := exists_first hscan
      rw [hcs, scan_piece p rest hvalid hmeets] at hscan
      obtain ⟨ts, hrest, rfl⟩ := Option.map_eq_some_iff.mp hscan
      have hlength := congrArg List.length hcs
      have hpos : 0 < p.text.toList.length := by
        rw [List.length_pos_iff]
        simpa using hne
      rw [List.length_append] at hlength
      obtain ⟨ps, rfl, hps, rfl⟩ := ih rest _ ts hrest (by omega)
      refine ⟨p :: ps, hcs, ⟨hvalid, ?_, hps⟩, ?_⟩
      · simpa [first] using hmeets
      · simpa using (place_append offset [p] ps).symm

-- The pieces of a text are where its tokens come from.
theorem tokenize_eq_ok_iff {source : String} {ts : List Token} :
    tokenize source = .ok ts ↔ ∃ ps, source = print ps ∧ Fits ps none ∧ ts = place 0 ps := by
  have hiff : tokenize source = .ok ts ↔ scan .between 0 source.toList = some ts := by
    unfold tokenize
    cases scan .between 0 source.toList <;> simp
  rw [hiff]
  constructor
  · intro hscan
    obtain ⟨ps, hps, hfits, hts⟩ := exists_pieces _ _ _ hscan
    exact ⟨ps, by simp [print, ← hps], hfits, hts⟩
  · rintro ⟨ps, rfl, hfits, rfl⟩
    have := scan_spell ps [] hfits 0
    simpa [print, scan] using this

@[simp]
theorem first_nil (next : Option Char) : first [] next = next := rfl

theorem first_append (ps qs : List Piece) (next : Option Char) :
    first (ps ++ qs) next = first ps (first qs next) := by
  simp [first, List.head?_append, Option.or_assoc]

@[simp]
theorem fits_nil (next : Option Char) : Fits [] next := trivial

@[simp]
theorem fits_cons : Fits (p :: ps) next ↔ p.Valid ∧ p.Meets (first ps next) ∧ Fits ps next :=
  Iff.rfl

@[simp]
theorem fits_append : Fits (ps ++ qs) next ↔ Fits ps (first qs next) ∧ Fits qs next := by
  induction ps with
  | nil => simp
  | cons p ps ih => simp [ih, first_append, and_assoc]

end Piece

end TestFocus
