import TestFocus.Proofs.Reading.Piece
import TestFocus.Reader.Basic

-- Readers on a cursor that stands between two pieces of a text. What a reader does there depends
-- on the pieces not yet read; what it returns is spelled by the pieces it moves past.

namespace TestFocus

open Piece Text

namespace Cursor

-- The cursor on a text of which `read` has been read and `unread` has not.
def between (read unread : List Piece) : Cursor :=
  { source := print (read ++ unread)
    tokens := place 0 (read ++ unread)
    pos := (texts read).length }

variable {read unread ps : List Piece} {kind : TokenKind} {s t : String}

theorem ofText_of_tokenize {ps : List Piece} (hps : tokenize (print ps) = .ok (place 0 ps)) :
    ofText (print ps) = .ok (between [] ps) := by
  simp [ofText, hps, between, Except.map]

theorem ofText_print {ps : List Piece} (hps : Fits ps none) :
    ofText (print ps) = .ok (between [] ps) :=
  ofText_of_tokenize (tokenize_eq_ok_iff.mpr ⟨ps, rfl, hps, rfl⟩)

-- A gap counts as read as soon as the token before it is.
@[simp]
theorem between_gap (read : List Piece) (s : String) (unread : List Piece) :
    between read (gap s :: unread) = between (read ++ [gap s]) unread := by
  simp [between]

theorem between_gaps {gaps : List Piece} (hgaps : texts gaps = []) (read unread : List Piece) :
    between read (gaps ++ unread) = between (read ++ gaps) unread := by
  simp [between, hgaps]

theorem rest_between (read unread : List Piece) :
    (between read unread).rest = place (byteLength (spell read)) unread := by
  simp only [rest, between, place_append, Nat.zero_add]
  exact List.drop_left' (length_place 0 read)

@[simp]
theorem map_text_rest_between (read unread : List Piece) :
    (between read unread).rest.map (·.text) = texts unread := by
  rw [rest_between, map_text_place]

@[simp]
theorem remaining_between (read unread : List Piece) :
    (between read unread).remaining = (texts unread).length := by
  simp [remaining, between, length_place]

@[simp]
theorem isEmpty_between (read unread : List Piece) :
    (between read unread).isEmpty = (texts unread).isEmpty := by
  cases hunread : texts unread with
  | nil => simp [isEmpty, between, length_place, hunread]
  | cons s ss => simp [isEmpty, between, length_place, hunread]

theorem peekNth?_between (read unread : List Piece) (n : Nat) :
    (between read unread).peekNth? n = (place (byteLength (spell read)) unread)[n]? := by
  rw [← rest_between]
  simp [peekNth?, rest]

-- The token of a piece that comes after `read`.
def placed (read : List Piece) (kind : TokenKind) (s : String) : Token :=
  { kind, text := s, start := byteLength (spell read)
    stop := byteLength (spell read) + byteLength s.toList }

@[simp]
theorem peek?_between_token (read unread : List Piece) (kind : TokenKind) (s : String) :
    (between read (token kind s :: unread)).peek? = some (placed read kind s) := by
  simp [peek?, peekNth?_between, place, placed]

@[simp]
theorem peek?_between_nil (read : List Piece) : (between read []).peek? = none := by
  simp [peek?, peekNth?_between, place]

@[simp]
theorem peekText?_between (read unread : List Piece) :
    (between read unread).peekText? = (texts unread).head? := by
  rw [← map_text_place (byteLength (spell read)), List.head?_eq_getElem?, List.getElem?_map,
    ← peekNth?_between]
  rfl

@[simp]
theorem nthIs_between (read unread : List Piece) (n : Nat) (s : String) :
    (between read unread).nthIs n s = ((texts unread)[n]? == some s) := by
  rw [nthIs, peekNth?_between, ← List.getElem?_map, map_text_place]

@[simp]
theorem nextIs_between (read unread : List Piece) (s : String) :
    (between read unread).nextIs s = ((texts unread).head? == some s) := by
  rw [nextIs, nthIs_between, List.head?_eq_getElem?]

@[simp]
theorem nextFits_between (read unread : List Piece) (p : String → Bool) :
    (between read unread).nextFits p = (texts unread).head?.any p := by
  rw [nextFits, peekText?_between]

theorem head?_texts (ps : List Piece) : (texts ps).head? = (next? ps).map (·.2) := by
  induction ps with
  | nil => simp [next?]
  | cons p ps ih => cases p <;> simp [next?, ih]

-- What comes next, if only its kind and its text matter.
theorem map_peek?_between (read unread : List Piece) :
    (between read unread).peek?.map (fun t => (t.kind, t.text)) = next? unread := by
  induction unread generalizing read with
  | nil => simp [next?]
  | cons p unread ih =>
    cases p with
    | token kind s => simp [next?, placed]
    | gap s => simpa [next?] using ih (read ++ [gap s])

theorem advanceBy_between (read ps unread : List Piece) :
    (between read (ps ++ unread)).advanceBy (texts ps).length = between (read ++ ps) unread := by
  simp [advanceBy, between, length_place]

@[simp]
theorem advance_between_token (read unread : List Piece) (kind : TokenKind) (s : String) :
    (between read (token kind s :: unread)).advance =
      between (read ++ [token kind s]) unread := by
  rw [advance, isEmpty_between]
  simp [between]

end Cursor

namespace Piece

-- The pieces begin and end with a token, so that reading them takes exactly what they spell.
structure Solid (ps : List Piece) : Prop where
  head : ps.head?.any (·.isToken)
  last : ps.getLast?.any (·.isToken)

variable {ps qs : List Piece}

theorem Solid.exists_head (h : Solid ps) : ∃ kind s qs, ps = token kind s :: qs := by
  cases ps with
  | nil => cases h.head
  | cons p ps =>
    cases p with
    | token kind s => exact ⟨kind, s, ps, rfl⟩
    | gap s => cases h.head

theorem Solid.exists_last (h : Solid ps) : ∃ kind s qs, ps = qs ++ [token kind s] := by
  have hlast := h.last
  rcases List.eq_nil_or_concat' ps with rfl | ⟨qs, p, rfl⟩
  · cases hlast
  · cases p with
    | token kind s => exact ⟨kind, s, qs, rfl⟩
    | gap s => simp [isToken] at hlast

theorem Solid.append (hps : Solid ps) (hqs : Solid qs) (middle : List Piece) :
    Solid (ps ++ (middle ++ qs)) := by
  obtain ⟨kind, s, ps, rfl⟩ := hps.exists_head
  obtain ⟨kind', s', qs, rfl⟩ := hqs.exists_last
  constructor
  · simp [isToken]
  · simp only [← List.append_assoc, List.getLast?_concat]
    rfl

theorem solid_token (kind : TokenKind) (s : String) : Solid [token kind s] := ⟨rfl, rfl⟩

end Piece

namespace Cursor

theorem getElem?_place (read unread : List Piece) (kind : TokenKind) (s : String) :
    (place 0 (read ++ token kind s :: unread))[(texts read).length]? =
      some (placed read kind s) := by
  have hlength : (texts read).length = (place 0 read).length := (length_place 0 read).symm
  rw [place_append, hlength, List.getElem?_append_right (Nat.le_refl _)]
  simp [place, placed]

-- The first and the last token of the pieces, and the bytes between which these stand.
theorem exists_ends (read unread : List Piece) (hps : Solid ps) :
    ∃ first last,
      (place 0 (read ++ ps ++ unread))[(texts read).length]? = some first ∧
      (place 0 (read ++ ps ++ unread))[(texts (read ++ ps)).length - 1]? = some last ∧
      first.start = byteLength (spell read) ∧
      last.stop = byteLength (spell read) + byteLength (spell ps) := by
  obtain ⟨kind, s, qs, hhead⟩ := hps.exists_head
  obtain ⟨kind', s', qs', hlast⟩ := hps.exists_last
  refine ⟨placed read kind s, placed (read ++ qs') kind' s', ?_, ?_, ?_, ?_⟩
  · simpa [hhead] using getElem?_place read (qs ++ unread) kind s
  · simpa [hlast] using getElem?_place (read ++ qs') unread kind' s'
  · simp [placed]
  · simp [placed, hlast, text, Nat.add_assoc]

theorem textSince_between (read ps unread : List Piece) (hps : Solid ps) :
    (between (read ++ ps) unread).textSince (texts read).length = print ps := by
  obtain ⟨first, last, hfirst, hlast, hstart, hstop⟩ := exists_ends read unread hps
  obtain ⟨kind, s, qs, hhead⟩ := hps.exists_head
  have hpos : ¬ (texts (read ++ ps)).length ≤ (texts read).length := by simp [hhead]
  simp only [textSince, between, hpos, if_false, hfirst, hlast, hstart, hstop]
  simpa [print] using slice_append (spell read) (spell ps) (spell unread)

end Cursor

namespace Reader

open Cursor

variable {α β : Type} {read unread ps rest : List Piece} {kind : TokenKind} {s : String}

@[simp]
theorem bind_apply (x : Reader α) (f : α → Reader β) (c : Cursor) :
    (x >>= f) c = match x c with
      | .ok a c' => f a c'
      | .error e c' => .error e c' := by
  cases hx : x c <;> simp [bind, EStateM.bind, hx]

@[simp]
theorem pure_apply (a : α) (c : Cursor) : (pure a : Reader α) c = .ok a c := rfl

@[simp]
theorem get_apply (c : Cursor) : (get : Reader Cursor) c = .ok c c := rfl

@[simp]
theorem modify_apply (f : Cursor → Cursor) (c : Cursor) :
    (modify f : Reader PUnit) c = .ok ⟨⟩ (f c) := rfl

@[simp]
theorem throw_apply (e : ParseError) (c : Cursor) : (throw e : Reader α) c = .error e c := rfl

@[simp]
theorem map_apply (f : α → β) (x : Reader α) (c : Cursor) :
    (f <$> x) c = match x c with
      | .ok a c' => .ok (f a) c'
      | .error e c' => .error e c' := by
  cases hx : x c <;> simp [Functor.map, EStateM.map, hx]

@[simp]
theorem discard_apply (x : Reader α) (c : Cursor) :
    (discard x : Reader Unit) c = match x c with
      | .ok _ c' => .ok () c'
      | .error e c' => .error e c' := by
  cases hx : x c <;> simp [discard, Functor.discard, Functor.mapConst, EStateM.map, hx]

-- Whatever the reader returns there satisfies the property.
def Gives (P : α → Prop) (x : Reader α) (c : Cursor) : Prop :=
  ∀ a c', x c = .ok a c' → P a

theorem Gives.bind {P : β → Prop} {x : Reader α} {f : α → Reader β} {c : Cursor}
    (h : ∀ a c', x c = .ok a c' → Gives P (f a) c') : Gives P (x >>= f) c := by
  intro b c' hread
  rw [bind_apply] at hread
  cases hx : x c with
  | ok a next =>
    rw [hx] at hread
    exact h a next hx b c' hread
  | error e next =>
    rw [hx] at hread
    cases hread

theorem Gives.pure {P : α → Prop} {a : α} {c : Cursor} (h : P a) : Gives P (pure a) c := by
  rintro b c' ⟨⟩
  exact h

@[simp]
theorem advance_token (read unread : List Piece) (kind : TokenKind) (s : String) :
    advance (between read (token kind s :: unread)) =
      .ok (some (placed read kind s)) (between (read ++ [token kind s]) unread) := by
  simp [advance]

@[simp]
theorem next_token (expected : String) (read unread : List Piece) (kind : TokenKind) (s : String) :
    next expected (between read (token kind s :: unread)) =
      .ok (placed read kind s) (between (read ++ [token kind s]) unread) := by
  simp [next]

@[simp]
theorem expect_token (expected : String) (read unread : List Piece) (kind : TokenKind)
    (s : String) :
    expect s expected (between read (token kind s :: unread)) =
      .ok (placed read kind s) (between (read ++ [token kind s]) unread) := by
  simp [expect, placed]

@[simp]
theorem comma_token (read unread : List Piece) (kind : TokenKind) :
    comma (between read (token kind "," :: unread)) =
      .ok () (between (read ++ [token kind ","]) unread) := by
  simp [comma]

@[simp]
theorem eat_token (s t : String) (read unread : List Piece) (kind : TokenKind) :
    eat s (between read (token kind t :: unread)) =
      if t = s then .ok true (between (read ++ [token kind t]) unread)
      else .ok false (between read (token kind t :: unread)) := by
  by_cases h : t = s <;> simp [eat, h]

theorem eat_of_ne (h : (texts unread).head? ≠ some s) :
    eat s (between read unread) = .ok false (between read unread) := by
  simp [eat, h]

@[simp]
theorem eatIf_token (p : String → Bool) (t : String) (read unread : List Piece)
    (kind : TokenKind) :
    eatIf p (between read (token kind t :: unread)) =
      if p t then .ok (some t) (between (read ++ [token kind t]) unread)
      else .ok none (between read (token kind t :: unread)) := by
  by_cases h : p t = true <;> simp [eatIf, h]

theorem eatIf_of_not (p : String → Bool) (h : (texts unread).head?.any p = false) :
    eatIf p (between read unread) = .ok none (between read unread) := by
  simp [eatIf, h]

@[simp]
theorem string_token (expected : String) (read unread : List Piece) (s : String) :
    string expected (between read (token .string s :: unread)) =
      .ok s (between (read ++ [token .string s]) unread) := by
  simp [string, placed]

@[simp]
theorem finish_nil (context : String) (read : List Piece) :
    finish context (between read []) = .ok () (between read []) := by
  simp [finish]

-- A run of tokens ends where the next token does not belong to it.
theorem run_append (p : String → Bool) (read ps rest : List Piece) (hps : (texts ps).all p)
    (hrest : (texts rest).head?.any p = false) :
    run p (between read (ps ++ rest)) = .ok (texts ps) (between (read ++ ps) rest) := by
  have htake : (texts ps ++ texts rest).takeWhile p = texts ps := by
    rw [List.takeWhile_append_of_pos (List.all_eq_true.mp hps)]
    cases hrest' : texts rest with
    | nil => simp
    | cons s ss =>
      rw [hrest', List.head?_cons, Option.any_some] at hrest
      simp [hrest]
  simp [run, htake, advanceBy_between]

theorem covered_of_ok {reader : Reader Unit} (hps : Solid ps)
    (h : reader (between read (ps ++ rest)) = .ok () (between (read ++ ps) rest)) :
    covered reader (between read (ps ++ rest)) = .ok (print ps) (between (read ++ ps) rest) := by
  have hpos : (between read (ps ++ rest)).pos = (texts read).length := rfl
  simp [covered, h, hpos, textSince_between _ _ _ hps]

-- Running a reader over a text is reading the pieces of the text from the first one on.
theorem parse_pieces {reader : Reader α} {a : α} {c : Cursor} (hps : Fits ps none)
    (h : reader (between [] ps) = .ok a c) : reader.parse (print ps) = .ok a := by
  simp [parse, ofText_print hps, h, bind, Except.bind]

end Reader

namespace Reader

open Cursor

-- On a text in front of some white space and of more text, the reader returns exactly the text and
-- leaves the cursor on the first token of what comes after.
def ReadsBefore (reader : Reader String) (text blank rest : String) : Prop :=
  ∃ ts c c', tokenize rest = .ok ts ∧ Cursor.ofText (text ++ blank ++ rest) = .ok c ∧
    reader c = .ok text c' ∧ c'.source = c.source ∧ c'.tokens = c.tokens ∧
    c'.rest = ts.map (·.shift (byteLength (text ++ blank).toList))

theorem readsBefore_of_pieces {reader : Reader String} {ps gaps qs : List Piece}
    (hgaps : texts gaps = []) (hqs : tokenize (print qs) = .ok (place 0 qs))
    (hall : tokenize (print (ps ++ (gaps ++ qs))) = .ok (place 0 (ps ++ (gaps ++ qs))))
    (hread : reader (between [] (ps ++ (gaps ++ qs))) = .ok (print ps) (between ps (gaps ++ qs))) :
    ReadsBefore reader (print ps) (print gaps) (print qs) := by
  have htext : print ps ++ print gaps ++ print qs = print (ps ++ (gaps ++ qs)) := by
    simp [print, String.append_assoc]
  have hplace (offset : Nat) : place offset gaps = [] := by
    rw [← List.length_eq_zero_iff, length_place, hgaps]
    rfl
  refine ⟨_, _, _, hqs, by rw [htext]; exact ofText_of_tokenize hall, hread, rfl, rfl, ?_⟩
  rw [rest_between, place_append, hplace, ← place_add]
  simp [print]

end Reader

namespace Piece

-- Each opening bracket has its closing one, and what stands between them is balanced too.
inductive Balanced : List Piece → Prop where
  | nil : Balanced []
  | gap (s : String) {ps : List Piece} : Balanced ps → Balanced (gap s :: ps)
  | token {kind : TokenKind} {s : String} {ps : List Piece} :
      (kind = .punct → Bracket.closer? s = none ∧ Bracket.isCloser s = false) →
      Balanced ps → Balanced (token kind s :: ps)
  | group {opening closing : String} {ps qs : List Piece} :
      Bracket.closer? opening = some closing → Balanced ps → Balanced qs →
      Balanced (Piece.token .punct opening :: (ps ++ Piece.token .punct closing :: qs))

theorem Balanced.append (hps : Balanced ps) (hqs : Balanced qs) : Balanced (ps ++ qs) := by
  induction hps with
  | nil => exact hqs
  | gap s _ ih => exact .gap s ih
  | token hs _ ih => exact .token hs ih
  | group hclose hinner _ _ ih =>
    rw [List.cons_append, List.append_assoc, List.cons_append]
    exact .group hclose hinner ih

end Piece

namespace Bracket

variable {ps : List Piece}

theorem closer?_closing {opening closing : String} (h : closer? opening = some closing) :
    closer? closing = none := by
  unfold closer? at h
  split at h <;> cases h <;> rfl

theorem isCloser_closing {opening closing : String} (h : closer? opening = some closing) :
    isCloser closing = true := by
  unfold closer? at h
  split at h <;> cases h <;> rfl

-- Balanced pieces leave the closers that are due as they were.
theorem matchGroup_place (hps : Balanced ps) (awaited : String) (outer : List String)
    (hawaited : isCloser awaited = true) (offset : Nat) (ts : List Token) :
    matchGroup (awaited :: outer) (place offset ps ++ ts) =
      ((matchGroup (awaited :: outer) ts).1,
        (matchGroup (awaited :: outer) ts).2 + (texts ps).length) := by
  induction hps generalizing awaited outer offset ts with
  | nil => simp [place]
  | gap s _ ih => simpa [place] using ih _ _ hawaited _ _
  | @token kind s ps hs _ ih =>
    simp only [place, List.cons_append, matchGroup, ih _ _ hawaited, texts_token, List.length_cons,
      ← Nat.add_assoc]
    by_cases hkind : kind = .punct
    · obtain ⟨hopen, hclose⟩ := hs hkind
      have hne : s ≠ awaited := by
        rintro rfl
        rw [hawaited] at hclose
        cases hclose
      simp [hkind, hopen, hclose, hne]
    · simp [hkind]
  | @group opening closing ps qs hclose _ _ ihps ihqs =>
    simp only [place, place_append, List.cons_append, List.append_assoc, matchGroup, hclose,
      ihps _ _ (isCloser_closing hclose), ihqs _ _ hawaited, closer?_closing hclose]
    simp
    omega

end Bracket

namespace Reader

open Cursor

variable {ps : List Piece} {opening closing : String}

theorem group_balanced (read rest : List Piece) (hclose : Bracket.closer? opening = some closing)
    (hps : Balanced ps) :
    group (between read (token .punct opening :: (ps ++ token .punct closing :: rest))) =
      .ok (print (token .punct opening :: (ps ++ [token .punct closing])))
        (between (read ++ token .punct opening :: (ps ++ [token .punct closing])) rest) := by
  have hmatch : Bracket.matchGroup [closing]
      (between (read ++ [token .punct opening]) (ps ++ token .punct closing :: rest)).rest =
        (true, (texts ps).length + 1) := by
    rw [rest_between, place_append,
      Bracket.matchGroup_place hps _ _ (Bracket.isCloser_closing hclose)]
    simp [place, Bracket.matchGroup, Bracket.closer?_closing hclose, Nat.add_comm]
  have hmove : (between (read ++ [token .punct opening])
      (ps ++ token .punct closing :: rest)).advanceBy ((texts ps).length + 1) =
        between (read ++ token .punct opening :: (ps ++ [token .punct closing])) rest := by
    simpa using
      advanceBy_between (read ++ [token .punct opening]) (ps ++ [token .punct closing]) rest
  have hsolid : Solid (token .punct opening :: (ps ++ [token .punct closing])) :=
    (solid_token .punct opening).append (solid_token .punct closing) ps
  have htext := textSince_between read _ rest hsolid
  have hpos (unread : List Piece) : (between read unread).pos = (texts read).length := rfl
  simp [group, placed, Token.isWord, hclose, hmatch, hmove, htext, hpos]

theorem skipGroup_balanced (read rest : List Piece)
    (hclose : Bracket.closer? opening = some closing) (hps : Balanced ps) :
    skipGroup (between read (token .punct opening :: (ps ++ token .punct closing :: rest))) =
      .ok () (between (read ++ token .punct opening :: (ps ++ [token .punct closing])) rest) := by
  simp [skipGroup, group_balanced read rest hclose hps]

-- How the items of a list are laid out, each knowing whether it is the first.
def laid {α : Type} (lay : Bool → α → List Piece) : Bool → List α → List Piece
  | _, [] => []
  | isFirst, x :: xs => lay isFirst x ++ laid lay false xs

section UntilClose

variable {α β : Type} {close : String} {step : List β → Reader (List β)}
  {lay : Bool → α → List Piece} {result : α → β} {xs : List α} {kind : TokenKind}
  {gaps : List Piece} {rounds : Nat}

theorem untilCloseFrom_laid
    (hstep : ∀ done, ∀ x ∈ xs, ∀ read rest, step done (between read (lay done.isEmpty x ++ rest)) =
      .ok (done ++ [result x]) (between (read ++ lay done.isEmpty x) rest))
    (hopen : ∀ isFirst, ∀ x ∈ xs, ∃ s ss, texts (lay isFirst x) = s :: ss ∧ s ≠ close)
    (hgaps : texts gaps = []) (hrounds : xs.length < rounds) (done : List β)
    (read rest : List Piece) :
    untilCloseFrom close step rounds done
        (between read (laid lay done.isEmpty xs ++ (gaps ++ token kind close :: rest))) =
      .ok (done ++ xs.map result)
        (between (read ++ (laid lay done.isEmpty xs ++ (gaps ++ [token kind close]))) rest) := by
  induction xs generalizing rounds done read with
  | nil =>
    obtain ⟨rounds, rfl⟩ : ∃ n, rounds = n + 1 := ⟨rounds - 1, by simp at hrounds; omega⟩
    simp [untilCloseFrom, laid, between_gaps hgaps]
  | cons x xs ih =>
    obtain ⟨rounds, rfl⟩ : ∃ n, rounds = n + 1 := ⟨rounds - 1, by simp at hrounds; omega⟩
    obtain ⟨s, ss, htexts, hs⟩ := hopen done.isEmpty x (by simp)
    have heat : (texts (lay done.isEmpty x ++ (laid lay false xs ++
        (gaps ++ token kind close :: rest)))).head? ≠ some close := by
      simp [htexts, hs]
    have hitem := hstep done x (by simp) read
      (laid lay false xs ++ (gaps ++ token kind close :: rest))
    have hless : xs.length < rounds := by
      rw [List.length_cons] at hrounds
      omega
    have hmore := ih (fun done y hy => hstep done y (by simp [hy]))
      (fun isFirst y hy => hopen isFirst y (by simp [hy])) hless (done ++ [result x])
      (read ++ lay done.isEmpty x)
    have hnonempty : (done ++ [result x]).isEmpty = false := by simp
    rw [hnonempty] at hmore
    simp only [List.append_assoc] at hmore
    simp [untilCloseFrom, laid, eat_of_ne heat, hitem, hmore]

theorem untilClose_laid
    (hstep : ∀ done, ∀ x ∈ xs, ∀ read rest, step done (between read (lay done.isEmpty x ++ rest)) =
      .ok (done ++ [result x]) (between (read ++ lay done.isEmpty x) rest))
    (hopen : ∀ isFirst, ∀ x ∈ xs, ∃ s ss, texts (lay isFirst x) = s :: ss ∧ s ≠ close)
    (hgaps : texts gaps = []) (read rest : List Piece) :
    untilClose close step
        (between read (laid lay true xs ++ (gaps ++ token kind close :: rest))) =
      .ok (xs.map result)
        (between (read ++ (laid lay true xs ++ (gaps ++ [token kind close]))) rest) := by
  -- Each item has a token of its own, so there are enough rounds.
  have hlength (isFirst : Bool) : xs.length ≤ (texts (laid lay isFirst xs)).length := by
    clear hstep
    induction xs generalizing isFirst with
    | nil => simp
    | cons x xs ih =>
      obtain ⟨s, ss, htexts, -⟩ := hopen isFirst x (by simp)
      have := ih (fun isFirst y hy => hopen isFirst y (by simp [hy])) false
      simp only [laid, texts_append, htexts, List.length_append, List.length_cons]
      omega
  have hrounds : xs.length <
      (texts (laid lay true xs ++ (gaps ++ token kind close :: rest))).length + 1 := by
    have := hlength true
    simp only [texts_append, List.length_append]
    omega
  simp only [untilClose, bind_apply, get_apply, remaining_between]
  exact untilCloseFrom_laid hstep hopen hgaps hrounds [] read rest

end UntilClose

end Reader

end TestFocus
