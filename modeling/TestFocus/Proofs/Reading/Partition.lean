import TestFocus.Proofs.Reading.Piece

namespace TestFocus

open Lexer Text

namespace Lexer

-- What a character stands in, when nothing but quotes and comments is looked at.
inductive Zone where
  | plain
  | quotes
  | comment
deriving Repr, DecidableEq, Inhabited

-- A comment goes from a semicolon outside of quotes to the end of its line.
def Zone.after (zone : Zone) (c : Char) : Zone :=
  match zone with
  | .plain => if c == '"' then .quotes else if c == ';' then .comment else .plain
  | .quotes => if c == '"' then .plain else .quotes
  | .comment => if c == '\n' then .plain else .comment

def Zone.from (zone : Zone) (cs : List Char) : Zone :=
  cs.foldl Zone.after zone

-- What the next character stands in, behind the characters that a text begins with.
def zoneAfter (cs : List Char) : Zone :=
  Zone.plain.from cs

-- A character that is white space or part of a comment.
def Zone.skips (zone : Zone) (c : Char) : Bool :=
  match zone with
  | .plain => isBlank c || c == ';'
  | .quotes => false
  | .comment => true

-- The characters that one of the patterns of the lexer matches: a token, or something skipped.
inductive Lexeme : List Char → Prop where
  | token {kind : TokenKind} {cs : List Char} : Shape kind cs → Lexeme cs
  | blanks {c : Char} {cs : List Char} : (c :: cs).all isBlank → Lexeme (c :: cs)
  | comment {cs : List Char} : '\n' ∉ cs → Lexeme (';' :: cs)

end Lexer

-- The byte lies in the span of the token.
def Token.Covers (t : Token) (byte : Nat) : Prop :=
  t.start ≤ byte ∧ byte < t.stop

-- The token stands in the text between the characters `before` and `after` it, and extends as far
-- as a pattern matches.
structure Token.Stands (t : Token) (source : String) (before after : List Char) : Prop where
  source_eq : source.toList = before ++ (t.text.toList ++ after)
  start_eq : t.start = byteLength before
  stop_eq : t.stop = byteLength (before ++ t.text.toList)
  start_lt : t.start < t.stop
  slice_eq : slice source t.start t.stop = t.text
  shape : Shape t.kind t.text.toList
  longest : ∀ more, more ≠ [] → more <+: after → ¬ Lexeme (t.text.toList ++ more)
  bare : t.kind = .word → '"' ∉ t.text.toList → ∀ c ∈ after.head?, isNameChar c = false

-- Each byte of the text belongs to exactly one token, or to white space or a comment.
structure Partition (source : String) (tokens : List Token) : Prop where
  stands : ∀ t ∈ tokens, ∃ before after, t.Stands source before after
  apart : tokens.Pairwise fun t u => t.stop ≤ u.start
  covered_iff : ∀ before c after, source.toList = before ++ c :: after →
    ∀ byte, byteLength before ≤ byte → byte < byteLength before + c.utf8Size →
      ((∃ t ∈ tokens, t.Covers byte) ↔ (zoneAfter before).skips c = false)

namespace Lexer

def Mode.zone : Mode → Zone
  | .between => .plain
  | .comment => .comment
  | .word _ _ => .plain
  | .quoted _ _ _ => .quotes

theorem zone_enter (offset : Nat) (c : Char) :
    (enter offset c).2.zone = Zone.plain.after c := by
  have hquote : isBlank '"' = false := rfl
  have hsemicolon : isBlank ';' = false := rfl
  simp only [enter, Zone.after]
  by_cases hc : c = '"'
  · subst hc
    simp [hquote, Mode.zone]
  by_cases hc' : c = ';'
  · subst hc'
    simp [hsemicolon, Mode.zone]
  · simp only [beq_iff_eq, hc, hc', if_false]
    split
    · rfl
    · split <;> rfl

-- Whatever the lexer makes of a character, it sees the quotes and comments of the text.
theorem zone_step (mode : Mode) (offset : Nat) (c : Char) :
    (step mode offset c).2.zone = mode.zone.after c := by
  cases mode with
  | between => exact zone_enter offset c
  | comment =>
    by_cases hc : c = '\n' <;> simp [step, Mode.zone, Zone.after, hc]
  | word start read =>
    have hword : (Mode.word start read).zone.after c = Zone.plain.after c := rfl
    simp only [step, hword]
    split
    · next hname =>
      have hquote : c ≠ '"' := by rintro rfl; cases hname
      have hsemicolon : c ≠ ';' := by rintro rfl; cases hname
      simp [Zone.after, Mode.zone, hquote, hsemicolon]
    · split
      · next hquote =>
        rw [Bool.and_eq_true] at hquote
        simp [Zone.after, Mode.zone, hquote.1]
      · exact zone_enter offset c
  | quoted kind start read =>
    by_cases hc : c = '"' <;> simp [step, Mode.zone, Zone.after, hc]

theorem scan_eq_none_iff (mode : Mode) (offset : Nat) (cs : List Char) :
    scan mode offset cs = none ↔ mode.zone.from cs = .quotes := by
  induction cs generalizing mode offset with
  | nil => cases mode <;> simp [scan, Zone.from, Mode.zone]
  | cons c cs ih =>
    rw [scan, Option.map_eq_none_iff, ih, zone_step]
    rfl

variable {c : Char} {cs : List Char}

theorem not_blank_of_word (hc : (isSigil c || isNameChar c) = true) : isBlank c = false := by
  by_contra hblank
  rw [Bool.not_eq_false] at hblank
  simp only [isBlank, Bool.or_eq_true, beq_iff_eq] at hblank
  rcases hblank with (((rfl | rfl) | rfl) | rfl) | rfl <;> cases hc

theorem word_of_takesQuote (hc : takesQuote [c] = true) : (isSigil c || isNameChar c) = true := by
  simp only [takesQuote, Bool.or_eq_true, beq_iff_eq] at hc
  rcases hc with hc | rfl
  · simp [hc]
  · rfl

-- A word goes on in name characters, or in quotes directly behind its first character.
theorem lexeme_word (hc : (isSigil c || isNameChar c) = true) (h : Lexeme (c :: cs)) :
    cs.all isNameChar ∨ takesQuote [c] ∧ ∃ body, '"' ∉ body ∧ cs = '"' :: (body ++ ['"']) := by
  cases h with
  | token hshape =>
    cases hshape with
    | bare _ hcs => exact .inl hcs
    | @quoted _ body htakes hbody => exact .inr ⟨htakes, body, hbody, rfl⟩
    | string _ => cases hc
    | punct _ => exact .inl rfl
  | blanks hcs =>
    rw [List.all_cons, not_blank_of_word hc] at hcs
    cases hcs
  | comment _ => cases hc

theorem lexeme_string (h : Lexeme ('"' :: cs)) : ∃ body, '"' ∉ body ∧ cs = body ++ ['"'] := by
  cases h with
  | token hshape =>
    cases hshape with
    | bare hc _ => cases hc
    | quoted hc _ => cases hc
    | @string body hbody => exact ⟨body, hbody, rfl⟩
    | punct hc => cases hc
  | blanks hcs =>
    rw [List.all_cons] at hcs
    cases hcs

theorem lexeme_punct (hc : isPunctuation c = true) (h : Lexeme (c :: cs)) : cs = [] := by
  simp only [isPunctuation, Bool.not_eq_true', Bool.or_eq_false_iff] at hc
  cases h with
  | token hshape =>
    cases hshape with
    | bare hword _ => simp [hc] at hword
    | quoted htakes _ =>
      have hword := word_of_takesQuote htakes
      simp [hc] at hword
    | string _ => simp at hc
    | punct _ => rfl
  | blanks hcs => simp [hc] at hcs
  | comment _ => simp at hc

theorem quote_mem_of_append {body body' more : List Char} (hmore : more ≠ [])
    (h : body' ++ ['"'] = body ++ '"' :: more) : '"' ∈ body' := by
  obtain ⟨init, last, rfl⟩ := List.eq_nil_or_concat' more |>.resolve_left hmore
  have hsplit : body' ++ ['"'] = (body ++ '"' :: init) ++ [last] := by simpa using h
  rw [(List.append_inj' hsplit rfl).1]
  simp

-- No pattern matches more of a text than a token that the next character does not continue.
theorem not_lexeme_append {kind : TokenKind} {s : String} {d : Char} {more : List Char}
    (hshape : Shape kind s.toList) (hd : (Piece.token kind s).continues d = false) :
    ¬ Lexeme (s.toList ++ d :: more) := by
  intro h
  generalize hcs : s.toList = cs at hshape h
  cases hshape with
  | @bare c cs hc hall =>
    have hquote : (c :: cs).contains '"' = false := by simpa using quote_not_mem_bare hc hall
    simp only [Piece.continues, hcs, hquote, Bool.not_false, Bool.true_and,
      Bool.or_eq_false_iff] at hd
    rcases lexeme_word hc h with hnames | ⟨htakes, body, -, hquoted⟩
    · simp [hd.1] at hnames
    · -- the quote would be the second character, so the word is the first one alone
      cases cs with
      | nil =>
        obtain ⟨rfl, -⟩ := List.cons.inj hquoted
        simp [htakes] at hd
      | cons e cs =>
        obtain ⟨rfl, -⟩ := List.cons.inj hquoted
        cases hall
  | @quoted c body htakes hbody =>
    rcases lexeme_word (word_of_takesQuote htakes) h with hnames | ⟨-, body', hbody', hquoted⟩
    · cases hnames
    · have hsame : body' ++ ['"'] = body ++ '"' :: d :: more := by simpa using hquoted.symm
      exact hbody' (quote_mem_of_append (by simp) hsame)
  | @string body hbody =>
    obtain ⟨body', hbody', hstring⟩ := lexeme_string h
    have hsame : body' ++ ['"'] = body ++ '"' :: d :: more := by simpa using hstring.symm
    exact hbody' (quote_mem_of_append (by simp) hsame)
  | punct hc => cases lexeme_punct hc h

-- From one zone to another over characters that are all skipped, or all kept.
inductive Run (skipped : Bool) : Zone → List Char → Zone → Prop where
  | nil (zone : Zone) : Run skipped zone [] zone
  | cons {zone zone' : Zone} {c : Char} {cs : List Char} : zone.skips c = skipped →
      Run skipped (zone.after c) cs zone' → Run skipped zone (c :: cs) zone'

variable {skipped : Bool} {zone zone' zone'' : Zone} {ds : List Char}

theorem Run.from_eq (h : Run skipped zone cs zone') : zone.from cs = zone' := by
  induction h with
  | nil => rfl
  | cons _ _ ih => exact ih

theorem Run.append (h : Run skipped zone cs zone') (h' : Run skipped zone' ds zone'') :
    Run skipped zone (cs ++ ds) zone'' := by
  induction h with
  | nil => exact h'
  | cons hc _ ih => exact .cons hc (ih h')

theorem Run.skips_eq (h : Run skipped zone (cs ++ c :: ds) zone') :
    (zone.from cs).skips c = skipped := by
  induction cs generalizing zone with
  | nil =>
    cases h with
    | cons hc _ => exact hc
  | cons d cs ih =>
    cases h with
    | cons _ hrest => exact ih hrest

theorem run_word (hcs : cs.all fun c => isSigil c || isNameChar c) :
    Run false .plain cs .plain := by
  induction cs with
  | nil => exact .nil _
  | cons c cs ih =>
    rw [List.all_cons, Bool.and_eq_true] at hcs
    have hquote : c ≠ '"' := ne_of_isSigil_or_isNameChar hcs.1 rfl
    have hsemicolon : c ≠ ';' := ne_of_isSigil_or_isNameChar hcs.1 rfl
    refine .cons ?_ ?_
    · simp [Zone.skips, not_blank_of_word hcs.1, hsemicolon]
    · simpa [Zone.after, hquote, hsemicolon] using ih hcs.2

theorem run_quotes (hcs : '"' ∉ cs) : Run false .plain ('"' :: (cs ++ ['"'])) .plain := by
  have hbody : Run false .quotes cs .quotes := by
    induction cs with
    | nil => exact .nil _
    | cons c cs ih =>
      rw [List.mem_cons, not_or] at hcs
      exact .cons rfl (by simpa [Zone.after, Ne.symm hcs.1] using ih hcs.2)
  exact .cons rfl (hbody.append (.cons rfl (.nil _)))

-- A token is read without skipping anything, and leaves the quotes closed.
theorem run_shape {kind : TokenKind} (h : Shape kind cs) : Run false .plain cs .plain := by
  cases h with
  | bare hc hcs =>
    have hall : ∀ d ∈ _, isNameChar d = true := List.all_eq_true.mp hcs
    refine run_word (List.all_eq_true.mpr fun d hd => ?_)
    rcases List.mem_cons.mp hd with rfl | hd
    · exact hc
    · simp [hall d hd]
  | @quoted c body hc hbody =>
    have hfirst : Run false .plain [c] .plain := run_word (by simpa using word_of_takesQuote hc)
    exact hfirst.append (run_quotes hbody)
  | string hbody => exact run_quotes hbody
  | @punct c hc =>
    simp only [isPunctuation, Bool.not_eq_true', Bool.or_eq_false_iff, beq_eq_false_iff_ne] at hc
    refine .cons ?_ ?_
    · simp [Zone.skips, hc]
    · simpa [Zone.after, hc] using Run.nil .plain

theorem run_comment (hcs : '\n' ∉ cs) : Run true .plain (';' :: cs) .comment := by
  have hline : Run true .comment cs .comment := by
    induction cs with
    | nil => exact .nil _
    | cons c cs ih =>
      rw [List.mem_cons, not_or] at hcs
      exact .cons rfl (by simpa [Zone.after, Ne.symm hcs.1] using ih hcs.2)
  exact .cons rfl hline

end Lexer

namespace Piece

variable {p : Piece} {ps qs : List Piece} {next : Option Char} {seen : List Char}

-- A comment is over where its line is.
def Opens (zone : Zone) (next : Option Char) : Prop :=
  zone = .plain ∨ zone = .comment ∧ ∀ c ∈ next, c = '\n'

theorem Opens.run_token {zone : Zone} {kind : TokenKind} {s : String} (hshape : Shape kind s.toList)
    (hopens : Opens zone s.toList.head?) : zone = .plain ∧ Run false .plain s.toList .plain := by
  have hrun := run_shape hshape
  rcases hopens with rfl | ⟨-, hline⟩
  · exact ⟨rfl, hrun⟩
  · -- no token begins with the end of a line
    generalize s.toList = cs at hshape hrun hline
    cases cs with
    | nil => cases hshape
    | cons c cs =>
      obtain rfl : c = '\n' := hline c rfl
      cases hrun with
      | cons hskip _ => cases hskip

theorem Opens.run_gap {zone : Zone} {s : String} (hblank : Blank s.toList)
    (hmeets : (gap s).Meets next) (hopens : Opens zone s.toList.head?) :
    ∃ zone', Run true zone s.toList zone' ∧ Opens zone' next := by
  have hcontinues : ∀ c ∈ next, (s.toList.head? == some ';' && c != '\n') = false := hmeets
  generalize s.toList = cs at hblank hopens hcontinues
  cases hblank with
  | @char c hc =>
    refine ⟨.plain, ?_, .inl rfl⟩
    rcases hopens with rfl | ⟨rfl, hline⟩
    · have hquote : c ≠ '"' := by rintro rfl; cases hc
      have hsemicolon : c ≠ ';' := by rintro rfl; cases hc
      refine .cons (by simp [Zone.skips, hc]) ?_
      simpa [Zone.after, hquote, hsemicolon] using Run.nil .plain
    · obtain rfl : c = '\n' := hline c rfl
      exact .cons rfl (.nil _)
  | @comment cs hcs =>
    have hline : ∀ c ∈ next, c = '\n' := by simpa using hcontinues
    rcases hopens with rfl | ⟨-, hfirst⟩
    · exact ⟨.comment, run_comment hcs, .inr ⟨rfl, hline⟩⟩
    · cases hfirst ';' rfl

theorem Opens.run {zone : Zone} (hvalid : p.Valid) (hmeets : p.Meets next)
    (hopens : Opens zone p.text.toList.head?) :
    ∃ zone', Run (!p.isToken) zone p.text.toList zone' ∧ Opens zone' next := by
  cases p with
  | token kind s =>
    obtain ⟨rfl, hrun⟩ := hopens.run_token hvalid
    exact ⟨.plain, hrun, .inl rfl⟩
  | gap s => exact hopens.run_gap hvalid hmeets

theorem le_start_of_mem_place {offset : Nat} {t : Token} (ht : t ∈ place offset ps) :
    offset ≤ t.start := by
  induction ps generalizing offset with
  | nil => cases ht
  | cons p ps ih =>
    cases p with
    | gap s =>
      have := ih ht
      omega
    | token kind s =>
      rcases List.mem_cons.mp ht with rfl | ht
      · exact Nat.le_refl _
      · have := ih ht
        omega

theorem pairwise_place (offset : Nat) (ps : List Piece) :
    (place offset ps).Pairwise fun t u => t.stop ≤ u.start := by
  induction ps generalizing offset with
  | nil => exact .nil
  | cons p ps ih =>
    cases p with
    | gap s => exact ih _
    | token kind s => exact .cons (fun u hu => le_start_of_mem_place hu) (ih _)

-- Each token comes from one of the pieces.
theorem exists_of_mem_place {offset : Nat} {t : Token} (ht : t ∈ place offset ps) :
    ∃ before kind s after, ps = before ++ token kind s :: after ∧
      t = { kind, text := s, start := offset + byteLength (spell before)
            stop := offset + byteLength (spell before) + byteLength s.toList } := by
  induction ps generalizing offset with
  | nil => cases ht
  | cons p ps ih =>
    have hlater (ht : t ∈ place (offset + byteLength p.text.toList) ps) :
        ∃ before kind s after, p :: ps = before ++ token kind s :: after ∧
          t = { kind, text := s, start := offset + byteLength (spell before)
                stop := offset + byteLength (spell before) + byteLength s.toList } := by
      obtain ⟨before, kind, s, after, rfl, rfl⟩ := ih ht
      refine ⟨p :: before, kind, s, after, rfl, ?_⟩
      simp [Nat.add_assoc]
    cases p with
    | gap s => exact hlater ht
    | token kind s =>
      rcases List.mem_cons.mp ht with rfl | ht
      · exact ⟨[], kind, s, ps, rfl, rfl⟩
      · exact hlater ht

theorem Valid.ne_nil (hvalid : p.Valid) : p.text.toList ≠ [] := by
  cases p with
  | token kind s =>
    have hshape : Shape kind s.toList := hvalid
    intro hnil
    rw [show s.toList = [] from hnil] at hshape
    cases hshape
  | gap s =>
    have hblank : Blank s.toList := hvalid
    intro hnil
    rw [show s.toList = [] from hnil] at hblank
    cases hblank

theorem exists_covers_piece {offset byte : Nat} :
    (∃ t ∈ place offset [p], t.Covers byte) ↔
      p.isToken = true ∧ offset ≤ byte ∧ byte < offset + byteLength p.text.toList := by
  cases p <;> simp [place, isToken, Token.Covers, text]

-- A character of two texts, the one behind the other, is in the one or in the other.
theorem mem_left_or_right {as bs before after : List Char} {c : Char}
    (h : as ++ bs = before ++ c :: after) :
    (∃ rest, as = before ++ c :: rest) ∨ ∃ rest, before = as ++ rest ∧ bs = rest ++ c :: after := by
  rcases List.append_eq_append_iff.mp h with ⟨rest, hbefore, hbs⟩ | ⟨rest, has, hafter⟩
  · exact .inr ⟨rest, hbefore, hbs⟩
  · cases rest with
    | nil => exact .inr ⟨[], by simpa using has.symm, by simpa using hafter.symm⟩
    | cons d rest =>
      obtain ⟨rfl, -⟩ := List.cons.inj hafter
      exact .inl ⟨rest, has⟩

-- The induction is on the pieces; `seen` is what comes before them in the text.
theorem covered_iff (hps : Fits ps none) (hopens : Opens (zoneAfter seen) (first ps none))
    {before after : List Char} {c : Char} (hspell : spell ps = before ++ c :: after) {byte : Nat}
    (hlow : byteLength (seen ++ before) ≤ byte)
    (hhigh : byte < byteLength (seen ++ before) + c.utf8Size) :
    (∃ t ∈ place (byteLength seen) ps, t.Covers byte) ↔
      (zoneAfter (seen ++ before)).skips c = false := by
  induction ps generalizing seen before with
  | nil => simp at hspell
  | cons p ps ih =>
    obtain ⟨hvalid, hmeets, hps⟩ := hps
    have hfirst : first (p :: ps) none = p.text.toList.head? := by
      obtain ⟨d, ds, hds⟩ := List.exists_cons_of_ne_nil hvalid.ne_nil
      simp [first, hds]
    rw [hfirst] at hopens
    obtain ⟨zone', hrun, hopens'⟩ := hopens.run hvalid hmeets
    have hplace : place (byteLength seen) (p :: ps) = place (byteLength seen) [p] ++
        place (byteLength (seen ++ p.text.toList)) ps := by
      simpa using place_append (byteLength seen) [p] ps
    simp only [hplace, List.mem_append, or_and_right, exists_or, exists_covers_piece]
    simp only [byteLength_append] at hlow hhigh
    rw [spell_cons] at hspell
    rcases mem_left_or_right hspell with ⟨rest, hinside⟩ | ⟨rest, rfl, hlater⟩
    · -- the character is in the first piece
      have hskips : (zoneAfter (seen ++ before)).skips c = !p.isToken := by
        rw [hinside] at hrun
        simpa [zoneAfter, Zone.from, List.foldl_append] using hrun.skips_eq
      have hlength : byteLength p.text.toList =
          byteLength before + (c.utf8Size + byteLength rest) := by
        simp [hinside, byteLength]
      have hnone : ¬ ∃ t ∈ place (byteLength (seen ++ p.text.toList)) ps, t.Covers byte := by
        rintro ⟨t, ht, hcovers, -⟩
        have := le_start_of_mem_place ht
        simp only [byteLength_append] at this
        omega
      rw [hskips, or_iff_left hnone]
      constructor
      · rintro ⟨htoken, -⟩
        simp [htoken]
      · intro htoken
        exact ⟨by simpa using htoken, by omega, by omega⟩
    · have hzone : zoneAfter (seen ++ p.text.toList) = zone' := by
        simpa [zoneAfter, Zone.from, List.foldl_append] using hrun.from_eq
      have hbeyond : ¬ (p.isToken = true ∧ byteLength seen ≤ byte ∧
          byte < byteLength seen + byteLength p.text.toList) := by
        simp only [byteLength_append] at hlow
        omega
      rw [or_iff_right hbeyond, ← List.append_assoc]
      refine ih hps (by rwa [hzone]) hlater ?_ ?_
      · simpa [Nat.add_assoc] using hlow
      · simpa [Nat.add_assoc] using hhigh

-- A token among pieces that stay apart is the longest match at its place.
theorem stands_of_mem_place {t : Token} (hps : Fits ps none) (ht : t ∈ place 0 ps) :
    ∃ before after, t.Stands (print ps) before after := by
  obtain ⟨before, kind, s, after, rfl, rfl⟩ := exists_of_mem_place ht
  obtain ⟨-, hshape, hmeets, -⟩ := fits_append.mp hps
  have hshape : Shape kind s.toList := hshape
  have hspell : spell (before ++ token kind s :: after) =
      spell before ++ (s.toList ++ spell after) := by
    simp [text]
  have hnext : ∀ d ∈ (spell after).head?, (token kind s).continues d = false := by
    simpa [first, Meets] using hmeets
  refine ⟨spell before, spell after, ?_, by simp, by simp, ?_, ?_, hshape, ?_, ?_⟩
  · simp [print, hspell]
  · obtain ⟨c, cs, hcs⟩ : ∃ c cs, s.toList = c :: cs :=
      List.exists_cons_of_ne_nil (Valid.ne_nil (p := token kind s) hshape)
    have := c.utf8Size_pos
    simp only [hcs, byteLength]
    omega
  · simpa [print, hspell] using slice_append (spell before) s.toList (spell after)
  · intro more hne hmore
    obtain ⟨d, more, rfl⟩ := List.exists_cons_of_ne_nil hne
    obtain ⟨rest, hrest⟩ := hmore
    exact not_lexeme_append hshape (hnext d (by simp [← hrest]))
  · intro hword hquote c hc
    obtain rfl : kind = .word := hword
    have := hnext c hc
    simp only [continues, List.contains_eq_mem, hquote, decide_false, Bool.not_false,
      Bool.true_and, Bool.or_eq_false_iff] at this
    exact this.1

end Piece

theorem tokenize_eq_error_iff {source : String} {e : ParseError} :
    tokenize source = .error e ↔
      e = .unterminatedString source ∧ zoneAfter source.toList = .quotes := by
  have hscan : scan .between 0 source.toList = none ↔ zoneAfter source.toList = .quotes :=
    scan_eq_none_iff .between 0 source.toList
  unfold tokenize
  cases h : scan .between 0 source.toList with
  | none => simp [hscan.mp h, eq_comm]
  | some ts =>
    have hne : zoneAfter source.toList ≠ .quotes := by
      rw [Ne, ← hscan, h]
      simp
    simp [hne]

-- A text can be split into tokens unless it ends within quotes, and the tokens, white space and
-- comments are then all of it.
theorem tokenize_partition (source : String) :
    if zoneAfter source.toList = .quotes then
      tokenize source = .error (.unterminatedString source)
    else ∃ tokens, tokenize source = .ok tokens ∧ Partition source tokens := by
  split
  · next hquotes => exact tokenize_eq_error_iff.mpr ⟨rfl, hquotes⟩
  · next hquotes =>
    cases htokens : tokenize source with
    | error e => exact absurd (tokenize_eq_error_iff.mp htokens).2 hquotes
    | ok tokens =>
      obtain ⟨ps, rfl, hps, rfl⟩ := Piece.tokenize_eq_ok_iff.mp htokens
      refine ⟨_, rfl, ⟨fun t ht => Piece.stands_of_mem_place hps ht, Piece.pairwise_place 0 ps, ?_⟩⟩
      intro before c after hspell byte hlow hhigh
      have hspelled : Piece.spell ps = before ++ c :: after := by simpa [Piece.print] using hspell
      have hopens : Piece.Opens (zoneAfter []) (Piece.first ps none) := .inl rfl
      exact Piece.covered_iff hps hopens hspelled hlow hhigh

-- A semicolon in quotes starts no comment, and a quote in a comment opens nothing.
example : zoneAfter "c\"a;b\" ; \"".toList = .comment := by decide

end TestFocus
