import TestFocus.Proofs.Reading.Partition
import TestFocus.Proofs.Reading.ReadBack

-- The global that a value names first, looked for in its characters and among its tokens. Both
-- searches pass over quotes in the same way, and both take an at sign outside of quotes for the
-- beginning of a name, so they differ only in the characters that they allow in a name.

namespace TestFocus

open Lexer Text

namespace Operand

-- Outside of quotes and comments, the names behind at signs are made of symbol characters only. The
-- lexer takes more characters than these for parts of a name.
def namesSymbols (zone : Zone) : List Char → Bool
  | [] => true
  | c :: cs =>
    (zone != .plain || c != '@' || (cs.takeWhile isNameChar).all isSymbolChar) &&
      namesSymbols (zone.after c) cs

variable {c : Char} {cs ds body : List Char}

theorem isNameChar_of_isSymbolChar (h : isSymbolChar c = true) : isNameChar c = true := by
  simp only [isSymbolChar, isAsciiAlphanumeric, isAsciiDigit, isAsciiLetter, Bool.or_eq_true] at h
  simp only [isNameChar, Bool.or_eq_true]
  tauto

theorem namesSymbols_append {zone : Zone} (h : namesSymbols zone (cs ++ ds) = true) :
    namesSymbols (zone.from cs) ds = true := by
  induction cs generalizing zone with
  | nil => exact h
  | cons c cs ih =>
    rw [List.cons_append, namesSymbols, Bool.and_eq_true] at h
    exact ih h.2

theorem takeWhile_append_end {p : Char → Bool} (hcs : cs.all p = true)
    (hds : ∀ d ∈ ds.head?, p d = false) : (cs ++ ds).takeWhile p = cs := by
  have hend : ds.takeWhile p = [] := by
    cases ds with
    | nil => rfl
    | cons d ds => simp [hds d rfl]
  rw [List.takeWhile_append_of_pos (List.all_eq_true.mp hcs), hend, List.append_nil]

-- Nothing is found where there is neither a quote nor an at sign outside of quotes.
theorem firstGlobal_skip {inQuotes : Bool} (hcs : ∀ c ∈ cs, c ≠ '"' ∧ (inQuotes = true ∨ c ≠ '@'))
    (ds : List Char) : firstGlobal inQuotes (cs ++ ds) = firstGlobal inQuotes ds := by
  induction cs with
  | nil => rfl
  | cons c cs ih =>
    rw [List.forall_mem_cons] at hcs
    obtain ⟨⟨hquote, hat⟩, hcs⟩ := hcs
    rw [List.cons_append, firstGlobal, ih hcs]
    rcases hat with rfl | hat
    · simp [hquote]
    · simp [hquote, hat]

theorem firstGlobal_quotes (hbody : '"' ∉ body) (ds : List Char) :
    firstGlobal false ('"' :: (body ++ '"' :: ds)) = firstGlobal false ds := by
  have hskip : firstGlobal true (body ++ '"' :: ds) = firstGlobal true ('"' :: ds) :=
    firstGlobal_skip (fun c hc => ⟨ne_of_mem_of_not_mem hc hbody, .inl rfl⟩) _
  simp [firstGlobal, hskip]

theorem globalAfterAt_quotes (hbody : '"' ∉ body) (ds : List Char) :
    globalAfterAt ('"' :: (body ++ '"' :: ds)) =
      some (String.ofList ('@' :: '"' :: (body ++ ['"']))) := by
  have hall : ∀ c ∈ body, (!(c == '"')) = true := by
    intro c hc
    simpa using ne_of_mem_of_not_mem hc hbody
  simp [globalAfterAt, splitAtFirst?, List.takeWhile_append_of_pos hall]

-- A run of symbol characters that no further character of a name follows.
theorem globalAfterAt_symbols (hcs : cs.all isSymbolChar = true)
    (hds : ∀ d ∈ ds.head?, isNameChar d = false) (hquote : cs = [] → ds.head? ≠ some '"') :
    globalAfterAt (cs ++ ds) = if cs.isEmpty then none else some (String.ofList ('@' :: cs)) := by
  have htake : (cs ++ ds).takeWhile isSymbolChar = cs := by
    refine takeWhile_append_end hcs fun d hd => ?_
    by_contra hsymbol
    have hname := isNameChar_of_isSymbolChar (Bool.not_eq_false _ ▸ hsymbol)
    rw [hds d hd] at hname
    cases hname
  have hopen : ∀ quoted, cs ++ ds ≠ '"' :: quoted := by
    rintro quoted hquoted
    cases cs with
    | nil => exact hquote rfl (by simpa using congrArg List.head? hquoted)
    | cons c cs =>
      obtain ⟨rfl, -⟩ := List.cons.inj hquoted
      cases hcs
  unfold globalAfterAt
  split
  · next quoted hquoted => exact absurd hquoted (hopen quoted)
  · rw [htake]

end Operand

namespace Piece

variable {p : Piece} {ps : List Piece} {rest : List Char}

-- The global that the piece names, if it is a word that names one.
def global? : Piece → Option String
  | token .word s => if Operand.isGlobal s then some s else none
  | _ => none

def isComment : Piece → Bool
  | gap s => startsWithChar s ';'
  | token _ _ => false

open Operand

-- Between tokens stand comments and single blank characters.
theorem exists_blank {s : String} (hvalid : (gap s).Valid) (hcomment : (gap s).isComment = false) :
    ∃ c, s.toList = [c] ∧ isBlank c = true := by
  have hblank : Blank s.toList := hvalid
  simp only [isComment, startsWithChar] at hcomment
  generalize s.toList = cs at hblank hcomment
  cases hblank with
  | @char c hc => exact ⟨c, rfl, hc⟩
  | comment _ => simp at hcomment

-- Behind a piece that is no comment the quotes are closed.
theorem from_piece (hvalid : p.Valid) (hcomment : p.isComment = false) :
    Zone.plain.from p.text.toList = .plain := by
  cases p with
  | token kind s => exact (run_shape hvalid).from_eq
  | gap s =>
    obtain ⟨c, hs, hc⟩ := exists_blank hvalid hcomment
    have hquote : c ≠ '"' := by rintro rfl; cases hc
    have hsemicolon : c ≠ ';' := by rintro rfl; cases hc
    simp [text, hs, Zone.from, Zone.after, hquote, hsemicolon]

-- A word without quotes names a global if something follows its at sign.
theorem firstGlobal_bare {c : Char} {cs : List Char} (hc : (isSigil c || isNameChar c) = true)
    (hcs : cs.all isNameChar = true) (hends : ∀ d ∈ rest.head?, isNameChar d = false)
    (hquote : takesQuote (c :: cs) = true → rest.head? ≠ some '"')
    (hnames : namesSymbols .plain (c :: cs ++ rest) = true) :
    firstGlobal false (c :: cs ++ rest) =
      (if c = '@' ∧ cs ≠ [] then some (String.ofList (c :: cs)) else none).or
        (firstGlobal false rest) := by
  have hskip : firstGlobal false (cs ++ rest) = firstGlobal false rest := by
    refine firstGlobal_skip (fun d hd => ?_) rest
    have hname := List.all_eq_true.mp hcs d hd
    constructor
    · rintro rfl
      cases hname
    · right
      rintro rfl
      cases hname
  have hopen : c ≠ '"' := by rintro rfl; cases hc
  rw [List.cons_append] at hnames ⊢
  by_cases hat : c = '@'
  · subst hat
    have hall : cs.all isSymbolChar = true := by
      rw [namesSymbols, takeWhile_append_end hcs hends, Bool.and_eq_true] at hnames
      simpa using hnames.1
    have hname := globalAfterAt_symbols hall hends fun hnil => hquote (by rw [hnil]; rfl)
    by_cases hnil : cs = []
    · rw [hnil, List.nil_append] at hname
      simp [firstGlobal, hname, hnil]
    · simp [firstGlobal, hname, hnil]
  · simp [firstGlobal, hopen, hat, hskip]

-- A token that the rest does not continue is searched on its own.
theorem firstGlobal_token {kind : TokenKind} {cs : List Char} (hshape : Shape kind cs)
    (hmeets : (token kind (String.ofList cs)).Meets rest.head?)
    (hnames : namesSymbols .plain (cs ++ rest) = true) :
    firstGlobal false (cs ++ rest) =
      (token kind (String.ofList cs)).global?.or (firstGlobal false rest) := by
  cases hshape with
  | @bare c cs hc hall =>
    have hcontains : (c :: cs).contains '"' = false := by
      simpa using quote_not_mem_bare hc hall
    have hends : ∀ d ∈ rest.head?,
        (isNameChar d || (d == '"' && takesQuote (c :: cs))) = false := by
      intro d hd
      simpa only [continues, String.toList_ofList, hcontains, Bool.not_false, Bool.true_and]
        using hmeets d hd
    rw [firstGlobal_bare hc hall (fun d hd => (Bool.or_eq_false_iff.mp (hends d hd)).1)
      (fun htakes hquote => by simpa [htakes] using hends '"' hquote) hnames]
    cases cs <;> simp [global?, isGlobal]
  | @quoted c body hc hbody =>
    have hopen : c ≠ '"' := by rintro rfl; cases hc
    have hquotes := firstGlobal_quotes hbody rest
    by_cases hat : c = '@'
    · subst hat
      have hname := globalAfterAt_quotes hbody rest
      simp [firstGlobal, hname, global?, isGlobal]
    · rw [List.cons_append, firstGlobal]
      simpa [hopen, hat, global?, isGlobal] using hquotes
  | @string body hbody => simpa [global?] using firstGlobal_quotes hbody rest
  | @punct c hc =>
    have hquote : c ≠ '"' := by rintro rfl; cases hc
    have hat : c ≠ '@' := by rintro rfl; cases hc
    simp [firstGlobal, hquote, hat, global?]

theorem firstGlobal_piece (hvalid : p.Valid) (hmeets : p.Meets rest.head?)
    (hcomment : p.isComment = false) (hnames : namesSymbols .plain (p.text.toList ++ rest) = true) :
    firstGlobal false (p.text.toList ++ rest) = p.global?.or (firstGlobal false rest) := by
  cases p with
  | gap s =>
    obtain ⟨c, hs, hc⟩ := exists_blank hvalid hcomment
    have hquote : c ≠ '"' := by rintro rfl; cases hc
    have hat : c ≠ '@' := by rintro rfl; cases hc
    simp [text, hs, firstGlobal, hquote, hat, global?]
  | token kind s =>
    obtain ⟨cs, rfl⟩ : ∃ cs, s = String.ofList cs := ⟨s.toList, String.ofList_toList.symm⟩
    have hshape : Shape kind (String.ofList cs).toList := hvalid
    simp only [text, String.toList_ofList] at hnames hshape ⊢
    exact firstGlobal_token hshape hmeets hnames

-- A comment reaches to the end of its line, so on one line no token comes behind it.
theorem isComment_eq_false (hps : Fits (p :: ps) none) (hline : '\n' ∉ spell (p :: ps))
    (hlast : ∀ q ∈ (p :: ps).getLast?, q.isToken = true) : p.isComment = false := by
  obtain ⟨-, hmeets, hps⟩ := hps
  cases p with
  | token kind s => rfl
  | gap s =>
    cases ps with
    | nil => cases hlast (gap s) rfl
    | cons q ps =>
      obtain ⟨d, ds, hspell⟩ := List.exists_cons_of_ne_nil hps.1.ne_nil
      have hnewline : d ≠ '\n' := by
        rintro rfl
        exact hline (by simp [hspell])
      have hmeets' := hmeets d (by simp [first, hspell])
      simpa [continues, hnewline, isComment] using hmeets'

-- The search in the characters finds what the pieces name.
theorem firstGlobal_spell (hps : Fits ps none) (hline : '\n' ∉ spell ps)
    (hlast : ∀ p ∈ ps.getLast?, p.isToken = true) (hnames : namesSymbols .plain (spell ps) = true) :
    firstGlobal false (spell ps) = ps.findSome? global? := by
  induction ps with
  | nil => rfl
  | cons p ps ih =>
    have hcomment := isComment_eq_false hps hline hlast
    obtain ⟨hvalid, hmeets, hps⟩ := hps
    rw [spell_cons, List.mem_append, not_or] at hline
    rw [spell_cons] at hnames ⊢
    have hrest : namesSymbols .plain (spell ps) = true := by
      rw [← from_piece hvalid hcomment]
      exact namesSymbols_append hnames
    have hlast' : ∀ q ∈ ps.getLast?, q.isToken = true := by
      intro q hq
      refine hlast q ?_
      cases ps with
      | nil => cases hq
      | cons q' ps => rwa [List.getLast?_cons_cons]
    rw [firstGlobal_piece hvalid (by simpa [first] using hmeets) hcomment hnames,
      ih hps hline.2 hlast' hrest, List.findSome?_cons]
    cases p.global? <;> rfl

-- So does the search among the tokens.
theorem find?_place (offset : Nat) (ps : List Piece) :
    ((place offset ps).find? fun t => t.isWord && isGlobal t.text).map (·.text) =
      ps.findSome? global? := by
  induction ps generalizing offset with
  | nil => rfl
  | cons p ps ih =>
    cases p with
    | gap s => exact ih _
    | token kind s =>
      rw [place, List.find?_cons, List.findSome?_cons]
      cases kind with
      | word =>
        cases hglobal : isGlobal s with
        | false => simpa [Token.isWord, global?, hglobal] using ih _
        | true => simp [Token.isWord, global?, hglobal]
      | string => exact ih _
      | punct => exact ih _

end Piece

namespace Reader

open Piece

-- What is returned is spelled by pieces of the text, the first and the last of them tokens.
theorem Slices.exists_pieces {reader : Reader String} (hreader : Slices reader)
    {source slice : String} {tokens : List Token} (htokens : tokenize source = .ok tokens)
    {pos : Nat} (hpos : pos ≤ tokens.length) {c : Cursor}
    (hread : reader ⟨source, tokens, pos⟩ = .ok slice c) :
    ∃ before middle after, source = print (before ++ (middle ++ after)) ∧ slice = print middle ∧
      Fits middle none ∧ Solid middle := by
  obtain ⟨ps, rfl, hps, rfl⟩ := tokenize_eq_ok_iff.mp htokens
  obtain ⟨hreach, hlt⟩ := hreader.takes ⟨print ps, place 0 ps, pos⟩ hpos slice c hread
  have hstop : c.pos ≤ (texts ps).length := by
    have hinside := hreach.inside
    rwa [Cursor.Inside, hreach.tokens, length_place] at hinside
  obtain ⟨before, middle, after, rfl, rfl, hmiddle, hsolid⟩ := exists_solid hlt hstop
  have hend : c.pos = (texts before).length + (texts middle).length := by
    simp only at hlt hmiddle
    omega
  exact ⟨before, middle, after, rfl, (hreader.read_alone hsolid hread hend).1,
    (fits_append.mp (fits_append.mp hps).2).1.alone, hsolid⟩

-- A value is read from a position inside of the text only.
theorem pos_le_of_value {c c' : Cursor} {v : String} (hread : value c = .ok v c') :
    c.pos ≤ c.tokens.length := by
  by_contra hpos
  have hnone : c.remaining = 0 := by
    simp only [Cursor.remaining]
    omega
  change valueWithin c.remaining c = .ok v c' at hread
  rw [hnone] at hread
  cases hread

end Reader

namespace Operand

open Piece

theorem isRegister_eq_false {v : String} (hlocal : Keyword.isLocalName v = false)
    (hglobal : isGlobal v = false) : isRegister v = false := by
  unfold Keyword.isLocalName at hlocal
  unfold isGlobal at hglobal
  unfold isRegister
  split
  · next c _ _ hv =>
    rw [hv] at hlocal hglobal
    have hpercent : c ≠ '%' := by rintro rfl; cases hlocal
    simpa [hpercent] using hglobal
  · rfl

theorem isRegister_of_isGlobal {v : String} (hglobal : isGlobal v = true) :
    isRegister v = true := by
  unfold isGlobal at hglobal
  unfold isRegister
  split at hglobal
  · simp_all
  · cases hglobal

-- In a value on one line, the name that is followed through the statements is the one that a callee
-- or an alias resolves to.
theorem trackedName_eq_referencedGlobal {source : String} (hline : '\n' ∉ source.toList)
    {tokens : List Token} (htokens : tokenize source = .ok tokens) {pos : Nat} {v : String}
    {c : Cursor} (hread : Reader.value ⟨source, tokens, pos⟩ = .ok v c)
    (hlocal : Keyword.isLocalName v = false) (hmetadata : startsWithChar v '!' = false)
    (hstring : startsWith v "c\"" = false) (hnames : namesSymbols .plain v.toList = true) :
    trackedName v = referencedGlobal v := by
  cases hglobal : isGlobal v with
  | true => simp [trackedName, referencedGlobal, hglobal, isRegister_of_isGlobal hglobal]
  | false =>
    obtain ⟨before, middle, after, rfl, rfl, hfits, hsolid⟩ :=
      Reader.Slices.value.exists_pieces htokens (Reader.pos_le_of_value hread) hread
    have hmiddle : '\n' ∉ spell middle := by
      intro hmem
      exact hline (by simp [print, hmem])
    have hlast : ∀ p ∈ middle.getLast?, p.isToken = true := by
      intro p hp
      simpa [Option.mem_def.mp hp] using hsolid.last
    have htokens' : tokenize (print middle) = .ok (place 0 middle) :=
      tokenize_eq_ok_iff.mpr ⟨middle, rfl, hfits, rfl⟩
    have hspell : (print middle).toList = spell middle := String.toList_ofList
    rw [hspell] at hnames
    have htracked : trackedName (print middle) = firstGlobal false (spell middle) := by
      simp [trackedName, isRegister_eq_false hlocal hglobal, hmetadata, hstring, hspell]
    have hreferenced : referencedGlobal (print middle) =
        ((place 0 middle).find? fun t => t.isWord && isGlobal t.text).map (·.text) := by
      simp [referencedGlobal, hglobal, htokens']
    rw [htracked, hreferenced, firstGlobal_spell hfits hmiddle hlast hnames, find?_place]

-- An at sign without a name, and one in quotes, in front of the name of a global.
def structText : String :=
  "\x7b ptr @, [4 x i8] c\"u@h\\00\", ptr @\"g v\" \x7d"

def structTokens : List Token :=
  [⟨.word, "ret", 0, 3⟩, ⟨.punct, "\x7b", 4, 5⟩, ⟨.word, "ptr", 6, 9⟩, ⟨.word, "@", 10, 11⟩,
    ⟨.punct, ",", 11, 12⟩, ⟨.punct, "[", 13, 14⟩, ⟨.word, "4", 14, 15⟩, ⟨.word, "x", 16, 17⟩,
    ⟨.word, "i8", 18, 20⟩, ⟨.punct, "]", 20, 21⟩, ⟨.word, "c\"u@h\\00\"", 22, 31⟩,
    ⟨.punct, ",", 31, 32⟩, ⟨.word, "ptr", 33, 36⟩, ⟨.word, "@\"g v\"", 37, 43⟩,
    ⟨.punct, "\x7d", 44, 45⟩, ⟨.punct, ",", 45, 46⟩, ⟨.word, "!dbg", 47, 51⟩,
    ⟨.word, "!7", 52, 54⟩]

theorem trackedName_eq_referencedGlobal_struct :
    trackedName structText = referencedGlobal structText := by
  have htokens : tokenize ("ret " ++ structText ++ ", !dbg !7") = .ok structTokens := rfl
  have hread : Reader.value ⟨"ret " ++ structText ++ ", !dbg !7", structTokens, 1⟩ =
      .ok structText ⟨"ret " ++ structText ++ ", !dbg !7", structTokens, 15⟩ := by
    rfl
  exact trackedName_eq_referencedGlobal (by decide) htokens hread (by decide) (by decide)
    (by decide) (by decide)

end Operand

end TestFocus
