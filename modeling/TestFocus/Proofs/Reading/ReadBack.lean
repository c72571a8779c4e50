import TestFocus.Proofs.Reading.ValueWindow

namespace TestFocus

open Text Piece Cursor

namespace Piece

variable {ps : List Piece} {next : Option Char} {i j : Nat}

-- The last piece may as well end with the text.
theorem Fits.alone (hps : Fits ps next) : Fits ps none := by
  induction ps with
  | nil => trivial
  | cons p ps ih =>
    obtain ⟨hvalid, hmeets, hrest⟩ := hps
    refine ⟨hvalid, fun c hc => hmeets c ?_, ih hrest⟩
    simp only [first, Option.or_none, Option.mem_def] at hc
    simp [first, hc]

theorem exists_token (hi : i < (texts ps).length) :
    ∃ before kind s after, ps = before ++ token kind s :: after ∧ (texts before).length = i := by
  induction ps generalizing i with
  | nil => simp at hi
  | cons p ps ih =>
    cases p with
    | gap g =>
      obtain ⟨before, kind, s, after, rfl, hbefore⟩ := ih (by simpa using hi)
      exact ⟨gap g :: before, kind, s, after, rfl, by simpa using hbefore⟩
    | token kind s =>
      cases i with
      | zero => exact ⟨[], kind, s, ps, rfl, by simp⟩
      | succ i =>
        obtain ⟨before, kind', s', after, rfl, hbefore⟩ := ih (by simpa using hi)
        exact ⟨token kind s :: before, kind', s', after, rfl, by simpa using hbefore⟩

-- Some tokens of a text, with the gaps between them.
theorem exists_solid (hij : i < j) (hj : j ≤ (texts ps).length) :
    ∃ before middle after, ps = before ++ (middle ++ after) ∧ (texts before).length = i ∧
      (texts middle).length = j - i ∧ Solid middle := by
  obtain ⟨before, kind, s, after, rfl, hbefore⟩ := exists_token (Nat.lt_of_lt_of_le hij hj)
  have hlast : j - 1 - i < (texts (token kind s :: after)).length := by
    simp only [texts_append, List.length_append] at hj
    omega
  obtain ⟨between, kind', s', rest, hsplit, hbetween⟩ := exists_token hlast
  refine ⟨before, between ++ [token kind' s'], rest, by simp [hsplit], hbefore, ?_, ?_⟩
  · simp only [texts_append, texts_token, texts_nil, List.length_append, List.length_cons,
      List.length_nil, hbetween]
    omega
  · refine ⟨?_, by simp [isToken]⟩
    cases between with
    | nil => rfl
    | cons p between =>
      obtain ⟨rfl, -⟩ := List.cons.inj hsplit
      rfl

-- The tokens of the middle one of three texts.
theorem drop_take_place (before middle after : List Piece) :
    ((place 0 (before ++ (middle ++ after))).take
        ((texts before).length + (texts middle).length)).drop (texts before).length =
      (place 0 middle).map (·.shift (byteLength (spell before))) := by
  rw [List.drop_take, Nat.add_sub_cancel_left, place_append,
    List.drop_left' (length_place 0 before), place_append, List.take_left' (length_place _ middle),
    place_add]

end Piece

-- Only its position tells how far a cursor is.
theorem Cursor.Reaches.eq_between {before middle after : List Piece} {c : Cursor}
    (h : (between before (middle ++ after)).Reaches c)
    (hpos : c.pos = (texts before).length + (texts middle).length) :
    c = between (before ++ middle) after := by
  obtain ⟨source, tokens, pos⟩ := c
  obtain ⟨hsource, htokens, -, -⟩ := h
  simp only [between] at hsource htokens hpos ⊢
  simp [hsource, htokens, hpos]

namespace Reader

-- What the reader returns is cut out of the text that it reads, and it takes what is cut out on its
-- own as it did in the text.
structure Slices (reader : Reader String) : Prop where
  takes : Takes reader
  cuts : ∀ c s c', reader c = .ok s c' → s = c'.textSince c.pos
  keeps : ∀ w : Window, Keeps w w.Ended unseen reader reader

namespace Slices

theorem type : Slices type where
  takes := .type
  cuts _ _ _ h := (covered_eq_ok_iff.mp h).2
  keeps _ := .type

theorem value : Slices value where
  takes := .value
  cuts c s c' h := by
    change valueWithin c.remaining c = .ok s c' at h
    cases hdepth : c.remaining with
    | zero =>
      rw [hdepth] at h
      cases h
    | succ depth =>
      rw [hdepth] at h
      exact (covered_eq_ok_iff.mp h).2
  keeps _ := .value

theorem operand : Slices operand where
  takes := .operand
  cuts _ _ _ h := (covered_eq_ok_iff.mp h).2
  keeps _ := .operand

theorem group : Slices group where
  takes := .group
  cuts c s c' h := by
    obtain ⟨_, _, _, _, _, _, rfl, rfl⟩ := group_eq_ok_iff.mp h
    rfl
  keeps _ := .group

variable {reader : Reader String} {before middle after : List Piece} {s : String} {c' : Cursor}

-- Some tokens of a text, and the same ones alone.
def windowOf (before middle after : List Piece) : Window where
  whole := place 0 (before ++ (middle ++ after))
  part := place 0 middle
  start := (texts before).length
  stop := (texts before).length + (texts middle).length
  stop_le := by
    simp only [length_place, texts_append, List.length_append]
    omega
  same := by
    rw [drop_take_place, List.map_map]
    rfl

-- The pieces between others are read alone as they are read there.
theorem read_alone (hreader : Slices reader) (hsolid : Solid middle)
    (hread : reader (between before (middle ++ after)) = .ok s c')
    (hend : c'.pos = (texts before).length + (texts middle).length) :
    s = print middle ∧ reader (between [] middle) = .ok s (between middle []) := by
  have hsees : (windowOf before middle after).Sees (between before (middle ++ after))
      (between [] middle) :=
    ⟨rfl, rfl, by simp [between, windowOf], by simp [between, windowOf]⟩
  have hreach := hreader.takes.reaches hsees.inside hread
  obtain rfl := hreach.eq_between hend
  have hs : s = print middle :=
    (hreader.cuts _ _ _ hread).trans (textSince_between before middle after hsolid)
  obtain ⟨t, d', hpart, -, hsees'⟩ := (hreader.keeps (windowOf before middle after)).follows _ _
    hsees s _ hread (Nat.le_of_eq hend) (.inl hend)
  have hreach' := hreader.takes.reaches hsees.inside_part hpart
  have hpos : d'.pos = (texts middle).length := by
    have hpos := hsees'.pos
    simp only [windowOf] at hpos
    omega
  rw [← List.append_nil middle] at hreach'
  obtain rfl := hreach'.eq_between (by simpa using hpos)
  have ht : t = print middle :=
    (hreader.cuts _ _ _ hpart).trans (textSince_between [] middle [] hsolid)
  rw [hs, hpart, ht]
  exact ⟨rfl, rfl⟩

end Slices

-- A slice has the tokens that were taken from the text, elsewhere; read on its own, it is taken as
-- a whole; and the function it refers to is found among those tokens.
structure ReadsAgain (reader : Reader String) (slice : String) (taken part : List Token) :
    Prop where
  tokenize_eq : tokenize slice = .ok part
  taken_eq : ∃ offset, taken = part.map (·.shift offset)
  reader_eq : reader ⟨slice, part, 0⟩ = .ok slice ⟨slice, part, part.length⟩
  referencedGlobal_eq : Operand.referencedGlobal slice =
    if Operand.isGlobal slice then some slice
    else (taken.find? fun t => t.isWord && Operand.isGlobal t.text).map (·.text)

theorem read_back {reader : Reader String} (hreader : reader ∈ [type, value, operand, group])
    {source slice : String} {tokens : List Token} (htokens : tokenize source = .ok tokens)
    {pos : Nat} (hpos : pos ≤ tokens.length) {c : Cursor}
    (hread : reader ⟨source, tokens, pos⟩ = .ok slice c) :
    ∃ part, ReadsAgain reader slice ((tokens.take c.pos).drop pos) part := by
  have hslices : Slices reader := by
    simp only [List.mem_cons, List.not_mem_nil, or_false] at hreader
    rcases hreader with rfl | rfl | rfl | rfl
    · exact .type
    · exact .value
    · exact .operand
    · exact .group
  obtain ⟨ps, rfl, hps, rfl⟩ := tokenize_eq_ok_iff.mp htokens
  obtain ⟨hreach, hlt⟩ := hslices.takes ⟨print ps, place 0 ps, pos⟩ hpos slice c hread
  have hstop : c.pos ≤ (texts ps).length := by
    have hinside := hreach.inside
    rwa [Inside, hreach.tokens, length_place] at hinside
  obtain ⟨before, middle, after, rfl, rfl, hmiddle, hsolid⟩ := exists_solid hlt hstop
  have hend : c.pos = (texts before).length + (texts middle).length := by
    simp only at hlt hmiddle
    omega
  obtain ⟨rfl, halone⟩ := hslices.read_alone hsolid hread hend
  have hmiddleFits : Fits middle none := (fits_append.mp (fits_append.mp hps).2).1.alone
  have hpart : tokenize (print middle) = .ok (place 0 middle) :=
    tokenize_eq_ok_iff.mpr ⟨middle, rfl, hmiddleFits, rfl⟩
  have htaken := drop_take_place before middle after
  rw [← hend] at htaken
  refine ⟨place 0 middle, hpart, ⟨byteLength (spell before), htaken⟩, ?_, ?_⟩
  · simpa [between, length_place] using halone
  · rw [htaken, Operand.referencedGlobal, hpart, List.find?_map, Option.map_map]
    rfl

-- A sum in front of an attachment; its second operand has no type.
def additionTokens : List Token :=
  [⟨.word, "ret", 0, 3⟩, ⟨.word, "i64", 4, 7⟩, ⟨.word, "add", 8, 11⟩, ⟨.punct, "(", 12, 13⟩,
    ⟨.word, "i64", 13, 16⟩, ⟨.word, "1", 17, 18⟩, ⟨.punct, ",", 18, 19⟩, ⟨.word, "%x", 20, 22⟩,
    ⟨.punct, ")", 22, 23⟩, ⟨.punct, ",", 23, 24⟩, ⟨.word, "!dbg", 25, 29⟩, ⟨.word, "!7", 30, 32⟩]

theorem read_back_addition :
    ∃ part, ReadsAgain value "add (i64 1, %x)" ((additionTokens.take 9).drop 2) part := by
  have htokens : tokenize "ret i64 add (i64 1, %x), !dbg !7" = .ok additionTokens := rfl
  have hread : value ⟨"ret i64 add (i64 1, %x), !dbg !7", additionTokens, 2⟩ =
      .ok "add (i64 1, %x)" ⟨"ret i64 add (i64 1, %x), !dbg !7", additionTokens, 9⟩ := by
    rfl
  exact read_back (by simp) htokens (by decide) hread

end Reader

end TestFocus
