import TestFocus.Proofs.Reading.Partition
import TestFocus.Proofs.Reading.Window

namespace TestFocus

open Lexer

namespace Bracket

def isBracket (t : Token) : Bool :=
  t.kind == .punct && ((closer? t.text).isSome || isCloser t.text)

-- The brackets among the tokens. One in a string or in a quoted name is a part of another token.
def brackets (ts : List Token) : List String :=
  (ts.filter isBracket).map (·.text)

-- Groups one after another, each with other groups in it.
inductive Nested : List String → Prop where
  | nil : Nested []
  | group {opening closing : String} {inner rest : List String} :
      closer? opening = some closing → Nested inner → Nested rest →
      Nested (opening :: (inner ++ closing :: rest))

-- A single group.
def IsGroup (marks : List String) : Prop :=
  ∃ opening closing inner, closer? opening = some closing ∧ Nested inner ∧
    marks = opening :: (inner ++ [closing])

-- The tokens begin with an opening bracket, and their brackets are a single group.
structure Grouped (ts : List Token) : Prop where
  opens : ∃ t, ts.head? = some t ∧ t.kind = .punct ∧ (closer? t.text).isSome
  isGroup : IsGroup (brackets ts)

-- The closers that are due come one by one, each behind groups of its own, and nothing comes after
-- the last one.
def Closes : List String → List String → Prop
  | [], marks => marks = []
  | closer :: outer, marks =>
    ∃ inner rest, Nested inner ∧ marks = inner ++ closer :: rest ∧ Closes outer rest

variable {closer opening closing text : String} {outer awaited marks : List String} {t : Token}
  {ts : List Token} {n k : Nat}

theorem closer?_of_isCloser (h : isCloser text = true) : closer? text = none := by
  simp only [isCloser, List.contains_eq_mem, List.mem_cons, List.not_mem_nil, or_false,
    decide_eq_true_eq] at h
  rcases h with rfl | rfl | rfl | rfl <;> rfl

theorem not_closes_nil : ¬Closes (closer :: outer) [] := by
  rintro ⟨inner, rest, -, hmarks, -⟩
  simp at hmarks

-- An opening bracket begins a group in front of the closer that is due.
theorem closes_opening (hcloser : isCloser closer = true)
    (hopening : closer? opening = some closing) :
    Closes (closer :: outer) (opening :: marks) ↔ Closes (closing :: closer :: outer) marks := by
  constructor
  · rintro ⟨inner, rest, hinner, hmarks, hrest⟩
    cases hinner with
    | nil =>
      obtain ⟨rfl, -⟩ := List.cons.inj hmarks
      rw [closer?_of_isCloser hcloser] at hopening
      cases hopening
    | @group opening' closing' inner' after hopening' hinner' hafter =>
      obtain ⟨rfl, rfl⟩ := List.cons.inj hmarks
      obtain rfl := Option.some.inj (hopening'.symm.trans hopening)
      exact ⟨inner', after ++ closer :: rest, hinner', by simp, after, rest, hafter, rfl, hrest⟩
  · rintro ⟨inner, _, hinner, rfl, after, rest, hafter, rfl, hrest⟩
    exact ⟨opening :: (inner ++ closing :: after), rest, .group hopening hinner hafter, by simp,
      hrest⟩

-- Any other bracket has to be the closer that is due.
theorem closes_closing (htext : closer? text = none) :
    Closes (closer :: outer) (text :: marks) ↔ text = closer ∧ Closes outer marks := by
  constructor
  · rintro ⟨inner, rest, hinner, hmarks, hrest⟩
    cases hinner with
    | nil =>
      obtain ⟨rfl, rfl⟩ := List.cons.inj hmarks
      exact ⟨rfl, hrest⟩
    | group hopening =>
      obtain ⟨rfl, -⟩ := List.cons.inj hmarks
      rw [htext] at hopening
      cases hopening
  · rintro ⟨rfl, hrest⟩
    exact ⟨[], marks, .nil, rfl, hrest⟩

theorem brackets_of_isBracket (ht : isBracket t = true) (ts : List Token) :
    brackets (t :: ts) = t.text :: brackets ts := by
  simp [brackets, ht]

theorem brackets_of_not_isBracket (ht : isBracket t = false) (ts : List Token) :
    brackets (t :: ts) = brackets ts := by
  simp [brackets, ht]

-- What is due behind a token has to come in the tokens after it.
theorem closes_brackets_cons (hcloser : isCloser closer = true) :
    Closes (closer :: outer) (brackets (t :: ts)) ↔
      ∃ due, dueAfter closer outer t = some due ∧ Closes due (brackets ts) := by
  by_cases hkind : t.kind = .punct
  · cases hopening : closer? t.text with
    | some closing =>
      have ht : isBracket t = true := by simp [isBracket, hkind, hopening]
      rw [brackets_of_isBracket ht, closes_opening hcloser hopening]
      simp [dueAfter, hkind, hopening]
    | none =>
      by_cases hclosing : isCloser t.text = true
      · have ht : isBracket t = true := by simp [isBracket, hkind, hclosing]
        rw [brackets_of_isBracket ht, closes_closing hopening]
        by_cases hdue : t.text = closer
        · subst hdue
          simp [dueAfter, hkind, hopening]
        · simp [dueAfter, hkind, hopening, hclosing, hdue]
      · have ht : isBracket t = false := by simp [isBracket, hopening, hclosing]
        have hne : t.text ≠ closer := by
          rintro rfl
          exact hclosing hcloser
        rw [brackets_of_not_isBracket ht]
        simp [dueAfter, hkind, hopening, hclosing, hne]
  · have ht : isBracket t = false := by simp [isBracket, hkind]
    rw [brackets_of_not_isBracket ht]
    simp [dueAfter, hkind]

theorem isCloser_of_dueAfter {due : List String} (h : dueAfter closer outer t = some due)
    (hclosers : ∀ a ∈ closer :: outer, isCloser a = true) : ∀ a ∈ due, isCloser a = true := by
  unfold dueAfter at h
  split at h
  · cases h
    exact hclosers
  · split at h
    · next nested hopening =>
      cases h
      intro a ha
      rcases List.mem_cons.mp ha with rfl | ha
      · exact isCloser_closing hopening
      · exact hclosers a ha
    · split at h
      · cases h
        exact fun a ha => hclosers a (List.mem_cons_of_mem _ ha)
      · split at h
        · cases h
        · cases h
          exact hclosers

-- The tokens that were looked at close what was due.
theorem closes_of_matchGroup (hclosers : ∀ a ∈ awaited, isCloser a = true)
    (h : matchGroup awaited ts = (true, n)) : Closes awaited (brackets (ts.take n)) := by
  induction ts generalizing awaited n with
  | nil =>
    cases awaited with
    | nil => exact congrArg brackets List.take_nil
    | cons closer outer => cases h
  | cons t ts ih =>
    cases awaited with
    | nil =>
      cases h
      rfl
    | cons closer outer =>
      obtain ⟨due, m, hdue, hmatch, rfl⟩ := exists_due h
      rw [List.take_succ_cons, closes_brackets_cons (hclosers closer List.mem_cons_self)]
      exact ⟨due, hdue, ih (isCloser_of_dueAfter hdue hclosers) hmatch⟩

-- When some of the tokens close what is due, no more than those are looked at.
theorem exists_matchGroup_of_closes (hclosers : ∀ a ∈ awaited, isCloser a = true)
    (h : Closes awaited (brackets (ts.take k))) : ∃ n ≤ k, matchGroup awaited ts = (true, n) := by
  induction ts generalizing awaited k with
  | nil =>
    cases awaited with
    | nil => exact ⟨0, Nat.zero_le k, rfl⟩
    | cons closer outer =>
      rw [List.take_nil] at h
      exact absurd h not_closes_nil
  | cons t ts ih =>
    cases awaited with
    | nil => exact ⟨0, Nat.zero_le k, rfl⟩
    | cons closer outer =>
      cases k with
      | zero => exact absurd h not_closes_nil
      | succ k =>
        rw [List.take_succ_cons, closes_brackets_cons (hclosers closer List.mem_cons_self)] at h
        obtain ⟨due, hdue, hrest⟩ := h
        obtain ⟨n, hn, hmatch⟩ := ih (isCloser_of_dueAfter hdue hclosers) hrest
        exact ⟨n + 1, Nat.succ_le_succ hn, by simp only [matchGroup_cons, hdue, hmatch]⟩

-- Behind the opening bracket, the closer of the group is all that is due.
theorem isGroup_cons_iff (hopening : closer? opening = some closing) :
    IsGroup (opening :: marks) ↔ Closes [closing] marks := by
  constructor
  · rintro ⟨opening', closing', inner, hopening', hinner, hmarks⟩
    obtain ⟨rfl, rfl⟩ := List.cons.inj hmarks
    obtain rfl := Option.some.inj (hopening'.symm.trans hopening)
    exact ⟨inner, [], hinner, rfl, rfl⟩
  · rintro ⟨inner, _, hinner, rfl, rfl⟩
    exact ⟨opening, closing, inner, hopening, hinner, rfl⟩

theorem grouped_cons_iff (ht : t.kind = .punct) (hopening : closer? t.text = some closing) :
    Grouped (t :: ts) ↔ Closes [closing] (brackets ts) := by
  have hbracket : isBracket t = true := by simp [isBracket, ht, hopening]
  have hiff : IsGroup (brackets (t :: ts)) ↔ Closes [closing] (brackets ts) := by
    rw [brackets_of_isBracket hbracket, isGroup_cons_iff hopening]
  constructor
  · intro h
    exact hiff.mp h.isGroup
  · intro h
    exact ⟨⟨t, rfl, ht, by rw [hopening]; rfl⟩, hiff.mpr h⟩

end Bracket

namespace Reader

open TestFocus.Bracket

-- Of the tokens of a text, only punctuation opens a group: a string begins with a quote.
theorem kind_of_groupCloser? {t : Token} {closing : String} (hshape : Shape t.kind t.text.toList)
    (h : groupCloser? t = some closing) : t.kind = .punct ∧ closer? t.text = some closing := by
  unfold groupCloser? at h
  split at h
  · cases h
  · next hword =>
    refine ⟨?_, h⟩
    cases hkind : t.kind with
    | punct => rfl
    | word => simp [Token.isWord, hkind] at hword
    | string =>
      rw [hkind] at hshape
      have hstring (cs : List Char) (hcs : Shape .string cs) : cs.head? = some '"' := by
        cases hcs
        rfl
      have hquote := hstring _ hshape
      unfold closer? at h
      split at h
      case h_5 => cases h
      all_goals
        next htext =>
          rw [htext] at hquote
          exact absurd hquote (by decide)

theorem groupCloser?_of_punct {t : Token} (ht : t.kind = .punct) :
    groupCloser? t = closer? t.text := by
  simp [groupCloser?, Token.isWord, ht]

theorem shape_of_tokenize {source : String} {tokens : List Token}
    (h : tokenize source = .ok tokens) : ∀ t ∈ tokens, Shape t.kind t.text.toList := by
  obtain ⟨ps, rfl, hps, rfl⟩ := Piece.tokenize_eq_ok_iff.mp h
  intro t ht
  obtain ⟨_, _, hstands⟩ := Piece.stands_of_mem_place hps ht
  exact hstands.shape

variable {c : Cursor} {t : Token} {k : Nat}

theorem rest_eq_cons (hpeek : c.peek? = some t) : c.rest = t :: c.advance.rest := by
  have hlt : c.pos < c.tokens.length := Cursor.lt_of_peekNth? hpeek
  have hget : c.tokens[c.pos] = t := (List.getElem?_eq_some_iff.mp hpeek).2
  rw [Cursor.advance_eq hlt, Cursor.rest, Cursor.rest, ← hget, List.drop_eq_getElem_cons hlt]

-- The fewest tokens that are a group are the ones that are taken.
theorem exists_matchGroup_of_grouped (h : Grouped (c.rest.take k)) :
    ∃ t closing n, c.peek? = some t ∧ groupCloser? t = some closing ∧
      matchGroup [closing] c.advance.rest = (true, n) ∧ n + 1 ≤ k := by
  obtain ⟨t, hhead, hkind, hopens⟩ := h.opens
  obtain ⟨closing, hopening⟩ := Option.isSome_iff_exists.mp hopens
  obtain ⟨k, rfl⟩ : ∃ i, k = i + 1 := by
    cases k with
    | zero => simp at hhead
    | succ i => exact ⟨i, rfl⟩
  have hpeek : c.peek? = some t := by
    rw [List.head?_take, if_neg (Nat.succ_ne_zero k), Cursor.rest, List.head?_drop] at hhead
    exact hhead
  rw [rest_eq_cons hpeek, List.take_succ_cons, grouped_cons_iff hkind hopening] at h
  have hclosers : ∀ a ∈ [closing], isCloser a = true := by
    simpa using isCloser_closing hopening
  obtain ⟨n, hn, hmatch⟩ := exists_matchGroup_of_closes hclosers h
  exact ⟨t, closing, n, hpeek, by rw [groupCloser?_of_punct hkind, hopening], hmatch,
    Nat.succ_le_succ hn⟩

theorem grouped_of_matchGroup {closing : String} {n : Nat} (hshape : Shape t.kind t.text.toList)
    (hpeek : c.peek? = some t) (hcloser : groupCloser? t = some closing)
    (hmatch : matchGroup [closing] c.advance.rest = (true, n)) : Grouped (c.rest.take (n + 1)) := by
  obtain ⟨hkind, hopening⟩ := kind_of_groupCloser? hshape hcloser
  have hclosers : ∀ a ∈ [closing], isCloser a = true := by
    simpa using isCloser_closing hopening
  rw [rest_eq_cons hpeek, List.take_succ_cons, grouped_cons_iff hkind hopening]
  exact closes_of_matchGroup hclosers hmatch

-- The text of tokens that were taken.
theorem textSince_take {n : Nat} (hn : n < c.rest.length) :
    ∃ first last, (c.rest.take (n + 1)).head? = some first ∧
      (c.rest.take (n + 1)).getLast? = some last ∧
      Cursor.textSince { c with pos := c.pos + (n + 1) } c.pos =
        Text.slice c.source first.start last.stop := by
  have hlength : (c.rest.take (n + 1)).length = n + 1 := by
    rw [List.length_take]
    omega
  have hget (i : Nat) (hi : i ≤ n) : (c.rest.take (n + 1))[i]? = c.tokens[c.pos + i]? := by
    rw [List.getElem?_take_of_lt (Nat.lt_succ_of_le hi), Cursor.rest, List.getElem?_drop]
  have hsome (i : Nat) (hi : i ≤ n) : ∃ t, c.tokens[c.pos + i]? = some t := by
    rw [← hget i hi]
    exact ⟨_, List.getElem?_eq_getElem (by omega)⟩
  obtain ⟨first, hfirst⟩ := hsome 0 (Nat.zero_le n)
  obtain ⟨last, hlast⟩ := hsome n (Nat.le_refl n)
  refine ⟨first, last, ?_, ?_, ?_⟩
  · rw [List.head?_eq_getElem?, hget 0 (Nat.zero_le n), hfirst]
  · rw [List.getLast?_eq_getElem?, hlength, Nat.add_sub_cancel, hget n (Nat.le_refl n), hlast]
  · have hpos : ¬c.pos + (n + 1) ≤ c.pos := by omega
    have hstop : c.pos + (n + 1) - 1 = c.pos + n := by omega
    simp only [Nat.add_zero] at hfirst
    simp only [Cursor.textSince, hpos, if_false, hstop, hfirst, hlast]

-- Of the tokens to come, `taken` are the fewest that are a group; the cursor moves past them, and
-- `s` is their text, from the first one to the last.
structure ReadsGroup (c : Cursor) (s : String) (c' : Cursor) (taken : List Token) : Prop where
  is_next : taken <+: c.rest
  grouped : Grouped taken
  shortest : ∀ other, other <+: c.rest → Grouped other → taken <+: other
  cursor_eq : c' = { c with pos := c.pos + taken.length }
  text_eq : ∃ first last, taken.head? = some first ∧ taken.getLast? = some last ∧
    s = Text.slice c.source first.start last.stop

theorem readsGroup_of_ok {s : String} {c' : Cursor}
    (hshapes : ∀ t ∈ c.tokens, Shape t.kind t.text.toList) (h : group c = .ok s c') :
    ∃ taken, ReadsGroup c s c' taken := by
  obtain ⟨t, closing, n, hpeek, hcloser, hmatch, rfl, rfl⟩ := group_eq_ok_iff.mp h
  have hlt : c.pos < c.tokens.length := Cursor.lt_of_peekNth? hpeek
  have hshape := hshapes t (List.mem_of_getElem? hpeek)
  have hn : n < c.rest.length := by
    rw [rest_eq_cons hpeek, List.length_cons]
    exact Nat.lt_succ_of_le (matchGroup_le hmatch)
  have hlength : (c.rest.take (n + 1)).length = n + 1 := by
    rw [List.length_take]
    omega
  have hend : c.advance.advanceBy n = { c with pos := c.pos + (n + 1) } := by
    rw [Cursor.rest, List.length_drop] at hn
    simp only [Cursor.advance_eq hlt, Cursor.advanceBy, Cursor.mk.injEq, true_and]
    omega
  refine ⟨c.rest.take (n + 1), List.take_prefix _ _,
    grouped_of_matchGroup hshape hpeek hcloser hmatch, ?_, by rw [hend, hlength], ?_⟩
  · intro other hother hgrouped
    rw [List.prefix_iff_eq_take.mp hother] at hgrouped ⊢
    obtain ⟨t', closing', m, hpeek', hcloser', hmatch', hm⟩ :=
      exists_matchGroup_of_grouped hgrouped
    obtain rfl := Option.some.inj (hpeek.symm.trans hpeek')
    obtain rfl := Option.some.inj (hcloser.symm.trans hcloser')
    obtain rfl : n = m := congrArg Prod.snd (hmatch.symm.trans hmatch')
    exact List.take_prefix_take_left hm
  · rw [hend]
    exact textSince_take hn

theorem exists_group_of_grouped {taken : List Token} (htaken : taken <+: c.rest)
    (hgrouped : Grouped taken) : ∃ s c', group c = .ok s c' := by
  rw [List.prefix_iff_eq_take.mp htaken] at hgrouped
  obtain ⟨t, closing, n, hpeek, hcloser, hmatch, -⟩ := exists_matchGroup_of_grouped hgrouped
  exact ⟨_, _, group_eq_ok_iff.mpr ⟨t, closing, n, hpeek, hcloser, hmatch, rfl, rfl⟩⟩

-- A group is read exactly where some of the tokens to come are one, and as few of them are taken as
-- there can be.
theorem group_reads_shortest {source : String} {tokens : List Token}
    (htokens : tokenize source = .ok tokens) (pos : Nat) :
    let c : Cursor := ⟨source, tokens, pos⟩
    ((∃ s c', group c = .ok s c') ↔ ∃ taken, taken <+: c.rest ∧ Grouped taken) ∧
      ∀ s c', group c = .ok s c' → ∃ taken, ReadsGroup c s c' taken := by
  intro c
  have hreads (s : String) (c' : Cursor) (h : group c = .ok s c') :
      ∃ taken, ReadsGroup c s c' taken :=
    readsGroup_of_ok (shape_of_tokenize htokens) h
  refine ⟨⟨?_, ?_⟩, hreads⟩
  · rintro ⟨s, c', h⟩
    obtain ⟨taken, htaken⟩ := hreads s c' h
    exact ⟨taken, htaken.is_next, htaken.grouped⟩
  · rintro ⟨taken, htaken, hgrouped⟩
    exact exists_group_of_grouped htaken hgrouped

-- A type with groups of three kinds, and a name with a bracket of its own.
def nestedTokens : List Token :=
  [⟨.punct, "\x7b", 0, 1⟩, ⟨.punct, "[", 2, 3⟩, ⟨.word, "2", 3, 4⟩, ⟨.word, "x", 5, 6⟩,
    ⟨.punct, "<", 7, 8⟩, ⟨.word, "4", 8, 9⟩, ⟨.word, "x", 10, 11⟩, ⟨.word, "i8", 12, 14⟩,
    ⟨.punct, ">", 14, 15⟩, ⟨.punct, "]", 15, 16⟩, ⟨.punct, ",", 16, 17⟩,
    ⟨.word, "%\"a]\"", 18, 23⟩, ⟨.punct, "\x7d", 24, 25⟩, ⟨.punct, ")", 26, 27⟩]

theorem group_reads_shortest_nested :
    ∃ taken, ReadsGroup ⟨"\x7b [2 x <4 x i8>], %\"a]\" \x7d )", nestedTokens, 0⟩
      "\x7b [2 x <4 x i8>], %\"a]\" \x7d"
      ⟨"\x7b [2 x <4 x i8>], %\"a]\" \x7d )", nestedTokens, 13⟩ taken := by
  have htokens : tokenize "\x7b [2 x <4 x i8>], %\"a]\" \x7d )" = .ok nestedTokens := rfl
  exact (group_reads_shortest htokens 0).2 _ _ rfl

-- The tokens have to begin with the group: brackets alone do not tell where one can be read.
theorem group_not_behind_word :
    let tokens : List Token := [⟨.word, "x", 0, 1⟩, ⟨.punct, "(", 2, 3⟩, ⟨.punct, ")", 3, 4⟩]
    tokenize "x ()" = .ok tokens ∧
      ¬((∃ s c', group ⟨"x ()", tokens, 0⟩ = .ok s c') ↔
        ∃ taken, taken <+: tokens.drop 0 ∧ IsGroup (brackets taken)) := by
  refine ⟨rfl, fun h => ?_⟩
  obtain ⟨s, c', hread⟩ := h.mpr ⟨_, List.prefix_refl _, "(", ")", [], rfl, .nil, rfl⟩
  cases hread

end Reader

end TestFocus
