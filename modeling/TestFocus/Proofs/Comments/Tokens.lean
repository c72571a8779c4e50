import TestFocus.Proofs.Comments.Padding
import TestFocus.Proofs.Reading.Piece
import Mathlib.Data.List.Forall2

namespace TestFocus

open Text Line

namespace Padded

variable {inQuotes afterBlank : Bool} {w : Padded}

-- The byte offsets of one place.
def Mark (w : Padded) (offset offset' : Nat) : Prop :=
  ∃ p, p <+: w ∧ offset = byteLength (bare p) ∧ offset' = byteLength (full p)

-- The byte offsets of a character that is not added.
def Opens (w : Padded) (c : Char) (offset offset' : Nat) : Prop :=
  ∃ p s, w = p ++ (c, false) :: s ∧ offset = byteLength (bare p) ∧ offset' = byteLength (full p)

theorem bare_isPrefix {p : Padded} (h : p <+: w) : bare p <+: bare w := by
  obtain ⟨s, rfl⟩ := h
  rw [bare_append]
  exact List.prefix_append _ _

theorem full_isPrefix {p : Padded} (h : p <+: w) : full p <+: full w := by
  obtain ⟨s, rfl⟩ := h
  rw [full_append]
  exact List.prefix_append _ _

theorem byteLength_le_of_isPrefix {cs ds : List Char} (h : cs <+: ds) :
    byteLength cs ≤ byteLength ds := by
  obtain ⟨es, rfl⟩ := h
  rw [byteLength_append]
  exact Nat.le_add_right _ _

theorem slice_of_le {s : String} {start stop : Nat} (h : stop ≤ start) :
    slice s start stop = "" := by
  simp [slice, Nat.sub_eq_zero_of_le h, takeBytes]

theorem not_startsWithChar_empty (c : Char) : ¬startsWithChar "" c = true := by
  simp [startsWithChar]

-- The texts between two places differ in added blanks only, and begin with the character at the
-- first place unless they are empty.
theorem spaced_slice (hw : Loose inQuotes afterBlank w) {c : Char} {start start' stop stop' : Nat}
    (hopens : Opens w c start start') (hmark : Mark w stop stop') :
    Spaced (slice (String.ofList (bare w)) start stop)
        (slice (String.ofList (full w)) start' stop') ∧
      ∀ d, startsWithChar (slice (String.ofList (bare w)) start stop) d = true → d = c := by
  obtain ⟨p, s, rfl, rfl, rfl⟩ := hopens
  obtain ⟨q, hq, rfl, rfl⟩ := hmark
  rcases List.prefix_or_prefix_of_prefix (List.prefix_append p _) hq with ⟨m, rfl⟩ | hle
  · obtain ⟨r, hr⟩ := hq
    rw [List.append_assoc, List.append_cancel_left_eq] at hr
    have hslice (cs ds es : List Char) :
        slice (String.ofList (cs ++ (ds ++ es))) (byteLength cs) (byteLength (cs ++ ds)) =
          String.ofList ds := by
      rw [byteLength_append]
      exact slice_append cs ds es
    rw [← hr, bare_append, bare_append, bare_append, full_append, full_append, full_append, hslice,
      hslice]
    rw [← hr, loose_append, loose_append] at hw
    obtain ⟨-, hm, -⟩ := hw
    cases m with
    | nil => exact ⟨.refl _, fun d hd => absurd hd (not_startsWithChar_empty d)⟩
    | cons x m =>
      obtain ⟨rfl, -⟩ := List.cons_eq_cons.mp hr
      have hloose : Loose (isOpen inQuotes (full p)) false ((c, false) :: m) := ⟨nofun, hm.2⟩
      refine ⟨⟨_, _, hloose, rfl, rfl⟩, ?_⟩
      intro d hd
      have hhead : some c = some d := by simpa [startsWithChar] using hd
      exact (Option.some.inj hhead).symm
  · rw [slice_of_le (byteLength_le_of_isPrefix (bare_isPrefix hle)),
      slice_of_le (byteLength_le_of_isPrefix (full_isPrefix hle))]
    exact ⟨.refl _, fun d hd => absurd hd (not_startsWithChar_empty d)⟩

end Padded

open Padded Lexer

-- The same token of the two texts.
structure Token.Alike (w : Padded) (t t' : Token) : Prop where
  kind : t.kind = t'.kind
  text : t.text = t'.text
  start : ∃ c, t.text.toList.head? = some c ∧ (t.kind = .string → c = '"') ∧
    Opens w c t.start t'.start
  stop : Mark w t.stop t'.stop

namespace Lexer

-- The scans of the two texts stand at the same place, in the same mode.
inductive Mode.Alike (w : Padded) : Bool → Mode → Mode → Prop where
  | between : Alike w false .between .between
  | comment (inQuotes : Bool) : Alike w inQuotes .comment .comment
  | word {c : Char} {start start' : Nat} {read : List Char} :
      read.getLast? = some c → Opens w c start start' →
      Alike w false (.word start read) (.word start' read)
  | quoted {c : Char} {kind : TokenKind} {start start' : Nat} {read : List Char} :
      read.getLast? = some c → (kind = .string → c = '"') → Opens w c start start' →
      Alike w true (.quoted kind start read) (.quoted kind start' read)

variable {w : Padded} {offset offset' : Nat} {c : Char}

theorem alike_close {kind : TokenKind} {start start' : Nat} {read : List Char} {d : Char}
    (hread : read.getLast? = some d) (hkind : kind = .string → d = '"')
    (hopens : Opens w d start start') (hmark : Mark w offset offset') :
    Token.Alike w (close kind start offset read) (close kind start' offset' read) where
  kind := rfl
  text := rfl
  start := ⟨d, by simpa [close] using hread, hkind, hopens⟩
  stop := hmark

-- Characters of a class without the double quote are no double quotes.
theorem beq_quote_eq_false {p : Char → Bool} (hp : p '"' = false) (hc : p c = true) :
    (c == '"') = false := by
  rw [beq_eq_false_iff_ne]
  rintro rfl
  rw [hp] at hc
  cases hc

theorem alike_enter (hopens : Opens w c offset offset')
    (hnext : Mark w (offset + c.utf8Size) (offset' + c.utf8Size)) :
    List.Forall₂ (Token.Alike w) (enter offset c).1.toList (enter offset' c).1.toList ∧
      Mode.Alike w (c == '"') (enter offset c).2 (enter offset' c).2 := by
  unfold enter
  split
  · next hblank =>
    rw [beq_quote_eq_false (p := isBlank) rfl hblank]
    exact ⟨.nil, .between⟩
  · split
    · exact ⟨.nil, .comment _⟩
    · split
      · next hquote =>
        rw [hquote]
        exact ⟨.nil, .quoted rfl (fun _ => beq_iff_eq.mp hquote) hopens⟩
      · next hquote =>
        rw [Bool.not_eq_true] at hquote
        rw [hquote]
        split
        · exact ⟨.nil, .word rfl hopens⟩
        · exact ⟨.cons (alike_close rfl nofun hopens hnext) .nil, .between⟩

-- One character that both texts have.
theorem alike_step {inQuotes : Bool} {mode mode' : Mode} (hmode : mode.Alike w inQuotes mode')
    (hline : c ≠ '\n') (hopens : Opens w c offset offset')
    (hnext : Mark w (offset + c.utf8Size) (offset' + c.utf8Size)) :
    List.Forall₂ (Token.Alike w) (step mode offset c).1 (step mode' offset' c).1 ∧
      Mode.Alike w (if c == '"' then !inQuotes else inQuotes) (step mode offset c).2
        (step mode' offset' c).2 := by
  have hstay (b : Bool) : (if b then !false else false) = b := by cases b <;> rfl
  have hmark : Mark w offset offset' := by
    obtain ⟨p, s, rfl, hp, hp'⟩ := hopens
    exact ⟨p, List.prefix_append _ _, hp, hp'⟩
  have hlast {read : List Char} {d : Char} (hread : read.getLast? = some d) :
      (c :: read).getLast? = some d := by
    rw [List.getLast?_cons, hread]
    rfl
  obtain ⟨henter, hafter⟩ := alike_enter hopens hnext
  cases hmode with
  | between =>
    rw [hstay]
    exact ⟨henter, hafter⟩
  | comment inQuotes =>
    have hmode : (if c == '\n' then Mode.between else .comment) = .comment := by simp [hline]
    simp only [step, hmode]
    exact ⟨.nil, .comment _⟩
  | @word d start start' read hread hword =>
    simp only [step]
    split
    · next hname =>
      rw [beq_quote_eq_false (p := isNameChar) rfl hname]
      exact ⟨.nil, .word (hlast hread) hword⟩
    · split
      · next hquote =>
        simp only [Bool.and_eq_true] at hquote
        rw [hquote.1]
        exact ⟨.nil, .quoted (hlast hread) nofun hword⟩
      · rw [hstay]
        exact ⟨.cons (alike_close hread nofun hword hmark) henter, hafter⟩
  | @quoted d kind start start' read hread hkind hquoted =>
    simp only [step]
    split
    · exact ⟨.cons (alike_close (hlast hread) hkind hquoted hnext) .nil, .between⟩
    · exact ⟨.nil, .quoted (hlast hread) hkind hquoted⟩

-- A blank ends the word before it.
theorem step_blank_ne_word (mode : Mode) (offset start : Nat) (read : List Char) :
    (step mode offset ' ').2 ≠ .word start read := by
  cases mode with
  | between => nofun
  | comment => nofun
  | word start read =>
    have hquote : (' ' == '"' && takesQuote read) = false := rfl
    simp only [step, hquote]
    nofun
  | quoted kind start read => nofun

-- An added blank leaves the scan as it is.
theorem step_added {inQuotes : Bool} {mode mode' : Mode} (hmode : mode.Alike w inQuotes mode')
    (hquotes : inQuotes = false) (hword : ∀ start read, mode ≠ .word start read) (offset : Nat) :
    step mode' offset ' ' = ([], mode') := by
  cases hmode with
  | between => rfl
  | comment => rfl
  | word hread hopens => exact absurd rfl (hword _ _)
  | quoted hread hkind hopens => cases hquotes

theorem rel_map_append {R : Token → Token → Prop} {ts ts' : List Token}
    {rest rest' : Option (List Token)} (h : List.Forall₂ R ts ts')
    (hrest : Option.Rel (List.Forall₂ R) rest rest') :
    Option.Rel (List.Forall₂ R) (rest.map (ts ++ ·)) (rest'.map (ts' ++ ·)) := by
  cases hrest with
  | none => exact .none
  | some hrest => exact .some (List.rel_append h hrest)

theorem alike_scan (v : Padded) {p : Padded} {inQuotes afterBlank : Bool} {mode mode' : Mode}
    (hv : Loose inQuotes afterBlank v) (hline : '\n' ∉ bare v) (hw : w = p ++ v)
    (hmode : mode.Alike w inQuotes mode')
    (hword : afterBlank = true → ∀ start read, mode ≠ .word start read) :
    Option.Rel (List.Forall₂ (Token.Alike w)) (scan mode (byteLength (bare p)) (bare v))
      (scan mode' (byteLength (full p)) (full v)) := by
  induction v generalizing p inQuotes afterBlank mode mode' with
  | nil =>
    have hmark : Mark w (byteLength (bare p)) (byteLength (full p)) :=
      ⟨p, by simp [hw], rfl, rfl⟩
    cases hmode with
    | between => exact .some .nil
    | comment => exact .some .nil
    | word hread hopens => exact .some (.cons (alike_close hread nofun hopens hmark) .nil)
    | quoted hread hkind hopens => exact .none
  | cons x v ih =>
    obtain ⟨c, added⟩ := x
    obtain ⟨hadded, hv⟩ := hv
    have hw' : w = (p ++ [(c, added)]) ++ v := by simp [hw]
    have hfull : byteLength (full (p ++ [(c, added)])) = byteLength (full p) + c.utf8Size := by
      simp [byteLength_append, byteLength]
    cases added with
    | true =>
      obtain ⟨rfl, hquotes, hblank⟩ := hadded rfl
      have hbare : bare (p ++ [(' ', true)]) = bare p := by simp
      have hrest := ih (p := p ++ [(' ', true)]) hv hline hw' hmode fun _ => hword hblank
      rw [hbare, hfull] at hrest
      have hscan : scan mode' (byteLength (full p)) (full ((' ', true) :: v)) =
          scan mode' (byteLength (full p) + ' '.utf8Size) (full v) := by
        rw [full_cons, scan, step_added hmode hquotes (hword hblank)]
        exact Option.map_id'
      rw [bare_cons_true, hscan]
      exact hrest
    | false =>
      have hbare : byteLength (bare (p ++ [(c, false)])) = byteLength (bare p) + c.utf8Size := by
        simp [byteLength_append, byteLength]
      rw [bare_cons_false, List.mem_cons, not_or] at hline
      have hopens : Opens w c (byteLength (bare p)) (byteLength (full p)) := ⟨p, v, hw, rfl, rfl⟩
      have hnext : Mark w (byteLength (bare p) + c.utf8Size) (byteLength (full p) + c.utf8Size) :=
        ⟨p ++ [(c, false)], by simp [hw'], hbare.symm, hfull.symm⟩
      obtain ⟨hdone, hmode'⟩ := alike_step hmode (Ne.symm hline.1) hopens hnext
      have hrest := ih (p := p ++ [(c, false)]) hv hline.2 hw' hmode' (by
        intro hblank
        rw [beq_iff_eq] at hblank
        subst hblank
        exact step_blank_ne_word mode _)
      rw [hbare, hfull] at hrest
      rw [bare_cons_false, full_cons, scan, scan]
      exact rel_map_append hdone hrest

end Lexer

-- Both texts are scanned, into the same tokens, or neither is.
theorem alike_tokenize {w : Padded} (hw : Loose false false w) (hline : '\n' ∉ bare w) :
    Option.Rel (List.Forall₂ (Token.Alike w)) (Lexer.scan .between 0 (bare w))
      (Lexer.scan .between 0 (full w)) :=
  Lexer.alike_scan (p := []) w hw hline rfl .between nofun

end TestFocus
