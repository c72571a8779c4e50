import TestFocus.Proofs.Reading.Loops
import TestFocus.Proofs.Reading.ReadBack

namespace TestFocus

open Text Piece Cursor

-- What the text since a token is: no text if nothing has been taken since, and else what stands
-- between the start of that token and the end of the last one taken. Both are tokens of the cursor,
-- and the source can be cut there, as no character is divided.
def Cursor.CutsSince (c : Cursor) (mark : Nat) : Prop :=
  (c.pos ≤ mark ∧ c.textSince mark = "") ∨
    ∃ first last before after, c.tokens[mark]? = some first ∧ c.tokens[c.pos - 1]? = some last ∧
      first.start ≤ last.stop ∧ c.source.toList = before ++ ((c.textSince mark).toList ++ after) ∧
      first.start = byteLength before ∧
      last.stop = byteLength (before ++ (c.textSince mark).toList)

theorem Cursor.cutsSince {source : String} {tokens : List Token}
    (htokens : tokenize source = .ok tokens) (mark : Nat) {pos : Nat} (hpos : pos ≤ tokens.length) :
    CutsSince ⟨source, tokens, pos⟩ mark := by
  by_cases hmark : mark < pos
  · right
    obtain ⟨ps, rfl, -, rfl⟩ := tokenize_eq_ok_iff.mp htokens
    rw [length_place] at hpos
    obtain ⟨before, middle, after, rfl, rfl, hmiddle, hsolid⟩ := exists_solid hmark hpos
    have hend : pos = (texts (before ++ middle)).length := by
      simp only [texts_append, List.length_append]
      omega
    subst hend
    have htext := textSince_between before middle after hsolid
    obtain ⟨first, last, hfirst, hlast, hstart, hstop⟩ := exists_ends before after hsolid
    simp only [between, List.append_assoc] at htext hfirst hlast
    refine ⟨first, last, spell before, spell after, hfirst, hlast, by omega, ?_, hstart, ?_⟩
    · rw [htext]
      simp [print]
    · rw [htext]
      simp [print, hstop]
  · left
    have hle : pos ≤ mark := Nat.not_lt.mp hmark
    exact ⟨hle, by simp [textSince, hle]⟩

namespace Reader

-- Wherever a reader begins, and whether it succeeds or fails, it ends among the same tokens and not
-- before it began; one that reads a type, a value, an attribute, a label or a group has taken a
-- token when it succeeds. No loop is cut short by the bound on its rounds, and the text that is
-- returned can always be cut out of the source.
theorem readers_end_inside :
    (∀ reader ∈ [type, value, operand, keywordAttribute, inlineAssembly, label, group],
      Takes reader ∧ Forward reader) ∧
    (∀ (kind : InstructionKind) keyword tail, ∀ reader ∈ kind.reader? keyword tail,
      Forward reader) ∧
    (Forward instruction ∧ Forward header ∧ Forward aliasLine ∧ Forward attributeGroup) ∧
    (ReadUntilClose ∧ LoopsSettle) ∧
    ∀ source tokens, tokenize source = .ok tokens →
      ∀ mark pos, pos ≤ tokens.length → CutsSince ⟨source, tokens, pos⟩ mark := by
  have hitems : ∀ reader ∈ [type, value, operand, keywordAttribute, inlineAssembly, label, group],
      Takes reader ∧ Forward reader := by
    simp only [List.forall_mem_cons]
    exact ⟨⟨.type, .type⟩, ⟨.value, .value⟩, ⟨.operand, .operand⟩,
      ⟨.keywordAttribute, .keywordAttribute⟩, ⟨.inlineAssembly, .inlineAssembly⟩, ⟨.label, .label⟩,
      ⟨.group, .group⟩, by simp⟩
  have hlines : Forward instruction ∧ Forward header ∧ Forward aliasLine ∧
      Forward attributeGroup :=
    ⟨.instruction, .header, .aliasLine, .attributeGroup⟩
  exact ⟨hitems, fun _ _ _ _ hreader => .statement hreader, hlines,
    ⟨read_until_close, loops_settle⟩, fun _ _ htokens mark _ hpos => cutsSince htokens mark hpos⟩

-- The same sum in front of its attachment, from any of its tokens on.
def addition (pos : Nat) : Cursor :=
  ⟨"ret i64 add (i64 1, %x), !dbg !7", additionTokens, pos⟩

-- The operand of `ret` is read up to the attachment, and no header can be read there; however often
-- the reader of values is unrolled, what it reads is the same.
theorem readers_end_inside_addition :
    (addition 2).Reaches (addition 9) ∧ (addition 2).pos < (addition 9).pos ∧
      (addition 1).Reaches (ending (ret (addition 1))) ∧
      (addition 0).Reaches (ending (header (addition 0))) ∧
      (stateless valueOver)^[11] (fun _ => throw (.unexpectedEnd "value")) () (addition 2) =
        .ok "add (i64 1, %x)" (addition 9) ∧
      (addition 9).CutsSince 2 := by
  obtain ⟨hitems, hstatements, ⟨-, hheader, -⟩, ⟨-, hloops⟩, hcuts⟩ := readers_end_inside
  have htokens : tokenize "ret i64 add (i64 1, %x), !dbg !7" = .ok additionTokens := rfl
  have hread : value (addition 2) = .ok "add (i64 1, %x)" (addition 9) := rfl
  obtain ⟨htakes, -⟩ := hitems value (by simp)
  obtain ⟨hreach, hlt⟩ := htakes (addition 2) (by decide) _ _ hread
  have hret : Forward ret := hstatements .ret "ret" none ret rfl
  have hunrolled := hloops.values.settled (addition 2) (by decide) 11 ()
    (fun _ => throw (.unexpectedEnd "value")) (by decide)
  exact ⟨hreach, hlt, hret (addition 1) (by decide), hheader (addition 0) (by decide),
    hunrolled.trans hread, hcuts _ _ htokens 2 9 (by decide)⟩

end Reader

end TestFocus
