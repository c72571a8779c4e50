import TestFocus.Module.Line
import TestFocus.Proofs.Reading.Partition

namespace TestFocus

open Lexer Line

namespace Lexer

variable {zone : Zone} {cs : List Char}

theorem Zone.from_comment (hcs : '\n' ∉ cs) : Zone.comment.from cs = .comment :=
  (run_comment hcs).from_eq

-- A comment begins with a semicolon outside of quotes.
theorem Zone.after_eq_comment {c : Char} (hzone : zone ≠ .comment)
    (hafter : zone.after c = .comment) : zone = .plain ∧ c = ';' := by
  cases zone with
  | comment => exact absurd rfl hzone
  | quotes =>
    simp only [Zone.after] at hafter
    split at hafter <;> cases hafter
  | plain =>
    simp only [Zone.after] at hafter
    grind

-- Stripping keeps track of the quotes as the zones do, and cuts where a comment begins.
theorem beforeComment_cons (hzone : zone ≠ .comment) (c : Char) (cs : List Char) :
    beforeComment (zone == .quotes) (c :: cs) =
      if zone.after c = .comment then [] else c :: beforeComment (zone.after c == .quotes) cs := by
  have hplain : (Zone.plain == .quotes) = false := rfl
  cases zone with
  | comment => exact absurd rfl hzone
  | quotes => by_cases hquote : c = '"' <;> simp [beforeComment, Zone.after, hplain, hquote]
  | plain =>
    by_cases hquote : c = '"'
    · simp [beforeComment, Zone.after, hplain, hquote]
    · by_cases hsemicolon : c = ';' <;>
        simp [beforeComment, Zone.after, hplain, hquote, hsemicolon]

-- Nothing is cut off from a line that ends within quotes.
theorem beforeComment_of_quotes (hzone : zone ≠ .comment) (hcs : '\n' ∉ cs)
    (hquotes : zone.from cs = .quotes) : beforeComment (zone == .quotes) cs = cs := by
  induction cs generalizing zone with
  | nil => rfl
  | cons c cs ih =>
    rw [List.mem_cons, not_or] at hcs
    have hrest : (zone.after c).from cs = .quotes := hquotes
    have hafter : zone.after c ≠ .comment := by
      intro hcomment
      rw [hcomment, Zone.from_comment hcs.2] at hrest
      cases hrest
    rw [beforeComment_cons hzone, if_neg hafter, ih hafter hcs.2 hrest]

-- Where a comment begins, the lexer finishes what it has read, as at the end of the text.
theorem scan_cut {mode : Mode} {c : Char} (hmode : mode.zone ≠ .comment)
    (hcut : mode.zone.after c = .comment) (hcs : '\n' ∉ cs) (offset : Nat) :
    scan mode offset (c :: cs) = scan mode offset [] := by
  have hrest (offset : Nat) : scan .comment offset cs = some [] := by
    have hline := scan_comment cs [] offset hcs nofun
    rwa [List.append_nil] at hline
  obtain ⟨hzone, rfl⟩ := Zone.after_eq_comment hmode hcut
  cases mode with
  | between => simp [scan, step, enter, isBlank, hrest]
  | comment => cases hzone
  | word start read =>
    have hname : isNameChar ';' = false := rfl
    simp [scan, step, enter, isBlank, hname, hrest]
  | quoted kind start read => cases hzone

-- The induction is on the line; the mode of the lexer knows whether a quote is open.
theorem scan_beforeComment {mode : Mode} (hmode : mode.zone ≠ .comment) (hcs : '\n' ∉ cs)
    (offset : Nat) :
    scan mode offset (beforeComment (mode.zone == .quotes) cs) = scan mode offset cs := by
  induction cs generalizing mode offset with
  | nil => rfl
  | cons c cs ih =>
    rw [List.mem_cons, not_or] at hcs
    rw [beforeComment_cons hmode]
    split
    · next hcut => exact (scan_cut hmode hcut hcs.2 offset).symm
    · next hkept =>
      have hzone := zone_step mode offset c
      rw [← hzone] at hkept ⊢
      simp only [scan, ih hkept hcs.2]

end Lexer

-- Without its comment a line has the same tokens at the same places, or the same open quote.
theorem tokenize_stripComment {line : String} (hline : '\n' ∉ line.toList) :
    tokenize (stripComment line) = tokenize line := by
  have hstart : Mode.between.zone ≠ .comment := nofun
  by_cases hquotes : zoneAfter line.toList = .quotes
  · -- the report of an open quote shows the text, so here the text itself has to be the same
    have hkept : beforeComment false line.toList = line.toList :=
      beforeComment_of_quotes hstart hline hquotes
    rw [stripComment, hkept, String.ofList_toList]
  · have hscan : scan .between 0 (stripComment line).toList = scan .between 0 line.toList := by
      rw [stripComment, String.toList_ofList]
      exact scan_beforeComment hstart hline 0
    have hsome : scan .between 0 line.toList ≠ none := by
      rw [Ne, scan_eq_none_iff]
      exact hquotes
    unfold tokenize
    rw [hscan]
    split
    · rfl
    · next hnone => exact absurd hnone hsome

-- Semicolons in a name and in a character string, and a quote in the comment.
theorem tokenize_stripComment_quoted :
    '\n' ∉ "call void @\"a;b\"(ptr c\";\") ; \"x".toList ∧
      stripComment "call void @\"a;b\"(ptr c\";\") ; \"x" = "call void @\"a;b\"(ptr c\";\") " ∧
      tokenize (stripComment "call void @\"a;b\"(ptr c\";\") ; \"x") =
        tokenize "call void @\"a;b\"(ptr c\";\") ; \"x" :=
  ⟨by decide, by decide, tokenize_stripComment (by decide)⟩

-- An open quote hides the semicolon behind it.
example : stripComment "ret i32 \"0 ; none" = "ret i32 \"0 ; none" := by decide

end TestFocus
