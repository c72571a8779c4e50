import TestFocus.Proofs.Comments.Tokens
import TestFocus.Proofs.Reading.Position

-- Readers on a text and on the same text with added blanks. Both texts have the same tokens, so
-- a reader takes the same way through them; what it returns as text may differ in added blanks.

namespace TestFocus

open Text Line Padded

theorem rel_getElem? {α β : Type} {R : α → β → Prop} {xs : List α} {ys : List β}
    (h : List.Forall₂ R xs ys) (i : Nat) : Option.Rel R xs[i]? ys[i]? := by
  induction h generalizing i with
  | nil => exact .none
  | cons hxy _ ih =>
    cases i with
    | zero => exact .some hxy
    | succ i => exact ih i

-- The tokens of a text without and with what is added.
structure Tokenized where
  text : Padded
  bare : List Token
  full : List Token
  loose : Loose false false text
  alike : List.Forall₂ (Token.Alike text) bare full

-- The cursors stand before the same token.
structure Cursor.Alike (w : Tokenized) (c c' : Cursor) : Prop where
  source : c.source = String.ofList (bare w.text)
  source' : c'.source = String.ofList (full w.text)
  tokens : c.tokens = w.bare
  tokens' : c'.tokens = w.full
  pos : c.pos = c'.pos

namespace Cursor.Alike

variable {w : Tokenized} {c c' : Cursor} (h : c.Alike w c')

include h

theorem getElem? (i : Nat) :
    Option.Rel (Token.Alike w.text) c.tokens[i]? c'.tokens[i]? := by
  rw [h.tokens, h.tokens']
  exact rel_getElem? w.alike i

theorem length_eq : c.tokens.length = c'.tokens.length := by
  rw [h.tokens, h.tokens', w.alike.length_eq]

theorem peekNth? (n : Nat) :
    Option.Rel (Token.Alike w.text) (c.peekNth? n) (c'.peekNth? n) := by
  rw [Cursor.peekNth?, Cursor.peekNth?, ← h.pos]
  exact h.getElem? _

theorem peek? : Option.Rel (Token.Alike w.text) c.peek? c'.peek? :=
  h.peekNth? 0

theorem text_peekNth? (n : Nat) :
    (c.peekNth? n).map (·.text) = (c'.peekNth? n).map (·.text) := by
  rcases rel_cases (h.peekNth? n) with ⟨hnone, hnone'⟩ | ⟨t, t', ht, ht', htoken⟩
  · rw [hnone, hnone']
  · rw [ht, ht', Option.map_some, Option.map_some, htoken.text]

theorem nthIs_eq (n : Nat) (text : String) : c.nthIs n text = c'.nthIs n text := by
  simp only [nthIs, h.text_peekNth?]

theorem nextIs_eq (text : String) : c.nextIs text = c'.nextIs text :=
  h.nthIs_eq 0 text

theorem peekText?_eq : c.peekText? = c'.peekText? :=
  h.text_peekNth? 0

theorem nextFits_eq (p : String → Bool) : c.nextFits p = c'.nextFits p := by
  simp only [nextFits, h.peekText?_eq]

theorem isEmpty_eq : c.isEmpty = c'.isEmpty := by
  simp only [Cursor.isEmpty, h.length_eq, h.pos]

theorem remaining_eq : c.remaining = c'.remaining := by
  simp only [Cursor.remaining, h.length_eq, h.pos]

theorem rest : List.Forall₂ (Token.Alike w.text) c.rest c'.rest := by
  rw [Cursor.rest, Cursor.rest, h.pos, h.tokens, h.tokens']
  exact List.forall₂_drop _ w.alike

theorem advance : c.advance.Alike w c'.advance := by
  simp only [Cursor.advance, h.isEmpty_eq]
  split
  · exact h
  · exact { h with pos := congrArg (· + 1) h.pos }

theorem advanceBy (n : Nat) : (c.advanceBy n).Alike w (c'.advanceBy n) :=
  { h with pos := by simp only [Cursor.advanceBy, h.pos, h.length_eq] }

-- What the readers moved past since a token; it begins as the token does, unless it is empty.
theorem textSince (mark : Nat) :
    Spaced (c.textSince mark) (c'.textSince mark) ∧
      ∀ d, startsWithChar (c.textSince mark) d = true →
        w.bare[mark]?.any fun token => startsWithChar token.text d := by
  rw [← h.tokens]
  simp only [Cursor.textSince, h.pos, h.source, h.source']
  split
  · exact ⟨.refl _, fun d hd => absurd hd (not_startsWithChar_empty d)⟩
  · rcases rel_cases (h.getElem? mark) with
      ⟨hnone, hnone'⟩ | ⟨first, first', hfirst, hfirst', hstart⟩
    · rw [hnone, hnone']
      exact ⟨.refl _, fun d hd => absurd hd (not_startsWithChar_empty d)⟩
    · rcases rel_cases (h.getElem? (c'.pos - 1)) with
        ⟨hnone, hnone'⟩ | ⟨last, last', hlast, hlast', hstop⟩
      · rw [hfirst, hfirst', hnone, hnone']
        exact ⟨.refl _, fun d hd => absurd hd (not_startsWithChar_empty d)⟩
      · rw [hfirst, hfirst', hlast, hlast']
        obtain ⟨ch, hhead, -, hopens⟩ := hstart.start
        obtain ⟨hspaced, hbegin⟩ := spaced_slice w.loose hopens hstop.stop
        refine ⟨hspaced, fun d hd => ?_⟩
        simp [startsWithChar, hhead, hbegin d hd]

end Cursor.Alike

namespace Reader

variable {w : Tokenized} {α β γ δ : Type}

-- Both runs succeed with results that are related and cursors before the same token, or both fail.
inductive Outcome (w : Tokenized) (R : α → β → Prop) :
    EStateM.Result ParseError Cursor α → EStateM.Result ParseError Cursor β → Prop where
  | ok {a : α} {b : β} {c c' : Cursor} : R a b → c.Alike w c' → Outcome w R (.ok a c) (.ok b c')
  | error (e e' : ParseError) (c c' : Cursor) : Outcome w R (.error e c) (.error e' c')

-- The readers take the same way through the two texts.
def Matches (w : Tokenized) (R : α → β → Prop) (x : Reader α) (y : Reader β) : Prop :=
  ∀ c c', c.Alike w c' → Outcome w R (x c) (y c')

-- The results do not matter.
def Any (_ : α) (_ : β) : Prop := True

variable {R : α → β → Prop} {S : γ → δ → Prop} {x : Reader α} {y : Reader β}

theorem Outcome.bind {c c' : Cursor} {f : α → Reader γ} {g : β → Reader δ}
    (h : Outcome w R (x c) (y c')) (hfg : ∀ a b, R a b → Matches w S (f a) (g b)) :
    Outcome w S ((x >>= f) c) ((y >>= g) c') := by
  rw [bind_apply, bind_apply]
  generalize x c = r, y c' = r' at h
  cases h with
  | ok hab hcursor => exact hfg _ _ hab _ _ hcursor
  | error e e' c c' => exact .error e e' c c'

theorem Outcome.mono {R' : α → β → Prop} {r : EStateM.Result ParseError Cursor α}
    {r' : EStateM.Result ParseError Cursor β} (h : Outcome w R r r')
    (hR : ∀ a b, R a b → R' a b) : Outcome w R' r r' := by
  cases h with
  | ok hab hcursor => exact .ok (hR _ _ hab) hcursor
  | error e e' c c' => exact .error e e' c c'

theorem Outcome.ite {p : Prop} [Decidable p] {x' : Reader α} {y' : Reader β} {c c' : Cursor}
    (h : p → Outcome w R (x c) (y c')) (h' : ¬p → Outcome w R (x' c) (y' c')) :
    Outcome w R ((if p then x else x') c) ((if p then y else y') c') := by
  split
  · next hp => exact h hp
  · next hp => exact h' hp

namespace Matches

theorem pure {a : α} {b : β} (h : R a b) : Matches w R (pure a) (pure b) :=
  fun _ _ hcursor => .ok h hcursor

theorem throw (e e' : ParseError) : Matches w R (throw e) (throw e') :=
  fun c c' _ => .error e e' c c'

theorem bind {f : α → Reader γ} {g : β → Reader δ} (h : Matches w R x y)
    (hfg : ∀ a b, R a b → Matches w S (f a) (g b)) : Matches w S (x >>= f) (y >>= g) :=
  fun c c' hcursor => (h c c' hcursor).bind hfg

-- Looking at the cursor keeps it.
theorem get_bind {f : Cursor → Reader γ} {g : Cursor → Reader δ}
    (h : ∀ c c', c.Alike w c' → Outcome w S (f c c) (g c' c')) :
    Matches w S (get >>= f) (get >>= g) :=
  fun c c' hcursor => h c c' hcursor

theorem get : Matches w (Cursor.Alike w) get get :=
  fun _ _ hcursor => .ok hcursor hcursor

theorem mono {R' : α → β → Prop} (h : Matches w R x y) (hR : ∀ a b, R a b → R' a b) :
    Matches w R' x y :=
  fun c c' hcursor => (h c c' hcursor).mono hR

theorem any (h : Matches w R x y) : Matches w Any x y :=
  h.mono fun _ _ _ => trivial

theorem map {f : α → γ} {g : β → δ} (h : Matches w R x y) (hfg : ∀ a b, R a b → S (f a) (g b)) :
    Matches w S (f <$> x) (g <$> y) := by
  intro c c' hcursor
  have hrun := h c c' hcursor
  rw [map_apply, map_apply]
  generalize x c = r, y c' = r' at hrun
  cases hrun with
  | ok hab hcursor => exact .ok (hfg _ _ hab) hcursor
  | error e e' c c' => exact .error e e' c c'

theorem discard (h : Matches w R x y) : Matches w Any (discard x) (discard y) := by
  intro c c' hcursor
  have hrun := h c c' hcursor
  rw [discard_apply, discard_apply]
  generalize x c = r, y c' = r' at hrun
  cases hrun with
  | ok hab hcursor => exact .ok trivial hcursor
  | error e e' c c' => exact .error e e' c c'

theorem ite {p : Prop} [Decidable p] {x' : Reader α} {y' : Reader β} (h : Matches w R x y)
    (h' : Matches w R x' y') : Matches w R (if p then x else x') (if p then y else y') := by
  split
  · exact h
  · exact h'

-- One reader failing means that both go back to where they were.
theorem attempt (h : Matches w R x y) : Matches w (Option.Rel R) (attempt x) (attempt y) := by
  intro c c' hcursor
  have hrun := h c c' hcursor
  unfold Reader.attempt
  generalize x c = r, y c' = r' at hrun
  cases hrun with
  | ok hab hcursor => exact .ok (.some hab) hcursor
  | error e e' => exact .ok .none hcursor

theorem advance : Matches w (Option.Rel (Token.Alike w.text)) advance advance :=
  fun _ _ hcursor => .ok hcursor.peek? hcursor.advance

theorem next (expected : String) :
    Matches w (Token.Alike w.text) (next expected) (next expected) := by
  intro c c' hcursor
  unfold Reader.next
  rcases rel_cases hcursor.peek? with ⟨hnone, hnone'⟩ | ⟨t, t', ht, ht', htoken⟩
  · rw [hnone, hnone']
    exact .error _ _ _ _
  · rw [ht, ht']
    exact .ok htoken hcursor.advance

theorem expect (text expected : String) : Matches w Any (expect text expected)
    (expect text expected) := by
  intro c c' hcursor
  unfold Reader.expect
  rcases rel_cases hcursor.peek? with ⟨hnone, hnone'⟩ | ⟨t, t', ht, ht', htoken⟩
  · rw [hnone, hnone']
    exact .error _ _ _ _
  · rw [ht, ht']
    simp only [htoken.text]
    split
    · exact .ok trivial hcursor.advance
    · exact .error _ _ _ _

theorem eat (text : String) : Matches w Eq (eat text) (eat text) := by
  intro c c' hcursor
  unfold Reader.eat
  rw [hcursor.nextIs_eq]
  split
  · exact .ok rfl hcursor.advance
  · exact .ok rfl hcursor

theorem eatIf (p : String → Bool) : Matches w Eq (eatIf p) (eatIf p) := by
  intro c c' hcursor
  unfold Reader.eatIf
  rw [hcursor.nextFits_eq, hcursor.peekText?_eq]
  split
  · exact .ok rfl hcursor.advance
  · exact .ok rfl hcursor

theorem map_text_eq {ts ts' : List Token} (h : List.Forall₂ (Token.Alike w.text) ts ts') :
    ts.map (·.text) = ts'.map (·.text) := by
  induction h with
  | nil => rfl
  | cons htoken _ ih => rw [List.map_cons, List.map_cons, htoken.text, ih]

theorem run (p : String → Bool) : Matches w Eq (run p) (run p) := by
  intro c c' hcursor
  unfold Reader.run
  rw [map_text_eq hcursor.rest]
  exact .ok rfl (hcursor.advanceBy _)

theorem comma : Matches w Any comma comma :=
  .discard (.expect _ _)

theorem string (expected : String) : Matches w Eq (string expected) (string expected) := by
  refine .bind (.next _) fun t t' htoken => ?_
  rw [htoken.kind, htoken.text]
  exact .ite (.pure rfl) (.throw _ _)

theorem finish (context : String) : Matches w Any (finish context) (finish context) := by
  intro c c' hcursor
  unfold Reader.finish
  rw [hcursor.isEmpty_eq]
  split
  · exact .ok trivial hcursor
  · exact .error _ _ _ _

theorem matchGroup_eq {ts ts' : List Token} (h : List.Forall₂ (Token.Alike w.text) ts ts')
    (awaited : List String) : Bracket.matchGroup awaited ts = Bracket.matchGroup awaited ts' := by
  induction h generalizing awaited with
  | nil => rfl
  | cons htoken _ ih =>
    cases awaited with
    | nil => rfl
    | cons closer outer => simp only [Bracket.matchGroup, htoken.kind, htoken.text, ih]

-- What was taken differs in added blanks; it begins as the token that was next, unless it is empty.
theorem covered_outcome {x y : Reader Unit} (h : Matches w Any x y) {c c' : Cursor}
    (hcursor : c.Alike w c') :
    Outcome w (fun s s' => Spaced s s' ∧ ∀ d, startsWithChar s d = true →
        c.peek?.any fun token => startsWithChar token.text d)
      (covered x c) (covered y c') := by
  have hpeek : c.peek? = w.bare[c.pos]? := by rw [← hcursor.tokens]; rfl
  refine (h c c' hcursor).bind fun _ _ _ => ?_
  intro d d' hcursor'
  rw [hpeek]
  exact .ok (hcursor.pos ▸ hcursor'.textSince c.pos) hcursor'

theorem covered {x y : Reader Unit} (h : Matches w Any x y) :
    Matches w Spaced (covered x) (covered y) :=
  fun _ _ hcursor => (covered_outcome h hcursor).mono fun _ _ hs => hs.1

theorem group : Matches w Any group group := by
  refine .bind .get fun c c' hcursor => .bind (.next _) fun t t' htoken => ?_
  rw [Token.isWord, Token.isWord, htoken.kind, htoken.text]
  split
  · exact .throw _ _
  · have hmove (n : Nat) : Matches w Any (modify (·.advanceBy n) : Reader PUnit)
        (modify (·.advanceBy n)) := fun _ _ hcursor => .ok trivial (hcursor.advanceBy n)
    refine .bind .get fun c c' hcursor => ?_
    rw [matchGroup_eq hcursor.rest]
    exact .bind (hmove _) fun _ _ _ => .bind .get fun _ _ _ => .ite (.pure trivial) (.throw _ _)

theorem skipGroup : Matches w Any skipGroup skipGroup :=
  .discard group

theorem untilClose {α β : Type} {R : α → β → Prop} (close : String)
    {step : List α → Reader (List α)} {step' : List β → Reader (List β)}
    (h : ∀ done done', List.Forall₂ R done done' →
      Matches w (List.Forall₂ R) (step done) (step' done')) :
    Matches w (List.Forall₂ R) (untilClose close step) (untilClose close step') := by
  have hfrom (rounds : Nat) (done : List α) (done' : List β) (hdone : List.Forall₂ R done done') :
      Matches w (List.Forall₂ R) (untilCloseFrom close step rounds done)
        (untilCloseFrom close step' rounds done') := by
    induction rounds generalizing done done' with
    | zero => exact .pure hdone
    | succ rounds ih =>
      refine .bind (.eat _) fun closed _ heq => ?_
      rw [← heq]
      exact .ite (.pure hdone) (.bind (h done done' hdone) fun _ _ hnext => ih _ _ hnext)
  refine .bind .get fun c c' hcursor => ?_
  rw [hcursor.remaining_eq]
  exact hfrom _ _ _ .nil

theorem separator {R : α → β → Prop} {done : List α} {done' : List β}
    (h : List.Forall₂ R done done') : Matches w Any (separator done) (separator done') := by
  have hempty : done.isEmpty = done'.isEmpty := by cases h <;> rfl
  simp only [Reader.separator, hempty]
  exact .ite (.pure trivial) .comma

end Matches

end Reader

end TestFocus
