import TestFocus.Text.Basic
import TestFocus.Token.Lexer

-- A cursor over the tokens of one line, and readers: computations that move the cursor and may
-- fail. A failing reader leaves the cursor where it gave up.

namespace TestFocus

structure Cursor where
  source : String
  tokens : List Token
  pos : Nat
deriving Repr, DecidableEq, Inhabited

namespace Cursor

def ofText (source : String) : Except ParseError Cursor :=
  (tokenize source).map fun tokens => { source, tokens, pos := 0 }

-- The tokens not yet read.
def rest (c : Cursor) : List Token :=
  c.tokens.drop c.pos

def remaining (c : Cursor) : Nat :=
  c.tokens.length - c.pos

def isEmpty (c : Cursor) : Bool :=
  c.tokens.length ≤ c.pos

def peekNth? (c : Cursor) (n : Nat) : Option Token :=
  c.tokens[c.pos + n]?

def peek? (c : Cursor) : Option Token :=
  c.peekNth? 0

def peekText? (c : Cursor) : Option String :=
  c.peek?.map (·.text)

def nthIs (c : Cursor) (n : Nat) (text : String) : Bool :=
  (c.peekNth? n).map (·.text) == some text

def nextIs (c : Cursor) (text : String) : Bool :=
  c.nthIs 0 text

-- Does the next token's text satisfy `p`?
def nextFits (c : Cursor) (p : String → Bool) : Bool :=
  c.peekText?.any p

-- Moves past the next token, if there is one.
def advance (c : Cursor) : Cursor :=
  if c.isEmpty then c else { c with pos := c.pos + 1 }

def advanceBy (c : Cursor) (n : Nat) : Cursor :=
  { c with pos := min (c.pos + n) c.tokens.length }

-- Moves to a position, or to the end when it lies beyond.
def reset (c : Cursor) (mark : Nat) : Cursor :=
  { c with pos := min mark c.tokens.length }

-- The source text from the token at `mark` to the last token read.
def textSince (c : Cursor) (mark : Nat) : String :=
  if c.pos ≤ mark then ""
  else match c.tokens[mark]?, c.tokens[c.pos - 1]? with
    | some first, some last => Text.slice c.source first.start last.stop
    | _, _ => ""

-- The source text from the next token on, without trailing space.
def remainingText (c : Cursor) : String :=
  match c.peek? with
  | some token =>
    String.ofList (Text.dropEndWhile Text.isSpace (Text.dropBytes token.start c.source.toList))
  | none => ""

end Cursor

abbrev Reader := EStateM ParseError Cursor

namespace Reader

-- Runs a reader over the tokens of a text.
def parse (reader : Reader α) (text : String) : Except ParseError α := do
  match reader (← Cursor.ofText text) with
  | .ok a _ => .ok a
  | .error e _ => .error e

-- Moves past the next token, if there is one, and returns it.
def advance : Reader (Option Token) := fun c => .ok c.peek? c.advance

-- Takes the next token, whatever it is.
def next (expected : String) : Reader Token := fun c =>
  match c.peek? with
  | some token => .ok token c.advance
  | none => .error (.unexpectedEnd expected) c

-- Takes the next token if its text is `text`.
def expect (text expected : String) : Reader Token := fun c =>
  match c.peek? with
  | some token =>
    if token.text = text then .ok token c.advance else .error (.unexpected expected token.text) c
  | none => .error (.unexpectedEnd expected) c

-- Takes the next token if its text is `text` and tells whether it did.
def eat (text : String) : Reader Bool := fun c =>
  if c.nextIs text then .ok true c.advance else .ok false c

-- Takes the next token if its text satisfies `p`.
def eatIf (p : String → Bool) : Reader (Option String) := fun c =>
  if c.nextFits p then .ok c.peekText? c.advance else .ok none c

-- Takes the longest run of tokens whose texts satisfy `p`.
def run (p : String → Bool) : Reader (List String) := fun c =>
  let texts := (c.rest.map (·.text)).takeWhile p
  .ok texts (c.advanceBy texts.length)

-- The source text covered by what `reader` took.
def covered (reader : Reader Unit) : Reader String := do
  let mark := (← get).pos
  reader
  return (← get).textSince mark

-- `none`, and the cursor as it was, when the reader fails.
def attempt (reader : Reader α) : Reader (Option α) := fun c =>
  match reader c with
  | .ok a c' => .ok (some a) c'
  | .error _ _ => .ok none c

def comma : Reader Unit :=
  discard (expect "," "','")

-- A free-standing string, with its quotes.
def string (expected : String) : Reader String := do
  let token ← next expected
  if token.kind = .string then return token.text
  else throw (.unexpected expected token.text)

-- Fails unless every token was taken.
def finish (context : String) : Reader Unit := fun c =>
  if c.isEmpty then .ok () c else .error (.trailingTokens context c.remainingText) c

-- Runs `step` on what was read so far until the next token is `close`, and takes that. Every step
-- takes a token or fails, so one round more than there are tokens is never used up.
def untilCloseFrom (close : String) (step : List α → Reader (List α)) :
    Nat → List α → Reader (List α)
  | 0, done => pure done
  | rounds + 1, done => do
    if ← eat close then return done
    else untilCloseFrom close step rounds (← step done)

def untilClose (close : String) (step : List α → Reader (List α)) : Reader (List α) := do
  untilCloseFrom close step ((← get).remaining + 1) []

-- A separating comma is due once something has been read.
def separator (done : List α) : Reader Unit :=
  if done.isEmpty then pure () else comma

-- `item, item, ... close`
def commaList (close : String) (item : Reader α) : Reader (List α) :=
  untilClose close fun done => do
    separator done
    return done ++ [← item]

end Reader

namespace Bracket

def closer? (opening : String) : Option String :=
  match opening with
  | "(" => some ")"
  | "[" => some "]"
  | "\x7b" => some "\x7d"
  | "<" => some ">"
  | _ => none

def isCloser (text : String) : Bool :=
  [")", "]", "\x7d", ">"].contains text

-- `awaited` holds the closers still due, innermost first. Tells whether all of them were met in
-- order, and how many tokens were looked at to find out. Only punctuation opens or closes a group.
def matchGroup : List String → List Token → Bool × Nat
  | [], _ => (true, 0)
  | _ :: _, [] => (false, 0)
  | awaited :: outer, t :: ts =>
    let (closed, count) :=
      if t.kind ≠ .punct then matchGroup (awaited :: outer) ts
      else match closer? t.text with
        | some nested => matchGroup (nested :: awaited :: outer) ts
        | none =>
          if t.text = awaited then matchGroup outer ts
          else if isCloser t.text then (false, 0)
          else matchGroup (awaited :: outer) ts
    (closed, count + 1)

end Bracket

namespace Reader

-- A bracketed group with all groups nested in it.
def group : Reader String := do
  let mark := (← get).pos
  let opening ← next "opening bracket"
  match if opening.isWord then none else Bracket.closer? opening.text with
  | none => throw (.unexpected "opening bracket" opening.text)
  | some closer =>
    let (closed, count) := Bracket.matchGroup [closer] (← get).rest
    modify (·.advanceBy count)
    let after ← get
    if closed then return after.textSince mark
    else throw (.unbalanced opening.text after.source)

def skipGroup : Reader Unit :=
  discard group

end Reader

end TestFocus
