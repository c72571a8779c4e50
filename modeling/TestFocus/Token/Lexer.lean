import TestFocus.ParseError
import TestFocus.Token.Basic

-- Splitting a text into tokens. The scan reads one character at a time and keeps what it is
-- inside of, so a token always extends as far as its class allows.

namespace TestFocus.Lexer

def isBlank (c : Char) : Bool :=
  c == ' ' || c == '\t' || c == '\r' || c == '\n' || c == '\x0c'

-- Starts the names of locals, globals, metadata and attribute groups.
def isSigil (c : Char) : Bool :=
  c == '%' || c == '@' || c == '!' || c == '#'

-- Everything beyond ASCII counts as part of a name.
def isNameChar (c : Char) : Bool :=
  ('a' ≤ c && c ≤ 'z') || ('A' ≤ c && c ≤ 'Z') || ('0' ≤ c && c ≤ '9') ||
  c == '_' || c == '.' || c == '$' || c == '+' || c == '-' || 0x80 ≤ c.toNat

-- What the scan is inside of. An unfinished token keeps the offset of its first character and its
-- characters so far, last first.
inductive Mode where
  | between
  | comment
  | word (start : Nat) (read : List Char)
  | quoted (kind : TokenKind) (start : Nat) (read : List Char)
deriving Repr, DecidableEq, Inhabited

-- A quote directly after a lone sigil or a lone `c` belongs to the same word.
def takesQuote : List Char → Bool
  | [c] => isSigil c || c == 'c'
  | _ => false

def close (kind : TokenKind) (start stop : Nat) (read : List Char) : Token :=
  { kind, text := String.ofList read.reverse, start, stop }

-- One character read outside of any token.
def enter (offset : Nat) (c : Char) : Option Token × Mode :=
  if isBlank c then (none, .between)
  else if c == ';' then (none, .comment)
  else if c == '"' then (none, .quoted .string offset [c])
  else if isSigil c || isNameChar c then (none, .word offset [c])
  else (some (close .punct offset (offset + c.utf8Size) [c]), .between)

-- One character read in any mode: the tokens completed by it and the mode after it.
def step (mode : Mode) (offset : Nat) (c : Char) : List Token × Mode :=
  match mode with
  | .between =>
    let (token, next) := enter offset c
    (token.toList, next)
  | .comment => ([], if c == '\n' then .between else .comment)
  | .word start read =>
    if isNameChar c then ([], .word start (c :: read))
    else if c == '"' && takesQuote read then ([], .quoted .word start (c :: read))
    else
      let (token, next) := enter offset c
      (close .word start offset read :: token.toList, next)
  | .quoted kind start read =>
    if c == '"' then ([close kind start (offset + c.utf8Size) (c :: read)], .between)
    else ([], .quoted kind start (c :: read))

-- `none` when the text ends inside of quotes.
def scan (mode : Mode) (offset : Nat) : List Char → Option (List Token)
  | [] =>
    match mode with
    | .between => some []
    | .comment => some []
    | .word start read => some [close .word start offset read]
    | .quoted _ _ _ => none
  | c :: cs =>
    let (done, next) := step mode offset c
    (scan next (offset + c.utf8Size) cs).map (done ++ ·)

end TestFocus.Lexer

namespace TestFocus

-- The tokens of a text; an unclosed quote is the only way to fail.
def tokenize (text : String) : Except ParseError (List Token) :=
  match Lexer.scan .between 0 text.toList with
  | some tokens => .ok tokens
  | none => .error (.unterminatedString text)

end TestFocus
