namespace TestFocus

-- `expected` and `context` name what the reader was after.
inductive ParseError where
  | unexpectedEnd (expected : String)
  | unexpected (expected found : String)
  | unbalanced (opening line : String)
  | unterminatedString (line : String)
  | trailingTokens (context remaining : String)
  | unknownInstruction (word : String)
deriving Repr, DecidableEq, Inhabited

namespace ParseError

def message : ParseError → String
  | unexpectedEnd expected => "unexpected end of line, expected " ++ expected
  | unexpected expected found => "expected " ++ expected ++ ", found '" ++ found ++ "'"
  | unbalanced opening line => "unbalanced '" ++ opening ++ "' in '" ++ line ++ "'"
  | unterminatedString line => "unterminated string literal in '" ++ line ++ "'"
  | trailingTokens context remaining =>
    context ++ " left unconsumed tokens: '" ++ remaining ++ "'"
  | unknownInstruction word => "unknown instruction '" ++ word ++ "'"

end ParseError

-- A line that was passed over: the function whose body holds it, if any, and its number in the
-- module, counted from one.
structure Diagnostic where
  function : Option String
  line : Nat
  message : String
deriving Repr, DecidableEq, Inhabited

def Diagnostic.ofError (function : Option String) (line : Nat) (error : ParseError) : Diagnostic :=
  { function, line, message := error.message }

end TestFocus
