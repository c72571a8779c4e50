import TestFocus.Unicode.Printable

namespace TestFocus.Text

-- A character that cannot be shown by itself is written as its code point in hexadecimal.
def showChar (c : Char) : List Char :=
  if c == '\x00' then ['\\', '0']
  else if c == '\t' then ['\\', 't']
  else if c == '\n' then ['\\', 'n']
  else if c == '\r' then ['\\', 'r']
  else if c == '"' then ['\\', '"']
  else if c == '\\' then ['\\', '\\']
  else if Unicode.isPrintable c then [c]
  else ['\\', 'u', '\x7b'] ++ Nat.toDigits 16 c.toNat ++ ['\x7d']

-- The text between quotes, every character of it visible.
def shown (s : String) : String :=
  String.ofList ('"' :: (s.toList.flatMap showChar ++ ['"']))

def replaceAll (old : Char) (new cs : List Char) : List Char :=
  cs.flatMap fun c => if c == old then new else [c]

-- The backslashes are doubled before the quotes get theirs.
def escape (s : String) : String :=
  String.ofList (replaceAll '"' ['\\', '"'] (replaceAll '\\' ['\\', '\\'] s.toList))

-- One pass over the text gives the same: no quote comes with a doubled backslash.
theorem toList_escape (s : String) :
    (escape s).toList =
      s.toList.flatMap fun c => if c == '"' || c == '\\' then ['\\', c] else [c] := by
  rw [escape, String.toList_ofList, replaceAll, replaceAll, List.flatMap_assoc]
  congr 1
  funext c
  by_cases hquote : c = '"'
  · subst hquote
    decide
  · by_cases hbackslash : c = '\\'
    · subst hbackslash
      decide
    · simp [hquote, hbackslash]

end TestFocus.Text
