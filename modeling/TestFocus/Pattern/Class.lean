import TestFocus.Text.Basic
import TestFocus.Unicode.Age
import TestFocus.Unicode.CaseFold
import TestFocus.Unicode.Segmentation

namespace TestFocus

inductive LetterClass where
  | digit
  | space
  | word
deriving Repr, DecidableEq, Inhabited

def LetterClass.chars : LetterClass → CharSet
  | digit => Unicode.category "Nd"
  | space => Unicode.property "whitespace"
  | word => Unicode.wordChars

def asciiClasses : List (String × CharSet) :=
  [("alnum", .ofLines ["30-39 41-5A 61-7A"]), ("alpha", .ofLines ["41-5A 61-7A"]),
   ("ascii", .ofLines ["0-7F"]), ("blank", .ofLines ["9 20"]), ("cntrl", .ofLines ["0-1F 7F"]),
   ("digit", .ofLines ["30-39"]), ("graph", .ofLines ["21-7E"]), ("lower", .ofLines ["61-7A"]),
   ("print", .ofLines ["20-7E"]), ("punct", .ofLines ["21-2F 3A-40 5B-60 7B-7E"]),
   ("space", .ofLines ["9-D 20"]), ("upper", .ofLines ["41-5A"]),
   ("word", .ofLines ["30-39 41-5A 5F 61-7A"]), ("xdigit", .ofLines ["30-39 41-46 61-66"])]

def asciiClass? (name : List Char) : Option CharSet :=
  asciiClasses.lookup (String.ofList name)

def LetterClass.asciiChars (c : LetterClass) : CharSet :=
  let name := match c with
    | digit => "digit"
    | space => "space"
    | word => "word"
  (asciiClasses.lookup name).getD .empty

-- Names are compared without case, spaces, underscores and hyphens, and a leading `is` is ignored.
-- The short name of the property of comments keeps it, as it would be a category without.
def normalizedName (name : List Char) : String :=
  let lower := name.map Char.toLower
  let rest := match name, lower with
    | _ :: _ :: _, 'i' :: 's' :: rest => rest
    | _, _ => lower
  let kept := rest.filter fun c => c != ' ' && c != '_' && c != '-' && c.toNat < 0x80
  String.ofList (if kept = ['c'] && rest.length < name.length then ['i', 's', 'c'] else kept)

def categoryNamed? (name : String) : Option CharSet :=
  if name = "any" then some .all
  else if name = "assigned" then some Unicode.assigned
  else if name = "ascii" then some (.ofLines ["0-7F"])
  else Unicode.category? name

-- Three abbreviations of categories are also those of other properties, and then mean the category.
def namedChars? (name : List Char) : Option CharSet :=
  let name := normalizedName name
  let property := if ["cf", "sc", "lc"].contains name then none else Unicode.property? name
  (property.or (categoryNamed? name)).or (Unicode.script? name)

def valuedChars? (property value : List Char) : Option CharSet :=
  let value := normalizedName value
  match normalizedName property with
  | "gc" | "generalcategory" => categoryNamed? value
  | "sc" | "script" => Unicode.script? value
  | "scx" | "scriptextensions" => Unicode.sharedScript? value
  | "age" => Unicode.charsOfVersion? value
  | "gcb" | "graphemeclusterbreak" => Unicode.classNamed? Unicode.graphemeClasses value
  | "wb" | "wordbreak" => Unicode.classNamed? Unicode.wordClasses value
  | "sb" | "sentencebreak" => Unicode.classNamed? Unicode.sentenceClasses value
  | _ => none

-- What stands before and after the first unequal sign.
def splitUnequal? : List Char → Option (List Char × List Char)
  | [] => none
  | '!' :: '=' :: rest => some ([], rest)
  | c :: rest => (splitUnequal? rest).map fun (before, after) => (c :: before, after)

-- A name, or a name and a value with an unequal sign, a colon or an equals sign between them, all
-- of which mean the same.
def propertyChars? (query : List Char) : Option CharSet :=
  let parts := (splitUnequal? query).or
    (((Text.splitAtFirst? (· == ':') query).or (Text.splitAtFirst? (· == '=') query)).map
      fun (before, after) => (before, after.drop 1))
  match parts with
  | some (property, value) => valuedChars? property value
  | none => namedChars? query

end TestFocus
