import TestFocus.Unicode.Property
import TestFocus.Unicode.Script

-- Where text may be cut: the classes of characters that decide on the borders of grapheme
-- clusters, of words and of sentences, as of version 16 of the Unicode standard. Most of them
-- follow from categories, properties and scripts.

namespace TestFocus.Unicode

def scripts (names : List String) : CharSet :=
  .unions (names.map fun name => (script? name).getD .empty)

def categories (abbreviations : List String) : CharSet :=
  .unions (abbreviations.map category)

def joiner : CharSet := .ofLines ["200D"]

def concatenationMarks : CharSet :=
  property "prependedconcatenationmark"

def graphemeExtenders : CharSet :=
  ((property "graphemeextend").union (property "emojimodifier")).diff joiner

-- Controls, and characters without a glyph of their own that do not join others.
def graphemeControls : CharSet :=
  let invisible := (property "defaultignorablecodepoint").diff assigned
  ((categories ["Zl", "Zp", "Cc", "Cf"]).union invisible).diff
    (.unions [.ofLines ["A D 200C-200D"], concatenationMarks, graphemeExtenders])

def graphemePrefixes : CharSet :=
  concatenationMarks.union
    (.ofLines ["D4E 111C2-111C3 113D1 1193F 11941 11A3A 11A84-11A89 11D46 11F02"])

def spacingMarks : CharSet :=
  ((category "Mc").union (.ofLines ["E33 EB3"])).diff
    (graphemeExtenders.union
      (.ofLines ["102B-102C 1038 1062-1064 1067-106D 1083 1087-108C 108F 109A-109C 1A61 1A63-1A64",
                 "AA7B AA7D 11720-11721"]))

-- The Hangul syllables of two letters: every block of 28 syllables starts with one.
def shortSyllables : CharSet :=
  .ofRanges ((List.range 399).map fun i => (0xAC00 + 28 * i, 0xAC00 + 28 * i))

def graphemeClasses : List (List String × CharSet) :=
  [(["cr"], .ofLines ["D"]),
   (["lf"], .ofLines ["A"]),
   (["control", "cn"], graphemeControls),
   (["extend", "ex"], graphemeExtenders),
   (["prepend", "pp"], graphemePrefixes),
   (["spacingmark", "sm"], spacingMarks),
   (["regionalindicator", "ri"], property "regionalindicator"),
   (["l"], .ofLines ["1100-115F A960-A97C"]),
   (["v"], .ofLines ["1160-11A7 D7B0-D7C6 16D63 16D67-16D6A"]),
   (["t"], .ofLines ["11A8-11FF D7CB-D7FB"]),
   (["lv"], shortSyllables),
   (["lvt"], (CharSet.ofLines ["AC00-D7A3"]).diff shortSyllables),
   (["zwj"], joiner)]

def wordExtenders : CharSet :=
  (graphemeExtenders.union (category "Mc")).diff joiner

def wordFormats : CharSet :=
  (category "Cf").diff (.unions [.ofLines ["200B-200D"], wordExtenders, concatenationMarks])

def katakanaLetters : CharSet :=
  (scripts ["katakana"]).union (.ofLines ["3031-3035 309B-309C 30A0 30FC FF70"])

def hebrewLetters : CharSet :=
  (scripts ["hebrew"]).inter (category "Lo")

-- Scripts without spaces between words.
def complexScripts : CharSet :=
  scripts ["thai", "lao", "khmer", "myanmar", "taile", "newtailue", "taitham", "taiviet", "ahom"]

def wordLetters : CharSet :=
  (alphabetic.union
    (.ofLines ["2C2-2C5 2D2-2D7 2DE-2DF 2E5-2EB 2ED 2EF-2FF 55A-55C 55E 58A 5F3 70F A708-A716",
               "A720-A721 A789-A78A AB5B"])).diff
    (.unions [property "ideographic", katakanaLetters, complexScripts, scripts ["hiragana"],
      wordExtenders, hebrewLetters])

-- Digits, decimal separators and the marks that are written in front of numbers.
def numerals : CharSet :=
  .unions [category "Nd", .ofLines ["66B"], concatenationMarks.diff (.ofLines ["70F"])]

def wordClasses : List (List String × CharSet) :=
  [(["cr"], .ofLines ["D"]),
   (["lf"], .ofLines ["A"]),
   (["newline", "nl"], .ofLines ["B-C 85 2028-2029"]),
   (["extend"], wordExtenders),
   (["zwj"], joiner),
   (["format", "fo"], wordFormats),
   (["regionalindicator", "ri"], property "regionalindicator"),
   (["katakana", "ka"], katakanaLetters),
   (["hebrewletter", "hl"], hebrewLetters),
   (["aletter", "le"], wordLetters),
   (["singlequote", "sq"], .ofLines ["27"]),
   (["doublequote", "dq"], .ofLines ["22"]),
   (["midnumlet", "mb"], .ofLines ["2E 2018-2019 2024 FE52 FF07 FF0E"]),
   (["midletter", "ml"], .ofLines ["3A B7 387 55F 5F4 2027 FE13 FE55 FF1A"]),
   (["midnum", "mn"],
     .ofLines ["2C 3B 37E 589 60C-60D 66C 7F8 2044 FE10 FE14 FE50 FE54 FF0C FF1B"]),
   (["numeric", "nu"], numerals),
   (["extendnumlet", "ex"], (category "Pc").union (.ofLines ["202F"])),
   (["wsegspace"], .ofLines ["20 1680 2000-2006 2008-200A 205F 3000"])]

def sentenceExtenders : CharSet :=
  .unions [property "graphemeextend", category "Mc", joiner]

def sentenceFormats : CharSet :=
  (category "Cf").diff (.unions [.ofLines ["200C-200D"], sentenceExtenders, concatenationMarks])

-- Georgian letters without case do not open or continue a sentence as cased letters do.
def sentenceLower : CharSet :=
  (property "lowercase").diff ((property "graphemeextend").union (.ofLines ["10D0-10FA 10FD-10FF"]))

def sentenceUpper : CharSet :=
  ((property "uppercase").union (category "Lt")).diff (.ofLines ["1C90-1CBA 1CBD-1CBF"])

def sentenceLetters : CharSet :=
  (alphabetic.union (.ofLines ["5F3"])).diff
    (.unions [sentenceLower, sentenceUpper, sentenceExtenders])

def ambiguousTerminators : CharSet :=
  .ofLines ["2E 2024 FE52 FF0E"]

def sentenceTerminators : CharSet :=
  (property "sentenceterminal").diff ambiguousTerminators

def sentenceClosers : CharSet :=
  ((categories ["Ps", "Pe", "Pi", "Pf"]).union
    (.ofLines ["22 27 275B-2760 2E00-2E01 2E06-2E08 2E0B 1F676-1F678"])).diff
    (ambiguousTerminators.union sentenceTerminators)

def sentenceClasses : List (List String × CharSet) :=
  [(["cr"], .ofLines ["D"]),
   (["lf"], .ofLines ["A"]),
   (["extend", "ex"], sentenceExtenders),
   (["sep", "se"], .ofLines ["85 2028-2029"]),
   (["format", "fo"], sentenceFormats),
   (["sp"], (property "whitespace").diff (.ofLines ["A D 85 2028-2029"])),
   (["lower", "lo"], sentenceLower),
   (["upper", "up"], sentenceUpper),
   (["oletter", "le"], sentenceLetters),
   (["numeric", "nu"], numerals.union (.ofLines ["66C"])),
   (["aterm", "at"], ambiguousTerminators),
   (["scontinue", "sc"],
     .ofLines ["2C-2D 3A-3B 37E 55D 60C-60D 7F8 1802 1808 2013-2014 3001 FE10-FE11 FE13-FE14",
               "FE31-FE32 FE50-FE51 FE54-FE55 FE58 FE63 FF0C-FF0D FF1A-FF1B FF64"]),
   (["sterm", "st"], sentenceTerminators),
   (["close", "cl"], sentenceClosers)]

-- A class by one of its names.
def classNamed? (classes : List (List String × CharSet)) (name : String) : Option CharSet :=
  (classes.find? fun entry => entry.1.contains name).map (·.2)

end TestFocus.Unicode
