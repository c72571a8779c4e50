import TestFocus.Yaml.Token

-- A YAML document that is one flat mapping from scalars to scalars: what a configuration file
-- can be. Reading and writing such files is the business of a library that is not part of this
-- development; this reader and its writer stand in for it so that configurations can be loaded.

namespace TestFocus.Yaml

inductive Node where
  | aliasOf (name : String)
  | scalar (anchor : Option String) (value : Scalar)
deriving Repr, DecidableEq, Inhabited

structure Document where
  -- the anchor of the mapping itself
  anchor : Option String
  entries : List (Node × Node)
deriving Repr, DecidableEq, Inhabited

-- What the handles stand for.
abbrev Handles := List (String × String)

def standardHandles : Handles :=
  [("!", "!"), ("!!", standardTag "")]

def TagName.resolve? (handles : Handles) (name : TagName) : Option String :=
  if name.handle.isEmpty then some name.suffix
  else (handles.lookup name.handle).map (· ++ name.suffix)

structure Properties where
  anchor : Option String
  tag : Option String
deriving Repr, DecidableEq, Inhabited

def Properties.isEmpty (p : Properties) : Bool :=
  p.anchor.isNone && p.tag.isNone

def properties? (handles : Handles) : List Token → Option (Properties × List Token)
  | .anchor name :: .tag t :: rest =>
    (t.resolve? handles).map fun tag => (⟨some name, some tag⟩, rest)
  | .tag t :: .anchor name :: rest =>
    (t.resolve? handles).map fun tag => (⟨some name, some tag⟩, rest)
  | .anchor name :: rest => some (⟨some name, none⟩, rest)
  | .tag t :: rest => (t.resolve? handles).map fun tag => (⟨none, some tag⟩, rest)
  | rest => some (⟨none, none⟩, rest)

-- A lone exclamation mark says no more about a scalar than no tag.
def Properties.node (p : Properties) (text : String) (style : Style) : Node :=
  .scalar p.anchor { text, style, tag := p.tag.filter (· != "!") }

-- Where no node starts there is nothing, and neither is there after properties without a scalar.
def node? (handles : Handles) : List Token → Option (Node × List Token)
  | .aliasOf name :: rest => some (.aliasOf name, rest)
  | tokens =>
    (properties? handles tokens).map fun (p, rest) =>
      match rest with
      | .scalar text style :: rest => (p.node text style, rest)
      | rest => (.scalar p.anchor { Scalar.nothing with tag := p.tag }, rest)

-- What follows a key: the value, or nothing.
def value? (handles : Handles) : List Token → Option (Node × List Token)
  | .value :: rest => node? handles rest
  | rest => some (.scalar none .nothing, rest)

def pair? (handles : Handles) (tokens : List Token) : Option ((Node × Node) × List Token) :=
  (node? handles tokens).bind fun (key, rest) =>
    (value? handles rest).map fun (value, rest) => ((key, value), rest)

-- The entries of a block mapping up to its end. Each round takes at least one token.
def blockEntries? (handles : Handles) : Nat → List Token → Option (List (Node × Node) × List Token)
  | 0, _ => none
  | _ + 1, .blockEnd :: rest => some ([], rest)
  | rounds + 1, .key :: rest =>
    (pair? handles rest).bind fun (entry, rest) =>
      (blockEntries? handles rounds rest).map fun (entries, rest) => (entry :: entries, rest)
  | _ + 1, _ => none

-- Can a node start with the token?
def Token.startsNode : Token → Bool
  | aliasOf _ | anchor _ | tag _ | scalar _ _ => true
  | _ => false

-- An entry between braces: with the mark of a key, or a node alone, which has no value.
def bracePair? (handles : Handles) : List Token → Option ((Node × Node) × List Token)
  | .key :: rest => pair? handles rest
  | t :: rest =>
    if t.startsNode then
      (node? handles (t :: rest)).map fun (key, rest) => ((key, .scalar none .nothing), rest)
    else none
  | [] => none

-- The entries up to the closing brace. There may be a comma behind the last one.
def braceEntries? (handles : Handles) : Nat → List Token → Option (List (Node × Node) × List Token)
  | 0, _ => none
  | _ + 1, .braceClose :: rest => some ([], rest)
  | rounds + 1, tokens =>
    (bracePair? handles tokens).bind fun (entry, rest) =>
      match rest with
      | .braceClose :: rest => some ([entry], rest)
      | .comma :: rest =>
        (braceEntries? handles rounds rest).map fun (entries, rest) => (entry :: entries, rest)
      | _ => none

-- The version may be given once, and so may each handle.
def addDirective? (declared : Option (Nat × Nat) × Handles) :
    Directive → Option (Option (Nat × Nat) × Handles)
  | .version major minor =>
    if declared.1.isNone && major = 1 && (minor = 1 || minor = 2) then
      some (some (major, minor), declared.2)
    else none
  | .handle name start =>
    if (declared.2.lookup name).isNone then some (declared.1, (name, start) :: declared.2) else none

-- The handles that the directives declare, and the tokens after them.
def directives? (declared : Option (Nat × Nat) × Handles) :
    List Token → Option (Handles × List Token)
  | .directive d :: rest =>
    (addDirective? declared d).bind fun declared => directives? declared rest
  | rest => some (declared.2, rest)

-- The mapping itself. It may be left out where `mayBeEmpty`, or after properties.
def mapping? (handles : Handles) (mayBeEmpty : Bool) (tokens : List Token) :
    Option (Document × List Token) :=
  (properties? handles tokens).bind fun (p, rest) =>
    match rest with
    | .blockStart :: rest =>
      (blockEntries? handles (rest.length + 1) rest).map fun (entries, rest) =>
        (⟨p.anchor, entries⟩, rest)
    | .braceOpen :: rest =>
      (braceEntries? handles (rest.length + 1) rest).map fun (entries, rest) =>
        (⟨p.anchor, entries⟩, rest)
    | rest => if mayBeEmpty || !p.isEmpty then some (⟨p.anchor, []⟩, rest) else none

-- Directives need a mark in front of the document. Nothing may follow the mapping but end marks.
def Document.ofTokens? (tokens : List Token) : Option Document :=
  (directives? (none, []) tokens).bind fun (declared, rest) =>
    let handles := declared ++ standardHandles
    let content := match rest with
      | .documentStart :: rest => mapping? handles true rest
      | rest => if rest.length < tokens.length then none else mapping? handles rest.isEmpty rest
    content.bind fun (document, rest) =>
      if rest.all (· == .documentEnd) then some document else none

-- Anchors by number. The first one of its name gets the count of the names before it, and so does
-- one that repeats a name, which the next new name may therefore share. Of two anchors with one
-- number the later one counts.
structure Anchors where
  -- the number of each name, newest first
  numbers : List (String × Nat)
  -- what stands at each number, newest first; `none` is the mapping itself
  targets : List (Nat × Option Scalar)
deriving Repr, DecidableEq, Inhabited

namespace Anchors

def empty : Anchors :=
  { numbers := [], targets := [] }

def size (a : Anchors) : Nat :=
  (a.numbers.map (·.1)).eraseDups.length

def add (name : String) (target : Option Scalar) (a : Anchors) : Anchors :=
  { numbers := (name, a.size) :: a.numbers, targets := (a.size, target) :: a.targets }

def addOptional (name : Option String) (target : Option Scalar) (a : Anchors) : Anchors :=
  match name with
  | some name => a.add name target
  | none => a

end Anchors

-- A node whose alias has become a number.
inductive Reference where
  | scalar (value : Scalar)
  | target (number : Nat)
deriving Repr, DecidableEq, Inhabited

-- An alias stands for an anchor before it.
def Node.reference? (a : Anchors) : Node → Option (Anchors × Reference)
  | .aliasOf name => (a.numbers.lookup name).map fun n => (a, .target n)
  | .scalar anchor value => some (a.addOptional anchor (some value), .scalar value)

-- All nodes in their order, and the anchors of the whole document.
def references? (a : Anchors) : List (Node × Node) → Option (Anchors × List (Reference × Reference))
  | [] => some (a, [])
  | (key, value) :: rest =>
    (key.reference? a).bind fun (a, key) =>
      (value.reference? a).bind fun (a, value) =>
        (references? a rest).map fun (a, entries) => (a, (key, value) :: entries)

def Reference.scalar? (a : Anchors) : Reference → Option Scalar
  | .scalar value => some value
  | .target n => (a.targets.lookup n).join

-- The text of each key and the scalar at it, in order.
def Document.entries? (d : Document) : Option (List (String × Scalar)) :=
  (references? (Anchors.empty.addOptional d.anchor none) d.entries).bind fun (a, entries) =>
    entries.mapM fun (key, value) =>
      (key.scalar? a).bind fun key => (value.scalar? a).map fun value => (key.text, value)

-- The entries of a document, in order. A document without content has none.
def entries? (text : String) : Option (List (String × Scalar)) :=
  (tokens? text).bind fun tokens =>
    (Document.ofTokens? tokens).bind Document.entries?

end TestFocus.Yaml
