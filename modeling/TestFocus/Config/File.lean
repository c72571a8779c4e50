import TestFocus.Config.Basic
import TestFocus.Table
import TestFocus.Yaml.Document
import TestFocus.Yaml.Writer

namespace TestFocus

-- The fields of a configuration file as they are written. Any of them but the version may be left
-- out, and the preset stands in for it.
structure ConfigFile where
  version : Option Nat
  testPattern : Option String
  assertionPattern : Option String
  exclusionPattern : Option String
  assertionTypePattern : Option String
  maxDepth : Option Nat
deriving Repr, DecidableEq, Inhabited

namespace ConfigFile

def fields : List String :=
  ["version", Config.testField, Config.assertionField, Config.exclusionField,
   Config.assertionTypeField, "max_depth"]

-- The scalar of a field; `none` inside if the field is left out or stands for nothing.
def scalarField (entries : List (String × Yaml.Scalar)) (field : String) :
    Except ConfigError (Option Yaml.Scalar) :=
  match entries.lookup field with
  | none => .ok none
  | some s => match s.optional? with
    | some found => .ok found
    | none => .error .malformed

-- Any scalar is a text.
def textField (entries : List (String × Yaml.Scalar)) (field : String) :
    Except ConfigError (Option String) :=
  (scalarField entries field).map (·.map (·.text))

-- A number below the limit; the error is for anything else.
def numberField (entries : List (String × Yaml.Scalar)) (field : String) (limit : Nat) :
    Except ConfigError (Option Nat) := do
  match ← scalarField entries field with
  | none => return none
  | some s => match s.nat? with
    | some n => if n < limit then return some n else throw .malformed
    | none => throw .malformed

def isDistinct : List String → Bool
  | [] => true
  | x :: xs => !xs.contains x && isDistinct xs

-- Unknown and repeated fields are refused.
def ofText (text : String) : Except ConfigError ConfigFile :=
  match Yaml.entries? text with
  | none => .error .malformed
  | some entries => do
    let keys := entries.map (·.1)
    if !keys.all fields.contains || !isDistinct keys then throw .malformed
    return {
      version := ← numberField entries "version" (Nat.pow 2 32)
      testPattern := ← textField entries Config.testField
      assertionPattern := ← textField entries Config.assertionField
      exclusionPattern := ← textField entries Config.exclusionField
      assertionTypePattern := ← textField entries Config.assertionTypeField
      maxDepth := ← numberField entries "max_depth" (Nat.pow 2 64) }

def textEntry (field : String) : Option String → String
  | some text => Yaml.writeEntry field (Yaml.writeScalar text)
  | none => ""

def numberEntry (field : String) : Option Nat → String
  | some n => Yaml.writeEntry field (toString n)
  | none => ""

-- Fields without a value are left out, but for the version.
def toText (file : ConfigFile) : String :=
  Yaml.writeEntry "version" ((file.version.map toString).getD "null") ++
    textEntry Config.testField file.testPattern ++
    textEntry Config.assertionField file.assertionPattern ++
    textEntry Config.exclusionField file.exclusionPattern ++
    textEntry Config.assertionTypeField file.assertionTypePattern ++
    numberEntry "max_depth" file.maxDepth

end ConfigFile

-- The library that writes and reads the text of configuration files.
structure ConfigCodec where
  write : ConfigFile → String
  read : String → Except ConfigError ConfigFile

-- Flat YAML mappings, as far as configuration files need them.
def ConfigCodec.yaml : ConfigCodec :=
  { write := ConfigFile.toText, read := ConfigFile.ofText }

namespace Config

-- Fields without a value are taken from the preset.
def overPreset (file : ConfigFile) : Config :=
  { testPattern := file.testPattern.getD preset.testPattern
    assertionPattern := file.assertionPattern.getD preset.assertionPattern
    exclusionPattern := file.exclusionPattern.or preset.exclusionPattern
    assertionTypePattern := file.assertionTypePattern.or preset.assertionTypePattern
    maxDepth := file.maxDepth.getD preset.maxDepth }

-- The configuration that a file states, if its version is known and its patterns are valid.
def ofFile? (file : ConfigFile) (library : PatternLibrary := .standard) :
    Except ConfigError Config := do
  match file.version with
  | none => throw .missingVersion
  | some version =>
    if !supportedVersions.contains version then throw (.unsupportedVersion version)
    let config := overPreset file
    config.validate library
    return config

def ofYaml (text : String) (codec : ConfigCodec := .yaml) (library : PatternLibrary := .standard) :
    Except ConfigError Config := do
  ofFile? (← codec.read text) library

-- The file that states a configuration.
def toFile (c : Config) : ConfigFile :=
  { version := some 1
    testPattern := some c.testPattern
    assertionPattern := some c.assertionPattern
    exclusionPattern := c.exclusionPattern
    assertionTypePattern := c.assertionTypePattern
    maxDepth := some c.maxDepth }

def toYaml (c : Config) (codec : ConfigCodec := .yaml) : String :=
  codec.write c.toFile

end Config

end TestFocus
