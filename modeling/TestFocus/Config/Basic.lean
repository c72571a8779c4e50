import TestFocus.Framework
import TestFocus.Pattern.Reader

namespace TestFocus

-- The library that compiles patterns; what is used of a compiled pattern is which texts it matches.
structure PatternLibrary where
  compile? : String → Option (String → Bool)

-- The patterns of this development.
def PatternLibrary.standard : PatternLibrary :=
  { compile? := fun pattern => (Pattern.ofText? pattern).map (·.isMatch) }

-- What the analysis can be told: which functions are tests, which calls are assertions, which
-- functions and which assertion arguments to leave alone, and how many calls away from a test to
-- look.
structure Config where
  testPattern : String
  assertionPattern : String
  exclusionPattern : Option String
  assertionTypePattern : Option String
  maxDepth : Nat
deriving Repr, DecidableEq

inductive ConfigError where
  | emptyPattern (field : String)
  | invalidPattern (field : String)
  | missingVersion
  | unsupportedVersion (version : Nat)
  -- the file is not a document of the expected form
  | malformed
  -- the file cannot be read
  | unreadable
deriving Repr, DecidableEq, Inhabited

namespace Config

-- The patterns of the tests and comparison helpers of GoogleTest.
def preset : Config :=
  { testPattern := "TestBodyEv$"
    assertionPattern :=
      "^@_ZN7testing8internal(?:\\d+CmpHelper(?:[A-Z]\x7b2,9\x7d|FloatingPoint[A-Z]\x7b2\x7d)" ++
        "[EI]|8EqHelper7Compare)"
    exclusionPattern := none
    assertionTypePattern := some "testing::AssertionResult"
    maxDepth := 5 }

instance : Inhabited Config := ⟨preset⟩

def testField : String := "test_function_pattern"

def assertionField : String := "assertion_function_pattern"

def exclusionField : String := "exclusion_function_pattern"

def assertionTypeField : String := "assertion_type_pattern"

section Patterns

variable (library : PatternLibrary)

-- A pattern has to hold more than spaces.
def compile (field pattern : String) : Except ConfigError (String → Bool) :=
  if (Text.trim pattern).isEmpty then .error (.emptyPattern field)
  else match library.compile? pattern with
    | some isMatch => .ok isMatch
    | none => .error (.invalidPattern field)

def compileOptional (field : String) : Option String → Except ConfigError (Option (String → Bool))
  | none => .ok none
  | some pattern => (compile library field pattern).map some

end Patterns

-- The test framework that the patterns describe; the first bad pattern is the error.
def framework (c : Config) (library : PatternLibrary := .standard) :
    Except ConfigError Framework := do
  let test ← compile library testField c.testPattern
  let assertion ← compile library assertionField c.assertionPattern
  let exclusion ← compileOptional library exclusionField c.exclusionPattern
  let assertionType ← compileOptional library assertionTypeField c.assertionTypePattern
  return {
    isTest := test
    isAssertion := assertion
    isExcluded := fun name => exclusion.any (· name)
    isAssertionType := fun type => assertionType.any (· type) }

def validate (c : Config) (library : PatternLibrary := .standard) : Except ConfigError Unit :=
  (c.framework library).map fun _ => ()

end Config

def supportedVersions : List Nat := [1]

namespace ConfigError

def message : ConfigError → String
  | emptyPattern field => "Pattern for field '" ++ field ++ "' is empty"
  | invalidPattern field => "Invalid pattern for field '" ++ field ++ "'"
  | missingVersion =>
    "Missing 'version' field in configuration file. " ++
      "Add 'version: 1' to the top of your YAML file."
  | unsupportedVersion version =>
    "Unsupported configuration version " ++ toString version ++ ". Supported versions: " ++
      ", ".intercalate (supportedVersions.map toString)
  | malformed => "YAML parsing error"
  | unreadable => "IO error"

end ConfigError

end TestFocus
