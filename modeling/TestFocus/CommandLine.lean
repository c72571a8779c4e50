import TestFocus.Analysis.Report
import TestFocus.Config.File

namespace TestFocus

inductive OutputFormat where
  | json
  | text
deriving Repr, DecidableEq, Inhabited

-- The options that take a value.
inductive ValueOption where
  | config
  | testPattern
  | assertionPattern
  | excludePattern
  | maxDepth
  | format
  | graphDirectory
deriving Repr, DecidableEq, Inhabited

structure Options where
  input : String
  config : Option String := none
  testPattern : Option String := none
  assertionPattern : Option String := none
  excludePattern : Option String := none
  maxDepth : Option Nat := none
  format : OutputFormat := .text
  graphDirectory : Option String := none
  verbosity : Nat := 0
deriving Repr, DecidableEq, Inhabited

namespace CommandLine

-- Arguments that do not make a run: they ask for help, or they are misused.
inductive Refusal where
  | help
  | usage
deriving Repr, DecidableEq, Inhabited

-- What the arguments read so far say. A value option is given at most once.
structure Arguments where
  inputs : List String := []
  values : List (ValueOption × String) := []
  verbosity : Nat := 0
deriving Repr, DecidableEq, Inhabited

def longOption? (name : String) : Option ValueOption :=
  [("config", .config), ("test-pattern", .testPattern),
   ("assertion-pattern", .assertionPattern), ("exclude-pattern", .excludePattern),
   ("max-depth", .maxDepth), ("format", .format), ("dot-dir", .graphDirectory)].lookup name

def depthLimit : Nat := Nat.pow 2 64

-- Decimal digits, possibly after a plus sign.
def number? (text : String) : Option Nat :=
  let digits := match text.toList with
    | '+' :: rest => rest
    | cs => cs
  (Yaml.natInBase? 10 digits).filter (· < depthLimit)

def format? (text : String) : Option OutputFormat :=
  [("json", .json), ("text", .text)].lookup text

-- Is the text a value of the option? Paths are not empty.
def accepts (option : ValueOption) (text : String) : Bool :=
  match option with
  | .config | .graphDirectory => !text.isEmpty
  | .maxDepth => (number? text).isSome
  | .format => (format? text).isSome
  | .testPattern | .assertionPattern | .excludePattern => true

def addValue (a : Arguments) (option : ValueOption) (text : String) : Except Refusal Arguments :=
  if (a.values.lookup option).isSome || !accepts option text then .error .usage
  else .ok { a with values := a.values ++ [(option, text)] }

-- There is one positional argument, a path.
def addInput (a : Arguments) (text : String) : Except Refusal Arguments :=
  if !a.inputs.isEmpty || text.isEmpty then .error .usage
  else .ok { a with inputs := a.inputs ++ [text] }

-- What an argument leaves open: nothing, or the value of an option, which is the next argument.
abbrev Step := Arguments × Option ValueOption

-- `--name` or `--name=value`, without the dashes.
def longArgument (a : Arguments) (cs : List Char) : Except Refusal Step :=
  match Text.splitAtFirst? (· == '=') cs with
  | some (name, _ :: text) =>
    match longOption? (String.ofList name) with
    | some option => (addValue a option (String.ofList text)).map (·, none)
    | none => .error .usage
  | _ =>
    let name := String.ofList cs
    if name = "help" then .error .help
    else if name = "verbose" then .ok ({ a with verbosity := a.verbosity + 1 }, none)
    else match longOption? name with
      | some option => .ok (a, some option)
      | none => .error .usage

-- A run of one-letter options, without the dash. The letter that takes a value takes the rest of
-- the argument, an equals sign left out.
def shortArgument (a : Arguments) : List Char → Except Refusal Step
  | [] => .ok (a, none)
  | c :: rest =>
    if c == 'v' then shortArgument { a with verbosity := a.verbosity + 1 } rest
    else if c == 'h' then .error .help
    else if c == 'c' then
      match rest with
      | [] => .ok (a, some .config)
      | '=' :: text => (addValue a .config (String.ofList text)).map (·, none)
      | text => (addValue a .config (String.ofList text)).map (·, none)
    else .error .usage

-- An argument that begins with a dash, and is more than a dash, is no value.
def isDashed (text : String) : Bool :=
  match text.toList with
  | '-' :: _ :: _ => true
  | _ => false

-- Everything after a lone double dash is positional.
def collect : Arguments → Option ValueOption → List String → Except Refusal Arguments
  | a, none, [] => .ok a
  | _, some _, [] => .error .usage
  | a, some option, text :: rest =>
    if isDashed text then .error .usage
    else match addValue a option text with
      | .ok a => collect a none rest
      | .error e => .error e
  | a, none, text :: rest =>
    if text = "--" then rest.foldlM addInput a
    else
      let step := match text.toList with
        | '-' :: '-' :: cs => longArgument a cs
        | '-' :: c :: cs => shortArgument a (c :: cs)
        | _ => (addInput a text).map (·, none)
      match step with
      | .ok (a, open_) => collect a open_ rest
      | .error e => .error e

-- The options that a list of arguments gives.
def parse (arguments : List String) : Except Refusal Options := do
  let a ← collect {} none arguments
  match a.inputs with
  | [] => throw .usage
  | input :: _ =>
    return {
      input
      config := a.values.lookup .config
      testPattern := a.values.lookup .testPattern
      assertionPattern := a.values.lookup .assertionPattern
      excludePattern := a.values.lookup .excludePattern
      maxDepth := (a.values.lookup .maxDepth).bind number?
      format := ((a.values.lookup .format).bind format?).getD .text
      graphDirectory := a.values.lookup .graphDirectory
      verbosity := a.verbosity }

-- What is printed when help is asked for.
def helpText : String :=
  String.join ([
    "Infer the focal methods of unit tests from linked LLVM IR",
    "",
    "Usage: focal-methods [OPTIONS] <INPUT>",
    "",
    "Arguments:",
    "  <INPUT>  Linked module in textual IR form (.ll)",
    "",
    "Options:",
    "  -c, --config <CONFIG>",
    "          YAML analysis configuration",
    "      --test-pattern <TEST_PATTERN>",
    "          Regex selecting test functions",
    "      --assertion-pattern <ASSERTION_PATTERN>",
    "          Regex selecting assertion functions",
    "      --exclude-pattern <EXCLUDE_PATTERN>",
    "          Regex selecting functions never analyzed",
    "      --max-depth <MAX_DEPTH>",
    "          Maximum call distance from a test that is analyzed",
    "      --format <FORMAT>",
    "          Output format [default: text] [possible values: json, text]",
    "      --dot-dir <DOT_DIR>",
    "          Write DOT files for every analyzed function and the call graph",
    "  -v, --verbose...",
    "          -v info, -vv debug",
    "  -h, --help",
    "          Print help"].map (· ++ "\n"))

end CommandLine

-- Why a run cannot be completed.
inductive RunError where
  | config (e : ConfigError)
  | inputNotFound
  | unreadableInput
deriving Repr, DecidableEq, Inhabited

def RunError.message : RunError → String
  | config e => e.message
  | inputNotFound => "Input IR file not found"
  | unreadableInput => "IO error"

-- The module text of a file: `none` for a file that is not there.
def moduleText (file : Option ByteArray) : Except RunError String :=
  match file with
  | none => .error .inputNotFound
  | some bytes =>
    match String.fromUTF8? bytes with
    | some text => .ok text
    | none => .error .unreadableInput

-- How a run ends: with what it prints, the graph files it writes and the number of lines it passed
-- over, or at a graph file that cannot be written. Then the files before it are there, and nothing
-- is printed.
inductive RunOutput where
  | complete (printed : String) (graphFiles : Option (List (String × String))) (skipped : Nat)
  | stopped (graphFiles : List (String × String))
deriving Repr, DecidableEq, Inhabited

namespace Options

-- The configuration: that of the file, or the preset, changed by what the arguments say.
def configuration (o : Options) (file : Option ByteArray) : Except ConfigError Config := do
  let base ← match o.config with
    | none => pure Config.preset
    | some _ =>
      match file.bind String.fromUTF8? with
      | none => throw .unreadable
      | some text => Config.ofYaml text
  return {
    base with
    testPattern := o.testPattern.getD base.testPattern
    assertionPattern := o.assertionPattern.getD base.assertionPattern
    exclusionPattern := o.excludePattern.or base.exclusionPattern
    maxDepth := o.maxDepth.getD base.maxDepth }

-- A run on the contents of the configuration file and of the module.
def run (o : Options) (configFile moduleFile : Option ByteArray) : Except RunError RunOutput := do
  let config ← (o.configuration configFile).mapError .config
  let framework ← config.framework.mapError .config
  let text ← moduleText moduleFile
  let a := Analysis.ofModule framework config.maxDepth text
  let focal := a.focalMethods framework config.maxDepth
  let printed := match o.format with
    | .json => Report.json focal
    | .text => Report.text focal
  match o.graphDirectory with
  | none => return .complete printed none a.diagnostics.length
  | some _ =>
    let files := Report.graphFiles a
    if files.all fun file => Report.isFileName file.1 then
      return .complete printed (some files) a.diagnostics.length
    else return .stopped (Report.writable files)

end Options

end TestFocus
