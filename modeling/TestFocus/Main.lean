import TestFocus.CommandLine

namespace TestFocus

def readFile? (path : String) : IO (Option ByteArray) := do
  try
    return some (← IO.FS.readBinFile path)
  catch _ => return none

def writeGraphs (directory : String) (files : List (String × String)) : IO Unit := do
  IO.FS.createDirAll directory
  for (name, content) in files do
    IO.FS.writeFile (directory ++ "/" ++ name) content

def runOptions (o : Options) : IO UInt32 := do
  let configFile ← match o.config with
    | some path => readFile? path
    | none => pure none
  match o.run configFile (← readFile? o.input) with
  | .error e =>
    IO.eprintln e.message
    return 1
  | .ok (.complete printed files skipped) =>
    match o.graphDirectory, files with
    | some directory, some files => writeGraphs directory files
    | _, _ => pure ()
    IO.print printed
    if skipped > 0 then
      IO.eprintln (toString skipped ++ " unparsable lines skipped")
    return 0
  | .ok (.stopped files) =>
    match o.graphDirectory with
    | some directory => writeGraphs directory files
    | none => pure ()
    IO.eprintln "File name too long"
    return 1

end TestFocus

def main (arguments : List String) : IO UInt32 :=
  match TestFocus.CommandLine.parse arguments with
  | .error .help => do
    IO.print TestFocus.CommandLine.helpText
    return 0
  | .error .usage => do
    IO.eprintln TestFocus.CommandLine.helpText
    return 2
  | .ok options => TestFocus.runOptions options
