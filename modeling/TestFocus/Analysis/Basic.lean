import TestFocus.Body.Scan
import TestFocus.Trace.Search

-- The analysis of a whole module: the tests are scanned first, then the functions they call,
-- level by level up to the depth limit; then the focal methods of each test are searched.

namespace TestFocus

-- `evaluated` are the scanned functions, the tests first and the others as they were discovered.
structure Analysis where
  registry : Registry
  bodies : Table Body
  callGraph : CallGraph
  evaluated : List String
  tests : List String
  diagnostics : List Diagnostic

namespace Analysis

def empty : Analysis :=
  { registry := .empty, bodies := ∅, callGraph := .empty, evaluated := [], tests := [],
    diagnostics := [] }

instance : Inhabited Analysis := ⟨empty⟩

def report (a : Analysis) (line : Nat) (e : ParseError) : Analysis :=
  { a with diagnostics := a.diagnostics ++ [.ofError none line e] }

def addAlias (a : Analysis) (line : SourceLine) : Analysis :=
  match Reader.aliasLine.parse line.text with
  | .ok (name, target) => { a with registry := a.registry.addAlias name target }
  | .error e => a.report line.number e

def addAttributeGroup (a : Analysis) (line : SourceLine) : Analysis :=
  match Reader.attributeGroup.parse line.text with
  | .ok (id, attributes) => { a with registry := a.registry.addAttributeGroup id attributes }
  | .error e => a.report line.number e

-- The source that is scanned for a name is that of its first definition.
def addDefinition (state : Analysis × Table FunctionSource) (source : FunctionSource) :
    Analysis × Table FunctionSource :=
  let (a, sources) := state
  match Definition.parse source.header.text with
  | .ok d =>
    let a := { a with registry := a.registry.define d }
    let a :=
      if a.registry.isStartup d.name then { a with callGraph := a.callGraph.markStart d.name }
      else a
    (a, sources.insertNew d.name source)
  | .error e => (a.report source.header.number e, sources)

-- All names of a module, before any body is scanned.
def register (m : ModuleSource) : Analysis × Table FunctionSource :=
  let a := m.aliases.foldl addAlias .empty
  let a := m.attributeGroups.foldl addAttributeGroup a
  m.functions.foldl addDefinition (a, ∅)

-- Scans one body; also the functions it calls by name.
def evaluate (framework : Framework) (a : Analysis) (name : String) (source : FunctionSource) :
    Analysis × List String :=
  let scan := Scan.run framework a.registry a.callGraph name source
  ({ a with
     registry := scan.registry
     callGraph := scan.callGraph
     bodies := a.bodies.insert name scan.body
     evaluated := a.evaluated ++ [name]
     diagnostics := a.diagnostics ++ scan.diagnostics }, scan.callees)

def enqueue (queue callees : List String) : List String :=
  callees.foldl CallGraph.adjoin queue

def evaluateTest (framework : Framework) (sources : Table FunctionSource)
    (state : Analysis × List String) (name : String) : Analysis × List String :=
  let (a, queue) := state
  match sources.get? name with
  | none => (a, queue)
  | some source =>
    let a := { a with callGraph := a.callGraph.markTest name, tests := a.tests ++ [name] }
    let (a, callees) := a.evaluate framework name source
    (a, enqueue queue callees)

-- Assertions and excluded functions are not scanned, nor is anything twice.
def evaluateCallee (framework : Framework) (sources : Table FunctionSource)
    (state : Analysis × List String) (callee : String) : Analysis × List String :=
  let (a, queue) := state
  let name := a.registry.resolve callee
  if a.bodies.contains name then (a, queue)
  else if framework.isAssertion callee || framework.isAssertion name ||
      framework.isExcluded name then (a, queue)
  else match sources.get? name with
    | none => (a, queue)
    | some source =>
      let (a, callees) := a.evaluate framework name source
      (a, enqueue queue callees)

-- One level of calls after another.
def expand (framework : Framework) (sources : Table FunctionSource) :
    Nat → Analysis → List String → Analysis
  | 0, a, _ => a
  | _ + 1, a, [] => a
  | levels + 1, a, queue =>
    let (a, next) := queue.foldl (evaluateCallee framework sources) (a, [])
    expand framework sources levels a next

def testNames (framework : Framework) (r : Registry) : List String :=
  r.names.filter fun name => framework.isTest name && !framework.isExcluded name

-- Scans the tests of a module and all that they reach within `maxDepth` calls.
def ofModule (framework : Framework) (maxDepth : Nat) (text : String) : Analysis :=
  let (a, sources) := register (.split text)
  let (a, queue) :=
    (testNames framework a.registry).foldl (evaluateTest framework sources) (a, [])
  expand framework sources maxDepth a queue

def program (a : Analysis) (framework : Framework) (maxDepth : Nat) : Program :=
  { registry := a.registry, bodies := a.bodies, framework, maxDepth }

-- The focal methods of each test, the tests in ascending order.
def focalMethods (a : Analysis) (framework : Framework) (maxDepth : Nat) :
    List (String × List String) :=
  let p := a.program framework maxDepth
  (sortedNames a.tests).map fun test => (test, ((p.testFocalMethods test).run .empty).1)

def body? (a : Analysis) (name : String) : Option Body :=
  a.bodies.get? (a.registry.resolve name)

def isAnalyzed (a : Analysis) (name : String) : Bool :=
  a.bodies.contains (a.registry.resolve name)

-- The scanned bodies, in the order of evaluation.
def evaluatedBodies (a : Analysis) : List Body :=
  a.evaluated.filterMap a.bodies.get?

end Analysis

end TestFocus
