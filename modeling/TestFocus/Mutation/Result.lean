import TestFocus.Program
import TestFocus.Verdict

-- Where the result of a function comes from: it is followed backwards through loads, casts and
-- merges. A computed result is the function's own work; what a call contributes is for the
-- caller to say, through `answer`.

namespace TestFocus.Mutation

variable {m : Type → Type} [Monad m]

-- What one call contributes to the result. Functions that are not looked into contribute nothing.
def callKindOfResult (p : Program) (answer : String → m Verdict) (call : Call) :
    m MutationKind := do
  let callee := p.registry.resolve call.callee
  if p.isOffLimits callee then return .inspector
  else if call.isDirect then return (← answer callee).kind
  else return .uncertain

-- The worklist is a stack with its top first. Every register is handled once.
def walkSources (p : Program) (answer : String → m Verdict) (body : Body) :
    Nat → List String → List String → Verdict → m Verdict
  | 0, _, _, verdict => return verdict
  | _ + 1, _, [], verdict => return verdict
  | steps + 1, seen, value :: worklist, verdict => do
    if !Operand.isRegister value || seen.contains value then
      walkSources p answer body steps seen worklist verdict
    else
      let seen := value :: seen
      match body.dataflow.definition? value with
      | none => walkSources p answer body steps seen worklist verdict
      | some (.computed _) => return .mutator
      | some (.loadedFrom address _) =>
        walkSources p answer body steps seen
          ((body.dataflow.storedValues address).reverse ++ worklist) verdict
      | some (.referencedFrom _) =>
        walkSources p answer body steps seen worklist { verdict with isReturned := true }
      | some (.converted source) =>
        walkSources p answer body steps seen (source :: worklist) verdict
      | some (.assigned sources) =>
        walkSources p answer body steps seen (sources.reverse ++ worklist) verdict
      | some (.storedFrom _) => walkSources p answer body steps seen worklist verdict
      | some (.callResult node) =>
        match body.call? node with
        | none => walkSources p answer body steps seen worklist verdict
        | some call =>
          let kind := verdict.kind.merge (← callKindOfResult p answer call)
          if kind.isMutator then return { verdict with kind }
          else walkSources p answer body steps seen worklist { verdict with kind }

def countStores (d : Dataflow) : Nat :=
  d.stores.entries.foldl (fun n (_, values) => n + values.length) 0

def countSources (d : Dataflow) : Nat :=
  d.definitions.entries.foldl (fun n (_, definition) => n + definition.sources.length) 0

-- Handling a register puts at most every stored value, or the sources of its definition, on the
-- worklist. No register is handled twice, so this many steps empty the worklist.
def sourceSteps (d : Dataflow) : Nat :=
  2 + d.definitions.size * countStores d + countSources d

def classifyValue (p : Program) (answer : String → m Verdict) (body : Body)
    (value : String) : m Verdict :=
  walkSources p answer body (sourceSteps body.dataflow) [] [value] .inspector

-- Merges the verdicts on the returned values, up to the first mutator.
def classifyReturns (p : Program) (answer : String → m Verdict) (body : Body) :
    List String → Verdict → m Verdict
  | [], verdict => return verdict
  | value :: rest, verdict => do
    let verdict := verdict.merge (← classifyValue p answer body value)
    if verdict.kind.isMutator then return verdict
    else classifyReturns p answer body rest verdict

end TestFocus.Mutation
