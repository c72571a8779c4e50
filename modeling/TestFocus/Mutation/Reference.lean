import TestFocus.Program
import TestFocus.Verdict

-- What happens to a reference inside of one body: every alias of it is followed through spills
-- and reloads, address computations, casts and merges. A store through an alias is a mutation;
-- what passing an alias to a call does is for the caller to say, through `answer`.

namespace TestFocus.Mutation

variable {m : Type → Type} [Monad m]

-- The calls that take `value`: their nodes, and the positions at which they take it.
def passings (calls : List (Nat × Call)) (value : String) : List (Nat × Call × Nat) :=
  calls.flatMap fun (node, call) =>
    (call.arguments.zipIdx.filter (·.1.value == value)).map fun (_, index) => (node, call, index)

-- The registers that hold an alias because of one use of an alias.
def aliasesThrough (d : Dataflow) (use : Use) : List String :=
  match use.provenance with
  | .storedFrom _ => d.reloads use.register
  | .loadedFrom _ isPointer => if isPointer then [use.register] else []
  | .referencedFrom _ | .converted _ | .assigned _ => [use.register]
  | .computed _ | .callResult _ => []

def aliasesOf (d : Dataflow) (value : String) : List String :=
  (d.usesOf value).flatMap (aliasesThrough d)

-- Asks about each call in turn: the merged kind and the worklist with the results that are aliases,
-- or `none` as soon as a call mutates.
def passAlias (answer : Call → Nat → m Verdict) (body : Body) :
    List (Nat × Call × Nat) → MutationKind → List String →
    m (Option (MutationKind × List String))
  | [], kind, worklist => return some (kind, worklist)
  | (node, call, index) :: rest, kind, worklist => do
    let verdict ← answer call index
    if verdict.kind.isMutator then return none
    else
      let results := if verdict.isReturned then (body.assignee? node).toList else []
      passAlias answer body rest (kind.merge verdict.kind) (results ++ worklist)

-- The worklist is a stack with its top first. Every alias is handled once.
def walkAliases (answer : Call → Nat → m Verdict) (body : Body)
    (calls : List (Nat × Call)) :
    Nat → List String → List String → Verdict → m Verdict
  | 0, _, _, verdict => return verdict
  | _ + 1, _, [], verdict => return verdict
  | steps + 1, seen, name :: worklist, verdict => do
    if seen.contains name then walkAliases answer body calls steps seen worklist verdict
    else if body.dataflow.isStoredThrough name then return { verdict with kind := .mutator }
    else
      let verdict :=
        { verdict with isReturned := verdict.isReturned || body.dataflow.isReturned name }
      match ← passAlias answer body (passings calls name) verdict.kind worklist with
      | none => return { verdict with kind := .mutator }
      | some (kind, worklist) =>
        walkAliases answer body calls steps (name :: seen)
          ((aliasesOf body.dataflow name).reverse ++ worklist) { verdict with kind }

def countUses (d : Dataflow) : Nat :=
  d.users.entries.foldl (fun n (_, users) => n + users.length) 0

def countArguments (calls : List (Nat × Call)) : Nat :=
  calls.foldl (fun n (_, call) => n + call.arguments.length) 0

-- Handling a name puts at most one result on the worklist for each argument that is the name, and
-- for each use of it at most as many reloads as there are uses. No name is handled twice, so this
-- many steps empty the worklist.
def aliasSteps (d : Dataflow) (calls : List (Nat × Call)) : Nat :=
  2 + countArguments calls + countUses d * (countUses d + 1)

-- Does the body change what `register` points to?
def classifyReference (answer : Call → Nat → m Verdict) (body : Body)
    (calls : List (Nat × Call)) (register : String) : m Verdict :=
  walkAliases answer body calls (aliasSteps body.dataflow calls) [] [register] .inspector

-- What passing the argument at `index` to the callee does. Attributes can settle it; otherwise it
-- is what `inspect` says of the parameter of a function.
def callArgument (p : Program) (inspect : String → String → m Verdict) (call : Call)
    (index : Nat) : m Verdict :=
  match call.arguments[index]? with
  | none => return .inspector
  | some argument =>
    let callee := p.registry.resolve call.callee
    if isMemoryIntrinsic callee then return if index = 0 then .mutator else .inspector
    else if !argument.isReference || p.isOffLimits callee then return .inspector
    else if call.functionAttributes.any isReadOnly || argument.attributes.any isReadOnly then
      return .inspector
    else if !call.isDirect then return .uncertain
    else if (p.registry.functionAttributes callee).any isReadOnly then return .inspector
    else match (p.registry.get? callee).bind (·.parameters[index]?) with
      | none => return .uncertain
      | some parameter =>
        if parameter.isVariadic then return .uncertain
        else if parameter.attributes.any isReadOnly then return .inspector
        else inspect callee parameter.register

end TestFocus.Mutation
