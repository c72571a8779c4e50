import TestFocus.Verdict

-- The memo table of the classifier. A question is open while its body is inspected; a chain of
-- calls that comes back to it reads what is assumed of it so far. The question that opened such
-- a cycle is inspected again until its answer stops changing. Answers found inside of an
-- unfinished cycle, or cut short by the depth limit, are not kept.
--
-- The budget of a question is the number of call levels that may still be entered, its own
-- included. Depths are idealised as natural numbers: machine words would differ only for questions
-- that are asked within a few calls of the greatest word.

namespace TestFocus.Mutation

-- Does a function change what a register points to? What does it return?
inductive Question where
  | argument (function register : String)
  | result (function : String)
deriving Repr, DecidableEq, Inhabited

-- The budget of a question that is asked `depth` calls away from a test.
def budgetFor (maxDepth depth : Nat) : Nat :=
  maxDepth + 1 - depth

inductive Slot where
  | pending (assumed : Verdict)
  -- `height` is the depth of the deepest call below the question that was looked at
  | done (verdict : Verdict) (height : Nat)
deriving Repr, DecidableEq, Inhabited

-- The verdict, if it holds for a question with this budget: nothing was looked at that the budget
-- would not reach.
def Slot.reusable? (budget : Nat) : Slot → Option Verdict
  | pending _ => none
  | done verdict height => if height < budget then some verdict else none

-- A question being answered. `low` is the lowest position of a pending question that was read below
-- it, and `truncated` tells that some branch below met the depth limit.
structure Opening where
  question : Question
  low : Option Nat := none
  height : Nat := 0
  truncated : Bool := false
deriving Repr, DecidableEq, Inhabited

-- The openings are a stack with its top first; the position of an opening is the number of openings
-- below it.
structure Memo where
  slots : List (Question × Slot)
  openings : List Opening
deriving Repr, DecidableEq, Inhabited

namespace Memo

def empty : Memo :=
  { slots := [], openings := [] }

def slot? (m : Memo) (q : Question) : Option Slot :=
  m.slots.lookup q

def erase (m : Memo) (q : Question) : Memo :=
  { m with slots := m.slots.filter (·.1 != q) }

def put (m : Memo) (q : Question) (s : Slot) : Memo :=
  { m with slots := (q, s) :: m.slots.filter (·.1 != q) }

def positionOf (q : Question) : List Opening → Option Nat
  | [] => none
  | top :: below => if top.question = q then some below.length else positionOf q below

def modifyTop (m : Memo) (f : Opening → Opening) : Memo :=
  match m.openings with
  | [] => m
  | top :: below => { m with openings := f top :: below }

-- The question on top looked one call down, and `below` calls further from there.
def recordHop (m : Memo) (below : Nat) : Memo :=
  m.modifyTop fun o => { o with height := max o.height (below + 1) }

def lower (low : Option Nat) (position : Nat) : Option Nat :=
  match low with
  | none => some position
  | some p => some (min p position)

-- The question on top read a pending question.
def recordPending (m : Memo) (q : Question) : Memo :=
  match positionOf q m.openings with
  | some position => m.modifyTop fun o => { o with low := lower o.low position }
  | none => m

def recordTruncation (m : Memo) : Memo :=
  (m.modifyTop fun o => { o with truncated := true }).recordHop 0

def push (m : Memo) (q : Question) (assumed : Verdict) : Memo :=
  { m.put q (.pending assumed) with openings := { question := q } :: m.openings }

def pop (m : Memo) : Opening × Memo :=
  match m.openings with
  | [] => (default, m)
  | top :: below => (top, { m with openings := below })

-- An answer that is not final leaves what was there before, and marks the question above.
def abandon (m : Memo) (q : Question) (previous : Option Slot) (closed : Opening)
    (inCycle : Bool) : Memo :=
  let m := match previous with
    | some (.done verdict height) => m.put q (.done verdict height)
    | _ => m.erase q
  m.modifyTop fun o =>
    { o with
      low := match inCycle, closed.low with
        | true, some p => lower o.low p
        | _, _ => o.low
      truncated := o.truncated || closed.truncated }

-- Does a question that is still open at a lower position take part in the cycle?
def isInsideCycle (closed : Opening) (position : Nat) : Bool :=
  closed.low.any (· < position)

def close (m : Memo) (q : Question) (previous : Option Slot) (closed : Opening) (position : Nat)
    (verdict : Verdict) : Memo :=
  let inCycle := isInsideCycle closed position
  let m :=
    if inCycle || closed.truncated then m.abandon q previous closed inCycle
    else m.put q (.done verdict closed.height)
  m.recordHop closed.height

end Memo

-- A computation over the memo table.
abbrev Classify := StateM Memo

variable {m : Type → Type} [Monad m] [MonadStateOf Memo m]

-- Inspects the question at `position` until its answer agrees with what was assumed of it. Each
-- retry enlarges the assumption, which two retries exhaust: it may become uncertain, and it may
-- become returned.
def settle (q : Question) (position : Nat) (inspect : m Verdict) :
    Nat → Verdict → m (Opening × Verdict)
  | retries, assumed => do
    modify (·.push q assumed)
    let verdict ← inspect
    let closed ← modifyGet (·.pop)
    if closed.low = some position && !verdict.kind.isMutator then
      let next := assumed.merge verdict
      if next = assumed then return (closed, next)
      else match retries with
        | 0 => return (closed, next)
        | retries + 1 => settle q position inspect retries next
    else return (closed, verdict)

-- Answers a question from the table, or by inspection, and keeps the answer when it is final.
def memoized (q : Question) (budget : Nat) (inspect : m Verdict) : m Verdict := do
  let previous := (← get).slot? q
  match previous with
  | some (.pending assumed) =>
    modify fun m => (m.recordPending q).recordHop 0
    return assumed
  | some (.done verdict height) =>
    match (Slot.done verdict height).reusable? budget with
    | some verdict =>
      modify (·.recordHop height)
      return verdict
    | none => inspectAnew previous
  | none => inspectAnew previous
where
  inspectAnew (previous : Option Slot) : m Verdict := do
    let position := (← get).openings.length
    let (closed, verdict) ← settle q position inspect 2 .inspector
    modify (·.close q previous closed position verdict)
    return verdict

-- The answer beyond the depth limit.
def beyondLimit : m Verdict := do
  modify (·.recordTruncation)
  return .uncertain

-- The answer for a function without a body.
def withoutBody : m Verdict := do
  modify (·.recordHop 0)
  return .uncertain

end TestFocus.Mutation
