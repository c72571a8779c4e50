import TestFocus.Statement.Aggregate
import TestFocus.Statement.Call
import TestFocus.Statement.Control
import TestFocus.Statement.Memory
import TestFocus.Statement.Operator

namespace TestFocus

inductive InstructionKind where
  | ret | branch | switch | indirectBranch | invoke | callBranch | resume | unreachable
  | catchSwitch | catchReturn | cleanupReturn
  | unary | binary
  | extractElement | insertElement | shuffleVector | extractValue | insertValue
  | alloca | load | store | fence | compareExchange | readModifyWrite | elementPointer
  | conversion
  | compareIntegers | compareFloats | phi | select | freeze | call | variadicArgument
  | landingPad | catchPad | cleanupPad
deriving Repr, DecidableEq, Inhabited

namespace InstructionKind

-- The keywords that stand for one family each.
def keywords : List (String × InstructionKind) :=
  [("ret", .ret), ("br", .branch), ("switch", .switch), ("indirectbr", .indirectBranch),
   ("invoke", .invoke), ("callbr", .callBranch), ("resume", .resume),
   ("unreachable", .unreachable), ("catchswitch", .catchSwitch), ("catchret", .catchReturn),
   ("cleanupret", .cleanupReturn), ("fneg", .unary), ("extractelement", .extractElement),
   ("insertelement", .insertElement), ("shufflevector", .shuffleVector),
   ("extractvalue", .extractValue), ("insertvalue", .insertValue), ("alloca", .alloca),
   ("load", .load), ("store", .store), ("fence", .fence), ("cmpxchg", .compareExchange),
   ("atomicrmw", .readModifyWrite), ("getelementptr", .elementPointer),
   ("icmp", .compareIntegers), ("fcmp", .compareFloats), ("phi", .phi), ("select", .select),
   ("freeze", .freeze), ("call", .call), ("va_arg", .variadicArgument),
   ("landingpad", .landingPad), ("catchpad", .catchPad), ("cleanuppad", .cleanupPad)]

def ofKeyword? (word : String) : Option InstructionKind :=
  if Keyword.isIntegerOperator word || Keyword.isFloatOperator word ||
      Keyword.isBitwiseOperator word then some .binary
  else if Keyword.isConversion word then some .conversion
  else keywords.lookup word

-- Recognised, and of no use to the analysis.
def isSkipped : InstructionKind → Bool
  | alloca | fence | variadicArgument | landingPad | catchSwitch | catchReturn | cleanupReturn
  | catchPad | cleanupPad => true
  | _ => false

-- The reader of what follows the keyword; `none` for skipped kinds.
def reader? (keyword : String) (tail : Option String) : InstructionKind → Option (Reader Statement)
  | ret => some Reader.ret
  | branch => some Reader.branch
  | switch => some Reader.switch
  | indirectBranch => some Reader.indirectBranch
  | invoke => some Reader.invoke
  | callBranch => some Reader.callBranch
  | resume => some Reader.resume
  | unreachable => some (pure .unreachable)
  | unary => some (Reader.unary keyword)
  | binary => some (Reader.binary keyword)
  | extractElement => some Reader.extractElement
  | insertElement => some Reader.insertElement
  | shuffleVector => some Reader.shuffleVector
  | extractValue => some Reader.extractValue
  | insertValue => some Reader.insertValue
  | load => some Reader.load
  | store => some Reader.store
  | compareExchange => some Reader.compareExchange
  | readModifyWrite => some Reader.readModifyWrite
  | elementPointer => some Reader.elementPointer
  | conversion => some (Reader.conversion keyword)
  | compareIntegers => some Reader.compareIntegers
  | compareFloats => some Reader.compareFloats
  | phi => some Reader.phi
  | select => some Reader.select
  | freeze => some Reader.freeze
  | call => some (Reader.call tail)
  | alloca | fence | variadicArgument | landingPad | catchSwitch | catchReturn | cleanupReturn
  | catchPad | cleanupPad => none

end InstructionKind

-- `statement` is `none` exactly for the kinds that are skipped.
structure Instruction where
  assignee : Option String
  kind : InstructionKind
  statement : Option Statement
deriving Repr, DecidableEq, Inhabited

namespace Reader

-- `%register =`
def assignee : Reader (Option String) := do
  let c ← get
  match c.peek? with
  | some token =>
    if Text.startsWithChar token.text '%' && c.nthIs 1 "=" then
      discard advance
      discard advance
      return some token.text
    else return none
  | none => return none

-- `, align N` or `, !kind !N`; each round takes a token, so the tokens left bound the rounds.
def skipAnnotations : Nat → Reader Unit
  | 0 => pure ()
  | rounds + 1 => do
    if ← eat "," then
      let token ← next "annotation"
      if token.text = "align" then
        discard (next "alignment")
        skipAnnotations rounds
      else if token.isWord && Text.startsWithChar token.text '!' then
        discard value
        skipAnnotations rounds
      else throw (.unexpected "annotation" token.text)
    else pure ()

-- The keyword of the instruction, after the tail marker that a call may have.
def instructionKeyword : Reader (Option String × String) := do
  let word := (← next "instruction").text
  if Keyword.isTailMarker word then
    return (some word, (← expect "call" "'call'").text)
  else return (none, word)

def instruction : Reader Instruction := do
  let assignee ← assignee
  let (tail, keyword) ← instructionKeyword
  match InstructionKind.ofKeyword? keyword with
  | none => throw (.unknownInstruction keyword)
  | some kind =>
    match kind.reader? keyword tail with
    | none => return { assignee, kind, statement := none }
    | some reader =>
      let statement ← reader
      skipAnnotations (← get).remaining
      finish "instruction"
      return { assignee, kind, statement := some statement }

end Reader

-- Reads one instruction line to its end.
def Instruction.parse (line : String) : Except ParseError Instruction :=
  Reader.instruction.parse line

end TestFocus
