import TestFocus.Instruction
import TestFocus.Proofs.Reading.Progress

namespace TestFocus

namespace Reader

-- One more case of a switch.
def caseStep (done : List SwitchCase) : Reader (List SwitchCase) := do
  return done ++ [← switchCase]

-- One more argument, or an ellipsis.
def argumentStep (done : List Argument) : Reader (List Argument) := do
  separator done
  if ← eat "..." then return done
  else return done ++ [← argument]

-- One more token in front of `alias`.
def aliasStep (done : List Unit) : Reader (List Unit) := do
  discard (next "'alias'")
  return done

-- More attributes of a group.
def groupStep (done : List String) : Reader (List String) := do
  let known ← functionAttributes
  if known.isEmpty then return done ++ [← keywordAttribute]
  else return done ++ known

namespace Forward

theorem ret : Forward ret :=
  .bind .type fun _ => .ite (.pure _) (.bind .value fun _ => .pure _)

theorem branch : Forward branch :=
  .bind .get fun _ => .ite (.bind .label fun _ => .pure _)
    (.bind .typedValue fun (_, _) => .bind .comma fun _ => .bind .label fun _ =>
      .bind (.eat _) fun _ => .ite (.bind .label fun _ => .pure _) (.pure _))

theorem switchCase : Forward switchCase :=
  .bind .typedValue fun (_, _) => .bind .comma fun _ => .bind .label fun _ => .pure _

theorem caseStep (done : List SwitchCase) : Forward (caseStep done) :=
  .bind .switchCase fun _ => .pure _

theorem switch : Forward switch :=
  .bind .typedValue fun (_, _) => .bind .comma fun _ => .bind .label fun _ =>
    .bind (.discard (.expect _ _)) fun _ => .bind (.untilClose _ .caseStep) fun _ => .pure _

theorem indirectBranch : Forward indirectBranch :=
  .bind .typedValue fun (_, _) => .bind .comma fun _ => .bind (.discard (.expect _ _)) fun _ =>
    .bind (.commaList _ .label) fun _ => .pure _

theorem resume : Forward resume :=
  .bind .typedValue fun (_, _) => .pure _

theorem callee : Forward callee :=
  .bind .get fun _ => .ite .inlineAssembly
    (.ite (.bind .value fun _ => .pure _) .value)

theorem argumentValue (ty : String) : Forward (argumentValue ty) :=
  .bind .get fun _ => .ite (.bind .typedValue fun (_, _) => .pure _) .value

theorem argument : Forward argument :=
  .bind .type fun _ => .bind .parameterAttributes fun _ => .bind (.argumentValue _) fun _ =>
    .pure _

theorem argumentStep (done : List Argument) : Forward (argumentStep done) :=
  .bind (.separator _) fun _ => .bind (.eat _) fun _ =>
    .ite (.pure _) (.bind .argument fun _ => .pure _)

theorem arguments : Forward arguments :=
  .bind (.discard (.expect _ _)) fun _ => .untilClose _ .argumentStep

theorem operandBundle : Forward operandBundle :=
  .bind (.string _) fun _ => .bind (.discard (.expect _ _)) fun _ =>
    .bind (.commaList _ .typedValue) fun _ => .pure _

theorem operandBundles : Forward operandBundles :=
  .bind (.eat _) fun _ => .ite (.commaList _ .operandBundle) (.pure _)

theorem callBody (tail : Option String) : Forward (callBody tail) :=
  .bind (.run _) fun _ => .bind .callingConvention fun _ => .bind .parameterAttributes fun _ =>
    .bind .addressSpace fun _ => .bind .type fun _ => .bind .callee fun _ =>
      .bind .arguments fun _ => .bind .functionAttributes fun _ => .bind .operandBundles fun _ =>
        .pure _

theorem call (tail : Option String) : Forward (call tail) :=
  .map _ (.callBody tail)

theorem invoke : Forward invoke :=
  .bind (.callBody _) fun _ => .bind (.discard (.expect _ _)) fun _ => .bind .label fun _ =>
    .bind (.discard (.expect _ _)) fun _ => .bind .label fun _ => .pure _

theorem callBranch : Forward callBranch :=
  .bind (.callBody _) fun _ => .bind (.discard (.expect _ _)) fun _ => .bind .label fun _ =>
    .bind (.discard (.expect _ _)) fun _ => .bind (.commaList _ .label) fun _ => .pure _

theorem accessQualifiers : Forward accessQualifiers :=
  .bind (.run _) fun _ => .pure _

theorem skipOrdering : Forward skipOrdering :=
  .bind (.eat _) fun _ => .ite (.bind .skipGroup fun _ => .discard (.run _)) (.discard (.run _))

theorem load : Forward load :=
  .bind .accessQualifiers fun (_, _) => .bind .type fun _ => .bind .comma fun _ =>
    .bind .typedValue fun (_, _) => .bind .skipOrdering fun _ => .pure _

theorem store : Forward store :=
  .bind .accessQualifiers fun (_, _) => .bind .typedValue fun (_, _) => .bind .comma fun _ =>
    .bind .typedValue fun (_, _) => .bind .skipOrdering fun _ => .pure _

theorem compareExchange : Forward compareExchange :=
  .bind (.eat _) fun _ => .bind (.eat _) fun _ => .bind .typedValue fun (_, _) =>
    .bind .comma fun _ => .bind .typedValue fun (_, _) => .bind .comma fun _ =>
      .bind .typedValue fun (_, _) => .bind .skipOrdering fun _ => .pure _

theorem readModifyWrite : Forward readModifyWrite :=
  .bind (.eat _) fun _ => .bind (.next _) fun _ => .bind .typedValue fun (_, _) =>
    .bind .comma fun _ => .bind .typedValue fun (_, _) => .bind .skipOrdering fun _ => .pure _

theorem elementPointerMarks (rounds : Nat) (inbounds : Bool) :
    Forward (elementPointerMarks rounds inbounds) := by
  induction rounds generalizing inbounds with
  | zero => exact .pure _
  | succ rounds ih =>
    exact .bind .get fun _ => .ite (.bind (.discard .advance) fun _ => ih _)
      (.ite (.bind (.discard .advance) fun _ => ih _)
        (.ite (.bind (.discard .advance) fun _ => .bind .skipGroup fun _ => ih _) (.pure _)))

theorem elementIndices (rounds : Nat) (done : List (String × String)) :
    Forward (elementIndices rounds done) := by
  induction rounds generalizing done with
  | zero => exact .pure _
  | succ rounds ih =>
    exact .bind .get fun _ => .ite (.bind (.discard .advance) fun _ =>
      .bind (.discard (.eat _)) fun _ => .bind .typedValue fun _ => ih _) (.pure _)

theorem elementPointer : Forward elementPointer :=
  .bind .get fun _ => .bind (.elementPointerMarks _ _) fun _ => .bind .type fun _ =>
    .bind .comma fun _ => .bind .typedValue fun (_, _) => .bind .get fun _ =>
      .bind (.elementIndices _ _) fun _ => .pure _

theorem unary (opcode : String) : Forward (unary opcode) :=
  .bind (.run _) fun _ => .bind .typedValue fun (_, _) => .pure _

theorem operandPair : Forward operandPair :=
  .bind .typedValue fun (_, _) => .bind .comma fun _ => .bind .value fun _ => .pure _

theorem binary (opcode : String) : Forward (binary opcode) :=
  .bind (.run _) fun _ => .bind .operandPair fun (_, _, _) => .pure _

theorem conversion (opcode : String) : Forward (conversion opcode) :=
  .bind (.discard (.run _)) fun _ => .bind .typedValue fun (_, _) =>
    .bind (.discard (.expect _ _)) fun _ => .bind .type fun _ => .pure _

theorem predicate (p : String → Bool) (expected : String) : Forward (predicate p expected) :=
  .bind (.next _) fun _ => .ite (.pure _) (.throw _)

theorem compareIntegers : Forward compareIntegers :=
  .bind (.discard (.eat _)) fun _ => .bind (.predicate _ _) fun _ =>
    .bind .operandPair fun (_, _, _) => .pure _

theorem compareFloats : Forward compareFloats :=
  .bind (.run _) fun _ => .bind (.predicate _ _) fun _ =>
    .bind .operandPair fun (_, _, _) => .pure _

theorem incoming : Forward incoming :=
  .bind (.discard (.expect _ _)) fun _ => .bind .value fun _ => .bind .comma fun _ =>
    .bind .value fun _ => .bind (.discard (.expect _ _)) fun _ => .pure _

theorem moreIncoming (rounds : Nat) (done : List (String × String)) :
    Forward (moreIncoming rounds done) := by
  induction rounds generalizing done with
  | zero => exact .pure _
  | succ rounds ih =>
    exact .bind .get fun _ => .ite (.bind (.discard .advance) fun _ =>
      .bind .incoming fun _ => ih _) (.pure _)

theorem phi : Forward phi :=
  .bind (.discard (.run _)) fun _ => .bind .type fun _ => .bind .incoming fun _ =>
    .bind .get fun _ => .bind (.moreIncoming _ _) fun _ => .pure _

theorem select : Forward select :=
  .bind (.discard (.run _)) fun _ => .bind .typedValue fun (_, _) => .bind .comma fun _ =>
    .bind .typedValue fun (_, _) => .bind .comma fun _ => .bind .typedValue fun (_, _) => .pure _

theorem freeze : Forward freeze :=
  .bind .typedValue fun (_, _) => .pure _

theorem extractElement : Forward extractElement :=
  .bind .typedValue fun (_, _) => .bind .comma fun _ => .bind .typedValue fun (_, _) => .pure _

theorem insertElement : Forward insertElement :=
  .bind .typedValue fun (_, _) => .bind .comma fun _ => .bind .typedValue fun (_, _) =>
    .bind .comma fun _ => .bind .typedValue fun (_, _) => .pure _

theorem shuffleVector : Forward shuffleVector :=
  .bind .typedValue fun (_, _) => .bind .comma fun _ => .bind .typedValue fun (_, _) =>
    .bind .comma fun _ => .bind .typedValue fun (_, _) => .pure _

theorem aggregateIndicesWithin (rounds : Nat) (done : List String) :
    Forward (aggregateIndicesWithin rounds done) := by
  induction rounds generalizing done with
  | zero => exact .pure _
  | succ rounds ih =>
    exact .bind .get fun _ => .ite (.bind (.discard .advance) fun _ =>
      .bind (.next _) fun _ => .ite (ih _) (.throw _)) (.pure _)

theorem aggregateIndices : Forward aggregateIndices :=
  .bind .get fun _ => .bind (.aggregateIndicesWithin _ _) fun _ => .ite (.throw _) (.pure _)

theorem extractValue : Forward extractValue :=
  .bind .typedValue fun (_, _) => .bind .aggregateIndices fun _ => .pure _

theorem insertValue : Forward insertValue :=
  .bind .typedValue fun (_, _) => .bind .comma fun _ => .bind .typedValue fun (_, _) =>
    .bind .aggregateIndices fun _ => .pure _

-- One case for each family.
theorem statement {kind : InstructionKind} {keyword : String} {tail : Option String}
    {reader : Reader Statement} (h : kind.reader? keyword tail = some reader) :
    Forward reader := by
  cases kind <;> cases h
  case ret => exact .ret
  case branch => exact .branch
  case switch => exact .switch
  case indirectBranch => exact .indirectBranch
  case invoke => exact .invoke
  case callBranch => exact .callBranch
  case resume => exact .resume
  case unreachable => exact .pure _
  case unary => exact .unary keyword
  case binary => exact .binary keyword
  case extractElement => exact .extractElement
  case insertElement => exact .insertElement
  case shuffleVector => exact .shuffleVector
  case extractValue => exact .extractValue
  case insertValue => exact .insertValue
  case load => exact .load
  case store => exact .store
  case compareExchange => exact .compareExchange
  case readModifyWrite => exact .readModifyWrite
  case elementPointer => exact .elementPointer
  case conversion => exact .conversion keyword
  case compareIntegers => exact .compareIntegers
  case compareFloats => exact .compareFloats
  case phi => exact .phi
  case select => exact .select
  case freeze => exact .freeze
  case call => exact .call tail

theorem skipAnnotations (rounds : Nat) : Forward (skipAnnotations rounds) := by
  induction rounds with
  | zero => exact .pure _
  | succ rounds ih =>
    exact .bind (.eat _) fun _ => .ite (.bind (.next _) fun _ =>
      .ite (.bind (.discard (.next _)) fun _ => ih)
        (.ite (.bind (.discard .value) fun _ => ih) (.throw _))) (.pure _)

theorem assignee : Forward assignee := by
  refine .bind .get fun c => ?_
  cases c.peek? with
  | none => exact .pure _
  | some token =>
    exact .ite (.bind (.discard .advance) fun _ => .bind (.discard .advance) fun _ => .pure _)
      (.pure _)

theorem instructionKeyword : Forward instructionKeyword :=
  .bind (.next _) fun _ => .ite (.bind (.expect _ _) fun _ => .pure _) (.pure _)

theorem instruction : Forward instruction := by
  refine .bind .assignee fun _ => .bind .instructionKeyword fun (tail, keyword) => ?_
  dsimp only
  split
  · exact .throw _
  · split
    · exact .pure _
    · next reader hreader =>
      exact .bind (.statement hreader) fun _ => .bind .get fun _ =>
        .bind (.skipAnnotations _) fun _ => .bind (.finish _) fun _ => .pure _

theorem aliasStep (done : List Unit) : Forward (aliasStep done) :=
  .bind (.discard (.next _)) fun _ => .pure _

theorem aliasLine : Forward aliasLine := by
  refine .bind (.next _) fun _ => .bind (.discard (.expect _ _)) fun _ =>
    .bind (.discard (.untilClose _ .aliasStep)) fun _ => .bind (.discard .type) fun _ =>
      .bind .comma fun _ => .bind .typedValue fun (_, aliasee) => ?_
  dsimp only
  cases Operand.referencedGlobal aliasee with
  | none => exact .throw _
  | some target => exact .pure _

theorem groupStep (done : List String) : Forward (groupStep done) :=
  .bind .functionAttributes fun _ => .ite (.bind .keywordAttribute fun _ => .pure _) (.pure _)

theorem attributeGroup : Forward attributeGroup :=
  .bind (.discard (.expect _ _)) fun _ => .bind (.next _) fun _ =>
    .bind (.discard (.expect _ _)) fun _ => .bind (.discard (.expect _ _)) fun _ =>
      .bind (.untilClose _ .groupStep) fun _ => .bind (.finish _) fun _ => .pure _

end Forward

namespace Takes

theorem parameter (unnamed : Nat) : Takes (parameter unnamed) := by
  refine .bind .type fun _ => .bind .parameterAttributes fun _ => .bind .get fun c => ?_
  cases c.peek? with
  | none => exact .pure _
  | some token => exact .ite (.bind (.discard .advance) fun _ => .pure _) (.pure _)

theorem switchCase : Takes switchCase :=
  .bind .typedValue fun (_, _) => .bind .comma fun _ => .bind .label fun _ => .pure _

theorem argument : Takes argument :=
  .bind .type fun _ => .bind .parameterAttributes fun _ => .bind (.argumentValue _) fun _ =>
    .pure _

theorem operandBundle : Takes operandBundle :=
  .bind (.string _) fun _ => .bind (.discard (.expect _ _)) fun _ =>
    .bind (.commaList _ .typedValue) fun _ => .pure _

end Takes

end Reader

end TestFocus
