import TestFocus.Proofs.Analysis.Agreement

namespace TestFocus

open Mutation

-- A definition with other attributes.
def Definition.withAttributes (d : Definition) (attributes : List String) : Definition :=
  { d with attributes }

-- A call with other attributes.
def Call.withAttributes (c : Call) (functionAttributes : List String) : Call :=
  { c with functionAttributes }

namespace Registry

-- What a reference stands for: the attributes of the group, or nothing when there is no such group.
def groupOf (r : Registry) (id : String) : List String :=
  (r.attributeGroups.get? id).getD []

-- Some references to groups are written out, and all else is kept.
inductive WrittenOut (r : Registry) : List String → List String → Prop where
  | nil : WrittenOut r [] []
  | keep (word : String) {given written : List String} (h : WrittenOut r given written) :
    WrittenOut r (word :: given) (word :: written)
  | reference {id : String} (hid : Text.startsWithChar id '#' = true) {given written : List String}
    (h : WrittenOut r given written) : WrittenOut r (id :: given) (r.groupOf id ++ written)

-- No group refers to a group, so there is nothing to expand in one.
def IsFlat (r : Registry) : Prop :=
  ∀ id group, r.attributeGroups.get? id = some group → r.expandAttributes group = group

variable {r : Registry}

theorem expandAttributes_append (r : Registry) (first second : List String) :
    r.expandAttributes (first ++ second) =
      r.expandAttributes first ++ r.expandAttributes second :=
  List.flatMap_append

theorem expandAttributes_reference {id : String} (hid : Text.startsWithChar id '#' = true)
    (given : List String) :
    r.expandAttributes (id :: given) = r.groupOf id ++ r.expandAttributes given := by
  rw [expandAttributes, List.flatMap_cons, groupOf]
  cases r.attributeGroups.get? id with
  | none => simp only [hid, if_true]; rfl
  | some group => rfl

theorem IsFlat.expandAttributes_groupOf (hflat : r.IsFlat) (id : String) :
    r.expandAttributes (r.groupOf id) = r.groupOf id := by
  rw [groupOf]
  cases hgroup : r.attributeGroups.get? id with
  | none => rfl
  | some group => exact hflat id group hgroup

-- Writing references out comes before expanding what is left of them.
theorem WrittenOut.expandAttributes_eq (hflat : r.IsFlat) {given written : List String}
    (h : WrittenOut r given written) :
    r.expandAttributes written = r.expandAttributes given := by
  induction h with
  | nil => rfl
  | keep word _ ih =>
    rw [expandAttributes, expandAttributes, List.flatMap_cons, List.flatMap_cons]
    exact congrArg _ ih
  | reference hid _ ih =>
    rw [expandAttributes_append, hflat.expandAttributes_groupOf, ih,
      expandAttributes_reference hid]

theorem isReadOnly_reference {id : String} (hid : Text.startsWithChar id '#' = true) :
    isReadOnly id = false := by
  have hhead : id.toList.head? = some '#' := by simpa [Text.startsWithChar] using hid
  obtain ⟨rest, hrest⟩ : ∃ rest, id.toList = '#' :: rest := by
    cases hlist : id.toList with
    | nil => simp [hlist] at hhead
    | cons c rest => exact ⟨rest, by simpa [hlist] using hhead⟩
  have hne {word : String} (hword : word.toList.head? ≠ some '#') : (id == word) = false := by
    rw [beq_eq_false_iff_ne]
    rintro rfl
    exact hword hhead
  have hmemory : Text.afterStart? id "memory(" = none := by
    simp [Text.afterStart?, hrest, List.isPrefixOf?]
  rw [isReadOnly, hne (by decide), hne (by decide), hmemory]
  rfl

-- Writing out only adds promises.
theorem WrittenOut.any_isReadOnly {given written : List String} (h : WrittenOut r given written)
    (hgiven : given.any isReadOnly = true) : written.any isReadOnly = true := by
  induction h with
  | nil => exact hgiven
  | keep word _ ih =>
    rw [List.any_cons, Bool.or_eq_true] at hgiven ⊢
    exact hgiven.imp_right ih
  | reference hid _ ih =>
    rw [List.any_cons, isReadOnly_reference hid, Bool.false_or] at hgiven
    rw [List.any_append, ih hgiven, Bool.or_true]

-- The definitions of the second registry have some of their references written out.
structure DefinesWrittenOut (r r' : Registry) : Prop where
  aliases : r.aliases = r'.aliases
  attributeGroups : r.attributeGroups = r'.attributeGroups
  definitions : ∀ name, Option.Rel
    (fun d d' => ∃ written, WrittenOut r d.attributes written ∧ d' = d.withAttributes written)
    (r.definitions.get? name) (r'.definitions.get? name)

variable {r' : Registry}

theorem DefinesWrittenOut.get? (h : DefinesWrittenOut r r') {α : Type} (read : Definition → α)
    (hread : ∀ d written, read (d.withAttributes written) = read d) (name : String) :
    (r.get? name).map read = (r'.get? name).map read := by
  have hdefinition := h.definitions (r.resolve name)
  rw [Registry.get?, Registry.get?, ← resolve_congr h.aliases]
  generalize r.definitions.get? (r.resolve name) = q, r'.definitions.get? (r.resolve name) = q'
    at hdefinition
  cases hdefinition with
  | none => rfl
  | some hd =>
    obtain ⟨written, -, rfl⟩ := hd
    exact congrArg some (hread _ written).symm

theorem DefinesWrittenOut.functionAttributes_eq (h : DefinesWrittenOut r r') (hflat : r.IsFlat)
    (name : String) : r'.functionAttributes name = r.functionAttributes name := by
  have hexpand (given : List String) : r'.expandAttributes given = r.expandAttributes given := by
    simp only [expandAttributes, h.attributeGroups]
  have hdefinition := h.definitions (r.resolve name)
  rw [functionAttributes, functionAttributes, hexpand, Registry.get?, Registry.get?,
    ← resolve_congr h.aliases]
  generalize r.definitions.get? (r.resolve name) = q, r'.definitions.get? (r.resolve name) = q'
    at hdefinition
  cases hdefinition with
  | none => rfl
  | some hd =>
    obtain ⟨written, hwritten, rfl⟩ := hd
    exact hwritten.expandAttributes_eq hflat

-- One definition written out, the others as they are.
theorem definesWrittenOut_define {d : Definition} (hd : r.definitions.get? d.name = some d)
    {written : List String} (h : WrittenOut r d.attributes written) :
    DefinesWrittenOut r (r.define (d.withAttributes written)) where
  aliases := rfl
  attributeGroups := rfl
  definitions name := by
    have hkept (given : List String) : WrittenOut r given given := by
      induction given with
      | nil => exact .nil
      | cons word given ih => exact .keep word ih
    rw [define, show (d.withAttributes written).name = d.name from rfl, Table.get?_insert]
    split
    · next hname =>
      rw [hname, hd]
      exact .some ⟨written, h, rfl⟩
    · cases r.definitions.get? name with
      | none => exact .none
      | some other => exact .some ⟨other.attributes, hkept _, rfl⟩

end Registry

namespace Program

variable {p p' : Program}

-- Programs with the same bodies that look the same without them give the same verdicts, whatever
-- the memo table holds.
theorem SameSurface.argumentVerdict_eq (hsame : p.SameSurface p')
    (hbody : ∀ name, p.body? name = p'.body? name) (hcalls : ∀ b, p.callsOf b = p'.callsOf b)
    (budget : Nat) (function register : String) :
    argumentVerdict p budget function register = argumentVerdict p' budget function register := by
  induction budget generalizing function register with
  | zero => rfl
  | succ budget ih =>
    have hask : argumentVerdict p budget = argumentVerdict p' budget := by
      funext function register
      exact ih function register
    have hanswer : callArgument p (argumentVerdict p budget) =
        callArgument p' (argumentVerdict p' budget) := by
      funext call index
      rw [hask]
      exact hsame.callArgument_eq _ call index
    simp only [argumentVerdict, ← hbody, ← hcalls, hanswer]

theorem surface_of_definesWrittenOut {r : Registry} (hflat : p.registry.IsFlat)
    (h : p.registry.DefinesWrittenOut r) : p.SameSurface { p with registry := r } where
  aliases := h.aliases
  readOnly name := by rw [h.functionAttributes_eq hflat]
  parameter name index := by
    have hparameters := congrArg (Option.bind · (·[index]?))
      (h.get? Definition.parameters (fun _ _ => rfl) name)
    simp only [Option.bind_map, Function.comp_def] at hparameters
    rw [hparameters]
    cases (r.get? name).bind (·.parameters[index]?) with
    | none => exact .none
    | some parameter => exact .some ⟨rfl, rfl⟩
  isAssertion := rfl
  isExcluded := rfl
  isAssertionType := rfl
  maxDepth := rfl

-- Definitions may have their references written out.
theorem classifyCallArgument_definesWrittenOut {r : Registry} (hflat : p.registry.IsFlat)
    (h : p.registry.DefinesWrittenOut r) (call : Call) (index depth : Nat) :
    { p with registry := r }.classifyCallArgument call index depth =
      p.classifyCallArgument call index depth := by
  have hsame := surface_of_definesWrittenOut hflat h
  have hbody (name : String) : p.body? name = { p with registry := r }.body? name := by
    simp only [body?, hsame.resolve_eq]
  have hcalls (b : Body) : p.callsOf b = { p with registry := r }.callsOf b := by
    simp only [callsOf, Registry.callSites,
      h.get? Definition.callSites (fun _ _ => rfl)]
  have hask : argumentVerdict p = argumentVerdict { p with registry := r } := by
    funext budget function register
    exact hsame.argumentVerdict_eq hbody hcalls budget function register
  rw [classifyCallArgument, classifyCallArgument, hask]
  exact (hsame.callArgument_eq _ call index).symm

section Call

variable {m : Type → Type} [Monad m] (p : Program) (inspect : String → String → m Verdict)
  {call : Call} {written : List String}

-- All that matters of the attributes of a call is whether one of them promises not to write.
theorem callArgument_eq_of_any
    (h : written.any isReadOnly = call.functionAttributes.any isReadOnly) (index : Nat) :
    callArgument p inspect (call.withAttributes written) index =
      callArgument p inspect call index := by
  simp only [callArgument, Call.withAttributes, h]
  rfl

-- The target of a copy is written to, whatever the call promises.
theorem callArgument_memoryIntrinsic
    (h : isMemoryIntrinsic (p.registry.resolve call.callee) = true) (index : Nat) :
    callArgument p inspect (call.withAttributes written) index =
      callArgument p inspect call index := by
  simp only [callArgument, Call.withAttributes, h, if_true]

theorem callArgument_of_readOnly (h : call.functionAttributes.any isReadOnly = true)
    (hmemory : isMemoryIntrinsic (p.registry.resolve call.callee) = false) (index : Nat) :
    callArgument p inspect call index = pure .inspector := by
  unfold callArgument
  cases call.arguments[index]? with
  | none => rfl
  | some argument =>
    simp only [hmemory, Bool.false_eq_true, if_false, h, Bool.true_or, if_true, ite_self]

end Call

-- References to attribute groups may be written out in definitions without a change of the verdict
-- on an argument. Written out in the call itself they change it where they bring the call's first
-- promise not to write, unless the argument was known not to be written to.
theorem classifyCallArgument_writtenOut (p : Program) (hflat : p.registry.IsFlat) {r : Registry}
    (hr : p.registry.DefinesWrittenOut r) (call : Call) {written : List String}
    (hcall : p.registry.WrittenOut call.functionAttributes written) (index depth : Nat)
    (m : Memo) :
    { p with registry := r }.classifyCallArgument call index depth =
        p.classifyCallArgument call index depth ∧
      (((p.classifyCallArgument (call.withAttributes written) index depth).run m).1 =
          ((p.classifyCallArgument call index depth).run m).1 ↔
        (written.any isReadOnly = true → call.functionAttributes.any isReadOnly = true ∨
          isMemoryIntrinsic (p.registry.resolve call.callee) = true ∨
          ((p.classifyCallArgument call index depth).run m).1 = .inspector)) := by
  refine ⟨classifyCallArgument_definesWrittenOut hflat hr call index depth, ?_⟩
  have hsame (h : written.any isReadOnly = call.functionAttributes.any isReadOnly) :
      p.classifyCallArgument (call.withAttributes written) index depth =
        p.classifyCallArgument call index depth := callArgument_eq_of_any p _ h index
  cases hwritten : written.any isReadOnly with
  | false =>
    have hgiven : call.functionAttributes.any isReadOnly = false := by
      by_contra hany
      rw [hcall.any_isReadOnly (by simpa using hany)] at hwritten
      cases hwritten
    simp [hsame (hwritten.trans hgiven.symm)]
  | true =>
    by_cases hgiven : call.functionAttributes.any isReadOnly = true
    · simp [hsame (hwritten.trans hgiven.symm), hgiven]
    by_cases hmemory : isMemoryIntrinsic (p.registry.resolve call.callee) = true
    · have heq : p.classifyCallArgument (call.withAttributes written) index depth =
          p.classifyCallArgument call index depth :=
        callArgument_memoryIntrinsic p _ hmemory index
      simp [heq, hmemory]
    · have hcallee : isMemoryIntrinsic (p.registry.resolve call.callee) = false := by
        simpa using hmemory
      have hinspector : p.classifyCallArgument (call.withAttributes written) index depth =
          pure .inspector := by
        rw [classifyCallArgument]
        apply callArgument_of_readOnly
        · exact hwritten
        · exact hcallee
      simp only [hinspector, StateT.run_pure, hgiven, hmemory, false_or, forall_const,
        Bool.false_eq_true]
      exact eq_comm

-- A function that promises not to write by way of a group, and a group that promises nothing.
def promisingLength (attributes : List String) : Definition :=
  { name := "@length", returnType := "i64", attributes
    parameters := [{ type := "ptr", attributes := [], register := "%0" }] }

def promising (attributes : List String) : Program where
  registry :=
    ((Registry.empty.addAttributeGroup "#0" ["nounwind", "memory(read)"]).addAttributeGroup "#1"
      ["nounwind"]).define (promisingLength attributes)
  bodies := ∅
  framework := .ofNames [] []
  maxDepth := 5

def measuring (callee : String) (functionAttributes : List String) : Call :=
  { (default : Call) with
    callee, functionAttributes
    arguments := [{ type := "ptr", attributes := [], value := "%1" }] }

theorem promising_isFlat (attributes : List String) : (promising attributes).registry.IsFlat := by
  intro id group hgroup
  simp only [promising, Registry.define, Registry.addAttributeGroup, Registry.empty,
    Table.get?_insert] at hgroup
  split at hgroup
  · cases hgroup
    rfl
  · split at hgroup
    · cases hgroup
      rfl
    · cases hgroup

theorem classifyCallArgument_writtenOut_promising :
    (promising ["noinline", "nounwind", "memory(read)"]).classifyCallArgument
        (measuring "@length" ["#1"]) 0 1 =
      (promising ["noinline", "#0"]).classifyCallArgument (measuring "@length" ["#1"]) 0 1 ∧
    (((promising ["noinline", "#0"]).classifyCallArgument
        (measuring "@length" ["nounwind"]) 0 1).run .empty).1 =
      (((promising ["noinline", "#0"]).classifyCallArgument
        (measuring "@length" ["#1"]) 0 1).run .empty).1 := by
  have hdefinition : (promising ["noinline", "#0"]).registry.WrittenOut ["noinline", "#0"]
      (["noinline"] ++ ["nounwind", "memory(read)"]) :=
    .keep "noinline" (.reference rfl .nil)
  have hdefinitions : (promising ["noinline", "#0"]).registry.DefinesWrittenOut
      (promising ["noinline", "nounwind", "memory(read)"]).registry :=
    Registry.definesWrittenOut_define (d := promisingLength ["noinline", "#0"]) rfl hdefinition
  have hcall : (promising ["noinline", "#0"]).registry.WrittenOut ["#1"] ["nounwind"] :=
    .reference rfl .nil
  obtain ⟨hsame, hverdict⟩ := classifyCallArgument_writtenOut (promising ["noinline", "#0"])
    (promising_isFlat _) hdefinitions (measuring "@length" ["#1"]) hcall 0 1 .empty
  exact ⟨hsame, hverdict.mpr (by decide)⟩

-- A call that promises not to write by way of a group is not believed.
example : (((promising []).classifyCallArgument (measuring "@strlen" ["#0"]) 0 1).run
      .empty).1 = .uncertain ∧
    (((promising []).classifyCallArgument (measuring "@strlen" ["nounwind", "memory(read)"])
      0 1).run .empty).1 = .inspector := by
  decide

end Program

end TestFocus
