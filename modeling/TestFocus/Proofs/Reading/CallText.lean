import TestFocus.Proofs.Reading.QualifierText
import TestFocus.Statement.Call

namespace TestFocus

open Lexer Text Piece Cursor

namespace Grammar

-- `ty attributes value`
structure Arg where
  type : Ty
  attributes : List (Attribute Keyword.parameterAttributes)
  value : Simple

def Arg.pieces (a : Arg) : List Piece :=
  a.type.pieces ++ space :: (Attribute.allBefore a.attributes ++ [word a.value.text])

def Arg.argument (a : Arg) : Argument :=
  { type := a.type.print, attributes := a.attributes.map (·.text), value := a.value.text }

-- `"tag"(ty value, ...)`
structure Bundle where
  tag : Quoted
  operands : List Typed

def Bundle.pieces (b : Bundle) : List Piece :=
  b.tag.piece :: punct "(" :: (commas (b.operands.map (·.pieces)) ++ [punct ")"])

def Bundle.bundle (b : Bundle) : OperandBundle :=
  { tag := String.ofList b.tag.body
    operands := b.operands.map fun o => (o.type.print, o.value.text) }

-- Bundles with a space before their list, or nothing.
def bundleList (bs : List Bundle) : List Piece :=
  if bs.isEmpty then []
  else space :: punct "[" :: space :: (commas (bs.map (·.pieces)) ++ [space, punct "]"])

structure Invocation where
  flags : List (Word [.fastMath])
  convention : Option Convention
  returnAttributes : List (Attribute Keyword.parameterAttributes)
  addressSpace : Option Nat
  returnType : Ty
  callee : Simple
  arguments : List Arg
  functionAttributes : List FunctionAttribute
  bundles : List Bundle

namespace Invocation

-- What stands before the type of a call.
def qualifiers (c : Invocation) : List Piece :=
  spaced (c.flags.map (·.text)) ++ (Convention.optional c.convention ++
    (Attribute.allBefore c.returnAttributes ++ optionalSpace c.addressSpace))

def pieces (c : Invocation) : List Piece :=
  c.qualifiers ++ (c.returnType.pieces ++ space :: word c.callee.text :: punct "(" ::
    (commas (c.arguments.map (·.pieces)) ++ punct ")" ::
      (FunctionAttribute.allAfter c.functionAttributes ++ bundleList c.bundles)))

-- What the call says.
def call (c : Invocation) (tail : Option String) : Call :=
  { tail
    fastMathFlags := c.flags.map (·.text)
    callingConvention := c.convention.map (·.text)
    returnAttributes := c.returnAttributes.map (·.text)
    addressSpace := c.addressSpace.map fun n => print (Grammar.addressSpace n)
    returnType := c.returnType.print
    callee := c.callee.text
    arguments := c.arguments.map (·.argument)
    functionAttributes := c.functionAttributes.map (·.text)
    operandBundles := c.bundles.map (·.bundle) }

end Invocation

theorem Arg.apart_pieces (a : Arg) : Apart a.pieces := by
  simp [Arg.pieces]

theorem Bundle.apart_pieces (b : Bundle) : Apart b.pieces := by
  have hoperands : ∀ ps ∈ b.operands.map (·.pieces), Apart ps := by simp
  simp [Bundle.pieces, b.tag.closed, apart_commas_append hoperands]

theorem apart_bundleList (bs : List Bundle) : Apart (bundleList bs) := by
  have hbundles : ∀ ps ∈ bs.map (·.pieces), Apart ps :=
    List.forall_mem_map.mpr fun b _ => b.apart_pieces
  unfold bundleList
  split <;> simp [apart_commas_append hbundles]

theorem detached_bundleList (bs : List Bundle) : Detached (bundleList bs) := by
  unfold bundleList
  split <;> simp

@[simp]
theorem Invocation.apart_pieces (c : Invocation) : Apart c.pieces := by
  have hflags : ∀ s ∈ c.flags.map (·.text), IsWord s := fun s => Word.isWord_of_mem_map
  have harguments : ∀ ps ∈ c.arguments.map (·.pieces), Apart ps :=
    List.forall_mem_map.mpr fun a _ => a.apart_pieces
  simp [pieces, qualifiers, apart_spaced_append hflags, apart_commas_append harguments,
    detached_bundleList, apart_bundleList]

end Grammar

namespace Reader

open Grammar

theorem isValueStart_simple (v : Simple) (read : List Piece) :
    isValueStart (placed read .word v.text) = true := by
  simp [isValueStart, placed, Token.isWord]

theorem argumentValue_between (ty : String) (v : Simple) (read rest : List Piece) :
    argumentValue ty (between read (word v.text :: rest)) =
      .ok v.text (between (read ++ [word v.text]) rest) := by
  simp [argumentValue, isValueStart_simple]

theorem argument_between (a : Arg) (read rest : List Piece) :
    argument (between read (a.pieces ++ rest)) =
      .ok a.argument (between (read ++ a.pieces) rest) := by
  simp [argument, Arg.pieces, Arg.argument, type_attributes, parameterAttributes_simple,
    argumentValue_between]

theorem arguments_between (as : List Arg) (read rest : List Piece) :
    arguments (between read (punct "(" :: (commas (as.map (·.pieces)) ++ punct ")" :: rest))) =
      .ok (as.map (·.argument))
        (between (read ++ punct "(" :: (commas (as.map (·.pieces)) ++ [punct ")"])) rest) := by
  have hopening (a : Arg) (rest : List Piece) :
      ∃ s ss, texts (a.pieces ++ rest) = s :: ss ∧ Ty.opens s = true := by
    obtain ⟨s, ss, hs, hopens⟩ := a.type.exists_opening
    exact ⟨s, _, by simp [Arg.pieces, hs]; rfl, hopens⟩
  simp only [arguments, bind_apply, discard_apply, expect_token]
  have hnil : texts [] = [] := rfl
  refine (untilClose_commas Arg.pieces Arg.argument as hnil (by decide) ?_ ?_ _ _).trans
    (by simp)
  · intro a _
    obtain ⟨s, ss, hs, hopens⟩ := hopening a []
    exact ⟨s, ss, by simpa using hs, ne_of_opens hopens (by decide)⟩
  · intro done a _ read rest
    obtain ⟨s, ss, hs, hopens⟩ := hopening a rest
    have hellipsis : (texts (a.pieces ++ rest)).head? ≠ some "..." := by
      simpa [hs] using ne_of_opens hopens (by decide)
    simp [eat_of_ne hellipsis, argument_between]

theorem operandBundle_between (b : Bundle) (read rest : List Piece) :
    operandBundle (between read (b.pieces ++ rest)) =
      .ok b.bundle (between (read ++ b.pieces) rest) := by
  have hclose : ")" ≠ "," := by decide
  have hnil : texts [] = [] := rfl
  have hopen : ∀ o ∈ b.operands, ∃ s ss, texts o.pieces = s :: ss ∧ s ≠ ")" := by
    intro o _
    obtain ⟨s, ss, hs, hopens⟩ := o.exists_opening
    exact ⟨s, ss, hs, ne_of_opens hopens (by decide)⟩
  have hoperands := commaList_commas Typed.pieces (fun o => (o.type.print, o.value.text)) b.operands
    hnil hclose hopen (fun o _ => typedValue_between o) (read ++ [b.tag.piece, punct "("]) rest
  simp at hoperands
  simp [operandBundle, Bundle.pieces, Bundle.bundle, hoperands, trimChar_quote b.tag.closed]

theorem operandBundles_between (bs : List Bundle) (read : List Piece) {rest : List Piece}
    (hrest : (texts rest).head? ≠ some "[") :
    operandBundles (between read (bundleList bs ++ rest)) =
      .ok (bs.map (·.bundle)) (between (read ++ bundleList bs) rest) := by
  cases bs with
  | nil => simp [operandBundles, bundleList, eat_of_ne hrest]
  | cons b bs =>
    have hclose : "]" ≠ "," := by decide
    have hspace : texts [space] = [] := rfl
    have hopen : ∀ b' ∈ b :: bs, ∃ s ss, texts b'.pieces = s :: ss ∧ s ≠ "]" := fun b' _ =>
      ⟨quote b'.tag.body, _, by simp [Bundle.pieces]; rfl, ne_of_head? (by simp [quote])⟩
    have hlist := commaList_commas Bundle.pieces Bundle.bundle (b :: bs) hspace hclose hopen
      (fun b _ => operandBundle_between b) (read ++ [space, punct "[", space]) rest
    simp at hlist
    simp [operandBundles, bundleList, hlist]

theorem callee_between (v : Simple) (read rest : List Piece) :
    callee (between read (word v.text :: rest)) =
      .ok v.text (between (read ++ [word v.text]) rest) := by
  have hasm : v.text ≠ "asm" := v.ne_of_not (by decide)
  have hconversion : Keyword.isConversion v.text = false :=
    v.contains_words (c := .conversion) (by decide)
  simp [callee, hasm, hconversion]

theorem endsAttributes_bundleList (bs : List Bundle) {rest : List Piece}
    (hrest : EndsAttributes rest) : EndsAttributes (bundleList bs ++ rest) := by
  cases bs with
  | nil => exact hrest
  | cons b bs =>
    rintro t ⟨⟩
    decide

theorem callBody_between (c : Invocation) (tail : Option String) (read : List Piece)
    {rest : List Piece} (hrest : EndsAttributes rest) (hbundle : (texts rest).head? ≠ some "[") :
    callBody tail (between read (c.pieces ++ rest)) =
      .ok (c.call tail) (between (read ++ c.pieces) rest) := by
  have hlacks {d : WordClass} (hd : d ∉ [.mark, .typeName]) (rest : List Piece) :
      Lacks d (texts (optionalSpace c.addressSpace ++ (c.returnType.pieces ++ rest))).head? := by
    simp only [List.mem_cons, List.not_mem_nil, or_false, not_or] at hd
    exact lacks_optionalSpace hd.1 _ (lacks_type hd.2 c.returnType rest)
  have hparen (rest : List Piece) :
      (texts (optionalSpace c.addressSpace ++ (c.returnType.pieces ++ rest))).head? ≠ some "(" :=
    head?_optionalSpace (P := (· ≠ some "(")) (by decide) _
      (head?_type_ne (by decide) c.returnType rest)
  have hflags (rest : List Piece) := fastMathFlags_between c.flags read
    (lacks_convention (by decide) c.convention
      (lacks_allBefore (by decide) c.returnAttributes (hlacks (by decide) rest)))
  have hconvention (read rest : List Piece) := callingConvention_between c.convention read
    (lacks_allBefore (d := .convention) (by decide) c.returnAttributes (hlacks (by decide) rest))
  have hattributes (read rest : List Piece) := parameterAttributes_between c.returnAttributes read
    (hlacks (d := .parameterAttribute) (by decide) rest) (hparen rest)
  have hspace (read rest : List Piece) := addressSpace_between c.addressSpace read
    (head?_type_ne (by decide) c.returnType rest)
  have hfunction (read : List Piece) := functionAttributes_between c.functionAttributes read
    (endsAttributes_bundleList c.bundles hrest)
  simp only [Invocation.pieces, Invocation.qualifiers, List.append_assoc, List.cons_append,
    callBody, bind_apply, hflags, hconvention, hattributes, hspace]
  simp [Invocation.call, callee_between, arguments_between, hfunction,
    operandBundles_between _ _ hbundle]

end Reader

end TestFocus
