import TestFocus.Proofs.Reading.CallText
import TestFocus.Proofs.Reading.MemoryText
import TestFocus.Proofs.Reading.OperatorText

namespace TestFocus

open Lexer Text Piece Cursor

namespace Grammar

-- `ty value, label %dest`
structure Case where
  operand : Typed
  target : Simple

def Case.pieces (c : Case) : List Piece :=
  c.operand.pieces ++ punct "," :: space :: labelled c.target

def Case.switchCase (c : Case) : SwitchCase :=
  { type := c.operand.type.print, value := c.operand.value.text, label := c.target.text }

inductive Control where
  | ret (type : Ty) (value : Option Simple) (has_value : value.isSome ↔ type.print ≠ "void")
  | jump (target : Simple)
  | branch (condition ifTrue ifFalse : Simple)
  | switch (value : Typed) (default : Simple) (cases : List Case)
  | indirectBranch (address : Typed) (destinations : List Simple)
  | invoke (site : Invocation) (normal unwind : Simple)
  | callBranch (site : Invocation) (fallthrough : Simple) (indirect : List Simple)
  | resume (value : Typed)
  | unreachable
  | call (tail : Option (Word [.tail])) (site : Invocation)

namespace Control

def tail : Control → Option (Word [.tail])
  | call tail _ => tail
  | _ => none

def keyword : Control → String
  | ret _ _ _ => "ret"
  | jump _ | branch _ _ _ => "br"
  | switch _ _ _ => "switch"
  | indirectBranch _ _ => "indirectbr"
  | invoke _ _ _ => "invoke"
  | callBranch _ _ _ => "callbr"
  | resume _ => "resume"
  | unreachable => "unreachable"
  | call _ _ => "call"

def operands : Control → List Piece
  | ret type value _ => space :: (type.pieces ++ led (value.toList.map (·.text)))
  | jump target => space :: labelled target
  | branch condition ifTrue ifFalse =>
    space :: commas [Typed.pieces ⟨.integer 1, condition⟩, labelled ifTrue, labelled ifFalse]
  | switch value default cases =>
    space :: (commas [value.pieces, labelled default] ++ space :: punct "[" :: space ::
      (cases.flatMap (fun c => c.pieces ++ [space]) ++ [punct "]"]))
  | indirectBranch address destinations =>
    space :: (address.pieces ++ punct "," :: space :: punct "[" ::
      (commas (destinations.map labelled) ++ [punct "]"]))
  | invoke site normal unwind =>
    space :: (site.pieces ++ space :: word "to" :: space :: (labelled normal ++
      space :: word "unwind" :: space :: labelled unwind))
  | callBranch site fallthrough indirect =>
    space :: (site.pieces ++ space :: word "to" :: space :: (labelled fallthrough ++
      space :: punct "[" :: (commas (indirect.map labelled) ++ [punct "]"])))
  | resume value => space :: value.pieces
  | unreachable => []
  | call _ site => space :: site.pieces

-- What the statement says.
def statement : Control → Statement
  | ret type value _ => .ret type.print (value.map (·.text))
  | jump target => .branch none target.text none
  | branch condition ifTrue ifFalse => .branch (some condition.text) ifTrue.text (some ifFalse.text)
  | switch value default cases =>
    .switch value.type.print value.value.text default.text
      (cases.map (·.switchCase))
  | indirectBranch address destinations =>
    .indirectBranch address.type.print address.value.text (destinations.map (·.text))
  | invoke site normal unwind => .invoke (site.call none) normal.text unwind.text
  | callBranch site fallthrough indirect =>
    .callBranch (site.call none) fallthrough.text (indirect.map (·.text))
  | resume value => .resume value.type.print value.value.text
  | unreachable => .unreachable
  | call tail site => .call (site.call (tail.map (·.text)))

def sentence (c : Control) : Sentence :=
  { tail := c.tail, keyword := c.keyword, operands := c.operands }

theorem apart_cases (cases : List Case) (ps : List Piece) :
    Apart (cases.flatMap (fun c => c.pieces ++ [space]) ++ ps) ↔ Apart ps := by
  induction cases with
  | nil => simp
  | cons c cases ih =>
    have hc : Apart c.pieces := by simp [Case.pieces]
    simp [hc, ih]

theorem apart_operands (c : Control) : Apart c.operands := by
  have hunwind : IsWord "unwind" := isWord_ofList rfl
  cases c with
  | ret type value has_value => cases value <;> simp [operands]
  | jump target => simp [operands]
  | branch condition ifTrue ifFalse => simp [operands]
  | switch value default cases => simp [operands, apart_cases]
  | indirectBranch address destinations => simp [operands]
  | invoke site normal unwind => simp [operands, isWord_to, hunwind]
  | callBranch site fallthrough indirect => simp [operands, isWord_to]
  | resume value => simp [operands]
  | unreachable => simp [operands]
  | call tail site => simp [operands]

end Control

end Grammar

namespace Reader

open Grammar

theorem switchCases_between (cases : List Case) (read rest : List Piece) :
    untilClose "]" (fun done => return done ++ [← switchCase])
        (between read (cases.flatMap (fun c => c.pieces ++ [space]) ++ punct "]" :: rest)) =
      .ok (cases.map (·.switchCase))
        (between (read ++ (cases.flatMap (fun c => c.pieces ++ [space]) ++ [punct "]"])) rest) := by
  have hlaid (isFirst : Bool) : laid (fun _ c => c.pieces ++ [space]) isFirst cases =
      cases.flatMap fun c => c.pieces ++ [space] := by
    induction cases generalizing isFirst with
    | nil => rfl
    | cons c cases ih => simp [laid, ih]
  have hopen (c : Case) : ∃ s ss, texts (c.pieces ++ [space]) = s :: ss ∧ s ≠ "]" := by
    obtain ⟨s, ss, hs, hopens⟩ := c.operand.exists_opening
    exact ⟨s, _, by simp [Case.pieces, hs]; rfl, ne_of_opens hopens (by decide)⟩
  have hstep (done : List SwitchCase) (c : Case) (read rest : List Piece) :
      (do return done ++ [← switchCase] : Reader (List SwitchCase))
          (between read (c.pieces ++ [space] ++ rest)) =
        .ok (done ++ [c.switchCase]) (between (read ++ (c.pieces ++ [space])) rest) := by
    simp [switchCase, Case.pieces, Case.switchCase]
  have hnil : texts [] = [] := rfl
  rw [← hlaid true]
  refine untilClose_laid (fun done c _ read rest => ?_) (fun _ c _ => ?_) hnil read rest
  · exact hstep done c read rest
  · exact hopen c

theorem labels_between (targets : List Simple) (read rest : List Piece) :
    commaList "]" label
        (between read (commas (targets.map labelled) ++ punct "]" :: rest)) =
      .ok (targets.map (·.text))
        (between (read ++ (commas (targets.map labelled) ++ [punct "]"])) rest) := by
  have hnil : texts [] = [] := rfl
  refine (commaList_commas labelled Simple.text targets hnil (by decide) (fun v _ => ?_)
    (fun v _ => label_between v) read rest).trans (by simp)
  exact ⟨"label", [v.text], by simp [labelled], by decide⟩

theorem endsAttributes_trailing (notes : List Note) : EndsAttributes (trailing notes) := by
  cases notes with
  | nil => rintro t ⟨⟩
  | cons n notes =>
    rintro t ⟨⟩
    decide

end Reader

namespace Grammar

open Reader

theorem Control.reads (c : Control) : ∃ reader,
    c.statement.kind.reader? c.keyword (c.tail.map (·.text)) = some reader ∧
      ∀ read notes, reader (between read (c.operands ++ trailing notes)) =
        .ok c.statement (between (read ++ c.operands) (trailing notes)) := by
  have hto (rest : List Piece) : EndsAttributes (space :: word "to" :: rest) := by
    rintro t ⟨⟩
    decide
  have hbundle (rest : List Piece) : (texts (space :: word "to" :: rest)).head? ≠ some "[" := by
    simp
  have hcall (site : Invocation) (read rest : List Piece) :=
    callBody_between site none read (hto rest) (hbundle rest)
  cases c with
  | ret type value has_value =>
    refine ⟨_, rfl, fun read notes => ?_⟩
    cases value with
    | none =>
      have hvoid : type.print = "void" := by simpa using has_value
      simp [operands, statement, Reader.ret, type_trailing, hvoid]
    | some v =>
      have hvoid : type.print ≠ "void" := by simpa using has_value
      simp [operands, statement, Reader.ret, hvoid]
  | jump target =>
    refine ⟨_, rfl, fun read notes => ?_⟩
    have hlabel := label_between target (read ++ [space]) (trailing notes)
    simp [labelled] at hlabel
    simp [operands, statement, Reader.branch, labelled, hlabel]
  | branch condition ifTrue ifFalse =>
    refine ⟨_, rfl, fun read notes => ?_⟩
    have hnext (read ps : List Piece) :
        (between read (Typed.pieces ⟨.integer 1, condition⟩ ++ ps)).nextIs "label" = false := by
      have hopens : "i" ++ Nat.repr 1 ≠ "label" := by decide
      simp [Typed.pieces, Ty.pieces, hopens]
    simp only [operands, commas_cons, commaed_cons, commaed_nil, List.append_nil, List.cons_append,
      List.append_assoc, between_gap, statement, Reader.branch, bind_apply, get_apply, hnext]
    simp
  | switch value default cases =>
    refine ⟨_, rfl, fun read notes => ?_⟩
    simp [-bind_pure_comp, operands, statement, Reader.switch, switchCases_between]
  | indirectBranch address destinations =>
    refine ⟨_, rfl, fun read notes => ?_⟩
    simp [operands, statement, Reader.indirectBranch, labels_between]
  | invoke site normal unwind =>
    refine ⟨_, rfl, fun read notes => ?_⟩
    simp [operands, statement, Reader.invoke, hcall]
  | callBranch site fallthrough indirect =>
    refine ⟨_, rfl, fun read notes => ?_⟩
    simp [operands, statement, Reader.callBranch, hcall, labels_between]
  | resume value =>
    refine ⟨_, rfl, fun read notes => ?_⟩
    simp [operands, statement, Reader.resume]
  | unreachable =>
    refine ⟨_, rfl, fun read notes => ?_⟩
    simp [operands, statement]
  | call tail site =>
    refine ⟨_, rfl, fun read notes => ?_⟩
    have hbracket := head?_trailing (P := (· ≠ some "[")) (by simp) (by decide) notes
    have hbody (read : List Piece) := callBody_between site (tail.map (·.text)) read
      (endsAttributes_trailing notes) hbracket
    simp [operands, statement, Control.tail, Reader.call, hbody]

theorem Control.ofKeyword?_keyword (c : Control) :
    InstructionKind.ofKeyword? c.keyword = some c.statement.kind := by
  open InstructionKind in
  cases c with
  | ret => exact ofKeyword?_of_mem ("ret", .ret) (by decide)
  | jump | branch => exact ofKeyword?_of_mem ("br", .branch) (by decide)
  | switch => exact ofKeyword?_of_mem ("switch", .switch) (by decide)
  | indirectBranch => exact ofKeyword?_of_mem ("indirectbr", .indirectBranch) (by decide)
  | invoke => exact ofKeyword?_of_mem ("invoke", .invoke) (by decide)
  | callBranch => exact ofKeyword?_of_mem ("callbr", .callBranch) (by decide)
  | resume => exact ofKeyword?_of_mem ("resume", .resume) (by decide)
  | unreachable => exact ofKeyword?_of_mem ("unreachable", .unreachable) (by decide)
  | call => exact ofKeyword?_of_mem ("call", .call) (by decide)

theorem Control.means (c : Control) : c.sentence.Means c.statement := by
  refine ⟨?_, c.apart_operands, ?_, c.ofKeyword?_keyword, c.reads⟩
  · cases c <;> simp [sentence, tail, keyword]
  · cases c <;> simp [sentence, operands]

inductive Phrase where
  | control (c : Control)
  | memory (m : Memory)
  | computation (c : Computation)

namespace Phrase

def sentence : Phrase → Sentence
  | control c => c.sentence
  | memory m => m.sentence
  | computation c => c.sentence

def statement : Phrase → Statement
  | control c => c.statement
  | memory m => m.statement
  | computation c => c.statement

-- The line of a statement, with the register that it defines and the notes behind it.
def print (p : Phrase) (assignee : Option Name) (notes : List Note) : String :=
  Piece.print (p.sentence.line assignee notes)

theorem means (p : Phrase) : p.sentence.Means p.statement := by
  cases p with
  | control c => exact c.means
  | memory m => exact m.means
  | computation c => exact c.means

end Phrase

end Grammar

-- Reading a line undoes writing it, for every statement, register and sequence of notes.
theorem Instruction.parse_print (p : Grammar.Phrase) (assignee : Option Grammar.Name)
    (notes : List Grammar.Note) :
    Instruction.parse (p.print assignee notes) =
      .ok { assignee := assignee.map (·.after '%'), kind := p.statement.kind,
            statement := some p.statement } :=
  Reader.parse_line p.means assignee notes

example :
    (Grammar.Phrase.memory (.load true false (.integer 32)
        ⟨.pointer none, .register (.bare ['p'] (by decide) (by decide))⟩ ⟨none, []⟩)).print
      (some (.bare ['1'] (by decide) (by decide)))
      [.align 4, .attachment (.bare "dbg".toList (by decide) (by decide)) 7] =
    "%1 = load volatile i32, ptr %p, align 4, !dbg !7" := by
  decide

end TestFocus
