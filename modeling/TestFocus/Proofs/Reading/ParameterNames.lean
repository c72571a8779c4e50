import TestFocus.Proofs.Reading.HeaderClauses
import Mathlib.Data.List.Nodup

namespace TestFocus

open Text

-- How a header writes a parameter.
inductive ParameterForm where
  | variadic
  | named (register : String)
  | unnamed
deriving Repr, DecidableEq

namespace ParameterForm

def name? : ParameterForm → Option String
  | named register => some register
  | _ => none

-- The registers that are written.
def names (forms : List ParameterForm) : List String :=
  forms.filterMap name?

-- The register of an unnamed parameter behind that many others.
def numbered (n : Nat) : String :=
  "%" ++ toString n

-- The registers of the parameters, `unnamed` more unnamed ones being in front of them.
def registersFrom (unnamed : Nat) : List ParameterForm → List String
  | [] => []
  | variadic :: forms => "..." :: registersFrom unnamed forms
  | named register :: forms => register :: registersFrom unnamed forms
  | ParameterForm.unnamed :: forms => numbered unnamed :: registersFrom (unnamed + 1) forms

end ParameterForm

namespace Reader

-- `ty [attributes] [%name]`
def parameterForm : Reader ParameterForm := do
  let _ ← type
  let _ ← parameterAttributes
  match (← get).peek? with
  | some token =>
    if token.isWord && startsWithChar token.text '%' then
      discard advance
      return .named token.text
    else return .unnamed
  | none => return .unnamed

def parameterForms : Reader (List ParameterForm) := do
  discard (expect "(" "'('")
  untilClose ")" fun done => do
    separator done
    if ← eat "..." then return done ++ [.variadic]
    else return done ++ [← parameterForm]

-- A header up to its parameters.
def signature : Reader (List ParameterForm) := do
  discard (expect "define" "'define'")
  let _ ← eatIf Keyword.isLinkage
  let _ ← eatIf Keyword.isPreemption
  let _ ← eatIf Keyword.isVisibility
  let _ ← eatIf Keyword.isStorageClass
  let _ ← callingConvention
  let _ ← parameterAttributes
  let _ ← type
  let _ ← functionName
  parameterForms

end Reader

namespace Definition

-- The registers of the parameters that are not the variable part of the list.
def registers (d : Definition) : List String :=
  (d.parameters.filter fun p => !p.isVariadic).map (·.register)

-- The register of each of these parameters leads to it.
def FindsParameters (d : Definition) : Prop :=
  ∀ i p, d.parameters[i]? = some p → p.isVariadic = false →
    d.parameterIndex? p.register = some i

end Definition

namespace ParameterForm

variable {forms : List ParameterForm}

@[simp]
theorem names_variadic : names (variadic :: forms) = names forms := rfl

@[simp]
theorem names_named (register : String) :
    names (named register :: forms) = register :: names forms := rfl

@[simp]
theorem names_unnamed : names (unnamed :: forms) = names forms := rfl

theorem registersFrom_append (k : Nat) (forms forms' : List ParameterForm) :
    registersFrom k (forms ++ forms') =
      registersFrom k forms ++ registersFrom (k + forms.count .unnamed) forms' := by
  induction forms generalizing k with
  | nil => simp [registersFrom]
  | cons form forms ih =>
    cases form with
    | variadic => simp [registersFrom, ih]
    | named register => simp [registersFrom, ih]
    | unnamed =>
      have hcount : k + 1 + forms.count unnamed = k + (forms.count unnamed + 1) := by omega
      simp [registersFrom, ih, hcount]

theorem numbered_injective : Function.Injective numbered := by
  intro m n h
  have hdigits : Nat.toDigits 10 m = Nat.toDigits 10 n := by
    simpa [numbered] using congrArg String.toList h
  have hvalue := congrArg (Nat.ofDigitChars 10 · 0) hdigits
  simpa only [Nat.ofDigitChars_ten_toDigits] using hvalue

theorem numbered_ne_variadic (n : Nat) : numbered n ≠ "..." := by
  intro h
  have hfirst := congrArg (startsWithChar · '%') h
  simp [numbered, startsWithChar] at hfirst

-- But for their order, the registers are those that are written and the numbers.
theorem perm_registersFrom (hnames : "..." ∉ names forms) (k : Nat) :
    ((registersFrom k forms).filter (· != "...")).Perm
      (names forms ++ (List.range' k (forms.count .unnamed)).map numbered) := by
  induction forms generalizing k with
  | nil => exact .nil
  | cons form forms ih =>
    cases form with
    | variadic => simpa [registersFrom] using ih (by simpa using hnames) k
    | named register =>
      rw [names_named, List.mem_cons, not_or] at hnames
      simpa [registersFrom, Ne.symm hnames.1] using ih hnames.2 k
    | unnamed =>
      have hrest := ih (by simpa using hnames) (k + 1)
      rw [registersFrom, List.filter_cons_of_pos (by simpa using numbered_ne_variadic k),
        names_unnamed, List.count_cons_self, List.range'_succ, List.map_cons]
      exact (hrest.cons _).trans List.perm_middle.symm

theorem nodup_registersFrom_iff (hvariadic : "..." ∉ names forms) (hnames : (names forms).Nodup) :
    ((registersFrom 0 forms).filter (· != "...")).Nodup ↔
      ∀ k < forms.count .unnamed, numbered k ∉ names forms := by
  have hnumbers : ((List.range' 0 (forms.count .unnamed)).map numbered).Nodup :=
    (List.nodup_range' 1).map numbered_injective
  rw [(perm_registersFrom hvariadic 0).nodup_iff, List.nodup_append']
  simp only [hnames, hnumbers, true_and, List.disjoint_right, List.mem_map, List.mem_range'_1]
  constructor
  · intro h k hk
    exact h ⟨k, by omega, rfl⟩
  · rintro h _ ⟨k, hk, rfl⟩
    exact h k (by omega)

end ParameterForm

namespace Reader

variable {α β γ δ : Type} {R : α → β → Prop} {c : Cursor}

-- Whatever the one reader returns, the other returns something related at the same place.
def Mirrors (R : α → β → Prop) (x : Reader α) (y : Reader β) (c : Cursor) : Prop :=
  ∀ a c', x c = .ok a c' → ∃ b, y c = .ok b c' ∧ R a b

namespace Mirrors

theorem refl (x : Reader α) : Mirrors Eq x x c :=
  fun a _ h => ⟨a, h, rfl⟩

theorem pure {a : α} {b : β} (h : R a b) : Mirrors R (pure a) (pure b) c := by
  rintro _ _ ⟨⟩
  exact ⟨b, rfl, h⟩

theorem bind {S : γ → δ → Prop} {x : Reader α} {y : Reader β} {f : α → Reader γ}
    {g : β → Reader δ} (hx : Mirrors R x y c)
    (hf : ∀ a b c', R a b → Mirrors S (f a) (g b) c') : Mirrors S (x >>= f) (y >>= g) c := by
  intro e c'' h
  rw [bind_apply] at h
  split at h
  · next a c' ha =>
    obtain ⟨b, hb, hR⟩ := hx a c' ha
    obtain ⟨d, hd, hS⟩ := hf a b c' hR e c'' h
    exact ⟨d, by rw [bind_apply, hb]; exact hd, hS⟩
  · cases h

-- The same is read first.
theorem first {S : γ → δ → Prop} {x : Reader α} {f : α → Reader γ} {g : α → Reader δ}
    (hf : ∀ a c', Mirrors S (f a) (g a) c') : Mirrors S (x >>= f) (x >>= g) c :=
  bind (refl x) (by rintro a _ c' rfl; exact hf a c')

theorem untilClose {R : List α → List β → Prop} {step : List α → Reader (List α)}
    {step' : List β → Reader (List β)} (hnil : R [] [])
    (hstep : ∀ done done' c, R done done' → Mirrors R (step done) (step' done') c)
    (close : String) : Mirrors R (untilClose close step) (untilClose close step') c := by
  have hrounds (rounds : Nat) (done : List α) (done' : List β) (c : Cursor) (h : R done done') :
      Mirrors R (untilCloseFrom close step rounds done) (untilCloseFrom close step' rounds done')
        c := by
    induction rounds generalizing done done' c with
    | zero => exact pure h
    | succ rounds ih =>
      refine first fun isClosed c' => ?_
      cases isClosed with
      | true => exact pure h
      | false => exact bind (hstep done done' c' h) ih
  exact first fun _ c' => hrounds _ [] [] c' hnil

end Mirrors

open ParameterForm

-- The parameters read so far, each with a mark when its register was made up, and how they are
-- written.
structure Written (read : List (Parameter × Bool)) (forms : List ParameterForm) : Prop where
  registers : read.map (·.1.register) = registersFrom 0 forms
  unnamed : read.countP (·.2) = forms.count .unnamed
  isEmpty : read.isEmpty = forms.isEmpty
  locals : ∀ register ∈ names forms, startsWithChar register '%' = true

theorem Written.nil : Written [] [] :=
  ⟨rfl, rfl, rfl, by simp [names]⟩

theorem Written.snoc {read : List (Parameter × Bool)} {forms : List ParameterForm}
    (h : Written read forms) {p : Parameter × Bool} {form : ParameterForm}
    (hregister : [p.1.register] = registersFrom (read.countP (·.2)) [form])
    (hmark : p.2 = (form == .unnamed))
    (hlocal : ∀ register ∈ form.name?, startsWithChar register '%' = true) :
    Written (read ++ [p]) (forms ++ [form]) where
  registers := by
    rw [List.map_append, registersFrom_append, h.registers, Nat.zero_add, ← h.unnamed]
    exact congrArg _ hregister
  unnamed := by
    simp [h.unnamed, hmark, List.countP_cons, List.count_cons]
  isEmpty := by cases read <;> cases forms <;> rfl
  locals := by
    intro register hmem
    rw [names, List.filterMap_append, List.mem_append] at hmem
    rcases hmem with hmem | hmem
    · exact h.locals register hmem
    · exact hlocal register (by simpa using hmem)

theorem mirrors_parameter {read : List (Parameter × Bool)} {forms : List ParameterForm}
    (h : Written read forms) (c : Cursor) :
    Mirrors (fun p form => Written (read ++ [p]) (forms ++ [form]))
      (parameter (read.countP (·.2))) parameterForm c := by
  refine .first fun ty _ => .first fun attributes _ => .first fun c' _ => ?_
  have hunnamed : Written
      (read ++ [({ type := ty, attributes, register := numbered (read.countP (·.2)) }, true)])
      (forms ++ [.unnamed]) :=
    h.snoc rfl rfl (by simp [name?])
  cases c'.peek? with
  | none => exact .pure hunnamed
  | some token =>
    simp only
    split
    · next hlocal =>
      rw [Bool.and_eq_true] at hlocal
      refine .first fun _ _ => .pure (h.snoc rfl rfl ?_)
      rintro _ ⟨⟩
      exact hlocal.2
    · exact .pure hunnamed

theorem mirrors_parameters (c : Cursor) :
    Mirrors (fun ps forms => ps.map (·.register) = registersFrom 0 forms ∧
        ∀ register ∈ names forms, startsWithChar register '%' = true)
      parameters parameterForms c := by
  refine .first fun _ c => ?_
  have hlist : Mirrors Written
      (Reader.untilClose ")" fun done => do
        separator done
        if ← eat "..." then return done ++ [(Parameter.variadic, false)]
        else return done ++ [← parameter (done.countP (·.2))])
      (Reader.untilClose ")" fun done => do
        separator done
        if ← eat "..." then return done ++ [.variadic]
        else return done ++ [← parameterForm]) c := by
    refine .untilClose .nil (fun read forms c h => ?_) ")"
    have hseparator : separator read = separator forms := by simp only [separator, h.isEmpty]
    rw [hseparator]
    refine .first fun _ _ => .first fun isVariadic c => ?_
    cases isVariadic with
    | true => exact .pure (h.snoc rfl rfl (by simp [name?]))
    | false => exact .bind (mirrors_parameter h c) fun _ _ _ hnext => .pure hnext
  intro ps c' hread
  rw [bind_apply] at hread
  split at hread
  · next read c'' hparameters =>
    cases hread
    obtain ⟨forms, hforms, hwritten⟩ := hlist read _ hparameters
    exact ⟨forms, hforms, by simpa [Function.comp_def] using hwritten.registers, hwritten.locals⟩
  · cases hread

-- From the same place, whatever the one reader returns, the other returns something related.
def Foretells (R : α → β → Prop) (x : Reader α) (y : Reader β) (c : Cursor) : Prop :=
  ∀ a c', x c = .ok a c' → ∃ b c'', y c = .ok b c'' ∧ R a b

theorem Foretells.first {R : β → γ → Prop} {x : Reader α} {f : α → Reader β} {g : α → Reader γ}
    (hf : ∀ a c', Foretells R (f a) (g a) c') : Foretells R (x >>= f) (x >>= g) c := by
  intro b c'' h
  rw [bind_apply] at h
  split at h
  · next a c' ha =>
    obtain ⟨e, after, hg, hR⟩ := hf a c' b c'' h
    exact ⟨e, after, by rw [bind_apply, ha]; exact hg, hR⟩
  · cases h

theorem foretells_header (c : Cursor) :
    Foretells (fun d forms => d.parameters.map (·.register) = registersFrom 0 forms ∧
        ∀ register ∈ names forms, startsWithChar register '%' = true)
      header signature c := by
  iterate 9 refine .first fun _ _ => ?_
  intro d c' hread
  rw [bind_apply] at hread
  split at hread
  · next ps after hparameters =>
    obtain ⟨forms, hforms, hregisters, hlocals⟩ := mirrors_parameters _ ps after hparameters
    have hkept : d.parameters = ps := by
      refine (?_ : Gives (·.parameters = ps) _ after) d c' hread
      iterate 4 refine .bind fun _ _ _ => ?_
      refine .bind fun d _ hd => .bind fun _ _ _ => .pure ?_
      exact (gives_headerClauses _ _ _ d _ hd).parameters
    exact ⟨forms, after, hforms, by rwa [hkept], hlocals⟩
  · cases hread

end Reader

namespace Definition

open ParameterForm

theorem exists_forms_of_parse {text : String} {d : Definition} (h : Definition.parse text = .ok d) :
    ∃ forms, Reader.signature.parse text = .ok forms ∧
      d.parameters.map (·.register) = registersFrom 0 forms ∧
        ∀ register ∈ names forms, startsWithChar register '%' = true := by
  obtain ⟨tokens, htokens, hread⟩ :=
    Reader.exists_tokens_of_parse Reader.Forward.header Reader.Exhausts.header h
  obtain ⟨forms, c, hforms, hregisters⟩ := Reader.foretells_header _ d _ hread
  refine ⟨forms, ?_, hregisters⟩
  simp [Reader.parse, Cursor.ofText, htokens, hforms, bind, Except.bind, Except.map]

variable (d : Definition)

theorem registers_eq :
    d.registers = (d.parameters.map (·.register)).filter (· != "...") := by
  rw [registers, List.filter_map]
  rfl

theorem nodup_registers_iff_pairwise : d.registers.Nodup ↔
    d.parameters.Pairwise fun p q => p.isVariadic = false → q.isVariadic = false →
      p.register ≠ q.register := by
  rw [registers, List.Nodup, List.pairwise_map, List.pairwise_filter]
  simp

-- Registers that differ lead to their parameters, and only these do.
theorem nodup_registers_iff : d.registers.Nodup ↔ d.FindsParameters := by
  rw [nodup_registers_iff_pairwise, List.pairwise_iff_getElem]
  constructor
  · intro h i p hp hvariadic
    obtain ⟨hi, rfl⟩ := List.getElem?_eq_some_iff.mp hp
    rw [parameterIndex?, List.findIdx?_eq_some_iff_getElem]
    refine ⟨hi, beq_self_eq_true _, fun j hj hsame => ?_⟩
    rw [beq_iff_eq] at hsame
    have hvariadic' : d.parameters[j].isVariadic = false := by
      rwa [Parameter.isVariadic, hsame]
    exact h j i _ hi hj hvariadic' hvariadic hsame
  · intro h i j hi hj hij hvariadic hvariadic' hsame
    have hfirst := h i _ (List.getElem?_eq_getElem hi) hvariadic
    have hsecond := h j _ (List.getElem?_eq_getElem hj) hvariadic'
    rw [← hsame, hfirst, Option.some.injEq] at hsecond
    omega

end Definition

-- When the registers that a header writes differ, those of all its parameters do, and each leads to
-- its parameter, unless one that is written is the number of a parameter without a name.
theorem Definition.registers_nodup_iff {text : String} {d : Definition}
    (h : Definition.parse text = .ok d) :
    ∃ forms, Reader.signature.parse text = .ok forms ∧
      d.parameters.map (·.register) = ParameterForm.registersFrom 0 forms ∧
        ((ParameterForm.names forms).Nodup →
          (d.registers.Nodup ↔
            ∀ k < forms.count .unnamed, ParameterForm.numbered k ∉ ParameterForm.names forms) ∧
          (d.registers.Nodup ↔ d.FindsParameters)) := by
  obtain ⟨forms, hforms, hregisters, hlocals⟩ := exists_forms_of_parse h
  have hvariadic : "..." ∉ ParameterForm.names forms := fun hmem => by
    have hlocal := hlocals "..." hmem
    cases hlocal
  refine ⟨forms, hforms, hregisters, fun hnames => ⟨?_, d.nodup_registers_iff⟩⟩
  rw [d.registers_eq, hregisters]
  exact ParameterForm.nodup_registersFrom_iff hvariadic hnames

-- Parameters with and without names, whose registers differ.
def mixedDefinition : Definition :=
  { name := "@f", returnType := "void"
    parameters := [⟨"i32", [], "%x"⟩, ⟨"ptr", ["noundef"], "%0"⟩, ⟨"i8", [], "%2"⟩,
      ⟨"i64", [], "%1"⟩, .variadic] }

theorem Definition.registers_nodup_iff_mixed :
    ∃ forms, Reader.signature.parse "define void @f(i32 %x, ptr noundef, i8 %2, i64, ...)" =
        .ok forms ∧
      mixedDefinition.parameters.map (·.register) = ParameterForm.registersFrom 0 forms ∧
        ((ParameterForm.names forms).Nodup →
          (mixedDefinition.registers.Nodup ↔
            ∀ k < forms.count .unnamed, ParameterForm.numbered k ∉ ParameterForm.names forms) ∧
          (mixedDefinition.registers.Nodup ↔ mixedDefinition.FindsParameters)) := by
  have hparse : Definition.parse "define void @f(i32 %x, ptr noundef, i8 %2, i64, ...)" =
      .ok mixedDefinition := by
    decide +kernel
  exact registers_nodup_iff hparse

-- The number of the second parameter is the name of the first one.
example : (Definition.parse "define void @f(i32 %0, i32)").toOption.map Definition.registers =
    some ["%0", "%0"] := by
  decide +kernel

end TestFocus
