import TestFocus.Proofs.Analysis.Agreement
import TestFocus.Proofs.Analysis.Horizon
import TestFocus.Proofs.Reading.HeaderClauses

namespace TestFocus

namespace FunctionSource

-- What the header says, if it can be read.
def definition? (source : FunctionSource) : Option Definition :=
  (Definition.parse source.header.text).toOption

def defines (source : FunctionSource) (name : String) : Bool :=
  source.definition?.any (·.name == name)

variable {source : FunctionSource} {d : Definition} {name : String}

theorem definition?_eq_some_iff :
    source.definition? = some d ↔ Definition.parse source.header.text = .ok d := by
  unfold definition?
  cases Definition.parse source.header.text <;> simp [Except.toOption]

theorem definition?_of_error {e : ParseError}
    (h : Definition.parse source.header.text = .error e) : source.definition? = none := by
  rw [definition?, h]
  rfl

-- A header has one name.
theorem eq_of_defines {other : String} (h : source.defines name = true)
    (h' : source.defines other = true) : name = other := by
  cases hd : source.definition? with
  | none => simp [defines, hd] at h
  | some d =>
    simp only [defines, hd, Option.any_some, beq_iff_eq] at h h'
    rw [← h, ← h']

end FunctionSource

namespace Analysis

-- The definitions of a name in a module, in the order of the text.
def definers (text name : String) : List FunctionSource :=
  (ModuleSource.split text).functions.filter (·.defines name)

end Analysis

namespace ModuleSource

-- The header of a definition that is not at its end.
def Place.header? : Place → Option SourceLine
  | outside => none
  | header line => some line
  | body line _ => some line

-- The lines on which the definitions begin, the unfinished one among them.
def beginnings (m : ModuleSource) (place : Place) : List Nat :=
  m.functions.map (·.header.number) ++ (place.header?.map (·.number)).toList

variable {m : ModuleSource} {place : Place} {number : Nat}

@[simp]
theorem beginnings_outside (m : ModuleSource) :
    m.beginnings .outside = m.functions.map (·.header.number) := by
  simp [beginnings, Place.header?]

@[simp]
theorem beginnings_header (m : ModuleSource) (line : SourceLine) :
    m.beginnings (.header line) = m.functions.map (·.header.number) ++ [line.number] := rfl

@[simp]
theorem beginnings_body (m : ModuleSource) (header : SourceLine) (lines : List SourceLine) :
    m.beginnings (.body header lines) = m.functions.map (·.header.number) ++ [header.number] := rfl

@[simp]
theorem beginnings_ofHeader (m : ModuleSource) (line : SourceLine) :
    m.beginnings (.ofHeader line) = m.functions.map (·.header.number) ++ [line.number] := by
  unfold Place.ofHeader
  split <;> rfl

@[simp]
theorem numbers_addFunction (m : ModuleSource) (header : SourceLine) (lines : List SourceLine) :
    (m.addFunction header lines).functions.map (·.header.number) =
      m.functions.map (·.header.number) ++ [header.number] := by
  simp [addFunction, closeHeader]

-- A line begins at most one definition.
theorem beginnings_add (m : ModuleSource) (place : Place) (number : Nat) (raw : String) :
    (m.add place number raw).1.beginnings (m.add place number raw).2 <+:
      m.beginnings place ++ [number] := by
  cases place with
  | outside =>
    simp only [add, addOutside]
    split
    · simp
    · split
      · simp
      · split <;> simp
  | header line => simp [add]
  | body header lines =>
    simp only [add]
    split <;> simp

theorem numbers_finish (m : ModuleSource) (place : Place) :
    (m.finish place).functions.map (·.header.number) = m.beginnings place := by
  cases place <;> simp [finish]

theorem pairwise_splitFrom (h : (m.beginnings place ++ [number]).Pairwise (· < ·))
    (raws : List String) :
    ((m.splitFrom place number raws).functions.map (·.header.number)).Pairwise (· < ·) := by
  induction raws generalizing m place number with
  | nil =>
    rw [splitFrom, numbers_finish]
    exact (List.pairwise_append.mp h).1
  | cons raw raws ih =>
    refine ih ?_
    have hstep := beginnings_add m place number raw
    have hnext := h.sublist hstep.sublist
    refine List.pairwise_append.mpr ⟨hnext, List.pairwise_singleton _ _, ?_⟩
    intro n hn n' hn'
    rw [List.mem_singleton] at hn'
    subst hn'
    rcases List.mem_append.mp (hstep.subset hn) with hmem | hmem
    · have := (List.pairwise_append.mp h).2.2 n hmem number (List.mem_singleton_self _)
      omega
    · rw [List.mem_singleton] at hmem
      omega

theorem nodup_functions (text : String) : (split text).functions.Nodup := by
  have hstart : (empty.beginnings .outside ++ [1]).Pairwise (· < ·) := by simp [empty]
  have hnumbers := pairwise_splitFrom hstart (Text.lines text)
  exact List.Nodup.of_map _ (hnumbers.imp Nat.ne_of_lt)

end ModuleSource

namespace Analysis

section Registration

variable {source : FunctionSource} {d : Definition}

theorem addDefinition_of_parse (h : Definition.parse source.header.text = .ok d)
    (state : Analysis × Table FunctionSource) :
    (addDefinition state source).1.registry = state.1.registry.define d ∧
      (addDefinition state source).2 = state.2.insertNew d.name source := by
  simp only [addDefinition, h]
  split <;> simp

theorem addDefinition_of_error {e : ParseError}
    (h : Definition.parse source.header.text = .error e)
    (state : Analysis × Table FunctionSource) :
    (addDefinition state source).1.registry = state.1.registry ∧
      (addDefinition state source).2 = state.2 := by
  simp [addDefinition, h, report]

theorem get?_addDefinitions (functions : List FunctionSource) (a : Analysis)
    (sources : Table FunctionSource) (name : String) :
    (functions.foldl addDefinition (a, sources)).2.get? name =
        (sources.get? name).or (functions.filter (·.defines name)).head? ∧
      (functions.foldl addDefinition (a, sources)).1.registry.definitions.get? name =
        ((functions.filter (·.defines name)).getLast?.bind (·.definition?)).or
          (a.registry.definitions.get? name) := by
  induction functions using List.reverseRecOn with
  | nil => simp
  | append_singleton functions source ih =>
    obtain ⟨hsource, hrecord⟩ := ih
    rw [List.foldl_concat, List.filter_append]
    cases hparse : Definition.parse source.header.text with
    | error e =>
      obtain ⟨hregistry, hsources⟩ := addDefinition_of_error hparse
        (functions.foldl addDefinition (a, sources))
      have hnone : [source].filter (·.defines name) = [] := by
        simp [FunctionSource.defines, FunctionSource.definition?_of_error hparse]
      rw [hregistry, hsources, hnone, List.append_nil]
      exact ⟨hsource, hrecord⟩
    | ok d =>
      obtain ⟨hregistry, hsources⟩ := addDefinition_of_parse hparse
        (functions.foldl addDefinition (a, sources))
      have hdefinition := FunctionSource.definition?_eq_some_iff.mpr hparse
      rw [hregistry, hsources, Registry.define, Table.get?_insertNew, Table.get?_insert, hsource,
        hrecord]
      by_cases hname : d.name = name
      · have hdefines : source.defines name = true := by
          simp [FunctionSource.defines, hdefinition, hname]
        simp [hdefines, hname, hdefinition]
      · have hdefines : source.defines name = false := by
          simp [FunctionSource.defines, hdefinition, hname]
        simp [hdefines, hname, Ne.symm hname]

-- The first definition of a name is the one that is scanned.
theorem get?_sourcesOf (text name : String) :
    (sourcesOf text).get? name = (definers text name).head? := by
  rw [sourcesOf, register, (get?_addDefinitions _ _ _ name).1]
  rfl

-- The last definition of a name is the one that is recorded.
theorem get?_registryOf (text name : String) :
    (registryOf text).definitions.get? name =
      (definers text name).getLast?.bind (·.definition?) := by
  rw [registryOf, register, (get?_addDefinitions _ _ _ name).2, (addAttributeGroups_frame _ _).1,
    (addAliases_frame _ _).1]
  exact Option.or_none

end Registration

section Module

variable {framework : Framework} {maxDepth : Nat} {text name : String}

theorem header_of_definition? {source : FunctionSource} {d : Definition}
    (h : source.definition? = some d) : d.header = d := by
  have hcalls := Definition.callSites_of_parse (FunctionSource.definition?_eq_some_iff.mp h)
  obtain ⟨⟩ := d
  cases hcalls
  rfl

-- The scans of bodies leave the headers as they are.
theorem get?_ofModule (framework : Framework) (maxDepth : Nat) (text name : String) :
    ((ofModule framework maxDepth text).registry.definitions.get? name).map (·.header) =
      (definers text name).getLast?.bind (·.definition?) := by
  obtain ⟨waiting, hsound⟩ := exists_sound_ofModule framework maxDepth text
  have hregistered : ((registryOf text).definitions.get? name).map (·.header) =
      (definers text name).getLast?.bind (·.definition?) := by
    rw [get?_registryOf]
    cases hrecord : (definers text name).getLast? with
    | none => rfl
    | some record =>
      cases hd : record.definition? with
      | none => simp [hd]
      | some d => simp [hd, header_of_definition? hd]
  cases hscanned : (ofModule framework maxDepth text).bodies.contains name with
  | false => rw [hsound.unscanned name hscanned, hregistered]
  | true =>
    obtain ⟨source, -, -, hrecord⟩ := hsound.scanned name hscanned
    rw [hrecord, Option.map_map]
    exact hregistered

-- Different definitions are different, also when they say the same.
theorem nodup_definers (text name : String) : (definers text name).Nodup :=
  (ModuleSource.nodup_functions text).filter _

theorem defines_of_mem_definers {source : FunctionSource} (h : source ∈ definers text name) :
    source.defines name = true :=
  (List.mem_filter.mp h).2

theorem length_eq_one_of_nodup {sources : List FunctionSource} (hnodup : sources.Nodup)
    {source : FunctionSource} (hfirst : sources.head? = some source)
    (hlast : sources.getLast? = some source) : sources.length = 1 := by
  match sources with
  | [] => cases hfirst
  | [_] => rfl
  | first :: second :: rest =>
    obtain rfl : first = source := Option.some.inj hfirst
    rw [List.getLast?_cons_cons] at hlast
    exact absurd (List.mem_of_getLast? hlast) (List.nodup_cons.mp hnodup).1

-- The last definition of one name is the first one of another when there is one name and one
-- definition.
theorem getLast?_definers_eq_head? {other : String} {source : FunctionSource}
    (h : (definers text name).head? = some source) :
    (definers text other).getLast? = some source ↔
      other = name ∧ (definers text name).length = 1 := by
  constructor
  · intro hlast
    obtain rfl : other = name := FunctionSource.eq_of_defines
      (defines_of_mem_definers (List.mem_of_getLast? hlast))
      (defines_of_mem_definers (List.mem_of_head? h))
    exact ⟨rfl, length_eq_one_of_nodup (nodup_definers text other) h hlast⟩
  · rintro ⟨rfl, hone⟩
    obtain ⟨first, hfirst⟩ := List.length_eq_one_iff.mp hone
    rw [hfirst] at h ⊢
    exact h

-- The record of a scanned function is that of the last definition of the name that it stands for,
-- and its body is that of the first definition of its own name. They belong together when the name
-- is no alias of another one and is defined once.
theorem record_and_body (framework : Framework) (maxDepth : Nat) (text : String) {name : String}
    (hname : name ∈ (ofModule framework maxDepth text).evaluated) :
    ∃ scanned, (definers text name).head? = some scanned ∧
      (∀ registry callGraph, (ofModule framework maxDepth text).bodies.get? name =
        some (Scan.run framework registry callGraph name scanned).body) ∧
      ((ofModule framework maxDepth text).registry.get? name).map (·.header) =
        (definers text ((registryOf text).resolve name)).getLast?.bind (·.definition?) ∧
      ((definers text ((registryOf text).resolve name)).getLast? = some scanned ↔
        (registryOf text).resolve name = name ∧ (definers text name).length = 1) := by
  obtain ⟨⟨waiting, hreached⟩, -⟩ := reached_ofModule framework maxDepth text
  obtain ⟨scanned, hscanned, hbody, -⟩ :=
    hreached.sound.scanned name (hreached.listed.mem_iff.mp hname)
  rw [get?_sourcesOf] at hscanned
  refine ⟨scanned, hscanned, fun registry callGraph => ?_, ?_, getLast?_definers_eq_head? hscanned⟩
  · rw [hbody, Scan.run_body]
  · rw [Registry.get?, hreached.sound.resolve_eq, get?_ofModule]

-- A test that is defined twice, with different results.
def definedTwice : String :=
  "define i8 @t() \x7b\n\x7d\ndefine i1 @t() \x7b\n\x7d\n"

theorem record_and_body_definedTwice :
    "@t" ∈ (ofModule (.ofNames ["@t"] []) 0 definedTwice).evaluated ∧
      ∃ scanned, (definers definedTwice "@t").head? = some scanned ∧
        (∀ registry callGraph, (ofModule (.ofNames ["@t"] []) 0 definedTwice).bodies.get? "@t" =
          some (Scan.run (.ofNames ["@t"] []) registry callGraph "@t" scanned).body) ∧
        ((ofModule (.ofNames ["@t"] []) 0 definedTwice).registry.get? "@t").map (·.header) =
          (definers definedTwice ((registryOf definedTwice).resolve "@t")).getLast?.bind
            (·.definition?) ∧
        ((definers definedTwice ((registryOf definedTwice).resolve "@t")).getLast? =
            some scanned ↔
          (registryOf definedTwice).resolve "@t" = "@t" ∧
            (definers definedTwice "@t").length = 1) := by
  have hname : "@t" ∈ (ofModule (.ofNames ["@t"] []) 0 definedTwice).evaluated := by
    decide +kernel
  exact ⟨hname, record_and_body (.ofNames ["@t"] []) 0 definedTwice hname⟩

-- The first one is scanned, and the last one is recorded.
example : (definers definedTwice "@t").map (·.header.number) = [1, 3] := by
  decide +kernel

end Module

end Analysis

end TestFocus
