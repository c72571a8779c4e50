import TestFocus.Analysis.Basic
import TestFocus.Proofs.Analysis.AliasChain
import TestFocus.Proofs.Analysis.ScanFrame

namespace TestFocus

-- Calls that the analysis does not follow.
def Framework.stopsAt (framework : Framework) (callee name : String) : Bool :=
  framework.isAssertion callee || framework.isAssertion name || framework.isExcluded name

namespace Analysis

section Registration

-- What is known of a module before any body is scanned.
structure Registered (a : Analysis) (sources : Table FunctionSource) : Prop where
  bodies : a.bodies = ∅
  tests : a.tests = []
  names : a.registry.names.Nodup
  defined : ∀ name, sources.contains name → a.registry.definitions.contains name
  callGraph : a.callGraph.WellFormed

theorem registered_addAliases (lines : List SourceLine) {a : Analysis} (h : Registered a ∅) :
    Registered (lines.foldl addAlias a) ∅ := by
  induction lines generalizing a with
  | nil => exact h
  | cons line lines ih =>
    apply ih
    unfold addAlias
    split
    · exact { h with }
    · exact { h with }

theorem registered_addAttributeGroups (lines : List SourceLine) {a : Analysis}
    (h : Registered a ∅) : Registered (lines.foldl addAttributeGroup a) ∅ := by
  induction lines generalizing a with
  | nil => exact h
  | cons line lines ih =>
    apply ih
    unfold addAttributeGroup
    split
    · exact { h with }
    · exact { h with }

theorem Registered.define {a : Analysis} {sources : Table FunctionSource} (h : Registered a sources)
    (d : Definition) (source : FunctionSource) :
    Registered { a with registry := a.registry.define d } (sources.insertNew d.name source) where
  bodies := h.bodies
  tests := h.tests
  names := Table.nodup_keys_insert h.names d.name d
  defined := by
    intro name hname
    rw [Table.contains_insertNew, Bool.or_eq_true] at hname
    rw [Registry.define, Table.contains_insert, Bool.or_eq_true]
    exact hname.imp_right (h.defined name)
  callGraph := h.callGraph

theorem registered_addDefinitions (functions : List FunctionSource) {a : Analysis}
    {sources : Table FunctionSource} (h : Registered a sources) :
    Registered (functions.foldl addDefinition (a, sources)).1
      (functions.foldl addDefinition (a, sources)).2 := by
  induction functions generalizing a sources with
  | nil => exact h
  | cons source functions ih =>
    rw [List.foldl_cons]
    simp only [addDefinition]
    split
    · next d _ =>
      apply ih
      have hdefine := h.define d source
      split
      · exact { hdefine with callGraph := hdefine.callGraph.markStart d.name }
      · exact hdefine
    · exact ih { h with }

theorem registered_register (m : ModuleSource) :
    Registered (register m).1 (register m).2 := by
  apply registered_addDefinitions
  apply registered_addAttributeGroups
  apply registered_addAliases
  exact
    { bodies := rfl
      tests := rfl
      names := List.nodup_nil
      defined := nofun
      callGraph := CallGraph.wellFormed_empty }

end Registration

section Invariant

variable (framework : Framework) (sources : Table FunctionSource) (r : Registry)

-- A call leads to a scanned function, or to one that is never scanned.
def Handled (a : Analysis) (callee : String) : Prop :=
  framework.stopsAt callee (r.resolve callee) = false → sources.contains (r.resolve callee) →
    a.bodies.contains (r.resolve callee)

-- The state of an analysis that started from the registry `r`. The functions called by the scanned
-- ones are handled, or they are waiting.
structure Sound (a : Analysis) (waiting : List String) : Prop where
  aliases : a.registry.aliases = r.aliases
  attributeGroups : a.registry.attributeGroups = r.attributeGroups
  unscanned : ∀ name, a.bodies.contains name = false →
    a.registry.definitions.get? name = r.definitions.get? name
  scanned : ∀ name, a.bodies.contains name = true → ∃ source, sources.get? name = some source ∧
    a.bodies.get? name = some ((Scan.alone framework name source).body.marked
      (framework.isTest name)) ∧
    a.registry.definitions.get? name =
      (r.definitions.get? name).map (·.withCalls (Scan.sitesAlone framework name source))
  pending : ∀ name source, a.bodies.contains name = true → sources.get? name = some source →
    ∀ callee ∈ (Scan.alone framework name source).callees,
      Handled framework sources r a callee ∨ callee ∈ waiting

end Invariant

section Step

variable {framework : Framework} {sources : Table FunctionSource} {r : Registry} {a : Analysis}
  {waiting waiting' : List String}

theorem Sound.resolve_eq (h : Sound framework sources r a waiting) (name : String) :
    a.registry.resolve name = r.resolve name :=
  Registry.resolve_congr h.aliases name

theorem Sound.handled (h : Sound framework sources r a waiting)
    (hwaiting : ∀ callee ∈ waiting, Handled framework sources r a callee ∨ callee ∈ waiting') :
    Sound framework sources r a waiting' where
  aliases := h.aliases
  attributeGroups := h.attributeGroups
  unscanned := h.unscanned
  scanned := h.scanned
  pending := by
    intro name source hname hsource callee hcallee
    rcases h.pending name source hname hsource callee hcallee with hhandled | hmem
    · exact .inl hhandled
    · exact hwaiting callee hmem

theorem evaluate_registry (a : Analysis) (name : String) (source : FunctionSource) :
    (a.evaluate framework name source).1.registry =
      a.registry.addCallSites name (Scan.sitesAlone framework name source) :=
  Scan.run_registry framework a.registry a.callGraph name source

theorem evaluate_bodies (a : Analysis) (name : String) (source : FunctionSource) :
    (a.evaluate framework name source).1.bodies =
      a.bodies.insert name
        ((Scan.alone framework name source).body.marked (framework.isTest name)) := by
  simp only [evaluate, Scan.run_body]

theorem evaluate_callees (a : Analysis) (name : String) (source : FunctionSource) :
    (a.evaluate framework name source).2 = (Scan.alone framework name source).callees :=
  Scan.run_callees framework a.registry a.callGraph name source

theorem mem_enqueue {queue callees : List String} {callee : String} :
    callee ∈ enqueue queue callees ↔ callee ∈ queue ∨ callee ∈ callees := by
  induction callees generalizing queue with
  | nil => simp [enqueue]
  | cons first callees ih =>
    have hstep : enqueue queue (first :: callees) =
        enqueue (CallGraph.adjoin queue first) callees := rfl
    rw [hstep, ih, CallGraph.mem_adjoin, List.mem_cons, or_assoc]

-- One more function is scanned, and the functions it calls wait.
theorem Sound.evaluate (h : Sound framework sources r a waiting) {name : String}
    {source : FunctionSource} (hnew : a.bodies.contains name = false)
    (hsource : sources.get? name = some source)
    (hwaiting : ∀ callee ∈ waiting, callee ∈ waiting' ∨ r.resolve callee = name)
    (hcallees : (Scan.alone framework name source).callees ⊆ waiting') :
    Sound framework sources r (a.evaluate framework name source).1 waiting' := by
  have hcontains (other : String) :
      (a.evaluate framework name source).1.bodies.contains other =
        (other == name || a.bodies.contains other) := by
    rw [evaluate_bodies, Table.contains_insert]
  have hkept (callee : String) (hhandled : Handled framework sources r a callee) :
      Handled framework sources r (a.evaluate framework name source).1 callee := by
    intro hstop hfound
    simp [hcontains, hhandled hstop hfound]
  constructor
  case aliases =>
    rw [evaluate_registry, Registry.addCallSites_aliases, h.aliases]
  case attributeGroups =>
    rw [evaluate_registry, Registry.addCallSites_attributeGroups, h.attributeGroups]
  case unscanned =>
    intro other hother
    rw [hcontains, Bool.or_eq_false_iff, beq_eq_false_iff_ne] at hother
    rw [evaluate_registry, Registry.get?_addCallSites, if_neg hother.1]
    exact h.unscanned other hother.2
  case scanned =>
    intro other hother
    rw [evaluate_registry, evaluate_bodies, Registry.get?_addCallSites, Table.get?_insert]
    by_cases heq : other = name
    · subst heq
      refine ⟨source, hsource, if_pos rfl, ?_⟩
      rw [if_pos rfl, h.unscanned other hnew]
    · rw [if_neg heq, if_neg heq]
      apply h.scanned other
      simpa [hcontains, heq] using hother
  case pending =>
    intro other found hother hfound callee hcallee
    by_cases heq : other = name
    · subst heq
      rw [hsource] at hfound
      cases hfound
      exact .inr (hcallees hcallee)
    · have hold : a.bodies.contains other = true := by simpa [hcontains, heq] using hother
      rcases h.pending other found hold hfound callee hcallee with hhandled | hmem
      · exact .inl (hkept callee hhandled)
      · rcases hwaiting callee hmem with hmem | hresolve
        · exact .inr hmem
        · refine .inl fun _ _ => ?_
          simp [hcontains, hresolve]

-- No body is lost.
def Grows (a a' : Analysis) : Prop :=
  ∀ name, a.bodies.contains name = true → a'.bodies.contains name = true

theorem Grows.handled {a' : Analysis} (hgrows : Grows a a') {callee : String}
    (h : Handled framework sources r a callee) : Handled framework sources r a' callee :=
  fun hstop hfound => hgrows _ (h hstop hfound)

theorem grows_evaluate (a : Analysis) (name : String) (source : FunctionSource) :
    Grows a (a.evaluate framework name source).1 := by
  intro other hother
  simp [evaluate_bodies, Table.contains_insert, hother]

-- A call that waits is handled, and the calls of a function scanned for it wait.
theorem Sound.evaluateCallee {callee : String} {queue next : List String}
    (h : Sound framework sources r a ((callee :: queue) ++ next)) :
    Sound framework sources r (evaluateCallee framework sources (a, next) callee).1
        (queue ++ (evaluateCallee framework sources (a, next) callee).2) ∧
      Grows a (evaluateCallee framework sources (a, next) callee).1 ∧
      Handled framework sources r (evaluateCallee framework sources (a, next) callee).1
        callee := by
  have hsettled (hhandled : Handled framework sources r a callee) :
      Sound framework sources r a (queue ++ next) ∧ Grows a a ∧
        Handled framework sources r a callee := by
    refine ⟨h.handled ?_, fun _ => id, hhandled⟩
    intro other hother
    rcases List.mem_cons.mp hother with rfl | hother
    · exact .inl hhandled
    · exact .inr hother
  simp only [Analysis.evaluateCallee, h.resolve_eq]
  split
  · next hbody => exact hsettled fun _ _ => hbody
  · next hbody =>
    split
    · next hstop => exact hsettled fun hgo => by simp [Framework.stopsAt, hstop] at hgo
    · cases hsource : sources.get? (r.resolve callee) with
      | none => exact hsettled fun _ hfound => by simp [Table.contains, hsource] at hfound
      | some source =>
        simp only [evaluate_callees]
        refine ⟨h.evaluate (by simpa using hbody) hsource ?_ ?_, grows_evaluate a _ source, ?_⟩
        · intro other hother
          simp only [List.mem_append, List.mem_cons, mem_enqueue] at hother ⊢
          grind
        · intro other hother
          exact List.mem_append_right _ (mem_enqueue.mpr (.inr hother))
        · intro _ _
          simp [evaluate_bodies, Table.contains_insert]

theorem Sound.evaluateCallees (queue : List String) {a : Analysis} {next : List String}
    (h : Sound framework sources r a (queue ++ next)) :
    Sound framework sources r (queue.foldl (Analysis.evaluateCallee framework sources) (a, next)).1
        (queue.foldl (Analysis.evaluateCallee framework sources) (a, next)).2 ∧
      Grows a (queue.foldl (Analysis.evaluateCallee framework sources) (a, next)).1 ∧
      ∀ callee ∈ queue, Handled framework sources r
        (queue.foldl (Analysis.evaluateCallee framework sources) (a, next)).1 callee := by
  induction queue generalizing a next with
  | nil => exact ⟨h, fun _ => id, nofun⟩
  | cons callee queue ih =>
    obtain ⟨hsound, hgrows, hhandled⟩ := h.evaluateCallee
    obtain ⟨hsound', hgrows', hhandled'⟩ := ih hsound
    refine ⟨hsound', fun name hname => hgrows' name (hgrows name hname), ?_⟩
    intro other hother
    rcases List.mem_cons.mp hother with rfl | hother
    · exact Grows.handled hgrows' hhandled
    · exact hhandled' other hother

theorem Sound.expand (levels : Nat) {a : Analysis} {queue : List String}
    (h : Sound framework sources r a queue) :
    ∃ waiting, Sound framework sources r (expand framework sources levels a queue) waiting := by
  induction levels generalizing a queue with
  | zero => exact ⟨queue, h⟩
  | succ levels ih =>
    cases queue with
    | nil => exact ⟨[], h⟩
    | cons callee queue =>
      have hall : Sound framework sources r a ((callee :: queue) ++ []) := by
        rwa [List.append_nil]
      exact ih (hall.evaluateCallees _).1

end Step

end Analysis

end TestFocus
