import TestFocus.Proofs.Analysis.Coverage
import TestFocus.Proofs.Analysis.ScanRecord
import TestFocus.Proofs.Trace.Collection

-- The functions that the analysis scans are those within the depth limit of a test. They are
-- scanned in the order of their distance, each one once. A call waits under the name that it was
-- made by, and a function may wait under several names and come up in several rounds, but only
-- the first of them scans it: one that is scanned in a round was not within reach of the rounds
-- before.

namespace TestFocus.Analysis

section Registration

theorem addAliases_frame (lines : List SourceLine) (a : Analysis) :
    (lines.foldl addAlias a).registry.definitions = a.registry.definitions ∧
      (lines.foldl addAlias a).evaluated = a.evaluated := by
  induction lines generalizing a with
  | nil => exact ⟨rfl, rfl⟩
  | cons line lines ih =>
    rw [List.foldl_cons, (ih _).1, (ih _).2]
    unfold addAlias
    split <;> exact ⟨rfl, rfl⟩

theorem addAttributeGroups_frame (lines : List SourceLine) (a : Analysis) :
    (lines.foldl addAttributeGroup a).registry.definitions = a.registry.definitions ∧
      (lines.foldl addAttributeGroup a).evaluated = a.evaluated := by
  induction lines generalizing a with
  | nil => exact ⟨rfl, rfl⟩
  | cons line lines ih =>
    rw [List.foldl_cons, (ih _).1, (ih _).2]
    unfold addAttributeGroup
    split <;> exact ⟨rfl, rfl⟩

theorem addDefinition_contains {a : Analysis} {sources : Table FunctionSource}
    (h : ∀ name, sources.contains name = a.registry.definitions.contains name)
    (source : FunctionSource) (name : String) :
    (addDefinition (a, sources) source).2.contains name =
      (addDefinition (a, sources) source).1.registry.definitions.contains name := by
  simp only [addDefinition]
  split
  · next d _ =>
    have hdefined : (a.registry.define d).definitions.contains name =
        (name == d.name || a.registry.definitions.contains name) :=
      Table.contains_insert _ _ _ _
    rw [Table.contains_insertNew, h]
    split <;> exact hdefined.symm
  · exact h name

theorem addDefinitions_contains (functions : List FunctionSource) {a : Analysis}
    {sources : Table FunctionSource}
    (h : ∀ name, sources.contains name = a.registry.definitions.contains name) (name : String) :
    (functions.foldl addDefinition (a, sources)).2.contains name =
      (functions.foldl addDefinition (a, sources)).1.registry.definitions.contains name := by
  induction functions generalizing a sources with
  | nil => exact h name
  | cons source functions ih => exact ih (addDefinition_contains h source)

-- A function is defined if one of its headers can be read, and then there is a source to scan.
theorem contains_sourcesOf (text name : String) :
    (sourcesOf text).contains name = true ↔ name ∈ (registryOf text).names := by
  have hcontains : (sourcesOf text).contains name =
      (registryOf text).definitions.contains name := by
    apply addDefinitions_contains
    intro other
    rw [(addAttributeGroups_frame _ _).1, (addAliases_frame _ _).1]
    rfl
  rw [hcontains]
  exact Table.mem_keys_iff.symm

theorem addDefinitions_evaluated (functions : List FunctionSource) (a : Analysis)
    (sources : Table FunctionSource) :
    (functions.foldl addDefinition (a, sources)).1.evaluated = a.evaluated := by
  induction functions generalizing a sources with
  | nil => rfl
  | cons source functions ih =>
    rw [List.foldl_cons, ih]
    simp only [addDefinition]
    split
    · split <;> rfl
    · rfl

theorem register_evaluated (m : ModuleSource) : (register m).1.evaluated = [] := by
  simp only [register]
  rw [addDefinitions_evaluated, (addAttributeGroups_frame _ _).2, (addAliases_frame _ _).2]
  rfl

end Registration

section Distance

variable (framework : Framework) (text : String)

-- The body that the scan of a function gives.
def scannedBody? (name : String) : Option Body :=
  ((sourcesOf text).get? name).map fun source =>
    (Scan.run framework (registryOf text) .empty name source).body

-- The body of the one function has a call to the other by a name that is no assertion, and the
-- other may be scanned.
def Calls (caller callee : String) : Prop :=
  ∃ body node call, scannedBody? framework text caller = some body ∧
    body.call? node = some call ∧ call.isDirect = true ∧
    (registryOf text).resolve call.callee = callee ∧
    framework.isAssertion call.callee = false ∧ framework.isAssertion callee = false ∧
    framework.isExcluded callee = false ∧ callee ∈ (registryOf text).names

-- Some test reaches the function by so many calls.
inductive Hops : Nat → String → Prop
  | test {name : String} : name ∈ testNames framework (registryOf text) → Hops 0 name
  | call {calls : Nat} {caller callee : String} :
      Hops calls caller → Calls framework text caller callee → Hops (calls + 1) callee

-- The number of calls on the shortest way from a test.
def Distance (name : String) (d : Nat) : Prop :=
  IsLeast { calls | Hops framework text calls name } d

variable {framework : Framework} {text : String}

theorem calls_iff {caller callee : String} :
    Calls framework text caller callee ↔
      CallsInto framework (sourcesOf text) (registryOf text) caller callee := by
  constructor
  · rintro ⟨body, node, call, hbody, hcall, hdirect, hresolve, hname, hassertion, hexcluded, hfound⟩
    obtain ⟨source, hsource, rfl⟩ := Option.map_eq_some_iff.mp hbody
    rw [Scan.run_body, Body.call?_marked] at hcall
    refine ⟨source, call.callee, hsource,
      Scan.callee_mem_alone framework caller source hcall hdirect, ?_, hresolve,
      (contains_sourcesOf text callee).mpr hfound⟩
    simp only [Framework.stopsAt, hresolve, hname, hassertion, hexcluded, Bool.or_self]
  · rintro ⟨source, called, hsource, hcalled, hstop, hresolve, hfound⟩
    have hrecords := Scan.records_run framework.allTests .empty .empty caller source
    obtain ⟨node, call, hcall, hdirect, rfl⟩ := hrecords.callees called hcalled
    simp only [Framework.stopsAt, hresolve, Bool.or_eq_false_iff] at hstop
    refine ⟨(Scan.run framework (registryOf text) .empty caller source).body, node, call, ?_, ?_,
      hdirect, hresolve, hstop.1.1, hstop.1.2, hstop.2, (contains_sourcesOf text callee).mp hfound⟩
    · simp only [scannedBody?, hsource, Option.map_some]
    · rw [Scan.run_body, Body.call?_marked]
      exact hcall

theorem exists_distance {name : String} {calls : Nat} (h : Hops framework text calls name) :
    ∃ d ≤ calls, Distance framework text name d :=
  exists_isLeast_le h

end Distance

section Listing

variable (framework : Framework) (sources : Table FunctionSource)

-- The list of scanned functions and the table of bodies are kept in step.
structure Listed (a : Analysis) : Prop where
  keys : a.bodies.keys = a.evaluated
  nodup : a.evaluated.Nodup

theorem Listed.mem_iff {a : Analysis} (h : Listed a) {name : String} :
    name ∈ a.evaluated ↔ a.bodies.contains name = true := by
  rw [← h.keys, Table.mem_keys_iff]

theorem Listed.evaluate {a : Analysis} (h : Listed a) {name : String}
    (hnew : a.bodies.contains name = false) (source : FunctionSource) :
    Listed (a.evaluate framework name source).1 where
  keys := by
    rw [evaluate_bodies, Table.keys_insert_of_not_contains hnew, h.keys]
    rfl
  nodup := by
    have hname : name ∉ a.evaluated := by simp [h.mem_iff, hnew]
    exact List.nodup_append.mpr ⟨h.nodup, List.nodup_singleton name, by grind⟩

-- A call that comes up scans a function that was not scanned before, or nothing happens.
theorem evaluateCallee_cases (a : Analysis) (next : List String) (callee : String) :
    evaluateCallee framework sources (a, next) callee = (a, next) ∨
    ∃ source, a.bodies.contains (a.registry.resolve callee) = false ∧
      framework.stopsAt callee (a.registry.resolve callee) = false ∧
      sources.get? (a.registry.resolve callee) = some source ∧
      evaluateCallee framework sources (a, next) callee =
        ((a.evaluate framework (a.registry.resolve callee) source).1,
          enqueue next (Scan.alone framework (a.registry.resolve callee) source).callees) := by
  simp only [evaluateCallee, ← evaluate_callees a]
  split
  · exact .inl rfl
  · next hbody =>
    split
    · exact .inl rfl
    · next hstop =>
      cases hsource : sources.get? (a.registry.resolve callee) with
      | none => exact .inl rfl
      | some source =>
        exact .inr
          ⟨source, by simpa using hbody, by simpa [Framework.stopsAt] using hstop, rfl, rfl⟩

theorem Listed.evaluateCallees (queue : List String) {a : Analysis} (next : List String)
    (h : Listed a) :
    Listed (queue.foldl (Analysis.evaluateCallee framework sources) (a, next)).1 := by
  induction queue generalizing a next with
  | nil => exact h
  | cons callee queue ih =>
    rw [List.foldl_cons]
    rcases evaluateCallee_cases framework sources a next callee with
      heq | ⟨source, hnew, -, -, heq⟩
    · rw [heq]
      exact ih next h
    · rw [heq]
      exact ih _ (h.evaluate framework hnew source)

theorem Listed.evaluateTest {a : Analysis} (h : Listed a) (queue : List String) {name : String}
    (hnew : a.bodies.contains name = false) :
    Listed (evaluateTest framework sources (a, queue) name).1 ∧
      (evaluateTest framework sources (a, queue) name).1.evaluated =
        a.evaluated ++ [name].filter sources.contains ∧
      ∀ callee ∈ (evaluateTest framework sources (a, queue) name).2, callee ∈ queue ∨
        ∃ source, sources.get? name = some source ∧
          callee ∈ (Scan.alone framework name source).callees := by
  simp only [Analysis.evaluateTest, evaluate_callees]
  cases hsource : sources.get? name with
  | none => exact ⟨h, by simp [Table.contains, hsource], fun _ => .inl⟩
  | some source =>
    have hmarked : Listed { a with
        callGraph := a.callGraph.markTest name, tests := a.tests ++ [name] } :=
      { keys := h.keys, nodup := h.nodup }
    refine ⟨hmarked.evaluate framework hnew source, ?_, ?_⟩
    · simp only [List.filter_singleton, Table.contains, hsource, Option.isSome_some]
      rfl
    · intro callee hcallee
      exact (mem_enqueue.mp hcallee).imp_right fun hmem => ⟨source, rfl, hmem⟩

theorem Listed.evaluateTests (names : List String) {a : Analysis} (queue : List String)
    (h : Listed a) (hnodup : names.Nodup)
    (hnew : ∀ name ∈ names, a.bodies.contains name = false) :
    Listed (names.foldl (Analysis.evaluateTest framework sources) (a, queue)).1 ∧
      (names.foldl (Analysis.evaluateTest framework sources) (a, queue)).1.evaluated =
        a.evaluated ++ names.filter sources.contains ∧
      ∀ callee ∈ (names.foldl (Analysis.evaluateTest framework sources) (a, queue)).2,
        callee ∈ queue ∨ ∃ name ∈ names, ∃ source, sources.get? name = some source ∧
          callee ∈ (Scan.alone framework name source).callees := by
  induction names generalizing a queue with
  | nil => exact ⟨h, by simp, fun _ => .inl⟩
  | cons name names ih =>
    obtain ⟨hfresh, hnodup⟩ := List.nodup_cons.mp hnodup
    have hrest (other : String) (hother : other ∈ names) :
        (Analysis.evaluateTest framework sources (a, queue) name).1.bodies.contains other =
          false := by
      rw [evaluateTest_bodies, hnew other (List.mem_cons_of_mem _ hother)]
      have hne : other ≠ name := by
        rintro rfl
        exact hfresh hother
      simp [hne]
    obtain ⟨hlisted, hevaluated, hqueue⟩ :=
      h.evaluateTest framework sources queue (hnew name (by simp))
    obtain ⟨hlisted, hall, hqueues⟩ :=
      ih (Analysis.evaluateTest framework sources (a, queue) name).2 hlisted hnodup hrest
    refine ⟨hlisted, hall.trans ?_, ?_⟩
    · rw [hevaluated, List.append_assoc, ← List.filter_append]
      rfl
    · intro callee hcallee
      rcases hqueues callee hcallee with hmem | ⟨other, hother, hcalled⟩
      · exact (hqueue callee hmem).imp_right fun hcalled => ⟨name, by simp, hcalled⟩
      · exact .inr ⟨other, List.mem_cons_of_mem _ hother, hcalled⟩

end Listing

section Rounds

variable {framework : Framework} {text : String}

-- A call that waits was made by a function within so many calls of a test.
def Made (framework : Framework) (text : String) (calls : Nat) (callee : String) : Prop :=
  ∃ n ≤ calls, ∃ caller source, Hops framework text n caller ∧
    (sourcesOf text).get? caller = some source ∧
    callee ∈ (Scan.alone framework caller source).callees

-- What is reached by so many calls is scanned, in the order of the distances, and nothing else. The
-- calls that wait are made from there.
structure Reached (framework : Framework) (text : String) (calls : Nat) (a : Analysis)
    (queue : List String) : Prop where
  sound : Sound framework (sourcesOf text) (registryOf text) a queue
  listed : Listed a
  near : ∀ name, name ∈ a.evaluated ↔ ∃ n ≤ calls, Hops framework text n name
  made : ∀ callee ∈ queue, Made framework text calls callee
  ordered : a.evaluated.Pairwise fun f g => ∀ m n,
    Distance framework text f m → Distance framework text g n → m ≤ n

-- A call from this far out to a function that is no closer leads one call further.
theorem Made.distance {calls : Nat} {callee : String} (h : Made framework text calls callee)
    {source : FunctionSource}
    (hstop : framework.stopsAt callee ((registryOf text).resolve callee) = false)
    (hsource : (sourcesOf text).get? ((registryOf text).resolve callee) = some source)
    (hleast : ∀ m, Hops framework text m ((registryOf text).resolve callee) → calls < m) :
    Distance framework text ((registryOf text).resolve callee) (calls + 1) := by
  obtain ⟨n, hn, caller, found, hhops, hfound, hcallee⟩ := h
  have hcall : Calls framework text caller ((registryOf text).resolve callee) :=
    calls_iff.mpr ⟨found, callee, hfound, hcallee, hstop, rfl,
      Table.contains_iff.mpr ⟨source, hsource⟩⟩
  have hlt := hleast (n + 1) (.call hhops hcall)
  obtain rfl : n = calls := by omega
  exact ⟨.call hhops hcall, hleast⟩

-- The functions that a round scans are one call further from the tests than all that were scanned
-- before it.
theorem evaluateCallees_new (queue : List String) {a : Analysis} {next : List String} {calls : Nat}
    (hsound : Sound framework (sourcesOf text) (registryOf text) a (queue ++ next))
    (hnear : ∀ n ≤ calls, ∀ name, Hops framework text n name → a.bodies.contains name = true)
    (hmade : ∀ callee ∈ queue, Made framework text calls callee)
    (hnext : ∀ callee ∈ next, Made framework text (calls + 1) callee) :
    (∃ new, (queue.foldl (evaluateCallee framework (sourcesOf text)) (a, next)).1.evaluated =
        a.evaluated ++ new ∧ ∀ name ∈ new, Distance framework text name (calls + 1)) ∧
      ∀ callee ∈ (queue.foldl (evaluateCallee framework (sourcesOf text)) (a, next)).2,
        Made framework text (calls + 1) callee := by
  induction queue generalizing a next with
  | nil => exact ⟨⟨[], by simp⟩, hnext⟩
  | cons callee queue ih =>
    obtain ⟨hsound', hgrows, -⟩ := hsound.evaluateCallee
    have hmade' : ∀ other ∈ queue, Made framework text calls other :=
      fun other hother => hmade other (List.mem_cons_of_mem _ hother)
    rw [List.foldl_cons]
    rcases evaluateCallee_cases framework (sourcesOf text) a next callee with
      heq | ⟨source, hnew, hstop, hsource, heq⟩
    · rw [heq] at hsound' ⊢
      exact ih hsound' hnear hmade' hnext
    · rw [heq] at hsound' hgrows ⊢
      simp only [hsound.resolve_eq] at hnew hstop hsource hsound' hgrows ⊢
      -- it is not scanned yet, so it is not among those that are so near
      have hleast (m : Nat) (hm : Hops framework text m ((registryOf text).resolve callee)) :
          calls < m := by
        by_contra hle
        rw [hnear m (by omega) _ hm] at hnew
        cases hnew
      have hdistance := (hmade callee (by simp)).distance hstop hsource hleast
      have hkept (m : Nat) (hm : m ≤ calls) (name : String) (hname : Hops framework text m name) :
          (a.evaluate framework ((registryOf text).resolve callee) source).1.bodies.contains name =
            true := hgrows name (hnear m hm name hname)
      have hqueued : ∀ other ∈ enqueue next
          (Scan.alone framework ((registryOf text).resolve callee) source).callees,
          Made framework text (calls + 1) other := by
        intro other hother
        rcases mem_enqueue.mp hother with hother | hother
        · exact hnext other hother
        · exact ⟨calls + 1, le_rfl, _, source, hdistance.1, hsource, hother⟩
      obtain ⟨⟨new, hevaluated, hall⟩, hmade''⟩ := ih hsound' hkept hmade' hqueued
      refine ⟨⟨(registryOf text).resolve callee :: new, ?_, ?_⟩, hmade''⟩
      · rw [hevaluated]
        simp only [evaluate, List.append_assoc, List.singleton_append]
      · intro name hname
        rcases List.mem_cons.mp hname with rfl | hname
        · exact hdistance
        · exact hall name hname

theorem Reached.round {calls : Nat} {a : Analysis} {queue : List String}
    (h : Reached framework text calls a queue) :
    Reached framework text (calls + 1)
        (queue.foldl (evaluateCallee framework (sourcesOf text)) (a, [])).1
        (queue.foldl (evaluateCallee framework (sourcesOf text)) (a, [])).2 ∧
      a.evaluated <+:
        (queue.foldl (evaluateCallee framework (sourcesOf text)) (a, [])).1.evaluated := by
  have hall : Sound framework (sourcesOf text) (registryOf text) a (queue ++ []) := by
    rw [List.append_nil]
    exact h.sound
  have hscanned (n : Nat) (hn : n ≤ calls) (name : String) (hname : Hops framework text n name) :
      a.bodies.contains name = true := h.listed.mem_iff.mp ((h.near name).mpr ⟨n, hn, hname⟩)
  obtain ⟨hsound, hgrows, hhandled⟩ := hall.evaluateCallees
  have hlisted := h.listed.evaluateCallees framework (sourcesOf text) queue []
  obtain ⟨⟨new, hevaluated, hnew⟩, hmade⟩ := evaluateCallees_new queue hall hscanned h.made nofun
  refine ⟨⟨hsound, hlisted, ?_, hmade, ?_⟩, ⟨new, hevaluated.symm⟩⟩
  · intro name
    constructor
    · intro hname
      rw [hevaluated, List.mem_append] at hname
      rcases hname with hold | hname
      · obtain ⟨n, hn, hhops⟩ := (h.near name).mp hold
        exact ⟨n, by omega, hhops⟩
      · exact ⟨calls + 1, le_rfl, (hnew name hname).1⟩
    · rintro ⟨n, hn, hhops⟩
      rw [hlisted.mem_iff]
      by_cases hle : n ≤ calls
      · exact hgrows name (hscanned n hle name hhops)
      · cases hhops with
        | test _ => omega
        | @call n caller _ hcaller hcall =>
          obtain ⟨source, called, hsource, hcalled, hstop, rfl, hfound⟩ := calls_iff.mp hcall
          have hcaller := hscanned n (by omega) caller hcaller
          rcases h.sound.pending caller source hcaller hsource called hcalled with hdone | hmem
          · exact hgrows _ (hdone hstop hfound)
          · exact hhandled called hmem hstop hfound
  · rw [hevaluated, List.pairwise_append]
    refine ⟨h.ordered, ?_, ?_⟩
    · apply List.pairwise_of_forall_mem_list
      intro f hf g hg m n hm hn
      have hmeq := hm.unique (hnew f hf)
      have hneq := hn.unique (hnew g hg)
      omega
    · intro f hf g hg m n hm hn
      obtain ⟨k, hk, hhops⟩ := (h.near f).mp hf
      have hle := hm.2 hhops
      have hneq := hn.unique (hnew g hg)
      omega

-- With no call left to come up, everything that a test reaches is scanned.
theorem Reached.mem_of_hops {calls n : Nat} {a : Analysis} (h : Reached framework text calls a [])
    {name : String} (hhops : Hops framework text n name) : name ∈ a.evaluated := by
  induction hhops with
  | test htest => exact (h.near _).mpr ⟨0, Nat.zero_le calls, .test htest⟩
  | @call n caller _ _ hcall ih =>
    obtain ⟨source, called, hsource, hcalled, hstop, rfl, hfound⟩ := calls_iff.mp hcall
    rcases h.sound.pending caller source (h.listed.mem_iff.mp ih) hsource called hcalled with
      hdone | hmem
    · exact h.listed.mem_iff.mpr (hdone hstop hfound)
    · cases hmem

theorem Reached.expand (levels : Nat) {calls : Nat} {a : Analysis} {queue : List String}
    (h : Reached framework text calls a queue) :
    (∃ waiting, Reached framework text (calls + levels)
        (Analysis.expand framework (sourcesOf text) levels a queue) waiting) ∧
      a.evaluated <+: (Analysis.expand framework (sourcesOf text) levels a queue).evaluated := by
  induction levels generalizing calls a queue with
  | zero => exact ⟨⟨queue, h⟩, List.prefix_refl _⟩
  | succ levels ih =>
    cases queue with
    | nil =>
      have hnear (name : String) :
          name ∈ a.evaluated ↔ ∃ n ≤ calls + (levels + 1), Hops framework text n name := by
        constructor
        · intro hname
          obtain ⟨n, hn, hhops⟩ := (h.near name).mp hname
          exact ⟨n, by omega, hhops⟩
        · rintro ⟨n, -, hhops⟩
          exact h.mem_of_hops hhops
      exact ⟨⟨[], { h with near := hnear, made := nofun }⟩, List.prefix_refl _⟩
    | cons callee queue =>
      obtain ⟨hround, hearlier⟩ := h.round
      obtain ⟨⟨waiting, hreached⟩, hlater⟩ := ih hround
      rw [Nat.add_right_comm, Nat.add_assoc] at hreached
      exact ⟨⟨waiting, hreached⟩, hearlier.trans hlater⟩

end Rounds

section Module

theorem filter_testNames (framework : Framework) (text : String) :
    (testNames framework (registryOf text)).filter (sourcesOf text).contains =
      testNames framework (registryOf text) := by
  rw [List.filter_eq_self]
  intro name hname
  exact (contains_sourcesOf text name).mpr (List.mem_of_mem_filter hname)

theorem scannedBody?_eq {framework : Framework} {text : String} {a : Analysis}
    {waiting : List String}
    (h : Sound framework (sourcesOf text) (registryOf text) a waiting) {name : String}
    (hname : a.bodies.contains name = true) :
    a.bodies.get? name = scannedBody? framework text name := by
  obtain ⟨source, hsource, hbody, -⟩ := h.scanned name hname
  simp only [scannedBody?, hsource, Option.map_some, Scan.run_body, hbody]

-- Before any round, the tests are what is within no calls of a test.
theorem reached_scanTests (framework : Framework) (text : String) :
    Reached framework text 0 (scanTests framework text).1 (scanTests framework text).2 ∧
      (scanTests framework text).1.evaluated = testNames framework (registryOf text) := by
  have hregistered := registered_register (.split text)
  have hnone := register_evaluated (.split text)
  have hstart : Listed (register (.split text)).1 := by
    constructor
    · rw [hregistered.bodies, hnone]
      rfl
    · rw [hnone]
      exact List.nodup_nil
  have hnew (name : String) (_ : name ∈ testNames framework (registryOf text)) :
      (register (.split text)).1.bodies.contains name = false := by
    rw [hregistered.bodies]
    rfl
  have hnodup : (testNames framework (registryOf text)).Nodup := hregistered.names.filter _
  obtain ⟨hlisted, hall, hqueue⟩ :=
    hstart.evaluateTests framework (sourcesOf text) _ [] hnodup hnew
  have hevaluated : (scanTests framework text).1.evaluated =
      testNames framework (registryOf text) := by
    rw [hnone, filter_testNames, List.nil_append] at hall
    exact hall
  refine ⟨⟨sound_scanTests framework text, hlisted, ?_, ?_, ?_⟩, hevaluated⟩
  · intro name
    rw [hevaluated]
    constructor
    · exact fun hname => ⟨0, le_rfl, .test hname⟩
    · rintro ⟨n, hn, hhops⟩
      cases hhops with
      | test htest => exact htest
      | call _ _ => omega
  · intro callee hcallee
    rcases hqueue callee hcallee with hmem | ⟨name, hname, source, hsource, hcalled⟩
    · cases hmem
    · exact ⟨0, le_rfl, name, source, .test hname, hsource, hcalled⟩
  · rw [hevaluated]
    apply List.pairwise_of_forall_mem_list
    intro f hf g _ m n hm _
    have hzero : m ≤ 0 := hm.2 (.test hf)
    omega

theorem reached_ofModule (framework : Framework) (maxDepth : Nat) (text : String) :
    (∃ waiting, Reached framework text maxDepth (ofModule framework maxDepth text) waiting) ∧
      testNames framework (registryOf text) <+: (ofModule framework maxDepth text).evaluated := by
  obtain ⟨htests, hevaluated⟩ := reached_scanTests framework text
  have hexpand := htests.expand maxDepth
  rw [Nat.zero_add, hevaluated, ← ofModule_eq] at hexpand
  exact hexpand

-- The scanned functions, in the order of the scan: the tests, then the others by their distance
-- from a test up to the depth limit. The table of bodies holds what the scan of each of them gives.
theorem evaluated_ofModule (framework : Framework) (maxDepth : Nat) (text : String) :
    (ofModule framework maxDepth text).evaluated.Nodup ∧
    (∀ name, name ∈ (ofModule framework maxDepth text).evaluated ↔
      name ∈ testNames framework (registryOf text) ∨
        ∃ d ≤ maxDepth, Distance framework text name d) ∧
    testNames framework (registryOf text) <+: (ofModule framework maxDepth text).evaluated ∧
    (ofModule framework maxDepth text).evaluated.Pairwise (fun f g => ∀ m n,
      Distance framework text f m → Distance framework text g n → m ≤ n) ∧
    (ofModule framework maxDepth text).bodies.keys =
      (ofModule framework maxDepth text).evaluated ∧
    ∀ name ∈ (ofModule framework maxDepth text).evaluated,
      (ofModule framework maxDepth text).bodies.get? name = scannedBody? framework text name := by
  obtain ⟨⟨waiting, h⟩, hearlier⟩ := reached_ofModule framework maxDepth text
  refine ⟨h.listed.nodup, ?_, hearlier, h.ordered, h.listed.keys, ?_⟩
  · intro name
    rw [h.near]
    constructor
    · rintro ⟨n, hn, hhops⟩
      obtain ⟨d, hd, hdistance⟩ := exists_distance hhops
      exact .inr ⟨d, hd.trans hn, hdistance⟩
    · rintro (htest | ⟨d, hd, hdistance⟩)
      · exact ⟨0, Nat.zero_le maxDepth, .test htest⟩
      · exact ⟨d, hd, hdistance.1⟩
  · intro name hname
    exact scannedBody?_eq h.sound (h.listed.mem_iff.mp hname)

end Module

end TestFocus.Analysis
