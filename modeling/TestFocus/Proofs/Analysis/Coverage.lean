import TestFocus.Proofs.Analysis.Evaluation

namespace TestFocus.Analysis

section Reach

variable (framework : Framework) (sources : Table FunctionSource) (r : Registry)

-- A call that the analysis follows, from one function with a source to another.
def CallsInto (caller callee : String) : Prop :=
  ∃ source called, sources.get? caller = some source ∧
    called ∈ (Scan.alone framework caller source).callees ∧
    framework.stopsAt called (r.resolve called) = false ∧
    r.resolve called = callee ∧ sources.contains callee

-- Functions that are a number of calls apart.
inductive CallPath : Nat → String → String → Prop
  | here (name : String) : CallPath 0 name name
  | call {calls : Nat} {caller callee target : String} :
      CallsInto framework sources r caller callee → CallPath calls callee target →
      CallPath (calls + 1) caller target

variable {framework : Framework} {sources : Table FunctionSource} {r : Registry}

theorem CallPath.snoc {calls : Nat} {caller callee target : String}
    (h : CallPath framework sources r calls caller callee)
    (hcall : CallsInto framework sources r callee target) :
    CallPath framework sources r (calls + 1) caller target := by
  induction h with
  | here name => exact .call hcall (.here _)
  | call hfirst _ ih => exact .call hfirst (ih hcall)

-- With nothing waiting, the scanned functions are closed under calls.
theorem Sound.contains_of_callPath {a : Analysis} (h : Sound framework sources r a [])
    {calls : Nat} {name target : String} (hpath : CallPath framework sources r calls name target)
    (hname : a.bodies.contains name = true) : a.bodies.contains target = true := by
  induction hpath with
  | here => exact hname
  | call hcall _ ih =>
    obtain ⟨source, called, hsource, hcalled, hstop, rfl, hfound⟩ := hcall
    rcases h.pending _ source hname hsource called hcalled with hhandled | hwaiting
    · exact ih (hhandled hstop hfound)
    · cases hwaiting

-- What is as many calls away from a scanned function as there are levels left gets scanned.
theorem Sound.contains_expand {a : Analysis} {queue : List String} {levels : Nat}
    (h : Sound framework sources r a queue) {calls : Nat} {name target : String}
    (hpath : CallPath framework sources r calls name target) (hcalls : calls ≤ levels)
    (hname : a.bodies.contains name = true) :
    (Analysis.expand framework sources levels a queue).bodies.contains target = true := by
  induction levels generalizing a queue calls name with
  | zero =>
    obtain rfl : calls = 0 := by omega
    cases hpath
    exact hname
  | succ levels ih =>
    cases queue with
    | nil => exact h.contains_of_callPath hpath hname
    | cons first queue =>
      have hall : Sound framework sources r a ((first :: queue) ++ []) := by
        rwa [List.append_nil]
      obtain ⟨hsound, hgrows, hhandled⟩ := hall.evaluateCallees
      cases hpath with
      | here => exact ih hsound (.here _) (by omega) (hgrows _ hname)
      | call hcall hrest =>
        obtain ⟨source, called, hsource, hcalled, hstop, rfl, hfound⟩ := hcall
        refine ih hsound hrest (by omega) ?_
        rcases h.pending name source hname hsource called hcalled with hdone | hmem
        · exact hgrows _ (hdone hstop hfound)
        · exact hhandled called hmem hstop hfound

end Reach

section Tests

variable {framework : Framework} {sources : Table FunctionSource} {r : Registry}

-- The scan of a test; where it has no source, nothing happens.
theorem Sound.evaluateTest {a : Analysis} {queue : List String} {name : String}
    (h : Sound framework sources r a queue) (hnew : a.bodies.contains name = false) :
    Sound framework sources r (evaluateTest framework sources (a, queue) name).1
      (evaluateTest framework sources (a, queue) name).2 := by
  simp only [Analysis.evaluateTest]
  cases hsource : sources.get? name with
  | none => exact h
  | some source =>
    have hmarked : Sound framework sources r
        { a with callGraph := a.callGraph.markTest name, tests := a.tests ++ [name] } queue :=
      { h with }
    simp only [evaluate_callees]
    apply hmarked.evaluate hnew hsource
    · intro callee hcallee
      exact .inl (mem_enqueue.mpr (.inl hcallee))
    · intro callee hcallee
      exact mem_enqueue.mpr (.inr hcallee)

theorem evaluateTest_bodies (a : Analysis) (queue : List String) (name other : String) :
    (evaluateTest framework sources (a, queue) name).1.bodies.contains other =
      (a.bodies.contains other || (other == name && sources.contains name)) := by
  simp only [evaluateTest]
  cases hsource : sources.get? name with
  | none => simp [Table.contains, hsource]
  | some source =>
    have hfound : sources.contains name = true := by simp [Table.contains, hsource]
    simp only [evaluate_bodies, Table.contains_insert, hfound, Bool.and_true, Bool.or_comm]

theorem evaluateTest_tests (a : Analysis) (queue : List String) (name : String) :
    (evaluateTest framework sources (a, queue) name).1.tests =
      a.tests ++ [name].filter sources.contains := by
  simp only [evaluateTest]
  cases hsource : sources.get? name with
  | none => simp [Table.contains, hsource]
  | some source => simp [Table.contains, hsource, evaluate]

-- The tests are scanned one after another, each once.
theorem Sound.evaluateTests (names : List String) {a : Analysis} {queue : List String}
    (h : Sound framework sources r a queue) (hnodup : names.Nodup)
    (hnew : ∀ name ∈ names, a.bodies.contains name = false) :
    Sound framework sources r
      (names.foldl (Analysis.evaluateTest framework sources) (a, queue)).1
      (names.foldl (Analysis.evaluateTest framework sources) (a, queue)).2 := by
  induction names generalizing a queue with
  | nil => exact h
  | cons name names ih =>
    obtain ⟨hfresh, hnodup⟩ := List.nodup_cons.mp hnodup
    apply ih (h.evaluateTest (hnew name (by simp))) hnodup
    intro other hother
    rw [evaluateTest_bodies, hnew other (List.mem_cons_of_mem _ hother)]
    have hne : other ≠ name := by
      rintro rfl
      exact hfresh hother
    simp [hne]

theorem evaluateTests_tests (names : List String) (a : Analysis) (queue : List String) :
    (names.foldl (evaluateTest framework sources) (a, queue)).1.tests =
      a.tests ++ names.filter sources.contains := by
  induction names generalizing a queue with
  | nil => simp
  | cons name names ih =>
    rw [List.foldl_cons, ih, evaluateTest_tests, List.append_assoc, ← List.filter_append]
    rfl

theorem grows_evaluateTests (names : List String) (a : Analysis) (queue : List String) :
    Grows a (names.foldl (evaluateTest framework sources) (a, queue)).1 := by
  induction names generalizing a queue with
  | nil => exact fun _ => id
  | cons name names ih =>
    intro other hother
    apply ih (evaluateTest framework sources (a, queue) name).1
    rw [evaluateTest_bodies, hother, Bool.true_or]

theorem contains_evaluateTests {names : List String} {name : String} (hname : name ∈ names)
    (hfound : sources.contains name = true) (a : Analysis) (queue : List String) :
    (names.foldl (evaluateTest framework sources) (a, queue)).1.bodies.contains name = true := by
  induction names generalizing a queue with
  | nil => cases hname
  | cons first names ih =>
    rcases List.mem_cons.mp hname with rfl | hname
    · apply grows_evaluateTests names (evaluateTest framework sources (a, queue) name).1
      rw [evaluateTest_bodies, hfound, beq_self_eq_true, Bool.and_self, Bool.or_true]
    · exact ih hname _ _

theorem evaluateCallees_tests (queue : List String) (a : Analysis) (next : List String) :
    (queue.foldl (evaluateCallee framework sources) (a, next)).1.tests = a.tests := by
  induction queue generalizing a next with
  | nil => rfl
  | cons callee queue ih =>
    rw [List.foldl_cons, ih]
    simp only [evaluateCallee]
    split
    · rfl
    · split
      · rfl
      · split <;> rfl

theorem expand_tests (levels : Nat) (a : Analysis) (queue : List String) :
    (expand framework sources levels a queue).tests = a.tests := by
  induction levels generalizing a queue with
  | zero => rfl
  | succ levels ih =>
    cases queue with
    | nil => rfl
    | cons callee queue => exact (ih _ _).trans (evaluateCallees_tests (callee :: queue) a [])

end Tests

section Module

-- The names of a module, as they are before any body is scanned.
def registryOf (text : String) : Registry :=
  (register (.split text)).1.registry

def sourcesOf (text : String) : Table FunctionSource :=
  (register (.split text)).2

variable (framework : Framework) (maxDepth : Nat) (text : String)

theorem sound_register :
    Sound framework (sourcesOf text) (registryOf text) (register (.split text)).1 [] := by
  have hbodies := (registered_register (.split text)).bodies
  constructor
  case aliases => rfl
  case attributeGroups => rfl
  case unscanned => exact fun _ _ => rfl
  case scanned =>
    intro name hname
    rw [hbodies] at hname
    cases hname
  case pending =>
    intro name source hname
    rw [hbodies] at hname
    cases hname

-- The analysis once the tests are scanned, with the calls that wait.
def scanTests : Analysis × List String :=
  (testNames framework (registryOf text)).foldl (evaluateTest framework (sourcesOf text))
    ((register (.split text)).1, [])

theorem ofModule_eq :
    ofModule framework maxDepth text =
      expand framework (sourcesOf text) maxDepth (scanTests framework text).1
        (scanTests framework text).2 := rfl

theorem sound_scanTests :
    Sound framework (sourcesOf text) (registryOf text) (scanTests framework text).1
      (scanTests framework text).2 := by
  have hregistered := registered_register (.split text)
  apply (sound_register framework text).evaluateTests
  · exact hregistered.names.filter _
  · intro name _
    rw [hregistered.bodies]
    rfl

theorem exists_sound_ofModule :
    ∃ waiting, Sound framework (sourcesOf text) (registryOf text)
      (ofModule framework maxDepth text) waiting :=
  (sound_scanTests framework text).expand maxDepth

-- The tests are the functions that the framework says are tests, if they have a source.
theorem ofModule_tests :
    (ofModule framework maxDepth text).tests =
      (testNames framework (registryOf text)).filter (sourcesOf text).contains := by
  rw [ofModule_eq, expand_tests, scanTests, evaluateTests_tests,
    (registered_register (.split text)).tests, List.nil_append]

variable {framework : Framework} {maxDepth : Nat} {text : String}

-- Everything within the depth limit of a test is scanned.
theorem contains_ofModule {test target : String} {calls : Nat}
    (htest : test ∈ (ofModule framework maxDepth text).tests)
    (hpath : CallPath framework (sourcesOf text) (registryOf text) calls test target)
    (hcalls : calls ≤ maxDepth) :
    (ofModule framework maxDepth text).bodies.contains target = true := by
  rw [ofModule_tests, List.mem_filter] at htest
  exact (sound_scanTests framework text).contains_expand hpath hcalls
    (contains_evaluateTests htest.1 htest.2 _ _)

end Module

end TestFocus.Analysis
