import Mathlib.Logic.Relation
import TestFocus.Proofs.Analysis.Horizon
import TestFocus.Proofs.Trace.WalkBound

namespace TestFocus

namespace Trace

variable {σ : Type} {p : Program} {judge : Judge σ} {b : Body} {assertion : Nat}

-- The function of a call that the walk back from the assertion can meet.
def CalledBefore (p : Program) (b : Body) (assertion : Nat) (name : String) : Prop :=
  ∃ s call, Meets p b s call ∧ p.registry.resolve call.callee = name ∧
    Relation.TransGen b.graph.HasEdge s.node assertion

-- Every state that waits lies before the assertion, and so does all that was seen.
structure Behind (p : Program) (b : Body) (assertion : Nat) (queue : List TraceState)
    (c : Candidates) : Prop where
  queued : ∀ s ∈ queue, Relation.TransGen b.graph.HasEdge s.node assertion
  collected : ∃ seen, c.Collects seen ∧ ∀ x ∈ seen, CalledBefore p b assertion x.name

theorem Behind.drop {s : TraceState} {queue : List TraceState} {c : Candidates}
    (h : Behind p b assertion (s :: queue) c) : Behind p b assertion queue c where
  queued t ht := h.queued t (List.mem_cons_of_mem _ ht)
  collected := h.collected

theorem Behind.expand (hentries : b.graph.ListsEntries) {s : TraceState}
    {queue : List TraceState} {c : Candidates} (st : σ)
    (h : Behind p b assertion (s :: queue) c) :
    Behind p b assertion (queue ++ ((step p judge b s c).run st).1.next)
      ((step p judge b s c).run st).1.candidates := by
  have hs := h.queued s List.mem_cons_self
  obtain ⟨moves, role, name, -, -, hrole, hrun⟩ := step_outcome p judge b s c st
  rw [hrun]
  constructor
  case queued =>
    intro t ht
    rcases List.mem_append.mp ht with ht | ht
    · exact h.queued t (List.mem_cons_of_mem _ ht)
    · obtain ⟨move, -, ht⟩ := List.mem_flatMap.mp ht
      exact .head (hentries.hasEdge (mem_follow.mp ht).2.1) hs
  case collected =>
    obtain ⟨seen, hcollects, hseen⟩ := h.collected
    refine ⟨_, hcollects.note role name s.depth, ?_⟩
    rintro x (⟨hsome, hname, -⟩ | hx)
    · obtain ⟨call, hmeets, hcallee⟩ := hrole (by simp [hsome])
      exact ⟨s, call, hmeets, hcallee.trans hname.symm, hs⟩
    · exact hseen x hx

theorem calledBefore_of_mem_focalMethods (hentries : b.graph.ListsEntries) (register : String)
    (isReference : Bool) (st : σ) {name : String}
    (h : name ∈ ((focalMethods p judge b register isReference assertion).run st).1) :
    CalledBefore p b assertion name := by
  have hstart : Behind p b assertion (stay b ⟨register, assertion, isReference, 0⟩) .empty := by
    refine ⟨?_, ∅, Candidates.collects_empty, by simp⟩
    intro t ht
    exact .single (hentries.hasEdge (mem_follow.mp ht).2.1)
  obtain ⟨-, hend⟩ := walk_run p judge (fun queue _ c => Behind p b assertion queue c) st
    (fun _ _ _ _ h _ => h.drop) (fun _ _ _ _ st h _ _ => h.expand hentries st)
    (stepsSuffice_start ⟨register, assertion, isReference, 0⟩ rfl) hstart
  obtain ⟨seen, hcollects, hseen⟩ := hend.collected
  obtain ⟨x, hx, rfl⟩ := ((hcollects.mem_focalMethods name).mp h).exists_mem
  exact hseen x hx

end Trace

namespace Program

variable {p : Program} {b : Body}

theorem mem_assertions_of_mem_assertedValues {node : Nat} {register : String} {isReference : Bool}
    (h : (node, register, isReference) ∈ p.assertedValues b) : node ∈ b.assertions := by
  obtain ⟨assertion, hassertion, hvalue⟩ := List.mem_flatMap.mp h
  split at hvalue
  · cases hvalue
  · obtain ⟨argument, -, hsome⟩ := List.mem_filterMap.mp hvalue
    split at hsome
    · cases hsome
    · obtain ⟨name, -, heq⟩ := Option.map_eq_some_iff.mp hsome
      cases heq
      exact hassertion

-- A function that comes out was there before, or it was called before one of the assertions.
theorem calledBefore_of_mem_focalMethodsOf (hentries : b.graph.ListsEntries)
    (values : List (Nat × String × Bool)) (found : List String) (st : Mutation.Memo) {name : String}
    (h : name ∈ ((p.focalMethodsOf b values found).run st).1) :
    name ∈ found ∨ ∃ value ∈ values, Trace.CalledBefore p b value.1 name := by
  induction values generalizing found st with
  | nil => exact .inl (mem_sortedNames.mp h)
  | cons value values ih =>
    obtain ⟨node, register, isReference⟩ := value
    rcases ih _ _ h with hfound | ⟨value, hvalue, hcalled⟩
    · rcases List.mem_append.mp hfound with hfound | hmethods
      · exact .inl hfound
      · exact .inr ⟨_, List.mem_cons_self, Trace.calledBefore_of_mem_focalMethods hentries
          register isReference st hmethods⟩
    · exact .inr ⟨value, List.mem_cons_of_mem _ hvalue, hcalled⟩

theorem calledBefore_of_mem_testFocalMethods
    (hentries : ∀ name body, p.bodies.get? name = some body → body.graph.ListsEntries)
    {test name : String} (h : name ∈ ((p.testFocalMethods test).run .empty).1) :
    ∃ body assertion, p.body? test = some body ∧ assertion ∈ body.assertions ∧
      Trace.CalledBefore p body assertion name := by
  unfold testFocalMethods at h
  split at h
  · cases h
  · next body hbody =>
    rcases calledBefore_of_mem_focalMethodsOf (hentries _ body hbody) _ _ _ h with
      hnone | ⟨⟨node, register, isReference⟩, hvalue, hcalled⟩
    · cases hnone
    · exact ⟨body, node, hbody, mem_assertions_of_mem_assertedValues hvalue, hcalled⟩

end Program

namespace Analysis

variable {framework : Framework} {maxDepth : Nat} {text : String}

theorem listsEntries_of_get? {sources : Table FunctionSource} {r : Registry} {a : Analysis}
    {waiting : List String} (h : Sound framework sources r a waiting) {name : String} {body : Body}
    (hbody : a.bodies.get? name = some body) : body.graph.ListsEntries := by
  obtain ⟨source, -, hscanned, -⟩ := h.scanned name (Table.contains_iff.mpr ⟨body, hbody⟩)
  rw [hbody] at hscanned
  cases hscanned
  exact (Scan.records_run _ _ _ _ _).entries.marked _

theorem mem_tests_iff_evaluated {test : String} :
    test ∈ (ofModule framework maxDepth text).tests ↔
      test ∈ (ofModule framework maxDepth text).evaluated ∧ framework.isTest test = true ∧
        framework.isExcluded test = false := by
  obtain ⟨⟨waiting, h⟩, hearlier⟩ := reached_ofModule framework maxDepth text
  have htests : test ∈ (ofModule framework maxDepth text).tests ↔
      test ∈ testNames framework (registryOf text) := by
    rw [ofModule_tests, filter_testNames]
  rw [htests]
  constructor
  · intro htest
    refine ⟨hearlier.subset htest, ?_⟩
    simpa [testNames] using (List.mem_filter.mp htest).2
  · rintro ⟨hevaluated, hkind⟩
    obtain ⟨source, hsource, -⟩ := h.sound.scanned test (h.listed.mem_iff.mp hevaluated)
    have hname := (contains_sourcesOf text test).mp (Table.contains_iff.mpr ⟨source, hsource⟩)
    exact List.mem_filter.mpr ⟨hname, by simp [hkind]⟩

theorem focalMethods_keys (a : Analysis) (framework : Framework) (maxDepth : Nat) :
    (a.focalMethods framework maxDepth).map (·.1) = sortedNames a.tests := by
  simp [focalMethods, Function.comp_def]

theorem Sound.mem_focalMethods {sources : Table FunctionSource} {r : Registry} {a : Analysis}
    {waiting : List String} (h : Sound framework sources r a waiting) {test name : String}
    {methods : List String} (hentry : (test, methods) ∈ a.focalMethods framework maxDepth)
    (hname : name ∈ methods) :
    (∃ body node call assertion, a.bodies.get? (a.registry.resolve test) = some body ∧
      (a.registry.isAlias test = false → a.bodies.get? test = some body) ∧
      body.call? node = some call ∧ call.isDirect = true ∧
      a.registry.resolve call.callee = name ∧ assertion ∈ body.assertions ∧
      Relation.TransGen body.graph.HasEdge node assertion) ∧
    Text.startsWith name "@llvm." = false ∧ framework.isAssertion name = false ∧
    framework.isExcluded name = false := by
  obtain ⟨_, -, heq⟩ := List.mem_map.mp hentry
  cases heq
  obtain ⟨body, assertion, hbody, hassertion, s, call, hmeets, rfl, hpath⟩ :=
    Program.calledBefore_of_mem_testFocalMethods (fun _ _ => listsEntries_of_get? h) hname
  have hallowed := hmeets.allowed
  simp only [Program.isOffLimits, Bool.or_eq_false_iff] at hallowed
  refine ⟨⟨body, s.node, call, assertion, hbody, ?_, hmeets.found, hmeets.direct, rfl,
    hassertion, hpath⟩, hallowed.1.1, hallowed.1.2, hallowed.2⟩
  intro halias
  rwa [Program.body?, program, Registry.resolve_of_not_isAlias halias] at hbody

-- The result has an entry for each scanned test. Every focal method of a test is called by its name
-- in the body that the name of the test stands for, where control can reach an assertion
-- afterwards; that is the body of the test, unless its name is an alias as well.
theorem focalMethods_safe (framework : Framework) (maxDepth : Nat) (text : String) :
    let a := ofModule framework maxDepth text
    ((a.focalMethods framework maxDepth).map (·.1)).Pairwise (· < ·) ∧
    (∀ test, test ∈ (a.focalMethods framework maxDepth).map (·.1) ↔
      test ∈ a.evaluated ∧ framework.isTest test = true ∧ framework.isExcluded test = false) ∧
    ∀ test methods, (test, methods) ∈ a.focalMethods framework maxDepth → ∀ name ∈ methods,
      (∃ body node call assertion, a.bodies.get? (a.registry.resolve test) = some body ∧
        (a.registry.isAlias test = false → a.bodies.get? test = some body) ∧
        body.call? node = some call ∧ call.isDirect = true ∧
        a.registry.resolve call.callee = name ∧ assertion ∈ body.assertions ∧
        Relation.TransGen body.graph.HasEdge node assertion) ∧
      Text.startsWith name "@llvm." = false ∧ framework.isAssertion name = false ∧
      framework.isExcluded name = false := by
  obtain ⟨waiting, h⟩ := exists_sound_ofModule framework maxDepth text
  refine ⟨?_, ?_, fun test methods hentry name hname => h.mem_focalMethods hentry hname⟩
  · rw [focalMethods_keys]
    exact pairwise_sortedNames _
  · intro test
    rw [focalMethods_keys, mem_sortedNames]
    exact mem_tests_iff_evaluated

-- A module with an alias that has the name of a test.
def aliasedTest : String :=
  "@t = alias void (), ptr @u\n" ++
  "define void @t() \x7b\ncall void @t()\nret void\n\x7d\n" ++
  "define void @u() \x7b\n%1 = call i8 @v()\ncall void @c(i8 %1)\nret void\n\x7d\n"

def aliasedTestNames : Framework :=
  .ofNames ["@t"] ["@c"]

-- The body of the test has no assertion, and still there is a focal method.
theorem focalMethods_aliasedTest_not_own :
    ¬∀ test methods, (test, methods) ∈
        (ofModule aliasedTestNames 1 aliasedTest).focalMethods aliasedTestNames 1 →
      ∀ name ∈ methods, ∃ body node call assertion,
        (ofModule aliasedTestNames 1 aliasedTest).bodies.get? test = some body ∧
        body.call? node = some call ∧ call.isDirect = true ∧
        (ofModule aliasedTestNames 1 aliasedTest).registry.resolve call.callee = name ∧
        assertion ∈ body.assertions ∧ Relation.TransGen body.graph.HasEdge node assertion := by
  have hmodule : (ofModule aliasedTestNames 1 aliasedTest).focalMethods aliasedTestNames 1 =
        [("@t", ["@v"])] ∧
      ((ofModule aliasedTestNames 1 aliasedTest).bodies.get? "@t").map (·.assertions) =
        some [] := by
    decide +kernel
  intro h
  obtain ⟨body, -, -, assertion, hbody, -, -, -, hassertion, -⟩ :=
    h "@t" ["@v"] (by simp [hmodule.1]) "@v" (by simp)
  have hnone := hmodule.2
  rw [hbody, Option.map_some, Option.some.injEq] at hnone
  rw [hnone] at hassertion
  cases hassertion

end Analysis

end TestFocus
