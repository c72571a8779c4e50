import TestFocus.Proofs.Analysis.TestIsolation
import TestFocus.Proofs.Comments.Registering
import TestFocus.Proofs.Comments.Searching

namespace TestFocus

open Text Line

namespace Analysis

variable (framework : Framework) {sources sources' : Table FunctionSource} {a a' : Analysis}

theorem Alike.evaluate (h : Alike a a') (name : String) {source source' : FunctionSource}
    (hsource : entries source.body = entries source'.body) :
    Alike (Analysis.evaluate framework a name source).1
        (Analysis.evaluate framework a' name source').1 ∧
      (Analysis.evaluate framework a name source).2 =
        (Analysis.evaluate framework a' name source').2 := by
  have hscan := Scan.alike_run framework h.registry.aliases a.callGraph name hsource
  have hregistry : (Analysis.evaluate framework a name source).1.registry.Alike
      (Analysis.evaluate framework a' name source').1.registry := by
    rw [evaluate_registry, evaluate_registry, Scan.sitesAlone_eq framework name hsource]
    exact h.registry.addCallSites name _
  simp only [Analysis.evaluate, ← h.callGraph] at hregistry ⊢
  exact ⟨{ h with
    registry := hregistry
    bodies := h.bodies.insert name hscan.body_eq
    callGraph := hscan.callGraph
    evaluated := by simp only [h.evaluated] }, hscan.callees⟩

theorem Alike.evaluateTest (h : Alike a a') (hsources : AlikeSources sources sources')
    (queue : List String) (name : String) :
    Alike (Analysis.evaluateTest framework sources (a, queue) name).1
        (Analysis.evaluateTest framework sources' (a', queue) name).1 ∧
      (Analysis.evaluateTest framework sources (a, queue) name).2 =
        (Analysis.evaluateTest framework sources' (a', queue) name).2 := by
  simp only [Analysis.evaluateTest]
  rcases rel_cases (hsources.get? name) with ⟨hnone, hnone'⟩ | ⟨source, source', hf, hf', hsource⟩
  · simp only [hnone, hnone']
    exact ⟨h, trivial⟩
  · have hmarked : Alike
        { a with callGraph := a.callGraph.markTest name, tests := a.tests ++ [name] }
        { a' with callGraph := a'.callGraph.markTest name, tests := a'.tests ++ [name] } :=
      { h with
        callGraph := by simp only [h.callGraph]
        tests := by simp only [h.tests] }
    obtain ⟨hscanned, hcallees⟩ := hmarked.evaluate framework name hsource
    simp only [hf, hf']
    exact ⟨hscanned, by rw [hcallees]⟩

theorem Alike.evaluateCallee (h : Alike a a') (hsources : AlikeSources sources sources')
    (queue : List String) (callee : String) :
    Alike (Analysis.evaluateCallee framework sources (a, queue) callee).1
        (Analysis.evaluateCallee framework sources' (a', queue) callee).1 ∧
      (Analysis.evaluateCallee framework sources (a, queue) callee).2 =
        (Analysis.evaluateCallee framework sources' (a', queue) callee).2 := by
  have hresolve := Registry.resolve_congr h.registry.aliases callee
  simp only [Analysis.evaluateCallee, hresolve, h.bodies.contains_eq]
  split
  · exact ⟨h, rfl⟩
  · split
    · exact ⟨h, rfl⟩
    · rcases rel_cases (hsources.get? (a'.registry.resolve callee)) with
        ⟨hnone, hnone'⟩ | ⟨source, source', hf, hf', hsource⟩
      · simp only [hnone, hnone']
        exact ⟨h, trivial⟩
      · obtain ⟨hscanned, hcallees⟩ := h.evaluate framework (a'.registry.resolve callee) hsource
        simp only [hf, hf']
        exact ⟨hscanned, by rw [hcallees]⟩

-- Steps that keep two analyses and their queues in step do so one after another.
theorem Alike.foldl {step step' : Analysis × List String → String → Analysis × List String}
    (hstep : ∀ {a a' : Analysis}, Alike a a' → ∀ queue name,
      Alike (step (a, queue) name).1 (step' (a', queue) name).1 ∧
        (step (a, queue) name).2 = (step' (a', queue) name).2)
    (h : Alike a a') (names queue : List String) :
    Alike (names.foldl step (a, queue)).1 (names.foldl step' (a', queue)).1 ∧
      (names.foldl step (a, queue)).2 = (names.foldl step' (a', queue)).2 := by
  induction names generalizing a a' queue with
  | nil => exact ⟨h, rfl⟩
  | cons name names ih =>
    obtain ⟨hnext, hqueue⟩ := hstep h queue name
    have hstate : step' (a', queue) name =
        ((step' (a', queue) name).1, (step (a, queue) name).2) := Prod.ext rfl hqueue.symm
    rw [List.foldl_cons, List.foldl_cons, hstate]
    exact ih hnext (step (a, queue) name).2

theorem Alike.expand (hsources : AlikeSources sources sources') (levels : Nat) (h : Alike a a')
    (queue : List String) :
    Alike (Analysis.expand framework sources levels a queue)
      (Analysis.expand framework sources' levels a' queue) := by
  induction levels generalizing a a' queue with
  | zero => exact h
  | succ levels ih =>
    cases queue with
    | nil => exact h
    | cons callee queue =>
      obtain ⟨hlevel, hnext⟩ := h.foldl (fun h => h.evaluateCallee framework hsources)
        (callee :: queue) []
      simp only [Analysis.expand, ← hnext]
      exact ih hlevel _

theorem alike_ofModule (maxDepth : Nat) {text text' : String}
    (h : (ModuleSource.split text).Alike (ModuleSource.split text')) :
    Alike (ofModule framework maxDepth text) (ofModule framework maxDepth text') := by
  obtain ⟨hregistered, hsources⟩ := alike_register h
  have htests : testNames framework (register (.split text)).1.registry =
      testNames framework (register (.split text')).1.registry := by
    simp only [testNames, Registry.names, hregistered.registry.definitions.keys]
  obtain ⟨hscanned, hqueue⟩ := hregistered.foldl
    (fun h => h.evaluateTest framework hsources)
    (testNames framework (register (.split text)).1.registry) []
  simp only [ofModule, ← htests, ← hqueue]
  exact hscanned.expand framework hsources maxDepth _

theorem Alike.surface (h : Alike a a') (maxDepth : Nat) :
    Program.SameSurface (Analysis.program a framework maxDepth)
      (Analysis.program a' framework maxDepth) where
  aliases := h.registry.aliases
  readOnly := h.registry.functionAttributes_eq
  parameter name index := by
    simp only [Analysis.program]
    rcases rel_cases (h.registry.get? name) with ⟨hnone, hnone'⟩ | ⟨d, d', hd, hd', halike⟩
    · rw [hnone, hnone']
      exact .none
    · rw [hd, hd', Option.bind_some, Option.bind_some]
      rcases rel_cases (rel_getElem? halike.parameters index) with
        ⟨hnone, hnone'⟩ | ⟨q, q', hq, hq', hrole⟩
      · rw [hnone, hnone']
        exact .none
      · rw [hq, hq']
        exact .some ⟨hrole.register, any_isReadOnly_eq hrole.attributes⟩
  isAssertion := rfl
  isExcluded := rfl
  isAssertionType := rfl
  maxDepth := rfl

theorem Alike.program (h : Alike a a') (maxDepth : Nat) :
    Program.Alike (Analysis.program a framework maxDepth)
      (Analysis.program a' framework maxDepth) where
  surface := h.surface framework maxDepth
  bodies := h.bodies.get?
  callSites := h.registry.callSites_eq

-- The way in which lines are laid out, with comments and without, decides neither which functions
-- are scanned nor what is found in them.
theorem focalMethods_relaid (maxDepth : Nat) {text text' : String}
    (h : Relaid .outside (lines text) (lines text')) :
    (ofModule framework maxDepth text').focalMethods framework maxDepth =
        (ofModule framework maxDepth text).focalMethods framework maxDepth ∧
      (ofModule framework maxDepth text').evaluated = (ofModule framework maxDepth text).evaluated ∧
      (ofModule framework maxDepth text').callGraph = (ofModule framework maxDepth text).callGraph ∧
      ∀ name, ((ofModule framework maxDepth text').bodies.get? name).map Body.unnumbered =
        ((ofModule framework maxDepth text).bodies.get? name).map Body.unnumbered := by
  have halike := alike_ofModule framework maxDepth (ModuleSource.split_alike h)
  obtain ⟨_, hsound⟩ := exists_sound_ofModule framework maxDepth text
  obtain ⟨_, hsound'⟩ := exists_sound_ofModule framework maxDepth text'
  refine ⟨?_, halike.evaluated.symm, halike.callGraph.symm, fun name => ?_⟩
  · have htests (test : String) :=
      (halike.program framework maxDepth).testFocalMethods_eq (hsound.wellNamed maxDepth)
        (hsound'.wellNamed maxDepth) test
    simp only [focalMethods, halike.tests, htests]
  · rcases rel_cases (halike.bodies.get? name) with ⟨hnone, hnone'⟩ | ⟨b, b', hb, hb', hbody⟩
    · rw [hnone, hnone']
    · rw [hb, hb', Option.map_some, Option.map_some, hbody]

-- A module with one test, and the same module with comments and with lines more.
def plainTest : String :=
  "define void @t()\n" ++
  "\x7b\n" ++
  "%1 = call i8 @a()\n" ++
  "call void @c(i8 %1)\n" ++
  "\x7d"

def annotatedTest : String :=
  "; a test\n" ++
  "define void @t() ; no names\n" ++
  "\n" ++
  "\x7b\n" ++
  "%1 = call i8 @a()\t; \"@b\"\n" ++
  "  ; and then\n" ++
  "call void @c(i8 %1)\n" ++
  "\x7d"

theorem focalMethods_relaid_annotatedTest :
    Relaid .outside (lines plainTest) (lines annotatedTest) ∧
      (ofModule (.ofNames ["@t"] ["@c"]) 1 annotatedTest).focalMethods (.ofNames ["@t"] ["@c"]) 1 =
        (ofModule (.ofNames ["@t"] ["@c"]) 1 plainTest).focalMethods
          (.ofNames ["@t"] ["@c"]) 1 := by
  have hplain : lines plainTest = ["define void @t()", "\x7b", "%1 = call i8 @a()",
      "call void @c(i8 %1)", "\x7d"] := by
    decide +kernel
  have hannotated : lines annotatedTest = [withComment "" "" " a test",
      withComment "define void @t()" " " " no names", "", "\x7b",
      withComment "%1 = call i8 @a()" "\t" " \"@b\"", withComment "" "  " " and then",
      "call void @c(i8 %1)", "\x7d"] := by
    decide +kernel
  have hheader : Region.outside.after "define void @t()" = .header "define void @t()" := by
    decide +kernel
  have hbrace : (Region.header "define void @t()").after "\x7b" = .body := by decide +kernel
  have hcall : Region.body.after "%1 = call i8 @a()" = .body := by decide +kernel
  have hbody : Relaid .body ["%1 = call i8 @a()", "call void @c(i8 %1)", "\x7d"]
      [withComment "%1 = call i8 @a()" "\t" " \"@b\"", withComment "" "  " " and then",
        "call void @c(i8 %1)", "\x7d"] := by
    refine .commented ?_ ?_ ?_ ?_ ?_ ?_
    case refine_6 =>
      rw [hcall]
      exact .inserted (.comment _ (by decide)) (by decide) trivial (.kept _ (.kept _ (.nil _)))
    all_goals decide +kernel
  have hrelaid : Relaid .outside (lines plainTest) (lines annotatedTest) := by
    rw [hplain, hannotated]
    refine .inserted (.comment _ (by decide)) (by decide) trivial (.commented ?_ ?_ ?_ ?_ ?_ ?_)
    case refine_6 =>
      rw [hheader]
      refine .inserted (.blank (by decide)) (by decide) (by decide +kernel) (.kept _ ?_)
      rw [hbrace]
      exact hbody
    all_goals decide +kernel
  exact ⟨hrelaid, (focalMethods_relaid (.ofNames ["@t"] ["@c"]) 1 hrelaid).1⟩

end Analysis

end TestFocus
