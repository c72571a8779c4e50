import TestFocus.Proofs.Analysis.Agreement
import TestFocus.Proofs.Analysis.Coverage
import TestFocus.Proofs.Trace.Collection

-- The focal methods of a test do not depend on which other functions are tests. Other tests make
-- the analysis scan more bodies, but every body that the search of a test can look into is
-- scanned for that test as well: a question that is asked `n` calls below the test has a budget
-- that ends where the levels of the scan end.

namespace TestFocus

theorem Body.alike_marked (b : Body) (keep keep' : Bool) :
    Body.Alike (b.marked keep) (b.marked keep') where
  name := rfl
  dataflow := rfl
  call node := by rw [call?_marked, call?_marked]
  assignee node := by rw [assignee?_marked, assignee?_marked]

namespace Analysis

section Scanned

variable {framework : Framework} {sources : Table FunctionSource} {r : Registry} {a : Analysis}
  {waiting : List String}

theorem Sound.wellNamed (h : Sound framework sources r a waiting) (maxDepth : Nat) :
    (a.program framework maxDepth).WellNamed := by
  intro name body hbody
  have hcontains : a.bodies.contains name = true := Table.contains_iff.mpr ⟨body, hbody⟩
  obtain ⟨source, -, hscanned, -⟩ := h.scanned name hcontains
  have heq : body = (Scan.alone framework name source).body.marked (framework.isTest name) :=
    Option.some.inj (hbody.symm.trans hscanned)
  rw [heq]
  exact Scan.body_name framework name source

-- The scan changes nothing that a header says.
theorem Sound.header_eq (h : Sound framework sources r a waiting) (name : String) :
    (a.registry.definitions.get? name).map (·.header) =
      (r.definitions.get? name).map (·.header) := by
  cases hcontains : a.bodies.contains name with
  | false => rw [h.unscanned name hcontains]
  | true =>
    obtain ⟨source, -, -, hdefinition⟩ := h.scanned name hcontains
    rw [hdefinition, Option.map_map]
    rfl

theorem Sound.get?_eq_none (h : Sound framework sources r a waiting) {name : String}
    (hsource : sources.contains name = false) : a.bodies.get? name = none := by
  rw [← Table.contains_eq_false_iff]
  cases hcontains : a.bodies.contains name with
  | false => rfl
  | true =>
    obtain ⟨source, hfound, -⟩ := h.scanned name hcontains
    rw [Table.contains_eq_false_iff, hfound] at hsource
    cases hsource

-- What a scanned function has: the body, and the calls.
theorem Sound.scan_eq (h : Sound framework sources r a waiting) {name : String}
    {source : FunctionSource} (hcontains : a.bodies.contains name = true)
    (hsource : sources.get? name = some source) :
    a.bodies.get? name = some ((Scan.alone framework name source).body.marked
        (framework.isTest name)) ∧
      a.registry.definitions.get? name =
        (r.definitions.get? name).map (·.withCalls (Scan.sitesAlone framework name source)) := by
  obtain ⟨found, hfound, hscan⟩ := h.scanned name hcontains
  rw [hsource] at hfound
  cases hfound
  exact hscan

theorem Sound.get?_of_not_isAlias (h : Sound framework sources r a waiting) {name : String}
    (halias : r.isAlias name = false) :
    a.registry.get? name = a.registry.definitions.get? name := by
  rw [Registry.get?, h.resolve_eq, Registry.resolve_of_not_isAlias halias]

theorem Sound.body?_of_not_isAlias (h : Sound framework sources r a waiting) {name : String}
    (halias : r.isAlias name = false) (maxDepth : Nat) :
    (a.program framework maxDepth).body? name = a.bodies.get? name := by
  rw [Program.body?, program, h.resolve_eq, Registry.resolve_of_not_isAlias halias]

-- Where no source has the name of an alias, a chain of aliases without an end has no body.
theorem Sound.body?_of_isAlias (h : Sound framework sources r a waiting)
    (hapart : ∀ name, sources.contains name = true → r.isAlias name = false) {name : String}
    (halias : r.isAlias (r.resolve name) = true) (maxDepth : Nat) :
    (a.program framework maxDepth).body? (r.resolve name) = none := by
  rw [Program.body?, program, h.resolve_eq]
  apply h.get?_eq_none
  by_contra hsource
  rw [Bool.not_eq_false] at hsource
  have hagain := Registry.isAlias_resolve_resolve halias
  rw [hapart _ hsource] at hagain
  cases hagain

end Scanned

section Isolation

variable {framework : Framework} {sources : Table FunctionSource} {r : Registry}
  {a a' : Analysis} {waiting waiting' : List String} {test : String}

theorem sameNames_only (h : Sound framework sources r a waiting)
    (h' : Sound (framework.only test) sources r a' waiting') (maxDepth : Nat) :
    (a.program framework maxDepth).SameNames (a'.program (framework.only test) maxDepth) where
  aliases := h.aliases.trans h'.aliases.symm
  attributeGroups := h.attributeGroups.trans h'.attributeGroups.symm
  header name := (h.header_eq name).trans (h'.header_eq name).symm
  isAssertion := rfl
  isExcluded := rfl
  isAssertionType := rfl
  maxDepth := rfl

theorem callsOf_only (h : Sound framework sources r a waiting)
    (h' : Sound (framework.only test) sources r a' waiting') {name : String}
    {source : FunctionSource} (hsource : sources.get? name = some source)
    (halias : r.isAlias name = false) (hcontains : a.bodies.contains name = true)
    (hcontains' : a'.bodies.contains name = true) (maxDepth : Nat) (keep keep' : Bool) :
    (a.program framework maxDepth).callsOf
        ((Scan.alone framework name source).body.marked keep) =
      (a'.program (framework.only test) maxDepth).callsOf
        ((Scan.alone framework name source).body.marked keep') := by
  have hsites : a.registry.callSites name = a'.registry.callSites name := by
    rw [Registry.callSites, Registry.callSites, h.get?_of_not_isAlias halias,
      h'.get?_of_not_isAlias halias, (h.scan_eq hcontains hsource).2,
      (h'.scan_eq hcontains' hsource).2]
    rfl
  have hname : ((Scan.alone framework name source).body.marked keep).name = name :=
    Scan.body_name framework name source
  have hname' : ((Scan.alone framework name source).body.marked keep').name = name :=
    Scan.body_name framework name source
  simp only [Program.callsOf, program, hname, hname', hsites, Body.call?_marked]

-- A call that may be looked into is followed by the scan.
theorem stopsAt_eq_false
    (hassertions : ∀ name, r.isAlias name = true → framework.isAssertion name = true →
      framework.isAssertion (r.resolve name) = true) {callee : String} {maxDepth : Nat}
    (hlimits : ¬(a.program framework maxDepth).isOffLimits (r.resolve callee)) :
    framework.stopsAt callee (r.resolve callee) = false := by
  simp only [Program.isOffLimits, program, Bool.or_eq_true, not_or, Bool.not_eq_true] at hlimits
  have hcallee : framework.isAssertion callee = false := by
    cases halias : r.isAlias callee with
    | false =>
      rw [← hlimits.1.2, Registry.resolve_of_not_isAlias halias]
    | true =>
      by_contra hassertion
      rw [Bool.not_eq_false] at hassertion
      have hresolved := hassertions callee halias hassertion
      rw [hlimits.1.2] at hresolved
      cases hresolved
  simp only [Framework.stopsAt, hcallee, hlimits.1.2, hlimits.2, Bool.or_self]

-- Which function is a test does not matter to where calls lead.
theorem CallPath.only {calls : Nat} {name target : String}
    (h : CallPath framework sources r calls name target) :
    CallPath (framework.only test) sources r calls name target := by
  induction h with
  | here name => exact .here name
  | call hcall _ ih => exact .call hcall ih

-- Both analyses agree on a function that is called `calls` calls below the test, as far as the scan
-- of the test goes. The induction is on the budget: a call further down leaves one level less to
-- the classifier and to the scan.
theorem agree_of_callPath (h : Sound framework sources r a waiting)
    (h' : Sound (framework.only test) sources r a' waiting') {maxDepth : Nat}
    (hapart : ∀ name, sources.contains name = true → r.isAlias name = false)
    (hassertions : ∀ name, r.isAlias name = true → framework.isAssertion name = true →
      framework.isAssertion (r.resolve name) = true)
    (hreach : ∀ calls target, CallPath framework sources r calls test target → calls ≤ maxDepth →
      a.bodies.contains target = true ∧ a'.bodies.contains target = true)
    {budget calls : Nat} {caller callee : String} {source : FunctionSource}
    (hpath : CallPath framework sources r calls test caller) (hbudget : calls + budget ≤ maxDepth)
    (hsource : sources.get? caller = some source)
    (hcallee : callee ∈ (Scan.alone framework caller source).callees)
    (hlimits : ¬(a.program framework maxDepth).isOffLimits (r.resolve callee)) :
    (a.program framework maxDepth).Agree (a'.program (framework.only test) maxDepth) budget
      (r.resolve callee) := by
  induction budget generalizing calls caller callee source with
  | zero => trivial
  | succ budget ih =>
    cases halias : r.isAlias (r.resolve callee) with
    | true =>
      left
      exact ⟨h.body?_of_isAlias hapart halias maxDepth, h'.body?_of_isAlias hapart halias maxDepth⟩
    | false =>
      rw [Program.Agree, h.body?_of_not_isAlias halias, h'.body?_of_not_isAlias halias]
      cases hfound : sources.get? (r.resolve callee) with
      | none =>
        have hnone : sources.contains (r.resolve callee) = false :=
          Table.contains_eq_false_iff.mpr hfound
        exact .inl ⟨h.get?_eq_none hnone, h'.get?_eq_none hnone⟩
      | some found =>
        have hcall : CallsInto framework sources r caller (r.resolve callee) :=
          ⟨source, callee, hsource, hcallee, stopsAt_eq_false hassertions hlimits, rfl,
            Table.contains_iff.mpr ⟨found, hfound⟩⟩
        have hnext := hpath.snoc hcall
        obtain ⟨hcontains, hcontains'⟩ := hreach _ _ hnext (by omega)
        refine .inr ⟨_, _, (h.scan_eq hcontains hfound).1, (h'.scan_eq hcontains' hfound).1,
          Body.alike_marked _ _ _, callsOf_only h h' hfound halias hcontains hcontains' _ _ _, ?_⟩
        intro node call hcall hdirect hbelow
        rw [Body.call?_marked] at hcall
        simp only [program, h.resolve_eq] at hbelow ⊢
        exact ih hnext (by omega) hfound
          (Scan.callee_mem_alone framework _ found hcall hdirect) hbelow

end Isolation

-- What the result says of one test.
theorem lookup_focalMethods (a : Analysis) (framework : Framework) (maxDepth : Nat)
    (test : String) :
    (a.focalMethods framework maxDepth).lookup test =
      if test ∈ a.tests then
        some (((a.program framework maxDepth).testFocalMethods test).run .empty).1
      else none := by
  have hlookup (names : List String) (value : String → List String) :
      (names.map fun name => (name, value name)).lookup test =
        if test ∈ names then some (value test) else none := by
    induction names with
    | nil => rfl
    | cons name names ih =>
      by_cases hname : test = name
      · simp [hname]
      · have hne : (test == name) = false := beq_false_of_ne hname
        simp [List.lookup_cons, hne, hname, ih]
  simp only [focalMethods, hlookup, mem_sortedNames]

section Module

variable {framework : Framework} {maxDepth : Nat} {text test : String}

theorem mem_tests_iff :
    test ∈ (ofModule framework maxDepth text).tests ↔
      test ∈ (registryOf text).names ∧ framework.isTest test = true ∧
        framework.isExcluded test = false ∧ (sourcesOf text).contains test = true := by
  simp only [ofModule_tests, testNames, List.mem_filter, Bool.and_eq_true, Bool.not_eq_true',
    and_assoc]

theorem mem_tests_only_iff :
    test ∈ (ofModule (framework.only test) maxDepth text).tests ↔
      test ∈ (ofModule framework maxDepth text).tests := by
  simp only [mem_tests_iff, Framework.only, beq_self_eq_true, Bool.and_true]

theorem isAlias_eq_false_of_source
    (hnames : ∀ name ∈ (registryOf text).aliases.keys, name ∉ (registryOf text).names)
    {name : String} (hsource : (sourcesOf text).contains name = true) :
    (registryOf text).isAlias name = false := by
  by_contra halias
  rw [Bool.not_eq_false] at halias
  have hdefined := (registered_register (.split text)).defined name hsource
  exact hnames name (Table.mem_keys_iff.mpr halias) (Table.mem_keys_iff.mpr hdefined)

theorem body?_of_mem_tests
    (hnames : ∀ name ∈ (registryOf text).aliases.keys, name ∉ (registryOf text).names)
    (htest : test ∈ (ofModule framework maxDepth text).tests) {source : FunctionSource}
    (hsource : (sourcesOf text).get? test = some source) :
    ((ofModule framework maxDepth text).program framework maxDepth).body? test =
      some ((Scan.alone framework test source).body.marked true) := by
  obtain ⟨waiting, h⟩ := exists_sound_ofModule framework maxDepth text
  obtain ⟨-, his, -, hcontains⟩ := mem_tests_iff.mp htest
  have hscanned := contains_ofModule htest (.here test) (Nat.zero_le maxDepth)
  rw [h.body?_of_not_isAlias (isAlias_eq_false_of_source hnames hcontains),
    (h.scan_eq hscanned hsource).1, his]

-- A test has the focal methods that it has when it is the only test. No alias may have the name of
-- a function, and an alias may look like an assertion only if it stands for one.
theorem focalMethods_lookup_only (framework : Framework) (maxDepth : Nat) (text test : String)
    (hdepth : 1 ≤ maxDepth)
    (hnames : ∀ name ∈ (registryOf text).aliases.keys, name ∉ (registryOf text).names)
    (hassertions : ∀ name ∈ (registryOf text).aliases.keys, framework.isAssertion name = true →
      framework.isAssertion ((registryOf text).resolve name) = true) :
    ((ofModule framework maxDepth text).focalMethods framework maxDepth).lookup test =
      ((ofModule (framework.only test) maxDepth text).focalMethods (framework.only test)
        maxDepth).lookup test := by
  obtain ⟨waiting, h⟩ := exists_sound_ofModule framework maxDepth text
  obtain ⟨waiting', h'⟩ := exists_sound_ofModule (framework.only test) maxDepth text
  rw [lookup_focalMethods, lookup_focalMethods]
  by_cases htest : test ∈ (ofModule framework maxDepth text).tests
  · have htest' := mem_tests_only_iff.mpr htest
    rw [if_pos htest, if_pos htest']
    obtain ⟨source, hsource⟩ := Table.contains_iff.mp (mem_tests_iff.mp htest).2.2.2
    have hreach (calls : Nat) (target : String)
        (hpath : CallPath framework (sourcesOf text) (registryOf text) calls test target)
        (hcalls : calls ≤ maxDepth) :
        (ofModule framework maxDepth text).bodies.contains target = true ∧
          (ofModule (framework.only test) maxDepth text).bodies.contains target = true :=
      ⟨contains_ofModule htest hpath hcalls, contains_ofModule htest' hpath.only hcalls⟩
    have hcalls : ((ofModule framework maxDepth text).program framework maxDepth).CallsAgree
        ((ofModule (framework.only test) maxDepth text).program (framework.only test) maxDepth)
        ((Scan.alone framework test source).body.marked true) := by
      intro node call hcall hdirect hlimits
      rw [Body.call?_marked] at hcall
      simp only [program, h.resolve_eq] at hlimits ⊢
      refine agree_of_callPath h h' (fun _ => isAlias_eq_false_of_source hnames) ?_ hreach
        (.here test) (by omega) hsource
        (Scan.callee_mem_alone framework _ source hcall hdirect) hlimits
      intro name halias
      exact hassertions name (Table.mem_keys_iff.mpr halias)
    rw [hcalls.testFocalMethods_eq (h.wellNamed maxDepth) (h'.wellNamed maxDepth)
      (sameNames_only h h' maxDepth).surface hdepth (body?_of_mem_tests hnames htest hsource)
      (body?_of_mem_tests hnames htest' hsource)]
  · rw [if_neg htest, if_neg (mem_tests_only_iff.not.mpr htest)]

-- A module in which one test calls another one, and that one a function by an alias.
def nestedTests : String :=
  "@b = alias i8, ptr @a\n" ++
  "define i8 @a() \x7b\n%1 = add i8 1, 1\nret i8 %1\n\x7d\n" ++
  "define i8 @t() \x7b\n%1 = call i8 @b()\nret i8 %1\n\x7d\n" ++
  "define i8 @u() \x7b\n%1 = call i8 @t()\ncall i8 @c(i8 %1)\n\x7d"

def nestedTestNames : Framework :=
  .ofNames ["@t", "@u"] ["@c"]

theorem focalMethods_lookup_only_nestedTests :
    "@u" ∈ (ofModule nestedTestNames 3 nestedTests).tests ∧
      ((ofModule nestedTestNames 3 nestedTests).focalMethods nestedTestNames 3).lookup "@u" =
        ((ofModule (nestedTestNames.only "@u") 3 nestedTests).focalMethods
          (nestedTestNames.only "@u") 3).lookup "@u" := by
  -- stated together, so that the module is read once
  have hmodule : (∀ name ∈ (registryOf nestedTests).aliases.keys,
        name ∉ (registryOf nestedTests).names) ∧
      (∀ name ∈ (registryOf nestedTests).aliases.keys, nestedTestNames.isAssertion name = true →
        nestedTestNames.isAssertion ((registryOf nestedTests).resolve name) = true) ∧
      "@u" ∈ (registryOf nestedTests).names ∧ nestedTestNames.isTest "@u" = true ∧
      nestedTestNames.isExcluded "@u" = false ∧ (sourcesOf nestedTests).contains "@u" = true := by
    decide +kernel
  obtain ⟨hnames, hassertions, htest⟩ := hmodule
  exact ⟨mem_tests_iff.mpr htest,
    focalMethods_lookup_only nestedTestNames 3 nestedTests "@u" (by decide) hnames hassertions⟩

end Module

end Analysis

end TestFocus
