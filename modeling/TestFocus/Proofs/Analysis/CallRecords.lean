import TestFocus.Proofs.Analysis.BodyRecords
import TestFocus.Proofs.Analysis.Horizon
import TestFocus.Proofs.Reading.HeaderClauses

namespace TestFocus

namespace FlowGraph

variable (keep : Bool) (g : FlowGraph)

theorem statements_marked : (g.marked keep).statements = g.statements := by
  simp only [statements, marked, Array.toList_map, List.filterMap_map]
  rfl

theorem isAssertion_marked (id : Nat) : (g.marked keep).isAssertion id = g.isAssertion id := by
  simp only [isAssertion, node?, marked, Array.getElem?_map, Option.any_map]
  rfl

theorem callSites_marked : (g.marked keep).callSites = g.callSites := by
  rw [callSites, callSites, statements_marked]

end FlowGraph

namespace Analysis

section Registration

theorem callSites_addDefinitions (functions : List FunctionSource) {a : Analysis}
    {sources : Table FunctionSource}
    (h : ∀ name d, a.registry.definitions.get? name = some d → d.callSites = []) (name : String)
    (d : Definition)
    (hd : (functions.foldl addDefinition (a, sources)).1.registry.definitions.get? name = some d) :
    d.callSites = [] := by
  induction functions generalizing a sources with
  | nil => exact h name d hd
  | cons source functions ih =>
    rw [List.foldl_cons] at hd
    refine ih (fun other d' hd' => ?_) hd
    simp only at hd'
    split at hd'
    · next defined hparse =>
      have hget : (a.registry.define defined).definitions.get? other = some d' := by
        split at hd' <;> exact hd'
      rw [Registry.define, Table.get?_insert] at hget
      split at hget
      · cases hget
        exact Definition.callSites_of_parse hparse
      · exact h other d' hget
    · exact h other d' hd'

-- Before any body is scanned, no call is recorded.
theorem callSites_registryOf {text name : String} {d : Definition}
    (h : (registryOf text).definitions.get? name = some d) : d.callSites = [] := by
  refine callSites_addDefinitions _ ?_ name d h
  intro other d' hd'
  rw [(addAttributeGroups_frame _ _).1, (addAliases_frame _ _).1] at hd'
  cases hd'

end Registration

section Edges

variable {r : Registry} {a : Analysis}

-- Every call that a scanned body makes by a name is noted in the call graph, under the function
-- that the name stands for.
structure Joined (r : Registry) (a : Analysis) : Prop where
  aliases : a.registry.aliases = r.aliases
  formed : a.callGraph.WellFormed
  edges : ∀ name body, a.bodies.get? name = some body → ∀ node call, body.call? node = some call →
    call.isDirect = true → (name, r.resolve call.callee) ∈ a.callGraph.calls

theorem Joined.evaluate (h : Joined r a) (framework : Framework) (name : String)
    (source : FunctionSource) : Joined r (a.evaluate framework name source).1 := by
  have hnoted := Scan.noted_run framework a.registry h.formed name source
  constructor
  case aliases => rw [evaluate_registry, Registry.addCallSites_aliases, h.aliases]
  case formed => exact hnoted.formed
  case edges =>
    intro other body hbody node call hcall hdirect
    rw [evaluate_bodies, Table.get?_insert] at hbody
    split at hbody
    · next hother =>
      cases hbody
      subst hother
      rw [Body.call?_marked] at hcall
      have hcallee := Scan.callee_mem_alone framework other source hcall hdirect
      rw [← Scan.run_callees framework a.registry a.callGraph] at hcallee
      have hjoined := hnoted.joined _ hcallee
      have hfunction : (Scan.run framework a.registry a.callGraph other source).function = other :=
        Scan.run_function framework _ _
      have haliases : (Scan.run framework a.registry a.callGraph other source).registry.aliases =
          r.aliases := by
        rw [Scan.run_registry, Registry.addCallSites_aliases, h.aliases]
      rwa [hfunction, Registry.resolve_congr haliases] at hjoined
    · exact hnoted.kept (h.edges other body hbody node call hcall hdirect)

end Edges

section Runs

variable (framework : Framework) (maxDepth : Nat) (text : String) {P : Analysis → Prop}

-- What holds once the names are registered, and what marks of tests and scans of bodies keep, holds
-- in the end.
theorem ofModule_induction (hregister : P (register (.split text)).1)
    (hmark : ∀ a name, P a →
      P { a with callGraph := a.callGraph.markTest name, tests := a.tests ++ [name] })
    (hevaluate : ∀ a name source, P a → P (a.evaluate framework name source).1) :
    P (ofModule framework maxDepth text) := by
  have hcallee (a : Analysis) (next : List String) (callee : String) (h : P a) :
      P (evaluateCallee framework (sourcesOf text) (a, next) callee).1 := by
    rcases evaluateCallee_cases framework (sourcesOf text) a next callee with
      heq | ⟨source, -, -, -, heq⟩
    · rw [heq]
      exact h
    · rw [heq]
      exact hevaluate a _ source h
  have hcallees (queue : List String) (a : Analysis) (next : List String) (h : P a) :
      P (queue.foldl (evaluateCallee framework (sourcesOf text)) (a, next)).1 := by
    induction queue generalizing a next with
    | nil => exact h
    | cons callee queue ih => exact ih _ _ (hcallee a next callee h)
  have hexpand (levels : Nat) (a : Analysis) (queue : List String) (h : P a) :
      P (expand framework (sourcesOf text) levels a queue) := by
    induction levels generalizing a queue with
    | zero => exact h
    | succ levels ih =>
      cases queue with
      | nil => exact h
      | cons callee queue => exact ih _ _ (hcallees (callee :: queue) a [] h)
  have htest (a : Analysis) (queue : List String) (name : String) (h : P a) :
      P (evaluateTest framework (sourcesOf text) (a, queue) name).1 := by
    simp only [evaluateTest]
    split
    · exact h
    · exact hevaluate _ name _ (hmark a name h)
  have htests (names : List String) (a : Analysis) (queue : List String) (h : P a) :
      P (names.foldl (evaluateTest framework (sourcesOf text)) (a, queue)).1 := by
    induction names generalizing a queue with
    | nil => exact h
    | cons name names ih => exact ih _ _ (htest a queue name h)
  exact hexpand maxDepth _ _ (htests _ _ [] hregister)

theorem joined_ofModule : Joined (registryOf text) (ofModule framework maxDepth text) := by
  apply ofModule_induction
  · have hregistered := registered_register (.split text)
    refine ⟨rfl, hregistered.callGraph, fun name body hbody => ?_⟩
    rw [hregistered.bodies] at hbody
    cases hbody
  · intro a name h
    exact
      { h with
        formed := h.formed.markTest name
        edges := fun other body hbody node call hcall hdirect => by
          rw [h.formed.calls_markTest]
          exact h.edges other body hbody node call hcall hdirect }
  · exact fun a name source h => h.evaluate framework name source

end Runs

section Agreement

-- The registry, the call graph of the module and the body of a function say the same of its calls.
structure CallsAgree (a : Analysis) (name : String) (source : FunctionSource) (body : Body) :
    Prop where
  -- the graph of the body holds its statements, in the order of its lines
  statements : body.graph.statements.map (·.2) = (stops source).filterMap Stop.statement?
  sites : a.registry.callSites name = body.graph.callSites
  ordered : (a.registry.callSites name).Pairwise (·.node < ·.node)
  marks : ∀ node, body.graph.isAssertion node = true ↔ node ∈ body.assertions
  assertions : ∀ node ∈ body.assertions, ∃ site ∈ a.registry.callSites name, site.node = node
  results : ∀ register node, body.dataflow.definition? register = some (.callResult node) →
    body.assignee? node = some register ∧ ∃ call, body.call? node = some call
  edges : ∀ site ∈ a.registry.callSites name, Operand.isGlobal site.callee = true →
    (name, a.registry.resolve site.callee) ∈ a.callGraph.calls

-- The graph of a body holds the statements of the lines.
theorem statements_alone (framework : Framework) (name : String) (source : FunctionSource) :
    (Scan.alone framework name source).graph.WellFormed ∧
      (Scan.alone framework name source).graph.statements.map (·.2) =
        (stops source).filterMap Stop.statement? := by
  obtain ⟨more, hmore, hshows⟩ := (Scan.shows_start framework.allTests name .empty .empty).addLines
    framework.allTests (logicalLines source.body)
  have hdepicts : (Scan.alone framework name source).graph.Depicts
      (Scan.alone framework name source).entry ([(0, .entry)] ++ more) := hshows.graph
  have hplaces : ([(0, .entry)] ++ more : Places).map (·.2) = stops source := by
    rw [List.map_append, hmore]
    rfl
  have hstatements := hdepicts.statements
  refine ⟨hdepicts.toWellFormed, ?_⟩
  rw [← hplaces, hstatements, List.map_filterMap, List.filterMap_map]
  simp [Function.comp_def]

-- Under the name of a function that is no alias, the registry has the calls of its body.
theorem Sound.callSites_eq {framework : Framework} {text : String} {a : Analysis}
    {waiting : List String} (h : Sound framework (sourcesOf text) (registryOf text) a waiting)
    (hnames : ∀ name ∈ (registryOf text).aliases.keys, name ∉ (registryOf text).names)
    {name : String} {source : FunctionSource} (hsource : (sourcesOf text).get? name = some source)
    (hscanned : a.bodies.contains name = true) :
    a.registry.callSites name = (Scan.alone framework name source).graph.callSites := by
  have hdefined : name ∈ (registryOf text).names :=
    (contains_sourcesOf text name).mp (Table.contains_iff.mpr ⟨source, hsource⟩)
  have halias : a.registry.isAlias name = false := by
    by_contra halias
    rw [Bool.not_eq_false, Registry.isAlias, h.aliases] at halias
    exact hnames name (Table.mem_keys_iff.mpr halias) hdefined
  obtain ⟨d, hd⟩ := Table.contains_iff.mp (Table.mem_keys_iff.mp hdefined)
  obtain ⟨source', hsource', -, hdefinition⟩ := h.scanned name hscanned
  rw [hsource] at hsource'
  cases hsource'
  rw [hd] at hdefinition
  rw [Registry.callSites, Registry.get?, Registry.resolve_of_not_isAlias halias, hdefinition,
    Scan.callSites_alone]
  simp [Definition.withCalls, callSites_registryOf hd]

-- The calls of every scanned function, in a module where no alias has the name of a function.
theorem callsAgree_ofModule (framework : Framework) (maxDepth : Nat) (text : String)
    (hnames : ∀ name ∈ (registryOf text).aliases.keys, name ∉ (registryOf text).names)
    {name : String} (hname : name ∈ (ofModule framework maxDepth text).evaluated) :
    ∃ source body, (sourcesOf text).get? name = some source ∧
      (ofModule framework maxDepth text).bodies.get? name = some body ∧
      CallsAgree (ofModule framework maxDepth text) name source body := by
  obtain ⟨⟨waiting, hreached⟩, -⟩ := reached_ofModule framework maxDepth text
  have hscanned := hreached.listed.mem_iff.mp hname
  obtain ⟨source, hsource, hbody, -⟩ := hreached.sound.scanned name hscanned
  have hsites := hreached.sound.callSites_eq hnames hsource hscanned
  have hjoined := joined_ofModule framework maxDepth text
  have hnoted := Scan.noted_run framework.allTests .empty CallGraph.wellFormed_empty name source
  have hrecords := Scan.records_run framework.allTests .empty .empty name source
  obtain ⟨hformed, hstatements⟩ := statements_alone framework name source
  have hcall (node : Nat) : Body.call? ((Scan.alone framework name source).body.marked
      (framework.isTest name)) node = (Scan.alone framework name source).body.call? node :=
    Body.call?_marked _ _ _
  refine ⟨source, _, hsource, hbody, ?_⟩
  constructor
  case statements =>
    rw [← hstatements]
    exact congrArg _ (FlowGraph.statements_marked _ _)
  case sites =>
    rw [hsites]
    exact (FlowGraph.callSites_marked _ _).symm
  case ordered =>
    rw [hsites]
    exact hformed.pairwise_callSites
  case marks =>
    intro node
    have hmarks := hnoted.marks node
    rw [← FlowGraph.isAssertion_marked (framework.isTest name)] at hmarks
    exact hmarks
  case assertions =>
    intro node hnode
    obtain ⟨call, hfound, -⟩ := hrecords.assertions node hnode
    obtain ⟨s, hs, hcall⟩ := Option.bind_eq_some_iff.mp hfound
    obtain ⟨kind, hkind⟩ := Scan.exists_callKind hcall
    rw [hsites]
    exact ⟨⟨node, kind, call.callee⟩,
      hformed.mem_callSites.mpr ⟨s, call, hs, hcall, hkind, rfl⟩, rfl⟩
  case results =>
    intro register node hresult
    obtain ⟨n, s, call, hn, hassignee, hs, hfound⟩ := hnoted.results register node hresult
    rw [Body.assignee?_marked]
    refine ⟨Option.bind_eq_some_iff.mpr ⟨n, hn, hassignee⟩, call, ?_⟩
    rw [hcall]
    exact Option.bind_eq_some_iff.mpr ⟨s, Option.bind_eq_some_iff.mpr ⟨n, hn, hs⟩, hfound⟩
  case edges =>
    intro site hsite hglobal
    rw [hsites, hformed.mem_callSites] at hsite
    obtain ⟨s, call, hs, hfound, -, hcallee⟩ := hsite
    rw [hcallee] at hglobal ⊢
    rw [hreached.sound.resolve_eq]
    refine hjoined.edges name _ hbody site.node call ?_ hglobal
    rw [hcall]
    exact Option.bind_eq_some_iff.mpr ⟨s, hs, hfound⟩

-- A test with a call whose result is kept, and an assertion that is called by an alias.
def recordedCalls : String :=
  "@c = alias void (), ptr @d\n" ++
  "define void @t() \x7b\n%1 = call i32 @g()\ncall void @c()\n\x7d\n"

def recordedCallNames : Framework :=
  .ofNames ["@t"] ["@c"]

theorem callsAgree_ofModule_recordedCalls :
    "@t" ∈ (ofModule recordedCallNames 1 recordedCalls).evaluated ∧
      (ofModule recordedCallNames 1 recordedCalls).registry.callSites "@t" =
        [⟨1, .call, "@g"⟩, ⟨2, .call, "@c"⟩] ∧
      ∃ source body, (sourcesOf recordedCalls).get? "@t" = some source ∧
        (ofModule recordedCallNames 1 recordedCalls).bodies.get? "@t" = some body ∧
        CallsAgree (ofModule recordedCallNames 1 recordedCalls) "@t" source body := by
  have hmodule : (∀ name ∈ (registryOf recordedCalls).aliases.keys,
        name ∉ (registryOf recordedCalls).names) ∧
      "@t" ∈ (ofModule recordedCallNames 1 recordedCalls).evaluated ∧
      (ofModule recordedCallNames 1 recordedCalls).registry.callSites "@t" =
        [⟨1, .call, "@g"⟩, ⟨2, .call, "@c"⟩] := by
    decide +kernel
  obtain ⟨hnames, hname, hsites⟩ := hmodule
  exact ⟨hname, hsites, callsAgree_ofModule recordedCallNames 1 recordedCalls hnames hname⟩

end Agreement

end Analysis

end TestFocus
