import Mathlib.Data.List.Nodup
import TestFocus.CommandLine
import TestFocus.Proofs.Analysis.Horizon
import TestFocus.Proofs.FlowGraph.DotReading

namespace TestFocus

namespace FlowGraph

theorem name_addEdge (g : FlowGraph) (source target : Nat) (label : Option String) :
    (g.addEdge source target label).2.name = g.name := by
  simp only [addEdge]
  split <;> rfl

theorem name_blockNode (g : FlowGraph) (label : String) :
    (g.blockNode label).2.name = g.name := by
  simp only [blockNode]
  split <;> rfl

-- Graphs of different functions have different texts.
theorem toDot_ne_of_name_ne {g g' : FlowGraph} (h : g.name ≠ g'.name) : g.toDot ≠ g'.toDot := by
  intro htext
  have hdrawing : some g.drawing = some g'.drawing := by
    rw [← Drawing.ofDot?_graph g, htext, Drawing.ofDot?_graph g']
  exact h (congrArg Drawing.name (Option.some_inj.mp hdrawing))

-- A call graph has no name, and a flow graph has one.
theorem toDot_ne_callGraph (g : FlowGraph) (calls : CallGraph) : g.toDot ≠ calls.toDot := by
  intro htext
  have hread := Drawing.ofDot?_graph g
  have hunnamed : Drawing.ofDot? calls.toDot = none := by
    have hfront : Drawing.after? "digraph \"" calls.toDot.toList = none := by
      simp [CallGraph.toDot, Drawing.after?, List.isPrefixOf?]
    simp [Drawing.ofDot?, hfront]
  rw [htext, hunnamed] at hread
  cases hread

end FlowGraph

namespace Scan

variable {framework : Framework}

theorem graph_name_fallInto (s : Scan) (node : Nat) :
    (s.fallInto node).graph.name = s.graph.name := by
  unfold fallInto
  split
  · exact FlowGraph.name_addEdge _ _ _ _
  · rfl

theorem graph_name_recordCall (s : Scan) (node : Nat) (statement : Statement) :
    (s.recordCall framework node statement).graph.name = s.graph.name := by
  simp only [recordCall]
  split
  · split
    · simp only [recordDirectCall]
      split <;> rfl
    · rfl
  · rfl

theorem graph_name_addJumps (jumps : List (String × Option String)) (node : Nat) (s : Scan) :
    (jumps.foldl (fun s jump => s.addJump node jump) s).graph.name = s.graph.name := by
  induction jumps generalizing s with
  | nil => rfl
  | cons jump jumps ih =>
    rw [List.foldl_cons, ih]
    exact (FlowGraph.name_addEdge _ _ _ _).trans (FlowGraph.name_blockNode _ _)

theorem graph_name_addLine (s : Scan) (line : LogicalLine) :
    (s.addLine framework line).graph.name = s.graph.name := by
  cases line with
  | label label => exact (graph_name_fallInto _ _).trans (FlowGraph.name_blockNode _ _)
  | instruction line =>
    simp only [addLine]
    split
    · rfl
    · simp only [addStatement, graph_name_addJumps, graph_name_recordCall, graph_name_fallInto]
      rfl
    · rfl

theorem graph_name_alone (framework : Framework) (function : String) (source : FunctionSource) :
    (alone framework function source).body.graph.name = function := by
  have hlines (lines : List LogicalLine) (s : Scan) :
      (lines.foldl (addLine framework.allTests) s).graph.name = s.graph.name := by
    induction lines generalizing s with
    | nil => rfl
    | cons line lines ih => rw [List.foldl_cons, ih, graph_name_addLine]
  exact hlines _ _

end Scan

namespace Report

section Writes

variable {files : List (String × String)}

-- Each file holds what was last written to it.
theorem get?_afterWrites (files : List (String × String)) (name : String) :
    (afterWrites files).get? name = (files.filter (·.1 == name)).getLast?.map (·.2) := by
  induction files using List.reverseRecOn with
  | nil => rfl
  | append_singleton files file ih =>
    rw [afterWrites, List.foldl_concat, ← afterWrites, Table.get?_insert, List.filter_append, ih]
    by_cases hname : name = file.1
    · simp [hname]
    · simp [hname, Ne.symm hname]

theorem nodup_keys_afterWrites (files : List (String × String)) :
    (afterWrites files).keys.Nodup := by
  induction files using List.reverseRecOn with
  | nil => exact List.nodup_nil
  | append_singleton files file ih =>
    rw [afterWrites, List.foldl_concat, ← afterWrites]
    exact Table.nodup_keys_insert ih _ _

theorem mem_keys_afterWrites {name : String} :
    name ∈ (afterWrites files).keys ↔ name ∈ files.map (·.1) := by
  rw [Table.mem_keys_iff, Table.contains, get?_afterWrites, Option.isSome_map,
    List.getLast?_isSome, List.mem_map]
  simp [List.filter_eq_nil_iff]

-- As many files as writes are there when no two writes went to the same file.
theorem size_afterWrites_eq_iff :
    files.length = (afterWrites files).size ↔ (files.map (·.1)).Nodup := by
  have hkeys := nodup_keys_afterWrites files
  have hsize : (afterWrites files).size = (afterWrites files).keys.length := by
    rw [Table.size, Table.keys, List.length_map]
  have hlength : files.length = (files.map (·.1)).length := (List.length_map _).symm
  rw [hsize, hlength]
  constructor
  · intro heq
    have hsub : (afterWrites files).keys ⊆ files.map (·.1) := fun _ => mem_keys_afterWrites.mp
    exact ((hkeys.subperm hsub).perm_of_length_le heq.le).nodup_iff.mp hkeys
  · intro hnodup
    exact ((List.perm_ext_iff_of_nodup hnodup hkeys).mpr fun _ =>
      mem_keys_afterWrites.symm).length_eq

end Writes

section Files

variable {a : Analysis} {name : String}

def callGraphFile : String := "call_graph.dot"

-- The names of the files in the order of writing.
def graphFileNames (a : Analysis) : List String :=
  a.evaluated.map graphFileName ++ [callGraphFile]

-- The last function that is written to a file.
def lastWriter? (a : Analysis) (file : String) : Option String :=
  (a.evaluated.filter (graphFileName · == file)).getLast?

-- Every scanned function has a body, and the body and its graph have its name.
def HasGraphs (a : Analysis) : Prop :=
  ∀ name ∈ a.evaluated, ∃ body, a.bodies.get? name = some body ∧ body.name = name ∧
    body.graph.name = name

def graphText (a : Analysis) (name : String) : String :=
  ((a.bodies.get? name).getD default).graph.toDot

-- A graph is in a directory, under whatever name.
def HoldsGraph (directory : Table String) (g : FlowGraph) : Prop :=
  ∃ file, directory.get? file = some g.toDot

theorem HasGraphs.graphFiles_eq (h : HasGraphs a) :
    graphFiles a = a.evaluated.map (fun name => (graphFileName name, graphText a name)) ++
      [(callGraphFile, a.callGraph.toDot)] := by
  have hbodies (names : List String) (hnames : ∀ name ∈ names, ∃ body,
      a.bodies.get? name = some body ∧ body.name = name ∧ body.graph.name = name) :
      (names.filterMap a.bodies.get?).map
          (fun body => (graphFileName body.name, body.graph.toDot)) =
        names.map fun name => (graphFileName name, graphText a name) := by
    induction names with
    | nil => rfl
    | cons name names ih =>
      obtain ⟨⟨body, hbody, hname, -⟩, hnames⟩ := List.forall_mem_cons.mp hnames
      simp [hbody, hname, graphText, ih hnames]
  rw [Report.graphFiles, Analysis.evaluatedBodies, hbodies _ h]
  rfl

theorem HasGraphs.names_graphFiles (h : HasGraphs a) :
    (graphFiles a).map (·.1) = graphFileNames a := by
  simp [h.graphFiles_eq, graphFileNames]

theorem HasGraphs.graphText_inj (h : HasGraphs a) {other : String} (hname : name ∈ a.evaluated)
    (hother : other ∈ a.evaluated) (heq : graphText a name = graphText a other) :
    name = other := by
  obtain ⟨body, hbody, -, hgraph⟩ := h name hname
  obtain ⟨body', hbody', -, hgraph'⟩ := h other hother
  by_contra hne
  have hnames : body.graph.name ≠ body'.graph.name := by rwa [hgraph, hgraph']
  apply FlowGraph.toDot_ne_of_name_ne hnames
  simpa [graphText, hbody, hbody'] using heq

theorem mem_of_lastWriter? {file : String} (h : lastWriter? a file = some name) :
    name ∈ a.evaluated ∧ graphFileName name = file := by
  have hmem := List.mem_filter.mp (List.mem_of_getLast? h)
  exact ⟨hmem.1, by simpa using hmem.2⟩

theorem HasGraphs.get?_graphFiles (h : HasGraphs a) (file : String) :
    (afterWrites (graphFiles a)).get? file =
      if file = callGraphFile then some a.callGraph.toDot
      else (lastWriter? a file).map (graphText a) := by
  rw [get?_afterWrites, h.graphFiles_eq, List.filter_append, List.filter_map]
  by_cases hfile : file = callGraphFile
  · simp [hfile]
  · simp [hfile, Ne.symm hfile, lastWriter?, Function.comp_def]

-- The graph of a function stays when neither a later function nor the call graph goes to its file.
theorem HasGraphs.holdsGraph_iff (h : HasGraphs a) {body : Body} (hname : name ∈ a.evaluated)
    (hbody : a.bodies.get? name = some body) :
    HoldsGraph (afterWrites (graphFiles a)) body.graph ↔
      graphFileName name ≠ callGraphFile ∧ lastWriter? a (graphFileName name) = some name := by
  have htext : body.graph.toDot = graphText a name := by simp [graphText, hbody]
  constructor
  · rintro ⟨file, hfile⟩
    rw [h.get?_graphFiles] at hfile
    split at hfile
    · exact absurd (Option.some_inj.mp hfile).symm (FlowGraph.toDot_ne_callGraph _ _)
    · next hne =>
      obtain ⟨other, hlast, hother⟩ := Option.map_eq_some_iff.mp hfile
      obtain ⟨hmem, rfl⟩ := mem_of_lastWriter? hlast
      obtain rfl := h.graphText_inj hmem hname (hother.trans htext)
      exact ⟨hne, hlast⟩
  · rintro ⟨hne, hlast⟩
    refine ⟨graphFileName name, ?_⟩
    rw [h.get?_graphFiles, if_neg hne, hlast, htext]
    rfl

-- All graphs stay when the names of the files are different.
theorem nodup_graphFileNames_iff (hnodup : a.evaluated.Nodup) :
    (graphFileNames a).Nodup ↔ ∀ name ∈ a.evaluated,
      graphFileName name ≠ callGraphFile ∧ lastWriter? a (graphFileName name) = some name := by
  constructor
  · intro h name hname
    obtain ⟨hmap, -, hcalls⟩ := List.nodup_append.mp h
    refine ⟨hcalls _ (List.mem_map_of_mem hname) _ (List.mem_singleton_self _), ?_⟩
    have hwritten : (a.evaluated.filter (graphFileName · == graphFileName name)) ≠ [] :=
      List.ne_nil_of_mem (List.mem_filter.mpr ⟨hname, beq_self_eq_true _⟩)
    obtain ⟨last, hlast⟩ := Option.ne_none_iff_exists'.mp (mt List.getLast?_eq_none_iff.mp hwritten)
    obtain ⟨hmem, hfile⟩ := mem_of_lastWriter? hlast
    rw [lastWriter?, hlast, List.inj_on_of_nodup_map hmap hmem hname hfile]
  · intro h
    have hmap : (a.evaluated.map graphFileName).Nodup := by
      refine hnodup.map_on ?_
      intro name hname other hother heq
      have hlast := (h name hname).2
      rw [heq, (h other hother).2] at hlast
      exact (Option.some_inj.mp hlast).symm
    refine List.nodup_append.mpr ⟨hmap, List.nodup_singleton _, ?_⟩
    intro file hfile calls hcalls
    obtain ⟨name, hname, rfl⟩ := List.mem_map.mp hfile
    rw [List.mem_singleton.mp hcalls]
    exact (h name hname).1

end Files

section Module

variable (framework : Framework) (maxDepth : Nat) (text : String)

theorem hasGraphs_ofModule : HasGraphs (Analysis.ofModule framework maxDepth text) := by
  intro name hname
  obtain ⟨⟨waiting, hreached⟩, -⟩ := Analysis.reached_ofModule framework maxDepth text
  obtain ⟨source, -, hbody, -⟩ :=
    hreached.sound.scanned name (hreached.listed.mem_iff.mp hname)
  exact ⟨_, hbody, Scan.body_name framework name source,
    Scan.graph_name_alone framework name source⟩

-- The file of each scanned function holds its graph when no function behind it in the order of the
-- scan has the same file, and that file is not the one of the call graph. So all graphs are there,
-- and as many files as are reported, exactly when the names of the files are different.
theorem writeGraphFiles_ofModule
    (hnames : ∀ name ∈ (Analysis.ofModule framework maxDepth text).evaluated,
      isFileName (graphFileName name) = true) :
    ∃ directory count,
      writeGraphFiles (Analysis.ofModule framework maxDepth text) = some (directory, count) ∧
      directory.get? callGraphFile =
        some (Analysis.ofModule framework maxDepth text).callGraph.toDot ∧
      (∀ name ∈ (Analysis.ofModule framework maxDepth text).evaluated, ∃ body,
        (Analysis.ofModule framework maxDepth text).bodies.get? name = some body ∧
        (HoldsGraph directory body.graph ↔ graphFileName name ≠ callGraphFile ∧
          lastWriter? (Analysis.ofModule framework maxDepth text) (graphFileName name) =
            some name)) ∧
      ((∀ name ∈ (Analysis.ofModule framework maxDepth text).evaluated, ∃ body,
          (Analysis.ofModule framework maxDepth text).bodies.get? name = some body ∧
          HoldsGraph directory body.graph) ↔
        (graphFileNames (Analysis.ofModule framework maxDepth text)).Nodup) ∧
      (count = directory.size ↔
        (graphFileNames (Analysis.ofModule framework maxDepth text)).Nodup) := by
  have hgraphs := hasGraphs_ofModule framework maxDepth text
  obtain ⟨⟨waiting, hreached⟩, -⟩ := Analysis.reached_ofModule framework maxDepth text
  have hnodup := hreached.listed.nodup
  generalize Analysis.ofModule framework maxDepth text = a at *
  refine ⟨afterWrites (graphFiles a), (graphFiles a).length, ?_, ?_, ?_, ?_, ?_⟩
  · refine if_pos ?_
    rw [List.all_eq_true, hgraphs.graphFiles_eq]
    intro file hfile
    rcases List.mem_append.mp hfile with hfile | hfile
    · obtain ⟨name, hname, rfl⟩ := List.mem_map.mp hfile
      exact hnames name hname
    · have hcalls : isFileName callGraphFile = true := by decide
      rw [List.mem_singleton.mp hfile]
      exact hcalls
  · rw [hgraphs.get?_graphFiles, if_pos rfl]
  · intro name hname
    obtain ⟨body, hbody, -⟩ := hgraphs name hname
    exact ⟨body, hbody, hgraphs.holdsGraph_iff hname hbody⟩
  · rw [nodup_graphFileNames_iff hnodup]
    constructor
    · intro hall name hname
      obtain ⟨body, hbody, hheld⟩ := hall name hname
      exact (hgraphs.holdsGraph_iff hname hbody).mp hheld
    · intro hlast name hname
      obtain ⟨body, hbody, -⟩ := hgraphs name hname
      exact ⟨body, hbody, (hgraphs.holdsGraph_iff hname hbody).mpr (hlast name hname)⟩
  · rw [size_afterWrites_eq_iff, hgraphs.names_graphFiles]

-- Two tests that are told apart by a punctuation mark, which no file name has.
def sameFile : String :=
  "define void @t.1() \x7b\n\x7d\ndefine void @t_1() \x7b\n\x7d\n"

theorem writeGraphFiles_sameFile :
    (∀ name ∈ (Analysis.ofModule (.ofNames ["@t.1", "@t_1"] []) 0 sameFile).evaluated,
      isFileName (graphFileName name) = true) ∧
    ∃ directory count,
      writeGraphFiles (Analysis.ofModule (.ofNames ["@t.1", "@t_1"] []) 0 sameFile) =
        some (directory, count) ∧
      count ≠ directory.size := by
  have hevaluated : (Analysis.ofModule (.ofNames ["@t.1", "@t_1"] []) 0 sameFile).evaluated =
      ["@t.1", "@t_1"] := by
    decide +kernel
  have hnames : ∀ name ∈ (Analysis.ofModule (.ofNames ["@t.1", "@t_1"] []) 0 sameFile).evaluated,
      isFileName (graphFileName name) = true := by
    rw [hevaluated]
    decide
  have hsame :
      ¬(graphFileNames (Analysis.ofModule (.ofNames ["@t.1", "@t_1"] []) 0 sameFile)).Nodup := by
    rw [graphFileNames, hevaluated]
    decide
  obtain ⟨directory, count, hwritten, -, -, -, hcount⟩ :=
    writeGraphFiles_ofModule (.ofNames ["@t.1", "@t_1"] []) 0 sameFile hnames
  exact ⟨hnames, directory, count, hwritten, fun heq => hsame (hcount.mp heq)⟩

end Module

end Report

end TestFocus
