import Mathlib.Data.List.Basic
import TestFocus.FlowGraph.Dot

namespace TestFocus

-- What the description of a flow graph tells: nodes by number, name and style, and edges by source,
-- target and label.
structure Drawing where
  name : String
  nodes : List (Nat × String × String)
  edges : List (Nat × Nat × Option String)
deriving Repr, DecidableEq

def FlowGraph.drawing (g : FlowGraph) : Drawing where
  name := g.name
  nodes := g.nodes.toList.map fun node => (node.id, node.name, nodeStyle node)
  edges := g.edges.toList.map fun edge => (edge.source, edge.target, edge.label)

namespace Drawing

-- What follows an expected text.
def after? (expected : String) (cs : List Char) : Option (List Char) :=
  expected.toList.isPrefixOf? cs

-- The text in front of the closing quote; a character behind a backslash stands for itself.
def quoted? : List Char → Option (List Char × List Char)
  | [] => none
  | '"' :: cs => some ([], cs)
  | '\\' :: c :: cs => (quoted? cs).map fun (text, rest) => (c :: text, rest)
  | c :: cs => (quoted? cs).map fun (text, rest) => (c :: text, rest)

def number (cs : List Char) : Nat × List Char :=
  (Nat.ofDigitChars 10 (cs.takeWhile Char.isDigit) 0, cs.dropWhile Char.isDigit)

-- A line between the braces.
inductive Line where
  | node (id : Nat) (name style : String)
  | edge (source target : Nat) (label : Option String)
deriving Repr, DecidableEq

-- What stands behind the number of a node, up to the line end.
def nodeRest? (id : Nat) (cs : List Char) : Option (Line × List Char) := do
  let (name, cs) ← quoted? cs
  let cs' ← after? "];\n" (cs.dropWhile (· != ']'))
  return (.node id (String.ofList name) (String.ofList (cs.takeWhile (· != ']'))), cs')

-- What stands behind the target of an edge, up to the line end.
def edgeRest? (source target : Nat) (cs : List Char) : Option (Line × List Char) :=
  match after? " [label=\"" cs with
  | some cs => do
    let (label, cs) ← quoted? cs
    let cs ← after? "];\n" cs
    return (.edge source target (some (String.ofList label)), cs)
  | none => do
    let cs ← after? ";\n" cs
    return (.edge source target none, cs)

def line? (cs : List Char) : Option (Line × List Char) := do
  let cs ← after? "    n" cs
  let (id, cs) := number cs
  match after? " [label=\"" cs with
  | some cs => nodeRest? id cs
  | none =>
    let cs ← after? " -> n" cs
    let (target, cs) := number cs
    edgeRest? id target cs

-- The lines up to the closing brace, which ends the description.
def lines? (cs : List Char) : Option (List Line) :=
  if cs = "\x7d\n".toList then some []
  else match line? cs with
    | none => none
    | some (line, rest) =>
      if rest.length < cs.length then (lines? rest).map (line :: ·) else none
termination_by cs.length

def Line.node? : Line → Option (Nat × String × String)
  | node id name style => some (id, name, style)
  | edge _ _ _ => none

def Line.edge? : Line → Option (Nat × Nat × Option String)
  | node _ _ _ => none
  | edge source target label => some (source, target, label)

-- What a description tells.
def ofDot? (text : String) : Option Drawing := do
  let cs ← after? "digraph \"" text.toList
  let (name, cs) ← quoted? cs
  let cs ← after? " \x7b\n" cs
  let lines ← lines? cs
  return ⟨String.ofList name, lines.filterMap Line.node?, lines.filterMap Line.edge?⟩

def Line.text : Line → String
  | node id name style =>
    "    n" ++ toString id ++ " [label=\"" ++ Text.escape name ++ "\"" ++ style ++ "];\n"
  | edge source target (some label) =>
    "    n" ++ toString source ++ " -> n" ++ toString target ++ " [label=\"" ++
      Text.escape label ++ "\"];\n"
  | edge source target none => "    n" ++ toString source ++ " -> n" ++ toString target ++ ";\n"

def lines (d : Drawing) : List Line :=
  d.nodes.map (fun node => .node node.1 node.2.1 node.2.2) ++
    d.edges.map fun edge => .edge edge.1 edge.2.1 edge.2.2

def toDot (d : Drawing) : String :=
  "digraph \"" ++ Text.escape d.name ++ "\" \x7b\n" ++
    String.join (d.lines.map Line.text) ++ "\x7d\n"

-- The text of a graph depends on its drawing only.
theorem toDot_drawing (g : FlowGraph) : g.drawing.toDot = g.toDot := by
  have hnode : (fun node => (Line.node node.id node.name (FlowGraph.nodeStyle node)).text) =
      FlowGraph.nodeLine := rfl
  have hedge : (fun edge => (Line.edge edge.source edge.target edge.label).text) =
      FlowGraph.edgeLine := by
    funext edge
    cases hlabel : edge.label <;> simp [Line.text, FlowGraph.edgeLine, hlabel]
  apply String.toList_inj.mp
  simp only [toDot, lines, FlowGraph.drawing, FlowGraph.toDot, ← hnode, ← hedge,
    List.map_append, List.map_map, String.toList_append, String.toList_join,
    List.flatMap_append, List.append_assoc]
  rfl

theorem filterMap_node?_lines (d : Drawing) : d.lines.filterMap Line.node? = d.nodes := by
  simp only [lines, List.filterMap_append, List.filterMap_map]
  simp [Function.comp_def, Line.node?]

theorem filterMap_edge?_lines (d : Drawing) : d.lines.filterMap Line.edge? = d.edges := by
  simp only [lines, List.filterMap_append, List.filterMap_map]
  simp [Function.comp_def, Line.edge?]

@[simp] theorem after?_append (expected : String) (cs : List Char) :
    after? expected (expected.toList ++ cs) = some cs :=
  List.isPrefixOf?_eq_some_iff_append_eq.mpr rfl

-- The escapes of a text are undone, and the quote behind it is the first one that ends it.
theorem quoted?_escape (s : String) (cs : List Char) :
    quoted? ((Text.escape s).toList ++ '"' :: cs) = some (s.toList, cs) := by
  have hchars (text : List Char) :
      quoted? ((text.flatMap fun c => if c == '"' || c == '\\' then ['\\', c] else [c]) ++
        '"' :: cs) = some (text, cs) := by
    induction text with
    | nil => rfl
    | cons c text ih =>
      rw [List.flatMap_cons, List.append_assoc]
      by_cases hc : c = '"' ∨ c = '\\'
      · have hescaped : (c == '"' || c == '\\') = true := by simpa using hc
        rw [if_pos hescaped, List.cons_append, List.singleton_append, quoted?, ih]
        rfl
      · have hplain : ¬(c == '"' || c == '\\') = true := by simpa using hc
        rw [not_or] at hc
        rw [if_neg hplain, List.singleton_append, quoted?, ih]
        · rfl
        · exact hc.1
        · intro _ _ h
          exact absurd h hc.2
  simpa [Text.toList_escape] using hchars s.toList

theorem number_append (n : Nat) {cs : List Char} (hcs : ∀ c ∈ cs.head?, c.isDigit = false) :
    number ((toString n).toList ++ cs) = (n, cs) := by
  have hdigits : ∀ c ∈ Nat.toDigits 10 n, c.isDigit = true := fun c =>
    Nat.isDigit_of_mem_toDigits (by decide) (by decide)
  have hend : cs.takeWhile Char.isDigit = [] ∧ cs.dropWhile Char.isDigit = cs := by
    cases cs with
    | nil => exact ⟨rfl, rfl⟩
    | cons c cs => simp [hcs c rfl]
  have htext : (toString n).toList = Nat.toDigits 10 n := Nat.toList_repr
  rw [number, htext, List.takeWhile_append_of_pos hdigits, List.dropWhile_append_of_pos hdigits,
    hend.1, hend.2, List.append_nil, Nat.ofDigitChars_toDigits (by decide) (by decide)]

-- A style has no closing bracket, so it ends where the attributes of the node end.
theorem nodeRest?_text (id : Nat) (name style : String) (hstyle : ']' ∉ style.toList)
    (cs : List Char) :
    nodeRest? id ((Text.escape name).toList ++ '"' :: (style.toList ++ ("];\n".toList ++ cs))) =
      some (.node id name style, cs) := by
  have hplain : ∀ c ∈ style.toList, (c != ']') = true := by
    intro c hc
    simpa using fun heq : c = ']' => hstyle (heq ▸ hc)
  have hdrop : (style.toList ++ ("];\n".toList ++ cs)).dropWhile (· != ']') =
      "];\n".toList ++ cs := by
    rw [List.dropWhile_append_of_pos hplain]
    rfl
  have htake : (style.toList ++ ("];\n".toList ++ cs)).takeWhile (· != ']') = style.toList := by
    rw [List.takeWhile_append_of_pos hplain]
    exact List.append_nil _
  simp only [nodeRest?, quoted?_escape, hdrop, htake, after?_append, Option.bind_eq_bind,
    Option.bind_some, String.ofList_toList]
  rfl

theorem edgeRest?_some (source target : Nat) (label : String) (cs : List Char) :
    edgeRest? source target
        (" [label=\"".toList ++ ((Text.escape label).toList ++ '"' :: ("];\n".toList ++ cs))) =
      some (.edge source target (some label), cs) := by
  simp only [edgeRest?, quoted?_escape, after?_append, Option.bind_eq_bind, Option.bind_some,
    String.ofList_toList]
  rfl

theorem edgeRest?_none (source target : Nat) (cs : List Char) :
    edgeRest? source target (";\n".toList ++ cs) = some (.edge source target none, cs) := by
  have hunlabelled : after? " [label=\"" (";\n".toList ++ cs) = none := rfl
  simp only [edgeRest?, hunlabelled, after?_append, Option.bind_eq_bind, Option.bind_some]
  rfl

-- A line whose style does not reach beyond the attributes.
def Line.IsClosed : Line → Prop
  | node _ _ style => ']' ∉ style.toList
  | edge _ _ _ => True

theorem line?_text {line : Line} (hline : line.IsClosed) (cs : List Char) :
    line? (line.text.toList ++ cs) = some (line, cs) := by
  have hlabel (rest : List Char) :
      ∀ c ∈ (" [label=\"".toList ++ rest).head?, c.isDigit = false := by
    rintro _ ⟨⟩
    rfl
  have harrow (rest : List Char) :
      ∀ c ∈ (" -> n".toList ++ rest).head?, c.isDigit = false := by
    rintro _ ⟨⟩
    rfl
  cases line with
  | node id name style =>
    have htext : (Line.node id name style).text.toList ++ cs =
        "    n".toList ++ ((toString id).toList ++ (" [label=\"".toList ++
          ((Text.escape name).toList ++ '"' :: (style.toList ++ ("];\n".toList ++ cs))))) := by
      simp only [Line.text, String.toList_append, List.append_assoc]
      rfl
    rw [htext]
    simp only [line?, after?_append, Option.bind_eq_bind, Option.bind_some]
    rw [number_append id (hlabel _)]
    simp only [after?_append]
    exact nodeRest?_text id name style hline cs
  | edge source target label =>
    have hedge (rest : List Char) (hrest : ∀ c ∈ rest.head?, c.isDigit = false) :
        line? ("    n".toList ++ ((toString source).toList ++ (" -> n".toList ++
          ((toString target).toList ++ rest)))) = edgeRest? source target rest := by
      have hnode :
          after? " [label=\"" (" -> n".toList ++ ((toString target).toList ++ rest)) = none :=
        rfl
      simp only [line?, after?_append, Option.bind_eq_bind, Option.bind_some]
      rw [number_append source (harrow _)]
      simp only [hnode, after?_append, Option.bind_some]
      rw [number_append target hrest]
    cases label with
    | none =>
      have htext : (Line.edge source target none).text.toList ++ cs =
          "    n".toList ++ ((toString source).toList ++ (" -> n".toList ++
            ((toString target).toList ++ (";\n".toList ++ cs)))) := by
        simp only [Line.text, String.toList_append, List.append_assoc]
      have hend : ∀ c ∈ (";\n".toList ++ cs).head?, c.isDigit = false := by
        rintro _ ⟨⟩
        rfl
      rw [htext, hedge _ hend]
      exact edgeRest?_none source target cs
    | some label =>
      have htext : (Line.edge source target (some label)).text.toList ++ cs =
          "    n".toList ++ ((toString source).toList ++ (" -> n".toList ++
            ((toString target).toList ++ (" [label=\"".toList ++
              ((Text.escape label).toList ++ '"' :: ("];\n".toList ++ cs)))))) := by
        simp only [Line.text, String.toList_append, List.append_assoc]
        rfl
      rw [htext, hedge _ (hlabel _)]
      exact edgeRest?_some source target label cs

theorem lines?_text {lines : List Line} (hlines : ∀ line ∈ lines, line.IsClosed) :
    lines? (lines.flatMap (·.text.toList) ++ "\x7d\n".toList) = some lines := by
  induction lines with
  | nil =>
    rw [lines?]
    rfl
  | cons line lines ih =>
    obtain ⟨hline, hlines⟩ := List.forall_mem_cons.mp hlines
    have hread := line?_text hline (lines.flatMap (·.text.toList) ++ "\x7d\n".toList)
    have hnonempty : 0 < line.text.toList.length := by
      have hend (front back : String) (hback : 0 < back.toList.length) :
          0 < (front ++ back).toList.length := by
        rw [String.toList_append, List.length_append]
        exact Nat.add_pos_right _ hback
      cases line with
      | node => exact hend _ "];\n" (by decide)
      | edge _ _ label =>
        cases label with
        | none => exact hend _ ";\n" (by decide)
        | some => exact hend _ "\"];\n" (by decide)
    have hbrace : line.text.toList ++ (lines.flatMap (·.text.toList) ++ "\x7d\n".toList) ≠
        "\x7d\n".toList := by
      intro heq
      rw [heq] at hread
      cases hread
    rw [List.flatMap_cons, List.append_assoc, lines?, if_neg hbrace, hread]
    have hshorter : (lines.flatMap (·.text.toList) ++ "\x7d\n".toList).length <
        (line.text.toList ++ (lines.flatMap (·.text.toList) ++ "\x7d\n".toList)).length := by
      simp only [List.length_append]
      omega
    simp only [if_pos hshorter, ih hlines, Option.map_some]

theorem ofDot?_toDot {d : Drawing} (hd : ∀ line ∈ d.lines, line.IsClosed) :
    ofDot? d.toDot = some d := by
  have htext : d.toDot.toList = "digraph \"".toList ++ ((Text.escape d.name).toList ++
      '"' :: (" \x7b\n".toList ++ (d.lines.flatMap (·.text.toList) ++ "\x7d\n".toList))) := by
    simp only [toDot, String.toList_append, String.toList_join, List.flatMap_map, List.append_assoc]
    rfl
  simp only [ofDot?, htext, after?_append, quoted?_escape, lines?_text hd, Option.bind_eq_bind,
    Option.bind_some, filterMap_node?_lines, filterMap_edge?_lines, String.ofList_toList]
  rfl

theorem isClosed_lines_drawing (g : FlowGraph) : ∀ line ∈ g.drawing.lines, line.IsClosed := by
  have hstyle (node : FlowNode) : ']' ∉ (FlowGraph.nodeStyle node).toList := by
    unfold FlowGraph.nodeStyle
    repeat' split
    all_goals decide
  intro line hline
  rcases List.mem_append.mp hline with hline | hline
  · obtain ⟨entry, hentry, rfl⟩ := List.mem_map.mp hline
    obtain ⟨node, -, rfl⟩ := List.mem_map.mp hentry
    exact hstyle node
  · obtain ⟨entry, -, rfl⟩ := List.mem_map.mp hline
    trivial

-- A graph is found in its text.
theorem ofDot?_graph (g : FlowGraph) : ofDot? g.toDot = some g.drawing := by
  rw [← toDot_drawing]
  exact ofDot?_toDot (isClosed_lines_drawing g)

end Drawing

-- The name, the nodes with their styles and the edges with their labels can be read off the text of
-- a graph, and the text says nothing else.
theorem FlowGraph.read_toDot (g : FlowGraph) :
    Drawing.ofDot? g.toDot = some g.drawing ∧
      ∀ g' : FlowGraph, g'.toDot = g.toDot ↔ g'.drawing = g.drawing := by
  refine ⟨Drawing.ofDot?_graph g, fun g' => ⟨fun htext => ?_, fun hdrawing => ?_⟩⟩
  · have hsome : some g'.drawing = some g.drawing := by
      rw [← Drawing.ofDot?_graph g', htext, Drawing.ofDot?_graph g]
    exact Option.some_inj.mp hsome
  · rw [← Drawing.toDot_drawing, hdrawing, Drawing.toDot_drawing]

end TestFocus
