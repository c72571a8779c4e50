import Mathlib.Order.Bounds.Basic
import TestFocus.Proofs.CallGraph.Growth

namespace TestFocus.CallGraph

-- Functions that are a number of calls apart.
inductive Path (calls : List (String × String)) (root : String) : Nat → String → Prop
  | here : Path calls root 0 root
  | call {n : Nat} {caller callee : String} :
      Path calls root n caller → (caller, callee) ∈ calls → Path calls root (n + 1) callee

def Distance (calls : List (String × String)) (root name : String) (n : Nat) : Prop :=
  IsLeast { n | Path calls root n name } n

section Distances

variable {calls : List (String × String)} {root name : String} {n : Nat}

theorem path_congr {calls' : List (String × String)} (h : ∀ call, call ∈ calls ↔ call ∈ calls') :
    Path calls root n name ↔ Path calls' root n name := by
  constructor
  · intro hpath
    induction hpath with
    | here => exact .here
    | call _ hcall ih => exact .call ih ((h _).mp hcall)
  · intro hpath
    induction hpath with
    | here => exact .here
    | call _ hcall ih => exact .call ih ((h _).mpr hcall)

theorem distance_congr {calls' : List (String × String)}
    (h : ∀ call, call ∈ calls ↔ call ∈ calls') :
    Distance calls root name n ↔ Distance calls' root name n := by
  simp only [Distance, path_congr h]

end Distances

section Searching

variable {G : Type} [DiGraph G] {g : CallGraph G} {root name : String} {distance : Nat}
  {s t u : Search}

-- The function is in the queue, with its distance.
def Waits (g : CallGraph G) (s : Search) (name : String) (n : Nat) : Prop :=
  ∃ node, g.name? node = some name ∧ (node, n) ∈ s.queue

-- What is found stays found, what waits goes on waiting, and what is found anew waits.
structure Grows (g : CallGraph G) (s t : Search) : Prop where
  kept : ∀ name n, s.distances.get? name = some n → t.distances.get? name = some n
  waiting : s.queue ⊆ t.queue
  new : ∀ name n, t.distances.get? name = some n →
    s.distances.get? name = some n ∨ g.Waits t name n

theorem Grows.refl (g : CallGraph G) (s : Search) : g.Grows s s where
  kept _ _ h := h
  waiting := List.Subset.refl _
  new _ _ h := .inl h

theorem Grows.waits (h : g.Grows s t) {n : Nat} (hwaits : g.Waits s name n) : g.Waits t name n := by
  obtain ⟨node, hname, hqueue⟩ := hwaits
  exact ⟨node, hname, h.waiting hqueue⟩

theorem Grows.trans (h : g.Grows s t) (h' : g.Grows t u) : g.Grows s u where
  kept name n hfound := h'.kept name n (h.kept name n hfound)
  waiting := List.Subset.trans h.waiting h'.waiting
  new name n hfound := by
    rcases h'.new name n hfound with hold | hwaits
    · exact (h.new name n hold).imp_right h'.waits
    · exact .inr hwaits

theorem visit_cases (g : CallGraph G) (distance : Nat) (s : Search) (next : Nat) :
    g.visit distance s next = s ∨
      ∃ name, g.name? next = some name ∧ s.distances.get? name = none ∧
        g.visit distance s next =
          ⟨s.queue ++ [(next, distance + 1)], s.distances.insert name (distance + 1)⟩ := by
  unfold visit
  cases hname : g.name? next with
  | none => exact .inl rfl
  | some name =>
    cases hfound : s.distances.contains name with
    | true => exact .inl (if_pos hfound)
    | false =>
      exact .inr ⟨name, rfl, Table.contains_eq_false_iff.mp hfound, by simp [hfound]⟩

theorem grows_visit (g : CallGraph G) (distance : Nat) (s : Search) (next : Nat) :
    g.Grows s (g.visit distance s next) := by
  rcases g.visit_cases distance s next with heq | ⟨name, hname, hnew, heq⟩
  · rw [heq]
    exact .refl g s
  · rw [heq]
    constructor
    case kept =>
      intro other n hfound
      have hne : other ≠ name := by
        rintro rfl
        rw [hnew] at hfound
        cases hfound
      rw [Table.get?_insert, if_neg hne]
      exact hfound
    case waiting => exact List.subset_append_left _ _
    case new =>
      intro other n hfound
      rw [Table.get?_insert] at hfound
      split at hfound
      · next hother =>
        cases hfound
        exact .inr ⟨next, hother ▸ hname, by simp⟩
      · exact .inl hfound

-- While a function at `distance` is expanded, whatever is found is at most one call further and at
-- the end of a path of its length; whatever waits is not nearer, the nearest first.
structure Reached (g : CallGraph G) (root : String) (distance : Nat) (s : Search) : Prop where
  nodup : s.distances.keys.Nodup
  start : s.distances.get? root = some 0
  found : ∀ name n, s.distances.get? name = some n → n ≤ distance + 1 ∧ Path g.calls root n name
  queued : ∀ entry ∈ s.queue, distance ≤ entry.2 ∧
    ∃ name, g.name? entry.1 = some name ∧ s.distances.get? name = some entry.2
  ascending : s.queue.Pairwise (·.2 ≤ ·.2)

theorem Reached.visit (h : g.Reached root distance s) {next : Nat}
    (hnext : ∀ name, g.name? next = some name → Path g.calls root (distance + 1) name) :
    g.Reached root distance (g.visit distance s next) := by
  have hgrows := g.grows_visit distance s next
  rcases g.visit_cases distance s next with heq | ⟨name, hname, -, heq⟩
  · rw [heq]
    exact h
  · rw [heq] at hgrows ⊢
    constructor
    case nodup => exact Table.nodup_keys_insert h.nodup name _
    case start => exact hgrows.kept root 0 h.start
    case found =>
      intro other n hfound
      rw [Table.get?_insert] at hfound
      split at hfound
      · next hother =>
        cases hfound
        exact ⟨Nat.le_refl _, hnext other (hother ▸ hname)⟩
      · exact h.found other n hfound
    case queued =>
      intro entry hentry
      rcases List.mem_append.mp hentry with hold | hlast
      · obtain ⟨hle, other, hother, hfound⟩ := h.queued entry hold
        exact ⟨hle, other, hother, hgrows.kept other _ hfound⟩
      · cases List.mem_singleton.mp hlast
        exact ⟨Nat.le_succ _, name, hname, by simp [Table.get?_insert]⟩
    case ascending =>
      refine List.pairwise_append.mpr ⟨h.ascending, List.pairwise_singleton _ _, ?_⟩
      intro entry hentry last hlast
      cases List.mem_singleton.mp hlast
      obtain ⟨-, other, -, hfound⟩ := h.queued entry hentry
      exact (h.found other _ hfound).1

-- A visited function is found.
theorem Reached.found_visit (h : g.Reached root distance s) {next : Nat}
    (hname : g.name? next = some name) :
    ∃ m ≤ distance + 1, (g.visit distance s next).distances.get? name = some m := by
  simp only [CallGraph.visit, hname]
  split
  · next hold =>
    obtain ⟨m, hm⟩ := Table.contains_iff.mp hold
    exact ⟨m, (h.found name m hm).1, hm⟩
  · exact ⟨distance + 1, Nat.le_refl _, by simp [Table.get?_insert]⟩

-- All callees of a function at `distance`, one after another.
theorem Reached.foldl_visit (h : g.Reached root distance s) (nodes : List Nat)
    (hnodes : ∀ next ∈ nodes, ∀ name, g.name? next = some name →
      Path g.calls root (distance + 1) name) :
    g.Reached root distance (nodes.foldl (g.visit distance) s) ∧
    g.Grows s (nodes.foldl (g.visit distance) s) ∧
    ∀ next ∈ nodes, ∀ name, g.name? next = some name →
      ∃ m ≤ distance + 1, (nodes.foldl (g.visit distance) s).distances.get? name = some m := by
  induction nodes generalizing s with
  | nil => exact ⟨h, .refl g s, fun next hnext => absurd hnext List.not_mem_nil⟩
  | cons first rest ih =>
    have hfirst := h.visit (hnodes first List.mem_cons_self)
    obtain ⟨hreached, hgrows, hfound⟩ :=
      ih hfirst fun next hnext => hnodes next (List.mem_cons_of_mem _ hnext)
    refine ⟨hreached, (g.grows_visit distance s first).trans hgrows,
      fun next hnext name hname => ?_⟩
    rcases List.mem_cons.mp hnext with rfl | hnext
    · obtain ⟨m, hle, hm⟩ := h.found_visit hname
      exact ⟨m, hle, hgrows.kept name m hm⟩
    · exact hfound next hnext name hname

-- The callees of a function are found, none of them more than one call further.
def Expanded (g : CallGraph G) (s : Search) (name : String) (n : Nat) : Prop :=
  ∀ callee, (name, callee) ∈ g.calls → ∃ m ≤ n + 1, s.distances.get? callee = some m

def Closed (g : CallGraph G) (s : Search) : Prop :=
  ∀ name n, s.distances.get? name = some n → g.Waits s name n ∨ g.Expanded s name n

theorem Expanded.mono {n : Nat} (h : g.Expanded s name n) (hgrows : g.Grows s t) :
    g.Expanded t name n := by
  intro callee hcall
  obtain ⟨m, hle, hm⟩ := h callee hcall
  exact ⟨m, hle, hgrows.kept callee m hm⟩

-- The queue goes on at the distance of its front: whatever is found was at most one call further
-- than an entry that was no later.
theorem Reached.rest {entry : Nat × Nat} {queue : List (Nat × Nat)} {distances : Table Nat}
    (h : g.Reached root distance ⟨entry :: queue, distances⟩) :
    g.Reached root entry.2 ⟨queue, distances⟩ := by
  obtain ⟨hle, -⟩ := h.queued entry List.mem_cons_self
  obtain ⟨hfirst, hascending⟩ := List.pairwise_cons.mp h.ascending
  constructor
  case nodup => exact h.nodup
  case start => exact h.start
  case found =>
    intro name n hfound
    obtain ⟨hn, hpath⟩ := h.found name n hfound
    exact ⟨Nat.le_trans hn (Nat.succ_le_succ hle), hpath⟩
  case queued =>
    intro other hother
    exact ⟨hfirst other hother, (h.queued other (List.mem_cons_of_mem _ hother)).2⟩
  case ascending => exact hascending

theorem WellFormed.mem_neighbors (hg : g.WellFormed) {node next : Nat} {callee : String}
    (hname : g.name? node = some name) (hcallee : g.name? next = some callee) :
    next ∈ DiGraph.neighbors g.graph node .outgoing ↔ (name, callee) ∈ g.calls := by
  have hedge : next ∈ DiGraph.neighbors g.graph node .outgoing ↔
      (node, next) ∈ DiGraph.edges g.graph := by
    simp [hg.neighbors, EdgeDirection.near, EdgeDirection.far]
  rw [hedge]
  exact (hg.mem_calls_iff hname hcallee).symm

-- One round: the function at the front of the queue is expanded.
theorem Reached.visitCallees (hg : g.WellFormed) {node n : Nat} {queue : List (Nat × Nat)}
    {distances : Table Nat} (h : g.Reached root distance ⟨(node, n) :: queue, distances⟩)
    (hclosed : g.Closed ⟨(node, n) :: queue, distances⟩) :
    g.Reached root n (g.visitCallees ⟨queue, distances⟩ node n) ∧
      g.Closed (g.visitCallees ⟨queue, distances⟩ node n) := by
  obtain ⟨-, name, hname, hfound⟩ := h.queued (node, n) List.mem_cons_self
  have hpath : Path g.calls root n name := (h.found name n hfound).2
  obtain ⟨hreached, hgrows, hcallees⟩ :=
    h.rest.foldl_visit (DiGraph.neighbors g.graph node .outgoing) fun next hnext callee hcallee =>
      hpath.call ((hg.mem_neighbors hname hcallee).mp hnext)
  have hexpanded : g.Expanded (g.visitCallees ⟨queue, distances⟩ node n) name n := by
    intro callee hcall
    obtain ⟨edge, -, -, hcallee⟩ := mem_calls.mp hcall
    exact hcallees edge.2 ((hg.mem_neighbors hname hcallee).mpr hcall) callee hcallee
  refine ⟨hreached, fun other m hm => ?_⟩
  rcases hgrows.new other m hm with hold | hwaits
  · rcases hclosed other m hold with ⟨node', hnode', hmem⟩ | hother
    · rcases List.mem_cons.mp hmem with heq | hmem
      · cases heq
        obtain rfl : name = other := Option.some_inj.mp (hname.symm.trans hnode')
        exact .inr hexpanded
      · exact .inl (hgrows.waits ⟨node', hnode', hmem⟩)
    · exact .inr (Expanded.mono (s := ⟨queue, distances⟩) hother hgrows)
  · exact .inl hwaits

-- Once nothing waits, every path leads to a function that is found, at no more than its length.
theorem Closed.exists_le {distances : Table Nat} (hclosed : g.Closed ⟨[], distances⟩)
    (hstart : distances.get? root = some 0) {n : Nat} (hpath : Path g.calls root n name) :
    ∃ m ≤ n, distances.get? name = some m := by
  induction hpath with
  | here => exact ⟨0, Nat.le_refl _, hstart⟩
  | @call n caller callee _ hcall ih =>
    obtain ⟨m, hle, hm⟩ := ih
    rcases hclosed caller m hm with ⟨node, -, hmem⟩ | hexpanded
    · cases hmem
    · obtain ⟨m', hle', hm'⟩ := hexpanded callee hcall
      exact ⟨m', by omega, hm'⟩

theorem Reached.get?_eq_some_iff {distances : Table Nat}
    (h : g.Reached root distance ⟨[], distances⟩) (hclosed : g.Closed ⟨[], distances⟩) {n : Nat} :
    distances.get? name = some n ↔ Distance g.calls root name n := by
  constructor
  · intro hfound
    refine ⟨(h.found name n hfound).2, fun m hpath => ?_⟩
    obtain ⟨m', hle, hm'⟩ := hclosed.exists_le h.start hpath
    obtain rfl : n = m' := Option.some_inj.mp (hfound.symm.trans hm')
    exact hle
  · intro hdistance
    obtain ⟨m, hle, hm⟩ := hclosed.exists_le h.start hdistance.1
    obtain rfl : m = n := Nat.le_antisymm hle (hdistance.2 (h.found name m hm).2)
    exact hm

theorem Reached.search (hg : g.WellFormed) (h : g.Reached root distance s)
    (hclosed : g.Closed s) :
    (g.search s).keys.Nodup ∧
      ∀ name n, (g.search s).get? name = some n ↔ Distance g.calls root name n := by
  induction s using CallGraph.search.induct g generalizing distance with
  | case1 distances =>
    rw [CallGraph.search]
    exact ⟨h.nodup, fun name n => h.get?_eq_some_iff hclosed⟩
  | case2 node n queue distances ih =>
    rw [CallGraph.search]
    obtain ⟨hreached, hclosed'⟩ := h.visitCallees hg hclosed
    exact ih hreached hclosed'

-- The search starts from the root alone.
theorem reached_root {start : Nat} (hroot : g.name? start = some root) :
    g.Reached root 0 ⟨[(start, 0)], Table.insert ∅ root 0⟩ ∧
      g.Closed ⟨[(start, 0)], Table.insert ∅ root 0⟩ := by
  have hget (name : String) (n : Nat) :
      (Table.insert ∅ root 0).get? name = some n ↔ name = root ∧ n = 0 := by
    rw [Table.get?_insert]
    split
    · next hname => simp [hname, eq_comm]
    · next hname =>
      have hnone : (∅ : Table Nat).get? name = none := rfl
      simp [hnone, hname]
  constructor
  · constructor
    case nodup =>
      have hempty : (∅ : Table Nat).keys.Nodup := List.nodup_nil
      exact Table.nodup_keys_insert hempty root 0
    case start => exact (hget root 0).mpr ⟨rfl, rfl⟩
    case found =>
      intro name n hfound
      obtain ⟨rfl, rfl⟩ := (hget name n).mp hfound
      exact ⟨Nat.zero_le _, .here⟩
    case queued =>
      intro entry hentry
      cases List.mem_singleton.mp hentry
      exact ⟨Nat.le_refl _, root, hroot, (hget root 0).mpr ⟨rfl, rfl⟩⟩
    case ascending => exact List.pairwise_singleton _ _
  · intro name n hfound
    obtain ⟨rfl, rfl⟩ := (hget name n).mp hfound
    exact .inl ⟨start, hroot, List.mem_singleton_self _⟩

theorem WellFormed.mem_distances_iff (hg : g.WellFormed) (hroot : root ∈ g.functions) :
    ((g.distances root).map (·.1)).Nodup ∧
      ∀ name n, (name, n) ∈ g.distances root ↔ Distance g.calls root name n := by
  obtain ⟨start, hstart⟩ := Table.contains_iff.mp (hg.contains_iff.mpr hroot)
  obtain ⟨hreached, hclosed⟩ := reached_root ((hg.index root start).mp hstart)
  obtain ⟨hnodup, hexact⟩ := hreached.search hg hclosed
  simp only [CallGraph.distances, hstart]
  exact ⟨hnodup, fun name n => (Table.mem_entries_iff hnodup).trans (hexact name n)⟩

theorem WellFormed.distances_of_not_mem (hg : g.WellFormed) (hroot : root ∉ g.functions) :
    g.distances root = [] := by
  have hnone : g.index.get? root = none := by
    rw [← Table.contains_eq_false_iff, ← Bool.not_eq_true, hg.contains_iff]
    exact hroot
  simp only [CallGraph.distances, hnone]

end Searching

-- However a call graph is built, it lists every function that was mentioned once, in the order of
-- the first mention, and under the number of its place; the callees and callers of a function each
-- once, in the order of the first call; and the distances from a function are the lengths of the
-- shortest call paths to the functions that it reaches. An unknown function has no distances.
theorem lists_applyAll {G : Type} [DiGraph G] [LawfulDiGraph G] (ops : List Operation) :
    let g : CallGraph G := empty.applyAll ops
    g.functions = (mentionsIn ops).eraseDups ∧
    (∀ name i, g.indexOf? name = some i ↔ g.functions[i]? = some name) ∧
    (∀ name, g.callees name = (((callsIn ops).filter (·.1 == name)).map (·.2)).eraseDups) ∧
    (∀ name, g.callers name = (((callsIn ops).filter (·.2 == name)).map (·.1)).eraseDups) ∧
    (∀ root, root ∉ mentionsIn ops → g.distances root = []) ∧
    ∀ root, root ∈ mentionsIn ops → ((g.distances root).map (·.1)).Nodup ∧
      ∀ name n, (name, n) ∈ g.distances root ↔ Distance (callsIn ops) root name n := by
  intro g
  have hg : g.WellFormed := wellFormed_applyAll ops
  have hmem (root : String) : root ∈ g.functions ↔ root ∈ mentionsIn ops := by
    rw [functions_applyAll, List.mem_eraseDups]
  have hcalls (call : String × String) : call ∈ g.calls ↔ call ∈ callsIn ops := by
    rw [calls_applyAll, List.mem_eraseDups]
  refine ⟨functions_applyAll ops, hg.index, fun name => neighbors_applyAll ops name .outgoing,
    fun name => neighbors_applyAll ops name .incoming, fun root hroot => ?_, fun root hroot => ?_⟩
  · exact hg.distances_of_not_mem (mt (hmem root).mp hroot)
  · obtain ⟨hkeys, hdistances⟩ := hg.mem_distances_iff ((hmem root).mpr hroot)
    exact ⟨hkeys, fun name n => (hdistances name n).trans (distance_congr hcalls)⟩

-- A root that is called back, and a function that is called on two ways.
theorem lists_applyAll_recursion :
    let g : CallGraph EdgeList := empty.applyAll [.addCall "@t" "@a", .addCall "@a" "@b",
      .addCall "@t" "@b", .addCall "@b" "@t", .markTest "@t"]
    LawfulDiGraph EdgeList ∧ g.functions = ["@t", "@a", "@b"] ∧ g.callees "@t" = ["@a", "@b"] ∧
      g.callers "@t" = ["@b"] ∧ g.distances "@nope" = [] ∧ ("@t", 0) ∈ g.distances "@t" ∧
      ("@b", 1) ∈ g.distances "@t" := by
  intro g
  obtain ⟨hfunctions, -, hcallees, hcallers, hunknown, hdistances⟩ :=
    lists_applyAll (G := EdgeList) [.addCall "@t" "@a", .addCall "@a" "@b", .addCall "@t" "@b",
      .addCall "@b" "@t", .markTest "@t"]
  have hexact := (hdistances "@t" (by decide)).2
  refine ⟨inferInstance, hfunctions.trans (by decide), (hcallees "@t").trans (by decide),
    (hcallers "@t").trans (by decide), hunknown "@nope" (by decide), ?_, ?_⟩
  · exact (hexact "@t" 0).mpr ⟨.here, fun m _ => Nat.zero_le m⟩
  · refine (hexact "@b" 1).mpr ⟨.call .here (by decide), fun m hpath => ?_⟩
    -- only the root itself is no call away
    have hne : "@b" ≠ "@t" := by decide
    generalize "@b" = name at hpath hne
    cases hpath with
    | here => exact absurd rfl hne
    | call _ _ => exact Nat.succ_le_succ (Nat.zero_le _)

end TestFocus.CallGraph
