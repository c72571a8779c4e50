import TestFocus.Proofs.Yaml.Scanning

namespace TestFocus.Yaml

theorem isAllowed_of_isWritable {c : Char} (h : isWritable c) : isAllowed c := by
  simp only [isWritable, Bool.or_eq_true, Bool.and_eq_true, beq_iff_eq, decide_eq_true_eq] at h
  simp only [isAllowed, Bool.or_eq_true, Bool.and_eq_true, beq_iff_eq, decide_eq_true_eq]
  rcases h with (((h | h) | h) | ⟨h, -⟩) | h <;> simp [h]

namespace WrittenEntry

theorem three_le_length_chars {e : WrittenEntry} (h : e.IsReadable) : 3 ≤ e.chars.length := by
  have hkey := List.length_pos_iff.mpr h.key_ne_nil
  simp only [chars, List.length_append, List.length_cons]
  omega

theorem mul_length_le {entries : List WrittenEntry} (h : ∀ e ∈ entries, e.IsReadable) :
    3 * entries.length ≤ (entries.flatMap chars).length := by
  induction entries with
  | nil => simp
  | cons e entries ih =>
    obtain ⟨he, hentries⟩ := List.forall_mem_cons.mp h
    have hlength := three_le_length_chars he
    have hle := ih hentries
    simp only [List.flatMap_cons, List.length_append, List.length_cons]
    omega

theorem tokens?_entries {e : WrittenEntry} {entries : List WrittenEntry}
    (h : ∀ e' ∈ e :: entries, e'.IsReadable)
    (hchars : ∀ c ∈ (e :: entries).flatMap chars, isWritable c) {text : String}
    (htext : text.toList = (e :: entries).flatMap chars) :
    tokens? text =
      some (.blockStart :: ((e :: entries).flatMap WrittenEntry.tokens ++ [Token.blockEnd])) := by
  obtain ⟨he, hentries⟩ := List.forall_mem_cons.mp h
  have hallowed : text.toList.all isAllowed = true := by
    rw [htext, List.all_eq_true]
    exact fun c hc => isAllowed_of_isWritable (hchars c hc)
  have hplace : place text = placeFrom 0 0 ((e :: entries).flatMap chars) := by
    have hfirst : EndsEntry ((e :: entries).flatMap chars) := endsEntry_flatMap h
    rw [place, htext]
    split
    · next heq => exact absurd (hfirst '\ufeff' (by simp [heq])) (by decide)
    · rfl
  have hlength := le_length_placeFrom hchars 0 0 []
  rw [List.append_nil] at hlength
  obtain ⟨n, hn⟩ := Nat.exists_eq_add_of_le (Nat.le_trans (mul_length_le h) hlength)
  have hs : Scan.start.StartsLine := ⟨.inl rfl, rfl, rfl⟩
  rw [tokens?, if_pos hallowed, hplace]
  simp only [hn]
  obtain ⟨l', hentry⟩ := he.tokensFrom hs (3 * entries.length + n + 1) 0
      (endsEntry_flatMap hentries)
  rw [List.flatMap_cons, show 3 * (e :: entries).length + n + 1 =
    3 * entries.length + n + 1 + 3 by simp only [List.length_cons]; omega, hentry,
    tokensFrom_entries hentries]
  simp [keyTokens, WrittenEntry.tokens, Scan.start]

def node (e : WrittenEntry) : Node × Node :=
  (.scalar none ⟨e.key, .plain, none⟩, .scalar none ⟨e.text, e.style, none⟩)

theorem blockEntries?_tokens (handles : Handles) (entries : List WrittenEntry) {rounds : Nat}
    (h : entries.length < rounds) :
    blockEntries? handles rounds (entries.flatMap WrittenEntry.tokens ++ [.blockEnd]) =
      some (entries.map node, []) := by
  induction entries generalizing rounds with
  | nil =>
    obtain ⟨rounds, rfl⟩ := Nat.exists_eq_add_one_of_ne_zero (Nat.ne_zero_of_lt h)
    rfl
  | cons e entries ih =>
    obtain ⟨rounds, rfl⟩ := Nat.exists_eq_add_one_of_ne_zero (Nat.ne_zero_of_lt h)
    have hrest := ih (Nat.lt_of_succ_lt_succ h)
    simp [blockEntries?, WrittenEntry.tokens, pair?, node?, value?, properties?, hrest, node,
      Properties.node]

theorem ofTokens?_tokens (entries : List WrittenEntry) :
    Document.ofTokens?
        (.blockStart :: (entries.flatMap WrittenEntry.tokens ++ [Token.blockEnd])) =
      some ⟨none, entries.map node⟩ := by
  have hlength : entries.length <
      (entries.flatMap WrittenEntry.tokens ++ [Token.blockEnd]).length + 1 := by
    simp [List.length_flatMap, WrittenEntry.tokens, List.map_const']
    omega
  have hentries := blockEntries?_tokens standardHandles entries hlength
  generalize entries.flatMap WrittenEntry.tokens ++ [Token.blockEnd] = tokens at hentries
  simp [Document.ofTokens?, directives?, mapping?, properties?, hentries]

theorem references?_nodes (a : Anchors) (entries : List WrittenEntry) :
    references? a (entries.map node) =
      some (a, entries.map fun e => (.scalar ⟨e.key, .plain, none⟩,
        .scalar ⟨e.text, e.style, none⟩)) := by
  induction entries with
  | nil => rfl
  | cons e entries ih => simp [references?, node, Node.reference?, Anchors.addOptional, ih]

theorem entries?_nodes (entries : List WrittenEntry) :
    Document.entries? ⟨none, entries.map node⟩ =
      some (entries.map fun e => (e.key, ⟨e.text, e.style, none⟩)) := by
  simp only [Document.entries?, references?_nodes, Option.bind_some, List.mapM_map]
  induction entries with
  | nil => rfl
  | cons e entries ih =>
    rw [List.mapM_cons, ih]
    rfl

end WrittenEntry

-- The reader finds the entries of a file that is made of readable ones.
theorem entries?_of_isReadable {entries : List WrittenEntry} (hne : entries ≠ [])
    (h : ∀ e ∈ entries, e.IsReadable)
    (hchars : ∀ c ∈ entries.flatMap WrittenEntry.chars, isWritable c) {text : String}
    (htext : text.toList = entries.flatMap WrittenEntry.chars) :
    entries? text = some (entries.map fun e => (e.key, ⟨e.text, e.style, none⟩)) := by
  cases entries with
  | nil => exact absurd rfl hne
  | cons e entries =>
    rw [entries?, WrittenEntry.tokens?_entries h hchars htext, Option.bind_some,
      WrittenEntry.ofTokens?_tokens, Option.bind_some, WrittenEntry.entries?_nodes]

end TestFocus.Yaml
