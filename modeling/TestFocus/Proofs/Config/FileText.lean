import TestFocus.Config.File
import TestFocus.Proofs.Yaml.ScalarText

namespace TestFocus

open Yaml

namespace Yaml.WrittenEntry

def scalar (e : WrittenEntry) : Scalar :=
  ⟨e.text, e.style, none⟩

-- An entry with a text, in the form that suits it.
def ofText (key text : String) : WrittenEntry :=
  ⟨key, valueChars (writeScalar text), text, writtenStyle text⟩

-- An entry with a number or another word that is written as it is.
def ofWord (key word : String) : WrittenEntry :=
  ⟨key, valueChars word, word, .plain⟩

theorem chars_ofText (key text : String) :
    (ofText key text).chars = (writeEntry key (writeScalar text)).toList :=
  (toList_writeEntry key (writeScalar text)).symm

theorem chars_ofWord (key word : String) :
    (ofWord key word).chars = (writeEntry key word).toList :=
  (toList_writeEntry key word).symm

end Yaml.WrittenEntry

namespace ConfigFile

-- The numbers are below the limits of their fields.
structure Fits (file : ConfigFile) : Prop where
  version : ∀ n ∈ file.version, n < Nat.pow 2 32
  maxDepth : ∀ n ∈ file.maxDepth, n < Nat.pow 2 64

abbrev Rows := List (String × Option WrittenEntry)

def rows (file : ConfigFile) : Rows :=
  [("version", some (.ofWord "version" ((file.version.map toString).getD "null"))),
   (Config.testField, file.testPattern.map (.ofText Config.testField)),
   (Config.assertionField, file.assertionPattern.map (.ofText Config.assertionField)),
   (Config.exclusionField, file.exclusionPattern.map (.ofText Config.exclusionField)),
   (Config.assertionTypeField, file.assertionTypePattern.map (.ofText Config.assertionTypeField)),
   ("max_depth", file.maxDepth.map fun n => .ofWord "max_depth" (toString n))]

def Rows.entries (rows : Rows) : List WrittenEntry :=
  rows.flatMap (·.2.toList)

theorem toList_toText (file : ConfigFile) :
    file.toText.toList = file.rows.entries.flatMap WrittenEntry.chars := by
  have htext (field : String) (text : Option String) :
      (textEntry field text).toList =
        (text.map (WrittenEntry.ofText field)).toList.flatMap WrittenEntry.chars := by
    cases text <;> simp [textEntry, WrittenEntry.chars_ofText]
  have hnumber (field : String) (n : Option Nat) :
      (numberEntry field n).toList =
        (n.map fun n => WrittenEntry.ofWord field (toString n)).toList.flatMap
          WrittenEntry.chars := by
    cases n <;> simp [numberEntry, WrittenEntry.chars_ofWord]
  simp only [toText, String.toList_append, htext, hnumber, rows, Rows.entries,
    List.flatMap_cons, List.flatMap_nil, List.flatMap_append, WrittenEntry.chars_ofWord,
    Option.toList_some, List.append_nil, List.append_assoc]

-- An entry of the file whose value is read back.
structure IsField (e : WrittenEntry) : Prop where
  key : e.key ∈ fields
  readsAs : ReadsAs e.value e.text e.style
  isWritable : ∀ c ∈ e.value, isWritable c

theorem isKeyChar_fields :
    ∀ field ∈ fields, field.toList ≠ [] ∧ field.toList.all isKeyChar ∧
      field.toList.length ≤ keyLimit := by
  decide

theorem IsField.isReadable {e : WrittenEntry} (h : IsField e) : e.IsReadable := by
  obtain ⟨hne, hchars, hlength⟩ := isKeyChar_fields e.key h.key
  exact ⟨hne, List.all_eq_true.mp hchars, hlength, h.readsAs⟩

theorem IsField.isWritable_chars {e : WrittenEntry} (h : IsField e) :
    ∀ c ∈ e.chars, Yaml.isWritable c := by
  have hkey : ∀ field ∈ fields, field.toList.all Yaml.isWritable := by decide
  have hmarks : [':', ' '].all Yaml.isWritable = true := by decide
  have hvalue := List.all_eq_true.mpr h.isWritable
  have hsplit : e.chars = e.key.toList ++ ([':', ' '] ++ e.value) := rfl
  rw [← List.all_eq_true, hsplit]
  simp only [List.all_append, hkey e.key h.key, hmarks, hvalue, Bool.and_self]

theorem isField_ofText {field : String} (hfield : field ∈ fields) (text : String) :
    IsField (.ofText field text) where
  key := hfield
  readsAs := readsAs_writeScalar text
  isWritable := isWritable_valueChars (isWritable_writeScalar text)

theorem isField_ofWord {field : String} (hfield : field ∈ fields) {word : String}
    (hword : IsPlain word.toList) : IsField (.ofWord field word) where
  key := hfield
  readsAs := by
    have hvalue : valueChars word = word.toList ++ ['\n'] := by
      rw [valueChars, hword.isLine.lineEndAfter]
    simpa [WrittenEntry.ofWord, hvalue] using hword.readsAs
  isWritable := isWritable_valueChars hword.isWritable

theorem isPlain_null : IsPlain "null".toList := by
  have hchars : "null".toList.all (fun c => Yaml.isWritable c && !isBreak c) = true := by decide
  simp only [List.all_eq_true, Bool.and_eq_true, Bool.not_eq_true'] at hchars
  exact ⟨⟨'n', ['u', 'l', 'l'], rfl, by decide, by decide⟩, fun c hc => (hchars c hc).1,
    fun c hc => (hchars c hc).2, by decide⟩

-- The entry of a row has the key of the row, and its value is read back.
theorem isField_rows (file : ConfigFile) :
    ∀ row ∈ file.rows, ∀ e ∈ row.2, e.key = row.1 ∧ IsField e := by
  have htext {field : String} (hfield : field ∈ fields) (text : Option String) :
      ∀ e ∈ text.map (WrittenEntry.ofText field), e.key = field ∧ IsField e := by
    simp only [Option.mem_def, Option.map_eq_some_iff]
    rintro e ⟨text, -, rfl⟩
    exact ⟨rfl, isField_ofText hfield text⟩
  have hversion : IsPlain ((file.version.map toString).getD "null").toList := by
    cases file.version with
    | none => exact isPlain_null
    | some n => exact isPlain_toString n
  have hdepth : ∀ e ∈ file.maxDepth.map fun n => WrittenEntry.ofWord "max_depth" (toString n),
      e.key = "max_depth" ∧ IsField e := by
    simp only [Option.mem_def, Option.map_eq_some_iff]
    rintro e ⟨n, -, rfl⟩
    exact ⟨rfl, isField_ofWord (by decide) (isPlain_toString n)⟩
  simp only [rows, List.forall_mem_cons, Option.mem_some_iff, forall_eq']
  exact ⟨⟨rfl, isField_ofWord (by decide) hversion⟩, htext (by decide) _, htext (by decide) _,
    htext (by decide) _, htext (by decide) _, hdepth, by simp⟩

theorem isField_of_mem_entries {file : ConfigFile} {e : WrittenEntry}
    (he : e ∈ file.rows.entries) : IsField e := by
  obtain ⟨row, hrow, he⟩ := List.mem_flatMap.mp he
  exact (isField_rows file row hrow e (Option.mem_toList.mp he)).2

def Rows.scalars (rows : Rows) : List (String × Scalar) :=
  rows.flatMap fun row => row.2.toList.map fun e => (row.1, e.scalar)

theorem entries?_toText (file : ConfigFile) : entries? file.toText = some file.rows.scalars := by
  have hentries : file.rows.entries.map (fun e => (e.key, e.scalar)) = file.rows.scalars := by
    rw [Rows.entries, List.map_flatMap, Rows.scalars]
    refine congrArg List.flatten (List.map_congr_left fun row hrow => ?_)
    refine List.map_congr_left fun e he => ?_
    rw [(isField_rows file row hrow e (Option.mem_toList.mp he)).1]
  rw [← hentries]
  refine entries?_of_isReadable (by simp [rows, Rows.entries]) ?_ ?_ file.toList_toText
  · exact fun e he => (isField_of_mem_entries he).isReadable
  · intro c hc
    obtain ⟨e, he, hc⟩ := List.mem_flatMap.mp hc
    exact (isField_of_mem_entries he).isWritable_chars c hc

theorem Rows.keys_sublist (rows : Rows) :
    (rows.scalars.map (·.1)).Sublist (rows.map (·.1)) := by
  induction rows with
  | nil => exact List.Sublist.slnil
  | cons row rows ih =>
    obtain ⟨field, e⟩ := row
    cases e with
    | none => exact ih.cons field
    | some e => exact ih.cons_cons field

theorem Rows.lookup_scalars {rows : Rows} (hdistinct : (rows.map (·.1)).Nodup) {field : String}
    {e : Option WrittenEntry} (hmem : (field, e) ∈ rows) :
    rows.scalars.lookup field = e.map (·.scalar) := by
  induction rows with
  | nil => cases hmem
  | cons row rows ih =>
    obtain ⟨hnot, hdistinct'⟩ := List.nodup_cons.mp hdistinct
    have hsplit : scalars (row :: rows) =
        row.2.toList.map (fun e => (row.1, e.scalar)) ++ scalars rows := rfl
    rw [hsplit, List.lookup_append]
    obtain rfl | hmem' := List.mem_cons.mp hmem
    · have hnone : (scalars rows).lookup field = none := by
        rw [List.lookup_eq_none_iff]
        intro pair hpair
        have hkey := (keys_sublist rows).subset (List.mem_map_of_mem hpair)
        rw [bne_iff_ne]
        rintro rfl
        exact hnot hkey
      cases e <;> simp [hnone]
    · have hne : (field == row.1) = false := by
        rw [beq_eq_false_iff_ne]
        rintro rfl
        exact hnot (List.mem_map_of_mem (f := (·.1)) hmem')
      rw [ih hdistinct' hmem']
      cases row.2 <;> simp [List.lookup_cons, hne]

theorem isDistinct_iff (xs : List String) : isDistinct xs ↔ xs.Nodup := by
  induction xs with
  | nil => simp [isDistinct]
  | cons x xs ih => simp [isDistinct, ih]

theorem fields_nodup : fields.Nodup := by
  decide

theorem lookup_rows {file : ConfigFile} {field : String} {e : Option WrittenEntry}
    (h : (field, e) ∈ file.rows) : file.rows.scalars.lookup field = e.map (·.scalar) := by
  have hfields : file.rows.map (·.1) = fields := rfl
  exact Rows.lookup_scalars (hfields ▸ fields_nodup) h

theorem scalarField_entry {file : ConfigFile} {field : String} {e : WrittenEntry}
    (h : (field, some e) ∈ file.rows) {found : Option Scalar}
    (hfound : e.scalar.optional? = some found) :
    scalarField file.rows.scalars field = .ok found := by
  simp [scalarField, lookup_rows h, hfound]

theorem scalarField_leftOut {file : ConfigFile} {field : String} (h : (field, none) ∈ file.rows) :
    scalarField file.rows.scalars field = .ok none := by
  simp [scalarField, lookup_rows h]

theorem textField_rows {file : ConfigFile} {field : String} {text : Option String}
    (h : (field, text.map (.ofText field)) ∈ file.rows) :
    textField file.rows.scalars field = .ok text := by
  cases text with
  | none =>
    rw [textField, scalarField_leftOut h]
    rfl
  | some text =>
    rw [textField, scalarField_entry h (optional?_writtenStyle text)]
    rfl

theorem numberField_number {file : ConfigFile} {field : String} {n limit : Nat}
    (h : (field, some (.ofWord field (toString n))) ∈ file.rows) (hn : n < limit) :
    numberField file.rows.scalars field limit = .ok (some n) := by
  rw [numberField, scalarField_entry h (optional?_toString n)]
  simp only [bind, Except.bind, nat?_toString, if_pos hn]
  rfl

theorem numberField_nothing {file : ConfigFile} {field : String}
    (h : scalarField file.rows.scalars field = .ok none) (limit : Nat) :
    numberField file.rows.scalars field limit = .ok none := by
  rw [numberField, h]
  rfl

theorem numberField_version {file : ConfigFile} (h : file.Fits) :
    numberField file.rows.scalars "version" (Nat.pow 2 32) = .ok file.version := by
  have hmem : ("version", some (.ofWord "version" ((file.version.map toString).getD "null"))) ∈
      file.rows := by simp [rows]
  cases hversion : file.version with
  | none =>
    rw [hversion] at hmem
    exact numberField_nothing (scalarField_entry hmem (by decide)) _
  | some n =>
    rw [hversion] at hmem
    exact numberField_number hmem (h.version n hversion)

theorem numberField_depth {file : ConfigFile} (h : file.Fits) :
    numberField file.rows.scalars "max_depth" (Nat.pow 2 64) = .ok file.maxDepth := by
  have hmem : ("max_depth", file.maxDepth.map fun n => .ofWord "max_depth" (toString n)) ∈
      file.rows := by simp [rows]
  cases hdepth : file.maxDepth with
  | none =>
    rw [hdepth] at hmem
    exact numberField_nothing (scalarField_leftOut hmem) _
  | some n =>
    rw [hdepth] at hmem
    exact numberField_number hmem (h.maxDepth n hdepth)

-- The reader finds in the text of a file what the writer was given.
theorem ofText_toText {file : ConfigFile} (h : file.Fits) : ofText file.toText = .ok file := by
  have hsub : (file.rows.scalars.map (·.1)).Sublist fields := Rows.keys_sublist file.rows
  have hknown : (file.rows.scalars.map (·.1)).all fields.contains = true := by
    rw [List.all_eq_true]
    intro key hkey
    simpa using hsub.subset hkey
  have hdistinct : isDistinct (file.rows.scalars.map (·.1)) = true :=
    (isDistinct_iff _).mpr (fields_nodup.sublist hsub)
  have htest : textField file.rows.scalars Config.testField = .ok file.testPattern :=
    textField_rows (by simp [rows])
  have hassertion : textField file.rows.scalars Config.assertionField =
      .ok file.assertionPattern := textField_rows (by simp [rows])
  have hexclusion : textField file.rows.scalars Config.exclusionField =
      .ok file.exclusionPattern := textField_rows (by simp [rows])
  have htypes : textField file.rows.scalars Config.assertionTypeField =
      .ok file.assertionTypePattern := textField_rows (by simp [rows])
  simp only [ofText, entries?_toText, hknown, hdistinct, numberField_version h, htest, hassertion,
    hexclusion, htypes, numberField_depth h]
  rfl

theorem bind_eq_ok {ε α β : Type} {x : Except ε α} {f : α → Except ε β} {b : β}
    (h : (x >>= f) = .ok b) : ∃ a, x = .ok a ∧ f a = .ok b := by
  cases x with
  | error e => cases h
  | ok a => exact ⟨a, rfl, h⟩

theorem numberField_lt {entries : List (String × Scalar)} {field : String} {limit : Nat}
    {found : Option Nat} (h : numberField entries field limit = .ok found) :
    ∀ n ∈ found, n < limit := by
  obtain ⟨s, -, h⟩ := bind_eq_ok h
  split at h
  · cases h
    simp
  split at h
  · split at h
    · next hlt =>
      cases h
      simpa using hlt
    · cases h
  · cases h

theorem fits_of_ofText {text : String} {file : ConfigFile} (h : ofText text = .ok file) :
    file.Fits := by
  unfold ofText at h
  split at h
  · cases h
  simp only at h
  split at h
  · cases h
  obtain ⟨version, hversion, h⟩ := bind_eq_ok h
  obtain ⟨test, -, h⟩ := bind_eq_ok h
  obtain ⟨assertion, -, h⟩ := bind_eq_ok h
  obtain ⟨exclusion, -, h⟩ := bind_eq_ok h
  obtain ⟨types, -, h⟩ := bind_eq_ok h
  obtain ⟨depth, hdepth, h⟩ := bind_eq_ok h
  cases h
  exact ⟨numberField_lt hversion, numberField_lt hdepth⟩

end ConfigFile
end TestFocus
