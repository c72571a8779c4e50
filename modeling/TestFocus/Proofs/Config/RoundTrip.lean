import TestFocus.Proofs.Config.FileText

namespace TestFocus

-- What is assumed of a library that writes and reads configuration files: a file comes back as it
-- was written, whichever fields it has.
def ConfigCodec.Lossless (codec : ConfigCodec) : Prop :=
  ∀ file : ConfigFile, file.Fits → codec.read (codec.write file) = .ok file

theorem lossless_yaml : ConfigCodec.yaml.Lossless := by
  intro file hfits
  simp only [ConfigCodec.yaml]
  exact ConfigFile.ofText_toText hfits

-- The pattern holds more than spaces, and it compiles.
def PatternLibrary.Accepts (library : PatternLibrary) (pattern : String) : Prop :=
  (Text.trim pattern).isEmpty = false ∧ (library.compile? pattern).isSome

instance (library : PatternLibrary) : DecidablePred library.Accepts :=
  fun pattern => inferInstanceAs
    (Decidable ((Text.trim pattern).isEmpty = false ∧ (library.compile? pattern).isSome))

namespace Config

variable {library : PatternLibrary} {codec : ConfigCodec} {c : Config}

-- Whether a pattern is valid does not depend on the field that it stands in.
theorem exists_compile_iff (field pattern : String) :
    (∃ p, compile library field pattern = .ok p) ↔ library.Accepts pattern := by
  unfold compile PatternLibrary.Accepts
  cases (Text.trim pattern).isEmpty <;> cases library.compile? pattern <;> simp

theorem exists_compileOptional_iff (field : String) (pattern : Option String) :
    (∃ p, compileOptional library field pattern = .ok p) ↔ ∀ p ∈ pattern, library.Accepts p := by
  cases pattern with
  | none => simp [compileOptional]
  | some pattern =>
    simp only [Option.mem_some_iff, forall_eq', ← exists_compile_iff field]
    cases h : compile library field pattern <;> simp [compileOptional, h, Except.map]

theorem validate_eq_ok_iff (c : Config) (library : PatternLibrary) :
    c.validate library = .ok () ↔
      library.Accepts c.testPattern ∧ library.Accepts c.assertionPattern ∧
        (∀ p ∈ c.exclusionPattern, library.Accepts p) ∧
        ∀ p ∈ c.assertionTypePattern, library.Accepts p := by
  rw [← exists_compile_iff testField, ← exists_compile_iff assertionField,
    ← exists_compileOptional_iff exclusionField, ← exists_compileOptional_iff assertionTypeField]
  unfold validate framework
  cases compile library testField c.testPattern <;>
    cases compile library assertionField c.assertionPattern <;>
    cases compileOptional library exclusionField c.exclusionPattern <;>
    cases compileOptional library assertionTypeField c.assertionTypePattern <;>
    simp [bind, Except.bind, Except.map, pure, Except.pure]

-- The library compiles the pattern of assertion types of the preset, which is a plain name.
def AcceptsPreset (library : PatternLibrary) : Prop :=
  ∀ p ∈ preset.assertionTypePattern, library.Accepts p

theorem acceptsPreset_standard : AcceptsPreset .standard := by
  have h : PatternLibrary.standard.Accepts "testing::AssertionResult" := by decide +kernel
  simpa [AcceptsPreset, preset] using h

-- The configuration with the assertion types of the preset if it has none of its own.
def overPresetTypes (c : Config) : Config :=
  { c with assertionTypePattern := c.assertionTypePattern.or preset.assertionTypePattern }

theorem overPreset_toFile (c : Config) : overPreset c.toFile = c.overPresetTypes := by
  simp [overPreset, toFile, overPresetTypes, preset]

theorem validate_overPresetTypes (hpreset : AcceptsPreset library)
    (h : c.validate library = .ok ()) : c.overPresetTypes.validate library = .ok () := by
  rw [validate_eq_ok_iff] at h ⊢
  obtain ⟨htest, hassertion, hexclusion, htypes⟩ := h
  refine ⟨htest, hassertion, hexclusion, fun p hp => ?_⟩
  cases hown : c.assertionTypePattern with
  | some own => exact htypes p (by simpa [overPresetTypes, hown] using hp)
  | none => exact hpreset p (by simpa [overPresetTypes, hown] using hp)

theorem overPresetTypes_eq_self_iff (c : Config) :
    c.overPresetTypes = c ↔ c.assertionTypePattern.isSome := by
  obtain ⟨test, assertion, exclusion, types, depth⟩ := c
  cases types <;> simp [overPresetTypes, preset]

theorem ofFile?_toFile (hpreset : AcceptsPreset library) (h : c.validate library = .ok ()) :
    ofFile? c.toFile library = .ok c.overPresetTypes := by
  have hversion : c.toFile.version = some 1 := rfl
  have hsupported : supportedVersions.contains 1 = true := by decide
  simp only [ofFile?, hversion, hsupported, overPreset_toFile, validate_overPresetTypes hpreset h]
  rfl

theorem fits_toFile (h : c.maxDepth < Nat.pow 2 64) : c.toFile.Fits := by
  exact ⟨by simp [toFile], by simpa [toFile] using h⟩

theorem ofYaml_toYaml_eq (hcodec : codec.Lossless) (hpreset : AcceptsPreset library)
    (hvalid : c.validate library = .ok ()) (hdepth : c.maxDepth < Nat.pow 2 64) :
    ofYaml (c.toYaml codec) codec library = .ok c.overPresetTypes := by
  have hfile : codec.read (codec.write c.toFile) = .ok c.toFile :=
    hcodec c.toFile (fits_toFile hdepth)
  simp only [ofYaml, toYaml, hfile, bind, Except.bind]
  exact ofFile?_toFile hpreset hvalid

-- A valid configuration can be loaded from the file that it was saved to, and comes back as it was
-- if and only if it has a pattern of assertion types: the preset, which stands in for what a file
-- does not say, has such a pattern, but no exclusion pattern.
theorem ofYaml_toYaml (codec : ConfigCodec) (library : PatternLibrary) (hcodec : codec.Lossless)
    (hpreset : AcceptsPreset library) (c : Config) (hvalid : c.validate library = .ok ())
    (hdepth : c.maxDepth < Nat.pow 2 64) :
    ofYaml (c.toYaml codec) codec library = .ok c.overPresetTypes ∧
      (ofYaml (c.toYaml codec) codec library = .ok c ↔ c.assertionTypePattern.isSome) := by
  have hload := ofYaml_toYaml_eq hcodec hpreset hvalid hdepth
  refine ⟨hload, ?_⟩
  rw [hload, Except.ok.injEq]
  exact overPresetTypes_eq_self_iff c

-- Without either of the patterns that may be left out: only the exclusion pattern stays away.
theorem ofYaml_toYaml_withoutTypes :
    let c : Config := ⟨"TestBodyEv$", "^@check", none, none, 3⟩
    ConfigCodec.yaml.Lossless ∧ AcceptsPreset .standard ∧
      c.validate = .ok () ∧ c.maxDepth < Nat.pow 2 64 ∧
      ofYaml c.toYaml = .ok { c with assertionTypePattern := some "testing::AssertionResult" } ∧
      ofYaml c.toYaml ≠ .ok c := by
  intro c
  have hvalid : c.validate = .ok () := (validate_eq_ok_iff c .standard).mpr (by decide +kernel)
  have hdepth : c.maxDepth < Nat.pow 2 64 := by decide
  obtain ⟨hload, hsame⟩ :=
    ofYaml_toYaml .yaml .standard lossless_yaml acceptsPreset_standard c hvalid hdepth
  exact ⟨lossless_yaml, acceptsPreset_standard, hvalid, hdepth, hload,
    fun h => absurd (hsame.mp h) (by decide)⟩

-- The file texts and patterns of this development are such a library.
theorem ofYaml_toYaml_standard (hvalid : c.validate = .ok ()) (hdepth : c.maxDepth < Nat.pow 2 64) :
    ofYaml c.toYaml = .ok c.overPresetTypes :=
  ofYaml_toYaml_eq lossless_yaml acceptsPreset_standard hvalid hdepth

-- What was loaded once has all that a file cannot say, and is not changed by a round trip.
theorem maxDepth_overPreset {file : ConfigFile} (h : file.Fits) :
    (overPreset file).maxDepth < Nat.pow 2 64 := by
  cases hdepth : file.maxDepth with
  | none =>
    have hpreset : preset.maxDepth < Nat.pow 2 64 := by decide
    simpa [overPreset, hdepth] using hpreset
  | some n => simpa [overPreset, hdepth] using h.maxDepth n hdepth

theorem ofYaml_eq_ok {text : String} (h : ofYaml text = .ok c) :
    c.validate = .ok () ∧ c.assertionTypePattern.isSome ∧ c.maxDepth < Nat.pow 2 64 := by
  obtain ⟨file, hfile, h⟩ := ConfigFile.bind_eq_ok h
  unfold ofFile? at h
  split at h
  · cases h
  simp only at h
  split at h
  · cases h
  obtain ⟨_, hvalid, h⟩ := ConfigFile.bind_eq_ok h
  cases h
  exact ⟨hvalid, by simp [overPreset, preset],
    maxDepth_overPreset (ConfigFile.fits_of_ofText hfile)⟩

theorem ofYaml_toYaml_of_loaded {text : String} (h : ofYaml text = .ok c) :
    ofYaml c.toYaml = .ok c := by
  obtain ⟨hvalid, htypes, hdepth⟩ := ofYaml_eq_ok h
  rw [ofYaml_toYaml_standard hvalid hdepth, (overPresetTypes_eq_self_iff c).mpr htypes]

end Config
end TestFocus
