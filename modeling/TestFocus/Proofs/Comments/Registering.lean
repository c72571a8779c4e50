import TestFocus.Proofs.Analysis.Evaluation
import TestFocus.Proofs.Comments.HeaderReading
import TestFocus.Proofs.Comments.Scanning
import TestFocus.Proofs.Comments.Splitting

namespace TestFocus

open Text Lexer Piece

-- The same keys in the same order, with related values.
structure Table.Alike {α β : Type} (R : α → β → Prop) (t : Table α) (t' : Table β) : Prop where
  keys : t.keys = t'.keys
  get? : ∀ key, Option.Rel R (t.get? key) (t'.get? key)

namespace Table.Alike

variable {α β : Type} {R : α → β → Prop} {t : Table α} {t' : Table β}

theorem empty : Alike R (∅ : Table α) (∅ : Table β) :=
  ⟨rfl, fun _ => .none⟩

theorem contains_eq (h : Alike R t t') (key : String) : t.contains key = t'.contains key := by
  rcases rel_cases (h.get? key) with ⟨hnone, hnone'⟩ | ⟨a, b, hfound, hfound', -⟩
  · rw [Table.contains, Table.contains, hnone, hnone']
    rfl
  · simp only [Table.contains, hfound, hfound', Option.isSome_some]

theorem insert (h : Alike R t t') (key : String) {a : α} {b : β} (hab : R a b) :
    Alike R (t.insert key a) (t'.insert key b) where
  keys := by
    have hcontains := h.contains_eq key
    cases hkey : t.contains key with
    | true =>
      rw [keys_insert_of_contains hkey, keys_insert_of_contains (hcontains ▸ hkey), h.keys]
    | false =>
      rw [keys_insert_of_not_contains hkey, keys_insert_of_not_contains (hcontains ▸ hkey), h.keys]
  get? other := by
    rw [get?_insert, get?_insert]
    split
    · exact .some hab
    · exact h.get? other

theorem insertNew (h : Alike R t t') (key : String) {a : α} {b : β} (hab : R a b) :
    Alike R (t.insertNew key a) (t'.insertNew key b) := by
  simp only [Table.insertNew, h.contains_eq]
  split
  · exact h
  · exact h.insert key hab

end Table.Alike

namespace Reader

-- The tokens of a line that opens an attribute group: the word, and then the id.
theorem exists_group_tokens {text : String} {ts : List Token}
    (htext : startsWith text "attributes #" = true)
    (hscan : scan .between 0 text.toList = some ts) :
    ∃ opening id rest, ts = opening :: id :: rest ∧ opening.text = "attributes" ∧
      startsWithChar id.text '#' = true := by
  obtain ⟨cs, hcs⟩ := List.isPrefixOf_iff_prefix.mp htext
  have hspell : text.toList =
      spell [.token .word "attributes", .gap " "] ++ '#' :: cs := hcs.symm
  have hword : Valid (.token .word "attributes") := Shape.bare (c := 'a') rfl rfl
  have hgap : Valid (.gap " ") := Blank.char rfl
  have hfits : Fits [.token .word "attributes", .gap " "] ('#' :: cs).head? := by
    refine ⟨hword, ?_, hgap, ?_, trivial⟩
    · rintro c ⟨⟩
      rfl
    · rintro c ⟨⟩
      rfl
  rw [hspell, scan_spell _ _ hfits] at hscan
  obtain ⟨after, hafter, rfl⟩ := Option.map_eq_some_iff.mp hscan
  obtain ⟨p, rest, hp, hne, hvalid, hmeets⟩ := exists_first_word (by rfl) hafter
  obtain ⟨d, ds, hlist⟩ := List.exists_cons_of_ne_nil (String.toList_eq_nil_iff.not.mpr hne)
  have hsign : '#' = d := by
    rw [hlist] at hp
    exact (List.cons.inj hp).1
  subst hsign
  cases p with
  | gap s =>
    -- what stands between tokens starts with a blank or with a semicolon
    have hblank : Blank ('#' :: ds) := hlist ▸ hvalid
    cases hblank with
    | char hc => cases hc
  | token kind s =>
    rw [hp, scan_piece _ _ hvalid hmeets] at hafter
    obtain ⟨ts, -, rfl⟩ := Option.map_eq_some_iff.mp hafter
    refine ⟨_, _, _, rfl, rfl, ?_⟩
    have hs : s.toList = '#' :: ds := hlist
    simp [startsWithChar, hs]

theorem gives_attributeGroup {text : String} {opening id : Token} {rest : List Token}
    (hopening : opening.text = "attributes") :
    Gives (·.1 = id.text) attributeGroup ⟨text, opening :: id :: rest, 0⟩ := by
  have hexpect : (discard (expect "attributes" "'attributes'") : Reader Unit)
      ⟨text, opening :: id :: rest, 0⟩ = .ok () ⟨text, opening :: id :: rest, 1⟩ := by
    simp [expect, Cursor.peek?, Cursor.peekNth?, hopening, Cursor.advance, Cursor.isEmpty]
  have hnext : next "attribute group id" ⟨text, opening :: id :: rest, 1⟩ =
      .ok id ⟨text, opening :: id :: rest, 2⟩ := by
    simp [next, Cursor.peek?, Cursor.peekNth?, Cursor.advance, Cursor.isEmpty]
  refine .bind fun _ c hc => .bind fun token c' htoken => ?_
  rw [hexpect] at hc
  cases hc
  rw [hnext] at htoken
  cases htoken
  exact .bind fun _ _ _ => .bind fun _ _ _ => .bind fun _ _ _ => .bind fun _ _ _ => .pure rfl

theorem startsWithChar_of_parse_attributeGroup {text id : String} {attributes : List String}
    (htext : startsWith text "attributes #" = true)
    (hparse : attributeGroup.parse text = .ok (id, attributes)) :
    startsWithChar id '#' = true := by
  rw [parse_eq] at hparse
  cases hscan : scan .between 0 text.toList with
  | none =>
    rw [hscan] at hparse
    cases hparse
  | some tokens =>
    obtain ⟨opening, token, rest, rfl, hopening, hid⟩ := exists_group_tokens htext hscan
    rw [hscan] at hparse
    cases hread : attributeGroup ⟨text, opening :: token :: rest, 0⟩ with
    | ok group c =>
      have htoken : group.1 = token.text := gives_attributeGroup hopening _ _ hread
      simp only [hread] at hparse
      cases hparse
      rwa [← htoken] at hid
    | error e c =>
      simp only [hread] at hparse
      cases hparse

end Reader

namespace Registry

-- The definitions differ in blanks, and no other attribute can be taken for the id of a group.
structure Alike (r r' : Registry) : Prop where
  definitions : Table.Alike Definition.Alike r.definitions r'.definitions
  aliases : r.aliases = r'.aliases
  attributeGroups : r.attributeGroups = r'.attributeGroups
  groupIds : ∀ id, r.attributeGroups.contains id = true → startsWithChar id '#' = true

namespace Alike

variable {r r' : Registry}

theorem empty : Alike Registry.empty Registry.empty :=
  ⟨.empty, rfl, rfl, nofun⟩

theorem get? (h : Alike r r') (name : String) :
    Option.Rel Definition.Alike (r.get? name) (r'.get? name) := by
  rw [Registry.get?, Registry.get?, resolve_congr h.aliases]
  exact h.definitions.get? _

-- Whatever the definitions agree on is read alike.
theorem map_get?_eq (h : Alike r r') {α : Type} {read : Definition → α}
    (hread : ∀ d d', d.Alike d' → read d = read d') (name : String) :
    (r.get? name).map read = (r'.get? name).map read := by
  rcases rel_cases (h.get? name) with ⟨hnone, hnone'⟩ | ⟨d, d', hd, hd', halike⟩
  · rw [hnone, hnone']
  · rw [hd, hd', Option.map_some, Option.map_some, hread d d' halike]

theorem isStartup_eq (h : Alike r r') (name : String) : r.isStartup name = r'.isStartup name := by
  have hread (d d' : Definition) (halike : d.Alike d') : d.isStartup = d'.isStartup := by
    rw [Definition.isStartup, Definition.isStartup, halike.sectionName]
  have hstartup := congrArg (Option.any (· == true)) (h.map_get?_eq hread name)
  simpa [isStartup, Option.any_map] using hstartup

theorem callSites_eq (h : Alike r r') (name : String) : r.callSites name = r'.callSites name := by
  rw [callSites, callSites, h.map_get?_eq (fun _ _ halike => halike.callSites)]

theorem any_expandAttributes_eq (h : Alike r r') {given given' : List String}
    (hgiven : List.Forall₂ AlikeAttributes given given') :
    (r.expandAttributes given).any isReadOnly = (r'.expandAttributes given').any isReadOnly := by
  induction hgiven with
  | nil => rfl
  | @cons s s' given given' hs _ ih =>
    simp only [expandAttributes, List.flatMap_cons, List.any_append] at ih ⊢
    rw [ih]
    congr 1
    rcases hs with rfl | ⟨hspaced, hsign⟩
    · rw [h.attributeGroups]
    · have hnone (t : String) (ht : startsWithChar t '#' = false) :
          r.attributeGroups.get? t = none := by
        rw [← Table.contains_eq_false_iff]
        by_contra hgroup
        rw [Bool.not_eq_false] at hgroup
        rw [h.groupIds t hgroup] at ht
        cases ht
      have hsign' : startsWithChar s' '#' = false := hspaced.startsWithChar_eq '#' ▸ hsign
      rw [← h.attributeGroups, hnone s hsign, hnone s' hsign', hsign, hsign']
      simp [hspaced.isReadOnly_eq]

theorem functionAttributes_eq (h : Alike r r') (name : String) :
    (r.functionAttributes name).any isReadOnly = (r'.functionAttributes name).any isReadOnly := by
  apply h.any_expandAttributes_eq
  rcases rel_cases (h.get? name) with ⟨hnone, hnone'⟩ | ⟨d, d', hd, hd', halike⟩
  · rw [hnone, hnone']
    exact .nil
  · rw [hd, hd']
    exact halike.attributes

theorem define (h : Alike r r') {d d' : Definition} (hd : d.Alike d') :
    Alike (r.define d) (r'.define d') := by
  rw [Registry.define, Registry.define, ← hd.name]
  exact { h with definitions := h.definitions.insert d.name hd }

theorem addAlias (h : Alike r r') (name target : String) :
    Alike (r.addAlias name target) (r'.addAlias name target) :=
  { h with aliases := by simp only [Registry.addAlias, h.aliases] }

theorem addAttributeGroup (h : Alike r r') {id : String} (hid : startsWithChar id '#' = true)
    (attributes : List String) :
    Alike (r.addAttributeGroup id attributes) (r'.addAttributeGroup id attributes) :=
  { h with
    attributeGroups := by simp only [Registry.addAttributeGroup, h.attributeGroups]
    groupIds := by
      intro other hother
      rw [Registry.addAttributeGroup, Table.contains_insert, Bool.or_eq_true, beq_iff_eq] at hother
      rcases hother with rfl | hother
      · exact hid
      · exact h.groupIds other hother }

theorem addCallSite (h : Alike r r') (name : String) (site : CallSite) :
    Alike ((r.addCallSite? name site).getD r) ((r'.addCallSite? name site).getD r') := by
  unfold addCallSite?
  rcases rel_cases (h.definitions.get? name) with ⟨hnone, hnone'⟩ | ⟨d, d', hd, hd', halike⟩
  · rw [hnone, hnone']
    exact h
  · rw [hd, hd']
    have hsites : d.callSites ++ [site] = d'.callSites ++ [site] := by rw [halike.callSites]
    exact { h with definitions := h.definitions.insert name { halike with callSites := hsites } }

theorem addCallSites (h : Alike r r') (name : String) (sites : List CallSite) :
    Alike (r.addCallSites name sites) (r'.addCallSites name sites) := by
  induction sites generalizing r r' with
  | nil => exact h
  | cons site sites ih => exact ih (h.addCallSite name site)

end Alike

end Registry

namespace Analysis

-- The two analyses have come to the same, up to lines and to blanks in headers. The reports of what
-- could not be read name lines, so they are left out.
structure Alike (a a' : Analysis) : Prop where
  registry : a.registry.Alike a'.registry
  bodies : Table.Alike (fun b b' => b.unnumbered = b'.unnumbered) a.bodies a'.bodies
  callGraph : a.callGraph = a'.callGraph
  evaluated : a.evaluated = a'.evaluated
  tests : a.tests = a'.tests

-- The bodies in the two tables have the same entries.
def AlikeSources (sources sources' : Table FunctionSource) : Prop :=
  Table.Alike (fun f f' => Line.entries f.body = Line.entries f'.body) sources sources'

variable {a a' : Analysis} {sources sources' : Table FunctionSource}

theorem Alike.empty : Alike Analysis.empty Analysis.empty :=
  ⟨.empty, .empty, rfl, rfl, rfl⟩

theorem Alike.addAlias (h : Alike a a') {line line' : SourceLine} (htext : line.text = line'.text) :
    Alike (a.addAlias line) (a'.addAlias line') := by
  simp only [Analysis.addAlias, ← htext]
  split
  · exact { h with registry := h.registry.addAlias _ _ }
  · exact { h with }

theorem Alike.addAttributeGroup (h : Alike a a') {line line' : SourceLine}
    (htext : line.text = line'.text) (hgroup : startsWith line.text "attributes #" = true) :
    Alike (a.addAttributeGroup line) (a'.addAttributeGroup line') := by
  simp only [Analysis.addAttributeGroup, ← htext]
  split
  · next id attributes hparse =>
    have hid := Reader.startsWithChar_of_parse_attributeGroup hgroup hparse
    exact { h with registry := h.registry.addAttributeGroup hid attributes }
  · exact { h with }

theorem Alike.addDefinition (h : Alike a a') (hsources : AlikeSources sources sources')
    {f f' : FunctionSource} (hf : f.Alike f') :
    Alike (Analysis.addDefinition (a, sources) f).1 (Analysis.addDefinition (a', sources') f').1 ∧
      AlikeSources (Analysis.addDefinition (a, sources) f).2
        (Analysis.addDefinition (a', sources') f').2 := by
  obtain ⟨w, hw, hline, hbare, hfull⟩ := hf.header
  simp only [Analysis.addDefinition, hbare, hfull]
  rcases Definition.parse_alike hw hline with ⟨d, d', hd, hd', halike⟩ | ⟨e, e', he, he'⟩
  · have hregistry := h.registry.define halike
    have hname := halike.name
    simp only [hd, hd', hregistry.isStartup_eq d.name, ← hname]
    refine ⟨?_, hsources.insertNew d.name hf.body⟩
    split
    · exact { h with registry := hregistry, callGraph := by simp only [h.callGraph] }
    · exact { h with registry := hregistry }
  · simp only [he, he']
    exact ⟨{ h with }, hsources⟩

theorem Alike.addDefinitions {functions functions' : List FunctionSource}
    (hfunctions : List.Forall₂ FunctionSource.Alike functions functions') (h : Alike a a')
    (hsources : AlikeSources sources sources') :
    Alike (functions.foldl Analysis.addDefinition (a, sources)).1
        (functions'.foldl Analysis.addDefinition (a', sources')).1 ∧
      AlikeSources (functions.foldl Analysis.addDefinition (a, sources)).2
        (functions'.foldl Analysis.addDefinition (a', sources')).2 := by
  induction hfunctions generalizing a a' sources sources' with
  | nil => exact ⟨h, hsources⟩
  | cons hf _ ih =>
    obtain ⟨hnext, hnextSources⟩ := h.addDefinition hsources hf
    exact ih hnext hnextSources

theorem alike_register {m m' : ModuleSource} (hm : m.Alike m') :
    Alike (register m).1 (register m').1 ∧ AlikeSources (register m).2 (register m').2 := by
  have haliases : Alike (m.aliases.foldl Analysis.addAlias .empty)
      (m'.aliases.foldl Analysis.addAlias .empty) :=
    List.rel_foldl (fun _ _ h _ _ htext => h.addAlias htext) .empty hm.aliases
  have hgroups := List.rel_foldl (P := Alike)
    (fun _ _ h _ _ hline => h.addAttributeGroup hline.1 hline.2) haliases hm.attributeGroups
  exact hgroups.addDefinitions hm.functions .empty

end Analysis

end TestFocus
