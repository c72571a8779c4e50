import TestFocus.Proofs.Analysis.Coverage
import TestFocus.Proofs.Analysis.ScanRecord
import TestFocus.Proofs.Trace.StepCases

-- The scan of a body and the search for focal methods agree on what an assertion is, as long as
-- every alias that looks like an assertion stands for a function that the search does not look
-- at either. The scan goes by the name that a call gives, the search by the function that the
-- name stands for.

namespace TestFocus.Analysis

variable {framework : Framework} {sources : Table FunctionSource} {r : Registry} {a : Analysis}
  {waiting : List String}

theorem Sound.assertions (h : Sound framework sources r a waiting) {name : String} {body : Body}
    (hbody : a.bodies.get? name = some body) {node : Nat} (hnode : node ∈ body.assertions) :
    ∃ call, body.call? node = some call ∧ framework.isAssertion call.callee = true := by
  obtain ⟨source, -, hscanned, -⟩ := h.scanned name (Table.contains_iff.mpr ⟨body, hbody⟩)
  rw [hbody] at hscanned
  cases hscanned
  have hrecords := Scan.records_run framework.allTests .empty .empty name source
  obtain ⟨call, hcall, -, hassertion⟩ := hrecords.assertions node hnode
  refine ⟨call, ?_, hassertion⟩
  rw [Body.call?_marked]
  exact hcall

-- The function of an assertion is off limits.
theorem Sound.isOffLimits_assertion (h : Sound framework sources r a waiting) {maxDepth : Nat}
    (haliases : ∀ name ∈ r.aliases.keys, framework.isAssertion name = true →
      (a.program framework maxDepth).isOffLimits (r.resolve name) = true) {call : Call}
    (hassertion : framework.isAssertion call.callee = true) :
    (a.program framework maxDepth).isOffLimits (a.registry.resolve call.callee) = true := by
  rw [h.resolve_eq]
  cases halias : r.isAlias call.callee with
  | true => exact haliases call.callee (Table.mem_keys_iff.mpr halias) hassertion
  | false =>
    rw [Registry.resolve_of_not_isAlias halias]
    simp [Program.isOffLimits, program, hassertion]

-- A step at an assertion adds no candidates, whatever name is followed there and whatever the judge
-- says.
theorem step_candidates_at_assertion (framework : Framework) (maxDepth : Nat) (text : String)
    (haliases : ∀ name ∈ (registryOf text).aliases.keys, framework.isAssertion name = true →
      ((ofModule framework maxDepth text).program framework maxDepth).isOffLimits
        ((registryOf text).resolve name) = true)
    (name : String) (body : Body)
    (hbody : (ofModule framework maxDepth text).bodies.get? name = some body)
    (s : TraceState) (hnode : s.node ∈ body.assertions) {σ : Type} (judge : Judge σ)
    (c : Candidates) (st : σ) :
    ((Trace.step ((ofModule framework maxDepth text).program framework maxDepth) judge body s
      c).run st).1.candidates = c := by
  obtain ⟨waiting, h⟩ := exists_sound_ofModule framework maxDepth text
  obtain ⟨call, hcall, hassertion⟩ := h.assertions hbody hnode
  obtain ⟨moves, role, callee, -, -, hrole, hrun⟩ := Trace.step_outcome
    ((ofModule framework maxDepth text).program framework maxDepth) judge body s c st
  rw [hrun]
  cases role with
  | none => rfl
  | some role =>
    obtain ⟨met, hmeets, -⟩ := hrole rfl
    have hsame : met = call := Option.some.inj (hmeets.found.symm.trans hcall)
    have hallowed := hmeets.allowed
    rw [hsame] at hallowed
    exact absurd (h.isOffLimits_assertion haliases hassertion) (by simpa [program] using hallowed)

-- A module whose assertion is called by an alias.
def aliasedAssertion : String :=
  "@c = alias void (ptr), ptr @d\n" ++
  "define void @d(ptr %0) \x7b\nret void\n\x7d\n" ++
  "define void @t() \x7b\n%1 = alloca i8\n" ++
  "call void @c(ptr %1)\ncall void @c(ptr %1)\nret void\n\x7d\n"

-- Both the alias and its function look like assertions.
def aliasedAssertionNames : Framework :=
  .ofNames ["@t"] ["@c", "@d"]

theorem step_candidates_at_assertion_aliased :
    ∃ body, (ofModule aliasedAssertionNames 1 aliasedAssertion).bodies.get? "@t" = some body ∧
      1 ∈ body.assertions ∧ ∀ c,
        ((Trace.step ((ofModule aliasedAssertionNames 1 aliasedAssertion).program
          aliasedAssertionNames 1) (Program.judge ((ofModule aliasedAssertionNames 1
            aliasedAssertion).program aliasedAssertionNames 1)) body
          ⟨"%1", 1, true, 1⟩ c).run .empty).1.candidates = c := by
  have hmodule : (∀ name ∈ (registryOf aliasedAssertion).aliases.keys,
        aliasedAssertionNames.isAssertion name = true →
        ((ofModule aliasedAssertionNames 1 aliasedAssertion).program aliasedAssertionNames
          1).isOffLimits ((registryOf aliasedAssertion).resolve name) = true) ∧
      ((ofModule aliasedAssertionNames 1 aliasedAssertion).bodies.get? "@t").map (·.assertions) =
        some [1, 2] := by
    decide +kernel
  obtain ⟨haliases, hscanned⟩ := hmodule
  obtain ⟨body, hbody, hassertions⟩ := Option.map_eq_some_iff.mp hscanned
  have hnode : 1 ∈ body.assertions := by simp [hassertions]
  exact ⟨body, hbody, hnode, fun c => step_candidates_at_assertion aliasedAssertionNames 1
    aliasedAssertion haliases "@t" body hbody ⟨"%1", 1, true, 1⟩ hnode _ c _⟩

-- Where only the alias does, the function of the assertion is itself a focal method.
example : (ofModule (.ofNames ["@t"] ["@c"]) 1
      ("@c = alias void (ptr), ptr @d\ndefine void @t() \x7b\n%1 = alloca i8\n" ++
        "call void @c(ptr %1)\ncall void @c(ptr %1)\nret void\n\x7d\n")).focalMethods
    (.ofNames ["@t"] ["@c"]) 1 = [("@t", ["@d"])] := by
  decide +kernel

end TestFocus.Analysis
