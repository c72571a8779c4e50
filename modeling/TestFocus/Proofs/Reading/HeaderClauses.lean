import TestFocus.Proofs.Reading.Consumption
import TestFocus.Proofs.Reading.Position

namespace TestFocus

-- The parameters are read in front of the clauses, and calls are made in bodies only.
structure Definition.Continues (d' d : Definition) : Prop where
  parameters : d'.parameters = d.parameters
  callSites : d'.callSites = d.callSites

namespace Reader

theorem gives_lateAttributes (d : Definition) (c : Cursor) :
    Gives (fun next => ∀ d' ∈ next, d'.Continues d) (lateAttributes d) c := by
  unfold lateAttributes
  refine .bind fun _ _ _ => .bind fun _ _ _ => .bind fun _ _ _ => ?_
  split
  · refine .pure ?_
    intro d' hd'
    cases hd'
  · refine .pure ?_
    rintro d' ⟨⟩
    exact ⟨rfl, rfl⟩

theorem gives_headerClause (d : Definition) (keyword : String) (c : Cursor) :
    Gives (fun next => ∀ d' ∈ next, d'.Continues d) (headerClause d keyword) c := by
  have hclause {β : Type} {x : Reader β} {f : β → Definition} (hf : ∀ a, (f a).Continues d) :
      Gives (fun next => ∀ d' ∈ next, d'.Continues d)
        (do discard advance; return some (f (← x))) c := by
    refine .bind fun _ _ _ => .bind fun a _ _ => .pure ?_
    rintro d' ⟨⟩
    exact hf a
  unfold headerClause
  split
  · exact hclause fun _ => ⟨rfl, rfl⟩
  · exact hclause fun _ => ⟨rfl, rfl⟩
  · exact hclause fun _ => ⟨rfl, rfl⟩
  · exact hclause fun _ => ⟨rfl, rfl⟩
  · exact hclause fun _ => ⟨rfl, rfl⟩
  · exact hclause fun _ => ⟨rfl, rfl⟩
  · exact hclause fun _ => ⟨rfl, rfl⟩
  · exact hclause fun _ => ⟨rfl, rfl⟩
  · split
    · exact hclause fun _ => ⟨rfl, rfl⟩
    · exact gives_lateAttributes d c

theorem gives_headerClauses (rounds : Nat) (d : Definition) (c : Cursor) :
    Gives (·.Continues d) (headerClauses rounds d) c := by
  induction rounds generalizing d c with
  | zero => exact .pure ⟨rfl, rfl⟩
  | succ rounds ih =>
    refine .bind fun c' _ _ => ?_
    cases c'.peekText? with
    | none => exact .pure ⟨rfl, rfl⟩
    | some keyword =>
      refine .bind fun next c'' hnext => ?_
      have hkept := gives_headerClause d keyword _ next c'' hnext
      cases next with
      | none => exact .pure ⟨rfl, rfl⟩
      | some d' =>
        obtain ⟨hparameters, hcallSites⟩ := hkept d' rfl
        intro d'' c''' hread
        obtain ⟨hparameters', hcallSites'⟩ := ih d' c'' d'' c''' hread
        exact ⟨hparameters'.trans hparameters, hcallSites'.trans hcallSites⟩

theorem gives_header (c : Cursor) : Gives (·.callSites = []) header c := by
  iterate 14 refine .bind fun _ _ _ => ?_
  refine .bind fun d _ hd => .bind fun _ _ _ => .pure ?_
  exact (gives_headerClauses _ _ _ d _ hd).callSites

end Reader

theorem Definition.callSites_of_parse {text : String} {d : Definition}
    (h : Definition.parse text = .ok d) : d.callSites = [] := by
  obtain ⟨tokens, -, hread⟩ :=
    Reader.exists_tokens_of_parse Reader.Forward.header Reader.Exhausts.header h
  exact Reader.gives_header _ _ _ hread

end TestFocus
