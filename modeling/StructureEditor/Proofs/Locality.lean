import StructureEditor.Proofs.Reachability
import StructureEditor.Proofs.Sketch

/-! Errors stay local. An error is reported by the editor in which it arose: expanders above it pass
it on as it is, and from the nearest compound or list on there is only an error below. An editor
with a value has no error anywhere below it. -/
namespace StructureEditor

variable {S : Signature}

theorem Outcome.sequence_cases {α : Type} (outcomes : List (Outcome α)) :
    (∃ values, outcomes = values.map .ok ∧ sequence outcomes = .ok values) ∨
      sequence outcomes = .errBelow := by
  induction outcomes with
  | nil => exact .inl ⟨[], rfl, rfl⟩
  | cons first rest ih =>
    cases first with
    | ok value =>
      rcases ih with ⟨values, rfl, together⟩ | together
      · exact .inl ⟨value :: values, rfl, by simp only [sequence, together, map]⟩
      · exact .inr (by simp only [sequence, together, map])
    | err message => exact .inr rfl
    | errBelow => exact .inr rfl

variable [Language S]

/-- How a compound or a list composes the values of its parts; no other editor does. -/
def EditorState.compose? : EditorState S → Option (List S.Value → Outcome S.Value)
  | .compound c _ => some (Language.compound c).compose
  | .list c _ => some (Language.list c).compose
  | .token .. | .expander .. => none

namespace Arena

variable {a : Arena S} {x y z p c : Handle} {editor above below : Editor S}
  {compose : List S.Value → Outcome S.Value}

def Valued (a : Arena S) : List Handle → List S.Value → Prop :=
  List.Forall₂ fun c value => a.result c = .ok (.ok value)

/-- A compound or a list stands above `x`, at `y` or below it. -/
def GroupBetween (a : Arena S) (y x : Handle) : Prop :=
  ∃ z group, z ≠ x ∧ a.links.Within y z ∧ a.links.Within z x ∧ a.get? z = some group ∧
    group.state.compose?.isSome = true

omit [Language S] in
theorem results_of_mapM {ids : List Handle} {results : List (Outcome S.Value)}
    (answered : ids.mapM a.result = .ok results) :
    List.Forall₂ (fun c r => a.result c = .ok r) ids results := by
  induction ids generalizing results with
  | nil =>
    cases answered
    exact .nil
  | cons c rest ih =>
    rw [List.mapM_cons] at answered
    cases first : a.result c with
    | error error =>
      rw [first] at answered
      cases answered
    | ok r =>
      cases others : rest.mapM a.result with
      | error error =>
        rw [first, others] at answered
        cases answered
      | ok rs =>
        rw [first, others] at answered
        cases answered
        exact .cons first (ih others)

omit [Language S] in
theorem resultsOf_cases {ids : List Handle} {together : Outcome (List S.Value)}
    (answered : a.resultsOf ids = .ok together) :
    (∃ values, a.Valued ids values ∧ together = .ok values) ∨ together = .errBelow := by
  cases asked : ids.mapM a.result with
  | error error =>
    rw [resultsOf, asked] at answered
    cases answered
  | ok results =>
    rw [resultsOf, asked] at answered
    cases answered
    rcases Outcome.sequence_cases results with ⟨values, rfl, together⟩ | together
    · have related := results_of_mapM asked
      rw [List.forall₂_map_right_iff] at related
      exact .inl ⟨values, related, together⟩
    · exact .inr together

omit [Language S] in
theorem composed_cases {ids : List Handle} {result : Outcome S.Value}
    (answered : (do return (← a.resultsOf ids).bind compose : Except Refusal (Outcome S.Value)) =
      .ok result) :
    (∃ values, a.Valued ids values ∧ result = compose values) ∨ result = .errBelow := by
  cases asked : a.resultsOf ids with
  | error error =>
    rw [asked] at answered
    cases answered
  | ok together =>
    rw [asked] at answered
    have result_eq : together.bind compose = result := Except.ok.inj answered
    rcases resultsOf_cases asked with ⟨values, valued, rfl⟩ | rfl
    · exact .inl ⟨values, valued, result_eq.symm⟩
    · exact .inr result_eq.symm

theorem group_result (settled : a.SettledAt x) (found : a.get? x = some editor)
    (isGroup : editor.state.compose? = some compose) :
    (∃ values, a.Valued editor.state.children values ∧ editor.result = compose values) ∨
      editor.result = .errBelow := by
  have yields := settled editor found
  cases held : editor.state with
  | compound k ids =>
    rw [held] at yields isGroup
    cases isGroup
    exact composed_cases yields
  | list k ids =>
    rw [held] at yields isGroup
    cases isGroup
    exact composed_cases yields
  | _ =>
    rw [held] at isGroup
    cases isGroup

omit [Language S] in
theorem Valued.of_mem {ids : List Handle} {values : List S.Value} (valued : a.Valued ids values)
    (member : c ∈ ids) (found : a.get? c = some editor) : editor.result.isOk = true := by
  induction valued with
  | nil => cases member
  | cons first _ ih =>
    rcases List.mem_cons.1 member with rfl | later
    · have result := Except.ok.inj ((result_of_get? found).symm.trans first)
      rw [result]
      rfl
    · exact ih later

theorem result_of_parent (forest : a.links.Forest) (settled : ∀ x, a.SettledAt x)
    (found : a.get? x = some editor) (isAbove : a.get? p = some above)
    (hasParent : editor.parent = some p) (failed : editor.result.isOk = false) :
    above.state.compose?.isSome = true ∧ above.result = .errBelow ∨
      above.state.compose?.isSome = false ∧ above.result = editor.result := by
  obtain ⟨place, placed, member⟩ := forest.listed (links_of_get? found) hasParent
  rw [links_of_get? isAbove] at placed
  cases placed
  have member : x ∈ above.state.children := member
  cases isGroup : above.state.compose? with
  | some compose =>
    rcases group_result (settled p) isAbove isGroup with ⟨values, valued, _⟩ | below
    · rw [valued.of_mem member found] at failed
      cases failed
    · exact .inl ⟨rfl, below⟩
  | none =>
    have yields := settled p above isAbove
    cases held : above.state with
    | expander k display =>
      cases display with
      | expanded content =>
        rw [held] at member yields
        cases List.mem_singleton.1 member
        exact .inr ⟨rfl, Except.ok.inj (yields.symm.trans (result_of_get? found))⟩
      | text text item =>
        rw [held] at member
        cases member
    | token k text item =>
      rw [held] at member
      cases member
    | compound k ids =>
      rw [held] at isGroup
      cases isGroup
    | list k ids =>
      rw [held] at isGroup
      cases isGroup

omit [Language S] in
theorem not_within_parent (forest : a.links.Forest) (found : a.get? x = some editor)
    (hasParent : editor.parent = some p) : ¬ a.links.Within x p := by
  obtain ⟨n, depth⟩ := forest.rooted (links_of_get? found)
  exact Links.not_within_child depth (links_of_get? found) hasParent

omit [Language S] in
theorem within_antisymm {top : Handle} (forest : a.links.Forest) (found : a.get? x = some editor)
    (upper : a.links.Within top x) (lower : a.links.Within x top) : top = x := by
  by_contra other
  obtain ⟨p, hasParent, within⟩ := upper.parent (Ne.symm other) (links_of_get? found)
  exact not_within_parent forest found hasParent (lower.trans within)

theorem GroupBetween.of_parent (forest : a.links.Forest) (found : a.get? x = some editor)
    (hasParent : editor.parent = some p) (isAbove : a.get? p = some above)
    (isGroup : above.state.compose?.isSome = true) (within : a.links.Within y p) :
    a.GroupBetween y x :=
  ⟨p, above, fun same => not_within_parent forest found hasParent (same ▸ .here), within,
    .step (links_of_get? found) hasParent .here, isAbove, isGroup⟩

theorem groupBetween_iff_parent (forest : a.links.Forest) (found : a.get? x = some editor)
    (hasParent : editor.parent = some p) (isAbove : a.get? p = some above)
    (noGroup : above.state.compose?.isSome = false) :
    a.GroupBetween y x ↔ a.GroupBetween y p := by
  constructor
  · rintro ⟨z, group, other, upper, lower, isLive, isGroup⟩
    have lower := lower.to_parent (Ne.symm other) (links_of_get? found) hasParent
    refine ⟨z, group, ?_, upper, lower, isLive, isGroup⟩
    rintro rfl
    cases isAbove.symm.trans isLive
    rw [noGroup] at isGroup
    cases isGroup
  · rintro ⟨z, group, _, upper, lower, isLive, isGroup⟩
    refine ⟨z, group, ?_, upper, ?_, isLive, isGroup⟩
    · rintro rfl
      exact not_within_parent forest found hasParent lower
    · exact lower.trans (.step (links_of_get? found) hasParent .here)

/-- The result of an editor without a value goes up unchanged to the first group, and from there
on there is an error below. -/
theorem result_above (forest : a.links.Forest) (settled : ∀ x, a.SettledAt x)
    (within : a.links.Within y x) (found : a.get? x = some editor)
    (isAbove : a.get? y = some above) (failed : editor.result.isOk = false) :
    (a.GroupBetween y x → above.result = .errBelow) ∧
      (¬ a.GroupBetween y x → above.result = editor.result) := by
  induction within generalizing editor with
  | here =>
    cases found.symm.trans isAbove
    refine ⟨?_, fun _ => rfl⟩
    rintro ⟨z, group, other, upper, lower, _⟩
    exact absurd (within_antisymm forest found lower upper) other
  | @step x p place placed hasParent within ih =>
    rw [links_of_get? found] at placed
    cases placed
    obtain ⟨upper, isUpper⟩ : ∃ upper, a.get? p = some upper := by
      obtain ⟨place, placed, _⟩ := forest.listed (links_of_get? found) hasParent
      obtain ⟨upper, isUpper, _⟩ := get?_of_links placed
      exact ⟨upper, isUpper⟩
    rcases result_of_parent forest settled found isUpper hasParent failed with
      ⟨isGroup, result⟩ | ⟨noGroup, result⟩
    · have between : a.GroupBetween y x :=
        .of_parent forest found hasParent isUpper isGroup within
      obtain ⟨passed, same⟩ := ih isUpper (by rw [result]; rfl)
      refine ⟨fun _ => ?_, fun none => absurd between none⟩
      by_cases further : a.GroupBetween y p
      · exact passed further
      · exact (same further).trans result
    · obtain ⟨passed, same⟩ := ih isUpper (by rw [result]; exact failed)
      rw [groupBetween_iff_parent forest found hasParent isUpper noGroup]
      exact ⟨passed, fun none => (same none).trans result⟩

theorem isOk_below (forest : a.links.Forest) (settled : ∀ x, a.SettledAt x)
    (within : a.links.Within x y) (found : a.get? x = some editor) (isBelow : a.get? y = some below)
    (valued : editor.result.isOk = true) : below.result.isOk = true := by
  by_contra failed
  have failed : below.result.isOk = false := Bool.not_eq_true _ ▸ failed
  obtain ⟨passed, same⟩ := result_above forest settled within isBelow found failed
  by_cases between : a.GroupBetween x y
  · rw [passed between] at valued
    cases valued
  · rw [same between, failed] at valued
    cases valued

end Arena

namespace Workspace

variable {w : Workspace S} {x : Handle} {editor : Editor S}

/-- In every reachable state an error is reported where it arose. Above an editor without a value
expanders have its result up to the nearest compound or list, which has an error below, as has
everything above it; below an editor with a value everything has a value; and the message of a
compound or a list is what it makes itself of the values of all its children. -/
theorem errors_stay_local (reached : Reaches {} w) (isLive : w.arena.get? x = some editor) :
    (editor.result.isOk = false → ∀ y above, w.arena.get? y = some above →
      w.arena.links.Within y x →
        (w.arena.GroupBetween y x → above.result = .errBelow) ∧
        (¬ w.arena.GroupBetween y x → above.result = editor.result)) ∧
    (editor.result.isOk = true → ∀ y below, w.arena.get? y = some below →
      w.arena.links.Within x y → below.result.isOk = true) ∧
    ∀ compose message, editor.state.compose? = some compose → editor.result = .err message →
      ∃ values, w.arena.Valued editor.state.children values ∧ compose values = .err message := by
  have sound := sound_of_reached reached
  refine ⟨fun failed y above isAbove within => ?_, fun valued y below isBelow within => ?_,
    fun compose message isGroup isError => ?_⟩
  · exact Arena.result_above sound.forest sound.settled within isLive isAbove failed
  · exact Arena.isOk_below sound.forest sound.settled within isLive isBelow valued
  · rcases Arena.group_result (sound.settled x) isLive isGroup with ⟨values, valued, result⟩ | below
    · exact ⟨values, valued, result.symm.trans isError⟩
    · rw [isError] at below
      cases below

section

open Sample

def brokenGrid : Workspace expression :=
  performAll [.create (.list ListName.grid) ⟨0, []⟩, .openItem ⟨0, 0⟩ 0, .openItem ⟨1, 0⟩ 0,
    .restoreState ⟨2, 0⟩ (.expanded (.token (some "int") "x" none none))] desk

theorem reaches_brokenGrid : Reaches {} brokenGrid :=
  reaches_performAll _ (.beside (.refl _) rfl) (by simp [Allowed])

theorem brokenGrid_errs_below : ∃ editor grid, brokenGrid.arena.get? ⟨3, 0⟩ = some editor ∧
    editor.result = .err "'x' is not an integer" ∧ brokenGrid.arena.get? ⟨0, 0⟩ = some grid ∧
    grid.result = .errBelow := by
  have cached : (brokenGrid.arena.get? ⟨3, 0⟩).map (fun e => (e.parent, e.result)) =
      some (some ⟨2, 0⟩, .err "'x' is not an integer") := by decide +kernel
  have expander : (brokenGrid.arena.get? ⟨2, 0⟩).map (·.parent) = some (some ⟨1, 0⟩) := by
    decide +kernel
  have row : (brokenGrid.arena.get? ⟨1, 0⟩).map (·.parent) = some (some ⟨0, 0⟩) := by
    decide +kernel
  have isGrid : (brokenGrid.arena.get? ⟨0, 0⟩).map (·.state.compose?.isSome) = some true := by
    decide +kernel
  obtain ⟨editor, isLive, same⟩ := Option.map_eq_some_iff.1 cached
  obtain ⟨hasParent, result⟩ := Prod.mk.inj same
  obtain ⟨e, isExpander, expanderParent⟩ := Option.map_eq_some_iff.1 expander
  obtain ⟨r, isRow, rowParent⟩ := Option.map_eq_some_iff.1 row
  obtain ⟨grid, isLiveGrid, isGroup⟩ := Option.map_eq_some_iff.1 isGrid
  have within : brokenGrid.arena.links.Within ⟨0, 0⟩ ⟨3, 0⟩ :=
    .step (Arena.links_of_get? isLive) hasParent <|
    .step (Arena.links_of_get? isExpander) expanderParent <|
    .step (Arena.links_of_get? isRow) rowParent .here
  have failed : editor.result.isOk = false := by
    rw [result]
    rfl
  have passed := ((errors_stay_local reaches_brokenGrid isLive).1 failed _ grid isLiveGrid within).1
  exact ⟨editor, grid, isLive, result, isLiveGrid,
    passed ⟨_, grid, by decide, .here, within, isLiveGrid, isGroup⟩⟩

end

end Workspace

end StructureEditor
