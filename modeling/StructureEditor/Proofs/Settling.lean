import StructureEditor.Proofs.Running
import StructureEditor.Proofs.Slots

/-! Cached results. An editor is settled when its cached result is what its own state and the
results of its children give. A change of one editor unsettles at most that editor;
recomputing moves the unsettled place upwards until there is none. -/
namespace StructureEditor

variable {S : Signature} [Language S]

namespace Arena

variable {a b : Arena S} {id x c : Handle} {editor : Editor S}

def yields (a : Arena S) : EditorState S → Except Refusal (Outcome S.Value)
  | .token c text item => .ok (compileToken c text item)
  | .expander c (.text text item) => .ok (compileText c text item)
  | .expander _ (.expanded content) => a.result content
  | .compound c components => do
    return (← a.resultsOf components).bind (Language.compound c).compose
  | .list c items => do return (← a.resultsOf items).bind (Language.list c).compose

def SettledAt (a : Arena S) (x : Handle) : Prop :=
  ∀ editor, a.get? x = some editor → a.yields editor.state = .ok editor.result

omit [Language S] in
theorem get_of_get? (found : a.get? x = some editor) : a.get x = .ok editor := by
  simp only [get, found]

omit [Language S] in
theorem result_of_get? (found : a.get? x = some editor) : a.result x = .ok editor.result := by
  simp only [result, get_of_get? found]
  rfl

theorem compute_of_get? (found : a.get? x = some editor) :
    a.compute x = a.yields editor.state := by
  simp only [compute, get_of_get? found]
  obtain ⟨_, _, _, _, state⟩ := editor
  cases state with
  | expander c display => cases display <;> rfl
  | _ => rfl

omit [Language S] in
theorem resultsOf_congr {ids : List Handle} (same : ∀ c ∈ ids, a.result c = b.result c) :
    a.resultsOf ids = b.resultsOf ids := by
  have mapped : ids.mapM a.result = ids.mapM b.result := by
    induction ids with
    | nil => rfl
    | cons c rest ih =>
      rw [List.mapM_cons, List.mapM_cons, same c (by simp),
        ih fun d member => same d (by simp [member])]
  simp only [resultsOf, mapped]

theorem yields_congr {state : EditorState S}
    (same : ∀ c ∈ state.children, a.result c = b.result c) : a.yields state = b.yields state := by
  cases state with
  | token => rfl
  | expander c display =>
    cases display with
    | text => rfl
    | expanded content => exact same content (by simp [EditorState.children])
  | compound c components =>
    have results : a.resultsOf components = b.resultsOf components := resultsOf_congr same
    simp only [yields, results]
  | list c items =>
    have results : a.resultsOf items = b.resultsOf items := resultsOf_congr same
    simp only [yields, results]

omit [Language S] in
theorem resultsOf_ok {ids : List Handle} (live : ∀ c ∈ ids, ∃ r, a.result c = .ok r) :
    ∃ r, a.resultsOf ids = .ok r := by
  have mapped : ∃ rs, ids.mapM a.result = .ok rs := by
    induction ids with
    | nil => exact ⟨[], rfl⟩
    | cons c rest ih =>
      obtain ⟨r, first⟩ := live c (by simp)
      obtain ⟨rs, others⟩ := ih fun d member => live d (by simp [member])
      refine ⟨r :: rs, ?_⟩
      rw [List.mapM_cons, first, others]
      rfl
  obtain ⟨rs, mapped⟩ := mapped
  refine ⟨Outcome.sequence rs, ?_⟩
  simp only [resultsOf, mapped]
  rfl

theorem yields_ok {state : EditorState S} (live : ∀ c ∈ state.children, ∃ r, a.result c = .ok r) :
    ∃ r, a.yields state = .ok r := by
  cases state with
  | token c text item => exact ⟨_, rfl⟩
  | expander c display =>
    cases display with
    | text text item => exact ⟨_, rfl⟩
    | expanded content => exact live content (by simp [EditorState.children])
  | compound c components =>
    obtain ⟨r, found⟩ : ∃ r, a.resultsOf components = .ok r := resultsOf_ok live
    refine ⟨r.bind (Language.compound c).compose, ?_⟩
    simp only [yields, found]
    rfl
  | list c items =>
    obtain ⟨r, found⟩ : ∃ r, a.resultsOf items = .ok r := resultsOf_ok live
    refine ⟨r.bind (Language.list c).compose, ?_⟩
    simp only [yields, found]
    rfl

omit [Language S] in
theorem result_ok_of_forest (forest : a.links.Forest) (found : a.get? x = some editor)
    (member : c ∈ editor.state.children) : ∃ r, a.result c = .ok r := by
  obtain ⟨place, isLive, _⟩ := forest.linked (links_of_get? found) member
  obtain ⟨child, found', _⟩ := get?_of_links isLive
  exact ⟨_, result_of_get? found'⟩

omit [Language S] in
theorem outline_setResult (a : Arena S) (id : Handle) (r : Outcome S.Value) :
    (a.setResult id r).outline = a.outline := by
  funext x
  simp only [outline, setResult, get?_modify]
  split
  · cases a.get? x <;> rfl
  · rfl

omit [Language S] in
theorem links_congr (same : a.outline = b.outline) : a.links = b.links := by
  funext x
  rw [links_eq_outline, links_eq_outline, same]

omit [Language S] in
theorem result_setResult_of_ne {r : Outcome S.Value} (different : x ≠ id) :
    (a.setResult id r).result x = a.result x := by
  simp only [result, get, setResult, get?_modify, if_neg different]

theorem settledAt_setResult {r : Outcome S.Value} (forest : a.links.Forest)
    (found : a.get? id = some editor) (computed : a.yields editor.state = .ok r)
    (settled : ∀ x, x ≠ id → a.SettledAt x) (other : editor.parent ≠ some x) :
    (a.setResult id r).SettledAt x := by
  have unlisted : ∀ {y e}, a.get? y = some e → y = id ∨ y = x → id ∉ e.state.children := by
    intro y e isLive which member
    obtain ⟨child, childFound, hasParent⟩ := forest.linked (links_of_get? isLive) member
    rw [links_of_get? found] at childFound
    cases childFound
    rcases which with rfl | rfl
    · exact forest.not_within_of_child (links_of_get? isLive) member .here
    · exact other hasParent
  have unaffected : ∀ {y e}, a.get? y = some e → y = id ∨ y = x →
      (a.setResult id r).yields e.state = a.yields e.state := by
    intro y e isLive which
    refine yields_congr fun c member => result_setResult_of_ne ?_
    rintro rfl
    exact unlisted isLive which member
  intro e found'
  simp only [setResult, get?_modify] at found'
  split at found'
  · next same =>
    subst same
    rw [found] at found'
    cases found'
    exact (unaffected found (Or.inl rfl)).trans computed
  · next different => exact (unaffected found' (Or.inr rfl)).trans (settled x different e found')

end Arena

namespace Workspace

variable {w w' : Workspace S} {id : Handle}

structure Refreshed (w w' : Workspace S) : Prop where
  outline : w'.arena.outline = w.arena.outline
  exact : w.arena.Exact → w'.arena.Exact
  slots : w'.arena.slots.size = w.arena.slots.size
  contexts : w'.contexts = w.contexts
  histories : w'.histories = w.histories
  views : w'.views = w.views

omit [Language S] in
theorem Refreshed.refl (w : Workspace S) : Refreshed w w := ⟨rfl, id, rfl, rfl, rfl, rfl⟩

omit [Language S] in
theorem Refreshed.trans {w'' : Workspace S} (first : Refreshed w w') (second : Refreshed w' w'') :
    Refreshed w w'' where
  outline := second.outline.trans first.outline
  exact := fun exact => second.exact (first.exact exact)
  slots := second.slots.trans first.slots
  contexts := second.contexts.trans first.contexts
  histories := second.histories.trans first.histories
  views := second.views.trans first.views

omit [Language S] in
theorem Refreshed.links (same : Refreshed w w') : w'.arena.links = w.arena.links :=
  Arena.links_congr same.outline

omit [Language S] in
theorem tell_run (id : Handle) (notice : Notice S) (w : Workspace S) :
    ∃ journal, tell id notice w = .ok () { w with journal } := ⟨_, rfl⟩

omit [Language S] in
theorem lookup_run {editor : Editor S} (found : w.arena.get? id = some editor) :
    lookup id w = .ok editor w := by
  simp only [lookup, ask, Action.ask, Arena.get_of_get? found]

omit [Language S] in
theorem refreshed_setResult (w : Workspace S) (id : Handle) (r : Outcome S.Value)
    (journal : Array (Event S)) :
    Refreshed w { w with arena := w.arena.setResult id r, journal } where
  outline := Arena.outline_setResult w.arena id r
  exact := fun exact => Arena.exact_modify exact id _
  slots := Arena.size_slots_modify id _ w.arena
  contexts := rfl
  histories := rfl
  views := rfl

theorem recomputeWithin_step {editor : Editor S} (forest : w.arena.links.Forest)
    (isLive : w.arena.get? id = some editor) :
    ∃ r, w.arena.yields editor.state = .ok r ∧
      ((editor.result = r ∧ ∀ steps, recomputeWithin (steps + 1) id w = .ok () w) ∨
      ∃ journal, (editor.result ≠ r ∧ tell id (.resultChanged r)
          { w with arena := w.arena.setResult id r } =
            .ok () { w with arena := w.arena.setResult id r, journal }) ∧
        ∀ steps, recomputeWithin (steps + 1) id w =
          match editor.parent with
          | some p =>
            recomputeWithin steps p { w with arena := w.arena.setResult id r, journal }
          | none => .ok () { w with arena := w.arena.setResult id r, journal }) := by
  obtain ⟨r, computed⟩ := Arena.yields_ok fun c member =>
    Arena.result_ok_of_forest forest isLive member
  have asked : ask (·.compute id) w = .ok r w :=
    Action.ask_run_ok ((Arena.compute_of_get? isLive).trans computed)
  refine ⟨r, computed, ?_⟩
  by_cases same : editor.result = r
  · refine Or.inl ⟨same, fun steps => ?_⟩
    simp only [recomputeWithin, Action.bind_run_ok _ asked,
      Action.bind_run_ok _ (lookup_run isLive), same, if_true]
    rfl
  · obtain ⟨journal, told⟩ := tell_run id (.resultChanged r)
      { w with arena := w.arena.setResult id r }
    have written : change (·.setResult id r) w =
        .ok () { w with arena := w.arena.setResult id r } := rfl
    refine Or.inr ⟨journal, ⟨same, told⟩, fun steps => ?_⟩
    simp only [recomputeWithin, Action.bind_run_ok _ asked, if_neg same,
      Action.bind_run_ok _ (lookup_run isLive), Action.bind_run_ok _ written,
      Action.bind_run_ok _ told]
    cases editor.parent <;> rfl

theorem recomputeWithin_run {steps n : Nat} (forest : w.arena.links.Forest)
    (depth : w.arena.links.Depth id n) (enough : n < steps)
    (settled : ∀ x, x ≠ id → w.arena.SettledAt x) :
    ∃ w', recomputeWithin steps id w = .ok () w' ∧ Refreshed w w' ∧
      ∀ x, w'.arena.SettledAt x := by
  -- the way from the unsettled editor up to its root gets shorter with each step
  induction steps generalizing w id n with
  | zero => omega
  | succ steps ih =>
    obtain ⟨place, found⟩ := depth.live
    obtain ⟨editor, isLive, rfl⟩ := Arena.get?_of_links found
    obtain ⟨r, computed, ⟨same, still⟩ | ⟨journal, _, moved⟩⟩ := recomputeWithin_step forest isLive
    · refine ⟨w, still steps, .refl w, fun x => ?_⟩
      by_cases isSame : x = id
      · subst isSame
        intro e found
        rw [isLive] at found
        cases found
        rw [computed, same]
      · exact settled x isSame
    · have refreshed := refreshed_setResult w id r journal
      cases hasParent : editor.parent with
      | none =>
        rw [hasParent] at moved
        refine ⟨_, moved steps, refreshed, fun x => ?_⟩
        exact Arena.settledAt_setResult forest isLive computed settled (by simp [hasParent])
      | some p =>
        rw [hasParent] at moved
        have links := refreshed.links
        obtain ⟨k, rfl, above⟩ := depth.of_parent found hasParent
        obtain ⟨w', ran, rest, done⟩ := ih
          (w := { w with arena := w.arena.setResult id r, journal }) (links ▸ forest)
          (links ▸ above) (by omega) fun x different =>
            Arena.settledAt_setResult forest isLive computed settled (by
              rw [hasParent]
              exact fun same => different (Option.some.inj same).symm)
        exact ⟨w', (moved steps).trans ran, refreshed.trans rest, done⟩

theorem recomputeWithin_ends {n : Nat} (forest : w.arena.links.Forest)
    (depth : w.arena.links.Depth id n) :
    ∃ w', ∀ steps, n < steps → recomputeWithin steps id w = .ok () w' := by
  induction n generalizing w id with
  | zero =>
    cases depth with
    | root found isRoot =>
      obtain ⟨editor, isLive, rfl⟩ := Arena.get?_of_links found
      change editor.parent = none at isRoot
      obtain ⟨r, _, ⟨_, still⟩ | ⟨journal, _, moved⟩⟩ := recomputeWithin_step forest isLive
      · refine ⟨w, fun steps enough => ?_⟩
        obtain ⟨k, rfl⟩ : ∃ k, steps = k + 1 := ⟨steps - 1, by omega⟩
        exact still k
      · rw [isRoot] at moved
        refine ⟨{ w with arena := w.arena.setResult id r, journal }, fun steps enough => ?_⟩
        obtain ⟨k, rfl⟩ : ∃ k, steps = k + 1 := ⟨steps - 1, by omega⟩
        exact moved k
  | succ n ih =>
    cases depth with
    | step found hasParent above =>
      obtain ⟨editor, isLive, rfl⟩ := Arena.get?_of_links found
      change editor.parent = some _ at hasParent
      obtain ⟨r, _, ⟨_, still⟩ | ⟨journal, _, moved⟩⟩ := recomputeWithin_step forest isLive
      · refine ⟨w, fun steps enough => ?_⟩
        obtain ⟨k, rfl⟩ : ∃ k, steps = k + 1 := ⟨steps - 1, by omega⟩
        exact still k
      · rw [hasParent] at moved
        have links := (refreshed_setResult w id r journal).links
        obtain ⟨w', ended⟩ := ih (w := { w with arena := w.arena.setResult id r, journal })
          (links ▸ forest) (links ▸ above)
        refine ⟨w', fun steps enough => ?_⟩
        obtain ⟨k, rfl⟩ : ∃ k, steps = k + 1 := ⟨steps - 1, by omega⟩
        exact (moved k).trans (ended k (by omega))

theorem recompute_run {editor : Editor S} (forest : w.arena.links.Forest)
    (isLive : w.arena.get? id = some editor) (settled : ∀ x, x ≠ id → w.arena.SettledAt x) :
    ∃ w', recompute id w = .ok () w' ∧ Refreshed w w' ∧ ∀ x, w'.arena.SettledAt x := by
  obtain ⟨n, depth⟩ := forest.rooted (Arena.links_of_get? isLive)
  have bound := Arena.depth_lt_size depth
  have slots := Arena.size_le_slots w.arena
  exact recomputeWithin_run forest depth (by simp only [Arena.reach]; omega) settled

end Workspace

end StructureEditor
