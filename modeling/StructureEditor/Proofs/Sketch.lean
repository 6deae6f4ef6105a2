import StructureEditor.Arena.Capture
import StructureEditor.Proofs.Frames
import Mathlib.Data.List.Forall2

/-! Sketches: documents as they look, without handles, contexts and caches. An editor shows a
sketch; the sketch has a value, which is what compiling the whole document from scratch
gives, and a snapshot. -/
namespace StructureEditor

variable {S : Signature}

inductive Sketch (S : Signature) where
  | token (c : S.TokenClass) (text : String) (item : Option Candidate)
  | text (c : S.ExpanderClass) (shown : String) (item : Option Candidate)
  | expanded (c : S.ExpanderClass) (content : Sketch S)
  | compound (c : S.CompoundClass) (parts : List (Sketch S))
  | list (c : S.ListClass) (items : List (Sketch S))

namespace Sketch

theorem induct {motive : Sketch S → Prop}
    (token : ∀ c text item, motive (.token c text item))
    (text : ∀ c shown item, motive (.text c shown item))
    (expanded : ∀ c content, motive content → motive (.expanded c content))
    (compound : ∀ c parts, (∀ d ∈ parts, motive d) → motive (.compound c parts))
    (list : ∀ c items, (∀ d ∈ items, motive d) → motive (.list c items)) (d : Sketch S) :
    motive d := by
  refine @Sketch.rec S motive (fun ds => ∀ d ∈ ds, motive d)
    token text expanded compound list (by simp) ?_ d
  intro d ds first rest e member
  rcases List.mem_cons.1 member with rfl | later
  · exact first
  · exact rest e later

def classKey : Sketch S → ClassKey S
  | .token c _ _ => .token c
  | .text c _ _ => .expander c
  | .expanded c _ => .expander c
  | .compound c _ => .compound c
  | .list c _ => .list c

def parts : Sketch S → List (Sketch S)
  | .token .. | .text .. => []
  | .expanded _ content => [content]
  | .compound _ parts => parts
  | .list _ items => items

def valueOr {α : Type} (compiled : Option (Outcome α)) (byText : Outcome α) : Outcome α :=
  match compiled with
  | some (.ok v) => .ok v
  | _ => byText

def composed {α β : Type} (compose : List α → Outcome β) (results : List (Outcome α)) : Outcome β :=
  match results.mapM Outcome.toOption with
  | some vs => compose vs
  | none => .errBelow

variable [Language S]

mutual

/-- Compiles a whole document from scratch. -/
def value : Sketch S → Outcome S.Value
  | .token c shown item =>
    valueOr (item.map (Language.token c).compileCandidate) ((Language.token c).compile shown)
  | .text c shown item =>
    valueOr (item.map (Language.expander c).compileCandidate) ((Language.expander c).compile shown)
  | .expanded _ content => value content
  | .compound c parts => composed (Language.compound c).compose (values parts)
  | .list c items => composed (Language.list c).compose (values items)

def values : List (Sketch S) → List (Outcome S.Value)
  | [] => []
  | d :: ds => value d :: values ds

end

theorem value_token (c : S.TokenClass) (shown : String) (item : Option Candidate) :
    (Sketch.token c shown item).value = Arena.compileToken c shown item := by
  cases item with
  | none => rfl
  | some item =>
    simp only [value, Arena.compileToken, Option.map_some]
    cases (Language.token c).compileCandidate item <;> rfl

theorem value_text (c : S.ExpanderClass) (shown : String) (item : Option Candidate) :
    (Sketch.text c shown item).value = Arena.compileText c shown item := by
  cases item with
  | none => rfl
  | some item =>
    simp only [value, Arena.compileText, Option.map_some]
    cases (Language.expander c).compileCandidate item <;> rfl

omit [Language S] in
theorem composed_eq {α β : Type} (compose : List α → Outcome β) (results : List (Outcome α)) :
    composed compose results = (Outcome.sequence results).bind compose := by
  have same : Outcome.sequence results = match results.mapM Outcome.toOption with
      | some vs => .ok vs
      | none => .errBelow := by
    induction results with
    | nil => rfl
    | cons first rest ih =>
      cases first with
      | ok v =>
        simp only [Outcome.sequence, ih, List.mapM_cons, Outcome.toOption]
        cases rest.mapM Outcome.toOption <;> rfl
      | err message => simp [Outcome.sequence, List.mapM_cons, Outcome.toOption]
      | errBelow => simp [Outcome.sequence, List.mapM_cons, Outcome.toOption]
  rw [composed, same]
  cases results.mapM Outcome.toOption <;> rfl

mutual

def toSnapshot : Sketch S → Snapshot
  | .token c shown item => .ofToken (some (ClassKey.token c).name) shown item
  | .text c shown item => .ofExpander (some (ClassKey.expander c).name) (.text shown item)
  | .expanded c content =>
    .ofExpander (some (ClassKey.expander c).name) (.expanded (toSnapshot content))
  | .compound c parts => .compound (some (ClassKey.compound c).name) (toSnapshots parts)
  | .list c items => .list (some (ClassKey.list c).name) (toSnapshots items)

def toSnapshots : List (Sketch S) → List Snapshot
  | [] => []
  | d :: ds => toSnapshot d :: toSnapshots ds

end

mutual

/-- Compounds have parts of their declared classes, and lists items of their element class. -/
def Conforms : Sketch S → Prop
  | .token .. | .text .. => True
  | .expanded _ content => Conforms content
  | .compound c parts => parts.map classKey = (Language.compound c).components ∧ AllConform parts
  | .list c items => (∀ d ∈ items, d.classKey = (Language.list c).element) ∧ AllConform items

def AllConform : List (Sketch S) → Prop
  | [] => True
  | d :: ds => Conforms d ∧ AllConform ds

end

theorem values_eq_map (ds : List (Sketch S)) : values ds = ds.map value := by
  induction ds with
  | nil => rfl
  | cons d ds ih => rw [values, ih, List.map_cons]

theorem toSnapshots_eq_map (ds : List (Sketch S)) : toSnapshots ds = ds.map toSnapshot := by
  induction ds with
  | nil => rfl
  | cons d ds ih => rw [toSnapshots, ih, List.map_cons]

theorem allConform_iff {ds : List (Sketch S)} : AllConform ds ↔ ∀ d ∈ ds, d.Conforms := by
  induction ds with
  | nil => simp [AllConform]
  | cons d ds ih => simp [AllConform, ih]

end Sketch

namespace Arena

variable {a b : Arena S} {x y : Handle} {d : Sketch S} {editor : Editor S}

mutual

/-- The document that is to be seen at a handle. -/
def Shows (a : Arena S) : Handle → Sketch S → Prop
  | x, .token c text item => a.state? x = some (.token c text item)
  | x, .text c shown item => a.state? x = some (.expander c (.text shown item))
  | x, .expanded c content =>
    ∃ y, a.state? x = some (.expander c (.expanded y)) ∧ Shows a y content
  | x, .compound c parts => ∃ ids, a.state? x = some (.compound c ids) ∧ ShowAll a ids parts
  | x, .list c items => ∃ ids, a.state? x = some (.list c ids) ∧ ShowAll a ids items

def ShowAll (a : Arena S) : List Handle → List (Sketch S) → Prop
  | [], [] => True
  | x :: xs, d :: ds => Shows a x d ∧ ShowAll a xs ds
  | _, _ => False

end

theorem showAll_iff {xs : List Handle} {ds : List (Sketch S)} :
    a.ShowAll xs ds ↔ List.Forall₂ a.Shows xs ds := by
  induction ds generalizing xs with
  | nil => cases xs <;> simp [ShowAll]
  | cons d ds ih => cases xs <;> simp [ShowAll, ih]

theorem shows_compound {c : S.CompoundClass} {parts : List (Sketch S)} :
    a.Shows x (.compound c parts) ↔
      ∃ ids, a.state? x = some (.compound c ids) ∧ List.Forall₂ a.Shows ids parts := by
  simp only [Shows, showAll_iff]

theorem shows_list {c : S.ListClass} {items : List (Sketch S)} :
    a.Shows x (.list c items) ↔
      ∃ ids, a.state? x = some (.list c ids) ∧ List.Forall₂ a.Shows ids items := by
  simp only [Shows, showAll_iff]

theorem shows_expanded {c : S.ExpanderClass} {content : Sketch S} :
    a.Shows x (.expanded c content) ↔
      ∃ y, a.state? x = some (.expander c (.expanded y)) ∧ a.Shows y content := by
  simp only [Shows]

theorem forall₂_imp_mem {α β : Type} {R T : α → β → Prop} {xs : List α} {ys : List β}
    (related : List.Forall₂ R xs ys) (imp : ∀ x ∈ xs, ∀ y ∈ ys, R x y → T x y) :
    List.Forall₂ T xs ys := by
  induction related with
  | nil => exact .nil
  | cons first _ ih =>
    exact .cons (imp _ (by simp) _ (by simp) first)
      (ih fun x member y member' => imp x (by simp [member]) y (by simp [member']))

theorem within_of_state? {state : EditorState S} (forest : a.links.Forest)
    (found : a.state? x = some state) (member : y ∈ state.children) : a.links.Within x y := by
  obtain ⟨editor, isLive, rfl⟩ := get?_of_state? found
  exact forest.within_of_child (links_of_get? isLive) member

theorem Shows.transfer (seen : a.Shows x d) (forest : a.links.Forest)
    (same : ∀ y, a.links.Within x y → b.state? y = a.state? y) : b.Shows x d := by
  induction d using Sketch.induct generalizing x with
  | token c text item => exact (same x .here).trans seen
  | text c shown item => exact (same x .here).trans seen
  | expanded c content ih =>
    obtain ⟨y, found, seen⟩ := shows_expanded.1 seen
    refine shows_expanded.2 ⟨y, (same x .here).trans found, ih seen fun z within => ?_⟩
    exact same z ((within_of_state? forest found (by simp [EditorState.children])).trans within)
  | compound c parts ih =>
    obtain ⟨ids, found, seen⟩ := shows_compound.1 seen
    refine shows_compound.2 ⟨ids, (same x .here).trans found, forall₂_imp_mem seen ?_⟩
    intro y member d part seen
    exact ih d part seen fun z within => same z ((within_of_state? forest found member).trans within)
  | list c items ih =>
    obtain ⟨ids, found, seen⟩ := shows_list.1 seen
    refine shows_list.2 ⟨ids, (same x .here).trans found, forall₂_imp_mem seen ?_⟩
    intro y member d part seen
    exact ih d part seen fun z within => same z ((within_of_state? forest found member).trans within)

theorem Changes.shows {id : Handle} (changes : a.Changes b id) (seen : a.Shows x d)
    (forest : a.links.Forest) (found : a.get? x = some editor) (notAbove : ¬ a.links.Within x id)
    (notBelow : ¬ a.links.Within id x) : b.Shows x d := by
  refine seen.transfer forest fun y within => ?_
  obtain ⟨place, placed⟩ := within.live (links_of_get? found)
  obtain ⟨e, isLive, _⟩ := outline_of_links placed
  have outside : ¬ a.links.Within id y := by
    intro below
    rcases within.comparable below with lower | lower
    · exact notAbove lower
    · exact notBelow lower
  exact state?_congr ((changes.outside y e isLive outside).trans isLive.symm)

theorem Changes.sameExpander {id : Handle} {k k' : S.ExpanderClass} {shown shown' : Display Handle}
    (changes : a.Changes b id) (before : a.state? id = some (.expander k shown))
    (after : b.state? id = some (.expander k' shown')) : k' = k := by
  obtain ⟨old, isLive, held⟩ := get?_of_state? before
  obtain ⟨new, outlined, kept⟩ := changes.top _ (outline_of_get? isLive)
  have key := kept.2.2.2
  rw [state?_of_outline outlined] at after
  rw [Option.some.inj after, show old.blank.state = _ from held] at key
  exact ClassKey.expander.inj key

theorem Shows.state (seen : a.Shows x d) :
    ∃ state, a.state? x = some state ∧ state.classKey = d.classKey := by
  cases d with
  | token c text item => exact ⟨_, seen, rfl⟩
  | text c shown item => exact ⟨_, seen, rfl⟩
  | expanded c content =>
    obtain ⟨y, found, _⟩ := shows_expanded.1 seen
    exact ⟨_, found, rfl⟩
  | compound c parts =>
    obtain ⟨ids, found, _⟩ := shows_compound.1 seen
    exact ⟨_, found, rfl⟩
  | list c items =>
    obtain ⟨ids, found, _⟩ := shows_list.1 seen
    exact ⟨_, found, rfl⟩

theorem forall₂_eq {α β : Type} {R : α → β → Prop} {xs : List α} {ys zs : List β}
    (first : List.Forall₂ R xs ys) (second : List.Forall₂ R xs zs)
    (unique : ∀ x ∈ xs, ∀ y ∈ ys, ∀ z, R x y → R x z → y = z) : ys = zs := by
  induction first generalizing zs with
  | nil =>
    cases second
    rfl
  | cons related _ ih =>
    cases second with
    | cons related' rest =>
      rw [unique _ (by simp) _ (by simp) _ related related',
        ih rest fun x member y member' => unique x (by simp [member]) y (by simp [member'])]

theorem Shows.unique {d' : Sketch S} (first : a.Shows x d) (second : a.Shows x d') : d = d' := by
  induction d using Sketch.induct generalizing x d' with
  | token c text item =>
    obtain ⟨state, found, key⟩ := second.state
    cases first.symm.trans found
    cases d' <;> cases key
    cases first.symm.trans second
    rfl
  | text c shown item =>
    obtain ⟨state, found, key⟩ := second.state
    cases first.symm.trans found
    cases d' <;> cases key
    · cases first.symm.trans second
      rfl
    · obtain ⟨y, found', _⟩ := shows_expanded.1 second
      cases found.symm.trans found'
  | expanded c content ih =>
    obtain ⟨y, found, seen⟩ := shows_expanded.1 first
    obtain ⟨state, found', key⟩ := second.state
    cases found.symm.trans found'
    cases d' <;> cases key
    · cases found.symm.trans second
    · obtain ⟨y', found'', seen'⟩ := shows_expanded.1 second
      cases found.symm.trans found''
      rw [ih seen seen']
  | compound c parts ih =>
    obtain ⟨ids, found, seen⟩ := shows_compound.1 first
    obtain ⟨state, found', key⟩ := second.state
    cases found.symm.trans found'
    cases d' <;> cases key
    obtain ⟨ids', found'', seen'⟩ := shows_compound.1 second
    cases found.symm.trans found''
    rw [forall₂_eq seen seen' fun x _ d member d' => ih d member]
  | list c items ih =>
    obtain ⟨ids, found, seen⟩ := shows_list.1 first
    obtain ⟨state, found', key⟩ := second.state
    cases found.symm.trans found'
    cases d' <;> cases key
    obtain ⟨ids', found'', seen'⟩ := shows_list.1 second
    cases found.symm.trans found''
    rw [forall₂_eq seen seen' fun x _ d member d' => ih d member]

theorem forall₂_of_forall {α β : Type} {R : α → β → Prop} {xs : List α}
    (each : ∀ x ∈ xs, ∃ y, R x y) : ∃ ys, List.Forall₂ R xs ys := by
  induction xs with
  | nil => exact ⟨[], .nil⟩
  | cons x xs ih =>
    obtain ⟨y, first⟩ := each x (by simp)
    obtain ⟨ys, rest⟩ := ih fun z member => each z (by simp [member])
    exact ⟨y :: ys, .cons first rest⟩

theorem exists_shows (forest : a.links.Forest) (found : a.get? x = some editor) :
    ∃ d, a.Shows x d := by
  obtain ⟨n, depth⟩ := forest.rooted (links_of_get? found)
  -- the deeper an editor stands, the fewer levels there can be below it
  generalize room : a.size - n = k
  induction k generalizing x n editor with
  | zero =>
    have := depth_lt_size depth
    omega
  | succ k ih =>
    have below : ∀ y ∈ editor.state.children, ∃ d, a.Shows y d := by
      intro y member
      obtain ⟨child, childFound, _⟩ := live_child forest found member
      exact ih childFound (n + 1) (forest.depth_of_child (links_of_get? found) member depth) (by omega)
    have state := state?_of_get? found
    cases held : editor.state with
    | token c text item =>
      rw [held] at state
      exact ⟨.token c text item, state⟩
    | expander c display =>
      cases display with
      | text shown item =>
        rw [held] at state
        exact ⟨.text c shown item, state⟩
      | expanded y =>
        obtain ⟨d, seen⟩ := below y (by simp [held, EditorState.children])
        exact ⟨.expanded c d, shows_expanded.2 ⟨y, held ▸ state, seen⟩⟩
    | compound c ids =>
      rw [held] at below
      obtain ⟨ds, seen⟩ := forall₂_of_forall below
      exact ⟨.compound c ds, shows_compound.2 ⟨ids, held ▸ state, seen⟩⟩
    | list c ids =>
      rw [held] at below
      obtain ⟨ds, seen⟩ := forall₂_of_forall below
      exact ⟨.list c ds, shows_list.2 ⟨ids, held ▸ state, seen⟩⟩

section

variable [Language S]

theorem resultsOf_eq {ids : List Handle} {ds : List (Sketch S)}
    (related : List.Forall₂ (fun x (d : Sketch S) => a.result x = .ok d.value) ids ds) :
    a.resultsOf ids = .ok (Outcome.sequence (ds.map Sketch.value)) := by
  have mapped : ids.mapM a.result = .ok (ds.map Sketch.value) := by
    induction related with
    | nil => rfl
    | cons first _ ih =>
      rw [List.mapM_cons, first, ih]
      rfl
  simp only [resultsOf, mapped]
  rfl

theorem result_of_shows (settled : ∀ x, a.SettledAt x) (seen : a.Shows x d) :
    a.result x = .ok d.value := by
  have yielded : ∀ {x state}, a.state? x = some state → a.result x = a.yields state := by
    intro x state found
    obtain ⟨editor, isLive, rfl⟩ := get?_of_state? found
    rw [result_of_get? isLive, settled x editor isLive]
  induction d using Sketch.induct generalizing x with
  | token c text item =>
    rw [Sketch.value_token]
    exact yielded seen
  | text c shown item =>
    rw [Sketch.value_text]
    exact yielded seen
  | expanded c content ih =>
    obtain ⟨y, found, seen⟩ := shows_expanded.1 seen
    exact (yielded found).trans (ih seen)
  | compound c parts ih =>
    obtain ⟨ids, found, seen⟩ := shows_compound.1 seen
    have results := resultsOf_eq (forall₂_imp_mem seen fun y _ d part seen => ih d part seen)
    rw [yielded found]
    simp only [yields, results, Sketch.value, Sketch.values_eq_map, Sketch.composed_eq]
    rfl
  | list c items ih =>
    obtain ⟨ids, found, seen⟩ := shows_list.1 seen
    have results := resultsOf_eq (forall₂_imp_mem seen fun y _ d part seen => ih d part seen)
    rw [yielded found]
    simp only [yields, results, Sketch.value, Sketch.values_eq_map, Sketch.composed_eq]
    rfl

/-- In a sound arena the result of every editor is the value of what it shows. -/
theorem Sound.result_is_value (sound : a.Sound) (isLive : a.get? x = some editor) :
    ∃ d, a.Shows x d ∧ editor.result = d.value := by
  obtain ⟨d, seen⟩ := exists_shows sound.forest isLive
  refine ⟨d, seen, ?_⟩
  have cached := result_of_shows sound.settled seen
  rw [result_of_get? isLive] at cached
  exact Except.ok.inj cached

theorem mapM_snapshot {f : Handle → Except Refusal Snapshot} {ids : List Handle}
    {ds : List (Sketch S)}
    (related : List.Forall₂ (fun x (d : Sketch S) => f x = .ok d.toSnapshot) ids ds) :
    ids.mapM f = .ok (ds.map Sketch.toSnapshot) := by
  induction related with
  | nil => rfl
  | cons first _ ih =>
    rw [List.mapM_cons, first, ih]
    rfl

theorem snapshotWithin_of_shows {n steps : Nat} (forest : a.links.Forest) (seen : a.Shows x d)
    (depth : a.links.Depth x n) (enough : a.size ≤ steps + n) :
    a.snapshotWithin steps x = .ok d.toSnapshot := by
  have deeper : ∀ {x state n}, a.state? x = some state → a.links.Depth x n →
      ∀ y ∈ state.children, a.links.Depth y (n + 1) := by
    intro x state n found depth y member
    obtain ⟨editor, isLive, rfl⟩ := get?_of_state? found
    exact forest.depth_of_child (links_of_get? isLive) member depth
  have bound := depth_lt_size depth
  induction d using Sketch.induct generalizing x n steps with
  | token c text item =>
    obtain ⟨steps, rfl⟩ : ∃ k, steps = k + 1 := ⟨steps - 1, by omega⟩
    obtain ⟨editor, isLive, state⟩ := get?_of_state? seen
    simp only [snapshotWithin, get_of_get? isLive, Bind.bind, Except.bind, state]
    rfl
  | text c shown item =>
    obtain ⟨steps, rfl⟩ : ∃ k, steps = k + 1 := ⟨steps - 1, by omega⟩
    obtain ⟨editor, isLive, state⟩ := get?_of_state? seen
    simp only [snapshotWithin, get_of_get? isLive, Bind.bind, Except.bind, state]
    rfl
  | expanded c content ih =>
    obtain ⟨steps, rfl⟩ : ∃ k, steps = k + 1 := ⟨steps - 1, by omega⟩
    obtain ⟨y, found, seen⟩ := shows_expanded.1 seen
    obtain ⟨editor, isLive, state⟩ := get?_of_state? found
    have below := deeper found depth y (by simp [EditorState.children])
    have inner : a.snapshotWithin steps y = .ok content.toSnapshot :=
      ih seen below (by omega) (depth_lt_size below)
    simp only [snapshotWithin, get_of_get? isLive, state, Bind.bind, Except.bind, inner]
    rfl
  | compound c parts ih =>
    obtain ⟨steps, rfl⟩ : ∃ k, steps = k + 1 := ⟨steps - 1, by omega⟩
    obtain ⟨ids, found, seen⟩ := shows_compound.1 seen
    obtain ⟨editor, isLive, state⟩ := get?_of_state? found
    have inner := mapM_snapshot (f := a.snapshotWithin steps)
      (forall₂_imp_mem seen fun y member d part seen =>
        have below := deeper found depth y member
        ih d part seen below (by omega) (depth_lt_size below))
    simp only [snapshotWithin, get_of_get? isLive, state, Bind.bind, Except.bind, inner,
      Sketch.toSnapshot, Sketch.toSnapshots_eq_map]
    rfl
  | list c items ih =>
    obtain ⟨steps, rfl⟩ : ∃ k, steps = k + 1 := ⟨steps - 1, by omega⟩
    obtain ⟨ids, found, seen⟩ := shows_list.1 seen
    obtain ⟨editor, isLive, state⟩ := get?_of_state? found
    have inner := mapM_snapshot (f := a.snapshotWithin steps)
      (forall₂_imp_mem seen fun y member d part seen =>
        have below := deeper found depth y member
        ih d part seen below (by omega) (depth_lt_size below))
    simp only [snapshotWithin, get_of_get? isLive, state, Bind.bind, Except.bind, inner,
      Sketch.toSnapshot, Sketch.toSnapshots_eq_map]
    rfl

theorem snapshot_of_shows (forest : a.links.Forest) (seen : a.Shows x d) :
    a.snapshot x = .ok d.toSnapshot := by
  obtain ⟨state, found, _⟩ := seen.state
  obtain ⟨editor, isLive, _⟩ := get?_of_state? found
  obtain ⟨n, depth⟩ := forest.rooted (links_of_get? isLive)
  have bound := size_le_slots a
  exact snapshotWithin_of_shows forest seen depth (by simp only [reach]; omega)

end

end Arena

end StructureEditor
