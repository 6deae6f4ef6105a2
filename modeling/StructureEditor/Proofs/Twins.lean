import StructureEditor.Proofs.Lockstep
import StructureEditor.Proofs.RoundTrip

/-! Twins: editors of two workspaces that stand for one document. They have the same form, their
contexts offer the same services, and their children are twins; the handles, and whatever
else the workspaces hold, may differ. Twins are changed side by side: whatever is done to both
of them leaves twins. -/
namespace StructureEditor

variable {S : Signature}

/-- What a context offers to the editors in it, and what those offer that the scope service
names from it on. -/
abbrev Outlook (S : Signature) := Nat → Option Settings × Option (Registry S)

namespace Contexts

variable {cs cs' : Contexts (Services S)} {c c' : Context}

def outlook (cs : Contexts (Services S)) : Context → Outlook S
  | c, 0 => (cs.find? (·.settings) c, cs.find? (·.registry) c)
  | c, n + 1 => cs.outlook ((cs.find? (·.scope) c).getD c) n

theorem outlook_of_same (grown : cs.Grown cs') (same : SameServices cs c cs' c') :
    cs'.outlook c' = cs.outlook c := by
  funext n
  induction n generalizing c c' with
  | zero => simp only [outlook, same _ (·.settings) rfl, same _ (·.registry) rfl]
  | succ n ih =>
    simp only [outlook, same _ (·.scope) rfl]
    cases cs.find? (·.scope) c with
    | none => exact ih same
    | some provided => exact ih (sameServices_of_grown grown provided)

theorem outlook_grown (grown : cs.Grown cs') (c : Context) : cs'.outlook c = cs.outlook c :=
  outlook_of_same grown (sameServices_of_grown grown c)

variable [Language S]

theorem outlook_scopeBelow (same : cs.outlook c = cs'.outlook c') (k : S.ExpanderClass) :
    cs.outlook (cs.scopeBelow k c) = cs'.outlook (cs'.scopeBelow k c') := by
  unfold scopeBelow
  cases (Language.expander k).contentScope with
  | own => exact same
  | provided => exact funext fun n => congrFun same (n + 1)
  | fresh => exact same

end Contexts

def EditorState.form : EditorState S → EditorState S
  | .expander k (.expanded _) => .expander k (.expanded default)
  | .compound k ids => .compound k (ids.map fun _ => default)
  | .list k ids => .list k (ids.map fun _ => default)
  | other => other

namespace EditorState

variable {s t : EditorState S}

theorem form_expanded {k : S.ExpanderClass} {x : Handle}
    (same : (EditorState.expander k (.expanded x)).form = t.form) :
    ∃ y, t = .expander k (.expanded y) := by
  cases t with
  | expander k' display =>
    cases display with
    | expanded y =>
      cases same
      exact ⟨y, rfl⟩
    | text => cases same
  | _ => cases same

theorem form_compound {k : S.CompoundClass} {ids : List Handle}
    (same : (EditorState.compound k ids).form = t.form) :
    ∃ ids', t = .compound k ids' ∧ ids'.length = ids.length := by
  cases t with
  | compound k' ids' =>
    obtain ⟨rfl, lengths⟩ := EditorState.compound.inj same
    exact ⟨ids', rfl, by simpa using (congrArg List.length lengths).symm⟩
  | expander k' display => cases display <;> cases same
  | _ => cases same

theorem form_list {k : S.ListClass} {ids : List Handle}
    (same : (EditorState.list k ids).form = t.form) :
    ∃ ids', t = .list k ids' ∧ ids'.length = ids.length := by
  cases t with
  | list k' ids' =>
    obtain ⟨rfl, lengths⟩ := EditorState.list.inj same
    exact ⟨ids', rfl, by simpa using (congrArg List.length lengths).symm⟩
  | expander k' display => cases display <;> cases same
  | _ => cases same

theorem form_token {k : S.TokenClass} {text : String} {item : Option Candidate}
    (same : (EditorState.token k text item).form = t.form) : t = .token k text item := by
  cases t with
  | token => exact same.symm
  | expander k' display => cases display <;> cases same
  | _ => cases same

theorem form_text {k : S.ExpanderClass} {text : String} {item : Option Candidate}
    (same : (EditorState.expander k (.text text item)).form = t.form) :
    t = .expander k (.text text item) := by
  cases t with
  | expander k' display =>
    cases display with
    | text => exact same.symm
    | expanded => cases same
  | _ => cases same

theorem shape_of_form (same : s.form = t.form) : s.shape = t.shape := by
  have kept : ∀ u : EditorState S, u.form.shape = u.shape := by
    intro u
    cases u with
    | expander k display => cases display <;> rfl
    | _ => rfl
  rw [← kept s, same, kept]

theorem classKey_of_form (same : s.form = t.form) : s.classKey = t.classKey := by
  have kept : ∀ u : EditorState S, u.form.classKey = u.classKey := by
    intro u
    cases u with
    | expander k display => cases display <;> rfl
    | _ => rfl
  rw [← kept s, same, kept]

end EditorState

namespace Workspace

def outlook? (w : Workspace S) (x : Handle) : Option (Outlook S) :=
  (w.arena.outline x).map fun e => w.contexts.outlook e.context

variable {v w v' w' : Workspace S} {x y : Handle}

theorem outlook?_of_get? {editor : Editor S} (found : w.arena.get? x = some editor) :
    w.outlook? x = some (w.contexts.outlook editor.context) := by
  rw [outlook?, Arena.outline_of_get? found]
  rfl

theorem outlook?_congr (same : w'.arena.outline x = w.arena.outline x)
    (grown : w.contexts.Grown w'.contexts) : w'.outlook? x = w.outlook? x := by
  simp only [outlook?, same, Contexts.outlook_grown grown]

/-- Editors of two workspaces that stand for one document. -/
inductive Twins (v w : Workspace S) : Handle → Handle → Prop where
  | mk {x y : Handle} {s t : EditorState S} : v.arena.state? x = some s →
      w.arena.state? y = some t → v.outlook? x = w.outlook? y → s.form = t.form →
      (∀ position c d, Arena.childAt? s position = some c → Arena.childAt? t position = some d →
        Twins v w c d) → Twins v w x y

namespace Twins

theorem state {s : EditorState S} (twins : Twins v w x y) (held : v.arena.state? x = some s) :
    ∃ t, w.arena.state? y = some t ∧ s.form = t.form ∧
      ∀ position c d, Arena.childAt? s position = some c → Arena.childAt? t position = some d →
        Twins v w c d := by
  cases twins with
  | mk first second _ form children =>
    cases held.symm.trans first
    exact ⟨_, second, form, children⟩

theorem live (twins : Twins v w x y) : ∃ e f, v.arena.get? x = some e ∧ w.arena.get? y = some f ∧
    v.contexts.outlook e.context = w.contexts.outlook f.context ∧ e.state.form = f.state.form := by
  cases twins with
  | mk first second same form _ =>
    obtain ⟨e, found, rfl⟩ := Arena.get?_of_state? first
    obtain ⟨f, found', rfl⟩ := Arena.get?_of_state? second
    rw [outlook?_of_get? found, outlook?_of_get? found', Option.some.injEq] at same
    exact ⟨e, f, found, found', same, form⟩

theorem outlook (twins : Twins v w x y) : v.outlook? x = w.outlook? y := by
  cases twins with
  | mk _ _ same => exact same

theorem contexts {e f : Editor S} (twins : Twins v w x y) (found : v.arena.get? x = some e)
    (found' : w.arena.get? y = some f) :
    v.contexts.outlook e.context = w.contexts.outlook f.context := by
  simpa only [outlook?_of_get? found, outlook?_of_get? found', Option.some.injEq]
    using twins.outlook

theorem token {k : S.TokenClass} {text : String} {item : Option Candidate}
    (twins : Twins v w x y) (held : v.arena.state? x = some (.token k text item)) :
    w.arena.state? y = some (.token k text item) := by
  obtain ⟨t, held', form, _⟩ := twins.state held
  rw [held', EditorState.form_token form]

theorem text {k : S.ExpanderClass} {shown : String} {item : Option Candidate}
    (twins : Twins v w x y) (held : v.arena.state? x = some (.expander k (.text shown item))) :
    w.arena.state? y = some (.expander k (.text shown item)) := by
  obtain ⟨t, held', form, _⟩ := twins.state held
  rw [held', EditorState.form_text form]

theorem expanded {k : S.ExpanderClass} {c : Handle} (twins : Twins v w x y)
    (held : v.arena.state? x = some (.expander k (.expanded c))) :
    ∃ d, w.arena.state? y = some (.expander k (.expanded d)) ∧ Twins v w c d := by
  obtain ⟨t, held', form, children⟩ := twins.state held
  obtain ⟨d, rfl⟩ := EditorState.form_expanded form
  exact ⟨d, held', children .content c d rfl rfl⟩

theorem expander {k : S.ExpanderClass} {display : Display Handle} (twins : Twins v w x y)
    (held : v.arena.state? x = some (.expander k display)) :
    ∃ display', w.arena.state? y = some (.expander k display') ∧
      display'.isExpanded = display.isExpanded := by
  cases display with
  | text shown item => exact ⟨_, twins.text held, rfl⟩
  | expanded c =>
    obtain ⟨d, held', _⟩ := twins.expanded held
    exact ⟨_, held', rfl⟩

theorem compound {k : S.CompoundClass} {ids : List Handle} (twins : Twins v w x y)
    (held : v.arena.state? x = some (.compound k ids)) :
    ∃ ids', w.arena.state? y = some (.compound k ids') ∧ List.Forall₂ (Twins v w) ids ids' := by
  obtain ⟨t, held', form, children⟩ := twins.state held
  obtain ⟨ids', rfl, lengths⟩ := EditorState.form_compound form
  refine ⟨ids', held', List.forall₂_iff_get.2 ⟨lengths.symm, fun i left right => ?_⟩⟩
  exact children (.component i) _ _ (List.getElem?_eq_getElem left) (List.getElem?_eq_getElem right)

theorem list {k : S.ListClass} {ids : List Handle} (twins : Twins v w x y)
    (held : v.arena.state? x = some (.list k ids)) :
    ∃ ids', w.arena.state? y = some (.list k ids') ∧ List.Forall₂ (Twins v w) ids ids' := by
  obtain ⟨t, held', form, children⟩ := twins.state held
  obtain ⟨ids', rfl, lengths⟩ := EditorState.form_list form
  refine ⟨ids', held', List.forall₂_iff_get.2 ⟨lengths.symm, fun i left right => ?_⟩⟩
  exact children (.item i) _ _ (List.getElem?_eq_getElem left) (List.getElem?_eq_getElem right)

theorem of_leaf {s : EditorState S} (leaf : s.children = []) (left : v.arena.state? x = some s)
    (right : w.arena.state? y = some s) (same : v.outlook? x = w.outlook? y) : Twins v w x y := by
  refine .mk left right same rfl fun position c d held _ => ?_
  have member := Arena.child_of_childAt? held
  rw [leaf] at member
  cases member

theorem of_expanded {k : S.ExpanderClass} {c d : Handle}
    (left : v.arena.state? x = some (.expander k (.expanded c)))
    (right : w.arena.state? y = some (.expander k (.expanded d)))
    (same : v.outlook? x = w.outlook? y) (content : Twins v w c d) : Twins v w x y := by
  refine .mk left right same rfl fun position c' d' held held' => ?_
  cases position <;> cases held
  cases held'
  exact content

theorem of_list {k : S.ListClass} {ids ids' : List Handle}
    (left : v.arena.state? x = some (.list k ids)) (right : w.arena.state? y = some (.list k ids'))
    (same : v.outlook? x = w.outlook? y) (each : List.Forall₂ (Twins v w) ids ids') :
    Twins v w x y := by
  refine .mk left right same ?_ fun position c d held held' => ?_
  · simp only [EditorState.form, List.map_const', each.length_eq]
  · cases position with
    | item i =>
      obtain ⟨inside, rfl⟩ := List.getElem?_eq_some_iff.1 held
      obtain ⟨inside', rfl⟩ := List.getElem?_eq_some_iff.1 held'
      exact each.get inside inside'
    | _ => cases held

theorem shown_all {ids ids' : List Handle} {ds : List (Sketch S)}
    (each : List.Forall₂ (Twins v w) ids ids') (seen : List.Forall₂ v.arena.Shows ids ds)
    (same : ∀ d ∈ ds, ∀ {x y}, Twins v w x y → v.arena.Shows x d → w.arena.Shows y d) :
    List.Forall₂ w.arena.Shows ids' ds := by
  induction each generalizing ds with
  | nil =>
    cases seen
    exact .nil
  | cons first _ ih =>
    cases seen with
    | cons shown others =>
      exact .cons (same _ (by simp) first shown) (ih others fun d member => same d (by simp [member]))

theorem shows {d : Sketch S} (twins : Twins v w x y) (seen : v.arena.Shows x d) :
    w.arena.Shows y d := by
  induction d using Sketch.induct generalizing x y with
  | token k text item => exact twins.token seen
  | text k shown item => exact twins.text seen
  | expanded k content ih =>
    obtain ⟨c, held, seen⟩ := Arena.shows_expanded.1 seen
    obtain ⟨d, held', twins⟩ := twins.expanded held
    exact Arena.shows_expanded.2 ⟨d, held', ih twins seen⟩
  | compound k parts ih =>
    obtain ⟨ids, held, seen⟩ := Arena.shows_compound.1 seen
    obtain ⟨ids', held', each⟩ := twins.compound held
    exact Arena.shows_compound.2 ⟨ids', held', shown_all each seen ih⟩
  | list k items ih =>
    obtain ⟨ids, held, seen⟩ := Arena.shows_list.1 seen
    obtain ⟨ids', held', each⟩ := twins.list held
    exact Arena.shows_list.2 ⟨ids', held', shown_all each seen ih⟩

end Twins

/-- Everything below an editor is what it was. -/
def Stays (w w' : Workspace S) (x : Handle) : Prop :=
  ∀ z, w.arena.links.Within x z → w'.arena.state? z = w.arena.state? z ∧ w'.outlook? z = w.outlook? z

theorem Twins.frame (twins : Twins v w x y) (forest : v.arena.links.Forest)
    (forest' : w.arena.links.Forest) (left : Stays v v' x) (right : Stays w w' y) :
    Twins v' w' x y := by
  induction twins with
  | mk first second same form _ ih =>
    obtain ⟨state, context⟩ := left _ .here
    obtain ⟨state', context'⟩ := right _ .here
    refine .mk (state.trans first) (state'.trans second) ?_ form fun position c d held held' => ?_
    · rw [context, context', same]
    · have below := Arena.within_of_state? forest first (Arena.child_of_childAt? held)
      have below' := Arena.within_of_state? forest' second (Arena.child_of_childAt? held')
      exact ih position c d held held' (fun z within => left z (below.trans within))
        fun z within => right z (below'.trans within)

theorem Stays.of_outlines (grown : w.contexts.Grown w'.contexts)
    (same : ∀ z, w.arena.links.Within x z → w'.arena.outline z = w.arena.outline z) :
    Stays w w' x :=
  fun z within => ⟨Arena.state?_congr (same z within), outlook?_congr (same z within) grown⟩

theorem Stays.of_live (grown : w.contexts.Grown w'.contexts) {e : Editor S}
    (isLive : w.arena.outline x = some e) (same : ∀ z e, w.arena.links.Within x z →
      w.arena.outline z = some e → w'.arena.outline z = some e) : Stays w w' x := by
  refine .of_outlines grown fun z within => ?_
  obtain ⟨place, placed⟩ := within.live (Arena.links_of_outline isLive)
  obtain ⟨below, belowLive, _⟩ := Arena.outline_of_links placed
  rw [belowLive, same z below within belowLive]

theorem Stays.of_grows (grown : w.contexts.Grown w'.contexts) {e : Editor S}
    (isLive : w.arena.outline x = some e) (grows : w.arena.Grows w'.arena) : Stays w w' x :=
  .of_live grown isLive fun z e _ below => grows z e below

theorem Stays.of_changes {c : Handle} {e : Editor S} (grown : w.contexts.Grown w'.contexts)
    (isLive : w.arena.outline x = some e) (changes : w.arena.Changes w'.arena c)
    (notAbove : ¬ w.arena.links.Within x c) (notBelow : ¬ w.arena.links.Within c x) :
    Stays w w' x := by
  refine .of_live grown isLive fun z e within below => changes.outside z e below fun lower => ?_
  rcases within.comparable lower with above | above
  · exact notAbove above
  · exact notBelow above

variable [Language S]

theorem Twins.added (twins : Twins v w x y) (sound : v.arena.Sound) (sound' : w.arena.Sound)
    (left : v.contexts.Grown v'.contexts ∧ v.arena.Grows v'.arena)
    (right : w.contexts.Grown w'.contexts ∧ w.arena.Grows w'.arena) : Twins v' w' x y := by
  obtain ⟨e, f, found, found', _⟩ := twins.live
  exact twins.frame sound.forest sound'.forest
    (.of_grows left.1 (Arena.outline_of_get? found) left.2)
    (.of_grows right.1 (Arena.outline_of_get? found') right.2)

def SameGroups (w w' : Workspace S) : Prop :=
  ∀ h, ((historyLens h).view w').isOpen = ((historyLens h).view w).isOpen

/-- Only what is below one editor changed, whatever was recorded of it. -/
structure Touched (w w' : Workspace S) (x : Handle) : Prop where
  sound : w'.arena.Sound
  changes : w.arena.Changes w'.arena x
  contexts : w.contexts.Grown w'.contexts
  groups : SameGroups w w'

/-- Twins were changed and are twins again. -/
structure Abreast (v w v' w' : Workspace S) (x y : Handle) : Prop where
  left : Touched v v' x
  right : Touched w w' y
  twins : Twins v' w' x y

omit [Language S] in
theorem SameGroups.of_eq (same : w'.histories = w.histories) : SameGroups w w' :=
  fun h => by simp only [historyLens, same]

omit [Language S] in
theorem SameGroups.trans {w'' : Workspace S} (first : SameGroups w w') (second : SameGroups w' w'') :
    SameGroups w w'' :=
  fun h => (second h).trans (first h)

theorem Confined.touched (confined : Confined w w' x) : Touched w w' x :=
  ⟨confined.sound, confined.changes, confined.quiet.contexts, .of_eq confined.quiet.histories⟩

theorem Touched.refl (sound : w.arena.Sound) (x : Handle) : Touched w w x :=
  (Confined.refl sound x).touched

theorem Touched.trans {w'' : Workspace S} (first : Touched w w' x) (second : Touched w' w'' x)
    (sound : w.arena.Sound) : Touched w w'' x :=
  ⟨second.sound, first.changes.trans second.changes sound.forest,
    first.contexts.trans second.contexts, first.groups.trans second.groups⟩

theorem Abreast.trans {v'' w'' : Workspace S} (first : Abreast v w v' w' x y)
    (second : Abreast v' w' v'' w'' x y) (sound : v.arena.Sound) (sound' : w.arena.Sound) :
    Abreast v w v'' w'' x y :=
  ⟨first.left.trans second.left sound, first.right.trans second.right sound', second.twins⟩

theorem Rewrites.outlook? {state : EditorState S} {apart : Handle → Prop}
    (done : Rewrites w w' x state apart) {editor : Editor S}
    (found : w.arena.get? x = some editor) : w'.outlook? x = w.outlook? x := by
  have here := done.here _ (Arena.outline_of_get? found)
  rw [Workspace.outlook?, here, Workspace.outlook?, Arena.outline_of_get? found]
  exact congrArg some (Contexts.outlook_grown done.quiet.contexts _)

theorem Twins.rewritten {state : EditorState S} {apart apart' : Handle → Prop}
    (twins : Twins v w x y) (leaf : state.children = []) (left : Rewrites v v' x state apart)
    (right : Rewrites w w' y state apart') : Twins v' w' x y := by
  obtain ⟨e, f, found, found', _⟩ := twins.live
  refine .of_leaf leaf (left.state?_eq found) (right.state?_eq found') ?_
  rw [left.outlook? found, right.outlook? found', twins.outlook]

theorem showText_twins {k : S.ExpanderClass} {old : String} {oldItem : Option Candidate}
    (text : String) (item : Option Candidate) (sound : v.arena.Sound) (sound' : w.arena.Sound)
    (twins : Twins v w x y) (held : v.arena.state? x = some (.expander k (.text old oldItem))) :
    ∃ v' w', showText x text item v = .ok () v' ∧ showText y text item w = .ok () w' ∧
      Abreast v w v' w' x y ∧ v'.arena.state? x = some (.expander k (.text text item)) := by
  have held' := twins.text held
  obtain ⟨e, found, state⟩ := Arena.get?_of_state? held
  obtain ⟨f, found', state'⟩ := Arena.get?_of_state? held'
  obtain ⟨v', ran, done⟩ := showText_run text item sound held
  obtain ⟨w', ran', done'⟩ := showText_run text item sound' held'
  exact ⟨v', w', ran, ran', ⟨(Confined.of_rewrites done found (by rw [state]; rfl) nofun).touched,
    (Confined.of_rewrites done' found' (by rw [state']; rfl) nofun).touched,
    twins.rewritten rfl done done'⟩, done.state?_eq found⟩

theorem dropContent_twins {k : S.ExpanderClass} {c : Handle} (sound : v.arena.Sound)
    (sound' : w.arena.Sound) (twins : Twins v w x y)
    (held : v.arena.state? x = some (.expander k (.expanded c))) :
    ∃ v' w', dropContent x v = .ok () v' ∧ dropContent y w = .ok () w' ∧ Confined v v' x ∧
      Confined w w' y ∧ Twins v' w' x y ∧ v'.arena.state? x = some (.expander k .initial) := by
  obtain ⟨d, held', _⟩ := twins.expanded held
  obtain ⟨e, found, state⟩ := Arena.get?_of_state? held
  obtain ⟨f, found', state'⟩ := Arena.get?_of_state? held'
  obtain ⟨v', ran, done, _⟩ := dropContent_run sound held
  obtain ⟨w', ran', done', _⟩ := dropContent_run sound' held'
  refine ⟨v', w', ran, ran', .of_rewrites done found (by rw [state]; rfl) fun z within => ?_,
    .of_rewrites done' found' (by rw [state']; rfl) fun z within => ?_,
    twins.rewritten rfl done done', done.state?_eq found⟩
  · exact (Arena.within_of_state? sound.forest held (by simp [EditorState.children])).trans within
  · exact (Arena.within_of_state? sound'.forest held' (by simp [EditorState.children])).trans within

theorem clear_twins {k : S.ExpanderClass} {display : Display Handle} (sound : v.arena.Sound)
    (sound' : w.arena.Sound) (twins : Twins v w x y)
    (held : v.arena.state? x = some (.expander k display)) :
    ∃ v' w' text item, clear x v = .ok () v' ∧ clear y w = .ok () w' ∧ Cleared v v' x ∧
      Cleared w w' y ∧ Twins v' w' x y ∧ v'.arena.state? x = some (.expander k (.text text item)) := by
  obtain ⟨display', held', same⟩ := twins.expander held
  obtain ⟨v', ran, cleared⟩ := clear_run sound held
  obtain ⟨w', ran', cleared'⟩ := clear_run sound' held'
  have asked : ask (·.isExpanded x) v = .ok display.isExpanded v :=
    ask_run (Arena.isExpanded_eq_ok_iff.2 ⟨k, display, held, rfl⟩)
  have asked' : ask (·.isExpanded y) w = .ok display'.isExpanded w :=
    ask_run (Arena.isExpanded_eq_ok_iff.2 ⟨k, display', held', rfl⟩)
  have first := ran
  have second := ran'
  simp only [clear, Action.bind_run_ok _ asked] at first
  simp only [clear, Action.bind_run_ok _ asked', same] at second
  cases display with
  | text text item =>
    cases first
    cases second
    exact ⟨v, w, text, item, ran, ran', cleared, cleared', twins, held⟩
  | expanded c =>
    obtain ⟨v₁, w₁, dropped, dropped', _, _, twins', state⟩ :=
      dropContent_twins sound sound' twins held
    cases dropped.symm.trans first
    cases dropped'.symm.trans second
    exact ⟨v', w', "", none, ran, ran', cleared, cleared', twins', state⟩

end Workspace

end StructureEditor
