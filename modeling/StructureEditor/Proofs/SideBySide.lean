import StructureEditor.Proofs.Replaying
import StructureEditor.Proofs.Twins

/-! Single changes of twins, side by side. What shows one document in contexts that offer the same
is twins; so are fresh editors of one class. Typing, adding and removing items and hanging
content below an expander leave twins, and so does any change of twins that stand at the same
place below twins. -/
namespace StructureEditor

variable {S : Signature}

namespace Sketch

theorem induct_parts {motive : Sketch S → Prop}
    (step : ∀ d, (∀ position e, d.part? position = some e → motive e) → motive d)
    (d : Sketch S) : motive d := by
  have leaf : ∀ d : Sketch S, (∀ position, d.part? position = none) → motive d := by
    refine fun d none => step d fun position e some => ?_
    rw [none position] at some
    cases some
  induction d using Sketch.induct with
  | token c text item => exact leaf _ fun position => by cases position <;> rfl
  | text c shown item => exact leaf _ fun position => by cases position <;> rfl
  | expanded c content ih =>
    refine step _ fun position e part => ?_
    cases position <;> cases part
    exact ih
  | compound c parts ih =>
    refine step _ fun position e part => ?_
    cases position with
    | component index => exact ih e (List.mem_of_getElem? part)
    | _ => cases part
  | list c items ih =>
    refine step _ fun position e part => ?_
    cases position with
    | item index => exact ih e (List.mem_of_getElem? part)
    | _ => cases part

variable [Language S]

omit [Language S] in
theorem Plain.part {d e : Sketch S} {position : Position} (plain : d.Plain)
    (part : d.part? position = some e) : e.Plain := by
  cases d with
  | compound c parts =>
    cases position with
    | component index => exact allPlain_iff.1 plain e (List.mem_of_getElem? part)
    | _ => cases part
  | list c items =>
    cases position with
    | item index => exact allPlain_iff.1 plain e (List.mem_of_getElem? part)
    | _ => cases part
  | expanded c content => cases plain
  | _ => cases position <;> cases part

end Sketch

namespace Arena

variable {a b : Arena S} {x y : Handle} {d : Sketch S}

theorem form_of_shows {s t : EditorState S} (seen : a.Shows x d) (seen' : b.Shows y d)
    (held : a.state? x = some s) (held' : b.state? y = some t) : s.form = t.form := by
  cases d with
  | token c text item =>
    cases held.symm.trans seen
    cases held'.symm.trans seen'
    rfl
  | text c shown item =>
    cases held.symm.trans seen
    cases held'.symm.trans seen'
    rfl
  | expanded c content =>
    obtain ⟨_, there, _⟩ := shows_expanded.1 seen
    obtain ⟨_, there', _⟩ := shows_expanded.1 seen'
    cases held.symm.trans there
    cases held'.symm.trans there'
    rfl
  | compound c parts =>
    obtain ⟨ids, there, seen⟩ := shows_compound.1 seen
    obtain ⟨ids', there', seen'⟩ := shows_compound.1 seen'
    cases held.symm.trans there
    cases held'.symm.trans there'
    simp only [EditorState.form, List.map_const', seen.length_eq, seen'.length_eq]
  | list c items =>
    obtain ⟨ids, there, seen⟩ := shows_list.1 seen
    obtain ⟨ids', there', seen'⟩ := shows_list.1 seen'
    cases held.symm.trans there
    cases held'.symm.trans there'
    simp only [EditorState.form, List.map_const', seen.length_eq, seen'.length_eq]

theorem shares_of_plain {e : Sketch S} {state : EditorState S} {position : Position}
    (seen : a.Shows x d) (plain : d.Plain) (part : d.part? position = some e)
    (held : a.state? x = some state) : state.sharesContext = true := by
  cases d with
  | compound c parts =>
    obtain ⟨_, there, _⟩ := shows_compound.1 seen
    cases held.symm.trans there
    rfl
  | list c items =>
    obtain ⟨_, there, _⟩ := shows_list.1 seen
    cases held.symm.trans there
    rfl
  | expanded c content => cases plain
  | _ => cases position <;> cases part

theorem token_refused {e : Editor S} (found : a.get? x = some e) (other : e.state.shape ≠ .token) :
    a.token x = .error (.wrongShape x "token" e.state.shape) := by
  simp only [token, get_of_get? found, Bind.bind, Except.bind]
  split
  · next shown =>
    rw [shown] at other
    exact absurd rfl other
  · rfl

theorem expander_refused {e : Editor S} (found : a.get? x = some e)
    (other : e.state.shape ≠ .expander) :
    a.expander x = .error (.wrongShape x "expander" e.state.shape) := by
  simp only [expander, get_of_get? found, Bind.bind, Except.bind]
  split
  · next shown =>
    rw [shown] at other
    exact absurd rfl other
  · rfl

theorem list_refused {e : Editor S} (found : a.get? x = some e) (other : e.state.shape ≠ .list) :
    a.list x = .error (.wrongShape x "list" e.state.shape) := by
  simp only [list, get_of_get? found, Bind.bind, Except.bind]
  split
  · next shown =>
    rw [shown] at other
    exact absurd rfl other
  · rfl

theorem follow_cons_of_childAt? {state : EditorState S} {position : Position} {rest : List Position}
    {c : Handle} (held : a.state? x = some state) (child : childAt? state position = some c) :
    a.follow x (position :: rest) = a.follow c rest := by
  obtain ⟨editor, found, rfl⟩ := get?_of_state? held
  simp only [follow, List.foldlM_cons, childAt_of_get? found child]
  rfl

variable [Language S] {context : Context}

theorem insert_leaf_state {state : EditorState S} (sound : a.Sound) (leaf : state.children = []) :
    (a.insert context state).2.state? (a.insert context state).1 = some state := by
  obtain ⟨_, _, ⟨_, new⟩, _⟩ := insert_spec context state sound (by simp [leaf]) (by simp [leaf])
  exact state?_of_get? new

end Arena

namespace Workspace

variable {v w v' w' : Workspace S} {x y : Handle} {d : Sketch S}

/-- Editors that show one document are twins if at every place the contexts offer the same. -/
theorem twins_of_shows (seen : v.arena.Shows x d) (seen' : w.arena.Shows y d)
    (same : ∀ way c e, v.arena.follow x way = .ok c → w.arena.follow y way = .ok e →
      v.outlook? c = w.outlook? e) : Twins v w x y := by
  induction d using Sketch.induct_parts generalizing x y with
  | step d ih =>
    obtain ⟨s, held, _⟩ := seen.state
    obtain ⟨t, held', _⟩ := seen'.state
    refine .mk held held' (same [] x y rfl rfl) (Arena.form_of_shows seen seen' held held') ?_
    intro position c e child child'
    rcases seen.child held position with ⟨_, part, here, there, below⟩ | ⟨none, _⟩
    · rcases seen'.child held' position with ⟨_, part', here', there', below'⟩ | ⟨none, _⟩
      · cases child.symm.trans here
        cases child'.symm.trans here'
        cases there.symm.trans there'
        refine ih position part there below below' fun way p q led led' => ?_
        exact same (position :: way) p q ((Arena.follow_cons_of_childAt? held child).trans led)
          ((Arena.follow_cons_of_childAt? held' child').trans led')
      · rw [child'] at none
        cases none
    · rw [child] at none
      cases none

variable [Language S]

theorem outlook?_child {state : EditorState S} {c : Handle} (sound : w.arena.Sound)
    (held : w.arena.state? x = some state) (shares : state.sharesContext = true)
    (member : c ∈ state.children) : w.outlook? c = w.outlook? x := by
  obtain ⟨editor, found, rfl⟩ := Arena.get?_of_state? held
  obtain ⟨child, childFound, _⟩ := Arena.live_child sound.forest found member
  rw [outlook?_of_get? found, outlook?_of_get? childFound,
    sound.shared x editor found shares c member child childFound]

theorem outlook?_of_plain {way : List Position} (sound : w.arena.Sound) (plain : d.Plain)
    (seen : w.arena.Shows x d) (led : w.arena.follow x way = .ok y) :
    w.outlook? y = w.outlook? x := by
  induction way generalizing x d with
  | nil =>
    cases led
    rfl
  | cons position rest ih =>
    obtain ⟨editor, child, found, held, led⟩ := Arena.follow_cons led
    have state := Arena.state?_of_get? found
    rcases seen.child state position with ⟨c, part, here, there, below⟩ | ⟨none, _⟩
    · cases held.symm.trans here
      rw [ih (plain.part there) below led]
      refine outlook?_child sound state ?_ (Arena.child_of_childAt? held)
      exact Arena.shares_of_plain seen plain there state
    · rw [held] at none
      cases none

theorem Twins.of_built {c : ClassKey S} {own other : Context} (plain : d.Plain)
    (seen : v'.arena.Shows x d) (seen' : w'.arena.Shows y d) (left : Built v v' x c own)
    (right : Built w w' y c other) (same : v.contexts.outlook own = w.contexts.outlook other) :
    Twins v' w' x y := by
  refine twins_of_shows seen seen' fun way p q led led' => ?_
  obtain ⟨e, found, _, rfl, _⟩ := left.root
  obtain ⟨f, found', _, rfl, _⟩ := right.root
  rw [outlook?_of_plain left.sound plain seen led, outlook?_of_plain right.sound plain seen' led',
    outlook?_of_get? found, outlook?_of_get? found', Contexts.outlook_grown left.quiet.contexts,
    Contexts.outlook_grown right.quiet.contexts, same]

theorem create_twins (c : ClassKey S) {own other : Context} (sound : v.arena.Sound)
    (sound' : w.arena.Sound) (same : v.contexts.outlook own = w.contexts.outlook other) :
    ∃ i j v' w', create c own v = .ok i v' ∧ create c other w = .ok j w' ∧ Built v v' i c own ∧
      Built w w' j c other ∧ Twins v' w' i j := by
  have left := created (w := v) (Arena.create_made c own sound)
  have right := created (w := w) (Arena.create_made c other sound')
  obtain ⟨d, blank, shown⟩ := Arena.create_shows c
  exact ⟨_, _, _, _, create_run c own v, create_run c other w, left, right,
    .of_built blank.plain (shown own _ sound) (shown other _ sound') left right same⟩

theorem newToken_twins (c : S.TokenClass) (text : String) {own other : Context}
    (sound : v.arena.Sound) (sound' : w.arena.Sound)
    (same : v.contexts.outlook own = w.contexts.outlook other) :
    ∃ i j v' w', newToken c text own v = .ok i v' ∧ newToken c text other w = .ok j w' ∧
      Built v v' i (.token c) own ∧ Built w w' j (.token c) other ∧ Twins v' w' i j := by
  have left := created (w := v) (Arena.made_token c text own sound)
  have right := created (w := w) (Arena.made_token c text other sound')
  have plain : (Sketch.token c text none).Plain := trivial
  exact ⟨_, _, _, _, rfl, rfl, left, right, .of_built plain (Arena.insert_leaf_state sound rfl)
    (Arena.insert_leaf_state sound' rfl) left right same⟩

omit [Language S] in
theorem Twins.beside (twins : Twins v w x y) (arena : v'.arena = v.arena)
    (contexts : v'.contexts = v.contexts) (arena' : w'.arena = w.arena)
    (contexts' : w'.contexts = w.contexts) : Twins v' w' x y := by
  have outlook : ∀ z, v'.outlook? z = v.outlook? z := fun z => by
    simp only [outlook?, arena, contexts]
  have outlook' : ∀ z, w'.outlook? z = w.outlook? z := fun z => by
    simp only [outlook?, arena', contexts']
  induction twins with
  | mk held held' same form _ ih =>
    refine .mk (arena ▸ held) (arena' ▸ held') ?_ form ih
    rw [outlook, outlook', same]

theorem Stays.of_dispose {z : Handle} {e : Editor S} (sound : w.arena.Sound)
    (found : w.arena.get? z = some e) (isRoot : e.parent = none)
    (apart : ¬ w.arena.links.Within z x) :
    Stays w { w with arena := w.arena.dispose z } x := by
  obtain ⟨_, _, kept⟩ := Arena.sound_dispose_root sound found isRoot
  refine .of_outlines (.refl _) fun y within => ?_
  have outside : ¬ w.arena.links.Within z y :=
    Links.not_within_below (Arena.links_of_get? found) isRoot apart within
  simp only [Arena.outline, kept y outside]

theorem Rewrites.stays {id : Handle} {state : EditorState S} {apart : Handle → Prop}
    (done : Rewrites w w' id state apart) (elsewhere : ∀ z, w.arena.links.Within x z → z ≠ id ∧
      (apart z → w'.arena.state? z = w.arena.state? z ∧ w'.outlook? z = w.outlook? z)) :
    Stays w w' x := by
  intro z within
  obtain ⟨other, ifApart⟩ := elsewhere z within
  by_cases isApart : apart z
  · exact ifApart isApart
  · have same := done.kept z other isApart
    exact ⟨Arena.state?_congr same, outlook?_congr same done.quiet.contexts⟩

theorem Rewrites.stays_linked {id c : Handle} {child : Editor S} {state : EditorState S}
    (done : Rewrites w w' id state (· = c)) (root : w.arena.get? c = some child)
    (linked : w'.arena.outline c = some { child.blank with parent := some id })
    (notAbove : ¬ w.arena.links.Within x id) : Stays w w' x := by
  refine done.stays fun z within => ⟨?_, ?_⟩
  · rintro rfl
    exact notAbove within
  · rintro rfl
    refine ⟨?_, ?_⟩
    · rw [Arena.state?_of_outline linked, Arena.state?_of_get? root]
      rfl
    · simp only [Workspace.outlook?, linked, Arena.outline_of_get? root]
      exact congrArg some (Contexts.outlook_grown done.quiet.contexts _)

theorem Twins.frame_all {ids ids' : List Handle} (each : List.Forall₂ (Twins v w) ids ids')
    (sound : v.arena.Sound) (sound' : w.arena.Sound) (left : ∀ c ∈ ids, Stays v v' c)
    (right : ∀ c ∈ ids', Stays w w' c) : List.Forall₂ (Twins v' w') ids ids' :=
  Arena.forall₂_imp_mem each fun c member c' member' twins =>
    twins.frame sound.forest sound'.forest (left c member) (right c' member')

omit [Language S] in
theorem sameGroups_update (h : HistoryId) {f : History Edit → History Edit}
    (keeps : ∀ history, (f history).isOpen = history.isOpen) :
    SameGroups w ((historyLens h).update f w) := by
  intro other
  simp only [HistoryLens.update, historyLens]
  by_cases same : other = h
  · subst same
    rw [Histories.get_set_self, keeps]
  · rw [Histories.get_set_of_ne same]

theorem isOpen_record (step : Step Edit) (history : History Edit) :
    (history.record step).isOpen = history.isOpen := by
  unfold History.record History.commit History.isOpen
  split
  · cases history.collected <;> rfl
  · rfl

omit [Language S] in
theorem sameGroups_noting (context : Context) (edit : Edit) :
    SameGroups w { w with histories := w.noting context edit } := by
  unfold noting
  cases w.recorder? context with
  | none => exact .of_eq rfl
  | some h => exact sameGroups_update h (isOpen_record _)

omit [Language S] in
theorem sameGroups_notingText (id : Handle) (editor : Editor S) (old text : String)
    (oldItem item : Option Candidate) (undoable : Bool) : SameGroups w { w with
      histories := w.notingText id editor old text oldItem item undoable } := by
  unfold notingText
  split
  · split
    · exact sameGroups_noting _ _
    · exact .of_eq rfl
  · exact .of_eq rfl

theorem writeToken_touches {k : S.TokenClass} {old : String} {oldItem : Option Candidate}
    (text : String) (item : Option Candidate) (undoable : Bool) (sound : w.arena.Sound)
    (held : w.arena.state? x = some (.token k old oldItem)) :
    ∃ w', writeToken x text item undoable w = .ok () w' ∧ Touched w w' x ∧
      w'.arena.state? x = some (.token k text item) ∧ w'.outlook? x = w.outlook? x ∧
      ∀ z, z ≠ x → w'.arena.outline z = w.arena.outline z := by
  obtain ⟨editor, found, state⟩ := Arena.get?_of_state? held
  obtain ⟨w', ran, done⟩ := writeToken_run text item undoable sound found state
  have shown := done.outlook? found
  have changed := Confined.of_rewrites done found (by rw [state]; rfl) nofun
  refine ⟨w', ran, ⟨changed.sound, changed.changes, changed.quiet.contexts, ?_⟩,
    done.state?_eq found, shown, fun z other => done.kept z other nofun⟩
  exact (sameGroups_notingText _ _ _ _ _ _ _).trans (.of_eq changed.quiet.histories)

theorem writeToken_twins (text : String) (item : Option Candidate) (undoable : Bool)
    (sound : v.arena.Sound) (sound' : w.arena.Sound) (twins : Twins v w x y) :
    (∃ v' w', writeToken x text item undoable v = .ok () v' ∧
      writeToken y text item undoable w = .ok () w' ∧ Abreast v w v' w' x y ∧
      (∀ z, z ≠ x → v'.arena.outline z = v.arena.outline z) ∧
      ∀ z, z ≠ y → w'.arena.outline z = w.arena.outline z) ∨
    ∃ found, writeToken x text item undoable v = .error (.refused (.wrongShape x "token" found)) v ∧
      writeToken y text item undoable w = .error (.refused (.wrongShape y "token" found)) w := by
  obtain ⟨e, f, found, found', _, form⟩ := twins.live
  by_cases isToken : e.state.shape = .token
  · cases shown : e.state with
    | token k old oldItem =>
      have state := shown ▸ Arena.state?_of_get? found
      obtain ⟨v', ran, touched, here, outlook, kept⟩ :=
        writeToken_touches text item undoable sound state
      obtain ⟨w', ran', touched', here', outlook', kept'⟩ :=
        writeToken_touches text item undoable sound' (twins.token state)
      refine .inl ⟨v', w', ran, ran', ⟨touched, touched', .of_leaf rfl here here' ?_⟩, kept, kept'⟩
      rw [outlook, outlook', twins.outlook]
    | _ =>
      rw [shown] at isToken
      cases isToken
  · have same := EditorState.shape_of_form form
    refine .inr ⟨e.state.shape, Action.bind_run_error _ (Action.ask_run_error ?_),
      Action.bind_run_error _ (Action.ask_run_error ?_)⟩
    · exact Arena.token_refused found isToken
    · rw [same]
      exact Arena.token_refused found' (same ▸ isToken)

structure Insertable (w : Workspace S) (item x : Handle) : Prop where
  root : ∃ child e, w.arena.get? item = some child ∧ w.arena.get? x = some e ∧
    child.parent = none ∧ child.context = e.context
  apart : ¬ w.arena.links.Within item x

theorem Built.insertable {c : ClassKey S} {item : Handle} {e : Editor S}
    (built : Built w w' item c e.context) (sound : w.arena.Sound)
    (found : w.arena.get? x = some e) : Insertable w' item x := by
  obtain ⟨child, root, free, sameContext, _⟩ := built.root
  have outlined := Arena.outline_of_get? found
  obtain ⟨e', found', _, context, _⟩ := Arena.kept_of_outline (built.grows x _ outlined)
  exact ⟨⟨child, e', root, found', free, sameContext.trans context.symm⟩,
    built.grows.not_within_fresh sound.forest built.fresh outlined⟩

theorem attachItem_stays {k : S.ListClass} {ids : List Handle} {item : Handle} {index : Nat}
    (sound : w.arena.Sound) (held : w.arena.state? x = some (.list k ids))
    (inside : index ≤ ids.length) (insertable : Insertable w item x) :
    ∃ w', attachItem x index item w = .ok () w' ∧
      Rewrites w w' x (.list k (ids.insertIdx index item)) (· = item) ∧
      w'.arena.state? x = some (.list k (ids.insertIdx index item)) ∧
      w'.outlook? x = w.outlook? x ∧ Stays w w' item ∧ ∀ c ∈ ids, Stays w w' c := by
  obtain ⟨child, e, root, found, free, sameContext⟩ := insertable.root
  have state : e.state = .list k ids := Option.some.inj ((Arena.state?_of_get? found).symm.trans held)
  obtain ⟨w', ran, done, linked⟩ :=
    attachItem_run sound found state inside root free sameContext insertable.apart
  refine ⟨w', ran, done, done.state?_eq found, done.outlook? found,
    done.stays_linked root linked insertable.apart, fun c member => done.stays_linked root linked ?_⟩
  refine sound.forest.not_within_of_child (Arena.links_of_get? found) ?_
  rw [show e.place.children = e.state.children from rfl, state]
  exact member

theorem attachItem_twins {k : S.ListClass} {ids : List Handle} {item item' : Handle} {index : Nat}
    (sound : v.arena.Sound) (sound' : w.arena.Sound) (twins : Twins v w x y)
    (held : v.arena.state? x = some (.list k ids)) (inside : index ≤ ids.length)
    (insertable : Insertable v item x) (insertable' : Insertable w item' y)
    (items : Twins v w item item') :
    ∃ v' w' ids', attachItem x index item v = .ok () v' ∧ attachItem y index item' w = .ok () w' ∧
      w.arena.state? y = some (.list k ids') ∧
      Rewrites v v' x (.list k (ids.insertIdx index item)) (· = item) ∧
      Rewrites w w' y (.list k (ids'.insertIdx index item')) (· = item') ∧ Twins v' w' x y ∧
      Twins v' w' item item' := by
  obtain ⟨ids', held', each⟩ := twins.list held
  obtain ⟨v', ran, done, here, outlook, stays, others⟩ := attachItem_stays sound held inside insertable
  obtain ⟨w', ran', done', here', outlook', stays', others'⟩ :=
    attachItem_stays sound' held' (each.length_eq ▸ inside) insertable'
  have attached := items.frame sound.forest sound'.forest stays stays'
  refine ⟨v', w', ids', ran, ran', held', done, done', .of_list here here' ?_ ?_, attached⟩
  · rw [outlook, outlook', twins.outlook]
  · exact forall₂_insertIdx (Twins.frame_all each sound sound' others others') attached index

theorem dropItem_stays {k : S.ListClass} {ids : List Handle} {item : Handle} {index : Nat}
    (sound : w.arena.Sound) (held : w.arena.state? x = some (.list k ids))
    (listed : ids[index]? = some item) :
    ∃ w', dropItem x index w = .ok () w' ∧ Confined w w' x ∧
      w'.arena.state? x = some (.list k (ids.eraseIdx index)) ∧ w'.outlook? x = w.outlook? x ∧
      ∀ c ∈ ids.eraseIdx index, Stays w w' c := by
  obtain ⟨e, found, state⟩ := Arena.get?_of_state? held
  have placed := Arena.links_of_get? found
  have children : e.place.children = ids := by
    rw [show e.place.children = e.state.children from rfl, state]
    rfl
  have member : item ∈ e.place.children := children ▸ List.mem_of_getElem? listed
  have below := sound.forest.within_of_child placed member
  obtain ⟨w', ran, done, _⟩ := dropItem_run sound held listed
  refine ⟨w', ran, .of_rewrites done found (by rw [state]; rfl) fun z within => below.trans within,
    done.state?_eq found, done.outlook? found, fun c left => done.stays fun z within => ⟨?_, ?_⟩⟩
  · rintro rfl
    exact sound.forest.not_within_of_child placed (children ▸ List.mem_of_mem_eraseIdx left) within
  · intro dropped
    -- an item that is left is another one than the one that went
    have distinct : ids.Nodup := children ▸ sound.forest.distinct placed
    have different : item ≠ c := by
      rintro rfl
      obtain ⟨inside, same⟩ := List.getElem?_eq_some_iff.1 listed
      obtain ⟨i, other, there⟩ := List.mem_eraseIdx_iff_getElem?.1 left
      exact other ((List.getElem?_inj inside distinct).1 (listed.trans there.symm)).symm
    exact absurd within (sound.forest.siblings_apart placed member
      (children ▸ List.mem_of_mem_eraseIdx left) different dropped)

theorem dropItem_twins {k : S.ListClass} {ids : List Handle} {item : Handle} {index : Nat}
    (sound : v.arena.Sound) (sound' : w.arena.Sound) (twins : Twins v w x y)
    (held : v.arena.state? x = some (.list k ids)) (listed : ids[index]? = some item) :
    ∃ v' w', dropItem x index v = .ok () v' ∧ dropItem y index w = .ok () w' ∧
      Abreast v w v' w' x y ∧ v'.arena.state? x = some (.list k (ids.eraseIdx index)) := by
  obtain ⟨ids', held', each⟩ := twins.list held
  obtain ⟨item', listed'⟩ : ∃ item', ids'[index]? = some item' := by
    obtain ⟨inside, _⟩ := List.getElem?_eq_some_iff.1 listed
    exact ⟨_, List.getElem?_eq_getElem (each.length_eq ▸ inside)⟩
  obtain ⟨v', ran, confined, here, outlook, others⟩ := dropItem_stays sound held listed
  obtain ⟨w', ran', confined', here', outlook', others'⟩ := dropItem_stays sound' held' listed'
  refine ⟨v', w', ran, ran', ⟨confined.touched, confined'.touched, .of_list here here' ?_ ?_⟩, here⟩
  · rw [outlook, outlook', twins.outlook]
  · exact Twins.frame_all (forall₂_eraseIdx each index) sound sound' others others'

theorem dropItems_twins {k : S.ListClass} {ids : List Handle} (sound : v.arena.Sound)
    (sound' : w.arena.Sound) (twins : Twins v w x y)
    (held : v.arena.state? x = some (.list k ids)) :
    ∃ v' w', dropItems x v = .ok () v' ∧ dropItems y w = .ok () w' ∧ Abreast v w v' w' x y ∧
      v'.arena.state? x = some (.list k []) := by
  obtain ⟨ids', held', each⟩ := twins.list held
  have asked : ask (·.items x) v = .ok ids v := ask_run (Arena.items_eq_ok_iff.2 ⟨k, held⟩)
  have asked' : ask (·.items y) w = .ok ids' w := ask_run (Arena.items_eq_ok_iff.2 ⟨k, held'⟩)
  simp only [dropItems, Action.bind_run_ok _ asked, Action.bind_run_ok _ asked', ← each.length_eq]
  clear asked asked' held' each
  generalize length : ids.length = n
  induction n generalizing v w ids with
  | zero =>
    obtain rfl := List.length_eq_zero_iff.1 length
    exact ⟨v, w, rfl, rfl, ⟨.refl sound x, .refl sound' y, twins⟩, held⟩
  | succ n ih =>
    obtain ⟨item, listed⟩ : ∃ item, ids[n]? = some item :=
      ⟨ids[n], List.getElem?_eq_getElem (by omega)⟩
    obtain ⟨v₁, w₁, ran, ran', abreast, here⟩ := dropItem_twins sound sound' twins held listed
    have shorter : (ids.eraseIdx n).length = n := by
      rw [List.length_eraseIdx_of_lt (by omega), length]
      rfl
    obtain ⟨v₂, w₂, ran₂, ran₂', abreast', empty⟩ :=
      ih abreast.left.sound abreast.right.sound abreast.twins here shorter
    refine ⟨v₂, w₂, ?_, ?_, abreast.trans abreast' sound sound', empty⟩
    · rw [List.range_succ, List.reverse_append, List.reverse_singleton, List.singleton_append,
        Action.forM_run_ok _ ran]
      exact ran₂
    · rw [List.range_succ, List.reverse_append, List.reverse_singleton, List.singleton_append,
        Action.forM_run_ok _ ran']
      exact ran₂'

theorem hang_twins {k : S.ExpanderClass} {text : String} {item : Option Candidate}
    {content content' : Handle} {child child' : Editor S} (sound : v.arena.Sound)
    (sound' : w.arena.Sound) (twins : Twins v w x y)
    (held : v.arena.state? x = some (.expander k (.text text item)))
    (root : v.arena.get? content = some child) (free : child.parent = none)
    (apart : ¬ v.arena.links.Within content x) (root' : w.arena.get? content' = some child')
    (free' : child'.parent = none) (apart' : ¬ w.arena.links.Within content' y)
    (contents : Twins v w content content') :
    ∃ v' w', hang k x content v = .ok content v' ∧ hang k y content' w = .ok content' w' ∧
      Twins v' w' x y := by
  obtain ⟨e, found, state⟩ := Arena.get?_of_state? held
  obtain ⟨f, found', state'⟩ := Arena.get?_of_state? (twins.text held)
  obtain ⟨v', ran, done, linked⟩ := hang_run sound found state root free apart
  obtain ⟨w', ran', done', linked'⟩ := hang_run sound' found' state' root' free' apart'
  refine ⟨v', w', ran, ran', .of_expanded (done.state?_eq found) (done'.state?_eq found') ?_ ?_⟩
  · rw [done.outlook? found, done'.outlook? found', twins.outlook]
  · exact contents.frame sound.forest sound'.forest (done.stays_linked root linked apart)
      (done'.stays_linked root' linked' apart')

omit [Language S] in
theorem childAt?_of_form {s t : EditorState S} (same : s.form = t.form) (position : Position) :
    (Arena.childAt? s position).isSome = (Arena.childAt? t position).isSome := by
  have kept : ∀ u : EditorState S,
      (Arena.childAt? u.form position).isSome = (Arena.childAt? u position).isSome := by
    intro u
    cases u with
    | expander k display => cases display <;> cases position <;> rfl
    | compound k ids =>
      cases position <;> simp only [EditorState.form, Arena.childAt?, List.getElem?_map,
        Option.isSome_map]
    | list k ids =>
      cases position <;> simp only [EditorState.form, Arena.childAt?, List.getElem?_map,
        Option.isSome_map]
    | token k text item => rfl
  rw [← kept s, same, kept]

omit [Language S] in
theorem Twins.follow (twins : Twins v w x y) (way : List Position) :
    (∃ c d, v.arena.follow x way = .ok c ∧ w.arena.follow y way = .ok d ∧ Twins v w c d) ∨
    ∃ c d position, v.arena.follow x way = .error (.noChild c position) ∧
      w.arena.follow y way = .error (.noChild d position) := by
  induction way generalizing x y with
  | nil => exact .inl ⟨x, y, rfl, rfl, twins⟩
  | cons position rest ih =>
    obtain ⟨e, f, found, found', _, form⟩ := twins.live
    have same := childAt?_of_form form position
    cases child : Arena.childAt? e.state position with
    | some c =>
      rw [child] at same
      obtain ⟨d, child'⟩ := Option.isSome_iff_exists.1 same.symm
      obtain ⟨t, held', _, below⟩ := twins.state (Arena.state?_of_get? found)
      cases (Arena.state?_of_get? found').symm.trans held'
      rw [Arena.follow_cons_of_childAt? (Arena.state?_of_get? found) child,
        Arena.follow_cons_of_childAt? (Arena.state?_of_get? found') child']
      exact ih (below position c d child child')
    | none =>
      rw [child] at same
      have child' : Arena.childAt? f.state position = none := Option.isNone_iff_eq_none.1 (by
        rw [← Option.not_isSome, ← same]
        rfl)
      refine .inr ⟨x, y, position, ?_, ?_⟩
      · simp only [Arena.follow, List.foldlM_cons, Arena.childAt, Arena.get_of_get? found,
          Bind.bind, Except.bind, child]
        rfl
      · simp only [Arena.follow, List.foldlM_cons, Arena.childAt, Arena.get_of_get? found',
          Bind.bind, Except.bind, child']
        rfl

omit [Language S] in
theorem Twins.at {way : List Position} {c d : Handle} (twins : Twins v w x y)
    (led : v.arena.follow x way = .ok c) (led' : w.arena.follow y way = .ok d) : Twins v w c d := by
  rcases twins.follow way with ⟨c', d', down, down', pair⟩ | ⟨_, _, _, down, _⟩
  · cases led.symm.trans down
    cases led'.symm.trans down'
    exact pair
  · cases led.symm.trans down

theorem Stays.beside {p c c' : Handle} {state : EditorState S} (sound : w.arena.Sound)
    (touched : Touched w w' p) (held : w.arena.state? x = some state) (first : c ∈ state.children)
    (second : c' ∈ state.children) (different : c ≠ c') (within : w.arena.links.Within c p) :
    Stays w w' c' := by
  obtain ⟨editor, found, rfl⟩ := Arena.get?_of_state? held
  have placed := Arena.links_of_get? found
  obtain ⟨place, childPlaced, _⟩ := sound.forest.linked placed second
  obtain ⟨child, isLive, _⟩ := Arena.outline_of_links childPlaced
  refine .of_changes touched.contexts isLive touched.changes ?_ fun below => ?_
  · exact sound.forest.siblings_apart placed first second different within
  · exact sound.forest.siblings_apart placed first second different (within.trans below) .here

theorem Touched.above {p c : Handle} {state : EditorState S} (sound : w.arena.Sound)
    (touched : Touched w w' p) (held : w.arena.state? x = some state) (member : c ∈ state.children)
    (within : w.arena.links.Within c p) :
    w'.arena.state? x = some state ∧ w'.outlook? x = w.outlook? x := by
  obtain ⟨editor, found, rfl⟩ := Arena.get?_of_state? held
  have above : ¬ w.arena.links.Within p x := fun below =>
    sound.forest.not_within_of_child (Arena.links_of_get? found) member (within.trans below)
  have outlined := Arena.outline_of_get? found
  have same := touched.changes.outside x _ outlined above
  have kept : w'.arena.outline x = w.arena.outline x := same.trans outlined.symm
  exact ⟨(Arena.state?_congr kept).trans held, outlook?_congr kept touched.contexts⟩

theorem Twins.changed {p q : Handle} {way : List Position} (twins : Twins v w x y)
    (sound : v.arena.Sound) (sound' : w.arena.Sound) (led : v.arena.follow x way = .ok p)
    (led' : w.arena.follow y way = .ok q) (abreast : Abreast v w v' w' p q) : Twins v' w' x y := by
  induction way generalizing x y with
  | nil =>
    cases led
    cases led'
    exact abreast.twins
  | cons position rest ih =>
    obtain ⟨e, c, found, child, down⟩ := Arena.follow_cons led
    obtain ⟨f, d, found', child', down'⟩ := Arena.follow_cons led'
    have held := Arena.state?_of_get? found
    have held' := Arena.state?_of_get? found'
    obtain ⟨t, there, form, below⟩ := twins.state held
    cases held'.symm.trans there
    have member := Arena.child_of_childAt? child
    have member' := Arena.child_of_childAt? child'
    have within := Arena.within_of_follow sound.forest down
    have within' := Arena.within_of_follow sound'.forest down'
    obtain ⟨kept, outlook⟩ := abreast.left.above sound held member within
    obtain ⟨kept', outlook'⟩ := abreast.right.above sound' held' member' within'
    refine .mk kept kept' (by rw [outlook, outlook', twins.outlook]) form ?_
    intro position' c' d' sibling sibling'
    have pair := below position' c' d' sibling sibling'
    by_cases same : position' = position
    · subst same
      cases child.symm.trans sibling
      cases child'.symm.trans sibling'
      exact ih pair down down'
    · have different : c ≠ c' := by
        rintro rfl
        exact same (Arena.childAt?_unique (sound.forest.distinct (Arena.links_of_get? found))
          sibling child)
      have different' : d ≠ d' := by
        rintro rfl
        exact same (Arena.childAt?_unique (sound'.forest.distinct (Arena.links_of_get? found'))
          sibling' child')
      exact pair.frame sound.forest sound'.forest
        (.beside sound abreast.left held member (Arena.child_of_childAt? sibling) different within)
        (.beside sound' abreast.right held' member' (Arena.child_of_childAt? sibling') different'
          within')

theorem Touched.widen {p : Handle} {way : List Position} (touched : Touched w w' p)
    (sound : w.arena.Sound) (led : w.arena.follow x way = .ok p) {editor : Editor S}
    (isLive : w.arena.get? p = some editor) : Touched w w' x :=
  ⟨touched.sound, touched.changes.widen sound.forest (Arena.within_of_follow sound.forest led)
    (Arena.outline_of_get? isLive), touched.contexts, touched.groups⟩

theorem Abreast.widen {p q : Handle} {way : List Position} (abreast : Abreast v w v' w' p q)
    (twins : Twins v w x y) (sound : v.arena.Sound) (sound' : w.arena.Sound)
    (led : v.arena.follow x way = .ok p) (led' : w.arena.follow y way = .ok q)
    (lower : Twins v w p q) : Abreast v w v' w' x y := by
  obtain ⟨e, f, found, found', _⟩ := lower.live
  exact ⟨abreast.left.widen sound led found, abreast.right.widen sound' led' found',
    twins.changed sound sound' led led' abreast⟩

end Workspace

end StructureEditor
