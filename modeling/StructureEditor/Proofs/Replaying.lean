import StructureEditor.Proofs.Upkeep

/-! Replaying. On documents in order, an edit that leads from one page to another can be done
again on the one and taken back on the other, also after the editors were rebuilt under new
handles. -/
namespace StructureEditor

variable {S : Signature}

def Edit.Leads [Language S] (r : Registry S) (e : Edit) : Direction → Page S → Page S → Prop
  | .undo, P, P' => e.Connects r P' P
  | .redo, P, P' => e.Connects r P P'

theorem Edit.connects_back [Language S] {r : Registry S} {e : Edit} {P P' : Page S}
    (connects : e.Connects r P P') :
    ∃ d d', e.Turns r d d' ∧ P'.at? e.locator = some d' ∧ P = P'.set e.locator d := by
  obtain ⟨d, d', turns, there, rfl⟩ := connects
  refine ⟨d, d', turns, Page.at?_set there d', ?_⟩
  rw [Page.set_set, Page.set_at? there]

theorem forall₂_insertIdx {α β : Type} {R : α → β → Prop} {xs : List α} {ys : List β} {x : α}
    {y : β} (related : List.Forall₂ R xs ys) (first : R x y) (index : Nat) :
    List.Forall₂ R (xs.insertIdx index x) (ys.insertIdx index y) := by
  induction related generalizing index with
  | nil =>
    cases index with
    | zero => exact .cons first .nil
    | succ index => exact .nil
  | cons head tail ih =>
    cases index with
    | zero => exact .cons first (.cons head tail)
    | succ index => exact .cons head (ih index)

theorem forall₂_eraseIdx {α β : Type} {R : α → β → Prop} {xs : List α} {ys : List β}
    (related : List.Forall₂ R xs ys) (index : Nat) :
    List.Forall₂ R (xs.eraseIdx index) (ys.eraseIdx index) := by
  induction related generalizing index with
  | nil => exact .nil
  | cons head tail ih =>
    cases index with
    | zero => exact tail
    | succ index => exact .cons head (ih index)

namespace Workspace

variable [Language S] {w w' w₁ : Workspace S} {h : HistoryId} {r : Registry S} {id list item : Handle}
  {editor : Editor S} {k : S.ListClass} {ids : List Handle} {shown : List (Sketch S)}
  {index : Nat} {x : Sketch S} {key : ClassKey S}

theorem attachFresh_run (sound : w.arena.Sound) (found : w.arena.get? list = some editor)
    (held : editor.state = .list k ids) (seen : List.Forall₂ w.arena.Shows ids shown)
    (inside : index ≤ ids.length) (built : Built w w₁ item key editor.context)
    (seenItem : w₁.arena.Shows item x) :
    ∃ w', attachItem list index item w₁ = .ok () w' ∧ Confined w w' list ∧
      w'.arena.Shows list (.list k (shown.insertIdx index x)) ∧ w'.arena.Shows item x := by
  obtain ⟨w', ran, joined⟩ := built.joins sound found held inside
  obtain ⟨above, live, state, _⟩ := joined.live
  have seenItem' := joined.shows_item x seenItem
  refine ⟨w', ran, joined.confined, Arena.shows_list.2 ⟨_, state ▸ Arena.state?_of_get? live,
    forall₂_insertIdx (Arena.forall₂_imp_mem seen fun y member e _ seen =>
      joined.shows_others y member e seen) seenItem' index⟩, seenItem'⟩

theorem beside_dropped {x : Handle} (sound : w'.arena.Sound) (held : editor.state = .list k ids)
    (left : w'.arena.outline list = some { editor.blank with state := .list k (ids.eraseIdx index) })
    (gone : ∀ x, w.arena.links.Within item x → w'.arena.outline x = none)
    (inside : x ∈ ids.eraseIdx index) :
    x ∈ editor.state.children ∧ ¬ w.arena.links.Within item x := by
  refine ⟨held ▸ List.mem_of_mem_eraseIdx inside, fun within => ?_⟩
  obtain ⟨place, isLive, _⟩ := sound.forest.linked (Arena.links_of_outline left) inside
  obtain ⟨e, isLive, _⟩ := Arena.outline_of_links isLive
  rw [gone x within] at isLive
  cases isLive

theorem dropItem_shows (sound : w.arena.Sound) (found : w.arena.get? list = some editor)
    (held : editor.state = .list k ids) (seen : List.Forall₂ w.arena.Shows ids shown)
    (listed : ids[index]? = some item) :
    ∃ w', dropItem list index w = .ok () w' ∧ Confined w w' list ∧
      w'.arena.Shows list (.list k (shown.eraseIdx index)) := by
  have placed := Arena.links_of_get? found
  have member : item ∈ editor.state.children := held ▸ List.mem_of_getElem? listed
  obtain ⟨w', ran, done, gone⟩ := dropItem_run sound (held ▸ Arena.state?_of_get? found) listed
  refine ⟨w', ran, .of_rewrites done found (by rw [held]; rfl) fun y within =>
    (sound.forest.within_of_child placed member).trans within, ?_⟩
  refine Arena.shows_list.2 ⟨_, done.state?_eq found,
    Arena.forall₂_imp_mem (forall₂_eraseIdx seen index) fun y inside e _ seen => ?_⟩
  obtain ⟨isChild, other⟩ :=
    beside_dropped done.sound held (done.here _ (Arena.outline_of_get? found)) gone inside
  refine done.shows sound seen fun z within => ⟨?_, fun below => ?_⟩
  · rintro rfl
    exact sound.forest.not_within_of_child placed isChild within
  · have different : y ≠ item := by
      rintro rfl
      exact other .here
    exact absurd within (sound.forest.siblings_apart placed member isChild (Ne.symm different) below)

theorem dropItem_order (sound : w.arena.Sound) (found : w.arena.get? list = some editor)
    (held : editor.state = .list k ids) (listed : ids[index]? = some item)
    (order : OrderBelow h r w list) :
    ∃ w', dropItem list index w = .ok () w' ∧ OrderBelow h r w' list := by
  have placed := Arena.links_of_get? found
  obtain ⟨w', ran, done, gone⟩ := dropItem_run sound (held ▸ Arena.state?_of_get? found) listed
  have inOrder := order.here found
  have declared := inOrder.declared
  rw [held] at declared
  refine ⟨w', ran, done.orderBelow found inOrder.governed ?_ ?_ ?_⟩
  · intro y inside
    obtain ⟨isChild, other⟩ :=
      beside_dropped done.sound held (done.here _ (Arena.outline_of_get? found)) gone inside
    obtain ⟨place, childPlaced, _⟩ := sound.forest.linked placed isChild
    obtain ⟨e, isLive, _⟩ := Arena.outline_of_links childPlaced
    refine (declared y (List.mem_of_mem_eraseIdx inside)).carry isLive
      ((done.kept y ?_ other).trans isLive) rfl
    rintro rfl
    exact sound.forest.not_within_of_child placed isChild .here
  · intro y inside
    have isChild : y ∈ editor.state.children := held ▸ List.mem_of_mem_eraseIdx inside
    exact order.below (sound.forest.within_of_child placed isChild)
  · intro z e below isLive
    rw [gone z below] at isLive
    cases isLive

/-- Some editors stay roots, and all below them is in order. -/
structure Tended (h : HistoryId) (r : Registry S) (roots : List Handle) (w : Workspace S) : Prop where
  sound : w.arena.Sound
  free : ∀ x ∈ roots, ∃ editor, w.arena.get? x = some editor ∧ editor.parent = none
  order : ∀ x ∈ roots, OrderBelow h r w x

variable {roots : List Handle} {root : Handle} {P P' : Page S} {way : List Position}

theorem Tended.confined (tended : Tended h r roots w) (changed : Confined w w' id)
    (order : OrderBelow h r w' id) : Tended h r roots w' := by
  have outside : ∀ x ∈ roots, x ≠ id → ¬ w.arena.links.Within id x := by
    intro x member different within
    obtain ⟨editor, found, isRoot⟩ := tended.free x member
    exact different (Links.within_root_unique (Arena.links_of_get? found) isRoot within)
  refine ⟨changed.sound, fun x member => ?_, fun x member => ?_⟩
  · obtain ⟨editor, found, isRoot⟩ := tended.free x member
    by_cases same : x = id
    · subst same
      obtain ⟨editor', found', kept⟩ := changed.changes.live found
      exact ⟨editor', found', kept.2.1.trans isRoot⟩
    · obtain ⟨editor', found', _, _, parent⟩ := Arena.kept_of_outline
        (changed.changes.outside x _ (Arena.outline_of_get? found) (outside x member same))
      exact ⟨editor', found', parent.trans isRoot⟩
  · obtain ⟨editor, found, _⟩ := tended.free x member
    exact (tended.order x member).change changed.changes tended.sound.forest changed.sound.forest
      changed.quiet.contexts (Arena.outline_of_get? found) (outside x member) fun _ => order

theorem Tended.congr (tended : Tended h r roots w) (arena : w'.arena = w.arena)
    (contexts : w'.contexts = w.contexts) : Tended h r roots w' :=
  ⟨arena ▸ tended.sound, arena ▸ tended.free,
    fun x member => (tended.order x member).congr arena contexts⟩

/-- An editor below a root was changed and shows something else now. -/
structure Lands (h : HistoryId) (r : Registry S) (w w' : Workspace S) (id : Handle)
    (d : Sketch S) : Prop extends Confined w w' id where
  shown : w'.arena.Shows id d
  order : OrderBelow h r w' id

variable {d : Sketch S}

theorem writeToken_lands {c : S.TokenClass} {old : String} {oldItem : Option Candidate}
    (text : String) (item : Option Candidate) (sound : w.arena.Sound)
    (held : w.arena.state? id = some (.token c old oldItem)) (order : OrderBelow h r w id) :
    ∃ w', writeToken id text item false w = .ok () w' ∧ Lands h r w w' id (.token c text item) := by
  obtain ⟨editor, found, state⟩ := Arena.get?_of_state? held
  obtain ⟨w', ran, done⟩ := writeToken_quiet text item sound held
  exact ⟨w', ran, .of_rewrites done found (by rw [state]; rfl) nofun, done.state?_eq found,
    done.orderBelow found (order.here found).governed trivial nofun nofun⟩

theorem restoreState_lands {c : S.ExpanderClass} {display : Display Handle}
    {state : Display Snapshot} (sound : w.arena.Sound)
    (held : w.arena.state? id = some (.expander c display)) (order : OrderBelow h r w id)
    (isKey : d.classKey = .expander c) (fine : d.Fine r)
    (recorded : d.toSnapshot.display? = some state) :
    ∃ w', restoreState id state w = .ok () w' ∧ Lands h r w w' id d := by
  obtain ⟨editor, found, isState⟩ := Arena.get?_of_state? held
  obtain ⟨w', ran, changed, shown⟩ := restoreState_shows sound found isState isKey fine.1
    (supplies_of_known fine.2 (order.here found).governed) recorded
  exact ⟨w', ran, changed, shown, (restoreStateWith_order restore_keeps restore_safe
    sound held order state).ok_of ran⟩

theorem insert_lands (sound : w.arena.Sound)
    (seen : w.arena.Shows list (.list k shown)) (order : OrderBelow h r w list)
    (inside : index ≤ shown.length) (fine : x.Fine r)
    (isElement : x.classKey = (Language.list k).element) :
    ∃ w', (do let item ← rebuild x.toSnapshot (← lookup list).context
              attachItem list index item) w = .ok () w' ∧
      Lands h r w w' list (.list k (shown.insertIdx index x)) := by
  obtain ⟨ids, held, seen⟩ := Arena.shows_list.1 seen
  obtain ⟨editor, found, state⟩ := Arena.get?_of_state? held
  have governs := (order.here found).governed
  obtain ⟨item, w₁, ran, built, seenItem⟩ := rebuildWith_run restore_safe (restore_restores fine.1)
    sound (supplies_of_known fine.2 governs) (governs.knows fine.2.has)
  have inside' : index ≤ ids.length := seen.length_eq ▸ inside
  obtain ⟨w', attached, changed, shown', _⟩ :=
    attachFresh_run sound found state seen inside' built seenItem
  refine ⟨w', ?_, changed, shown', ?_⟩
  · have rebuilt : rebuild x.toSnapshot editor.context w = .ok item w₁ := ran
    rw [Action.bind_run_ok _ (lookup_run found), Action.bind_run_ok _ rebuilt]
    exact attached
  · obtain ⟨w'', attached', _, order'⟩ := built.joins_order sound found state inside' isElement order
      ((rebuildWith_order restore_keeps restore_safe sound governs).ok_of ran).1
    cases attached.symm.trans attached'
    exact order'

theorem remove_lands (sound : w.arena.Sound) (seen : w.arena.Shows list (.list k shown))
    (order : OrderBelow h r w list) (inside : index < shown.length) :
    ∃ w', dropItem list index w = .ok () w' ∧
      Lands h r w w' list (.list k (shown.eraseIdx index)) := by
  obtain ⟨ids, held, seen⟩ := Arena.shows_list.1 seen
  obtain ⟨editor, found, state⟩ := Arena.get?_of_state? held
  have inside' : index < ids.length := seen.length_eq ▸ inside
  have listed := List.getElem?_eq_getElem inside'
  obtain ⟨w', ran, changed, shown'⟩ := dropItem_shows sound found state seen listed
  obtain ⟨w₁, ran', order'⟩ := dropItem_order sound found state listed order
  cases ran.symm.trans ran'
  exact ⟨w', ran, changed, shown', order'⟩

theorem restore_lands {old : Sketch S} (sound : w.arena.Sound)
    (seen : w.arena.Shows id old) (order : OrderBelow h r w id) (fine : d.Fine r)
    (isKey : old.classKey = d.classKey) :
    ∃ w', restore id d.toSnapshot w = .ok () w' ∧ Lands h r w w' id d := by
  obtain ⟨state, held, _⟩ := seen.state
  obtain ⟨editor, found, _⟩ := Arena.get?_of_state? held
  obtain ⟨w', ran, shown⟩ := restore_restores fine.1 w id editor old sound found seen
    (order.conforms sound.forest seen) isKey
    (supplies_of_known fine.2 (order.here found).governed)
  exact ⟨w', ran, (restore_safe w id _ sound).ok_of ran, shown,
    (restore_keeps w id _ sound order).ok_of ran⟩

theorem Tended.lands {l : Locator} (tended : Tended h r roots w) (depicts : w.arena.Depicts roots P)
    (member : l.root ∈ roots) (found : w.arena.find l = .ok id) (lands : Lands h r w w' id d) :
    Tended h r roots w' ∧ Quiet w w' ∧ w'.arena.Depicts roots (P.set l d.canon) :=
  ⟨tended.confined lands.toConfined lands.order, lands.quiet,
    depicts.change lands.changes tended.sound.forest tended.free member found lands.shown⟩

theorem Tended.replays {l : Locator} {old : Sketch S} (action : Handle → Editing S Unit)
    (tended : Tended h r roots w) (depicts : w.arena.Depicts roots P)
    (there : P.at? l = some old)
    (acts : ∀ id s, w.arena.Shows id s → s.canon = old → OrderBelow h r w id →
      ∃ w' d, action id w = .ok () w' ∧ Lands h r w w' id d ∧ P' = P.set l d.canon) :
    ∃ w', (do action (← ask (·.find l))) w = .ok () w' ∧ Tended h r roots w' ∧ Quiet w w' ∧
      w'.arena.Depicts roots P' := by
  obtain ⟨member, id, s, found, seen, same⟩ := depicts.find there
  have within := Arena.within_of_follow tended.sound.forest found
  obtain ⟨w', d, ran, lands, rfl⟩ := acts id s seen same ((tended.order _ member).below within)
  have asked : ask (·.find l) w = .ok id w := ask_run found
  refine ⟨w', ?_, tended.lands depicts member found lands⟩
  rw [Action.bind_run_ok _ asked]
  exact ran

omit [Language S] in
theorem canon_eq_token {s : Sketch S} {c : S.TokenClass} {text : String} {item : Option Candidate}
    (same : s.canon = (Sketch.token c text item).canon) : ∃ text item, s = .token c text item := by
  cases s <;> simp [Sketch.canon] at same
  obtain ⟨rfl, _⟩ := same
  exact ⟨_, _, rfl⟩

omit [Language S] in
theorem canon_eq_list {s : Sketch S} (same : s.canon = .list k shown) :
    ∃ items, s = .list k items ∧ items.map Sketch.canon = shown := by
  cases s <;> simp [Sketch.canon, Sketch.canonAll_eq_map] at same
  obtain ⟨rfl, rfl⟩ := same
  exact ⟨_, rfl, rfl⟩

omit [Language S] in
theorem canon_eq_expander {s d : Sketch S} {a : Arena S} {c : S.ExpanderClass}
    (seen : a.Shows id s) (same : s.canon = d.canon) (isKey : d.classKey = .expander c) :
    ∃ display, a.state? id = some (.expander c display) := by
  obtain ⟨state, held, key⟩ := seen.state
  have isKey : state.classKey = .expander c := by
    rw [key, ← Sketch.classKey_canon, same, Sketch.classKey_canon, isKey]
  cases state <;> cases isKey
  exact ⟨_, held⟩

theorem replay_text {l : Locator} {c : S.TokenClass} {old text : String}
    {oldItem item : Option Candidate} (tended : Tended h r roots w)
    (depicts : w.arena.Depicts roots P) (there : P.at? l = some (Sketch.token c old oldItem).canon) :
    ∃ w', (do writeToken (← ask (·.find l)) text item false) w = .ok () w' ∧
      Tended h r roots w' ∧ Quiet w w' ∧
      w'.arena.Depicts roots (P.set l (Sketch.token c text item).canon) := by
  refine tended.replays (fun id => writeToken id text item false) depicts there
    fun id s seen same order => ?_
  obtain ⟨shown, shownItem, rfl⟩ := canon_eq_token same
  obtain ⟨w', ran, lands⟩ := writeToken_lands text item tended.sound seen order
  exact ⟨w', _, ran, lands, rfl⟩

theorem replay_transition {l : Locator} {c : S.ExpanderClass} {old new : Sketch S}
    {state : Display Snapshot} (tended : Tended h r roots w)
    (depicts : w.arena.Depicts roots P) (there : P.at? l = some old.canon)
    (isOld : old.classKey = .expander c) (isNew : new.classKey = .expander c) (fine : new.Fine r)
    (recorded : new.toSnapshot.display? = some state) :
    ∃ w', (do restoreState (← ask (·.find l)) state) w = .ok () w' ∧ Tended h r roots w' ∧
      Quiet w w' ∧ w'.arena.Depicts roots (P.set l new.canon) := by
  refine tended.replays (fun id => restoreState id state) depicts there
    fun id s seen same order => ?_
  obtain ⟨display, held⟩ := canon_eq_expander seen same isOld
  obtain ⟨w', ran, lands⟩ :=
    restoreState_lands tended.sound held order isNew fine recorded
  exact ⟨w', _, ran, lands, rfl⟩

theorem replay_replacement {l : Locator} {old new : Sketch S}
    (tended : Tended h r roots w) (depicts : w.arena.Depicts roots P)
    (there : P.at? l = some old.canon) (sameClass : old.classKey = new.classKey)
    (fine : new.Fine r) :
    ∃ w', (do restore (← ask (·.find l)) new.toSnapshot) w = .ok () w' ∧ Tended h r roots w' ∧
      Quiet w w' ∧ w'.arena.Depicts roots (P.set l new.canon) := by
  refine tended.replays (fun id => restore id new.toSnapshot) depicts there
    fun id s seen same order => ?_
  have isKey : s.classKey = new.classKey := by
    rw [← Sketch.classKey_canon, same, Sketch.classKey_canon, sameClass]
  obtain ⟨w', ran, lands⟩ := restore_lands tended.sound seen order fine isKey
  exact ⟨w', _, ran, lands, rfl⟩

theorem replayInsert_run {l : Locator} {s : Snapshot} {old new : Sketch S}
    (tended : Tended h r roots w) (depicts : w.arena.Depicts roots P)
    (there : P.at? l = some old) (inserts : Edit.Inserts r index s old new) :
    ∃ w', replayInsert l index s w = .ok () w' ∧ Tended h r roots w' ∧ Quiet w w' ∧
      w'.arena.Depicts roots (P.set l new) := by
  obtain ⟨c, items, x, fine, isElement, rfl, inside, rfl, rfl⟩ := inserts
  refine tended.replays (fun list => do
    let item ← rebuild x.toSnapshot (← lookup list).context
    attachItem list index item) depicts there fun list s seen same order => ?_
  obtain ⟨shown, rfl, rfl⟩ := canon_eq_list same
  rw [List.length_map] at inside
  obtain ⟨w', ran, lands⟩ := insert_lands tended.sound seen order inside fine isElement
  refine ⟨w', _, ran, lands, ?_⟩
  rw [Sketch.canon, Sketch.canonAll_eq_map, List.map_insertIdx]

theorem replayRemove_run {l : Locator} {s : Snapshot} {old new : Sketch S}
    (tended : Tended h r roots w) (depicts : w.arena.Depicts roots P)
    (there : P.at? l = some old) (inserts : Edit.Inserts r index s new old) :
    ∃ w', replayRemove l index w = .ok () w' ∧ Tended h r roots w' ∧ Quiet w w' ∧
      w'.arena.Depicts roots (P.set l new) := by
  obtain ⟨c, items, x, _, _, _, inside, rfl, rfl⟩ := inserts
  refine tended.replays (fun list => dropItem list index) depicts there
    fun list s seen same order => ?_
  obtain ⟨shown, rfl, listed⟩ := canon_eq_list same
  have longer : index < shown.length := by
    have length := congrArg List.length listed
    rw [List.length_map, List.length_insertIdx_of_le_length inside] at length
    omega
  obtain ⟨w', ran, lands⟩ := remove_lands tended.sound seen order longer
  refine ⟨w', _, ran, lands, ?_⟩
  rw [Sketch.canon, Sketch.canonAll_eq_map, ← List.eraseIdx_map, listed, List.eraseIdx_insertIdx_self]

theorem replay_run {e : Edit} {direction : Direction}
    (tended : Tended h r roots w) (depicts : w.arena.Depicts roots P)
    (leads : e.Leads r direction P P') :
    ∃ w', replay direction e w = .ok () w' ∧ Tended h r roots w' ∧ Quiet w w' ∧
      w'.arena.Depicts roots P' := by
  cases direction with
  | undo =>
    obtain ⟨d, d', turns, there, rfl⟩ := Edit.connects_back leads
    cases e with
    | text l old new oldItem newItem =>
      obtain ⟨c, rfl, rfl⟩ := turns
      exact replay_text tended depicts there
    | transition l before after description =>
      obtain ⟨c, s, s', isOld, isNew, fine, _, recorded, _, rfl, rfl⟩ := turns
      exact replay_transition tended depicts there isNew isOld fine recorded
    | insertion l index item => exact replayRemove_run tended depicts there turns
    | removal l index item => exact replayInsert_run tended depicts there turns
    | replacement l before after description =>
      obtain ⟨s, s', sameClass, fine, _, rfl, _, rfl, rfl⟩ := turns
      exact replay_replacement tended depicts there sameClass.symm fine
  | redo =>
    obtain ⟨d, d', turns, there, rfl⟩ := leads
    cases e with
    | text l old new oldItem newItem =>
      obtain ⟨c, rfl, rfl⟩ := turns
      exact replay_text tended depicts there
    | transition l before after description =>
      obtain ⟨c, s, s', isOld, isNew, _, fine, _, recorded, rfl, rfl⟩ := turns
      exact replay_transition tended depicts there isOld isNew fine recorded
    | insertion l index item => exact replayInsert_run tended depicts there turns
    | removal l index item => exact replayRemove_run tended depicts there turns
    | replacement l before after description =>
      obtain ⟨s, s', sameClass, _, fine, _, rfl, rfl, rfl⟩ := turns
      exact replay_replacement tended depicts there sameClass fine

/-- Edits, in the order of their replay, that lead from one page to another. -/
def Trail (r : Registry S) (direction : Direction) : List Edit → Page S → Page S → Prop
  | [], P, P' => P' = P
  | e :: rest, P, P' => ∃ M, e.Leads r direction P M ∧ Trail r direction rest M P'

theorem trail_append {first second : List Edit} {direction : Direction} {M : Page S}
    (before : Trail r direction first P M) (after : Trail r direction second M P') :
    Trail r direction (first ++ second) P P' := by
  induction first generalizing P with
  | nil => exact before ▸ after
  | cons e rest ih =>
    obtain ⟨N, leads, before⟩ := before
    exact ⟨N, leads, ih before⟩

theorem trail_redo {edits : List Edit} (connect : Edit.ConnectAll r edits P P') :
    Trail r .redo edits P P' := by
  induction edits generalizing P with
  | nil => exact connect
  | cons e rest ih =>
    obtain ⟨M, connects, connect⟩ := connect
    exact ⟨M, connects, ih connect⟩

theorem trail_undo {edits : List Edit} (connect : Edit.ConnectAll r edits P P') :
    Trail r .undo edits.reverse P' P := by
  induction edits generalizing P with
  | nil => exact connect.symm
  | cons e rest ih =>
    obtain ⟨M, connects, connect⟩ := connect
    rw [List.reverse_cons]
    exact trail_append (ih connect) ⟨P, connects, rfl⟩

theorem replayAll_run {edits : List Edit} {direction : Direction}
    (tended : Tended h r roots w) (depicts : w.arena.Depicts roots P)
    (trail : Trail r direction edits P P') :
    ∃ w', edits.forM (replay direction) w = .ok () w' ∧ Tended h r roots w' ∧ Quiet w w' ∧
      w'.arena.Depicts roots P' := by
  induction edits generalizing w P with
  | nil =>
    cases trail
    exact ⟨w, rfl, tended, .refl w, depicts⟩
  | cons e rest ih =>
    obtain ⟨M, leads, trail⟩ := trail
    obtain ⟨w₁, ran, tended₁, quiet, depicts₁⟩ := replay_run tended depicts leads
    obtain ⟨w₂, ran', tended₂, quiet', depicts₂⟩ := ih tended₁ depicts₁ trail
    exact ⟨w₂, (Action.forM_run_ok rest ran).trans ran', tended₂, quiet.trans quiet', depicts₂⟩

/-- Wherever orderly documents show the one page, a replay goes through and leads to the other. -/
def Replays (h : HistoryId) (r : Registry S) (roots : List Handle) (action : Editing S Unit)
    (P P' : Page S) : Prop :=
  ∀ w, Tended h r roots w → w.arena.Depicts roots P → ∃ w', action w = .ok () w' ∧
    Tended h r roots w' ∧ Quiet w w' ∧ w'.arena.Depicts roots P'

theorem replayStep_run {step : Step Edit} {direction : Direction}
    (leads : step.Leads r direction P P') :
    Replays h r roots (HistoryLens.replayStep replay direction step) P P' := by
  intro w tended depicts
  cases direction with
  | undo => exact replayAll_run tended depicts (trail_undo leads)
  | redo => exact replayAll_run tended depicts (trail_redo leads)

theorem Tended.beside {histories : Histories Edit} (tended : Tended h r roots w) :
    Tended h r roots { w with histories } :=
  ⟨tended.sound, tended.free, fun x member => (tended.order x member).congr rfl rfl⟩

theorem Replays.paused {action : Editing S Unit} (replays : Replays h r roots action P P') :
    Replays h r roots ((historyLens h).paused action) P P' := by
  intro w tended depicts
  obtain ⟨w₁, ran, tended₁, quiet, depicts₁⟩ :=
    replays ((historyLens h).put ((historyLens h).view w).pause.2 w) tended.beside depicts
  refine ⟨(historyLens h).update (·.resume ((historyLens h).view w).pause.1) w₁, ?_,
    tended₁.beside, (paused_history h w).quiet w₁ quiet, depicts₁⟩
  simp only [HistoryLens.paused, Action.ensuring, ran]

theorem Replays.moves {step : Step Edit} {rest : List (Step Edit)} {direction : Direction}
    (replays : Replays h r roots (HistoryLens.replayStep replay direction step) P P')
    (tended : Tended h r roots w) (depicts : w.arena.Depicts roots P)
    (closed : ((historyLens h).view w).collected = none)
    (next : History.ahead direction ((historyLens h).view w) = step :: rest) :
    ∃ w', move h direction w = .ok true w' ∧ Tended h r roots w' ∧ w'.arena.Depicts roots P' ∧
      (historyLens h).view w' = History.moved direction step rest ((historyLens h).view w) := by
  obtain ⟨w₁, ran, tended₁, quiet, depicts₁⟩ := replays.paused ((historyLens h).put
    (History.taken direction rest ((historyLens h).view w)) w) tended.beside depicts
  have histories : w₁.histories =
      w.histories.set h (History.taken direction rest ((historyLens h).view w)) := quiet.histories
  refine ⟨(historyLens h).update (History.handed direction step) w₁, ?_, tended₁.beside, depicts₁, ?_⟩
  · rw [move_some closed next, Action.bind_run_ok _ ran]
    rfl
  · simp only [HistoryLens.update, historyLens, histories]
    cases direction <;> simp [History.handed, History.taken, History.moved]

theorem move_run {step : Step Edit} {rest : List (Step Edit)} {direction : Direction}
    (tended : Tended h r roots w) (depicts : w.arena.Depicts roots P)
    (closed : ((historyLens h).view w).collected = none)
    (next : History.ahead direction ((historyLens h).view w) = step :: rest)
    (leads : step.Leads r direction P P') :
    ∃ w', move h direction w = .ok true w' ∧ Tended h r roots w' ∧ w'.arena.Depicts roots P' ∧
      (historyLens h).view w' = History.moved direction step rest ((historyLens h).view w) :=
  (replayStep_run leads).moves tended depicts closed next

end Workspace

end StructureEditor
