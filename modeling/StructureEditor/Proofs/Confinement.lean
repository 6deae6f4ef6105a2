import StructureEditor.Proofs.Sessions
import StructureEditor.Proofs.Roots
import StructureEditor.Proofs.Typing

/-! What a request leaves alone. A request that is about one editor changes nothing but what is
below that editor; the editors above it may have other results, and all others are the same. A list
gains an item when a separator is typed into one of its items. -/
namespace StructureEditor.Workspace

variable {S : Signature} [Language S] {α : Type} {w w₀ w₁ w' : Workspace S} {id x y list : Handle}
  {editor e : Editor S} {context : Context} {made : List Handle} {k : S.ExpanderClass}

/-- All that has changed is below one editor, which has kept its place. -/
structure ChangedBelow (w : Workspace S) (x : Handle) (w' : Workspace S) : Prop where
  sound : w'.arena.Sound
  changes : w.arena.Changes w'.arena x

/-- Editors were added at most. -/
structure Larger (w w' : Workspace S) : Prop where
  sound : w'.arena.Sound
  grows : w.arena.Grows w'.arena

theorem ChangedBelow.start (sound : w.arena.Sound) (x : Handle) : ChangedBelow w x w :=
  ⟨sound, .refl _ _⟩

theorem ChangedBelow.lasting (w : Workspace S) (x : Handle) : Lasting (ChangedBelow w x) :=
  fun _ _ beside before => ⟨beside.arena ▸ before.sound, beside.arena ▸ before.changes⟩

theorem ChangedBelow.since (changed : ChangedBelow w₁ x w') (arena : w₁.arena = w.arena) :
    ChangedBelow w x w' :=
  ⟨changed.sound, arena ▸ changed.changes⟩

theorem Confined.below (changed : Confined w w' x) : ChangedBelow w x w' :=
  ⟨changed.sound, changed.changes⟩

theorem Larger.refl (sound : w.arena.Sound) : Larger w w := ⟨sound, .refl _⟩

theorem Larger.trans (first : Larger w w₁) (second : Larger w₁ w') : Larger w w' :=
  ⟨second.sound, first.grows.trans second.grows⟩

theorem Larger.below (larger : Larger w w') (x : Handle) : ChangedBelow w x w' :=
  ⟨larger.sound, larger.grows.changes x⟩

theorem Added.larger (added : Added w w') : Larger w w' := ⟨added.sound, added.grows⟩

theorem Larger.change (larger : Larger w w₁) (sound : w.arena.Sound)
    (changed : ChangedBelow w₁ x w') : ChangedBelow w x w' :=
  ⟨changed.sound, (larger.grows.changes x).trans changed.changes sound.forest⟩

theorem writeToken_below (text : String) (item : Option Candidate) (undoable : Bool)
    (sound : w.arena.Sound) : Ensures (writeToken id text item undoable) w (ChangedBelow w id) := by
  cases answered : w.arena.token id with
  | error error =>
    have asked : ask (·.token id) w = .error (.refused error) w := Action.ask_run_error answered
    exact .of_error (Action.bind_run_error _ asked) (.start sound id)
  | ok answer =>
    obtain ⟨c, old, oldItem⟩ := answer
    obtain ⟨editor, found, state⟩ := Arena.get?_of_state? (Arena.token_eq_ok_iff.1 answered)
    obtain ⟨w', ran, done⟩ := writeToken_run text item undoable sound found state
    have changes : w.arena.Changes w'.arena id := done.changes found (by rw [state]; rfl) nofun
    exact .of_ok ran ⟨done.sound, changes⟩

/-- Since the start editors were made, and all others are as they were. -/
structure MadeSince (start w : Workspace S) (made : List Handle) : Prop extends Larger start w where
  fresh : ∀ m ∈ made, start.arena.outline m = none

theorem MadeSince.built {c : ClassKey S} (since : MadeSince w₀ w made)
    (built : Built w w' id c context) : MadeSince w₀ w' (id :: made) := by
  refine ⟨since.toLarger.trans built.toAdded.larger, fun m member => ?_⟩
  rcases List.mem_cons.1 member with rfl | earlier
  · exact Arena.fresh_of_grows since.grows built.fresh
  · exact since.fresh m earlier

theorem MadeSince.typeToken (since : MadeSince w₀ w made) (sound : w₀.arena.Sound)
    (member : id ∈ made) (text : String) :
    Ensures (typeToken id text true) w fun w' => MadeSince w₀ w' made := by
  have typed : ∀ {w'}, ChangedBelow w id w' → MadeSince w₀ w' made := fun changed =>
    ⟨⟨changed.sound, since.grows.change_fresh changed.changes sound.forest (since.fresh id member)⟩,
      since.fresh⟩
  exact (writeToken_below text none true since.sound).mono (fun _ _ => typed) fun _ _ => typed

theorem build_enlarges {hook : Build S (Option Handle)} (own : hook.Own made)
    (sound : w₀.arena.Sound) (since : MadeSince w₀ w made) :
    Action.Meets (build context hook) w
      (fun answer w' => Larger w₀ w' ∧ ∀ m, answer = some (some m) → w₀.arena.outline m = none)
      fun _ w' => Larger w₀ w' := by
  refine (build_rule (fun made w (since : MadeSince w₀ w made) => since.sound) ?_ ?_ own
    since).mono ?_ ?_
  · exact fun _ _ _ _ _ since built => since.built built
  · exact fun _ _ id text since member => since.typeToken sound member text
  · rintro answer w' ⟨made, since, known⟩
    exact ⟨since.toLarger, fun m given => since.fresh m (known m given)⟩
  · rintro _ w' ⟨made, since⟩
    exact since.toLarger

theorem askHook_enlarges {hook : Build S (Option Handle)} (own : hook.Own [])
    (sound : w.arena.Sound) :
    Action.Meets (askHook id context hook) w
      (fun answer w' => Larger w w' ∧ ∀ m, answer = some m → w.arena.outline m = none)
      fun _ w' => Larger w w' := by
  refine .bind (.ask (fun editor _ => ?_) fun _ _ => .refl sound)
  obtain ⟨start, finish, paused, ran⟩ := unrecorded_run editor.context (build context hook) w
  have begun : MadeSince start start [] := ⟨.refl (paused.arena ▸ sound), by simp⟩
  have ended : ∀ {w'}, Larger start w' → Larger w (finish w') := by
    intro w' larger
    refine ⟨(paused.finished w').symm ▸ larger.sound, ?_⟩
    rw [paused.finished, ← paused.arena]
    exact larger.grows
  refine .bind ?_
  rw [Action.Meets, ran]
  refine Action.Meets.ensuring ((build_enlarges own (paused.arena ▸ sound) begun).mono ?_ ?_)
  · rintro answer w' ⟨larger, fresh⟩
    refine .pure ⟨ended larger, fun m given => ?_⟩
    cases answer with
    | none => cases given
    | some answer => exact paused.arena ▸ fresh m (congrArg some given)
  · exact fun _ w' larger => ended larger

theorem fill_below {source : Handle} (sound : w.arena.Sound) (found : w.arena.get? id = some editor)
    (larger : Larger w w₁) (fresh : w.arena.outline source = none) :
    Ensures (fill id source) w₁ (ChangedBelow w id) := by
  have apart : ∀ x e, w.arena.outline x = some e → ¬ w₁.arena.links.Within source x :=
    fun x e isLive => larger.grows.not_within_fresh sound.forest fresh isLive
  refine (fillWith_meets restore_safe larger.sound fun _ _ _ _ =>
    apart id _ (Arena.outline_of_get? found)).mono ?_ ?_
  · exact fun _ w' filled => ⟨filled.1.sound, filled.1.changes (larger.grows.changes id) apart⟩
  · exact fun _ w' added => (larger.trans added.larger).below id

theorem showText_below {old : String} {oldItem : Option Candidate} (text : String)
    (item : Option Candidate) (sound : w.arena.Sound) (larger : Larger w w₁)
    (held : w.arena.state? id = some (.expander k (.text old oldItem))) :
    Ensures (showText id text item) w₁ (ChangedBelow w id) := by
  obtain ⟨editor, found, state⟩ := Arena.get?_of_state? (state?_of_grows larger.grows held)
  obtain ⟨w', ran, done⟩ := showText_run text item larger.sound
    (state?_of_grows larger.grows held)
  have changed : ChangedBelow w₁ id w' :=
    ⟨done.sound, done.changes found (by rw [state]; rfl) nofun⟩
  exact .of_ok ran (larger.change sound changed)

theorem recordTransition_below {action : Editing S α} (description : String)
    (larger : Larger w w₁) (ends : Ensures action w₁ (ChangedBelow w id)) :
    Ensures (recordTransition id description action) w₁ (ChangedBelow w id) :=
  recordTransition_ensures description (.lasting w id) (larger.below id) ends

theorem scopeFor_larger (sound : w.arena.Sound) (k : S.ExpanderClass) (own : Context) :
    Larger w { w with contexts := (w.scopeFor k own).2 } := (added_scopeFor sound k own).larger

theorem expand_below (tidy : Language.Tidy S) (sound : w.arena.Sound) :
    Ensures (expand id) w (ChangedBelow w id) := by
  refine expand_rule (fun _ => .start sound id) fun {k editor old oldItem shown} found state _ => ?_
  have ahead := scopeFor_larger sound k editor.context
  refine (askHook_enlarges ((tidy k).1 _) ahead.sound).mono ?_
    fun _ _ more => (ahead.trans more).below id
  rintro made w' ⟨more, fresh⟩
  have larger := ahead.trans more
  exact ⟨fun source offered => recordTransition_below "Expand" larger (fill_below sound found larger
    (fresh source offered)), fun _ => larger.below id⟩

theorem chooseExpander_below (tidy : Language.Tidy S) (choice : Choice) (sound : w.arena.Sound) :
    Ensures (chooseExpander id choice) w (ChangedBelow w id) := by
  refine chooseExpander_rule (fun _ => .start sound id) fun {k editor old oldItem} found state => ?_
  have ahead := scopeFor_larger sound k editor.context
  refine recordTransition_below "Complete" ahead (fillChosen_rule ?_)
  refine (askHook_enlarges ((tidy k).2.1 _) ahead.sound).mono ?_
    fun _ _ more => (ahead.trans more).below id
  rintro made w₁ ⟨more, fresh⟩
  have larger := ahead.trans more
  refine ⟨fun source offered => fill_below sound found larger (fresh source offered), fun _ => ?_⟩
  refine (askHook_enlarges ((tidy k).1 _) larger.sound).mono ?_
    fun _ _ more => (larger.trans more).below id
  rintro made w₂ ⟨more, fresh⟩
  refine ⟨fun source offered => fill_below sound found (larger.trans more)
    (Arena.fresh_of_grows larger.grows (fresh source offered)), fun _ => ?_⟩
  exact showText_below choice.text (some choice.item) sound (larger.trans more)
    (state ▸ Arena.state?_of_get? found)

theorem dropContent_below (sound : w.arena.Sound) :
    Ensures (dropContent id) w (ChangedBelow w id) := by
  cases answered : w.arena.expander id with
  | error error =>
    have asked : ask (·.expander id) w = .error (.refused error) w := Action.ask_run_error answered
    exact .of_error (Action.bind_run_error _ asked) (.start sound id)
  | ok answer =>
    obtain ⟨k, display⟩ := answer
    have held := Arena.expander_eq_ok_iff.1 answered
    cases display with
    | text text item => exact .after_ok (ask_run answered) (.fault (.start sound id))
    | expanded content =>
      obtain ⟨editor, found, state⟩ := Arena.get?_of_state? held
      obtain ⟨w', ran, done, _⟩ := dropContent_run sound held
      have isChild : content ∈ editor.state.children := by simp [state, EditorState.children]
      refine .of_ok ran ⟨done.sound, done.changes found (by rw [state]; rfl) fun x below => ?_⟩
      exact (sound.forest.within_of_child (Arena.links_of_get? found) isChild).trans below

theorem reset_below (sound : w.arena.Sound) : Ensures (reset id) w (ChangedBelow w id) := by
  refine .ask (.start sound id) fun expanded _ => ?_
  cases expanded with
  | false => exact .fault (.start sound id)
  | true => exact recordTransition_below "Reset" (.refl sound) (dropContent_below sound)

theorem restoreState_below (state : Display Snapshot) (sound : w.arena.Sound) :
    Ensures (restoreState id state) w (ChangedBelow w id) :=
  (restoreStateWith_meets restore_safe sound state).mono (fun _ _ changed => changed.below)
    fun _ _ changed => changed.below

theorem restore_below (s : Snapshot) (sound : w.arena.Sound) :
    Ensures (restore id s) w (ChangedBelow w id) :=
  (restore_safe w id s sound).mono (fun _ _ changed => changed.below)
    fun _ _ changed => changed.below

theorem pasteContent_below (s : Snapshot) (sound : w.arena.Sound) :
    Ensures (pasteContent id s) w (ChangedBelow w id) := by
  refine pasteContent_rule sound (fun _ => .start sound id) fun {k editor display} found held => ?_
  have ahead := added_scopeFor sound k editor.context
  refine (rebuildWith_meets restore_safe ahead.sound).mono ?_ ?_
  · intro content w₂ _ c built
    have added := ahead.trans built.toAdded
    refine ⟨(ahead.trans (built.dispose ahead.sound)).larger.below id,
      recordTransition_below "Paste" added.larger ?_⟩
    exact (added.refill restore_safe sound found
      (Arena.fresh_of_grows ahead.grows built.fresh)).mono (fun _ _ changed => changed.below)
        fun _ _ changed => changed.below
  · intro stop w₂ _ more
    have still := (ahead.trans more).larger.below id
    cases stop <;> exact still

theorem paste_below (s : Snapshot) (sound : w.arena.Sound) :
    Ensures (paste id s) w (ChangedBelow w id) := by
  have still := ChangedBelow.start sound id
  exact paste_rule (fun _ => still) still (fun text item _ => writeToken_below text item true sound)
    (fun text item _ => recordTransition_below "Paste" (.refl sound)
      (restoreState_below (.text text item) sound))
    fun s => pasteContent_below s sound

/-- A fresh item has come into a list. All other editors stand as before, but for those that are set
apart. -/
structure GainsItem (a : Arena S) (list : Handle) (index : Nat) (item : Handle)
    (apart : Handle → Prop) (a' : Arena S) : Prop where
  sound : a'.Sound
  fresh : a.outline item = none
  gained : ∀ e k ids, a.outline list = some e → e.state = .list k ids →
    a'.outline list = some { e with state := .list k (ids.insertIdx index item) }
  kept : ∀ y e, y ≠ list → ¬ apart y → a.outline y = some e → a'.outline y = some e

theorem openItem_opens {k : S.ListClass} {ids : List Handle} {index : Nat} (sound : w.arena.Sound)
    (found : w.arena.get? list = some editor) (held : editor.state = .list k ids)
    (inside : index ≤ ids.length) :
    ∃ item w' locator s, w'.arena.locate list = .ok locator ∧
      openItem list index w = .ok item { w' with
        histories := w.noting editor.context (.insertion locator index s) } ∧ Quiet w w' ∧
      GainsItem w.arena list index item (fun _ => False) w'.arena ∧
      (∃ child, w'.arena.outline item = some child ∧ child.parent = some list ∧
        child.context = editor.context) ∧
      ∃ d, w'.arena.Shows item d ∧ d.classKey = (Language.list k).element ∧ d.Blank := by
  obtain ⟨item, w₁, created, built, d, seen, blank⟩ : ∃ item w₁,
      create (Language.list k).element editor.context w = .ok item w₁ ∧
        Built w w₁ item (Language.list k).element editor.context ∧
        ∃ d, w₁.arena.Shows item d ∧ d.Blank :=
    ⟨_, _, create_run .., created (Arena.create_made _ _ sound), Arena.create_blank _ _ sound⟩
  have outlined := Arena.outline_of_get? found
  obtain ⟨editor₁, found₁, state₁, context₁, _⟩ :=
    Arena.kept_of_outline (built.grows list _ outlined)
  obtain ⟨child, root, free, own, key⟩ := built.root
  have apart := built.grows.not_within_fresh sound.forest built.fresh outlined
  obtain ⟨w₂, attached, done, linked⟩ := attachItem_run built.sound found₁ (state₁.trans held)
    inside root free (own.trans context₁.symm) apart
  obtain ⟨child₂, there, _⟩ := Arena.get?_of_outline linked
  obtain ⟨locator, s, located, opened⟩ :=
    openItem_takes found held inside created built attached done ⟨child₂, there⟩
  have quiet := built.quiet.trans done.quiet
  rw [quiet.noting] at opened
  refine ⟨item, w₂, locator, s, located, opened, quiet, ⟨done.sound, built.fresh, ?_, ?_⟩,
    ⟨_, linked, rfl, own⟩, d, done.shows_linked built.sound root linked seen apart, ?_, blank⟩
  · intro e k' ids' isLive isState
    cases outlined.symm.trans isLive
    cases held.symm.trans isState
    exact done.here _ (built.grows list _ outlined)
  · intro y e other _ isLive
    rw [done.kept y other ?_]
    · exact built.grows y e isLive
    · rintro rfl
      rw [built.fresh] at isLive
      cases isLive
  · obtain ⟨state, held, sameKey⟩ := seen.state
    cases (Arena.state?_of_get? root).symm.trans held
    exact sameKey.symm.trans key

theorem openItem_gains {k : S.ListClass} {ids : List Handle} {index : Nat} (sound : w.arena.Sound)
    (found : w.arena.get? list = some editor) (held : editor.state = .list k ids)
    (inside : index ≤ ids.length) :
    ∃ item w', openItem list index w = .ok item w' ∧
      GainsItem w.arena list index item (fun _ => False) w'.arena := by
  obtain ⟨item, w', locator, s, _, opened, _, gains, _⟩ := openItem_opens sound found held inside
  exact ⟨item, _, opened, gains⟩

theorem openItem_below (index : Nat) (sound : w.arena.Sound) :
    Ensures (openItem list index) w (ChangedBelow w list) := by
  obtain ⟨k, ids, held, inside, _⟩ | ⟨error, refused⟩ := checkGap_cases list index w
  · obtain ⟨editor, found, state⟩ := Arena.get?_of_state? held
    obtain ⟨item, w₂, ran, gains⟩ := openItem_gains sound found state inside
    refine .of_ok ran ⟨gains.sound, fun y e isLive outside => ?_, fun e isLive => ?_⟩
    · refine gains.kept y e ?_ not_false isLive
      rintro rfl
      exact outside .here
    · cases (Arena.outline_of_get? found).symm.trans isLive
      refine ⟨_, gains.gained _ k ids isLive state, rfl, rfl, rfl, ?_⟩
      rw [show editor.blank.state = _ from state]
      rfl
  · exact .of_error (Action.bind_run_error _ refused) (.start sound list)

theorem dropItem_below (index : Nat) (sound : w.arena.Sound) :
    Ensures (dropItem list index) w (ChangedBelow w list) := by
  obtain ⟨k, ids, item, w', held, listed, ran, done, _⟩ | ⟨error, ran⟩ :=
    dropItem_cases list index sound
  · obtain ⟨editor, found, state⟩ := Arena.get?_of_state? held
    have isChild : item ∈ editor.state.children := by
      rw [state]
      exact List.mem_of_getElem? listed
    refine .of_ok ran ⟨done.sound, done.changes found (by rw [state]; rfl) fun y below => ?_⟩
    exact (sound.forest.within_of_child (Arena.links_of_get? found) isChild).trans below
  · exact .of_error ran (.start sound list)

theorem removeAt_below (index : Nat) (sound : w.arena.Sound) :
    Ensures (removeAt list index) w (ChangedBelow w list) := by
  have start := ChangedBelow.start sound list
  refine (reads_itemAt list index w).then start fun item _ => ?_
  refine (still_recording? list w).then (.lasting w list) start fun recorder w₁ _ beside => ?_
  have dropped : Ensures (dropItem list index) w₁ (ChangedBelow w list) := by
    exact (dropItem_below index (beside.arena ▸ sound)).mono
      (fun _ _ changed => changed.since beside.arena) fun _ _ changed => changed.since beside.arena
  cases recorder with
  | none => exact dropped
  | some h =>
    have still := ChangedBelow.lasting w list w w₁ beside start
    refine .bind (.ask (fun locator _ => ?_) fun _ _ => still)
    refine .bind (.ask (fun s _ => ?_) fun _ _ => still)
    exact dropped.still (.lasting w list) fun _ w₂ =>
      still_recordIfActive fun w => still_pure _ w

theorem replayInsert_below {locator : Locator} (index : Nat) (item : Snapshot)
    (sound : w.arena.Sound) (located : w.arena.find locator = .ok list) :
    Ensures (replayInsert locator index item) w (ChangedBelow w list) := by
  have start := ChangedBelow.start sound list
  refine .after_ok (ask_run located) (.ask start fun editor answered => ?_)
  have found := Arena.get_eq_ok_iff.1 answered
  refine .bind ((rebuildWith_meets restore_safe sound).mono ?_
    fun _ _ added => added.larger.below list)
  rintro x w₁ ⟨c, built⟩
  obtain ⟨k, ids, held, inside, _⟩ | ⟨error, refused⟩ := checkGap_cases list index w₁
  · obtain ⟨above, upper, state, _⟩ :=
      Arena.kept_of_outline (built.grows list _ (Arena.outline_of_get? found))
    rw [Arena.state?_of_get? upper, state] at held
    obtain ⟨w₂, attached, joined⟩ := built.joins sound found (Option.some.inj held) inside
    exact .of_ok attached joined.confined.below
  · exact .of_error (Action.bind_run_error _ refused) (built.toAdded.larger.below list)

theorem replay_below {direction : Direction} {edit : Edit} (sound : w.arena.Sound)
    (located : w.arena.find edit.locator = .ok x) :
    Ensures (replay direction edit) w (ChangedBelow w x) := by
  cases edit with
  | text =>
    cases direction <;> exact .after_ok (ask_run located) (writeToken_below _ _ false sound)
  | transition =>
    cases direction <;> exact .after_ok (ask_run located) (restoreState_below _ sound)
  | insertion l index item =>
    cases direction with
    | undo => exact .after_ok (ask_run located) (dropItem_below index sound)
    | redo => exact replayInsert_below index item sound located
  | removal l index item =>
    cases direction with
    | undo => exact replayInsert_below index item sound located
    | redo => exact .after_ok (ask_run located) (dropItem_below index sound)
  | replacement =>
    cases direction <;> exact .after_ok (ask_run located) (restore_below _ sound)

theorem GainsItem.since {index : Nat} {item : Handle}
    (gains : GainsItem w₁.arena list index item (fun _ => False) w'.arena) (other : list ≠ x)
    (isLive : w₁.arena.outline x = some e)
    (same : ∀ y, y ≠ x → w₁.arena.outline y = w.arena.outline y) :
    GainsItem w.arena list index item (· = x) w'.arena where
  sound := gains.sound
  fresh := by
    rw [← same item ?_]
    · exact gains.fresh
    · rintro rfl
      rw [gains.fresh] at isLive
      cases isLive
  gained := same list other ▸ gains.gained
  kept y e unlisted unequal isLive :=
    gains.kept y e unlisted not_false ((same y unequal).trans isLive)

theorem separate_gains {l : S.ListClass} {ids : List Handle} {index : Nat} {old : String}
    {oldItem : Option Candidate} (text : String) (sound : w.arena.Sound)
    (held : w.arena.state? x = some (.expander k (.text old oldItem)))
    (isList : w.arena.state? list = some (.list l ids)) (inside : index ≤ ids.length) :
    ∃ item w', (do
      recordTransition x "Type" (showText x text none)
      openItem list index) w = .ok item w' ∧
        GainsItem w.arena list index item (· = x) w'.arena := by
  obtain ⟨editor, found, state⟩ := Arena.get?_of_state? held
  have other : list ≠ x := by
    rintro rfl
    cases held.symm.trans isList
  obtain ⟨w₁, shown, done⟩ := showText_run text none sound held
  have changed : Confined w w₁ x := .of_rewrites done found (by rw [state]; rfl) nofun
  obtain ⟨w₂, typed, noted⟩ := recordTransition_noted "Type" sound held shown changed.touched held
  have same : ∀ y, y ≠ x → w₂.arena.outline y = w.arena.outline y :=
    fun y unequal => noted.arena ▸ done.kept y unequal not_false
  have isLive := done.here _ (Arena.outline_of_get? found)
  obtain ⟨above, upper, isState⟩ := Arena.get?_of_state? isList
  obtain ⟨above', upper', state', _⟩ :=
    Arena.kept_of_outline ((same list other).trans (Arena.outline_of_get? upper))
  obtain ⟨item, w', opened, gains⟩ :=
    openItem_gains (noted.arena ▸ done.sound) upper' (state'.trans isState) inside
  refine ⟨item, w', ?_, gains.since other (noted.arena ▸ isLive) same⟩
  rw [Action.bind_run_ok _ typed]
  exact opened

/-- The text that is typed into an item of a list ends with the character that opens another item
after it. -/
def Separates (w : Workspace S) (x : Handle) (text : String) (list : Handle) (index : Nat) : Prop :=
  ∃ k items editor separator, w.arena.state? list = some (.list k items) ∧
    items[index]? = some x ∧ w.arena.get? x = some editor ∧ editor.parent = some list ∧
    w.separatorAt? k editor.context = some separator ∧ (stripSeparator? separator text).isSome

theorem Separates.isList {text : String} {index : Nat} (separates : Separates w x text list index) :
    ∃ k items, w.arena.state? list = some (.list k items) ∧ items[index]? = some x := by
  obtain ⟨k, items, _, _, held, listed, _⟩ := separates
  exact ⟨k, items, held, listed⟩

theorem Separates.isItem {text : String} {index : Nat} (separates : Separates w x text list index) :
    ∃ editor, w.arena.get? x = some editor ∧ editor.parent = some list := by
  obtain ⟨_, _, editor, _, _, _, found, hasParent, _⟩ := separates
  exact ⟨editor, found, hasParent⟩

theorem separates_of_place {index : Nat} {separator : Char} {text : String} (sound : w.arena.Sound)
    (placed : listPlace? x w = .ok (some (list, index, separator)) w)
    (ends : (stripSeparator? separator text).isSome) : Separates w x text list index := by
  obtain ⟨_, known⟩ := (listPlace?_meets x w).ok_of placed
  obtain ⟨⟨e, found, hasParent⟩, k, items, isList, listed⟩ := known list index separator rfl
  obtain ⟨above, upper, state⟩ := Arena.get?_of_state? isList
  have child : Arena.childAt? above.state (.item index) = some x := by rw [state]; exact listed
  have place := listPlace?_below sound upper child found
  rw [state, placed] at place
  injection place with place
  obtain ⟨opener, opens, same⟩ := Option.map_eq_some_iff.1 place.symm
  cases same
  exact ⟨k, items, e, separator, isList, listed, found, hasParent, opens, ends⟩

def TypedInto (w : Workspace S) (x : Handle) (text : String) (w' : Workspace S) : Prop :=
  ChangedBelow w x w' ∨ ∃ list index item, Separates w x text list index ∧
    GainsItem w.arena list (index + 1) item (· = x) w'.arena

theorem TypedInto.lasting (w : Workspace S) (x : Handle) (text : String) :
    Lasting (TypedInto w x text) := by
  intro w₁ w₂ beside typed
  unfold TypedInto at typed ⊢
  rw [beside.arena]
  exact typed.imp (ChangedBelow.lasting w x w₁ w₂ beside) id

theorem typeSeparator_below {old : String} {oldItem : Option Candidate} (text : String)
    (sound : w.arena.Sound) (held : w.arena.state? x = some (.expander k (.text old oldItem))) :
    Action.Meets (typeSeparator x text) w
      (fun handled w' => TypedInto w x text w' ∧ (handled = false → w' = w))
      fun _ w' => TypedInto w x text w' := by
  have start : TypedInto w x text w := .inl (.start sound x)
  refine typeSeparator_rule (fun _ => start) ⟨start, fun _ => rfl⟩
    fun {list index _ committed} placed ends => ?_
  have separates : Separates w x text list index :=
    separates_of_place sound placed (by rw [ends]; rfl)
  obtain ⟨l, ids, isList, listed⟩ := separates.isList
  have begun := (beside_grouping w x).arena
  obtain ⟨item, w₁, done, gains⟩ := separate_gains committed (begun ▸ sound) (begun ▸ held)
    (begun ▸ isList) (List.getElem?_eq_some_iff.1 listed).1
  have typed : TypedInto w x text w₁ := .inr ⟨list, index, item, separates, begun ▸ gains⟩
  have grouped := asOneStep_ensures "Add item" (.lasting w x text) start (.of_ok done typed)
  exact grouped.mono (fun _ _ typed => ⟨typed, Bool.noConfusion⟩) fun _ _ typed => typed

theorem typeExpander_below (tidy : Language.Tidy S) (text : String) (sound : w.arena.Sound) :
    Ensures (typeExpander x text) w (TypedInto w x text) := by
  have start : TypedInto w x text w := .inl (.start sound x)
  have below : ∀ {w₁}, ChangedBelow w x w₁ → TypedInto w x text w₁ := .inl
  refine typeExpander_rule (fun _ => start) start (typeSeparator_below text sound)
    fun {k editor old oldItem} found state => ?_
  have ahead := scopeFor_larger sound k editor.context
  refine (askHook_enlarges ((tidy k).2.2 text) ahead.sound).mono ?_
    fun _ _ more => below ((ahead.trans more).below x)
  rintro made w₁ ⟨more, fresh⟩
  have larger := ahead.trans more
  refine ⟨fun source offered => ?_, fun _ => ?_⟩
  · exact (recordTransition_below "AutoExpand" larger (fill_below sound found larger
      (fresh source offered))).mono (fun _ _ => below) fun _ _ => below
  · exact (recordTransition_below "Type" larger (showText_below text none sound larger
      (state ▸ Arena.state?_of_get? found))).mono (fun _ _ => below) fun _ _ => below

theorem refuseShape_below (sound : w.arena.Sound) :
    Ensures (refuseShape id : Editing S Unit) w (ChangedBelow w id) := by
  refine .ask (.start sound id) fun _ _ => ?_
  exact .refuse (.start sound id)

theorem typeText_below (tidy : Language.Tidy S) (text : String) (sound : w.arena.Sound) :
    Ensures (typeText x text) w (TypedInto w x text) := by
  have below : ∀ {action : Editing S Unit}, Ensures action w (ChangedBelow w x) →
      Ensures action w (TypedInto w x text) := fun ends =>
    ends.mono (fun _ _ => .inl) fun _ _ => .inl
  refine .ask (.inl (.start sound x)) fun shape _ => ?_
  cases shape with
  | token => exact below (writeToken_below text none true sound)
  | expander => exact typeExpander_below tidy text sound
  | compound => exact below (refuseShape_below sound)
  | list => exact below (refuseShape_below sound)

theorem choose_below (tidy : Language.Tidy S) (choice : Choice) (sound : w.arena.Sound) :
    Ensures (choose x choice) w (ChangedBelow w x) := by
  refine .ask (.start sound x) fun shape _ => ?_
  cases shape with
  | token => exact writeToken_below choice.text (some choice.item) true sound
  | expander => exact chooseExpander_below tidy choice sound
  | compound => exact refuseShape_below sound
  | list => exact refuseShape_below sound

/-- The editor that a request changes. Replays find it by the place that was recorded. -/
def target? (w : Workspace S) : Request S → Option Handle
  | .typeText id _ | .typeToken id _ _ | .choose id _ | .expand id | .reset id | .paste id _
  | .restore id _ | .restoreState id _ => some id
  | .openItem list _ | .removeAt list _ => some list
  | .replay _ edit => (w.arena.find edit.locator).toOption
  | _ => none

def Edited (w : Workspace S) (request : Request S) (x : Handle) (w' : Workspace S) : Prop :=
  ChangedBelow w x w' ∨ ∃ text list index item, request = .typeText x text ∧
    Separates w x text list index ∧ GainsItem w.arena list (index + 1) item (· = x) w'.arena

theorem perform_edits {request : Request S} (tidy : Language.Tidy S) (sound : w.arena.Sound)
    (about : w.target? request = some x) : Ensures (perform request) w (Edited w request x) := by
  have below : ∀ {action : Editing S Unit}, Ensures action w (ChangedBelow w x) →
      Ensures action w (Edited w request x) := fun ends =>
    ends.mono (fun _ _ => .inl) fun _ _ => .inl
  have done : ∀ {β : Type} {action : Editing S β}, Ensures action w (ChangedBelow w x) →
      Ensures (do let _ ← action) w (ChangedBelow w x) := fun ends =>
    ends.still (.lasting w x) fun _ w' => still_pure _ w'
  cases request with
  | typeText id text =>
    cases about
    refine (typeText_below tidy text sound).mono ?_ ?_
    all_goals
      rintro _ w' (changed | ⟨list, index, item, separates, gains⟩)
      · exact .inl changed
      · exact .inr ⟨text, list, index, item, rfl, separates, gains⟩
  | typeToken id text undoable =>
    cases about
    exact below (writeToken_below text none undoable sound)
  | choose id choice =>
    cases about
    exact below (choose_below tidy choice sound)
  | expand id =>
    cases about
    exact below (done (expand_below tidy sound))
  | reset id =>
    cases about
    exact below (reset_below sound)
  | paste id s =>
    cases about
    exact below (done (paste_below s sound))
  | restore id s =>
    cases about
    exact below (restore_below s sound)
  | restoreState id state =>
    cases about
    exact below (restoreState_below state sound)
  | openItem list index =>
    cases about
    exact below (done (openItem_below index sound))
  | removeAt list index =>
    cases about
    exact below (removeAt_below index sound)
  | replay direction edit =>
    refine below (replay_below sound ?_)
    cases located : w.arena.find edit.locator with
    | ok id =>
      simp only [target?, located, Except.toOption, Option.some.injEq] at about
      rw [about]
    | error error => simp [target?, located, Except.toOption] at about
  | _ => cases about

def Continues (w : Workspace S) (request : Request S) (x list : Handle) (editor : Editor S)
    (w' : Workspace S) : Prop :=
  ∃ text index k items item, request = .typeText x text ∧ w.Separates x text list index ∧
    editor.state = .list k items ∧ w.arena.get? item = none ∧ w'.arena.outline list =
      some { editor.blank with state := .list k (items.insertIdx (index + 1) item) }

theorem beyond_below {l : Links} {z : Handle} (beyond : ¬ l.Within x y) (apart : ¬ l.Within y x)
    (below : l.Within y z) : ¬ l.Within x z :=
  fun within => (within.comparable below).elim beyond apart

theorem ChangedBelow.keeps (changed : ChangedBelow w x w') (sound : w.arena.Sound)
    (found : w.arena.get? y = some editor) (beyond : ¬ w.arena.links.Within x y)
    (apart : ¬ w.arena.links.Within y x) : w'.arena.get? y = some editor :=
  Arena.get?_of_subtree sound changed.sound found fun z e below isLive =>
    changed.changes.outside z e isLive (beyond_below beyond apart below)

theorem GainsItem.keeps {child : Editor S} {index : Nat} {item : Handle}
    (gains : GainsItem w.arena list index item (· = x) w'.arena) (sound : w.arena.Sound)
    (isChild : w.arena.get? x = some child) (hasParent : child.parent = some list)
    (found : w.arena.get? y = some editor) (apart : ¬ w.arena.links.Within y x) :
    w'.arena.get? y = some editor := by
  refine Arena.get?_of_subtree sound gains.sound found fun z e below isLive =>
    gains.kept z e ?_ ?_ isLive
  · -- the list is the parent of the item, so that what is above the list is above the item
    rintro rfl
    exact apart (.step (Arena.links_of_get? isChild) hasParent below)
  · rintro rfl
    exact apart below

/-- Whatever is done to one editor, all editors that are neither below it nor above it are just as
before, their results included. Those above it may have other results and nothing else, with one
exception: if a separator is typed into an item, its list gains a fresh item behind it. -/
theorem edits_are_confined {request : Request S} (tidy : Language.Tidy S) (reached : Reaches {} w)
    (about : w.target? request = some x) (found : w.arena.get? y = some editor)
    (beyond : ¬ w.arena.links.Within x y) :
    (¬ w.arena.links.Within y x →
      ((perform request).after w).arena.get? y = some editor) ∧
    (((perform request).after w).arena.outline y = some editor.blank ∨
      w.Continues request x y editor ((perform request).after w)) := by
  have sound : w.arena.Sound := reached.sound Arena.sound_empty
  have outlined := Arena.outline_of_get? found
  rcases ensures_iff.1 (perform_edits tidy sound about) with
    changed | ⟨text, list, index, item, isTyped, separates, gains⟩
  · exact ⟨changed.keeps sound found beyond, .inl (changed.changes.outside y _ outlined beyond)⟩
  · obtain ⟨child, isChild, hasParent⟩ := separates.isItem
    refine ⟨gains.keeps sound isChild hasParent found, ?_⟩
    by_cases isList : y = list
    · subst isList
      obtain ⟨k, items, held, _⟩ := separates.isList
      have state := Option.some.inj ((Arena.state?_of_get? found).symm.trans held)
      exact .inr ⟨text, index, k, items, item, isTyped, separates, state,
        Arena.outline_eq_none_iff.1 gains.fresh, gains.gained _ k items outlined state⟩
    · refine .inl (gains.kept y _ isList ?_ outlined)
      rintro rfl
      exact beyond .here

section

open Sample

def oneStatement : Workspace expression :=
  performAll [.create (.list ListName.semis) ⟨0, []⟩, .openItem ⟨0, 0⟩ 0,
    .create (.expander ExpanderName.expr) ⟨0, []⟩] desk

theorem reaches_oneStatement : Reaches {} oneStatement :=
  reaches_performAll _ (.beside (.refl _) rfl) (by simp [Allowed])

def semicolon : Request expression := .typeText ⟨1, 0⟩ "1;"

theorem semicolon_is_confined :
    (∃ e, oneStatement.arena.get? ⟨2, 0⟩ = some e ∧
      ((perform semicolon).after oneStatement).arena.get? ⟨2, 0⟩ = some e) ∧
    ∃ e, oneStatement.arena.get? ⟨0, 0⟩ = some e ∧
      oneStatement.Continues semicolon ⟨1, 0⟩ ⟨0, 0⟩ e
        ((perform semicolon).after oneStatement) := by
  have about : oneStatement.target? semicolon = some ⟨1, 0⟩ := rfl
  have root : ∀ {x y e}, oneStatement.arena.get? y = some e → e.place.parent = none → y ≠ x →
      ¬ oneStatement.arena.links.Within x y := by
    intro x y e found free other within
    obtain ⟨_, hasParent, _⟩ := within.parent other (Arena.links_of_get? found)
    rw [free] at hasParent
    cases hasParent
  constructor
  · refine ⟨_, rfl, (edits_are_confined expression_blind.tidy reaches_oneStatement about rfl
      (root rfl rfl (by decide))).1 fun below => ?_⟩
    exact root rfl rfl (by decide) (below.to_parent (by decide) rfl rfl)
  · refine ⟨_, rfl, (edits_are_confined expression_blind.tidy reaches_oneStatement about rfl
      (root rfl rfl (by decide))).2.resolve_left fun same => ?_⟩
    exact absurd (congrArg (Option.map (·.state.children)) same) (by decide +kernel)

end

end StructureEditor.Workspace
