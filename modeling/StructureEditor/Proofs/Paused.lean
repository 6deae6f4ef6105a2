import StructureEditor.Proofs.Roots
import StructureEditor.Proofs.Sessions

/-! What is done below an editor while its history is paused. Nothing is recorded of it, and the
editor stays where it is, so that what was recorded of it can be found again. -/
namespace StructureEditor.Workspace

variable {S : Signature} {α : Type} {w w' w'' : Workspace S} {h : HistoryId} {r : Registry S}
  {id x : Handle} {editor : Editor S} {context : Context}

def Mute (h : HistoryId) (w : Workspace S) : Prop := ((historyLens h).view w).active = false

theorem Mute.quiet (mute : Mute h w) (quiet : Quiet w w') : Mute h w' := by
  rw [Mute, view_of_histories quiet.histories]
  exact mute

theorem Mute.unheard (mute : Mute h w) (governs : w.contexts.Governs h r context) :
    Unheard w context := by
  rw [Unheard, recorder?, governs.history, Option.filter_some]
  exact if_neg (Bool.eq_false_iff.1 mute)

variable [Language S]

theorem recordTransition_unheard (description : String) (action : Editing S α)
    (found : w.arena.get? id = some editor) (unheard : Unheard w editor.context) :
    recordTransition id description action w = action w := by
  rw [recordTransition, Action.bind_run_ok _ (recording?_run found),
    show w.recorder? _ = none from unheard]

omit [Language S] in
theorem recordIfActive_unheard (make : Editing S Edit) (found : w.arena.get? id = some editor)
    (unheard : Unheard w editor.context) : recordIfActive id make w = .ok () w := by
  rw [recordIfActive, Action.bind_run_ok _ (recording?_run found),
    show w.recorder? _ = none from unheard]
  rfl

omit [Language S] in
theorem asOneStep_mute (description : String) (action : Editing S α) (mute : Mute h w)
    (found : w.arena.get? id = some editor) (governs : w.contexts.Governs h r editor.context) :
    asOneStep id description action w = action w := by
  rw [asOneStep, Action.bind_run_ok _ (historyFor?_run found), governs.history]
  dsimp only
  exact HistoryLens.grouped_joins description action (by simp [show _ = false from mute])

/-- An editor is still of its class and in its context, and whatever led to it leads to it. -/
structure StaysPut (w w' : Workspace S) (id : Handle) : Prop where
  sound : w'.arena.Sound
  quiet : Quiet w w'
  top : ∀ editor, w.arena.get? id = some editor → ∃ editor', w'.arena.get? id = some editor' ∧
    editor'.context = editor.context ∧ editor'.state.classKey = editor.state.classKey
  place : ∀ locator, w.arena.find locator = .ok id → w'.arena.find locator = .ok id

theorem StaysPut.refl (sound : w.arena.Sound) (id : Handle) : StaysPut w w id :=
  ⟨sound, .refl w, fun editor found => ⟨editor, found, rfl, rfl⟩, fun _ found => found⟩

theorem StaysPut.trans (first : StaysPut w w' id) (second : StaysPut w' w'' id) :
    StaysPut w w'' id where
  sound := second.sound
  quiet := first.quiet.trans second.quiet
  top editor found := by
    obtain ⟨editor', found', context, key⟩ := first.top editor found
    obtain ⟨editor'', found'', context', key'⟩ := second.top editor' found'
    exact ⟨editor'', found'', context'.trans context, key'.trans key⟩
  place locator found := second.place locator (first.place locator found)

theorem Confined.stays (changed : Confined w w' id) (sound : w.arena.Sound) : StaysPut w w' id where
  sound := changed.sound
  quiet := changed.quiet
  top editor found := by
    obtain ⟨editor', found', kept⟩ := changed.changes.live found
    exact ⟨editor', found', kept.1, kept.2.2.2⟩
  place _ found := changed.changes.follow sound.forest found

theorem Added.stays (added : Added w w') (sound : w.arena.Sound) (id : Handle) : StaysPut w w' id :=
  (added.confined id).stays sound

theorem Confined.stays_above (changed : Confined w w' x) (sound : w.arena.Sound)
    (within : w.arena.links.Within id x) : StaysPut w w' id := by
  cases inside : w.arena.get? x with
  | some editor =>
    exact Confined.stays ⟨changed.sound, changed.quiet,
      changed.changes.widen sound.forest within (Arena.outline_of_get? inside)⟩ sound
  | none =>
    cases within with
    | here => exact changed.stays sound
    | step found =>
      obtain ⟨editor, isLive, _⟩ := Arena.get?_of_links found
      rw [inside] at isLive
      cases isLive

/-- Nothing above an editor changes but that a list gets another item behind the one that the
editor is below. -/
theorem stays_of_kept {P : Handle → Prop} (sound : w.arena.Sound) (sound' : w'.arena.Sound)
    (quiet : Quiet w w')
    (top : ∀ editor, w.arena.get? id = some editor → ∃ editor', w'.arena.get? id = some editor' ∧
      editor'.context = editor.context ∧ editor'.state.classKey = editor.state.classKey)
    (kept : ∀ y e, ¬ w.arena.links.Within id y → w.arena.links.Within y id → ¬ P y →
      w.arena.outline y = some e → w'.arena.outline y = some e)
    (special : ∀ y editor position child, ¬ w.arena.links.Within id y → P y →
      w.arena.get? y = some editor → Arena.childAt? editor.state position = some child →
      w.arena.links.Within child id →
      ∃ state, w'.arena.state? y = some state ∧ Arena.childAt? state position = some child) :
    StaysPut w w' id := by
  refine ⟨sound', quiet, top, fun locator led => Arena.follow_of_above sound.forest led ?_⟩
  intro y editor position child above found held below
  by_cases isSpecial : P y
  · exact special y editor position child above isSpecial found held below
  · have within := (sound.forest.within_of_child (Arena.links_of_get? found)
      (Arena.child_of_childAt? held)).trans below
    exact ⟨editor.blank.state, Arena.state?_of_outline
      (kept y _ above within isSpecial (Arena.outline_of_get? found)), held⟩

structure Hushed (h : HistoryId) (r : Registry S) (w : Workspace S) (id x : Handle) : Prop where
  sound : w.arena.Sound
  mute : Mute h w
  within : w.arena.links.Within id x
  governs : ∀ editor, w.arena.get? x = some editor → w.contexts.Governs h r editor.context

theorem Hushed.still (hushed : Hushed h r w id x) : StaysPut w w id := .refl hushed.sound id

theorem Hushed.writes (hushed : Hushed h r w id x) (text : String) (item : Option Candidate)
    (undoable : Bool) : Concludes (writeToken x text item undoable) w (StaysPut w · id) := by
  cases answered : w.arena.token x with
  | error error =>
    exact .of_error (Action.bind_run_error _ (Action.ask_run_error answered)) fun _ _ => hushed.still
  | ok answer =>
    obtain ⟨k, old, oldItem⟩ := answer
    obtain ⟨editor, found, state⟩ := Arena.get?_of_state? (Arena.token_eq_ok_iff.1 answered)
    obtain ⟨w', ran, done⟩ := writeToken_run text item undoable hushed.sound found state
    have silent : w.notingText x editor old text oldItem item undoable = w.histories := by
      have unheard : w.recorder? editor.context = none :=
        hushed.mute.unheard (hushed.governs editor found)
      simp only [notingText, noting, unheard, ite_self]
      split <;> rfl
    rw [silent] at done
    have confined := Confined.of_rewrites done found (by rw [state]; rfl) fun _ => False.elim
    exact .of_ok ran (confined.stays_above hushed.sound hushed.within)

theorem Hushed.handles (hushed : Hushed h r w id x) : Handles w x (StaysPut w · id) where
  added added := added.stays hushed.sound id
  transition description action held added acts := by
    obtain ⟨editor, found, _⟩ := Arena.get?_of_state? held
    obtain ⟨editor₁, found₁, _, here, _⟩ :=
      Arena.kept_of_outline (added.grows x _ (Arena.outline_of_get? found))
    have here : editor₁.context = editor.context := here
    have unheard := (hushed.mute.quiet added.quiet).unheard
      (here ▸ (hushed.governs editor found).grown added.quiet.contexts)
    rw [Concludes, Action.Meets, recordTransition_unheard description _ found₁ unheard]
    refine acts.mono ?_ ?_
    · exact fun _ _ changed => changed.stays_above hushed.sound hushed.within
    · exact fun _ _ added error refused => (added error refused).stays hushed.sound id

theorem Hushed.placed (hushed : Hushed h r w id x) : Placed h r w x :=
  hushed.governs

theorem choose_stays (tidy : Language.Tidy S) (choice : Choice) (hushed : Hushed h r w id x) :
    Concludes (choose x choice) w (StaysPut w · id) := by
  refine Concludes.ask hushed.still fun shape _ => ?_
  cases shape with
  | token => exact hushed.writes choice.text (some choice.item) true
  | expander => exact chooseExpander_handled tidy choice hushed.handles hushed.sound hushed.placed
  | compound | list => exact refuseShape_concludes hushed.still

theorem paste_stays (s : Snapshot) (hushed : Hushed h r w id x) :
    Concludes (paste x s) w (StaysPut w · id) :=
  paste_concludes s hushed.handles hushed.sound hushed.placed
    fun text item => hushed.writes text item true

theorem restore_stays (s : Snapshot) (hushed : Hushed h r w id x) :
    Concludes (restore x s) w (StaysPut w · id) :=
  (restore_safe w x s hushed.sound).mono
    (fun _ _ changed => changed.stays_above hushed.sound hushed.within)
    fun _ _ changed _ _ => changed.stays_above hushed.sound hushed.within

theorem restoreState_stays (state : Display Snapshot) (hushed : Hushed h r w id x) :
    Concludes (restoreState x state) w (StaysPut w · id) :=
  (restoreStateWith_meets restore_safe hushed.sound state).mono
    (fun _ _ changed => changed.stays_above hushed.sound hushed.within)
    fun _ _ changed _ _ => changed.stays_above hushed.sound hushed.within

theorem Filled.stays {source content : Handle} (filled : Filled w w' x source content)
    (sound : w.arena.Sound) (within : w.arena.links.Within id x)
    (outside : ¬ w.arena.links.Within source x) : StaysPut w w' id := by
  have notAbove : ∀ y, w.arena.links.Within y id → ¬ w.arena.links.Within source y :=
    fun y below within' => outside (within'.trans (below.trans within))
  refine stays_of_kept (P := fun _ => False) sound filled.sound filled.quiet ?_ ?_ nofun
  · intro editor found
    by_cases same : id = x
    · subst same
      obtain ⟨old, k, text, item, found', state, here⟩ := filled.here
      cases found.symm.trans found'
      obtain ⟨editor', isLive, blank⟩ := Arena.get?_of_outline here
      have context : editor'.blank.context = editor.blank.context := by rw [blank]
      have state' : editor'.blank.state = .expander k (.expanded content) := by rw [blank]
      exact ⟨editor', isLive, context, by
        rw [show editor'.state = _ from state', state]
        rfl⟩
    · obtain ⟨editor', isLive, state, context, _⟩ :=
        Arena.kept_of_outline (filled.kept id _ (Arena.outline_of_get? found) same (notAbove id .here))
      exact ⟨editor', isLive, context, congrArg EditorState.classKey state⟩
  · intro y e above below _ isLive
    refine filled.kept y e isLive ?_ (notAbove y below)
    rintro rfl
    exact above within

theorem fill_stays {source : Handle} (hushed : Hushed h r w id x)
    (apart : ∀ e, w.arena.get? source = some e → e.parent = none → source ≠ x →
      ¬ w.arena.links.Within source x) : Concludes (fill x source) w (StaysPut w · id) := by
  have outside : Action.Meets (fill x source) w (fun _ _ => ¬ w.arena.links.Within source x)
      fun _ _ => True :=
    fillWith_rule apart (fun _ => trivial) fun _ _ _ _ outside =>
      .always (fun _ _ => .always (fun _ _ => outside) fun _ _ => trivial) fun _ _ => trivial
  refine (Action.Meets.and (fillWith_meets restore_safe hushed.sound apart) outside).mono ?_ ?_
  · exact fun _ _ ⟨⟨filled, _⟩, outside⟩ => filled.stays hushed.sound hushed.within outside
  · exact fun _ _ ⟨added, _⟩ _ _ => added.stays hushed.sound id

theorem stays_of_attached {w₁ : Workspace S} {k : S.ListClass} {ids : List Handle}
    {list source item : Handle} {index : Nat} {above : Editor S} (sound : w.arena.Sound)
    (found : w.arena.get? list = some editor) (state : editor.state = .list k ids)
    (found₁ : w₁.arena.get? list = some above) (same : above.blank = editor.blank)
    (quiet : Quiet w w₁) (kept : ∀ y e, w.arena.outline y = some e →
      ¬ w.arena.links.Within source y → y ≠ item ∧ w₁.arena.outline y = some e)
    (done : Rewrites w₁ w' list (.list k (ids.insertIdx index item)) (· = item))
    (outside : ¬ w.arena.links.Within source id)
    (behind : ¬ w.arena.links.Within id list → ∀ i c, ids[i]? = some c →
      w.arena.links.Within c id → i < index) : StaysPut w w' id := by
  have here := done.here _ (Arena.outline_of_get? found₁)
  have still : ∀ y e, y ≠ list → ¬ w.arena.links.Within source y → w.arena.outline y = some e →
      w'.arena.outline y = some e := by
    intro y e other apart isLive
    obtain ⟨notItem, isLive₁⟩ := kept y e isLive apart
    exact (done.kept y other notItem).trans isLive₁
  refine stays_of_kept (P := (· = list)) sound done.sound (quiet.trans done.quiet) ?_ ?_ ?_
  · intro e isLive
    by_cases isList : id = list
    · subst isList
      cases found.symm.trans isLive
      obtain ⟨e', isLive', blank⟩ := Arena.get?_of_outline here
      have context : e'.blank.context = editor.blank.context := by rw [blank, same]
      have state' : e'.blank.state = .list k (ids.insertIdx index item) := by rw [blank]
      exact ⟨e', isLive', context, by
        rw [show e'.state = _ from state', state]
        rfl⟩
    · obtain ⟨e', isLive', state', context, _⟩ :=
        Arena.kept_of_outline (still id _ isList outside (Arena.outline_of_get? isLive))
      exact ⟨e', isLive', context, congrArg EditorState.classKey state'⟩
  · exact fun y e _ below other isLive =>
      still y e other (fun within => outside (within.trans below)) isLive
  · rintro y e position child above rfl isLive held below
    cases found.symm.trans isLive
    refine ⟨_, Arena.state?_of_outline here, ?_⟩
    rw [state] at held
    cases position with
    | item i =>
      have listed : ids[i]? = some child := held
      have before := behind above i child listed below
      simp only [Arena.childAt?, List.getElem?_insertIdx_of_lt before, listed]
    | _ => cases held

theorem placeItem_stays {list source : Handle} {index : Nat} (mute : Mute h w)
    (sound : w.arena.Sound)
    (governs : ∀ editor, w.arena.get? list = some editor → w.contexts.Governs h r editor.context)
    (apart : ∀ e, w.arena.get? source = some e → e.parent = none →
      ¬ w.arena.links.Within source list ∧ ¬ w.arena.links.Within source id)
    (behind : ¬ w.arena.links.Within id list → ∀ k ids i c,
      w.arena.state? list = some (.list k ids) → ids[i]? = some c → w.arena.links.Within c id →
      i < index) : Concludes (placeItem list index source) w (StaysPut w · id) := by
  refine placeItem_rule apart (fun _ _ _ => .refl sound id) fun {k ids editor e} found state inside
    isLive free outside => ?_
  refine (relocateWith_meets restore_safe sound).mono ?_ fun _ _ added _ _ => added.stays sound id
  intro item w₁ relocated
  obtain ⟨_, above, fetched⟩ :=
    fetched_of_relocated sound relocated found isLive free outside.1
  obtain ⟨w₂, ran, done, _⟩ := fetched.attaches state inside
  obtain ⟨above₂, found₂, _, context₂⟩ := done.live fetched.found
  have through := fetched.quiet.trans done.quiet
  have unheard : Unheard w₂ above₂.context := by
    rw [show above₂.context = editor.context from context₂.trans fetched.context_eq]
    exact (mute.quiet through).unheard ((governs editor found).grown through.contexts)
  exact .after_ok ran (.after_ok (recordIfActive_unheard _ found₂ unheard)
    (.pure (stays_of_attached sound found state fetched.found fetched.same fetched.quiet
      fetched.kept done outside.2 fun above i c listed below =>
        behind above k ids i c (state ▸ Arena.state?_of_get? found) listed below)))

theorem openItem_stays {list : Handle} {index : Nat} (mute : Mute h w) (sound : w.arena.Sound)
    (isLive : w.arena.get? id = some editor)
    (governs : ∀ editor, w.arena.get? list = some editor → w.contexts.Governs h r editor.context)
    (behind : ¬ w.arena.links.Within id list → ∀ k ids i c,
      w.arena.state? list = some (.list k ids) → ids[i]? = some c → w.arena.links.Within c id →
      i < index) : Concludes (openItem list index) w (StaysPut w · id) := by
  obtain ⟨k, ids, held, inside, ran⟩ | ⟨error, ran⟩ := checkGap_cases list index w
  · obtain ⟨above, found, state⟩ := Arena.get?_of_state? held
    obtain ⟨item, w₁, opened, made⟩ : ∃ item w₁,
        create (Language.list k).element above.context w = .ok item w₁ ∧
          Built w w₁ item (Language.list k).element above.context :=
      ⟨_, _, create_run .., created (Arena.create_made _ _ sound)⟩
    have outlined := Arena.outline_of_get? found
    obtain ⟨above', found', state', context, _⟩ :=
      Arena.kept_of_outline (made.grows list _ outlined)
    have notAbove : ∀ {y e}, w.arena.outline y = some e → ¬ w₁.arena.links.Within item y :=
      made.grows.not_within_fresh sound.forest made.fresh
    have governs₁ : ∀ e, w₁.arena.get? list = some e → w₁.contexts.Governs h r e.context := by
      intro e isLive
      cases found'.symm.trans isLive
      exact (context : above'.context = above.context) ▸
        (governs above found).grown made.quiet.contexts
    have placed : Concludes (placeItem list index item) w₁ (StaysPut w₁ · id) := by
      refine placeItem_stays (mute.quiet made.quiet) made.sound governs₁ ?_ ?_
      · exact fun _ _ _ => ⟨notAbove outlined, notAbove (Arena.outline_of_get? isLive)⟩
      · intro beside k' ids' i c held' listed below
        have isState := Option.some.inj ((Arena.state?_of_get? found').symm.trans held')
        have wasHeld : w.arena.state? list = some (.list k' ids') :=
          (Arena.state?_of_get? found).trans (congrArg some ((state'.symm.trans isState)))
        refine behind (fun within => beside (made.grows.within within)) k' ids' i c wasHeld listed ?_
        by_contra outside
        exact (made.grows.changes c).still_outside sound.forest outside
          (Arena.outline_of_get? isLive) below
    have stays := made.toAdded.stays sound id
    exact .after_ok ran (.after_ok (ask_run (Arena.list_eq_ok_iff.2 held))
      (.after_ok (lookup_run found) (.after_ok opened (placed.mono
        (fun _ _ placed => stays.trans placed)
        fun _ _ placed error refused => stays.trans (placed error refused)))))
  · exact .of_error (Action.bind_run_error _ ran) fun _ _ => .refl sound id

theorem removeAt_stays (index : Nat) (hushed : Hushed h r w id x) :
    Concludes (removeAt x index) w (StaysPut w · id) := by
  obtain ⟨k, ids, item, held, listed, ran⟩ | ⟨error, ran⟩ := itemAt_cases x index w
  · obtain ⟨editor, found, state⟩ := Arena.get?_of_state? held
    obtain ⟨w', dropped, done, _⟩ := dropItem_run hushed.sound held listed
    have isChild : item ∈ editor.state.children := by
      rw [state]
      exact List.mem_of_getElem? listed
    have changed : Confined w w' x := .of_rewrites done found (by rw [state]; rfl) fun y below =>
      (hushed.sound.forest.within_of_child (Arena.links_of_get? found) isChild).trans below
    have unheard : w.recorder? editor.context = none :=
      hushed.mute.unheard (hushed.governs editor found)
    refine .after_ok ran (.after_ok (recording?_run found) ?_)
    rw [unheard]
    exact .of_ok dropped (changed.stays_above hushed.sound hushed.within)
  · exact .of_error (Action.bind_run_error _ ran) fun _ _ => hushed.still

theorem Rewrites.links {state : EditorState S} (done : Rewrites w w' x state fun _ => False)
    (found : w.arena.get? x = some editor) (children : state.children = editor.state.children) :
    w'.arena.links = w.arena.links := by
  funext y
  rw [Arena.links_eq_outline, Arena.links_eq_outline]
  by_cases same : y = x
  · subst same
    rw [done.here _ (Arena.outline_of_get? found), Arena.outline_of_get? found]
    simp only [Option.map_some, Editor.place, Editor.blank, children]
  · rw [done.kept y same not_false]

omit [Language S] in
theorem place_of_item {kl : S.ListClass} {items : List Handle} {list c : Handle} {i index : Nat}
    (forest : w.arena.links.Forest) (isList : w.arena.state? list = some (.list kl items))
    (listed : items[index]? = some x) (within : w.arena.links.Within id x)
    (beside : ¬ w.arena.links.Within id list) (there : items[i]? = some c)
    (below : w.arena.links.Within c id) : i = index := by
  obtain ⟨above, aboveFound, state⟩ := Arena.get?_of_state? isList
  have placed := Arena.links_of_get? aboveFound
  have isItem : c ∈ above.state.children := state ▸ List.mem_of_getElem? there
  have isChild : x ∈ above.state.children := state ▸ List.mem_of_getElem? listed
  obtain ⟨_, childPlaced, hasParent⟩ := forest.linked placed isChild
  have itself : x = id := by
    by_contra other
    exact beside (within.to_parent other childPlaced hasParent)
  subst itself
  have same : c = x := by
    by_contra different
    exact forest.siblings_apart placed isItem isChild different below .here
  subst same
  have distinct := forest.distinct placed
  rw [Editor.place, state] at distinct
  exact (List.getElem?_inj (List.getElem?_eq_some_iff.1 there).1 distinct).1
    (there.trans listed.symm)

/-- The text before a separator stays, and a fresh item follows. Where the list stands above the
editor, the item comes behind the editor. -/
theorem separate_stays {k : S.ExpanderClass} {kl : S.ListClass} {old : String}
    {oldItem : Option Candidate} {list : Handle} {items : List Handle} {index : Nat}
    (text : String) (hushed : Hushed h r w id x) (isLive : w.arena.get? id = some editor)
    (held : w.arena.state? x = some (.expander k (.text old oldItem)))
    (isList : w.arena.state? list = some (.list kl items)) (listed : items[index]? = some x) :
    Concludes (do
      recordTransition x "Type" (showText x text none)
      openItem list (index + 1)) w (StaysPut w · id) := by
  have sound := hushed.sound
  obtain ⟨child, found, state⟩ := Arena.get?_of_state? held
  obtain ⟨above, aboveFound, isState⟩ := Arena.get?_of_state? isList
  have isChild : x ∈ above.state.children := isState ▸ List.mem_of_getElem? listed
  have governs := hushed.governs child found
  have shared : child.context = above.context :=
    sound.shared list above aboveFound (by rw [isState]; rfl) x isChild child found
  obtain ⟨w₁, shown, done⟩ := showText_run text none sound held
  have typed : recordTransition x "Type" (showText x text none) w = .ok () w₁ :=
    (recordTransition_unheard "Type" _ found (hushed.mute.unheard governs)).trans shown
  have changed : Confined w w₁ x := .of_rewrites done found (by rw [state]; rfl) nofun
  have stays := changed.stays_above sound hushed.within
  have links : w₁.arena.links = w.arena.links := done.links found (by rw [state]; rfl)
  have notText : list ≠ x := by
    rintro rfl
    cases held.symm.trans isList
  have outlined := (done.kept list notText nofun).trans (Arena.outline_of_get? aboveFound)
  obtain ⟨editor₁, isLive₁, _⟩ := stays.top editor isLive
  have governs₁ : ∀ e, w₁.arena.get? list = some e → w₁.contexts.Governs h r e.context := by
    intro e isLive
    have blank := Option.some.inj ((Arena.outline_of_get? isLive).symm.trans outlined)
    have context : e.blank.context = above.blank.context := by rw [blank]
    have context : e.context = child.context := context.trans shared.symm
    exact context ▸ governs.grown stays.quiet.contexts
  refine .after_ok typed ((openItem_stays (hushed.mute.quiet stays.quiet) stays.sound isLive₁
    governs₁ ?_).mono (fun _ _ placed => stays.trans placed)
      fun _ _ placed error refused => stays.trans (placed error refused))
  intro beside k' ids i c held' there below
  rw [links] at beside below
  have same := held'.symm.trans (Arena.state?_of_outline outlined)
  rw [show above.blank.state = .list kl items from isState] at same
  cases same
  have place := place_of_item sound.forest isList listed hushed.within beside there below
  omega

theorem typeSeparator_stays {k : S.ExpanderClass} {old : String} {oldItem : Option Candidate}
    (text : String) (hushed : Hushed h r w id x) (isLive : w.arena.get? id = some editor)
    (held : w.arena.state? x = some (.expander k (.text old oldItem))) :
    Action.Meets (typeSeparator x text) w
      (fun handled w' => StaysPut w w' id ∧ (handled = false → w' = w))
      (OnRefusal (StaysPut w · id)) := by
  refine typeSeparator_rule (fun _ _ _ => hushed.still) ⟨hushed.still, fun _ => rfl⟩
    fun {list index separator committed} placed _ => ?_
  obtain ⟨_, known⟩ := (listPlace?_meets x w).ok_of placed
  obtain ⟨⟨child, found, _⟩, kl, items, isList, isThere⟩ := known list index separator rfl
  have separated := separate_stays committed hushed isLive held isList isThere
  rw [Action.Meets, asOneStep_mute "Add item" _ hushed.mute found (hushed.governs child found)]
  exact separated.mono (fun _ _ stays => ⟨stays, Bool.noConfusion⟩) fun _ _ stays => stays

theorem typeText_stays (tidy : Language.Tidy S) (text : String) (hushed : Hushed h r w id x)
    (isLive : w.arena.get? id = some editor) :
    Concludes (typeText x text) w (StaysPut w · id) := by
  refine Concludes.ask hushed.still fun shape _ => ?_
  cases shape with
  | token => exact hushed.writes text none true
  | expander =>
    exact typeExpander_handled tidy text hushed.handles hushed.sound hushed.placed
      fun _ _ _ held => typeSeparator_stays text hushed isLive held
  | compound | list => exact refuseShape_concludes hushed.still

end StructureEditor.Workspace
