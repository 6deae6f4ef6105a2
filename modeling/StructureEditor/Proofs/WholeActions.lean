import StructureEditor.Proofs.Paused

/-! Actions that are recorded as a whole. Whatever an action does below an editor, in whatever
order, is recorded as one edit if the action goes through, and taking back the edit brings the
editor back to what it showed. Nothing is recorded of an action that is refused. -/
namespace StructureEditor

variable {S : Signature} [Language S]

namespace Workspace

variable {α : Type} {w w' w₁ : Workspace S} {h : HistoryId} {r : Registry S} {id : Handle}
  {editor : Editor S} {request : Request S}

/-- Requests that make new editors or are about editors below one editor. -/
def IsBelow (w : Workspace S) (id : Handle) : Request S → Prop
  | .create .. | .newToken .. | .newExpander .. | .rebuild .. | .rebuildAs .. => True
  | .typeText x _ | .typeToken x _ _ | .choose x _ | .expand x | .fill x _ | .reset x
  | .openItem x _ | .placeItem x _ _ | .removeAt x _ | .paste x _ | .restore x _
  | .restoreState x _ => w.arena.links.Within id x
  | _ => False

/-- From one workspace to another by requests that work below an editor, each of which may be
refused and leaves what is below the editor in order. -/
inductive Works (h : HistoryId) (r : Registry S) (id : Handle) : Workspace S → Workspace S → Prop
    where
  | refl (w : Workspace S) : Works h r id w w
  | request {w w' w'' : Workspace S} {request : Request S} : Works h r id w w' →
      w'.IsBelow id request → w'.Allowed request → (perform request).Ends w' w'' →
      OrderBelow h r w'' id → Works h r id w w''

theorem perform_stays (tidy : Language.Tidy S) (sound : w.arena.Sound)
    (mute : Mute h w) (order : OrderBelow h r w id) (isLive : w.arena.get? id = some editor)
    (below : w.IsBelow id request) (allowed : w.Allowed request) :
    Concludes (perform request) w (StaysPut w · id) := by
  have hushed : ∀ {x}, w.arena.links.Within id x → Hushed h r w id x := fun within =>
    ⟨sound, mute, within, fun _ found => ((order.below within).here found).governed⟩
  cases request with
  | create c context =>
    exact .after_ok (create_run c context w)
      (.pure ((created (Arena.create_made c context sound)).toAdded.stays sound id))
  | newToken k text context =>
    exact .after_ok (show newToken k text context w = .ok _ _ from rfl)
      (.pure ((created (Arena.made_token k text context sound)).toAdded.stays sound id))
  | newExpander k text context =>
    exact .after_ok (show newExpander k text context w = .ok _ _ from rfl)
      (.pure ((created (Arena.made_expander k text context sound)).toAdded.stays sound id))
  | rebuild s context =>
    exact .map ((rebuildWith_meets restore_safe sound).mono
      (fun _ _ ⟨_, built⟩ => built.toAdded.stays sound id) fun _ _ added _ _ => added.stays sound id)
  | rebuildAs c s context =>
    exact .map ((rebuildAsWith_meets restore_safe sound).mono
      (fun _ _ built => built.toAdded.stays sound id) fun _ _ added _ _ => added.stays sound id)
  | typeText x text => exact typeText_stays tidy text (hushed below) isLive
  | typeToken x text undoable => exact (hushed below).writes text none undoable
  | choose x choice => exact choose_stays tidy choice (hushed below)
  | expand x =>
    exact .map (expand_handled tidy (hushed below).handles sound (hushed below).placed)
  | fill x source =>
    exact .map (fill_stays (hushed below) fun _ isLive isRoot other =>
      apart_of_topOf sound (allowed other) isLive isRoot)
  | reset x => exact reset_handled (hushed below).handles sound
  | openItem list index =>
    exact .map (openItem_stays mute sound isLive (hushed below).governs fun beside =>
      absurd below beside)
  | placeItem list index source =>
    refine .map (placeItem_stays mute sound (hushed below).governs ?_ fun beside =>
      absurd below beside)
    intro _ isLive isRoot
    have outside := apart_of_topOf sound allowed isLive isRoot
    exact ⟨outside, fun within => outside (within.trans below)⟩
  | removeAt list index => exact removeAt_stays index (hushed below)
  | paste x s => exact .map (paste_stays s (hushed below))
  | restore x s => exact restore_stays s (hushed below)
  | restoreState x state => exact restoreState_stays state (hushed below)
  | _ => cases below

theorem Works.stays (works : Works h r id w w') (tidy : Language.Tidy S)
    (sound : w.arena.Sound) (mute : Mute h w) (order : OrderBelow h r w id)
    (isLive : w.arena.get? id = some editor) : StaysPut w w' id ∧ OrderBelow h r w' id := by
  induction works with
  | refl => exact ⟨.refl sound id, order⟩
  | request _ below allowed ends order' ih =>
    obtain ⟨stays, order⟩ := ih
    obtain ⟨editor', isLive', _⟩ := stays.top editor isLive
    have concludes := perform_stays tidy stays.sound (mute.quiet stays.quiet) order isLive'
      below allowed
    refine ⟨stays.trans ?_, order'⟩
    rcases ends with ⟨value, ran⟩ | ⟨error, ran⟩
    · exact concludes.ok_of ran
    · exact concludes.stopped_of ran error rfl

omit [Language S] in
theorem noting_governed (ready : Ready h w) (governs : w.contexts.Governs h r editor.context)
    (edit : Edit) : w.noting editor.context edit = w.histories.set h
      (((historyLens h).view w).record (.single edit)) := by
  rw [noting, recorder?_governed ready governs]
  rfl

theorem replacement_undone {d d' : Sketch S} {locator : Locator} (after : Snapshot)
    (description : String) (sound : w.arena.Sound) (found : w.arena.get? id = some editor)
    (led : w.arena.find locator = .ok id) (seen : w.arena.Shows id d') (conforms' : d'.Conforms)
    (conforms : d.Conforms) (key : d'.classKey = d.classKey)
    (supplied : w.contexts.Supplies editor.context d) :
    ∃ w', replay .undo (.replacement locator d.toSnapshot after description) w = .ok () w' ∧
      w'.arena.snapshot id = .ok d.toSnapshot := by
  obtain ⟨w', ran, shown⟩ :=
    restore_restores conforms w id editor d' sound found seen conforms' key supplied
  refine ⟨w', ?_, Arena.snapshot_of_shows ((restore_safe w id _ sound).ok_of ran).sound.forest shown⟩
  rw [replay, Action.bind_run_ok _ (ask_run led)]
  exact ran

theorem Works.resumed (works : Works h r id (w.pausing id) w₁) (tidy : Language.Tidy S)
    (sound : w.arena.Sound) (found : w.arena.get? id = some editor)
    (order : OrderBelow h r w id) :
    StaysPut w (w.resuming h w₁) id ∧ OrderBelow h r w₁ id := by
  have begun := pausing_run found (order.here found).governed.history
  have mute : Mute h (w.pausing id) := by
    rw [begun]
    simp [Mute, historyLens, History.pause]
  -- the pause leaves all but the history as it is
  have arena : (w.pausing id).arena = w.arena := by rw [begun]; rfl
  have contexts : (w.pausing id).contexts = w.contexts := by rw [begun]; rfl
  obtain ⟨stays, order₁⟩ := works.stays tidy (arena ▸ sound) mute
    (order.congr arena contexts) (arena ▸ found)
  rw [begun] at stays
  exact ⟨⟨stays.sound, (paused_history h w).quiet w₁ stays.quiet, stays.top, stays.place⟩, order₁⟩

theorem recorded_as_whole {action : Editing S α} {value : α} (description : String)
    (sound : w.arena.Sound) (ready : Ready h w) (found : w.arena.get? id = some editor)
    (order : OrderBelow h r w id) (stays : StaysPut w (w.resuming h w₁) id)
    (order₁ : OrderBelow h r w₁ id) (ran : action (w.pausing id) = .ok value w₁) :
    ∃ edit w' w'', replacing id description action w = .ok value w' ∧ w'.arena = w₁.arena ∧
      w'.histories = w.histories.set h
        (((historyLens h).view w).record (.single edit)) ∧
      replay .undo edit w' = .ok () w'' ∧ w''.arena.snapshot id = w.arena.snapshot id := by
  have governs := (order.here found).governed
  obtain ⟨editor', found', context, key⟩ := stays.top editor found
  obtain ⟨root, way, _, located, led, _⟩ := Arena.locate_spec sound.forest found
  obtain ⟨d, seen⟩ := Arena.exists_shows sound.forest found
  obtain ⟨d', seen'⟩ := Arena.exists_shows stays.sound.forest found'
  have before := Arena.snapshot_of_shows sound.forest seen
  have after := Arena.snapshot_of_shows stays.sound.forest seen'
  let edit : Edit := .replacement ⟨root, way⟩ d.toSnapshot d'.toSnapshot description
  let w' : Workspace S := { w.resuming h w₁ with
    histories := (w.resuming h w₁).noting editor'.context edit }
  have whole : replacing id description action w = .ok value w' :=
    replacing_ran description found governs.history (ask_run located) (ask_run before) ran found'
      (ask_run after)
  have recorded : w'.histories = w.histories.set h
      (((historyLens h).view w).record (.single edit)) := by
    have noted := stays.quiet.noting editor'.context edit
    rw [context] at noted
    simp only [w', context]
    exact noted.trans (noting_governed ready governs edit)
  have sameClass : d'.classKey = d.classKey := by
    rw [classKey_of_held seen (Arena.state?_of_get? found),
      classKey_of_held seen' (Arena.state?_of_get? found'), key]
  obtain ⟨w'', undone, restored⟩ := replacement_undone (w := w') d'.toSnapshot
    description stays.sound found' (stays.place ⟨root, way⟩ led) seen'
    (order₁.conforms stays.sound.forest seen') (order.conforms sound.forest seen) sameClass
    (order.supplies sound.forest seen (context ▸ governs.grown stays.quiet.contexts))
  exact ⟨edit, w', w'', whole, rfl, recorded, undone, restored.trans before.symm⟩

/-- Whatever an action does below an editor is recorded as one edit if the action goes through, and
taking back the edit brings the editor back to what it showed. Nothing is recorded of an action
that is refused, whatever it has done before. -/
theorem whole_action_is_one_edit {action : Editing S α} (description : String)
    (tidy : Language.Tidy S) (reached : Reaches {} w) (ready : Ready h w)
    (found : w.arena.get? id = some editor) (order : OrderBelow h r w id)
    (works : Works h r id (w.pausing id) w₁) :
    (∀ value, action (w.pausing id) = .ok value w₁ → ∃ edit w' w'',
      replacing id description action w = .ok value w' ∧ w'.arena = w₁.arena ∧
      w'.histories = w.histories.set h
        (((historyLens h).view w).record (.single edit)) ∧
      replay .undo edit w' = .ok () w'' ∧ w''.arena.snapshot id = w.arena.snapshot id) ∧
    ∀ error, action (w.pausing id) = .error (.refused error) w₁ → ∃ w',
      replacing id description action w = .error (.refused error) w' ∧ w'.arena = w₁.arena ∧
      w'.histories = w.histories := by
  have sound := sound_of_reached reached
  obtain ⟨stays, order₁⟩ := works.resumed tidy sound found order
  refine ⟨fun value ran => recorded_as_whole description sound ready found order stays order₁ ran,
    fun error ran => ?_⟩
  obtain ⟨locator, located⟩ := locate_run sound.forest found
  obtain ⟨before, asked⟩ := snapshot_run sound.forest found
  exact ⟨_, replacing_refused description found (order.here found).governed.history located asked ran,
    rfl, stays.quiet.histories⟩

section

open Sample

def addWord : Editing expression Unit := do
  let _ ← openItem ⟨0, 0⟩ 0
  typeToken ⟨1, 0⟩ "ab" true

def addAndMiss : Editing expression Unit := do
  let _ ← openItem ⟨0, 0⟩ 0
  removeAt ⟨0, 0⟩ 7

def pausedList : Workspace expression := noWords.pausing ⟨0, 0⟩

def pausedWord : Workspace expression := performAll [.openItem ⟨0, 0⟩ 0] pausedList

def pausedText : Workspace expression := performAll [.typeToken ⟨1, 0⟩ "ab" true] pausedWord

theorem reaches_pausedWord : Reaches {} pausedWord :=
  reaches_performAll _ (.beside reaches_noWords rfl) (by simp [Allowed])

theorem reaches_pausedText : Reaches {} pausedText :=
  reaches_performAll _ reaches_pausedWord (by simp [Allowed])

theorem pausedWord_order : OrderBelow 0 defaultRegistry pausedWord ⟨0, 0⟩ := by
  have orderly : Orderly 0 defaultRegistry [⟨0, 0⟩] pausedWord :=
    orderly_of_fresh (d := .list ListName.words [.token TokenName.word "" none])
      (sound_of_reached reaches_pausedWord) rfl rfl
      (Arena.shows_list.2 ⟨[⟨1, 0⟩], rfl, .cons rfl .nil⟩)
      ⟨⟨by simp [Sketch.classKey]; rfl, trivial, trivial⟩, trivial, trivial⟩ ⟨rfl, rfl, trivial⟩
      (desk_governs rfl)
  exact orderly.order _ (List.mem_singleton.2 rfl)

theorem pausedText_order : OrderBelow 0 defaultRegistry pausedText ⟨0, 0⟩ := by
  have orderly : Orderly 0 defaultRegistry [⟨0, 0⟩] pausedText :=
    orderly_of_fresh (d := .list ListName.words [.token TokenName.word "ab" none])
      (sound_of_reached reaches_pausedText) rfl rfl
      (Arena.shows_list.2 ⟨[⟨1, 0⟩], rfl, .cons rfl .nil⟩)
      ⟨⟨by simp [Sketch.classKey]; rfl, trivial, trivial⟩, trivial, trivial⟩ ⟨rfl, rfl, trivial⟩
      (desk_governs rfl)
  exact orderly.order _ (List.mem_singleton.2 rfl)

theorem addWord_works : Works 0 defaultRegistry ⟨0, 0⟩ pausedList pausedText := by
  have opens : (perform (.openItem ⟨0, 0⟩ 0)).Ends pausedList pausedWord := .inl ⟨(), rfl⟩
  have types : (perform (.typeToken ⟨1, 0⟩ "ab" true)).Ends pausedWord pausedText := .inl ⟨(), rfl⟩
  have top : pausedList.IsBelow ⟨0, 0⟩ (.openItem ⟨0, 0⟩ 0) := Links.Within.here
  have below : pausedWord.IsBelow ⟨0, 0⟩ (.typeToken ⟨1, 0⟩ "ab" true) :=
    Links.Within.step rfl rfl .here
  exact .request (.request (.refl pausedList) top trivial opens pausedWord_order) below trivial
    types pausedText_order

theorem added_word_is_one_edit :
    addWord pausedList = .ok () pausedText ∧
      ∃ edit w' w'', replacing ⟨0, 0⟩ "Add" addWord noWords = .ok () w' ∧
        w'.arena = pausedText.arena ∧
        w'.histories = noWords.histories.set 0
          (((historyLens 0).view noWords).record (.single edit)) ∧
        replay .undo edit w' = .ok () w'' ∧
        w''.arena.snapshot ⟨0, 0⟩ = noWords.arena.snapshot ⟨0, 0⟩ := by
  have ran : addWord pausedList = .ok () pausedText := rfl
  have order := noWords_orderly.order _ (List.mem_singleton.2 rfl)
  exact ⟨ran, (whole_action_is_one_edit "Add" expression_blind.tidy
    reaches_noWords rfl rfl order addWord_works).1 () ran⟩

/-- The new word stays, and nothing is recorded of it. -/
theorem refused_action_escapes :
    ∃ w', replacing ⟨0, 0⟩ "Fill" addAndMiss noWords = .error (.refused (.outOfRange 7 1)) w' ∧
      noWords.arena.snapshot ⟨0, 0⟩ = .ok (.list (some "words") []) ∧
      w'.arena.snapshot ⟨0, 0⟩ = .ok (.list (some "words") [.token (some "word") "" none none]) ∧
      w'.histories = noWords.histories := by
  refine ⟨_, Action.run_of_refusal? (by decide +kernel), rfl, rfl, ?_⟩
  exact (Histories.set_set ..).trans (Histories.set_get ..)

end

end Workspace

end StructureEditor
