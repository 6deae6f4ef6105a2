import StructureEditor.Proofs.Faultless
import StructureEditor.Proofs.Reachability
import StructureEditor.Proofs.Recording
import StructureEditor.Proofs.RoundTrip

/-! Snapshots and edits from outside. A workspace takes whatever it is given: each request ends
with an answer or a refusal, and whichever it is, the arena is sound afterwards and nothing was
recorded, save that pasting records one edit. -/
namespace StructureEditor

variable {S : Signature}

def Request.takesData : Request S → Bool
  | .rebuild .. | .rebuildAs .. | .restore .. | .restoreState .. | .paste .. | .replay .. => true
  | _ => false

variable [Language S]

namespace Workspace

variable {α β : Type} {w w' w'' : Workspace S} {id : Handle} {editor : Editor S}

theorem replay_faultless (direction : Direction) (edit : Edit) (sound : w.arena.Sound) :
    Faultless (replay direction edit) w := by
  refine replay_cases (P := fun action => Faultless action w) direction edit ?_ ?_ ?_ ?_ ?_
  · exact fun locator text item => .ask fun id _ => writeToken_faultless id text item false sound
  · exact fun locator state => .ask fun id _ =>
      restoreStateWith_faultless restore_safe restore_faultless sound
  · exact fun list index item _ => replayInsert_rule sound (fun error => ⟨error, rfl⟩)
      (fun _ => rebuildWith_faultless restore_faultless sound)
      fun _ built _ found root free here apart =>
        attachItem_faultless built.sound found root free here apart
  · exact fun list index => .ask fun id _ => dropItem_faultless id index sound
  · exact fun locator s _ => .ask fun id _ => restore_faultless w id s sound

def Unrecorded (action : Editing S α) (w : Workspace S) : Prop :=
  Ensures action w fun w' => w'.histories = w.histories

omit [Language S] in
theorem Unrecorded.ask {question : Arena S → Except Refusal α} {next : α → Editing S β}
    (rest : ∀ value, question w.arena = .ok value → Unrecorded (next value) w) :
    Unrecorded (Workspace.ask question >>= next) w := Ensures.ask rfl rest

theorem rebuild_unrecorded (s : Snapshot) (context : Context) (sound : w.arena.Sound) :
    Unrecorded (rebuild s context) w :=
  (rebuildWith_meets restore_safe sound).mono (fun _ _ ⟨_, built⟩ => built.quiet.histories)
    fun _ _ added => added.quiet.histories

theorem restoreState_unrecorded (id : Handle) (state : Display Snapshot) (sound : w.arena.Sound) :
    Unrecorded (restoreState id state) w :=
  (restoreStateWith_meets restore_safe sound state).mono
    (fun _ _ changed => changed.quiet.histories) fun _ _ changed => changed.quiet.histories

theorem restore_unrecorded (id : Handle) (s : Snapshot) (sound : w.arena.Sound) :
    Unrecorded (restore id s) w :=
  (restore_safe w id s sound).mono (fun _ _ changed => changed.quiet.histories)
    fun _ _ changed => changed.quiet.histories

theorem writeToken_unrecorded (id : Handle) (text : String) (item : Option Candidate)
    (sound : w.arena.Sound) : Unrecorded (writeToken id text item false) w := by
  refine .ask fun answer answered => ?_
  obtain ⟨k, old, oldItem⟩ := answer
  have held := Arena.token_eq_ok_iff.1 answered
  obtain ⟨w', ran, done⟩ := writeToken_quiet text item sound held
  rw [writeToken, Action.bind_run_ok _ (ask_run answered)] at ran
  exact .of_ok ran done.quiet.histories

theorem attachItem_unrecorded {list item : Handle} {index : Nat} {child : Editor S}
    (sound : w.arena.Sound) (found : w.arena.get? list = some editor)
    (root : w.arena.get? item = some child) (free : child.parent = none)
    (sameContext : child.context = editor.context) (apart : ¬ w.arena.links.Within item list) :
    Unrecorded (attachItem list index item) w := by
  obtain ⟨_, _, _, _, _, ran, done⟩ | ⟨error, ran⟩ :=
    attachItem_cases index sound found root free sameContext apart
  · exact .of_ok ran done.quiet.histories
  · exact .of_error ran rfl

theorem dropItem_unrecorded (list : Handle) (index : Nat) (sound : w.arena.Sound) :
    Unrecorded (dropItem list index) w := by
  obtain ⟨_, _, _, _, _, _, ran, done, _⟩ | ⟨error, ran⟩ := dropItem_cases list index sound
  · exact .of_ok ran done.quiet.histories
  · exact .of_error ran rfl

theorem replay_unrecorded (direction : Direction) (edit : Edit) (sound : w.arena.Sound) :
    Unrecorded (replay direction edit) w := by
  refine replay_cases (P := fun action => Unrecorded action w) direction edit ?_ ?_ ?_ ?_ ?_
  · exact fun locator text item => .ask fun id _ => writeToken_unrecorded id text item sound
  · exact fun locator state => .ask fun id _ => restoreState_unrecorded id state sound
  · intro list index item _
    refine replayInsert_rule sound (fun _ => rfl) (fun context => rebuild_unrecorded item context sound)
      fun _ built _ found root free here apart => ?_
    have same := built.quiet.histories
    exact (attachItem_unrecorded built.sound found root free here apart).mono
      (fun _ _ same' => same'.trans same) fun _ _ same' => same'.trans same
  · exact fun list index => .ask fun id _ => dropItem_unrecorded id index sound
  · exact fun locator s _ => .ask fun id _ => restore_unrecorded id s sound

def NotedOnce (w : Workspace S) (id : Handle) (w' : Workspace S) : Prop :=
  w'.histories = w.histories ∨ ∃ editor edit, w.arena.get? id = some editor ∧
    w'.histories = w.noting editor.context edit

theorem NotedOnce.added (noted : NotedOnce w' id w'') (added : Added w w')
    (found : w.arena.get? id = some editor) : NotedOnce w id w'' := by
  rcases noted with same | ⟨editor', edit, found', noted⟩
  · exact .inl (same.trans added.quiet.histories)
  · have outlined := added.grows id _ (Arena.outline_of_get? found)
    rw [Arena.outline_of_get? found', Option.some.injEq] at outlined
    have context : editor'.blank.context = editor.blank.context := by rw [outlined]
    rw [show editor'.context = editor.context from context, added.quiet.noting] at noted
    exact .inr ⟨editor, edit, found, noted⟩

theorem recordTransition_notedOnce {action : Editing S α} {k : S.ExpanderClass}
    {display : Display Handle} (description : String) (sound : w.arena.Sound)
    (held : w.arena.state? id = some (.expander k display))
    (acts : Action.Meets action w (fun _ w' => w'.arena.Sound ∧ Quiet w w' ∧
      ∃ k display, w'.arena.state? id = some (.expander k display))
      fun _ w' => w'.histories = w.histories) :
    Ensures (recordTransition id description action) w (NotedOnce w id) := by
  obtain ⟨editor, found, state⟩ := Arena.get?_of_state? held
  cases ran : action w with
  | ok value w' =>
    obtain ⟨sound', quiet, k', display', held'⟩ := acts.ok_of ran
    obtain ⟨edit, recorded⟩ :=
      recordTransition_notes description sound found state ran sound' quiet held'
    exact .of_ok recorded (.inr ⟨editor, edit, found, rfl⟩)
  | error stop w' =>
    have same := acts.stopped_of ran
    refine .after_ok (recording?_run found) ?_
    cases w.recorder? editor.context with
    | none => exact .of_error ran (.inl same)
    | some h =>
      obtain ⟨locator, located⟩ := locate_run sound.forest found
      obtain ⟨before, asked⟩ := displaySnapshot_run sound.forest held
      exact .after_ok located (.after_ok asked (.of_error (Action.bind_run_error _ ran) (.inl same)))

theorem refill_meets {content : Handle} (sound : w.arena.Sound)
    (apart : ∀ w', Cleared w w' id → ¬ w'.arena.links.Within content id) :
    Action.Meets (do clear id; let _ ← fill id content) w (fun _ w' => w'.arena.Sound ∧ Quiet w w' ∧
      ∃ k display, w'.arena.state? id = some (.expander k display))
      fun _ w' => w'.histories = w.histories := by
  refine .bind ((clear_meets sound).mono ?_ fun _ w' same => same ▸ rfl)
  intro _ w₁ cleared
  refine .bind ((fillWith_meets restore_safe cleared.sound fun _ _ _ _ => apart w₁ cleared).mono ?_ ?_)
  · rintro content' w₂ ⟨filled, _⟩
    obtain ⟨old, k, text, item, _, _, here⟩ := filled.here
    exact .pure ⟨filled.sound, cleared.quiet.trans filled.quiet, k, _, Arena.state?_of_outline here⟩
  · exact fun _ w₂ added => added.quiet.histories.trans cleared.quiet.histories

theorem pasteContent_notedOnce (id : Handle) (s : Snapshot) (sound : w.arena.Sound) :
    Ensures (pasteContent id s) w (NotedOnce w id) := by
  refine pasteContent_rule sound (fun _ => .inl rfl) fun {k editor display} found held => ?_
  have ready := added_scopeFor sound k editor.context
  have outlined := Arena.outline_of_get? found
  refine (rebuildWith_meets restore_safe ready.sound).mono ?_ ?_
  · intro content w₂ _ c built
    have before := ready.trans built.toAdded
    obtain ⟨editor₂, found₂, state₂, _⟩ := Arena.kept_of_outline (built.grows id _ outlined)
    have held₂ := (state₂.trans held) ▸ Arena.state?_of_get? found₂
    have apart : ∀ w', Cleared w₂ w' id → ¬ w'.arena.links.Within content id :=
      fun w' cleared within =>
        built.grows.not_within_fresh sound.forest built.fresh outlined (cleared.within _ _ within)
    exact ⟨.inl before.quiet.histories, (recordTransition_notedOnce "Paste" built.sound held₂
      (refill_meets built.sound apart)).mono
      (fun _ _ noted => noted.added before found) fun _ _ noted => noted.added before found⟩
  · intro stop w₂ _ added
    have same := (ready.trans added).quiet.histories
    cases stop <;> exact .inl same

theorem paste_notedOnce (id : Handle) (s : Snapshot) (sound : w.arena.Sound) :
    Ensures (paste id s) w (NotedOnce w id) := by
  refine paste_rule (fun _ => .inl rfl) (.inl rfl) (fun text item held => ?_)
    (fun {k _} text item held => ?_) fun s => pasteContent_notedOnce id s sound
  · obtain ⟨editor, found, state⟩ := Arena.get?_of_state? held
    obtain ⟨w', written, done⟩ := writeToken_run text item true sound found state
    refine .of_ok written ?_
    have same := done.quiet.histories
    dsimp only [notingText] at same
    split at same
    · split at same
      · exact .inr ⟨editor, _, found, same⟩
      · exact .inl same
    · exact .inl same
  · obtain ⟨w', ran, seen⟩ := restoreText_run restore text item sound held
    have changed := (restoreStateWith_meets restore_safe sound (.text text item)).ok_of ran
    exact recordTransition_notedOnce "Paste" sound held
      (.of_ok ran ⟨changed.sound, changed.quiet, k, _, seen⟩)

theorem pasteContent_faultless (id : Handle) (s : Snapshot) (sound : w.arena.Sound) :
    Faultless (pasteContent id s) w := by
  refine pasteContent_rule sound (fun error => ⟨error, rfl⟩) fun {k editor display} found _ => ?_
  have ready := added_scopeFor sound k editor.context
  refine (rebuildWith_faultless restore_faultless ready.sound).mono ?_ ?_
  · intro content w₂ _ c built
    refine ⟨trivial, recordTransition_faultless "Paste" ?_⟩
    refine .bind (clear_faultless built.sound) (clear_meets built.sound) fun _ w₃ cleared => ?_
    obtain ⟨k', text, item, held'⟩ := cleared.held
    refine .map (fillWith_faultless restore_safe restore_faultless cleared.sound held'
      fun _ _ _ _ within => ?_)
    exact built.grows.not_within_fresh sound.forest built.fresh (Arena.outline_of_get? found)
      (cleared.within _ _ within)
  · rintro _ w₂ ⟨error, rfl⟩ _
    trivial

theorem paste_faultless (id : Handle) (s : Snapshot) (sound : w.arena.Sound) :
    Faultless (paste id s) w := by
  exact paste_rule (fun error => ⟨error, rfl⟩) trivial
    (fun text item _ => writeToken_faultless id text item true sound)
    (fun text item _ => recordTransition_faultless "Paste"
      (restoreStateWith_faultless restore_safe restore_faultless sound))
    fun s => pasteContent_faultless id s sound

theorem perform_faultless {request : Request S} (sound : w.arena.Sound)
    (foreign : request.takesData = true) : Faultless (perform request) w := by
  cases request with
  | rebuild s context => exact .map (rebuildWith_faultless restore_faultless sound)
  | rebuildAs c s context => exact .map (rebuildAsWith_faultless restore_faultless sound)
  | restore id s => exact restore_faultless w id s sound
  | restoreState id state => exact restoreStateWith_faultless restore_safe restore_faultless sound
  | paste id s => exact .map (paste_faultless id s sound)
  | replay direction edit => exact replay_faultless direction edit sound
  | _ => cases foreign

/-- Whatever a request was given, it recorded nothing; only what was pasted may be recorded, as
one edit. -/
def NotedPaste (w : Workspace S) : Request S → Workspace S → Prop
  | .paste id _, w' => NotedOnce w id w'
  | _, w' => w'.histories = w.histories

theorem perform_notedOnce {request : Request S} (sound : w.arena.Sound)
    (foreign : request.takesData = true) : Ensures (perform request) w (NotedPaste w request) := by
  cases request with
  | rebuild s context =>
    exact Ensures.then (rebuild_unrecorded s context sound) fun _ _ same => .pure same
  | rebuildAs c s context =>
    exact Ensures.then ((rebuildAsWith_meets restore_safe sound).mono
      (fun _ _ built => built.quiet.histories) fun _ _ added => added.quiet.histories)
      fun _ _ same => .pure same
  | restore id s => exact restore_unrecorded id s sound
  | restoreState id state => exact restoreState_unrecorded id state sound
  | paste id s => exact Ensures.then (paste_notedOnce id s sound) fun _ _ noted => .pure noted
  | replay direction edit => exact replay_unrecorded direction edit sound
  | _ => cases foreign

/-- A request ended without a fault, and what it left is a forest with an exact free list in which
every cached result is the value of what is shown. -/
structure Withstands (w : Workspace S) (request : Request S) (w' : Workspace S) : Prop where
  ended : perform request w = .ok () w' ∨ ∃ error, perform request w = .error (.refused error) w'
  exact : w'.arena.Exact
  linked : ChildrenLinked w'.arena
  listed : ListedOnce w'.arena
  climbs : ClimbsEnd w'
  values : ∀ x editor, w'.arena.get? x = some editor →
    ∃ d, w'.arena.Shows x d ∧ editor.result = d.value
  noted : w.NotedPaste request w'

/-- Whatever snapshot or edit is given to a workspace, the request is answered or refused. In
either case the arena is sound, and no edit was recorded but the one of a paste. -/
theorem foreign_data_is_withstood {request : Request S} (reached : Reaches {} w)
    (foreign : request.takesData = true) : ∃ w', Withstands w request w' := by
  have before := sound_of_reached reached
  have allowed : w.Allowed request := by
    cases request <;> trivial
  have after := perform_sound before allowed
  have noted := perform_notedOnce before foreign
  have withstands : ∀ w', w'.arena.Sound →
      (perform request w = .ok () w' ∨ ∃ error, perform request w = .error (.refused error) w') →
      w.NotedPaste request w' → Withstands w request w' := fun w' sound ended noted =>
    ⟨ended, sound.exact, childrenLinked_of_forest sound.forest, listedOnce_of_forest sound.forest,
      climbsEnd_of_forest sound.forest, fun _ _ isLive => sound.result_is_value isLive, noted⟩
  cases ran : perform request w with
  | ok _ w' => exact ⟨w', withstands w' (after.ok_of ran) (.inl ran) (noted.ok_of ran)⟩
  | error stop w' =>
    obtain ⟨error, rfl⟩ := (perform_faultless before foreign).stopped_of ran
    exact ⟨w', withstands w' (after.stopped_of ran) (.inr ⟨error, ran⟩) (noted.stopped_of ran)⟩

section

open Sample

def spoiltPage : Snapshot :=
  .list (some "hooklist") [.expander (some "hook") none (some "AB") none none, .list none []]

/-- The list is empty when the second item turns out not to fit, and has its first item anew. -/
theorem spoiltPage_is_withstood :
    (perform (.restore ⟨0, 0⟩ spoiltPage)).refusal? filledHooks =
        some (.mismatch "expander" "list") ∧
      ∃ w', Withstands filledHooks (.restore ⟨0, 0⟩ spoiltPage) w' :=
  ⟨by decide +kernel, foreign_data_is_withstood reaches_filledHooks rfl⟩

end

end Workspace

end StructureEditor
