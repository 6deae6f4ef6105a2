import StructureEditor.Proofs.Operations.Transition

/-! Actions that never end in a fault. Restoring is one of them, whatever it is given: an editor
is cleared before it is filled, and what is hung somewhere is a root. -/
namespace StructureEditor.Workspace

variable {S : Signature} {α β : Type} {w w' : Workspace S} {id : Handle}

def Faultless (action : Editing S α) (w : Workspace S) : Prop :=
  Action.Meets action w (fun _ _ => True) fun stop _ => ∃ error, stop = .refused error

theorem Faultless.of_ok {action : Editing S α} {value : α} (ran : action w = .ok value w') :
    Faultless action w := Action.Meets.of_ok ran trivial

theorem Faultless.refuse {error : Refusal} : Faultless (Action.refuse error : Editing S α) w :=
  Action.Meets.refuse ⟨error, rfl⟩

theorem Faultless.bind {action : Editing S α} {next : α → Editing S β}
    {ok : α → Workspace S → Prop} {stopped : Stop → Workspace S → Prop}
    (first : Faultless action w) (meets : Action.Meets action w ok stopped)
    (rest : ∀ value w', ok value w' → Faultless (next value) w') :
    Faultless (action >>= next) w :=
  Action.Meets.bind ((Action.Meets.and first meets).mono (fun value w' both => rest value w' both.2)
    fun _ _ both => both.1)

theorem Faultless.after_ok {action : Editing S α} {next : α → Editing S β} {value : α}
    (ran : action w = .ok value w') (rest : Faultless (next value) w') :
    Faultless (action >>= next) w := Action.Meets.after_ok ran rest

theorem Faultless.ask {question : Workspace S → Except Refusal α} {next : α → Editing S β}
    (rest : ∀ value, question w = .ok value → Faultless (next value) w) :
    Faultless (Action.ask question >>= next) w :=
  Action.Meets.bind (.ask rest fun error _ => ⟨error, rfl⟩)

theorem Faultless.map {action : Editing S α} {f : α → β} (faultless : Faultless action w) :
    Faultless (do return f (← action)) w :=
  Action.Meets.bind (faultless.mono (fun _ _ _ => .pure trivial) fun _ _ refused => refused)

theorem unrecorded_faultless {action : Editing S α} (context : Context)
    (faultless : ∀ start : Workspace S, start.arena = w.arena → Faultless action start) :
    Faultless (unrecorded context action) w := by
  obtain ⟨start, finish, paused, ran⟩ := unrecorded_run context action w
  rw [Faultless, Action.Meets, ran]
  exact Action.Meets.ensuring (faultless start paused.arena)

variable [Language S] {restore : Restorer S} {s : Snapshot} {context : Context} {c : ClassKey S}
  {editor : Editor S}

def Restorer.Faultless (restore : Restorer S) : Prop :=
  ∀ w id s, w.arena.Sound → Workspace.Faultless (restore id s) w

theorem rebuildAsWith_faultless (faultless : restore.Faultless) (sound : w.arena.Sound) :
    Faultless (rebuildAsWith restore c s context) w := by
  have made := created (w := w) (Arena.create_made c context sound)
  refine .after_ok (create_run c context w) (Action.Meets.bind (.attempt (.mono
    (unrecorded_faultless context fun start same => faultless start _ s (same ▸ made.sound)) ?_ ?_)))
  · exact fun _ _ _ => .pure trivial
  · rintro stop w' ⟨error, rfl⟩
    exact .after_ok (dispose_run _ w') (.refuse ⟨error, rfl⟩)

theorem rebuildWith_faultless (faultless : restore.Faultless) (sound : w.arena.Sound) :
    Faultless (rebuildWith restore s context) w := by
  unfold rebuildWith
  split
  · exact .refuse
  · refine .ask fun registry _ => ?_
    cases registry.lookup _ with
    | error error => exact .refuse
    | ok c => exact rebuildAsWith_faultless faultless sound

theorem relocateWith_faultless (faultless : restore.Faultless) (sound : w.arena.Sound) :
    Faultless (relocateWith restore id context) w := by
  refine .ask fun editor _ => ?_
  split
  · exact .pure trivial
  · cases editor.parent with
    | some p => exact .refuse
    | none =>
      refine .ask fun s _ => Action.Meets.bind
        ((rebuildAsWith_faultless faultless sound).mono ?_ fun _ _ refused => refused)
      exact fun m w' _ => .after_ok (dispose_run id w') (.pure trivial)

theorem fillWith_faultless {k : S.ExpanderClass} {text : String} {item : Option Candidate}
    {source : Handle} (safe : restore.Safe) (faultless : restore.Faultless) (sound : w.arena.Sound)
    (held : w.arena.state? id = some (.expander k (.text text item)))
    (apart : ∀ e, w.arena.get? source = some e → e.parent = none → source ≠ id →
      ¬ w.arena.links.Within source id) :
    Faultless (fillWith restore id source) w := by
  refine .after_ok (requireTextMode_run .expanding held) (.ask fun e answered => ?_)
  have isLive := Arena.get_eq_ok_iff.1 answered
  obtain ⟨old, found, state⟩ := Arena.get?_of_state? held
  cases attached : e.parent with
  | some p => exact .refuse
  | none =>
    by_cases itself : source = id
    · simp only [itself, BEq.rfl, Bool.or_true, if_true]
      exact .refuse
    have outside := apart e isLive attached itself
    simp only [Option.isSome_none, beq_eq_false_iff_ne.2 itself, Bool.or_self, Bool.false_eq_true,
      if_false]
    have ready := added_scopeFor sound k old.context
    refine .after_ok (contentScope_run found state) ?_
    generalize (w.scopeFor k old.context).1 = context
    refine .bind (relocateWith_faultless faultless ready.sound) (relocateWith_meets safe ready.sound) ?_
    intro content w₂ relocated
    obtain ⟨new, old', fetched⟩ :=
      fetched_of_relocated ready.sound relocated found isLive attached outside
    obtain ⟨w₃, ran, _⟩ := fetched.hangs state
    exact .of_ok ran

theorem clear_faultless (sound : w.arena.Sound) : Faultless (clear id) w := by
  cases answered : w.arena.isExpanded id with
  | error error =>
    exact .of_error (Action.bind_run_error _ (Action.ask_run_error answered)) ⟨error, rfl⟩
  | ok expanded =>
    obtain ⟨k, display, held, _⟩ := Arena.isExpanded_eq_ok_iff.1 answered
    obtain ⟨w', ran, _⟩ := clear_run sound held
    exact .of_ok ran

theorem restoreStateWith_faultless {state : Display Snapshot} (safe : restore.Safe)
    (faultless : restore.Faultless) (sound : w.arena.Sound) :
    Faultless (restoreStateWith restore id state) w := by
  refine restoreStateWith_rule safe sound state (fun error => ⟨error, rfl⟩)
    (fun {text item _ _ _ _} _ _ cleared held => ?_) fun {_ k editor _} _ found _ => ?_
  · obtain ⟨w₂, ran, _⟩ := showText_run text item cleared.sound held
    exact Faultless.of_ok ran
  · have ready := added_scopeFor sound k editor.context
    refine Action.Meets.mono (rebuildWith_faultless faultless ready.sound)
      (fun content w₂ _ c built => ?_) fun _ _ refused _ => refused
    refine Faultless.bind (clear_faultless built.sound) (clear_meets built.sound)
      fun _ w₃ cleared => ?_
    obtain ⟨k, text, item, held⟩ := cleared.held
    -- content that was just built does not stand above the expander
    have apart : ¬ w₃.arena.links.Within content id := fun within =>
      built.grows.not_within_fresh ready.sound.forest built.fresh (Arena.outline_of_get? found)
        (cleared.within _ _ within)
    exact (fillWith_faultless safe faultless cleared.sound held fun _ _ _ _ => apart).map

theorem restoreItemsWith_faultless {k : S.ListClass} {ids : List Handle} {list : Handle}
    {element : ClassKey S} {index : Nat} {items : List Snapshot} (safe : restore.Safe)
    (faultless : restore.Faultless) (sound : w.arena.Sound) (found : w.arena.get? list = some editor)
    (held : editor.state = .list k ids) (inside : index ≤ ids.length) :
    Faultless (restoreItemsWith restore list element editor.context index items) w := by
  induction items generalizing w editor ids index with
  | nil => exact .pure trivial
  | cons s rest ih =>
    refine .bind (rebuildAsWith_faultless faultless sound) (rebuildAsWith_meets safe sound) ?_
    intro item w₁ built
    obtain ⟨w₂, ran, joined⟩ := built.joins sound found held inside
    obtain ⟨editor₂, found₂, held₂, context₂⟩ := joined.live
    rw [← context₂]
    refine .after_ok ran (ih joined.confined.sound found₂ held₂ ?_)
    rw [List.length_insertIdx_of_le_length inside]
    omega

theorem restoreParts_faultless {parts : List (Handle × Snapshot)} (safe : restore.Safe)
    (faultless : restore.Faultless) (sound : w.arena.Sound) :
    Faultless (parts.forM fun (id, s) => restore id s) w := by
  induction parts generalizing w with
  | nil => exact .pure trivial
  | cons part rest ih =>
    exact .bind (faultless w part.1 part.2 sound) (safe w part.1 part.2 sound)
      fun _ w' changed => ih changed.sound

theorem restoreWith_faultless (safe : restore.Safe) (faultless : restore.Faultless) :
    Restorer.Faultless (restoreWith restore) := by
  intro w id s sound
  refine restoreWith_rule sound (fun e => ⟨e, rfl⟩) ?_ ?_ ?_ ?_
  · rintro name text itemClass item k old oldItem rfl held
    obtain ⟨w', ran, _⟩ := writeToken_quiet text (Snapshot.candidate? itemClass item) sound held
    exact .of_ok ran trivial
  · exact fun _ _ _ _ _ => restoreStateWith_faultless safe faultless sound
  · rintro name components k ids editor rfl - - -
    exact restoreParts_faultless safe faultless sound
  · rintro name items k ids editor w₁ rfl - - emptied found state
    exact restoreItemsWith_faultless safe faultless emptied.sound found state (by simp)

theorem restoreWithin_faultless (levels : Nat) :
    (restoreWithin levels : Restorer S).Faultless := by
  induction levels with
  | zero => exact fun w id s _ => .refuse
  | succ levels ih => exact restoreWith_faultless (restoreWithin_safe levels) ih

theorem restore_faultless : Restorer.Faultless (Workspace.restore : Restorer S) :=
  fun w id s sound => restoreWithin_faultless s.depth w id s sound

theorem writeToken_faultless (id : Handle) (text : String) (item : Option Candidate)
    (undoable : Bool) (sound : w.arena.Sound) :
    Faultless (writeToken id text item undoable) w := by
  cases answered : w.arena.token id with
  | error error =>
    exact .of_error (Action.bind_run_error _ (Action.ask_run_error answered)) ⟨error, rfl⟩
  | ok answer =>
    obtain ⟨k, old, oldItem⟩ := answer
    obtain ⟨editor, found, state⟩ := Arena.get?_of_state? (Arena.token_eq_ok_iff.1 answered)
    obtain ⟨w', ran, _⟩ := writeToken_run text item undoable sound found state
    exact .of_ok ran

theorem attachItem_faultless {list item : Handle} {index : Nat} {child : Editor S}
    (sound : w.arena.Sound) (found : w.arena.get? list = some editor)
    (root : w.arena.get? item = some child) (free : child.parent = none)
    (sameContext : child.context = editor.context) (apart : ¬ w.arena.links.Within item list) :
    Faultless (attachItem list index item) w := by
  obtain ⟨_, _, _, _, _, ran, _⟩ | ⟨error, ran⟩ :=
    attachItem_cases index sound found root free sameContext apart
  · exact .of_ok ran
  · exact .of_error ran ⟨error, rfl⟩

theorem dropItem_faultless (list : Handle) (index : Nat) (sound : w.arena.Sound) :
    Faultless (dropItem list index) w := by
  obtain ⟨_, _, _, _, _, _, ran, _⟩ | ⟨error, ran⟩ := dropItem_cases list index sound
  · exact .of_ok ran
  · exact .of_error ran ⟨error, rfl⟩

theorem recordTransition_faultless {action : Editing S α} (description : String)
    (faultless : Faultless action w) : Faultless (recordTransition id description action) w :=
  recordTransition_rule description (fun error => ⟨error, rfl⟩)
    (faultless.mono (fun _ _ _ => ⟨fun _ => trivial, fun error => ⟨error, rfl⟩⟩)
      fun _ _ refused => refused)

end StructureEditor.Workspace
