import StructureEditor.Proofs.Operations.Paste
import StructureEditor.Workspace.Replay

/-! Replays of edits, and undo and redo with them, are made of steps, however they end. -/
namespace StructureEditor.Workspace

variable {S : Signature} [Language S] {α β : Type} {strict : Bool} {w₀ w : Workspace S}
  {id : Handle} {P : Workspace S → Prop}

/-- What a replay puts into a list is of the class that the list declares for its items. -/
def SuitsReplay (w : Workspace S) : Direction → Edit → Prop
  | .redo, .insertion list _ item | .undo, .removal list _ item =>
    ∀ id editor k ids registry name c, w.arena.find list = .ok id →
      w.arena.get? id = some editor → editor.state = .list k ids →
      w.contexts.find? (·.registry) editor.context = some registry → item.className = some name →
      registry.lookup name = .ok c → c = (Language.list k).element
  | _, _ => True

theorem replayRemove_unfolds (list : Locator) (index : Nat) (run : Unfolds strict w₀ w) :
    Ensures (replayRemove list index) w (Unfolds strict w₀) :=
  .bind (.ask (fun _ _ => dropItem_unfolds run) fun _ _ => run)

theorem rebuild_named {s : Snapshot} {context : Context} (sound : w.arena.Sound) :
    Action.Meets (rebuild s context) w
      (fun id w' => ∃ registry name c, w.contexts.find? (·.registry) context = some registry ∧
        s.className = some name ∧ registry.lookup name = .ok c ∧ Built w w' id c context)
      fun _ _ => True := by
  unfold rebuild rebuildWith
  split
  · exact .refuse trivial
  · next name named =>
    refine .bind (.ask (fun registry answered => ?_) fun _ _ => trivial)
    have found : w.contexts.find? (·.registry) context = some registry := by
      unfold Contexts.require at answered
      split at answered
      · next found =>
        cases answered
        exact found
      · cases answered
    cases listed : registry.lookup name with
    | error error => exact trivial
    | ok c =>
      refine (rebuildAsWith_meets restore_safe sound).mono (fun id w' built => ?_) fun _ _ _ => trivial
      exact ⟨registry, name, c, found, named, listed, built⟩

theorem replayInsert_unfolds {list : Locator} {index : Nat} {item : Snapshot}
    (run : Unfolds strict w₀ w)
    (suits : strict = true → w.SuitsReplay .redo (.insertion list index item)) :
    Ensures (replayInsert list index item) w (Unfolds strict w₀) := by
  refine .bind (.ask (fun id located => ?_) fun _ _ => run)
  refine .bind (.ask (fun editor answered => ?_) fun _ _ => run)
  have found := Arena.get_eq_ok_iff.1 answered
  refine .bind ((Action.Meets.and (rebuild_named run.sound)
    (rebuildWith_unfolds restore_safe restore_unfolding run)).mono ?_ fun _ _ both => both.2)
  rintro made w₁ ⟨⟨registry, name, c, registered, named, listed, built⟩, run₁⟩
  obtain ⟨new, newFound, newRoot, newContext, key⟩ := built.root
  have outlined := Arena.outline_of_get? found
  obtain ⟨editor', found', state, context, _⟩ := Arena.kept_of_outline (built.grows id _ outlined)
  refine attachItem_unfolds run₁ found' newFound newRoot (newContext.trans context.symm)
    (built.grows.not_within_fresh run.sound.forest built.fresh outlined) ?_
  intro isStrict k ids held
  rw [show editor'.state = editor.state from state] at held
  rw [key]
  exact suits isStrict id editor k ids registry name c located found held registered named listed

def rebuilt? : Direction → Edit → Option (Locator × Nat × Snapshot)
  | .redo, .insertion list index item | .undo, .removal list index item => some (list, index, item)
  | _, _ => none

def restored? : Direction → Edit → Option (Locator × Snapshot)
  | .undo, .replacement editor before _ _ => some (editor, before)
  | .redo, .replacement editor _ after _ => some (editor, after)
  | _, _ => none

theorem replay_cases {P : Editing S Unit → Prop} (direction : Direction) (edit : Edit)
    (types : ∀ locator text item, P (do writeToken (← ask (·.find locator)) text item false))
    (shows : ∀ locator state, P (do restoreState (← ask (·.find locator)) state))
    (inserts : ∀ list index item, rebuilt? direction edit = some (list, index, item) →
      P (replayInsert list index item))
    (removes : ∀ list index, P (replayRemove list index))
    (restores : ∀ locator s, restored? direction edit = some (locator, s) →
      P (do restore (← ask (·.find locator)) s)) :
    P (replay direction edit) := by
  cases edit with
  | text editor old new oldItem newItem =>
    cases direction with
    | undo => exact types editor old oldItem
    | redo => exact types editor new newItem
  | transition expander before after description =>
    cases direction with
    | undo => exact shows expander before
    | redo => exact shows expander after
  | insertion list index item =>
    cases direction with
    | undo => exact removes list index
    | redo => exact inserts list index item rfl
  | removal list index item =>
    cases direction with
    | undo => exact inserts list index item rfl
    | redo => exact removes list index
  | replacement editor before after description =>
    cases direction with
    | undo => exact restores editor before rfl
    | redo => exact restores editor after rfl

theorem SuitsReplay.rebuilt {direction : Direction} {edit : Edit} {list : Locator} {index : Nat}
    {item : Snapshot} (suits : w.SuitsReplay direction edit)
    (isRebuilt : rebuilt? direction edit = some (list, index, item)) :
    w.SuitsReplay .redo (.insertion list index item) := by
  cases direction <;> cases edit <;> cases isRebuilt <;> exact suits

theorem replay_unfolds {direction : Direction} {edit : Edit} (run : Unfolds strict w₀ w)
    (suits : strict = true → w.SuitsReplay direction edit) :
    Ensures (replay direction edit) w (Unfolds strict w₀) := by
  refine replay_cases (P := fun action => Ensures action w (Unfolds strict w₀)) direction edit
    ?_ ?_ ?_ ?_ ?_
  · exact fun _ text item => .bind (.ask (fun _ _ => writeToken_unfolds text item false run)
      fun _ _ => run)
  · exact fun _ state => .bind (.ask (fun _ _ => restoreState_unfolds state run) fun _ _ => run)
  · exact fun _ _ _ isRebuilt =>
      replayInsert_unfolds run fun isStrict => (suits isStrict).rebuilt isRebuilt
  · exact fun list index => replayRemove_unfolds list index run
  · exact fun _ s _ => .bind (.ask (fun id _ => restore_unfolding w id s run) fun _ _ => run)

theorem replayInsert_rule {list : Locator} {index : Nat} {item : Snapshot}
    {made : Context → Handle → Workspace S → Prop} {ok : Unit → Workspace S → Prop}
    {stopped : Stop → Workspace S → Prop} (sound : w.arena.Sound)
    (early : ∀ error, stopped (.refused error) w)
    (building : ∀ context, Action.Meets (rebuild item context) w (made context) stopped)
    (rest : ∀ {id x : Handle} {editor root : Editor S} {w' : Workspace S} {c : ClassKey S}
      {context : Context}, w.arena.find list = .ok id → Built w w' x c context →
      made context x w' → w'.arena.get? id = some editor → w'.arena.get? x = some root →
      root.parent = none → root.context = editor.context → ¬ w'.arena.links.Within x id →
      Action.Meets (attachItem id index x) w' ok stopped) :
    Action.Meets (replayInsert list index item) w ok stopped := by
  refine .bind (.ask (fun id located => ?_) fun error _ => early error)
  refine .bind (.ask (fun editor answered => ?_) fun error _ => early error)
  have found := Arena.get_eq_ok_iff.1 answered
  refine .bind ((Action.Meets.and (rebuildWith_meets restore_safe sound)
    (building editor.context)).mono ?_ fun _ _ both => both.2)
  rintro x w₁ ⟨⟨c, built⟩, isMade⟩
  obtain ⟨root, rootFound, free, here, _⟩ := built.root
  have outlined := Arena.outline_of_get? found
  obtain ⟨editor', found', _, context, _⟩ := Arena.kept_of_outline (built.grows id _ outlined)
  exact rest located built isMade found' rootFound free (here.trans context.symm)
    (built.grows.not_within_fresh sound.forest built.fresh outlined)

def SuitReplays (direction : Direction) : List Edit → Workspace S → Prop
  | [], _ => True
  | edit :: rest, w => w.SuitsReplay direction edit ∧
    ∀ w', replay direction edit w = .ok () w' → SuitReplays direction rest w'

theorem replayAll_unfolds {direction : Direction} {edits : List Edit} (run : Unfolds strict w₀ w)
    (suit : strict = true → SuitReplays direction edits w) :
    Ensures (edits.forM (replay direction)) w (Unfolds strict w₀) := by
  induction edits generalizing w with
  | nil => exact .pure run
  | cons edit rest ih =>
    have first := replay_unfolds run fun isStrict => (suit isStrict).1
    cases ran : replay direction edit w with
    | error stop w' => exact .of_error (Action.bind_run_error _ ran) (first.stopped_of ran)
    | ok _ w' =>
      exact .after_ok ran (ih (first.ok_of ran) fun isStrict => (suit isStrict).2 w' ran)

/-- The state in which a step of a history begins to be replayed: the step is taken off its
stack, and nothing is recorded. -/
def replaying (w : Workspace S) (h : HistoryId) (taken : History Edit) : Workspace S :=
  let w := (historyLens h).put taken w
  (historyLens h).put ((historyLens h).view w).pause.2 w

def move (h : HistoryId) : Direction → Editing S Bool
  | .undo => undo h
  | .redo => redo h

theorem move_eq (h : HistoryId) (direction : Direction) :
    (move h direction : Editing S Bool) = (historyLens h).move replay direction := by
  cases direction <;> rfl

theorem move_open {direction : Direction} (opened : ((historyLens h).view w).isOpen = true) :
    move h direction w = .error (.fault (.groupOpen direction)) w := by
  rw [move_eq, HistoryLens.move_open opened]

theorem move_none {direction : Direction} (closed : ((historyLens h).view w).collected = none)
    (none : History.ahead direction ((historyLens h).view w) = []) :
    move h direction w = .ok false w := by
  rw [move_eq, HistoryLens.move_none closed none]

theorem move_some {direction : Direction} {step : Step Edit} {rest : List (Step Edit)}
    (closed : ((historyLens h).view w).collected = none)
    (next : History.ahead direction ((historyLens h).view w) = step :: rest) :
    move h direction w = (do
      (historyLens h).paused (HistoryLens.replayStep replay direction step)
      modify ((historyLens h).update (History.handed direction step))
      return true) ((historyLens h).put (History.taken direction rest ((historyLens h).view w)) w) := by
  rw [move_eq, HistoryLens.move_some closed next]

theorem move_rule {direction : Direction} {ok : Bool → Workspace S → Prop}
    {stopped : Stop → Workspace S → Prop} (busy : stopped (.fault (.groupOpen direction)) w)
    (idle : ok false w)
    (replays : ∀ step rest, History.ahead direction ((historyLens h).view w) = step :: rest →
      Action.Meets ((step.replayOrder direction).forM (replay direction))
        (w.replaying h (History.taken direction rest ((historyLens h).view w)))
        (fun _ w' => ∀ histories, ok true { w' with histories })
        fun stop w' => ∀ histories, stopped stop { w' with histories }) :
    Action.Meets (move h direction) w ok stopped := by
  cases opened : ((historyLens h).view w).isOpen with
  | true => exact .of_error (move_open opened) busy
  | false =>
    have closed := History.isOpen_eq_false_iff.1 opened
    cases next : History.ahead direction ((historyLens h).view w) with
    | nil => exact .of_ok (move_none closed next) idle
    | cons step rest =>
      have all := replays step rest next
      rw [← HistoryLens.replayStep_eq] at all
      refine .of_eq (move_some closed next) (.bind (.ensuring
        (all.mono (fun _ w' goes => ?_) fun _ w' stops => stops _)))
      exact .after_ok (Action.modify_run _ _) (.pure (goes _))

theorem move_unfolds (h : HistoryId) (direction : Direction) (run : Unfolds strict w₀ w)
    (suit : strict = true → ∀ step rest,
      History.ahead direction ((historyLens h).view w) = step :: rest → SuitReplays direction (step.replayOrder direction)
        (w.replaying h (History.taken direction rest ((historyLens h).view w)))) :
    Ensures (move h direction) w (Unfolds strict w₀) := by
  refine move_rule run run fun step rest next => ?_
  have begun : Unfolds strict w₀
      (w.replaying h (History.taken direction rest ((historyLens h).view w))) :=
    run.beside ⟨rfl, rfl, rfl⟩
  exact (replayAll_unfolds begun fun isStrict => suit isStrict step rest next).mono
    (fun _ w' run histories => run.beside ⟨rfl, rfl, rfl⟩)
    fun _ w' run histories => run.beside ⟨rfl, rfl, rfl⟩

end StructureEditor.Workspace
