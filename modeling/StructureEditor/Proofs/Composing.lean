import StructureEditor.Proofs.Reachability

/-! What requests are composed of. A property that the basic operations on documents keep, and that
does not depend on histories, views or the journal, is kept by every request, however it ends. -/
namespace StructureEditor.Workspace

variable {S : Signature} {α β : Type} {Q : Workspace S → Prop}

/-- However the action ends, the workspace still has a property if it had it before. -/
def Sustains (Q : Workspace S → Prop) (action : Editing S α) : Prop :=
  ∀ w, Q w → Ensures action w Q

def Idle (Q : Workspace S → Prop) : Prop :=
  ∀ w w', w'.arena = w.arena → w'.contexts = w.contexts → Q w → Q w'

namespace Sustains

theorem bind {action : Editing S α} {next : α → Editing S β} (first : Sustains Q action)
    (rest : ∀ value, Sustains Q (next value)) : Sustains Q (action >>= next) :=
  fun w holds => Ensures.then (first w holds) rest

theorem pure (value : α) : Sustains Q (pure value : Editing S α) := fun _ holds => .pure holds

theorem get : Sustains Q (get : Editing S (Workspace S)) := fun _ holds => .of_ok rfl holds

theorem refuse (error : Refusal) : Sustains Q (Action.refuse error : Editing S α) :=
  fun _ holds => .refuse holds

theorem fault (f : Fault) : Sustains Q (Action.fault f : Editing S α) := fun _ holds => .fault holds

theorem actionAsk (question : Workspace S → Except Refusal α) :
    Sustains Q (Action.ask question) :=
  fun _ holds => Action.Meets.ask (fun _ _ => holds) fun _ _ => holds

theorem ask (question : Arena S → Except Refusal α) : Sustains Q (Workspace.ask question) :=
  actionAsk _

theorem ofExcept (result : Except Refusal α) :
    Sustains Q (Action.ofExcept result : Editing S α) := by
  cases result with
  | ok value => exact pure value
  | error error => exact refuse error

theorem perhaps {p : Prop} [Decidable p] {action : Editing S Unit} {rest : Unit → Editing S α}
    (first : Sustains Q action) (sustains : Sustains Q (rest ())) :
    Sustains Q (if p then action >>= rest else rest ()) := by
  split
  · exact bind first fun _ => sustains
  · exact sustains

theorem attempt {action : Editing S α} (sustains : Sustains Q action) :
    Sustains Q action.attempt := fun w holds => attempt_ensures (sustains w holds)

theorem forM {f : α → Editing S Unit} {xs : List α} (each : ∀ x ∈ xs, Sustains Q (f x)) :
    Sustains Q (xs.forM f) := by
  induction xs with
  | nil => exact pure ()
  | cons x xs ih =>
    exact bind (each x List.mem_cons_self) fun _ =>
      ih fun y later => each y (List.mem_cons_of_mem x later)

theorem actionChange {step : Workspace S → α × Workspace S} (keeps : ∀ w, Q w → Q (step w).2) :
    Sustains Q (Action.change step) := fun w holds => .of_ok rfl (keeps w holds)

theorem risk {step : Workspace S → Except Fault (α × Workspace S)}
    (keeps : ∀ w value w', Q w → step w = .ok (value, w') → Q w') :
    Sustains Q (Action.risk step) := by
  intro w holds
  cases ended : step w with
  | error f => exact .of_error (by rw [Action.risk, ended]) holds
  | ok made => exact .of_ok (by rw [Action.risk, ended]) (keeps w made.1 made.2 holds ended)

theorem change {step : Arena S → Arena S} (keeps : ∀ w, Q w → Q { w with arena := step w.arena }) :
    Sustains Q (Workspace.change step) := fun w holds => .of_ok rfl (keeps w holds)

theorem reads {action : Editing S α} (reads : ∀ w, Reads action w) : Sustains Q action :=
  fun w holds => (reads w).mono (fun _ _ same => same ▸ holds) fun _ _ same => same ▸ holds

section

variable (idle : Idle Q)
include idle

theorem modify {f : Workspace S → Workspace S} (arena : ∀ w, (f w).arena = w.arena)
    (contexts : ∀ w, (f w).contexts = w.contexts) : Sustains Q (modify f : Editing S Unit) :=
  fun w holds => .of_ok rfl (idle w (f w) (arena w) (contexts w) holds)

theorem unrecorded {action : Editing S α} (context : Context) (sustains : Sustains Q action) :
    Sustains Q (unrecorded context action) := by
  intro w holds
  obtain ⟨start, finish, paused, ran⟩ := unrecorded_run context action w
  unfold Ensures Action.Meets
  rw [ran]
  refine Action.Meets.ensuring ((sustains start
    (idle w start paused.arena paused.contexts holds)).mono ?_ ?_)
  · exact fun _ w' => idle w' _ (paused.finished w') (paused.placed w')
  · exact fun _ w' => idle w' _ (paused.finished w') (paused.placed w')

theorem tell (id : Handle) (notice : Notice S) : Sustains Q (tell id notice) :=
  modify idle (fun _ => rfl) fun _ => rfl

theorem remark (lines : List String) : Sustains Q (Workspace.remark (S := S) lines) :=
  modify idle (fun _ => rfl) fun _ => rfl

theorem recompute [Language S]
    (settles : ∀ w id r, Q w → Q { w with arena := w.arena.setResult id r }) (id : Handle) :
    Sustains Q (recompute id) := by
  have within : ∀ (steps : Nat) (id : Handle), Sustains Q (recomputeWithin steps id) := by
    intro steps
    induction steps with
    | zero => exact fun _ => .pure ()
    | succ steps ih =>
      intro id
      refine .bind (.ask _) fun result => .bind (.ask _) fun editor => ?_
      split
      · exact .pure ()
      · refine .bind (.change fun w holds => settles w id result holds) fun _ =>
          .bind (tell idle id _) fun _ => ?_
        split
        · exact ih _
        · exact .pure ()
  exact .bind .get fun _ => within _ id

omit idle in
theorem historyFor? (id : Handle) : Sustains Q (historyFor? (S := S) id) :=
  .bind (.ask _) fun _ => .bind .get fun _ => .pure _

omit idle in
theorem recording? (id : Handle) : Sustains Q (recording? (S := S) id) := by
  refine .bind (historyFor? id) fun found => ?_
  cases found with
  | none => exact .pure _
  | some h => exact .bind (.bind .get fun _ => .pure _) fun _ => .pure _

theorem recordIfActive {make : Editing S Edit} (id : Handle) (made : Sustains Q make) :
    Sustains Q (recordIfActive id make) := by
  refine .bind (recording? id) fun found => ?_
  cases found with
  | none => exact .pure _
  | some h => exact .bind made fun _ => modify idle (fun _ => rfl) fun _ => rfl

theorem begin (h : HistoryId) : Sustains Q (historyLens (S := S) h).begin :=
  .bind .get fun _ => .perhaps (.fault _) (modify idle (fun _ => rfl) fun _ => rfl)

theorem finish (h : HistoryId) (description : String) :
    Sustains Q ((historyLens (S := S) h).finish description) := by
  refine .bind .get fun _ => ?_
  dsimp only
  split
  · exact modify idle (fun _ => rfl) fun _ => rfl
  · exact .fault _

theorem grouped {action : Editing S α} (h : HistoryId) (description : String)
    (sustains : Sustains Q action) : Sustains Q ((historyLens h).grouped description action) := by
  refine .bind .get fun w => ?_
  dsimp only
  split
  · exact sustains
  · exact .bind (begin idle h) fun _ => .bind (.attempt sustains) fun result =>
      .bind (finish idle h description) fun _ => .ofExcept result

theorem asOneStep {action : Editing S α} (id : Handle) (description : String)
    (sustains : Sustains Q action) : Sustains Q (asOneStep id description action) := by
  refine .bind (historyFor? id) fun found => ?_
  cases found with
  | none => exact sustains
  | some h => exact grouped idle h description sustains

theorem recordTransition [Language S] {action : Editing S α} (id : Handle) (description : String)
    (sustains : Sustains Q action) : Sustains Q (recordTransition id description action) := by
  refine .bind (recording? id) fun found => ?_
  cases found with
  | none => exact sustains
  | some h =>
    exact .bind (.ask _) fun _ => .bind (.ask _) fun _ => .bind sustains fun _ => .bind (.ask _)
      fun _ => .bind (modify idle (fun _ => rfl) fun _ => rfl) fun _ => .pure _

end

theorem checkGap (list : Handle) (index : Nat) : Sustains Q (checkGap (S := S) list index) :=
  reads fun w => reads_checkGap list index w

theorem requireTextMode (id : Handle) (use : TextModeUse) :
    Sustains Q (requireTextMode id use : Editing S Unit) := by
  refine .bind (.ask _) fun expanded => ?_
  split
  · exact .fault _
  · exact .pure _

end Sustains

variable [Language S]

/-- A property that the basic operations keep. -/
structure Basis (Q : Workspace S → Prop) : Prop where
  idle : Idle Q
  create : ∀ c context, Sustains Q (create c context)
  leaf : ∀ context state, state.children = [] → Sustains Q (insert context state)
  writeToken : ∀ id text item undoable, Sustains Q (writeToken id text item undoable)
  showText : ∀ id text item, Sustains Q (showText id text item)
  dropContent : ∀ id, Sustains Q (dropContent id)
  dropItem : ∀ list index, Sustains Q (dropItem list index)
  contentScope : ∀ id, Sustains Q (contentScope id)
  relocate : ∀ id context, Sustains Q (relocate id context)
  rebuild : ∀ s context, Sustains Q (rebuild s context)
  rebuildAs : ∀ c s context, Sustains Q (rebuildAs c s context)
  fill : ∀ id editor, Sustains Q (fill id editor)
  restoreState : ∀ id state, Sustains Q (restoreState id state)
  restore : ∀ id s, Sustains Q (restore id s)
  assemble : ∀ k components context, Sustains Q (assemble k components context)
  wrap : ∀ k editor context, Sustains Q (wrap k editor context)
  removeDocument : ∀ id, Sustains Q (removeDocument id)
  placeItem : ∀ list index editor, Sustains Q (placeItem list index editor)
  pasteContent : ∀ id s, Sustains Q (pasteContent id s)
  replayInsert : ∀ list index item, Sustains Q (replayInsert list index item)
  watch : ∀ id view, Sustains Q (watch id view)
  unwatch : ∀ id view, Sustains Q (unwatch id view)

namespace Basis

variable (basis : Basis Q)
include basis

theorem build (context : Context) (hook : Build S α) : Sustains Q (build context hook) := by
  induction hook with
  | done value => exact .pure _
  | fail => exact .pure _
  | create c next ih => exact .bind (basis.create c context) ih
  | createToken k text next ih => exact .bind (basis.leaf context _ rfl) ih
  | typeToken id text next ih =>
    refine .bind (.attempt (basis.writeToken id text none true)) fun result => ?_
    cases result with
    | ok _ => exact ih
    | error _ => exact .pure _

theorem askHook (id : Handle) (context : Context) (hook : Build S (Option Handle)) :
    Sustains Q (askHook id context hook) :=
  .bind (.ask _) fun editor =>
    .bind (.unrecorded basis.idle editor.context (basis.build context hook)) fun _ => .pure _

theorem openItem (list : Handle) (index : Nat) : Sustains Q (openItem (S := S) list index) :=
  .bind (.checkGap list index) fun _ => .bind (.ask _) fun _ => .bind (.ask _) fun above =>
    .bind (basis.create _ above.context) fun item => basis.placeItem list index item

theorem removeAt (list : Handle) (index : Nat) : Sustains Q (removeAt (S := S) list index) := by
  refine .bind (.reads fun w => reads_itemAt list index w) fun item =>
    .bind (.recording? list) fun recording => ?_
  cases recording with
  | none => exact basis.dropItem list index
  | some h =>
    exact .bind (.ask _) fun _ => .bind (.ask _) fun _ => .bind (basis.dropItem list index) fun _ =>
      .recordIfActive basis.idle list (.pure _)

theorem typeSeparator (id : Handle) (text : String) :
    Sustains Q (typeSeparator (S := S) id text) := by
  refine .bind (.reads fun w => reads_listPlace? id w) fun place => ?_
  cases place with
  | none => exact .pure false
  | some place =>
    dsimp only
    split
    · exact .pure false
    · exact .bind (.asOneStep basis.idle id _
        (.bind (.recordTransition basis.idle id _ (basis.showText id _ _)) fun _ =>
          basis.openItem _ _)) fun _ => .pure true

theorem transition (id editor : Handle) (description : String) :
    Sustains Q (recordTransition id description (Workspace.fill id editor)) :=
  .recordTransition basis.idle id description (basis.fill id editor)

theorem typeExpander (id : Handle) (text : String) :
    Sustains Q (typeExpander (S := S) id text) := by
  refine .bind (.requireTextMode id _) fun _ => .bind (.ask _) fun shown => ?_
  split
  · exact .pure ()
  · refine .bind (basis.typeSeparator id text) fun handled => ?_
    split
    · exact .pure ()
    · refine .bind (basis.contentScope id) fun scope =>
        .bind (basis.askHook id scope.2 _) fun made => ?_
      cases made with
      | some editor => exact .bind (basis.transition id editor _) fun _ => .pure ()
      | none => exact .recordTransition basis.idle id _ (basis.showText id text none)

theorem expand (id : Handle) : Sustains Q (expand (S := S) id) := by
  refine .bind (.requireTextMode id _) fun _ => .bind (.ask _) fun shown =>
    .bind (basis.contentScope id) fun scope => .bind (basis.askHook id scope.2 _) fun made => ?_
  cases made with
  | some editor => exact .bind (basis.transition id editor _) fun _ => .pure true
  | none => exact .pure false

theorem chooseExpander (id : Handle) (choice : Choice) :
    Sustains Q (chooseExpander (S := S) id choice) := by
  refine .bind (.requireTextMode id _) fun _ => .bind (basis.contentScope id) fun scope =>
    .recordTransition basis.idle id _ (.bind (basis.askHook id scope.2 _) fun first => ?_)
  have filled (editor : Handle) : Sustains Q (do let _ ← Workspace.fill id editor) :=
    .bind (basis.fill id editor) fun _ => .pure ()
  cases first with
  | some editor => exact filled editor
  | none =>
    refine .bind (basis.askHook id scope.2 _) fun second => ?_
    cases second with
    | some editor => exact filled editor
    | none => exact basis.showText id choice.text _

theorem reset (id : Handle) : Sustains Q (reset (S := S) id) :=
  .bind (.ask _) fun _ => .perhaps (.fault _)
    (.recordTransition basis.idle id _ (basis.dropContent id))

theorem typeText (id : Handle) (text : String) : Sustains Q (typeText (S := S) id text) := by
  refine .bind (.ask _) fun shape => ?_
  cases shape with
  | token => exact basis.writeToken id text none true
  | expander => exact basis.typeExpander id text
  | _ => exact .bind (.ask _) fun _ => .refuse _

theorem choose (id : Handle) (choice : Choice) : Sustains Q (choose (S := S) id choice) := by
  refine .bind (.ask _) fun shape => ?_
  cases shape with
  | token => exact basis.writeToken id choice.text _ true
  | expander => exact basis.chooseExpander id choice
  | _ => exact .bind (.ask _) fun _ => .refuse _

theorem paste (id : Handle) (s : Snapshot) : Sustains Q (paste (S := S) id s) := by
  refine .bind (.ask _) fun shape => ?_
  cases shape with
  | token =>
    dsimp only
    split
    · exact .bind (basis.writeToken id _ _ true) fun _ => .pure true
    · exact .pure false
  | expander =>
    show Sustains Q (pasteExpander id s)
    unfold pasteExpander
    split
    · exact basis.pasteContent id _
    · exact .bind (.recordTransition basis.idle id _ (basis.restoreState id _)) fun _ => .pure true
    · exact basis.pasteContent id s
  | _ => exact .refuse _

theorem replay (direction : Direction) (edit : Edit) :
    Sustains Q (replay (S := S) direction edit) := by
  refine replay_cases (P := Sustains Q) direction edit ?_ ?_ ?_ ?_ ?_
  · exact fun _ text item => .bind (.ask _) fun id => basis.writeToken id text item false
  · exact fun _ state => .bind (.ask _) fun id => basis.restoreState id state
  · exact fun list index item _ => basis.replayInsert list index item
  · exact fun _ index => .bind (.ask _) fun list => basis.dropItem list index
  · exact fun _ s _ => .bind (.ask _) fun id => basis.restore id s

theorem move (h : HistoryId) (direction : Direction) : Sustains Q (move (S := S) h direction) := by
  intro w holds
  refine move_rule holds holds fun step rest _ => ?_
  let taken := History.taken direction rest ((historyLens h).view w)
  have begun := basis.idle w (w.replaying h taken) rfl rfl
  refine (Sustains.forM (fun edit _ => basis.replay direction edit) _ (begun holds)).mono ?_ ?_
  · exact fun _ w' kept histories => basis.idle w' { w' with histories } rfl rfl kept
  · exact fun _ w' kept histories => basis.idle w' { w' with histories } rfl rfl kept

theorem perform (request : Request S) : Sustains Q (perform request) := by
  have done : ∀ {α : Type} {action : Editing S α}, Sustains Q action →
      Sustains Q (do let _ ← action) := fun sustains => .bind sustains fun _ => .pure ()
  cases request with
  | create c context => exact done (basis.create c context)
  | newToken k text context => exact done (basis.leaf context _ rfl)
  | newExpander k text context => exact done (basis.leaf context _ rfl)
  | assemble k components context => exact done (basis.assemble k components context)
  | wrap k editor context => exact done (basis.wrap k editor context)
  | typeText id text => exact basis.typeText id text
  | typeToken id text undoable => exact basis.writeToken id text none undoable
  | choose id choice => exact basis.choose id choice
  | expand id => exact done (basis.expand id)
  | fill id editor => exact done (basis.fill id editor)
  | reset id => exact basis.reset id
  | openItem list index => exact done (basis.openItem list index)
  | placeItem list index editor => exact done (basis.placeItem list index editor)
  | removeAt list index => exact basis.removeAt list index
  | paste id s => exact done (basis.paste id s)
  | relocate id context => exact done (basis.relocate id context)
  | rebuild s context => exact done (basis.rebuild s context)
  | rebuildAs c s context => exact done (basis.rebuildAs c s context)
  | restore id s => exact basis.restore id s
  | restoreState id state => exact basis.restoreState id state
  | removeDocument id => exact basis.removeDocument id
  | replay direction edit => exact basis.replay direction edit
  | undo h => exact done (basis.move h .undo)
  | redo h => exact done (basis.move h .redo)
  | watch id view => exact basis.watch id view
  | unwatch id view => exact done (basis.unwatch id view)

end Basis

end StructureEditor.Workspace
