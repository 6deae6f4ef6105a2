import StructureEditor.Proofs.Composing

/-! What operations are made of. Whatever is asked of a workspace, its arena changes in three
ways only: an editor is given a slot, the slot of a live editor is taken back, or a live editor
changes in its slot. What these three keep is kept by every request, however it ends; nothing is
assumed about the arena or about the request. -/
namespace StructureEditor

variable {S : Signature} {α β : Type}

namespace Arena

/-- Kept by giving slots, by taking them back and by changing their tenants. -/
structure Stable (P : Arena S → Prop) : Prop where
  modify : ∀ {a : Arena S} (id : Handle) (f : Editor S → Editor S), P a → P (a.modify id f)
  allocate : ∀ {a : Arena S} (editor : Editor S), P a → P (a.allocate editor).2
  release : ∀ {a : Arena S} {id : Handle}, P a → a.contains id = true → P (a.release id)

/-- Kept by giving slots and by changing their tenants. -/
structure Growable (P : Arena S → Prop) : Prop where
  modify : ∀ {a : Arena S} (id : Handle) (f : Editor S → Editor S), P a → P (a.modify id f)
  allocate : ∀ {a : Arena S} (editor : Editor S), P a → P (a.allocate editor).2

variable {P : Arena S → Prop} {a : Arena S}

theorem Stable.growable (stable : Stable P) : Growable P := ⟨stable.modify, stable.allocate⟩

theorem Stable.freed (stable : Stable P) (id : Handle) (holds : P a) : P (a.release id) := by
  by_cases live : a.contains id = true
  · exact stable.release holds live
  · rw [Arena.release, if_neg live]
    exact holds

theorem Stable.foldl (xs : List α) {f : Arena S → α → Arena S}
    (each : ∀ a x, P a → P (f a x)) (holds : P a) : P (xs.foldl f a) := by
  induction xs generalizing a with
  | nil => exact holds
  | cons x xs ih => exact ih (each a x holds)

theorem Stable.disposeWithin (stable : Stable P) (depth : Nat) (id : Handle) (holds : P a) :
    P (a.disposeWithin depth id) := by
  induction depth generalizing a id with
  | zero => exact holds
  | succ depth ih =>
    unfold Arena.disposeWithin
    split
    · exact stable.freed id (Stable.foldl _ (fun a child holds => ih child holds) holds)
    · exact holds

variable [Language S]

theorem Growable.insert (growable : Growable P) (context : Context) (state : EditorState S)
    (holds : P a) : P (a.insert context state).2 := by
  have adopted : P (state.children.foldl
      (fun b child => b.setParent (some (a.allocate { context, state }).1) child)
      (a.allocate { context, state }).2) :=
    Stable.foldl _ (fun _ child holds => growable.modify child _ holds) (growable.allocate _ holds)
  unfold Arena.insert
  dsimp only
  split
  · exact growable.modify _ _ adopted
  · exact adopted

theorem Growable.create (growable : Growable P) (context : Context) (c : ClassKey S) (holds : P a) :
    P ((Arena.create c context).run a).2 := by
  induction c using ClassKey.induct generalizing a with
  | token k =>
    rw [create_token_eq]
    exact growable.insert context _ holds
  | expander k =>
    rw [create_expander_eq]
    exact growable.insert context _ holds
  | list k =>
    rw [create_list_eq]
    exact growable.insert context _ holds
  | compound k ih =>
    rw [create_compound_eq]
    exact growable.insert context _ (mapM_keeps (fun c member _ holds => ih c member holds) holds)

end Arena

namespace Workspace

variable {P : Arena S → Prop}

/-- However an action ends, the arena still has a property if it had it before. -/
def Respects (P : Arena S → Prop) (action : Editing S α) : Prop :=
  Sustains (fun w : Workspace S => P w.arena) action

theorem arena_idle (P : Arena S → Prop) : Idle fun w : Workspace S => P w.arena := by
  intro w w' same _ holds
  rwa [← same] at holds

variable (stable : Arena.Stable P)
include stable

theorem setState_respects (id : Handle) (state : EditorState S) :
    Respects P (setState id state) :=
  .bind (.ask _) fun _ => .change fun _ holds => stable.modify id _ holds

theorem setParent_respects (child : Handle) (parent : Option Handle) :
    Respects P (setParent child parent) :=
  .bind (.ask _) fun _ => .change fun _ holds => stable.modify child _ holds

theorem dispose_respects (id : Handle) : Respects P (dispose id) :=
  .change fun w holds => stable.disposeWithin w.arena.reach id holds

omit stable in
theorem tell_respects (id : Handle) (notice : Notice S) : Respects P (tell id notice) :=
  .tell (arena_idle P) id notice

variable [Language S]

theorem insert_respects (context : Context) (state : EditorState S) :
    Respects P (insert context state) :=
  .actionChange fun _ holds => stable.growable.insert context state holds

theorem enter_respects (context : Context) (state : EditorState S) :
    Respects P (enter context state) :=
  .risk fun w value w' holds ended => by
    cases entered : w.arena.enter context state with
    | error f =>
      rw [entered] at ended
      cases ended
    | ok made =>
      rw [entered] at ended
      cases ended
      exact Arena.enter_keeps stable.modify stable.allocate holds entered

theorem create_respects (c : ClassKey S) (context : Context) : Respects P (create c context) :=
  .actionChange fun _ holds => stable.growable.create context c holds

omit stable in
theorem recompute_keeps (modify : ∀ {a : Arena S} (id : Handle) (f : Editor S → Editor S),
    P a → P (a.modify id f)) (id : Handle) : Respects P (recompute id) :=
  .recompute (arena_idle P) (fun _ id _ holds => modify id _ holds) id

theorem recompute_respects (id : Handle) : Respects P (recompute id) :=
  recompute_keeps stable.modify id

theorem tell_recompute_respects (id : Handle) (notice : Notice S) :
    Respects P (do tell id notice; recompute id) :=
  .bind (tell_respects id notice) fun _ => recompute_respects stable id

theorem writeToken_respects (id : Handle) (text : String) (item : Option Candidate)
    (undoable : Bool) : Respects P (writeToken id text item undoable) := by
  refine .bind (.ask _) fun old => .bind (setState_respects stable id _) fun _ => ?_
  dsimp only
  split
  · exact .bind (.recordIfActive (arena_idle P) id (.bind (.ask _) fun _ => .pure _)) fun _ =>
      tell_recompute_respects stable id _
  · exact tell_recompute_respects stable id _

theorem showText_respects (id : Handle) (text : String) (item : Option Candidate) :
    Respects P (showText id text item) :=
  .bind (.ask _) fun _ => .bind (setState_respects stable id _) fun _ =>
    tell_recompute_respects stable id _

theorem dropContent_respects (id : Handle) : Respects P (dropContent id) := by
  refine .bind (.ask _) fun held => ?_
  split
  · exact .fault _
  · exact .bind (setState_respects stable id _) fun _ => .bind .get fun _ =>
      .bind (.remark (arena_idle P) _) fun _ => .bind (dispose_respects stable _) fun _ =>
        .bind (recompute_respects stable id) fun _ => tell_respects id _

theorem attachItem_respects (list : Handle) (index : Nat) (item : Handle) :
    Respects P (attachItem list index item) :=
  .bind (.checkGap list index) fun _ => .bind (.ask _) fun _ =>
    .bind (setState_respects stable list _) fun _ =>
      .bind (setParent_respects stable item _) fun _ =>
        .bind (recompute_respects stable list) fun _ => tell_respects list _

theorem dropItem_respects (list : Handle) (index : Nat) : Respects P (dropItem list index) :=
  .bind (.reads fun w => reads_itemAt list index w) fun _ => .bind (.ask _) fun _ =>
    .bind (setState_respects stable list _) fun _ => .bind (dispose_respects stable _) fun _ =>
      .bind (recompute_respects stable list) fun _ => tell_respects list _

omit stable in
theorem contentScope_respects (id : Handle) : Respects P (contentScope (S := S) id) := by
  refine .bind (.ask _) fun held => .bind (.ask _) fun editor => ?_
  split
  · exact .pure _
  · exact .bind (.bind .get fun _ => .pure _) fun _ => .pure _
  · exact .bind (.actionChange fun _ holds => holds) fun _ => .pure _

omit [Language S] in
def Restorer.Respects (P : Arena S → Prop) (restore : Restorer S) : Prop :=
  ∀ id s, Workspace.Respects P (restore id s)

variable {restore : Restorer S}

omit [Language S] in
theorem orDispose_respects {action : Editing S Unit} (id : Handle) (respects : Respects P action) :
    Respects P (orDispose id action) := by
  refine .bind (.attempt respects) fun result => ?_
  cases result with
  | ok _ => exact .pure id
  | error error => exact .bind (dispose_respects stable id) fun _ => .refuse error

theorem rebuildAsWith_respects (below : restore.Respects P) (c : ClassKey S) (s : Snapshot)
    (context : Context) : Respects P (rebuildAsWith restore c s context) :=
  .bind (create_respects stable c context) fun id =>
    orDispose_respects stable id (.unrecorded (arena_idle P) context (below id s))

theorem rebuildWith_respects (below : restore.Respects P) (s : Snapshot) (context : Context) :
    Respects P (rebuildWith restore s context) := by
  unfold rebuildWith
  split
  · exact .refuse _
  · exact .bind (.actionAsk _) fun registry => .bind (.ofExcept _) fun c =>
      rebuildAsWith_respects stable below c s context

theorem relocateWith_respects (below : restore.Respects P) (id : Handle) (context : Context) :
    Respects P (relocateWith restore id context) := by
  refine .bind (.ask _) fun editor => ?_
  split
  · exact .pure id
  · exact .perhaps (.refuse _) (.bind (.ask _) fun s =>
      .bind (rebuildAsWith_respects stable below _ s context) fun _ =>
        .bind (dispose_respects stable id) fun _ => .pure _)

theorem fillWith_respects (below : restore.Respects P) (id editor : Handle) :
    Respects P (fillWith restore id editor) :=
  .bind (.requireTextMode id _) fun _ => .bind (.ask _) fun _ => .perhaps (.refuse _) <|
    .bind (contentScope_respects id) fun scope =>
      .bind (relocateWith_respects stable below editor scope.2) fun content =>
        .bind (setParent_respects stable content _) fun _ =>
          .bind (setState_respects stable id _) fun _ =>
            .bind (recompute_respects stable id) fun _ => .bind (tell_respects id _) fun _ =>
              .bind .get fun _ => .bind (.remark (arena_idle P) _) fun _ => .pure content

theorem clear_respects (id : Handle) : Respects P (clear id) := by
  refine .bind (.ask _) fun expanded => ?_
  split
  · exact dropContent_respects stable id
  · exact .pure ()

theorem restoreStateWith_respects (below : restore.Respects P) (id : Handle)
    (state : Display Snapshot) : Respects P (restoreStateWith restore id state) := by
  cases state with
  | text text item =>
    rw [restoreStateWith_text]
    exact .bind (clear_respects stable id) fun _ => showText_respects stable id text item
  | expanded s =>
    rw [restoreStateWith_expanded]
    exact .bind (contentScope_respects id) fun scope =>
      .bind (rebuildWith_respects stable below s scope.2) fun content =>
        .bind (clear_respects stable id) fun _ =>
          .bind (fillWith_respects stable below id content) fun _ => .pure ()

theorem restoreItemsWith_respects (below : restore.Respects P) (list : Handle)
    (element : ClassKey S) (context : Context) (index : Nat) (items : List Snapshot) :
    Respects P (restoreItemsWith restore list element context index items) := by
  induction items generalizing index with
  | nil => exact .pure ()
  | cons s rest ih =>
    exact .bind (rebuildAsWith_respects stable below element s context) fun item =>
      .bind (attachItem_respects stable list index item) fun _ => ih (index + 1)

theorem restoreWith_respects (below : restore.Respects P) :
    Restorer.Respects P (restoreWith restore) := by
  intro id s
  refine .bind (.ask _) fun shape => .perhaps (.refuse _) ?_
  cases s with
  | token name text itemClass item => exact writeToken_respects stable id text _ false
  | expander name content text itemClass item =>
    dsimp only
    split
    · exact restoreStateWith_respects stable below id _
    · exact .pure ()
  | compound name components =>
    exact .bind (.ask _) fun ids => .perhaps (.refuse _)
      (.forM fun part _ => below part.1 part.2)
  | list name items =>
    exact .bind (.bind (.ask _) fun _ => .forM fun index _ => dropItem_respects stable id index)
      fun _ => .bind (.ask _) fun held => .bind (.ask _) fun editor =>
        restoreItemsWith_respects stable below id _ editor.context 0 items

theorem restore_respects : Restorer.Respects P (Workspace.restore : Restorer S) := by
  have within : ∀ levels, Restorer.Respects P (restoreWithin levels : Restorer S) := by
    intro levels
    induction levels with
    | zero => exact fun _ _ => .refuse _
    | succ levels ih => exact restoreWith_respects stable ih
  exact fun id s => within s.depth id s

theorem relocate_respects (id : Handle) (context : Context) :
    Respects P (relocate id context : Editing S Handle) :=
  relocateWith_respects stable (restore_respects stable) id context

theorem rebuild_respects (s : Snapshot) (context : Context) :
    Respects P (rebuild s context : Editing S Handle) :=
  rebuildWith_respects stable (restore_respects stable) s context

theorem fill_respects (id editor : Handle) : Respects P (fill id editor : Editing S Handle) :=
  fillWith_respects stable (restore_respects stable) id editor

theorem restoreState_respects (id : Handle) (state : Display Snapshot) :
    Respects P (restoreState id state : Editing S Unit) :=
  restoreStateWith_respects stable (restore_respects stable) id state

theorem gather_respects (context : Context) (ids : List Handle) :
    Respects P (gather context ids : Editing S (List Handle)) := by
  induction ids with
  | nil => exact .pure []
  | cons id rest ih =>
    exact .bind (.ask _) fun _ => .perhaps (.refuse _)
      (.bind (relocate_respects stable id context) fun _ => .bind ih fun _ => .pure _)

theorem assemble_respects (k : S.CompoundClass) (components : List Handle) (context : Context) :
    Respects P (assemble k components context) := by
  unfold assemble
  exact .perhaps (.refuse _) (.bind (gather_respects stable context components) fun _ =>
    enter_respects stable context _)

theorem wrap_respects (k : S.ExpanderClass) (editor : Handle) (context : Context) :
    Respects P (wrap k editor context) :=
  .bind (insert_respects stable context _) fun id =>
    orDispose_respects stable id (.bind (fill_respects stable id editor) fun _ => .pure ())

omit [Language S] in
theorem removeDocument_respects (id : Handle) :
    Respects P (removeDocument id : Editing S Unit) :=
  .bind (.ask _) fun _ => .perhaps (.refuse _) (dispose_respects stable id)

theorem placeItem_respects (list : Handle) (index : Nat) (editor : Handle) :
    Respects P (placeItem list index editor : Editing S Handle) :=
  .bind (.checkGap list index) fun _ => .bind (.ask _) fun _ => .perhaps (.refuse _) <|
    .bind (.ask _) fun above => .bind (relocate_respects stable editor above.context) fun item =>
      .bind (attachItem_respects stable list index item) fun _ =>
        .bind (.recordIfActive (arena_idle P) list (.bind (.ask _) fun _ => .bind (.ask _) fun _ =>
          .pure _)) fun _ => .pure item

theorem pasteContent_respects (id : Handle) (s : Snapshot) :
    Respects P (pasteContent id s : Editing S Bool) := by
  refine .bind (contentScope_respects id) fun scope =>
    .bind (.attempt (rebuild_respects stable s scope.2)) fun built => ?_
  cases built with
  | error _ => exact .pure false
  | ok editor =>
    refine .bind (.ask _) fun key => ?_
    split
    · exact .bind (.recordTransition (arena_idle P) id _ (.bind (.ask _) fun _ =>
        .perhaps (dropContent_respects stable id)
          (.bind (fill_respects stable id editor) fun _ => .pure ()))) fun _ => .pure true
    · exact .bind (dispose_respects stable editor) fun _ => .pure false

theorem replayInsert_respects (list : Locator) (index : Nat) (item : Snapshot) :
    Respects P (replayInsert list index item : Editing S Unit) :=
  .bind (.ask _) fun list => .bind (.ask _) fun editor =>
    .bind (rebuild_respects stable item editor.context) fun x =>
      attachItem_respects stable list index x

omit [Language S] in
theorem watch_respects (id : Handle) (view : ViewId) :
    Respects P (watch id view : Editing S Unit) :=
  .bind (.ask _) fun _ => fun _ holds => .of_ok rfl (stable.modify id _ holds)

omit [Language S] in
theorem unwatch_respects (id : Handle) (view : ViewId) :
    Respects P (unwatch id view : Editing S Bool) :=
  .bind (.ask _) fun _ => .bind .get fun _ => .bind (.change fun _ holds => stable.modify id _ holds)
    fun _ => .pure _

theorem basis_of_stable : Basis fun w : Workspace S => P w.arena where
  idle := arena_idle P
  create := create_respects stable
  leaf context state _ := insert_respects stable context state
  writeToken := writeToken_respects stable
  showText := showText_respects stable
  dropContent := dropContent_respects stable
  dropItem := dropItem_respects stable
  contentScope := contentScope_respects
  relocate := relocate_respects stable
  rebuild := rebuild_respects stable
  rebuildAs := rebuildAsWith_respects stable (restore_respects stable)
  fill := fill_respects stable
  restoreState := restoreState_respects stable
  restore := restore_respects stable
  assemble := assemble_respects stable
  wrap := wrap_respects stable
  removeDocument := removeDocument_respects stable
  placeItem := placeItem_respects stable
  pasteContent := pasteContent_respects stable
  replayInsert := replayInsert_respects stable
  watch := watch_respects stable
  unwatch := unwatch_respects stable

theorem perform_respects (request : Request S) : Respects P (perform request) :=
  (basis_of_stable stable).perform request

end Workspace

end StructureEditor
