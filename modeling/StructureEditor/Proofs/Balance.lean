import StructureEditor.Proofs.Census
import StructureEditor.Proofs.Refusals

/-! Documents are neither lost nor left behind. Changing documents, pasting into them and replaying
what was recorded builds editors beside the documents, moves them and throws them away; when it
goes through, the roots are the ones that were there. So everything that was built stands below
one of them, or its slot was given back. -/
namespace StructureEditor

variable {S : Signature}

namespace Arena

variable {a a' : Arena S} {id x : Handle}

theorem Grows.keeps_root (grows : a.Grows a') (root : a.IsRoot x) : a'.IsRoot x := by
  obtain ⟨e, isLive, free⟩ := root
  exact ⟨e, grows x e isLive, free⟩

theorem Changes.keeps_root (changes : a.Changes a' id) (root : a.IsRoot x) : a'.IsRoot x := by
  by_cases within : a.links.Within id x
  · obtain rfl := root.eq_of_within within
    obtain ⟨e, isLive, free⟩ := root
    obtain ⟨e', isLive', kept⟩ := changes.top e isLive
    exact ⟨e', isLive', kept.2.1.trans free⟩
  · obtain ⟨e, isLive, free⟩ := root
    exact ⟨e, changes.outside x e isLive within, free⟩

end Arena

namespace Workspace

variable {α β : Type} {w w' w'' w₀ : Workspace S} {id : Handle} {editor : Editor S}

variable [Language S]

/-- The roots are the ones that were there. Contexts may have been added. -/
structure Balanced (w w' : Workspace S) : Prop where
  sound : w'.arena.Sound
  contexts : w.contexts.Grown w'.contexts
  roots : ∀ x, w'.arena.IsRoot x ↔ w.arena.IsRoot x

theorem Balanced.refl (sound : w.arena.Sound) : Balanced w w := ⟨sound, .refl _, fun _ => .rfl⟩

theorem Balanced.trans (first : Balanced w w') (second : Balanced w' w'') : Balanced w w'' :=
  ⟨second.sound, first.contexts.trans second.contexts, fun x =>
    (second.roots x).trans (first.roots x)⟩

theorem Balanced.noted (balanced : Balanced w w') (histories : Histories Edit) :
    Balanced w { w' with histories } :=
  ⟨balanced.sound, balanced.contexts, balanced.roots⟩

theorem Confined.balanced (changed : Confined w w' id) (noNew : w.arena.NoNewRoots w'.arena) :
    Balanced w w' :=
  ⟨changed.sound, changed.quiet.contexts, fun x => ⟨noNew x, changed.changes.keeps_root⟩⟩

theorem Added.balanced (added : Added w w') (noNew : w.arena.NoNewRoots w'.arena) :
    Balanced w w' :=
  ⟨added.sound, added.quiet.contexts, fun x => ⟨noNew x, added.grows.keeps_root⟩⟩

theorem Rewrites.balanced {state : EditorState S} {apart : Handle → Prop}
    (done : Rewrites w w' id state apart) (found : w.arena.get? id = some editor)
    (below : ∀ x, apart x → ¬ w.arena.IsRoot x) (gone : ∀ x, apart x → w'.arena.outline x = none) :
    Balanced w w' where
  sound := done.sound
  contexts := done.quiet.contexts
  roots x := by
    refine ⟨done.noNewRoots found (fun x isApart => Arena.not_isRoot_of_none (gone x isApart)) x,
      fun root => ?_⟩
    by_cases here : x = id
    · subst here
      obtain ⟨e, isLive, free⟩ := root
      exact ⟨_, done.here e isLive, free⟩
    · have same := done.kept x here fun isApart => below x isApart root
      obtain ⟨e, isLive, free⟩ := root
      exact ⟨e, same.trans isLive, free⟩

def Conserves (action : Editing S α) (w : Workspace S) : Prop :=
  Action.Meets action w (fun _ w' => Balanced w w') fun _ _ => True

theorem Conserves.then {action : Editing S α} {next : α → Editing S β}
    (first : Conserves action w)
    (rest : ∀ value w', Balanced w w' → Conserves (next value) w') :
    Conserves (action >>= next) w :=
  Action.Meets.bind (first.mono (fun value w' balanced =>
    (rest value w' balanced).mono (fun _ _ more => balanced.trans more) fun _ _ _ => trivial)
    fun _ _ _ => trivial)

omit [Language S] in
theorem ask_rule {question : Arena S → Except Refusal α} {next : α → Editing S β}
    {ok : β → Workspace S → Prop}
    (rest : ∀ value, question w.arena = .ok value → Action.Meets (next value) w ok fun _ _ => True) :
    Action.Meets (ask question >>= next) w ok fun _ _ => True :=
  .bind (.ask rest fun _ _ => trivial)

theorem recordTransition_ends {action : Editing S α} {ok : α → Workspace S → Prop}
    (description : String) (ends : Action.Meets action w
      (fun value w' => ∀ histories, ok value { w' with histories }) fun _ _ => True) :
    Action.Meets (recordTransition id description action) w ok fun _ _ => True :=
  recordTransition_rule description (fun _ => trivial)
    (ends.mono (fun _ _ each => ⟨each, fun _ => trivial⟩) fun _ _ _ => trivial)

theorem recordTransition_conserves {action : Editing S α} (description : String)
    (conserves : Conserves action w) : Conserves (recordTransition id description action) w :=
  recordTransition_ends description
    (conserves.mono (fun _ _ balanced => balanced.noted) fun _ _ _ => trivial)

theorem recordIfActive_conserves {make : Editing S Edit} (made : ∀ w : Workspace S, Reads make w)
    (sound : w.arena.Sound) : Conserves (recordIfActive id make) w := by
  cases found : w.arena.get? id with
  | none => exact .of_error (Action.bind_run_error _ (recording?_stale found)) trivial
  | some editor =>
    refine .after_ok (recording?_run found) ?_
    cases w.recorder? editor.context with
    | none => exact .pure (.refl sound)
    | some h =>
      refine .bind ((made w).mono ?_ fun _ _ _ => trivial)
      rintro edit _ rfl
      exact .of_ok rfl ((Balanced.refl sound).noted _)

theorem finish_conserves (h : HistoryId) (description : String) (sound : w.arena.Sound) :
    Conserves ((historyLens h).finish description) w := by
  refine Action.Meets.after_ok (Action.get_run w) ?_
  dsimp only
  split
  · exact .of_ok rfl ((Balanced.refl sound).noted _)
  · exact .fault trivial

theorem grouped_conserves {action : Editing S α} {h : HistoryId} (description : String)
    (conserves : ∀ histories, Conserves action { w with histories }) :
    Conserves ((historyLens h).grouped description action) w := by
  by_cases joins : (!((historyLens h).view w).active || ((historyLens h).view w).isOpen) = true
  · exact .of_eq (HistoryLens.grouped_joins description action joins) (conserves w.histories)
  · refine .of_eq (HistoryLens.grouped_opens description action joins)
      (.bind (.attempt ((conserves _).mono ?_ ?_)))
    · intro value w' balanced
      have whole : Balanced w w' := ⟨balanced.sound, balanced.contexts, balanced.roots⟩
      exact .bind ((finish_conserves h description balanced.sound).mono
        (fun _ w'' more => .pure (whole.trans more)) fun _ _ _ => trivial)
    · intro stop w' _
      cases stop with
      | refused error => exact .bind (.always (fun _ _ => .refuse trivial) fun _ _ => trivial)
      | fault f => trivial

theorem asOneStep_conserves {action : Editing S α} (description : String)
    (conserves : ∀ histories, Conserves action { w with histories }) :
    Conserves (asOneStep id description action) w := by
  cases found : w.arena.get? id with
  | none => exact .of_error (Action.bind_run_error _ (historyFor?_stale found)) trivial
  | some editor =>
    refine .after_ok (historyFor?_run found) ?_
    cases w.contexts.find? (·.history) editor.context with
    | none => exact conserves w.histories
    | some h => exact grouped_conserves description conserves

theorem writeToken_conserves (text : String) (item : Option Candidate) (undoable : Bool)
    (sound : w.arena.Sound) : Conserves (writeToken id text item undoable) w := by
  cases answered : w.arena.token id with
  | error error =>
    have asked : ask (·.token id) w = .error (.refused error) w := Action.ask_run_error answered
    exact .of_error (Action.bind_run_error _ asked) trivial
  | ok answer =>
    obtain ⟨k, old, oldItem⟩ := answer
    obtain ⟨editor, found, state⟩ := Arena.get?_of_state? (Arena.token_eq_ok_iff.1 answered)
    obtain ⟨w', ran, done⟩ := writeToken_run text item undoable sound found state
    have balanced := done.balanced found nofun nofun
    exact .of_ok ran ⟨balanced.sound, balanced.contexts, balanced.roots⟩

theorem showText_conserves {k : S.ExpanderClass} {old : String} {oldItem : Option Candidate}
    (text : String) (item : Option Candidate) (sound : w.arena.Sound)
    (held : w.arena.state? id = some (.expander k (.text old oldItem))) :
    Conserves (showText id text item) w := by
  obtain ⟨editor, found, _⟩ := Arena.get?_of_state? held
  obtain ⟨w', ran, done⟩ := showText_run text item sound held
  exact .of_ok ran (done.balanced found nofun nofun)

theorem not_root_below {x c : Handle} (sound : w.arena.Sound)
    (found : w.arena.get? id = some editor) (member : c ∈ editor.state.children)
    (within : w.arena.links.Within c x) : ¬ w.arena.IsRoot x := by
  intro root
  obtain rfl := root.eq_of_within within
  obtain ⟨child, isLive, hasParent⟩ := Arena.live_child sound.forest found member
  exact Arena.not_isRoot_of_parent (Arena.outline_of_get? isLive) hasParent root

theorem dropContent_conserves (sound : w.arena.Sound) : Conserves (dropContent id) w := by
  refine ask_rule fun answer answered => ?_
  obtain ⟨k, display⟩ := answer
  have held := Arena.expander_eq_ok_iff.1 answered
  cases display with
  | text text item => exact .fault trivial
  | expanded content =>
    obtain ⟨editor, found, state⟩ := Arena.get?_of_state? held
    obtain ⟨w', ran, done, gone⟩ := dropContent_run sound held
    have asked : ask (·.expander id) w = .ok (k, .expanded content) w := ask_run answered
    rw [dropContent, Action.bind_run_ok _ asked] at ran
    exact .of_ok ran (done.balanced found (fun x within =>
      not_root_below sound found (by simp [state, EditorState.children]) within) gone)

theorem dropItem_conserves {list : Handle} {index : Nat} (sound : w.arena.Sound) :
    Conserves (dropItem list index) w := by
  obtain ⟨k, ids, item, w', held, listed, ran, done, gone⟩ | ⟨error, ran⟩ :=
    dropItem_cases list index sound
  · obtain ⟨editor, found, state⟩ := Arena.get?_of_state? held
    have member : item ∈ editor.state.children := state ▸ List.mem_of_getElem? listed
    exact .of_ok ran (done.balanced found (fun x => not_root_below sound found member) gone)
  · exact .of_error ran trivial

theorem Built.joined_balanced {k : S.ListClass} {ids : List Handle} {list item : Handle}
    {element : ClassKey S} {index : Nat} (built : Built w w' item element editor.context)
    (sound : w.arena.Sound) (one : w.arena.OneNewRoot w'.arena item)
    (found : w.arena.get? list = some editor) (held : editor.state = .list k ids)
    (inside : index ≤ ids.length) :
    ∃ w'', attachItem list index item w' = .ok () w'' ∧ Balanced w w'' := by
  obtain ⟨w'', ran, joined⟩ := built.joins sound found held inside
  obtain ⟨child, root, _⟩ := built.root
  obtain ⟨editor', found', _⟩ :=
    Arena.get?_of_outline (built.grows list _ (Arena.outline_of_get? found))
  exact ⟨w'', ran, joined.confined.balanced
    (joined.rewrites.hides found' (joined.linked child root) one)⟩

theorem openItem_conserves (list : Handle) (index : Nat) (sound : w.arena.Sound) :
    Conserves (openItem list index) w := by
  refine (reads_checkGap list index w).rule (fun _ => trivial) fun _ ran => ?_
  obtain ⟨k, ids, held, inside⟩ := checkGap_ok ran
  refine ask_rule fun ⟨k', ids'⟩ answered => ?_
  cases (Arena.list_eq_ok_iff.1 answered).symm.trans held
  obtain ⟨above, found, state⟩ := Arena.get?_of_state? held
  have built := created (w := w) (Arena.create_made (Language.list k).element above.context sound)
  have one := (Arena.create_adds (Language.list k).element above.context sound).oneNewRoot
  obtain ⟨new, newFound, newRoot, newContext, _⟩ := built.root
  obtain ⟨above', found', _, context, _⟩ :=
    Arena.kept_of_outline (built.grows list _ (Arena.outline_of_get? found))
  obtain ⟨w', attached, balanced⟩ := built.joined_balanced sound one found state inside
  refine .after_ok (lookup_run found) (.after_ok (create_run _ above.context w)
    ((reads_checkGap list index _).rule (fun _ => trivial) fun _ _ =>
      .after_ok (lookup_run newFound) ?_))
  simp only [newRoot, Option.isSome_none, Bool.false_eq_true, if_false]
  refine .after_ok (lookup_run found')
    (.after_ok (relocate_here newFound (newContext.trans context.symm)) (.after_ok attached ?_))
  have recorded : Conserves (recordIfActive list do
      return .insertion (← ask (·.locate list)) index (← ask (·.snapshot
        ((Arena.create (Language.list k).element above.context).run w.arena).1))) w' :=
    recordIfActive_conserves (fun w => .bind (reads_ask _ w) fun _ => .bind (reads_ask _ w) fun _ =>
      reads_pure _ w) balanced.sound
  exact .bind (recorded.mono (fun _ _ more => .pure (balanced.trans more)) fun _ _ _ => trivial)

theorem removeAt_conserves (list : Handle) (index : Nat) (sound : w.arena.Sound) :
    Conserves (removeAt list index) w := by
  refine (reads_itemAt list index w).rule (fun _ => trivial) fun item ran => ?_
  obtain ⟨k, ids, held, _⟩ := itemAt_ok ran
  obtain ⟨above, found, _⟩ := Arena.get?_of_state? held
  refine .after_ok (recording?_run found) ?_
  cases w.recorder? above.context with
  | none => exact dropItem_conserves sound
  | some h =>
    exact ask_rule fun _ _ => ask_rule fun _ _ => (dropItem_conserves sound).then fun _ w' dropped =>
      recordIfActive_conserves (fun w => reads_pure _ w) dropped.sound

theorem restore_conserves (id : Handle) (s : Snapshot) (sound : w.arena.Sound)
    : Conserves (restore id s) w :=
  (Action.Meets.and (restore_safe w id s sound) (restore_thorough s w id sound)).mono
    (fun _ _ both => both.1.balanced both.2.1) fun _ _ _ => trivial

theorem display?_ofExpander (state : Display Snapshot) :
    (Snapshot.ofExpander none state).display? = some state := by
  cases state with
  | text text item =>
    simp only [Snapshot.ofExpander, Snapshot.display?, Option.getD_some, candidate?_of]
  | expanded s => rfl

theorem restoreState_conserves (id : Handle) (state : Display Snapshot) (sound : w.arena.Sound)
    : Conserves (restoreState id state) w :=
  (Action.Meets.and (restoreStateWith_meets restore_safe sound state) (restoreStateWith_renders
    (restore_masters (Snapshot.ofExpander none state).depth) sound
    (display?_ofExpander state) (Nat.le_succ _))).mono (fun _ _ both => both.1.balanced both.2.1)
      fun _ _ _ => trivial

theorem replayInsert_conserves (list : Locator) (index : Nat) (item : Snapshot)
    (sound : w.arena.Sound) :
    Conserves (replayInsert list index item) w := by
  refine ask_rule fun id located => ask_rule fun above looked => ?_
  have found := Arena.get_eq_ok_iff.1 looked
  refine .bind ((Action.Meets.and (rebuildWith_meets restore_safe sound) (rebuildWith_renders
    restore_safe (restore_thorough item) sound)).mono ?_ fun _ _ _ => trivial)
  rintro x w₁ ⟨⟨c, built⟩, one, _⟩
  obtain ⟨k, ids, held, inside, _⟩ | ⟨error, refused⟩ := checkGap_cases id index w₁
  · obtain ⟨above', found', state, _⟩ :=
      Arena.kept_of_outline (built.grows id _ (Arena.outline_of_get? found))
    rw [Arena.state?_of_get? found', state] at held
    obtain ⟨w₂, attached, balanced⟩ :=
      built.joined_balanced sound one found (Option.some.inj held) inside
    exact .of_ok attached balanced
  · exact .of_error (Action.bind_run_error _ refused) trivial

theorem replay_conserves (direction : Direction) (edit : Edit) (sound : w.arena.Sound)
    : Conserves (replay direction edit) w := by
  refine replay_cases (P := fun action => Conserves action w) direction edit ?_ ?_ ?_ ?_ ?_
  · exact fun _ text item => ask_rule fun id _ => writeToken_conserves text item false sound
  · exact fun _ state => ask_rule fun id _ => restoreState_conserves id state sound
  · exact fun list index item _ => replayInsert_conserves list index item sound
  · exact fun _ _ => ask_rule fun _ _ => dropItem_conserves sound
  · exact fun _ s _ => ask_rule fun id _ => restore_conserves id s sound

theorem replayAll_conserves (direction : Direction) (edits : List Edit) (sound : w.arena.Sound)
    : Conserves (edits.forM (replay direction)) w := by
  induction edits generalizing w with
  | nil => exact .pure (.refl sound)
  | cons edit rest ih =>
    exact (replay_conserves direction edit sound).then fun _ w' done =>
      ih done.sound

theorem move_conserves (h : HistoryId) (direction : Direction) (sound : w.arena.Sound)
    : Conserves (move h direction) w := by
  refine move_rule trivial (.refl sound) fun step rest _ => ?_
  have all : Conserves ((step.replayOrder direction).forM (replay direction))
      (w.replaying h (History.taken direction rest ((historyLens h).view w))) :=
    replayAll_conserves direction _ sound
  exact all.mono (fun _ _ done _ => ⟨done.sound, done.contexts, done.roots⟩) fun _ _ _ _ => trivial

theorem Built.dispose_balanced {c : ClassKey S} {context : Context}
    (built : Built w w' id c context) (sound : w.arena.Sound)
    (one : w.arena.OneNewRoot w'.arena id) :
    Balanced w { w' with arena := w'.arena.dispose id } := by
  obtain ⟨root, found, free, _⟩ := built.root
  refine (built.dispose sound).balanced fun x isRoot => ?_
  obtain ⟨other, isRoot⟩ := built.sound.roots_dispose found free isRoot
  exact (one x isRoot).resolve_left other

theorem balanced_scopeFor (sound : w.arena.Sound) (k : S.ExpanderClass) (own : Context) :
    Balanced w { w with contexts := (w.scopeFor k own).2 } :=
  (added_scopeFor sound k own).balanced (.refl _)

theorem pasteContent_conserves (id : Handle) (s : Snapshot) (sound : w.arena.Sound)
    : Conserves (pasteContent id s) w := by
  refine pasteContent_rule sound (fun _ => trivial) fun {k editor display} found held => ?_
  have begun := balanced_scopeFor sound k editor.context
  refine (rebuildWith_renders restore_safe (restore_thorough s) begun.sound).mono ?_ ?_
  · rintro content w₂ ⟨one, d, seen, _, conforms, supplied, _⟩ c built
    refine ⟨begun.trans (built.dispose_balanced begun.sound one), ?_⟩
    obtain ⟨w₃, refilled, changed, noNew, _⟩ := refill_run restore_safe
      (restore_restores conforms) (restore_thorough _) sound found held built one seen
      supplied
    exact recordTransition_ends "Paste" (.of_ok refilled (changed.balanced noNew).noted)
  · intro stop w₂ noNew added
    cases stop with
    | fault f => trivial
    | refused error => exact begun.trans (added.balanced (noNew error rfl))

theorem paste_conserves (id : Handle) (s : Snapshot) (sound : w.arena.Sound)
    : Conserves (paste id s) w := by
  exact paste_rule (fun _ => trivial) (.refl sound)
    (fun text item _ => writeToken_conserves text item true sound)
    (fun text item _ => recordTransition_conserves "Paste"
      (restoreState_conserves id (.text text item) sound))
    fun s => pasteContent_conserves id s sound

end Workspace

end StructureEditor
