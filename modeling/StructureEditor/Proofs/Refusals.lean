import StructureEditor.Proofs.Discretion
import StructureEditor.Proofs.Reachability
import StructureEditor.Proofs.Recording
import StructureEditor.Proofs.Rendering
import StructureEditor.Proofs.RoundTrip
import StructureEditor.Proofs.SampleLanguage

/-! What a refused request leaves behind. Requests that build something build it beside the
documents and discard it when they are refused, so that afterwards every editor and every
history is as it was. -/
namespace StructureEditor

variable {S : Signature}

/-- Requests that leave nothing behind when they are refused. -/
def Request.isCareful : Request S → Bool
  | .rebuild .. | .rebuildAs .. | .restoreState .. | .relocate .. | .fill .. | .wrap ..
  | .placeItem .. | .openItem .. | .removeAt .. | .paste .. => true
  | _ => false

variable [Language S]

namespace Workspace

variable {α β : Type} {w w' w'' : Workspace S} {id : Handle} {editor : Editor S} {s : Snapshot}
  {context : Context} {c : ClassKey S} {k : S.ExpanderClass}

/-- Every editor is as before, with its result, and so is every history. Slots may have been
used in between, hooks may have remarked on it, and there may be new contexts without services. -/
structure Untouched (w w' : Workspace S) : Prop where
  editors : ∀ x, w'.arena.get? x = w.arena.get? x
  histories : w'.histories = w.histories
  views : w'.views = w.views
  contexts : w.contexts.Grown w'.contexts
  journal : ∃ lines : List String, w'.journal = w.journal ++ lines.map (Event.remark (S := S))

omit [Language S] in
theorem Untouched.refl (w : Workspace S) : Untouched w w :=
  ⟨fun _ => rfl, rfl, rfl, .refl _, [], by simp⟩

omit [Language S] in
theorem Untouched.trans (first : Untouched w w') (second : Untouched w' w'') :
    Untouched w w'' := by
  obtain ⟨lines, journal⟩ := first.journal
  obtain ⟨more, journal'⟩ := second.journal
  refine ⟨fun x => (second.editors x).trans (first.editors x),
    second.histories.trans first.histories, second.views.trans first.views,
    first.contexts.trans second.contexts, lines ++ more, ?_⟩
  rw [journal', journal]
  refine Array.ext' ?_
  simp only [List.map_append, Array.toList_appendList, List.append_assoc]

theorem untouched_scopeFor (w : Workspace S) (k : S.ExpanderClass) (own : Context) :
    Untouched w { w with contexts := (w.scopeFor k own).2 } :=
  ⟨fun _ => rfl, rfl, rfl, grown_scopeFor w k own, [], by simp⟩

theorem Added.untouched (added : Added w w') (sound : w.arena.Sound)
    (noNew : w.arena.NoNewRoots w'.arena) (discreet : Discreet w w') : Untouched w w' where
  editors := Arena.get?_of_outline_eq sound added.sound
    (Arena.outline_eq_of_roots added.grows noNew sound.forest added.sound.forest)
  histories := added.quiet.histories
  views := added.quiet.views
  contexts := added.quiet.contexts
  journal := discreet.journal

theorem Built.discarded (built : Built w w' id c context) (sound : w.arena.Sound)
    (one : w.arena.OneNewRoot w'.arena id) (discreet : Discreet w w') :
    Untouched w { w' with arena := w'.arena.dispose id } := by
  obtain ⟨root, found, free, _⟩ := built.root
  refine (built.dispose sound).untouched sound (fun x isRoot => ?_)
    ((dispose_discreet id discreet).ok_of (dispose_run id w'))
  obtain ⟨other, isRoot⟩ := built.sound.roots_dispose found free isRoot
  exact (one x isRoot).resolve_left other

/-- If it is refused, an action has touched nothing. -/
def Careful (action : Editing S α) (w : Workspace S) : Prop :=
  Action.Meets action w (fun _ _ => True) (OnRefusal (Untouched w))

omit [Language S] in
theorem Careful.ask {question : Arena S → Except Refusal α} {next : α → Editing S β}
    (rest : ∀ value, question w.arena = .ok value → Careful (next value) w) :
    Careful (Workspace.ask question >>= next) w :=
  Action.Meets.bind (.ask rest fun _ _ _ _ => .refl w)

omit [Language S] in
theorem Careful.reads {action : Editing S α} {next : α → Editing S β} (reads : Reads action w)
    (rest : ∀ value, action w = .ok value w → Careful (next value) w) :
    Careful (action >>= next) w :=
  reads.rule (fun _ _ _ => .refl w) rest

omit [Language S] in
theorem Careful.map {action : Editing S α} {f : α → β} (careful : Careful action w) :
    Careful (do return f (← action)) w :=
  Action.Meets.bind (careful.mono (fun _ _ _ => .pure trivial) fun _ _ untouched => untouched)

theorem careful_of_added {action : Editing S α} {ok ok' : α → Workspace S → Prop}
    (sound : w.arena.Sound) (added : Action.Meets action w ok fun _ w' => Added w w')
    (roots : Action.Meets action w ok' (OnRefusal fun w' => w.arena.NoNewRoots w'.arena))
    (discreet : Ensures action w (Discreet w)) : Careful action w :=
  (Action.Meets.and added (Action.Meets.and roots discreet)).mono (fun _ _ _ => trivial)
    fun _ _ ⟨added, noNew, discreet⟩ error refused =>
      added.untouched sound (noNew error refused) discreet

theorem rebuildWith_careful {restore : Restorer S} (safe : restore.Safe)
    (thorough : restore.Thorough s) (discreet : restore.Discreet) (sound : w.arena.Sound)
    (context : Context) :
    Careful (rebuildWith restore s context) w :=
  careful_of_added sound (rebuildWith_meets safe sound)
    (rebuildWith_renders safe thorough sound)
    (rebuildWith_discreet discreet sound (.refl sound))

theorem rebuild_careful (sound : w.arena.Sound) (s : Snapshot)
    (context : Context) : Careful (rebuild s context) w :=
  rebuildWith_careful restore_safe (restore_thorough s) restore_discreet sound context

theorem rebuildAs_careful (sound : w.arena.Sound)
    (c : ClassKey S) (s : Snapshot) (context : Context) : Careful (rebuildAs c s context) w :=
  careful_of_added sound (rebuildAsWith_meets restore_safe sound)
    (rebuildAsWith_renders restore_safe (restore_thorough s) sound)
    (rebuildAsWith_discreet restore_discreet sound (.refl sound))

theorem relocate_careful (sound : w.arena.Sound) (id : Handle)
    (context : Context) : Careful (relocate id context) w :=
  careful_of_added sound (relocateWith_meets restore_safe sound)
    (relocateWith_roots restore_safe (fun s _ => restore_thorough s) sound)
    (relocateWith_discreet restore_discreet sound (.refl sound))

theorem fill_careful {source : Handle} (sound : w.arena.Sound)
    (apart : ∀ e, w.arena.get? source = some e → e.parent = none → source ≠ id →
      ¬ w.arena.links.Within source id) : Careful (fill id source) w := by
  refine fillWith_rule apart (fun _ _ _ => .refl w) fun {k old _ _ _} found state isLive free outside =>
    ?_
  have ready := added_scopeFor sound k old.context
  refine (Action.Meets.and (relocateWith_meets restore_safe ready.sound) (relocate_careful
    ready.sound source _)).mono ?_ ?_
  · rintro content w₂ ⟨relocated, _⟩
    obtain ⟨new, old', fetched⟩ :=
      fetched_of_relocated ready.sound relocated found isLive free outside
    obtain ⟨w₃, ran, _⟩ := fetched.hangs state
    exact .of_ok ran trivial
  · rintro stop w₂ ⟨_, careful⟩ error refused
    exact (untouched_scopeFor w k old.context).trans (careful error refused)

theorem wrap_careful {source : Handle} (sound : w.arena.Sound) :
    Careful (wrap k source context) w := by
  have made := created (w := w) (Arena.made_expander k "" context sound)
  have adds : w.arena.Adds (w.arena.insert context (.expander k (.text "" none))).2 _ :=
    Arena.adds_leaf context sound rfl
  obtain ⟨root, found, free, _⟩ := made.root
  have apart : ∀ x, x ≠ (w.arena.insert context (.expander k (.text "" none))).1 →
      ¬ (w.arena.insert context (.expander k (.text "" none))).2.links.Within x
        (w.arena.insert context (.expander k (.text "" none))).1 := fun x other within =>
    other (Links.within_root_unique (Arena.links_of_get? found) free within).symm
  have behind := (Behind.refl sound).added made.toAdded ((Behind.refl sound).adds adds found free)
  refine .after_ok (show newExpander k "" context w = .ok _ _ from rfl) ?_
  refine .bind (.attempt (.bind ((Action.Meets.and (fillWith_meets restore_safe made.sound
    fun _ _ _ other => apart source other) (Action.Meets.and (fillWith_roots restore_safe
    (fun s _ => restore_thorough s) made.sound fun _ _ _ other => apart source other)
    (fillWith_discreet restore_discreet sound behind (Arena.outline_eq_none_iff.1 made.fresh)
      fun _ _ _ other => apart source other))).mono ?_ ?_)))
  · exact fun _ w' _ => .pure (.pure trivial)
  · rintro stop w' ⟨added, noNew, discreet⟩
    cases stop with
    | fault f => exact nofun
    | refused error =>
      have built := made.confined (added.confined _) sound
      exact .after_ok (dispose_run _ w') (.refuse fun _ _ =>
        built.discarded sound (adds.oneNewRoot.trans (noNew error rfl)) discreet)

theorem restoreStateWith_careful {restore : Restorer S} {levels : Nat} {state : Display Snapshot}
    (masters : restore.Masters levels) (discreet : restore.Discreet) (sound : w.arena.Sound)
    (shallow : ∀ s, state = .expanded s → s.depth ≤ levels) :
    Careful (restoreStateWith restore id state) w := by
  refine restoreStateWith_rule masters.safe sound state (fun _ _ _ => .refl w)
    (fun {text item _ _ _ _} _ _ clear held => ?_) fun {s k editor _} isContent found held => ?_
  · obtain ⟨w'', shown, _⟩ := showText_run text item clear.sound held
    exact .of_ok shown trivial
  · have ready := added_scopeFor sound k editor.context
    have thorough := masters.thorough s (shallow s isContent)
    refine (Action.Meets.and (rebuildWith_renders masters.safe thorough ready.sound)
      (rebuildWith_careful masters.safe thorough discreet ready.sound _)).mono ?_ ?_
    · rintro content w₂ ⟨⟨one, d, seen, renders, conforms, supplied, _⟩, _⟩ c built
      have depth := Nat.le_trans renders.depth_le (shallow s isContent)
      obtain ⟨w₃, refilled, _⟩ := refill_run masters.safe (masters.restores d conforms depth)
        (masters.thorough _ depth) sound found held built one seen supplied
      exact .of_ok refilled trivial
    · rintro stop w₂ ⟨_, careful⟩ _ error refused
      exact (untouched_scopeFor w k editor.context).trans (careful error refused)

theorem restoreState_careful (sound : w.arena.Sound) (id : Handle)
    (state : Display Snapshot) : Careful (restoreState id state) w := by
  obtain ⟨levels, shallow⟩ : ∃ levels, ∀ s, state = .expanded s → s.depth ≤ levels := by
    cases state with
    | text => exact ⟨0, by rintro s ⟨⟩⟩
    | expanded content => exact ⟨content.depth, by rintro s ⟨⟩; exact Nat.le_refl _⟩
  exact restoreStateWith_careful (restore_masters levels) restore_discreet sound shallow

theorem putItem_run {kl : S.ListClass} {ids : List Handle} {list item : Handle} {index : Nat}
    {child : Editor S} (sound : w.arena.Sound) (found : w.arena.get? list = some editor)
    (held : editor.state = .list kl ids) (inside : index ≤ ids.length)
    (root : w.arena.get? item = some child) (free : child.parent = none)
    (sameContext : child.context = editor.context) (apart : ¬ w.arena.links.Within item list) :
    ∃ w', putItem list index item w = .ok item w' := by
  obtain ⟨w₁, attached, done, linked⟩ :=
    attachItem_run sound found held inside root free sameContext apart
  obtain ⟨editor₁, found₁, _⟩ := done.live found
  obtain ⟨child₁, root₁, _⟩ := Arena.get?_of_outline linked
  obtain ⟨locator, located⟩ := locate_run done.sound.forest found₁
  obtain ⟨s, captured⟩ := snapshot_run done.sound.forest root₁
  have made : (do return .insertion (← ask (·.locate list)) index (← ask (·.snapshot item)) :
      Editing S Edit) w₁ = .ok (.insertion locator index s) w₁ := by
    rw [Action.bind_run_ok _ located, Action.bind_run_ok _ captured]
    rfl
  refine ⟨{ w₁ with histories := w₁.noting editor₁.context (.insertion locator index s) }, ?_⟩
  rw [putItem, Action.bind_run_ok _ attached,
    Action.bind_run_ok _ (recordIfActive_run found₁ made)]
  rfl

theorem placeItem_careful {list source : Handle} {index : Nat} (sound : w.arena.Sound)
    (apart : ∀ e, w.arena.get? source = some e → e.parent = none →
      ¬ w.arena.links.Within source list) : Careful (placeItem list index source) w := by
  refine placeItem_rule apart (fun _ _ _ => .refl w) fun {_ _ above _} found state inside isLive
    free outside => ?_
  refine (Action.Meets.and (relocateWith_meets restore_safe sound)
    (relocate_careful sound source above.context)).mono ?_ fun _ _ both => both.2
  rintro item w₁ ⟨moved, _⟩
  obtain ⟨_, _, fetched⟩ := fetched_of_relocated sound moved found isLive free outside
  obtain ⟨w₂, ran⟩ := putItem_run fetched.sound fetched.found (fetched.state_eq.trans state) inside
    fetched.root fetched.free (fetched.home.trans fetched.context_eq.symm) fetched.apart
  exact .of_ok ran trivial

theorem openItem_careful (list : Handle) (index : Nat) (sound : w.arena.Sound) :
    Careful (openItem list index) w := by
  refine .reads (reads_checkGap list index w) fun _ ran => ?_
  obtain ⟨kl, ids, held, inside⟩ := checkGap_ok ran
  refine .ask fun answer answered => ?_
  obtain ⟨kl', ids'⟩ := answer
  cases (Arena.list_eq_ok_iff.1 answered).symm.trans held
  obtain ⟨above, found, state⟩ := Arena.get?_of_state? held
  have made := created (w := w) (Arena.create_made (Language.list kl).element above.context sound)
  have outlined := Arena.outline_of_get? found
  obtain ⟨above', found', state', context, _⟩ := Arena.kept_of_outline (made.grows list _ outlined)
  obtain ⟨new, newFound, newRoot, newContext, _⟩ := made.root
  have here := newContext.trans context.symm
  obtain ⟨w₂, ran⟩ := putItem_run made.sound found' (state'.trans state) inside newFound newRoot here
    (made.grows.not_within_fresh sound.forest made.fresh outlined)
  refine .after_ok (lookup_run found) (.after_ok (create_run _ above.context w) (.after_ok
    (checkGap_run ((state'.trans state) ▸ Arena.state?_of_get? found') inside)
    (.after_ok (lookup_run newFound) ?_)))
  simp only [newRoot, Option.isSome_none, Bool.false_eq_true, if_false]
  exact .after_ok (lookup_run found') (.after_ok (relocate_here newFound here) (.of_ok ran trivial))

theorem removeAt_careful (list : Handle) (index : Nat) (sound : w.arena.Sound) :
    Careful (removeAt list index) w := by
  refine .reads (reads_itemAt list index w) fun item ran => ?_
  obtain ⟨kl, ids, held, listed⟩ := itemAt_ok ran
  obtain ⟨above, found, state⟩ := Arena.get?_of_state? held
  have isChild : item ∈ above.state.children := by
    rw [state]
    exact List.mem_of_getElem? listed
  obtain ⟨child, isLive, _⟩ := Arena.live_child sound.forest found isChild
  obtain ⟨w', dropped, done, _⟩ := dropItem_run sound held listed
  obtain ⟨above', found', _⟩ := done.live found
  obtain ⟨locator, located⟩ := locate_run sound.forest found
  obtain ⟨s, captured⟩ := snapshot_run sound.forest isLive
  refine .after_ok (recording?_run found) ?_
  cases w.recorder? above.context with
  | none => exact .of_ok dropped trivial
  | some h => exact .after_ok located (.after_ok captured (.after_ok dropped
      (.of_ok (recordIfActive_run found' rfl) trivial)))

theorem pasteContent_careful (sound : w.arena.Sound) (id : Handle)
    (s : Snapshot) : Action.Meets (pasteContent id s) w
      (fun fits w' => fits = false → Untouched w w') (OnRefusal (Untouched w)) := by
  refine pasteContent_rule sound (fun _ _ _ => .refl w) fun {k editor display} found held => ?_
  have ready := added_scopeFor sound k editor.context
  have begun := untouched_scopeFor w k editor.context
  refine (Action.Meets.and
    (rebuildWith_renders restore_safe (restore_thorough s) ready.sound)
    (Action.Meets.and (rebuildWith_discreet restore_discreet ready.sound (.refl ready.sound))
      (rebuild_careful ready.sound s _))).mono ?_ ?_
  · rintro content w₂ ⟨⟨one, d, seen, _, conforms, supplied, _⟩, discreet, _⟩ c built
    refine ⟨fun _ => begun.trans (built.discarded ready.sound one discreet), ?_⟩
    obtain ⟨w₃, refilled, changed, _, shown, grown⟩ := refill_run restore_safe
      (restore_restores conforms) (restore_thorough _) sound found held built one seen
      supplied
    have quiet : Quiet w₂ w₃ := ⟨changed.quiet.histories.trans built.quiet.histories.symm,
      changed.quiet.views.trans built.quiet.views.symm, grown⟩
    obtain ⟨editor₂, found₂, state₂, _⟩ :=
      Arena.kept_of_outline (built.grows id _ (Arena.outline_of_get? found))
    obtain ⟨content', held₃, _⟩ := Arena.shows_expanded.1 shown
    obtain ⟨edit, recorded⟩ := recordTransition_notes "Paste" built.sound found₂
      (state₂.trans held) refilled changed.sound quiet held₃
    exact .of_ok recorded Bool.noConfusion
  · rintro stop w₂ ⟨_, _, careful⟩ _
    cases stop with
    | fault f => rintro _ ⟨⟩
    | refused error => exact fun _ => begun.trans (careful error rfl)

theorem paste_careful (sound : w.arena.Sound) (id : Handle)
    (s : Snapshot) : Action.Meets (paste id s) w
      (fun fits w' => fits = false → Untouched w w') (OnRefusal (Untouched w)) := by
  refine paste_rule (fun _ _ _ => .refl w) (fun _ => .refl w) (fun text item held => ?_)
    (fun text item held => ?_) fun s => pasteContent_careful sound id s
  · obtain ⟨editor, found, state⟩ := Arena.get?_of_state? held
    obtain ⟨w', written, _⟩ := writeToken_run text item true sound found state
    exact .of_ok written nofun
  · obtain ⟨editor, found, state⟩ := Arena.get?_of_state? held
    obtain ⟨w', ran, seen⟩ := restoreText_run restore text item sound held
    have changed := (restoreStateWith_meets restore_safe sound (.text text item)).ok_of ran
    obtain ⟨edit, recorded⟩ := recordTransition_notes "Paste" sound found state ran changed.sound
      changed.quiet seen
    exact .of_ok recorded nofun

/-- A request was turned down: it was refused, or it was to paste what does not fit. -/
inductive TurnedDown (w : Workspace S) : Request S → Workspace S → Prop where
  | refused {request : Request S} {error : Refusal} {w' : Workspace S} :
      perform request w = .error (.refused error) w' → TurnedDown w request w'
  | unfit {id : Handle} {s : Snapshot} {w' : Workspace S} :
      paste id s w = .ok false w' → TurnedDown w (.paste id s) w'

theorem perform_careful {request : Request S} (sound : w.arena.Sound)
    (allowed : w.Allowed request)
    (careful : request.isCareful = true) : Careful (perform request) w := by
  cases request with
  | rebuild s context => exact (rebuild_careful sound s context).map
  | rebuildAs c s context => exact (rebuildAs_careful sound c s context).map
  | relocate id context => exact (relocate_careful sound id context).map
  | restoreState id state => exact restoreState_careful sound id state
  | fill id editor =>
    exact (fill_careful sound fun _ isLive isRoot other =>
      apart_of_topOf sound (allowed other) isLive isRoot).map
  | wrap k editor context => exact (wrap_careful sound).map
  | placeItem list index editor =>
    exact (placeItem_careful sound fun _ isLive isRoot =>
      apart_of_topOf sound allowed isLive isRoot).map
  | openItem list index => exact (openItem_careful list index sound).map
  | removeAt list index => exact removeAt_careful list index sound
  | paste id s =>
    exact .map ((paste_careful sound id s).mono (fun _ _ _ => trivial)
      fun _ _ untouched => untouched)
  | _ => cases careful

/-- Building, moving, expanding to an editor, changing a list and pasting leave no trace when they
are turned down, however deep in a snapshot the reason lies: every editor is as it was, with its
result, and so is every history. -/
theorem turned_down_leaves_no_trace {request : Request S} (reached : Reaches {} w)
    (allowed : w.Allowed request)
    (careful : request.isCareful = true) (down : w.TurnedDown request w') : Untouched w w' := by
  have sound := sound_of_reached reached
  cases down with
  | refused ran => exact (perform_careful sound allowed careful).stopped_of ran _ rfl
  | unfit ran => exact (paste_careful sound _ _).ok_of ran rfl

section

open Sample

def brokenWords : Snapshot :=
  .list (some "words") [.token (some "word") "ab" none none, .list (some "words") []]

def expandToBroken : Request expression := .restoreState ⟨1, 0⟩ (.expanded brokenWords)

theorem brokenWords_leave_no_trace :
    perform expandToBroken filledHooks = .error (.refused (.mismatch "token" "list"))
        ((perform expandToBroken).after filledHooks) ∧
      Untouched filledHooks ((perform expandToBroken).after filledHooks) := by
  have refused : perform expandToBroken filledHooks =
      .error (.refused (.mismatch "token" "list")) ((perform expandToBroken).after filledHooks) :=
    Action.run_of_refusal? (by decide +kernel)
  have allowed : filledHooks.Allowed expandToBroken := trivial
  exact ⟨refused, turned_down_leaves_no_trace reaches_filledHooks allowed rfl
    (.refused refused)⟩

end

end Workspace

end StructureEditor
