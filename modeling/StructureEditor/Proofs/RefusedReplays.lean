import StructureEditor.Proofs.Refusals
import StructureEditor.Proofs.Sessions

/-! Replays that are refused. Most leave no trace. Two kinds do: an item is rebuilt before its
place is looked at, and it stays behind as a root if there is no such place; and compounds and
lists are restored one part after the other, so that a refusal finds them between two states. -/
namespace StructureEditor

variable {S : Signature} [Language S]

namespace Workspace

variable {α : Type} {w w' : Workspace S} {id : Handle} {editor : Editor S} {s : Snapshot}
  {direction : Direction} {edit : Edit}

def HasGap (w : Workspace S) (list : Handle) (index : Nat) : Prop :=
  ∃ k ids, w.arena.state? list = some (.list k ids) ∧ index ≤ ids.length

/-- All editors and histories are as they were, and one new root shows a snapshot. -/
structure LeftOver (w w' : Workspace S) (s : Snapshot) : Prop where
  editors : ∀ x editor, w.arena.get? x = some editor → w'.arena.get? x = some editor
  histories : w'.histories = w.histories
  root : ∃ made d, w.arena.get? made = none ∧ w'.arena.IsRoot made ∧ w'.arena.Shows made d ∧
    d.Renders s ∧ ∀ x, w'.arena.IsRoot x → x = made ∨ w.arena.IsRoot x

/-- A compound or a list may have changed below, and nothing else has. -/
structure HalfRestored (w w' : Workspace S) (id : Handle) : Prop where
  shape : ∃ state, w.arena.state? id = some state ∧ (state.shape = .compound ∨ state.shape = .list)
  confined : Confined w w' id
  noNew : w.arena.NoNewRoots w'.arena

theorem Built.leftOver {made : Handle} {c : ClassKey S} {context : Context} {d : Sketch S}
    (built : Built w w' made c context) (sound : w.arena.Sound)
    (one : w.arena.OneNewRoot w'.arena made) (seen : w'.arena.Shows made d) (renders : d.Renders s) :
    LeftOver w w' s where
  editors _ _ found := Arena.get?_of_grows sound built.sound built.grows found
  histories := built.quiet.histories
  root := by
    obtain ⟨root, found, free, _⟩ := built.root
    exact ⟨made, d, Arena.outline_eq_none_iff.1 built.fresh, Arena.isRoot_of_get? found free, seen,
      renders, one⟩

theorem replayInsert_refused (list : Locator) (index : Nat) (item : Snapshot)
    (sound : w.arena.Sound) :
    Action.Meets (replayInsert list index item) w (fun _ _ => True) (OnRefusal fun w' =>
      Untouched w w' ∨ ∃ id, w.arena.find list = .ok id ∧ ¬ w.HasGap id index ∧
        LeftOver w w' item) := by
  refine replayInsert_rule sound (fun _ _ _ => .inl (.refl w)) (fun context => (Action.Meets.and
    (rebuildWith_renders restore_safe (restore_thorough item) sound)
    (rebuild_careful sound item context)).mono (fun _ _ both => both.1)
      fun _ _ both error refused => .inl (both.2 error refused)) ?_
  intro id made editor root w₁ c context located built made' found rootFound free here apart
  obtain ⟨one, d, seen, renders, _⟩ := made'
  obtain ⟨k, ids, held, inside, _⟩ | ⟨error, ran⟩ := checkGap_cases id index w₁
  · have state := Option.some.inj ((Arena.state?_of_get? found).symm.trans held)
    obtain ⟨w₂, attached, _⟩ := attachItem_run built.sound found state inside rootFound free here apart
    exact .of_ok attached trivial
  · refine .of_error (Action.bind_run_error _ ran) fun _ _ => .inr ⟨id, located, ?_,
      built.leftOver sound one seen renders⟩
    rintro ⟨k, ids, held, inside⟩
    obtain ⟨old, wasFound, state⟩ := Arena.get?_of_state? held
    have held' := Arena.state?_of_outline (built.grows id _ (Arena.outline_of_get? wasFound))
    have state' : old.blank.state = .list k ids := state
    rw [state'] at held'
    cases ran.symm.trans (checkGap_run held' inside)

theorem writeToken_careful (id : Handle) (text : String) (item : Option Candidate)
    (sound : w.arena.Sound) : Careful (writeToken id text item false) w := by
  refine .ask fun answer answered => ?_
  obtain ⟨k, old, oldItem⟩ := answer
  obtain ⟨w', ran, _⟩ := writeToken_quiet text item sound (Arena.token_eq_ok_iff.1 answered)
  rw [writeToken, Action.bind_run_ok _ (ask_run answered)] at ran
  exact .of_ok ran trivial

theorem dropItem_careful (list : Handle) (index : Nat) (sound : w.arena.Sound) :
    Careful (dropItem list index) w := by
  obtain ⟨_, _, _, _, _, _, ran, _⟩ | ⟨error, ran⟩ := dropItem_cases list index sound
  · exact .of_ok ran trivial
  · exact .of_error ran fun _ _ => .refl w

theorem restoreWith_careful {restore : Restorer S} {levels : Nat} (masters : restore.Masters levels)
    (discreet : restore.Discreet) (sound : w.arena.Sound)
    (shallow : s.depth ≤ levels + 1)
    (whole : ∀ state, w.arena.state? id = some state →
      state.shape = .token ∨ state.shape = .expander) : Careful (restoreWith restore id s) w := by
  refine restoreWith_rule sound (fun _ _ _ => .refl w) ?_ ?_ ?_ ?_
  · rintro name text itemClass item k old oldItem rfl -
    exact writeToken_careful id text _ sound
  · intro state k display isDisplay _
    refine restoreStateWith_careful masters discreet sound fun inner isExpanded => ?_
    subst isExpanded
    have inside := Sketch.depth_of_expanded isDisplay
    omega
  -- neither a compound nor a list is taken back as a whole
  · rintro name components k ids editor rfl found state -
    rcases whole _ (state ▸ Arena.state?_of_get? found) with other | other <;> cases other
  · rintro name items k ids editor w₁ rfl held - - - -
    rcases whole _ held with other | other <;> cases other

theorem restore_refused (id : Handle) (s : Snapshot) (sound : w.arena.Sound)
    :
    Action.Meets (restore id s) w (fun _ _ => True)
      (OnRefusal fun w' => Untouched w w' ∨ HalfRestored w w' id) := by
  by_cases whole : ∀ state, w.arena.state? id = some state →
      state.shape = .token ∨ state.shape = .expander
  · have careful : Careful (restore id s) w := by
      obtain ⟨levels, enough⟩ : ∃ levels, s.depth = levels + 1 :=
        Nat.exists_eq_add_one.2 (Sketch.depth_pos s)
      rw [restore, enough]
      exact restoreWith_careful (restoreWithin_masters levels) (restoreWithin_discreet levels) sound
        (Nat.le_of_eq enough) whole
    exact careful.mono (fun _ _ _ => trivial) fun _ _ careful error refused =>
      .inl (careful error refused)
  · obtain ⟨state, held, parted⟩ : ∃ state, w.arena.state? id = some state ∧
        ¬ (state.shape = .token ∨ state.shape = .expander) := by
      by_contra none
      exact whole fun state held => not_not.1 fun parted => none ⟨state, held, parted⟩
    have inParts : state.shape = .compound ∨ state.shape = .list := by
      cases state with
      | token | expander => simp [EditorState.shape] at parted
      | compound => exact .inl rfl
      | list => exact .inr rfl
    refine (Action.Meets.and (restore_safe w id s sound)
      (restore_thorough s w id sound)).mono (fun _ _ _ => trivial) ?_
    exact fun _ w' ⟨confined, noNew⟩ error refused =>
      .inr ⟨⟨state, held, inParts⟩, confined, noNew error refused⟩

/-- What a refused replay leaves behind. -/
inductive Leaves (w : Workspace S) (direction : Direction) (edit : Edit) (w' : Workspace S) :
    Prop where
  | nothing : Untouched w w' → Leaves w direction edit w'
  | item {list : Locator} {index : Nat} {item : Snapshot} {id : Handle} :
      rebuilt? direction edit = some (list, index, item) → w.arena.find list = .ok id →
      ¬ w.HasGap id index → LeftOver w w' item → Leaves w direction edit w'
  | parts {locator : Locator} {s : Snapshot} {id : Handle} :
      restored? direction edit = some (locator, s) → w.arena.find locator = .ok id →
      HalfRestored w w' id → Leaves w direction edit w'

theorem Careful.leaves {action : Editing S Unit} (careful : Careful action w)
    (direction : Direction) (edit : Edit) :
    Action.Meets action w (fun _ _ => True) (OnRefusal (Leaves w direction edit)) :=
  careful.mono (fun _ _ _ => trivial) fun _ _ untouched error refused =>
    .nothing (untouched error refused)

/-- A replay that is refused leaves everything as it was, whatever the edit, unless it was to bring
an item to a place that its list does not have, or to restore a compound or a list. Of the first
the item stays behind, as a root that shows its snapshot; of the second, what lies below the
compound or the list may have changed. -/
theorem refused_replay_leaves_little {error : Refusal} (reached : Reaches {} w)
    (ran : replay direction edit w = .error (.refused error) w') :
    Leaves w direction edit w' := by
  have sound := sound_of_reached reached
  suffices meets : Action.Meets (replay direction edit) w (fun _ _ => True)
      (OnRefusal (Leaves w direction edit)) from meets.stopped_of ran error rfl
  refine replay_cases (P := fun action => Action.Meets action w (fun _ _ => True)
    (OnRefusal (Leaves w direction edit))) direction edit ?_ ?_ ?_ ?_ ?_
  · exact fun locator text item =>
      Careful.leaves (.ask fun id _ => writeToken_careful id text item sound) direction edit
  · exact fun locator state =>
      Careful.leaves (.ask fun id _ => restoreState_careful sound id state) direction edit
  · intro list index item isRebuilt
    refine (replayInsert_refused list index item sound).mono (fun _ _ _ => trivial)
      fun _ w' leaves error refused => ?_
    obtain untouched | ⟨id, found, noGap, left⟩ := leaves error refused
    · exact .nothing untouched
    · exact .item isRebuilt found noGap left
  · exact fun list index =>
      Careful.leaves (.ask fun id _ => dropItem_careful id index sound) direction edit
  · intro locator s isRestored
    refine .bind (.ask (fun id found => ?_) fun _ _ _ _ => .nothing (.refl w))
    refine (restore_refused id s sound).mono (fun _ _ _ => trivial)
      fun _ w' leaves error refused => ?_
    obtain untouched | half := leaves error refused
    · exact .nothing untouched
    · exact .parts isRestored found half

section

open Sample

def farInsertion : Edit := .insertion ⟨⟨0, 0⟩, []⟩ 5 (.token (some "word") "ab" none none)

def brokenReplacement : Edit := .replacement ⟨⟨0, 0⟩, []⟩ brokenWords brokenWords "Editing"

theorem farInsertion_leaves_little :
    replay .redo farInsertion noWords =
        .error (.refused (.outOfRange 5 0)) ((replay .redo farInsertion).after noWords) ∧
      Leaves noWords .redo farInsertion ((replay .redo farInsertion).after noWords) := by
  have refused : replay .redo farInsertion noWords =
      .error (.refused (.outOfRange 5 0)) ((replay .redo farInsertion).after noWords) :=
    Action.run_of_refusal? (by decide +kernel)
  exact ⟨refused, refused_replay_leaves_little reaches_noWords refused⟩

/-- The word stays behind as a root, and the list keeps the first item of its broken state. -/
theorem refused_replays_leave_traces :
    (∃ w', replay .redo farInsertion noWords = .error (.refused (.outOfRange 5 0)) w' ∧
      noWords.arena.get? ⟨1, 0⟩ = none ∧ w'.arena.IsRoot ⟨1, 0⟩) ∧
    (∃ w', replay .undo brokenReplacement noWords =
        .error (.refused (.mismatch "token" "list")) w' ∧
      noWords.arena.state? ⟨0, 0⟩ = some (.list ListName.words []) ∧
      w'.arena.state? ⟨0, 0⟩ = some (.list ListName.words [⟨1, 0⟩])) :=
  ⟨⟨_, Action.run_of_refusal? (by decide +kernel), rfl, _, rfl, rfl⟩,
    _, Action.run_of_refusal? (by decide +kernel), rfl, rfl⟩

end

end Workspace

end StructureEditor
