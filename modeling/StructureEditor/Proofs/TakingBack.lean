import StructureEditor.Proofs.Groups
import StructureEditor.Proofs.Unison

/-! Taking back what was done last. Where a history has taken down one step more, undoing runs the
edits of that step backwards, and each of them finds the editor that it is about at the place that
was recorded. -/
namespace StructureEditor

variable {S : Signature} {x : Handle} {l : Locator} {editor : Editor S}

theorem Arena.Changes.find {a b : Arena S} (changes : a.Changes b x) (forest : a.links.Forest)
    (found : a.get? x = some editor) (located : a.locate x = .ok l) : b.find l = .ok x := by
  obtain ⟨root, way, _, located', led, _⟩ := locate_spec forest found
  cases located.symm.trans located'
  exact changes.follow forest led

theorem Arena.locate_of_grows {a b : Arena S} (grows : a.Grows b) (forest : a.links.Forest)
    (forest' : b.links.Forest) (found : a.get? x = some editor) (located : a.locate x = .ok l) :
    b.locate x = .ok l := by
  obtain ⟨root, way, place, located', led, top, free⟩ := locate_spec forest found
  cases located.symm.trans located'
  obtain ⟨above, isLive, rfl⟩ := outline_of_links top
  exact locate_of_follow forest' (links_of_outline (grows root above isLive)) free
    (follow_of_grows grows led)

theorem Arena.find_of_locate {a : Arena S} (forest : a.links.Forest)
    (found : a.get? x = some editor) (located : a.locate x = .ok l) : a.find l = .ok x :=
  ((Grows.refl a).changes x).find forest found located

theorem Arena.beyond_fresh {a b : Arena S} {z : Handle} (forest : a.links.Forest)
    (kept : ∀ y e, a.get? y = some e → ∃ e', b.get? y = some e' ∧ e'.parent = e.parent)
    (fresh : a.get? z = none) (found : a.get? x = some editor) : ¬ b.links.Within z x := by
  intro within
  induction within generalizing editor with
  | here =>
    rw [fresh] at found
    cases found
  | step placed hasParent _ ih =>
    obtain ⟨e', now, same⟩ := kept _ _ found
    cases (links_of_get? now).symm.trans placed
    obtain ⟨above, upper⟩ := live_parent forest (outline_of_get? found) (same.symm.trans hasParent)
    obtain ⟨above', isLive, _⟩ := get?_of_outline upper
    exact ih isLive

theorem History.push_alone {ε : Type} [Undoable ε] {step : Step ε}
    (alone : ∀ top : Step ε, top.merge? step = none) (stack : List (Step ε)) :
    push step stack = step :: stack := by
  cases stack with
  | nil => rfl
  | cons top rest => simp only [push, alone top]

namespace Workspace

variable {w w' w₁ : Workspace S} {h : HistoryId} {context : Context} {edit : Edit}
  {step : Step Edit}

theorem view_noting (recorder : w.recorder? context = some h) :
    (historyLens h).view { w with histories := w.noting context edit } =
      ((historyLens h).view w).record (.single edit) := by
  simp only [noting, recorder]
  simp [HistoryLens.update, historyLens]

theorem recorder?_eq_some_iff : w.recorder? context = some h ↔
    w.contexts.find? (·.history) context = some h ∧ ((historyLens h).view w).active = true := by
  simp [recorder?]

theorem recorder?_noting (recorder : w.recorder? context = some h) :
    { w with histories := w.noting context edit }.recorder? context = some h := by
  have known := recorder?_eq_some_iff.1 recorder
  apply recorder?_eq_some_iff.2
  rw [view_noting recorder, History.record_active]
  exact known

def Stepped (h : HistoryId) (step : Step Edit) (w w' : Workspace S) : Prop :=
  (historyLens h).view w' = { (historyLens h).view w with
    done := History.trim ((historyLens h).view w).limit (step :: ((historyLens h).view w).done)
    undone := [] }

theorem Stepped.of_noting (alone : ∀ top : Step Edit, top.merge? (.single edit) = none)
    (recorder : w.recorder? context = some h)
    (closed : ((historyLens h).view w).collected = none)
    (noted : w'.histories = w.noting context edit) : Stepped h (.single edit) w w' := by
  have active := (recorder?_eq_some_iff.1 recorder).2
  have viewed : (historyLens h).view w' = ((historyLens h).view w).record (.single edit) :=
    (view_of_histories noted).trans (view_noting recorder)
  rw [Stepped, viewed]
  simp [History.record, active, closed, History.commit, History.push_alone alone]

theorem asOneStep_closes {α : Type} {action : Editing S α} {value : α} {steps : List (Step Edit)}
    (description : String) (found : w.arena.get? x = some editor)
    (recorder : w.recorder? editor.context = some h)
    (closed : ((historyLens h).view w).collected = none)
    (ran : action ((historyLens h).put ((historyLens h).view w).begin w) = .ok value w')
    (collected : ((historyLens h).view w').collected = some steps) :
    asOneStep x description action w = .ok value
      ((historyLens h).put (((historyLens h).view w').close description steps) w') := by
  obtain ⟨responsible, active⟩ := recorder?_eq_some_iff.1 recorder
  have shut := History.isOpen_eq_false_iff.2 closed
  have attempted : action.attempt ((historyLens h).put ((historyLens h).view w).begin w) =
      .ok (.ok value) w' := by
    simp only [Action.attempt, ran]
  rw [asOneStep, Action.bind_run_ok _ (historyFor?_run found), responsible]
  dsimp only
  rw [HistoryLens.grouped_opens description action (by simp [active, shut]),
    Action.bind_run_ok _ attempted,
    Action.bind_run_ok _ (HistoryLens.finish_run description collected)]
  rfl

theorem closes_pair {earlier later : Step Edit} (description : String)
    (closed : ((historyLens h).view w).collected = none)
    (known : (historyLens h).view w' =
      { (historyLens h).view w with undone := [], collected := some [later, earlier] }) :
    Stepped h (.group description [earlier, later]) w
      ((historyLens h).put (((historyLens h).view w').close description [later, earlier]) w') := by
  have alone : ∀ top : Step Edit, top.merge? (.group description [earlier, later]) = none := by
    intro top
    cases top <;> rfl
  have put : ∀ hs, (historyLens h).view ((historyLens h).put hs w') = hs := by
    simp [historyLens]
  rw [Stepped, put, known]
  generalize (historyLens h).view w = hs at closed
  cases hs
  cases closed
  simp [History.close, History.commit, History.push_alone alone]

variable [Language S]

theorem undo_newest {rest : List (Step Edit)} {P : Arena S → Prop}
    (closed : ((historyLens h).view w).collected = none)
    (newest : History.ahead .undo ((historyLens h).view w) = step :: rest)
    (replays : ∀ histories, ∃ w₁, step.edits.reverse.forM (replay .undo) { w with histories } =
      .ok () w₁ ∧ P w₁.arena) :
    ∃ w', undo h w = .ok true w' ∧ P w'.arena := by
  let taken := History.taken .undo rest ((historyLens h).view w)
  let kept := (historyLens h).put taken w
  obtain ⟨w₁, ran, holds⟩ := replays (w.replaying h taken).histories
  have start : (historyLens h).put ((historyLens h).view kept).pause.2 kept =
      { w with histories := (w.replaying h taken).histories } := rfl
  have paused : (historyLens h).paused (HistoryLens.replayStep replay .undo step) kept =
      .ok () ((historyLens h).update (·.resume ((historyLens h).view kept).pause.1) w₁) := by
    simp only [HistoryLens.paused, Action.ensuring, HistoryLens.replayStep, start, ran]
  refine ⟨(historyLens h).update (History.handed .undo step)
    ((historyLens h).update (·.resume ((historyLens h).view kept).pause.1) w₁), ?_, holds⟩
  exact (move_some closed newest).trans (Action.bind_run_ok _ paused)

theorem Stepped.undo {P : Arena S → Prop} (stepped : Stepped h step w w')
    (closed : ((historyLens h).view w).collected = none)
    (replays : ∀ histories, ∃ w₁, step.edits.reverse.forM (replay .undo) { w' with histories } =
      .ok () w₁ ∧ P w₁.arena) :
    ∃ w'', Workspace.undo h w' = .ok true w'' ∧ P w''.arena := by
  obtain ⟨rest, trimmed⟩ := History.trim_cons ((historyLens h).view w).limit step
    ((historyLens h).view w).done
  apply undo_newest
  · rw [show _ = _ from stepped]
    exact closed
  · rw [show _ = _ from stepped]
    exact trimmed
  · exact replays

end Workspace

end StructureEditor
