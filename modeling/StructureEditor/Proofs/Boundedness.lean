import StructureEditor.Proofs.ForeignData
import StructureEditor.Sample.TextSession

/-! How much a history keeps. Undo and redo move one step between the stacks and a recorded step
clears the one stack before it goes to the other, so both together keep to the limit. A group
that has collected something has nothing beside it to be redone. -/
namespace StructureEditor

variable {σ ε α : Type}

namespace History

variable {h h' : History ε} {stack steps : List (Step ε)} {limit : Nat}

/-- The invariant: the stacks share the limit, and where a group has collected something,
nothing is left to redo. -/
structure Bounded (limit : Nat) (h : History ε) : Prop where
  limited : h.limit = limit
  within : h.undoCount + h.redoCount ≤ limit
  alone : ∀ steps, h.collected = some steps → steps ≠ [] → h.undone = []

/-- A step that was taken off one stack goes to the other or is dropped. -/
inductive Moved (h : History ε) : History ε → Prop where
  | handed {direction : Direction} {step : Step ε} {rest : List (Step ε)} :
      h.ahead direction = step :: rest → Moved h (h.moved direction step rest)
  | dropped {direction : Direction} {step : Step ε} {rest : List (Step ε)} :
      h.ahead direction = step :: rest → Moved h (h.taken direction rest)

theorem bounded_new (limit : Nat) : Bounded limit ({ limit } : History ε) := by
  constructor <;> simp [undoCount, redoCount]

theorem trim_length (limited : 0 < limit) (high : stack.length ≤ limit + 1) :
    (trim limit stack).length ≤ limit := by
  unfold trim
  split
  · rw [List.length_dropLast]
    omega
  · omega

namespace Bounded

theorem begin (bounded : Bounded limit h) : Bounded limit h.begin := by
  refine ⟨bounded.limited, bounded.within, fun steps collected filled => ?_⟩
  simp only [History.begin, Option.some.injEq] at collected
  exact absurd collected.symm filled

theorem clear (bounded : Bounded limit h) : Bounded limit h.clear := by
  constructor <;> simp [History.clear, undoCount, redoCount, bounded.limited]

theorem pause (bounded : Bounded limit h) : Bounded limit h.pause.2 :=
  ⟨bounded.limited, bounded.within, bounded.alone⟩

theorem resume (bounded : Bounded limit h) (pause : Pause) : Bounded limit (h.resume pause) :=
  ⟨bounded.limited, bounded.within, bounded.alone⟩

theorem moved (bounded : Bounded limit h) (closed : h.collected = none) (moved : Moved h h') :
    Bounded limit h' := by
  have within := bounded.within
  simp only [undoCount, redoCount] at within
  cases moved with
  | @handed direction step rest next | @dropped direction step rest next =>
    cases direction <;> simp only [ahead] at next <;> rw [next, List.length_cons] at within <;>
      refine ⟨bounded.limited, ?_, fun steps collected =>
        absurd (collected.symm.trans closed) (Option.some_ne_none steps)⟩ <;>
      simp only [History.moved, taken, History.handed, undoCount, redoCount, List.length_cons] <;>
      omega

end Bounded

variable [Undoable ε]

theorem push_length (step : Step ε) (stack : List (Step ε)) :
    (push step stack).length ≤ stack.length + 1 := by
  cases stack with
  | nil => simp [push]
  | cons top rest =>
    simp only [push]
    split <;> simp

theorem undone_close (description : String) (steps : List (Step ε)) (h : History ε) :
    (h.close description steps).undone = h.undone := by
  unfold close
  split <;> rfl

namespace Bounded

/-- A step is committed where nothing is left to redo: then the stack of what is done is all that
counts, and it is trimmed. -/
theorem commit (bounded : Bounded limit h) (positive : 0 < limit) (last : h.undone = [])
    (closed : h.collected = none) (step : Step ε) : Bounded limit (h.commit step) := by
  constructor
  · exact bounded.limited
  · have within : h.done.length ≤ limit := by
      simpa [undoCount, redoCount, last] using bounded.within
    have pushed := push_length step h.done
    have kept : (trim limit (push step h.done)).length ≤ limit := trim_length positive (by omega)
    simpa [undoCount, redoCount, History.commit, last, bounded.limited] using kept
  · intro steps collected
    cases closed.symm.trans collected

theorem record (bounded : Bounded limit h) (positive : 0 < limit) (step : Step ε) :
    Bounded limit (h.record step) := by
  have cleared : Bounded limit { h with undone := [] } :=
    ⟨bounded.limited, Nat.le_trans (Nat.le_add_right _ _) bounded.within, fun _ _ _ => rfl⟩
  unfold History.record
  split
  · dsimp only
    split
    · exact ⟨cleared.limited, cleared.within, fun _ _ _ => rfl⟩
    · next closed => exact cleared.commit positive rfl closed step
  · exact bounded

theorem close (bounded : Bounded limit h) (positive : 0 < limit)
    (collected : h.collected = some steps) (description : String) :
    Bounded limit (h.close description steps) := by
  have shut : Bounded limit { h with collected := none } :=
    ⟨bounded.limited, bounded.within, by simp⟩
  cases steps with
  | nil => exact shut
  | cons step rest =>
    have last := bounded.alone _ collected (List.cons_ne_nil step rest)
    cases rest <;> exact shut.commit positive last rfl _

end Bounded

end History

namespace HistoryLens

variable {lens : HistoryLens σ ε} {replay : Replay σ ε} {here : σ → Prop} {s s' s'' : σ}
  {action : Action σ α}

/-- The history is found where it was put, and a replay, in which nothing is recorded, leaves it
as it is. `here` says in which states the history is there. -/
structure Tracks (lens : HistoryLens σ ε) (replay : Replay σ ε) (here : σ → Prop) : Prop where
  view_put : ∀ h s, here s → lens.view (lens.put h s) = h
  put_here : ∀ h s, here s → here (lens.put h s)
  replay_spares : ∀ direction edit s s', here s → (lens.view s).active = false →
    (replay direction edit).Ends s s' → lens.view s' = lens.view s ∧ here s'

def entered (lens : HistoryLens σ ε) (s : σ) : σ :=
  if !(lens.view s).active || (lens.view s).isOpen then s else lens.put (lens.view s).begin s

section

variable (tracks : lens.Tracks replay here) (home : here s)

include tracks home

theorem Tracks.view_update (f : History ε → History ε) :
    lens.view (lens.update f s) = f (lens.view s) :=
  tracks.view_put _ s home

theorem Tracks.here_update (f : History ε → History ε) : here (lens.update f s) :=
  tracks.put_here _ s home

theorem Tracks.replays_spare {direction : Direction} {edits : List ε}
    (inactive : (lens.view s).active = false)
    (ends : (edits.forM (replay direction)).Ends s s') :
    lens.view s' = lens.view s ∧ here s' := by
  induction edits generalizing s with
  | nil =>
    obtain rfl := Action.Ends.of_pure ends
    exact ⟨rfl, home⟩
  | cons edit rest ih =>
    rcases Action.Ends.of_bind ends with ⟨value, s₁, ran, ends⟩ | stopped
    · obtain ⟨same, home₁⟩ :=
        tracks.replay_spares direction edit s s₁ home inactive (.inl ⟨value, ran⟩)
      obtain ⟨same', home'⟩ := ih home₁ (same ▸ inactive) ends
      exact ⟨same'.trans same, home'⟩
    · exact tracks.replay_spares direction edit s s' home inactive (.inr stopped)

theorem Tracks.paused_spares {direction : Direction} {edits : List ε}
    (ends : (lens.paused (edits.forM (replay direction))).Ends s s') :
    lens.view s' = lens.view s ∧ here s' := by
  obtain ⟨s₁, inner, rfl⟩ := Action.Ends.of_ensuring ends
  have paused := tracks.view_put (lens.view s).pause.2 s home
  have home₀ := tracks.put_here (lens.view s).pause.2 s home
  obtain ⟨same, home₁⟩ := tracks.replays_spare home₀ (by rw [paused]; rfl) inner
  refine ⟨?_, tracks.here_update home₁ _⟩
  rw [tracks.view_update home₁, same, paused]
  rfl

theorem Tracks.replayed (edits : List ε) {direction : Direction} {taken : History ε}
    {give : History ε → History ε}
    (ends : Action.Ends (do
      lens.paused (edits.forM (replay direction))
      modify (lens.update give)
      return true) (lens.put taken s) s') :
    (lens.view s' = give taken ∨ lens.view s' = taken) ∧ here s' := by
  have put := tracks.view_put taken s home
  have home₀ := tracks.put_here taken s home
  obtain ⟨_, s₂, ran, ends⟩ | stopped := Action.Ends.of_bind ends
  · obtain ⟨same, home₂⟩ := tracks.paused_spares home₀ (.inl ⟨_, ran⟩)
    obtain ⟨_, s₃, ran, ends⟩ | ⟨_, impossible⟩ := Action.Ends.of_bind ends
    · cases ran
      obtain rfl := Action.Ends.of_pure ends
      refine ⟨.inl ?_, tracks.here_update home₂ _⟩
      rw [tracks.view_update home₂, same, put]
    · cases impossible
  · obtain ⟨same, home'⟩ := tracks.paused_spares home₀ (.inr stopped)
    exact ⟨.inr (same.trans put), home'⟩

theorem Tracks.moves (direction : Direction) (ends : (lens.move replay direction).Ends s s') :
    (lens.view s' = lens.view s ∨
      (lens.view s).collected = none ∧ (lens.view s).Moved (lens.view s')) ∧ here s' := by
  cases opened : (lens.view s).isOpen with
  | true => simp [Action.Ends, move_open opened] at ends
  | false =>
    have closed := History.isOpen_eq_false_iff.1 opened
    cases next : (lens.view s).ahead direction with
    | nil =>
      have stays : s = s' := by simpa [Action.Ends, move_none closed next] using ends
      exact ⟨.inl (stays ▸ rfl), stays ▸ home⟩
    | cons step rest =>
      rw [Action.Ends, move_some closed next, replayStep_eq] at ends
      obtain ⟨given | dropped, home'⟩ := tracks.replayed home (step.replayOrder direction) ends
      · exact ⟨.inr ⟨closed, given ▸ .handed next⟩, home'⟩
      · exact ⟨.inr ⟨closed, dropped ▸ .dropped next⟩, home'⟩

end

theorem begin_opens (ends : lens.begin.Ends s s') : s' = lens.put (lens.view s).begin s := by
  cases opened : (lens.view s).isOpen with
  | true => simp [begin, Action.Ends, Action.bind_run, opened] at ends
  | false =>
    have opens : lens.put (lens.view s).begin s = s' := by
      simpa [Action.Ends, begin_run opened] using ends
    exact opens.symm

def Stands (lens : HistoryLens σ ε) (here : σ → Prop) (limit : Nat) (s : σ) : Prop :=
  here s ∧ (lens.view s).Bounded limit

variable {limit : Nat}

theorem Stands.put {h : History ε} (stands : lens.Stands here limit s)
    (tracks : lens.Tracks replay here) (bounded : h.Bounded limit) :
    lens.Stands here limit (lens.put h s) :=
  ⟨tracks.put_here h s stands.1, (tracks.view_put h s stands.1).symm ▸ bounded⟩

theorem Stands.move (stands : lens.Stands here limit s) (tracks : lens.Tracks replay here)
    (direction : Direction) (ends : (lens.move replay direction).Ends s s') :
    lens.Stands here limit s' := by
  obtain ⟨same | ⟨closed, moved⟩, home⟩ := tracks.moves stands.1 direction ends
  · exact ⟨home, same ▸ stands.2⟩
  · exact ⟨home, stands.2.moved closed moved⟩

theorem Stands.entered (stands : lens.Stands here limit s) (tracks : lens.Tracks replay here) :
    lens.Stands here limit (lens.entered s) := by
  unfold HistoryLens.entered
  split
  · exact stands
  · exact stands.put tracks stands.2.begin

variable [Undoable ε]

/-- What can be done with a history, step after step, as long as nothing faults. Between the
calls the rest of the state changes in any way. -/
inductive Calls (lens : HistoryLens σ ε) (replay : Replay σ ε) (here : σ → Prop) :
    σ → σ → Prop where
  | refl (s : σ) : Calls lens replay here s s
  | elsewhere {s s' s'' : σ} : Calls lens replay here s s' → lens.view s'' = lens.view s' →
      here s'' → Calls lens replay here s s''
  | record {s s' s'' : σ} (step : Step ε) : Calls lens replay here s s' →
      (lens.record step).Ends s' s'' → Calls lens replay here s s''
  | undo {s s' s'' : σ} : Calls lens replay here s s' → (lens.undo replay).Ends s' s'' →
      Calls lens replay here s s''
  | redo {s s' s'' : σ} : Calls lens replay here s s' → (lens.redo replay).Ends s' s'' →
      Calls lens replay here s s''
  | begin {s s' s'' : σ} : Calls lens replay here s s' → lens.begin.Ends s' s'' →
      Calls lens replay here s s''
  | finish {s s' s'' : σ} (description : String) : Calls lens replay here s s' →
      (lens.finish description).Ends s' s'' → Calls lens replay here s s''
  | clear {s s' : σ} : Calls lens replay here s s' →
      Calls lens replay here s (lens.update (·.clear) s')
  | pause {s s' : σ} : Calls lens replay here s s' →
      Calls lens replay here s (lens.put (lens.view s').pause.2 s')
  | resume {s s' : σ} (pause : Pause) : Calls lens replay here s s' →
      Calls lens replay here s (lens.update (·.resume pause) s')
  | grouped {α : Type} {s s' s₁ s'' : σ} {action : Action σ α} (description : String) :
      Calls lens replay here s s' → Calls lens replay here (lens.entered s') s₁ →
      action.Ends (lens.entered s') s₁ → (lens.grouped description action).Ends s' s'' →
      Calls lens replay here s s''
  | paused {α : Type} {s s' s₁ s'' : σ} {action : Action σ α} : Calls lens replay here s s' →
      Calls lens replay here (lens.put (lens.view s').pause.2 s') s₁ →
      action.Ends (lens.put (lens.view s').pause.2 s') s₁ → (lens.paused action).Ends s' s'' →
      Calls lens replay here s s''

theorem finish_closes {description : String} (ends : (lens.finish description).Ends s s') :
    ∃ steps, (lens.view s).collected = some steps ∧
      s' = lens.put ((lens.view s).close description steps) s := by
  cases collected : (lens.view s).collected with
  | none => simp [finish, Action.Ends, Action.bind_run, collected] at ends
  | some steps =>
    have closes : lens.put ((lens.view s).close description steps) s = s' := by
      simpa [finish, Action.Ends, Action.bind_run, collected] using ends
    exact ⟨steps, rfl, closes.symm⟩

theorem grouped_closes {description : String} (ends : (lens.grouped description action).Ends s s') :
    action.Ends (lens.entered s) s' ∨
      ∃ s₁, action.Ends (lens.entered s) s₁ ∧ (lens.finish description).Ends s₁ s' := by
  unfold entered
  by_cases joins : (!(lens.view s).active || (lens.view s).isOpen) = true
  · rw [Action.Ends, grouped_joins description action joins] at ends
    rw [if_pos joins]
    exact .inl ends
  · rw [Action.Ends, grouped_opens description action joins] at ends
    rw [if_neg joins]
    obtain ⟨result, s₁, ran, ends⟩ | ⟨_, never⟩ := Action.Ends.of_bind ends
    · refine .inr ⟨s₁, Action.ends_of_attempt ran, ?_⟩
      obtain ⟨_, s₂, finished, ends⟩ | stopped := Action.Ends.of_bind ends
      · obtain rfl := Action.Ends.of_ofExcept ends
        exact .inl ⟨_, finished⟩
      · exact .inr stopped
    · exact absurd never Action.attempt_not_refused

theorem record_records {step : Step ε} (ends : (lens.record step).Ends s s') :
    s' = lens.update (·.record step) s := Action.Ends.of_modify ends

section

variable (tracks : lens.Tracks replay here) (positive : 0 < limit)

include tracks positive

theorem Stands.finish {description : String} (stands : lens.Stands here limit s)
    (ends : (lens.finish description).Ends s s') : lens.Stands here limit s' := by
  obtain ⟨steps, collected, rfl⟩ := finish_closes ends
  exact stands.put tracks (stands.2.close positive collected description)

theorem Calls.stands (calls : lens.Calls replay here s s') (stands : lens.Stands here limit s) :
    lens.Stands here limit s' := by
  induction calls with
  | refl s => exact stands
  | elsewhere calls same home ih => exact ⟨home, same ▸ (ih stands).2⟩
  | record step calls ends ih =>
    rw [record_records ends]
    exact (ih stands).put tracks ((ih stands).2.record positive step)
  | undo calls ends ih => exact (ih stands).move tracks .undo ends
  | redo calls ends ih => exact (ih stands).move tracks .redo ends
  | begin calls ends ih =>
    rw [begin_opens ends]
    exact (ih stands).put tracks (ih stands).2.begin
  | finish description calls ends ih => exact (ih stands).finish tracks positive ends
  | clear calls ih => exact (ih stands).put tracks (ih stands).2.clear
  | pause calls ih => exact (ih stands).put tracks (ih stands).2.pause
  | resume pause calls ih => exact (ih stands).put tracks ((ih stands).2.resume pause)
  | grouped description calls within acts ends ih inner =>
    have acted := inner ((ih stands).entered tracks)
    rcases grouped_closes ends with ends | ⟨s₁, ends, finished⟩
    · exact acts.unique ends ▸ acted
    · exact (acts.unique ends ▸ acted).finish tracks positive finished
  | paused calls within acts ends ih inner =>
    have acted := inner ((ih stands).put tracks (ih stands).2.pause)
    obtain ⟨s₁, acts', rfl⟩ := Action.Ends.of_ensuring ends
    obtain rfl := acts.unique acts'
    exact acted.put tracks (acted.2.resume _)

end

/-- However the calls follow each other, a history that was new keeps no more steps than its
limit, done and undone together. Where an open group has collected something, nothing is left to
redo, and so nothing is left where a group is closed over something. -/
theorem history_stays_bounded (tracks : lens.Tracks replay here) (home : here s)
    (fresh : lens.view s = { limit }) (positive : 0 < limit)
    (calls : lens.Calls replay here s s') :
    (lens.view s').undoCount + (lens.view s').redoCount ≤ limit ∧
      ∀ steps, (lens.view s').collected = some steps → steps ≠ [] → (lens.view s').undone = [] ∧
        ∀ description s'', (lens.finish description).Ends s' s'' → (lens.view s'').undone = [] := by
  obtain ⟨home', bounded⟩ := calls.stands tracks positive ⟨home, fresh ▸ History.bounded_new limit⟩
  refine ⟨bounded.within, fun steps collected filled => ?_⟩
  have last := bounded.alone steps collected filled
  refine ⟨last, fun description s'' ends => ?_⟩
  obtain ⟨steps', _, rfl⟩ := finish_closes ends
  rw [tracks.view_put _ s' home', History.undone_close, last]

end HistoryLens

/-- The histories of a workspace are of this kind: no replay of a tree edit touches them. -/
theorem Workspace.historyLens_tracks {S : Signature} [Language S] (h : HistoryId) :
    (Workspace.historyLens h).Tracks (Workspace.replay (S := S))
      fun w => w.arena.Sound where
  view_put history w _ := by simp [Workspace.historyLens]
  put_here history w sound := sound
  replay_spares direction edit w w' sound _ ends := by
    have unfolds : Ensures (Workspace.replay direction edit) w (Workspace.Unfolds false w) :=
      Workspace.replay_unfolds (.start sound) Bool.noConfusion
    have same := (Workspace.replay_unrecorded direction edit sound).of_ends ends
    exact ⟨by simp [Workspace.historyLens, same], (unfolds.of_ends ends).sound⟩

namespace Sample.TextSession

theorem replay_run (direction : Direction) (edit : TextEdit) (s : TextSession) :
    replay direction edit s = match edit.replayOn direction s.text with
      | .ok text => .ok () { s with text }
      | .error error => .error (.refused error) s := by
  simp only [replay, Action.bind_run, Action.ask, Action.modify_run]
  cases edit.replayOn direction s.text <;> rfl

theorem lens_tracks : lens.Tracks replay fun _ => True where
  view_put _ _ _ := rfl
  put_here _ _ _ := trivial
  replay_spares direction edit s s' _ _ ends := by
    rw [Action.Ends, replay_run] at ends
    split at ends <;> rcases ends with ⟨_, ran⟩ | ⟨_, ran⟩ <;> cases ran <;> exact ⟨rfl, trivial⟩

theorem apply_calls {s s' : TextSession} (request : Request)
    (calls : lens.Calls replay (fun _ => True) s s') :
    lens.Calls replay (fun _ => True) s ((apply request).after s') := by
  have changed : lens.Calls replay (fun _ => True) s
      { s' with text := (perform request s'.text).2 } := calls.elsewhere rfl trivial
  exact changed.record (perform request s'.text).1 (.inl ⟨(), rfl⟩)

/-- A session with room for one step, after a word was typed, taken back and typed again. -/
def narrow : TextSession :=
  let s := (apply (.append "ab")).after { text := "", history := { limit := 1 } }
  redo.after (undo.after s)

/-- In the open group of the next edit, both stacks together are at the limit. -/
def narrowGroup : TextSession := (apply (.replace "cd" "Set" "")).after (lens.begin.after narrow)

theorem narrowGroup_calls :
    lens.Calls replay (fun _ => True) { text := "", history := { limit := 1 } } narrowGroup := by
  have typed := apply_calls (.append "ab") (.refl { text := "", history := { limit := 1 } })
  have undone := typed.undo (.inl ⟨true, Action.run_of_value? (by decide +kernel)⟩)
  have redone := undone.redo (.inl ⟨true, Action.run_of_value? (by decide +kernel)⟩)
  exact apply_calls _ (redone.begin (.inl ⟨(), Action.run_of_value? (by decide +kernel)⟩))

theorem narrowGroup_is_bounded :
    narrowGroup.history.undoCount + narrowGroup.history.redoCount ≤ 1 ∧
      ∀ steps, narrowGroup.history.collected = some steps → steps ≠ [] →
        narrowGroup.history.undone = [] ∧
        ∀ description s'', (lens.finish description).Ends narrowGroup s'' →
          s''.history.undone = [] :=
  HistoryLens.history_stays_bounded lens_tracks trivial rfl Nat.one_pos narrowGroup_calls

example : (narrowGroup.history.undoCount, narrowGroup.history.isOpen) = (1, true) := by
  decide +kernel

end Sample.TextSession

end StructureEditor
