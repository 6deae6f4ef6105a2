import StructureEditor.Proofs.Boundedness

/-! When recording is off. A pause ends by bringing back the flag that it found, so of several
pauses under way only the oldest brings recording back. Where it is the last of them to end, in
whatever order the others do, recording is off exactly while a pause is under way. Where it ends
before another one, this fails at once. -/
namespace StructureEditor

variable {σ ε : Type}

namespace Pause

/-- A pause that found recording on ends after all others. -/
def EndsLast (pause : Pause) (others : List Pause) : Prop :=
  pause.wasActive = true → others = []

/-- A flag and the pauses under way, the newest first. Each of them found the flag as the older
ones had left it, and turned it off. -/
inductive Account : Bool → List Pause → Prop where
  | none : Account true []
  | pause {active : Bool} {pauses : List Pause} : Account active pauses →
      Account false (⟨active⟩ :: pauses)

namespace Account

variable {active : Bool} {pause : Pause} {pauses before after : List Pause}

theorem off_iff (account : Account active pauses) : active = false ↔ pauses ≠ [] := by
  cases account <;> simp

/-- What the newest pause brings back is right for the older ones. -/
theorem newest (account : Account active (pause :: pauses)) : Account pause.wasActive pauses := by
  cases account with
  | pause older => exact older

theorem newest_may_end (account : Account active (pause :: pauses)) : pause.EndsLast pauses := by
  intro found
  by_contra others
  exact Bool.noConfusion (found.symm.trans (account.newest.off_iff.2 others))

theorem ended (account : Account active (before ++ pause :: after))
    (last : pause.EndsLast (before ++ after)) : Account pause.wasActive (before ++ after) := by
  induction before generalizing active with
  | nil => exact account.newest
  | cons newer rest ih =>
    have foundOff : pause.wasActive = false := by
      cases found : pause.wasActive with
      | false => rfl
      | true => cases last found
    cases account with
    | pause older =>
      obtain rfl := older.off_iff.2 (by simp)
      have remaining := ih older fun found => by cases foundOff.symm.trans found
      rw [foundOff] at remaining ⊢
      exact .pause remaining

end Account

end Pause

namespace History

theorem Moved.active_eq {h h' : History ε} (moved : h.Moved h') : h'.active = h.active := by
  cases moved with
  | @handed direction | @dropped direction => cases direction <;> rfl

end History

namespace HistoryLens

variable {lens : HistoryLens σ ε} {replay : Replay σ ε} {here : σ → Prop} {s s' : σ}
  {pauses pauses' : List Pause}

/-- The history is where it is looked for, and its flag is as the pauses under way have it. -/
def Accounts (lens : HistoryLens σ ε) (here : σ → Prop) (s : σ) (pauses : List Pause) : Prop :=
  here s ∧ Pause.Account (lens.view s).active pauses

section

variable (tracks : lens.Tracks replay here)

include tracks

theorem Accounts.pause (accounts : lens.Accounts here s pauses) :
    lens.Accounts here (lens.put (lens.view s).pause.2 s) ((lens.view s).pause.1 :: pauses) := by
  refine ⟨tracks.put_here _ s accounts.1, ?_⟩
  rw [tracks.view_put _ s accounts.1]
  exact .pause accounts.2

theorem Accounts.resume {pause : Pause} {before after : List Pause}
    (accounts : lens.Accounts here s (before ++ pause :: after))
    (last : pause.EndsLast (before ++ after)) :
    lens.Accounts here (lens.update (·.resume pause) s) (before ++ after) := by
  refine ⟨tracks.here_update accounts.1 _, ?_⟩
  rw [tracks.view_update accounts.1]
  exact accounts.2.ended last

theorem Accounts.move (accounts : lens.Accounts here s pauses) (direction : Direction)
    (ends : (lens.move replay direction).Ends s s') : lens.Accounts here s' pauses := by
  obtain ⟨same | ⟨_, moved⟩, home⟩ := tracks.moves accounts.1 direction ends
  · exact ⟨home, same ▸ accounts.2⟩
  · exact ⟨home, moved.active_eq ▸ accounts.2⟩

end

variable [Undoable ε]

/-- What is done with a history while pauses begin and end, as long as nothing faults. The lists
are the pauses under way before and after, the newest first. `mayEnd` says which pause may end
while which others go on. An action with recording off is a pause that ends with the action.
Between the calls the rest of the state changes in any way. -/
inductive Pausing (lens : HistoryLens σ ε) (replay : Replay σ ε) (here : σ → Prop)
    (mayEnd : Pause → List Pause → Prop) : σ → List Pause → σ → List Pause → Prop where
  | refl (s : σ) (pauses : List Pause) : Pausing lens replay here mayEnd s pauses s pauses
  | elsewhere {s s' s'' : σ} {pauses pauses' : List Pause} :
      Pausing lens replay here mayEnd s pauses s' pauses' →
      (lens.view s'').active = (lens.view s').active → here s'' →
      Pausing lens replay here mayEnd s pauses s'' pauses'
  | record {s s' s'' : σ} {pauses pauses' : List Pause} (step : Step ε) :
      Pausing lens replay here mayEnd s pauses s' pauses' → (lens.record step).Ends s' s'' →
      Pausing lens replay here mayEnd s pauses s'' pauses'
  | undo {s s' s'' : σ} {pauses pauses' : List Pause} :
      Pausing lens replay here mayEnd s pauses s' pauses' → (lens.undo replay).Ends s' s'' →
      Pausing lens replay here mayEnd s pauses s'' pauses'
  | redo {s s' s'' : σ} {pauses pauses' : List Pause} :
      Pausing lens replay here mayEnd s pauses s' pauses' → (lens.redo replay).Ends s' s'' →
      Pausing lens replay here mayEnd s pauses s'' pauses'
  | pause {s s' : σ} {pauses pauses' : List Pause} :
      Pausing lens replay here mayEnd s pauses s' pauses' →
      Pausing lens replay here mayEnd s pauses (lens.put (lens.view s').pause.2 s')
        ((lens.view s').pause.1 :: pauses')
  | resume {s s' : σ} {pause : Pause} {pauses : List Pause} (before : List Pause)
      {after : List Pause} :
      Pausing lens replay here mayEnd s pauses s' (before ++ pause :: after) →
      mayEnd pause (before ++ after) →
      Pausing lens replay here mayEnd s pauses (lens.update (·.resume pause) s') (before ++ after)
  | paused {α : Type} {action : Action σ α} {s s' s₁ s'' : σ} {pauses pauses' : List Pause}
      (before : List Pause) {after : List Pause} :
      Pausing lens replay here mayEnd s pauses s' pauses' →
      Pausing lens replay here mayEnd (lens.put (lens.view s').pause.2 s')
        ((lens.view s').pause.1 :: pauses') s₁ (before ++ (lens.view s').pause.1 :: after) →
      action.Ends (lens.put (lens.view s').pause.2 s') s₁ → (lens.paused action).Ends s' s'' →
      mayEnd (lens.view s').pause.1 (before ++ after) →
      Pausing lens replay here mayEnd s pauses s'' (before ++ after)

theorem Pausing.accounts (tracks : lens.Tracks replay here)
    (run : lens.Pausing replay here Pause.EndsLast s pauses s' pauses')
    (accounts : lens.Accounts here s pauses) : lens.Accounts here s' pauses' := by
  induction run with
  | refl s pauses => exact accounts
  | elsewhere run same home ih => exact ⟨home, same ▸ (ih accounts).2⟩
  | record step run ends ih =>
    obtain ⟨home, account⟩ := ih accounts
    rw [record_records ends]
    refine ⟨tracks.here_update home _, ?_⟩
    rw [tracks.view_update home, History.record_active]
    exact account
  | undo run ends ih => exact (ih accounts).move tracks .undo ends
  | redo run ends ih => exact (ih accounts).move tracks .redo ends
  | pause run ih => exact (ih accounts).pause tracks
  | resume before run last ih => exact (ih accounts).resume tracks last
  | paused before run within acts ends last ih inner =>
    have acted := inner ((ih accounts).pause tracks)
    obtain ⟨s₁, acts', rfl⟩ := Action.Ends.of_ensuring ends
    obtain rfl := acts.unique acts'
    exact acted.resume tracks last

/-- Recording is off exactly while a pause is under way, if the pause that turned it off is the
last to end. To end a pause keeps to this exactly where that is observed, as it is whenever the
newest pause ends. -/
theorem recording_off_while_paused (tracks : lens.Tracks replay here) (home : here s)
    (recording : (lens.view s).active = true)
    (run : lens.Pausing replay here Pause.EndsLast s [] s' pauses) :
    ((lens.view s').active = false ↔ pauses ≠ []) ∧
    (∀ before pause after, pauses = before ++ pause :: after →
      (((lens.view (lens.update (·.resume pause) s')).active = false ↔ before ++ after ≠ []) ↔
        pause.EndsLast (before ++ after))) ∧
    ∀ pause after, pauses = pause :: after → pause.EndsLast after := by
  have accounts := run.accounts tracks ⟨home, recording ▸ .none⟩
  refine ⟨accounts.2.off_iff, ?_, ?_⟩
  · rintro before pause after rfl
    constructor
    · intro fits found
      by_contra others
      rw [tracks.view_update accounts.1] at fits
      exact Bool.noConfusion (found.symm.trans (fits.2 others))
    · exact fun last => (accounts.resume tracks last).2.off_iff
  · rintro pause after rfl
    exact accounts.2.newest_may_end

end HistoryLens

namespace Sample.TextSession

variable {mayEnd : Pause → List Pause → Prop} {s s' : TextSession} {pauses pauses' : List Pause}

theorem apply_pausing (request : Request)
    (run : lens.Pausing replay (fun _ => True) mayEnd s pauses s' pauses') :
    lens.Pausing replay (fun _ => True) mayEnd s pauses ((apply request).after s') pauses' := by
  have changed : lens.Pausing replay (fun _ => True) mayEnd s pauses
      { s' with text := (perform request s'.text).2 } pauses' := run.elsewhere rfl trivial
  exact changed.record (perform request s'.text).1 (.inl ⟨(), rfl⟩)

def blank : TextSession := { text := "", history := {} }

def written : TextSession :=
  (apply (.append "cd")).after ((apply (.replace "ab" "Set" "undo")).after blank)

def shortened : TextSession := undo.after (lens.put written.history.pause.2 written)

def refusedBack : TextSession := undo.after (lens.put shortened.history.pause.2 shortened)

/-- While both pauses go on, a word was added beside the record. -/
def interrupted : TextSession := (lens.paused (apply (.append "ef"))).after refusedBack

theorem interrupted_pausing :
    lens.Pausing replay (fun _ => True) Pause.EndsLast blank [] interrupted [⟨false⟩, ⟨true⟩] := by
  have typed : lens.Pausing replay (fun _ => True) Pause.EndsLast blank [] written [] :=
    apply_pausing (.append "cd") (apply_pausing (.replace "ab" "Set" "undo") (.refl blank []))
  have back : lens.Pausing replay (fun _ => True) Pause.EndsLast blank [] shortened [⟨true⟩] :=
    typed.pause.undo (.inl ⟨true, Action.run_of_value? (by decide +kernel)⟩)
  have refused : lens.Pausing replay (fun _ => True) Pause.EndsLast blank [] refusedBack
      [⟨false⟩, ⟨true⟩] :=
    back.pause.undo (.inr ⟨.unknownKey "Set", Action.run_of_refusal? (by decide +kernel)⟩)
  have beside : (lens.paused (apply (.append "ef"))).Ends refusedBack interrupted :=
    .inl ⟨(), rfl⟩
  exact refused.paused [] (apply_pausing (.append "ef") (.refl _ _)) (.inl ⟨(), rfl⟩) beside
    Bool.noConfusion

theorem interrupted_is_off :
    lens.Pausing replay (fun _ => True) Pause.EndsLast blank [] interrupted [⟨false⟩, ⟨true⟩] ∧
    interrupted.history.active = false ∧
    ¬ ((lens.update (·.resume ⟨true⟩) interrupted).history.active = false ↔
      ([⟨false⟩] : List Pause) ≠ []) ∧
    (lens.update (·.resume ⟨false⟩) interrupted).history.active = false ∧
    Pause.EndsLast ⟨false⟩ [⟨true⟩] := by
  obtain ⟨off, ends, newest⟩ := HistoryLens.recording_off_while_paused lens_tracks trivial rfl
    interrupted_pausing
  refine ⟨interrupted_pausing, off.2 (by simp), fun fits => ?_, ?_, newest ⟨false⟩ [⟨true⟩] rfl⟩
  · cases (ends [⟨false⟩] ⟨true⟩ [] rfl).1 fits rfl
  · exact ((ends [] ⟨false⟩ [⟨true⟩] rfl).2 (newest ⟨false⟩ [⟨true⟩] rfl)).2 (by simp)

/-- Of two pauses the first ends first. -/
def overlapped : TextSession :=
  lens.update (·.resume ⟨true⟩) (lens.update (·.pause.2) (lens.update (·.pause.2) blank))

/-- If the pause that turned recording off ends first, recording is on while the other one goes on,
and off when none is left. -/
theorem overlapping_pauses_misreport :
    blank.history.active = true ∧
    (lens.Pausing replay (fun _ => True) (fun _ _ => True) blank [] overlapped [⟨false⟩] ∧
      overlapped.history.active = true) ∧
    (lens.Pausing replay (fun _ => True) (fun _ _ => True) blank []
        (lens.update (·.resume ⟨false⟩) overlapped) [] ∧
      (lens.update (·.resume ⟨false⟩) overlapped).history.active = false) ∧
    ¬ ∀ (s : TextSession) (pauses : List Pause),
      lens.Pausing replay (fun _ => True) (fun _ _ => True) blank [] s pauses →
        (s.history.active = false ↔ pauses ≠ []) := by
  have both : lens.Pausing replay (fun _ => True) (fun _ _ => True) blank []
      (lens.update (·.pause.2) (lens.update (·.pause.2) blank)) [⟨false⟩, ⟨true⟩] :=
    (HistoryLens.Pausing.refl blank []).pause.pause
  have second : lens.Pausing replay (fun _ => True) (fun _ _ => True) blank [] overlapped
      [⟨false⟩] := both.resume [⟨false⟩] trivial
  refine ⟨rfl, ⟨second, rfl⟩, ⟨second.resume [] trivial, rfl⟩, fun claimed => ?_⟩
  exact Bool.noConfusion ((claimed _ _ second).2 (by simp))

end Sample.TextSession

end StructureEditor
