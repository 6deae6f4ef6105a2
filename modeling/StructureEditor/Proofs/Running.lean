import StructureEditor.Workspace.Basic

/-! Running actions: what each way of composing them does to a state, and statements about
how a run ends. -/
namespace StructureEditor.Action

variable {σ α β : Type} {s : σ}

@[simp] theorem pure_run (value : α) (s : σ) : (pure value : Action σ α) s = .ok value s := rfl

@[simp] theorem get_run (s : σ) : (get : Action σ σ) s = .ok s s := rfl

@[simp] theorem modify_run (f : σ → σ) (s : σ) : (modify f : Action σ Unit) s = .ok () (f s) := rfl

@[simp] theorem refuse_run (error : Refusal) (s : σ) :
    (refuse error : Action σ α) s = .error (.refused error) s := rfl

@[simp] theorem fault_run (f : Fault) (s : σ) : (fault f : Action σ α) s = .error (.fault f) s := rfl

@[simp] theorem change_run (step : σ → α × σ) (s : σ) :
    change step s = .ok (step s).1 (step s).2 := rfl

theorem bind_run (action : Action σ α) (next : α → Action σ β) (s : σ) :
    (action >>= next) s = match action s with
      | .ok value s' => next value s'
      | .error stop s' => .error stop s' := by
  cases ran : action s <;> simp [Bind.bind, EStateM.bind, ran]

theorem bind_run_ok {action : Action σ α} {value : α} {s' : σ} (next : α → Action σ β)
    (ran : action s = .ok value s') : (action >>= next) s = next value s' := by
  simp only [bind_run, ran]

theorem bind_run_error {action : Action σ α} {stop : Stop} {s' : σ} (next : α → Action σ β)
    (ran : action s = .error stop s') : (action >>= next) s = .error stop s' := by
  simp only [bind_run, ran]

theorem forM_run_ok {f : α → Action σ Unit} {x : α} {s' : σ} (xs : List α)
    (ran : f x s = .ok () s') : (x :: xs).forM f s = xs.forM f s' :=
  bind_run_ok (fun _ => xs.forM f) ran

theorem ask_run_ok {question : σ → Except Refusal α} {value : α} (answer : question s = .ok value) :
    ask question s = .ok value s := by
  simp only [ask, answer]

theorem ask_run_error {question : σ → Except Refusal α} {error : Refusal}
    (answer : question s = .error error) : ask question s = .error (.refused error) s := by
  simp only [ask, answer]

/-- How an action ends from a state: with a value, or stopped. -/
def Meets (action : Action σ α) (s : σ) (ok : α → σ → Prop) (stopped : Stop → σ → Prop) : Prop :=
  match action s with
  | .ok value s' => ok value s'
  | .error stop s' => stopped stop s'

def after (action : Action σ α) (s : σ) : σ :=
  match action s with
  | .ok _ s' => s'
  | .error _ s' => s'

/-- An action ends in a state, with a value or refused. -/
def Ends {σ α : Type} (action : Action σ α) (s s' : σ) : Prop :=
  (∃ value, action s = .ok value s') ∨ ∃ error, action s = .error (.refused error) s'

def refusal? (action : Action σ α) (s : σ) : Option Refusal :=
  match action s with
  | .error (.refused error) _ => some error
  | _ => none

theorem run_of_refusal? {action : Action σ α} {error : Refusal}
    (refused : action.refusal? s = some error) :
    action s = .error (.refused error) (action.after s) := by
  unfold refusal? at refused
  unfold after
  split at refused
  · next ran =>
    cases refused
    rw [ran]
  · cases refused

def value? (action : Action σ α) (s : σ) : Option α :=
  match action s with
  | .ok value _ => some value
  | .error .. => none

theorem run_of_value? {action : Action σ α} {value : α} (returned : action.value? s = some value) :
    action s = .ok value (action.after s) := by
  unfold value? at returned
  unfold after
  split at returned
  · next ran =>
    cases returned
    rw [ran]
  · cases returned

variable {action : Action σ α} {ok ok' : α → σ → Prop} {stopped stopped' : Stop → σ → Prop}

theorem Meets.of_ok {value : α} {s' : σ} (ran : action s = .ok value s') (holds : ok value s') :
    Meets action s ok stopped := by
  simpa only [Meets, ran] using holds

theorem Meets.of_error {stop : Stop} {s' : σ} (ran : action s = .error stop s')
    (holds : stopped stop s') : Meets action s ok stopped := by
  simpa only [Meets, ran] using holds

theorem Meets.of_eq {action' : Action σ α} {s' : σ} (same : action s = action' s')
    (meets : Meets action' s' ok stopped) : Meets action s ok stopped := by
  rw [Meets, same]
  exact meets

theorem Meets.ok_of {value : α} {s' : σ} (meets : Meets action s ok stopped)
    (ran : action s = .ok value s') : ok value s' := by
  simpa only [Meets, ran] using meets

theorem Meets.stopped_of {stop : Stop} {s' : σ} (meets : Meets action s ok stopped)
    (ran : action s = .error stop s') : stopped stop s' := by
  simpa only [Meets, ran] using meets

theorem Meets.of_ends {P : σ → Prop} {s' : σ}
    (meets : Meets action s (fun _ s' => P s') fun _ s' => P s') (ends : action.Ends s s') : P s' := by
  rcases ends with ⟨_, ran⟩ | ⟨_, ran⟩
  · exact meets.ok_of ran
  · exact meets.stopped_of ran

theorem Meets.mono (meets : Meets action s ok stopped) (more : ∀ v s', ok v s' → ok' v s')
    (less : ∀ e s', stopped e s' → stopped' e s') : Meets action s ok' stopped' := by
  unfold Meets at *
  split at meets
  · exact more _ _ meets
  · exact less _ _ meets

theorem Meets.always (each : ∀ v s', ok v s') (all : ∀ e s', stopped e s') :
    Meets action s ok stopped := by
  unfold Meets
  split
  · exact each _ _
  · exact all _ _

theorem Meets.and (first : Meets action s ok stopped) (second : Meets action s ok' stopped') :
    Meets action s (fun v s' => ok v s' ∧ ok' v s') fun e s' => stopped e s' ∧ stopped' e s' := by
  unfold Meets at *
  split at first
  · next ran => exact ⟨first, by simpa only [ran] using second⟩
  · next ran => exact ⟨first, by simpa only [ran] using second⟩

theorem Meets.bind {next : α → Action σ β} {ok : β → σ → Prop}
    (meets : Meets action s (fun v s' => Meets (next v) s' ok stopped) stopped) :
    Meets (action >>= next) s ok stopped := by
  unfold Meets at *
  simp only [bind_run]
  split at meets
  · next ran => simpa only [ran] using meets
  · next ran => simpa only [ran] using meets

theorem Meets.after_ok {next : α → Action σ β} {ok : β → σ → Prop} {value : α} {s' : σ}
    (ran : action s = .ok value s') (rest : Meets (next value) s' ok stopped) :
    Meets (action >>= next) s ok stopped := by
  rw [Meets, bind_run_ok _ ran]
  exact rest

theorem Meets.pure {value : α} (holds : ok value s) :
    Meets (pure value : Action σ α) s ok stopped := holds

theorem Meets.refuse {error : Refusal} (holds : stopped (.refused error) s) :
    Meets (refuse error : Action σ α) s ok stopped := holds

theorem Meets.fault {f : Fault} (holds : stopped (.fault f) s) :
    Meets (fault f : Action σ α) s ok stopped := holds

theorem Meets.ask {question : σ → Except Refusal α}
    (answered : ∀ v, question s = .ok v → ok v s)
    (refused : ∀ e, question s = .error e → stopped (.refused e) s) :
    Meets (ask question) s ok stopped := by
  cases answer : question s with
  | ok value => exact .of_ok (ask_run_ok answer) (answered value answer)
  | error error => exact .of_error (ask_run_error answer) (refused error answer)

theorem Meets.attempt {ok : Except Refusal α → σ → Prop}
    (meets : Meets action s (fun v s' => ok (.ok v) s') fun stop s' =>
      match stop with
      | .refused error => ok (.error error) s'
      | .fault f => stopped (.fault f) s') :
    Meets action.attempt s ok stopped := by
  unfold Meets at *
  simp only [Action.attempt]
  split at meets
  · next ran => simpa only [ran] using meets
  · next stop s' ran =>
    cases stop with
    | refused error => simpa only [ran] using meets
    | fault f => simpa only [ran] using meets

theorem Ends.of_pure {value : α} {s' : σ} (ends : (pure value : Action σ α).Ends s s') : s' = s := by
  rcases ends with ⟨_, ran⟩ | ⟨_, ran⟩
  · cases ran
    rfl
  · cases ran

theorem Ends.of_modify {f : σ → σ} {s' : σ} (ends : (modify f : Action σ Unit).Ends s s') :
    s' = f s := by
  rcases ends with ⟨_, ran⟩ | ⟨_, ran⟩
  · cases ran
    rfl
  · cases ran

theorem Ends.unique {s' s'' : σ} (ends : action.Ends s s') (ends' : action.Ends s s'') :
    s' = s'' := by
  rcases ends with ⟨_, ran⟩ | ⟨_, ran⟩ <;> rcases ends' with ⟨_, ran'⟩ | ⟨_, ran'⟩ <;>
    cases ran.symm.trans ran' <;> rfl

theorem Ends.of_bind {next : α → Action σ β} {s' : σ} (ends : (action >>= next).Ends s s') :
    (∃ value s₁, action s = .ok value s₁ ∧ (next value).Ends s₁ s') ∨
      ∃ error, action s = .error (.refused error) s' := by
  cases ran : action s with
  | ok value s₁ =>
    rw [Ends, bind_run_ok next ran] at ends
    exact .inl ⟨value, s₁, rfl, ends⟩
  | error stop s₁ =>
    rw [Ends, bind_run_error next ran] at ends
    rcases ends with ⟨_, same⟩ | ⟨error, same⟩
    · cases same
    · cases same
      exact .inr ⟨error, rfl⟩

theorem ends_of_attempt {result : Except Refusal α} {s' : σ}
    (ran : action.attempt s = .ok result s') : action.Ends s s' := by
  unfold attempt at ran
  split at ran
  · next value s₁ through =>
    cases ran
    exact .inl ⟨value, through⟩
  · next error s₁ refused =>
    cases ran
    exact .inr ⟨error, refused⟩
  · cases ran

theorem attempt_not_refused {error : Refusal} {s' : σ} :
    action.attempt s ≠ .error (.refused error) s' := by
  intro ran
  unfold attempt at ran
  split at ran <;> cases ran

theorem Ends.of_ofExcept {result : Except Refusal α} {s' : σ}
    (ends : (ofExcept result : Action σ α).Ends s s') : s' = s := by
  cases result <;> rcases ends with ⟨_, ran⟩ | ⟨_, ran⟩ <;> cases ran <;> rfl

theorem Ends.of_ensuring {finish : σ → σ} {s' : σ} (ends : (action.ensuring finish).Ends s s') :
    ∃ s₁, action.Ends s s₁ ∧ s' = finish s₁ := by
  unfold Ends ensuring at ends
  cases ran : action s with
  | ok value s₁ =>
    rw [ran] at ends
    rcases ends with ⟨_, same⟩ | ⟨_, same⟩ <;> cases same
    exact ⟨s₁, .inl ⟨value, ran⟩, rfl⟩
  | error stop s₁ =>
    rw [ran] at ends
    rcases ends with ⟨_, same⟩ | ⟨error, same⟩ <;> cases same
    exact ⟨s₁, .inr ⟨error, ran⟩, rfl⟩

theorem Meets.ensuring {finish : σ → σ}
    (meets : Meets action s (fun v s' => ok v (finish s')) fun e s' => stopped e (finish s')) :
    Meets (action.ensuring finish) s ok stopped := by
  unfold Meets at *
  simp only [Action.ensuring]
  split at meets
  · next ran => simpa only [ran] using meets
  · next ran => simpa only [ran] using meets

end StructureEditor.Action

namespace StructureEditor.HistoryLens

variable {σ ε α : Type} {lens : HistoryLens σ ε} {s : σ}

theorem begin_run (closed : (lens.view s).isOpen = false) :
    lens.begin s = .ok () (lens.put (lens.view s).begin s) := by
  simp [begin, Action.bind_run, closed]

variable [Undoable ε]

theorem finish_run {steps : List (Step ε)} (description : String)
    (collected : (lens.view s).collected = some steps) :
    lens.finish description s = .ok () (lens.put ((lens.view s).close description steps) s) := by
  simp [finish, Action.bind_run, collected]

theorem finish_fault (description : String) (collected : (lens.view s).collected = none) :
    lens.finish description s = .error (.fault .noGroupOpen) s := by
  simp [finish, Action.bind_run, collected]

theorem grouped_joins (description : String) (action : Action σ α)
    (joins : (!(lens.view s).active || (lens.view s).isOpen) = true) :
    lens.grouped description action s = action s := by
  rw [grouped, Action.bind_run_ok _ (Action.get_run s), if_pos joins]

theorem grouped_opens (description : String) (action : Action σ α)
    (opens : ¬ (!(lens.view s).active || (lens.view s).isOpen) = true) :
    lens.grouped description action s = (do
      let result ← action.attempt
      lens.finish description
      Action.ofExcept result) (lens.put (lens.view s).begin s) := by
  have closed : (lens.view s).isOpen = false := by
    simp only [Bool.or_eq_true, not_or, Bool.not_eq_true] at opens
    exact opens.2
  rw [grouped, Action.bind_run_ok _ (Action.get_run s), if_neg opens,
    Action.bind_run_ok _ (begin_run closed)]

end StructureEditor.HistoryLens

namespace StructureEditor

variable {σ ε : Type}

def Step.replayOrder (direction : Direction) (step : Step ε) : List ε :=
  match direction with
  | .undo => step.edits.reverse
  | .redo => step.edits

namespace History

theorem record_active [Undoable ε] (step : Step ε) (h : History ε) :
    (h.record step).active = h.active := by
  unfold record
  split
  · dsimp only
    split <;> rfl
  · rfl

/-- The steps that a direction takes, the next one first. -/
def ahead (direction : Direction) (h : History ε) : List (Step ε) :=
  match direction with
  | .undo => h.done
  | .redo => h.undone

def taken (direction : Direction) (rest : List (Step ε)) (h : History ε) : History ε :=
  match direction with
  | .undo => { h with done := rest }
  | .redo => { h with undone := rest }

def handed (direction : Direction) (step : Step ε) (h : History ε) : History ε :=
  match direction with
  | .undo => { h with undone := step :: h.undone }
  | .redo => { h with done := step :: h.done }

def moved (direction : Direction) (step : Step ε) (rest : List (Step ε)) (h : History ε) :
    History ε :=
  (h.taken direction rest).handed direction step

end History

namespace HistoryLens

variable {lens : HistoryLens σ ε} {replay : Replay σ ε} {direction : Direction} {s : σ}

theorem replayStep_eq (direction : Direction) (step : Step ε) :
    replayStep replay direction step = (step.replayOrder direction).forM (replay direction) := by
  cases direction <;> rfl

def move (lens : HistoryLens σ ε) (replay : Replay σ ε) : Direction → Action σ Bool
  | .undo => lens.undo replay
  | .redo => lens.redo replay

theorem move_open (opened : (lens.view s).isOpen = true) :
    lens.move replay direction s = .error (.fault (.groupOpen direction)) s := by
  cases direction <;>
    simp only [move, undo, redo, Action.bind_run_ok _ (Action.get_run s), opened, if_true] <;> rfl

theorem move_none (closed : (lens.view s).collected = none)
    (none : (lens.view s).ahead direction = []) : lens.move replay direction s = .ok false s := by
  have shut := History.isOpen_eq_false_iff.2 closed
  cases direction <;> simp only [History.ahead] at none <;>
    simp only [move, undo, redo, Action.bind_run_ok _ (Action.get_run s), shut, Bool.false_eq_true,
      if_false, none] <;> rfl

theorem move_some {step : Step ε} {rest : List (Step ε)} (closed : (lens.view s).collected = none)
    (next : (lens.view s).ahead direction = step :: rest) :
    lens.move replay direction s = (do
      lens.paused (replayStep replay direction step)
      modify (lens.update (History.handed direction step))
      return true) (lens.put ((lens.view s).taken direction rest) s) := by
  have shut := History.isOpen_eq_false_iff.2 closed
  cases direction <;> simp only [History.ahead] at next <;>
    simp only [move, undo, redo, Action.bind_run_ok _ (Action.get_run s), shut, Bool.false_eq_true,
      if_false, next] <;>
    exact Action.bind_run_ok _ (Action.modify_run _ s)

end HistoryLens

end StructureEditor
