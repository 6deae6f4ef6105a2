import StructureEditor.Proofs.Running

/-! Two runs side by side. Two actions on two states go together if they end the same way: with
values that are related, refused for the same reason, or both at fault. -/
namespace StructureEditor

def Refusal.anonymous : Refusal → Refusal
  | .stale _ => .stale default
  | .wrongShape _ expected found => .wrongShape default expected found
  | .noChild _ position => .noChild default position
  | .attached _ => .attached default
  | .notCopyable _ => .notCopyable default
  | other => other

namespace Action

variable {σ α β γ δ : Type} {s t s' t' : σ} {a : Action σ α} {b : Action σ β}
  {ok ok' : α → β → σ → σ → Prop} {stopped stopped' : σ → σ → Prop}

/-- Both give a value, both are refused for one reason, or both are at fault. -/
def Together (a : Action σ α) (b : Action σ β) (s t : σ) (ok : α → β → σ → σ → Prop)
    (stopped : σ → σ → Prop) : Prop :=
  match a s, b t with
  | .ok v s', .ok u t' => ok v u s' t'
  | .error (.refused e) s', .error (.refused f) t' => e.anonymous = f.anonymous ∧ stopped s' t'
  | .error (.fault _) s', .error (.fault _) t' => stopped s' t'
  | _, _ => False

namespace Together

theorem of_ok {v : α} {u : β} (first : a s = .ok v s') (second : b t = .ok u t')
    (holds : ok v u s' t') : Together a b s t ok stopped := by
  simpa only [Together, first, second] using holds

theorem of_refused {e f : Refusal} (first : a s = .error (.refused e) s')
    (second : b t = .error (.refused f) t') (same : e.anonymous = f.anonymous)
    (holds : stopped s' t') : Together a b s t ok stopped := by
  simpa only [Together, first, second] using ⟨same, holds⟩

theorem of_fault {e f : Fault} (first : a s = .error (.fault e) s')
    (second : b t = .error (.fault f) t') (holds : stopped s' t') :
    Together a b s t ok stopped := by
  simpa only [Together, first, second] using holds

theorem cases (together : Together a b s t ok stopped) :
    (∃ v u s' t', a s = .ok v s' ∧ b t = .ok u t' ∧ ok v u s' t') ∨
    (∃ e f s' t', a s = .error (.refused e) s' ∧ b t = .error (.refused f) t' ∧
      e.anonymous = f.anonymous ∧ stopped s' t') ∨
    ∃ e f s' t', a s = .error (.fault e) s' ∧ b t = .error (.fault f) t' ∧ stopped s' t' := by
  unfold Together at together
  split at together
  · next v s' u t' first second => exact .inl ⟨v, u, s', t', first, second, together⟩
  · next e s' f t' first second => exact .inr (.inl ⟨e, f, s', t', first, second, together⟩)
  · next e s' f t' first second => exact .inr (.inr ⟨e, f, s', t', first, second, together⟩)
  · cases together

theorem mono (together : Together a b s t ok stopped)
    (more : ∀ v u s' t', ok v u s' t' → ok' v u s' t')
    (less : ∀ s' t', stopped s' t' → stopped' s' t') : Together a b s t ok' stopped' := by
  rcases together.cases with ⟨v, u, s', t', first, second, holds⟩ |
    ⟨e, f, s', t', first, second, same, holds⟩ | ⟨e, f, s', t', first, second, holds⟩
  · exact .of_ok first second (more v u s' t' holds)
  · exact .of_refused first second same (less s' t' holds)
  · exact .of_fault first second (less s' t' holds)

theorem meets {okA : α → σ → Prop} {okB : β → σ → Prop} {stopA stopB : Stop → σ → Prop}
    (together : Together a b s t ok stopped) (left : Meets a s okA stopA)
    (right : Meets b t okB stopB) :
    Together a b s t (fun v u s' t' => ok v u s' t' ∧ okA v s' ∧ okB u t')
      fun s' t' => stopped s' t' ∧ (∃ stop, stopA stop s') ∧ ∃ stop, stopB stop t' := by
  rcases together.cases with ⟨v, u, s', t', first, second, holds⟩ |
    ⟨e, f, s', t', first, second, same, holds⟩ | ⟨e, f, s', t', first, second, holds⟩
  · exact .of_ok first second ⟨holds, left.ok_of first, right.ok_of second⟩
  · exact .of_refused first second same
      ⟨holds, ⟨_, left.stopped_of first⟩, _, right.stopped_of second⟩
  · exact .of_fault first second ⟨holds, ⟨_, left.stopped_of first⟩, _, right.stopped_of second⟩

theorem bind {f : α → Action σ γ} {g : β → Action σ δ} {ok : γ → δ → σ → σ → Prop}
    (together : Together a b s t (fun v u s' t' => Together (f v) (g u) s' t' ok stopped) stopped) :
    Together (a >>= f) (b >>= g) s t ok stopped := by
  rcases together.cases with ⟨v, u, s', t', first, second, rest⟩ |
    ⟨e, f, s', t', first, second, same, holds⟩ | ⟨e, f, s', t', first, second, holds⟩
  · rw [Together, bind_run_ok _ first, bind_run_ok _ second]
    exact rest
  · exact .of_refused (bind_run_error _ first) (bind_run_error _ second) same holds
  · exact .of_fault (bind_run_error _ first) (bind_run_error _ second) holds

theorem after_ok {f : α → Action σ γ} {g : β → Action σ δ} {ok : γ → δ → σ → σ → Prop} {v : α}
    {u : β} (first : a s = .ok v s') (second : b t = .ok u t')
    (rest : Together (f v) (g u) s' t' ok stopped) :
    Together (a >>= f) (b >>= g) s t ok stopped := by
  rw [Together, bind_run_ok _ first, bind_run_ok _ second]
  exact rest

theorem asked {question question' : σ → Except Refusal α} {f : α → Action σ γ}
    {g : α → Action σ δ} {ok : γ → δ → σ → σ → Prop} (same : question s = question' t)
    (refused : stopped s t)
    (rest : ∀ v, question s = .ok v → Together (f v) (g v) s t ok stopped) :
    Together (ask question >>= f) (ask question' >>= g) s t ok stopped := by
  cases answer : question s with
  | ok v => exact after_ok (ask_run_ok answer) (ask_run_ok (same.symm.trans answer)) (rest v answer)
  | error e =>
    exact of_refused (bind_run_error _ (ask_run_error answer))
      (bind_run_error _ (ask_run_error (same.symm.trans answer))) rfl refused

theorem pure {v : α} {u : β} (holds : ok v u s t) :
    Together (Pure.pure v : Action σ α) (Pure.pure u : Action σ β) s t ok stopped := holds

theorem refuse {e f : Refusal} (same : e.anonymous = f.anonymous) (holds : stopped s t) :
    Together (Action.refuse e : Action σ α) (Action.refuse f : Action σ β) s t ok stopped :=
  ⟨same, holds⟩

theorem fault {e f : Fault} (holds : stopped s t) :
    Together (Action.fault e : Action σ α) (Action.fault f : Action σ β) s t ok stopped := holds

theorem attempt {ok : Except Refusal α → Except Refusal β → σ → σ → Prop}
    (together : Together a b s t (fun v u s' t' => ok (.ok v) (.ok u) s' t') stopped')
    (refused : ∀ e f s' t', e.anonymous = f.anonymous → stopped' s' t' →
      ok (.error e) (.error f) s' t') (ended : ∀ s' t', stopped' s' t' → stopped s' t') :
    Together a.attempt b.attempt s t ok stopped := by
  rcases together.cases with ⟨v, u, s', t', first, second, holds⟩ |
    ⟨e, f, s', t', first, second, same, holds⟩ | ⟨e, f, s', t', first, second, holds⟩
  · refine .of_ok (v := .ok v) (u := .ok u) ?_ ?_ holds
    · simp only [Action.attempt, first]
    · simp only [Action.attempt, second]
  · refine .of_ok (v := .error e) (u := .error f) ?_ ?_ (refused e f s' t' same holds)
    · simp only [Action.attempt, first]
    · simp only [Action.attempt, second]
  · refine .of_fault (e := e) (f := f) ?_ ?_ (ended s' t' holds)
    · simp only [Action.attempt, first]
    · simp only [Action.attempt, second]

theorem ensuring {finish finish' : σ → σ}
    (together : Together a b s t (fun v u s' t' => ok v u (finish s') (finish' t'))
      fun s' t' => stopped (finish s') (finish' t')) :
    Together (a.ensuring finish) (b.ensuring finish') s t ok stopped := by
  rcases together.cases with ⟨v, u, s', t', first, second, holds⟩ |
    ⟨e, f, s', t', first, second, same, holds⟩ | ⟨e, f, s', t', first, second, holds⟩
  · refine .of_ok (v := v) (u := u) ?_ ?_ holds
    · simp only [Action.ensuring, first]
    · simp only [Action.ensuring, second]
  · refine .of_refused (e := e) (f := f) ?_ ?_ same holds
    · simp only [Action.ensuring, first]
    · simp only [Action.ensuring, second]
  · refine .of_fault (e := e) (f := f) ?_ ?_ holds
    · simp only [Action.ensuring, first]
    · simp only [Action.ensuring, second]

end Together

end Action

end StructureEditor
