import StructureEditor.Proofs.Operations.Transition

namespace StructureEditor.Workspace

variable {S : Signature} [Language S] {α β : Type} {strict : Bool} {w₀ w : Workspace S}
  {id : Handle} {P : Workspace S → Prop}

/-- Content is pasted: it is built beside the expander. What cannot be built does not fit, what is
not admitted is thrown away, and else it takes the place of what the expander shows. -/
theorem pasteContent_rule {s : Snapshot} {ok : Bool → Workspace S → Prop}
    {stopped : Stop → Workspace S → Prop} (sound : w.arena.Sound)
    (early : ∀ error, stopped (.refused error) w)
    (rest : ∀ {k editor display}, w.arena.get? id = some editor →
      editor.state = .expander k display →
      Action.Meets (rebuild s (w.scopeFor k editor.context).1)
        { w with contexts := (w.scopeFor k editor.context).2 }
        (fun content w₁ => ∀ c, Built { w with contexts := (w.scopeFor k editor.context).2 } w₁
            content c (w.scopeFor k editor.context).1 →
          ok false { w₁ with arena := w₁.arena.dispose content } ∧
          Action.Meets (recordTransition id "Paste" do
            clear id
            let _ ← fill id content) w₁ (fun _ => ok true) stopped)
        fun stop w₁ => Added { w with contexts := (w.scopeFor k editor.context).2 } w₁ →
          match stop with
          | .refused _ => ok false w₁
          | .fault f => stopped (.fault f) w₁) :
    Action.Meets (pasteContent id s) w ok stopped := by
  cases answered : w.arena.expander id with
  | error error =>
    have asked : ask (·.expander id) w = .error (.refused error) w := Action.ask_run_error answered
    exact .of_error (Action.bind_run_error _ (Action.bind_run_error _ asked)) (early error)
  | ok answer =>
    obtain ⟨k, display⟩ := answer
    obtain ⟨editor, found, held⟩ := Arena.get?_of_state? (Arena.expander_eq_ok_iff.1 answered)
    have ready := added_scopeFor sound k editor.context
    refine .after_ok (contentScope_run found held) (.bind (.attempt ((Action.Meets.and
      (rebuildWith_meets restore_safe ready.sound) (rest found held)).mono ?_ ?_)))
    · rintro content w₁ ⟨⟨c, built⟩, goes⟩
      obtain ⟨unfit, fits⟩ := goes c built
      obtain ⟨root, rootFound, _⟩ := built.root
      have isKey : w₁.arena.keyOf content = .ok root.state.classKey := by
        simp only [Arena.keyOf, Arena.get_of_get? rootFound, Bind.bind, Except.bind]
        rfl
      refine .after_ok (ask_run isKey) ?_
      cases (Language.expander k).admits root.state.classKey with
      | false => exact .after_ok (dispose_run content w₁) (.pure unfit)
      | true =>
        simp only [clear, ← ask_then] at fits
        exact .bind (fits.mono (fun _ _ pasted => .pure pasted) fun _ _ stops => stops)
    · rintro stop w₁ ⟨added, goes⟩
      cases stop with
      | refused error => exact .pure (goes added)
      | fault f => exact goes added

theorem paste_rule {s : Snapshot} {ok : Bool → Workspace S → Prop}
    {stopped : Stop → Workspace S → Prop} (early : ∀ error, stopped (.refused error) w)
    (unfit : ok false w)
    (token : ∀ {k old oldItem} text item, w.arena.state? id = some (.token k old oldItem) →
      Action.Meets (writeToken id text item true) w (fun _ => ok true) stopped)
    (text : ∀ {k display} text item, w.arena.state? id = some (.expander k display) →
      Action.Meets (recordTransition id "Paste" (restoreState id (.text text item))) w
        (fun _ => ok true) stopped)
    (content : ∀ s, Action.Meets (pasteContent id s) w ok stopped) :
    Action.Meets (paste id s) w ok stopped := by
  refine .bind (.ask (fun shape answered => ?_) fun error _ => early error)
  obtain ⟨state, held, isShape⟩ := Arena.shapeOf_eq_ok_iff.1 answered
  subst isShape
  cases state with
  | token k old oldItem =>
    dsimp only [EditorState.shape]
    split
    · exact .bind ((token _ _ held).mono (fun _ _ pasted => .pure pasted) fun _ _ stops => stops)
    · exact .pure unfit
  | expander k display =>
    dsimp only [pasteExpander, EditorState.shape]
    split
    · exact content _
    · next state other _ =>
      cases state with
      | expanded s => exact absurd rfl (other s)
      | text shown item =>
        exact .bind ((text shown item held).mono (fun _ _ pasted => .pure pasted)
          fun _ _ stops => stops)
    · exact content s
  | compound k ids => exact .refuse (early _)
  | list k ids => exact .refuse (early _)

theorem pasteContent_unfolds (s : Snapshot) (run : Unfolds strict w₀ w) :
    Ensures (pasteContent id s) w (Unfolds strict w₀) := by
  refine pasteContent_rule run.sound (fun _ => run) fun {k editor display} found held => ?_
  have run₁ := contentScope_unfolds run k editor.context
  refine (rebuildWith_unfolds restore_safe restore_unfolding run₁).mono ?_ ?_
  · intro content w₂ run₂ c built
    obtain ⟨new, newFound, newRoot, _⟩ := built.root
    refine ⟨run₂.dispose newFound newRoot, recordTransition_ensures _ unfolds_lasting run₂ ?_⟩
    refine .bind ((Action.Meets.and (clear_meets run₂.sound) (clear_unfolds run₂)).mono ?_
      fun _ _ both => both.2)
    rintro _ w₃ ⟨cleared, run₃⟩
    refine Ensures.still (fillWith_unfolds restore_safe restore_unfolding run₃ ?_)
      unfolds_lasting fun _ w' => still_pure _ w'
    exact fun _ _ _ _ within => built.grows.not_within_fresh run₁.sound.forest built.fresh
      (Arena.outline_of_get? found) (cleared.within _ _ within)
  · intro stop w₂ run₂ _
    cases stop <;> exact run₂

theorem restoreState_unfolds (state : Display Snapshot) (run : Unfolds strict w₀ w) :
    Ensures (restoreState id state) w (Unfolds strict w₀) :=
  restoreStateWith_unfolds restore_safe restore_unfolding run state

theorem paste_unfolds (s : Snapshot) (run : Unfolds strict w₀ w) :
    Ensures (paste id s) w (Unfolds strict w₀) := by
  refine paste_rule (fun _ => run) run (fun text item _ => writeToken_unfolds text item true run)
    (fun text item _ => ?_) fun s => pasteContent_unfolds s run
  exact recordTransition_ensures _ unfolds_lasting run (restoreState_unfolds (.text text item) run)

end StructureEditor.Workspace
