import StructureEditor.Proofs.Operations.Grow

/-! Transitions of expanders are made of steps, however they end: typing, expanding, choosing and
resetting. -/
namespace StructureEditor.Workspace

variable {S : Signature} [Language S] {α β : Type} {strict : Bool} {w₀ w : Workspace S}
  {id : Handle} {P : Workspace S → Prop}

theorem typeSeparator_rule {text : String} {ok : Bool → Workspace S → Prop}
    {stopped : Stop → Workspace S → Prop} (early : ∀ stop, stopped stop w) (unhandled : ok false w)
    (rest : ∀ {list index separator committed},
      listPlace? id w = .ok (some (list, index, separator)) w →
      stripSeparator? separator text = some committed →
      Action.Meets (asOneStep id "Add item" do
        recordTransition id "Type" (showText id committed none)
        openItem list (index + 1)) w (fun _ => ok true) stopped) :
    Action.Meets (typeSeparator id text) w ok stopped := by
  refine (reads_listPlace? id w).rule early fun place ran => ?_
  cases place with
  | none => exact .pure unhandled
  | some place =>
    obtain ⟨list, index, separator⟩ := place
    dsimp only
    cases ends : stripSeparator? separator text with
    | none => exact .pure unhandled
    | some committed =>
      exact .bind ((rest ran ends).mono (fun _ _ handled => .pure handled) fun _ _ stops => stops)

theorem typeSeparator_meets {k : S.ExpanderClass} {old : String} {oldItem : Option Candidate}
    (text : String) (run : Unfolds strict w₀ w)
    (held : w.arena.state? id = some (.expander k (.text old oldItem))) :
    Action.Meets (typeSeparator id text) w
      (fun handled w' => Unfolds strict w₀ w' ∧ (handled = false → w' = w)) fun _ w' =>
        Unfolds strict w₀ w' := by
  refine typeSeparator_rule (fun _ => run) ⟨run, fun _ => rfl⟩ fun {list index _ committed} _ _ => ?_
  have grouped : Ensures (asOneStep id "Add item" do
      recordTransition id "Type" (showText id committed none)
      openItem list (index + 1)) w (Unfolds strict w₀) := by
    refine asOneStep_ensures _ unfolds_lasting run ?_
    have beside := beside_grouping w id
    have begun := run.beside beside
    have shown : Ensures (recordTransition id "Type" (showText id committed none))
        (w.grouping id) (Unfolds strict w₀) :=
      recordTransition_ensures _ unfolds_lasting begun
        (showText_unfolds committed none begun (beside.arena ▸ held))
    exact .bind (shown.mono (fun _ w'' run => openItem_unfolds run) fun _ _ run => run)
  exact grouped.mono (fun _ _ run => ⟨run, nofun⟩) fun _ _ run => run

/-- The editor that a hook offers, if it offers one, does not stand above the expander. -/
def Fits (offer : Editing S (Option Handle)) (id : Handle) (w : Workspace S) : Prop :=
  ∀ answer w', offer w = .ok (some answer) w' → answer ≠ id → w'.arena.topOf id ≠ .ok answer

def offerTyped (id : Handle) (text : String) : Editing S (Option Handle) := do
  let (c, context) ← contentScope id
  askHook id context ((Language.expander c).openTyped text)

def offerText (id : Handle) : Editing S (Option Handle) := do
  let text := (← ask (·.shownText id)).getD ""
  let (c, context) ← contentScope id
  askHook id context ((Language.expander c).openText text)

def offerChoice (id : Handle) (choice : Choice) : Editing S (Option Handle) := do
  let (c, context) ← contentScope id
  match ← askHook id context ((Language.expander c).openCandidate choice.item) with
  | some editor => pure (some editor)
  | none => askHook id context ((Language.expander c).openText choice.text)

theorem offered_meets {offer : Editing S (Option Handle)} {state : EditorState S}
    (ends : Ensures offer w (Typing strict w₀ w))
    (held : w.arena.state? id = some state) (other : state.shape ≠ .token)
    (fits : Fits offer id w) :
    Action.Meets offer w
      (fun made w' => Unfolds strict w₀ w' ∧ w'.arena.state? id = some state ∧
        ∀ answer, made = some answer → answer ≠ id → w'.arena.topOf id ≠ .ok answer)
      fun _ w' => Unfolds strict w₀ w' := by
  cases ran : offer w with
  | error stop w' => exact .of_error ran (ends.stopped_of ran).1
  | ok made w' =>
    obtain ⟨run, typed⟩ := ends.ok_of ran
    refine .of_ok ran ⟨run, typed id state held other, ?_⟩
    rintro answer rfl
    exact fits answer w' ran

/-- A text is typed into an expander: what shows the text already stays as it is, a separator may be
handled, and else the expander is filled with what the hook offers, or shows the text. -/
theorem typeExpander_rule {text : String} {ok : Unit → Workspace S → Prop}
    {stopped : Stop → Workspace S → Prop} (early : ∀ stop, stopped stop w) (still : ok () w)
    (separates : ∀ {k old oldItem}, w.arena.state? id = some (.expander k (.text old oldItem)) →
      Action.Meets (typeSeparator id text) w
        (fun handled w' => ok () w' ∧ (handled = false → w' = w)) stopped)
    (rest : ∀ {k editor old oldItem}, w.arena.get? id = some editor →
      editor.state = .expander k (.text old oldItem) →
      Action.Meets (askHook id (w.scopeFor k editor.context).1 ((Language.expander k).openTyped text))
        { w with contexts := (w.scopeFor k editor.context).2 }
        (fun made w' =>
          (∀ source, made = some source →
            Action.Meets (recordTransition id "AutoExpand" (fill id source)) w' (fun _ => ok ())
              stopped) ∧
          (made = none →
            Action.Meets (recordTransition id "Type" (showText id text none)) w' ok stopped))
        stopped) :
    Action.Meets (typeExpander id text) w ok stopped := by
  refine .bind ((requireTextMode_meets .typing w).mono ?_ fun stop w' same => same ▸ early stop)
  rintro _ w' ⟨rfl, k, old, oldItem, held⟩
  obtain ⟨editor, found, state⟩ := Arena.get?_of_state? held
  refine .bind (.ask (fun display _ => ?_) fun _ _ => early _)
  dsimp only
  split
  · exact .pure still
  · refine .bind ((separates held).mono ?_ fun _ _ stops => stops)
    rintro handled w₁ ⟨holds, unhandled⟩
    cases handled with
    | true => exact .pure holds
    | false =>
      obtain rfl := unhandled rfl
      refine .after_ok (contentScope_run found state)
        (.bind ((rest found state).mono ?_ fun _ _ stops => stops))
      rintro made w₂ ⟨fills, shows⟩
      cases made with
      | some source =>
        exact .bind ((fills source rfl).mono (fun _ _ filled => .pure filled) fun _ _ stops => stops)
      | none => exact shows rfl

theorem typeExpander_unfolds (text : String) (run : Unfolds strict w₀ w)
    (fits : Fits (offerTyped id text) id w) :
    Ensures (typeExpander id text) w (Unfolds strict w₀) := by
  refine typeExpander_rule (fun _ => run) run (typeSeparator_meets text run)
    fun {k editor old oldItem} found state => ?_
  have held : w.arena.state? id = some (.expander k (.text old oldItem)) :=
    state ▸ Arena.state?_of_get? found
  have ready := contentScope_unfolds run k editor.context
  refine (offered_meets (askHook_typing _ _ ready) held nofun ?_).mono ?_ fun _ _ run => run
  · intro answer w₂ ran
    refine fits answer w₂ ?_
    rw [offerTyped, Action.bind_run_ok _ (contentScope_run found state)]
    exact ran
  · rintro made w₂ ⟨run₂, held₂, apart⟩
    exact ⟨fun source offered => recordTransition_ensures _ unfolds_lasting run₂
      (fill_unfolds run₂ (apart source offered)), fun _ =>
      recordTransition_ensures _ unfolds_lasting run₂ (showText_unfolds text none run₂ held₂)⟩

theorem expand_rule {ok : Bool → Workspace S → Prop} {stopped : Stop → Workspace S → Prop}
    (early : ∀ stop, stopped stop w)
    (rest : ∀ {k editor old oldItem shown}, w.arena.get? id = some editor →
      editor.state = .expander k (.text old oldItem) → w.arena.shownText id = .ok shown →
      Action.Meets (askHook id (w.scopeFor k editor.context).1
          ((Language.expander k).openText (shown.getD "")))
        { w with contexts := (w.scopeFor k editor.context).2 }
        (fun made w' =>
          (∀ source, made = some source →
            Action.Meets (recordTransition id "Expand" (fill id source)) w' (fun _ => ok true)
              stopped) ∧
          (made = none → ok false w'))
        stopped) :
    Action.Meets (expand id) w ok stopped := by
  refine .bind ((requireTextMode_meets .expanding w).mono ?_ fun stop w' same => same ▸ early stop)
  rintro _ w' ⟨rfl, k, old, oldItem, held⟩
  obtain ⟨editor, found, state⟩ := Arena.get?_of_state? held
  refine .bind (.ask (fun shown answered => ?_) fun _ _ => early _)
  refine .after_ok (contentScope_run found state)
    (.bind ((rest found state answered).mono ?_ fun _ _ stops => stops))
  rintro made w₁ ⟨fills, leaves⟩
  cases made with
  | some source =>
    exact .bind ((fills source rfl).mono (fun _ _ filled => .pure filled) fun _ _ stops => stops)
  | none => exact .pure (leaves rfl)

/-- What choosing a candidate does in the context of the content: the editor that a hook offers for
the candidate, or for its text, is filled in, and else the candidate is kept. -/
def fillChosen (id : Handle) (k : S.ExpanderClass) (context : Context) (choice : Choice) :
    Editing S Unit := do
  let made ← match ← askHook id context ((Language.expander k).openCandidate choice.item) with
    | some editor => pure (some editor)
    | none => askHook id context ((Language.expander k).openText choice.text)
  match made with
  | some editor =>
    let _ ← fill id editor
  | none => showText id choice.text (some choice.item)

theorem chooseExpander_rule {choice : Choice} {ok : Unit → Workspace S → Prop}
    {stopped : Stop → Workspace S → Prop} (early : ∀ stop, stopped stop w)
    (rest : ∀ {k editor old oldItem}, w.arena.get? id = some editor →
      editor.state = .expander k (.text old oldItem) →
      Action.Meets (recordTransition id "Complete"
          (fillChosen id k (w.scopeFor k editor.context).1 choice))
        { w with contexts := (w.scopeFor k editor.context).2 } ok stopped) :
    Action.Meets (chooseExpander id choice) w ok stopped := by
  refine .bind ((requireTextMode_meets .choosing w).mono ?_ fun stop w' same => same ▸ early stop)
  rintro _ w' ⟨rfl, k, old, oldItem, held⟩
  obtain ⟨editor, found, state⟩ := Arena.get?_of_state? held
  exact .after_ok (contentScope_run found state) (rest found state)

theorem fillChosen_rule {k : S.ExpanderClass} {context : Context} {choice : Choice}
    {ok : Unit → Workspace S → Prop} {stopped : Stop → Workspace S → Prop}
    (asked : Action.Meets (askHook id context ((Language.expander k).openCandidate choice.item)) w
      (fun made w₁ =>
        (∀ source, made = some source → Action.Meets (fill id source) w₁ (fun _ => ok ()) stopped) ∧
        (made = none →
          Action.Meets (askHook id context ((Language.expander k).openText choice.text)) w₁
            (fun made w₂ =>
              (∀ source, made = some source →
                Action.Meets (fill id source) w₂ (fun _ => ok ()) stopped) ∧
              (made = none →
                Action.Meets (showText id choice.text (some choice.item)) w₂ ok stopped))
            stopped))
      stopped) :
    Action.Meets (fillChosen id k context choice) w ok stopped := by
  refine .bind (asked.mono ?_ fun _ _ stops => stops)
  rintro made w₁ ⟨fills, asks⟩
  cases made with
  | some source =>
    exact .after_ok rfl
      (.bind ((fills source rfl).mono (fun _ _ filled => .pure filled) fun _ _ stops => stops))
  | none =>
    refine .bind ((asks rfl).mono ?_ fun _ _ stops => stops)
    rintro made w₂ ⟨fills, shows⟩
    cases made with
    | some source =>
      exact .bind ((fills source rfl).mono (fun _ _ filled => .pure filled) fun _ _ stops => stops)
    | none => exact shows rfl

theorem expand_unfolds (run : Unfolds strict w₀ w) (fits : Fits (offerText id) id w) :
    Ensures (expand id) w (Unfolds strict w₀) := by
  refine expand_rule (fun _ => run) fun {k editor old oldItem shown} found state answered => ?_
  have held : w.arena.state? id = some (.expander k (.text old oldItem)) :=
    state ▸ Arena.state?_of_get? found
  have asked : ask (·.shownText id) w = .ok shown w := ask_run answered
  have ready := contentScope_unfolds run k editor.context
  refine (offered_meets (askHook_typing _ _ ready) held nofun ?_).mono ?_ fun _ _ run => run
  · intro answer w₂ ran
    refine fits answer w₂ ?_
    rw [offerText, Action.bind_run_ok _ asked, Action.bind_run_ok _ (contentScope_run found state)]
    exact ran
  · rintro made w₂ ⟨run₂, _, apart⟩
    exact ⟨fun source offered => recordTransition_ensures _ unfolds_lasting run₂
      (fill_unfolds run₂ (apart source offered)), fun _ => run₂⟩

theorem chooseExpander_unfolds (choice : Choice) (run : Unfolds strict w₀ w)
    (fits : Fits (offerChoice id choice) id w) :
    Ensures (chooseExpander id choice) w (Unfolds strict w₀) := by
  refine chooseExpander_rule (fun _ => run) fun {k editor old oldItem} found state => ?_
  have held : w.arena.state? id = some (.expander k (.text old oldItem)) :=
    state ▸ Arena.state?_of_get? found
  have ready := contentScope_unfolds run k editor.context
  refine recordTransition_ensures _ unfolds_lasting ready (fillChosen_rule ?_)
  rw [Fits, offerChoice] at fits
  simp only [Action.bind_run_ok _ (contentScope_run found state)] at fits
  generalize (w.scopeFor k editor.context).1 = context at fits ⊢
  have first : Ensures (askHook id context ((Language.expander k).openCandidate choice.item)) _
      (Typing strict w₀ _) := askHook_typing context _ ready
  cases ran : askHook id context ((Language.expander k).openCandidate choice.item)
      { w with contexts := (w.scopeFor k editor.context).2 } with
  | error stop w₁ => exact .of_error ran (first.stopped_of ran).1
  | ok made w₁ =>
    obtain ⟨run₁, typed⟩ := first.ok_of ran
    simp only [Action.bind_run_ok _ ran] at fits
    refine .of_ok ran ⟨?_, ?_⟩
    · rintro source rfl
      exact fill_unfolds run₁ (fits source w₁ rfl)
    · rintro rfl
      refine (offered_meets (askHook_typing context _ run₁) (typed id _ held nofun) nofun fits).mono
        ?_ fun _ _ run => run
      rintro made w₂ ⟨run₂, held₂, apart⟩
      exact ⟨fun source offered => fill_unfolds run₂ (apart source offered), fun _ =>
        showText_unfolds choice.text (some choice.item) run₂ held₂⟩

theorem reset_unfolds (run : Unfolds strict w₀ w) : Ensures (reset id) w (Unfolds strict w₀) := by
  refine .bind (.ask (fun expanded _ => ?_) fun _ _ => run)
  cases expanded with
  | false => exact .fault run
  | true => exact recordTransition_ensures _ unfolds_lasting run (dropContent_unfolds run)

theorem typeText_unfolds (text : String) (run : Unfolds strict w₀ w)
    (fits : Fits (offerTyped id text) id w) : Ensures (typeText id text) w (Unfolds strict w₀) := by
  refine .bind (.ask (fun shape _ => ?_) fun _ _ => run)
  cases shape with
  | token => exact writeToken_unfolds text none true run
  | expander => exact typeExpander_unfolds text run fits
  | compound => exact .bind (.ask (fun _ _ => .refuse run) fun _ _ => run)
  | list => exact .bind (.ask (fun _ _ => .refuse run) fun _ _ => run)

theorem choose_unfolds (choice : Choice) (run : Unfolds strict w₀ w)
    (fits : Fits (offerChoice id choice) id w) : Ensures (choose id choice) w (Unfolds strict w₀) := by
  refine .bind (.ask (fun shape _ => ?_) fun _ _ => run)
  cases shape with
  | token => exact writeToken_unfolds choice.text (some choice.item) true run
  | expander => exact chooseExpander_unfolds choice run fits
  | compound => exact .bind (.ask (fun _ _ => .refuse run) fun _ _ => run)
  | list => exact .bind (.ask (fun _ _ => .refuse run) fun _ _ => run)

end StructureEditor.Workspace
