import StructureEditor.Proofs.Transplanting

/-! Children live in the scope of the editor above them. Every request is a run of single changes,
whatever it is asked of, so that in every state which is reached components and items live in the
context of their parent, and the content of an expander lives in the context which the expander gave
when the content was put there. -/
namespace StructureEditor.Workspace

variable {S : Signature} [Language S] {log₀ log : List (Filling S)} {w₀ w : Workspace S}
  {id : Handle} {context : Context} {α : Type}

theorem Grafts.review {fixed : Handle → Prop} (run : Grafts fixed log₀ w₀ log w) (id : Handle)
    (views : List ViewId) :
    Grafts fixed log₀ w₀ log { w with arena := w.arena.modify id fun e => { e with views } } :=
  run.modify fun _ => rfl

/-- A run in which all editors may be moved. -/
abbrev Roams (log₀ : List (Filling S)) (w₀ : Workspace S) : Workspace S → Prop :=
  Grafted (fun _ => False) log₀ w₀

omit [Language S] in
theorem freeBelow_of_unfixed (g : Footings S) (x : Handle) : g.FreeBelow (fun _ => False) x :=
  fun _ _ _ _ => id

theorem relocate_roams (run : Grafts (fun _ => False) log₀ w₀ log w) (id : Handle)
    (context : Context) :
    Action.Meets (relocate id context) w (Moved (fun _ => False) log w id context)
      fun _ w' => Roams log₀ w₀ w' :=
  (relocateWith_grafts restore_grafts run.tidy not_false).mono (fun _ _ moved => moved)
    fun _ _ => run.extend

theorem rebuild_roams (run : Grafts (fun _ => False) log₀ w₀ log w) (s : Snapshot)
    (context : Context) :
    Action.Meets (rebuild s context) w (Rebuilt (fun _ => False) log w context)
      fun _ w' => Roams log₀ w₀ w' :=
  (rebuildWith_grafts restore_grafts run.tidy).mono (fun _ _ rebuilt => rebuilt)
    fun _ _ => run.extend

theorem fill_roams (id editor : Handle) : Sustains (Roams log₀ w₀) (fill id editor) :=
  sustains_grafted fun _ _ run => (fillWith_grafts restore_grafts run.tidy fun _ => not_false).mono
    (fun _ _ => run.extend) fun _ _ => run.extend

theorem gather_roams (ids : List Handle) (run : Grafts (fun _ => False) log₀ w₀ log w) :
    Action.Meets (gather context ids) w
      (fun moved w' => Roams log₀ w₀ w' ∧ (∀ m ∈ moved, w'.arena.footings.RootIn context m) ∧
        ∀ r, w.arena.footings.RootIn context r → w'.arena.footings.RootIn context r)
      fun _ w' => Roams log₀ w₀ w' := by
  induction ids generalizing w log with
  | nil =>
    exact .pure ⟨run.grafted, fun _ listed => absurd listed List.not_mem_nil, fun _ root => root⟩
  | cons id rest ih =>
    refine .bind (.ask (fun editor answered => ?_) fun _ _ => run.grafted)
    have found := Arena.footings_of_get? (Arena.get_eq_ok_iff.1 answered)
    cases attached : editor.parent with
    | some p => exact .refuse run.grafted
    | none =>
      refine .bind ((relocate_roams run id context).mono ?_ fun _ _ roams => roams)
      intro m w₁ moved
      obtain ⟨log₁, run₁⟩ := run.extend moved.grafted
      refine .bind ((ih run₁).mono ?_ fun _ _ roams => roams)
      rintro others w₂ ⟨roams, roots, kept⟩
      refine .pure ⟨roams, fun x listed => ?_, fun r root => kept r (moved.roots r root)⟩
      rcases List.mem_cons.1 listed with rfl | later
      · exact kept x (moved.root _ found attached)
      · exact roots x later

theorem assemble_roams (k : S.CompoundClass) (components : List Handle) (context : Context) :
    Sustains (Roams log₀ w₀) (assemble k components context) := by
  unfold assemble
  refine .perhaps (.refuse _) (sustains_grafted fun log w run => ?_)
  refine .bind ((gather_roams components run).mono ?_ fun _ _ roams => roams)
  rintro ids w' ⟨⟨log', run'⟩, roots, -⟩
  have live : ∀ c ∈ ids, ∃ child, w'.arena.get? c = some child := by
    intro c listed
    obtain ⟨_, here, _⟩ := roots c listed
    exact (Arena.get?_of_footings here).imp fun _ found => found.1
  exact .of_ok (enter_run run'.tidy.exact live) (run'.insert (.compound k ids) (.inl ⟨k, rfl⟩)
    fun c listed => ⟨not_false, roots c listed⟩).1.grafted

theorem wrap_roams (k : S.ExpanderClass) (editor : Handle) (context : Context) :
    Sustains (Roams log₀ w₀) (wrap k editor context) := by
  refine sustains_grafted fun log w run => ?_
  obtain ⟨made, sprouts⟩ := run.leaf context (.expander k (.text "" none)) rfl
  obtain ⟨f, isNew, isRoot, -⟩ := sprouts.root
  have inserted : newExpander k "" context w = .ok (w.arena.insert context _).1
      { w with arena := (w.arena.insert context (.expander k (.text "" none))).2 } := rfl
  refine .after_ok inserted ((orDispose_grafts made not_false isNew isRoot
    (.bind (sustains_grafted fun log w run => ?_) fun _ => .pure ())).mono
      (fun _ _ done => done.2.1) fun _ _ roams => roams)
  refine (fillWith_grafts restore_grafts run.tidy ?_).mono (fun _ _ => run.extend)
    fun _ _ => run.extend
  exact fun different isFixed => isFixed.elim id different

theorem removeDocument_roams (id : Handle) : Sustains (Roams log₀ w₀) (removeDocument id) := by
  refine sustains_grafted fun log w run => .ask run.grafted fun editor answered => ?_
  cases attached : editor.parent with
  | some p => exact .refuse run.grafted
  | none =>
    have isLive := Arena.footings_of_get? (Arena.get_eq_ok_iff.1 answered)
    exact .of_ok (dispose_run id w)
      (run.discard not_false (run.tidy.housed.unlisted_of_root isLive attached)).grafted

theorem placeItem_roams (list : Handle) (index : Nat) (editor : Handle) :
    Sustains (Roams log₀ w₀) (placeItem list index editor) := by
  refine .bind (.checkGap list index) fun _ => sustains_grafted fun log w run =>
    .ask run.grafted fun root answered => ?_
  have isLive := Arena.footings_of_get? (Arena.get_eq_ok_iff.1 answered)
  cases attached : root.parent with
  | some p => exact .refuse run.grafted
  | none =>
    refine .ask run.grafted fun above answered => ?_
    have found := Arena.footings_of_get? (Arena.get_eq_ok_iff.1 answered)
    refine .bind ((relocate_roams run editor above.context).mono ?_ fun _ _ roams => roams)
    intro item w₁ moved
    obtain ⟨log₁, run₁⟩ := run.extend moved.grafted
    refine .bind ((attachItem_grafts index run₁ moved.isFree (fun f here => ?_)
      (moved.root _ isLive attached)).mono ?_ fun _ _ roams => roams)
    · rcases moved.stays list _ found with gone | ⟨f', here', stays⟩
      · cases gone.symm.trans here
      · cases here.symm.trans here'
        exact stays.context
    · rintro _ w₂ ⟨roams, -⟩
      exact Sustains.bind (.recordIfActive grafted_idle list (.bind (.ask _) fun _ =>
        .bind (.ask _) fun _ => .pure _)) (fun _ => .pure item) w₂ roams

theorem replayInsert_roams (list : Locator) (index : Nat) (item : Snapshot) :
    Sustains (Roams log₀ w₀) (replayInsert list index item) := by
  refine .bind (.ask _) fun list => sustains_grafted fun log w run =>
    .ask run.grafted fun above answered => ?_
  have found := Arena.footings_of_get? (Arena.get_eq_ok_iff.1 answered)
  refine .bind ((rebuild_roams run item above.context).mono ?_ fun _ _ roams => roams)
  intro x w₁ rebuilt
  obtain ⟨log₁, run₁⟩ := run.extend rebuilt.grafted
  refine (attachItem_grafts index run₁ not_false (fun f here => ?_) rebuilt.root).mono
    (fun _ _ both => both.1) fun _ _ roams => roams
  obtain ⟨f', here', stays⟩ := rebuilt.stays list _ found
  cases here.symm.trans here'
  exact stays.context

theorem pasteContent_roams (id : Handle) (s : Snapshot) :
    Sustains (Roams log₀ w₀) (pasteContent id s) := by
  refine .bind (contentScope_grafts id) fun scope => sustains_grafted fun log w run => ?_
  refine .bind (.attempt ((rebuild_roams run s scope.2).mono ?_ ?_))
  · intro editor w' rebuilt
    obtain ⟨log', run'⟩ := run.extend rebuilt.grafted
    obtain ⟨f, isLive, isRoot, -⟩ := rebuilt.root
    refine .bind (.ask (fun key _ => ?_) fun _ _ => run'.grafted)
    split
    · exact Sustains.bind (.recordTransition grafted_idle id _ (.bind (.ask _) fun _ =>
        .perhaps (dropContent_grafts (freeBelow_of_unfixed _ _))
          (.bind (fill_roams id editor) fun _ => .pure ()))) (fun _ => .pure true) w' run'.grafted
    · exact .after_ok (dispose_run editor w') (.pure (run'.discard not_false
        (run'.tidy.housed.unlisted_of_root isLive isRoot)).grafted)
  · intro stop w' roams
    cases stop with
    | refused error => exact .pure roams
    | fault f => exact roams

theorem basis_of_roams : Basis (Roams log₀ w₀) where
  idle := grafted_idle
  create := create_grafts
  leaf context _ none := insert_leaf_grafts context none
  writeToken := writeToken_grafts
  showText := showText_grafts
  dropContent _ := dropContent_grafts (freeBelow_of_unfixed _ _)
  dropItem _ index := dropItem_grafts (freeBelow_of_unfixed _ _) index
  contentScope := contentScope_grafts
  relocate id context := sustains_grafted fun _ _ run =>
    (relocate_roams run id context).mono (fun _ _ moved => run.extend moved.grafted)
      fun _ _ roams => roams
  rebuild s context := sustains_grafted fun _ _ run =>
    (rebuild_roams run s context).mono (fun _ _ rebuilt => run.extend rebuilt.grafted)
      fun _ _ roams => roams
  rebuildAs _ _ _ := sustains_grafted fun _ _ run =>
    (rebuildAsWith_grafts restore_grafts run.tidy).mono
      (fun _ _ rebuilt => run.extend rebuilt.grafted) fun _ _ => run.extend
  fill := fill_roams
  restoreState _ state := restoreStateWith_grafts restore_grafts (freeBelow_of_unfixed _ _) state
  restore id s := restore_grafts _ _ _ id s (freeBelow_of_unfixed _ _)
  assemble := assemble_roams
  wrap := wrap_roams
  removeDocument := removeDocument_roams
  placeItem := placeItem_roams
  pasteContent := pasteContent_roams
  replayInsert := replayInsert_roams
  watch id view := .bind (.ask _) fun editor => sustains_grafted fun _ w run =>
    .of_ok rfl (grafted_idle { w with arena := _ } _ rfl rfl
      (run.review id (w.alive editor.views ++ [view])).grafted)
  unwatch id _ := .bind (.ask _) fun _ => .bind .get fun _ =>
    .bind (.change fun _ ⟨_, run⟩ => (run.review id _).grafted) fun _ => .pure _

/-- Requests lead to a workspace, however each of them ends and whatever it is asked of. The log says
which contents expanders were given, and with which services. What is beside the arena is for the
client to change. -/
inductive Traces : List (Filling S) → Workspace S → Prop where
  | start : Traces [] {}
  | beside {log : List (Filling S)} {w w' : Workspace S} : Traces log w → w'.arena = w.arena →
      Traces log w'
  | request {log log' : List (Filling S)} {w : Workspace S} (request : Request S) : Traces log w →
      Grafts (fun _ => False) log w log' ((perform request).after w) →
      Traces log' ((perform request).after w)

theorem Traces.tidy (run : Traces log w) : Tidy (fun _ => False) log w := by
  induction run with
  | start =>
    have dead : ∀ x, ({} : Arena S).footings x = none := fun x =>
      Arena.footings_eq_none.2 (Arena.get?_of_no_slot rfl)
    refine ⟨Arena.sound_empty.exact, ⟨?_, ?_, ?_, ?_⟩, fun _ => False.elim, ?_⟩
    all_goals
      intro x
      simp [dead, Footings.FreeBelow]
  | beside _ same ih => exact ⟨same ▸ ih.exact, same ▸ ih.housed, fun _ => False.elim, fun x _ =>
      freeBelow_of_unfixed _ x⟩
  | request _ _ run _ => exact run.tidy

theorem perform_grafts (request : Request S) (tidy : Tidy (fun _ => False) log w) :
    ∃ more, Grafts (fun _ => False) log w (more ++ log) ((perform request).after w) ∧
      Entries w.contexts w more ((perform request).after w) := by
  obtain ⟨log', run⟩ := ensures_iff.1 (basis_of_roams.perform request w (Grafts.start tidy).grafted)
  obtain ⟨more, rfl, entries⟩ := run.log_grows
  exact ⟨more, run, entries⟩

theorem Reaches.traces {w' : Workspace S} (reached : Reaches w w') (run : Traces log w) :
    ∃ log, Traces log w' := by
  refine reached.keeps (P := fun w => ∃ log, Traces log w) ⟨log, run⟩
    (fun same ⟨log, run⟩ => ⟨log, run.beside same⟩) ?_
  rintro w request - ⟨log, run⟩
  obtain ⟨more, grafts, _⟩ := perform_grafts request run.tidy
  exact ⟨more ++ log, run.request request grafts⟩

theorem traces_performAll (requests : List (Request S)) (run : Traces log w) :
    ∃ log, Traces log (performAll requests w) := by
  induction requests generalizing log w with
  | nil => exact ⟨log, run⟩
  | cons request rest ih =>
    obtain ⟨_, grafts, _⟩ := perform_grafts request run.tidy
    exact ih (run.request request grafts)

theorem Tidy.child_context {fixed : Handle → Prop} {x c : Handle} {editor : Editor S}
    (tidy : Tidy fixed log w) (found : w.arena.get? x = some editor)
    (shares : editor.state.sharesContext = true) (listed : c ∈ editor.state.children) :
    ∃ child, w.arena.get? c = some child ∧ child.parent = some x ∧
      child.context = editor.context := by
  have isLive := Arena.footings_of_get? found
  obtain ⟨f, there, isParent⟩ := tidy.housed.linked x _ isLive c listed
  obtain ⟨child, childFound, rfl⟩ := Arena.get?_of_footings there
  exact ⟨child, childFound, isParent, tidy.housed.shared x _ isLive
    (editor.state.sharesContext_classKey.trans shares) c listed _ there⟩

theorem Tidy.content_context {fixed : Handle → Prop} {x c : Handle} {editor : Editor S}
    {k : S.ExpanderClass} (tidy : Tidy fixed log w) (found : w.arena.get? x = some editor)
    (held : editor.state = .expander k (.expanded c)) :
    ∃ child filling, w.arena.get? c = some child ∧ child.parent = some x ∧
      given log x = some filling ∧ filling.content = c ∧ child.context =
        (Language.expander k).contentScope.context filling.services editor.context := by
  have isLive := Arena.footings_of_get? found
  obtain ⟨isExpander, listed⟩ := Editor.footing_expanded held
  obtain ⟨f, there, isParent⟩ := tidy.housed.linked x _ isLive c listed
  obtain ⟨child, childFound, rfl⟩ := Arena.get?_of_footings there
  obtain ⟨filling, newest, content, scope⟩ :=
    tidy.housed.filled x _ k isLive isExpander c listed _ there
  exact ⟨child, filling, childFound, isParent, newest, content, scope⟩

omit [Language S] in
theorem Entries.newest {since : Contexts (Services S)} {more : List (Filling S)} {w' : Workspace S}
    {x c : Handle} {k : S.ExpanderClass} (entries : Entries since w more w')
    (now : w'.arena.state? x = some (.expander k (.expanded c)))
    (before : w.arena.state? x ≠ some (.expander k (.expanded c))) :
    ∃ filling ∈ more, given (more ++ log) x = some filling := by
  obtain ⟨editor, found, held⟩ := Arena.get?_of_state? now
  obtain ⟨isExpander, listed⟩ := Editor.footing_expanded held
  rcases entries.entered x _ k c (Arena.footings_of_get? found) isExpander listed with
    ⟨f₀, was, key, listed₀⟩ | ⟨filling, member, rfl, _⟩
  · obtain ⟨old, isLive, rfl⟩ := Arena.get?_of_footings was
    refine absurd ?_ before
    rw [Arena.state?_of_get? isLive,
      EditorState.expanded_of_child (key.trans isExpander) listed₀]
  · cases newest : given more filling.expander with
    | none => exact absurd rfl (List.find?_eq_none.1 newest filling member ∘ decide_eq_true)
    | some newer =>
      refine ⟨newer, List.mem_of_find?_eq_some newest, ?_⟩
      rw [given, List.find?_append]
      exact (congrArg (Option.or · _) newest)

/-- Children adopt the scope of the editor above them. Every request goes on with the log, and puts
into it what expanders were given, with services of that time; whatever is reached has such a log. In
all these states components and items live in the context of their parent, and the content of an
expander lives in the context that the expander's class gave with the services of the time when the
content was put there: the expander's own, or one right below it, if the class says so. -/
theorem children_live_in_scope (run : Traces log w) :
    (∀ request, ∃ more, Traces (more ++ log) ((perform request).after w) ∧
      (∀ filling ∈ more, w.contexts.Grown filling.services ∧
        filling.services.Grown ((perform request).after w).contexts) ∧
      ∀ x k c, ((perform request).after w).arena.state? x = some (.expander k (.expanded c)) →
        w.arena.state? x ≠ some (.expander k (.expanded c)) →
        ∃ filling ∈ more, given (more ++ log) x = some filling) ∧
    (∀ w', Reaches w w' → ∃ log', Traces log' w') ∧
    (∀ x editor, w.arena.get? x = some editor → editor.state.sharesContext = true →
      ∀ c ∈ editor.state.children, ∃ child, w.arena.get? c = some child ∧ child.parent = some x ∧
        child.context = editor.context) ∧
    ∀ x editor k c, w.arena.get? x = some editor → editor.state = .expander k (.expanded c) →
      ∃ child filling, w.arena.get? c = some child ∧ child.parent = some x ∧
        given log x = some filling ∧ filling.content = c ∧ child.context =
          (Language.expander k).contentScope.context filling.services editor.context ∧
        ((Language.expander k).contentScope = .own → child.context = editor.context) ∧
        ((Language.expander k).contentScope = .fresh →
          child.context.parent? = some editor.context) := by
  refine ⟨fun request => ?_, fun _ reached => reached.traces run,
    fun x editor found shares c listed => run.tidy.child_context found shares listed,
    fun x editor k c found held => ?_⟩
  · obtain ⟨more, grafts, entries⟩ := perform_grafts request run.tidy
    exact ⟨more, run.request request grafts, entries.between, fun _ _ _ => entries.newest⟩
  · obtain ⟨child, filling, childFound, isParent, newest, content, scope⟩ :=
      run.tidy.content_context found held
    refine ⟨child, filling, childFound, isParent, newest, content, scope, fun isOwn => ?_,
      fun isFresh => ?_⟩
    · rw [scope, isOwn]
      rfl
    · rw [scope, isFresh]
      rfl

section

open Sample

/-- A number was typed into an expander whose contents get a level of their own, and another one was
given a sum from elsewhere. -/
def adoptedSum : Workspace expression :=
  performAll [.create (.compound .hooks) ⟨0, []⟩, .typeText ⟨0, 0⟩ "4!",
    .create (.compound .sum) ⟨7, []⟩, .fill ⟨2, 0⟩ ⟨7, 0⟩] desk

theorem adoptedSum_lives_in_scope : ∃ log, Traces log adoptedSum ∧
    (∃ number filling, adoptedSum.arena.get? ⟨5, 0⟩ = some number ∧
      given log ⟨0, 0⟩ = some filling ∧ number.context.parent? = some ⟨0, []⟩) ∧
    (∃ sum, adoptedSum.arena.get? ⟨10, 0⟩ = some sum ∧ sum.context = ⟨0, []⟩) ∧
    ∃ part, adoptedSum.arena.get? ⟨8, 0⟩ = some part ∧ part.parent = some ⟨10, 0⟩ ∧
      part.context = ⟨0, []⟩ := by
  obtain ⟨log, run⟩ := traces_performAll _ (Traces.start.beside rfl : Traces [] desk)
  obtain ⟨-, -, shared, filled⟩ := children_live_in_scope run
  -- what an expander shows is told by its class and its only child
  have shows (x : Handle) (k : ExpanderName) (c : Handle)
      (answered : (adoptedSum.arena.expander x).map (·.1) = .ok k)
      (shown : (adoptedSum.arena.get? x).map (·.state.children) = some [c]) :
      ∃ e, adoptedSum.arena.get? x = some e ∧ e.state = .expander k (.expanded c) := by
    obtain ⟨e, found, children⟩ := Option.map_eq_some_iff.1 shown
    cases held : adoptedSum.arena.expander x with
    | error error =>
      rw [held] at answered
      cases answered
    | ok answer =>
      rw [held] at answered
      obtain rfl := Except.ok.inj answered
      have state := Arena.expander_eq_ok_iff.1 held
      rw [Arena.state?_of_get? found] at state
      refine ⟨e, found, EditorState.expanded_of_child ?_ (by simp [children])⟩
      rw [Option.some.inj state]
      rfl
  have lives (x : Handle) (e : Editor expression) (found : adoptedSum.arena.get? x = some e)
      (shown : (adoptedSum.arena.get? x).map (·.context) = some ⟨0, []⟩) : e.context = ⟨0, []⟩ := by
    rw [found] at shown
    exact Option.some.inj shown
  refine ⟨log, run, ?_, ?_, ?_⟩
  · obtain ⟨hook, found, held⟩ :=
      shows ⟨0, 0⟩ .hook ⟨5, 0⟩ (by decide +kernel) (by decide +kernel)
    obtain ⟨number, filling, isLive, _, newest, _, _, _, below⟩ := filled _ _ _ _ found held
    exact ⟨number, filling, isLive, newest, lives _ _ found (by decide +kernel) ▸ below rfl⟩
  · obtain ⟨plain, found, held⟩ :=
      shows ⟨2, 0⟩ .plain ⟨10, 0⟩ (by decide +kernel) (by decide +kernel)
    obtain ⟨sum, _, isLive, _, _, _, _, own, _⟩ := filled _ _ _ _ found held
    exact ⟨sum, isLive, (own rfl).trans (lives _ _ found (by decide +kernel))⟩
  · obtain ⟨sum, found, held⟩ := Arena.get?_of_state? (Arena.compound_eq_ok_iff.1
      (show adoptedSum.arena.compound ⟨10, 0⟩ = .ok (.sum, [⟨8, 0⟩, ⟨9, 0⟩]) by decide +kernel))
    obtain ⟨part, isLive, isParent, context⟩ := shared _ _ found (by rw [held]; rfl) ⟨8, 0⟩
      (by rw [held]; exact List.mem_cons_self)
    exact ⟨part, isLive, isParent, context.trans (lives _ _ found (by decide +kernel))⟩

end

end StructureEditor.Workspace
