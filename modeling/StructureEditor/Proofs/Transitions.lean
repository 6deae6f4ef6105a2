import StructureEditor.Proofs.Recording

/-! Transitions. Hooks that keep to the editors they make add to a workspace and do nothing
else, so that whatever is done to an expander is one step of its history. -/
namespace StructureEditor

variable {S : Signature}

/-- A hook types into tokens that it made, and answers with an editor that it made. -/
def Build.Own : List Handle → Build S (Option Handle) → Prop
  | made, .done answer => ∀ id, answer = some id → id ∈ made
  | _, .fail => True
  | made, .create _ next => ∀ id, Own (id :: made) (next id)
  | made, .createToken _ _ next => ∀ id, Own (id :: made) (next id)
  | made, .typeToken id _ next => id ∈ made ∧ Own made next

variable [Language S]

/-- The hooks of a language make the editors that they are asked for and leave all others
alone. -/
def Language.Tidy (S : Signature) [Language S] : Prop :=
  ∀ k : S.ExpanderClass, (∀ text, ((Language.expander k).openText text).Own []) ∧
    (∀ item, ((Language.expander k).openCandidate item).Own []) ∧
    ∀ text, ((Language.expander k).openTyped text).Own []

namespace Workspace

variable {α : Type} {start w₀ w w' : Workspace S} {h : HistoryId} {r : Registry S}
  {roots : List Handle} {P : Page S} {id root : Handle} {editor : Editor S}
  {way : List Position} {context : Context} {made : List Handle} {k : S.ExpanderClass}

/-- The editors that were made since the start stand in the context that they were made for. -/
structure Making (start w : Workspace S) (context : Context) (made : List Handle) : Prop
    extends Added start w where
  fresh : ∀ m ∈ made, start.arena.outline m = none
  here : ∀ m ∈ made, ∃ e, w.arena.get? m = some e ∧ e.context = context

theorem Making.built {c : ClassKey S} (making : Making start w context made)
    (built : Built w w' id c context) : Making start w' context (id :: made) := by
  refine ⟨making.toAdded.trans built.toAdded, fun m member => ?_, fun m member => ?_⟩
  · rcases List.mem_cons.1 member with rfl | earlier
    · exact Arena.fresh_of_grows making.grows built.fresh
    · exact making.fresh m earlier
  · rcases List.mem_cons.1 member with rfl | earlier
    · obtain ⟨e, found, _, here, _⟩ := built.root
      exact ⟨e, found, here⟩
    · obtain ⟨e, found, here⟩ := making.here m earlier
      obtain ⟨e', found', _, context, _⟩ :=
        Arena.kept_of_outline (built.grows m _ (Arena.outline_of_get? found))
      exact ⟨e', found', context.trans here⟩

theorem Making.typed {c : S.TokenClass} {old text : String} {oldItem item : Option Candidate}
    (making : Making start w context made) (sound : start.arena.Sound) (member : id ∈ made)
    (held : w.arena.state? id = some (.token c old oldItem))
    (done : Rewrites w w' id (.token c text item) fun _ => False) :
    Making start w' context made := by
  obtain ⟨editor, found, state⟩ := Arena.get?_of_state? held
  have changes : w.arena.Changes w'.arena id := done.changes found (by rw [state]; rfl) nofun
  refine ⟨⟨done.sound, making.quiet.trans done.quiet,
    making.grows.change_fresh changes sound.forest (making.fresh id member)⟩, making.fresh,
    fun m earlier => ?_⟩
  obtain ⟨e, found, here⟩ := making.here m earlier
  have outlined := Arena.outline_of_get? found
  by_cases same : m = id
  · subst same
    obtain ⟨e', found', same⟩ := Arena.get?_of_outline (done.here _ outlined)
    have context : e'.blank.context = e.blank.context := by rw [same]
    exact ⟨e', found', context.trans here⟩
  · obtain ⟨e', found', _, context, _⟩ :=
      Arena.kept_of_outline ((done.kept m same nofun).trans outlined)
    exact ⟨e', found', context.trans here⟩

/-- Nothing is recorded of what happens in a context. -/
def Unheard (w : Workspace S) (context : Context) : Prop := w.recorder? context = none

omit [Language S] in
theorem Unheard.quiet (unheard : Unheard start context) (quiet : Quiet start w) :
    Unheard w context := (quiet.recorder? context).trans unheard

theorem Making.typeToken (making : Making start w context made) (sound : start.arena.Sound)
    (unheard : Unheard start context) (member : id ∈ made) (text : String) :
    Ensures (typeToken id text true) w fun w' => Making start w' context made := by
  cases answered : w.arena.token id with
  | error error =>
    have asked : ask (·.token id) w = .error (.refused error) w := Action.ask_run_error answered
    exact .of_error (Action.bind_run_error _ asked) making
  | ok answer =>
    obtain ⟨c, old, oldItem⟩ := answer
    have held := Arena.token_eq_ok_iff.1 answered
    obtain ⟨editor, found, state⟩ := Arena.get?_of_state? held
    obtain ⟨e, found', here⟩ := making.here id member
    cases found.symm.trans found'
    obtain ⟨w', ran, done⟩ := writeToken_run text none true making.sound found state
    have silent : w.notingText id editor old text oldItem none true = w.histories := by
      have unheard' : w.recorder? context = none := unheard.quiet making.quiet
      simp only [notingText, noting, here, unheard', ite_self]
      split <;> rfl
    rw [silent] at done
    exact .of_ok ran (making.typed sound member held done)

theorem build_rule {holds : List Handle → Workspace S → Prop} {hook : Build S (Option Handle)}
    (sound : ∀ made w, holds made w → w.arena.Sound)
    (makes : ∀ made w w' id (c : ClassKey S), holds made w → Built w w' id c context →
      holds (id :: made) w')
    (types : ∀ made w id text, holds made w → id ∈ made →
      Ensures (typeToken id text true) w (holds made))
    (own : hook.Own made) (begun : holds made w) :
    Action.Meets (build context hook) w
      (fun answer w' => ∃ made, holds made w' ∧ ∀ m, answer = some (some m) → m ∈ made)
      fun _ w' => ∃ made, holds made w' := by
  induction hook generalizing w made with
  | done answer => exact .pure ⟨made, begun, fun m given => own m (Option.some.inj given)⟩
  | fail => exact .pure ⟨made, begun, by simp⟩
  | create c next ih =>
    have built := created (w := w) (Arena.create_made c context (sound made w begun))
    exact .after_ok (create_run c context w) (ih _ (own _) (makes _ _ _ _ _ begun built))
  | createToken c text next ih =>
    have built := created (w := w) (Arena.made_token c text context (sound made w begun))
    exact .after_ok (show newToken c text context w = .ok _ _ from rfl)
      (ih _ (own _) (makes _ _ _ _ _ begun built))
  | typeToken id text next ih =>
    obtain ⟨member, own⟩ := own
    refine .bind (.attempt ((types made w id text begun member).mono ?_ ?_))
    · exact fun _ w' typed => ih own typed
    · intro stop w' typed
      cases stop with
      | refused error => exact .pure ⟨made, typed, by simp⟩
      | fault f => exact ⟨made, typed⟩

theorem build_adds {hook : Build S (Option Handle)} (own : hook.Own made)
    (making : Making start w context made) (sound : start.arena.Sound)
    (unheard : Unheard start context) :
    Action.Meets (build context hook) w
      (fun answer w' => Added start w' ∧ ∀ m, answer = some (some m) → start.arena.outline m = none)
      fun _ w' => Added start w' := by
  refine (build_rule (fun made w (making : Making start w context made) => making.sound) ?_ ?_ own
    making).mono ?_ ?_
  · exact fun _ _ _ _ _ making built => making.built built
  · exact fun _ _ id text making member => making.typeToken sound unheard member text
  · rintro answer w' ⟨made, making, known⟩
    exact ⟨making.toAdded, fun m given => making.fresh m (known m given)⟩
  · rintro _ w' ⟨made, making⟩
    exact making.toAdded

theorem askHook_adds {hook : Build S (Option Handle)} (own : hook.Own [])
    (sound : w.arena.Sound) (found : w.arena.get? id = some editor)
    (governs : w.contexts.Governs h r editor.context)
    (governs' : w.contexts.Governs h r context) :
    Action.Meets (askHook id context hook) w
      (fun answer w' => Added w w' ∧ ∀ m, answer = some m → w.arena.outline m = none)
      fun _ w' => Added w w' := by
  have responsible : historyOf? editor.context w = .ok (some h) w := by
    rw [← governs.history]
    rfl
  have paused := paused_history h w
  have ended : ∀ w', Added ((historyLens h).put ((historyLens h).view w).pause.2 w) w' →
      Added w ((historyLens h).update (·.resume ((historyLens h).view w).pause.1) w') :=
    fun w' added => ⟨added.sound, paused.quiet w' added.quiet, added.grows⟩
  refine .after_ok (lookup_run found) (.bind (.after_ok responsible (.ensuring ?_)))
  have unheard : Unheard ((historyLens h).put ((historyLens h).view w).pause.2 w) context := by
    simp [Unheard, recorder?, governs'.history, historyLens, History.pause]
  have making : Making ((historyLens h).put ((historyLens h).view w).pause.2 w)
      ((historyLens h).put ((historyLens h).view w).pause.2 w) context [] :=
    ⟨.refl sound, by simp, by simp⟩
  refine (build_adds own making sound unheard).mono ?_ ?_
  · rintro answer w' ⟨added, fresh⟩
    refine .pure ⟨ended w' added, fun m given => ?_⟩
    cases answer with
    | none => cases given
    | some answer => exact fresh m (congrArg some given)
  · exact fun _ w' added => ended w' added

theorem fill_acts {e : Editor S} {source : Handle} (sound : w₀.arena.Sound) (added : Added w₀ w)
    (fresh : w₀.arena.outline source = none) (isLive : w₀.arena.outline id = some e) :
    Action.Meets (fill id source) w (fun _ w' => Confined w₀ w' id) fun _ w' => Added w₀ w' := by
  have apart : ∀ x e, w₀.arena.outline x = some e → ¬ w.arena.links.Within source x :=
    fun x e isLive => added.grows.not_within_fresh sound.forest fresh isLive
  refine (fillWith_meets restore_safe added.sound fun _ _ _ _ => apart id e isLive).mono ?_ ?_
  · exact fun _ w' filled => filled.1.confined (added.confined id) apart
  · exact fun _ w' more => added.trans more

theorem showText_acts {old : String} {oldItem : Option Candidate} (text : String)
    (item : Option Candidate) (sound : w₀.arena.Sound) (added : Added w₀ w)
    (held : w₀.arena.state? id = some (.expander k (.text old oldItem))) :
    ∃ w', showText id text item w = .ok () w' ∧ Confined w₀ w' id := by
  obtain ⟨editor, found, state⟩ := Arena.get?_of_state? held
  have outlined := added.grows id _ (Arena.outline_of_get? found)
  obtain ⟨editor', found', state', _⟩ := Arena.kept_of_outline outlined
  have held' := (state'.trans state) ▸ Arena.state?_of_get? found'
  obtain ⟨w', ran, done⟩ := showText_run text item added.sound held'
  refine ⟨w', ran, (added.confined id).trans ?_ sound⟩
  exact .of_rewrites done found' (by rw [show editor'.state = _ from state'.trans state]; rfl) nofun

/-- However an action ends short of a fault, something holds. -/
def Concludes (action : Editing S α) (w : Workspace S) (ends : Workspace S → Prop) : Prop :=
  Action.Meets action w (fun _ w' => ends w') (OnRefusal ends)

variable {β : Type} {ends : Workspace S → Prop}

omit [Language S] in
theorem Concludes.ask {question : Arena S → Except Refusal α} {next : α → Editing S β}
    (still : ends w) (rest : ∀ value, question w.arena = .ok value → Concludes (next value) w ends) :
    Concludes (Workspace.ask question >>= next) w ends :=
  Action.Meets.bind (.ask rest fun _ _ _ _ => still)

omit [Language S] in
theorem Concludes.map {action : Editing S α} {f : α → β} (concludes : Concludes action w ends) :
    Concludes (action >>= fun v => pure (f v)) w ends :=
  Action.Meets.bind (concludes.mono (fun _ _ holds => .pure holds) fun _ _ holds => holds)

/-- How what is done to an expander may end: with editors added, or with a transition, recorded as
it may be, that changes nothing but what is below the expander. -/
structure Handles (w₀ : Workspace S) (id : Handle) (ends : Workspace S → Prop) : Prop where
  added : ∀ {w}, Added w₀ w → ends w
  transition : ∀ {α : Type} {w : Workspace S} {k : S.ExpanderClass} {display : Display Handle}
    (description : String) {action : Editing S α},
    w₀.arena.state? id = some (.expander k display) → Added w₀ w →
    Action.Meets action w (fun _ w' => Confined w₀ w' id) (OnRefusal fun w' => Added w₀ w') →
    Concludes (recordTransition id description action) w ends

theorem Handles.fill {display : Display Handle} {source : Handle} (handles : Handles w₀ id ends)
    (description : String) (sound : w₀.arena.Sound)
    (held : w₀.arena.state? id = some (.expander k display)) (added : Added w₀ w)
    (fresh : w₀.arena.outline source = none) :
    Concludes (recordTransition id description (fill id source)) w ends := by
  obtain ⟨editor, found, _⟩ := Arena.get?_of_state? held
  exact handles.transition description held added ((fill_acts sound added fresh
    (Arena.outline_of_get? found)).mono (fun _ _ changed => changed) fun _ _ added _ _ => added)

theorem Handles.text {old : String} {oldItem : Option Candidate} (handles : Handles w₀ id ends)
    (description : String) (text : String) (item : Option Candidate) (sound : w₀.arena.Sound)
    (held : w₀.arena.state? id = some (.expander k (.text old oldItem))) (added : Added w₀ w) :
    Concludes (recordTransition id description (showText id text item)) w ends := by
  obtain ⟨w', ran, changed⟩ := showText_acts text item sound added held
  exact handles.transition description held added (.of_ok ran changed)

theorem offer_adds {hook : Build S (Option Handle)} (own : hook.Own [])
    (found : w₀.arena.get? id = some editor)
    (governs : w₀.contexts.Governs h r editor.context) (added : Added w₀ w)
    (governs' : w.contexts.Governs h r context) :
    Action.Meets (askHook id context hook) w
      (fun answer w' => Added w w' ∧ ∀ m, answer = some m → w₀.arena.outline m = none)
      fun _ w' => Added w w' := by
  obtain ⟨editor', found', _, here, _⟩ :=
    Arena.kept_of_outline (added.grows id _ (Arena.outline_of_get? found))
  have here : editor'.context = editor.context := here
  refine (askHook_adds own added.sound found'
    (here ▸ governs.grown added.quiet.contexts) governs').mono ?_ fun _ w' more => more
  exact fun _ w' offered => ⟨offered.1, fun m given =>
    Arena.fresh_of_grows added.grows (offered.2 m given)⟩

def Placed (h : HistoryId) (r : Registry S) (w : Workspace S) (id : Handle) : Prop :=
  ∀ editor, w.arena.get? id = some editor → w.contexts.Governs h r editor.context

theorem expand_handled (tidy : Language.Tidy S) (handles : Handles w id ends)
    (sound : w.arena.Sound) (placed : Placed h r w id) : Concludes (expand id) w ends := by
  refine expand_rule (fun _ _ _ => handles.added (.refl sound))
    fun {k editor old oldItem shown} found state _ => ?_
  have held := state ▸ Arena.state?_of_get? found
  have governs := placed editor found
  have ahead := added_scopeFor sound k editor.context
  refine (offer_adds ((tidy k).1 _) found governs ahead (governs_scopeFor governs k)).mono
    ?_ fun _ _ more _ _ => handles.added (ahead.trans more)
  rintro made w' ⟨more, fresh⟩
  have added := ahead.trans more
  exact ⟨fun source offered => handles.fill "Expand" sound held added (fresh source offered),
    fun _ => handles.added added⟩

theorem chooseExpander_handled (tidy : Language.Tidy S) (choice : Choice)
    (handles : Handles w id ends) (sound : w.arena.Sound) (placed : Placed h r w id) :
    Concludes (chooseExpander id choice) w ends := by
  refine chooseExpander_rule (fun _ _ _ => handles.added (.refl sound))
    fun {k editor old oldItem} found state => ?_
  have held := state ▸ Arena.state?_of_get? found
  have ahead := added_scopeFor sound k editor.context
  have governs := governs_scopeFor (placed editor found) k
  have filled : ∀ {w' : Workspace S} {source : Handle}, Added w w' →
      w.arena.outline source = none → Action.Meets (fill id source) w'
        (fun _ w' => Confined w w' id) (OnRefusal fun w' => Added w w') :=
    fun added fresh => (fill_acts sound added fresh (Arena.outline_of_get? found)).mono
      (fun _ _ changed => changed) fun _ _ added _ _ => added
  refine handles.transition "Complete" held ahead (fillChosen_rule ?_)
  refine (offer_adds ((tidy k).2.1 _) found (placed editor found) ahead governs).mono ?_
    fun _ _ more _ _ => ahead.trans more
  rintro made w₁ ⟨more, fresh⟩
  have added := ahead.trans more
  refine ⟨fun source offered => filled added (fresh source offered), fun _ => ?_⟩
  refine (offer_adds ((tidy k).1 _) found (placed editor found) added
    (governs.grown more.quiet.contexts)).mono ?_ fun _ _ more _ _ => added.trans more
  rintro made w₂ ⟨more, fresh⟩
  refine ⟨fun source offered => filled (added.trans more) (fresh source offered), fun _ => ?_⟩
  obtain ⟨w₃, ran, changed⟩ :=
    showText_acts choice.text (some choice.item) sound (added.trans more) held
  exact .of_ok ran changed

theorem reset_handled (handles : Handles w id ends) (sound : w.arena.Sound) :
    Concludes (reset id) w ends := by
  refine .ask (handles.added (.refl sound)) fun expanded answered => ?_
  obtain ⟨k, display, held, shown⟩ := Arena.isExpanded_eq_ok_iff.1 answered
  cases display with
  | text text item =>
    cases shown
    exact .fault nofun
  | expanded content =>
    cases shown
    obtain ⟨editor, found, state⟩ := Arena.get?_of_state? held
    obtain ⟨w', ran, done, _⟩ := dropContent_run sound held
    have isChild : content ∈ editor.state.children := by simp [state, EditorState.children]
    refine handles.transition "Reset" held (.refl sound)
      (.of_ok ran (.of_rewrites done found (by rw [state]; rfl) fun x below => ?_))
    exact (sound.forest.within_of_child (Arena.links_of_get? found) isChild).trans below

theorem Presents.handles (presents : Presents h r roots w P) (ready : Ready h w)
    (member : root ∈ roots) (within : w.arena.links.Within root id) :
    Handles w id fun w' => AllFine r roots w' → Advances h r roots P w w' where
  added added _ := presents.added added
  transition description _ held added acts :=
    recordTransition_records description presents ready member within held added acts

theorem Presents.live (presents : Presents h r roots w P) (member : root ∈ roots)
    (within : w.arena.links.Within root id) :
    ∃ editor, w.arena.get? id = some editor ∧ w.contexts.Governs h r editor.context := by
  obtain ⟨top, found, _⟩ := presents.tended.free root member
  obtain ⟨editor, found⟩ := Arena.live_within found within
  obtain ⟨way, standing⟩ := presents.tended.standing member within found
  exact ⟨editor, found, standing.governs⟩

theorem Presents.placed (presents : Presents h r roots w P) (member : root ∈ roots)
    (within : w.arena.links.Within root id) : Placed h r w id := by
  intro editor found
  obtain ⟨_, found', governs⟩ := presents.live member within
  cases found.symm.trans found'
  exact governs

theorem expand_records (tidy : Language.Tidy S) (presents : Presents h r roots w P)
    (ready : Ready h w) (member : root ∈ roots) (within : w.arena.links.Within root id) :
    Records h r roots P w (expand id) w :=
  expand_handled tidy (presents.handles ready member within) presents.tended.sound
    (presents.placed member within)

theorem reset_records (presents : Presents h r roots w P) (ready : Ready h w) (member : root ∈ roots)
    (within : w.arena.links.Within root id) : Records h r roots P w (reset id) w :=
  reset_handled (presents.handles ready member within) presents.tended.sound

theorem Presents.grouping (presents : Presents h r roots w P) (id : Handle) :
    Presents h r roots (w.grouping id) P := by
  unfold Workspace.grouping
  repeat' split
  · exact presents
  · exact ⟨presents.tended.beside, presents.depicts, presents.fine⟩
  · exact presents
  · exact presents

omit [Language S] in
theorem grouping_cases (ready : Ready h w) (found : w.arena.get? id = some editor)
    (governs : w.contexts.Governs h r editor.context) :
    (((historyLens h).view w).isOpen = true ∧ w.grouping id = w) ∨
      (((historyLens h).view w).isOpen = false ∧
        w.grouping id = (historyLens h).put ((historyLens h).view w).begin w ∧
        (historyLens h).view (w.grouping id) = ((historyLens h).view w).begin) := by
  cases opened : ((historyLens h).view w).isOpen with
  | true => exact .inl ⟨rfl, by simp [grouping, found, governs.history, opened]⟩
  | false =>
    have begun : w.grouping id = (historyLens h).put ((historyLens h).view w).begin w := by
      simp [grouping, found, governs.history, opened, show _ = true from ready]
    refine .inr ⟨rfl, begun, ?_⟩
    rw [begun]
    simp [historyLens]

omit [Language S] in
theorem Ready.grouping (ready : Ready h w) (found : w.arena.get? id = some editor)
    (governs : w.contexts.Governs h r editor.context) :
    Ready h (w.grouping id) ∧
      ∃ steps, ((historyLens h).view (w.grouping id)).collected = some steps := by
  rcases grouping_cases ready found governs with ⟨opened, same⟩ | ⟨_, begun, view⟩
  · rw [same]
    exact ⟨ready, Option.isSome_iff_exists.1 opened⟩
  · refine ⟨?_, [], ?_⟩
    · rw [Ready, view]
      exact ready
    · rw [view]
      rfl

theorem Advances.ready (ready : Ready h w) (advances : Advances h r roots P w w') :
    Ready h w' := by
  obtain ⟨P', _, takes⟩ := advances
  exact takes.active.trans ready

theorem Advances.close {steps : List (Step Edit)} (description : String)
    (closed : ((historyLens h).view w).isOpen = false)
    (advances : Advances h r roots P ((historyLens h).put ((historyLens h).view w).begin w) w')
    (collected : ((historyLens h).view w').collected = some steps) :
    Advances h r roots P w
      ((historyLens h).put (((historyLens h).view w').close description steps) w') := by
  obtain ⟨P', depicts, takes⟩ := advances
  have before : (historyLens h).view ((historyLens h).put ((historyLens h).view w).begin w) =
      ((historyLens h).view w).begin := by
    simp [historyLens]
  have after : (historyLens h).view ((historyLens h).put
      (((historyLens h).view w').close description steps) w') =
      ((historyLens h).view w').close description steps := by
    simp [historyLens]
  refine ⟨P', depicts, ?_⟩
  rw [before] at takes
  rw [after]
  exact History.takes_close description
    (Option.isNone_iff_eq_none.1 (Option.isSome_eq_false_iff.1 closed)) takes collected

theorem asOneStep_records {action : Editing S α} (description : String) (ready : Ready h w)
    (found : w.arena.get? id = some editor) (governs : w.contexts.Governs h r editor.context)
    (inner : Records h r roots P (w.grouping id) action (w.grouping id)) :
    Records h r roots P w (asOneStep id description action) w := by
  refine .after_ok (historyFor?_run found) ?_
  rw [governs.history]
  rcases grouping_cases ready found governs with ⟨opened, same⟩ | ⟨closed, begun, _⟩
  · rw [same] at inner
    exact .of_eq (HistoryLens.grouped_joins description action (by simp [opened])) inner
  · rw [begun] at inner
    have ends : ∀ (result : Except Refusal α) (w' : Workspace S),
        (AllFine r roots w' → Advances h r roots P
          ((historyLens h).put ((historyLens h).view w).begin w) w') →
        Records h r roots P w (do (historyLens h).finish description; Action.ofExcept result) w' := by
      intro result w' advances
      cases collected : ((historyLens h).view w').collected with
      | none =>
        exact .of_error (Action.bind_run_error _ (HistoryLens.finish_fault description collected))
          (by simp)
      | some steps =>
        have goal : AllFine r roots w' → Advances h r roots P w
            ((historyLens h).put (((historyLens h).view w').close description steps) w') :=
          fun allFine => .close description closed (advances allFine) collected
        refine .after_ok (HistoryLens.finish_run description collected) ?_
        cases result with
        | ok value => exact .pure goal
        | error error => exact .refuse fun _ _ => goal
    have joins : ¬ (!((historyLens h).view w).active || ((historyLens h).view w).isOpen) = true := by
      simp [closed, show _ = true from ready]
    refine .of_eq (HistoryLens.grouped_opens description action joins)
      (.bind (.attempt (inner.mono ?_ ?_)))
    · exact fun value w' advances => ends (.ok value) w' advances
    · intro stop w' advances
      cases stop with
      | refused error => exact ends (.error error) w' (advances error rfl)
      | fault f => simp

theorem listPlace?_meets (id : Handle) (w : Workspace S) :
    Action.Meets (listPlace? id) w
      (fun place w' => w' = w ∧ ∀ list index separator, place = some (list, index, separator) →
        (∃ editor, w.arena.get? id = some editor ∧ editor.parent = some list) ∧
        ∃ k items, w.arena.state? list = some (.list k items) ∧ items[index]? = some id)
      fun _ w' => w' = w := by
  refine .bind (.ask (fun editor answered => ?_) fun _ _ => rfl)
  have found := Arena.get_eq_ok_iff.1 answered
  cases attached : editor.parent with
  | none => exact .pure ⟨rfl, nofun⟩
  | some above =>
    refine .bind (.ask (fun upper answered' => ?_) fun _ _ => rfl)
    have upperFound := Arena.get_eq_ok_iff.1 answered'
    dsimp only
    split
    · next k items held =>
      refine .bind (.ask (fun own _ => .after_ok rfl ?_) fun _ _ => rfl)
      split
      · next separator index _ searched =>
        refine .pure ⟨rfl, ?_⟩
        rintro list index separator same
        cases same
        obtain ⟨inside, listed, _⟩ := List.idxOf?_eq_some_iff.1 searched
        exact ⟨⟨editor, found, attached⟩, k, items, held ▸ Arena.state?_of_get? upperFound,
          List.getElem?_eq_some_iff.2 ⟨inside, listed⟩⟩
      · exact .pure ⟨rfl, nofun⟩
    · exact .pure ⟨rfl, nofun⟩

theorem showText_recorded {old : String} {oldItem : Option Candidate} (text : String)
    (presents : Presents h r roots w P) (ready : Ready h w) (member : root ∈ roots)
    (within : w.arena.links.Within root id) (found : w.arena.get? id = some editor)
    (held : editor.state = .expander k (.text old oldItem)) :
    ∃ w₁ w₂ P', recordTransition id "Type" (showText id text none) w = .ok () w₂ ∧
      Confined w w₁ id ∧ w₂.arena = w₁.arena ∧ Presents h r roots w₂ P' ∧
      History.Takes r ((historyLens h).view w) P ((historyLens h).view w₂) P' := by
  have sound := presents.tended.sound
  have state := held ▸ Arena.state?_of_get? found
  obtain ⟨way, standing⟩ := presents.tended.standing member within found
  obtain ⟨w₁, shown, order⟩ := showText_order text none sound state
    ((presents.tended.order root member).below within)
  obtain ⟨w₁', shown', done⟩ := showText_run text none sound state
  cases shown.symm.trans shown'
  have changed : Confined w w₁ id := .of_rewrites done found (by rw [held]; rfl) nofun
  obtain ⟨w₂, ran, arena, contexts, advances⟩ := recordTransition_run "Type" presents ready member
    within state (.refl sound) shown changed
  have seen : w.arena.Shows id (.text k old oldItem) := state
  have seen' : w₂.arena.Shows id (.text k text none) := arena ▸ done.state?_eq found
  have there := presents.depicts.at? member standing.led seen
  have depicts : w₂.arena.Depicts roots (P.set ⟨root, way⟩ (Sketch.text k text none).canon) :=
    presents.depicts.change (arena ▸ changed.changes) sound.forest presents.tended.free member
      standing.led seen'
  have fine : (P.set ⟨root, way⟩ (Sketch.text k text none).canon).Fine r :=
    presents.fine.set there ⟨trivial, (presents.fine.at? there).2⟩ rfl
  obtain ⟨P', depicts', takes⟩ := advances fun Q other => depicts.unique other ▸ fine
  cases depicts.unique depicts'
  exact ⟨w₁, w₂, _, ran, changed, arena,
    ⟨(presents.tended.confined changed order).congr arena contexts, depicts, fine⟩, takes⟩

theorem separate_records {old : String} {oldItem : Option Candidate} {list : Handle}
    {steps : List (Step Edit)} (text : String) (index : Nat) (presents : Presents h r roots w P)
    (ready : Ready h w) (member : root ∈ roots) (within : w.arena.links.Within root id)
    (found : w.arena.get? id = some editor)
    (held : editor.state = .expander k (.text old oldItem)) (isItem : editor.parent = some list)
    (opened : ((historyLens h).view w).collected = some steps) :
    Records h r roots P w (do
      recordTransition id "Type" (showText id text none)
      openItem list index) w := by
  obtain ⟨w₁, w₂, P₂, ran, changed, arena, presents₂, takes⟩ :=
    showText_recorded text presents ready member within found held
  have ready₂ : Ready h w₂ := Advances.ready ready ⟨P₂, presents₂.depicts, takes⟩
  -- the expander is still an item of the list
  have inside : w₂.arena.links.Within root list := by
    obtain ⟨way, standing⟩ := presents.tended.standing member within found
    obtain ⟨editor₁, standing₁⟩ := standing.confined presents.tended member changed
    obtain ⟨top, topFound, isRoot⟩ := presents.tended.free root member
    have other : id ≠ root := by
      rintro rfl
      cases topFound.symm.trans found
      rw [isItem] at isRoot
      cases isRoot
    rw [arena]
    exact (Arena.within_of_follow changed.sound.forest standing₁.led).to_parent other
      (Arena.links_of_get? standing₁.found)
      ((changed.changes.keepsPlace found standing₁.found).2.1.trans isItem)
  refine .after_ok ran ((openItem_records presents₂ ready₂ member inside).mono ?_ ?_)
  · intro _ w₃ rest allFine
    obtain ⟨P₃, depicts₃, takes₃⟩ := rest allFine
    exact ⟨P₃, depicts₃, takes.trans takes₃ opened⟩
  · intro _ w₃ rest error refused allFine
    obtain ⟨P₃, depicts₃, takes₃⟩ := rest error refused allFine
    exact ⟨P₃, depicts₃, takes.trans takes₃ opened⟩

theorem typeSeparator_records {old : String} {oldItem : Option Candidate} (text : String)
    (presents : Presents h r roots w P) (ready : Ready h w) (member : root ∈ roots)
    (within : w.arena.links.Within root id)
    (held : w.arena.state? id = some (.expander k (.text old oldItem))) :
    Action.Meets (typeSeparator id text) w
      (fun handled w' => (AllFine r roots w' → Advances h r roots P w w') ∧
        (handled = false → w' = w))
      fun stop w' => ∀ error, stop = .refused error → AllFine r roots w' →
        Advances h r roots P w w' := by
  have sound := presents.tended.sound
  have still : Advances h r roots P w w := presents.added (.refl sound)
  refine typeSeparator_rule (fun _ _ _ _ => still) ⟨fun _ => still, fun _ => rfl⟩
    fun {list index separator committed} placed _ => ?_
  obtain ⟨_, known⟩ := (listPlace?_meets id w).ok_of placed
  obtain ⟨⟨editor, found, isItem⟩, _⟩ := known list index separator rfl
  obtain ⟨way, standing⟩ := presents.tended.standing member within found
  obtain ⟨ready', steps, opened⟩ := ready.grouping found standing.governs
  have state := Option.some.inj ((Arena.state?_of_get? found).symm.trans held)
  have arena := (beside_grouping w id).arena
  have grouped := separate_records committed (index + 1) (presents.grouping id) ready'
    member (arena ▸ within) (arena ▸ found) state isItem opened
  exact (asOneStep_records "Add item" ready found standing.governs grouped).mono
    (fun _ _ advances => ⟨advances, nofun⟩) fun _ _ advances => advances

theorem typeExpander_handled (tidy : Language.Tidy S) (text : String) (handles : Handles w id ends)
    (sound : w.arena.Sound) (placed : Placed h r w id)
    (separates : ∀ k old oldItem, w.arena.state? id = some (.expander k (.text old oldItem)) →
      Action.Meets (typeSeparator id text) w
        (fun handled w' => ends w' ∧ (handled = false → w' = w)) (OnRefusal ends)) :
    Concludes (typeExpander id text) w ends := by
  have still := handles.added (.refl sound)
  refine typeExpander_rule (fun _ _ _ => still) still (separates _ _ _)
    fun {k editor old oldItem} found state => ?_
  have held := state ▸ Arena.state?_of_get? found
  have ahead := added_scopeFor sound k editor.context
  have governs := placed editor found
  refine (offer_adds ((tidy k).2.2 _) found governs ahead
    (governs_scopeFor governs k)).mono ?_ fun _ _ more _ _ => handles.added (ahead.trans more)
  rintro made w₂ ⟨more, fresh⟩
  have added := ahead.trans more
  exact ⟨fun source offered => handles.fill "AutoExpand" sound held added (fresh source offered),
    fun _ => handles.text "Type" text none sound held added⟩

omit [Language S] in
theorem refuseShape_concludes (still : ends w) :
    Concludes (refuseShape id : Editing S α) w ends :=
  .ask still fun _ _ => .refuse fun _ _ => still

theorem typeText_records (tidy : Language.Tidy S) (text : String)
    (presents : Presents h r roots w P) (ready : Ready h w) (member : root ∈ roots)
    (within : w.arena.links.Within root id) : Records h r roots P w (typeText id text) w := by
  have sound := presents.tended.sound
  refine Records.ask presents (.refl sound) fun shape _ => ?_
  cases shape with
  | token => exact writeToken_records text none presents ready member within
  | expander =>
    exact typeExpander_handled tidy text (presents.handles ready member within) sound
      (presents.placed member within)
      fun _ _ _ held => typeSeparator_records text presents ready member within held
  | compound | list => exact refuseShape_concludes fun _ => presents.added (.refl sound)

theorem choose_records (tidy : Language.Tidy S) (choice : Choice)
    (presents : Presents h r roots w P) (ready : Ready h w) (member : root ∈ roots)
    (within : w.arena.links.Within root id) : Records h r roots P w (choose id choice) w := by
  have sound := presents.tended.sound
  refine Records.ask presents (.refl sound) fun shape _ => ?_
  cases shape with
  | token => exact writeToken_records choice.text (some choice.item) presents ready member within
  | expander =>
    exact chooseExpander_handled tidy choice (presents.handles ready member within) sound
      (presents.placed member within)
  | compound | list => exact refuseShape_concludes fun _ => presents.added (.refl sound)

theorem refill_acts {display : Display Handle} {content : Handle} {c : ClassKey S}
    (sound : w₀.arena.Sound) (governs : w₀.contexts.Governs h r editor.context)
    (found : w₀.arena.get? id = some editor) (held : editor.state = .expander k display)
    (added : Added w₀ w) (built : Built w w' content c context)
    (order : OrderBelow h r w' content) :
    ∃ w'', (do clear id; let _ ← fill id content) w' = .ok () w'' ∧ Confined w₀ w'' id := by
  have before := added.trans built.toAdded
  obtain ⟨child, root, free, _⟩ := built.root
  obtain ⟨d, seen⟩ := Arena.exists_shows built.sound.forest root
  obtain ⟨w₂, m, w₃, cleared, _, _, ran, _, changed⟩ := refilling_run restore_safe
    (restore_restores (order.conforms built.sound.forest seen)) sound found held before
    (Arena.fresh_of_grows added.grows built.fresh) root free seen
    (order.supplies built.sound.forest seen ((governs.grown before.quiet.contexts).scopeBelow k))
  have filled : fill id content w₂ = .ok m w₃ := ran
  refine ⟨w₃, ?_, changed⟩
  rw [Action.bind_run_ok _ cleared, Action.bind_run_ok _ filled]
  rfl

theorem pasteContent_handled (s : Snapshot) (handles : Handles w id ends)
    (sound : w.arena.Sound) (placed : Placed h r w id) : Concludes (pasteContent id s) w ends := by
  refine pasteContent_rule sound (fun _ _ _ => handles.added (.refl sound))
    fun {k editor display} found state => ?_
  have governs := placed editor found
  have ahead := added_scopeFor sound k editor.context
  have governs₁ := governs_scopeFor governs k
  refine (rebuildWith_order restore_keeps restore_safe ahead.sound
    governs₁).mono ?_ ?_
  · rintro content w₂ ⟨order, _⟩ c built
    have added := ahead.trans built.toAdded
    refine ⟨handles.added (ahead.trans (built.dispose ahead.sound)),
      handles.transition "Paste" (state ▸ Arena.state?_of_get? found) added ?_⟩
    obtain ⟨w₃, refilled, changed⟩ := refill_acts sound governs found state ahead built order
    exact .of_ok refilled changed
  · intro stop w₂ _ more
    cases stop with
    | refused error => exact handles.added (ahead.trans more)
    | fault f => exact nofun

theorem paste_concludes (s : Snapshot) (handles : Handles w id ends)
    (sound : w.arena.Sound) (placed : Placed h r w id)
    (writes : ∀ text item, Concludes (writeToken id text item true) w ends) :
    Concludes (paste id s) w ends := by
  have still := handles.added (.refl sound)
  refine paste_rule (fun _ _ _ => still) still (fun text item _ => writes text item)
    (fun text item held => handles.transition "Paste" held (.refl sound) ?_)
    fun s => pasteContent_handled s handles sound placed
  obtain ⟨w', ran, _⟩ := restoreText_run restore text item sound held
  exact .of_ok ran ((restoreStateWith_meets restore_safe sound _).ok_of ran)

theorem paste_records (s : Snapshot) (presents : Presents h r roots w P)
    (ready : Ready h w) (member : root ∈ roots) (within : w.arena.links.Within root id) :
    Records h r roots P w (paste id s) w :=
  paste_concludes s (presents.handles ready member within) presents.tended.sound
    (presents.placed member within)
    fun text item => writeToken_records text item presents ready member within

def resuming (w : Workspace S) (h : HistoryId) (w₁ : Workspace S) : Workspace S :=
  (historyLens h).update (·.resume ((historyLens h).view w).pause.1) w₁

omit [Language S] in
theorem pausing_run (found : w.arena.get? id = some editor)
    (responsible : w.contexts.find? (·.history) editor.context = some h) :
    w.pausing id = (historyLens h).put ((historyLens h).view w).pause.2 w := by
  simp only [pausing, found, responsible]

omit [Language S] in
theorem attempted_run {action : Editing S α} {result : Except Refusal α} {w₁ : Workspace S}
    (found : w.arena.get? id = some editor)
    (responsible : w.contexts.find? (·.history) editor.context = some h)
    (attempted : action.attempt (w.pausing id) = .ok result w₁) :
    unrecorded editor.context (do return ((), ← action.attempt)) w =
      .ok ((), result) (w.resuming h w₁) := by
  rw [pausing_run found responsible] at attempted
  have asked : historyOf? editor.context w = .ok (some h) w := by
    rw [← responsible]
    rfl
  rw [unrecorded, Action.bind_run_ok _ asked]
  simp only [HistoryLens.paused, Action.ensuring, Action.bind_run_ok _ attempted]
  rfl

theorem replacing_ran {action : Editing S α} {value : α} {w₁ : Workspace S} {editor' : Editor S}
    {locator : Locator} {before after : Snapshot} (description : String)
    (found : w.arena.get? id = some editor)
    (responsible : w.contexts.find? (·.history) editor.context = some h)
    (located : ask (·.locate id) w = .ok locator w) (seen : ask (·.snapshot id) w = .ok before w)
    (ran : action (w.pausing id) = .ok value w₁)
    (found' : (w.resuming h w₁).arena.get? id = some editor')
    (seen' : ask (·.snapshot id) (w.resuming h w₁) = .ok after (w.resuming h w₁)) :
    replacing id description action w = .ok value { w.resuming h w₁ with
      histories := (w.resuming h w₁).noting editor'.context
        (.replacement locator before after description) } := by
  have attempted : action.attempt (w.pausing id) = .ok (.ok value) w₁ := by
    simp only [Action.attempt, ran]
  have described : (pure (.replacement locator before after description) : Editing S Edit)
      (w.resuming h w₁) = .ok _ (w.resuming h w₁) := rfl
  simp only [replacing, replacingReporting, Action.bind_run, lookup_run found, located, seen,
    attempted_run found responsible attempted, Action.attempt, seen',
    recordIfActive_run found' described]
  rfl

theorem replacing_refused {action : Editing S α} {error : Refusal} {w₁ : Workspace S}
    {locator : Locator} {before : Snapshot} (description : String)
    (found : w.arena.get? id = some editor)
    (responsible : w.contexts.find? (·.history) editor.context = some h)
    (located : ask (·.locate id) w = .ok locator w) (seen : ask (·.snapshot id) w = .ok before w)
    (ran : action (w.pausing id) = .error (.refused error) w₁) :
    replacing id description action w = .error (.refused error) (w.resuming h w₁) := by
  have attempted : action.attempt (w.pausing id) = .ok (.error error) w₁ := by
    simp only [Action.attempt, ran]
  simp only [replacing, replacingReporting, Action.bind_run, lookup_run found, located, seen,
    attempted_run found responsible attempted]
  rfl

theorem replacing_run {action : Editing S α} {value : α} {w₁ : Workspace S} (description : String)
    (presents : Presents h r roots w P) (ready : Ready h w) (member : root ∈ roots)
    (within : w.arena.links.Within root id) (ran : action (w.pausing id) = .ok value w₁)
    (changed : Confined (w.pausing id) w₁ id) :
    ∃ w', replacing id description action w = .ok value w' ∧
      (AllFine r roots w' → Advances h r roots P w w') := by
  have sound := presents.tended.sound
  obtain ⟨editor, found, governs⟩ := presents.live member within
  obtain ⟨way, standing⟩ := presents.tended.standing member within found
  have responsible := standing.governs.history
  have changed₂ : Confined w (w.resuming h w₁) id := by
    rw [pausing_run found responsible] at changed
    exact ⟨changed.sound, (paused_history h w).quiet w₁ changed.quiet, changed.changes⟩
  obtain ⟨s, seen⟩ := Arena.exists_shows sound.forest found
  obtain ⟨editor', found', kept⟩ := changed₂.changes.live found
  obtain ⟨s', seen'⟩ := Arena.exists_shows changed₂.sound.forest found'
  have sameClass : s.classKey = s'.classKey := (classKey_of_changes changed₂.changes seen seen').symm
  have described : (pure (.replacement ⟨root, way⟩ s.toSnapshot s'.toSnapshot description) :
      Editing S Edit) (w.resuming h w₁) = .ok _ (w.resuming h w₁) := rfl
  have noted := presents.noted
    (.replacement ⟨root, way⟩ s.toSnapshot s'.toSnapshot description) ready member standing changed₂
    seen seen' rfl (fun fine fine' => ⟨s, s', sameClass, fine, fine', rfl, rfl, rfl, rfl⟩)
    described
  exact ⟨_, replacing_ran description found responsible (ask_run standing.located)
    (ask_run (Arena.snapshot_of_shows sound.forest seen)) ran found'
    (ask_run (Arena.snapshot_of_shows changed₂.sound.forest seen')),
    noted.ok_of (recordIfActive_run found' described)⟩

end Workspace

end StructureEditor
