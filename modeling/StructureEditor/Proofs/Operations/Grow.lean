import StructureEditor.Proofs.Operations.Frame

/-! Operations that create editors, put them together and take them apart are made of steps, however
they end, as long as no editor is put below itself. -/
namespace StructureEditor.Workspace

variable {S : Signature} [Language S] {α β : Type} {strict : Bool} {w₀ w : Workspace S}
  {id : Handle} {P : Workspace S → Prop}

theorem insert_leaf_unfolds {context : Context} {state : EditorState S}
    (leaf : state.children = []) (proper : w.arena.Proper state) (run : Unfolds strict w₀ w) :
    Ensures (insert context state) w (Unfolds strict w₀) :=
  .of_ok rfl (run.leaf context leaf proper)

def Typed (a a' : Arena S) : Prop :=
  ∀ x state, a.state? x = some state → state.shape ≠ .token → a'.state? x = some state

omit [Language S] in
theorem Typed.refl (a : Arena S) : Typed a a := fun _ _ held _ => held

omit [Language S] in
theorem Typed.trans {a a' a'' : Arena S} (first : Typed a a') (second : Typed a' a'') :
    Typed a a'' :=
  fun x state held other => second x state (first x state held other) other

omit [Language S] in
theorem Typed.of_grows {a a' : Arena S} (grows : a.Grows a') : Typed a a' := by
  intro x state held _
  obtain ⟨editor, found, rfl⟩ := Arena.get?_of_state? held
  have kept := Arena.state?_of_outline (grows x _ (Arena.outline_of_get? found))
  exact kept

/-- The workspace comes from `w₀` in steps, and since `w` nothing but tokens has another state. -/
def Typing (strict : Bool) (w₀ w w' : Workspace S) : Prop :=
  Unfolds strict w₀ w' ∧ Typed w.arena w'.arena

theorem typing_lasting (w : Workspace S) : Lasting (Typing strict w₀ w) :=
  fun _ _ beside holds => ⟨holds.1.beside beside, beside.arena ▸ holds.2⟩

theorem Ensures.typing {action : Editing S α} {w' : Workspace S}
    (first : Typed w.arena w'.arena) (rest : Ensures action w' (Typing strict w₀ w')) :
    Ensures action w' (Typing strict w₀ w) :=
  rest.mono (fun _ _ rest => ⟨rest.1, first.trans rest.2⟩) fun _ _ rest =>
    ⟨rest.1, first.trans rest.2⟩

theorem writeToken_typing (text : String) (item : Option Candidate) (undoable : Bool)
    (run : Unfolds strict w₀ w) :
    Ensures (writeToken id text item undoable) w (Typing strict w₀ w) := by
  refine (Action.Meets.and (writeToken_unfolds text item undoable run)
    (?_ : Ensures _ w fun w' => Typed w.arena w'.arena)).mono (fun _ _ both => both)
      fun _ _ both => both
  cases answered : w.arena.token id with
  | error error =>
    have asked : ask (·.token id) w = .error (.refused error) w := Action.ask_run_error answered
    exact .of_error (Action.bind_run_error _ asked) (.refl _)
  | ok answer =>
    obtain ⟨k, old, oldItem⟩ := answer
    obtain ⟨editor, found, state⟩ := Arena.get?_of_state? (Arena.token_eq_ok_iff.1 answered)
    obtain ⟨w', ran, done⟩ := writeToken_run text item undoable run.sound found state
    refine .of_ok ran fun x held isState other => ?_
    by_cases same : x = id
    · subst same
      rw [Arena.state?_of_get? found, state] at isState
      cases isState
      exact absurd rfl other
    · exact (Arena.state?_congr (done.kept x same nofun)).trans isState

theorem build_typing (context : Context) (hook : Build S α) (run : Unfolds strict w₀ w) :
    Ensures (build context hook) w (Typing strict w₀ w) := by
  induction hook generalizing w with
  | done value => exact .pure ⟨run, .refl _⟩
  | fail => exact .pure ⟨run, .refl _⟩
  | create c next ih =>
    have made := created (w := w) (Arena.create_made c context run.sound)
    refine .after_ok (create_run c context w) ?_
    exact (ih _ (create_unfolds run c context)).typing (.of_grows made.grows)
  | createToken c text next ih =>
    have made := created (w := w) (Arena.made_token c text context run.sound)
    have begun : Unfolds strict w₀
        (w.withArena (w.arena.insert context (.token c text none)).2) := run.leaf context rfl trivial
    refine .after_ok (show newToken c text context w = .ok _ _ from rfl) ?_
    exact (ih _ begun).typing (.of_grows made.grows)
  | typeToken id text next ih =>
    refine .bind (Action.Meets.attempt ((writeToken_typing text none true run).mono ?_ ?_))
    · exact fun _ w' typed => (ih typed.1).typing typed.2
    · intro stop w' typed
      cases stop with
      | refused error => exact .pure typed
      | fault f => exact typed

theorem askHook_typing (context : Context) (hook : Build S (Option Handle))
    (run : Unfolds strict w₀ w) :
    Ensures (askHook id context hook) w (Typing strict w₀ w) := by
  refine .bind (.ask (fun editor _ => ?_) fun _ _ => ⟨run, .refl _⟩)
  have built : Ensures (unrecorded editor.context (build context hook)) w (Typing strict w₀ w) := by
    refine unrecorded_ensures (typing_lasting w) editor.context fun w' beside _ => ?_
    exact (build_typing context hook (run.beside beside)).typing (beside.arena ▸ .refl _)
  exact built.still (typing_lasting w) fun _ w' => still_pure _ w'

theorem apart_of_topOf {source : Handle} (sound : w.arena.Sound)
    (other : w.arena.topOf id ≠ .ok source) {e : Editor S} (isLive : w.arena.get? source = some e)
    (isRoot : e.parent = none) : ¬ w.arena.links.Within source id := by
  cases found : w.arena.get? id with
  | some editor =>
    exact Arena.not_within_of_topOf sound.forest found (Arena.links_of_get? isLive) isRoot other
  | none =>
    intro within
    obtain ⟨_, below⟩ := Arena.live_within isLive within
    rw [found] at below
    cases below

theorem fill_unfolds {source : Handle} (run : Unfolds strict w₀ w)
    (other : source ≠ id → w.arena.topOf id ≠ .ok source) :
    Ensures (fill id source) w (Unfolds strict w₀) :=
  fillWith_unfolds restore_safe restore_unfolding run fun _ isLive isRoot different =>
    apart_of_topOf run.sound (other different) isLive isRoot

theorem attachItem_unfolds {list item : Handle} {index : Nat} {editor child : Editor S}
    (run : Unfolds strict w₀ w) (found : w.arena.get? list = some editor)
    (root : w.arena.get? item = some child) (free : child.parent = none)
    (sameContext : child.context = editor.context) (apart : ¬ w.arena.links.Within item list)
    (fits : strict = true → ∀ k ids, editor.state = .list k ids →
      child.state.classKey = (Language.list k).element) :
    Ensures (attachItem list index item) w (Unfolds strict w₀) := by
  obtain ⟨k, ids, w', state, inside, ran, _⟩ | ⟨error, ran⟩ :=
    attachItem_cases index run.sound found root free sameContext apart
  · exact .of_ok ran (attachItem_ended run found state inside root free sameContext apart
      (fun isStrict => fits isStrict k ids state) ran)
  · exact .of_error ran run

def SuitsList (w : Workspace S) (list editor : Handle) : Prop :=
  ∀ k ids, w.arena.state? list = some (.list k ids) →
    w.arena.classOf? editor = some (Language.list k).element

def putItem (list : Handle) (index : Nat) (item : Handle) : Editing S Handle := do
  attachItem list index item
  recordIfActive list do
    return .insertion (← ask (·.locate list)) index (← ask (·.snapshot item))
  return item

/-- Putting an editor into a list, step by step: what is refused is refused before the item is at
hand, and then the item is attached and the insertion is recorded. -/
theorem placeItem_rule {list source : Handle} {index : Nat} {ok : Handle → Workspace S → Prop}
    {stopped : Stop → Workspace S → Prop} {Apart : Prop}
    (apart : ∀ e, w.arena.get? source = some e → e.parent = none → Apart)
    (early : ∀ error, stopped (.refused error) w)
    (rest : ∀ {k ids above e}, w.arena.get? list = some above → above.state = .list k ids →
      index ≤ ids.length → w.arena.get? source = some e → e.parent = none → Apart →
      Action.Meets (relocate source above.context) w
        (fun item w' => Action.Meets (putItem list index item) w' ok stopped) stopped) :
    Action.Meets (placeItem list index source) w ok stopped := by
  obtain ⟨k, ids, held, inside, ran⟩ | ⟨error, ran⟩ := checkGap_cases list index w
  · obtain ⟨above, found, state⟩ := Arena.get?_of_state? held
    refine .after_ok ran (.bind (.ask ?_ fun error _ => early error))
    intro e answered
    have isLive := Arena.get_eq_ok_iff.1 answered
    cases attached : e.parent with
    | some p => exact .refuse (early _)
    | none =>
      exact .after_ok (lookup_run found)
        (.bind (rest found state inside isLive attached (apart e isLive attached)))
  · exact .of_error (Action.bind_run_error _ ran) (early error)

theorem placeItem_unfolds {list editor : Handle} {index : Nat} (run : Unfolds strict w₀ w)
    (apart : ∀ e, w.arena.get? editor = some e → e.parent = none →
      ¬ w.arena.links.Within editor list)
    (suits : strict = true → w.SuitsList list editor) :
    Ensures (placeItem list index editor) w (Unfolds strict w₀) := by
  refine placeItem_rule apart (fun _ => run) fun {k ids above e} found state inside isLive free
    outside => ?_
  have fits : strict = true → e.state.classKey = (Language.list k).element := by
    intro isStrict
    have key := suits isStrict k ids (state ▸ Arena.state?_of_get? found)
    rw [Arena.classOf?_of_get? isLive] at key
    exact Option.some.inj key
  refine (Action.Meets.and (relocateWith_meets restore_safe run.sound)
    (relocateWith_unfolds restore_safe restore_unfolding run)).mono ?_ fun _ _ both => both.2
  rintro item w' ⟨moved, run'⟩
  obtain ⟨_, _, fetched⟩ := fetched_of_relocated run.sound moved found isLive free outside
  refine Ensures.still ?_ unfolds_lasting fun _ w'' => .bind (still_recordIfActive fun w =>
    .bind (still_ask _ w) fun _ w' _ => .bind (still_ask _ w') fun _ w'' _ => still_pure _ w'')
      fun _ w₃ _ => still_pure _ w₃
  refine attachItem_unfolds run' fetched.found fetched.root fetched.free
    (fetched.home.trans fetched.context_eq.symm) fetched.apart ?_
  intro isStrict k' ids' held'
  cases (fetched.state_eq.trans state).symm.trans held'
  exact fetched.key.trans (fits isStrict)

theorem openItem_unfolds {list : Handle} {index : Nat} (run : Unfolds strict w₀ w) :
    Ensures (openItem list index) w (Unfolds strict w₀) := by
  refine (reads_checkGap list index w).then run fun _ _ => ?_
  refine .bind (.ask (fun answer answered => ?_) fun _ _ => run)
  obtain ⟨k, ids⟩ := answer
  have held := Arena.list_eq_ok_iff.1 answered
  obtain ⟨editor, found, state⟩ := Arena.get?_of_state? held
  refine .after_ok (lookup_run found) ?_
  have made := created (w := w) (Arena.create_made (Language.list k).element editor.context run.sound)
  obtain ⟨new, newFound, _, _, key⟩ := made.root
  refine .after_ok (create_run _ editor.context w) (placeItem_unfolds
    (create_unfolds run _ editor.context) (fun _ _ _ => ?_) fun _ k' ids' held' => ?_)
  · exact made.grows.not_within_fresh run.sound.forest made.fresh (Arena.outline_of_get? found)
  · obtain ⟨editor', found', state', _⟩ :=
      Arena.kept_of_outline (made.grows list _ (Arena.outline_of_get? found))
    rw [Arena.state?_of_get? found', show editor'.state = editor.state from state', state] at held'
    cases held'
    rw [Arena.classOf?_of_get? newFound, key]

theorem removeAt_unfolds {list : Handle} {index : Nat} (run : Unfolds strict w₀ w) :
    Ensures (removeAt list index) w (Unfolds strict w₀) := by
  refine (reads_itemAt list index w).then run fun item _ => ?_
  refine (still_recording? list w).then unfolds_lasting run fun recorder w' _ beside => ?_
  have run' := run.beside beside
  cases recorder with
  | none => exact dropItem_unfolds run'
  | some h =>
    refine .bind (.ask (fun locator _ => ?_) fun _ _ => run')
    refine .bind (.ask (fun s _ => ?_) fun _ _ => run')
    exact (dropItem_unfolds run').still unfolds_lasting fun _ w'' =>
      still_recordIfActive fun w => still_pure _ w

theorem removeDocument_unfolds (run : Unfolds strict w₀ w) :
    Ensures (removeDocument id) w (Unfolds strict w₀) := by
  refine .bind (.ask (fun editor answered => ?_) fun _ _ => run)
  have found := Arena.get_eq_ok_iff.1 answered
  cases attached : editor.parent with
  | some p => exact .refuse run
  | none => exact .of_ok (dispose_run id w) (run.dispose found attached)

theorem wrap_unfolds {k : S.ExpanderClass} {editor : Handle} {context : Context}
    (run : Unfolds strict w₀ w) : Ensures (wrap k editor context) w (Unfolds strict w₀) := by
  have made := created (w := w) (Arena.made_expander k "" context run.sound)
  obtain ⟨new, found, isRoot, _⟩ := made.root
  have begun : Unfolds strict w₀
      (w.withArena (w.arena.insert context (.expander k (.text "" none))).2) :=
    run.leaf context rfl trivial
  have apart : ∀ x, x ≠ (w.arena.insert context (.expander k (.text "" none))).1 →
      ¬ (w.arena.insert context (.expander k (.text "" none))).2.links.Within x
        (w.arena.insert context (.expander k (.text "" none))).1 := fun x other within =>
    other (Links.within_root_unique (Arena.links_of_get? found) isRoot within).symm
  refine .after_ok (show newExpander k "" context w = .ok _ _ from rfl) ?_
  refine .bind (.attempt (.bind ((Action.Meets.and
    (fillWith_meets restore_safe made.sound fun _ _ _ other => apart editor other)
    (fillWith_unfolds restore_safe restore_unfolding begun fun _ _ _ other =>
      apart editor other)).mono ?_ ?_)))
  · exact fun _ w' both => .pure (.pure both.2)
  · rintro stop w' ⟨added, run'⟩
    cases stop with
    | fault f => exact run'
    | refused error =>
      obtain ⟨new', found', _, _, isRoot'⟩ :=
        Arena.kept_of_outline (added.grows _ _ (Arena.outline_of_get? found))
      exact .after_ok (dispose_run _ w') (.refuse (run'.dispose found' (isRoot'.trans isRoot)))

def RootIn (a : Arena S) (context : Context) (id : Handle) : Prop :=
  ∃ editor, a.get? id = some editor ∧ editor.parent = none ∧ editor.context = context

theorem relocate_meets {context : Context} {editor : Editor S} (run : Unfolds strict w₀ w)
    (found : w.arena.get? id = some editor) (isRoot : editor.parent = none) :
    Action.Meets (relocate id context) w
      (fun m w' => Unfolds strict w₀ w' ∧ RootIn w'.arena context m ∧
        ∀ r, RootIn w.arena context r → RootIn w'.arena context r) fun _ w' =>
          Unfolds strict w₀ w' := by
  refine (Action.Meets.and (relocateWith_meets restore_safe run.sound)
    (relocateWith_unfolds restore_safe restore_unfolding run)).mono ?_ fun _ _ both => both.2
  rintro m w' ⟨⟨rfl, rfl, e, isLive, sameContext⟩ | copied, run'⟩
  · rw [found] at isLive
    cases isLive
    exact ⟨run', ⟨editor, found, isRoot, sameContext⟩, fun _ root => root⟩
  · obtain ⟨old, new, oldFound, _, elsewhere, newFound, newRoot, newContext, _⟩ := copied.root
    refine ⟨run', ⟨new, newFound, newRoot, newContext⟩, ?_⟩
    rintro r ⟨root, rFound, rRoot, rContext⟩
    have outside : ¬ w.arena.links.Within id r := by
      intro within
      obtain rfl := Links.within_root_unique (Arena.links_of_get? rFound) rRoot within
      rw [rFound] at oldFound
      cases oldFound
      exact elsewhere rContext
    obtain ⟨root', rFound', _, context, parent⟩ :=
      Arena.kept_of_outline (copied.kept r _ (Arena.outline_of_get? rFound) outside)
    exact ⟨root', rFound', parent.trans rRoot, context.trans rContext⟩

theorem gather_meets {context : Context} {ids : List Handle} (run : Unfolds strict w₀ w) :
    Action.Meets (gather context ids) w
      (fun moved w' => Unfolds strict w₀ w' ∧ (∀ m ∈ moved, RootIn w'.arena context m) ∧
        ∀ r, RootIn w.arena context r → RootIn w'.arena context r) fun _ w' =>
          Unfolds strict w₀ w' := by
  induction ids generalizing w with
  | nil => exact .pure ⟨run, nofun, fun _ root => root⟩
  | cons id rest ih =>
    refine .bind (.ask (fun editor answered => ?_) fun _ _ => run)
    have found := Arena.get_eq_ok_iff.1 answered
    cases attached : editor.parent with
    | some p => exact .refuse run
    | none =>
      refine .bind ((relocate_meets run found attached).mono ?_ fun _ _ run => run)
      rintro m w₁ ⟨run₁, first, kept⟩
      refine .bind ((ih run₁).mono ?_ fun _ _ run => run)
      rintro moved w₂ ⟨run₂, others, kept'⟩
      refine .pure ⟨run₂, ?_, fun r root => kept' r (kept r root)⟩
      intro x member
      rcases List.mem_cons.1 member with rfl | later
      · exact kept' x first
      · exact others x later

theorem assemble_unfolds {k : S.CompoundClass} {components : List Handle} {context : Context}
    (run : Unfolds strict w₀ w)
    (distinct : ∀ ids w', gather context components w = .ok ids w' → ids.Nodup)
    (proper : strict = true → ∀ ids w', gather context components w = .ok ids w' →
      w'.arena.Proper (.compound k ids)) :
    Ensures (assemble k components context) w (Unfolds strict w₀) := by
  have gathered : Ensures (gather context components >>= fun ids =>
      enter context (.compound k ids)) w (Unfolds strict w₀) := by
    cases ran : gather context components w with
    | error stop w' =>
      exact .of_error (Action.bind_run_error _ ran) ((gather_meets run).stopped_of ran)
    | ok ids w' =>
      obtain ⟨run', roots, _⟩ := (gather_meets run).ok_of ran
      have live : ∀ m ∈ ids, ∃ editor, w'.arena.get? m = some editor :=
        fun m member => (roots m member).imp fun _ isRoot => isRoot.1
      refine .after_ok ran (.of_ok (enter_run run'.sound.exact live) (run'.insert context
        (.compound k ids) (fun m member => ?_) (distinct ids w' ran) fun isStrict =>
          proper isStrict ids w' ran))
      obtain ⟨editor, found, isRoot, sameContext⟩ := roots m member
      exact ⟨editor, found, isRoot, fun _ => sameContext⟩
  by_cases count : components.length = (Language.compound k).components.length
  · simp only [Ensures, assemble, count, ne_eq, not_true_eq_false, if_false]
    exact gathered
  · simp only [Ensures, assemble, count, ne_eq, not_false_eq_true, if_true]
    exact .refuse run

end StructureEditor.Workspace
