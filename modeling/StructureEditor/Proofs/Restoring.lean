import StructureEditor.Proofs.Rebuilding

/-! Restoring keeps to the editor that is restored: however it ends, the arena is sound,
nothing is recorded, and all other editors stand as before. -/
namespace StructureEditor.Workspace

variable {S : Signature} [Language S] {w w' w'' w₁ : Workspace S} {id x : Handle}
  {restore : Restorer S}

theorem Confined.of_rewrites {apart : Handle → Prop} {state : EditorState S} {editor : Editor S}
    (done : Rewrites w w' id state apart) (found : w.arena.get? id = some editor)
    (sameClass : state.classKey = editor.state.classKey)
    (below : ∀ x, apart x → w.arena.links.Within id x) : Confined w w' id :=
  ⟨done.sound, done.quiet, done.changes found sameClass below⟩

/-- An expander was brought into text mode, if need be by dropping what it showed. -/
structure Cleared (w w' : Workspace S) (id : Handle) : Prop extends Confined w w' id where
  held : ∃ k text item, w'.arena.state? id = some (.expander k (.text text item))
  within : ∀ top x, w'.arena.links.Within top x → w.arena.links.Within top x

def clear (id : Handle) : Editing S Unit := do
  if ← ask (·.isExpanded id) then dropContent id

theorem clear_run {k : S.ExpanderClass} {display : Display Handle} (sound : w.arena.Sound)
    (held : w.arena.state? id = some (.expander k display)) :
    ∃ w', clear id w = .ok () w' ∧ Cleared w w' id := by
  have asked : ask (·.isExpanded id) w = .ok display.isExpanded w :=
    ask_run (Arena.isExpanded_eq_ok_iff.2 ⟨k, display, held, rfl⟩)
  simp only [clear, Action.bind_run_ok _ asked]
  cases display with
  | text text item =>
    exact ⟨w, rfl, .refl sound id, ⟨k, text, item, held⟩, fun _ _ within => within⟩
  | expanded content =>
    obtain ⟨editor, found, state⟩ := Arena.get?_of_state? held
    have member : content ∈ editor.state.children := by simp [state, EditorState.children]
    obtain ⟨w', ran, done, gone⟩ := dropContent_run sound held
    refine ⟨w', ran, .of_rewrites done found (by rw [state]; rfl) fun x within =>
      (sound.forest.within_of_child (Arena.links_of_get? found) member).trans within,
      ⟨k, "", none, done.state?_eq found⟩, fun top x within => within.of_parents ?_⟩
    -- what is left has the parents that it had
    intro z place placed
    obtain ⟨e, isLive, rfl⟩ := Arena.outline_of_links placed
    by_cases isTop : z = id
    · subst isTop
      rw [done.here _ (Arena.outline_of_get? found)] at isLive
      cases isLive
      exact ⟨_, Arena.links_of_get? found, rfl⟩
    · by_cases dropped : w.arena.links.Within content z
      · rw [gone z dropped] at isLive
        cases isLive
      · rw [done.kept z isTop dropped] at isLive
        exact ⟨_, Arena.links_of_outline isLive, rfl⟩

theorem clear_meets (sound : w.arena.Sound) :
    Action.Meets (clear id) w (fun _ w' => Cleared w w' id) fun _ w' => w' = w := by
  cases answered : w.arena.isExpanded id with
  | error error =>
    exact .of_error (Action.bind_run_error _ (Action.ask_run_error answered)) rfl
  | ok expanded =>
    obtain ⟨k, display, held, _⟩ := Arena.isExpanded_eq_ok_iff.1 answered
    obtain ⟨w', ran, cleared⟩ := clear_run sound held
    exact .of_ok ran cleared

omit [Language S] in
theorem ask_then {α : Type} (question : Arena S → Except Refusal Bool) (action : Editing S Unit)
    (next : Editing S α) :
    (do if ← ask question then action
        next) = (do if ← ask question then action) >>= fun _ => next := by
  funext w
  simp only [Action.bind_run]
  cases ask question w with
  | error stop w' => rfl
  | ok answer w' =>
    cases answer with
    | false => rfl
    | true => exact Action.bind_run action (fun _ => next) w'

theorem restoreStateWith_text (restore : Restorer S) (id : Handle) (text : String)
    (item : Option Candidate) : restoreStateWith restore id (.text text item) =
      clear id >>= fun _ => showText id text item :=
  ask_then _ _ _

theorem restoreStateWith_expanded (restore : Restorer S) (id : Handle) (s : Snapshot) :
    restoreStateWith restore id (.expanded s) = (do
      let scope ← contentScope id
      let content ← rebuildWith restore s scope.2
      clear id
      let _ ← fillWith restore id content) := by
  simp only [restoreStateWith, clear, ask_then]

theorem Filled.changes {source content : Handle} (filled : Filled w' w'' id source content)
    (before : w.arena.Changes w'.arena id)
    (apart : ∀ x e, w.arena.outline x = some e → ¬ w'.arena.links.Within source x) :
    w.arena.Changes w''.arena id := by
  refine ⟨?_, ?_⟩
  · intro x e isLive outside
    refine filled.kept x e (before.outside x e isLive outside) ?_ (apart x e isLive)
    rintro rfl
    exact outside .here
  · intro e isLive
    obtain ⟨e', isLive', kept⟩ := before.top e isLive
    obtain ⟨old, k, text, item, found, state, here⟩ := filled.here
    rw [Arena.outline_of_get? found] at isLive'
    cases isLive'
    refine ⟨_, here, kept.1, kept.2.1, kept.2.2.1, ?_⟩
    rw [← kept.2.2.2]
    exact (congrArg EditorState.classKey state).symm

theorem Filled.confined {source content : Handle} (filled : Filled w' w'' id source content)
    (before : Confined w w' id)
    (apart : ∀ x e, w.arena.outline x = some e → ¬ w'.arena.links.Within source x) :
    Confined w w'' id :=
  ⟨filled.sound, before.quiet.trans filled.quiet, filled.changes before.changes apart⟩

theorem Added.refill {content : Handle} {editor : Editor S} (added : Added w w')
    (safe : restore.Safe) (sound : w.arena.Sound) (found : w.arena.get? id = some editor)
    (fresh : w.arena.outline content = none) :
    Action.Meets (do
      clear id
      let _ ← fillWith restore id content) w'
      (fun _ w'' => Confined w w'' id) fun _ w'' => Confined w w'' id := by
  refine .bind ((clear_meets added.sound).mono ?_ fun _ w'' same => same ▸ added.confined id)
  intro _ w₁ cleared
  have before := (added.confined id).trans cleared.toConfined sound
  have apart : ∀ x e, w.arena.outline x = some e → ¬ w₁.arena.links.Within content x :=
    fun x e isLive within => added.grows.not_within_fresh sound.forest fresh isLive
      (cleared.within _ _ within)
  refine .bind ((fillWith_meets safe cleared.sound fun _ _ _ _ =>
    apart id _ (Arena.outline_of_get? found)).mono ?_ fun _ w'' more =>
      before.trans (more.confined id) sound)
  exact fun m w'' filled => .pure (filled.1.confined before apart)

/-- A state is restored: a text is shown once the expander is in text mode, and content is built
beside the expander before what it shows is dropped. -/
theorem restoreStateWith_rule {ok : Unit → Workspace S → Prop} {stopped : Stop → Workspace S → Prop}
    (safe : restore.Safe) (sound : w.arena.Sound) (state : Display Snapshot)
    (early : ∀ error, stopped (.refused error) w)
    (shows : ∀ {text item k old oldItem w₁}, state = .text text item → clear id w = .ok () w₁ →
      Cleared w w₁ id → w₁.arena.state? id = some (.expander k (.text old oldItem)) →
      Action.Meets (showText id text item) w₁ ok stopped)
    (fills : ∀ {s k editor display}, state = .expanded s → w.arena.get? id = some editor →
      editor.state = .expander k display →
      Action.Meets (rebuildWith restore s (w.scopeFor k editor.context).1)
        { w with contexts := (w.scopeFor k editor.context).2 }
        (fun content w₁ => ∀ c, Built { w with contexts := (w.scopeFor k editor.context).2 } w₁
            content c (w.scopeFor k editor.context).1 →
          Action.Meets (do
            clear id
            let _ ← fillWith restore id content) w₁ ok stopped)
        fun stop w₁ => Added { w with contexts := (w.scopeFor k editor.context).2 } w₁ →
          stopped stop w₁) :
    Action.Meets (restoreStateWith restore id state) w ok stopped := by
  cases answered : w.arena.expander id with
  | error error =>
    cases state with
    | text text item =>
      have asked : ask (·.isExpanded id) w = .error (.refused error) w :=
        Action.ask_run_error (by simp only [Arena.isExpanded, Arena.displayOf, answered]; rfl)
      exact .of_error (Action.bind_run_error _ asked) (early error)
    | expanded s =>
      have asked : ask (·.expander id) w = .error (.refused error) w :=
        Action.ask_run_error answered
      exact .of_error (Action.bind_run_error _ (Action.bind_run_error _ asked)) (early error)
  | ok answer =>
    obtain ⟨k, display⟩ := answer
    have held := Arena.expander_eq_ok_iff.1 answered
    cases state with
    | text text item =>
      obtain ⟨w₁, ran, cleared⟩ := clear_run sound held
      obtain ⟨k', old, oldItem, held₁⟩ := cleared.held
      rw [restoreStateWith_text]
      exact .after_ok ran (shows rfl ran cleared held₁)
    | expanded s =>
      obtain ⟨editor, found, shown⟩ := Arena.get?_of_state? held
      have ready := added_scopeFor sound k editor.context
      rw [restoreStateWith_expanded]
      refine .after_ok (contentScope_run found shown) (.bind ((Action.Meets.and
        (rebuildWith_meets safe ready.sound) (fills rfl found shown)).mono ?_ ?_))
      · rintro content w₁ ⟨⟨c, built⟩, goes⟩
        exact goes c built
      · rintro stop w₁ ⟨added, goes⟩
        exact goes added

theorem restoreStateWith_meets (safe : restore.Safe) (sound : w.arena.Sound)
    (state : Display Snapshot) :
    Action.Meets (restoreStateWith restore id state) w
      (fun _ w' => Confined w w' id) fun _ w' => Confined w w' id := by
  refine restoreStateWith_rule safe sound state (fun _ => .refl sound id)
    (fun {text item _ _ _ _} _ _ cleared held => ?_) fun {_ k editor _} _ found _ => ?_
  · obtain ⟨editor, found, state⟩ := Arena.get?_of_state? held
    obtain ⟨w₂, ran, done⟩ := showText_run text item cleared.sound held
    have shown := Confined.of_rewrites done found (by rw [state]; rfl) nofun
    exact .of_ok ran (cleared.toConfined.trans shown sound)
  · have ready := added_scopeFor sound k editor.context
    refine (rebuildWith_meets safe ready.sound).mono (fun content w₂ _ c built => ?_)
      fun _ _ added _ => (ready.trans added).confined id
    exact (ready.trans built.toAdded).refill safe sound found
      (Arena.fresh_of_grows ready.grows built.fresh)

structure Joined (w w₁ w₂ : Workspace S) (list item : Handle) (k : S.ListClass) (ids : List Handle)
    (index : Nat) (own : Context) : Prop where
  confined : Confined w w₂ list
  live : ∃ above, w₂.arena.get? list = some above ∧
    above.state = .list k (ids.insertIdx index item) ∧ above.context = own
  rewrites : Rewrites w₁ w₂ list (.list k (ids.insertIdx index item)) (· = item)
  linked : ∀ child, w₁.arena.get? item = some child →
    w₂.arena.outline item = some { child.blank with parent := some list }
  shows_item : ∀ d, w₁.arena.Shows item d → w₂.arena.Shows item d
  shows_others : ∀ x ∈ ids, ∀ d, w.arena.Shows x d → w₂.arena.Shows x d

theorem Built.joins {k : S.ListClass} {ids : List Handle} {list item : Handle} {editor : Editor S}
    {element : ClassKey S} {index : Nat} (built : Built w w₁ item element editor.context)
    (sound : w.arena.Sound) (found : w.arena.get? list = some editor)
    (held : editor.state = .list k ids) (inside : index ≤ ids.length) :
    ∃ w₂, attachItem list index item w₁ = .ok () w₂ ∧
      Joined w w₁ w₂ list item k ids index editor.context := by
  have outlined := Arena.outline_of_get? found
  obtain ⟨editor', found', held', context, _⟩ :=
    Arena.kept_of_outline (built.grows list _ outlined)
  obtain ⟨child, root, free, sameContext, _⟩ := built.root
  have apart := built.grows.not_within_fresh sound.forest built.fresh outlined
  obtain ⟨w₂, ran, done, linked⟩ := attachItem_run built.sound found' (held'.trans held) inside root
    free (sameContext.trans context.symm) apart
  have sameClass : (EditorState.list k (ids.insertIdx index item)).classKey =
      editor'.state.classKey := by
    rw [held', held]
    rfl
  obtain ⟨above, live, state, context₂⟩ := done.live found'
  refine ⟨w₂, ran, ⟨done.sound, built.quiet.trans done.quiet,
    done.changes_grown built.grows built.fresh found' ⟨_, outlined⟩ sameClass⟩,
    ⟨above, live, state, context₂.trans context⟩, done, fun child' root' => ?_,
    fun d seen => done.shows_linked built.sound root linked seen apart, fun x member d seen => ?_⟩
  · cases root.symm.trans root'
    exact linked
  · -- the items that are there already are not above the list
    have isChild : x ∈ editor'.state.children := by
      rw [held', held]
      exact member
    exact done.shows_linked built.sound root linked (built.grows.shows sound.forest seen)
      (built.sound.forest.not_within_of_child (Arena.links_of_get? found') isChild)

theorem restoreItemsWith_meets {k : S.ListClass} {ids : List Handle} {list : Handle}
    {editor : Editor S} {element : ClassKey S} {index : Nat} {items : List Snapshot}
    (safe : restore.Safe) (sound : w.arena.Sound) (found : w.arena.get? list = some editor)
    (held : editor.state = .list k ids) (inside : index ≤ ids.length) :
    Action.Meets (restoreItemsWith restore list element editor.context index items) w
      (fun _ w' => Confined w w' list) fun _ w' => Confined w w' list := by
  induction items generalizing w editor ids index with
  | nil => exact .pure (.refl sound list)
  | cons s rest ih =>
    refine .bind ((rebuildAsWith_meets safe sound).mono ?_ fun _ w' added => added.confined list)
    intro item w₁ built
    obtain ⟨w₂, ran, joined⟩ := built.joins sound found held inside
    obtain ⟨editor₂, found₂, held₂, context₂⟩ := joined.live
    rw [← context₂]
    refine .after_ok ran ((ih joined.confined.sound found₂ held₂ ?_).mono ?_ ?_)
    · rw [List.length_insertIdx_of_le_length inside]
      omega
    · exact fun _ w₃ rest => joined.confined.trans rest sound
    · exact fun _ w₃ rest => joined.confined.trans rest sound

theorem Confined.part {k : S.CompoundClass} {ids : List Handle} {c : Handle} {editor : Editor S}
    (changed : Confined w w' c) (sound : w.arena.Sound) (found : w.arena.get? id = some editor)
    (held : editor.state = .compound k ids) (member : c ∈ ids) :
    Confined w w' id ∧ ∃ editor', w'.arena.get? id = some editor' ∧
      editor'.state = .compound k ids ∧ editor'.context = editor.context := by
  have isChild : c ∈ editor.state.children := by
    rw [held]
    exact member
  have placed := Arena.links_of_get? found
  obtain ⟨place, childPlaced, _⟩ := sound.forest.linked placed isChild
  obtain ⟨child, isLive, _⟩ := Arena.outline_of_links childPlaced
  have within := sound.forest.within_of_child placed isChild
  refine ⟨⟨changed.sound, changed.quiet, changed.changes.widen sound.forest within isLive⟩, ?_⟩
  have above := sound.forest.not_within_of_child placed isChild
  obtain ⟨editor', found', state, context, _⟩ :=
    Arena.kept_of_outline (changed.changes.outside id _ (Arena.outline_of_get? found) above)
  exact ⟨editor', found', state.trans held, context⟩

theorem restoreParts_meets {k : S.CompoundClass} {ids : List Handle} {editor : Editor S}
    {parts : List (Handle × Snapshot)} (safe : restore.Safe) (sound : w.arena.Sound)
    (found : w.arena.get? id = some editor) (held : editor.state = .compound k ids)
    (members : ∀ part ∈ parts, part.1 ∈ ids) :
    Action.Meets (parts.forM fun (id, s) => restore id s) w
      (fun _ w' => Confined w w' id) fun _ w' => Confined w w' id := by
  induction parts generalizing w editor with
  | nil => exact .pure (.refl sound id)
  | cons part rest ih =>
    have member := members part (by simp)
    refine .bind ((safe w part.1 part.2 sound).mono ?_ ?_)
    · intro _ w₁ changed
      obtain ⟨first, editor', found', held', _⟩ := changed.part sound found held member
      refine (ih first.sound found' held' fun p inside => members p (by simp [inside])).mono ?_ ?_
      · exact fun _ w₂ others => first.trans others sound
      · exact fun _ w₂ others => first.trans others sound
    · exact fun _ w₁ changed => (changed.part sound found held member).1

omit [Language S] in
theorem checkShape_meets {next : Editing S Unit} {wanted : Shape} {error : Shape → Refusal}
    {ok : Unit → Workspace S → Prop} {stopped : Stop → Workspace S → Prop}
    (refused : ∀ e, stopped (.refused e) w)
    (goesOn : ∀ state, w.arena.state? id = some state → state.shape = wanted →
      Action.Meets next w ok stopped) :
    Action.Meets (do
      let shape ← ask (·.shapeOf id)
      if shape ≠ wanted then Action.refuse (error shape)
      next) w ok stopped := by
  refine .bind (.ask ?_ fun e _ => refused e)
  intro shape answered
  obtain ⟨state, held, rfl⟩ := Arena.shapeOf_eq_ok_iff.1 answered
  by_cases fits : state.shape = wanted
  · simp only [ne_eq, fits, not_true_eq_false, if_false]
    exact goesOn state held fits
  · simp only [ne_eq, fits, not_false_eq_true, if_true]
    exact .refuse (refused _)

/-- One level of restoring by what the snapshot is of. Whatever is refused at this level is refused
before anything has changed; a list has been emptied before its items are rebuilt. -/
theorem restoreWith_rule {s : Snapshot} {ok : Unit → Workspace S → Prop}
    {stopped : Stop → Workspace S → Prop} (sound : w.arena.Sound)
    (refused : ∀ e, stopped (.refused e) w)
    (token : ∀ name text itemClass item k old oldItem, s = .token name text itemClass item →
      w.arena.state? id = some (.token k old oldItem) →
      Action.Meets (writeToken id text (Snapshot.candidate? itemClass item) false) w ok stopped)
    (expander : ∀ state k display, s.display? = some state →
      w.arena.state? id = some (.expander k display) →
      Action.Meets (restoreStateWith restore id state) w ok stopped)
    (compound : ∀ name components k ids editor, s = .compound name components →
      w.arena.get? id = some editor → editor.state = .compound k ids →
      ids.length = components.length →
      Action.Meets ((ids.zip components).forM fun (id, s) => restore id s) w ok stopped)
    (list : ∀ name items k ids editor w₁, s = .list name items →
      w.arena.state? id = some (.list k ids) → dropItems id w = .ok () w₁ → Confined w w₁ id →
      w₁.arena.get? id = some editor → editor.state = .list k [] →
      Action.Meets (restoreItemsWith restore id (Language.list k).element editor.context 0 items) w₁
        ok stopped) :
    Action.Meets (restoreWith restore id s) w ok stopped := by
  cases s with
  | token name text itemClass item =>
    refine checkShape_meets refused fun state held shape => ?_
    cases state with
    | token k old oldItem => exact token name text itemClass item k old oldItem rfl held
    | _ => cases shape
  | expander name content text itemClass item =>
    refine checkShape_meets refused fun state held shape => ?_
    cases state with
    | expander k display =>
      cases content with
      | none => exact expander _ k display rfl held
      | some content => exact expander _ k display rfl held
    | _ => cases shape
  | compound name components =>
    refine checkShape_meets refused fun state held shape => .bind (.ask ?_ fun e _ => refused e)
    intro ids answered
    obtain ⟨k, held⟩ := Arena.components_eq_ok_iff.1 answered
    obtain ⟨editor, found, state⟩ := Arena.get?_of_state? held
    by_cases count : ids.length = components.length
    · simp only [ne_eq, count, not_true_eq_false, if_false]
      exact compound name components k ids editor rfl found state count
    · simp only [ne_eq, count, not_false_eq_true, if_true]
      exact .refuse (refused _)
  | list name items =>
    refine checkShape_meets refused fun state held shape => ?_
    cases state with
    | list k ids =>
      obtain ⟨w₁, ran, sound₁, quiet, changes, empty⟩ := dropItems_run sound held
      obtain ⟨editor, found, state⟩ := Arena.get?_of_state? empty
      have asked : ask (·.list id) w₁ = .ok (k, []) w₁ := ask_run (Arena.list_eq_ok_iff.2 empty)
      refine .after_ok ran (.after_ok asked (.after_ok (lookup_run found) ?_))
      exact list name items k ids editor w₁ rfl held ran ⟨sound₁, quiet, changes⟩ found state
    | _ => cases shape

theorem restoreWith_safe (safe : restore.Safe) : Restorer.Safe (restoreWith restore) := by
  intro w id s sound
  refine restoreWith_rule sound (fun _ => .refl sound id) ?_ ?_ ?_ ?_
  · rintro name text itemClass item k old oldItem rfl held
    obtain ⟨editor, found, state⟩ := Arena.get?_of_state? held
    obtain ⟨w', ran, done⟩ := writeToken_quiet text (Snapshot.candidate? itemClass item) sound held
    exact .of_ok ran (.of_rewrites done found (by rw [state]; rfl) nofun)
  · exact fun state _ _ _ _ => restoreStateWith_meets safe sound state
  · rintro name components k ids editor rfl found state -
    exact restoreParts_meets safe sound found state fun part inside => (List.of_mem_zip inside).1
  · rintro name items k ids editor w₁ rfl - - emptied found state
    refine (restoreItemsWith_meets safe emptied.sound found state (by simp)).mono ?_ ?_
    · exact fun _ w₂ others => emptied.trans others sound
    · exact fun _ w₂ others => emptied.trans others sound

theorem restoreWithin_safe (levels : Nat) : (restoreWithin levels : Restorer S).Safe := by
  induction levels with
  | zero => exact fun w id s sound => .refuse (.refl sound id)
  | succ levels ih => exact restoreWith_safe ih

theorem restore_safe : Restorer.Safe (Workspace.restore : Restorer S) :=
  fun w id s sound => restoreWithin_safe s.depth w id s sound

end StructureEditor.Workspace
