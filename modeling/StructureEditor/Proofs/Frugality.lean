import StructureEditor.Proofs.Balance

/-! Hooks that make no more than they offer. Typing, choosing and expanding ask hooks for new
content. Where these are frugal, nothing is left over: whatever was built on the way stands below
one of the roots that were there, and the arena holds just the editors of their documents. -/
namespace StructureEditor.Workspace

variable {S : Signature} [Language S] {α : Type} {w w' w'' : Workspace S} {id : Handle}
  {editor : Editor S}

/-- Editors were added, and tokens may show other texts: whatever was there stands where it
stood. -/
structure Hosts (w w' : Workspace S) : Prop where
  sound : w'.arena.Sound
  contexts : w.contexts.Grown w'.contexts
  typed : Typed w.arena w'.arena
  links : ∀ x place, w.arena.links x = some place → w'.arena.links x = some place

theorem Hosts.refl (sound : w.arena.Sound) : Hosts w w :=
  ⟨sound, .refl _, .refl _, fun _ _ placed => placed⟩

theorem Hosts.trans (first : Hosts w w') (second : Hosts w' w'') : Hosts w w'' :=
  ⟨second.sound, first.contexts.trans second.contexts, first.typed.trans second.typed,
    fun x place placed => second.links x place (first.links x place placed)⟩

theorem Added.hosts (added : Added w w') : Hosts w w' where
  sound := added.sound
  contexts := added.quiet.contexts
  typed := .of_grows added.grows
  links x place placed := by
    obtain ⟨e, isLive, rfl⟩ := Arena.outline_of_links placed
    exact Arena.links_of_outline (added.grows x e isLive)

theorem writeToken_hosts (text : String) (item : Option Candidate) (undoable : Bool)
    (sound : w.arena.Sound) :
    Ensures (writeToken id text item undoable) w (Hosts w) := by
  cases answered : w.arena.token id with
  | error error =>
    have asked : ask (·.token id) w = .error (.refused error) w := Action.ask_run_error answered
    exact .of_error (Action.bind_run_error _ asked) (.refl sound)
  | ok answer =>
    obtain ⟨k, old, oldItem⟩ := answer
    obtain ⟨editor, found, state⟩ := Arena.get?_of_state? (Arena.token_eq_ok_iff.1 answered)
    obtain ⟨w', ran, done⟩ := writeToken_run text item undoable sound found state
    refine .of_ok ran ⟨done.sound, done.quiet.contexts, fun x held isState other => ?_,
      fun x place placed => ?_⟩
    · by_cases here : x = id
      · subst here
        rw [Arena.state?_of_get? found, state] at isState
        cases isState
        exact absurd rfl other
      · exact (Arena.state?_congr (done.kept x here nofun)).trans isState
    · by_cases here : x = id
      · subst here
        rw [Arena.links_of_get? found] at placed
        rw [Arena.links_of_outline (done.here _ (Arena.outline_of_get? found)), ← placed,
          Editor.place, Editor.place, state]
        rfl
      · rw [Arena.links_eq_outline, done.kept x here nofun, ← Arena.links_eq_outline]
        exact placed

theorem Ensures.hosts {action : Editing S α} (first : Hosts w w')
    (rest : Ensures action w' (Hosts w')) : Ensures action w' (Hosts w) :=
  rest.mono (fun _ _ rest => first.trans rest) fun _ _ rest => first.trans rest

theorem build_hosts (context : Context) (hook : Build S α) (sound : w.arena.Sound) :
    Ensures (build context hook) w (Hosts w) := by
  induction hook generalizing w with
  | done value => exact .pure (.refl sound)
  | fail => exact .pure (.refl sound)
  | create c next ih =>
    have made := created (w := w) (Arena.create_made c context sound)
    exact .after_ok (create_run c context w) ((ih _ made.sound).hosts made.hosts)
  | createToken c text next ih =>
    have made := created (w := w) (Arena.made_token c text context sound)
    exact .after_ok (show newToken c text context w = .ok _ _ from rfl)
      ((ih _ made.sound).hosts made.hosts)
  | typeToken id text next ih =>
    refine .bind (Action.Meets.attempt ((writeToken_hosts text none true sound).mono ?_ ?_))
    · exact fun _ w' hosts => (ih hosts.sound).hosts hosts
    · intro stop w' hosts
      cases stop with
      | refused error => exact hosts
      | fault f => exact hosts

theorem askHook_hosts (id : Handle) (context : Context) (hook : Build S (Option Handle))
    (sound : w.arena.Sound) : Ensures (askHook id context hook) w (Hosts w) := by
  refine .bind (.ask (fun editor _ => ?_) fun _ _ => .refl sound)
  obtain ⟨start, finish, paused, ran⟩ := unrecorded_run editor.context (build context hook) w
  have finished : ∀ w', Hosts start w' → Hosts w (finish w') := by
    intro w' hosts
    refine ⟨(paused.finished w').symm ▸ hosts.sound, ?_, ?_, ?_⟩
    · rw [paused.placed, ← paused.contexts]
      exact hosts.contexts
    · rw [paused.finished, ← paused.arena]
      exact hosts.typed
    · rw [paused.finished, ← paused.arena]
      exact hosts.links
  have built : Ensures (unrecorded editor.context (build context hook)) w (Hosts w) := by
    unfold Ensures Action.Meets
    rw [ran]
    exact Action.Meets.ensuring ((build_hosts context hook (paused.arena.symm ▸ sound)).mono
      (fun _ w' => finished w') fun _ w' => finished w')
  exact .bind (built.mono (fun _ _ hosts => .pure hosts) fun _ _ hosts => hosts)

theorem askHook_asks {context : Context} {hook : Build S (Option Handle)} (hosts : Hosts w w') :
    Action.Meets (askHook id context hook) w'
      (fun made w'' => askHook id context hook w' = .ok made w'' ∧ Hosts w w'')
      fun _ _ => True := by
  cases ran : askHook id context hook w' with
  | error stop w'' => exact .of_error ran trivial
  | ok made w'' =>
    have asked := (askHook_hosts id context hook hosts.sound).ok_of ran
    exact .of_ok ran ⟨rfl, hosts.trans asked⟩

/-- The only editors that a hook makes are the one that it offers, which is new, and those below
that one. -/
def Frugal (offer : Editing S (Option Handle)) (w : Workspace S) : Prop :=
  ∀ made w', offer w = .ok made w' → (∀ x, made = some x → w.arena.get? x = none) ∧
    ∀ y, w.arena.get? y = none → w'.arena.get? y ≠ none →
      ∃ x, made = some x ∧ w'.arena.links.Within x y

structure OnOffer (w w' : Workspace S) (made : Option Handle) : Prop extends Hosts w w' where
  fresh : ∀ x, made = some x → w.arena.get? x = none
  only : ∀ y, w'.arena.IsRoot y → w.arena.IsRoot y ∨ made = some y

theorem Frugal.onOffer {offer : Editing S (Option Handle)} {made : Option Handle}
    (frugal : Frugal offer w) (hosts : Hosts w w') (ran : offer w = .ok made w') :
    OnOffer w w' made := by
  obtain ⟨fresh, mine⟩ := frugal made w' ran
  refine ⟨hosts, fresh, fun y root => ?_⟩
  obtain ⟨e', isLive', free⟩ := Arena.isRoot_iff.1 root
  cases found : w.arena.get? y with
  | none =>
    obtain ⟨x, isMade, within⟩ := mine y found (by rw [isLive']; nofun)
    exact .inr (root.eq_of_within within ▸ isMade)
  | some e =>
    have placed := hosts.links y _ (Arena.links_of_get? found)
    rw [Arena.links_of_get? isLive'] at placed
    have sameParent : e'.parent = e.parent := congrArg Place.parent (Option.some.inj placed)
    exact .inl (Arena.isRoot_of_get? found (sameParent.symm.trans free))

theorem Hosts.keeps_root {x : Handle} (hosts : Hosts w w') (root : w.arena.IsRoot x) :
    w'.arena.IsRoot x := by
  obtain ⟨e, isLive, free⟩ := root
  obtain ⟨e', isLive', same⟩ :=
    Arena.outline_of_links (hosts.links x _ (Arena.links_of_outline isLive))
  have sameParent : e'.parent = e.parent := congrArg Place.parent same
  exact ⟨e', isLive', sameParent.trans free⟩

theorem OnOffer.balanced (offered : OnOffer w w' none) : Balanced w w' :=
  ⟨offered.sound, offered.contexts, fun x =>
    ⟨fun root => (offered.only x root).resolve_right nofun, offered.keeps_root⟩⟩

theorem Hosts.apart {x : Handle} (hosts : Hosts w w') (sound : w.arena.Sound)
    (fresh : w.arena.get? x = none) (found : w.arena.get? id = some editor) :
    ¬ w'.arena.links.Within x id := by
  intro within
  refine Arena.not_within_fresh sound.forest (Arena.outline_eq_none_iff.2 fresh)
    (Arena.outline_of_get? found) ?_
  refine within.transfer (fun z => ∃ e, w.arena.outline z = some e) ?_ ?_
    ⟨_, Arena.outline_of_get? found⟩
  · rintro z p place ⟨e, isLive⟩ placed hasParent
    rw [hosts.links z _ (Arena.links_of_outline isLive)] at placed
    cases placed
    exact Arena.live_parent sound.forest isLive hasParent
  · rintro z place ⟨e, isLive⟩ placed
    have was := Arena.links_of_outline isLive
    rw [hosts.links z _ was] at placed
    cases placed
    exact ⟨_, was, rfl⟩

theorem OnOffer.hung {x : Handle} (offered : OnOffer w w' (some x)) (sound : w.arena.Sound)
    (found : w.arena.get? id = some editor) :
    Action.Meets (fill id x) w' (fun _ w'' => Balanced w w'') fun _ _ => True := by
  have fresh := offered.fresh x rfl
  have apart := offered.apart sound fresh found
  refine (Action.Meets.and (fillWith_meets restore_safe offered.sound fun _ _ _ _ => apart)
    (fillWith_roots restore_safe (fun s _ => restore_thorough s) offered.sound
      fun _ _ _ _ => apart)).mono ?_ fun _ _ _ => trivial
  rintro content w'' ⟨⟨filled, _⟩, roots⟩
  refine ⟨filled.sound, offered.contexts.trans filled.quiet.contexts, fun y => ⟨fun root => ?_,
    fun root => ?_⟩⟩
  · obtain ⟨older, other⟩ := roots y root
    exact (offered.only y older).resolve_right fun same => other (Option.some.inj same).symm
  · have notNew : y ≠ x := by
      rintro rfl
      obtain ⟨e, isLive, _⟩ := Arena.isRoot_iff.1 root
      rw [fresh] at isLive
      cases isLive
    have root' := offered.keeps_root root
    have outside : ¬ w'.arena.links.Within x y := fun within => notNew (root'.eq_of_within within)
    obtain ⟨e, isLive, free⟩ := root'
    by_cases here : y = id
    · subst here
      obtain ⟨old, k, text, item, oldFound, _, outlined⟩ := filled.here
      rw [Arena.outline_of_get? oldFound] at isLive
      cases isLive
      exact ⟨_, outlined, free⟩
    · exact ⟨e, filled.kept y e isLive here outside, free⟩

theorem typeSeparator_conserves {k : S.ExpanderClass} {old : String} {oldItem : Option Candidate}
    (text : String) (sound : w.arena.Sound)
    (held : w.arena.state? id = some (.expander k (.text old oldItem))) :
    Action.Meets (typeSeparator id text) w
      (fun handled w' => Balanced w w' ∧ (handled = false → w' = w)) fun _ _ => True := by
  refine typeSeparator_rule (fun _ => trivial) ⟨.refl sound, fun _ => rfl⟩
    fun {list index _ committed} _ _ => ?_
  have grouped : Conserves (asOneStep id "Add item" do
      recordTransition id "Type" (showText id committed none)
      openItem list (index + 1)) w :=
    asOneStep_conserves _ fun histories => (recordTransition_conserves _
      (showText_conserves (w := { w with histories }) committed none sound held)).then
        fun _ w' shown => openItem_conserves list (index + 1) shown.sound
  exact grouped.mono (fun _ _ balanced => ⟨balanced, nofun⟩) fun _ _ _ => trivial

theorem OnOffer.text {k : S.ExpanderClass} {old : String} {oldItem : Option Candidate}
    (offered : OnOffer w w' none)
    (held : w.arena.state? id = some (.expander k (.text old oldItem)))
    (text : String) (item : Option Candidate) :
    Action.Meets (showText id text item) w' (fun _ w'' => Balanced w w'') fun _ _ => True :=
  (showText_conserves text item offered.sound (offered.typed id _ held nofun)).mono
    (fun _ _ shown => offered.balanced.trans shown) fun _ _ _ => trivial

theorem OnOffer.expands {x : Handle} (offered : OnOffer w w' (some x)) (description : String)
    (sound : w.arena.Sound)
    (found : w.arena.get? id = some editor) :
    Action.Meets (recordTransition id description (fill id x)) w'
      (fun _ w'' => Balanced w w'') fun _ _ => True :=
  recordTransition_ends description ((offered.hung sound found).mono
    (fun _ _ filled => filled.noted) fun _ _ _ => trivial)

theorem typeExpander_conserves (text : String) (sound : w.arena.Sound)
    (frugal : Frugal (offerTyped id text) w) :
    Conserves (typeExpander id text) w := by
  refine typeExpander_rule (fun _ => trivial) (.refl sound) (typeSeparator_conserves text sound)
    fun {k editor old oldItem} found state => ?_
  have held := state ▸ Arena.state?_of_get? found
  refine (askHook_asks (added_scopeFor sound k editor.context).hosts).mono ?_ fun _ _ _ => trivial
  rintro made w₂ ⟨ran, hosts⟩
  have offered : OnOffer w w₂ made := by
    refine frugal.onOffer hosts ?_
    rw [offerTyped, Action.bind_run_ok _ (contentScope_run found state)]
    exact ran
  refine ⟨?_, ?_⟩
  · rintro x rfl
    exact offered.expands "AutoExpand" sound found
  · rintro rfl
    exact recordTransition_ends "Type" ((offered.text held text none).mono
      (fun _ _ shown => shown.noted) fun _ _ _ => trivial)

theorem expand_conserves (sound : w.arena.Sound)
    (frugal : Frugal (offerText id) w) : Conserves (expand id) w := by
  refine expand_rule (fun _ => trivial) fun {k editor old oldItem shown} found state answered => ?_
  have shows : ask (·.shownText id) w = .ok shown w := ask_run answered
  refine (askHook_asks (added_scopeFor sound k editor.context).hosts).mono ?_ fun _ _ _ => trivial
  rintro made w₂ ⟨ran, hosts⟩
  have offered : OnOffer w w₂ made := by
    refine frugal.onOffer hosts ?_
    rw [offerText, Action.bind_run_ok _ shows, Action.bind_run_ok _ (contentScope_run found state)]
    exact ran
  refine ⟨?_, ?_⟩
  · rintro x rfl
    exact offered.expands "Expand" sound found
  · rintro rfl
    exact offered.balanced

theorem chooseExpander_conserves (choice : Choice) (sound : w.arena.Sound)
    (frugal : Frugal (offerChoice id choice) w) :
    Conserves (chooseExpander id choice) w := by
  refine chooseExpander_rule (fun _ => trivial) fun {k editor old oldItem} found state => ?_
  have held := state ▸ Arena.state?_of_get? found
  have scope := contentScope_run found state
  have filled : ∀ {x w₂}, OnOffer w w₂ (some x) → Action.Meets (fill id x) w₂
      (fun _ w₃ => ∀ histories, Balanced w { w₃ with histories }) fun _ _ => True :=
    fun offered => (offered.hung sound found).mono (fun _ _ filled => filled.noted)
      fun _ _ _ => trivial
  refine recordTransition_ends "Complete" (fillChosen_rule ((askHook_asks
    (added_scopeFor sound k editor.context).hosts).mono ?_ fun _ _ _ => trivial))
  rintro first w₁ ⟨ran, hosts⟩
  refine ⟨?_, ?_⟩
  · rintro x rfl
    exact filled (frugal.onOffer hosts
      ((Action.bind_run_ok _ scope).trans (Action.bind_run_ok _ ran)))
  · rintro rfl
    refine (askHook_asks hosts).mono ?_ fun _ _ _ => trivial
    rintro made w₂ ⟨ran', hosts'⟩
    have offered : OnOffer w w₂ made := frugal.onOffer hosts'
      ((Action.bind_run_ok _ scope).trans ((Action.bind_run_ok _ ran).trans ran'))
    refine ⟨?_, ?_⟩
    · rintro x rfl
      exact filled offered
    · rintro rfl
      exact (offered.text held choice.text (some choice.item)).mono (fun _ _ shown => shown.noted)
        fun _ _ _ => trivial

theorem reset_conserves (sound : w.arena.Sound) : Conserves (reset id) w := by
  refine ask_rule fun expanded _ => ?_
  cases expanded with
  | false => exact .bind (.fault trivial)
  | true => exact recordTransition_conserves "Reset" (dropContent_conserves sound)

theorem typeText_conserves (text : String) (sound : w.arena.Sound)
    (frugal : Frugal (offerTyped id text) w) :
    Conserves (typeText id text) w := by
  refine ask_rule fun shape _ => ?_
  cases shape with
  | token => exact writeToken_conserves text none true sound
  | expander => exact typeExpander_conserves text sound frugal
  | compound => exact ask_rule fun _ _ => .refuse trivial
  | list => exact ask_rule fun _ _ => .refuse trivial

theorem choose_conserves (choice : Choice) (sound : w.arena.Sound)
    (frugal : Frugal (offerChoice id choice) w) :
    Conserves (choose id choice) w := by
  refine ask_rule fun shape _ => ?_
  cases shape with
  | token => exact writeToken_conserves choice.text (some choice.item) true sound
  | expander => exact chooseExpander_conserves choice sound frugal
  | compound => exact ask_rule fun _ _ => .refuse trivial
  | list => exact ask_rule fun _ _ => .refuse trivial

def keepsRoots : Request S → Bool
  | .typeText .. | .typeToken .. | .choose .. | .expand .. | .reset .. | .paste .. | .openItem ..
  | .removeAt .. | .restore .. | .restoreState .. | .replay .. | .undo .. | .redo .. => true
  | _ => false

def AsksFrugally (w : Workspace S) : Request S → Prop
  | .typeText id text => Frugal (offerTyped id text) w
  | .choose id choice => Frugal (offerChoice id choice) w
  | .expand id => Frugal (offerText id) w
  | _ => True

theorem perform_conserves {request : Request S} (sound : w.arena.Sound)
    (keeps : keepsRoots request = true)
    (frugal : w.AsksFrugally request) : Conserves (perform request) w := by
  have done : ∀ {α : Type} {action : Editing S α}, Conserves action w →
      Conserves (do let _ ← action) w := fun conserves =>
    .bind (conserves.mono (fun _ _ balanced => .pure balanced) fun _ _ _ => trivial)
  cases request with
  | typeText id text => exact typeText_conserves text sound frugal
  | typeToken id text undoable => exact writeToken_conserves text none undoable sound
  | choose id choice => exact choose_conserves choice sound frugal
  | expand id => exact done (expand_conserves sound frugal)
  | reset id => exact reset_conserves sound
  | openItem list index => exact done (openItem_conserves list index sound)
  | removeAt list index => exact removeAt_conserves list index sound
  | paste id s => exact done (paste_conserves id s sound)
  | restore id s => exact restore_conserves id s sound
  | restoreState id state => exact restoreState_conserves id state sound
  | replay direction edit => exact replay_conserves direction edit sound
  | undo h => exact done (move_conserves h .undo sound)
  | redo h => exact done (move_conserves h .redo sound)
  | _ => cases keeps

/-- Nothing is lost and nothing is left over. When a change of documents goes through, the roots
are the ones that were there, every editor stands below one of them, and the arena holds as many
editors as their documents are made of. -/
theorem documents_account_for_all_editors {request : Request S} (reached : Reaches {} w)
    (keeps : keepsRoots request = true)
    (frugal : w.AsksFrugally request) (ran : perform request w = .ok () w') :
    (∀ x, w'.arena.IsRoot x ↔ w.arena.IsRoot x) ∧
    (∀ x editor, w'.arena.get? x = some editor →
      ∃ root, w.arena.IsRoot root ∧ w'.arena.links.Within root x) ∧
    (∃ roots documents, w'.arena.Census roots documents) ∧
    ∀ roots documents, w'.arena.Census roots documents →
      w'.arena.size = (documents.map Sketch.size).sum := by
  have balanced :=
    (perform_conserves (sound_of_reached reached) keeps frugal).ok_of ran
  have forest := balanced.sound.forest
  refine ⟨balanced.roots, fun x editor isLive => ?_, Arena.exists_census forest,
    fun _ _ census => census.size_eq forest⟩
  obtain ⟨root, isRoot, within⟩ := Arena.exists_root forest isLive
  exact ⟨root, (balanced.roots root).1 isRoot, within⟩

section

open Sample

/-- An expander whose content gets a context of its own. It shows the name of a compound. -/
def namedSum : Workspace expression :=
  performAll [.newExpander ExpanderName.hook "sum" ⟨0, []⟩] desk

theorem reaches_namedSum : Reaches {} namedSum :=
  reaches_performAll _ (.beside (.refl _) rfl) (by simp [Allowed])

theorem namedSum_frugal : Frugal (offerText ⟨0, 0⟩) namedSum := by
  intro made w' ran
  have answered : offerText ⟨0, 0⟩ namedSum =
      .ok (some ⟨3, 0⟩) ((offerText ⟨0, 0⟩).after namedSum) :=
    Action.run_of_value? (by decide +kernel)
  obtain ⟨rfl, rfl⟩ : made = some ⟨3, 0⟩ ∧ w' = (offerText ⟨0, 0⟩).after namedSum := by
    rw [ran] at answered
    injection answered with same after
    exact ⟨same, after⟩
  refine ⟨fun x offered => ?_, fun y fresh isLive => ⟨⟨3, 0⟩, rfl, ?_⟩⟩
  · cases offered
    rfl
  · have each : ∀ y ∈ ((offerText ⟨0, 0⟩).after namedSum).arena.handles,
        namedSum.arena.contains y = true ∨ y = ⟨3, 0⟩ ∨
          (((offerText ⟨0, 0⟩).after namedSum).arena.get? y).map (·.parent) =
            some (some ⟨3, 0⟩) := by decide +kernel
    rcases each y (Arena.mem_handles.2 (Option.ne_none_iff_exists'.1 isLive)) with
      old | rfl | below
    · rw [Arena.contains, fresh] at old
      cases old
    · exact .here
    · obtain ⟨editor, found, hasParent⟩ := Option.map_eq_some_iff.1 below
      exact .step (Arena.links_of_get? found) hasParent .here

/-- The compound is built in one context, taken to another and hung below the expander. Of the
copies one is left: four editors make up the only document. -/
theorem namedSum_accounts_for_all : ∃ w', perform (.expand ⟨0, 0⟩) namedSum = .ok () w' ∧
    w'.arena.size = 4 ∧ (∀ x, w'.arena.IsRoot x ↔ namedSum.arena.IsRoot x) ∧
    ∃ roots documents, w'.arena.Census roots documents ∧
      w'.arena.size = (documents.map Sketch.size).sum := by
  have ran : perform (.expand ⟨0, 0⟩) namedSum =
      .ok () ((perform (.expand ⟨0, 0⟩)).after namedSum) :=
    Action.run_of_value? (by decide +kernel)
  have frugal : namedSum.AsksFrugally (.expand ⟨0, 0⟩) := namedSum_frugal
  obtain ⟨same, -, ⟨roots, documents, census⟩, count⟩ := documents_account_for_all_editors
    reaches_namedSum rfl frugal ran
  exact ⟨_, ran, by decide +kernel, same, roots, documents, census, count roots documents census⟩

end

end StructureEditor.Workspace
