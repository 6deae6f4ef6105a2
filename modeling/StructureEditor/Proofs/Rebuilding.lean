import StructureEditor.Proofs.SingleChanges

/-! Building editors from snapshots, taking roots into other contexts and filling expanders,
for any way of restoring that keeps to the editor it is given. A step that fails leaves
everything that was there as it was. -/
namespace StructureEditor.Workspace

variable {S : Signature}

structure Paused (w start : Workspace S) (finish : Workspace S → Workspace S) : Prop where
  arena : start.arena = w.arena
  contexts : start.contexts = w.contexts
  views : start.views = w.views
  journal : start.journal = w.journal
  finished : ∀ w', (finish w').arena = w'.arena
  finishedViews : ∀ w', (finish w').views = w'.views
  finishedJournal : ∀ w', (finish w').journal = w'.journal
  placed : ∀ w', (finish w').contexts = w'.contexts
  quiet : ∀ w', Quiet start w' → Quiet w (finish w')

theorem paused_refl (w : Workspace S) : Paused w w id :=
  ⟨rfl, rfl, rfl, rfl, fun _ => rfl, fun _ => rfl, fun _ => rfl, fun _ => rfl, fun _ quiet => quiet⟩

theorem paused_history (h : HistoryId) (w : Workspace S) :
    Paused w ((historyLens h).put ((historyLens h).view w).pause.2 w)
      ((historyLens h).update (·.resume ((historyLens h).view w).pause.1)) where
  arena := rfl
  contexts := rfl
  views := rfl
  journal := rfl
  finished _ := rfl
  finishedViews _ := rfl
  finishedJournal _ := rfl
  placed _ := rfl
  quiet w' quiet := by
    refine ⟨?_, quiet.views, quiet.contexts⟩
    have same : w'.histories =
        w.histories.set h ((historyLens h).view w).pause.2 := quiet.histories
    simp only [HistoryLens.update, historyLens, History.pause, History.resume] at same ⊢
    rw [same, Histories.get_set_self, Histories.set_set]
    exact Histories.set_get

variable {α : Type} {w w' : Workspace S} {id : Handle}

theorem unrecorded_run (context : Context) (action : Editing S α) (w : Workspace S) :
    ∃ start finish, Paused w start finish ∧
      unrecorded context action w = action.ensuring finish start := by
  have asked : historyOf? context w = .ok (w.contexts.find? (·.history) context) w := rfl
  simp only [unrecorded, Action.bind_run_ok _ asked]
  cases w.contexts.find? (·.history) context with
  | none =>
    refine ⟨w, _, paused_refl w, ?_⟩
    cases ran : action w <;> simp [Action.ensuring, ran]
  | some h => exact ⟨_, _, paused_history h w, rfl⟩

/-- Something that holds where an action was refused. -/
def OnRefusal (P : Workspace S → Prop) (stop : Stop) (w : Workspace S) : Prop :=
  ∀ error, stop = .refused error → P w

variable [Language S] {c : ClassKey S} {context : Context} {restore : Restorer S} {s : Snapshot}

/-- Only what is below one editor changed. -/
structure Confined (w w' : Workspace S) (id : Handle) : Prop where
  sound : w'.arena.Sound
  quiet : Quiet w w'
  changes : w.arena.Changes w'.arena id

/-- Editors were added at most. -/
structure Added (w w' : Workspace S) : Prop where
  sound : w'.arena.Sound
  quiet : Quiet w w'
  grows : w.arena.Grows w'.arena

theorem Confined.refl (sound : w.arena.Sound) (id : Handle) : Confined w w id :=
  ⟨sound, .refl w, .refl _ _⟩

theorem Confined.trans {w'' : Workspace S} (first : Confined w w' id) (second : Confined w' w'' id)
    (sound : w.arena.Sound) : Confined w w'' id :=
  ⟨second.sound, first.quiet.trans second.quiet, first.changes.trans second.changes sound.forest⟩

theorem Added.refl (sound : w.arena.Sound) : Added w w := ⟨sound, .refl w, .refl _⟩

theorem Added.trans {w'' : Workspace S} (first : Added w w') (second : Added w' w'') : Added w w'' :=
  ⟨second.sound, first.quiet.trans second.quiet, first.grows.trans second.grows⟩

theorem Added.confined (added : Added w w') (id : Handle) : Confined w w' id :=
  ⟨added.sound, added.quiet, added.grows.changes id⟩

/-- A new root of a class in a context. -/
structure Built (w w' : Workspace S) (id : Handle) (c : ClassKey S) (context : Context) : Prop
    extends Added w w' where
  fresh : w.arena.outline id = none
  root : ∃ editor, w'.arena.get? id = some editor ∧ editor.parent = none ∧
    editor.context = context ∧ editor.state.classKey = c

theorem create_run (c : ClassKey S) (context : Context) (w : Workspace S) :
    create c context w = .ok ((Arena.create c context).run w.arena).1
      { w with arena := ((Arena.create c context).run w.arena).2 } := rfl

theorem created {a : Arena S} (made : w.arena.Made a id c context) :
    Built w { w with arena := a } id c context := by
  obtain ⟨editor, found, isRoot, sameContext, _⟩ := made.root
  obtain ⟨d, seen, key, _⟩ := made.shown
  obtain ⟨state, held, stateKey⟩ := seen.state
  refine ⟨⟨made.sound, .of_arena, ?_⟩, Arena.outline_eq_none_iff.2 made.fresh, editor, found, isRoot,
    sameContext, ?_⟩
  · intro x e outlined
    obtain ⟨old, isLive, rfl⟩ := Arena.get?_of_outline outlined
    exact Arena.outline_of_get? (made.kept x old isLive)
  · rw [Arena.state?_of_get? found] at held
    cases held
    exact stateKey.trans key

theorem Built.confined {w'' : Workspace S} (built : Built w w' id c context)
    (changed : Confined w' w'' id) (sound : w.arena.Sound) : Built w w'' id c context := by
  obtain ⟨editor, found, isRoot, sameContext, key⟩ := built.root
  obtain ⟨editor', found', kept⟩ := changed.changes.live found
  exact ⟨⟨changed.sound, built.quiet.trans changed.quiet,
    built.grows.change_fresh changed.changes sound.forest built.fresh⟩, built.fresh, editor', found',
    kept.2.1.trans isRoot, kept.1.trans sameContext, kept.2.2.2.trans key⟩

theorem Built.dispose (built : Built w w' id c context) (sound : w.arena.Sound) :
    Added w { w' with arena := w'.arena.dispose id } := by
  obtain ⟨editor, found, isRoot, _⟩ := built.root
  obtain ⟨sound', _, kept⟩ := Arena.sound_dispose_root built.sound found isRoot
  refine ⟨sound', built.quiet.trans .of_arena, fun x e outlined => ?_⟩
  have outside := built.grows.not_within_fresh sound.forest built.fresh outlined
  have same : (w'.arena.dispose id).outline x = w'.arena.outline x := by
    simp only [Arena.outline, kept x outside]
  exact same.trans (built.grows x e outlined)

/-- Restoring keeps to the editor that it is given. -/
def Restorer.Safe (restore : Restorer S) : Prop :=
  ∀ w id s, w.arena.Sound → Action.Meets (restore id s) w
    (fun _ w' => Confined w w' id) fun _ w' => Confined w w' id

theorem unrecorded_confined {action : Editing S Unit} (context : Context) (sound : w.arena.Sound)
    (meets : ∀ w : Workspace S, w.arena.Sound → Action.Meets action w
      (fun _ w' => Confined w w' id) fun _ w' => Confined w w' id) :
    Action.Meets (unrecorded context action) w
      (fun _ w' => Confined w w' id) fun _ w' => Confined w w' id := by
  obtain ⟨start, finish, paused, ran⟩ := unrecorded_run context action w
  have ended : ∀ w', Confined start w' id → Confined w (finish w') id := by
    intro w' done
    refine ⟨?_, paused.quiet w' done.quiet, ?_⟩
    · rw [paused.finished]
      exact done.sound
    · rw [paused.finished, ← paused.arena]
      exact done.changes
  rw [Action.Meets, ran]
  refine Action.Meets.ensuring ((meets start (paused.arena ▸ sound)).mono ?_ ?_)
  · exact fun _ w' => ended w'
  · exact fun _ w' => ended w'

theorem rebuildAsWith_meets (safe : restore.Safe) (sound : w.arena.Sound) :
    Action.Meets (rebuildAsWith restore c s context) w
      (fun id w' => Built w w' id c context) fun _ w' => Added w w' := by
  have made := created (w := w) (Arena.create_made c context sound)
  refine .after_ok (create_run c context w) (.bind (.attempt (.mono
    (unrecorded_confined context made.sound fun w sound => safe w _ s sound) ?_ ?_)))
  · exact fun _ w' changed => made.confined changed sound
  · intro stop w' changed
    cases stop with
    | refused error => exact .after_ok (dispose_run _ w') ((made.confined changed sound).dispose sound)
    | fault f => exact (made.confined changed sound).toAdded

theorem rebuildWith_meets (safe : restore.Safe) (sound : w.arena.Sound) :
    Action.Meets (rebuildWith restore s context) w
      (fun id w' => ∃ c, Built w w' id c context) fun _ w' => Added w w' := by
  unfold rebuildWith
  split
  · exact .refuse (.refl sound)
  · refine .bind (.ask ?_ fun _ _ => .refl sound)
    intro registry _
    cases registry.lookup _ with
    | error error => exact .refl sound
    | ok c =>
      exact (rebuildAsWith_meets safe sound).mono (fun id w' built => ⟨c, built⟩)
        fun _ _ added => added

/-- A copy of a root stands in a context in place of the root. -/
structure Copied (w w' : Workspace S) (id copy : Handle) (context : Context) : Prop where
  sound : w'.arena.Sound
  quiet : Quiet w w'
  fresh : w.arena.outline copy = none
  root : ∃ old new, w.arena.get? id = some old ∧ old.parent = none ∧ old.context ≠ context ∧
    w'.arena.get? copy = some new ∧ new.parent = none ∧ new.context = context ∧
    new.state.classKey = old.state.classKey
  kept : ∀ x e, w.arena.outline x = some e → ¬ w.arena.links.Within id x →
    w'.arena.outline x = some e
  gone : ∀ x, w.arena.links.Within id x → w'.arena.outline x = none

theorem Copied.not_above {copy x : Handle} {e : Editor S} (copied : Copied w w' id copy context)
    (sound : w.arena.Sound) (isLive : w.arena.outline x = some e)
    (outside : ¬ w.arena.links.Within id x) : ¬ w'.arena.links.Within copy x := by
  intro within
  refine Arena.not_within_fresh sound.forest copied.fresh isLive
    (Arena.within_of_kept sound.forest (fun z => ¬ w.arena.links.Within id z) ?_ ?_ within
      outside isLive)
  · exact fun z p e notWithin isLive hasParent =>
      Links.not_within_parent notWithin (Arena.links_of_outline isLive) hasParent
  · exact fun z e notWithin isLive => copied.kept z e isLive notWithin

theorem Built.replace {copy : Handle} {editor : Editor S}
    (built : Built w w' copy editor.state.classKey context) (sound : w.arena.Sound)
    (found : w.arena.get? id = some editor) (isRoot : editor.parent = none)
    (elsewhere : editor.context ≠ context) :
    Copied w { w' with arena := w'.arena.dispose id } id copy context := by
  obtain ⟨new, newFound, newRoot, newContext, newKey⟩ := built.root
  have outlined := Arena.outline_of_get? found
  obtain ⟨editor', found', same⟩ := Arena.get?_of_outline (built.grows id _ outlined)
  have isRoot' : editor'.parent = none := by
    have parent : editor'.blank.parent = editor.blank.parent := by rw [same]
    exact parent.trans isRoot
  obtain ⟨sound', gone, kept⟩ := Arena.sound_dispose_root built.sound found' isRoot'
  have different : copy ≠ id := by
    rintro rfl
    rw [built.fresh] at outlined
    cases outlined
  have apart : ¬ w'.arena.links.Within id copy := fun within =>
    different (Links.within_root_unique (Arena.links_of_get? newFound) newRoot within)
  have outlines : ∀ x, ¬ w'.arena.links.Within id x →
      (w'.arena.dispose id).outline x = w'.arena.outline x := by
    intro x outside
    simp only [Arena.outline, kept x outside]
  refine ⟨sound', built.quiet.trans .of_arena, built.fresh, ⟨editor, new, found, isRoot, elsewhere, ?_,
    newRoot, newContext, newKey⟩, ?_, ?_⟩
  · exact (kept copy apart).trans newFound
  · intro x e isLive outside
    refine (outlines x ?_).trans (built.grows x e isLive)
    exact (built.grows.changes id).still_outside sound.forest outside isLive
  · intro x within
    refine Arena.outline_eq_none_iff.2 (gone x (within.transfer
      (fun z => ∃ e, w.arena.outline z = some e) ?_ ?_ ?_))
    · rintro z p place ⟨e, isLive⟩ placed hasParent
      rw [Arena.links_of_outline isLive] at placed
      cases placed
      exact Arena.live_parent sound.forest isLive hasParent
    · rintro z place ⟨e, isLive⟩ placed
      rw [Arena.links_of_outline isLive] at placed
      cases placed
      exact ⟨_, Arena.links_of_outline (built.grows z e isLive), rfl⟩
    · obtain ⟨place, placed⟩ := within.live (Arena.links_of_get? found)
      obtain ⟨e, isLive, _⟩ := Arena.outline_of_links placed
      exact ⟨e, isLive⟩

theorem relocateWith_meets (safe : restore.Safe) (sound : w.arena.Sound) :
    Action.Meets (relocateWith restore id context) w
      (fun m w' => (m = id ∧ w' = w ∧ ∃ e, w.arena.get? id = some e ∧ e.context = context) ∨
        Copied w w' id m context) fun _ w' => Added w w' := by
  refine .bind (.ask ?_ fun _ _ => .refl sound)
  intro editor answered
  have found := Arena.get_eq_ok_iff.1 answered
  split
  · next same => exact .pure (Or.inl ⟨rfl, rfl, editor, found, same⟩)
  · next elsewhere =>
    cases attached : editor.parent with
    | some p => exact .refuse (.refl sound)
    | none =>
      refine .bind (.ask (fun s _ => ?_) fun _ _ => .refl sound)
      refine .bind ((rebuildAsWith_meets safe sound).mono ?_ fun _ _ added => added)
      intro m w' built
      exact .after_ok (dispose_run id w')
        (.pure (Or.inr (built.replace sound found attached elsewhere)))

def scopeFor (w : Workspace S) (k : S.ExpanderClass) (own : Context) :
    Context × Contexts (Services S) :=
  match (Language.expander k).contentScope with
  | .own => (own, w.contexts)
  | .provided => ((w.contexts.find? (·.scope) own).getD own, w.contexts)
  | .fresh => w.contexts.extend own

theorem grown_scopeFor (w : Workspace S) (k : S.ExpanderClass) (own : Context) :
    w.contexts.Grown (w.scopeFor k own).2 := by
  unfold scopeFor
  split
  · exact .refl _
  · exact .refl _
  · exact Contexts.grown_newLevel _ _

variable {k : S.ExpanderClass} {editor : Editor S} {display : Display Handle}

theorem contentScope_run (found : w.arena.get? id = some editor)
    (held : editor.state = .expander k display) :
    contentScope id w = .ok (k, (w.scopeFor k editor.context).1)
      { w with contexts := (w.scopeFor k editor.context).2 } := by
  have asked : ask (·.expander id) w = .ok (k, display) w :=
    ask_run (Arena.expander_eq_ok_iff.2 (held ▸ Arena.state?_of_get? found))
  simp only [contentScope, Action.bind_run_ok _ asked, Action.bind_run_ok _ (lookup_run found),
    scopeFor]
  cases (Language.expander k).contentScope <;> rfl

theorem contentScope_meets (w : Workspace S) :
    Action.Meets (contentScope id) w
      (fun scope w' => ∃ editor display, w.arena.get? id = some editor ∧
        editor.state = .expander scope.1 display ∧ scope.2 = (w.scopeFor scope.1 editor.context).1 ∧
        w' = { w with contexts := (w.scopeFor scope.1 editor.context).2 })
      fun _ w' => w' = w := by
  cases answered : w.arena.expander id with
  | error error =>
    have asked : ask (·.expander id) w = .error (.refused error) w := Action.ask_run_error answered
    exact .of_error (Action.bind_run_error _ asked) rfl
  | ok answer =>
    obtain ⟨k, display⟩ := answer
    obtain ⟨editor, found, held⟩ := Arena.get?_of_state? (Arena.expander_eq_ok_iff.1 answered)
    exact .of_ok (contentScope_run found held) ⟨editor, display, found, held, rfl, rfl⟩

theorem added_scopeFor (sound : w.arena.Sound) (k : S.ExpanderClass) (own : Context) :
    Added w { w with contexts := (w.scopeFor k own).2 } :=
  ⟨sound, ⟨rfl, rfl, grown_scopeFor w k own⟩, .refl _⟩

def hang (k : S.ExpanderClass) (id content : Handle) : Editing S Handle := do
  setParent content (some id)
  setState id (.expander k (.expanded content))
  recompute id
  tell id (.expanded content)
  remark ((Language.expander k).remarkOnFill id content ((← get).arena.contains content))
  return content

theorem hang_turn {child : Editor S} {content : Handle} {text : String} {item : Option Candidate}
    (sound : w.arena.Sound) (found : w.arena.get? id = some editor)
    (held : editor.state = .expander k (.text text item))
    (root : w.arena.get? content = some child) (free : child.parent = none)
    (apart : ¬ w.arena.links.Within content id) :
    ∃ w', hang k id content w = .ok content w' ∧
      Rewrites w w' id (.expander k (.expanded content)) (· = content) ∧
      w'.arena.outline content = some { child.blank with parent := some id } ∧
      Telling w w' id (.expanded content) := by
  have different : content ≠ id := by
    rintro rfl
    exact apart .here
  have there : (w.arena.setParent (some id) content).get? id = some editor := by
    rw [Arena.get?_setParent, if_neg (Ne.symm different), found]
  obtain ⟨w', ran, done, attached, poised, reports⟩ := rewrites_link
    (.expander k (.expanded content)) w.journal
    (b := (w.arena.setParent (some id) content).setState id (.expander k (.expanded content)))
    sound found root free apart (by rw [held]; exact .refl _) nofun
    (Arena.exact_modify (Arena.exact_modify sound.exact content _) id _)
    (by rw [Arena.get?_setState, if_pos rfl, there]; rfl)
    (by rw [Arena.get?_setState, if_neg different, Arena.get?_setParent, if_pos rfl, root]; rfl)
    fun y notId notContent => by
      rw [Arena.get?_setState, if_neg notId, Arena.get?_setParent, if_neg notContent]
  obtain ⟨journal, told⟩ := tell_run id (.expanded content) w'
  obtain ⟨journal', remarked⟩ := remark_run ((Language.expander k).remarkOnFill id content
    (w'.arena.contains content)) { w' with journal }
  refine ⟨_, ?_, (done.told journal).told journal', attached,
    (Telling.late poised rfl reports told).remarked _ remarked⟩
  simp only [hang, Action.bind_run_ok _ (setParent_run root)]
  rw [Action.bind_run_ok _ (setState_run there), Action.bind_run_ok _ ran,
    Action.bind_run_ok _ told, Action.bind_run_ok _ (Action.get_run _),
    Action.bind_run_ok _ remarked]
  rfl

theorem hang_run {child : Editor S} {content : Handle} {text : String} {item : Option Candidate}
    (sound : w.arena.Sound) (found : w.arena.get? id = some editor)
    (held : editor.state = .expander k (.text text item))
    (root : w.arena.get? content = some child) (free : child.parent = none)
    (apart : ¬ w.arena.links.Within content id) :
    ∃ w', hang k id content w = .ok content w' ∧
      Rewrites w w' id (.expander k (.expanded content)) (· = content) ∧
      w'.arena.outline content = some { child.blank with parent := some id } := by
  obtain ⟨w', ran, done, attached, _⟩ := hang_turn sound found held root free apart
  exact ⟨w', ran, done, attached⟩

/-- Where a root was to be taken into a context, it stands there, or a copy of it does, and an
editor that the root does not stand above can take it in. -/
structure Fetched (w w' : Workspace S) (source m : Handle) (context : Context) (id : Handle)
    (child editor child' editor' : Editor S) : Prop where
  sound : w'.arena.Sound
  quiet : Quiet w w'
  found : w'.arena.get? id = some editor'
  same : editor'.blank = editor.blank
  root : w'.arena.get? m = some child'
  free : child'.parent = none
  home : child'.context = context
  key : child'.state.classKey = child.state.classKey
  apart : ¬ w'.arena.links.Within m id
  origin : m = source ∨ w.arena.outline m = none
  kept : ∀ x e, w.arena.outline x = some e → ¬ w.arena.links.Within source x →
    x ≠ m ∧ w'.arena.outline x = some e

theorem fetched_of_relocated {source m : Handle} {child : Editor S} (sound : w.arena.Sound)
    (relocated : (m = source ∧ w' = w ∧ ∃ e, w.arena.get? source = some e ∧ e.context = context) ∨
      Copied w w' source m context)
    (found : w.arena.get? id = some editor) (root : w.arena.get? source = some child)
    (free : child.parent = none) (apart : ¬ w.arena.links.Within source id) :
    ∃ child' editor', Fetched w w' source m context id child editor child' editor' := by
  rcases relocated with ⟨rfl, rfl, e, isLive, home⟩ | copied
  · cases root.symm.trans isLive
    refine ⟨child, editor, sound, .refl _, found, rfl, root, free, home, rfl, apart, .inl rfl, ?_⟩
    refine fun x e isLive outside => ⟨?_, isLive⟩
    rintro rfl
    exact outside .here
  · obtain ⟨old, new, oldFound, _, _, newFound, newRoot, home, key⟩ := copied.root
    cases root.symm.trans oldFound
    have outlined := Arena.outline_of_get? found
    obtain ⟨editor', found', same⟩ := Arena.get?_of_outline (copied.kept id _ outlined apart)
    refine ⟨new, editor', copied.sound, copied.quiet, found', same, newFound, newRoot, home, key,
      copied.not_above sound outlined apart, .inr copied.fresh,
      fun x e isLive outside => ⟨?_, copied.kept x e isLive outside⟩⟩
    rintro rfl
    rw [copied.fresh] at isLive
    cases isLive

namespace Fetched

variable {source m : Handle} {child child' editor' : Editor S}

theorem state_eq (fetched : Fetched w w' source m context id child editor child' editor') :
    editor'.state = editor.state := by
  have same : editor'.blank.state = editor.blank.state := by rw [fetched.same]
  exact same

theorem context_eq (fetched : Fetched w w' source m context id child editor child' editor') :
    editor'.context = editor.context := by
  have same : editor'.blank.context = editor.blank.context := by rw [fetched.same]
  exact same

theorem hangs {text : String} {item : Option Candidate}
    (fetched : Fetched w w' source m context id child editor child' editor')
    (held : editor.state = .expander k (.text text item)) :
    ∃ w'', hang k id m w' = .ok m w'' ∧
      Rewrites w' w'' id (.expander k (.expanded m)) (· = m) ∧
      w''.arena.outline m = some { child'.blank with parent := some id } :=
  hang_run fetched.sound fetched.found (fetched.state_eq.trans held) fetched.root fetched.free
    fetched.apart

theorem attaches {k : S.ListClass} {ids : List Handle} {index : Nat}
    (fetched : Fetched w w' source m editor.context id child editor child' editor')
    (held : editor.state = .list k ids) (inside : index ≤ ids.length) :
    ∃ w'', attachItem id index m w' = .ok () w'' ∧
      Rewrites w' w'' id (.list k (ids.insertIdx index m)) (· = m) ∧
      w''.arena.outline m = some { child'.blank with parent := some id } :=
  attachItem_run fetched.sound fetched.found (fetched.state_eq.trans held) inside fetched.root
    fetched.free (fetched.home.trans fetched.context_eq.symm) fetched.apart

end Fetched

/-- An expander shows content now. -/
structure Filled (w w' : Workspace S) (id source content : Handle) : Prop where
  sound : w'.arena.Sound
  quiet : Quiet w w'
  here : ∃ old k text item, w.arena.get? id = some old ∧
    old.state = .expander k (.text text item) ∧
    w'.arena.outline id = some { old.blank with state := .expander k (.expanded content) }
  kept : ∀ x e, w.arena.outline x = some e → x ≠ id → ¬ w.arena.links.Within source x →
    w'.arena.outline x = some e

/-- Filling, step by step: what is refused is refused before the new content is at hand, and then
the content is hung below the expander. -/
theorem fillWith_rule {source : Handle} {restore : Restorer S} {ok : Handle → Workspace S → Prop}
    {stopped : Stop → Workspace S → Prop} {Apart : Prop}
    (apart : ∀ e, w.arena.get? source = some e → e.parent = none → source ≠ id → Apart)
    (early : ∀ stop, stopped stop w)
    (rest : ∀ {k old text item e}, w.arena.get? id = some old →
      old.state = .expander k (.text text item) → w.arena.get? source = some e → e.parent = none →
      Apart → Action.Meets (relocateWith restore source (w.scopeFor k old.context).1)
        { w with contexts := (w.scopeFor k old.context).2 }
        (fun content w' => Action.Meets (hang k id content) w' ok stopped) stopped) :
    Action.Meets (fillWith restore id source) w ok stopped := by
  refine .bind ((requireTextMode_meets .expanding w).mono ?_ fun _ w' same => same ▸ early _)
  rintro _ w' ⟨rfl, k, text, item, held⟩
  obtain ⟨old, found, state⟩ := Arena.get?_of_state? held
  refine .bind (.ask ?_ fun _ _ => early _)
  intro e answered
  have isLive := Arena.get_eq_ok_iff.1 answered
  cases attached : e.parent with
  | some p => exact .refuse (early _)
  | none =>
    by_cases itself : source = id
    · simp only [itself, BEq.rfl, Bool.or_true, if_true]
      exact .refuse (early _)
    simp only [Option.isSome_none, beq_eq_false_iff_ne.2 itself, Bool.or_self, Bool.false_eq_true,
      if_false]
    exact .after_ok (contentScope_run found state)
      (.bind (rest found state isLive attached (apart e isLive attached itself)))

theorem fillWith_meets {source : Handle} (safe : restore.Safe) (sound : w.arena.Sound)
    (apart : ∀ e, w.arena.get? source = some e → e.parent = none → source ≠ id →
      ¬ w.arena.links.Within source id) :
    Action.Meets (fillWith restore id source) w
      (fun content w' => Filled w w' id source content ∧
        (content = source ∨ w.arena.outline content = none)) fun _ w' => Added w w' := by
  refine fillWith_rule apart (fun _ => .refl sound) fun {k old text item e} found state isLive free
    outside => ?_
  have ready := added_scopeFor sound k old.context
  refine (relocateWith_meets safe ready.sound).mono ?_ fun _ _ added => ready.trans added
  intro content w₂ relocated
  obtain ⟨new, old', fetched⟩ :=
    fetched_of_relocated ready.sound relocated found isLive free outside
  obtain ⟨w₃, ran, done, _⟩ := fetched.hangs state
  refine .of_ok ran ⟨⟨done.sound, ready.quiet.trans (fetched.quiet.trans done.quiet),
    ⟨old, k, text, item, found, state, ?_⟩, ?_⟩, fetched.origin⟩
  · rw [done.here _ (Arena.outline_of_get? fetched.found), fetched.same]
  · intro x e isLive notId notWithin
    obtain ⟨different, still⟩ := fetched.kept x e isLive notWithin
    exact (done.kept x notId different).trans still

end StructureEditor.Workspace
