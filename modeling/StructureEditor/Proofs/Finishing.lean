import StructureEditor.Proofs.Restaging
import StructureEditor.Proofs.RoundTrip
import StructureEditor.Proofs.Sizes

/-! Reconstruction comes to an end. Restoring a snapshot asks for other snapshots to be restored:
parts of it, but also the snapshot that is read back of content which was just built, where the
content has to be taken into another context. What is read back has no more editors and no more
levels than what the content was built from, so each of these snapshots is smaller than the one
that is being restored. -/
namespace StructureEditor

variable {S : Signature}

namespace Action

variable {σ α β : Type} {s : σ} {a b : Action σ α} {ok ok' : α → σ → Prop}
  {stopped : Stop → σ → Prop}

/-- Two actions end alike from a state; where they go through, something is known of the end. -/
structure Concur (a b : Action σ α) (s : σ) (ok : α → σ → Prop) : Prop where
  same : a s = b s
  meets : Meets b s ok fun _ _ => True

namespace Concur

theorem self (meets : Meets a s ok stopped) : Concur a a s ok :=
  ⟨rfl, meets.mono (fun _ _ holds => holds) fun _ _ _ => trivial⟩

theorem of_ok {v : α} {s' : σ} (ran : a s = .ok v s') (holds : ok v s') : Concur a a s ok :=
  ⟨rfl, .of_ok ran holds⟩

theorem of_run {a' b' : Action σ α} {s' : σ} (first : a s = a' s') (second : b s = b' s')
    (concur : Concur a' b' s' ok) : Concur a b s ok := by
  refine ⟨first.trans (concur.same.trans second.symm), ?_⟩
  rw [Meets, second]
  exact concur.meets

theorem mono (concur : Concur a b s ok) (more : ∀ v s', ok v s' → ok' v s') : Concur a b s ok' :=
  ⟨concur.same, concur.meets.mono more fun _ _ _ => trivial⟩

theorem and (concur : Concur a b s ok) (known : Meets b s ok' stopped) :
    Concur a b s fun v s' => ok v s' ∧ ok' v s' :=
  ⟨concur.same, (concur.meets.and known).mono (fun _ _ holds => holds) fun _ _ _ => trivial⟩

theorem bind {f g : α → Action σ β} {ok : β → σ → Prop}
    (concur : Concur a b s fun v s' => Concur (f v) (g v) s' ok) :
    Concur (a >>= f) (b >>= g) s ok := by
  obtain ⟨same, meets⟩ := concur
  cases ran : b s with
  | ok v s' =>
    have rest := meets.ok_of ran
    refine ⟨?_, .after_ok ran rest.meets⟩
    rw [bind_run_ok f (same.trans ran), bind_run_ok g ran, rest.same]
  | error stop s' =>
    refine ⟨?_, .of_error (bind_run_error g ran) trivial⟩
    rw [bind_run_error f (same.trans ran), bind_run_error g ran]

theorem after_ok {f g : α → Action σ β} {ok : β → σ → Prop} {v : α} {s' : σ} (ran : b s = .ok v s')
    (rest : Concur (f v) (g v) s' ok) : Concur (b >>= f) (b >>= g) s ok :=
  .bind (.of_ok ran rest)

theorem asked {question : σ → Except Refusal α} {f g : α → Action σ β} {ok : β → σ → Prop}
    (rest : ∀ v, question s = .ok v → Concur (f v) (g v) s ok) :
    Concur (ask question >>= f) (ask question >>= g) s ok :=
  .bind ⟨rfl, .ask rest fun _ _ => trivial⟩

theorem refuse {error : Refusal} :
    Concur (Action.refuse error : Action σ α) (Action.refuse error) s ok := ⟨rfl, trivial⟩

theorem pure {v : α} (holds : ok v s) : Concur (Pure.pure v : Action σ α) (Pure.pure v) s ok :=
  ⟨rfl, holds⟩

theorem attempt {ok : Except Refusal α → σ → Prop}
    (concur : Concur a b s fun v s' => ok (.ok v) s') (refused : ∀ e s', ok (.error e) s') :
    Concur a.attempt b.attempt s ok := by
  refine ⟨by simp only [Action.attempt, concur.same], .attempt (concur.meets.mono
    (fun _ _ holds => holds) fun stop s' _ => ?_)⟩
  cases stop with
  | refused e => exact refused e s'
  | fault f => trivial

theorem ensuring {finish : σ → σ} (concur : Concur a b s ok)
    (kept : ∀ v s', ok v s' → ok' v (finish s')) :
    Concur (a.ensuring finish) (b.ensuring finish) s ok' :=
  ⟨by simp only [Action.ensuring, concur.same],
    .ensuring (concur.meets.mono kept fun _ _ _ => trivial)⟩

end Concur

end Action

namespace Workspace

variable [Language S] {w w' : Workspace S} {id source : Handle} {f g restore : Restorer S}
  {s : Snapshot} {d : Sketch S} {context : Context} {c : ClassKey S} {editor : Editor S}

/-- Two ways of restoring end alike at a snapshot, and the editor shows it where they go
through. -/
def Restorer.Concur (f g : Restorer S) (s : Snapshot) : Prop :=
  ∀ w id, w.arena.Sound → Action.Concur (f id s) (g id s) w fun _ w' => w'.arena.Renders id s

theorem unrecorded_concur (context : Context) (concur : f.Concur g s) (sound : w.arena.Sound) :
    Action.Concur (unrecorded context (f id s)) (unrecorded context (g id s)) w
      fun _ w' => w'.arena.Renders id s := by
  have asked : historyOf? context w = .ok (w.contexts.find? (·.history) context) w := rfl
  refine .after_ok asked ?_
  cases w.contexts.find? (·.history) context with
  | none => exact concur w id sound
  | some h =>
    have begun : ∀ action : Editing S Unit, (historyLens h).paused action w =
        action.ensuring ((historyLens h).update (·.resume ((historyLens h).view w).pause.1))
          ((historyLens h).put ((historyLens h).view w).pause.2 w) := fun _ => rfl
    -- the flag is beside the arena
    exact .of_run (begun _) (begun _) (.ensuring (concur _ id sound) fun _ _ renders => renders)

omit [Language S] in
theorem orDispose_concur {a b : Editing S Unit} {ok : Handle → Workspace S → Prop}
    (concur : Action.Concur a b w fun _ w' => ok id w') :
    Action.Concur (orDispose id a) (orDispose id b) w ok := by
  refine .bind (.attempt (concur.mono fun _ _ holds => .pure holds) fun error w' => ?_)
  exact .after_ok (dispose_run id w') .refuse

theorem rebuildAsWith_concur (c : ClassKey S) (context : Context) (concur : f.Concur g s)
    (sound : w.arena.Sound) :
    Action.Concur (rebuildAsWith f c s context) (rebuildAsWith g c s context) w
      fun id w' => w'.arena.Renders id s :=
  .after_ok (create_run c context w) (orDispose_concur (unrecorded_concur context concur
    (Arena.create_made c context sound).sound))

theorem rebuildWith_concur (context : Context) (concur : f.Concur g s) (sound : w.arena.Sound) :
    Action.Concur (rebuildWith f s context) (rebuildWith g s context) w
      fun id w' => w'.arena.Renders id s := by
  unfold rebuildWith
  split
  · exact .refuse
  · refine .asked fun registry _ => ?_
    cases registry.lookup _ with
    | error error => exact .refuse
    | ok c => exact rebuildAsWith_concur c context concur sound

theorem relocateWith_concur (context : Context) (safe : g.Safe) (concur : f.Concur g d.toSnapshot)
    (sound : w.arena.Sound) (seen : w.arena.Shows id d) :
    Action.Concur (relocateWith f id context) (relocateWith g id context) w
      fun m w' => w'.arena.Renders m d.toSnapshot := by
  obtain ⟨state, held, _⟩ := seen.state
  obtain ⟨editor, found, _⟩ := Arena.get?_of_state? held
  refine .after_ok (lookup_run found) ?_
  split
  · exact .pure ⟨d, seen, d.renders_toSnapshot⟩
  · cases attached : editor.parent with
    | some p => exact .refuse
    | none =>
      refine .after_ok (ask_run (Arena.snapshot_of_shows sound.forest seen)) (.bind
        (((rebuildAsWith_concur _ context concur sound).and (rebuildAsWith_meets safe sound)).mono ?_))
      rintro m w' ⟨⟨d', seen', renders⟩, built⟩
      exact .after_ok (dispose_run id w')
        (.pure ⟨d', built.shows_alone found attached seen', renders⟩)

theorem fillWith_concur {k : S.ExpanderClass} {text : String} {item : Option Candidate}
    (safe : g.Safe) (concur : f.Concur g d.toSnapshot) (sound : w.arena.Sound)
    (held : w.arena.state? id = some (.expander k (.text text item)))
    (offered : Offered w k source id) (seen : w.arena.Shows source d) :
    Action.Concur (fillWith f id source) (fillWith g id source) w
      fun _ w' => ∃ content, w'.arena.Shows id (.expanded k content) ∧
        content.Renders d.toSnapshot := by
  obtain ⟨child, editor, root, found, free, _⟩ := offered.root
  have state : editor.state = .expander k (.text text item) :=
    Option.some.inj ((Arena.state?_of_get? found).symm.trans held)
  have ready := added_scopeFor sound k editor.context
  have moves := (relocateWith_concur (w := { w with contexts := (w.scopeFor k editor.context).2 })
    (w.scopeFor k editor.context).1 safe concur ready.sound seen).and
      (relocateWith_meets safe ready.sound)
  have opened : ∀ restore : Restorer S, fillWith restore id source w =
      (relocateWith restore source (w.scopeFor k editor.context).1 >>= hang k id)
        { w with contexts := (w.scopeFor k editor.context).2 } :=
    fun _ => fillWith_opened root free found state offered.apart
  refine .of_run (opened f) (opened g) (.bind (moves.mono ?_))
  rintro m w₁ ⟨⟨content, seen₁, renders⟩, moved⟩
  obtain ⟨new, editor', fetched⟩ :=
    fetched_of_relocated ready.sound moved found root free offered.apart
  obtain ⟨w₂, ran, done, linked⟩ := fetched.hangs state
  exact .of_ok ran ⟨content, Arena.shows_expanded.2 ⟨m, done.state?_eq fetched.found,
    done.shows_linked fetched.sound fetched.root linked seen₁ fetched.apart⟩, renders⟩

theorem restoreText_concur (text : String) (item : Option Candidate)
    (displays : s.display? = some (.text text item)) (sound : w.arena.Sound) :
    Action.Concur (restoreStateWith f id (.text text item)) (restoreStateWith g id (.text text item))
      w fun _ w' => w'.arena.Renders id s := by
  rw [restoreStateWith_text, restoreStateWith_text]
  refine .self (.bind ((clear_meets sound).mono ?_ fun _ _ _ => trivial) : Action.Meets _ _ _
    fun _ _ => True)
  intro _ w₁ clear
  obtain ⟨k, old, oldItem, held⟩ := clear.held
  obtain ⟨editor, found, _⟩ := Arena.get?_of_state? held
  obtain ⟨w₂, ran, done⟩ := showText_run text item clear.sound held
  exact .of_ok ran ⟨.text k text item, done.state?_eq found, displays⟩

/-- Content is built from its snapshot, and again from what is read back of it if it has to be
taken into another context. -/
theorem restoreContent_concur {inner : Snapshot} (safe : g.Safe)
    (below : ∀ t : Snapshot, t.NoLarger inner → f.Concur g t)
    (displays : s.display? = some (.expanded inner)) (sound : w.arena.Sound) :
    Action.Concur (restoreStateWith f id (.expanded inner)) (restoreStateWith g id (.expanded inner))
      w fun _ w' => w'.arena.Renders id s := by
  rw [restoreStateWith_expanded, restoreStateWith_expanded]
  refine .bind (.self ((contentScope_meets w).mono ?_ fun _ _ same => same))
  rintro ⟨k, context⟩ w₁ ⟨editor, display, found, held, scope, rfl⟩
  dsimp only at scope
  subst scope
  have ready := added_scopeFor sound k editor.context
  refine .bind (((rebuildWith_concur _ (below inner ⟨Nat.le_refl _, Nat.le_refl _⟩)
    ready.sound).and (rebuildWith_meets safe ready.sound)).mono ?_)
  rintro content w₂ ⟨⟨d, seen, renders⟩, c, built⟩
  obtain ⟨e, found₂, state, _⟩ := Arena.kept_of_outline
    ((ready.trans built.toAdded).grows id _ (Arena.outline_of_get? found))
  have held₂ := (state.trans held) ▸ Arena.state?_of_get? found₂
  obtain ⟨w₃, cleared, clear⟩ := clear_run built.sound held₂
  obtain ⟨k', text, item, held₃⟩ := clear.held
  obtain rfl := clear.changes.sameExpander held₂ held₃
  obtain ⟨offered, stays⟩ := (built.offered sound found).cleared clear
  have seen₃ := seen.transfer built.sound.forest fun y within => (stays y within).1
  refine .after_ok cleared (.bind ((fillWith_concur safe (below _ renders.noLarger) clear.sound
    held₃ offered seen₃).mono ?_))
  rintro _ w₄ ⟨content', seen₄, renders'⟩
  exact .pure ⟨.expanded k' content', seen₄, inner, displays, renders'.trans renders⟩

theorem restoreItemsWith_concur {k : S.ListClass} {ids : List Handle} {list : Handle}
    {element : ClassKey S} {shown : List (Sketch S)} {snapshots : List Snapshot} (safe : g.Safe)
    (below : ∀ s ∈ snapshots, f.Concur g s) (sound : w.arena.Sound)
    (found : w.arena.get? list = some editor) (held : editor.state = .list k ids)
    (seen : List.Forall₂ w.arena.Shows ids shown) :
    Action.Concur (restoreItemsWith f list element editor.context ids.length snapshots)
      (restoreItemsWith g list element editor.context ids.length snapshots) w
      fun _ w' => ∃ items, w'.arena.Shows list (.list k (shown ++ items)) ∧
        List.Forall₂ Sketch.Renders items snapshots := by
  induction snapshots generalizing w editor ids shown with
  | nil =>
    refine .pure ⟨[], Arena.shows_list.2 ⟨ids, held ▸ Arena.state?_of_get? found, ?_⟩, .nil⟩
    rw [List.append_nil]
    exact seen
  | cons s rest ih =>
    refine .bind (((rebuildAsWith_concur element editor.context (below s (by simp)) sound).and
      (rebuildAsWith_meets safe sound)).mono ?_)
    rintro item w₁ ⟨⟨d, seen₁, renders⟩, built⟩
    obtain ⟨w₂, attached, joined⟩ := built.joins sound found held (Nat.le_refl ids.length)
    have earlier : List.Forall₂ w₂.arena.Shows ids shown :=
      Arena.forall₂_imp_mem seen fun x member e _ seen => joined.shows_others x member e seen
    obtain ⟨editor₂, found₂, held₂, context₂⟩ := joined.live
    rw [List.insertIdx_length_self] at held₂
    have others := ih (fun s later => below s (by simp [later])) joined.confined.sound found₂ held₂
      (List.rel_append earlier (.cons (joined.shows_item d seen₁) .nil))
    rw [context₂, List.length_append, List.length_singleton] at others
    refine .after_ok attached (others.mono ?_)
    rintro _ w₃ ⟨items, seen₃, renderAll⟩
    exact ⟨d :: items, by simpa using seen₃, .cons renders renderAll⟩

theorem restoreParts_concur {k : S.CompoundClass} {ids chosen : List Handle}
    {components : List Snapshot} (safe : g.Safe) (below : ∀ s ∈ components, f.Concur g s)
    (sound : w.arena.Sound) (found : w.arena.get? id = some editor)
    (held : editor.state = .compound k ids) (members : ∀ x ∈ chosen, x ∈ ids)
    (distinct : chosen.Nodup) (count : chosen.length = components.length) :
    Action.Concur ((chosen.zip components).forM fun (id, s) => f id s)
      ((chosen.zip components).forM fun (id, s) => g id s) w
      fun _ w' => w'.arena.state? id = some (.compound k ids) ∧
        (∃ parts, List.Forall₂ w'.arena.Shows chosen parts ∧
          List.Forall₂ Sketch.Renders parts components) ∧
        ∀ x ∈ ids, x ∉ chosen → ∀ d, w.arena.Shows x d → w'.arena.Shows x d := by
  induction chosen generalizing w editor components with
  | nil =>
    cases components with
    | cons => cases count
    | nil =>
      exact .pure ⟨held ▸ Arena.state?_of_get? found, ⟨[], .nil, .nil⟩, fun _ _ _ _ seen => seen⟩
  | cons x rest ih =>
    cases components with
    | nil => cases count
    | cons s ss =>
      have member := members x (by simp)
      obtain ⟨notLater, distinct⟩ := List.nodup_cons.1 distinct
      refine .bind (((below s (by simp) w x sound).and (safe w x s sound)).mono ?_)
      rintro _ w₁ ⟨⟨d, seen, renders⟩, changed⟩
      obtain ⟨whole, editor', found', held', _⟩ := changed.part sound found held member
      refine (ih (fun s later => below s (by simp [later])) whole.sound found' held'
        (fun y later => members y (by simp [later])) distinct (by simpa using count)).mono ?_
      rintro _ w₂ ⟨there, ⟨parts, shown, renderAll⟩, others⟩
      refine ⟨there, ⟨d :: parts, .cons (others x member notLater d seen) shown,
        .cons renders renderAll⟩, ?_⟩
      intro y sibling elsewhere e seen
      have different : y ≠ x ∧ y ∉ rest := by simpa using elsewhere
      exact others y sibling different.2 e
        (changed.sibling_shows sound found held member sibling different.1 seen)

omit [Language S] in
theorem checkShape_concur {a b : Editing S Unit} {wanted : Shape} {error : Shape → Refusal}
    {ok : Unit → Workspace S → Prop} (goesOn : ∀ state, w.arena.state? id = some state →
      state.shape = wanted → Action.Concur a b w ok) :
    Action.Concur (do
      let shape ← ask (·.shapeOf id)
      if shape ≠ wanted then Action.refuse (error shape)
      a) (do
      let shape ← ask (·.shapeOf id)
      if shape ≠ wanted then Action.refuse (error shape)
      b) w ok := by
  refine .asked fun shape answered => ?_
  obtain ⟨state, held, rfl⟩ := Arena.shapeOf_eq_ok_iff.1 answered
  by_cases fits : state.shape = wanted
  · simp only [ne_eq, fits, not_true_eq_false, if_false]
    exact goesOn state held fits
  · simp only [ne_eq, fits, not_false_eq_true, if_true]
    exact .refuse

theorem restoreWith_concur (safe : g.Safe) (below : ∀ t : Snapshot, t.Smaller s → f.Concur g t) :
    Restorer.Concur (restoreWith f) (restoreWith g) s := by
  intro w id sound
  cases s with
  | token name text itemClass item =>
    refine checkShape_concur fun state held shape => ?_
    cases state with
    | token k old oldItem =>
      obtain ⟨editor, found, _⟩ := Arena.get?_of_state? held
      obtain ⟨w', ran, done⟩ :=
        writeToken_quiet text (Snapshot.candidate? itemClass item) sound held
      exact .of_ok ran ⟨.token k text _, done.state?_eq found, rfl⟩
    | _ => cases shape
  | expander name content text itemClass item =>
    refine checkShape_concur fun state held shape => ?_
    cases content with
    | none => exact restoreText_concur _ _ rfl sound
    | some inner =>
      exact restoreContent_concur safe
        (fun t noLarger => below t (noLarger.smaller (Snapshot.smaller_content rfl))) rfl sound
  | compound name components =>
    refine checkShape_concur fun _ _ _ => .asked fun ids answered => ?_
    obtain ⟨k, held⟩ := Arena.components_eq_ok_iff.1 answered
    obtain ⟨editor, found, state⟩ := Arena.get?_of_state? held
    by_cases count : ids.length = components.length
    · simp only [ne_eq, count, not_true_eq_false, if_false]
      have distinct := sound.forest.distinct (Arena.links_of_get? found)
      simp only [Editor.place, state, EditorState.children] at distinct
      refine (restoreParts_concur safe (fun t member => below t (Snapshot.smaller_component member))
        sound found state (fun _ member => member) distinct count).mono ?_
      rintro _ w' ⟨there, ⟨parts, shown, renderAll⟩, _⟩
      exact ⟨.compound k parts, Arena.shows_compound.2 ⟨ids, there, shown⟩,
        Sketch.rendersAll_iff.2 renderAll⟩
    · simp only [ne_eq, count, not_false_eq_true, if_true]
      exact .refuse
  | list name items =>
    refine checkShape_concur fun state held shape => ?_
    cases state with
    | list k ids =>
      obtain ⟨w₁, ran, sound₁, _, _, empty⟩ := dropItems_run sound held
      obtain ⟨editor, found, state⟩ := Arena.get?_of_state? empty
      have asked : ask (·.list id) w₁ = .ok (k, []) w₁ := ask_run (Arena.list_eq_ok_iff.2 empty)
      refine .after_ok ran (.after_ok asked (.after_ok (lookup_run found) ?_))
      refine (restoreItemsWith_concur safe (fun t member => below t (Snapshot.smaller_item member))
        sound₁ found state .nil).mono ?_
      rintro _ w₂ ⟨shown, seen, renderAll⟩
      exact ⟨.list k shown, seen, Sketch.rendersAll_iff.2 renderAll⟩
    | _ => cases shape

/-- Carries out calls that are nested at most so deep. Deeper ones are answered by `beyond`. -/
def restoreUpTo (beyond : Restorer S) : Nat → Restorer S
  | 0 => beyond
  | levels + 1 => restoreWith (restoreUpTo beyond levels)

/-- As many levels as the snapshot has are enough, and more of them make no difference. -/
theorem restoreUpTo_concur (beyond : Restorer S) {levels levels' : Nat} (enough : s.depth ≤ levels)
    (enough' : s.depth ≤ levels') : (restoreUpTo beyond levels).Concur (restoreWithin levels') s := by
  induction levels generalizing levels' s with
  | zero =>
    have := Sketch.depth_pos s
    omega
  | succ levels ih =>
    have := Sketch.depth_pos s
    obtain ⟨levels', rfl⟩ : ∃ n, levels' = n + 1 := ⟨levels' - 1, by omega⟩
    refine restoreWith_concur (restoreWithin_safe levels') fun t smaller => ?_
    have shallower := smaller.depth
    exact ih (by omega) (by omega)

theorem restoreWithin_eq (levels : Nat) : (restoreWithin levels : Restorer S) =
    restoreUpTo (fun _ _ => Action.refuse .unreadable) levels := by
  induction levels with
  | zero => rfl
  | succ levels ih =>
    funext id s
    rw [restoreWithin, restoreUpTo, ih]

theorem restore_concur {levels : Nat} (enough : s.depth ≤ levels) :
    Restorer.Concur (Workspace.restore : Restorer S) (restoreWithin levels) s := by
  have all := restoreUpTo_concur (S := S) (fun _ _ => Action.refuse .unreadable)
    (Nat.le_refl s.depth) enough
  rw [← restoreWithin_eq] at all
  exact all

/-- To restore a snapshot it is enough to be able to restore the smaller ones. -/
theorem restoreWith_eq_restore (sound : w.arena.Sound)
    (smaller : ∀ t : Snapshot, t.Smaller s → ∀ w' id', w'.arena.Sound →
      f id' t w' = Workspace.restore id' t w') :
    restoreWith f id s w = Workspace.restore id s w := by
  obtain ⟨levels, deep⟩ : ∃ n, s.depth = n + 1 := ⟨s.depth - 1, by have := Sketch.depth_pos s; omega⟩
  have below : ∀ t : Snapshot, t.Smaller s → f.Concur (restoreWithin levels) t := by
    intro t less w' id' sound'
    have shallower := less.depth
    have enough : t.depth ≤ levels := by omega
    exact .of_run (smaller t less w' id' sound') rfl (restore_concur enough w' id' sound')
  have same := (restoreWith_concur (restoreWithin_safe levels) below w id sound).same
  rw [same, Workspace.restore, deep]
  rfl

end Workspace

/-- The ways in which editors are brought into recorded states. -/
inductive Reconstruction (S : Signature) where
  | rebuild (s : Snapshot) (context : Context)
  | rebuildAs (c : ClassKey S) (s : Snapshot) (context : Context)
  | restore (id : Handle) (s : Snapshot)
  | restoreState (id : Handle) (state : Display Snapshot)

namespace Reconstruction

open Workspace

variable [Language S] {w : Workspace S} {f g restore : Restorer S}

def source : Reconstruction S → Snapshot
  | .rebuild s _ => s
  | .rebuildAs _ s _ => s
  | .restore _ s => s
  | .restoreState _ state => .ofExpander none state

def run : Reconstruction S → Editing S Handle
  | .rebuild s context => Workspace.rebuild s context
  | .rebuildAs c s context => Workspace.rebuildAs c s context
  | .restore id s => do
    Workspace.restore id s
    return id
  | .restoreState id state => do
    Workspace.restoreState id state
    return id

/-- The operations, given how the snapshots are restored that they ask for. -/
def runWith (restore : Restorer S) : Reconstruction S → Editing S Handle
  | .rebuild s context => rebuildWith restore s context
  | .rebuildAs c s context => rebuildAsWith restore c s context
  | .restore id s => do
    restore id s
    return id
  | .restoreState id state => do
    restoreStateWith restore id state
    return id

theorem run_eq (task : Reconstruction S) : task.run = task.runWith Workspace.restore := by
  cases task <;> rfl

/-- So many levels of calls are enough: whatever would answer a call that is nested deeper, the
end is the same. -/
def FinishesWithin (task : Reconstruction S) (levels : Nat) (w : Workspace S) : Prop :=
  ∀ beyond : Restorer S, task.runWith (restoreUpTo beyond levels) w = task.run w

theorem runWith_sound (safe : restore.Safe) (sound : w.arena.Sound) (task : Reconstruction S) :
    Action.Meets (task.runWith restore) w (fun _ w' => w'.arena.Sound) fun _ _ => True := by
  cases task with
  | rebuild s context =>
    exact (rebuildWith_meets safe sound).mono (fun _ _ ⟨_, built⟩ => built.sound)
      fun _ _ _ => trivial
  | rebuildAs c s context =>
    exact (rebuildAsWith_meets safe sound).mono (fun _ _ built => built.sound) fun _ _ _ => trivial
  | restore id s =>
    exact .bind ((safe w id s sound).mono (fun _ _ changed => .pure changed.sound)
      fun _ _ _ => trivial)
  | restoreState id state =>
    exact .bind ((restoreStateWith_meets safe sound state).mono
      (fun _ _ changed => .pure changed.sound) fun _ _ _ => trivial)

theorem runWith_concur (safe : g.Safe) (task : Reconstruction S)
    (below : ∀ t : Snapshot, t.NoLarger task.source → f.Concur g t) (sound : w.arena.Sound) :
    Action.Concur (task.runWith f) (task.runWith g) w
      fun id w' => w'.arena.Renders id task.source := by
  have whole := below task.source ⟨Nat.le_refl _, Nat.le_refl _⟩
  cases task with
  | rebuild s context => exact rebuildWith_concur context whole sound
  | rebuildAs c s context => exact rebuildAsWith_concur c context whole sound
  | restore id s => exact .bind ((whole w id sound).mono fun _ _ renders => .pure renders)
  | restoreState id state =>
    cases state with
    | text text item =>
      have displays : (Snapshot.ofExpander none (.text text item)).display? =
          some (.text text item) :=
        congrArg (fun item => some (Display.text text item)) (candidate?_of item)
      exact .bind ((restoreText_concur text item displays sound).mono
        fun _ _ renders => .pure renders)
    | expanded inner =>
      have smaller : inner.Smaller (.ofExpander none (.expanded inner)) :=
        Snapshot.smaller_content rfl
      have parts : ∀ t : Snapshot, t.NoLarger inner → f.Concur g t := fun t noLarger =>
        have less := noLarger.smaller smaller
        below t ⟨Nat.le_of_lt less.size, Nat.le_of_lt less.depth⟩
      exact .bind ((restoreContent_concur safe parts rfl sound).mono
        fun _ _ renders => .pure renders)

theorem finishesWithin (sound : w.arena.Sound) (task : Reconstruction S) {levels : Nat}
    (enough : task.source.depth ≤ levels) : task.FinishesWithin levels w := by
  intro beyond
  rw [run_eq]
  have shallow : ∀ t : Snapshot, t.NoLarger task.source → t.depth ≤ levels :=
    fun t noLarger => Nat.le_trans noLarger.depth enough
  have cut := task.runWith_concur (restoreWithin_safe levels) (fun t noLarger =>
    restoreUpTo_concur beyond (shallow t noLarger) (shallow t noLarger)) sound
  have whole := task.runWith_concur (f := Workspace.restore) (restoreWithin_safe levels)
    (fun t noLarger => restore_concur (shallow t noLarger)) sound
  exact cut.same.trans whole.same.symm

/-- What is read back of an editor that was brought into the state of a snapshot is no larger
than that snapshot. -/
theorem run_noLarger (sound : w.arena.Sound) (task : Reconstruction S) {id : Handle}
    {w' : Workspace S} (ran : task.run w = .ok id w') :
    ∃ t, w'.arena.snapshot id = .ok t ∧ t.NoLarger task.source := by
  rw [run_eq] at ran
  have known := (task.runWith_concur (f := Workspace.restore) restore_safe
    (fun t _ => restore_concur (Nat.le_refl t.depth)) sound).and
      (task.runWith_sound restore_safe sound)
  obtain ⟨⟨d, seen, renders⟩, sound'⟩ := known.meets.ok_of ran
  exact ⟨d.toSnapshot, Arena.snapshot_of_shows sound'.forest seen, renders.noLarger⟩

end Reconstruction

namespace Workspace

variable [Language S] {w : Workspace S}

/-- Reconstruction finishes, whatever snapshot it starts from and whichever contexts content goes
to. No call is nested deeper than the snapshot has levels. What was built is read back as a
snapshot that is no larger than the one it was built from, and so restoring a snapshot depends
on the restoring of smaller ones alone. -/
theorem reconstruction_finishes (reached : Reaches {} w) (task : Reconstruction S) :
    (∀ levels, task.source.depth ≤ levels → task.FinishesWithin levels w) ∧
    (∀ id w', task.run w = .ok id w' →
      ∃ t, w'.arena.snapshot id = .ok t ∧ t.NoLarger task.source) ∧
    ∀ (f : Restorer S) s v, v.arena.Sound → (∀ t : Snapshot, t.Smaller s → ∀ v' id, v'.arena.Sound →
      f id t v' = Workspace.restore id t v') →
      ∀ id, restoreWith f id s v = Workspace.restore id s v := by
  have sound := sound_of_reached reached
  exact ⟨fun _ enough => task.finishesWithin sound enough, fun _ _ ran => task.run_noLarger sound ran,
    fun _ _ _ sound' smaller _ => restoreWith_eq_restore sound' smaller⟩

section

open Sample

/-- The content of each hook is built, read back and built once more in a context of its own. -/
theorem hookPage_finishes : Reaches {} emptyHooks ∧
    (Language.expander (S := expression) ExpanderName.hook).contentScope = .fresh ∧
    (Reconstruction.restore ⟨0, 0⟩ hookPage.toSnapshot).FinishesWithin 3 emptyHooks ∧
    (∃ id w' t, (Reconstruction.restore ⟨0, 0⟩ hookPage.toSnapshot).run emptyHooks = .ok id w' ∧
      w'.arena.snapshot id = .ok t ∧ t.NoLarger hookPage.toSnapshot) ∧
    emptyHooks.arena.Sound ∧
    restoreWith (fun id t => if t.depth < 3 then Workspace.restore id t else
      Action.refuse .unreadable) ⟨0, 0⟩ hookPage.toSnapshot emptyHooks =
        Workspace.restore ⟨0, 0⟩ hookPage.toSnapshot emptyHooks := by
  have sound := sound_of_reached reaches_emptyHooks
  obtain ⟨finishes, readBack, smaller⟩ :=
    reconstruction_finishes reaches_emptyHooks (.restore ⟨0, 0⟩ hookPage.toSnapshot)
  refine ⟨reaches_emptyHooks, rfl, finishes 3 (Nat.le_refl 3), ?_, sound, ?_⟩
  · obtain ⟨w', ran, _⟩ := restore_restores hookPage_conforms emptyHooks ⟨0, 0⟩ _ _ sound rfl
      emptyHooks_shows ⟨nofun, trivial⟩ rfl emptyHooks_supplies
    have finished : (Reconstruction.restore ⟨0, 0⟩ hookPage.toSnapshot).run emptyHooks =
        .ok ⟨0, 0⟩ w' := Action.bind_run_ok _ ran
    obtain ⟨t, read, noLarger⟩ := readBack _ _ finished
    exact ⟨⟨0, 0⟩, w', t, finished, read, noLarger⟩
  · exact smaller _ _ _ sound (fun t less v id _ => by rw [if_pos (show t.depth < 3 from less.depth)]) _

end

end Workspace

end StructureEditor
