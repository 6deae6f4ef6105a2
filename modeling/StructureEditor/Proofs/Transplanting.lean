import StructureEditor.Proofs.Composing
import StructureEditor.Proofs.Grafting

/-! The basic operations as runs of single changes. What is built anew is built while all that was
there is fixed; an editor that is taken into another context leaves the others where they are, or
takes them with it. Nothing is assumed about the arena but that all children are where they
belong. -/
namespace StructureEditor

variable {S : Signature}

namespace Footings

variable {g : Footings S} {x c : Handle} {f : Footing S} {context : Context} {ids : List Handle}

def RootIn (g : Footings S) (context : Context) (x : Handle) : Prop :=
  ∃ f, g x = some f ∧ f.parent = none ∧ f.context = context

theorem fresh_of_kept {h : Footings S} (kept : ∀ y f, g y = some f → h y = some f)
    (fresh : h x = none) : g x = none := by
  cases was : g x with
  | none => rfl
  | some f => cases (kept x f was).symm.trans fresh

theorem unlisted_of_relist (linked : ∀ x f, g x = some f → ∀ c ∈ f.children,
    ∃ f', g c = some f' ∧ f'.parent = some x) (isLive : g x = some f) (listed : c ∈ f.children)
    (left : c ∉ ids) : (g.relist x ids).Unlisted c := by
  intro y f' found again
  rcases relist_cases isLive found with ⟨rfl, rfl⟩ | ⟨other, was⟩
  · exact left again
  · obtain ⟨f₁, found₁, parent₁⟩ := linked x f isLive c listed
    obtain ⟨f₂, found₂, parent₂⟩ := linked y f' was c again
    cases found₁.symm.trans found₂
    exact other (Option.some.inj (parent₂.symm.trans parent₁))

end Footings

namespace Workspace

variable [Language S] {fixed fixed' : Handle → Prop} {log₀ log log' : List (Filling S)}
  {w₀ w w' : Workspace S} {id : Handle} {editor : Editor S} {state : EditorState S} {α β : Type}

theorem Tidy.unfixed {x : Handle} (tidy : Tidy fixed log w) (dead : w.arena.footings x = none) :
    ¬ fixed x := by
  intro isFixed
  obtain ⟨f, isLive⟩ := tidy.live x isFixed
  cases dead.symm.trans isLive

theorem Tidy.fixing {more : Handle → Prop} (tidy : Tidy fixed log w)
    (roots : ∀ x, more x → ∃ f, w.arena.footings x = some f ∧ f.parent = none) :
    Tidy (fun x => fixed x ∨ more x) log w where
  exact := tidy.exact
  housed := tidy.housed
  live x isFixed := isFixed.elim (tidy.live x) fun new => (roots x new).imp fun _ root => root.1
  fenced x isFree f found c listed isFixed := by
    rcases isFixed with old | new
    · exact tidy.fenced x (fun old => isFree (.inl old)) f found c listed old
    · obtain ⟨f', root, isRoot⟩ := roots c new
      exact tidy.housed.unlisted_of_root root isRoot x f found listed

theorem Tidy.sealing (tidy : Tidy fixed log w) :
    Tidy (fun x => ∃ f, w.arena.footings x = some f) log w where
  exact := tidy.exact
  housed := tidy.housed
  live _ isLive := isLive
  fenced _ isFree f found := absurd ⟨f, found⟩ isFree

def Grafted (fixed : Handle → Prop) (log₀ : List (Filling S)) (w₀ w : Workspace S) : Prop :=
  ∃ log, Grafts fixed log₀ w₀ log w

/-- Steps lead to a workspace with this log, in which the editors stand as given. -/
def ComesTo (fixed : Handle → Prop) (log₀ : List (Filling S)) (w₀ : Workspace S)
    (log : List (Filling S)) (g : Footings S) (w : Workspace S) : Prop :=
  Grafts fixed log₀ w₀ log w ∧ w.arena.footings = g

theorem Grafts.grafted (run : Grafts fixed log₀ w₀ log w) : Grafted fixed log₀ w₀ w := ⟨log, run⟩

theorem Tidy.grafted (tidy : Tidy fixed log w) (run : Grafts fixed' log w log' w')
    (fewer : ∀ x, fixed x → fixed' x) : Grafted fixed log w w' :=
  ((Grafts.start tidy).trans run fewer).grafted

theorem Grafts.extend (run : Grafts fixed log₀ w₀ log w) (more : Grafted fixed log w w') :
    Grafted fixed log₀ w₀ w' := by
  obtain ⟨log', run'⟩ := more
  exact (run.trans run' fun _ isFixed => isFixed).grafted

theorem sustains_grafted {action : Editing S α}
    (ends : ∀ log w, Grafts fixed log₀ w₀ log w → Ensures action w (Grafted fixed log₀ w₀)) :
    Sustains (Grafted fixed log₀ w₀) action := by
  rintro w ⟨log, run⟩
  exact ends log w run

theorem comesTo_idle {g : Footings S} : Idle (ComesTo fixed log₀ w₀ log g) := by
  rintro w w' arena contexts ⟨run, same⟩
  rw [← arena] at same
  exact ⟨run.step (.still (by rw [arena]) (arena ▸ run.tidy.exact) (contexts ▸ .refl _)), same⟩

theorem grafted_idle : Idle (Grafted fixed log₀ w₀) := by
  rintro w w' arena contexts ⟨log, run⟩
  exact (comesTo_idle w w' arena contexts ⟨run, rfl⟩).1.grafted

theorem Grafts.modify {f : Editor S → Editor S} (run : Grafts fixed log₀ w₀ log w)
    (same : ∀ e, (f e).footing = e.footing) :
    Grafts fixed log₀ w₀ log { w with arena := w.arena.modify id f } :=
  run.step (.still (Arena.footings_modify same) (Arena.exact_modify run.tidy.exact id f) (.refl _))

theorem ComesTo.settle {g : Footings S} (comes : ComesTo fixed log₀ w₀ log g w) (id : Handle)
    (result : Outcome S.Value) :
    ComesTo fixed log₀ w₀ log g { w with arena := w.arena.setResult id result } :=
  ⟨comes.1.modify (f := fun e => { e with result }) fun _ => rfl,
    (Arena.footings_modify (f := fun e => { e with result }) fun _ => rfl).trans comes.2⟩

theorem recompute_comesTo {g : Footings S} (id : Handle) :
    Sustains (ComesTo fixed log₀ w₀ log g) (recompute id) :=
  .recompute comesTo_idle (fun _ id result comes => comes.settle id result) id

theorem recompute_grafts (id : Handle) : Sustains (Grafted fixed log₀ w₀) (recompute id) :=
  .recompute grafted_idle
    (fun _ id result ⟨_, run⟩ => (ComesTo.settle ⟨run, rfl⟩ id result).1.grafted) id

theorem finish_comesTo {g : Footings S} (id : Handle) (notice : Notice S) :
    Sustains (ComesTo fixed log₀ w₀ log g) (do recompute id; tell id notice) :=
  .bind (recompute_comesTo id) fun _ => .tell comesTo_idle id notice

theorem Grafts.scope (run : Grafts fixed log₀ w₀ log w) (k : S.ExpanderClass) (own : Context) :
    Grafts fixed log₀ w₀ log { w with contexts := (w.scopeFor k own).2 } := by
  have step : Graft fixed w₀.contexts log w log { w with contexts := (w.scopeFor k own).2 } :=
    .still rfl run.tidy.exact (grown_scopeFor w k own)
  exact run.step step

theorem contentScope_grafts (id : Handle) : Sustains (Grafted fixed log₀ w₀) (contentScope id) := by
  rintro w ⟨log, run⟩
  refine (contentScope_meets w).mono ?_ fun _ _ same => same ▸ run.grafted
  rintro scope _ ⟨editor, _, _, _, _, rfl⟩
  exact (run.scope scope.1 editor.context).grafted

theorem Grafts.restate (run : Grafts fixed log₀ w₀ log w) (state : EditorState S)
    (found : w.arena.get? id = some editor)
    (sameClass : state.classKey = editor.state.classKey)
    (fewer : state.children.Sublist editor.state.children) :
    Grafts fixed log₀ w₀ log { w with arena := w.arena.setState id state } :=
  run.step (.cut (Arena.exact_modify run.tidy.exact id _) (Arena.footings_of_get? found) fewer
    (Arena.footings_setState state found sameClass))

theorem writeToken_grafts (id : Handle) (text : String) (item : Option Candidate)
    (undoable : Bool) : Sustains (Grafted fixed log₀ w₀) (writeToken id text item undoable) := by
  refine sustains_grafted fun log w run => .ask run.grafted fun old answered => ?_
  obtain ⟨editor, found, state⟩ := Arena.get?_of_state? (Arena.token_eq_ok_iff.1 answered)
  have written := run.restate (.token old.1 text item) found (by rw [state]; rfl)
    (List.nil_sublist _)
  have shown : Sustains (Grafted fixed log₀ w₀) (do
      tell id (.displayText text)
      recompute id) :=
    .bind (.tell grafted_idle id _) fun _ => recompute_grafts id
  refine .after_ok (setState_run found) ?_
  dsimp only
  split
  · exact Sustains.bind (.recordIfActive grafted_idle id (.bind (.ask _) fun _ => .pure _))
      (fun _ => shown) _ written.grafted
  · exact shown _ written.grafted

theorem showText_grafts (id : Handle) (text : String) (item : Option Candidate) :
    Sustains (Grafted fixed log₀ w₀) (showText id text item) := by
  refine sustains_grafted fun log w run => .ask run.grafted fun old answered => ?_
  obtain ⟨editor, found, state⟩ := Arena.get?_of_state? (Arena.expander_eq_ok_iff.1 answered)
  have written := run.restate (.expander old.1 (.text text item)) found (by rw [state]; rfl)
    (List.nil_sublist _)
  exact .after_ok (setState_run found) (Sustains.bind (.tell grafted_idle id _)
    (fun _ => recompute_grafts id) _ written.grafted)

theorem Grafts.discard (run : Grafts fixed log₀ w₀ log w) (isFree : ¬ fixed id)
    (unlisted : w.arena.footings.Unlisted id) :
    Grafts fixed log₀ w₀ log { w with arena := w.arena.dispose id } :=
  run.step (.free isFree unlisted)

theorem Grafts.drop {c : Handle} (run : Grafts fixed log₀ w₀ log w) (state : EditorState S)
    (free : w.arena.footings.FreeBelow fixed id) (found : w.arena.get? id = some editor)
    (sameClass : state.classKey = editor.state.classKey)
    (fewer : state.children.Sublist editor.state.children) (listed : c ∈ editor.state.children)
    (left : c ∉ state.children) : Grafts fixed log₀ w₀ log
      { w with arena := (w.arena.setState id state).dispose c } := by
  have isLive := Arena.footings_of_get? found
  have cut := run.restate state found sameClass fewer
  refine cut.discard (free _ isLive c listed) ?_
  dsimp only
  rw [Arena.footings_setState state found sameClass]
  exact Footings.unlisted_of_relist run.tidy.housed.linked isLive listed left

theorem dropContent_grafts (free : w₀.arena.footings.FreeBelow fixed id) :
    Sustains (Grafted fixed log₀ w₀) (dropContent id) := by
  refine sustains_grafted fun log w run => .ask run.grafted fun held answered => ?_
  obtain ⟨k, display⟩ := held
  obtain ⟨editor, found, state⟩ := Arena.get?_of_state? (Arena.expander_eq_ok_iff.1 answered)
  cases display with
  | text text item => exact .fault run.grafted
  | expanded content =>
    have dropped := run.drop (c := content) (.expander k .initial) (run.freeBelow free) found
      (by rw [state]; rfl) (List.nil_sublist _) (by rw [state]; exact List.mem_cons_self)
      List.not_mem_nil
    obtain ⟨journal, remarked⟩ := remark_run ((Language.expander k).remarkOnReset id content
      ((w.arena.setState id (.expander k .initial)).contains content))
      { w with arena := w.arena.setState id (.expander k .initial) }
    refine .after_ok (setState_run found) (.after_ok (Action.get_run _) (.after_ok remarked
      (.after_ok (dispose_run content _) ?_)))
    exact Sustains.bind (recompute_grafts id) (fun _ => .tell grafted_idle id _) _
      (grafted_idle { w with arena := _ } _ rfl rfl dropped.grafted)

theorem dropItem_grafts {list : Handle} (free : w₀.arena.footings.FreeBelow fixed list)
    (index : Nat) : Sustains (Grafted fixed log₀ w₀) (dropItem list index) := by
  refine sustains_grafted fun log w run => (reads_itemAt list index w).then run.grafted
    fun item ran => .ask run.grafted fun held answered => ?_
  obtain ⟨k, ids⟩ := held
  obtain ⟨k', ids', state', listed⟩ := itemAt_ok ran
  cases (Arena.list_eq_ok_iff.1 answered).symm.trans state'
  obtain ⟨editor, found, state⟩ := Arena.get?_of_state? state'
  obtain ⟨inside, same⟩ := List.getElem?_eq_some_iff.1 listed
  have distinct : ids.Nodup := by
    have nodup := run.tidy.housed.distinct list _ k (Arena.footings_of_get? found)
      (by rw [Editor.footing, state]; rfl)
    rwa [Editor.footing, state] at nodup
  have dropped := run.drop (c := item) (.list k (ids.eraseIdx index)) (run.freeBelow free)
    found (by rw [state]; rfl) (by rw [state]; exact List.eraseIdx_sublist ids index)
    (by rw [state, ← same]; exact List.getElem_mem inside) (by
      rw [← same]
      exact (List.nodup_cons.1 ((List.getElem_cons_eraseIdx_perm inside).nodup_iff.2 distinct)).1)
  exact .after_ok (setState_run found) (.after_ok (dispose_run item _) (Sustains.bind
    (recompute_grafts list) (fun _ => .tell grafted_idle list _) _ dropped.grafted))

theorem Grafts.attach {list item : Handle} {k : S.ListClass} {old ids : List Handle}
    (run : Grafts fixed log₀ w₀ log w) (isFree : ¬ fixed item)
    (found : w.arena.get? list = some editor) (held : editor.state = .list k old)
    (root : w.arena.footings.RootIn editor.context item) (order : ids.Perm (item :: old)) :
    Grafts fixed log₀ w₀ log
        { w with arena := (w.arena.setState list (.list k ids)).setParent (some list) item } ∧
      ∃ f, ((w.arena.setState list (.list k ids)).setParent (some list) item).footings list =
        some f ∧ f.context = editor.context := by
  obtain ⟨f', isItem, isRoot, sameContext⟩ := root
  have isLive := Arena.footings_of_get? found
  have isList : editor.footing.key = .list k := by
    rw [Editor.footing, held]
    rfl
  have children : editor.footing.children = old := by
    rw [Editor.footing, held]
    rfl
  have unlisted := run.tidy.housed.unlisted_of_root isItem isRoot list _ isLive
  have distinct := run.tidy.housed.distinct list _ k isLive isList
  rw [children] at unlisted distinct
  -- it makes no difference that the item gets its parent last
  have claimed := run.step (.claim (Arena.exact_modify run.tidy.exact item _) isFree isItem isRoot
    (Arena.footings_setParent w.arena (some list) item))
  obtain ⟨f, here, context, key, below⟩ := Footings.reparent_some item (some list) isLive
  rw [← Arena.footings_setParent] at here
  have there := Footings.reparent_self (some list) isItem
  rw [← Arena.footings_setParent] at there
  have same : ((w.arena.setState list (.list k ids)).setParent (some list) item).footings =
      (w.arena.setParent (some list) item).footings.relist list ids := by
    rw [Arena.footings_setParent, Arena.footings_setState _ found (by rw [held]; rfl),
      Footings.reparent_relist, Arena.footings_setParent]
    rfl
  have exact := Arena.exact_modify (Arena.exact_modify run.tidy.exact list
    fun e => { e with state := .list k ids }) item fun e => { e with parent := some list }
  refine ⟨claimed.step (.join exact isFree here (key.trans isList) there rfl
    (sameContext.trans context.symm) (order.nodup_iff.2 (List.nodup_cons.2 ⟨unlisted, distinct⟩))
    (fun d listed => ?_) same), ?_⟩
  · rw [below, children]
    exact List.mem_cons.1 (order.subset listed)
  · rw [same]
    exact ⟨_, Footings.relist_self here, context⟩

theorem attachItem_grafts {list item : Handle} {context : Context} (index : Nat)
    (run : Grafts fixed log₀ w₀ log w) (isFree : ¬ fixed item)
    (home : ∀ f, w.arena.footings list = some f → f.context = context)
    (root : w.arena.footings.RootIn context item) :
    Action.Meets (attachItem list index item) w
      (fun _ w' => Grafted fixed log₀ w₀ w' ∧
        ∃ f, w'.arena.footings list = some f ∧ f.context = context)
      fun _ w' => Grafted fixed log₀ w₀ w' := by
  obtain ⟨k, ids, held, inside, ran⟩ | ⟨error, ran⟩ := checkGap_cases list index w
  · obtain ⟨editor, found, state⟩ := Arena.get?_of_state? held
    obtain rfl := home _ (Arena.footings_of_get? found)
    obtain ⟨f', isItem, isRoot, sameContext⟩ := root
    obtain ⟨attached, f, here, context⟩ := run.attach isFree found state
      ⟨f', isItem, isRoot, sameContext⟩ (List.perm_insertIdx item ids inside)
    have relisted : (w.arena.setState list (.list k (ids.insertIdx index item))).footings =
        w.arena.footings.relist list (ids.insertIdx index item) :=
      Arena.footings_setState _ found (by rw [state]; rfl)
    obtain ⟨f₁, there, _⟩ := Footings.relist_some list _ isItem
    rw [← relisted] at there
    obtain ⟨child, isLive, _⟩ := Arena.get?_of_footings there
    refine .after_ok ran (.after_ok (ask_run (Arena.list_eq_ok_iff.2 held))
      (.after_ok (setState_run found) (.after_ok (setParent_run isLive) ?_)))
    refine (finish_comesTo list _ _ ⟨attached, rfl⟩).mono ?_ fun _ _ comes => comes.1.grafted
    rintro _ w₁ ⟨run₁, same⟩
    exact ⟨run₁.grafted, f, same ▸ here, context⟩
  · exact .of_error (Action.bind_run_error _ ran) run.grafted

/-- A new root was made in a context, and all that was there stays where it was. -/
structure Sprouts (g h : Footings S) (context : Context) (x : Handle) : Prop where
  fresh : g x = none
  root : h.RootIn context x
  kept : ∀ y f, g y = some f → h y = some f

theorem Grafts.insert {context : Context} (run : Grafts fixed log₀ w₀ log w) (state : EditorState S)
    (leaf : (∃ k, state.classKey = .compound k) ∨ state.children = [])
    (kids : ∀ c ∈ state.children, ¬ fixed c ∧ w.arena.footings.RootIn context c) :
    Grafts fixed log₀ w₀ log { w with arena := (w.arena.insert context state).2 } ∧
      w.arena.footings (w.arena.insert context state).1 = none ∧
      (w.arena.insert context state).2.footings = w.arena.footings.plant
        (w.arena.insert context state).1 ⟨context, none, state.classKey, state.children⟩ := by
  obtain ⟨fresh, exact, planted⟩ := Arena.insert_plants run.tidy.exact context state fun c listed =>
    (kids c listed).2.imp fun _ root => root.1
  exact ⟨run.step (.plant exact fresh rfl leaf kids planted), fresh, planted⟩

theorem Grafts.sprout {context : Context} (run : Grafts fixed log₀ w₀ log w) (state : EditorState S)
    (leaf : (∃ k, state.classKey = .compound k) ∨ state.children = [])
    (kids : ∀ c ∈ state.children, ¬ fixed c ∧ w.arena.footings.RootIn context c)
    {g : Footings S} (kept : ∀ y f, g y = some f → w.arena.footings y = some f)
    (dead : ∀ c ∈ state.children, g c = none) :
    Grafts fixed log₀ w₀ log { w with arena := (w.arena.insert context state).2 } ∧
      Sprouts g (w.arena.insert context state).2.footings context
        (w.arena.insert context state).1 := by
  obtain ⟨inserted, fresh, planted⟩ := run.insert state leaf kids
  have isNew := Footings.fresh_of_kept kept fresh
  refine ⟨inserted, isNew, ?_, fun y f found => ?_⟩
  · rw [planted]
    exact ⟨_, Footings.plant_self, rfl, rfl⟩
  · rw [planted, Footings.plant_of_ne, kept y f found]
    · rintro rfl
      cases isNew.symm.trans found
    · intro listed
      cases (dead y listed).symm.trans found

theorem Grafts.leaf (run : Grafts fixed log₀ w₀ log w) (context : Context) (state : EditorState S)
    (none : state.children = []) :
    Grafts fixed log₀ w₀ log { w with arena := (w.arena.insert context state).2 } ∧
      Sprouts w.arena.footings (w.arena.insert context state).2.footings context
        (w.arena.insert context state).1 :=
  run.sprout state (.inr none) (by simp [none]) (fun _ _ found => found) (by simp [none])

theorem mapM_sprouts {context : Context} {create : ClassKey S → StateM (Arena S) Handle}
    {cs : List (ClassKey S)} (each : ∀ c ∈ cs, ∀ w : Workspace S, Grafts fixed log₀ w₀ log w →
      Grafts fixed log₀ w₀ log { w with arena := ((create c).run w.arena).2 } ∧
        Sprouts w.arena.footings ((create c).run w.arena).2.footings context
          ((create c).run w.arena).1)
    (run : Grafts fixed log₀ w₀ log w) :
    Grafts fixed log₀ w₀ log { w with arena := ((cs.mapM create).run w.arena).2 } ∧
      (∀ x ∈ ((cs.mapM create).run w.arena).1,
        Sprouts w.arena.footings ((cs.mapM create).run w.arena).2.footings context x) ∧
      ∀ y f, w.arena.footings y = some f →
        ((cs.mapM create).run w.arena).2.footings y = some f := by
  induction cs generalizing w with
  | nil => exact ⟨run, fun _ listed => absurd listed List.not_mem_nil, fun _ _ found => found⟩
  | cons c cs ih =>
    obtain ⟨run₁, first⟩ := each c (by simp) w run
    obtain ⟨run₂, others, kept⟩ := ih (fun d member => each d (List.mem_cons_of_mem c member)) run₁
    rw [List.mapM_cons]
    refine ⟨run₂, fun x listed => ?_, fun y f found => kept y f (first.kept y f found)⟩
    rcases List.mem_cons.1 listed with rfl | later
    · obtain ⟨f, root, isRoot⟩ := first.root
      exact ⟨first.fresh, ⟨f, kept _ f root, isRoot⟩,
        fun y f found => kept y f (first.kept y f found)⟩
    · have sprouts := others x later
      exact ⟨Footings.fresh_of_kept first.kept sprouts.fresh, sprouts.root,
        fun y f found => sprouts.kept y f (first.kept y f found)⟩

theorem create_sprouts (c : ClassKey S) (context : Context) (run : Grafts fixed log₀ w₀ log w) :
    ∃ x a, create c context w = .ok x { w with arena := a } ∧
      Grafts fixed log₀ w₀ log { w with arena := a } ∧
      Sprouts w.arena.footings a.footings context x := by
  refine ⟨_, _, create_run c context w, ?_⟩
  induction c using ClassKey.induct generalizing w with
  | token k =>
    rw [Arena.create_token_eq]
    exact run.leaf context _ rfl
  | expander k =>
    rw [Arena.create_expander_eq]
    exact run.leaf context _ rfl
  | list k =>
    rw [Arena.create_list_eq]
    exact run.leaf context _ rfl
  | compound k ih =>
    obtain ⟨run₁, made, kept⟩ := mapM_sprouts (fun c member w run => ih c member run) run
    rw [Arena.create_compound_eq]
    exact run₁.sprout (.compound k _) (.inl ⟨k, rfl⟩)
      (fun c listed => ⟨run.tidy.unfixed (made c listed).fresh, (made c listed).root⟩) kept
      fun c listed => (made c listed).fresh

theorem create_grafts (c : ClassKey S) (context : Context) :
    Sustains (Grafted fixed log₀ w₀) (create c context) := by
  refine sustains_grafted fun _ _ run => ?_
  obtain ⟨_, _, ran, made, _⟩ := create_sprouts c context run
  exact .of_ok ran made.grafted

theorem insert_leaf_grafts (context : Context) (none : state.children = []) :
    Sustains (Grafted fixed log₀ w₀) (insert context state) :=
  sustains_grafted fun _ _ run => .of_ok rfl (run.leaf context _ none).1.grafted

/-- Restoring smaller snapshots is a run, provided that nothing below the editor is fixed. -/
def Restorer.Grafting (restore : Restorer S) : Prop :=
  ∀ (fixed : Handle → Prop) (log₀ : List (Filling S)) (w₀ : Workspace S) id s,
    w₀.arena.footings.FreeBelow fixed id → Sustains (Grafted fixed log₀ w₀) (restore id s)

variable {restore : Restorer S} {context : Context} {c : ClassKey S} {s : Snapshot}

theorem orDispose_grafts {action : Editing S Unit} {x : Handle} {f : Footing S}
    (run : Grafts fixed log₀ w₀ log w) (isFree : ¬ fixed x) (isNew : w.arena.footings x = some f)
    (isRoot : f.parent = none)
    (sustains : Sustains (Grafted (fun y => fixed y ∨ y = x) log w) action) :
    Action.Meets (orDispose x action) w
      (fun y w' => y = x ∧ (∃ log, Grafts fixed log₀ w₀ log w') ∧
        ∃ f', w'.arena.footings x = some f' ∧ f.Stays f')
      fun _ w' => Grafted fixed log₀ w₀ w' := by
  have guarded : Tidy (fun y => fixed y ∨ y = x) log w :=
    run.tidy.fixing fun y same => ⟨f, same ▸ isNew, isRoot⟩
  refine .bind (.attempt ((sustains w (Grafts.start guarded).grafted).mono ?_ ?_))
  · rintro _ w' ⟨log', run'⟩
    exact .pure ⟨rfl, ⟨log', run.trans run' fun _ => .inl⟩, run'.frame (.inr rfl) isNew⟩
  · rintro stop w' ⟨log', run'⟩
    have whole := run.trans run' fun _ => .inl
    cases stop with
    | refused error =>
      obtain ⟨f', root, stays⟩ := run'.frame (.inr rfl) isNew
      exact .after_ok (dispose_run x w') (.refuse (whole.discard isFree
        (run'.tidy.housed.unlisted_of_root root (stays.parent.trans isRoot))).grafted)
    | fault fault => exact whole.grafted

/-- A root was built in a context, and all that was there stays where it was. -/
structure Rebuilt (fixed : Handle → Prop) (log : List (Filling S)) (w : Workspace S)
    (context : Context) (x : Handle) (w' : Workspace S) : Prop where
  grafted : Grafted fixed log w w'
  fresh : w.arena.footings x = none
  root : w'.arena.footings.RootIn context x
  stays : ∀ y f, w.arena.footings y = some f → ∃ f', w'.arena.footings y = some f' ∧ f.Stays f'

theorem rebuildAsWith_grafts (below : restore.Grafting) (tidy : Tidy fixed log w) :
    Action.Meets (rebuildAsWith restore c s context) w (Rebuilt fixed log w context)
      fun _ w' => Grafted fixed log w w' := by
  obtain ⟨x, a, ran, made, sprouts⟩ := create_sprouts c context (.start tidy.sealing)
  obtain ⟨f, isNew, isRoot, sameContext⟩ := sprouts.root
  have dead : ¬ ∃ f, w.arena.footings x = some f := by
    rintro ⟨f, found⟩
    cases sprouts.fresh.symm.trans found
  have free : a.footings.FreeBelow (fun y => (∃ f, w.arena.footings y = some f) ∨ y = x) x := by
    rintro f' found y listed (old | rfl)
    · exact made.tidy.fenced x dead f' found y listed old
    · exact made.tidy.housed.unlisted_of_root isNew isRoot y f' found listed
  refine .after_ok ran ((orDispose_grafts made dead isNew isRoot
    (.unrecorded grafted_idle context (below _ _ _ x s free))).mono ?_ ?_)
  · rintro _ w' ⟨rfl, ⟨log', run⟩, f', root, stays⟩
    exact ⟨tidy.grafted run tidy.live, sprouts.fresh, ⟨f', root, stays.parent.trans isRoot,
      stays.context.trans sameContext⟩, fun y f found => run.frame ⟨f, found⟩ found⟩
  · rintro _ w' ⟨log', run⟩
    exact tidy.grafted run tidy.live

theorem rebuildWith_grafts (below : restore.Grafting) (tidy : Tidy fixed log w) :
    Action.Meets (rebuildWith restore s context) w (Rebuilt fixed log w context)
      fun _ w' => Grafted fixed log w w' := by
  have start := (Grafts.start tidy).grafted
  unfold rebuildWith
  split
  · exact .refuse start
  · refine .bind (.ask ?_ fun _ _ => start)
    intro registry _
    cases registry.lookup _ with
    | error error => exact start
    | ok c => exact rebuildAsWith_grafts below tidy

/-- A root was taken into a context. All others stay where they were or are gone with it, and roots
of the context stay. -/
structure Moved (fixed : Handle → Prop) (log : List (Filling S)) (w : Workspace S) (id : Handle)
    (context : Context) (m : Handle) (w' : Workspace S) : Prop where
  grafted : Grafted fixed log w w'
  isFree : ¬ fixed m
  root : ∀ f, w.arena.footings id = some f → f.parent = none → w'.arena.footings.RootIn context m
  stays : ∀ y f, w.arena.footings y = some f →
    w'.arena.footings y = none ∨ ∃ f', w'.arena.footings y = some f' ∧ f.Stays f'
  roots : ∀ y, w.arena.footings.RootIn context y → w'.arena.footings.RootIn context y

theorem Rebuilt.replace {m : Handle} {f : Footing S} (rebuilt : Rebuilt fixed log w context m w')
    (tidy : Tidy fixed log w) (isFree : ¬ fixed id) (found : w.arena.footings id = some f)
    (isRoot : f.parent = none) (elsewhere : f.context ≠ context) :
    Moved fixed log w id context m { w' with arena := w'.arena.dispose id } := by
  obtain ⟨⟨log', run⟩, fresh, root, stays⟩ := rebuilt
  obtain ⟨f', old, oldStays⟩ := stays id _ found
  have unlisted := run.tidy.housed.unlisted_of_root old (oldStays.parent.trans isRoot)
  -- other roots are not below the one that goes
  have spared : ∀ y, w'.arena.footings.RootIn context y →
      (w'.arena.dispose id).footings.RootIn context y := by
    intro y rootIn
    obtain ⟨f₁, isLive, both⟩ := rootIn
    refine ⟨f₁, (Arena.dispose_spares (N := fun z => ¬ w'.arena.footings.RootIn context z) ?_ ?_
      (not_not_intro ⟨f₁, isLive, both⟩)).trans isLive, both⟩
    · rintro z f₂ foundZ - d listed ⟨f₃, isLive, isRoot, -⟩
      exact run.tidy.housed.unlisted_of_root isLive isRoot z f₂ foundZ listed
    · rintro ⟨f₂, isLive, -, here⟩
      cases old.symm.trans isLive
      exact elsewhere (oldStays.context.symm.trans here)
  refine ⟨(run.discard isFree unlisted).grafted, tidy.unfixed fresh, fun _ _ _ => spared m root,
    fun y f found => ?_, fun y rootIn => spared y ?_⟩
  · obtain ⟨f₁, found', stays'⟩ := stays y f found
    rcases Arena.dispose_keeps w'.arena id y with same | gone
    · exact .inr ⟨f₁, same.trans found', stays'⟩
    · exact .inl gone
  · obtain ⟨f, found, isRoot, sameContext⟩ := rootIn
    obtain ⟨f₁, found', stays'⟩ := stays y f found
    exact ⟨f₁, found', stays'.parent.trans isRoot, stays'.context.trans sameContext⟩

theorem relocateWith_grafts (below : restore.Grafting) (tidy : Tidy fixed log w)
    (isFree : ¬ fixed id) :
    Action.Meets (relocateWith restore id context) w (Moved fixed log w id context)
      fun _ w' => Grafted fixed log w w' := by
  have start := (Grafts.start tidy).grafted
  refine .bind (.ask (fun editor answered => ?_) fun _ _ => start)
  have found := Arena.footings_of_get? (Arena.get_eq_ok_iff.1 answered)
  split
  · next same =>
    refine .pure ⟨start, isFree, fun f found' isRoot => ⟨f, found', isRoot, ?_⟩,
      fun _ f found' => .inr ⟨f, found', .refl f⟩, fun _ root => root⟩
    cases found.symm.trans found'
    exact same
  · next elsewhere =>
    cases attached : editor.parent with
    | some p => exact .refuse start
    | none =>
      refine .bind (.ask (fun s _ => ?_) fun _ _ => start)
      refine .bind ((rebuildAsWith_grafts below tidy).mono ?_ fun _ _ grafted => grafted)
      intro m w' rebuilt
      exact .after_ok (dispose_run id w')
        (.pure (rebuilt.replace tidy isFree found attached elsewhere))

theorem scopeFor_context (w : Workspace S) (k : S.ExpanderClass) (own : Context) :
    (w.scopeFor k own).1 = (Language.expander k).contentScope.context w.contexts own := by
  unfold scopeFor
  cases (Language.expander k).contentScope <;> rfl

theorem hang_grafts {k : S.ExpanderClass} {content : Handle} {own : Context}
    {services : Contexts (Services S)} (run : Grafts fixed log₀ w₀ log w) (isFree : ¬ fixed content)
    (after : w₀.contexts.Grown services) (before : services.Grown w.contexts)
    (root : w.arena.footings.RootIn ((Language.expander k).contentScope.context services own)
      content)
    (here : ∀ f, w.arena.footings id = some f → f.key = .expander k ∧ f.context = own) :
    Ensures (hang k id content) w (Grafted fixed log₀ w₀) := by
  obtain ⟨f', isContent, isRoot, scope⟩ := root
  obtain ⟨child, contentFound, _⟩ := Arena.get?_of_footings isContent
  have claimed := run.step (.claim (Arena.exact_modify run.tidy.exact content _) isFree isContent
    isRoot (Arena.footings_setParent w.arena (some id) content))
  refine .after_ok (setParent_run contentFound) ?_
  cases found : (w.arena.setParent (some id) content).get? id with
  | none =>
    have stale : setState id (.expander k (.expanded content))
        { w with arena := w.arena.setParent (some id) content } = .error _ _ :=
      Action.bind_run_error _ (lookup_stale found)
    exact .of_error (Action.bind_run_error _ stale) claimed.grafted
  | some editor =>
    have isLive := Arena.footings_of_get? found
    have there := Footings.reparent_self (some id) isContent
    rw [Arena.footings_setParent] at isLive
    obtain ⟨f, was, context, key, _⟩ := Footings.of_reparent isLive
    obtain ⟨isExpander, sameContext⟩ := here f was
    rw [← Arena.footings_setParent] at there isLive
    have filled := claimed.step (.fill (Arena.exact_modify claimed.tidy.exact id _) isFree isLive
      (key.trans isExpander) there rfl (by rw [context, sameContext]; exact scope) after before
      (Arena.footings_setState (.expander k (.expanded content)) found
        (isExpander.symm.trans key.symm)))
    refine .after_ok (setState_run found) (Sustains.bind (recompute_grafts id) (fun _ =>
      .bind (.tell grafted_idle id _) fun _ => .bind .get fun _ =>
        .bind (.remark grafted_idle _) fun _ => .pure content) _ filled.grafted)

theorem fillWith_grafts {source : Handle} (below : restore.Grafting) (tidy : Tidy fixed log w)
    (isFree : source ≠ id → ¬ fixed source) :
    Ensures (fillWith restore id source) w (Grafted fixed log w) := by
  have start := Grafts.start tidy
  refine fillWith_rule (fun _ _ _ (different : source ≠ id) => different)
    (fun _ => start.grafted) fun {k old text item e} found state isLive free different => ?_
  have ready := start.scope k old.context
  refine (relocateWith_grafts below ready.tidy (isFree different)).mono ?_
    fun _ _ => ready.extend
  rintro content w' ⟨⟨log', run⟩, isFree', root, stays, -⟩
  have whole := ready.trans run fun _ isFixed => isFixed
  refine hang_grafts whole isFree' (.refl _) whole.grown
    (scopeFor_context w k old.context ▸ root _ (Arena.footings_of_get? isLive) free) fun f here => ?_
  rcases stays id _ (Arena.footings_of_get? found) with gone | ⟨f', here', stays'⟩
  · cases gone.symm.trans here
  · cases here.symm.trans here'
    refine ⟨stays'.key.trans ?_, stays'.context⟩
    rw [Editor.footing, state]
    rfl

theorem clear_grafts (free : w₀.arena.footings.FreeBelow fixed id) :
    Sustains (Grafted fixed log₀ w₀) (clear id) := by
  refine .bind (.ask _) fun expanded => ?_
  split
  · exact dropContent_grafts free
  · exact .pure ()

theorem restoreStateWith_grafts (below : restore.Grafting)
    (free : w₀.arena.footings.FreeBelow fixed id) (state : Display Snapshot) :
    Sustains (Grafted fixed log₀ w₀) (restoreStateWith restore id state) := by
  cases state with
  | text text item =>
    rw [restoreStateWith_text]
    exact .bind (clear_grafts free) fun _ => showText_grafts id text item
  | expanded s =>
    rw [restoreStateWith_expanded]
    refine .bind (contentScope_grafts id) fun scope => sustains_grafted fun log w run => ?_
    refine .bind ((rebuildWith_grafts below run.tidy).mono ?_ fun _ _ => run.extend)
    intro content w₁ rebuilt
    have isFree := run.tidy.unfixed rebuilt.fresh
    refine Sustains.bind (clear_grafts free) (fun _ => .bind (sustains_grafted fun _ _ run => ?_)
      fun _ => .pure ()) _ (run.extend rebuilt.grafted)
    exact (fillWith_grafts below run.tidy fun _ => isFree).mono (fun _ _ => run.extend)
      fun _ _ => run.extend

theorem restoreItemsWith_grafts {list : Handle} (below : restore.Grafting) (element : ClassKey S)
    (index : Nat) (items : List Snapshot) (run : Grafts fixed log₀ w₀ log w)
    (home : ∃ f, w.arena.footings list = some f ∧ f.context = context) :
    Ensures (restoreItemsWith restore list element context index items) w
      (Grafted fixed log₀ w₀) := by
  induction items generalizing index w log with
  | nil => exact .pure run.grafted
  | cons s rest ih =>
    refine .bind ((rebuildAsWith_grafts below run.tidy).mono ?_ fun _ _ => run.extend)
    intro item w₁ rebuilt
    obtain ⟨log₁, run₁⟩ := run.extend rebuilt.grafted
    obtain ⟨f, isLive, rfl⟩ := home
    obtain ⟨f', isLive', stays⟩ := rebuilt.stays list f isLive
    refine .bind ((attachItem_grafts index run₁ (run.tidy.unfixed rebuilt.fresh) ?_
      rebuilt.root).mono ?_ fun _ _ grafted => grafted)
    · intro f₁ found
      cases isLive'.symm.trans found
      exact stays.context
    · rintro _ w₂ ⟨⟨log₂, run₂⟩, home⟩
      exact ih (index + 1) run₂ home

theorem restoreWith_grafts (below : restore.Grafting) :
    Restorer.Grafting (restoreWith restore) := by
  intro fixed log₀ w₀ id s free
  refine .bind (.ask _) fun shape => .perhaps (.refuse _) ?_
  cases s with
  | token name text itemClass item => exact writeToken_grafts id text _ false
  | expander name content text itemClass item =>
    dsimp only
    split
    · exact restoreStateWith_grafts below free _
    · exact .pure ()
  | compound name components =>
    refine sustains_grafted fun log w run => .ask run.grafted fun ids answered => ?_
    obtain ⟨k, held⟩ := Arena.components_eq_ok_iff.1 answered
    obtain ⟨editor, found, state⟩ := Arena.get?_of_state? held
    have parts : ∀ c ∈ ids, ¬ fixed c := by
      refine fun c listed => run.freeBelow free _ (Arena.footings_of_get? found) c ?_
      rw [Editor.footing, state]
      exact listed
    split
    · exact .refuse run.grafted
    · refine (Sustains.forM (fun part inside => below fixed log w part.1 part.2 ?_) w
        (Grafts.start run.tidy).grafted).mono (fun _ _ => run.extend) fun _ _ => run.extend
      exact run.tidy.fenced _ (parts _ (List.of_mem_zip inside).1)
  | list name items =>
    refine .bind (.bind (.ask _) fun _ => .forM fun index _ => dropItem_grafts free index) fun _ =>
      sustains_grafted fun log w run => .ask run.grafted fun held _ =>
        .ask run.grafted fun editor answered => ?_
    exact restoreItemsWith_grafts below _ 0 items run
      ⟨_, Arena.footings_of_get? (Arena.get_eq_ok_iff.1 answered), rfl⟩

theorem restore_grafts : Restorer.Grafting (Workspace.restore : Restorer S) := by
  have within : ∀ levels, Restorer.Grafting (restoreWithin levels : Restorer S) := by
    intro levels
    induction levels with
    | zero => exact fun _ _ _ _ _ _ => .refuse _
    | succ levels ih => exact restoreWith_grafts ih
  exact fun fixed log₀ w₀ id s free => within s.depth fixed log₀ w₀ id s free

end Workspace

end StructureEditor
