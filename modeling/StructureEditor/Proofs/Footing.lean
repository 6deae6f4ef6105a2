import StructureEditor.Proofs.Soundness

/-! Where editors stand: the context of an editor, its parent, its class and its children. What the
elementary changes of the arena do to this is told here without any assumption on the shape of the
documents, so that it also holds where an editor is a component twice or is put below itself. -/
namespace StructureEditor

variable {S : Signature}

structure Footing (S : Signature) where
  context : Context
  parent : Option Handle
  key : ClassKey S
  children : List Handle

def Editor.footing (editor : Editor S) : Footing S :=
  ⟨editor.context, editor.parent, editor.state.classKey, editor.state.children⟩

theorem Editor.footing_expanded {editor : Editor S} {k : S.ExpanderClass} {c : Handle}
    (held : editor.state = .expander k (.expanded c)) :
    editor.footing.key = .expander k ∧ c ∈ editor.footing.children := by
  rw [Editor.footing, held]
  exact ⟨rfl, List.mem_singleton_self c⟩

abbrev Footings (S : Signature) := Handle → Option (Footing S)

namespace Footings

def reparent (g : Footings S) (c : Handle) (parent : Option Handle) : Footings S := fun y =>
  if y = c then (g y).map fun f => { f with parent } else g y

def relist (g : Footings S) (x : Handle) (children : List Handle) : Footings S := fun y =>
  if y = x then (g y).map fun f => { f with children } else g y

def plant (g : Footings S) (x : Handle) (f : Footing S) : Footings S := fun y =>
  if y = x then some f
  else if y ∈ f.children then (g y).map fun f' => { f' with parent := some x } else g y

variable {g : Footings S} {x y c : Handle} {f f' : Footing S} {ids : List Handle}

theorem reparent_self (parent : Option Handle) (found : g c = some f) :
    g.reparent c parent c = some { f with parent } := by
  rw [reparent, if_pos rfl, found, Option.map_some]

theorem reparent_of_ne {parent : Option Handle} (different : y ≠ c) :
    g.reparent c parent y = g y := if_neg different

theorem of_reparent {parent : Option Handle} (found : g.reparent c parent y = some f) :
    ∃ f', g y = some f' ∧ f.context = f'.context ∧ f.key = f'.key ∧ f.children = f'.children ∧
      (y ≠ c → f.parent = f'.parent) := by
  by_cases same : y = c
  · subst same
    rw [reparent, if_pos rfl, Option.map_eq_some_iff] at found
    obtain ⟨f', found, rfl⟩ := found
    exact ⟨f', found, rfl, rfl, rfl, fun other => absurd rfl other⟩
  · rw [reparent_of_ne same] at found
    exact ⟨f, found, rfl, rfl, rfl, fun _ => rfl⟩

theorem relist_self (found : g x = some f) :
    g.relist x ids x = some { f with children := ids } := by
  rw [relist, if_pos rfl, found, Option.map_some]

theorem relist_of_ne (different : y ≠ x) : g.relist x ids y = g y := if_neg different

theorem of_relist (found : g.relist x ids y = some f) :
    ∃ f', g y = some f' ∧ f.context = f'.context ∧ f.parent = f'.parent ∧ f.key = f'.key := by
  by_cases same : y = x
  · subst same
    rw [relist, if_pos rfl, Option.map_eq_some_iff] at found
    obtain ⟨f', found, rfl⟩ := found
    exact ⟨f', found, rfl, rfl, rfl⟩
  · rw [relist_of_ne same] at found
    exact ⟨f, found, rfl, rfl, rfl⟩

theorem relist_cases (isLive : g x = some f) (found : g.relist x ids y = some f') :
    y = x ∧ f' = { f with children := ids } ∨ y ≠ x ∧ g y = some f' := by
  by_cases same : y = x
  · subst same
    rw [relist_self isLive] at found
    cases found
    exact .inl ⟨rfl, rfl⟩
  · rw [relist_of_ne same] at found
    exact .inr ⟨same, found⟩

theorem relist_some (x : Handle) (ids : List Handle) (found : g y = some f) :
    ∃ f', g.relist x ids y = some f' ∧
    f'.context = f.context ∧ f'.parent = f.parent ∧ f'.key = f.key := by
  by_cases same : y = x
  · subst same
    exact ⟨_, relist_self found, rfl, rfl, rfl⟩
  · exact ⟨f, (relist_of_ne same).trans found, rfl, rfl, rfl⟩

theorem reparent_some (c : Handle) (parent : Option Handle) (found : g y = some f) :
    ∃ f', g.reparent c parent y = some f' ∧ f'.context = f.context ∧ f'.key = f.key ∧
      f'.children = f.children := by
  by_cases same : y = c
  · subst same
    exact ⟨_, reparent_self parent found, rfl, rfl, rfl⟩
  · exact ⟨f, (reparent_of_ne same).trans found, rfl, rfl, rfl⟩

theorem reparent_relist (g : Footings S) (x c : Handle) (ids : List Handle)
    (parent : Option Handle) :
    (g.relist x ids).reparent c parent = (g.reparent c parent).relist x ids := by
  funext y
  by_cases first : y = c
  · subst first
    by_cases second : y = x
    · subst second
      simp [reparent, relist, Function.comp_def]
    · simp [reparent, relist, second]
  · by_cases second : y = x
    · subst second
      simp [reparent, relist, first]
    · simp [reparent, relist, first, second]

theorem of_plant (found : g.plant x f y = some f') : y = x ∧ f' = f ∨
    y ≠ x ∧ ∃ f₀, g y = some f₀ ∧ f'.context = f₀.context ∧ f'.key = f₀.key ∧
      f'.children = f₀.children ∧ f'.parent = if y ∈ f.children then some x else f₀.parent := by
  unfold plant at found
  split_ifs at found with same listed
  · cases found
    exact .inl ⟨same, rfl⟩
  · obtain ⟨f₀, isLive, rfl⟩ := Option.map_eq_some_iff.1 found
    exact .inr ⟨same, f₀, isLive, rfl, rfl, rfl, (if_pos listed).symm⟩
  · exact .inr ⟨same, f', found, rfl, rfl, rfl, (if_neg listed).symm⟩

theorem plant_self : g.plant x f x = some f := if_pos rfl

theorem plant_child (found : g c = some f') (listed : c ∈ f.children) (other : c ≠ x) :
    g.plant x f c = some { f' with parent := some x } := by
  rw [plant, if_neg other, if_pos listed, found, Option.map_some]

theorem plant_of_ne (other : y ≠ x) (unlisted : y ∉ f.children) : g.plant x f y = g y := by
  rw [plant, if_neg other, if_neg unlisted]

end Footings

namespace Arena

variable {a b b' : Arena S} {id x y : Handle} {editor : Editor S} {R : Handle → Prop}

def footings (a : Arena S) : Footings S := fun x => (a.get? x).map Editor.footing

theorem footings_of_get? (found : a.get? x = some editor) :
    a.footings x = some editor.footing := by
  rw [footings, found, Option.map_some]

theorem get?_of_footings {f : Footing S} (found : a.footings x = some f) :
    ∃ editor, a.get? x = some editor ∧ editor.footing = f :=
  Option.map_eq_some_iff.1 found

theorem footings_eq_none : a.footings x = none ↔ a.get? x = none := by
  rw [footings, Option.map_eq_none_iff]

theorem footings_modify {f : Editor S → Editor S} (same : ∀ e, (f e).footing = e.footing) :
    (a.modify id f).footings = a.footings := by
  funext y
  simp only [footings, get?_modify]
  split
  · cases a.get? y <;> simp [same]
  · rfl

theorem footings_setParent (a : Arena S) (parent : Option Handle) (c : Handle) :
    (a.setParent parent c).footings = a.footings.reparent c parent := by
  funext y
  simp only [footings, setParent, get?_modify, Footings.reparent]
  split
  · cases a.get? y <;> rfl
  · rfl

theorem footings_setState (state : EditorState S) (found : a.get? id = some editor)
    (sameClass : state.classKey = editor.state.classKey) :
    (a.setState id state).footings = a.footings.relist id state.children := by
  funext y
  simp only [footings, setState, get?_modify, Footings.relist]
  split
  · next same =>
    subst same
    simp [found, Editor.footing, sameClass]
  · rfl

theorem insert_eq [Language S] (context : Context) (state : EditorState S) (a : Arena S) :
    (a.insert context state).1 = (a.allocate { context, state }).1 ∧
      ∃ b, b = state.children.foldl
          (fun b child => b.setParent (some (a.allocate { context, state }).1) child)
          (a.allocate { context, state }).2 ∧
        (a.insert context state).2.footings = b.footings ∧
        (b.Exact → (a.insert context state).2.Exact) := by
  unfold insert
  dsimp only
  split
  · exact ⟨rfl, _, rfl, footings_modify fun _ => rfl, fun exact => exact_modify exact _ _⟩
  · exact ⟨rfl, _, rfl, rfl, id⟩

theorem insert_plants [Language S] (exact : a.Exact) (context : Context) (state : EditorState S)
    (live : ∀ c ∈ state.children, ∃ f, a.footings c = some f) :
    a.footings (a.insert context state).1 = none ∧ (a.insert context state).2.Exact ∧
      (a.insert context state).2.footings =
        a.footings.plant (a.insert context state).1
          ⟨context, none, state.classKey, state.children⟩ := by
  obtain ⟨exact', fresh, held, others⟩ := allocate_spec exact { context, state }
  obtain ⟨named, b, rfl, same, exactly⟩ := insert_eq context state a
  rw [named, same]
  refine ⟨footings_eq_none.2 fresh, exactly (exact_adopt _ _ exact'), ?_⟩
  funext y
  simp only [footings, get?_adopt, Footings.plant]
  by_cases here : y = (a.allocate { context, state }).1
  · subst here
    have unlisted : (a.allocate { context, state }).1 ∉ state.children := by
      intro listed
      obtain ⟨f, found⟩ := live _ listed
      rw [footings_eq_none.2 fresh] at found
      cases found
    rw [if_neg unlisted, held, if_pos rfl]
    rfl
  · rw [if_neg here, others y here]
    split
    · cases a.get? y <;> rfl
    · rfl

/-- Editors were freed: some that are named, and others with an editor that lists them. -/
structure Thins (a b : Arena S) (R : Handle → Prop) : Prop where
  kept : ∀ y, b.get? y = a.get? y ∨ b.get? y = none
  lost : ∀ y e, a.get? y = some e → b.get? y = none → R y ∨
    ∃ z e', a.get? z = some e' ∧ b.get? z = none ∧ y ∈ e'.state.children

theorem Thins.refl (a : Arena S) (R : Handle → Prop) : Thins a a R where
  kept _ := .inl rfl
  lost y e isLive gone := by
    rw [gone] at isLive
    cases isLive

theorem Thins.trans (first : Thins a b R) (second : Thins b b' R) : Thins a b' R where
  kept y := by
    rcases second.kept y with same | gone
    · rw [same]
      exact first.kept y
    · exact .inr gone
  lost y e isLive gone := by
    have still : ∀ z, b.get? z = none → b'.get? z = none := fun z dead =>
      (second.kept z).elim (·.trans dead) id
    rcases first.kept y with same | dead
    · rcases second.lost y e (same.trans isLive) gone with named | ⟨z, e', found, goneZ, listed⟩
      · exact .inl named
      · refine .inr ⟨z, e', ?_, goneZ, listed⟩
        exact ((first.kept z).resolve_right fun gone => by
          cases gone.symm.trans found).symm.trans found
    · rcases first.lost y e isLive dead with named | ⟨z, e', found, goneZ, listed⟩
      · exact .inl named
      · exact .inr ⟨z, e', found, still z goneZ, listed⟩

theorem thins_release (a : Arena S) (id : Handle) : Thins a (a.release id) (· = id) where
  kept y := by
    rw [get?_release]
    split
    · exact .inr rfl
    · exact .inl rfl
  lost y e isLive gone := by
    rw [get?_release] at gone
    split at gone
    · next same => exact .inl same
    · rw [gone] at isLive
      cases isLive

theorem thins_disposeWithin (steps : Nat) (a : Arena S) (id : Handle) :
    Thins a (a.disposeWithin steps id) (· = id) := by
  induction steps generalizing a id with
  | zero => exact .refl a _
  | succ steps ih =>
    unfold disposeWithin
    split
    · next editor found =>
      have below : ∀ (ids : List Handle) (b : Arena S), (∀ c ∈ ids, c ∈ editor.state.children) →
          Thins b (ids.foldl (fun b c => b.disposeWithin steps c) b)
            (· ∈ editor.state.children) := by
        intro ids
        induction ids with
        | nil => exact fun b _ => .refl b _
        | cons c ids rest =>
          intro b listed
          have first := ih b c
          refine Thins.trans ⟨first.kept, fun y e isLive gone => ?_⟩
            (rest _ fun d member => listed d (List.mem_cons_of_mem c member))
          refine (first.lost y e isLive gone).imp_left fun same => ?_
          exact same ▸ listed c List.mem_cons_self
      have freed := below editor.state.children a fun _ member => member
      -- the children are listed by the editor itself, which goes last
      have released : ((editor.state.children.foldl (fun b c => b.disposeWithin steps c) a).release
          id).get? id = none := get?_release_self _ _
      have thinner := thins_release
        (editor.state.children.foldl (fun b c => b.disposeWithin steps c) a) id
      constructor
      · exact (Thins.trans (R := fun _ => True) ⟨freed.kept, fun _ _ _ _ => .inl trivial⟩
          ⟨thinner.kept, fun _ _ _ _ => .inl trivial⟩).kept
      · intro y e isLive gone
        by_cases same : y = id
        · exact .inl same
        · rw [get?_release, if_neg same] at gone
          refine .inr ?_
          rcases freed.lost y e isLive gone with listed | ⟨z, e', foundZ, goneZ, listed⟩
          · exact ⟨id, editor, found, released, listed⟩
          · refine ⟨z, e', foundZ, ?_, listed⟩
            rw [get?_release]
            split
            · rfl
            · exact goneZ
    · exact .refl a _

theorem disposeWithin_spares {N : Handle → Prop} (steps : Nat)
    (closed : ∀ z e, a.get? z = some e → N z → ∀ c ∈ e.state.children, N c) (among : N id)
    (spared : ¬ N y) : (a.disposeWithin steps id).get? y = a.get? y := by
  induction steps generalizing a id with
  | zero => rfl
  | succ steps ih =>
    unfold disposeWithin
    split
    · next editor found =>
      have below : ∀ (ids : List Handle) (b : Arena S), (∀ c ∈ ids, N c) →
          (∀ z e, b.get? z = some e → N z → ∀ c ∈ e.state.children, N c) →
          (ids.foldl (fun b c => b.disposeWithin steps c) b).get? y = b.get? y := by
        intro ids
        induction ids with
        | nil => exact fun _ _ _ => rfl
        | cons c ids rest =>
          intro b listed closed
          rw [List.foldl_cons, rest _ fun d member => listed d (List.mem_cons_of_mem c member)]
          · exact ih closed (listed c List.mem_cons_self)
          · intro z e isLive
            have was := ((thins_disposeWithin steps b c).kept z).resolve_right fun gone => by
              cases gone.symm.trans isLive
            exact closed z e (was ▸ isLive)
      have other : y ≠ id := by
        rintro rfl
        exact spared among
      rw [get?_release, if_neg other]
      exact below _ a (closed id editor found among) closed
    · rfl

theorem dispose_keeps (a : Arena S) (id : Handle) (y : Handle) :
    (a.dispose id).footings y = a.footings y ∨ (a.dispose id).footings y = none := by
  rcases (thins_disposeWithin a.reach a id).kept y with same | gone
  · exact .inl (congrArg (Option.map Editor.footing) same)
  · exact .inr (footings_eq_none.2 gone)

theorem dispose_loses {f : Footing S} (isLive : a.footings y = some f)
    (gone : (a.dispose id).footings y = none) :
    y = id ∨ ∃ z f', a.footings z = some f' ∧ (a.dispose id).footings z = none ∧
      y ∈ f'.children := by
  obtain ⟨e, found, -⟩ := get?_of_footings isLive
  refine ((thins_disposeWithin a.reach a id).lost y e found (footings_eq_none.1 gone)).imp_right ?_
  rintro ⟨z, e', foundZ, goneZ, listed⟩
  exact ⟨z, _, footings_of_get? foundZ, footings_eq_none.2 goneZ, listed⟩

theorem dispose_spares {N : Handle → Prop}
    (closed : ∀ z f, a.footings z = some f → N z → ∀ c ∈ f.children, N c) (among : N id)
    (spared : ¬ N y) : (a.dispose id).footings y = a.footings y := by
  have same := disposeWithin_spares a.reach (fun z e found => closed z _ (footings_of_get? found))
    among spared
  exact congrArg (Option.map Editor.footing) same

theorem exact_dispose (exact : a.Exact) (id : Handle) : (a.dispose id).Exact :=
  exact_disposeWithin a.reach id exact

end Arena

end StructureEditor
