import StructureEditor.Proofs.Soundness

/-! Ways through a forest: climbing from a live editor always ends in a root, and the way
that is collected on the climb leads back down to the editor. -/
namespace StructureEditor.Arena

variable {S : Signature} {a : Arena S} {id x root : Handle} {n : Nat} {editor : Editor S}

theorem childAt_of_get? {position : Position} (found : a.get? id = some editor)
    (held : childAt? editor.state position = some x) : a.childAt id position = .ok x := by
  simp only [childAt, get_of_get? found, Bind.bind, Except.bind, held]
  rfl

theorem childAt_eq_ok {position : Position} (answered : a.childAt id position = .ok x) :
    ∃ editor, a.get? id = some editor ∧ childAt? editor.state position = some x := by
  unfold childAt get at answered
  cases found : a.get? id with
  | none =>
    rw [found] at answered
    cases answered
  | some editor =>
    rw [found] at answered
    refine ⟨editor, rfl, ?_⟩
    cases held : childAt? editor.state position with
    | none =>
      simp only [Bind.bind, Except.bind, held] at answered
      cases answered
    | some child =>
      simp only [Bind.bind, Except.bind, held] at answered
      cases answered
      rfl

theorem child_of_childAt? {state : EditorState S} {position : Position}
    (held : childAt? state position = some x) : x ∈ state.children := by
  unfold childAt? at held
  split at held
  · cases held
    simp [EditorState.children]
  · exact List.mem_of_getElem? held
  · exact List.mem_of_getElem? held
  · cases held

theorem placeOf?_of_child {state : EditorState S} (member : x ∈ state.children) :
    ∃ position, placeOf? x state = some position ∧ childAt? state position = some x := by
  have indexed : ∀ {ids : List Handle}, x ∈ ids → ∃ i, ids.idxOf? x = some i ∧ ids[i]? = some x := by
    intro ids inside
    cases searched : ids.idxOf? x with
    | none => exact absurd inside (List.idxOf?_eq_none_iff.1 searched)
    | some i =>
      obtain ⟨lower, same, _⟩ := List.idxOf?_eq_some_iff.1 searched
      exact ⟨i, rfl, List.getElem?_eq_some_iff.2 ⟨lower, same⟩⟩
  cases state with
  | token => cases member
  | expander c display =>
    cases display with
    | text => cases member
    | expanded content =>
      simp only [EditorState.children, List.mem_singleton] at member
      exact ⟨.content, rfl, by rw [member]; rfl⟩
  | compound c ids =>
    obtain ⟨i, searched, held⟩ := @indexed ids member
    exact ⟨.component i, by simp [placeOf?, searched], held⟩
  | list c ids =>
    obtain ⟨i, searched, held⟩ := @indexed ids member
    exact ⟨.item i, by simp [placeOf?, searched], held⟩

theorem follow_append {way rest : List Position} {y : Handle} (first : a.follow root way = .ok x)
    (second : a.follow x rest = .ok y) : a.follow root (way ++ rest) = .ok y := by
  unfold follow at *
  rw [List.foldlM_append, first]
  exact second

theorem follow_step {position : Position} (found : a.get? id = some editor)
    (held : childAt? editor.state position = some x) : a.follow id [position] = .ok x := by
  simp only [follow, List.foldlM_cons, childAt_of_get? found held]
  rfl

theorem follow_cons {position : Position} {rest : List Position}
    (led : a.follow root (position :: rest) = .ok x) :
    ∃ editor child, a.get? root = some editor ∧ childAt? editor.state position = some child ∧
      a.follow child rest = .ok x := by
  unfold follow at led
  rw [List.foldlM_cons] at led
  cases answered : a.childAt root position with
  | error error =>
    rw [answered] at led
    cases led
  | ok child =>
    rw [answered] at led
    obtain ⟨editor, found, held⟩ := childAt_eq_ok answered
    exact ⟨editor, child, found, held, led⟩

theorem within_of_follow {way : List Position} (forest : a.links.Forest)
    (led : a.follow root way = .ok x) : a.links.Within root x := by
  induction way generalizing root with
  | nil =>
    cases led
    exact .here
  | cons position rest ih =>
    obtain ⟨editor, child, found, held, led⟩ := follow_cons led
    have below := forest.within_of_child (links_of_get? found) (child_of_childAt? held)
    exact below.trans (ih led)

theorem follow_of_above {b : Arena S} {way : List Position} (forest : a.links.Forest)
    (led : a.follow root way = .ok x)
    (keeps : ∀ y editor position child, ¬ a.links.Within x y → a.get? y = some editor →
      childAt? editor.state position = some child → a.links.Within child x →
      ∃ state, b.state? y = some state ∧ childAt? state position = some child) :
    b.follow root way = .ok x := by
  induction way generalizing root with
  | nil => exact led
  | cons position rest ih =>
    obtain ⟨editor, child, found, held, led⟩ := follow_cons led
    have below := within_of_follow forest led
    have above : ¬ a.links.Within x root := fun within =>
      forest.not_within_of_child (links_of_get? found) (child_of_childAt? held) (below.trans within)
    obtain ⟨state, isState, held'⟩ := keeps root editor position child above found held below
    obtain ⟨editor', found', rfl⟩ := get?_of_state? isState
    exact follow_append (follow_step found' held') (ih led)

theorem follow_of_outside {b : Arena S} {way : List Position} (forest : a.links.Forest)
    (led : a.follow root way = .ok x)
    (same : ∀ y, ¬ a.links.Within x y → b.state? y = a.state? y) : b.follow root way = .ok x :=
  follow_of_above forest led fun y editor _ _ above found held _ =>
    ⟨editor.state, (same y above).trans (state?_of_get? found), held⟩

theorem locateWithin_spec (forest : a.links.Forest) (depth : a.links.Depth id n) :
    ∃ root way place,
      (∀ steps path, n < steps → a.locateWithin steps id path = .ok ⟨root, way ++ path⟩) ∧
      a.follow root way = .ok id ∧ a.links root = some place ∧ place.parent = none := by
  induction depth with
  | @root x place found isRoot =>
    obtain ⟨editor, isLive, rfl⟩ := get?_of_links found
    change editor.parent = none at isRoot
    have position : a.positionOf x = .ok none := by
      simp only [positionOf, get_of_get? isLive, Bind.bind, Except.bind, isRoot]
      rfl
    refine ⟨x, [], editor.place, fun steps path enough => ?_, rfl, found, isRoot⟩
    obtain ⟨steps, rfl⟩ : ∃ k, steps = k + 1 := ⟨steps - 1, by omega⟩
    simp only [locateWithin, position]
    rfl
  | @step x p n place found hasParent above ih =>
    obtain ⟨editor, isLive, rfl⟩ := get?_of_links found
    change editor.parent = some p at hasParent
    obtain ⟨upper, upperFound, member⟩ := forest.listed found hasParent
    obtain ⟨parent, parentLive, rfl⟩ := get?_of_links upperFound
    obtain ⟨position, placed, held⟩ := placeOf?_of_child member
    have positioned : a.positionOf x = .ok (some (p, position)) := by
      simp only [positionOf, get_of_get? isLive, get_of_get? parentLive, Bind.bind, Except.bind,
        hasParent, placed]
      rfl
    obtain ⟨root, way, top, located, led, isTop⟩ := ih
    refine ⟨root, way ++ [position], top, fun steps path enough => ?_,
      follow_append led (follow_step parentLive held), isTop⟩
    obtain ⟨steps, rfl⟩ : ∃ k, steps = k + 1 := ⟨steps - 1, by omega⟩
    simp only [locateWithin, positioned, Bind.bind, Except.bind]
    rw [located steps (position :: path) (by omega), List.append_assoc, List.singleton_append]

theorem reach_of_depth (depth : a.links.Depth id n) : n < a.reach := by
  have bound := depth_lt_size depth
  have slots := size_le_slots a
  simp only [reach]
  omega

theorem locate_spec (forest : a.links.Forest) (found : a.get? id = some editor) :
    ∃ root way place, a.locate id = .ok ⟨root, way⟩ ∧ a.follow root way = .ok id ∧
      a.links root = some place ∧ place.parent = none := by
  obtain ⟨n, depth⟩ := forest.rooted (links_of_get? found)
  obtain ⟨root, way, place, located, rest⟩ := locateWithin_spec forest depth
  refine ⟨root, way, place, ?_, rest⟩
  rw [locate, located a.reach [] (reach_of_depth depth), List.append_nil]

theorem childAt?_unique {state : EditorState S} {p q : Position}
    (distinct : state.children.Nodup) (first : childAt? state p = some x)
    (second : childAt? state q = some x) : p = q := by
  have indexed : ∀ {ids : List Handle} {i j : Nat}, ids.Nodup → ids[i]? = some x →
      ids[j]? = some x → i = j := by
    intro ids i j distinct atFirst atSecond
    have inside := (List.getElem?_eq_some_iff.1 atFirst).1
    exact (List.getElem?_inj inside distinct).1 (atFirst.trans atSecond.symm)
  cases state with
  | token => cases first
  | expander c display =>
    cases display with
    | text => cases first
    | expanded content => cases p <;> cases q <;> simp [childAt?] at first second ⊢
  | compound c ids =>
    cases p with
    | component i =>
      cases q with
      | component j => rw [indexed distinct first second]
      | _ => cases second
    | _ => cases first
  | list c ids =>
    cases p with
    | item i =>
      cases q with
      | item j => rw [indexed distinct first second]
      | _ => cases second
    | _ => cases first

theorem follow_unique {way way' : List Position} (forest : a.links.Forest)
    (first : a.follow root way = .ok x) (second : a.follow root way' = .ok x) : way = way' := by
  induction way generalizing root way' with
  | nil =>
    cases first
    cases way' with
    | nil => rfl
    | cons position rest =>
      obtain ⟨editor, child, found, held, led⟩ := follow_cons second
      have above := forest.not_within_of_child (links_of_get? found) (child_of_childAt? held)
      exact absurd (within_of_follow forest led) above
  | cons position rest ih =>
    obtain ⟨editor, child, found, held, led⟩ := follow_cons first
    have member := child_of_childAt? held
    cases way' with
    | nil =>
      cases second
      exact absurd (within_of_follow forest led)
        (forest.not_within_of_child (links_of_get? found) member)
    | cons position' rest' =>
      obtain ⟨editor', child', found', held', led'⟩ := follow_cons second
      rw [found] at found'
      cases found'
      have member' := child_of_childAt? held'
      have same : child = child' := by
        by_contra different
        exact forest.siblings_apart (links_of_get? found) member member' different
          (within_of_follow forest led) (within_of_follow forest led')
      subst same
      rw [childAt?_unique (forest.distinct (links_of_get? found)) held held', ih led led']

theorem locate_below {place : Place} (forest : a.links.Forest) (isLive : a.links root = some place)
    (isRoot : place.parent = none) (within : a.links.Within root id) :
    ∃ way, a.follow root way = .ok id ∧ a.locate id = .ok ⟨root, way⟩ := by
  obtain ⟨place', found⟩ := within.live isLive
  obtain ⟨editor, editorFound, _⟩ := get?_of_links found
  obtain ⟨root', way, top, located, led, isLive', isRoot'⟩ := locate_spec forest editorFound
  obtain rfl := Links.root_unique isLive isRoot isLive' isRoot' within (within_of_follow forest led)
  exact ⟨way, led, located⟩

theorem locate_of_follow {way : List Position} {place : Place} (forest : a.links.Forest)
    (isLive : a.links root = some place) (isRoot : place.parent = none)
    (led : a.follow root way = .ok id) : a.locate id = .ok ⟨root, way⟩ := by
  obtain ⟨way', led', located⟩ := locate_below forest isLive isRoot (within_of_follow forest led)
  rw [located, follow_unique forest led led']

theorem locate_setState {state : EditorState S} (forest : a.links.Forest)
    (found : a.get? id = some editor) (children : state.children = editor.state.children) :
    (a.setState id state).locate id = a.locate id := by
  obtain ⟨root, way, place, located, led, isLive, isRoot⟩ := locate_spec forest found
  have links : (a.setState id state).links = a.links := links_setState found children
  rw [located]
  refine locate_of_follow (links ▸ forest) (by rw [links, isLive]) isRoot
    (follow_of_outside forest led fun y outside => ?_)
  have other : y ≠ id := by
    rintro rfl
    exact outside .here
  simp only [state?, get?_setState, if_neg other]

theorem topWithin_spec (depth : a.links.Depth id n) :
    ∃ top place, (∀ steps, n < steps → a.topWithin steps id = .ok top) ∧ a.links.Within top id ∧
      a.links top = some place ∧ place.parent = none := by
  induction depth with
  | @root x place found isRoot =>
    obtain ⟨editor, isLive, rfl⟩ := get?_of_links found
    change editor.parent = none at isRoot
    refine ⟨x, editor.place, fun steps enough => ?_, .here, found, isRoot⟩
    obtain ⟨steps, rfl⟩ : ∃ k, steps = k + 1 := ⟨steps - 1, by omega⟩
    simp only [topWithin, parent, get_of_get? isLive, Bind.bind, Except.bind, Pure.pure, Except.pure,
      isRoot]
  | @step x p n place found hasParent above ih =>
    obtain ⟨editor, isLive, rfl⟩ := get?_of_links found
    change editor.parent = some p at hasParent
    obtain ⟨top, upper, climbed, within, isTop⟩ := ih
    refine ⟨top, upper, fun steps enough => ?_, .step found hasParent within, isTop⟩
    obtain ⟨steps, rfl⟩ : ∃ k, steps = k + 1 := ⟨steps - 1, by omega⟩
    simp only [topWithin, parent, get_of_get? isLive, Bind.bind, Except.bind, Pure.pure, Except.pure,
      hasParent]
    exact climbed steps (by omega)

theorem topOf_spec (forest : a.links.Forest) (found : a.get? id = some editor) :
    ∃ top place, a.topOf id = .ok top ∧ a.links.Within top id ∧ a.links top = some place ∧
      place.parent = none := by
  obtain ⟨n, depth⟩ := forest.rooted (links_of_get? found)
  obtain ⟨top, place, climbed, rest⟩ := topWithin_spec depth
  exact ⟨top, place, climbed a.reach (reach_of_depth depth), rest⟩

theorem not_within_of_topOf (forest : a.links.Forest) (found : a.get? id = some editor)
    {r : Handle} {place : Place} (isLive : a.links r = some place) (isRoot : place.parent = none)
    (other : a.topOf id ≠ .ok r) : ¬ a.links.Within r id := by
  intro within
  obtain ⟨top, upper, climbed, within', isTop, free⟩ := topOf_spec forest found
  obtain rfl := Links.root_unique isLive isRoot isTop free within within'
  exact other climbed

end StructureEditor.Arena
