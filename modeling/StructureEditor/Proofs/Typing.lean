import StructureEditor.Proofs.Unison

/-! Typing into twins. A separator at the end of an item reaches beyond the editor that is typed
into: it opens another item in the list above. So what stays alike are the documents as a
whole, from their roots on. -/
namespace StructureEditor

variable {S : Signature}

namespace Arena

variable {a : Arena S} {root x : Handle} {way : List Position} {position : Position}

theorem follow_snoc (led : a.follow root (way ++ [position]) = .ok x) :
    ∃ p above, a.follow root way = .ok p ∧ a.get? p = some above ∧
      childAt? above.state position = some x := by
  unfold follow at led
  rw [List.foldlM_append] at led
  cases answered : way.foldlM (fun id position => a.childAt id position) root with
  | error error =>
    rw [answered] at led
    cases led
  | ok p =>
    rw [answered] at led
    have step : a.follow p [position] = .ok x := led
    obtain ⟨above, child, found, held, same⟩ := follow_cons step
    cases same
    exact ⟨p, above, answered, found, held⟩

theorem idxOf?_of_item {k : S.ListClass} {ids : List Handle} {index : Nat}
    (distinct : (EditorState.list k ids).children.Nodup)
    (listed : childAt? (.list k ids) (.item index) = some x) : ids.idxOf? x = some index := by
  obtain ⟨position, placed, held⟩ := placeOf?_of_child (child_of_childAt? listed)
  cases childAt?_unique distinct held listed
  simpa [placeOf?] using placed

end Arena

namespace Workspace

variable [Language S] {v w v' w' : Workspace S} {x y r r' p : Handle} {way : List Position}
  {e above : Editor S} {k : S.ExpanderClass} {old : String} {oldItem : Option Candidate}

/-- Roots that stand for one document. -/
structure Facing (v w : Workspace S) (r r' : Handle) : Prop where
  sound : v.arena.Sound
  sound' : w.arena.Sound
  root : ∃ e, v.arena.get? r = some e ∧ e.parent = none
  root' : ∃ e, w.arena.get? r' = some e ∧ e.parent = none
  twins : Twins v w r r'

theorem Touched.root (touched : Touched w w' r)
    (root : ∃ e, w.arena.get? r = some e ∧ e.parent = none) :
    ∃ e, w'.arena.get? r = some e ∧ e.parent = none := by
  obtain ⟨e, found, free⟩ := root
  obtain ⟨e', found', kept⟩ := touched.changes.live found
  exact ⟨e', found', kept.2.1.trans free⟩

theorem Facing.after (facing : Facing v w r r') (abreast : Abreast v w v' w' r r') :
    Facing v' w' r r' where
  sound := abreast.left.sound
  sound' := abreast.right.sound
  root := abreast.left.root facing.root
  root' := abreast.right.root facing.root'
  twins := abreast.twins

def separatorAt? (w : Workspace S) (k : S.ListClass) (context : Context) : Option Char :=
  (Language.list k).separator <|> (w.contexts.find? (·.settings) context).bind (·.listSeparator)

theorem listPlace?_root (found : w.arena.get? x = some e) (free : e.parent = none) :
    listPlace? x w = .ok none w := by
  simp only [listPlace?, Action.bind_run_ok _ (lookup_run found), free]
  rfl

def placeBelow? (w : Workspace S) (p : Handle) (context : Context) :
    EditorState S → Position → Option (Handle × Nat × Char)
  | .list l _, .item index => (w.separatorAt? l context).map (p, index, ·)
  | _, _ => none

theorem listPlace?_below {position : Position} (sound : w.arena.Sound)
    (upper : w.arena.get? p = some above) (child : Arena.childAt? above.state position = some x)
    (found : w.arena.get? x = some e) :
    listPlace? x w = .ok (w.placeBelow? p e.context above.state position) w := by
  have placed := Arena.links_of_get? upper
  obtain ⟨_, linked, attached⟩ := sound.forest.linked placed (Arena.child_of_childAt? child)
  cases (Arena.links_of_get? found).symm.trans linked
  have attached : e.parent = some p := attached
  simp only [listPlace?, Action.bind_run_ok _ (lookup_run found), attached,
    Action.bind_run_ok _ (lookup_run upper)]
  have distinct : above.state.children.Nodup := sound.forest.distinct placed
  cases shown : above.state with
  | list l ids =>
    rw [shown] at child distinct
    cases position with
    | item index =>
      have asked : service? (·.settings) e.context w =
          .ok (w.contexts.find? (·.settings) e.context) w := rfl
      simp only [Action.bind_run_ok _ (lookup_run found), Action.bind_run_ok _ asked,
        Arena.idxOf?_of_item distinct child, placeBelow?, separatorAt?]
      cases (Language.list l).separator <|>
          (w.contexts.find? (·.settings) e.context).bind (·.listSeparator) <;> rfl
    | _ => cases child
  | _ => rfl

theorem listPlace?_twins (facing : Facing v w r r') (led : v.arena.follow r way = .ok x)
    (led' : w.arena.follow r' way = .ok y) (twins : Twins v w x y) :
    (listPlace? x v = .ok none v ∧ listPlace? y w = .ok none w) ∨
    ∃ p q init l ids index separator, v.arena.follow r init = .ok p ∧ w.arena.follow r' init = .ok q ∧
      Twins v w p q ∧ v.arena.state? p = some (.list l ids) ∧ ids[index]? = some x ∧
      w.arena.follow q [.item index] = .ok y ∧
      listPlace? x v = .ok (some (p, index, separator)) v ∧
      listPlace? y w = .ok (some (q, index, separator)) w := by
  obtain ⟨e, f, found, found', same, _⟩ := twins.live
  rcases List.eq_nil_or_concat way with rfl | ⟨init, position, rfl⟩
  · cases led
    cases led'
    obtain ⟨root, isRoot, free⟩ := facing.root
    obtain ⟨root', isRoot', free'⟩ := facing.root'
    exact .inl ⟨listPlace?_root isRoot free, listPlace?_root isRoot' free'⟩
  · rw [List.concat_eq_append] at led led'
    obtain ⟨p, above, down, upper, child⟩ := Arena.follow_snoc led
    obtain ⟨q, above', down', upper', child'⟩ := Arena.follow_snoc led'
    have parents := facing.twins.at down down'
    have place := listPlace?_below facing.sound upper child found
    have place' := listPlace?_below facing.sound' upper' child' found'
    have separators : ∀ l, w.separatorAt? l f.context = v.separatorAt? l e.context := by
      have services := congrFun same 0
      simp only [Contexts.outlook, Prod.mk.injEq] at services
      exact fun l => by rw [separatorAt?, separatorAt?, services.1]
    obtain ⟨_, held', form, _⟩ := parents.state (Arena.state?_of_get? upper)
    cases (Arena.state?_of_get? upper').symm.trans held'
    unfold placeBelow? at place
    split at place
    · next l ids index shown =>
      obtain ⟨ids', shown', _⟩ := EditorState.form_list (shown ▸ form)
      simp only [shown', placeBelow?, separators] at place'
      cases opens : v.separatorAt? l e.context with
      | none =>
        rw [opens] at place place'
        exact .inl ⟨place, place'⟩
      | some separator =>
        rw [opens] at place place'
        rw [shown] at child
        exact .inr ⟨p, q, init, l, ids, index, separator, down, down', parents,
          shown ▸ Arena.state?_of_get? upper, child, Arena.follow_step upper' child', place, place'⟩
    · next other =>
      refine .inl ⟨place, place'.trans ?_⟩
      unfold placeBelow?
      split
      · next l ids index shown' =>
        obtain ⟨ids', shown, _⟩ := EditorState.form_list (shown' ▸ form.symm)
        exact absurd shown (other l ids' index · rfl)
      · rfl

theorem separate_twins {q : Handle} {l : S.ListClass} {ids : List Handle} {index : Nat}
    (text : String) (sound : v.arena.Sound) (sound' : w.arena.Sound) (lists : Twins v w p q)
    (listed : v.arena.state? p = some (.list l ids)) (member : ids[index]? = some x)
    (step : w.arena.follow q [.item index] = .ok y) (twins : Twins v w x y)
    (held : v.arena.state? x = some (.expander k (.text old oldItem))) :
    ∃ i j v' w', (do
        recordTransition x "Type" (showText x text none)
        openItem p (index + 1)) v = .ok i v' ∧ (do
        recordTransition y "Type" (showText y text none)
        openItem q (index + 1)) w = .ok j w' ∧ Abreast v w v' w' p q := by
  obtain ⟨above, upper, state⟩ := Arena.get?_of_state? listed
  have step' : v.arena.follow p [.item index] = .ok x :=
    Arena.follow_step upper (by rw [state]; exact member)
  obtain ⟨v₁, w₁, shown, shown', abreast, _⟩ := showText_twins text none sound sound' twins held
  obtain ⟨v₂, ran, noted⟩ :=
    recordTransition_noted "Type" sound held shown abreast.left held
  obtain ⟨w₂, ran', noted'⟩ :=
    recordTransition_noted "Type" sound' (twins.text held) shown' abreast.right (twins.text held)
  have typed := abreast.noted noted noted'
  have begun := typed.widen lists sound sound' step' step twins
  have still := (typed.left.above sound listed (List.mem_of_getElem? member) .here).1
  have inside : index + 1 ≤ ids.length := (List.getElem?_eq_some_iff.1 member).1
  obtain ⟨i, j, v₃, w₃, opened, opened', added⟩ :=
    openItem_inside begun.left.sound begun.right.sound begun.twins still inside
  refine ⟨i, j, v₃, w₃, ?_, ?_, begun.trans added sound sound'⟩
  · rw [Action.bind_run_ok _ ran]
    exact opened
  · rw [Action.bind_run_ok _ ran']
    exact opened'

theorem Touched.beside {start w'' : Workspace S} (touched : Touched start w' x)
    (arena : start.arena = w.arena) (contexts : start.contexts = w.contexts)
    (arena' : w''.arena = w'.arena) (contexts' : w''.contexts = w'.contexts)
    (groups : SameGroups w w'') : Touched w w'' x :=
  ⟨arena' ▸ touched.sound, arena ▸ arena' ▸ touched.changes,
    contexts ▸ contexts' ▸ touched.contexts, groups⟩

theorem typeSeparator_twins (text : String) (facing : Facing v w r r')
    (led : v.arena.follow r way = .ok x) (led' : w.arena.follow r' way = .ok y)
    (twins : Twins v w x y) (held : v.arena.state? x = some (.expander k (.text old oldItem))) :
    (typeSeparator x text v = .ok false v ∧ typeSeparator y text w = .ok false w) ∨
    ∃ v' w', typeSeparator x text v = .ok true v' ∧ typeSeparator y text w = .ok true w' ∧
      Abreast v w v' w' r r' := by
  rcases listPlace?_twins facing led led' twins with ⟨place, place'⟩ |
    ⟨p, q, init, l, ids, index, separator, down, down', lists, listed, member, step, place, place'⟩
  · simp only [typeSeparator, Action.bind_run_ok _ place, Action.bind_run_ok _ place']
    exact .inl ⟨rfl, rfl⟩
  · simp only [typeSeparator, Action.bind_run_ok _ place, Action.bind_run_ok _ place']
    cases stripSeparator? separator text with
    | none => exact .inl ⟨rfl, rfl⟩
    | some committed =>
      obtain ⟨e, f, found, found', _⟩ := twins.live
      obtain ⟨start, arena, contexts, grouped⟩ := asOneStep_noted found "Add item" do
        recordTransition x "Type" (showText x committed none)
        openItem p (index + 1)
      obtain ⟨start', arena', contexts', grouped'⟩ :=
        asOneStep_noted found' "Add item" do
          recordTransition y "Type" (showText y committed none)
          openItem q (index + 1)
      have begun : ∀ {x y}, Twins v w x y → Twins start start' x y := fun pair =>
        pair.beside arena contexts arena' contexts'
      obtain ⟨i, j, v₁, w₁, ran, ran', abreast⟩ := separate_twins committed
        (arena ▸ facing.sound) (arena' ▸ facing.sound') (begun lists) (arena ▸ listed) member
        (arena' ▸ step) (begun twins) (arena ▸ held)
      obtain ⟨v₂, done, sameArena, sameContexts, groups⟩ := grouped i v₁ ran abreast.left.groups
      obtain ⟨w₂, done', sameArena', sameContexts', groups'⟩ :=
        grouped' j w₁ ran' abreast.right.groups
      have together : Abreast v w v₂ w₂ p q :=
        ⟨abreast.left.beside arena contexts sameArena sameContexts groups,
          abreast.right.beside arena' contexts' sameArena' sameContexts' groups',
          abreast.twins.beside sameArena sameContexts sameArena' sameContexts'⟩
      refine .inr ⟨v₂, w₂, Action.bind_run_ok _ done, Action.bind_run_ok _ done',
        together.widen facing.twins facing.sound facing.sound' down down' lists⟩

theorem typeExpander_twins (isBlind : Language.Blind S) (text : String) (facing : Facing v w r r')
    (led : v.arena.follow r way = .ok x) (led' : w.arena.follow r' way = .ok y)
    (twins : Twins v w x y) :
    Action.Together (typeExpander x text) (typeExpander y text) v w
      (fun _ _ v' w' => Abreast v w v' w' r r') fun v' w' => Abreast v w v' w' r r' := by
  have sound := facing.sound
  have sound' := facing.sound'
  have wide : ∀ v' w', Abreast v w v' w' x y → Abreast v w v' w' r r' := fun _ _ abreast =>
    abreast.widen facing.twins sound sound' led led' twins
  have begun := Abreast.refl sound sound' facing.twins
  refine .bind ((requireTextMode_twins .typing twins).mono ?_ ?_)
  · rintro _ _ v w ⟨rfl, rfl, k, old, oldItem, held⟩
    refine .after_ok (ask_run (Arena.displayOf_eq_ok_iff.2 ⟨k, held⟩))
      (ask_run (Arena.displayOf_eq_ok_iff.2 ⟨k, twins.text held⟩)) ?_
    dsimp only
    split
    · exact .pure begun
    · rcases typeSeparator_twins text facing led led' twins held with
        ⟨handled, handled'⟩ | ⟨v', w', handled, handled', abreast⟩
      · refine .after_ok handled handled' ?_
        obtain ⟨e, f, found, found', ran, ran', same, ahead⟩ :=
          contentScope_twins sound sound' twins held
        refine .after_ok ran ran' (.bind ((askHook_twins ((isBlind k).2.2 text) ahead.left.sound
          ahead.right.sound ahead.twins same).mono ?_ fun _ _ impossible => impossible.elim))
        rintro a b v₂ w₂ ⟨pairs, companions, answered⟩
        have hooked := Abreast.enlarged ahead.twins ahead.left.sound ahead.right.sound
          companions.left companions.right
        cases answered with
        | some paired =>
          refine .bind ((recordTransition_twins "AutoExpand" ahead.twins held hooked
            (companions.fills paired ahead.left.sound ahead.right.sound ahead.twins held found
              found' (.refl _) (.refl _))).mono ?_ ?_)
          · exact fun _ _ v' w' abreast => .pure (wide _ _ (ahead.trans abreast sound sound'))
          · exact fun v' w' abreast => wide _ _ (ahead.trans abreast sound sound')
        | none =>
          obtain ⟨v', w', shown, shown', abreast⟩ := companions.showText text none
            ahead.left.sound ahead.right.sound ahead.twins held
          refine (recordTransition_twins "Type" ahead.twins held hooked
            (.of_ok shown shown' abreast)).mono ?_ ?_
          · exact fun _ _ v' w' abreast => wide _ _ (ahead.trans abreast sound sound')
          · exact fun v' w' abreast => wide _ _ (ahead.trans abreast sound sound')
      · exact .after_ok handled handled' (.pure abreast)
  · rintro v w ⟨rfl, rfl⟩
    exact begun

theorem typeText_twins (isBlind : Language.Blind S) (text : String) (facing : Facing v w r r')
    (led : v.arena.follow r way = .ok x) (led' : w.arena.follow r' way = .ok y)
    (twins : Twins v w x y) :
    Action.Together (typeText x text) (typeText y text) v w
      (fun _ _ v' w' => Abreast v w v' w' r r') fun v' w' => Abreast v w v' w' r r' := by
  have sound := facing.sound
  have sound' := facing.sound'
  have begun := Abreast.refl sound sound' facing.twins
  obtain ⟨state, held, asked, asked'⟩ := shapeOf_twins twins
  refine .after_ok (ask_run asked) (ask_run asked') ?_
  cases state with
  | token k old oldItem =>
    rcases writeToken_twins text none true sound sound' twins with
      ⟨v', w', ran, ran', abreast, _⟩ | ⟨_, ran, ran'⟩
    · exact .of_ok ran ran' (abreast.widen facing.twins sound sound' led led' twins)
    · exact .of_refused ran ran' rfl begun
  | expander k display => exact typeExpander_twins isBlind text facing led led' twins
  | compound k ids => exact refuseShape_twins twins begun
  | list k ids => exact refuseShape_twins twins begun

end Workspace

end StructureEditor
