import StructureEditor.Proofs.Companions

/-! Operations on twins. Each operation that is asked of twins ends the same way for both of them
and leaves twins. What the histories take down of it is not noticed. -/
namespace StructureEditor.Workspace

variable {S : Signature} [Language S] {α β : Type} {v w v' w' v₀ w₀ : Workspace S}
  {x y r r' : Handle} {way : List Position} {k : S.ExpanderClass} {display : Display Handle}

theorem Abreast.refl (sound : v.arena.Sound) (sound' : w.arena.Sound) (twins : Twins v w x y) :
    Abreast v w v w x y :=
  ⟨.refl sound x, .refl sound' y, twins⟩

theorem Abreast.enlarged (twins : Twins v w x y) (sound : v.arena.Sound) (sound' : w.arena.Sound)
    (left : Enlarged v v') (right : Enlarged w w') : Abreast v w v' w' x y :=
  ⟨left.touched x, right.touched y, twins.enlarged sound sound' left right⟩

theorem Touched.expander (touched : Touched w w' x)
    (held : w.arena.state? x = some (.expander k display)) :
    ∃ display', w'.arena.state? x = some (.expander k display') := by
  obtain ⟨editor, found, state⟩ := Arena.get?_of_state? held
  obtain ⟨editor', found', kept⟩ := touched.changes.live found
  have key : editor'.state.classKey = .expander k :=
    kept.2.2.2.trans (congrArg EditorState.classKey state)
  rw [Arena.state?_of_get? found']
  cases shown : editor'.state with
  | expander k' display' =>
    rw [shown] at key
    cases key
    exact ⟨display', rfl⟩
  | _ =>
    rw [shown] at key
    cases key

theorem recordTransition_noted {display' : Display Handle} {action : Editing S α} {value : α}
    (description : String) (sound : w.arena.Sound)
    (held : w.arena.state? x = some (.expander k display)) (ran : action w = .ok value w')
    (touched : Touched w₀ w' x)
    (was : w₀.arena.state? x = some (.expander k display')) :
    ∃ w'', recordTransition x description action w = .ok value w'' ∧ Noted w' w'' := by
  obtain ⟨editor, found, _⟩ := Arena.get?_of_state? held
  obtain ⟨root, path, _, located, _⟩ := Arena.locate_spec sound.forest found
  obtain ⟨before, asked⟩ := displaySnapshot_run sound.forest held
  obtain ⟨_, held'⟩ := touched.expander was
  obtain ⟨after, asked'⟩ := displaySnapshot_run touched.sound.forest held'
  have located : ask (·.locate x) w = .ok ⟨root, path⟩ w := ask_run located
  simp only [recordTransition, Action.bind_run_ok _ (recording?_run found)]
  cases w.recorder? editor.context with
  | none => exact ⟨w', ran, rfl, rfl, .of_eq rfl⟩
  | some h =>
    refine ⟨(historyLens h).update (·.record (.single
      (.transition ⟨root, path⟩ before after description))) w', ?_, rfl, rfl,
      sameGroups_update h (isOpen_record _)⟩
    simp only [Action.bind_run_ok _ located, Action.bind_run_ok _ asked,
      Action.bind_run_ok _ ran, Action.bind_run_ok _ asked']
    rfl

theorem recordTransition_stopped {action : Editing S α} {stop : Stop} (description : String)
    (sound : w.arena.Sound) (held : w.arena.state? x = some (.expander k display))
    (ran : action w = .error stop w') :
    recordTransition x description action w = .error stop w' := by
  obtain ⟨editor, found, _⟩ := Arena.get?_of_state? held
  obtain ⟨root, path, _, located, _⟩ := Arena.locate_spec sound.forest found
  obtain ⟨before, asked⟩ := displaySnapshot_run sound.forest held
  have located : ask (·.locate x) w = .ok ⟨root, path⟩ w := ask_run located
  simp only [recordTransition, Action.bind_run_ok _ (recording?_run found)]
  cases w.recorder? editor.context with
  | none => exact ran
  | some h =>
    simp only [Action.bind_run_ok _ located, Action.bind_run_ok _ asked,
      Action.bind_run_error _ ran]

theorem Abreast.noted {v₁ w₁ : Workspace S} (abreast : Abreast v w v₁ w₁ x y) (left : Noted v₁ v')
    (right : Noted w₁ w') : Abreast v w v' w' x y :=
  ⟨abreast.left.noted left, abreast.right.noted right, abreast.twins.noted left right⟩

theorem recordTransition_twins {a : Editing S α} {b : Editing S β} (description : String)
    (twins : Twins v₀ w₀ x y) (held : v₀.arena.state? x = some (.expander k display))
    (begun : Abreast v₀ w₀ v w x y)
    (together : Action.Together a b v w (fun _ _ v' w' => Abreast v₀ w₀ v' w' x y)
      fun v' w' => Abreast v₀ w₀ v' w' x y) :
    Action.Together (recordTransition x description a) (recordTransition y description b) v w
      (fun _ _ v' w' => Abreast v₀ w₀ v' w' x y) fun v' w' => Abreast v₀ w₀ v' w' x y := by
  obtain ⟨_, held', _⟩ := twins.expander held
  obtain ⟨_, now⟩ := begun.left.expander held
  obtain ⟨_, now'⟩ := begun.right.expander held'
  rcases together.cases with ⟨p, q, v', w', ran, ran', abreast⟩ |
    ⟨e, f, v', w', ran, ran', same, abreast⟩ | ⟨e, f, v', w', ran, ran', abreast⟩
  · obtain ⟨v'', recorded, noted⟩ :=
      recordTransition_noted description begun.left.sound now ran abreast.left held
    obtain ⟨w'', recorded', noted'⟩ :=
      recordTransition_noted description begun.right.sound now' ran' abreast.right held'
    exact .of_ok recorded recorded' (abreast.noted noted noted')
  · exact .of_refused (recordTransition_stopped description begun.left.sound now ran)
      (recordTransition_stopped description begun.right.sound now' ran') same abreast
  · exact .of_fault (recordTransition_stopped description begun.left.sound now ran)
      (recordTransition_stopped description begun.right.sound now' ran') abreast

omit [Language S] in
/-- An action that goes through in a group goes through without it: the group that was opened for
it is open until it ends. -/
theorem grouped_noted (h : HistoryId) (description : String) (action : Editing S α) :
    ∃ start : Workspace S, start.arena = w.arena ∧ start.contexts = w.contexts ∧
      ∀ value w', action start = .ok value w' → SameGroups start w' →
        ∃ w'', (historyLens h).grouped description action w = .ok value w'' ∧
          w''.arena = w'.arena ∧ w''.contexts = w'.contexts ∧ SameGroups w w'' := by
  by_cases joins : (!((historyLens h).view w).active || ((historyLens h).view w).isOpen) = true
  · exact ⟨w, rfl, rfl, fun value w' done groups =>
      ⟨w', (HistoryLens.grouped_joins description action joins).trans done, rfl, rfl, groups⟩⟩
  refine ⟨(historyLens h).put ((historyLens h).view w).begin w, rfl, rfl, ?_⟩
  intro value w' done groups
  have opened : ((historyLens h).view w').isOpen = true := by
    rw [groups]
    simp [historyLens, History.begin, History.isOpen]
  obtain ⟨steps, collected⟩ := Option.isSome_iff_exists.1 opened
  have attempted : action.attempt ((historyLens h).put ((historyLens h).view w).begin w) =
      .ok (.ok value) w' := by
    simp only [Action.attempt, done]
  refine ⟨(historyLens h).put (((historyLens h).view w').close description steps) w', ?_, rfl, rfl,
    fun other => ?_⟩
  · rw [HistoryLens.grouped_opens description action joins, Action.bind_run_ok _ attempted,
      Action.bind_run_ok _ (HistoryLens.finish_run description collected)]
    rfl
  · have before := groups other
    by_cases same : other = h
    · rw [same]
      have closed : ((historyLens h).view w).isOpen = false := by
        simp only [Bool.not_eq_true, Bool.or_eq_false_iff] at joins
        exact joins.2
      rw [closed]
      simp only [historyLens, Histories.get_set_self]
      unfold History.close History.commit History.isOpen
      split <;> rfl
    · simp only [historyLens, Histories.get_set_of_ne same] at before ⊢
      exact before

omit [Language S] in
theorem asOneStep_noted {editor : Editor S} (found : w.arena.get? x = some editor)
    (description : String) (action : Editing S α) :
    ∃ start : Workspace S, start.arena = w.arena ∧ start.contexts = w.contexts ∧
      ∀ value w', action start = .ok value w' → SameGroups start w' →
        ∃ w'', asOneStep x description action w = .ok value w'' ∧ w''.arena = w'.arena ∧
          w''.contexts = w'.contexts ∧ SameGroups w w'' := by
  cases responsible : w.contexts.find? (·.history) editor.context with
  | none =>
    have ran : asOneStep x description action w = action w := by
      simp only [asOneStep, Action.bind_run_ok _ (historyFor?_run found), responsible]
    exact ⟨w, rfl, rfl, fun value w' done groups => ⟨w', ran.trans done, rfl, rfl, groups⟩⟩
  | some h =>
    have ran : asOneStep x description action w = (historyLens h).grouped description action w := by
      simp only [asOneStep, Action.bind_run_ok _ (historyFor?_run found), responsible]
    obtain ⟨start, arena, contexts, goes⟩ := grouped_noted h description action
    refine ⟨start, arena, contexts, fun value w' done groups => ?_⟩
    obtain ⟨w'', grouped, rest⟩ := goes value w' done groups
    exact ⟨w'', ran.trans grouped, rest⟩

omit [Language S] in
theorem items_twins (twins : Twins v w x y) :
    (∃ k ids ids', v.arena.state? x = some (.list k ids) ∧ w.arena.state? y = some (.list k ids') ∧
      List.Forall₂ (Twins v w) ids ids' ∧ v.arena.items x = .ok ids ∧ w.arena.items y = .ok ids') ∨
    ∃ found, v.arena.items x = .error (.wrongShape x "list" found) ∧
      w.arena.items y = .error (.wrongShape y "list" found) := by
  obtain ⟨e, f, found, found', _, form⟩ := twins.live
  have shapes := EditorState.shape_of_form form
  by_cases isList : e.state.shape = .list
  · cases shown : e.state with
    | list k ids =>
      have held := shown ▸ Arena.state?_of_get? found
      obtain ⟨ids', held', each⟩ := twins.list held
      exact .inl ⟨k, ids, ids', held, held', each, Arena.items_eq_ok_iff.2 ⟨k, held⟩,
        Arena.items_eq_ok_iff.2 ⟨k, held'⟩⟩
    | _ =>
      rw [shown] at isList
      cases isList
  · refine .inr ⟨e.state.shape, ?_, ?_⟩
    · simp only [Arena.items, Arena.list_refused found isList, Bind.bind, Except.bind]
    · simp only [Arena.items, Arena.list_refused found' (shapes ▸ isList), Bind.bind, Except.bind,
        shapes]

omit [Language S] in
theorem checkGap_twins (index : Nat) (twins : Twins v w x y) :
    Action.Together (checkGap x index) (checkGap y index) v w
      (fun _ _ v' w' => v' = v ∧ w' = w ∧
        ∃ k ids, v.arena.state? x = some (.list k ids) ∧ index ≤ ids.length)
      fun v' w' => v' = v ∧ w' = w := by
  rcases items_twins twins with ⟨k, ids, ids', held, _, each, asked, asked'⟩ | ⟨_, asked, asked'⟩
  · refine .after_ok (ask_run asked) (ask_run asked') ?_
    rw [← each.length_eq]
    by_cases beyond : ids.length < index
    · simp only [beyond, if_true]
      exact .refuse rfl ⟨rfl, rfl⟩
    · simp only [beyond, if_false]
      exact .pure ⟨rfl, rfl, k, ids, held, Nat.not_lt.1 beyond⟩
  · exact .of_refused (Action.bind_run_error _ (Action.ask_run_error asked))
      (Action.bind_run_error _ (Action.ask_run_error asked')) rfl ⟨rfl, rfl⟩

omit [Language S] in
theorem itemAt_twins (index : Nat) (twins : Twins v w x y) :
    Action.Together (itemAt x index) (itemAt y index) v w
      (fun item item' v' w' => v' = v ∧ w' = w ∧ Twins v w item item' ∧
        ∃ k ids, v.arena.state? x = some (.list k ids) ∧ ids[index]? = some item)
      fun v' w' => v' = v ∧ w' = w := by
  rcases items_twins twins with ⟨k, ids, ids', held, _, each, asked, asked'⟩ | ⟨_, asked, asked'⟩
  · refine .after_ok (ask_run asked) (ask_run asked') ?_
    have lengths := each.length_eq
    by_cases inside : index < ids.length
    · have listed := List.getElem?_eq_getElem inside
      have listed' := List.getElem?_eq_getElem (lengths ▸ inside)
      simp only [listed, listed']
      exact .pure ⟨rfl, rfl, each.get inside (lengths ▸ inside), k, ids, held, listed⟩
    · simp only [List.getElem?_eq_none_iff.2 (Nat.not_lt.1 inside),
        List.getElem?_eq_none_iff.2 (lengths ▸ Nat.not_lt.1 inside), lengths]
      exact .refuse rfl ⟨rfl, rfl⟩
  · exact .of_refused (Action.bind_run_error _ (Action.ask_run_error asked))
      (Action.bind_run_error _ (Action.ask_run_error asked')) rfl ⟨rfl, rfl⟩

omit [Language S] in
theorem state?_of_grows {state : EditorState S} (grows : w.arena.Grows w'.arena)
    (held : w.arena.state? x = some state) : w'.arena.state? x = some state := by
  obtain ⟨editor, found, rfl⟩ := Arena.get?_of_state? held
  have outlined := Arena.outline_of_get? found
  exact (Arena.state?_congr ((grows x _ outlined).trans outlined.symm)).trans held

theorem openItem_takes {k : S.ListClass} {ids : List Handle} {editor : Editor S} {index : Nat}
    {item : Handle} {c : ClassKey S} {w₁ w₂ : Workspace S} (found : w.arena.get? x = some editor)
    (held : editor.state = .list k ids) (inside : index ≤ ids.length)
    (made : create (Language.list k).element editor.context w = .ok item w₁)
    (built : Built w w₁ item c editor.context) (attached : attachItem x index item w₁ = .ok () w₂)
    (done : Rewrites w₁ w₂ x (.list k (ids.insertIdx index item)) (· = item))
    (item₂ : ∃ e, w₂.arena.get? item = some e) :
    ∃ locator s, w₂.arena.locate x = .ok locator ∧ openItem x index w = .ok item { w₂ with
      histories := w₂.noting editor.context (.insertion locator index s) } := by
  have state := held ▸ Arena.state?_of_get? found
  have asked : ask (·.list x) w = .ok (k, ids) w := ask_run (Arena.list_eq_ok_iff.2 state)
  have outlined := Arena.outline_of_get? found
  obtain ⟨editor₁, found₁, same₁⟩ := Arena.get?_of_outline (built.grows x _ outlined)
  have state₁ : editor₁.state = editor.state := congrArg (·.state) same₁
  have context₁ : editor₁.context = editor.context := congrArg (·.context) same₁
  have held₁ := (state₁.trans held) ▸ Arena.state?_of_get? found₁
  obtain ⟨child, root, free, home, _⟩ := built.root
  obtain ⟨editor₂, found₂, _, context₂⟩ := done.live found₁
  obtain ⟨top, path, _, named, _⟩ := Arena.locate_spec done.sound.forest found₂
  obtain ⟨child₂, there⟩ := item₂
  obtain ⟨d, seen⟩ := Arena.exists_shows done.sound.forest there
  have located : ask (·.locate x) w₂ = .ok ⟨top, path⟩ w₂ := ask_run named
  have captured : ask (·.snapshot item) w₂ = .ok d.toSnapshot w₂ :=
    ask_run (Arena.snapshot_of_shows done.sound.forest seen)
  have edit : (do return .insertion (← ask (·.locate x)) index (← ask (·.snapshot item)) :
      Editing S Edit) w₂ = .ok (.insertion ⟨top, path⟩ index d.toSnapshot) w₂ := by
    rw [Action.bind_run_ok _ located, Action.bind_run_ok _ captured]
    rfl
  refine ⟨⟨top, path⟩, d.toSnapshot, named, ?_⟩
  rw [← context₁, ← context₂]
  simp only [openItem, Action.bind_run_ok _ (checkGap_run state inside),
    Action.bind_run_ok _ asked, Action.bind_run_ok _ (lookup_run found),
    Action.bind_run_ok _ made, placeItem, Action.bind_run_ok _ (checkGap_run held₁ inside),
    Action.bind_run_ok _ (lookup_run root), free, Option.isSome_none, Bool.false_eq_true, if_false,
    Action.bind_run_ok _ (lookup_run found₁),
    Action.bind_run_ok _ (relocate_here root (home.trans context₁.symm)),
    Action.bind_run_ok _ attached, Action.bind_run_ok _ (recordIfActive_run found₂ edit)]
  rfl

theorem openItem_noted {k : S.ListClass} {ids : List Handle} {editor : Editor S} {index : Nat}
    {item : Handle} {c : ClassKey S} {w₁ w₂ : Workspace S} (found : w.arena.get? x = some editor)
    (held : editor.state = .list k ids) (inside : index ≤ ids.length)
    (made : create (Language.list k).element editor.context w = .ok item w₁)
    (built : Built w w₁ item c editor.context) (attached : attachItem x index item w₁ = .ok () w₂)
    (done : Rewrites w₁ w₂ x (.list k (ids.insertIdx index item)) (· = item))
    (item₂ : ∃ e, w₂.arena.get? item = some e) :
    ∃ w', openItem x index w = .ok item w' ∧ Noted w₂ w' ∧ Touched w w₂ x := by
  obtain ⟨locator, s, _, opened⟩ := openItem_takes found held inside made built attached done item₂
  have outlined := Arena.outline_of_get? found
  obtain ⟨editor₁, found₁, same₁⟩ := Arena.get?_of_outline (built.grows x _ outlined)
  have state₁ : editor₁.state = editor.state := congrArg (·.state) same₁
  refine ⟨_, opened, ⟨rfl, rfl, sameGroups_noting _ _⟩, done.sound, ?_,
    built.quiet.contexts.trans done.quiet.contexts,
    .of_eq (done.quiet.histories.trans built.quiet.histories)⟩
  exact done.changes_grown built.grows built.fresh found₁ ⟨_, outlined⟩ (by
    rw [state₁, held]
    rfl)

theorem openItem_inside {k : S.ListClass} {ids : List Handle} {index : Nat} (sound : v.arena.Sound)
    (sound' : w.arena.Sound) (twins : Twins v w x y)
    (held : v.arena.state? x = some (.list k ids)) (inside : index ≤ ids.length) :
    ∃ i j v' w', openItem x index v = .ok i v' ∧ openItem y index w = .ok j w' ∧
      Abreast v w v' w' x y := by
  obtain ⟨ids', held', each⟩ := twins.list held
  obtain ⟨e, found, state⟩ := Arena.get?_of_state? held
  obtain ⟨f, found', state'⟩ := Arena.get?_of_state? held'
  have same := twins.contexts found found'
  obtain ⟨i, j, v₁, w₁, made, made', built, built', items⟩ :=
    create_twins (Language.list k).element sound sound' same
  have still := twins.enlarged sound sound' built.toAdded.enlarged built'.toAdded.enlarged
  have held₁ := state?_of_grows built.grows held
  have held₁' := state?_of_grows built'.grows held'
  obtain ⟨v₂, w₂, _, attached, attached', there, done, done', pair, items'⟩ := attachItem_twins
    built.sound built'.sound still held₁ inside (built.insertable sound found)
    (built'.insertable sound' found') items
  cases held₁'.symm.trans there
  obtain ⟨child, child', itemFound, itemFound', _⟩ := items'.live
  obtain ⟨v', ran, noted, touched⟩ := openItem_noted found state inside made built attached done
    ⟨child, itemFound⟩
  obtain ⟨w', ran', noted', touched'⟩ := openItem_noted found' state'
    (each.length_eq ▸ inside) made' built' attached' done' ⟨child', itemFound'⟩
  exact ⟨i, j, v', w', ran, ran', Abreast.noted ⟨touched, touched', pair⟩ noted noted'⟩

theorem removeAt_noted {k : S.ListClass} {ids : List Handle} {index : Nat} {item : Handle}
    (sound : w.arena.Sound) (held : w.arena.state? x = some (.list k ids))
    (listed : ids[index]? = some item) (dropped : dropItem x index w = .ok () w')
    (touched : Touched w w' x) : ∃ w'', removeAt x index w = .ok () w'' ∧ Noted w' w'' := by
  obtain ⟨editor, found, state⟩ := Arena.get?_of_state? held
  have member : item ∈ editor.state.children := by
    rw [state]
    exact List.mem_of_getElem? listed
  obtain ⟨child, childFound, _⟩ := Arena.live_child sound.forest found member
  obtain ⟨top, path, _, located, _⟩ := Arena.locate_spec sound.forest found
  obtain ⟨d, seen⟩ := Arena.exists_shows sound.forest childFound
  have located : ask (·.locate x) w = .ok ⟨top, path⟩ w := ask_run located
  have captured : ask (·.snapshot item) w = .ok d.toSnapshot w :=
    ask_run (Arena.snapshot_of_shows sound.forest seen)
  obtain ⟨editor', found', _⟩ := touched.changes.live found
  simp only [removeAt, Action.bind_run_ok _ (itemAt_run held listed),
    Action.bind_run_ok _ (recording?_run found)]
  cases w.recorder? editor.context with
  | none => exact ⟨w', dropped, rfl, rfl, .of_eq rfl⟩
  | some h =>
    refine ⟨{ w' with
        histories := w'.noting editor'.context (.removal ⟨top, path⟩ index d.toSnapshot) },
      ?_, rfl, rfl, sameGroups_noting _ _⟩
    simp only [Action.bind_run_ok _ located, Action.bind_run_ok _ captured,
      Action.bind_run_ok _ dropped]
    exact recordIfActive_run found' rfl

theorem removeAt_twins (index : Nat) (sound : v.arena.Sound) (sound' : w.arena.Sound)
    (twins : Twins v w x y) :
    Action.Together (removeAt x index) (removeAt y index) v w
      (fun _ _ v' w' => Abreast v w v' w' x y) fun v' w' => Abreast v w v' w' x y := by
  rcases (itemAt_twins index twins).cases with
    ⟨item, item', _, _, _, ran', rfl, rfl, _, k, ids, held, listed⟩ |
    ⟨_, _, _, _, ran, ran', same, rfl, rfl⟩ | ⟨_, _, _, _, ran, ran', rfl, rfl⟩
  · obtain ⟨k', ids', held', listed'⟩ := itemAt_ok ran'
    obtain ⟨v', w', dropped, dropped', abreast, _⟩ := dropItem_twins sound sound' twins held listed
    obtain ⟨v'', removed, noted⟩ := removeAt_noted sound held listed dropped abreast.left
    obtain ⟨w'', removed', noted'⟩ := removeAt_noted sound' held' listed' dropped' abreast.right
    exact .of_ok removed removed' (abreast.noted noted noted')
  · exact .of_refused (Action.bind_run_error _ ran) (Action.bind_run_error _ ran') same
      (.refl sound sound' twins)
  · exact .of_fault (Action.bind_run_error _ ran) (Action.bind_run_error _ ran')
      (.refl sound sound' twins)

theorem openItem_twins (index : Nat) (sound : v.arena.Sound) (sound' : w.arena.Sound)
    (twins : Twins v w x y) :
    Action.Together (openItem x index) (openItem y index) v w
      (fun _ _ v' w' => Abreast v w v' w' x y) fun v' w' => Abreast v w v' w' x y := by
  rcases (checkGap_twins index twins).cases with
    ⟨_, _, _, _, _, _, rfl, rfl, k, ids, held, inside⟩ |
    ⟨_, _, _, _, ran, ran', same, rfl, rfl⟩ | ⟨_, _, _, _, ran, ran', rfl, rfl⟩
  · obtain ⟨i, j, v', w', ran, ran', abreast⟩ := openItem_inside sound sound' twins held inside
    exact .of_ok ran ran' abreast
  · exact .of_refused (Action.bind_run_error _ ran) (Action.bind_run_error _ ran') same
      (.refl sound sound' twins)
  · exact .of_fault (Action.bind_run_error _ ran) (Action.bind_run_error _ ran')
      (.refl sound sound' twins)

theorem reset_twins (sound : v.arena.Sound) (sound' : w.arena.Sound) (twins : Twins v w x y) :
    Action.Together (reset x) (reset y) v w (fun _ _ v' w' => Abreast v w v' w' x y)
      fun v' w' => Abreast v w v' w' x y := by
  have begun := Abreast.refl sound sound' twins
  rcases isExpanded_twins twins with ⟨k, display, _, held, _, asked, asked'⟩ | ⟨_, _, asked, asked'⟩
  · refine .after_ok (ask_run asked) (ask_run asked') ?_
    cases display with
    | text text item => exact .fault begun
    | expanded content =>
      obtain ⟨v', w', ran, ran', confined, confined', done, _⟩ :=
        dropContent_twins sound sound' twins held
      exact recordTransition_twins "Reset" twins held begun
        (.of_ok ran ran' ⟨confined.touched, confined'.touched, done⟩)
  · exact .of_refused (Action.bind_run_error _ (Action.ask_run_error asked))
      (Action.bind_run_error _ (Action.ask_run_error asked')) rfl begun

theorem contentScope_twins (sound : v.arena.Sound) (sound' : w.arena.Sound) (twins : Twins v w x y)
    (held : v.arena.state? x = some (.expander k display)) :
    ∃ e f, v.arena.get? x = some e ∧ w.arena.get? y = some f ∧
      contentScope x v = .ok (k, (v.scopeFor k e.context).1)
        { v with contexts := (v.scopeFor k e.context).2 } ∧
      contentScope y w = .ok (k, (w.scopeFor k f.context).1)
        { w with contexts := (w.scopeFor k f.context).2 } ∧
      (v.scopeFor k e.context).2.outlook (v.scopeFor k e.context).1 =
        (w.scopeFor k f.context).2.outlook (w.scopeFor k f.context).1 ∧
      Abreast v w { v with contexts := (v.scopeFor k e.context).2 }
        { w with contexts := (w.scopeFor k f.context).2 } x y := by
  obtain ⟨display', held', _⟩ := twins.expander held
  obtain ⟨e, found, shown⟩ := Arena.get?_of_state? held
  obtain ⟨f, found', shown'⟩ := Arena.get?_of_state? held'
  have same := twins.contexts found found'
  exact ⟨e, f, found, found', contentScope_run found shown, contentScope_run found' shown',
    outlook_scopeFor k same, .enlarged twins sound sound'
      (added_scopeFor sound k e.context).enlarged (added_scopeFor sound' k f.context).enlarged⟩

theorem Companions.fills {m n : Handle} {e f : Editor S} {pairs : Build.Pairs}
    (companions : Companions v₀ w₀ v' w' (v.scopeFor k e.context).1 (w.scopeFor k f.context).1 pairs)
    (member : (m, n) ∈ pairs) (sound : v₀.arena.Sound) (sound' : w₀.arena.Sound)
    (twins : Twins v₀ w₀ x y) (held : v₀.arena.state? x = some (.expander k display))
    (found : v₀.arena.get? x = some e) (found' : w₀.arena.get? y = some f)
    (grown : (v.scopeFor k e.context).2.Grown v₀.contexts)
    (grown' : (w.scopeFor k f.context).2.Grown w₀.contexts) :
    Action.Together (fill x m) (fill y n) v' w' (fun _ _ v' w' => Abreast v₀ w₀ v' w' x y)
      fun v' w' => Abreast v₀ w₀ v' w' x y := by
  obtain ⟨isNew, isNew'⟩ := companions.roots m n member
  have begun := Abreast.enlarged twins sound sound' companions.left companions.right
  obtain ⟨_, now⟩ := begun.left.expander held
  exact fill_twins sound sound' begun now (companions.twins m n member)
    (isNew.proposed companions.left sound found grown)
    (isNew'.proposed companions.right sound' found' grown')

theorem Companions.showText {old : String} {oldItem : Option Candidate} {own other : Context}
    {pairs : Build.Pairs} (companions : Companions v₀ w₀ v w own other pairs) (text : String)
    (item : Option Candidate) (sound : v₀.arena.Sound) (sound' : w₀.arena.Sound)
    (twins : Twins v₀ w₀ x y)
    (held : v₀.arena.state? x = some (.expander k (.text old oldItem))) :
    ∃ v' w', showText x text item v = .ok () v' ∧ showText y text item w = .ok () w' ∧
      Abreast v₀ w₀ v' w' x y := by
  have begun := Abreast.enlarged twins sound sound' companions.left companions.right
  obtain ⟨v', w', ran, ran', abreast, _⟩ := showText_twins text item begun.left.sound
    begun.right.sound begun.twins (state?_of_grows companions.left.grows held)
  exact ⟨v', w', ran, ran', begun.trans abreast sound sound'⟩

theorem expand_twins (isBlind : Language.Blind S) (sound : v.arena.Sound) (sound' : w.arena.Sound)
    (twins : Twins v w x y) :
    Action.Together (expand x) (expand y) v w
      (fun p q v' w' => p = q ∧ Abreast v w v' w' x y) fun v' w' => Abreast v w v' w' x y := by
  refine .bind ((requireTextMode_twins .expanding twins).mono ?_ ?_)
  · rintro _ _ v w ⟨rfl, rfl, k, old, oldItem, held⟩
    have shown : ask (·.shownText x) v = .ok (some old) v := ask_run (by
      simp only [Arena.shownText, Arena.displayOf_eq_ok_iff.2 ⟨k, held⟩, Bind.bind, Except.bind]
      rfl)
    have shown' : ask (·.shownText y) w = .ok (some old) w := ask_run (by
      simp only [Arena.shownText, Arena.displayOf_eq_ok_iff.2 ⟨k, twins.text held⟩, Bind.bind,
        Except.bind]
      rfl)
    obtain ⟨e, f, found, found', ran, ran', same, ahead⟩ :=
      contentScope_twins sound sound' twins held
    refine .after_ok shown shown' (.after_ok ran ran' (.bind ((askHook_twins ((isBlind k).1 old)
      ahead.left.sound ahead.right.sound ahead.twins same).mono ?_
      fun _ _ impossible => impossible.elim)))
    rintro a b v₂ w₂ ⟨pairs, companions, answered⟩
    have hooked := Abreast.enlarged ahead.twins ahead.left.sound ahead.right.sound companions.left
      companions.right
    cases answered with
    | some paired =>
      refine .bind ((recordTransition_twins "Expand" ahead.twins held hooked
        (companions.fills paired ahead.left.sound ahead.right.sound ahead.twins held found found'
          (.refl _) (.refl _))).mono ?_ ?_)
      · exact fun _ _ v' w' abreast => .pure ⟨rfl, ahead.trans abreast sound sound'⟩
      · exact fun v' w' abreast => ahead.trans abreast sound sound'
    | none => exact .pure ⟨rfl, ahead.trans hooked sound sound'⟩
  · rintro v w ⟨rfl, rfl⟩
    exact .refl sound sound' twins

theorem chooseText_twins {e f : Editor S} {old : String} {oldItem : Option Candidate}
    {pairs : Build.Pairs} (isBlind : Language.Blind S) (choice : Choice)
    (companions : Companions v₀ w₀ v' w' (v.scopeFor k e.context).1 (w.scopeFor k f.context).1 pairs)
    (sound : v₀.arena.Sound) (sound' : w₀.arena.Sound) (twins : Twins v₀ w₀ x y)
    (held : v₀.arena.state? x = some (.expander k (.text old oldItem)))
    (found : v₀.arena.get? x = some e) (found' : w₀.arena.get? y = some f)
    (grown : (v.scopeFor k e.context).2.Grown v₀.contexts)
    (grown' : (w.scopeFor k f.context).2.Grown w₀.contexts)
    (same : v₀.contexts.outlook (v.scopeFor k e.context).1 =
      w₀.contexts.outlook (w.scopeFor k f.context).1) :
    Action.Together (do
        match ← askHook x (v.scopeFor k e.context).1 ((Language.expander k).openText choice.text) with
        | some editor =>
          let _ ← fill x editor
        | none => showText x choice.text (some choice.item)) (do
        match ← askHook y (w.scopeFor k f.context).1 ((Language.expander k).openText choice.text) with
        | some editor =>
          let _ ← fill y editor
        | none => showText y choice.text (some choice.item)) v' w'
      (fun _ _ v' w' => Abreast v₀ w₀ v' w' x y) fun v' w' => Abreast v₀ w₀ v' w' x y := by
  have hooked := Abreast.enlarged twins sound sound' companions.left companions.right
  rw [← Contexts.outlook_grown companions.left.contexts,
    ← Contexts.outlook_grown companions.right.contexts] at same
  refine .bind ((askHook_twins ((isBlind k).1 choice.text) hooked.left.sound hooked.right.sound
    hooked.twins same).mono ?_ fun _ _ impossible => impossible.elim)
  rintro a b v₁ w₁ ⟨pairs', companions', answered⟩
  have held' := state?_of_grows companions.left.grows held
  cases answered with
  | some paired =>
    obtain ⟨e', now, sameLeft⟩ := Arena.get?_of_outline
      (companions.left.grows x _ (Arena.outline_of_get? found))
    obtain ⟨f', now', sameRight⟩ := Arena.get?_of_outline
      (companions.right.grows y _ (Arena.outline_of_get? found'))
    have context : e'.context = e.context := congrArg (·.context) sameLeft
    have context' : f'.context = f.context := congrArg (·.context) sameRight
    rw [← context, ← context'] at companions'
    refine .bind ((companions'.fills paired hooked.left.sound hooked.right.sound hooked.twins held'
      now now' (context ▸ grown.trans companions.left.contexts)
      (context' ▸ grown'.trans companions.right.contexts)).mono ?_ ?_)
    · exact fun _ _ v' w' abreast => .pure (hooked.trans abreast sound sound')
    · exact fun v' w' abreast => hooked.trans abreast sound sound'
  | none =>
    obtain ⟨v₂, w₂, shown, shown', abreast⟩ := companions'.showText choice.text (some choice.item)
      hooked.left.sound hooked.right.sound hooked.twins held'
    exact .of_ok shown shown' (hooked.trans abreast sound sound')

theorem chooseExpander_twins (isBlind : Language.Blind S) (choice : Choice) (sound : v.arena.Sound)
    (sound' : w.arena.Sound) (twins : Twins v w x y) :
    Action.Together (chooseExpander x choice) (chooseExpander y choice) v w
      (fun _ _ v' w' => Abreast v w v' w' x y) fun v' w' => Abreast v w v' w' x y := by
  refine .bind ((requireTextMode_twins .choosing twins).mono ?_ ?_)
  · rintro _ _ v w ⟨rfl, rfl, k, old, oldItem, held⟩
    obtain ⟨e, f, found, found', ran, ran', same, ahead⟩ :=
      contentScope_twins sound sound' twins held
    have ready := ahead.left.sound
    have ready' := ahead.right.sound
    refine .after_ok ran ran' ((recordTransition_twins "Complete" ahead.twins held
      (.refl ready ready' ahead.twins) (.bind ((askHook_twins ((isBlind k).2.1 choice.item) ready
        ready' ahead.twins same).mono ?_ fun _ _ impossible => impossible.elim))).mono ?_ ?_)
    · rintro a b v₂ w₂ ⟨pairs, companions, answered⟩
      cases answered with
      | some paired =>
        refine .after_ok rfl rfl (.bind ((companions.fills paired ready ready' ahead.twins held
          found found' (.refl _) (.refl _)).mono ?_ fun _ _ abreast => abreast))
        exact fun _ _ v' w' abreast => .pure abreast
      | none =>
        exact chooseText_twins isBlind choice companions ready ready' ahead.twins held found found'
          (.refl _) (.refl _) same
    · exact fun _ _ v' w' abreast => ahead.trans abreast sound sound'
    · exact fun v' w' abreast => ahead.trans abreast sound sound'
  · rintro v w ⟨rfl, rfl⟩
    exact .refl sound sound' twins

theorem pasteContent_twins (s : Snapshot) (sound : v.arena.Sound) (sound' : w.arena.Sound)
    (twins : Twins v w x y) (held : v.arena.state? x = some (.expander k display)) :
    Action.Together (pasteContent x s) (pasteContent y s) v w
      (fun p q v' w' => p = q ∧ Abreast v w v' w' x y) fun v' w' => Abreast v w v' w' x y := by
  obtain ⟨e, f, found, found', ran, ran', same, ahead⟩ := contentScope_twins sound sound' twins held
  have ready := ahead.left.sound
  have ready' := ahead.right.sound
  refine .after_ok ran ran' (.bind (.attempt (((rebuildWith_twins restore_agrees s ready ready'
    same).meets (rebuildWith_meets restore_safe ready) (rebuildWith_meets restore_safe ready')).mono ?_
    fun _ _ added => added) ?_ ?_))
  · rintro i j v₂ w₂ ⟨pair, ⟨c, built⟩, c', built'⟩
    have rebuilt := Abreast.enlarged ahead.twins ready ready' built.toAdded.enlarged
      built'.toAdded.enlarged
    obtain ⟨e₂, f₂, found₂, found₂', _, form⟩ := pair.live
    have key : ask (·.keyOf i) v₂ = .ok e₂.state.classKey v₂ := ask_run (by
      simp only [Arena.keyOf, Arena.get_of_get? found₂, Bind.bind, Except.bind]
      rfl)
    have key' : ask (·.keyOf j) w₂ = .ok e₂.state.classKey w₂ := ask_run (by
      rw [EditorState.classKey_of_form form]
      simp only [Arena.keyOf, Arena.get_of_get? found₂', Bind.bind, Except.bind]
      rfl)
    refine .after_ok key key' ?_
    split
    · have held₂ := state?_of_grows built.grows held
      have proposed := (built.newRoot (.refl ready)).proposed built.toAdded.enlarged ready found
        (.refl _)
      have proposed' := (built'.newRoot (.refl ready')).proposed built'.toAdded.enlarged ready' found'
        (.refl _)
      obtain ⟨v₃, w₃, text, item, cleared, cleared', clear, clear', twins₃, held₃⟩ :=
        clear_twins rebuilt.left.sound rebuilt.right.sound rebuilt.twins held₂
      have emptied := rebuilt.trans ⟨clear.toConfined.touched, clear'.toConfined.touched, twins₃⟩
        ready ready'
      have sources := pair.frame rebuilt.left.sound.forest rebuilt.right.sound.forest
        (proposed.toOffered.cleared clear).2 (proposed'.toOffered.cleared clear').2
      simp only [ask_then]
      refine .bind ((recordTransition_twins "Paste" ahead.twins held rebuilt (.after_ok cleared
        cleared' (.bind ((fill_twins ready ready' emptied held₃ sources (proposed.cleared clear)
          (proposed'.cleared clear')).mono ?_ fun _ _ abreast => abreast)))).mono ?_ ?_)
      · exact fun _ _ v' w' abreast => .pure abreast
      · exact fun _ _ v' w' abreast => .pure ⟨rfl, ahead.trans abreast sound sound'⟩
      · exact fun v' w' abreast => ahead.trans abreast sound sound'
    · refine .after_ok (dispose_run i v₂) (dispose_run j w₂) (.pure ⟨rfl, ?_⟩)
      exact ahead.trans (.enlarged ahead.twins ready ready' (built.dispose ready).enlarged
        (built'.dispose ready').enlarged) sound sound'
  · rintro _ _ v₂ w₂ _ ⟨_, ⟨_, added⟩, _, added'⟩
    exact .pure ⟨rfl, ahead.trans (.enlarged ahead.twins ready ready' added.enlarged
      added'.enlarged) sound sound'⟩
  · rintro v₂ w₂ ⟨_, ⟨_, added⟩, _, added'⟩
    exact ahead.trans (.enlarged ahead.twins ready ready' added.enlarged added'.enlarged) sound sound'

theorem pasteExpander_twins (s : Snapshot) (sound : v.arena.Sound) (sound' : w.arena.Sound)
    (twins : Twins v w x y) (held : v.arena.state? x = some (.expander k display)) :
    Action.Together (pasteExpander x s) (pasteExpander y s) v w
      (fun p q v' w' => p = q ∧ Abreast v w v' w' x y) fun v' w' => Abreast v w v' w' x y := by
  unfold pasteExpander
  split
  · exact pasteContent_twins _ sound sound' twins held
  · next state plain _ =>
    cases state with
    | expanded content => exact absurd rfl (plain content)
    | text text item =>
      obtain ⟨v', w', ran, ran', abreast⟩ :=
        restoreText_twins Workspace.restore text item sound sound' twins held
      refine .bind ((recordTransition_twins "Paste" twins held (.refl sound sound' twins)
        (.of_ok ran ran' abreast)).mono ?_ fun _ _ abreast => abreast)
      exact fun _ _ v' w' abreast => .pure ⟨rfl, abreast⟩
  · exact pasteContent_twins _ sound sound' twins held

theorem paste_twins (s : Snapshot) (sound : v.arena.Sound) (sound' : w.arena.Sound)
    (twins : Twins v w x y) :
    Action.Together (paste x s) (paste y s) v w
      (fun p q v' w' => p = q ∧ Abreast v w v' w' x y) fun v' w' => Abreast v w v' w' x y := by
  have begun := Abreast.refl sound sound' twins
  obtain ⟨state, held, asked, asked'⟩ := shapeOf_twins twins
  refine .after_ok (ask_run asked) (ask_run asked') ?_
  cases state with
  | token k old oldItem =>
    simp only [EditorState.shape]
    cases s.tokenState? with
    | none => exact .pure ⟨rfl, begun⟩
    | some given =>
      rcases writeToken_twins given.1 given.2 true sound sound' twins with
        ⟨v', w', ran, ran', abreast, _⟩ | ⟨_, ran, ran'⟩
      · exact .after_ok ran ran' (.pure ⟨rfl, abreast⟩)
      · exact .of_refused (Action.bind_run_error _ ran) (Action.bind_run_error _ ran') rfl begun
  | expander k display => exact pasteExpander_twins s sound sound' twins held
  | compound k ids => exact .refuse rfl begun
  | list k ids => exact .refuse rfl begun

omit [Language S] in
theorem refuseShape_twins {ok : α → β → Workspace S → Workspace S → Prop}
    {stopped : Workspace S → Workspace S → Prop} (twins : Twins v w x y) (holds : stopped v w) :
    Action.Together (refuseShape x) (refuseShape y) v w ok stopped := by
  obtain ⟨e, f, found, found', _, form⟩ := twins.live
  refine .after_ok (lookup_run found) (lookup_run found') (.refuse ?_ holds)
  simp only [Arena.wrongShape, Refusal.anonymous, EditorState.shape_of_form form]

theorem choose_twins (isBlind : Language.Blind S) (choice : Choice) (sound : v.arena.Sound)
    (sound' : w.arena.Sound) (twins : Twins v w x y) :
    Action.Together (choose x choice) (choose y choice) v w
      (fun _ _ v' w' => Abreast v w v' w' x y) fun v' w' => Abreast v w v' w' x y := by
  have begun := Abreast.refl sound sound' twins
  obtain ⟨state, held, asked, asked'⟩ := shapeOf_twins twins
  refine .after_ok (ask_run asked) (ask_run asked') ?_
  cases state with
  | token k old oldItem =>
    rcases writeToken_twins choice.text (some choice.item) true sound sound' twins with
      ⟨v', w', ran, ran', abreast, _⟩ | ⟨_, ran, ran'⟩
    · exact .of_ok ran ran' abreast
    · exact .of_refused ran ran' rfl begun
  | expander k display => exact chooseExpander_twins isBlind choice sound sound' twins
  | compound k ids => exact refuseShape_twins twins begun
  | list k ids => exact refuseShape_twins twins begun

end StructureEditor.Workspace
