import StructureEditor.Proofs.Order

/-! Upkeep of order. What is built from a snapshot in a governed context is in order, whatever
the snapshot says, and so is an editor after it was restored. -/
namespace StructureEditor.Workspace

variable {S : Signature} [Language S] {w w' w'' : Workspace S} {h : HistoryId} {r : Registry S}
  {id x : Handle} {restore : Restorer S} {c : ClassKey S} {s : Snapshot} {context : Context}

def Restorer.Keeps (restore : Restorer S) (h : HistoryId) (r : Registry S) : Prop :=
  ∀ w id s, w.arena.Sound → OrderBelow h r w id →
    Action.Meets (restore id s) w (fun _ w' => OrderBelow h r w' id) fun _ _ => True

theorem OrderBelow.congr (order : OrderBelow h r w id) (arena : w'.arena = w.arena)
    (contexts : w'.contexts = w.contexts) : OrderBelow h r w' id := by
  intro y e within isLive
  rw [arena] at within isLive
  have inOrder := order y e within isLive
  exact ⟨contexts ▸ inOrder.governed, arena ▸ inOrder.declared⟩

theorem OrderBelow.shrink (order : OrderBelow h r w id) (forest : w'.arena.links.Forest)
    (grown : w.contexts.Grown w'.contexts)
    (less : ∀ x e, w'.arena.outline x = some e → w.arena.outline x = some e) :
    OrderBelow h r w' id :=
  order.carry forest grown fun z e _ isLive => ⟨e, less z e isLive, rfl, rfl, .inr rfl⟩

theorem rebuildAsWith_order (keeps : restore.Keeps h r) (sound : w.arena.Sound)
    (governs : w.contexts.Governs h r context) :
    Action.Meets (rebuildAsWith restore c s context) w (fun id w' => OrderBelow h r w' id)
      fun _ _ => True := by
  have made := Arena.create_made c context sound
  obtain ⟨d, seen, _, isFresh⟩ := made.shown
  obtain ⟨editor, found, _, rfl, _⟩ := made.root
  refine .after_ok (create_run c editor.context w) (.bind (.attempt ?_))
  have order : OrderBelow h r
      { w with arena := ((Arena.create c editor.context).run w.arena).2 } _ :=
    orderBelow_fresh made.sound found seen isFresh governs
  obtain ⟨start, finish, paused, ran⟩ := unrecorded_run editor.context
    (restore ((Arena.create c editor.context).run w.arena).1 s)
    { w with arena := ((Arena.create c editor.context).run w.arena).2 }
  rw [Action.Meets, ran]
  refine Action.Meets.ensuring ((keeps start _ s (paused.arena ▸ made.sound)
    (order.congr paused.arena paused.contexts)).mono ?_ ?_)
  · exact fun _ w' order' => .pure (order'.congr (paused.finished w') (paused.placed w'))
  · intro stop w' _
    cases stop with
    | refused error => exact .after_ok (dispose_run _ _) trivial
    | fault f => trivial

theorem rebuildWith_order (keeps : restore.Keeps h r)
    (safe : restore.Safe) (sound : w.arena.Sound) (governs : w.contexts.Governs h r context) :
    Action.Meets (rebuildWith restore s context) w
      (fun id w' => OrderBelow h r w' id ∧ ∃ key, r.Has key ∧ Built w w' id key context)
      fun _ _ => True := by
  unfold rebuildWith
  split
  · trivial
  · next name _ =>
    refine .bind (.ask ?_ fun _ _ => trivial)
    intro registry answered
    simp only [Contexts.require, governs.registry] at answered
    cases answered
    cases listed : r.lookup name with
    | error error => trivial
    | ok key =>
      cases ran : rebuildAsWith restore key s context w with
      | error stop w' => exact .of_error ran trivial
      | ok id w' =>
        exact .of_ok ran ⟨(rebuildAsWith_order keeps sound governs).ok_of ran, key,
          Registry.has_of_lookup listed, (rebuildAsWith_meets safe sound).ok_of ran⟩

theorem relocateWith_order (keeps : restore.Keeps h r) (safe : restore.Safe)
    (sound : w.arena.Sound) (order : OrderBelow h r w id)
    (governs : w.contexts.Governs h r context) :
    Action.Meets (relocateWith restore id context) w (fun m w' => OrderBelow h r w' m)
      fun _ _ => True := by
  refine .bind (.ask ?_ fun _ _ => trivial)
  intro editor answered
  have found := Arena.get_eq_ok_iff.1 answered
  split
  · exact .pure order
  · cases attached : editor.parent with
    | some p => exact .refuse trivial
    | none =>
      refine .bind (.ask (fun s _ => ?_) fun _ _ => trivial)
      cases ran : rebuildAsWith restore editor.state.classKey s context w with
      | error stop w' => exact .of_error (Action.bind_run_error _ ran) trivial
      | ok m w' =>
        have built := (rebuildAsWith_meets safe sound).ok_of ran
        have order' := (rebuildAsWith_order keeps sound governs).ok_of ran
        refine .after_ok ran (.after_ok (dispose_run id w') (.pure ?_))
        obtain ⟨editor', found', _, _, parent⟩ :=
          Arena.kept_of_outline (built.grows id _ (Arena.outline_of_get? found))
        obtain ⟨sound', gone, kept⟩ :=
          Arena.sound_dispose_root built.sound found' (parent.trans attached)
        refine order'.shrink sound'.forest (.refl _) fun x e isLive => ?_
        by_cases below : w'.arena.links.Within id x
        · rw [Arena.outline_eq_none_iff.2 (gone x below)] at isLive
          cases isLive
        · simpa only [Arena.outline, kept x below] using isLive

theorem fillWith_order {source : Handle} {editor child : Editor S} (keeps : restore.Keeps h r)
    (safe : restore.Safe) (sound : w.arena.Sound) (found : w.arena.get? id = some editor)
    (governs : w.contexts.Governs h r editor.context) (root : w.arena.get? source = some child)
    (free : child.parent = none) (has : r.Has child.state.classKey)
    (order : OrderBelow h r w source) (apart : ¬ w.arena.links.Within source id) :
    Action.Meets (fillWith restore id source) w (fun _ w' => OrderBelow h r w' id)
      fun _ _ => True := by
  refine fillWith_rule (fun _ _ _ _ => apart) (fun _ => trivial) ?_
  intro k old text item e found' state isLive _ _
  cases found.symm.trans found'
  cases root.symm.trans isLive
  have ready := added_scopeFor sound k editor.context
  have order₀ : OrderBelow h r { w with contexts := (w.scopeFor k editor.context).2 } source :=
    order.shrink sound.forest ready.quiet.contexts fun _ _ isLive => isLive
  refine (Action.Meets.and (relocateWith_order keeps safe ready.sound order₀
    (governs_scopeFor governs k)) (relocateWith_meets safe ready.sound)).mono ?_ fun _ _ _ => trivial
  rintro m w₁ ⟨order₁, moved⟩
  obtain ⟨new, editor', fetched⟩ := fetched_of_relocated ready.sound moved found root free apart
  obtain ⟨w₂, hung, done, linked⟩ := fetched.hangs state
  refine .of_ok hung (done.orderBelow fetched.found ?_ ?_ ?_ ?_)
  · rw [fetched.context_eq]
    exact governs.grown (ready.quiet.contexts.trans fetched.quiet.contexts)
  · exact ⟨child.state.classKey, has, Arena.ofClass_of_outline linked fetched.key⟩
  · intro y member
    cases List.mem_singleton.1 member
    exact order₁
  · rintro z e' rfl isLive
    cases linked.symm.trans isLive
    exact ⟨List.mem_singleton.2 rfl, new.blank, Arena.outline_of_get? fetched.root, rfl, rfl⟩

theorem Built.orderBelow {m : Handle} {editor : Editor S} (built : Built w w' m c context)
    (sound : w.arena.Sound) (found : w.arena.get? x = some editor) (order : OrderBelow h r w x) :
    OrderBelow h r w' x := by
  have outlined := Arena.outline_of_get? found
  refine order.change (built.grows.changes m) sound.forest built.sound.forest built.quiet.contexts
    outlined (fun _ => Arena.not_within_fresh sound.forest built.fresh outlined) fun above => ?_
  obtain ⟨_, isLive⟩ := Arena.live_within found above
  rw [Arena.outline_eq_none_iff.1 built.fresh] at isLive
  cases isLive

theorem Built.joins_order {k : S.ListClass} {ids : List Handle} {list item : Handle} {index : Nat}
    {editor : Editor S} {element : ClassKey S} (built : Built w w₁ item element editor.context)
    (sound : w.arena.Sound) (found : w.arena.get? list = some editor)
    (held : editor.state = .list k ids) (inside : index ≤ ids.length)
    (isElement : element = (Language.list k).element) (order : OrderBelow h r w list)
    (itemOrder : OrderBelow h r w₁ item) :
    ∃ w', attachItem list index item w₁ = .ok () w' ∧
      Joined w w₁ w' list item k ids index editor.context ∧ OrderBelow h r w' list := by
  obtain ⟨w', ran, joined⟩ := built.joins sound found held inside
  obtain ⟨child, root, _, _, isKey⟩ := built.root
  have linked := joined.linked child root
  obtain ⟨editor₁, found₁, held₁, _⟩ :=
    Arena.kept_of_outline (built.grows list _ (Arena.outline_of_get? found))
  have order₁ := built.orderBelow sound found order
  have done := joined.rewrites
  have members : ∀ y ∈ ids.insertIdx index item, y = item ∨ y ∈ ids := fun y member =>
    (List.mem_insertIdx inside).1 member
  have isChild : ∀ {y}, y ∈ ids → y ∈ editor₁.state.children := fun old => held₁ ▸ held ▸ old
  have placed := Arena.links_of_get? found₁
  have inOrder := order₁.here found₁
  have declared := inOrder.declared
  rw [held₁, held] at declared
  refine ⟨w', ran, joined, done.orderBelow found₁ inOrder.governed ?_ ?_ ?_⟩
  · intro y member
    by_cases isNew : y = item
    · subst isNew
      exact Arena.ofClass_of_outline linked (isKey.trans isElement)
    · have old := (members y member).resolve_left isNew
      obtain ⟨place, childPlaced, _⟩ := built.sound.forest.linked placed (isChild old)
      obtain ⟨e, isLive, _⟩ := Arena.outline_of_links childPlaced
      refine (declared y old).carry isLive ((done.kept y ?_ isNew).trans isLive) rfl
      rintro rfl
      exact built.sound.forest.not_within_of_child placed (isChild old) .here
  · intro y member
    rcases members y member with rfl | old
    · exact itemOrder
    · exact order₁.below (built.sound.forest.within_of_child placed (isChild old))
  · rintro z e' rfl isLive
    cases linked.symm.trans isLive
    exact ⟨(List.mem_insertIdx inside).2 (.inl rfl), child.blank, Arena.outline_of_get? root, rfl, rfl⟩

theorem Cleared.orderBelow (cleared : Cleared w w' id) (order : OrderBelow h r w id)
    (found : ∃ editor, w.arena.get? id = some editor) : OrderBelow h r w' id := by
  obtain ⟨editor, found⟩ := found
  obtain ⟨k, text, item, held⟩ := cleared.held
  obtain ⟨editor', found', state⟩ := Arena.get?_of_state? held
  have context : editor'.context = editor.context := (cleared.changes.keepsPlace found found').1
  refine orderBelow_of_children cleared.sound.forest found' ?_ ?_ ?_
  · rw [context]
    exact (order.here found).governed.grown cleared.quiet.contexts
  · rw [state]
    trivial
  · simp [state, EditorState.children]

theorem showText_order {k : S.ExpanderClass} {old : String} {oldItem : Option Candidate}
    (text : String) (item : Option Candidate) (sound : w.arena.Sound)
    (held : w.arena.state? id = some (.expander k (.text old oldItem)))
    (order : OrderBelow h r w id) :
    ∃ w', showText id text item w = .ok () w' ∧ OrderBelow h r w' id := by
  obtain ⟨editor, found, _⟩ := Arena.get?_of_state? held
  obtain ⟨w', ran, done⟩ := showText_run text item sound held
  exact ⟨w', ran, done.orderBelow found (order.here found).governed trivial nofun nofun⟩

theorem restoreStateWith_order {k : S.ExpanderClass} {display : Display Handle}
    (keeps : restore.Keeps h r) (safe : restore.Safe)
    (sound : w.arena.Sound) (held : w.arena.state? id = some (.expander k display))
    (order : OrderBelow h r w id) (shown : Display Snapshot) :
    Action.Meets (restoreStateWith restore id shown) w (fun _ w' => OrderBelow h r w' id)
      fun _ _ => True := by
  refine restoreStateWith_rule safe sound shown (fun _ => trivial)
    (fun {text item _ _ _ _} _ _ cleared held' => ?_) fun {_ k' editor _} _ found state => ?_
  · obtain ⟨editor, found, _⟩ := Arena.get?_of_state? held
    obtain ⟨w₂, ran', order'⟩ := showText_order text item cleared.sound held'
      (cleared.orderBelow order ⟨editor, found⟩)
    exact .of_ok ran' order'
  · have ready := added_scopeFor sound k' editor.context
    have governs := (order.here found).governed
    refine (rebuildWith_order keeps safe ready.sound (governs_scopeFor governs k')).mono
      ?_ fun _ _ _ _ => trivial
    rintro content w₁ ⟨order₁, key, has, built⟩ _ _
    have outlined := Arena.outline_of_get? found
    obtain ⟨e₁, found₁, state₁, context₁, _⟩ := Arena.kept_of_outline (built.grows id _ outlined)
    obtain ⟨child, root, free, _, isKey⟩ := built.root
    have notAbove := built.grows.not_within_fresh ready.sound.forest built.fresh outlined
    have notBelow : ¬ w₁.arena.links.Within id content := by
      intro below
      rw [Links.within_root_unique (Arena.links_of_get? root) free below] at notAbove
      exact notAbove .here
    obtain ⟨w₂, cleared, clear⟩ := clear_run built.sound
      ((state₁.trans state) ▸ Arena.state?_of_get? found₁)
    refine .after_ok cleared ?_
    have order₂ : OrderBelow h r w₂ content := order₁.change clear.changes built.sound.forest
      clear.sound.forest clear.quiet.contexts (Arena.outline_of_get? root) (fun _ => notBelow)
      fun above => absurd above notAbove
    obtain ⟨child₂, root₂, state₂, _, free₂⟩ :=
      Arena.kept_of_outline (clear.changes.outside content _ (Arena.outline_of_get? root) notBelow)
    obtain ⟨e₂, found₂, kept⟩ := clear.changes.live found₁
    have context₂ : e₂.context = editor.context := kept.1.trans context₁
    have grown := (ready.quiet.contexts.trans built.quiet.contexts).trans clear.quiet.contexts
    refine .bind ((fillWith_order keeps safe clear.sound found₂
      (context₂ ▸ governs.grown grown) root₂ (free₂.trans free) ?_ order₂
      fun within => notAbove (clear.within _ _ within)).mono (fun _ _ done => .pure done)
      fun _ _ _ => trivial)
    rw [show child₂.state = child.state from state₂, isKey]
    exact has

theorem restoreItemsWith_order {k : S.ListClass} {ids : List Handle} {list : Handle}
    {editor : Editor S} {index : Nat} {items : List Snapshot} (keeps : restore.Keeps h r)
    (safe : restore.Safe) (sound : w.arena.Sound) (found : w.arena.get? list = some editor)
    (held : editor.state = .list k ids) (inside : index ≤ ids.length)
    (order : OrderBelow h r w list) :
    Action.Meets (restoreItemsWith restore list (Language.list k).element editor.context index
      items) w (fun _ w' => OrderBelow h r w' list) fun _ _ => True := by
  induction items generalizing w editor ids index with
  | nil => exact .pure order
  | cons s rest ih =>
    cases ran : rebuildAsWith restore (Language.list k).element s editor.context w with
    | error stop w₁ => exact .of_error (Action.bind_run_error _ ran) trivial
    | ok item w₁ =>
      have built := (rebuildAsWith_meets safe sound).ok_of ran
      have order₁ := (rebuildAsWith_order keeps sound (order.here found).governed).ok_of ran
      refine .after_ok ran ?_
      obtain ⟨w₂, attached, joined, order₂⟩ :=
        built.joins_order sound found held inside rfl order order₁
      refine .after_ok attached ?_
      obtain ⟨editor₂, found₂, held₂, context₂⟩ := joined.live
      rw [← context₂]
      refine ih joined.confined.sound found₂ held₂ ?_ order₂
      rw [List.length_insertIdx_of_le_length inside]
      omega

theorem restoreParts_order {k : S.CompoundClass} {ids : List Handle} {editor : Editor S}
    {parts : List (Handle × Snapshot)} (keeps : restore.Keeps h r) (safe : restore.Safe)
    (sound : w.arena.Sound) (found : w.arena.get? id = some editor)
    (held : editor.state = .compound k ids) (members : ∀ part ∈ parts, part.1 ∈ ids)
    (order : OrderBelow h r w id) :
    Action.Meets (parts.forM fun (id, s) => restore id s) w (fun _ w' => OrderBelow h r w' id)
      fun _ _ => True := by
  induction parts generalizing w editor with
  | nil => exact .pure order
  | cons part rest ih =>
    have member := members part (by simp)
    have isChild : part.1 ∈ editor.state.children := held ▸ member
    have placed := Arena.links_of_get? found
    have within := sound.forest.within_of_child placed isChild
    cases ran : restore part.1 part.2 w with
    | error stop w₁ => exact .of_error (Action.bind_run_error _ ran) trivial
    | ok _ w₁ =>
      have changed := (safe w part.1 part.2 sound).ok_of ran
      have partOrder := (keeps w part.1 part.2 sound (order.below within)).ok_of ran
      obtain ⟨first, editor', found', held', _⟩ := changed.part sound found held member
      refine .after_ok ran
        (ih first.sound found' held' (fun p inside => members p (by simp [inside])) ?_)
      exact order.change changed.changes sound.forest changed.sound.forest changed.quiet.contexts
        (Arena.outline_of_get? found)
        (fun _ => sound.forest.not_within_of_child placed isChild) fun _ => partOrder

theorem dropItems_order {k : S.ListClass} {ids : List Handle} {list : Handle}
    (sound : w.arena.Sound) (held : w.arena.state? list = some (.list k ids))
    (order : OrderBelow h r w list) :
    ∃ w' editor, dropItems list w = .ok () w' ∧ w'.arena.Sound ∧
      w'.arena.get? list = some editor ∧ editor.state = .list k [] ∧ OrderBelow h r w' list := by
  obtain ⟨editor, found, _⟩ := Arena.get?_of_state? held
  obtain ⟨w', ran, sound', quiet, changes, empty⟩ := dropItems_run sound held
  obtain ⟨editor', found', state⟩ := Arena.get?_of_state? empty
  have context : editor'.context = editor.context := (changes.keepsPlace found found').1
  refine ⟨w', editor', ran, sound', found', state, orderBelow_of_children sound'.forest found' ?_ ?_ ?_⟩
  · rw [context]
    exact (order.here found).governed.grown quiet.contexts
  · rw [state]
    exact nofun
  · simp [state, EditorState.children]

theorem restoreWith_keeps (keeps : restore.Keeps h r) (safe : restore.Safe)
    : Restorer.Keeps (restoreWith restore) h r := by
  intro w id s sound order
  refine restoreWith_rule sound (fun _ => trivial) ?_ ?_ ?_ ?_
  · rintro name text itemClass item k old oldItem rfl held
    obtain ⟨editor, found, _⟩ := Arena.get?_of_state? held
    obtain ⟨w', ran, done⟩ := writeToken_quiet text (Snapshot.candidate? itemClass item) sound held
    exact .of_ok ran (done.orderBelow found (order.here found).governed trivial nofun nofun)
  · exact fun state k display _ held =>
      restoreStateWith_order keeps safe sound held order state
  · rintro name components k ids editor rfl found state -
    exact restoreParts_order keeps safe sound found state
      (fun part inside => (List.of_mem_zip inside).1) order
  · rintro name items k ids editor w₁ rfl held ran - found state
    obtain ⟨w', editor', ran', sound₁, found', _, order₁⟩ := dropItems_order sound held order
    cases ran.symm.trans ran'
    cases found.symm.trans found'
    exact restoreItemsWith_order keeps safe sound₁ found state (Nat.zero_le _) order₁

theorem restoreWithin_keeps (levels : Nat) :
    (restoreWithin levels : Restorer S).Keeps h r := by
  induction levels with
  | zero => exact fun w id s sound order => .refuse trivial
  | succ levels ih => exact restoreWith_keeps ih (restoreWithin_safe levels)

theorem restore_keeps :
    Restorer.Keeps (Workspace.restore : Restorer S) h r :=
  fun w id s sound order => restoreWithin_keeps s.depth w id s sound order

end StructureEditor.Workspace
