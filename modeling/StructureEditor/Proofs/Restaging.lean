import StructureEditor.Proofs.SideBySide

/-! Restoring twins. Whatever is restored from a snapshot, rebuilt from one, taken into another
context or hung below an expander, it goes the same way for twins, and the editors that come
of it are twins. -/
namespace StructureEditor.Workspace

variable {S : Signature} [Language S] {v w v' w' : Workspace S} {x y : Handle}
  {restore : Restorer S} {s : Snapshot} {own other : Context}

/-- Restoring twins from one snapshot ends the same way, and if it goes through they are twins. -/
def Restorer.Agrees (restore : Restorer S) : Prop :=
  ∀ v w x y s, v.arena.Sound → w.arena.Sound → Twins v w x y →
    Action.Together (restore x s) (restore y s) v w (fun _ _ v' w' => Twins v' w' x y)
      fun _ _ => True

theorem rebuildAsWith_twins (agrees : restore.Agrees) (c : ClassKey S) (s : Snapshot)
    (sound : v.arena.Sound) (sound' : w.arena.Sound)
    (same : v.contexts.outlook own = w.contexts.outlook other) :
    Action.Together (rebuildAsWith restore c s own) (rebuildAsWith restore c s other) v w
      (fun i j v' w' => Twins v' w' i j) fun _ _ => True := by
  obtain ⟨i, j, v₁, w₁, made, made', built, built', twins⟩ := create_twins c sound sound' same
  obtain ⟨start, finish, paused, ran⟩ := unrecorded_run own (restore i s) v₁
  obtain ⟨start', finish', paused', ran'⟩ := unrecorded_run other (restore j s) w₁
  have begun : Twins start start' i j :=
    twins.beside paused.arena paused.contexts paused'.arena paused'.contexts
  have restored : Action.Together (unrecorded own (restore i s)) (unrecorded other (restore j s))
      v₁ w₁ (fun _ _ v' w' => Twins v' w' i j) fun _ _ => True := by
    rw [Action.Together, ran, ran']
    refine Action.Together.ensuring ((agrees start start' i j s (paused.arena ▸ built.sound)
      (paused'.arena ▸ built'.sound) begun).mono ?_ fun _ _ _ => trivial)
    exact fun _ _ v' w' twins => twins.beside (paused.finished v') (paused.placed v')
      (paused'.finished w') (paused'.placed w')
  refine .after_ok made made' (.bind (.attempt (restored.mono ?_ fun _ _ done => done) ?_ ?_))
  · exact fun _ _ v' w' twins => .pure twins
  · exact fun e f v' w' anonymous _ => .after_ok (dispose_run i v') (dispose_run j w')
      (.refuse anonymous trivial)
  · exact fun _ _ _ => trivial

theorem rebuildWith_twins (agrees : restore.Agrees) (s : Snapshot) (sound : v.arena.Sound)
    (sound' : w.arena.Sound) (same : v.contexts.outlook own = w.contexts.outlook other) :
    Action.Together (rebuildWith restore s own) (rebuildWith restore s other) v w
      (fun i j v' w' => Twins v' w' i j) fun _ _ => True := by
  have registries : v.contexts.find? (·.registry) own = w.contexts.find? (·.registry) other :=
    congrArg Prod.snd (congrFun same 0)
  unfold rebuildWith
  split
  · exact .refuse rfl trivial
  · refine .asked (by simp only [Contexts.require, registries]) trivial fun registry _ => ?_
    cases registry.lookup _ with
    | error error => exact .refuse rfl trivial
    | ok c => exact rebuildAsWith_twins agrees c s sound sound' same

theorem Built.stays_disposed {m : Handle} {c : ClassKey S} {e : Editor S}
    (built : Built w w' m c own) (found : w.arena.get? x = some e) (isRoot : e.parent = none) :
    Stays w' { w' with arena := w'.arena.dispose x } m := by
  have outlined := Arena.outline_of_get? found
  obtain ⟨e', found', same⟩ := Arena.get?_of_outline (built.grows x _ outlined)
  have parent : e'.blank.parent = e.blank.parent := by rw [same]
  obtain ⟨new, newFound, newRoot, _⟩ := built.root
  refine .of_dispose built.sound found' (parent.trans isRoot) fun within => ?_
  have same := Links.within_root_unique (Arena.links_of_get? newFound) newRoot within
  rw [← same, built.fresh] at outlined
  cases outlined

theorem relocateWith_twins {e f : Editor S} (agrees : restore.Agrees) (safe : restore.Safe)
    (sound : v.arena.Sound) (sound' : w.arena.Sound) (twins : Twins v w x y)
    (found : v.arena.get? x = some e) (free : e.parent = none) (found' : w.arena.get? y = some f)
    (free' : f.parent = none) (same : v.contexts.outlook own = w.contexts.outlook other)
    (decision : e.context = own ↔ f.context = other) :
    Action.Together (relocateWith restore x own) (relocateWith restore y other) v w
      (fun m n v' w' => Twins v' w' m n) fun _ _ => True := by
  refine .after_ok (lookup_run found) (lookup_run found') ?_
  by_cases here : e.context = own
  · simp only [if_pos here, if_pos (decision.1 here)]
    exact .pure twins
  · simp only [if_neg here, if_neg (fun there => here (decision.2 there)), free, free',
      Option.isSome_none, Bool.false_eq_true, if_false]
    obtain ⟨d, seen⟩ := Arena.exists_shows sound.forest found
    have seen' := twins.shows seen
    have asked : ask (·.snapshot x) v = .ok d.toSnapshot v :=
      ask_run (Arena.snapshot_of_shows sound.forest seen)
    have asked' : ask (·.snapshot y) w = .ok d.toSnapshot w :=
      ask_run (Arena.snapshot_of_shows sound'.forest seen')
    have key : e.state.classKey = f.state.classKey := by
      obtain ⟨_, _, found₁, found₂, _, form⟩ := twins.live
      cases found.symm.trans found₁
      cases found'.symm.trans found₂
      exact EditorState.classKey_of_form form
    refine .after_ok asked asked' ?_
    rw [← key]
    refine .bind (((rebuildAsWith_twins agrees e.state.classKey d.toSnapshot sound sound' same).meets
      (rebuildAsWith_meets safe sound) (rebuildAsWith_meets safe sound')).mono ?_
        fun _ _ _ => trivial)
    rintro m n v' w' ⟨pair, built, built'⟩
    refine .after_ok (dispose_run x v') (dispose_run y w') (.pure ?_)
    exact pair.frame built.sound.forest built'.sound.forest (built.stays_disposed found free)
      (built'.stays_disposed found' free')

theorem outlook_scopeFor {e f : Editor S} (k : S.ExpanderClass)
    (same : v.contexts.outlook e.context = w.contexts.outlook f.context) :
    (v.scopeFor k e.context).2.outlook (v.scopeFor k e.context).1 =
      (w.scopeFor k f.context).2.outlook (w.scopeFor k f.context).1 := by
  rw [Contexts.outlook_of_same (grown_scopeFor v k _) (sameServices_scopeFor v k _),
    Contexts.outlook_of_same (grown_scopeFor w k _) (sameServices_scopeFor w k _),
    Contexts.outlook_scopeBelow same]

/-- The context for the content of an expander is the one that was given out for it before,
unless each content gets a new one. -/
theorem scopeFor_again {k : S.ExpanderClass} (grown : (w.scopeFor k own).2.Grown w'.contexts) :
    (w.scopeFor k own).1 = (w'.scopeFor k own).1 ↔ (Language.expander k).contentScope ≠ .fresh := by
  unfold scopeFor at *
  cases scope : (Language.expander k).contentScope with
  | own => simp
  | provided =>
    simp only [scope] at grown ⊢
    rw [grown.find? rfl own]
    simp
  | fresh =>
    simp only [scope] at grown ⊢
    obtain ⟨count, tables⟩ := grown
    have size : w'.contexts.tables.size = w.contexts.tables.size + 1 + count := by
      rw [← Array.length_toList, tables]
      simp only [Contexts.extend, Contexts.newLevel, List.length_append, Array.length_toList,
        Array.size_push, List.length_replicate]
    refine iff_of_false (fun same => ?_) (fun other => other rfl)
    have levels := congrArg Context.level same
    simp only [Contexts.extend, Contexts.newLevel] at levels
    omega

/-- A root that may become the content of an expander: it lives in the context that was given out
for the content at some time, and not above the expander. -/
structure Offered (w : Workspace S) (k : S.ExpanderClass) (source x : Handle) : Prop where
  root : ∃ child e, w.arena.get? source = some child ∧ w.arena.get? x = some e ∧
    child.parent = none ∧ ∃ w₀ : Workspace S, child.context = (w₀.scopeFor k e.context).1 ∧
      (w₀.scopeFor k e.context).2.Grown w.contexts
  apart : ¬ w.arena.links.Within source x

theorem fillWith_opened {k : S.ExpanderClass} {text : String} {item : Option Candidate}
    {source : Handle} {child e : Editor S} (root : w.arena.get? source = some child)
    (free : child.parent = none) (found : w.arena.get? x = some e)
    (held : e.state = .expander k (.text text item)) (apart : ¬ w.arena.links.Within source x) :
    fillWith restore x source w =
      (relocateWith restore source (w.scopeFor k e.context).1 >>= hang k x)
        { w with contexts := (w.scopeFor k e.context).2 } := by
  have state := held ▸ Arena.state?_of_get? found
  have different : (source == x) = false := by
    refine beq_eq_false_iff_ne.2 ?_
    rintro rfl
    exact apart .here
  simp only [fillWith, Action.bind_run_ok _ (requireTextMode_run .expanding state),
    Action.bind_run_ok _ (lookup_run root), free, different, Option.isSome_none, Bool.or_self,
    Bool.false_eq_true, if_false, Action.bind_run_ok _ (contentScope_run found held)]
  rfl

omit [Language S] in
theorem isExpanded_twins (twins : Twins v w x y) :
    (∃ k display display', v.arena.state? x = some (.expander k display) ∧
      w.arena.state? y = some (.expander k display') ∧
      v.arena.isExpanded x = .ok display.isExpanded ∧ w.arena.isExpanded y = .ok display.isExpanded) ∨
    ∃ found, found ≠ Shape.expander ∧
      v.arena.isExpanded x = .error (.wrongShape x "expander" found) ∧
      w.arena.isExpanded y = .error (.wrongShape y "expander" found) := by
  obtain ⟨e, f, found, found', _, form⟩ := twins.live
  have shapes := EditorState.shape_of_form form
  by_cases isExpander : e.state.shape = .expander
  · cases shown : e.state with
    | expander k display =>
      have held := shown ▸ Arena.state?_of_get? found
      obtain ⟨display', held', same⟩ := twins.expander held
      exact .inl ⟨k, display, display', held, held',
        Arena.isExpanded_eq_ok_iff.2 ⟨k, display, held, rfl⟩,
        Arena.isExpanded_eq_ok_iff.2 ⟨k, display', held', same⟩⟩
    | _ =>
      rw [shown] at isExpander
      cases isExpander
  · refine .inr ⟨e.state.shape, isExpander, ?_, ?_⟩
    · simp only [Arena.isExpanded, Arena.displayOf, Arena.expander_refused found isExpander,
        Bind.bind, Except.bind]
    · simp only [Arena.isExpanded, Arena.displayOf, Bind.bind, Except.bind,
        Arena.expander_refused found' (shapes ▸ isExpander), shapes]

omit [Language S] in
theorem requireTextMode_twins (use : TextModeUse) (twins : Twins v w x y) :
    Action.Together (requireTextMode x use) (requireTextMode y use) v w
      (fun _ _ v' w' => v' = v ∧ w' = w ∧
        ∃ k text item, v.arena.state? x = some (.expander k (.text text item)))
      fun v' w' => v' = v ∧ w' = w := by
  rcases isExpanded_twins twins with ⟨k, display, _, held, _, asked, asked'⟩ | ⟨_, _, asked, asked'⟩
  · refine .after_ok (ask_run asked) (ask_run asked') ?_
    cases display with
    | text text item => exact .pure ⟨rfl, rfl, k, text, item, held⟩
    | expanded content => exact .fault ⟨rfl, rfl⟩
  · exact .of_refused (Action.bind_run_error _ (Action.ask_run_error asked))
      (Action.bind_run_error _ (Action.ask_run_error asked')) rfl ⟨rfl, rfl⟩

omit [Language S] in
theorem Stays.of_relocated {source m : Handle} {child e : Editor S}
    (root : w.arena.get? source = some child) (free : child.parent = none)
    (grown : w.contexts.Grown w'.contexts) (found : w.arena.get? x = some e)
    (apart : ¬ w.arena.links.Within source x)
    (kept : ∀ z e, w.arena.outline z = some e → ¬ w.arena.links.Within source z →
      z ≠ m ∧ w'.arena.outline z = some e) : Stays w w' x := by
  refine .of_live grown (Arena.outline_of_get? found) fun z e within isLive => (kept z e isLive ?_).2
  exact Links.not_within_below (Arena.links_of_get? root) free apart within

theorem fillWith_twins {k : S.ExpanderClass} {display : Display Handle} {source source' : Handle}
    (agrees : restore.Agrees) (safe : restore.Safe) (sound : v.arena.Sound)
    (sound' : w.arena.Sound) (twins : Twins v w x y)
    (held : v.arena.state? x = some (.expander k display)) (sources : Twins v w source source')
    (offered : Offered v k source x) (offered' : Offered w k source' y) :
    Action.Together (fillWith restore x source) (fillWith restore y source') v w
      (fun _ _ v' w' => Twins v' w' x y) fun _ _ => True := by
  cases display with
  | expanded content =>
    refine .bind ((requireTextMode_twins .expanding twins).mono ?_ fun _ _ _ => trivial)
    rintro _ _ _ _ ⟨_, _, _, _, _, shown⟩
    cases held.symm.trans shown
  | text text item =>
    have held' := twins.text held
    obtain ⟨child, e, root, found, free, _, home, grown⟩ := offered.root
    obtain ⟨child', f, root', found', free', _, home', grown'⟩ := offered'.root
    have decision : child.context = (v.scopeFor k e.context).1 ↔
        child'.context = (w.scopeFor k f.context).1 := by
      rw [home, home', scopeFor_again grown, scopeFor_again grown']
    have state : e.state = .expander k (.text text item) :=
      Option.some.inj ((Arena.state?_of_get? found).symm.trans held)
    have state' : f.state = .expander k (.text text item) :=
      Option.some.inj ((Arena.state?_of_get? found').symm.trans held')
    have same := twins.contexts found found'
    have ready := added_scopeFor sound k e.context
    have ready' := added_scopeFor sound' k f.context
    rw [Action.Together, fillWith_opened root free found state offered.apart,
      fillWith_opened root' free' found' state' offered'.apart]
    have ahead := sources.added sound sound' ⟨ready.quiet.contexts, ready.grows⟩
      ⟨ready'.quiet.contexts, ready'.grows⟩
    refine Action.Together.bind (((relocateWith_twins agrees safe ready.sound ready'.sound ahead root
      free root' free' (outlook_scopeFor k same) decision).meets (relocateWith_meets safe ready.sound)
      (relocateWith_meets safe ready'.sound)).mono ?_ fun _ _ _ => trivial)
    rintro m n v₁ w₁ ⟨pair, moved, moved'⟩
    obtain ⟨_, _, fetched⟩ := fetched_of_relocated ready.sound moved found root free offered.apart
    obtain ⟨_, _, fetched'⟩ :=
      fetched_of_relocated ready'.sound moved' found' root' free' offered'.apart
    have stays : Stays v v₁ x := .of_relocated root free
      (ready.quiet.contexts.trans fetched.quiet.contexts) found offered.apart fetched.kept
    have stays' : Stays w w₁ y := .of_relocated root' free'
      (ready'.quiet.contexts.trans fetched'.quiet.contexts) found' offered'.apart fetched'.kept
    have still := twins.frame sound.forest sound'.forest stays stays'
    obtain ⟨v₂, w₂, ran, ran', done⟩ := hang_twins fetched.sound fetched'.sound still
      ((stays x .here).1.trans held) fetched.root fetched.free fetched.apart fetched'.root
      fetched'.free fetched'.apart pair
    exact .of_ok ran ran' done

theorem Built.offered {k : S.ExpanderClass} {e : Editor S} {source : Handle} {c : ClassKey S}
    (built : Built { w with contexts := (w.scopeFor k e.context).2 } w' source c
      (w.scopeFor k e.context).1) (sound : w.arena.Sound) (found : w.arena.get? x = some e) :
    Offered w' k source x := by
  obtain ⟨child, root, free, home, _⟩ := built.root
  have outlined := Arena.outline_of_get? found
  obtain ⟨e', found', same⟩ := Arena.get?_of_outline (built.grows x _ outlined)
  have context : e'.context = e.context := congrArg (·.context) same
  refine ⟨⟨child, e', root, found', free, w, ?_, ?_⟩,
    built.grows.not_within_fresh sound.forest built.fresh outlined⟩
  · rw [context, home]
  · rw [context]
    exact built.quiet.contexts

theorem Offered.cleared {k : S.ExpanderClass} {source : Handle} (offered : Offered w k source x)
    (cleared : Cleared w w' x) : Offered w' k source x ∧ Stays w w' source := by
  obtain ⟨child, e, root, found, free, w₀, home, grown⟩ := offered.root
  have notBelow : ¬ w.arena.links.Within x source := by
    intro below
    have same := Links.within_root_unique (Arena.links_of_get? root) free below
    exact offered.apart (same ▸ .here)
  have outlined := Arena.outline_of_get? root
  obtain ⟨child', root', same⟩ :=
    Arena.get?_of_outline (cleared.changes.outside source _ outlined notBelow)
  obtain ⟨e', found', kept⟩ := cleared.changes.live found
  have parent : child'.parent = child.parent := congrArg (·.parent) same
  have context : child'.context = child.context := congrArg (·.context) same
  have stands : e'.context = e.context := kept.1
  refine ⟨⟨⟨child', e', root', found', parent.trans free, w₀, ?_, ?_⟩, fun within =>
    offered.apart (cleared.within _ _ within)⟩,
    .of_changes cleared.quiet.contexts outlined cleared.changes offered.apart notBelow⟩
  · rw [context, home, stands]
  · rw [stands]
    exact grown.trans cleared.quiet.contexts

theorem refill_twins {k : S.ExpanderClass} {display : Display Handle} {source source' : Handle}
    (agrees : restore.Agrees) (safe : restore.Safe) (sound : v.arena.Sound)
    (sound' : w.arena.Sound) (twins : Twins v w x y)
    (held : v.arena.state? x = some (.expander k display)) (sources : Twins v w source source')
    (offered : Offered v k source x) (offered' : Offered w k source' y) :
    Action.Together (do clear x; let _ ← fillWith restore x source)
      (do clear y; let _ ← fillWith restore y source') v w
      (fun _ _ v' w' => Twins v' w' x y) fun _ _ => True := by
  obtain ⟨v₁, w₁, text, item, ran, ran', cleared, cleared', twins₁, held₁⟩ :=
    clear_twins sound sound' twins held
  obtain ⟨offered₁, stays⟩ := offered.cleared cleared
  obtain ⟨offered₁', stays'⟩ := offered'.cleared cleared'
  refine .after_ok ran ran' (.bind ((fillWith_twins agrees safe cleared.sound cleared'.sound twins₁
    held₁ (sources.frame sound.forest sound'.forest stays stays') offered₁ offered₁').mono ?_
      fun _ _ _ => trivial))
  exact fun _ _ _ _ done => .pure done

theorem restoreText_twins {k : S.ExpanderClass} {display : Display Handle} (restore : Restorer S)
    (text : String) (item : Option Candidate) (sound : v.arena.Sound) (sound' : w.arena.Sound)
    (twins : Twins v w x y) (held : v.arena.state? x = some (.expander k display)) :
    ∃ v' w', restoreStateWith restore x (.text text item) v = .ok () v' ∧
      restoreStateWith restore y (.text text item) w = .ok () w' ∧ Abreast v w v' w' x y := by
  obtain ⟨v₁, w₁, _, _, ran, ran', cleared, cleared', twins₁, held₁⟩ :=
    clear_twins sound sound' twins held
  obtain ⟨v₂, w₂, shown, shown', abreast, _⟩ :=
    showText_twins text item cleared.sound cleared'.sound twins₁ held₁
  refine ⟨v₂, w₂, ?_, ?_, Abreast.trans ⟨cleared.toConfined.touched, cleared'.toConfined.touched,
    twins₁⟩ abreast sound sound'⟩
  · rw [restoreStateWith_text, Action.bind_run_ok _ ran]
    exact shown
  · rw [restoreStateWith_text, Action.bind_run_ok _ ran']
    exact shown'

theorem restoreStateWith_twins {k : S.ExpanderClass} {display : Display Handle}
    (agrees : restore.Agrees) (safe : restore.Safe) (sound : v.arena.Sound)
    (sound' : w.arena.Sound) (twins : Twins v w x y)
    (held : v.arena.state? x = some (.expander k display)) (state : Display Snapshot) :
    Action.Together (restoreStateWith restore x state) (restoreStateWith restore y state) v w
      (fun _ _ v' w' => Twins v' w' x y) fun _ _ => True := by
  cases state with
  | text text item =>
    obtain ⟨v', w', ran, ran', abreast⟩ :=
      restoreText_twins restore text item sound sound' twins held
    exact .of_ok ran ran' abreast.twins
  | expanded s =>
    rw [restoreStateWith_expanded, restoreStateWith_expanded]
    obtain ⟨display', held', _⟩ := twins.expander held
    obtain ⟨e, found, shown⟩ := Arena.get?_of_state? held
    obtain ⟨f, found', shown'⟩ := Arena.get?_of_state? held'
    have same := twins.contexts found found'
    have ready := added_scopeFor sound k e.context
    have ready' := added_scopeFor sound' k f.context
    refine .after_ok (contentScope_run found shown) (contentScope_run found' shown') (.bind
      (((rebuildWith_twins agrees s ready.sound ready'.sound (outlook_scopeFor k same)).meets
        (rebuildWith_meets safe ready.sound) (rebuildWith_meets safe ready'.sound)).mono ?_
        fun _ _ _ => trivial))
    rintro i j v₁ w₁ ⟨pair, ⟨c, built⟩, ⟨c', built'⟩⟩
    have added := ready.trans built.toAdded
    have added' := ready'.trans built'.toAdded
    have still := twins.added sound sound' ⟨added.quiet.contexts, added.grows⟩
      ⟨added'.quiet.contexts, added'.grows⟩
    have held₁ : v₁.arena.state? x = some (.expander k display) := by
      obtain ⟨e₁, found₁, same₁⟩ := Arena.get?_of_outline
        (added.grows x _ (Arena.outline_of_get? found))
      have state : e₁.state = e.state := congrArg (·.state) same₁
      rw [Arena.state?_of_get? found₁, state, shown]
    exact refill_twins agrees safe added.sound added'.sound still held₁ pair
      (built.offered sound found) (built'.offered sound' found')

theorem restoreItemsWith_twins {k : S.ListClass} {ids : List Handle} {e f : Editor S}
    {element : ClassKey S} {index : Nat} {items : List Snapshot} (agrees : restore.Agrees)
    (safe : restore.Safe) (sound : v.arena.Sound) (sound' : w.arena.Sound) (twins : Twins v w x y)
    (found : v.arena.get? x = some e) (found' : w.arena.get? y = some f)
    (held : e.state = .list k ids) (inside : index ≤ ids.length) :
    Action.Together (restoreItemsWith restore x element e.context index items)
      (restoreItemsWith restore y element f.context index items) v w
      (fun _ _ v' w' => Twins v' w' x y) fun _ _ => True := by
  induction items generalizing v w e f ids index with
  | nil => exact .pure twins
  | cons s rest ih =>
    have same := twins.contexts found found'
    refine .bind (((rebuildAsWith_twins agrees element s sound sound' same).meets
      (rebuildAsWith_meets safe sound) (rebuildAsWith_meets safe sound')).mono ?_
        fun _ _ _ => trivial)
    rintro i j v₁ w₁ ⟨pair, built, built'⟩
    have outlined := Arena.outline_of_get? found
    have outlined' := Arena.outline_of_get? found'
    obtain ⟨e₁, found₁, same₁⟩ := Arena.get?_of_outline (built.grows x _ outlined)
    obtain ⟨f₁, found₁', same₁'⟩ := Arena.get?_of_outline (built'.grows y _ outlined')
    have state : e₁.state = e.state := congrArg (·.state) same₁
    have still := twins.added sound sound' ⟨built.quiet.contexts, built.grows⟩
      ⟨built'.quiet.contexts, built'.grows⟩
    obtain ⟨v₂, w₂, ids', ran, ran', _, done, done', twins₂, _⟩ := attachItem_twins built.sound
      built'.sound still ((state.trans held) ▸ Arena.state?_of_get? found₁) inside
      (built.insertable sound found) (built'.insertable sound' found') pair
    refine .after_ok ran ran' ?_
    obtain ⟨e₂, found₂, same₂⟩ :=
      Arena.get?_of_outline (done.here _ (Arena.outline_of_get? found₁))
    obtain ⟨f₂, found₂', same₂'⟩ :=
      Arena.get?_of_outline (done'.here _ (Arena.outline_of_get? found₁'))
    have held₂ : e₂.state = .list k (ids.insertIdx index i) := congrArg (·.state) same₂
    have context : e₂.context = e.context :=
      (congrArg (·.context) same₂).trans (congrArg (·.context) same₁)
    have context' : f₂.context = f.context :=
      (congrArg (·.context) same₂').trans (congrArg (·.context) same₁')
    rw [← context, ← context']
    refine ih done.sound done'.sound twins₂ found₂ found₂' held₂ ?_
    rw [List.length_insertIdx_of_le_length inside]
    omega

theorem restoreParts_twins {k : S.CompoundClass} {ids ids' : List Handle}
    {parts parts' : List (Handle × Snapshot)} (agrees : restore.Agrees) (safe : restore.Safe)
    (sound : v.arena.Sound) (sound' : w.arena.Sound) (twins : Twins v w x y)
    (held : v.arena.state? x = some (.compound k ids))
    (held' : w.arena.state? y = some (.compound k ids'))
    (places : List.Forall₂ (fun part part' => part.2 = part'.2 ∧
      ∃ index : Nat, ids[index]? = some part.1 ∧ ids'[index]? = some part'.1) parts parts') :
    Action.Together (parts.forM fun (id, s) => restore id s)
      (parts'.forM fun (id, s) => restore id s) v w
      (fun _ _ v' w' => Twins v' w' x y) fun _ _ => True := by
  induction places generalizing v w with
  | nil => exact .pure twins
  | @cons part part' _ _ place _ ih =>
    obtain ⟨c, s⟩ := part
    obtain ⟨c', s'⟩ := part'
    obtain ⟨rfl, index, listed, listed'⟩ := place
    obtain ⟨e, found, state⟩ := Arena.get?_of_state? held
    obtain ⟨f, found', state'⟩ := Arena.get?_of_state? held'
    obtain ⟨t, there, _, below⟩ := twins.state held
    cases held'.symm.trans there
    have pair := below (.component index) c c' listed listed'
    refine .bind (((agrees v w c c' s sound sound' pair).meets
      (safe v c s sound) (safe w c' s sound')).mono ?_ fun _ _ _ => trivial)
    rintro _ _ v₁ w₁ ⟨twins₁, confined, confined'⟩
    have led : v.arena.follow x [.component index] = .ok c :=
      Arena.follow_step found (by rw [state]; exact listed)
    have led' : w.arena.follow y [.component index] = .ok c' :=
      Arena.follow_step found' (by rw [state']; exact listed')
    obtain ⟨_, e₁, found₁, held₁, _⟩ :=
      confined.part sound found state (List.mem_of_getElem? listed)
    obtain ⟨_, f₁, found₁', held₁', _⟩ :=
      confined'.part sound' found' state' (List.mem_of_getElem? listed')
    exact ih confined.sound confined'.sound
      (twins.changed sound sound' led led' ⟨confined.touched, confined'.touched, twins₁⟩)
      (held₁ ▸ Arena.state?_of_get? found₁) (held₁' ▸ Arena.state?_of_get? found₁')

omit [Language S] in
theorem shapeOf_twins (twins : Twins v w x y) :
    ∃ state, v.arena.state? x = some state ∧ v.arena.shapeOf x = .ok state.shape ∧
      w.arena.shapeOf y = .ok state.shape := by
  obtain ⟨e, f, found, found', _, form⟩ := twins.live
  exact ⟨e.state, Arena.state?_of_get? found,
    Arena.shapeOf_eq_ok_iff.2 ⟨_, Arena.state?_of_get? found, rfl⟩,
    Arena.shapeOf_eq_ok_iff.2 ⟨_, Arena.state?_of_get? found', (EditorState.shape_of_form form).symm⟩⟩

omit [Language S] in
theorem checkShape_twins {next next' : Editing S Unit} {wanted : Shape} {error : Shape → Refusal}
    {ok : Unit → Unit → Workspace S → Workspace S → Prop} (twins : Twins v w x y)
    (goesOn : ∀ state, v.arena.state? x = some state → state.shape = wanted →
      Action.Together next next' v w ok fun _ _ => True) :
    Action.Together (do
      let shape ← ask (·.shapeOf x)
      if shape ≠ wanted then Action.refuse (error shape)
      next) (do
      let shape ← ask (·.shapeOf y)
      if shape ≠ wanted then Action.refuse (error shape)
      next') v w ok fun _ _ => True := by
  obtain ⟨state, held, asked, asked'⟩ := shapeOf_twins twins
  refine .after_ok (ask_run asked) (ask_run asked') ?_
  by_cases fits : state.shape = wanted
  · simp only [ne_eq, fits, not_true_eq_false, if_false]
    exact goesOn state held fits
  · simp only [ne_eq, fits, not_false_eq_true, if_true]
    exact .refuse rfl trivial

theorem forall₂_zip {ids ids' : List Handle} {snapshots : List Snapshot}
    (lengths : ids.length = ids'.length) :
    List.Forall₂ (fun part part' : Handle × Snapshot => part.2 = part'.2 ∧
      ∃ index : Nat, ids[index]? = some part.1 ∧ ids'[index]? = some part'.1)
      (ids.zip snapshots) (ids'.zip snapshots) := by
  refine List.forall₂_iff_get.2 ⟨by simp [lengths], fun index inside inside' => ?_⟩
  simp only [List.length_zip] at inside inside'
  simp only [List.get_eq_getElem, List.getElem_zip, true_and]
  exact ⟨index, List.getElem?_eq_getElem (by omega), List.getElem?_eq_getElem (by omega)⟩

theorem restoreWith_agrees (agrees : restore.Agrees) (safe : restore.Safe) :
    Restorer.Agrees (restoreWith restore) := by
  intro v w x y s sound sound' twins
  cases s with
  | token name text itemClass item =>
    refine checkShape_twins twins fun _ _ _ => ?_
    rcases writeToken_twins text (Snapshot.candidate? itemClass item) false sound sound' twins with
      ⟨v', w', ran, ran', abreast, _⟩ | ⟨_, ran, ran'⟩
    · exact .of_ok ran ran' abreast.twins
    · exact .of_refused ran ran' rfl trivial
  | expander name content text itemClass item =>
    refine checkShape_twins twins fun state held shape => ?_
    cases state with
    | expander k display =>
      split
      · exact restoreStateWith_twins agrees safe sound sound' twins held _
      · exact .pure twins
    | _ => cases shape
  | compound name components =>
    refine checkShape_twins twins fun state held shape => ?_
    cases state with
    | compound k ids =>
      obtain ⟨ids', held', each⟩ := twins.compound held
      have asked : ask (·.components x) v = .ok ids v :=
        ask_run (Arena.components_eq_ok_iff.2 ⟨k, held⟩)
      have asked' : ask (·.components y) w = .ok ids' w :=
        ask_run (Arena.components_eq_ok_iff.2 ⟨k, held'⟩)
      refine .after_ok asked asked' ?_
      rw [← each.length_eq]
      by_cases count : ids.length = components.length
      · simp only [ne_eq, count, not_true_eq_false, if_false]
        exact restoreParts_twins agrees safe sound sound' twins held held'
          (forall₂_zip each.length_eq)
      · simp only [ne_eq, count, not_false_eq_true, if_true]
        exact .refuse rfl trivial
    | _ => cases shape
  | list name items =>
    refine checkShape_twins twins fun state held shape => ?_
    cases state with
    | list k ids =>
      obtain ⟨v₁, w₁, ran, ran', abreast, empty⟩ := dropItems_twins sound sound' twins held
      obtain ⟨ids', empty', each⟩ := abreast.twins.list empty
      obtain rfl : ids' = [] := List.forall₂_nil_left_iff.1 each
      obtain ⟨e, found, state⟩ := Arena.get?_of_state? empty
      obtain ⟨f, found', _⟩ := Arena.get?_of_state? empty'
      have asked : ask (·.list x) v₁ = .ok (k, []) v₁ := ask_run (Arena.list_eq_ok_iff.2 empty)
      have asked' : ask (·.list y) w₁ = .ok (k, []) w₁ := ask_run (Arena.list_eq_ok_iff.2 empty')
      refine .after_ok ran ran' (.after_ok asked asked'
        (.after_ok (lookup_run found) (lookup_run found') ?_))
      exact restoreItemsWith_twins agrees safe abreast.left.sound abreast.right.sound abreast.twins
        found found' state (by simp)
    | _ => cases shape

theorem restoreWithin_agrees (levels : Nat) : (restoreWithin levels : Restorer S).Agrees := by
  induction levels with
  | zero => exact fun v w x y s _ _ _ => .refuse rfl trivial
  | succ levels ih => exact restoreWith_agrees ih (restoreWithin_safe levels)

theorem restore_agrees : Restorer.Agrees (Workspace.restore : Restorer S) :=
  fun v w x y s sound sound' twins => restoreWithin_agrees s.depth v w x y s sound sound' twins

end StructureEditor.Workspace
