import StructureEditor.Proofs.Restoring

/-! How a workspace unfolds. Whatever is asked of it, documents change in three ways only: an
editor is inserted above roots, a whole tree is disposed of, or one editor turns into another
state, which its views are told. Building and restoring are shown here to be made of such
steps; what holds at the beginning and is kept by each step holds throughout. -/
namespace StructureEditor

variable {S : Signature}

inductive Announces : EditorState S → Notice S → EditorState S → Prop where
  | typed {k : S.TokenClass} {old text : String} {oldItem item : Option Candidate} :
      Announces (.token k old oldItem) (.displayText text) (.token k text item)
  | shown {k : S.ExpanderClass} {old text : String} {oldItem item : Option Candidate} :
      Announces (.expander k (.text old oldItem)) (.displayText text)
        (.expander k (.text text item))
  | emptied {k : S.ExpanderClass} {content : Handle} :
      Announces (.expander k (.expanded content)) .reset (.expander k .initial)
  | filled {k : S.ExpanderClass} {old : String} {oldItem : Option Candidate} {content : Handle} :
      Announces (.expander k (.text old oldItem)) (.expanded content)
        (.expander k (.expanded content))
  | added {k : S.ListClass} {ids : List Handle} {index : Nat} {item : Handle}
      (inside : index ≤ ids.length) :
      Announces (.list k ids) (.itemAdded index item) (.list k (ids.insertIdx index item))
  | removed {k : S.ListClass} {ids : List Handle} {index : Nat} (inside : index < ids.length) :
      Announces (.list k ids) (.itemRemoved index) (.list k (ids.eraseIdx index))

theorem Announces.classKey {state state' : EditorState S} {notice : Notice S}
    (announces : Announces state notice state') : state'.classKey = state.classKey := by
  cases announces <;> rfl

namespace Arena

def classOf? (a : Arena S) (x : Handle) : Option (ClassKey S) :=
  (a.state? x).map EditorState.classKey

theorem classOf?_of_get? {a : Arena S} {x : Handle} {editor : Editor S}
    (found : a.get? x = some editor) : a.classOf? x = some editor.state.classKey := by
  rw [classOf?, state?_of_get? found, Option.map_some]

variable [Language S]

def Proper (a : Arena S) : EditorState S → Prop
  | .token .. | .expander .. => True
  | .compound k ids => ids.map a.classOf? = (Language.compound k).components.map some
  | .list k ids => ∀ y ∈ ids, a.classOf? y = some (Language.list k).element

theorem MadeAll.proper {context : Context} {a a' : Arena S} {ids : List Handle} {k : S.CompoundClass}
    (made : a.MadeAll a' ids (Language.compound k).components context) :
    a'.Proper (.compound k ids) := by
  obtain ⟨ds, seen, keys, -⟩ := made.shown
  rw [Proper, ← keys, List.map_map]
  clear keys made
  induction seen with
  | nil => rfl
  | cons first _ ih =>
    obtain ⟨state, held, key⟩ := first.state
    rw [List.map_cons, List.map_cons, ih, classOf?, held, Option.map_some, key]
    rfl

theorem Proper.carry {a b : Arena S} {state : EditorState S} (proper : a.Proper state)
    (same : ∀ y ∈ state.children, b.classOf? y = a.classOf? y) : b.Proper state := by
  cases state with
  | token => trivial
  | expander => trivial
  | compound k ids => exact (List.map_congr_left same).trans proper
  | list k ids => exact fun y member => (same y member).trans (proper y member)

variable {a : Arena S} {id : Handle} {editor : Editor S}

theorem of_insert {context : Context} {state : EditorState S} (sound : a.Sound)
    (kids : ∀ c ∈ state.children, ∃ child, a.get? c = some child ∧ child.parent = none ∧
      (state.sharesContext = true → child.context = context)) (distinct : state.children.Nodup)
    {y : Handle} {e' : Editor S} (isLive : (a.insert context state).2.get? y = some e') :
    (e'.parent = none ∧ e'.views = [] ∧ e'.state = state) ∨
      ∃ e, a.get? y = some e ∧ e'.views = e.views ∧ e'.result = e.result ∧ e'.state = e.state := by
  obtain ⟨_, fresh, ⟨r, new⟩, adopted, others⟩ := insert_spec context state sound kids distinct
  by_cases isNew : y = (a.insert context state).1
  · subst isNew
    rw [new] at isLive
    cases isLive
    exact .inl ⟨rfl, rfl, rfl⟩
  · refine .inr ?_
    by_cases isKid : y ∈ state.children
    · obtain ⟨child, found, _⟩ := kids y isKid
      rw [adopted y isKid child found] at isLive
      cases isLive
      exact ⟨child, found, rfl, rfl, rfl⟩
    · rw [others y isNew isKid] at isLive
      exact ⟨e', isLive, rfl, rfl, rfl⟩

theorem of_dispose (sound : a.Sound) (found : a.get? id = some editor)
    (isRoot : editor.parent = none) {y : Handle} {e' : Editor S}
    (isLive : (a.dispose id).get? y = some e') : a.get? y = some e' := by
  obtain ⟨_, gone, kept⟩ := sound_dispose_root sound found isRoot
  by_cases within : a.links.Within id y
  · rw [gone y within] at isLive
    cases isLive
  · rwa [kept y within] at isLive

end Arena

namespace Workspace

/-- Only contexts and histories differ. -/
structure Beside (w w' : Workspace S) : Prop where
  arena : w'.arena = w.arena
  views : w'.views = w.views
  journal : w'.journal = w.journal

variable {α β : Type} {w w' w'' w₀ : Workspace S} {id : Handle}

theorem Beside.refl (w : Workspace S) : Beside w w := ⟨rfl, rfl, rfl⟩

theorem Beside.trans (first : Beside w w') (second : Beside w' w'') : Beside w w'' :=
  ⟨second.arena.trans first.arena, second.views.trans first.views,
    second.journal.trans first.journal⟩

/-- Recording and the making of contexts do not count. -/
def Lasting (P : Workspace S → Prop) : Prop := ∀ w w', Beside w w' → P w → P w'

/-- However it ends, the workspace has a property. -/
def Ensures (action : Editing S α) (w : Workspace S) (P : Workspace S → Prop) : Prop :=
  Action.Meets action w (fun _ w' => P w') fun _ w' => P w'

/-- However it ends, only contexts and histories differ. -/
def Still (action : Editing S α) (w : Workspace S) : Prop :=
  Action.Meets action w (fun _ w' => Beside w w') fun _ w' => Beside w w'

variable {P : Workspace S → Prop}

theorem forM_ensures {f : α → Editing S Unit} (each : ∀ x w, P w → Ensures (f x) w P)
    (xs : List α) (holds : P w) : Ensures (xs.forM f) w P := by
  induction xs generalizing w with
  | nil => exact .pure holds
  | cons x xs ih =>
    exact .bind ((each x w holds).mono (fun _ w' holds => ih holds) fun _ _ holds => holds)

theorem beside_finish {start : Workspace S} {finish : Workspace S → Workspace S}
    (paused : Paused w start finish) (w' : Workspace S) : Beside w' (finish w') :=
  ⟨paused.finished w', paused.finishedViews w', paused.finishedJournal w'⟩

theorem unrecorded_ensures {action : Editing S α} (lasts : Lasting P) (context : Context)
    (holds : ∀ w' : Workspace S, Beside w w' → w'.contexts = w.contexts → Ensures action w' P) :
    Ensures (unrecorded context action) w P := by
  obtain ⟨start, finish, paused, ran⟩ := unrecorded_run context action w
  unfold Ensures Action.Meets
  rw [ran]
  have begun : Beside w start := ⟨paused.arena, paused.views, paused.journal⟩
  refine Action.Meets.ensuring ((holds start begun paused.contexts).mono ?_ ?_)
  · exact fun _ w' holds => lasts w' _ (beside_finish paused w') holds
  · exact fun _ w' holds => lasts w' _ (beside_finish paused w') holds

variable [Language S]

/-- One editor turned into another state. Its views are told so, all views are told the results
that changed, and some editors may be gone. -/
structure Turn (w w' : Workspace S) (id : Handle) (notice : Notice S) : Prop
    extends Telling w w' id notice where
  sound : w'.arena.Sound
  views : w'.views = w.views
  here : ∃ e e', w.arena.get? id = some e ∧ w'.arena.get? id = some e' ∧ e'.views = e.views ∧
    Announces e.state notice e'.state
  kept : ∀ x e', x ≠ id → w'.arena.get? x = some e' →
    ∃ e, w.arena.get? x = some e ∧ e'.views = e.views ∧ e'.state = e.state

theorem Turn.was {notice : Notice S} {e' : Editor S} {y : Handle} (turn : Turn w w' id notice)
    (isLive : w'.arena.get? y = some e') : ∃ e, w.arena.get? y = some e ∧ e'.views = e.views ∧
      ((y ≠ id ∧ e'.state = e.state) ∨ (y = id ∧ Announces e.state notice e'.state)) := by
  by_cases here : y = id
  · subst here
    obtain ⟨e, e₁, found, found', views, announces⟩ := turn.here
    rw [isLive] at found'
    cases found'
    exact ⟨e, found, views, .inr ⟨rfl, announces⟩⟩
  · obtain ⟨e, found, views, state⟩ := turn.kept y e' here isLive
    exact ⟨e, found, views, .inl ⟨here, state⟩⟩

def Admits (w : Workspace S) (id : Handle) : Notice S → Prop
  | .itemAdded _ item => ∃ k ids, w.arena.state? id = some (.list k ids) ∧
    w.arena.classOf? item = some (Language.list k).element
  | _ => True

/-- One workspace comes from another in steps. Strictly, only editors of the declared classes are
put into compounds and lists. -/
inductive Unfolds (strict : Bool) (w₀ : Workspace S) : Workspace S → Prop where
  | start (sound : w₀.arena.Sound) : Unfolds strict w₀ w₀
  | beside {w w' : Workspace S} : Unfolds strict w₀ w → Beside w w' → Unfolds strict w₀ w'
  | insert {w : Workspace S} (context : Context) (state : EditorState S) : Unfolds strict w₀ w →
      (∀ c ∈ state.children, ∃ child, w.arena.get? c = some child ∧ child.parent = none ∧
        (state.sharesContext = true → child.context = context)) →
      state.children.Nodup → (strict = true → w.arena.Proper state) →
      Unfolds strict w₀ { w with arena := (w.arena.insert context state).2 }
  | dispose {w : Workspace S} {id : Handle} {editor : Editor S} : Unfolds strict w₀ w →
      w.arena.get? id = some editor → editor.parent = none →
      Unfolds strict w₀ { w with arena := w.arena.dispose id }
  | turn {w w' : Workspace S} {id : Handle} {notice : Notice S} : Unfolds strict w₀ w →
      Turn w w' id notice → (strict = true → w.Admits id notice) → Unfolds strict w₀ w'

variable {strict : Bool}

theorem Unfolds.sound (run : Unfolds strict w₀ w) : w.arena.Sound := by
  induction run with
  | start sound => exact sound
  | beside _ beside ih => exact beside.arena ▸ ih
  | insert context state _ kids distinct _ ih =>
    exact (Arena.insert_spec context state ih kids distinct).sound
  | dispose _ found isRoot ih => exact (Arena.sound_dispose_root ih found isRoot).1
  | turn _ turn _ _ => exact turn.sound

theorem unfolds_lasting : Lasting (Unfolds strict w₀) := fun _ _ beside run => run.beside beside

section

omit [Language S] in
abbrev withArena (w : Workspace S) (a : Arena S) : Workspace S := { w with arena := a }

variable {a : Arena S} {context : Context} {c : ClassKey S}

theorem Unfolds.leaf {state : EditorState S} (run : Unfolds strict w₀ (w.withArena a))
    (context : Context) (leaf : state.children = []) (proper : a.Proper state) :
    Unfolds strict w₀ (w.withArena (a.insert context state).2) :=
  run.insert context state (by simp [leaf]) (by simp [leaf]) fun _ => proper

theorem create_unfolds (run : Unfolds strict w₀ w) (c : ClassKey S) (context : Context) :
    Unfolds strict w₀ (w.withArena ((Arena.create c context).run w.arena).2) := by
  suffices made : ∀ a : Arena S, Unfolds strict w₀ (w.withArena a) →
      Unfolds strict w₀ (w.withArena ((Arena.create c context).run a).2) from made w.arena run
  clear run
  induction c using ClassKey.induct with
  | token k =>
    intro a run
    rw [Arena.create_token_eq]
    exact run.leaf context rfl trivial
  | expander k =>
    intro a run
    rw [Arena.create_expander_eq]
    exact run.leaf context rfl trivial
  | list k =>
    intro a run
    rw [Arena.create_list_eq]
    exact run.leaf context rfl nofun
  | compound k ih =>
    intro a run
    have made := Arena.madeAll_mapM
      (fun d (_ : d ∈ (Language.compound k).components) a sound => Arena.create_made d context sound)
      run.sound
    have parts := Arena.mapM_keeps (P := fun a => Unfolds strict w₀ (w.withArena a)) ih run
    rw [Arena.create_compound_eq]
    exact parts.insert context _ made.kids made.distinct fun _ => made.proper

end

variable {editor : Editor S}

theorem Rewrites.turn {u : Workspace S} {state : EditorState S} {apart : Handle → Prop}
    {notice : Notice S} (done : Rewrites u w' id state apart) (beside : Beside w u)
    (found : w.arena.get? id = some editor) (announces : Announces editor.state notice state)
    (others : ∀ x e', apart x → w'.arena.outline x = some e' →
      ∃ e, w.arena.outline x = some e ∧ e'.views = e.views ∧ e'.state = e.state)
    (telling : Telling w w' id notice) : Turn w w' id notice := by
  have outlined : u.arena.outline id = some editor.blank := by
    rw [beside.arena]
    exact Arena.outline_of_get? found
  refine ⟨telling, done.sound, done.quiet.views.trans beside.views, ?_, ?_⟩
  · obtain ⟨e', found', rest⟩ := Arena.get?_of_outline (done.here _ outlined)
    have views : e'.blank.views = editor.views := by rw [rest]; rfl
    have shown : e'.blank.state = state := by rw [rest]
    exact ⟨editor, e', found, found', views, shown ▸ announces⟩
  · intro x e' other isLive
    have there := Arena.outline_of_get? isLive
    by_cases isApart : apart x
    · obtain ⟨e, was, views, state⟩ := others x _ isApart there
      obtain ⟨old, wasLive, rfl⟩ := Arena.get?_of_outline was
      exact ⟨old, wasLive, views, state⟩
    · rw [done.kept x other isApart, beside.arena] at there
      obtain ⟨old, wasLive, rest⟩ := Arena.get?_of_outline there
      exact ⟨old, wasLive, (congrArg Editor.views rest).symm, (congrArg Editor.state rest).symm⟩

theorem writeToken_unfolds (text : String) (item : Option Candidate) (undoable : Bool)
    (run : Unfolds strict w₀ w) :
    Ensures (writeToken id text item undoable) w (Unfolds strict w₀) := by
  cases answered : w.arena.token id with
  | error error =>
    have asked : ask (·.token id) w = .error (.refused error) w := Action.ask_run_error answered
    exact .of_error (Action.bind_run_error _ asked) run
  | ok answer =>
    obtain ⟨k, old, oldItem⟩ := answer
    obtain ⟨editor, found, state⟩ := Arena.get?_of_state? (Arena.token_eq_ok_iff.1 answered)
    obtain ⟨w', ran, done, telling⟩ := writeToken_turn text item undoable run.sound found state
    refine .of_ok ran (run.turn (done.turn ⟨rfl, rfl, rfl⟩ found ?_ nofun telling) fun _ => trivial)
    rw [state]
    exact .typed

theorem showText_unfolds {k : S.ExpanderClass} {old : String} {oldItem : Option Candidate}
    (text : String) (item : Option Candidate) (run : Unfolds strict w₀ w)
    (held : w.arena.state? id = some (.expander k (.text old oldItem))) :
    Ensures (showText id text item) w (Unfolds strict w₀) := by
  obtain ⟨editor, found, state⟩ := Arena.get?_of_state? held
  obtain ⟨w', ran, done, telling⟩ := showText_turn text item run.sound held
  refine .of_ok ran (run.turn (done.turn (.refl w) found ?_ nofun telling) fun _ => trivial)
  rw [state]
  exact .shown

theorem dropContent_unfolds (run : Unfolds strict w₀ w) :
    Ensures (dropContent id) w (Unfolds strict w₀) := by
  cases answered : w.arena.expander id with
  | error error =>
    have asked : ask (·.expander id) w = .error (.refused error) w := Action.ask_run_error answered
    exact .of_error (Action.bind_run_error _ asked) run
  | ok answer =>
    obtain ⟨k, display⟩ := answer
    have held := Arena.expander_eq_ok_iff.1 answered
    cases display with
    | text text item => exact .after_ok (ask_run answered) (.fault run)
    | expanded content =>
      obtain ⟨editor, found, state⟩ := Arena.get?_of_state? held
      obtain ⟨w', ran, done, gone, telling⟩ := dropContent_turn run.sound held
      refine .of_ok ran (run.turn (done.turn (.refl w) found ?_ ?_ telling) fun _ => trivial)
      · rw [state]
        exact .emptied
      · intro x e' within isLive
        rw [gone x within] at isLive
        cases isLive

theorem dropItem_unfolds {index : Nat} (run : Unfolds strict w₀ w) :
    Ensures (dropItem id index) w (Unfolds strict w₀) := by
  cases answered : w.arena.items id with
  | error error =>
    have asked : ask (·.items id) w = .error (.refused error) w := Action.ask_run_error answered
    have searched : itemAt id index w = .error _ w := Action.bind_run_error _ asked
    exact .of_error (Action.bind_run_error _ searched) run
  | ok ids =>
    obtain ⟨k, held⟩ := Arena.items_eq_ok_iff.1 answered
    cases listed : ids[index]? with
    | some item =>
      obtain ⟨editor, found, state⟩ := Arena.get?_of_state? held
      obtain ⟨w', ran, done, gone, telling⟩ := dropItem_turn run.sound held listed
      refine .of_ok ran (run.turn (done.turn (.refl w) found ?_ ?_ telling) fun _ => trivial)
      · rw [state]
        exact .removed (List.getElem?_eq_some_iff.1 listed).1
      · intro x e' within isLive
        rw [gone x within] at isLive
        cases isLive
    | none =>
      have asked : ask (·.items id) w = .ok ids w := ask_run answered
      have searched : itemAt id index w = .error (.refused (.outOfRange index ids.length)) w := by
        simp only [itemAt, Action.bind_run_ok _ asked, listed]
        rfl
      exact .of_error (Action.bind_run_error _ searched) run

theorem dropItems_unfolds (run : Unfolds strict w₀ w) :
    Ensures (dropItems id) w (Unfolds strict w₀) :=
  .bind (.ask (fun _ _ => forM_ensures (fun _ _ run => dropItem_unfolds run) _ run) fun _ _ => run)

omit [Language S] in
theorem linked_kept {child : Editor S} {c : Handle} (root : w.arena.get? c = some child)
    (linked : w'.arena.outline c = some { child.blank with parent := some id }) :
    ∀ x e', x = c → w'.arena.outline x = some e' →
      ∃ e, w.arena.outline x = some e ∧ e'.views = e.views ∧ e'.state = e.state := by
  rintro x e' rfl isLive
  rw [linked] at isLive
  cases isLive
  exact ⟨_, Arena.outline_of_get? root, rfl, rfl⟩

theorem attachItem_ended {list item : Handle} {index : Nat} {child : Editor S} {k : S.ListClass}
    {ids : List Handle} (run : Unfolds strict w₀ w) (found : w.arena.get? list = some editor)
    (held : editor.state = .list k ids) (inside : index ≤ ids.length)
    (root : w.arena.get? item = some child) (free : child.parent = none)
    (sameContext : child.context = editor.context) (apart : ¬ w.arena.links.Within item list)
    (fits : strict = true → child.state.classKey = (Language.list k).element)
    (ran : attachItem list index item w = .ok () w') : Unfolds strict w₀ w' := by
  obtain ⟨w₁, ran₁, done, linked, telling⟩ :=
    attachItem_turn run.sound found held inside root free sameContext apart
  rw [ran] at ran₁
  cases ran₁
  refine run.turn (done.turn (.refl w) found ?_ (linked_kept root linked) telling) fun isStrict => ?_
  · rw [held]
    exact .added inside
  · refine ⟨k, ids, held ▸ Arena.state?_of_get? found, ?_⟩
    rw [Arena.classOf?_of_get? root, fits isStrict]

theorem hang_ended {child : Editor S} {content m : Handle} {k : S.ExpanderClass} {text : String}
    {item : Option Candidate} (run : Unfolds strict w₀ w) (found : w.arena.get? id = some editor)
    (held : editor.state = .expander k (.text text item))
    (root : w.arena.get? content = some child) (free : child.parent = none)
    (apart : ¬ w.arena.links.Within content id) (ran : hang k id content w = .ok m w') :
    Unfolds strict w₀ w' := by
  obtain ⟨w₁, ran₁, done, linked, telling⟩ := hang_turn run.sound found held root free apart
  rw [ran] at ran₁
  cases ran₁
  refine run.turn (done.turn (.refl w) found ?_ (linked_kept root linked) telling) fun _ => trivial
  rw [held]
  exact .filled

def Restorer.Unfolding (strict : Bool) (w₀ : Workspace S) (restore : Restorer S) : Prop :=
  ∀ w id s, Unfolds strict w₀ w → Ensures (restore id s) w (Unfolds strict w₀)

variable {restore : Restorer S} {s : Snapshot} {context : Context} {c : ClassKey S}

theorem rebuildAsWith_unfolds (safe : restore.Safe) (unfolding : restore.Unfolding strict w₀)
    (run : Unfolds strict w₀ w) :
    Ensures (rebuildAsWith restore c s context) w (Unfolds strict w₀) := by
  have made := created (w := w) (Arena.create_made c context run.sound)
  have created := create_unfolds run c context
  refine .after_ok (create_run c context w) (.bind (.attempt ((Action.Meets.and
    (unrecorded_confined context made.sound fun w sound => safe w _ s sound)
    (unrecorded_ensures unfolds_lasting context fun w' beside _ =>
      unfolding w' _ s (created.beside beside))).mono ?_ ?_)))
  · exact fun _ w' both => both.2
  · intro stop w' both
    cases stop with
    | fault f => exact both.2
    | refused error =>
      obtain ⟨editor, found, isRoot, _⟩ := (made.confined both.1 run.sound).root
      exact .after_ok (dispose_run _ w') (both.2.dispose found isRoot)

theorem rebuildWith_unfolds (safe : restore.Safe) (unfolding : restore.Unfolding strict w₀)
    (run : Unfolds strict w₀ w) :
    Ensures (rebuildWith restore s context) w (Unfolds strict w₀) := by
  unfold rebuildWith
  split
  · exact .refuse run
  · refine .bind (.ask ?_ fun _ _ => run)
    intro registry _
    cases registry.lookup _ with
    | error error => exact run
    | ok c => exact rebuildAsWith_unfolds safe unfolding run

theorem relocateWith_unfolds (safe : restore.Safe) (unfolding : restore.Unfolding strict w₀)
    (run : Unfolds strict w₀ w) :
    Ensures (relocateWith restore id context) w (Unfolds strict w₀) := by
  refine .bind (.ask ?_ fun _ _ => run)
  intro editor answered
  have found := Arena.get_eq_ok_iff.1 answered
  split
  · exact .pure run
  · cases attached : editor.parent with
    | some p => exact .refuse run
    | none =>
      refine .bind (.ask (fun s _ => ?_) fun _ _ => run)
      refine .bind ((Action.Meets.and (rebuildAsWith_meets safe run.sound)
        (rebuildAsWith_unfolds safe unfolding run)).mono ?_ fun _ _ both => both.2)
      rintro m w' ⟨built, run'⟩
      obtain ⟨editor', found', _, _, isRoot⟩ :=
        Arena.kept_of_outline (built.grows id _ (Arena.outline_of_get? found))
      exact .after_ok (dispose_run id w') (.pure (run'.dispose found' (isRoot.trans attached)))

theorem contentScope_unfolds (run : Unfolds strict w₀ w) (k : S.ExpanderClass) (own : Context) :
    Unfolds strict w₀ { w with contexts := (w.scopeFor k own).2 } :=
  run.beside ⟨rfl, rfl, rfl⟩

theorem fillWith_unfolds {source : Handle} (safe : restore.Safe)
    (unfolding : restore.Unfolding strict w₀) (run : Unfolds strict w₀ w)
    (apart : ∀ e, w.arena.get? source = some e → e.parent = none → source ≠ id →
      ¬ w.arena.links.Within source id) :
    Ensures (fillWith restore id source) w (Unfolds strict w₀) := by
  refine fillWith_rule apart (fun _ => run) fun {k old _ _ _} found state isLive free outside => ?_
  have ready := contentScope_unfolds run k old.context
  refine (Action.Meets.and (relocateWith_meets safe ready.sound)
    (relocateWith_unfolds safe unfolding ready)).mono ?_ fun _ _ both => both.2
  rintro content w₂ ⟨relocated, run₂⟩
  obtain ⟨new, old', fetched⟩ :=
    fetched_of_relocated ready.sound relocated found isLive free outside
  obtain ⟨w₃, ran, _⟩ := fetched.hangs state
  exact .of_ok ran (hang_ended run₂ fetched.found (fetched.state_eq.trans state) fetched.root
    fetched.free fetched.apart ran)

theorem clear_unfolds (run : Unfolds strict w₀ w) : Ensures (clear id) w (Unfolds strict w₀) := by
  refine .bind (.ask (fun expanded _ => ?_) fun _ _ => run)
  cases expanded with
  | false => exact .pure run
  | true => exact dropContent_unfolds run

theorem restoreStateWith_unfolds (safe : restore.Safe) (unfolding : restore.Unfolding strict w₀)
    (run : Unfolds strict w₀ w) (state : Display Snapshot) :
    Ensures (restoreStateWith restore id state) w (Unfolds strict w₀) := by
  refine restoreStateWith_rule safe run.sound state (fun _ => run)
    (fun {text item _ _ _ _} _ ran _ held =>
      showText_unfolds text item ((clear_unfolds run).ok_of ran) held)
    fun {_ k editor _} _ found _ => ?_
  have run₁ := contentScope_unfolds run k editor.context
  refine (rebuildWith_unfolds safe unfolding run₁).mono (fun content w₂ run₂ c built => ?_)
    fun _ _ run₂ _ => run₂
  refine .bind ((Action.Meets.and (clear_meets run₂.sound) (clear_unfolds run₂)).mono ?_
    fun _ _ both => both.2)
  rintro _ w₃ ⟨cleared, run₃⟩
  refine .bind ((fillWith_unfolds safe unfolding run₃ fun _ _ _ _ within => ?_).mono
    (fun _ _ run₄ => .pure run₄) fun _ _ run₄ => run₄)
  exact built.grows.not_within_fresh run₁.sound.forest built.fresh (Arena.outline_of_get? found)
    (cleared.within _ _ within)

theorem restoreItemsWith_unfolds {k : S.ListClass} {ids : List Handle} {list : Handle} {index : Nat}
    {items : List Snapshot} (safe : restore.Safe) (unfolding : restore.Unfolding strict w₀)
    (run : Unfolds strict w₀ w) (found : w.arena.get? list = some editor)
    (held : editor.state = .list k ids) (inside : index ≤ ids.length) :
    Ensures (restoreItemsWith restore list (Language.list k).element editor.context index items) w
      (Unfolds strict w₀) := by
  induction items generalizing w editor ids index with
  | nil => exact .pure run
  | cons s rest ih =>
    refine .bind ((Action.Meets.and (rebuildAsWith_meets safe run.sound)
      (rebuildAsWith_unfolds safe unfolding run)).mono ?_ fun _ _ both => both.2)
    rintro item w₁ ⟨built, run₁⟩
    have outlined := Arena.outline_of_get? found
    obtain ⟨editor', found', held', context, _⟩ :=
      Arena.kept_of_outline (built.grows list _ outlined)
    obtain ⟨child, root, free, sameContext, key⟩ := built.root
    have apart := built.grows.not_within_fresh run.sound.forest built.fresh outlined
    obtain ⟨w₂, ran, done, _⟩ := attachItem_run built.sound found' (held'.trans held) inside root free
      (sameContext.trans context.symm) apart
    have run₂ := attachItem_ended run₁ found' (held'.trans held) inside root free
      (sameContext.trans context.symm) apart (fun _ => key) ran
    refine .after_ok ran ?_
    obtain ⟨editor₂, found₂, held₂, context₂⟩ := done.live found'
    rw [show editor.context = editor₂.context from (context₂.trans context).symm]
    refine ih run₂ found₂ held₂ ?_
    rw [List.length_insertIdx_of_le_length inside]
    omega

theorem restoreWith_unfolds (safe : restore.Safe) (unfolding : restore.Unfolding strict w₀) :
    Restorer.Unfolding strict w₀ (restoreWith restore) := by
  intro w id s run
  refine restoreWith_rule run.sound (fun _ => run) ?_ ?_ ?_ ?_
  · rintro name text itemClass item k old oldItem rfl -
    exact writeToken_unfolds _ _ _ run
  · exact fun state _ _ _ _ => restoreStateWith_unfolds safe unfolding run state
  · rintro name components k ids editor rfl - - -
    exact forM_ensures (fun part w run => unfolding w part.1 part.2 run) _ run
  · rintro name items k ids editor w₁ rfl - ran - found state
    have run₁ : Unfolds strict w₀ w₁ := (dropItems_unfolds run).ok_of ran
    exact restoreItemsWith_unfolds safe unfolding run₁ found state (by simp)

theorem restoreWithin_unfolds (levels : Nat) :
    (restoreWithin levels : Restorer S).Unfolding strict w₀ := by
  induction levels with
  | zero => exact fun w id s run => .refuse run
  | succ levels ih => exact restoreWith_unfolds (restoreWithin_safe levels) ih

theorem restore_unfolding : Restorer.Unfolding strict w₀ (Workspace.restore : Restorer S) :=
  fun w id s run => restoreWithin_unfolds s.depth w id s run

end Workspace

end StructureEditor
