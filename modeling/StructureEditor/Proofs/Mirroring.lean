import StructureEditor.Proofs.Reachability
import Mathlib.Data.List.Chain

/-! Views mirror their editors. Whoever follows the notices that a view was told since it was
attached knows the editor: the last result is the cached one, the last text or content is the
one that is shown, and the items that were added and not removed are the items of the list. -/
namespace StructureEditor

variable {S : Signature}

def Notice.shown? : Notice S → Option (String ⊕ Handle)
  | .displayText text => some (.inl text)
  | .expanded content => some (.inr content)
  | .reset => some (.inl "")
  | _ => none

def EditorState.shown? : EditorState S → Option (String ⊕ Handle)
  | .token _ text _ | .expander _ (.text text _) => some (.inl text)
  | .expander _ (.expanded content) => some (.inr content)
  | .compound .. | .list .. => none

/-- What a notice says about the items of a list. It must name a place that there is. -/
def Notice.onItems (items : List Handle) : Notice S → Option (List Handle)
  | .itemAdded index item =>
    if index ≤ items.length then some (items.insertIdx index item) else none
  | .itemRemoved index => if index < items.length then some (items.eraseIdx index) else none
  | _ => some items

theorem Announces.tells_shown {before after : EditorState S} {notice : Notice S}
    {shown : String ⊕ Handle} (announces : Announces before notice after)
    (held : after.shown? = some shown) : notice.shown? = some shown := by
  cases announces <;> cases held <;> rfl

theorem Announces.tells_items {before : EditorState S} {notice : Notice S} {k : S.ListClass}
    {items : List Handle} (announces : Announces before notice (.list k items)) :
    ∃ old, before = .list k old ∧ notice.onItems old = some items := by
  cases announces with
  | added inside => exact ⟨_, rfl, if_pos inside⟩
  | removed inside => exact ⟨_, rfl, if_pos inside⟩

/-- Some notices, one after the other, tell what an editor is like. -/
structure Mirrors (editor : Editor S) (heard : List (Notice S)) : Prop where
  result : (heard.filterMap Notice.result?).getLast? = some editor.result
  changes : (heard.filterMap Notice.result?).IsChain (· ≠ ·)
  shown : ∀ shown, editor.state.shown? = some shown →
    (heard.filterMap Notice.shown?).getLast? = some shown
  items : ∀ k items, editor.state = .list k items → heard.foldlM Notice.onItems [] = some items

theorem filterMap_shown_filter (heard : List (Notice S)) :
    (heard.filter (·.result?.isNone)).filterMap Notice.shown? = heard.filterMap Notice.shown? := by
  rw [List.filterMap_filter]
  refine List.filterMap_congr fun notice _ => ?_
  cases notice <;> rfl

theorem foldlM_onItems_filter (heard : List (Notice S)) (items : List Handle) :
    (heard.filter (·.result?.isNone)).foldlM Notice.onItems items =
      heard.foldlM Notice.onItems items := by
  induction heard generalizing items with
  | nil => rfl
  | cons notice rest ih =>
    cases told : notice.result? with
    | some result =>
      cases notice <;> cases told
      exact ih items
    | none =>
      rw [List.filter_cons_of_pos (by simp [told]), List.foldlM_cons, List.foldlM_cons]
      simp only [ih]

theorem foldlM_onItems_mapIdx (items before : List Handle) :
    (items.mapIdx fun index item => Notice.itemAdded (S := S) (before.length + index) item).foldlM
      Notice.onItems before = some (before ++ items) := by
  induction items generalizing before with
  | nil => simp
  | cons item items ih =>
    have rest := ih (before ++ [item])
    rw [List.mapIdx_cons, List.foldlM_cons]
    simp only [Notice.onItems, Nat.add_zero, Nat.le_refl, if_true, List.insertIdx_length_self]
    simp only [List.length_append, List.length_singleton, List.append_assoc,
      List.singleton_append, Nat.add_assoc, Nat.add_comm 1] at rest
    exact rest

theorem mirrors_greeting (editor : Editor S) : Mirrors editor (Workspace.greeting editor) := by
  have none : ∀ items : List Handle, (items.mapIdx fun index item =>
      Notice.itemAdded (S := S) index item).filterMap Notice.result? = [] := by
    intro items
    refine List.filterMap_eq_nil_iff.2 fun notice member => ?_
    obtain ⟨index, inside, rfl⟩ := List.mem_mapIdx.1 member
    rfl
  obtain ⟨context, parent, result, views, state⟩ := editor
  cases state with
  | token k text item =>
    exact ⟨rfl, .singleton _, fun _ shown => shown, nofun⟩
  | expander k display =>
    cases display with
    | text text item => exact ⟨rfl, .singleton _, fun _ shown => shown, nofun⟩
    | expanded content => exact ⟨rfl, .singleton _, fun _ shown => shown, nofun⟩
  | compound k ids => exact ⟨rfl, .singleton _, nofun, nofun⟩
  | list k ids =>
    refine ⟨?_, ?_, nofun, ?_⟩
    · simp [Workspace.greeting, none]
    · simp [Workspace.greeting, none]
    · rintro _ _ ⟨⟩
      have told := foldlM_onItems_mapIdx (S := S) ids []
      simpa [Workspace.greeting, Notice.onItems] using told

namespace Workspace

variable {w w' w₀ : Workspace S} {v : ViewId} {x id : Handle} {editor e e' : Editor S}
  {notice : Notice S}

theorem mirrors_step [Language S] (mirrors : Mirrors e (w.heard v))
    (results : w'.results v = w.results v ++ if e'.result = e.result then [] else [e'.result])
    (notice : Notice S) (signs : (w'.signs v = w.signs v ∧ e'.state = e.state) ∨
      (w'.signs v = w.signs v ++ [notice] ∧ Announces e.state notice e'.state)) :
    Mirrors e' (w'.heard v) := by
  have last : (w.results v).getLast? = some e.result := mirrors.result
  have chain : (w.results v).IsChain (· ≠ ·) := mirrors.changes
  have shownBefore : ∀ shown, e.state.shown? = some shown →
      ((w.signs v).filterMap Notice.shown?).getLast? = some shown := by
    intro shown held
    rw [Workspace.signs, filterMap_shown_filter]
    exact mirrors.shown shown held
  have itemsBefore : ∀ k items, e.state = .list k items →
      (w.signs v).foldlM Notice.onItems [] = some items := by
    intro k items held
    rw [Workspace.signs, foldlM_onItems_filter]
    exact mirrors.items k items held
  refine ⟨?_, ?_, ?_, ?_⟩
  · change (w'.results v).getLast? = some e'.result
    rw [results]
    split
    · next same => rw [List.append_nil, last, same]
    · simp
  · change (w'.results v).IsChain (· ≠ ·)
    rw [results]
    split
    · rwa [List.append_nil]
    · next changed =>
      refine List.isChain_append.2 ⟨chain, .singleton _, ?_⟩
      rw [last]
      rintro _ ⟨⟩ _ ⟨⟩
      exact Ne.symm changed
  · intro shown held
    rw [← filterMap_shown_filter]
    change ((w'.signs v).filterMap Notice.shown?).getLast? = some shown
    rcases signs with ⟨signs, state⟩ | ⟨signs, announces⟩
    · rw [signs]
      exact shownBefore shown (state ▸ held)
    · rw [signs, List.filterMap_append, List.filterMap_cons, announces.tells_shown held]
      simp
  · intro k items held
    rw [← foldlM_onItems_filter]
    change (w'.signs v).foldlM Notice.onItems [] = some items
    rcases signs with ⟨signs, state⟩ | ⟨signs, announces⟩
    · rw [signs]
      exact itemsBefore k items (state ▸ held)
    · rw [held] at announces
      obtain ⟨old, state, told⟩ := announces.tells_items
      simp [signs, List.foldlM_append, itemsBefore k old state, told]

/-- Wherever a view is attached, it is attached there only, and as long as it is alive it knows
the editor. -/
def Followed (w : Workspace S) (v : ViewId) : Prop :=
  ∀ x editor, w.arena.get? x = some editor → v ∈ editor.views →
    v < w.views.size ∧ w.Sole v x ∧ (w.isAlive v → Mirrors editor (w.heard v))

def Unseen (w : Workspace S) (v : ViewId) : Prop := w.Loose v ∧ w.heard v = []

theorem Unseen.followed (unseen : w.Unseen v) : w.Followed v :=
  fun x editor isLive attached => absurd attached (unseen.1 x editor isLive)

theorem followed_lasting (v : ViewId) : Lasting fun w : Workspace S => w.Followed v := by
  intro w w' beside followed x editor isLive attached
  rw [beside.arena] at isLive
  obtain ⟨known, sole, mirrors⟩ := followed x editor isLive attached
  refine ⟨beside.views ▸ known, ⟨beside.arena ▸ sole.once, beside.arena ▸ sole.only⟩, fun alive => ?_⟩
  rw [heard, beside.journal]
  exact mirrors (isAlive_of_eq beside.views alive)

theorem unseen_lasting (v : ViewId) : Lasting fun w : Workspace S => w.Unseen v := by
  intro w w' beside unseen
  refine ⟨?_, ?_⟩
  · rw [Loose, beside.arena]
    exact unseen.1
  · rw [heard, beside.journal]
    exact unseen.2

theorem Followed.of_kept (followed : w.Followed v) (views : w'.views = w.views)
    (journal : w'.journal = w.journal)
    (kept : ∀ y e', w'.arena.get? y = some e' → e'.views = [] ∨
      ∃ e, w.arena.get? y = some e ∧ e'.views = e.views ∧ e'.result = e.result ∧
        e'.state = e.state) : w'.Followed v := by
  have was : ∀ y e', w'.arena.get? y = some e' → v ∈ e'.views →
      ∃ e, w.arena.get? y = some e ∧ e'.views = e.views ∧ e'.result = e.result ∧
        e'.state = e.state := by
    intro y e' isLive attached
    rcases kept y e' isLive with none | same
    · rw [none] at attached
      cases attached
    · exact same
  intro x e' isLive attached
  obtain ⟨e, wasLive, sameViews, result, state⟩ := was x e' isLive attached
  obtain ⟨known, sole, mirrors⟩ := followed x e wasLive (sameViews ▸ attached)
  obtain ⟨e₀, found, count⟩ := sole.once
  rw [wasLive] at found
  cases found
  refine ⟨views ▸ known, ⟨⟨e', isLive, sameViews ▸ count⟩, ?_⟩, fun alive => ?_⟩
  · intro y other otherLive there
    obtain ⟨o, oLive, oViews, _⟩ := was y other otherLive there
    exact sole.only y o oLive (oViews ▸ there)
  · rw [heard, journal]
    obtain ⟨last, chain, shown, items⟩ := mirrors (isAlive_of_eq views alive)
    exact ⟨result ▸ last, chain, state ▸ shown, state ▸ items⟩

theorem Unseen.of_kept (unseen : w.Unseen v) (journal : w'.journal = w.journal)
    (kept : ∀ y e', w'.arena.get? y = some e' → e'.views = [] ∨
      ∃ e, w.arena.get? y = some e ∧ e'.views = e.views ∧ e'.result = e.result ∧
        e'.state = e.state) : w'.Unseen v := by
  refine ⟨fun y e' isLive attached => ?_, ?_⟩
  · rcases kept y e' isLive with none | ⟨e, wasLive, views, _⟩
    · rw [none] at attached
      cases attached
    · exact unseen.1 y e wasLive (views ▸ attached)
  · rw [heard, journal]
    exact unseen.2

variable [Language S]

theorem Followed.turn (followed : w.Followed v) (turn : Turn w w' id notice) : w'.Followed v := by
  intro x e' isLive attached
  obtain ⟨e, wasLive, views, state⟩ := turn.was isLive
  obtain ⟨known, sole, mirrors⟩ := followed x e wasLive (views ▸ attached)
  have sole' : w'.Sole v x := by
    refine sole.carry (fun y other otherLive => ?_) ⟨e', isLive⟩
    obtain ⟨o, oLive, oViews, _⟩ := turn.was otherLive
    exact ⟨o, oLive, oViews⟩
  refine ⟨turn.views ▸ known, sole', fun alive => ?_⟩
  have alive₀ := isAlive_of_eq turn.views alive
  obtain ⟨results, signs⟩ := turn.told v x e e' sole alive₀ wasLive isLive
  refine mirrors_step (mirrors alive₀) results notice ?_
  rcases state with ⟨other, state⟩ | ⟨here, announces⟩
  · rw [if_neg other, List.append_nil] at signs
    exact .inl ⟨signs, state⟩
  · rw [if_pos here] at signs
    exact .inr ⟨signs, announces⟩

theorem Unseen.turn (unseen : w.Unseen v) (turn : Turn w w' id notice) : w'.Unseen v := by
  refine ⟨unseen.1.carry fun y e' isLive => ?_, (turn.silent v unseen.1).trans unseen.2⟩
  obtain ⟨e, wasLive, views, _⟩ := turn.was isLive
  exact ⟨e, wasLive, views⟩

theorem Unfolds.followed {strict : Bool} (run : Unfolds strict w₀ w) (followed : w₀.Followed v) :
    w.Followed v := by
  induction run with
  | start _ => exact followed
  | beside _ beside ih => exact followed_lasting v _ _ beside ih
  | insert context state before kids distinct _ ih =>
    refine ih.of_kept rfl rfl fun y e' isLive => ?_
    exact (Arena.of_insert before.sound kids distinct isLive).imp_left fun new => new.2.1
  | dispose before found isRoot ih =>
    exact ih.of_kept rfl rfl fun y e' isLive =>
      .inr ⟨e', Arena.of_dispose before.sound found isRoot isLive, rfl, rfl, rfl⟩
  | turn _ turn _ ih => exact ih.turn turn

theorem Unfolds.unseen {strict : Bool} (run : Unfolds strict w₀ w) (unseen : w₀.Unseen v) :
    w.Unseen v := by
  induction run with
  | start _ => exact unseen
  | beside _ beside ih => exact unseen_lasting v _ _ beside ih
  | insert context state before kids distinct _ ih =>
    refine ih.of_kept rfl fun y e' isLive => ?_
    exact (Arena.of_insert before.sound kids distinct isLive).imp_left fun new => new.2.1
  | dispose before found isRoot ih =>
    exact ih.of_kept rfl fun y e' isLive =>
      .inr ⟨e', Arena.of_dispose before.sound found isRoot isLive, rfl, rfl, rfl⟩
  | turn _ turn _ ih => exact ih.turn turn

omit [Language S] in
theorem followed_newView (followed : w.Followed v) :
    Followed { w with views := w.views.push true } v := by
  intro x editor isLive attached
  obtain ⟨known, sole, mirrors⟩ := followed x editor isLive attached
  refine ⟨?_, ⟨sole.once, sole.only⟩, fun alive => mirrors ?_⟩
  · rw [Array.size_push]
    exact Nat.lt_succ_of_lt known
  · simpa [isAlive, Array.getD_eq_getD_getElem?, Array.getElem?_push, Nat.ne_of_lt known] using alive

omit [Language S] in
theorem followed_dropView (followed : w.Followed v) (u : ViewId) :
    Followed { w with views := w.views.setIfInBounds u false } v := by
  intro x editor isLive attached
  obtain ⟨known, sole, mirrors⟩ := followed x editor isLive attached
  refine ⟨?_, ⟨sole.once, sole.only⟩, fun alive => mirrors ?_⟩
  · simpa only [Array.size_setIfInBounds] using known
  · simp only [isAlive, Array.getD_eq_getD_getElem?, Array.getElem?_setIfInBounds] at alive ⊢
    split at alive
    · split at alive <;> cases alive
    · exact alive

omit [Language S] in
theorem followed_setViews {views : List ViewId} (journal : Array (Event S))
    (followed : w.Followed v) (found : w.arena.get? id = some editor)
    (fewer : v ∈ views → v ∈ editor.views ∧ views.count v = editor.views.count v)
    (unheard : noticesTo v journal.toList = w.heard v) :
    Followed { w with arena := w.arena.modify id fun editor => { editor with views }, journal } v := by
  have was : ∀ y e', (w.arena.modify id fun editor => { editor with views }).get? y = some e' →
      v ∈ e'.views → ∃ e, w.arena.get? y = some e ∧ v ∈ e.views ∧
        e'.views.count v = e.views.count v ∧ e'.result = e.result ∧ e'.state = e.state := by
    intro y e' isLive attached
    rw [Arena.get?_modify] at isLive
    split at isLive
    · next here =>
      subst here
      rw [found] at isLive
      cases isLive
      obtain ⟨member, count⟩ := fewer attached
      exact ⟨editor, found, member, count, rfl, rfl⟩
    · exact ⟨e', isLive, attached, rfl, rfl, rfl⟩
  intro x e' isLive attached
  obtain ⟨e, wasLive, member, count, result, state⟩ := was x e' isLive attached
  obtain ⟨known, sole, mirrors⟩ := followed x e wasLive member
  obtain ⟨e₀, found₀, once⟩ := sole.once
  rw [wasLive] at found₀
  cases found₀
  refine ⟨known, ⟨⟨e', isLive, count.trans once⟩, ?_⟩, fun alive => ?_⟩
  · intro y other otherLive there
    obtain ⟨o, oLive, oMember, _⟩ := was y other otherLive there
    exact sole.only y o oLive oMember
  · obtain ⟨last, chain, shown, items⟩ := mirrors alive
    rw [← unheard] at last chain shown items
    exact ⟨result ▸ last, chain, state ▸ shown, state ▸ items⟩

omit [Language S] in
theorem unseen_setViews {views : List ViewId} (journal : Array (Event S))
    (unseen : w.Unseen v) (fewer : v ∉ views) (unheard : noticesTo v journal.toList = w.heard v) :
    Unseen { w with arena := w.arena.modify id fun editor => { editor with views }, journal } v := by
  refine ⟨fun y e' isLive attached => ?_, unheard.trans unseen.2⟩
  simp only at isLive
  rw [Arena.get?_modify] at isLive
  split at isLive
  · next here =>
    obtain ⟨e, _, rfl⟩ := Option.map_eq_some_iff.1 isLive
    exact fewer attached
  · exact unseen.1 y e' isLive attached

omit [Language S] in
theorem mem_alive {u : ViewId} {views : List ViewId} (member : u ∈ w.alive views) :
    u ∈ views ∧ (w.alive views).count u = views.count u := by
  obtain ⟨inside, living⟩ := List.mem_filter.1 member
  exact ⟨inside, List.count_filter living⟩

omit [Language S] in
theorem noticesTo_greeting (u : ViewId) (notices : List (Notice S)) :
    noticesTo v (notices.map (Event.notice u)) = if u = v then notices else [] := by
  induction notices with
  | nil => simp [noticesTo]
  | cons notice rest ih =>
    simp only [noticesTo, List.map_cons, List.filterMap_cons] at ih ⊢
    split
    · next other =>
      split at other
      · cases other
      · next different => rw [ih, if_neg different, if_neg different]
    · next told =>
      split at told
      · next same =>
        cases told
        rw [ih, if_pos same, if_pos same]
      · cases told

omit [Language S] in
theorem watch_run (found : w.arena.get? id = some editor) (u : ViewId) :
    watch id u w = .ok () { w with
      arena := w.arena.modify id fun e => { e with views := w.alive editor.views ++ [u] }
      journal := w.journal ++ (greeting editor).map (Event.notice u) } := by
  rw [watch, Action.bind_run_ok _ (lookup_run found)]
  rfl

omit [Language S] in
theorem unwatch_run (found : w.arena.get? id = some editor) (u : ViewId) :
    (unwatch id u).after w = { w with
      arena := w.arena.modify id fun e =>
        { e with views := w.alive (editor.views.filter (· != u)) } } := by
  rw [Action.after, unwatch, Action.bind_run_ok _ (lookup_run found)]
  rfl

omit [Language S] in
theorem heard_greeting (editor : Editor S) (u v : ViewId) :
    noticesTo v (w.journal ++ (greeting editor).map (Event.notice u)).toList =
      w.heard v ++ if u = v then greeting editor else [] := by
  rw [Array.toList_appendList, noticesTo_append, noticesTo_greeting]
  rfl

omit [Language S] in
theorem watch_other {u : ViewId} (found : w.arena.get? id = some editor) (other : u ≠ v) :
    (w.Followed v → ((watch id u).after w).Followed v) ∧
      (w.Unseen v → ((watch id u).after w).Unseen v) := by
  rw [Action.after, watch_run found u]
  have unheard := heard_greeting (w := w) editor u v
  rw [if_neg other, List.append_nil] at unheard
  have among : v ∈ w.alive editor.views ++ [u] → v ∈ w.alive editor.views := by
    intro member
    rcases List.mem_append.1 member with inside | last
    · exact inside
    · exact absurd (List.mem_singleton.1 last).symm other
  refine ⟨fun followed => followed_setViews _ followed found (fun member => ?_) unheard,
    fun unseen => unseen_setViews _ unseen (fun member => ?_) unheard⟩
  · obtain ⟨inside, count⟩ := mem_alive (among member)
    refine ⟨inside, ?_⟩
    rw [List.count_append, count, List.count_singleton, if_neg (by simpa using other)]
    rfl
  · exact unseen.1 id editor found (mem_alive (among member)).1

omit [Language S] in
theorem unwatch_any (found : w.arena.get? id = some editor) (u : ViewId) :
    (w.Followed v → ((unwatch id u).after w).Followed v) ∧
      (w.Unseen v → ((unwatch id u).after w).Unseen v) := by
  rw [unwatch_run found u]
  refine ⟨fun followed => followed_setViews w.journal followed found (fun member => ?_) rfl,
    fun unseen => unseen_setViews w.journal unseen (fun member => ?_) rfl⟩
  · obtain ⟨inside, count⟩ := mem_alive member
    obtain ⟨was, kept⟩ := List.mem_filter.1 inside
    exact ⟨was, count.trans (List.count_filter kept)⟩
  · exact unseen.1 id editor found (List.mem_filter.1 (mem_alive member).1).1

omit [Language S] in
theorem watch_first (found : w.arena.get? id = some editor) (unseen : w.Unseen v)
    (alive : w.isAlive v) : ((watch id v).after w).Followed v := by
  rw [Action.after, watch_run found v]
  have greeted := heard_greeting (w := w) editor v v
  rw [if_pos rfl, unseen.2, List.nil_append] at greeted
  have known : v < w.views.size := by
    by_contra beyond
    simp [isAlive, Array.getD_eq_getD_getElem?, Array.getElem?_eq_none (Nat.le_of_not_lt beyond)]
      at alive
  have absent : v ∉ w.alive editor.views := fun member =>
    unseen.1 id editor found (mem_alive member).1
  have here : (w.arena.modify id fun e =>
      { e with views := w.alive editor.views ++ [v] }).get? id =
        some { editor with views := w.alive editor.views ++ [v] } := by
    rw [Arena.get?_modify, if_pos rfl, found]
    rfl
  have only : ∀ y e', (w.arena.modify id fun e =>
      { e with views := w.alive editor.views ++ [v] }).get? y = some e' → v ∈ e'.views → y = id := by
    intro y e' isLive attached
    by_contra different
    rw [Arena.get?_modify, if_neg different] at isLive
    exact unseen.1 y e' isLive attached
  intro x e' isLive attached
  obtain rfl := only x e' isLive attached
  rw [show Arena.get? _ x = some e' from isLive] at here
  cases here
  have knows := mirrors_greeting editor
  rw [← greeted] at knows
  refine ⟨known, ⟨⟨_, isLive, ?_⟩, only⟩, fun _ => ?_⟩
  · rw [List.count_append, List.count_eq_zero_of_not_mem absent]
    simp
  · exact ⟨knows.result, knows.changes, knows.shown, knows.items⟩

/-- One workspace comes from another by requests, however each of them ends, and a view is
attached so many times on the way. Contexts and histories are for the client to change; views
come into being and may be dropped, and only a living view can be attached. -/
inductive Attends (v : ViewId) : Nat → Workspace S → Workspace S → Prop where
  | refl (w : Workspace S) : Attends v 0 w w
  | beside {n : Nat} {w w' w'' : Workspace S} : Attends v n w w' → Beside w' w'' →
      Attends v n w w''
  | newView {n : Nat} {w w' : Workspace S} : Attends v n w w' → Attends v n w (newView.after w')
  | dropView {n : Nat} {w w' : Workspace S} (u : ViewId) : Attends v n w w' →
      Attends v n w ((dropView u).after w')
  | request {n : Nat} {w w' : Workspace S} (request : Request S) : Attends v n w w' →
      w'.Allowed request →
      (∀ id u, request = .watch id u → w'.isAlive u ∧ (u = v → w'.arena.get? id = none)) →
      Attends v n w ((perform request).after w')
  | attach {n : Nat} {w w' : Workspace S} {editor : Editor S} (id : Handle) : Attends v n w w' →
      w'.isAlive v → w'.arena.get? id = some editor →
      Attends v (n + 1) w ((perform (.watch id v)).after w')
  | replacing {m n : Nat} {w w' : Workspace S} {α : Type} (id : Handle) (description : String)
      (action : Editing S α) : Attends v m w w' →
      Attends v n (w'.pausing id) (action.after (w'.pausing id)) →
      Attends v (m + n) w ((replacing id description action).after w')
  | asOneStep {m n : Nat} {w w' : Workspace S} {α : Type} (id : Handle) (description : String)
      (action : Editing S α) : Attends v m w w' →
      Attends v n (w'.grouping id) (action.after (w'.grouping id)) →
      Attends v (m + n) w ((asOneStep id description action).after w')

theorem Attends.reaches {n : Nat} (run : Attends v n w w') : Reaches w w' := by
  induction run with
  | refl w => exact .refl w
  | beside _ beside ih => exact .beside ih beside.arena
  | newView _ ih => exact .beside ih rfl
  | dropView _ _ ih => exact .beside ih rfl
  | request request _ allowed _ ih => exact .request request ih allowed
  | attach id _ _ _ ih => exact .request _ ih trivial
  | replacing id description action _ _ ih inner => exact .replacing id description action ih inner
  | asOneStep id description action _ _ ih inner => exact .asOneStep id description action ih inner

def Keeps (v : ViewId) (n : Nat) (w : Workspace S) : Prop :=
  (n = 0 → w.Unseen v) ∧ (n ≤ 1 → w.Followed v)

omit [Language S] in
theorem Keeps.mono {m n : Nat} (keeps : w.Keeps v m) (more : m ≤ n) : w.Keeps v n :=
  ⟨fun none => keeps.1 (by omega), fun one => keeps.2 (by omega)⟩

omit [Language S] in
theorem keeps_lasting (v : ViewId) (n : Nat) : Lasting fun w : Workspace S => w.Keeps v n :=
  fun w w' beside keeps => ⟨fun none => unseen_lasting v w w' beside (keeps.1 none),
    fun one => followed_lasting v w w' beside (keeps.2 one)⟩

omit [Language S] in
theorem Keeps.imp {n : Nat} (keeps : w.Keeps v n) (followed : w.Followed v → w'.Followed v)
    (unseen : w.Unseen v → w'.Unseen v) : w'.Keeps v n :=
  ⟨fun none => unseen (keeps.1 none), fun one => followed (keeps.2 one)⟩

omit [Language S] in
theorem after_refused {α β : Type} {action : Editing S α} {next : α → Editing S β} {stop : Stop}
    (ran : action w = .error stop w) : (action >>= next).after w = w := by
  rw [Action.after, Action.bind_run_error _ ran]

theorem keeps_perform {n : Nat} {request : Request S} (sound : w.arena.Sound) (keeps : w.Keeps v n)
    (allowed : w.Allowed request)
    (other : ∀ id u, request = .watch id u → w.isAlive u ∧ (u = v → w.arena.get? id = none)) :
    ((perform request).after w).Keeps v n := by
  cases documents : request.isAboutViews with
  | false =>
    have run : Unfolds false w ((perform request).after w) :=
      ensures_iff.1 (perform_unfolds (.start sound) allowed nofun documents)
    exact keeps.imp run.followed run.unseen
  | true =>
    cases request with
    | watch id u =>
      cases found : w.arena.get? id with
      | none =>
        rw [perform, watch, after_refused (lookup_stale found)]
        exact keeps
      | some editor =>
        have different : u ≠ v := by
          intro same
          rw [(other id u rfl).2 same] at found
          cases found
        exact keeps.imp (watch_other found different).1 (watch_other found different).2
    | unwatch id u =>
      cases found : w.arena.get? id with
      | none =>
        have refused : unwatch id u w = .error _ w := Action.bind_run_error _ (lookup_stale found)
        rw [perform, after_refused refused]
        exact keeps
      | some editor =>
        have same : (perform (.unwatch id u)).after w = (unwatch id u).after w := by
          simp only [perform, Action.after, Action.bind_run]
          cases unwatch id u w <;> rfl
        rw [same]
        exact keeps.imp (unwatch_any found u).1 (unwatch_any found u).2
    | _ => cases documents

theorem Attends.keeps {m n : Nat} (run : Attends v n w w') (sound : w.arena.Sound)
    (keeps : w.Keeps v m) : w'.Keeps v (m + n) := by
  induction run generalizing m with
  | refl w => exact keeps
  | beside _ beside ih => exact keeps_lasting v _ _ _ beside (ih sound keeps)
  | newView _ ih =>
    exact (ih sound keeps).imp followed_newView fun unseen => ⟨unseen.1, unseen.2⟩
  | dropView u _ ih =>
    exact (ih sound keeps).imp (followed_dropView · u) fun unseen => ⟨unseen.1, unseen.2⟩
  | request request before allowed other ih =>
    exact keeps_perform (before.reaches.sound sound) (ih sound keeps) allowed other
  | attach id before alive found ih =>
    refine ⟨fun none => absurd none (by omega), fun one => ?_⟩
    exact watch_first found ((ih sound keeps).1 (by omega)) alive
  | replacing id description action before _ ih inner =>
    have begun := keeps_lasting v _ _ _ (beside_pausing _ id) (ih sound keeps)
    have sound' := sound_lasting _ _ (beside_pausing _ id) (before.reaches.sound sound)
    rw [← Nat.add_assoc]
    exact ensures_iff.1 (replacing_ensures description (keeps_lasting v _)
      ((ih sound keeps).mono (Nat.le_add_right _ _)) (ensures_iff.2 (inner sound' begun)))
  | asOneStep id description action before _ ih inner =>
    have begun := keeps_lasting v _ _ _ (beside_grouping _ id) (ih sound keeps)
    have sound' := sound_lasting _ _ (beside_grouping _ id) (before.reaches.sound sound)
    rw [← Nat.add_assoc]
    exact ensures_iff.1 (asOneStep_ensures description (keeps_lasting v _)
      ((ih sound keeps).mono (Nat.le_add_right _ _)) (ensures_iff.2 (inner sound' begun)))

/-- A view that was attached once, to an editor that it is still attached to, was told exactly
what the editor is like. -/
theorem view_mirrors_editor (run : Attends v 1 {} w) (isLive : w.arena.get? x = some editor)
    (attached : v ∈ editor.views) (alive : w.isAlive v) : Mirrors editor (w.heard v) := by
  have unseen : Unseen ({} : Workspace S) v := by
    refine ⟨fun y e isLive => ?_, rfl⟩
    simp [Arena.get?] at isLive
  have keeps : Keeps v 0 ({} : Workspace S) := ⟨fun _ => unseen, fun _ => unseen.followed⟩
  exact ((run.keeps Arena.sound_empty keeps).2 (Nat.le_refl _) x editor isLive attached).2.2 alive

section

open Sample

theorem attends_performAll {n : Nat} (requests : List (Request S)) (before : Attends v n w w')
    (allowed : ∀ request ∈ requests, ∀ w : Workspace S, w.Allowed request)
    (documents : ∀ request ∈ requests, request.isAboutViews = false) :
    Attends v n w (performAll requests w') := by
  induction requests generalizing w' with
  | nil => exact before
  | cons request rest ih =>
    refine ih (.request request before (allowed request (by simp) w') ?_)
      (fun other member => allowed other (by simp [member]))
      fun other member => documents other (by simp [member])
    rintro id u rfl
    cases documents (.watch id u) (by simp)

def unwatchedWords : Workspace expression :=
  newView.after (performAll [.create (.list ListName.words) ⟨0, []⟩, .openItem ⟨0, 0⟩ 0] desk)

def watchedWords : Workspace expression :=
  performAll [.typeToken ⟨1, 0⟩ "ab" true, .openItem ⟨0, 0⟩ 1, .removeAt ⟨0, 0⟩ 0, .undo 0]
    ((perform (.watch ⟨0, 0⟩ 0)).after unwatchedWords)

theorem attends_watchedWords : Attends 0 1 {} watchedWords := by
  have begun : Attends 0 0 {} desk := .beside (.refl {}) ⟨rfl, rfl, rfl⟩
  have ready : Attends 0 0 {} unwatchedWords :=
    .newView (attends_performAll _ begun (by simp [Allowed]) (by simp [Request.isAboutViews]))
  have there : (unwatchedWords.arena.get? ⟨0, 0⟩).isSome = true := by decide +kernel
  obtain ⟨editor, found⟩ := Option.isSome_iff_exists.1 there
  have attached : Attends 0 1 {} ((perform (.watch ⟨0, 0⟩ 0)).after unwatchedWords) :=
    .attach ⟨0, 0⟩ ready (by unfold isAlive; decide +kernel) found
  exact attends_performAll _ attached (by simp [Allowed]) (by simp [Request.isAboutViews])

theorem watchedWords_mirrored : ∃ editor, watchedWords.arena.get? ⟨0, 0⟩ = some editor ∧
    editor.state.children = [⟨1, 1⟩, ⟨2, 0⟩] ∧ Mirrors editor (watchedWords.heard 0) := by
  have shown : (watchedWords.arena.get? ⟨0, 0⟩).map (fun e => (e.state.children, e.views)) =
      some ([⟨1, 1⟩, ⟨2, 0⟩], [0]) := by decide +kernel
  obtain ⟨editor, isLive, both⟩ := Option.map_eq_some_iff.1 shown
  have children := congrArg Prod.fst both
  have views : editor.views = [0] := congrArg Prod.snd both
  exact ⟨editor, isLive, children, view_mirrors_editor attends_watchedWords isLive
    (by simp [views]) (by unfold isAlive; decide +kernel)⟩

end

end Workspace

end StructureEditor
