import StructureEditor.Proofs.Creation
import StructureEditor.Proofs.Hearing
import StructureEditor.Proofs.Locating
import StructureEditor.Workspace.Grow

/-! The single changes of a document: a leaf gets another state, a subtree is dropped from its
parent, a root is attached to one. Each of them goes through, keeps the arena sound and
leaves the other editors as they are. -/
namespace StructureEditor

variable {S : Signature}

namespace Arena

variable {a : Arena S} {id : Handle}

theorem get_eq_ok_iff {editor : Editor S} : a.get id = .ok editor ↔ a.get? id = some editor := by
  unfold get
  split
  · next found => simp [found]
  · next dead => simp [dead]

theorem asks_state {α : Type} {question : Editor S → Except Refusal α} {value : α} :
    (a.get id >>= question) = .ok value ↔
      ∃ editor, a.get? id = some editor ∧ question editor = .ok value := by
  constructor
  · intro answered
    cases found : a.get id with
    | error error =>
      rw [found] at answered
      cases answered
    | ok editor =>
      rw [found] at answered
      exact ⟨editor, get_eq_ok_iff.1 found, answered⟩
  · rintro ⟨editor, found, answered⟩
    rw [get_of_get? found]
    exact answered

theorem asks_exactly {α : Type} {question : Editor S → Except Refusal α} {value : α}
    {state : EditorState S} (only : ∀ editor, question editor = .ok value ↔ editor.state = state) :
    (a.get id >>= question) = .ok value ↔ a.state? id = some state := by
  refine asks_state.trans ⟨?_, ?_⟩
  · rintro ⟨editor, found, answered⟩
    rw [state?_of_get? found, (only editor).1 answered]
  · intro found
    obtain ⟨editor, isLive, held⟩ := get?_of_state? found
    exact ⟨editor, isLive, (only editor).2 held⟩

theorem shapeOf_eq_ok_iff {shape : Shape} :
    a.shapeOf id = .ok shape ↔ ∃ state, a.state? id = some state ∧ state.shape = shape := by
  refine asks_state.trans ⟨?_, ?_⟩
  · rintro ⟨editor, found, answered⟩
    exact ⟨editor.state, state?_of_get? found, Except.ok.inj answered⟩
  · rintro ⟨state, found, rfl⟩
    obtain ⟨editor, isLive, rfl⟩ := get?_of_state? found
    exact ⟨editor, isLive, rfl⟩

theorem token_eq_ok_iff {c : S.TokenClass} {text : String} {item : Option Candidate} :
    a.token id = .ok (c, text, item) ↔ a.state? id = some (.token c text item) := by
  refine asks_exactly fun editor => ⟨fun answered => ?_, fun held => by rw [held]; rfl⟩
  split at answered
  · next held =>
    cases answered
    exact held
  · cases answered

theorem expander_eq_ok_iff {c : S.ExpanderClass} {display : Display Handle} :
    a.expander id = .ok (c, display) ↔ a.state? id = some (.expander c display) := by
  refine asks_exactly fun editor => ⟨fun answered => ?_, fun held => by rw [held]; rfl⟩
  split at answered
  · next held =>
    cases answered
    exact held
  · cases answered

theorem compound_eq_ok_iff {c : S.CompoundClass} {ids : List Handle} :
    a.compound id = .ok (c, ids) ↔ a.state? id = some (.compound c ids) := by
  refine asks_exactly fun editor => ⟨fun answered => ?_, fun held => by rw [held]; rfl⟩
  split at answered
  · next held =>
    cases answered
    exact held
  · cases answered

theorem list_eq_ok_iff {c : S.ListClass} {ids : List Handle} :
    a.list id = .ok (c, ids) ↔ a.state? id = some (.list c ids) := by
  refine asks_exactly fun editor => ⟨fun answered => ?_, fun held => by rw [held]; rfl⟩
  split at answered
  · next held =>
    cases answered
    exact held
  · cases answered

theorem bind_pure_eq_ok_iff {α β : Type} {question : Except Refusal α} {f : α → β} {value : β} :
    (question >>= fun v => pure (f v)) = .ok value ↔ ∃ v, question = .ok v ∧ f v = value := by
  cases question with
  | error error => exact ⟨nofun, fun ⟨_, impossible, _⟩ => nomatch impossible⟩
  | ok v => exact ⟨fun answered => ⟨v, rfl, Except.ok.inj answered⟩, fun ⟨_, same, value⟩ => by
      cases same
      exact congrArg Except.ok value⟩

theorem items_eq_ok_iff {ids : List Handle} :
    a.items id = .ok ids ↔ ∃ c, a.state? id = some (.list c ids) := by
  refine bind_pure_eq_ok_iff.trans ⟨?_, ?_⟩
  · rintro ⟨⟨c, ids⟩, answered, rfl⟩
    exact ⟨c, list_eq_ok_iff.1 answered⟩
  · rintro ⟨c, found⟩
    exact ⟨(c, ids), list_eq_ok_iff.2 found, rfl⟩

theorem components_eq_ok_iff {ids : List Handle} :
    a.components id = .ok ids ↔ ∃ c, a.state? id = some (.compound c ids) := by
  refine bind_pure_eq_ok_iff.trans ⟨?_, ?_⟩
  · rintro ⟨⟨c, ids⟩, answered, rfl⟩
    exact ⟨c, compound_eq_ok_iff.1 answered⟩
  · rintro ⟨c, found⟩
    exact ⟨(c, ids), compound_eq_ok_iff.2 found, rfl⟩

theorem displayOf_eq_ok_iff {display : Display Handle} :
    a.displayOf id = .ok display ↔ ∃ c, a.state? id = some (.expander c display) := by
  refine bind_pure_eq_ok_iff.trans ⟨?_, ?_⟩
  · rintro ⟨⟨c, display⟩, answered, rfl⟩
    exact ⟨c, expander_eq_ok_iff.1 answered⟩
  · rintro ⟨c, found⟩
    exact ⟨(c, display), expander_eq_ok_iff.2 found, rfl⟩

theorem isExpanded_eq_ok_iff {expanded : Bool} : a.isExpanded id = .ok expanded ↔
    ∃ c display, a.state? id = some (.expander c display) ∧ display.isExpanded = expanded := by
  refine bind_pure_eq_ok_iff.trans ⟨?_, ?_⟩
  · rintro ⟨display, answered, same⟩
    obtain ⟨c, found⟩ := displayOf_eq_ok_iff.1 answered
    exact ⟨c, display, found, same⟩
  · rintro ⟨c, display, found, same⟩
    exact ⟨display, displayOf_eq_ok_iff.2 ⟨c, found⟩, same⟩

end Arena

namespace Workspace

section

variable {w w' : Workspace S} {id x c : Handle} {editor : Editor S} {state : EditorState S}

theorem ask_run {α : Type} {question : Arena S → Except Refusal α} {value : α}
    (answer : question w.arena = .ok value) : ask question w = .ok value w :=
  Action.ask_run_ok answer

theorem setState_run (found : w.arena.get? id = some editor) :
    setState id state w = .ok () { w with arena := w.arena.setState id state } := by
  simp only [setState, Action.bind_run_ok _ (lookup_run found)]
  rfl

theorem setParent_run {parent : Option Handle} (found : w.arena.get? id = some editor) :
    setParent id parent w = .ok () { w with arena := w.arena.setParent parent id } := by
  simp only [setParent, Action.bind_run_ok _ (lookup_run found)]
  rfl

theorem remark_run (lines : List String) (w : Workspace S) :
    ∃ journal, remark lines w = .ok () { w with journal } := ⟨_, rfl⟩

theorem dispose_run (id : Handle) (w : Workspace S) :
    dispose id w = .ok () { w with arena := w.arena.dispose id } := rfl

theorem enter_run [Language S] {context : Context} {state : EditorState S} (exact : w.arena.Exact)
    (live : ∀ c ∈ state.children, ∃ child, w.arena.get? c = some child) :
    enter context state w = .ok (w.arena.insert context state).1
      { w with arena := (w.arena.insert context state).2 } := by
  simp only [enter, Action.risk, Arena.enter_eq_insert exact live]
  rfl

theorem checkGap_run {k : S.ListClass} {ids : List Handle} {list : Handle} {index : Nat}
    (held : w.arena.state? list = some (.list k ids)) (inside : index ≤ ids.length) :
    checkGap list index w = .ok () w := by
  have asked : ask (·.items list) w = .ok ids w := ask_run (Arena.items_eq_ok_iff.2 ⟨k, held⟩)
  simp only [checkGap, Action.bind_run_ok _ asked, if_neg (Nat.not_lt.2 inside)]
  rfl

theorem itemAt_run {k : S.ListClass} {ids : List Handle} {list item : Handle} {index : Nat}
    (held : w.arena.state? list = some (.list k ids)) (listed : ids[index]? = some item) :
    itemAt list index w = .ok item w := by
  have asked : ask (·.items list) w = .ok ids w := ask_run (Arena.items_eq_ok_iff.2 ⟨k, held⟩)
  simp only [itemAt, Action.bind_run_ok _ asked, listed]
  rfl

theorem checkGap_cases (list : Handle) (index : Nat) (w : Workspace S) :
    (∃ k ids, w.arena.state? list = some (.list k ids) ∧ index ≤ ids.length ∧
      checkGap list index w = .ok () w) ∨
    ∃ error, checkGap list index w = .error (.refused error) w := by
  cases answered : w.arena.items list with
  | error error => exact .inr ⟨error, Action.bind_run_error _ (Action.ask_run_error answered)⟩
  | ok ids =>
    obtain ⟨k, held⟩ := Arena.items_eq_ok_iff.1 answered
    by_cases inside : index ≤ ids.length
    · exact .inl ⟨k, ids, held, inside, checkGap_run held inside⟩
    · refine .inr ⟨.outOfRange index ids.length, ?_⟩
      have asked : ask (·.items list) w = .ok ids w := ask_run answered
      simp only [checkGap, Action.bind_run_ok _ asked, if_pos (Nat.lt_of_not_le inside)]
      rfl

theorem itemAt_cases (list : Handle) (index : Nat) (w : Workspace S) :
    (∃ k ids item, w.arena.state? list = some (.list k ids) ∧ ids[index]? = some item ∧
      itemAt list index w = .ok item w) ∨
    ∃ error, itemAt list index w = .error (.refused error) w := by
  cases answered : w.arena.items list with
  | error error => exact .inr ⟨error, Action.bind_run_error _ (Action.ask_run_error answered)⟩
  | ok ids =>
    obtain ⟨k, held⟩ := Arena.items_eq_ok_iff.1 answered
    cases listed : ids[index]? with
    | some item => exact .inl ⟨k, ids, item, held, listed, itemAt_run held listed⟩
    | none =>
      refine .inr ⟨.outOfRange index ids.length, ?_⟩
      have asked : ask (·.items list) w = .ok ids w := ask_run answered
      simp only [itemAt, Action.bind_run_ok _ asked, listed]
      rfl

theorem requireTextMode_run {k : S.ExpanderClass} {text : String} {item : Option Candidate}
    (use : TextModeUse) (held : w.arena.state? id = some (.expander k (.text text item))) :
    requireTextMode id use w = .ok () w := by
  have asked : ask (·.isExpanded id) w = .ok false w :=
    ask_run (Arena.isExpanded_eq_ok_iff.2 ⟨k, _, held, rfl⟩)
  simp only [requireTextMode, Action.bind_run_ok _ asked]
  rfl

theorem requireTextMode_meets (use : TextModeUse) (w : Workspace S) :
    Action.Meets (requireTextMode id use) w
      (fun _ w' => w' = w ∧ ∃ k text item, w.arena.state? id = some (.expander k (.text text item)))
      fun _ w' => w' = w := by
  refine .bind (.ask ?_ fun _ _ => rfl)
  intro expanded answered
  obtain ⟨k, display, held, same⟩ := Arena.isExpanded_eq_ok_iff.1 answered
  cases display with
  | expanded content =>
    cases same
    exact .fault rfl
  | text text item =>
    cases same
    exact .pure ⟨rfl, k, text, item, held⟩

theorem Quiet.of_arena {arena : Arena S} {journal : Array (Event S)} :
    Quiet w { w with arena, journal } := ⟨rfl, rfl, .refl _⟩

end

variable [Language S] {w w' : Workspace S} {id x c : Handle} {editor : Editor S}
  {state : EditorState S}

/-- One editor has a new state. Nothing else changes but the editors that are set apart. -/
structure Rewrites (w w' : Workspace S) (id : Handle) (state : EditorState S)
    (apart : Handle → Prop) : Prop where
  sound : w'.arena.Sound
  quiet : Quiet w w'
  here : ∀ editor, w.arena.outline id = some editor →
    w'.arena.outline id = some { editor with state }
  kept : ∀ x, x ≠ id → ¬ apart x → w'.arena.outline x = w.arena.outline x

theorem Rewrites.live {apart : Handle → Prop} (done : Rewrites w w' id state apart)
    (found : w.arena.get? id = some editor) : ∃ editor', w'.arena.get? id = some editor' ∧
      editor'.state = state ∧ editor'.context = editor.context := by
  obtain ⟨editor', found', same⟩ :=
    Arena.get?_of_outline (done.here _ (Arena.outline_of_get? found))
  have isState : editor'.blank.state = state := by rw [same]
  have context : editor'.blank.context = editor.blank.context := by rw [same]
  exact ⟨editor', found', isState, context⟩

theorem Rewrites.recompute {b : Arena S} {apart : Handle → Prop} (state : EditorState S)
    (journal : Array (Event S)) (sound : b.SoundBut id) (found : w.arena.get? id = some editor)
    (here : b.get? id = some { editor with state })
    (kept : ∀ x, x ≠ id → ¬ apart x → b.get? x = w.arena.get? x) :
    ∃ w', Workspace.recompute id { w with arena := b, journal } = .ok () w' ∧
      Rewrites w w' id state apart ∧ Reports { w with arena := b, journal } w' := by
  obtain ⟨w', ran, same, sound'⟩ :=
    recompute_sound (w := { w with arena := b, journal }) sound here
  refine ⟨w', ran, ⟨sound', Quiet.of_arena.trans same.quiet, ?_, ?_⟩,
    recompute_reports (w := { w with arena := b, journal }) sound.forest here ran⟩
  · intro e outlined
    rw [Arena.outline_of_get? found] at outlined
    cases outlined
    rw [same.outline]
    exact Arena.outline_of_get? here
  · intro x other notApart
    rw [same.outline]
    simp only [Arena.outline, kept x other notApart]

theorem Rewrites.told {apart : Handle → Prop} (done : Rewrites w w' id state apart)
    (journal : Array (Event S)) : Rewrites w { w' with journal } id state apart :=
  ⟨done.sound, done.quiet.trans .of_arena, done.here, done.kept⟩

omit [Language S] in
theorem poised_of_kept {b : Arena S} (apart : Handle → Prop) (found : w.arena.get? id = some editor)
    (here : b.get? id = some { editor with state })
    (kept : ∀ x, x ≠ id → ¬ apart x → b.get? x = w.arena.get? x)
    (others : ∀ x e', apart x → b.get? x = some e' →
      ∃ e, w.arena.get? x = some e ∧ e'.views = e.views ∧ e'.result = e.result) :
    Poised w { w with arena := b } := by
  refine ⟨?_, fun _ => rfl, rfl⟩
  intro x e' isLive
  by_cases isHere : x = id
  · subst isHere
    rw [show b.get? x = _ from here] at isLive
    cases isLive
    exact ⟨editor, found, rfl, rfl⟩
  · by_cases isApart : apart x
    · exact others x e' isApart isLive
    · exact ⟨e', (kept x isHere isApart).symm.trans isLive, rfl, rfl⟩

omit [Language S] in
theorem poised_setState (found : w.arena.get? id = some editor) (state : EditorState S) :
    Poised w { w with arena := w.arena.setState id state } :=
  poised_of_kept (fun _ => False) found (by rw [Arena.get?_setState, if_pos rfl, found]; rfl)
    (fun x other _ => by rw [Arena.get?_setState, if_neg other]) nofun

theorem rewrites_leaf (state : EditorState S) (journal : Array (Event S)) (sound : w.arena.Sound)
    (found : w.arena.get? id = some editor) (leaf : editor.state.children = [])
    (still : state.children = []) :
    ∃ w', recompute id { w with arena := w.arena.setState id state, journal } = .ok () w' ∧
      Rewrites w w' id state (fun _ => False) ∧
      Reports { w with arena := w.arena.setState id state, journal } w' :=
  Rewrites.recompute state journal (Arena.soundBut_setState sound found leaf still) found
    (by simp [Arena.get?_setState, found]) fun x other _ => by
      rw [Arena.get?_setState, if_neg other]

theorem rewrites_cut (state : EditorState S) (journal : Array (Event S))
    (sound : w.arena.Sound) (found : w.arena.get? id = some editor)
    (order : editor.state.children.Perm (c :: state.children))
    (shares : state.sharesContext = true → editor.state.sharesContext = true) :
    ∃ w', recompute id { w with arena := (w.arena.setState id state).dispose c, journal } =
        .ok () w' ∧ Rewrites w w' id state (w.arena.links.Within c) ∧
      (∀ x, w.arena.links.Within c x → w'.arena.outline x = none) ∧
      Poised w { w with arena := (w.arena.setState id state).dispose c } ∧
      Reports { w with arena := (w.arena.setState id state).dispose c, journal } w' := by
  obtain ⟨gone, kept, here⟩ := Arena.cut_spec sound.forest found order
  obtain ⟨w', ran, done, reports⟩ := Rewrites.recompute state journal
    (Arena.soundBut_cut sound found order shares) found here fun x other outside =>
      kept x outside other
  refine ⟨w', ran, done, fun x within => ?_, ?_, reports⟩
  · rw [reports.outline, Arena.outline_eq_none_iff]
    exact gone x within
  · refine poised_of_kept _ found here (fun x other outside => kept x outside other) ?_
    intro x e' within isLive
    rw [gone x within] at isLive
    cases isLive

theorem rewrites_link {b : Arena S} {child : Editor S} (state : EditorState S)
    (journal : Array (Event S)) (sound : w.arena.Sound) (found : w.arena.get? id = some editor)
    (root : w.arena.get? c = some child) (free : child.parent = none)
    (apart : ¬ w.arena.links.Within c id)
    (order : state.children.Perm (c :: editor.state.children))
    (shares : state.sharesContext = true →
      editor.state.sharesContext = true ∧ child.context = editor.context)
    (exact : b.Exact) (atParent : b.get? id = some { editor with state })
    (atChild : b.get? c = some { child with parent := some id })
    (others : ∀ y, y ≠ id → y ≠ c → b.get? y = w.arena.get? y) :
    ∃ w', recompute id { w with arena := b, journal } = .ok () w' ∧
      Rewrites w w' id state (· = c) ∧
      w'.arena.outline c = some { child.blank with parent := some id } ∧
      Poised w { w with arena := b } ∧ Reports { w with arena := b, journal } w' := by
  obtain ⟨w', ran, done, reports⟩ := Rewrites.recompute state journal
    (Arena.soundBut_link sound found root free apart order shares exact atParent atChild others)
    found atParent others
  refine ⟨w', ran, done, ?_, ?_, reports⟩
  · rw [reports.outline]
    exact Arena.outline_of_get? atChild
  · refine poised_of_kept _ found atParent others ?_
    rintro x e' rfl isLive
    rw [atChild] at isLive
    cases isLive
    exact ⟨child, root, rfl, rfl⟩

theorem showText_turn {c : S.ExpanderClass} {old : String} {oldItem : Option Candidate}
    (text : String) (item : Option Candidate) (sound : w.arena.Sound)
    (held : w.arena.state? id = some (.expander c (.text old oldItem))) :
    ∃ w', showText id text item w = .ok () w' ∧
      Rewrites w w' id (.expander c (.text text item)) (fun _ => False) ∧
      Telling w w' id (.displayText text) := by
  have asked : ask (·.expander id) w = .ok (c, .text old oldItem) w :=
    ask_run (Arena.expander_eq_ok_iff.2 held)
  obtain ⟨editor, found, state⟩ := Arena.get?_of_state? held
  obtain ⟨journal, told⟩ := tell_run id (.displayText text)
    { w with arena := w.arena.setState id (.expander c (.text text item)) }
  obtain ⟨w', ran, done, reports⟩ :=
    rewrites_leaf (.expander c (.text text item)) journal sound found (by rw [state]; rfl) rfl
  refine ⟨w', ?_, done, .early (poised_setState found _) rfl told reports⟩
  simp only [showText, Action.bind_run_ok _ asked, Action.bind_run_ok _ (setState_run found),
    Action.bind_run_ok _ told]
  exact ran

theorem showText_run {c : S.ExpanderClass} {old : String} {oldItem : Option Candidate}
    (text : String) (item : Option Candidate) (sound : w.arena.Sound)
    (held : w.arena.state? id = some (.expander c (.text old oldItem))) :
    ∃ w', showText id text item w = .ok () w' ∧
      Rewrites w w' id (.expander c (.text text item)) fun _ => False := by
  obtain ⟨w', ran, done, _⟩ := showText_turn text item sound held
  exact ⟨w', ran, done⟩

theorem dropContent_turn {c : S.ExpanderClass} {content : Handle} (sound : w.arena.Sound)
    (held : w.arena.state? id = some (.expander c (.expanded content))) :
    ∃ w', dropContent id w = .ok () w' ∧
      Rewrites w w' id (.expander c .initial) (w.arena.links.Within content) ∧
      (∀ x, w.arena.links.Within content x → w'.arena.outline x = none) ∧
      Telling w w' id .reset := by
  have asked : ask (·.expander id) w = .ok (c, .expanded content) w :=
    ask_run (Arena.expander_eq_ok_iff.2 held)
  obtain ⟨editor, found, state⟩ := Arena.get?_of_state? held
  obtain ⟨journal, remarked⟩ := remark_run ((Language.expander c).remarkOnReset id content
    ((w.arena.setState id (.expander c .initial)).contains content))
    { w with arena := w.arena.setState id (.expander c .initial) }
  obtain ⟨w', ran, done, gone, poised, reports⟩ :=
    rewrites_cut (.expander c .initial) journal sound found (by rw [state]; exact .refl _) nofun
  obtain ⟨journal', told⟩ := tell_run id .reset w'
  refine ⟨_, ?_, done.told journal', gone, .late (poised.remarked _ remarked rfl) rfl reports told⟩
  simp only [dropContent, Action.bind_run_ok _ asked, Action.bind_run_ok _ (setState_run found),
    Action.bind_run_ok _ (Action.get_run _), Action.bind_run_ok _ remarked,
    Action.bind_run_ok _ (dispose_run _ _), Action.bind_run_ok _ ran]
  exact told

theorem dropContent_run {c : S.ExpanderClass} {content : Handle} (sound : w.arena.Sound)
    (held : w.arena.state? id = some (.expander c (.expanded content))) :
    ∃ w', dropContent id w = .ok () w' ∧
      Rewrites w w' id (.expander c .initial) (w.arena.links.Within content) ∧
      ∀ x, w.arena.links.Within content x → w'.arena.outline x = none := by
  obtain ⟨w', ran, done, gone, _⟩ := dropContent_turn sound held
  exact ⟨w', ran, done, gone⟩

theorem attachItem_turn {k : S.ListClass} {ids : List Handle} {list item : Handle} {index : Nat}
    {child : Editor S} (sound : w.arena.Sound) (found : w.arena.get? list = some editor)
    (held : editor.state = .list k ids) (inside : index ≤ ids.length)
    (root : w.arena.get? item = some child) (free : child.parent = none)
    (sameContext : child.context = editor.context) (apart : ¬ w.arena.links.Within item list) :
    ∃ w', attachItem list index item w = .ok () w' ∧
      Rewrites w w' list (.list k (ids.insertIdx index item)) (· = item) ∧
      w'.arena.outline item = some { child.blank with parent := some list } ∧
      Telling w w' list (.itemAdded index item) := by
  have state : w.arena.state? list = some (.list k ids) := held ▸ Arena.state?_of_get? found
  have asked : ask (·.list list) w = .ok (k, ids) w := ask_run (Arena.list_eq_ok_iff.2 state)
  have different : item ≠ list := by
    rintro rfl
    exact apart .here
  have there : (w.arena.setState list (.list k (ids.insertIdx index item))).get? item =
      some child := by
    rw [Arena.get?_setState, if_neg different, root]
  obtain ⟨w', ran, done, attached, poised, reports⟩ := rewrites_link
    (.list k (ids.insertIdx index item)) w.journal
    (b := (w.arena.setState list (.list k (ids.insertIdx index item))).setParent (some list) item)
    sound found root free apart (by rw [held]; exact List.perm_insertIdx item ids inside)
    (fun _ => ⟨by rw [held]; rfl, sameContext⟩)
    (Arena.exact_modify (Arena.exact_modify sound.exact list _) item _)
    (by rw [Arena.get?_setParent, if_neg (Ne.symm different), Arena.get?_setState, if_pos rfl, found]
        rfl)
    (by rw [Arena.get?_setParent, if_pos rfl, there]; rfl)
    fun y notList notItem => by
      rw [Arena.get?_setParent, if_neg notItem, Arena.get?_setState, if_neg notList]
  obtain ⟨journal, told⟩ := tell_run list (.itemAdded index item) w'
  refine ⟨_, ?_, done.told journal, attached, .late poised rfl reports told⟩
  simp only [attachItem, Action.bind_run_ok _ (checkGap_run state inside),
    Action.bind_run_ok _ asked, Action.bind_run_ok _ (setState_run found)]
  rw [Action.bind_run_ok _ (setParent_run there), Action.bind_run_ok _ ran]
  exact told

theorem attachItem_run {k : S.ListClass} {ids : List Handle} {list item : Handle} {index : Nat}
    {child : Editor S} (sound : w.arena.Sound) (found : w.arena.get? list = some editor)
    (held : editor.state = .list k ids) (inside : index ≤ ids.length)
    (root : w.arena.get? item = some child) (free : child.parent = none)
    (sameContext : child.context = editor.context) (apart : ¬ w.arena.links.Within item list) :
    ∃ w', attachItem list index item w = .ok () w' ∧
      Rewrites w w' list (.list k (ids.insertIdx index item)) (· = item) ∧
      w'.arena.outline item = some { child.blank with parent := some list } := by
  obtain ⟨w', ran, done, attached, _⟩ :=
    attachItem_turn sound found held inside root free sameContext apart
  exact ⟨w', ran, done, attached⟩

theorem attachItem_cases {list item : Handle} {child : Editor S} (index : Nat)
    (sound : w.arena.Sound) (found : w.arena.get? list = some editor)
    (root : w.arena.get? item = some child) (free : child.parent = none)
    (sameContext : child.context = editor.context) (apart : ¬ w.arena.links.Within item list) :
    (∃ k ids w', editor.state = .list k ids ∧ index ≤ ids.length ∧
      attachItem list index item w = .ok () w' ∧
      Rewrites w w' list (.list k (ids.insertIdx index item)) (· = item)) ∨
    ∃ error, attachItem list index item w = .error (.refused error) w := by
  obtain ⟨k, ids, held, inside, _⟩ | ⟨error, ran⟩ := checkGap_cases list index w
  · have state := Option.some.inj ((Arena.state?_of_get? found).symm.trans held)
    obtain ⟨w', ran, done, _⟩ := attachItem_run sound found state inside root free sameContext apart
    exact .inl ⟨k, ids, w', state, inside, ran, done⟩
  · exact .inr ⟨error, Action.bind_run_error _ ran⟩

theorem dropItem_turn {k : S.ListClass} {ids : List Handle} {list item : Handle} {index : Nat}
    (sound : w.arena.Sound) (held : w.arena.state? list = some (.list k ids))
    (listed : ids[index]? = some item) :
    ∃ w', dropItem list index w = .ok () w' ∧
      Rewrites w w' list (.list k (ids.eraseIdx index)) (w.arena.links.Within item) ∧
      (∀ x, w.arena.links.Within item x → w'.arena.outline x = none) ∧
      Telling w w' list (.itemRemoved index) := by
  have asked : ask (·.list list) w = .ok (k, ids) w := ask_run (Arena.list_eq_ok_iff.2 held)
  obtain ⟨editor, found, state⟩ := Arena.get?_of_state? held
  obtain ⟨inside, same⟩ := List.getElem?_eq_some_iff.1 listed
  have order : editor.state.children.Perm (item :: ids.eraseIdx index) := by
    rw [state, ← same]
    exact (List.getElem_cons_eraseIdx_perm inside).symm
  obtain ⟨w', ran, done, gone, poised, reports⟩ := rewrites_cut (.list k (ids.eraseIdx index))
    w.journal sound found order fun _ => by rw [state]; rfl
  obtain ⟨journal, told⟩ := tell_run list (.itemRemoved index) w'
  refine ⟨_, ?_, done.told journal, gone, .late poised rfl reports told⟩
  simp only [dropItem, Action.bind_run_ok _ (itemAt_run held listed), Action.bind_run_ok _ asked,
    Action.bind_run_ok _ (setState_run found)]
  rw [Action.bind_run_ok _ (dispose_run _ _), Action.bind_run_ok _ ran]
  exact told

theorem dropItem_run {k : S.ListClass} {ids : List Handle} {list item : Handle} {index : Nat}
    (sound : w.arena.Sound) (held : w.arena.state? list = some (.list k ids))
    (listed : ids[index]? = some item) :
    ∃ w', dropItem list index w = .ok () w' ∧
      Rewrites w w' list (.list k (ids.eraseIdx index)) (w.arena.links.Within item) ∧
      ∀ x, w.arena.links.Within item x → w'.arena.outline x = none := by
  obtain ⟨w', ran, done, gone, _⟩ := dropItem_turn sound held listed
  exact ⟨w', ran, done, gone⟩

theorem dropItem_cases (list : Handle) (index : Nat) (sound : w.arena.Sound) :
    (∃ k ids item w', w.arena.state? list = some (.list k ids) ∧ ids[index]? = some item ∧
      dropItem list index w = .ok () w' ∧
      Rewrites w w' list (.list k (ids.eraseIdx index)) (w.arena.links.Within item) ∧
      ∀ x, w.arena.links.Within item x → w'.arena.outline x = none) ∨
    ∃ error, dropItem list index w = .error (.refused error) w := by
  obtain ⟨k, ids, item, held, listed, _⟩ | ⟨error, ran⟩ := itemAt_cases list index w
  · obtain ⟨w', ran, done, gone⟩ := dropItem_run sound held listed
    exact .inl ⟨k, ids, item, w', held, listed, ran, done, gone⟩
  · exact .inr ⟨error, Action.bind_run_error _ ran⟩

section

omit [Language S]

/-- The history that takes down what happens to editors of a context. -/
def recorder? (w : Workspace S) (context : Context) : Option HistoryId :=
  (w.contexts.find? (·.history) context).filter fun h =>
    ((historyLens h).view w).active

def noting (w : Workspace S) (context : Context) (edit : Edit) : Histories Edit :=
  match w.recorder? context with
  | some h => ((historyLens h).update (·.record (.single edit)) w).histories
  | none => w.histories

theorem Quiet.recorder? (quiet : Quiet w w') (context : Context) :
    w'.recorder? context = w.recorder? context := by
  have same : w'.contexts.find? (·.history) context = w.contexts.find? (·.history) context :=
    quiet.contexts.find? rfl context
  simp only [Workspace.recorder?, same, historyLens, quiet.histories]

theorem Quiet.noting (quiet : Quiet w w') (context : Context) (edit : Edit) :
    w'.noting context edit = w.noting context edit := by
  simp only [Workspace.noting, quiet.recorder?, HistoryLens.update, historyLens, quiet.histories]

theorem recording?_run (found : w.arena.get? id = some editor) :
    recording? id w = .ok (w.recorder? editor.context) w := by
  have asked : historyFor? id w = .ok (w.contexts.find? (·.history) editor.context) w := by
    simp only [historyFor?, Action.bind_run_ok _ (lookup_run found)]
    rfl
  simp only [recording?, Action.bind_run_ok _ asked, recorder?]
  cases w.contexts.find? (·.history) editor.context with
  | none => rfl
  | some h =>
    have viewed : history h w = .ok ((historyLens h).view w) w := rfl
    simp only [Action.bind_run_ok _ viewed]
    rfl

theorem recordIfActive_run {make : Editing S Edit} {edit : Edit}
    (found : w.arena.get? id = some editor) (made : make w = .ok edit w) :
    recordIfActive id make w = .ok () { w with histories := w.noting editor.context edit } := by
  simp only [recordIfActive, Action.bind_run_ok _ (recording?_run found), noting]
  cases w.recorder? editor.context with
  | none => rfl
  | some h =>
    simp only [Action.bind_run_ok _ made]
    rfl

end

def notingText (w : Workspace S) (id : Handle) (editor : Editor S) (old text : String)
    (oldItem item : Option Candidate) (undoable : Bool) : Histories Edit :=
  match w.arena.locate id with
  | .ok locator =>
    if undoable && (old != text || oldItem != item) then
      w.noting editor.context (.text locator old text oldItem item)
    else w.histories
  | .error _ => w.histories

theorem writeToken_turn {k : S.TokenClass} {old : String} {oldItem : Option Candidate}
    (text : String) (item : Option Candidate) (undoable : Bool) (sound : w.arena.Sound)
    (found : w.arena.get? id = some editor) (held : editor.state = .token k old oldItem) :
    ∃ w', writeToken id text item undoable w = .ok () w' ∧
      Rewrites { w with
        histories := w.notingText id editor old text oldItem item undoable } w' id
        (.token k text item) (fun _ => False) ∧ Telling w w' id (.displayText text) := by
  have state : w.arena.state? id = some (.token k old oldItem) := held ▸ Arena.state?_of_get? found
  have asked : ask (·.token id) w = .ok (k, old, oldItem) w :=
    ask_run (Arena.token_eq_ok_iff.2 state)
  let w₁ : Workspace S := { w with arena := w.arena.setState id (.token k text item) }
  let w₂ : Workspace S :=
    { w with histories := w.notingText id editor old text oldItem item undoable }
  have here : w₁.arena.get? id = some { editor with state := .token k text item } := by
    refine (Arena.get?_setState ..).trans ?_
    rw [if_pos rfl, found]
    rfl
  obtain ⟨root, way, _, located, _⟩ := Arena.locate_spec sound.forest found
  have located' : w₁.arena.locate id = .ok ⟨root, way⟩ :=
    (Arena.locate_setState sound.forest found (by rw [held]; rfl)).trans located
  obtain ⟨journal, told⟩ := tell_run id (.displayText text) { w₁ with
    histories := w.notingText id editor old text oldItem item undoable }
  obtain ⟨w', ran, done, reports⟩ := rewrites_leaf (w := w₂) (.token k text item) journal sound
    found (by rw [held]; rfl) rfl
  have poised : Poised w { w₁ with
      histories := w.notingText id editor old text oldItem item undoable } :=
    ⟨(poised_setState found _).kept, fun _ => rfl, rfl⟩
  refine ⟨w', ?_, done, .early poised rfl told reports⟩
  have finished : (tell id (.displayText text) >>= fun _ => recompute id) { w₁ with
      histories := w.notingText id editor old text oldItem item undoable } = .ok () w' := by
    rw [Action.bind_run_ok _ told]
    exact ran
  simp only [writeToken, Action.bind_run_ok _ asked, Action.bind_run_ok _ (setState_run found)]
  simp only [notingText, located] at finished
  split
  · next changed =>
    rw [if_pos changed] at finished
    have asked : ask (·.locate id) w₁ = .ok ⟨root, way⟩ w₁ := ask_run located'
    have made : (do return Edit.text (← ask (·.locate id)) old text oldItem item) w₁ =
        .ok (Edit.text ⟨root, way⟩ old text oldItem item) w₁ := by
      rw [Action.bind_run_ok _ asked]
      rfl
    rw [Action.bind_run_ok _ (recordIfActive_run here made)]
    exact finished
  · next unchanged =>
    rw [if_neg unchanged] at finished
    exact finished

theorem writeToken_run {k : S.TokenClass} {old : String} {oldItem : Option Candidate}
    (text : String) (item : Option Candidate) (undoable : Bool) (sound : w.arena.Sound)
    (found : w.arena.get? id = some editor) (held : editor.state = .token k old oldItem) :
    ∃ w', writeToken id text item undoable w = .ok () w' ∧
      Rewrites { w with
        histories := w.notingText id editor old text oldItem item undoable } w' id
        (.token k text item) fun _ => False := by
  obtain ⟨w', ran, done, _⟩ := writeToken_turn text item undoable sound found held
  exact ⟨w', ran, done⟩

theorem writeToken_quiet {k : S.TokenClass} {old : String} {oldItem : Option Candidate}
    (text : String) (item : Option Candidate) (sound : w.arena.Sound)
    (held : w.arena.state? id = some (.token k old oldItem)) :
    ∃ w', writeToken id text item false w = .ok () w' ∧
      Rewrites w w' id (.token k text item) fun _ => False := by
  obtain ⟨editor, found, state⟩ := Arena.get?_of_state? held
  obtain ⟨w', ran, done⟩ := writeToken_run text item false sound found state
  have same : w.notingText id editor old text oldItem item false = w.histories := by
    unfold notingText
    split <;> rfl
  rw [same] at done
  exact ⟨w', ran, done⟩

theorem Rewrites.state?_eq {apart : Handle → Prop} (done : Rewrites w w' id state apart)
    (found : w.arena.get? id = some editor) : w'.arena.state? id = some state :=
  Arena.state?_of_outline (done.here _ (Arena.outline_of_get? found))

theorem Rewrites.top {apart : Handle → Prop} (done : Rewrites w w' id state apart)
    (found : w.arena.get? id = some editor) (sameClass : state.classKey = editor.state.classKey)
    {e : Editor S} (outlined : w.arena.outline id = some e) :
    ∃ editor', w'.arena.outline id = some editor' ∧ e.KeepsPlace editor' := by
  refine ⟨_, done.here _ outlined, rfl, rfl, rfl, ?_⟩
  rw [Arena.outline_of_get? found] at outlined
  cases outlined
  exact sameClass

theorem Rewrites.changes {apart : Handle → Prop} (done : Rewrites w w' id state apart)
    (found : w.arena.get? id = some editor) (sameClass : state.classKey = editor.state.classKey)
    (below : ∀ x, apart x → w.arena.links.Within id x) : w.arena.Changes w'.arena id where
  outside x e isLive outside := by
    rw [done.kept x (by rintro rfl; exact outside .here) fun apart => outside (below x apart)]
    exact isLive
  top e outlined := done.top found sameClass outlined

theorem Rewrites.changes_grown {a : Arena S} (done : Rewrites w w' id state (· = c))
    (grows : a.Grows w.arena) (fresh : a.outline c = none) (found : w.arena.get? id = some editor)
    (was : ∃ e, a.outline id = some e) (sameClass : state.classKey = editor.state.classKey) :
    a.Changes w'.arena id where
  outside x e isLive outside := by
    rw [done.kept x (by rintro rfl; exact outside .here) ?_]
    · exact grows x e isLive
    · rintro rfl
      rw [fresh] at isLive
      cases isLive
  top e outlined := done.top found sameClass (grows id e outlined)

theorem Rewrites.shows {apart : Handle → Prop} {d : Sketch S} (done : Rewrites w w' id state apart)
    (sound : w.arena.Sound) (seen : w.arena.Shows x d)
    (elsewhere : ∀ y, w.arena.links.Within x y → y ≠ id ∧
      (apart y → w'.arena.state? y = w.arena.state? y)) : w'.arena.Shows x d := by
  refine seen.transfer sound.forest fun y within => ?_
  obtain ⟨other, ifApart⟩ := elsewhere y within
  by_cases isApart : apart y
  · exact ifApart isApart
  · exact Arena.state?_congr (done.kept y other isApart)

theorem Rewrites.shows_linked {child : Editor S} {d : Sketch S}
    (done : Rewrites w w' id state (· = c)) (sound : w.arena.Sound)
    (root : w.arena.get? c = some child)
    (linked : w'.arena.outline c = some { child.blank with parent := some id })
    (seen : w.arena.Shows x d) (notAbove : ¬ w.arena.links.Within x id) : w'.arena.Shows x d := by
  refine done.shows sound seen fun y within => ⟨?_, ?_⟩
  · rintro rfl
    exact notAbove within
  · rintro rfl
    rw [Arena.state?_of_outline linked, Arena.state?_of_get? root]
    rfl

theorem dropItems_run {k : S.ListClass} {ids : List Handle} {list : Handle} (sound : w.arena.Sound)
    (held : w.arena.state? list = some (.list k ids)) :
    ∃ w', dropItems list w = .ok () w' ∧ w'.arena.Sound ∧ Quiet w w' ∧
      w.arena.Changes w'.arena list ∧ w'.arena.state? list = some (.list k []) := by
  have asked : ask (·.items list) w = .ok ids w := ask_run (Arena.items_eq_ok_iff.2 ⟨k, held⟩)
  simp only [dropItems, Action.bind_run_ok _ asked]
  clear asked
  generalize length : ids.length = n
  -- the last item goes first, so that the rest of the list is the one that the next step needs
  induction n generalizing w ids with
  | zero =>
    obtain rfl := List.length_eq_zero_iff.1 length
    exact ⟨w, rfl, sound, .refl w, .refl _ _, held⟩
  | succ n ih =>
    obtain ⟨item, listed⟩ : ∃ item, ids[n]? = some item :=
      ⟨ids[n], List.getElem?_eq_getElem (by omega)⟩
    obtain ⟨editor, found, state⟩ := Arena.get?_of_state? held
    obtain ⟨w₁, ran, done, _⟩ := dropItem_run sound held listed
    have member : item ∈ editor.state.children := by
      rw [state]
      exact List.mem_of_getElem? listed
    have changes : w.arena.Changes w₁.arena list :=
      done.changes found (by rw [state]; rfl) fun x within =>
        (sound.forest.within_of_child (Arena.links_of_get? found) member).trans within
    have shorter : (ids.eraseIdx n).length = n := by
      rw [List.length_eraseIdx_of_lt (by omega), length]
      rfl
    obtain ⟨w₂, ran', sound', quiet, changes', empty⟩ := ih done.sound (done.state?_eq found) shorter
    refine ⟨w₂, ?_, sound', done.quiet.trans quiet, changes.trans changes' sound.forest, empty⟩
    rw [List.range_succ, List.reverse_append, List.reverse_singleton, List.singleton_append,
      Action.forM_run_ok _ ran]
    exact ran'

end Workspace

end StructureEditor
