import StructureEditor.Proofs.Replaying
import Mathlib.Data.List.InsertIdx

/-! Recording. While the documents are in order and their history is active, every operation on
them takes at most one step of the history, and the step leads from the page before to the
page after it. -/
namespace StructureEditor

variable {S : Signature}

namespace Arena

variable {a b : Arena S} {x y : Handle}

theorem follow_of_grows {way : List Position} (grows : a.Grows b) (led : a.follow x way = .ok y) :
    b.follow x way = .ok y := by
  induction way generalizing x with
  | nil => exact led
  | cons position rest ih =>
    obtain ⟨editor, child, found, held, led⟩ := follow_cons led
    obtain ⟨editor', found', same⟩ := get?_of_outline (grows x _ (outline_of_get? found))
    have state : editor'.blank.state = editor.blank.state := by rw [same]
    have step : b.follow x [position] = .ok child :=
      follow_step found' (by rw [show editor'.state = editor.state from state, held])
    exact follow_append step (ih led)

theorem Changes.follow {way : List Position} (changes : a.Changes b y) (forest : a.links.Forest)
    (led : a.follow x way = .ok y) : b.follow x way = .ok y :=
  follow_of_above forest led fun z editor _ _ above found held _ =>
    ⟨editor.blank.state, state?_of_outline (changes.outside z _ (outline_of_get? found) above), held⟩

theorem Grows.depicts {roots : List Handle} {P : Page S} (grows : a.Grows b)
    (forest : a.links.Forest) (depicts : a.Depicts roots P) : b.Depicts roots P := by
  refine ⟨fun x member => ?_, depicts.blank⟩
  obtain ⟨d, seen, here⟩ := depicts.shown x member
  exact ⟨d, grows.shows forest seen, here⟩

variable [Language S]

theorem displaySnapshot_text {k : S.ExpanderClass} {shown : String} {item : Option Candidate}
    (held : a.state? x = some (.expander k (.text shown item))) :
    a.displaySnapshot x = .ok (.text shown item) := by
  simp only [displaySnapshot, displayOf_eq_ok_iff.2 ⟨k, held⟩, Bind.bind, Except.bind]
  rfl

theorem displaySnapshot_of_shows {d : Sketch S} {k : S.ExpanderClass} (forest : a.links.Forest)
    (seen : a.Shows x d) (isKey : d.classKey = .expander k) :
    ∃ state, a.displaySnapshot x = .ok state ∧ d.toSnapshot.display? = some state := by
  cases d with
  | text k shown item =>
    refine ⟨.text shown item, displaySnapshot_text seen, ?_⟩
    simp only [Sketch.toSnapshot, Snapshot.ofExpander, Snapshot.display?, Option.getD_some,
      Workspace.candidate?_of]
  | expanded k content =>
    obtain ⟨y, held, seen⟩ := shows_expanded.1 seen
    refine ⟨.expanded content.toSnapshot, ?_, rfl⟩
    simp only [displaySnapshot, displayOf_eq_ok_iff.2 ⟨k, held⟩, Bind.bind, Except.bind,
      snapshot_of_shows forest seen]
    rfl
  | token => cases isKey
  | compound => cases isKey
  | list => cases isKey

end Arena

variable [Language S]

namespace Workspace

variable {α β : Type} {w₀ w w' : Workspace S} {h : HistoryId} {r : Registry S} {roots : List Handle}
  {P P' : Page S} {id root : Handle} {editor : Editor S} {s s' : Sketch S} {way : List Position}

/-- The documents of some roots are in order: the roots are roots, every context below them
resolves to one history and one registry, compounds and lists hold the declared classes, and
every class that occurs is registered. -/
structure Orderly (h : HistoryId) (r : Registry S) (roots : List Handle) (w : Workspace S) : Prop
    extends Tended h r roots w where
  known : ∀ x ∈ roots, ∀ y editor, w.arena.links.Within x y → w.arena.get? y = some editor →
    r.Has editor.state.classKey

theorem known_of_below {x : Handle} (forest : w.arena.links.Forest)
    (known : ∀ y editor, w.arena.links.Within x y → w.arena.get? y = some editor →
      r.Has editor.state.classKey) (seen : w.arena.Shows x s) : s.Known r := by
  have here : ∀ {x s}, (∀ y editor, w.arena.links.Within x y → w.arena.get? y = some editor →
      r.Has editor.state.classKey) → w.arena.Shows x s → r.Has s.classKey := by
    intro x s known seen
    obtain ⟨state, held, key⟩ := seen.state
    obtain ⟨editor, found, rfl⟩ := Arena.get?_of_state? held
    exact key ▸ known x editor .here found
  have child : ∀ {x y state}, (∀ y editor, w.arena.links.Within x y → w.arena.get? y = some editor →
      r.Has editor.state.classKey) → w.arena.state? x = some state → y ∈ state.children →
      ∀ z editor, w.arena.links.Within y z → w.arena.get? z = some editor →
        r.Has editor.state.classKey := fun known held member z editor within found =>
    known z editor ((Arena.within_of_state? forest held member).trans within) found
  induction s using Sketch.induct generalizing x with
  | token k text item => exact here known seen
  | text k shown item => exact here known seen
  | expanded k content ih =>
    have top := here known seen
    obtain ⟨y, held, seen⟩ := Arena.shows_expanded.1 seen
    exact ⟨top, ih (child known held (by simp [EditorState.children])) seen⟩
  | compound k parts ih =>
    have top := here known seen
    obtain ⟨ids, held, seen⟩ := Arena.shows_compound.1 seen
    refine ⟨top, Sketch.allKnown_iff.2 fun d member => ?_⟩
    obtain ⟨y, listed, seen⟩ := Arena.shown_member seen member
    exact ih d member (child known held listed) seen
  | list k items ih =>
    have top := here known seen
    obtain ⟨ids, held, seen⟩ := Arena.shows_list.1 seen
    refine ⟨top, Sketch.allKnown_iff.2 fun d member => ?_⟩
    obtain ⟨y, listed, seen⟩ := Arena.shown_member seen member
    exact ih d member (child known held listed) seen

/-- Whatever the roots show can be rebuilt. -/
def AllFine (r : Registry S) (roots : List Handle) (w : Workspace S) : Prop :=
  ∀ P, w.arena.Depicts roots P → P.Fine r

/-- What orderly documents show together. -/
structure Presents (h : HistoryId) (r : Registry S) (roots : List Handle) (w : Workspace S)
    (P : Page S) : Prop where
  tended : Tended h r roots w
  depicts : w.arena.Depicts roots P
  fine : P.Fine r

theorem Orderly.fine (orderly : Orderly h r roots w) : AllFine r roots w := by
  intro P depicts x d here
  have member : x ∈ roots := by
    by_contra outside
    rw [depicts.blank x outside] at here
    cases here
  obtain ⟨s, seen, shown⟩ := depicts.shown x member
  cases here.symm.trans shown
  exact Sketch.fine_canon.2 ⟨(orderly.order x member).conforms orderly.sound.forest seen,
    known_of_below orderly.sound.forest (orderly.known x member) seen⟩

theorem Orderly.presents (orderly : Orderly h r roots w) : ∃ P, Presents h r roots w P := by
  obtain ⟨P, depicts⟩ := Arena.exists_depicts orderly.sound.forest fun x member =>
    (orderly.free x member).imp fun _ found => found.1
  exact ⟨P, orderly.toTended, depicts, orderly.fine P depicts⟩

def Ready (h : HistoryId) (w : Workspace S) : Prop := ((historyLens h).view w).active = true

/-- From one state to another, the history took at most one step, which leads from the one page
to the other. -/
def Advances (h : HistoryId) (r : Registry S) (roots : List Handle) (P : Page S)
    (w w' : Workspace S) : Prop :=
  ∃ P', w'.arena.Depicts roots P' ∧
    History.Takes r ((historyLens h).view w) P ((historyLens h).view w') P'

/-- However an action ends short of a fault, the history has taken at most one step. -/
def Records (h : HistoryId) (r : Registry S) (roots : List Handle) (P : Page S)
    (w₀ : Workspace S) (action : Editing S α) (w : Workspace S) : Prop :=
  Action.Meets action w (fun _ w' => AllFine r roots w' → Advances h r roots P w₀ w')
    fun stop w' => ∀ error, stop = .refused error → AllFine r roots w' →
      Advances h r roots P w₀ w'

omit [Language S] in
theorem view_of_histories (same : w'.histories = w.histories) :
    (historyLens h).view w' = (historyLens h).view w := by
  simp only [historyLens, same]

theorem Presents.added (presents : Presents h r roots w₀ P) (added : Added w₀ w) :
    Advances h r roots P w₀ w := by
  refine ⟨P, added.grows.depicts presents.tended.sound.forest presents.depicts, ?_⟩
  rw [view_of_histories added.quiet.histories]
  exact .refl ..

theorem Records.bind {action : Editing S α} {next : α → Editing S β}
    (presents : Presents h r roots w₀ P)
    (first : Action.Meets action w (fun v w' => Records h r roots P w₀ (next v) w')
      fun stop w' => ∀ error, stop = .refused error → Added w₀ w') :
    Records h r roots P w₀ (action >>= next) w :=
  Action.Meets.bind (first.mono (fun _ _ rest => rest)
    fun _ _ added error refused _ => presents.added (added error refused))

theorem Records.ask {question : Arena S → Except Refusal α} {next : α → Editing S β}
    (presents : Presents h r roots w₀ P) (added : Added w₀ w)
    (rest : ∀ v, question w.arena = .ok v → Records h r roots P w₀ (next v) w) :
    Records h r roots P w₀ (Workspace.ask question >>= next) w :=
  .bind presents (.ask (fun v answered => rest v answered) fun _ _ _ _ => added)

theorem Records.map {action : Editing S α} {f : α → β} (records : Records h r roots P w₀ action w) :
    Records h r roots P w₀ (action >>= fun v => pure (f v)) w :=
  Action.Meets.bind (records.mono (fun _ _ advances => advances) fun _ _ advances => advances)

theorem locates (tended : Tended h r roots w) (member : root ∈ roots)
    (within : w.arena.links.Within root id) :
    ∃ way, w.arena.follow root way = .ok id ∧ w.arena.locate id = .ok ⟨root, way⟩ := by
  obtain ⟨top, found, isRoot⟩ := tended.free root member
  exact Arena.locate_below tended.sound.forest (Arena.links_of_get? found) isRoot within

theorem Presents.records (presents : Presents h r roots w P) (edit : Edit) (ready : Ready h w)
    (member : root ∈ roots) (led : w.arena.follow root way = .ok id) (seen : w.arena.Shows id s)
    (changes : w.arena.Changes w'.arena id) (seen' : w'.arena.Shows id s')
    (named : edit.locator = ⟨root, way⟩)
    (turns : s.Fine r → s'.Fine r → edit.Turns r s.canon s'.canon)
    (recorded : w'.histories =
      ((historyLens h).update (·.record (.single edit)) w).histories)
    (allFine : AllFine r roots w') : Advances h r roots P w w' := by
  have there := presents.depicts.at? member led seen
  have depicts := presents.depicts.change changes presents.tended.sound.forest
    presents.tended.free member led seen'
  have fine : s.Fine r := Sketch.fine_canon.1 (presents.fine.at? there)
  have fine' : s'.Fine r :=
    Sketch.fine_canon.1 ((allFine _ depicts).at? (Page.at?_set there s'.canon))
  have view : (historyLens h).view w' = ((historyLens h).view w).record (.single edit) := by
    simp [historyLens, recorded, HistoryLens.update]
  refine ⟨_, depicts, ?_⟩
  rw [view]
  refine History.takes_record ready ⟨_, _, turns fine fine', ?_, ?_⟩
  · rw [named]
    exact there
  · rw [named]

omit [Language S] in
theorem recorder?_governed (ready : Ready h w) (governs : w.contexts.Governs h r editor.context) :
    w.recorder? editor.context = some h := by
  rw [recorder?, governs.history, Option.filter_some]
  exact if_pos ready

theorem Ready.added (ready : Ready h w₀) (added : Added w₀ w) : Ready h w := by
  rw [Ready, view_of_histories added.quiet.histories]
  exact ready

structure Standing (h : HistoryId) (r : Registry S) (w : Workspace S) (root id : Handle)
    (way : List Position) (editor : Editor S) : Prop where
  found : w.arena.get? id = some editor
  governs : w.contexts.Governs h r editor.context
  led : w.arena.follow root way = .ok id
  located : w.arena.locate id = .ok ⟨root, way⟩

theorem Tended.standing (tended : Tended h r roots w) (member : root ∈ roots)
    (within : w.arena.links.Within root id) (found : w.arena.get? id = some editor) :
    ∃ way, Standing h r w root id way editor := by
  obtain ⟨way, led, located⟩ := locates tended member within
  exact ⟨way, found, (((tended.order root member).below within).here found).governed, led, located⟩

theorem Standing.added (standing : Standing h r w₀ root id way editor)
    (tended : Tended h r roots w₀) (member : root ∈ roots) (added : Added w₀ w) :
    ∃ editor', Standing h r w root id way editor' ∧ editor'.state = editor.state ∧
      editor'.context = editor.context := by
  obtain ⟨editor', found, state, context, _⟩ :=
    Arena.kept_of_outline (added.grows id _ (Arena.outline_of_get? standing.found))
  have context : editor'.context = editor.context := context
  obtain ⟨top, topFound, isRoot⟩ := tended.free root member
  have led := Arena.follow_of_grows added.grows standing.led
  refine ⟨editor', ⟨found, context ▸ standing.governs.grown added.quiet.contexts, led, ?_⟩, state,
    context⟩
  have outlined := added.grows root _ (Arena.outline_of_get? topFound)
  exact Arena.locate_of_follow added.sound.forest (Arena.links_of_outline outlined) isRoot led

omit [Language S] in
theorem locate_run (forest : w.arena.links.Forest) (found : w.arena.get? id = some editor) :
    ∃ locator, ask (·.locate id) w = .ok locator w := by
  obtain ⟨root, way, _, located, _⟩ := Arena.locate_spec forest found
  exact ⟨_, ask_run located⟩

theorem snapshot_run (forest : w.arena.links.Forest) (found : w.arena.get? id = some editor) :
    ∃ s, ask (·.snapshot id) w = .ok s w := by
  obtain ⟨d, seen⟩ := Arena.exists_shows forest found
  exact ⟨_, ask_run (Arena.snapshot_of_shows forest seen)⟩

theorem displaySnapshot_exists {k : S.ExpanderClass} {display : Display Handle}
    (forest : w.arena.links.Forest) (held : w.arena.state? id = some (.expander k display)) :
    ∃ state, w.arena.displaySnapshot id = .ok state := by
  obtain ⟨editor, found, _⟩ := Arena.get?_of_state? held
  obtain ⟨d, seen⟩ := Arena.exists_shows forest found
  obtain ⟨state, shown, _⟩ := Arena.displaySnapshot_of_shows forest seen (classKey_of_held seen held)
  exact ⟨state, shown⟩

theorem displaySnapshot_run {k : S.ExpanderClass} {display : Display Handle}
    (forest : w.arena.links.Forest)
    (held : w.arena.state? id = some (.expander k display)) :
    ∃ state, ask (·.displaySnapshot id) w = .ok state w := by
  obtain ⟨state, shown⟩ := displaySnapshot_exists forest held
  exact ⟨state, ask_run shown⟩

theorem recordTransition_takes {action : Editing S α} {value : α} {locator : Locator}
    {before after : Display Snapshot} (description : String)
    (found : w.arena.get? id = some editor) (located : w.arena.locate id = .ok locator)
    (shown : w.arena.displaySnapshot id = .ok before) (ran : action w = .ok value w')
    (quiet : Quiet w w') (shown' : w'.arena.displaySnapshot id = .ok after) :
    recordTransition id description action w = .ok value { w' with
      histories := w.noting editor.context (.transition locator before after description) } := by
  have located : ask (·.locate id) w = .ok locator w := ask_run located
  have asked : ask (·.displaySnapshot id) w = .ok before w := ask_run shown
  have asked' : ask (·.displaySnapshot id) w' = .ok after w' := ask_run shown'
  rw [← quiet.noting, recordTransition, Action.bind_run_ok _ (recording?_run found)]
  have same := quiet.recorder? editor.context
  cases recorder : w.recorder? editor.context with
  | none =>
    simp only [ran, noting, same, recorder]
  | some h =>
    simp only [Action.bind_run_ok _ located, Action.bind_run_ok _ asked, Action.bind_run_ok _ ran,
      Action.bind_run_ok _ asked', noting, same, recorder]
    rfl

theorem recordTransition_notes {action : Editing S α} {value : α} {k k' : S.ExpanderClass}
    {display display' : Display Handle} (description : String) (sound : w.arena.Sound)
    (found : w.arena.get? id = some editor) (held : editor.state = .expander k display)
    (ran : action w = .ok value w') (sound' : w'.arena.Sound) (quiet : Quiet w w')
    (held' : w'.arena.state? id = some (.expander k' display')) :
    ∃ edit, recordTransition id description action w =
      .ok value { w' with histories := w.noting editor.context edit } := by
  obtain ⟨root, way, _, located, _⟩ := Arena.locate_spec sound.forest found
  obtain ⟨before, shown⟩ := displaySnapshot_exists sound.forest (held ▸ Arena.state?_of_get? found)
  obtain ⟨after, shown'⟩ := displaySnapshot_exists sound'.forest held'
  exact ⟨_, recordTransition_takes description found located shown ran quiet shown'⟩

theorem recordTransition_run {action : Editing S α} {k : S.ExpanderClass}
    {display : Display Handle} {value : α} (description : String)
    (presents : Presents h r roots w₀ P) (ready : Ready h w₀) (member : root ∈ roots)
    (within : w₀.arena.links.Within root id)
    (held : w₀.arena.state? id = some (.expander k display)) (added : Added w₀ w)
    (ran : action w = .ok value w') (changed : Confined w₀ w' id) :
    ∃ w'', recordTransition id description action w = .ok value w'' ∧ w''.arena = w'.arena ∧
      w''.contexts = w'.contexts ∧ (AllFine r roots w'' → Advances h r roots P w₀ w'') := by
  obtain ⟨editor, found, state⟩ := Arena.get?_of_state? held
  obtain ⟨way, standing⟩ := presents.tended.standing member within found
  obtain ⟨editor₁, standing₁, _, _⟩ := standing.added presents.tended member added
  obtain ⟨s, seen⟩ := Arena.exists_shows presents.tended.sound.forest found
  have isKey := classKey_of_held seen held
  obtain ⟨before, asked, recorded⟩ := Arena.displaySnapshot_of_shows added.sound.forest
    (added.grows.shows presents.tended.sound.forest seen) isKey
  obtain ⟨editor', found', kept⟩ := changed.changes.live found
  obtain ⟨s', seen'⟩ := Arena.exists_shows changed.sound.forest found'
  have isKey' : s'.classKey = .expander k :=
    (classKey_of_changes changed.changes seen seen').trans isKey
  obtain ⟨after, asked', recorded'⟩ :=
    Arena.displaySnapshot_of_shows changed.sound.forest seen' isKey'
  have located : ask (·.locate id) w = .ok ⟨root, way⟩ w := ask_run standing₁.located
  have asked : ask (·.displaySnapshot id) w = .ok before w := ask_run asked
  have asked' : ask (·.displaySnapshot id) w' = .ok after w' := ask_run asked'
  refine ⟨(historyLens h).update (·.record (.single
    (.transition ⟨root, way⟩ before after description))) w', ?_, rfl, rfl, fun allFine => ?_⟩
  · simp only [recordTransition, Action.bind_run_ok _ (recording?_run standing₁.found),
      recorder?_governed (ready.added added) standing₁.governs,
      Action.bind_run_ok _ located, Action.bind_run_ok _ asked,
      Action.bind_run_ok _ ran, Action.bind_run_ok _ asked']
    rfl
  · refine presents.records (.transition ⟨root, way⟩ before after description) ready member
      standing.led seen changed.changes seen' rfl
      (fun fine fine' => ⟨k, s, s', isKey, isKey', fine, fine', recorded, recorded', rfl, rfl⟩) ?_
      allFine
    simp only [HistoryLens.update, historyLens, changed.quiet.histories]

theorem recordTransition_records {action : Editing S α} {k : S.ExpanderClass}
    {display : Display Handle} (description : String) (presents : Presents h r roots w₀ P)
    (ready : Ready h w₀) (member : root ∈ roots) (within : w₀.arena.links.Within root id)
    (held : w₀.arena.state? id = some (.expander k display)) (added : Added w₀ w)
    (acts : Action.Meets action w (fun _ w' => Confined w₀ w' id)
      fun stop w' => ∀ error, stop = .refused error → Added w₀ w') :
    Records h r roots P w₀ (recordTransition id description action) w := by
  cases ran : action w with
  | ok value w' =>
    obtain ⟨w'', whole, _, _, advances⟩ := recordTransition_run description presents ready member
      within held added ran (acts.ok_of ran)
    exact .of_ok whole advances
  | error stop w' =>
    obtain ⟨editor, found, _⟩ := Arena.get?_of_state? held
    obtain ⟨way, standing⟩ := presents.tended.standing member within found
    obtain ⟨editor₁, standing₁, _, _⟩ := standing.added presents.tended member added
    obtain ⟨s, seen⟩ := Arena.exists_shows presents.tended.sound.forest found
    obtain ⟨before, asked, _⟩ := Arena.displaySnapshot_of_shows added.sound.forest
      (added.grows.shows presents.tended.sound.forest seen) (classKey_of_held seen held)
    refine .after_ok (recording?_run standing₁.found) ?_
    rw [recorder?_governed (ready.added added) standing₁.governs]
    exact .after_ok (ask_run standing₁.located) (.after_ok (ask_run asked)
      (.of_error (Action.bind_run_error _ ran)
        fun error refused _ => presents.added (acts.stopped_of ran error refused)))

omit [Language S] in
theorem canon_of_beq {a b : Option Candidate} (same : (a == b) = true) :
    a.map Candidate.canon = b.map Candidate.canon := by
  cases a with
  | none =>
    cases b with
    | none => rfl
    | some b => cases same
  | some a =>
    cases b with
    | none => cases same
    | some b => exact congrArg some (Candidate.beq_iff.1 same)

theorem writeToken_records (text : String) (item : Option Candidate)
    (presents : Presents h r roots w P) (ready : Ready h w) (member : root ∈ roots)
    (within : w.arena.links.Within root id) :
    Records h r roots P w (writeToken id text item true) w := by
  have sound := presents.tended.sound
  cases answered : w.arena.token id with
  | error error =>
    have asked : ask (·.token id) w = .error (.refused error) w := Action.ask_run_error answered
    exact .of_error (Action.bind_run_error _ asked) fun _ _ _ => presents.added (.refl sound)
  | ok answer =>
    obtain ⟨k, old, oldItem⟩ := answer
    have held := Arena.token_eq_ok_iff.1 answered
    obtain ⟨editor, found, state⟩ := Arena.get?_of_state? held
    obtain ⟨way, standing⟩ := presents.tended.standing member within found
    have seen : w.arena.Shows id (.token k old oldItem) := held
    obtain ⟨w', ran, done⟩ := writeToken_run text item true sound found state
    have changes : w.arena.Changes w'.arena id := done.changes found (by rw [state]; rfl) nofun
    have seen' : w'.arena.Shows id (.token k text item) := done.state?_eq found
    have histories := done.quiet.histories
    simp only [notingText, standing.located, Bool.true_and] at histories
    refine .of_ok ran fun allFine => ?_
    cases differs : (old != text || oldItem != item) with
    | true =>
      rw [if_pos differs, noting, recorder?_governed ready standing.governs] at histories
      exact presents.records (.text ⟨root, way⟩ old text oldItem item) ready member standing.led seen
        changes seen' rfl (fun _ _ => ⟨k, rfl, rfl⟩) histories allFine
    | false =>
      -- equal candidates need not be the same, but they are on the page
      rw [differs] at histories
      simp only [Bool.false_eq_true, if_false] at histories
      simp only [Bool.or_eq_false_iff, bne_eq_false_iff_eq] at differs
      obtain ⟨rfl, items⟩ := differs
      have items : (oldItem == item) = true := by simpa only [bne, Bool.not_eq_false'] using items
      have same : (Sketch.token k old item).canon = (Sketch.token k old oldItem).canon := by
        simp only [Sketch.canon, canon_of_beq items]
      have there := presents.depicts.at? member standing.led seen
      have depicts := presents.depicts.change changes sound.forest presents.tended.free member
        standing.led seen'
      rw [same, Page.set_at? there] at depicts
      refine ⟨P, depicts, ?_⟩
      rw [view_of_histories histories]
      exact .refl ..

theorem Standing.confined (standing : Standing h r w root id way editor)
    (tended : Tended h r roots w) (member : root ∈ roots) (changed : Confined w w' id) :
    ∃ editor', Standing h r w' root id way editor' := by
  obtain ⟨editor', found, kept⟩ := changed.changes.live standing.found
  have context : editor'.context = editor.context := kept.1
  have led := changed.changes.follow tended.sound.forest standing.led
  refine ⟨editor', found, context ▸ standing.governs.grown changed.quiet.contexts, led, ?_⟩
  obtain ⟨top, topFound, isRoot⟩ := tended.free root member
  by_cases same : root = id
  · subst same
    cases standing.found.symm.trans topFound
    exact Arena.locate_of_follow changed.sound.forest (Arena.links_of_get? found)
      (kept.2.1.trans isRoot) led
  · have outside : ¬ w.arena.links.Within id root := fun within =>
      same (Links.within_root_unique (Arena.links_of_get? topFound) isRoot within)
    have outlined := changed.changes.outside root _ (Arena.outline_of_get? topFound) outside
    exact Arena.locate_of_follow changed.sound.forest (Arena.links_of_outline outlined) isRoot led

theorem Presents.noted_run (presents : Presents h r roots w P) (edit : Edit) (ready : Ready h w)
    (member : root ∈ roots) (standing : Standing h r w root id way editor)
    (changed : Confined w w' id) (seen : w.arena.Shows id s) (seen' : w'.arena.Shows id s')
    (named : edit.locator = ⟨root, way⟩)
    (turns : s.Fine r → s'.Fine r → edit.Turns r s.canon s'.canon) {make : Editing S Edit}
    (made : make w' = .ok edit w') :
    ∃ w'', recordIfActive id make w' = .ok () w'' ∧ w''.arena = w'.arena ∧
      w''.contexts = w'.contexts ∧ ((historyLens h).view w'').undone = [] ∧
      (AllFine r roots w'' → Advances h r roots P w w'') := by
  obtain ⟨editor', standing'⟩ := standing.confined presents.tended member changed
  have histories := changed.quiet.histories
  have ready' : Ready h w' := by
    rw [Ready, view_of_histories histories]
    exact ready
  refine ⟨_, recordIfActive_run standing'.found made, rfl, rfl, ?_, fun allFine => ?_⟩
  · have view : (historyLens h).view { w' with histories := w'.noting editor'.context edit } =
        ((historyLens h).view w').record (.single edit) := by
      simp [noting, recorder?_governed ready' standing'.governs, HistoryLens.update, historyLens]
    rw [view, History.undone_record ready']
  refine presents.records edit ready member standing.led seen changed.changes seen' named turns ?_
    allFine
  simp only [noting, recorder?_governed ready' standing'.governs, HistoryLens.update, historyLens,
    histories]

theorem Presents.noted (presents : Presents h r roots w P) (edit : Edit) (ready : Ready h w)
    (member : root ∈ roots) (standing : Standing h r w root id way editor)
    (changed : Confined w w' id) (seen : w.arena.Shows id s) (seen' : w'.arena.Shows id s')
    (named : edit.locator = ⟨root, way⟩)
    (turns : s.Fine r → s'.Fine r → edit.Turns r s.canon s'.canon) {make : Editing S Edit}
    (made : make w' = .ok edit w') :
    Records h r roots P w (recordIfActive id make) w' := by
  obtain ⟨w'', ran, _, _, _, advances⟩ :=
    presents.noted_run edit ready member standing changed seen seen' named turns made
  exact .of_ok ran advances

theorem relocate_here {context : Context} (found : w.arena.get? id = some editor)
    (here : editor.context = context) : relocate id context w = .ok id w := by
  simp only [relocate, relocateWith, Action.bind_run_ok _ (lookup_run found), here, if_true]
  rfl

omit [Language S] in
theorem shown_list {a : Arena S} {k : S.ListClass} {ids : List Handle} (forest : a.links.Forest)
    (held : a.state? id = some (.list k ids)) :
    ∃ shown, a.Shows id (.list k shown) ∧ List.Forall₂ a.Shows ids shown := by
  obtain ⟨editor, found, _⟩ := Arena.get?_of_state? held
  obtain ⟨s, seen⟩ := Arena.exists_shows forest found
  have key := classKey_of_held seen held
  cases s <;> cases key
  obtain ⟨ids', held', each⟩ := Arena.shows_list.1 seen
  cases held.symm.trans held'
  exact ⟨_, seen, each⟩

theorem fine_insertIdx {k : S.ListClass} {items : List (Sketch S)} {x : Sketch S} {index : Nat}
    (fine : (Sketch.list k items).Fine r) (fineItem : x.Fine r)
    (isElement : x.classKey = (Language.list k).element) (inside : index ≤ items.length) :
    (Sketch.list k (items.insertIdx index x)).Fine r := by
  have either : ∀ d ∈ items.insertIdx index x, d = x ∨ d ∈ items := fun d listed =>
    (List.mem_insertIdx inside).1 listed
  refine ⟨⟨fun d listed => ?_, Sketch.allConform_iff.2 fun d listed => ?_⟩, fine.2.1,
    Sketch.allKnown_iff.2 fun d listed => ?_⟩
  · rcases either d listed with rfl | old
    · exact isElement
    · exact fine.1.1 d old
  · rcases either d listed with rfl | old
    · exact fineItem.1
    · exact Sketch.allConform_iff.1 fine.1.2 d old
  · rcases either d listed with rfl | old
    · exact fineItem.2
    · exact Sketch.allKnown_iff.1 fine.2.2 d old

theorem attachRecorded_run {k : S.ListClass} {ids : List Handle} {index : Nat} {item : Handle}
    {x : Sketch S} {w₁ : Workspace S} (presents : Presents h r roots w P) (ready : Ready h w)
    (member : root ∈ roots) (within : w.arena.links.Within root id)
    (found : w.arena.get? id = some editor) (state : editor.state = .list k ids)
    (inside : index ≤ ids.length)
    (built : Built w w₁ item (Language.list k).element editor.context)
    (seenItem : w₁.arena.Shows item x) (isElement : x.classKey = (Language.list k).element) :
    ∃ w₂ w₃, attachItem id index item w₁ = .ok () w₂ ∧ Confined w w₂ id ∧
      recordIfActive id (do
        return .insertion (← ask (·.locate id)) index (← ask (·.snapshot item))) w₂ = .ok () w₃ ∧
      w₃.arena = w₂.arena ∧ w₃.contexts = w₂.contexts ∧ ((historyLens h).view w₃).undone = [] ∧
      (x.Fine r → AllFine r roots w₃) ∧ (AllFine r roots w₃ → Advances h r roots P w w₃) := by
  have sound := presents.tended.sound
  obtain ⟨way, standing⟩ := presents.tended.standing member within found
  obtain ⟨shown, seen, each⟩ := shown_list sound.forest (state ▸ Arena.state?_of_get? found)
  obtain ⟨w₂, attached, changed, seen', seenItem'⟩ :=
    attachFresh_run sound found state each inside built seenItem
  obtain ⟨_, standing₂⟩ := standing.confined presents.tended member changed
  have count : index ≤ shown.length := each.length_eq ▸ inside
  have captured : ask (·.snapshot item) w₂ = .ok x.toSnapshot w₂ :=
    ask_run (Arena.snapshot_of_shows changed.sound.forest seenItem')
  have made : (do return .insertion (← ask (·.locate id)) index (← ask (·.snapshot item)) :
      Editing S Edit) w₂ = .ok (.insertion ⟨root, way⟩ index x.toSnapshot) w₂ := by
    rw [Action.bind_run_ok _ (ask_run standing₂.located), Action.bind_run_ok _ captured]
    rfl
  have turns : (Sketch.list k (shown.insertIdx index x)).Fine r →
      Edit.Inserts r index x.toSnapshot (Sketch.list k shown).canon
        (Sketch.list k (shown.insertIdx index x)).canon := by
    intro fine'
    have there : (Sketch.list k (shown.insertIdx index x)).part? (.item index) = some x := by
      simp only [Sketch.part?, List.getElem?_insertIdx_self, if_pos count]
    refine ⟨k, shown.map Sketch.canon, x, fine'.part there, isElement, rfl, ?_, ?_, ?_⟩
    · rw [List.length_map]
      exact count
    · rw [Sketch.canon, Sketch.canonAll_eq_map]
    · rw [Sketch.canon, Sketch.canonAll_eq_map, List.map_insertIdx]
  obtain ⟨w₃, recorded, arena, contexts, undone, advances⟩ := presents.noted_run
    (.insertion ⟨root, way⟩ index x.toSnapshot) ready member standing changed seen seen' rfl
    (fun _ fine' => turns fine') made
  refine ⟨w₂, w₃, attached, changed, recorded, arena, contexts, undone, fun fineItem Q depicts => ?_,
    advances⟩
  have there := presents.depicts.at? member standing.led seen
  have fine' : (Sketch.list k (shown.insertIdx index x)).Fine r := fine_insertIdx
    (Sketch.fine_canon.1 (presents.fine.at? there)) fineItem isElement count
  have same := Arena.Depicts.unique (arena ▸ depicts) (presents.depicts.change changed.changes
    sound.forest presents.tended.free member standing.led seen')
  rw [same]
  refine presents.fine.set there (Sketch.fine_canon.2 fine') ?_
  rw [Sketch.classKey_canon, Sketch.classKey_canon]
  rfl

theorem placeFresh_records {k : S.ListClass} {ids : List Handle} {index : Nat} {item : Handle}
    {x : Sketch S} {w₁ : Workspace S} (presents : Presents h r roots w P) (ready : Ready h w)
    (member : root ∈ roots) (within : w.arena.links.Within root id)
    (found : w.arena.get? id = some editor) (state : editor.state = .list k ids)
    (inside : index ≤ ids.length)
    (built : Built w w₁ item (Language.list k).element editor.context)
    (seenItem : w₁.arena.Shows item x) (isElement : x.classKey = (Language.list k).element) :
    Records h r roots P w (placeItem id index item) w₁ := by
  obtain ⟨editor₁, found₁, state₁, context₁, _⟩ :=
    Arena.kept_of_outline (built.grows id _ (Arena.outline_of_get? found))
  have held₁ := (state₁.trans state) ▸ Arena.state?_of_get? found₁
  obtain ⟨child, root₁, free, here, _⟩ := built.root
  obtain ⟨w₂, w₃, attached, _, recorded, _, _, _, _, advances⟩ := attachRecorded_run presents ready
    member within found state inside built seenItem isElement
  refine .after_ok (checkGap_run held₁ inside) (.after_ok (lookup_run root₁) ?_)
  simp only [free, Option.isSome_none, Bool.false_eq_true, if_false]
  exact .after_ok (lookup_run found₁) (.after_ok (relocate_here root₁ (here.trans context₁.symm))
    (.after_ok attached (.after_ok recorded (.pure advances))))

theorem openItem_records {index : Nat} (presents : Presents h r roots w P) (ready : Ready h w)
    (member : root ∈ roots) (within : w.arena.links.Within root id) :
    Records h r roots P w (openItem id index) w := by
  have sound := presents.tended.sound
  obtain ⟨k, ids, held, inside, gap⟩ | ⟨error, gap⟩ := checkGap_cases id index w
  · obtain ⟨editor, found, state⟩ := Arena.get?_of_state? held
    have asked : ask (·.list id) w = .ok (k, ids) w := ask_run (Arena.list_eq_ok_iff.2 held)
    have made := Arena.create_made (Language.list k).element editor.context sound
    obtain ⟨x, seenItem, isElement, _⟩ := made.shown
    refine .after_ok gap (.after_ok asked (.after_ok (lookup_run found)
      (.after_ok (create_run _ editor.context w) ?_)))
    exact placeFresh_records presents ready member within found state inside (created made) seenItem
      isElement
  · exact .of_error (Action.bind_run_error _ gap) fun _ _ _ => presents.added (.refl sound)

theorem removeAt_records {index : Nat} (presents : Presents h r roots w P) (ready : Ready h w)
    (member : root ∈ roots) (within : w.arena.links.Within root id) :
    Records h r roots P w (removeAt id index) w := by
  have sound := presents.tended.sound
  obtain ⟨k, ids, item, held, listed, searched⟩ | ⟨error, searched⟩ := itemAt_cases id index w
  · obtain ⟨editor, found, state⟩ := Arena.get?_of_state? held
    obtain ⟨way, standing⟩ := presents.tended.standing member within found
    obtain ⟨shown, seen, each⟩ := shown_list sound.forest held
    obtain ⟨y, x, listed', shownItem, seenItem⟩ | ⟨missing, _⟩ := Arena.shown_at each index
    · cases listed.symm.trans listed'
      have captured : ask (·.snapshot item) w = .ok x.toSnapshot w :=
        ask_run (Arena.snapshot_of_shows sound.forest seenItem)
      obtain ⟨w₂, dropped, changed, seen'⟩ := dropItem_shows sound found state each listed
      refine .after_ok searched (.after_ok (recording?_run found) ?_)
      rw [recorder?_governed ready standing.governs]
      refine .after_ok (ask_run standing.located) (.after_ok captured (.after_ok dropped ?_))
      refine presents.noted (.removal ⟨root, way⟩ index x.toSnapshot) ready member standing changed
        seen seen' rfl ?_ rfl
      intro fine _
      obtain ⟨inside, rfl⟩ := List.getElem?_eq_some_iff.1 shownItem
      have conforms := fine.1.1 shown[index] (List.mem_of_getElem? shownItem)
      refine ⟨k, (shown.eraseIdx index).map Sketch.canon, shown[index],
        fine.part (show (Sketch.list k shown).part? (.item index) = some shown[index] from shownItem),
        conforms, rfl, ?_, ?_, ?_⟩
      · rw [List.length_map, List.length_eraseIdx_of_lt inside]
        omega
      · rw [Sketch.canon, Sketch.canonAll_eq_map]
      · rw [Sketch.canon, Sketch.canonAll_eq_map, ← List.map_insertIdx,
          List.insertIdx_eraseIdx_getElem inside]
    · rw [listed] at missing
      cases missing
  · exact .of_error (Action.bind_run_error _ searched) fun _ _ _ => presents.added (.refl sound)

end Workspace

end StructureEditor
