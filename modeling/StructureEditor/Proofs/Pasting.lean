import StructureEditor.Proofs.Refusals
import StructureEditor.Proofs.TakingBack

/-! Pasting what was copied. A copy is a snapshot, so that it does not matter whether the expander
that it was taken from is the one it is pasted into, or above or below it. The content is built
anew first and judged by its class; only then does the old content go. -/
namespace StructureEditor

variable {S : Signature} [Language S]

namespace Sketch

variable {d : Sketch S} {k k' : S.ExpanderClass}

/-- What an expander shows, as one of another class shows it. -/
def inClass (k : S.ExpanderClass) : Sketch S → Sketch S
  | .text _ shown item => .text k shown item
  | .expanded _ content => .expanded k content
  | d => d

def fits (k : S.ExpanderClass) : Sketch S → Bool
  | .expanded _ content => (Language.expander k).admits content.classKey
  | _ => true

omit [Language S] in
theorem classKey_inClass (isKey : d.classKey = .expander k') :
    (d.inClass k).classKey = .expander k := by
  cases d with
  | text => rfl
  | expanded => rfl
  | token => cases isKey
  | compound => cases isKey
  | list => cases isKey

theorem display?_inClass (d : Sketch S) (k : S.ExpanderClass) :
    (d.inClass k).toSnapshot.display? = d.toSnapshot.display? := by
  cases d <;> rfl

theorem fits_eq_false_iff : d.fits k = false ↔ ∃ k' content, d = .expanded k' content ∧
    (Language.expander k).admits content.classKey = false := by
  cases d <;> simp [fits]

end Sketch

namespace Workspace

variable {w w' w₁ : Workspace S} {x src dst : Handle} {e : Editor S} {d old : Sketch S}
  {k k' : S.ExpanderClass} {display : Display Handle} {L : Locator}
  {before : Display Snapshot} {h : HistoryId} {context : Context}

theorem copy_of_shows (sound : w.arena.Sound) (seen : w.arena.Shows src d)
    (isKey : d.classKey = .expander k) : w.arena.copy src = .ok d.toSnapshot := by
  obtain ⟨state, held, key⟩ := seen.state
  have shape : w.arena.shapeOf src = .ok .expander := by
    refine Arena.shapeOf_eq_ok_iff.2 ⟨state, held, ?_⟩
    rw [shape_toSnapshot key]
    cases d with
    | text => rfl
    | expanded => rfl
    | token => cases isKey
    | compound => cases isKey
    | list => cases isKey
  simp only [Arena.copy, Arena.isCopyable, shape, Bind.bind, Except.bind,
    Arena.snapshot_of_shows sound.forest seen]
  rfl

theorem pasteContent_tries (sound : w.arena.Sound)
    (found : w.arena.get? x = some e) (held : e.state = .expander k display) (conforms : d.Conforms)
    (known : w.contexts.Knows (w.contexts.scopeBelow k e.context) d.classKey)
    (supplied : w.contexts.Supplies (w.contexts.scopeBelow k e.context) d) :
    ∃ content w₁, Built { w with contexts := (w.scopeFor k e.context).2 } w₁ content d.classKey
        (w.scopeFor k e.context).1 ∧
      w.arena.OneNewRoot w₁.arena content ∧ w₁.arena.Shows content d ∧
      pasteContent x d.toSnapshot w =
        (if (Language.expander k).admits d.classKey then do
          recordTransition x "Paste" do
            clear x
            let _ ← fill x content
          return true
        else do
          dispose content
          return false) w₁ := by
  have ready := added_scopeFor sound k e.context
  have same := sameServices_scopeFor w k e.context
  have grown := grown_scopeFor w k e.context
  obtain ⟨content, w₁, rebuilt, built, seen⟩ := rebuildWith_run (w := { w with
    contexts := (w.scopeFor k e.context).2 }) restore_safe (restore_restores conforms) sound
    (supplied.carry grown same) (known.carry same)
  obtain ⟨one, _⟩ :=
    (rebuildWith_renders restore_safe (restore_thorough d.toSnapshot) ready.sound).ok_of rebuilt
  obtain ⟨root, rootFound, _, _, isClass⟩ := built.root
  have isKey : w₁.arena.keyOf content = .ok d.classKey := by
    simp only [Arena.keyOf, Arena.get_of_get? rootFound, Bind.bind, Except.bind, isClass]
    rfl
  refine ⟨content, w₁, built, one, seen, ?_⟩
  have attempted : Action.attempt (rebuild d.toSnapshot (w.scopeFor k e.context).1)
      { w with contexts := (w.scopeFor k e.context).2 } = .ok (.ok content) w₁ := by
    simp only [Action.attempt, rebuild, rebuilt]
  refine (Action.bind_run_ok _ (contentScope_run found held)).trans
    ((Action.bind_run_ok _ attempted).trans ((Action.bind_run_ok _ (ask_run isKey)).trans ?_))
  simp only [clear, ask_then]

theorem pasteContent_run (sound : w.arena.Sound)
    (found : w.arena.get? x = some e) (held : e.state = .expander k display) (conforms : d.Conforms)
    (known : w.contexts.Knows (w.contexts.scopeBelow k e.context) d.classKey)
    (supplied : w.contexts.Supplies (w.contexts.scopeBelow k e.context) d)
    (admitted : (Language.expander k).admits d.classKey = true) (shown : w.arena.Shows x old)
    (isKey : old.classKey = .expander k) (recorded : old.toSnapshot.display? = some before)
    (located : w.arena.locate x = .ok L) :
    ∃ w₁, pasteContent x d.toSnapshot w = .ok true { w₁ with
        histories := w.noting e.context
          (.transition L before (.expanded d.toSnapshot) "Paste") } ∧
      Confined w w₁ x ∧ w₁.arena.Shows x (.expanded k d) := by
  obtain ⟨content, w₁, built, one, seen, tried⟩ :=
    pasteContent_tries sound found held conforms known supplied
  have added := (added_scopeFor sound k e.context).trans built.toAdded
  obtain ⟨w₂, refilled, changed, _, shown₂, grown⟩ := refill_run restore_safe
    (restore_restores conforms) (restore_thorough _) sound found held built one seen
    ((supplied.carry (grown_scopeFor w k e.context) (sameServices_scopeFor w k e.context)).grown
      built.quiet.contexts)
  have filled : (do clear x; let _ ← fill x content) w₁ = .ok () w₂ := refilled
  have outlined := Arena.outline_of_get? found
  obtain ⟨e₁, found₁, state₁, context₁, _⟩ := Arena.kept_of_outline (added.grows x _ outlined)
  -- what is recorded was so before the content was tried
  have located₁ := Arena.locate_of_grows added.grows sound.forest added.sound.forest found located
  obtain ⟨before₁, shown₁, recorded₁⟩ := Arena.displaySnapshot_of_shows added.sound.forest
    (added.grows.shows sound.forest shown) isKey
  cases recorded.symm.trans recorded₁
  obtain ⟨after, now, recorded₂⟩ := Arena.displaySnapshot_of_shows changed.sound.forest shown₂ rfl
  cases recorded₂
  have quiet : Quiet w₁ w₂ := ⟨changed.quiet.histories.trans built.quiet.histories.symm,
    changed.quiet.views.trans built.quiet.views.symm, grown⟩
  have taken := recordTransition_takes "Paste" found₁ located₁ shown₁ filled quiet now
  rw [show e₁.context = e.context from context₁, added.quiet.noting] at taken
  refine ⟨w₂, ?_, changed, shown₂⟩
  rw [tried, if_pos admitted, Action.bind_run_ok _ taken]
  rfl

theorem pasteContent_unfit (sound : w.arena.Sound)
    (found : w.arena.get? x = some e) (held : e.state = .expander k display) (conforms : d.Conforms)
    (known : w.contexts.Knows (w.contexts.scopeBelow k e.context) d.classKey)
    (supplied : w.contexts.Supplies (w.contexts.scopeBelow k e.context) d)
    (unfit : (Language.expander k).admits d.classKey = false) :
    ∃ w', pasteContent x d.toSnapshot w = .ok false w' := by
  obtain ⟨content, w₁, _, _, _, tried⟩ :=
    pasteContent_tries sound found held conforms known supplied
  refine ⟨{ w₁ with arena := w₁.arena.dispose content }, ?_⟩
  rw [tried, unfit, if_neg Bool.false_ne_true, Action.bind_run_ok _ (dispose_run content w₁)]
  rfl

theorem pasteText_run {shown : String} {item : Option Candidate} (sound : w.arena.Sound)
    (found : w.arena.get? x = some e) (held : e.state = .expander k display)
    (taken : w.arena.displaySnapshot x = .ok before) (located : w.arena.locate x = .ok L) :
    ∃ w₁, recordTransition x "Paste" (restoreState x (.text shown item)) w = .ok () { w₁ with
        histories := w.noting e.context (.transition L before (.text shown item) "Paste") } ∧
      Confined w w₁ x ∧ w₁.arena.Shows x (.text k shown item) := by
  have recorded : (Sketch.text k shown item).toSnapshot.display? = some (.text shown item) := by
    simp only [Sketch.toSnapshot, Snapshot.ofExpander, Snapshot.display?, Option.getD_some,
      candidate?_of]
  obtain ⟨w₁, ran, changed, seen⟩ := restoreState_shows (d := .text k shown item) sound found held
    rfl trivial trivial recorded
  obtain ⟨after, now, recorded₁⟩ := Arena.displaySnapshot_of_shows changed.sound.forest seen rfl
  cases recorded.symm.trans recorded₁
  exact ⟨w₁, recordTransition_takes "Paste" found located taken ran changed.quiet now, changed, seen⟩

theorem paste_expander (s : Snapshot) (held : w.arena.state? x = some (.expander k display)) :
    paste x s w = pasteExpander x s w := by
  have shape : ask (·.shapeOf x) w = .ok .expander w :=
    ask_run (Arena.shapeOf_eq_ok_iff.2 ⟨_, held, rfl⟩)
  exact Action.bind_run_ok _ shape

theorem paste_run (sound : w.arena.Sound)
    (found : w.arena.get? x = some e) (held : e.state = .expander k display) (conforms : d.Conforms)
    (isSource : d.classKey = .expander k') (supplied : w.contexts.Supplies e.context (d.inClass k))
    (fits : d.fits k = true) (shown : w.arena.Shows x old) (isKey : old.classKey = .expander k)
    (recorded : old.toSnapshot.display? = some before) (located : w.arena.locate x = .ok L) :
    ∃ w₁ after, paste x d.toSnapshot w = .ok true { w₁ with
        histories := w.noting e.context (.transition L before after "Paste") } ∧
      Confined w w₁ x ∧ w₁.arena.Shows x (d.inClass k) := by
  rw [paste_expander _ (held ▸ Arena.state?_of_get? found), pasteExpander]
  obtain ⟨taken, isTaken, recorded'⟩ := Arena.displaySnapshot_of_shows sound.forest shown isKey
  cases recorded.symm.trans recorded'
  cases d with
  | text k' text item =>
    obtain ⟨w₁, ran, changed, seen⟩ := pasteText_run sound found held isTaken located
    refine ⟨w₁, .text text item, ?_, changed, seen⟩
    simp only [Sketch.toSnapshot, Snapshot.ofExpander, Snapshot.display?, Option.getD_some,
      candidate?_of]
    rw [Action.bind_run_ok _ ran]
    rfl
  | expanded k' content =>
    obtain ⟨w₁, ran, changed, seen⟩ := pasteContent_run (d := content) sound found held
      conforms supplied.1 supplied.2 fits shown isKey recorded located
    exact ⟨w₁, .expanded content.toSnapshot, ran, changed, seen⟩
  | token => cases isSource
  | compound => cases isSource
  | list => cases isSource

theorem paste_unfit (sound : w.arena.Sound)
    (found : w.arena.get? x = some e) (held : e.state = .expander k display) (conforms : d.Conforms)
    (supplied : w.contexts.Supplies e.context (d.inClass k)) (unfit : d.fits k = false) :
    ∃ w', paste x d.toSnapshot w = .ok false w' := by
  obtain ⟨k', content, rfl, refused⟩ := Sketch.fits_eq_false_iff.1 unfit
  rw [paste_expander _ (held ▸ Arena.state?_of_get? found), pasteExpander]
  exact pasteContent_unfit (d := content) sound found held conforms supplied.1 supplied.2
    refused

theorem displaySnapshot_transferred (sound : w.arena.Sound) (sound' : w'.arena.Sound)
    (source : w.arena.Shows src d) (isSource : d.classKey = .expander k')
    (target : w'.arena.Shows dst (d.inClass k)) :
    ∃ state, w.arena.displaySnapshot src = .ok state ∧ w'.arena.displaySnapshot dst = .ok state := by
  obtain ⟨state, taken, isState⟩ := Arena.displaySnapshot_of_shows sound.forest source isSource
  obtain ⟨state', taken', isState'⟩ :=
    Arena.displaySnapshot_of_shows sound'.forest target (Sketch.classKey_inClass isSource)
  rw [Sketch.display?_inClass, isState] at isState'
  cases isState'
  exact ⟨state, taken, taken'⟩

omit [Language S] in
theorem transition_alone (L : Locator) (before after : Display Snapshot) (description : String)
    (top : Step Edit) : top.merge? (.single (.transition L before after description)) = none := by
  cases top with
  | group => rfl
  | single edit => cases edit <;> rfl

theorem transition_taken_back (after : Display Snapshot) (description : String) (sound : w.arena.Sound)
    (found : w.arena.get? x = some e) (isKey : old.classKey = .expander k) (conforms : old.Conforms)
    (supplied : w.contexts.Supplies e.context old)
    (recorded : old.toSnapshot.display? = some before) (located : w.arena.locate x = .ok L)
    (was : w.arena.Shows x old) (changed : Confined w w₁ x) (shown : w₁.arena.Shows x d)
    (isKey' : d.classKey = .expander k) (histories : Histories Edit) :
    ∃ w₂, replay .undo (.transition L before after description) { w₁ with histories } = .ok () w₂ ∧
      w.arena.Alike x w₂.arena x := by
  obtain ⟨e₁, found₁, kept⟩ := changed.changes.live found
  have context₁ : e₁.context = e.context := kept.1
  obtain ⟨state, held₁, key⟩ := shown.state
  rw [isKey'] at key
  have located₁ := changed.changes.find sound.forest found located
  cases state with
  | expander k₁ display₁ =>
    cases key
    rw [Arena.state?_of_get? found₁] at held₁
    obtain ⟨w₂, ran, back, shown₂⟩ := restoreState_shows (w := { w₁ with histories })
      changed.sound found₁ (Option.some.inj held₁) isKey conforms
      (context₁ ▸ supplied.grown changed.quiet.contexts) recorded
    exact ⟨w₂, (Action.bind_run_ok _ (ask_run located₁)).trans ran,
      Arena.alike_of_shows sound back.sound was shown₂⟩
  | token => cases key
  | compound => cases key
  | list => cases key

/-- A history has taken down one edit, whose undoing gives an editor back as it was. The history
does this itself, but refuses to while a group is open. -/
def GivesBack (h : HistoryId) (x : Handle) (w w' : Workspace S) : Prop :=
  ∃ edit, (historyLens h).view w' = ((historyLens h).view w).record (.single edit) ∧
    (∃ w'', replay .undo edit w' = .ok () w'' ∧ w.arena.Alike x w''.arena x) ∧
    (((historyLens h).view w).isOpen = false →
      ∃ w'', undo h w' = .ok true w'' ∧ w.arena.Alike x w''.arena x)

theorem gives_back {after : Display Snapshot} {description : String}
    (recorder : w.recorder? context = some h)
    (back : ∀ histories, ∃ w₂, replay .undo (.transition L before after description)
      { w₁ with histories } = .ok () w₂ ∧ w.arena.Alike x w₂.arena x) :
    GivesBack h x w { w₁ with
      histories := w.noting context (.transition L before after description) } := by
  refine ⟨_, (view_of_histories rfl).trans (view_noting recorder), back _, fun shut => ?_⟩
  have closed := History.isOpen_eq_false_iff.1 shut
  have stepped : Stepped h (.single (.transition L before after description)) w { w₁ with
      histories := w.noting context (.transition L before after description) } :=
    .of_noting (transition_alone L before after description) recorder closed rfl
  apply stepped.undo (P := fun a => w.arena.Alike x a x) closed
  intro histories
  obtain ⟨w₂, ran, alike⟩ := back histories
  refine ⟨w₂, ?_, alike⟩
  exact Action.forM_run_ok [] ran

/-- Pasting what was copied from an expander makes the other expander show it, with the same result,
unless the other one does not take it; then nothing has changed. Where a history records, it takes
down one edit, and undoing gives the other expander back what it showed. -/
theorem paste_transfers (reached : Reaches {} w)
    (source : w.arena.Shows src d)
    (isSource : d.classKey = .expander k') (conforms : d.Conforms)
    (found : w.arena.get? dst = some e) (shown : w.arena.Shows dst old)
    (isTarget : old.classKey = .expander k) (oldConforms : old.Conforms)
    (supplied : w.contexts.Supplies e.context (d.inClass k))
    (oldSupplied : w.contexts.Supplies e.context old) :
    ∃ captured taken w', w.arena.copy src = .ok captured ∧ paste dst captured w = .ok taken w' ∧
      (taken = false ↔ ∃ content, d = .expanded k' content ∧
        (Language.expander k).admits content.classKey = false) ∧
      (taken = false → Untouched w w') ∧
      (taken = true →
        (∃ state, w.arena.displaySnapshot src = .ok state ∧
          w'.arena.displaySnapshot dst = .ok state) ∧
        (∀ content, d = .expanded k' content → w'.arena.result dst = w.arena.result src) ∧
        ∀ h, w.recorder? e.context = some h → GivesBack h dst w w') := by
  have sound := sound_of_reached reached
  obtain ⟨state, held, key⟩ := shown.state
  rw [isTarget] at key
  cases state with
  | expander k₁ display =>
    cases key
    rw [Arena.state?_of_get? found] at held
    have held := Option.some.inj held
    have copied := copy_of_shows sound source isSource
    cases fits : d.fits k with
    | false =>
      obtain ⟨w', ran⟩ := paste_unfit sound found held conforms supplied fits
      refine ⟨_, false, w', copied, ran, ⟨fun _ => ?_, fun _ => rfl⟩,
        (paste_careful sound dst _).ok_of ran, Bool.noConfusion⟩
      obtain ⟨k₂, content, rfl, refused⟩ := Sketch.fits_eq_false_iff.1 fits
      cases isSource
      exact ⟨content, rfl, refused⟩
    | true =>
      obtain ⟨before, _, recorded⟩ := Arena.displaySnapshot_of_shows sound.forest shown isTarget
      obtain ⟨root, way, _, located, _⟩ := Arena.locate_spec sound.forest found
      obtain ⟨w₁, after, ran, changed, seen⟩ := paste_run sound found held conforms isSource
        supplied fits shown isTarget recorded located
      refine ⟨_, true, _, copied, ran, ⟨Bool.noConfusion, ?_⟩, Bool.noConfusion, fun _ => ⟨?_, ?_, ?_⟩⟩
      · rintro ⟨content, rfl, refused⟩
        exact fits.symm.trans refused
      · exact displaySnapshot_transferred sound changed.sound source isSource seen
      · rintro content rfl
        exact (Arena.result_of_shows changed.sound.settled seen).trans
          (Arena.result_of_shows sound.settled source).symm
      · intro h recorder
        exact gives_back recorder (transition_taken_back after "Paste" sound found isTarget
          oldConforms oldSupplied recorded located shown changed seen
          (Sketch.classKey_inClass isSource))
  | token => cases key
  | compound => cases key
  | list => cases key

section

open Sample

def seven : Sketch expression := .expanded ExpanderName.expr (.token TokenName.int "7" none)

def sevenAndMore : Sketch expression :=
  .expanded ExpanderName.expr (.compound CompoundName.sum [seven, .text ExpanderName.expr "x" none])

def oneExpression : Workspace expression :=
  performAll [.create (.expander ExpanderName.expr) ⟨0, []⟩] desk

def sevenInSum : Workspace expression :=
  performAll [.restore ⟨0, 0⟩ sevenAndMore.toSnapshot] oneExpression

theorem reaches_oneExpression : Reaches {} oneExpression :=
  reaches_performAll _ (.beside (.refl _) rfl) (by simp [Allowed])

theorem reaches_sevenInSum : Reaches {} sevenInSum :=
  reaches_performAll _ reaches_oneExpression (by simp [Allowed])

theorem sevenAndMore_conforms : sevenAndMore.Conforms := ⟨rfl, trivial, trivial, trivial⟩

theorem oneExpression_supplies : oneExpression.contexts.Supplies ⟨0, []⟩ seven ∧
    oneExpression.contexts.Supplies ⟨0, []⟩ sevenAndMore := by
  have number : oneExpression.contexts.Supplies ⟨0, []⟩ seven :=
    ⟨⟨defaultRegistry, rfl, rfl⟩, trivial⟩
  exact ⟨number, ⟨defaultRegistry, rfl, rfl⟩, number, trivial, trivial⟩

theorem sevenInSum_shows : Confined oneExpression sevenInSum ⟨0, 0⟩ ∧
    sevenInSum.arena.Shows ⟨0, 0⟩ sevenAndMore := by
  have sound := sound_of_reached reaches_oneExpression
  have blank : oneExpression.arena.Shows ⟨0, 0⟩ (.text ExpanderName.expr "" none) := rfl
  obtain ⟨w', ran, seen⟩ := restore_restores sevenAndMore_conforms oneExpression ⟨0, 0⟩ _ _ sound rfl
    blank trivial rfl oneExpression_supplies.2
  have same : sevenInSum = w' := by
    simp only [sevenInSum, performAll, List.foldl_cons, List.foldl_nil, perform, Action.after, ran]
  exact same ▸ ⟨(restore_safe _ _ _ sound).ok_of ran, seen⟩

/-- The number takes the place of the sum that it was copied from. -/
theorem inner_seven_pastes :
    ∃ inner captured w', sevenInSum.arena.Shows inner seven ∧
      sevenInSum.arena.copy inner = .ok captured ∧
      paste ⟨0, 0⟩ captured sevenInSum = .ok true w' ∧
      w'.arena.result ⟨0, 0⟩ = sevenInSum.arena.result inner ∧
      GivesBack 0 ⟨0, 0⟩ sevenInSum w' := by
  obtain ⟨changed, outer⟩ := sevenInSum_shows
  obtain ⟨_, _, parts⟩ := Arena.shows_expanded.1 outer
  obtain ⟨_, _, shown⟩ := Arena.shows_compound.1 parts
  obtain ⟨inner, _, number⟩ := Arena.shown_member shown (List.mem_cons_self ..)
  obtain ⟨e, found, kept⟩ := changed.changes.live rfl
  have context : e.context = ⟨0, []⟩ := kept.1
  have grown := changed.quiet.contexts
  have supplies := oneExpression_supplies
  have recorder : sevenInSum.recorder? ⟨0, []⟩ = some 0 := changed.quiet.recorder? ⟨0, []⟩
  rw [← context] at supplies recorder
  obtain ⟨captured, taken, w', copied, ran, fits, _, goes⟩ := paste_transfers reaches_sevenInSum
    number rfl trivial found outer rfl sevenAndMore_conforms (supplies.1.grown grown)
    (supplies.2.grown grown)
  cases taken with
  | false =>
    obtain ⟨content, same, refused⟩ := fits.1 rfl
    cases same
    cases refused
  | true =>
    obtain ⟨_, result, back⟩ := goes rfl
    exact ⟨inner, captured, w', number, copied, ran, result _ rfl, back 0 recorder⟩

end

end Workspace

end StructureEditor
