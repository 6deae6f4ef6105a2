import StructureEditor.Proofs.Operations.Replay
import StructureEditor.Sample.Expression

/-! The states that a workspace can come into by any number of requests, refused ones
included. In all of them the arena is a forest with an exact free list, and every cached
result is the value of the whole document below it. -/
namespace StructureEditor

variable {S : Signature}

/-- The operations that clients ask for. -/
inductive Request (S : Signature) where
  | create (c : ClassKey S) (context : Context)
  | newToken (k : S.TokenClass) (text : String) (context : Context)
  | newExpander (k : S.ExpanderClass) (text : String) (context : Context)
  | assemble (k : S.CompoundClass) (components : List Handle) (context : Context)
  | wrap (k : S.ExpanderClass) (editor : Handle) (context : Context)
  | typeText (id : Handle) (text : String)
  | typeToken (id : Handle) (text : String) (undoable : Bool)
  | choose (id : Handle) (choice : Choice)
  | expand (id : Handle)
  | fill (id editor : Handle)
  | reset (id : Handle)
  | openItem (list : Handle) (index : Nat)
  | placeItem (list : Handle) (index : Nat) (editor : Handle)
  | removeAt (list : Handle) (index : Nat)
  | paste (id : Handle) (s : Snapshot)
  | relocate (id : Handle) (context : Context)
  | rebuild (s : Snapshot) (context : Context)
  | rebuildAs (c : ClassKey S) (s : Snapshot) (context : Context)
  | restore (id : Handle) (s : Snapshot)
  | restoreState (id : Handle) (state : Display Snapshot)
  | removeDocument (id : Handle)
  | replay (direction : Direction) (edit : Edit)
  | undo (h : HistoryId)
  | redo (h : HistoryId)
  | watch (id : Handle) (view : ViewId)
  | unwatch (id : Handle) (view : ViewId)

/-- Requests that attach views to editors or detach them. They change no document. -/
def Request.isAboutViews : Request S → Bool
  | .watch .. | .unwatch .. => true
  | _ => false

namespace Workspace

variable [Language S] {w w' : Workspace S} {x : Handle} {editor : Editor S}

def perform : Request S → Editing S Unit
  | .create c context => do let _ ← create c context
  | .newToken k text context => do let _ ← newToken k text context
  | .newExpander k text context => do let _ ← newExpander k text context
  | .assemble k components context => do let _ ← assemble k components context
  | .wrap k editor context => do let _ ← wrap k editor context
  | .typeText id text => typeText id text
  | .typeToken id text undoable => typeToken id text undoable
  | .choose id choice => choose id choice
  | .expand id => do let _ ← expand id
  | .fill id editor => do let _ ← fill id editor
  | .reset id => reset id
  | .openItem list index => do let _ ← openItem list index
  | .placeItem list index editor => do let _ ← placeItem list index editor
  | .removeAt list index => removeAt list index
  | .paste id s => do let _ ← paste id s
  | .relocate id context => do let _ ← relocate id context
  | .rebuild s context => do let _ ← rebuild s context
  | .rebuildAs c s context => do let _ ← rebuildAs c s context
  | .restore id s => restore id s
  | .restoreState id state => restoreState id state
  | .removeDocument id => removeDocument id
  | .replay direction edit => replay direction edit
  | .undo h => do let _ ← undo h
  | .redo h => do let _ ← redo h
  | .watch id view => watch id view
  | .unwatch id view => do let _ ← unwatch id view

/-- No editor is put below itself, also not by a hook, and the components of a new compound
are pairwise distinct. -/
def Allowed (w : Workspace S) : Request S → Prop
  | .assemble _ components context =>
    ∀ ids w', gather context components w = .ok ids w' → ids.Nodup
  | .typeText id text => Fits (offerTyped id text) id w
  | .choose id choice => Fits (offerChoice id choice) id w
  | .expand id => Fits (offerText id) id w
  | .fill id editor => editor ≠ id → w.arena.topOf id ≠ .ok editor
  | .placeItem list _ editor => w.arena.topOf list ≠ .ok editor
  | _ => True

/-- Only editors of the declared classes are put into compounds and lists. Components are
looked at when they have come into the context of the compound, and replays one after the
other. -/
def Suits (w : Workspace S) : Request S → Prop
  | .assemble k components context =>
    ∀ ids w', gather context components w = .ok ids w' → w'.arena.Proper (.compound k ids)
  | .placeItem list _ editor => w.SuitsList list editor
  | .replay direction edit => w.SuitsReplay direction edit
  | .undo h => ∀ step rest, ((historyLens h).view w).done = step :: rest →
    SuitReplays .undo (step.replayOrder .undo)
      (w.replaying h { (historyLens h).view w with done := rest })
  | .redo h => ∀ step rest, ((historyLens h).view w).undone = step :: rest →
    SuitReplays .redo (step.replayOrder .redo)
      (w.replaying h { (historyLens h).view w with undone := rest })
  | _ => True

theorem perform_unfolds {strict : Bool} {w₀ : Workspace S} {request : Request S}
    (run : Unfolds strict w₀ w) (allowed : w.Allowed request)
    (suits : strict = true → w.Suits request) (documents : request.isAboutViews = false) :
    Ensures (perform request) w (Unfolds strict w₀) := by
  have done : ∀ {α : Type} {action : Editing S α}, Ensures action w (Unfolds strict w₀) →
      Ensures (do let _ ← action) w (Unfolds strict w₀) := fun ends =>
    ends.still unfolds_lasting fun _ w' => still_pure _ w'
  cases request with
  | create c context => exact done (.of_ok (create_run c context w) (create_unfolds run c context))
  | newToken k text context => exact done (insert_leaf_unfolds rfl trivial run)
  | newExpander k text context => exact done (insert_leaf_unfolds rfl trivial run)
  | assemble k components context => exact done (assemble_unfolds run allowed suits)
  | wrap k editor context => exact done (wrap_unfolds run)
  | typeText id text => exact typeText_unfolds text run allowed
  | typeToken id text undoable => exact writeToken_unfolds text none undoable run
  | choose id choice => exact choose_unfolds choice run allowed
  | expand id => exact done (expand_unfolds run allowed)
  | fill id editor => exact done (fill_unfolds run allowed)
  | reset id => exact reset_unfolds run
  | openItem list index => exact done (openItem_unfolds run)
  | placeItem list index editor =>
    exact done (placeItem_unfolds run (fun _ isLive isRoot =>
      apart_of_topOf run.sound allowed isLive isRoot) suits)
  | removeAt list index => exact removeAt_unfolds run
  | paste id s => exact done (paste_unfolds s run)
  | relocate id context => exact done (relocateWith_unfolds restore_safe restore_unfolding run)
  | rebuild s context => exact done (rebuildWith_unfolds restore_safe restore_unfolding run)
  | rebuildAs c s context => exact done (rebuildAsWith_unfolds restore_safe restore_unfolding run)
  | restore id s => exact restore_unfolding w id s run
  | restoreState id state => exact restoreState_unfolds state run
  | removeDocument id => exact removeDocument_unfolds run
  | replay direction edit => exact replay_unfolds run suits
  | undo h => exact done (move_unfolds h .undo run suits)
  | redo h => exact done (move_unfolds h .redo run suits)
  | watch id view => cases documents
  | unwatch id view => cases documents

theorem perform_sound {request : Request S} (sound : w.arena.Sound) (allowed : w.Allowed request) :
    Ensures (perform request) w fun w' => w'.arena.Sound := by
  cases documents : request.isAboutViews with
  | false =>
    have run : Unfolds false w w := .start sound
    exact (perform_unfolds run allowed nofun documents).mono (fun _ _ run => run.sound)
      fun _ _ run => run.sound
  | true =>
    cases request with
    | watch id view => exact watch_sound view sound
    | unwatch id view =>
      exact .bind ((unwatch_sound view sound).mono (fun _ _ sound => .pure sound)
        fun _ _ sound => sound)
    | _ => cases documents

/-- One workspace comes from another by requests, however each of them ends. An action that
is recorded as a whole is itself a run of requests, and what is beside the arena, such as
contexts, histories and views, is for the client to change. -/
inductive Reaches : Workspace S → Workspace S → Prop where
  | refl (w : Workspace S) : Reaches w w
  | beside {w w' w'' : Workspace S} : Reaches w w' → w''.arena = w'.arena → Reaches w w''
  | request {w w' : Workspace S} (request : Request S) : Reaches w w' → w'.Allowed request →
      Reaches w ((perform request).after w')
  | replacing {w w' : Workspace S} {α : Type} (id : Handle) (description : String)
      (action : Editing S α) : Reaches w w' →
      Reaches (w'.pausing id) (action.after (w'.pausing id)) →
      Reaches w ((replacing id description action).after w')
  | asOneStep {w w' : Workspace S} {α : Type} (id : Handle) (description : String)
      (action : Editing S α) : Reaches w w' →
      Reaches (w'.grouping id) (action.after (w'.grouping id)) →
      Reaches w ((asOneStep id description action).after w')

omit [Language S] in
theorem ensures_iff {α : Type} {action : Editing S α} {P : Workspace S → Prop} :
    Ensures action w P ↔ P (action.after w) := by
  unfold Ensures Action.Meets Action.after
  split <;> rfl

theorem sound_lasting : Lasting fun w : Workspace S => w.arena.Sound := by
  intro w w' beside sound
  rw [beside.arena]
  exact sound

/-- What depends on the arena alone, and what every request keeps, still holds of what is reached,
also where actions are recorded as a whole. -/
theorem Reaches.keeps {P : Workspace S → Prop} (reached : Reaches w w') (holds : P w)
    (beside : ∀ {w w' : Workspace S}, w'.arena = w.arena → P w → P w')
    (request : ∀ {w : Workspace S} (request : Request S), w.Allowed request → P w →
      P ((perform request).after w)) : P w' := by
  have lasting : Lasting P := fun _ _ besides => beside besides.arena
  induction reached with
  | refl w => exact holds
  | beside _ same ih => exact beside same (ih holds)
  | request asked _ allowed ih => exact request asked allowed (ih holds)
  | replacing id description action _ _ ih inner =>
    have begun := inner (lasting _ _ (beside_pausing _ id) (ih holds))
    exact ensures_iff.1 (replacing_ensures description lasting (ih holds) (ensures_iff.2 begun))
  | asOneStep id description action _ _ ih inner =>
    have begun := inner (lasting _ _ (beside_grouping _ id) (ih holds))
    exact ensures_iff.1 (asOneStep_ensures description lasting (ih holds) (ensures_iff.2 begun))

theorem Reaches.sound (reached : Reaches w w') (sound : w.arena.Sound) : w'.arena.Sound :=
  reached.keeps sound (fun same sound => same ▸ sound)
    fun _ allowed sound => ensures_iff.1 (perform_sound sound allowed)

theorem sound_of_reached (reached : Reaches {} w) : w.arena.Sound :=
  reached.sound Arena.sound_empty

def performAll (requests : List (Request S)) (w : Workspace S) : Workspace S :=
  requests.foldl (fun w request => (perform request).after w) w

theorem reaches_performAll (requests : List (Request S)) (before : Reaches w w')
    (allowed : ∀ request ∈ requests, ∀ w : Workspace S, w.Allowed request) :
    Reaches w (performAll requests w') := by
  induction requests generalizing w' with
  | nil => exact before
  | cons request rest ih =>
    exact ih (.request request before (allowed request (by simp) w'))
      fun other member => allowed other (by simp [member])

section

open Sample

/-- One context with a history and a registry. -/
def desk : Workspace expression where
  contexts := ⟨#[{ history := some 0, registry := some defaultRegistry }]⟩
  histories := { count := 1 }

/-- A list of two words whose first one was removed and brought back. -/
def wordsAgain : Workspace expression :=
  performAll [.create (.list ListName.words) ⟨0, []⟩, .openItem ⟨0, 0⟩ 0,
    .typeToken ⟨1, 0⟩ "ab" true, .openItem ⟨0, 0⟩ 1, .typeToken ⟨2, 0⟩ "cd" true,
    .removeAt ⟨0, 0⟩ 0, .undo 0] desk

theorem reaches_wordsAgain : Reaches {} wordsAgain :=
  reaches_performAll _ (.beside (.refl _) rfl) (by simp [Allowed])

end

/-- Children are live, and their parent is the editor that lists them. -/
def ChildrenLinked (a : Arena S) : Prop :=
  ∀ x editor, a.get? x = some editor → ∀ c ∈ editor.state.children,
    ∃ child, a.get? c = some child ∧ child.parent = some x

/-- An editor that has a parent is listed there, once, and nowhere else. -/
def ListedOnce (a : Arena S) : Prop :=
  ∀ x editor p, a.get? x = some editor → editor.parent = some p →
    ∃ above, a.get? p = some above ∧ above.state.children.count x = 1 ∧
      ∀ q other, a.get? q = some other → q ≠ p → other.state.children.count x = 0

/-- From every live editor the three ways of climbing end, after at most as many steps as
there are editors: the search for the root, the search for the name by which the editor is
found again, and the recomputing of results, whatever is cached at the time. -/
def ClimbsEnd (w : Workspace S) : Prop :=
  ∀ x editor, w.arena.get? x = some editor → ∃ top root way,
    w.arena.get? top = some root ∧ root.parent = none ∧ w.arena.find ⟨top, way⟩ = .ok x ∧
    (∀ steps, w.arena.size ≤ steps → w.arena.topWithin steps x = .ok top ∧
      w.arena.locateWithin steps x [] = .ok ⟨top, way⟩) ∧
    ∀ w', w'.arena.outline = w.arena.outline →
      ∃ w'', ∀ steps, w.arena.size ≤ steps → recomputeWithin steps x w' = .ok () w''

omit [Language S] in
theorem childrenLinked_of_forest {a : Arena S} (forest : a.links.Forest) : ChildrenLinked a := by
  intro x editor found c member
  exact Arena.live_child forest found member

omit [Language S] in
theorem listedOnce_of_forest {a : Arena S} (forest : a.links.Forest) : ListedOnce a := by
  intro x editor p found hasParent
  obtain ⟨place, placed, member⟩ := forest.listed (Arena.links_of_get? found) hasParent
  obtain ⟨above, isLive, rfl⟩ := Arena.get?_of_links placed
  refine ⟨above, isLive, List.count_eq_one_of_mem (forest.distinct placed) member, ?_⟩
  intro q other otherLive different
  refine List.count_eq_zero_of_not_mem fun inside => different ?_
  obtain ⟨child, childLive, isParent⟩ := childrenLinked_of_forest forest q other otherLive x inside
  rw [found] at childLive
  cases childLive
  rw [hasParent] at isParent
  exact (Option.some.inj isParent).symm

theorem climbsEnd_of_forest (forest : w.arena.links.Forest) : ClimbsEnd w := by
  intro x editor found
  obtain ⟨n, depth⟩ := forest.rooted (Arena.links_of_get? found)
  have bound := Arena.depth_lt_size depth
  obtain ⟨root, way, place, located, led, isLive, isRoot⟩ := Arena.locateWithin_spec forest depth
  obtain ⟨top, place', climbed, within, isLive', isRoot'⟩ := Arena.topWithin_spec depth
  obtain rfl := Links.root_unique isLive' isRoot' isLive isRoot within
    (Arena.within_of_follow forest led)
  obtain ⟨rootEditor, rootLive, rfl⟩ := Arena.get?_of_links isLive
  refine ⟨top, rootEditor, way, rootLive, isRoot, led, fun steps enough => ⟨?_, ?_⟩, ?_⟩
  · exact climbed steps (by omega)
  · rw [located steps [] (by omega), List.append_nil]
  · intro w' outline
    have links := Arena.links_congr outline
    obtain ⟨w'', ended⟩ := recomputeWithin_ends (w := w') (links ▸ forest) (links ▸ depth)
    exact ⟨w'', fun steps enough => ended steps (by omega)⟩

/-- In every reachable state the free list is exact and the editors form a forest. -/
theorem reached_arena_is_forest (reached : Reaches {} w) :
    w.arena.Exact ∧ ChildrenLinked w.arena ∧ ListedOnce w.arena ∧ ClimbsEnd w := by
  have sound := sound_of_reached reached
  exact ⟨sound.exact, childrenLinked_of_forest sound.forest, listedOnce_of_forest sound.forest,
    climbsEnd_of_forest sound.forest⟩

theorem wordsAgain_is_forest :
    (wordsAgain.arena.get? ⟨0, 0⟩).map (·.state.children) = some [⟨1, 1⟩, ⟨2, 0⟩] ∧
      wordsAgain.arena.Exact ∧ ChildrenLinked wordsAgain.arena ∧ ListedOnce wordsAgain.arena ∧
      ClimbsEnd wordsAgain :=
  ⟨by decide +kernel, reached_arena_is_forest reaches_wordsAgain⟩

/-- In every reachable state the cached result of an editor is the value of the document that
it shows. -/
theorem reached_results_are_values (reached : Reaches {} w)
    (isLive : w.arena.get? x = some editor) :
    ∃ d, w.arena.Shows x d ∧ editor.result = d.value :=
  (sound_of_reached reached).result_is_value isLive

theorem wordsAgain_has_value : ∃ editor, wordsAgain.arena.get? ⟨0, 0⟩ = some editor ∧
    editor.result = .ok (.node "words" [.word "ab", .word "cd"]) ∧
    ∃ d, wordsAgain.arena.Shows ⟨0, 0⟩ d ∧ editor.result = d.value := by
  have cached : (wordsAgain.arena.get? ⟨0, 0⟩).map (·.result) =
      some (.ok (.node "words" [.word "ab", .word "cd"])) := by decide +kernel
  obtain ⟨editor, isLive, result⟩ := Option.map_eq_some_iff.1 cached
  exact ⟨editor, isLive, result, reached_results_are_values reaches_wordsAgain isLive⟩

end Workspace

end StructureEditor
