import StructureEditor.Proofs.Reachability

/-! Classes of children. Compounds and lists hold editors of the classes that they declare as
long as nobody puts another one there: fresh items, restored and pasted documents, expansions and
moves between contexts all go by the declared class. What clients insert is not checked. -/
namespace StructureEditor

variable {S : Signature} [Language S]

namespace Arena

def AllProper (a : Arena S) : Prop := ∀ x editor, a.get? x = some editor → a.Proper editor.state

/-- Editors keep their classes, and those that hold others keep them as they are: it is enough
to look at the editors that changed. -/
theorem AllProper.carry {a b : Arena S} (proper : a.AllProper) (forest : b.links.Forest)
    (was : ∀ y e', b.get? y = some e' → e'.parent ≠ none → a.classOf? y = some e'.state.classKey)
    (same : ∀ x e', b.get? x = some e' → (∃ e, a.get? x = some e ∧ e'.state = e.state) ∨
      a.Proper e'.state) : b.AllProper := by
  intro x e' isLive
  have before : a.Proper e'.state := by
    rcases same x e' isLive with ⟨e, found, state⟩ | new
    · exact state ▸ proper x e found
    · exact new
  refine before.carry fun y member => ?_
  obtain ⟨place, placed, hasParent⟩ := forest.linked (links_of_get? isLive) member
  obtain ⟨child, childLive, rfl⟩ := get?_of_links placed
  have attached : child.parent ≠ none := by
    rw [show child.parent = some x from hasParent]
    nofun
  rw [classOf?_of_get? childLive, was y child childLive attached]

end Arena

namespace Workspace

variable {w w' w₀ : Workspace S} {id x : Handle} {editor : Editor S} {notice : Notice S}

theorem proper_turn {e e' : Editor S} (proper : w.arena.Proper e.state)
    (found : w.arena.get? id = some e) (announces : Announces e.state notice e'.state)
    (admits : w.Admits id notice) : w.arena.Proper e'.state := by
  have held := Arena.state?_of_get? found
  generalize e.state = before at announces proper held
  generalize e'.state = after at announces
  cases announces with
  | typed => trivial
  | shown => trivial
  | emptied => trivial
  | filled => trivial
  | added inside =>
    obtain ⟨k, ids, held', fits⟩ := admits
    rw [held] at held'
    cases held'
    intro y member
    rcases List.eq_or_mem_of_mem_insertIdx member with rfl | old
    · exact fits
    · exact proper y old
  | removed inside => exact fun y member => proper y (List.mem_of_mem_eraseIdx member)

theorem allProper_turn (proper : w.arena.AllProper) (turn : Turn w w' id notice)
    (admits : w.Admits id notice) : w'.arena.AllProper := by
  refine proper.carry turn.sound.forest (fun y e' isLive _ => ?_) fun x e' isLive => ?_
  · obtain ⟨e, found, _, ⟨_, state⟩ | ⟨_, announces⟩⟩ := turn.was isLive
    · rw [Arena.classOf?_of_get? found, state]
    · rw [Arena.classOf?_of_get? found, announces.classKey]
  · obtain ⟨e, found, _, ⟨_, state⟩ | ⟨here, announces⟩⟩ := turn.was isLive
    · exact .inl ⟨e, found, state⟩
    · subst here
      exact .inr (proper_turn (proper x e found) found announces admits)

theorem Unfolds.allProper (run : Unfolds true w₀ w) (proper : w₀.arena.AllProper) :
    w.arena.AllProper := by
  induction run with
  | start _ => exact proper
  | beside _ beside ih => exact beside.arena ▸ ih
  | insert context state before kids distinct fits ih =>
    have forest := (Arena.insert_spec context state before.sound kids distinct).sound.forest
    refine ih.carry forest (fun y e' isLive attached => ?_) fun x e' isLive => ?_
    · rcases Arena.of_insert before.sound kids distinct isLive with new | ⟨e, found, _, _, held⟩
      · exact absurd new.1 attached
      · rw [Arena.classOf?_of_get? found, held]
    · rcases Arena.of_insert before.sound kids distinct isLive with new | ⟨e, found, _, _, held⟩
      · exact .inr (new.2.2 ▸ fits rfl)
      · exact .inl ⟨e, found, held⟩
  | dispose before found isRoot ih =>
    have forest := (Arena.sound_dispose_root before.sound found isRoot).1.forest
    refine ih.carry forest (fun y e' isLive _ => ?_) fun x e' isLive => ?_
    · exact Arena.classOf?_of_get? (Arena.of_dispose before.sound found isRoot isLive)
    · exact .inl ⟨e', Arena.of_dispose before.sound found isRoot isLive, rfl⟩
  | turn _ turn admits ih => exact allProper_turn ih turn (admits rfl)

theorem allProper_setViews {a : Arena S} (proper : a.AllProper) (id : Handle)
    (views : List ViewId) : (a.modify id fun editor => { editor with views }).AllProper := by
  have same : ∀ y, (a.modify id fun editor => { editor with views }).classOf? y = a.classOf? y := by
    intro y
    simp only [Arena.classOf?, Arena.state?, Arena.get?_modify]
    split
    · cases a.get? y <;> rfl
    · rfl
  intro x e' isLive
  rw [Arena.get?_modify] at isLive
  split at isLive
  · obtain ⟨e, found, rfl⟩ := Option.map_eq_some_iff.1 isLive
    exact (proper x e found).carry fun y _ => same y
  · exact (proper x e' isLive).carry fun y _ => same y

theorem perform_allProper {request : Request S} (sound : w.arena.Sound)
    (proper : w.arena.AllProper) (allowed : w.Allowed request) (suits : w.Suits request) :
    Ensures (perform request) w fun w' => w'.arena.AllProper := by
  cases documents : request.isAboutViews with
  | false =>
    have run : Unfolds true w w := .start sound
    exact (perform_unfolds run allowed (fun _ => suits) documents).mono
      (fun _ _ run => run.allProper proper) fun _ _ run => run.allProper proper
  | true =>
    cases request with
    | watch id view =>
      exact .bind (.ask (fun _ _ => .of_ok rfl (allProper_setViews proper id _)) fun _ _ => proper)
    | unwatch id view =>
      have ends : Ensures (unwatch id view) w fun w' => w'.arena.AllProper :=
        .bind (.ask (fun _ _ => .of_ok rfl (allProper_setViews proper id _)) fun _ _ => proper)
      exact .bind (ends.mono (fun _ _ proper => .pure proper) fun _ _ proper => proper)
    | _ => cases documents

/-- One workspace comes from another by requests that put only editors of the declared classes
into compounds and lists. -/
inductive ReachesSuitably : Workspace S → Workspace S → Prop where
  | refl (w : Workspace S) : ReachesSuitably w w
  | beside {w w' w'' : Workspace S} : ReachesSuitably w w' → w''.arena = w'.arena →
      ReachesSuitably w w''
  | request {w w' : Workspace S} (request : Request S) : ReachesSuitably w w' →
      w'.Allowed request → w'.Suits request → ReachesSuitably w ((perform request).after w')
  | replacing {w w' : Workspace S} {α : Type} (id : Handle) (description : String)
      (action : Editing S α) : ReachesSuitably w w' →
      ReachesSuitably (w'.pausing id) (action.after (w'.pausing id)) →
      ReachesSuitably w ((replacing id description action).after w')
  | asOneStep {w w' : Workspace S} {α : Type} (id : Handle) (description : String)
      (action : Editing S α) : ReachesSuitably w w' →
      ReachesSuitably (w'.grouping id) (action.after (w'.grouping id)) →
      ReachesSuitably w ((asOneStep id description action).after w')

theorem ReachesSuitably.reaches (run : ReachesSuitably w w') : Reaches w w' := by
  induction run with
  | refl w => exact .refl w
  | beside _ same ih => exact .beside ih same
  | request request _ allowed _ ih => exact .request request ih allowed
  | replacing id description action _ _ ih inner => exact .replacing id description action ih inner
  | asOneStep id description action _ _ ih inner => exact .asOneStep id description action ih inner

theorem allProper_lasting : Lasting fun w : Workspace S => w.arena.AllProper := by
  intro w w' beside proper
  rw [beside.arena]
  exact proper

theorem ReachesSuitably.allProper (run : ReachesSuitably w w') (sound : w.arena.Sound)
    (proper : w.arena.AllProper) : w'.arena.AllProper := by
  induction run with
  | refl w => exact proper
  | beside _ same ih => exact same ▸ ih sound proper
  | request request before allowed suits ih =>
    exact ensures_iff.1 (perform_allProper (before.reaches.sound sound) (ih sound proper) allowed suits)
  | replacing id description action before _ ih inner =>
    have begun := inner (sound_lasting _ _ (beside_pausing _ id) (before.reaches.sound sound))
      (allProper_lasting _ _ (beside_pausing _ id) (ih sound proper))
    exact ensures_iff.1 (replacing_ensures description allProper_lasting (ih sound proper)
      (ensures_iff.2 begun))
  | asOneStep id description action before _ ih inner =>
    have begun := inner (sound_lasting _ _ (beside_grouping _ id) (before.reaches.sound sound))
      (allProper_lasting _ _ (beside_grouping _ id) (ih sound proper))
    exact ensures_iff.1 (asOneStep_ensures description allProper_lasting (ih sound proper)
      (ensures_iff.2 begun))

/-- Every item of a list is of the class that the list declares for its items, and every
component of a compound is of the class that is declared for its place, as long as clients put
only such editors there. -/
theorem children_of_declared_classes (run : ReachesSuitably {} w)
    (isLive : w.arena.get? x = some editor) : w.arena.Proper editor.state := by
  have none : ({} : Workspace S).arena.AllProper := by
    intro x editor isLive
    simp [Arena.get?] at isLive
  exact run.allProper Arena.sound_empty none x editor isLive

section

open Sample

def wordsAndTokens : Workspace expression :=
  performAll [.create (.list ListName.words) ⟨0, []⟩, .create (.token TokenName.word) ⟨0, []⟩,
    .create (.token TokenName.int) ⟨0, []⟩] desk

theorem reaches_wordsAndTokens : ReachesSuitably {} wordsAndTokens := by
  have begun : ReachesSuitably {} desk := .beside (.refl _) rfl
  have words := begun.request (.create (.list ListName.words) ⟨0, []⟩) trivial trivial
  have word := words.request (.create (.token TokenName.word) ⟨0, []⟩) trivial trivial
  exact word.request (.create (.token TokenName.int) ⟨0, []⟩) trivial trivial

theorem isTop_words : wordsAndTokens.arena.topOf ⟨0, 0⟩ = .ok ⟨0, 0⟩ := by decide +kernel

theorem placedWord_of_declared_class : ∃ editor,
    ((perform (.placeItem ⟨0, 0⟩ 0 ⟨1, 0⟩)).after wordsAndTokens).arena.get? ⟨0, 0⟩ = some editor ∧
    editor.state.children = [⟨1, 0⟩] ∧
    ((perform (.placeItem ⟨0, 0⟩ 0 ⟨1, 0⟩)).after wordsAndTokens).arena.Proper editor.state := by
  have shown : (((perform (.placeItem ⟨0, 0⟩ 0 ⟨1, 0⟩)).after wordsAndTokens).arena.get?
      ⟨0, 0⟩).map (·.state.children) = some [⟨1, 0⟩] := by decide +kernel
  obtain ⟨editor, isLive, children⟩ := Option.map_eq_some_iff.1 shown
  have allowed : wordsAndTokens.Allowed (.placeItem ⟨0, 0⟩ 0 ⟨1, 0⟩) := by
    rw [Allowed, isTop_words]
    decide
  have suits : wordsAndTokens.Suits (.placeItem ⟨0, 0⟩ 0 ⟨1, 0⟩) := by
    intro k ids held
    have isWords : wordsAndTokens.arena.state? ⟨0, 0⟩ = some (.list ListName.words []) :=
      rfl
    rw [isWords] at held
    cases held
    rfl
  exact ⟨editor, isLive, children,
    children_of_declared_classes (.request _ reaches_wordsAndTokens allowed suits) isLive⟩

/-- Nobody checks the class of an editor that is inserted into a list: a list of words can come
to hold a number. -/
theorem placedNumber_of_other_class :
    Reaches {} ((perform (.placeItem ⟨0, 0⟩ 0 ⟨2, 0⟩)).after wordsAndTokens) ∧
    ¬ ∀ x editor, ((perform (.placeItem ⟨0, 0⟩ 0 ⟨2, 0⟩)).after wordsAndTokens).arena.get? x =
      some editor → ((perform (.placeItem ⟨0, 0⟩ 0 ⟨2, 0⟩)).after wordsAndTokens).arena.Proper
        editor.state := by
  refine ⟨.request _ reaches_wordsAndTokens.reaches ?_, fun proper => ?_⟩
  · rw [Allowed, isTop_words]
    decide
  · have isWords : ((perform (.placeItem ⟨0, 0⟩ 0 ⟨2, 0⟩)).after wordsAndTokens).arena.state?
        ⟨0, 0⟩ = some (.list ListName.words [⟨2, 0⟩]) := rfl
    have isNumber : ((perform (.placeItem ⟨0, 0⟩ 0 ⟨2, 0⟩)).after wordsAndTokens).arena.classOf?
        ⟨2, 0⟩ = some (.token TokenName.int) := rfl
    obtain ⟨editor, isLive, held⟩ := Arena.get?_of_state? isWords
    have declared := proper ⟨0, 0⟩ editor isLive
    rw [held] at declared
    have isWord := declared ⟨2, 0⟩ (by simp)
    rw [isNumber] at isWord
    cases isWord

end

end Workspace

end StructureEditor
