import StructureEditor.Proofs.Chronicles

/-! Documents that become items. A document that the history knows nothing of can be put into a
list of another one: seen from the documents of the history it is new, so that the insertion
is one more step, and all steps can be taken back and done again. The edits of a document of
its own are lost when it becomes an item, because they name it as a root. -/
namespace StructureEditor.Workspace

variable {S : Signature} [Language S] {w w' w₁ : Workspace S} {h : HistoryId} {r : Registry S}
  {roots : List Handle} {P : Page S} {id e root list item : Handle} {editor child : Editor S}
  {past future : List (Page S)} {chain : List (Workspace S)} {context : Context}

def without (w : Workspace S) (e : Handle) : Workspace S := { w with arena := w.arena.dispose e }

/-- A root that is put away, seen from the others. -/
structure Aside (w : Workspace S) (e : Handle) : Prop where
  sound : (w.without e).arena.Sound
  gone : (w.without e).arena.outline e = none
  grows : (w.without e).arena.Grows w.arena
  kept : ∀ x editor, w.arena.get? x = some editor → ¬ w.arena.links.Within e x →
    (w.without e).arena.get? x = some editor
  apart : ∀ x editor, (w.without e).arena.outline x = some editor → ¬ w.arena.links.Within e x

theorem aside_of_root (sound : w.arena.Sound) (found : w.arena.get? e = some child)
    (free : child.parent = none) : Aside w e := by
  obtain ⟨sound', gone, kept⟩ := Arena.sound_dispose_root sound found free
  have apart : ∀ x editor, (w.without e).arena.outline x = some editor →
      ¬ w.arena.links.Within e x := by
    intro x editor isLive below
    rw [without, Arena.outline_eq_none_iff.2 (gone x below)] at isLive
    cases isLive
  refine ⟨sound', Arena.outline_eq_none_iff.2 (gone e .here), fun x editor isLive => ?_,
    fun x editor isLive outside => (kept x outside).trans isLive, apart⟩
  simpa only [without, Arena.outline, kept x (apart x editor isLive)] using isLive

theorem Presents.without (presents : Presents h r roots w P) (aside : Aside w e)
    (outside : ∀ x ∈ roots, ¬ w.arena.links.Within e x) : Presents h r roots (w.without e) P := by
  have free : ∀ x ∈ roots, ∃ editor, (w.without e).arena.get? x = some editor ∧
      editor.parent = none := by
    intro x member
    obtain ⟨editor, found, isRoot⟩ := presents.tended.free x member
    exact ⟨editor, aside.kept x editor found (outside x member), isRoot⟩
  refine ⟨⟨aside.sound, free, fun x member => ?_⟩, ⟨fun x member => ?_, presents.depicts.blank⟩,
    presents.fine⟩
  · exact (presents.tended.order x member).shrink aside.sound.forest (.refl _) aside.grows
  · obtain ⟨d, seen, here⟩ := presents.depicts.shown x member
    obtain ⟨editor, found, _⟩ := free x member
    obtain ⟨d', seen'⟩ := Arena.exists_shows aside.sound.forest found
    cases seen.unique (aside.grows.shows aside.sound.forest seen')
    exact ⟨d, seen', here⟩

theorem Aside.built (aside : Aside w e) (sound : w.arena.Sound)
    (found : w.arena.get? e = some child) (free : child.parent = none)
    (moved : relocate e context w = .ok item w₁) :
    Built (w.without e) w₁ item child.state.classKey context := by
  rcases (relocateWith_meets restore_safe sound).ok_of moved with
    ⟨rfl, rfl, here, isLive, sameContext⟩ | copied
  · cases found.symm.trans isLive
    exact ⟨⟨sound, ⟨rfl, rfl, .refl _⟩, aside.grows⟩, aside.gone, child, found, free, sameContext, rfl⟩
  · obtain ⟨old, new, oldFound, _, _, newFound, newRoot, newContext, sameClass⟩ := copied.root
    cases found.symm.trans oldFound
    refine ⟨⟨copied.sound, ⟨copied.quiet.histories, copied.quiet.views, copied.quiet.contexts⟩, ?_⟩,
      Arena.fresh_of_grows aside.grows copied.fresh, new, newFound, newRoot, newContext, sameClass⟩
    exact fun x editor isLive =>
      copied.kept x editor (aside.grows x editor isLive) (aside.apart x editor isLive)

theorem Tended.not_within_other (tended : Tended h r roots w) (found : w.arena.get? e = some child)
    (free : child.parent = none) (other : e ∉ roots) (member : root ∈ roots)
    (within : w.arena.links.Within root x) : ¬ w.arena.links.Within e x := by
  obtain ⟨top, topFound, isRoot⟩ := tended.free root member
  intro below
  have same := Links.root_unique (Arena.links_of_get? topFound) isRoot (Arena.links_of_get? found)
    free within below
  exact other (same ▸ member)

theorem placeItem_steps {k : S.ListClass} {ids : List Handle} {index : Nat}
    (presents : Presents h r roots w P) (ready : Ready h w) (member : root ∈ roots)
    (within : w.arena.links.Within root list) (held : w.arena.state? list = some (.list k ids))
    (inside : index ≤ ids.length) (document : Orderly h r [e] w) (other : e ∉ roots)
    (isElement : w.arena.OfClass (Language.list k).element e) :
    ∃ item w', placeItem list index e w = .ok item w' ∧ Steps h r roots P w w' ∧
      ((historyLens h).view w').undone = [] := by
  have sound := presents.tended.sound
  obtain ⟨child, root₀, free⟩ := document.free e (List.mem_singleton.2 rfl)
  have order := document.order e (List.mem_singleton.2 rfl)
  obtain ⟨x, seen⟩ := Arena.exists_shows sound.forest root₀
  have fineItem : x.Fine r := ⟨order.conforms sound.forest seen,
    known_of_below sound.forest (document.known e (List.mem_singleton.2 rfl)) seen⟩
  have isKey := isElement.shown seen
  have sameKey : child.state.classKey = (Language.list k).element :=
    (classKey_of_held seen (Arena.state?_of_get? root₀)).symm.trans isKey
  obtain ⟨editor, found, state⟩ := Arena.get?_of_state? held
  -- seen from the roots, the document is not there
  have aside := aside_of_root sound root₀ free
  have notBelow := presents.tended.not_within_other root₀ free other member within
  have presents₀ := presents.without aside fun x listed =>
    presents.tended.not_within_other root₀ free other listed .here
  have found₀ := aside.kept list editor found notBelow
  have within₀ : (w.without e).arena.links.Within root list :=
    Arena.within_of_kept aside.sound.forest (fun _ => True) (fun _ _ _ _ _ _ => trivial)
      (fun z e _ isLive => aside.grows z e isLive) within trivial (Arena.outline_of_get? found₀)
  have governs := ((presents.tended.order root member).below within).here found |>.governed
  obtain ⟨item, w₁, moved, seenItem⟩ := relocateWith_run restore_safe (restore_restores fineItem.1)
    sound root₀ free seen (supplies_of_known fineItem.2 governs)
  have built := sameKey ▸ aside.built sound root₀ free moved
  obtain ⟨w₂, w₃, attached, changed, recorded, arena, contexts, undone, fine, advances⟩ :=
    attachRecorded_run
    presents₀ ready member within₀ found₀ state inside built seenItem isKey
  refine ⟨item, w₃, ?_, ?_, undone⟩
  · have gap := checkGap_run held inside
    have moved : relocate e editor.context w = .ok item w₁ := moved
    simp only [placeItem, Action.bind_run_ok _ gap, Action.bind_run_ok _ (lookup_run root₀), free,
      Option.isSome_none, Bool.false_eq_true, if_false, Action.bind_run_ok _ (lookup_run found),
      Action.bind_run_ok _ moved, Action.bind_run_ok _ attached, Action.bind_run_ok _ recorded]
    rfl
  · have order₂ : OrderBelow h r w₂ list := by
      obtain ⟨w₂', attached', _, order'⟩ := built.joins_order aside.sound found₀ state inside rfl
        ((presents₀.tended.order root member).below within₀)
        ((relocateWith_order restore_keeps restore_safe sound order governs).ok_of moved)
      cases attached.symm.trans attached'
      exact order'
    have tended := presents₀.tended.confined changed order₂
    obtain ⟨P', depicts, takes⟩ := advances (fine fineItem)
    exact ⟨P', ⟨tended.congr arena contexts, depicts, fine fineItem P' depicts⟩, takes⟩

theorem Session.remembers {limit : Nat} {w₀ : Workspace S}
    (session : Session h r roots false w₀ w) (steady : Language.Steady S) (tidy : Language.Tidy S)
    (orderly : Orderly h r roots w₀) (new : (historyLens h).view w₀ = { limit }) :
    ∃ chain, Remembers h r roots chain w := by
  obtain ⟨acts, performs⟩ := session.performs rfl
  obtain ⟨chain, past, P, future, _, timeline, related⟩ := performs.recounts steady tidy orderly new
  obtain ⟨_, _, _, fine⟩ := related_at related
  exact ⟨chain, past, P, future, timeline, fine, related.imp fun _ _ both => both.1⟩

theorem Timeline.steps (timeline : Timeline h r roots past P future w)
    (related : List.Forall₂ (fun v M => v.arena.Sound ∧ v.arena.Depicts roots M) chain
      (pages past P future)) (stepped : Steps h r roots P w w')
    (last : ((historyLens h).view w').undone = []) :
    ∃ earlier, (∀ v ∈ earlier, v ∈ chain) ∧ Remembers h r roots (earlier ++ [w']) w' := by
  have ready := stepped.advances.ready timeline.ready
  obtain ⟨P', presents, takes⟩ := stepped
  have now : List.Forall₂ (fun v M => v.arena.Sound ∧ v.arena.Depicts roots M) [w'] [P'] :=
    .cons ⟨presents.tended.sound, presents.depicts⟩ .nil
  obtain ⟨closed, ⟨done, _, rfl⟩ | ⟨step, connects, done, undone⟩⟩ := takes.closed timeline.closed
  · refine ⟨_, fun v => mem_of_mem_retained, past, P', [], ⟨presents.tended, presents.depicts, ready,
      closed, done ▸ timeline.behind, last ▸ trivial⟩, presents.fine,
      List.rel_append (retained_shows related 0 true) now⟩
  · exact ⟨_, fun v => mem_of_mem_retained, _, P', [],
      timeline.recorded presents ready closed connects done undone, presents.fine,
      List.rel_append (retained_shows related _ _) now⟩

def moveAll (h : HistoryId) (moves : List Direction) : Editing S Unit :=
  moves.forM fun direction => do let _ ← move h direction

def lastPlace (count : Nat) : List Direction → Nat → Nat
  | [], place => place
  | direction :: rest, place =>
    lastPlace count rest ((nextPlace count place direction).getD place)

def thereAndBack (count : Nat) : List Direction :=
  List.replicate count .undo ++ List.replicate count .redo

theorem lastPlace_undo {count place : Nat} (rest : List Direction) :
    lastPlace count (List.replicate place .undo ++ rest) place = lastPlace count rest 0 := by
  induction place with
  | zero => rfl
  | succ place ih => simpa [List.replicate_succ, lastPlace, nextPlace] using ih

theorem lastPlace_redo {count place more : Nat} (inside : place + more < count) :
    lastPlace count (List.replicate more .redo) place = place + more := by
  induction more generalizing place with
  | zero => rfl
  | succ more ih =>
    have next : nextPlace count place .redo = some (place + 1) := if_pos (by omega)
    simp only [List.replicate_succ, lastPlace, next, Option.getD_some]
    rw [ih (by omega)]
    omega

theorem lastPlace_thereAndBack (place : Nat) :
    lastPlace (place + 1) (thereAndBack place) place = place := by
  rw [thereAndBack, lastPlace_undo, lastPlace_redo (by omega), Nat.zero_add]

theorem Retraces.stands {moves : List Direction} {place : Nat}
    (retraces : Retraces h roots chain moves place w) :
    ∃ w', moveAll h moves w = .ok () w' ∧
      Stands h roots chain (lastPlace chain.length moves place) w' := by
  induction moves generalizing w place with
  | nil => exact ⟨w, rfl, retraces⟩
  | cons direction rest ih =>
    obtain ⟨_, w₁, moved, further⟩ := retraces
    obtain ⟨w', ran, stands⟩ := ih further
    have first : (do let _ ← move h direction : Editing S Unit) w = .ok () w₁ := by
      rw [Action.bind_run_ok _ moved]
      rfl
    exact ⟨w', (Action.forM_run_ok rest first).trans ran, stands⟩

/-- A document of which the history knows nothing is put into a list of the element class. This
is one more step of the history: it leads to the present state, and however one goes on with
undo and redo, each move succeeds. Undoing everything and redoing everything ends in a state
where each document is equal to what it was after the insertion. -/
theorem placed_document_retraces {k : S.ListClass} {ids : List Handle} {index : Nat}
    (steady : Language.Steady S) (remembers : Remembers h r roots chain w)
    (member : root ∈ roots) (within : w.arena.links.Within root list)
    (held : w.arena.state? list = some (.list k ids)) (inside : index ≤ ids.length)
    (document : Orderly h r [e] w) (other : e ∉ roots)
    (isElement : w.arena.OfClass (Language.list k).element e) :
    ∃ item w' earlier, placeItem list index e w = .ok item w' ∧ (∀ v ∈ earlier, v ∈ chain) ∧
      (∀ moves, Retraces h roots (earlier ++ [w']) moves earlier.length w') ∧
      ∃ w'', moveAll h (thereAndBack earlier.length) w' = .ok () w'' ∧
        ∀ x ∈ roots, Recurs w' w'' x := by
  obtain ⟨past, P, future, timeline, fine, related⟩ := remembers
  have presents : Presents h r roots w P := ⟨timeline.tended, timeline.depicts, fine⟩
  obtain ⟨item, w', placed, steps, last⟩ := placeItem_steps presents timeline.ready member
    within held inside document other isElement
  obtain ⟨earlier, listed, past', P', future', timeline', _, related'⟩ :=
    timeline.steps related steps last
  have count : past'.length = earlier.length := by
    have ahead := timeline'.ahead.length
    have lengths := related'.length_eq.trans (length_pages past' P' future')
    rw [last, List.length_nil] at ahead
    rw [List.length_append, List.length_singleton] at lengths
    omega
  have retraces : ∀ moves, Retraces h roots (earlier ++ [w']) moves earlier.length w' :=
    fun moves => count ▸ timeline'.retraces steady related' moves
  refine ⟨item, w', earlier, placed, listed, retraces, ?_⟩
  obtain ⟨w'', ran, stands⟩ := (retraces (thereAndBack earlier.length)).stands
  refine ⟨w'', ran, fun x member => ?_⟩
  rw [List.length_append, List.length_singleton, lastPlace_thereAndBack] at stands
  obtain ⟨v, there, recurs⟩ := stands.shown
  rw [List.getElem?_append_right (Nat.le_refl _), Nat.sub_self, List.getElem?_cons_zero] at there
  cases there
  exact recurs x member

section

open Sample

def wordBeside : Workspace expression :=
  performAll [.create (.list ListName.words) ⟨0, []⟩, .create (.token TokenName.word) ⟨0, []⟩] desk

def wordBesideItem : Workspace expression := performAll [.openItem ⟨0, 0⟩ 0] wordBeside

theorem reaches_wordBeside : Reaches {} wordBeside :=
  reaches_performAll _ (.beside (.refl _) rfl) (by simp [Allowed])

theorem reaches_wordBesideItem : Reaches {} wordBesideItem :=
  reaches_performAll _ reaches_wordBeside (by simp [Allowed])

theorem wordBeside_orderly : Orderly 0 defaultRegistry [⟨0, 0⟩] wordBeside :=
  orderly_of_fresh (sound_of_reached reaches_wordBeside) rfl rfl
    (Arena.shows_list.2 ⟨[], rfl, .nil⟩) ⟨⟨nofun, trivial⟩, trivial⟩ ⟨rfl, trivial⟩
    (desk_governs rfl)

theorem wordBesideItem_orderly : Orderly 0 defaultRegistry [⟨0, 0⟩] wordBesideItem :=
  orderly_of_fresh (d := .list ListName.words [.token TokenName.word "" none])
    (sound_of_reached reaches_wordBesideItem) rfl rfl
    (Arena.shows_list.2 ⟨[⟨2, 0⟩], rfl, .cons rfl .nil⟩)
    ⟨⟨by simp [Sketch.classKey]; rfl, trivial, trivial⟩, trivial, trivial⟩ ⟨rfl, rfl, trivial⟩
    (desk_governs rfl)

theorem looseWord_orderly : Orderly 0 defaultRegistry [⟨1, 0⟩] wordBesideItem :=
  orderly_of_fresh (d := .token TokenName.word "" none) (sound_of_reached reaches_wordBesideItem)
    rfl rfl rfl ⟨trivial, trivial⟩ rfl (desk_governs rfl)

theorem wordBesideItem_session :
    Session 0 defaultRegistry [⟨0, 0⟩] false wordBeside wordBesideItem := by
  have added : (perform (.openItem ⟨0, 0⟩ 0)).Ends wordBeside wordBesideItem := .inl ⟨(), rfl⟩
  exact .request (.refl false wordBeside) rfl (List.mem_singleton.2 rfl) .here added
    wordBesideItem_orderly

theorem placedWord_retraces :
    ((historyLens 0).view wordBesideItem).undoCount = 1 ∧
    ∃ item w' earlier, placeItem ⟨0, 0⟩ 1 ⟨1, 0⟩ wordBesideItem = .ok item w' ∧
      (∀ moves, Retraces 0 [⟨0, 0⟩] (earlier ++ [w']) moves earlier.length w') ∧
      ∃ w'', moveAll 0 (thereAndBack earlier.length) w' = .ok () w'' ∧
        ∀ x ∈ [⟨0, 0⟩], Recurs w' w'' x := by
  refine ⟨by decide +kernel, ?_⟩
  obtain ⟨chain, remembers⟩ := wordBesideItem_session.remembers expression_steady
    expression_blind.tidy wordBeside_orderly rfl
  obtain ⟨item, w', earlier, placed, _, rest⟩ := placed_document_retraces expression_steady
    remembers (List.mem_singleton.2 rfl) .here rfl (Nat.le_refl 1)
    looseWord_orderly (by decide) ⟨_, rfl, rfl⟩
  exact ⟨item, w', earlier, placed, rest⟩

def typedBeside : Workspace expression :=
  performAll [.create (.token TokenName.word) ⟨0, []⟩, .typeText ⟨0, 0⟩ "ab",
    .create (.list ListName.words) ⟨0, []⟩] desk

/-- The typing was recorded while the word was a root. Once the insertion of the word is taken
back, the typing cannot be. -/
theorem typing_lost_after_placing : ∃ w₁ w₂ w₃,
    placeItem ⟨1, 0⟩ 0 ⟨0, 0⟩ typedBeside = .ok ⟨0, 0⟩ w₁ ∧
    move 0 .undo w₁ = .ok true w₂ ∧ move 0 .undo w₂ = .error (.refused (.stale ⟨0, 0⟩)) w₃ :=
  ⟨_, _, _, rfl, rfl, rfl⟩

end

end StructureEditor.Workspace
