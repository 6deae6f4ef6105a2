import StructureEditor.Proofs.Boundedness
import StructureEditor.Proofs.Sessions

/-! Groups. Whatever an action does in a group is one step of the history afterwards, also where
the action is refused on its way: the group is closed, and one undo takes back all of it. -/
namespace StructureEditor

theorem HistoryLens.grouped_run {σ ε α : Type} [Undoable ε] {lens : HistoryLens σ ε} {s s₁ : σ}
    {action : Action σ α} {result : Except Refusal α} {steps : List (Step ε)} (description : String)
    (active : (lens.view s).active = true) (closed : (lens.view s).isOpen = false)
    (acts : action.attempt (lens.put (lens.view s).begin s) = .ok result s₁)
    (collected : (lens.view s₁).collected = some steps) :
    (lens.grouped description action).attempt s =
      .ok result (lens.put ((lens.view s₁).close description steps) s₁) := by
  have ran : lens.grouped description action s =
      Action.ofExcept result (lens.put ((lens.view s₁).close description steps) s₁) := by
    rw [grouped_opens description action (by simp [active, closed]), Action.bind_run_ok _ acts,
      Action.bind_run_ok _ (finish_run description collected)]
  cases result <;> simp [Action.attempt, ran, Action.ofExcept, Action.refuse_run]

variable {S : Signature} [Language S]

theorem Edit.merge?_text {first second merged : Edit}
    (together : Edit.merge? first second = some merged) :
    ∃ l old mid mid' new oldItem midItem midItem' newItem,
      first = .text l old mid oldItem midItem ∧ second = .text l mid' new midItem' newItem ∧
        merged = .text l old new oldItem newItem := by
  cases first <;> cases second <;> simp only [Edit.merge?, reduceCtorEq] at together
  next l old mid oldItem midItem l' mid' new midItem' newItem =>
    split at together
    · next same =>
      cases same
      cases together
      exact ⟨_, _, _, _, _, _, _, _, _, rfl, rfl, rfl⟩
    · cases together

theorem Step.merge?_single {first second merged : Step Edit}
    (together : first.merge? second = some merged) :
    ∃ e e' e'', first = .single e ∧ second = .single e' ∧ merged = .single e'' ∧
      Edit.merge? e e' = some e'' := by
  cases first with
  | group => cases together
  | single e =>
    cases second with
    | group => cases together
    | single e' =>
      obtain ⟨e'', both, rfl⟩ := Option.map_eq_some_iff.1 together
      exact ⟨e, e', e'', rfl, rfl, rfl, both⟩

namespace History

theorem trim_cons {ε : Type} (limit : Nat) (top : Step ε) (rest : List (Step ε)) :
    ∃ rest', trim limit (top :: rest) = top :: rest' := by
  unfold trim
  split
  · next high =>
    cases rest with
    | nil =>
      simp only [List.length_singleton] at high
      omega
    | cons next rest => exact ⟨(next :: rest).dropLast, rfl⟩
  · exact ⟨rest, rfl⟩

theorem trim_length_le {ε : Type} (limit : Nat) (stack : List (Step ε)) :
    (trim limit stack).length ≤ stack.length := by
  unfold trim
  split <;> simp

theorem commit_cases (limit : Nat) (step : Step Edit) (done : List (Step Edit)) :
    ∃ top rest, trim limit (push step done) = top :: rest ∧ (top = step ∨
      ∃ l old mid mid' new oldItem midItem midItem' newItem rest',
        done = .single (.text l old mid oldItem midItem) :: rest' ∧
        step = .single (.text l mid' new midItem' newItem) ∧
        top = .single (.text l old new oldItem newItem)) := by
  cases done with
  | nil =>
    obtain ⟨rest, trimmed⟩ := trim_cons limit step []
    exact ⟨step, rest, trimmed, .inl rfl⟩
  | cons before earlier =>
    simp only [push]
    split
    · next merged together =>
      obtain ⟨rest, trimmed⟩ := trim_cons limit merged earlier
      obtain ⟨e, e', e'', rfl, rfl, rfl, both⟩ := Step.merge?_single together
      obtain ⟨l, old, mid, mid', new, oldItem, midItem, midItem', newItem, rfl, rfl, rfl⟩ :=
        Edit.merge?_text both
      exact ⟨_, rest, trimmed, .inr ⟨_, _, _, _, _, _, _, _, _, _, rfl, rfl, rfl⟩⟩
    · obtain ⟨rest, trimmed⟩ := trim_cons limit step (before :: earlier)
      exact ⟨step, rest, trimmed, .inl rfl⟩

end History

namespace Edit

variable {r : Registry S} {P P' M : Page S} {l : Locator} {k : S.TokenClass}
  {old mid mid' new : String} {oldItem midItem midItem' newItem : Option Candidate}

theorem text_connects (there : P.at? l = some (Sketch.token k mid midItem).canon) (old : String)
    (oldItem : Option Candidate) :
    (Edit.text l old mid oldItem midItem).Connects r
      (P.set l (Sketch.token k old oldItem).canon) P := by
  refine ⟨_, _, ⟨k, rfl, rfl⟩, Page.at?_set there _, ?_⟩
  rw [locator, Page.set_set, Page.set_at? there]

/-- A text edit that ended where the next one began came from the page on which the token still
has the text that was there before. -/
theorem page_before_text (connects : (Edit.text l old mid oldItem midItem).Connects r M P)
    (there : P.at? l = some (Sketch.token k mid' midItem').canon) :
    M = P.set l (Sketch.token k old oldItem).canon := by
  obtain ⟨_, _, ⟨k', rfl, rfl⟩, before, rfl⟩ := connects
  have same := (Page.at?_set before _).symm.trans there
  simp only [Sketch.canon, Option.some.injEq, Sketch.token.injEq] at same
  obtain ⟨rfl, _⟩ := same
  exact (Page.set_set ..).symm ▸ (Page.set_at? before).symm

end Edit

namespace Workspace

variable {α : Type} {w w₁ w' : Workspace S} {h : HistoryId} {r : Registry S} {roots : List Handle}
  {P P' M : Page S} {id : Handle} {editor : Editor S} {action : Editing S α}
  {result : Except Refusal α} {steps rest : List (Step Edit)} {step : Step Edit}

omit [Language S] in
theorem grouping_begins (ready : Ready h w) (closed : ((historyLens h).view w).collected = none)
    (found : w.arena.get? id = some editor)
    (history : w.contexts.find? (·.history) editor.context = some h) :
    w.grouping id = (historyLens h).put ((historyLens h).view w).begin w := by
  simp [grouping, found, history, History.isOpen, closed, show _ = true from ready]

omit [Language S] in
theorem asOneStep_run (description : String) (ready : Ready h w)
    (closed : ((historyLens h).view w).collected = none) (found : w.arena.get? id = some editor)
    (history : w.contexts.find? (·.history) editor.context = some h)
    (acts : action.attempt (w.grouping id) = .ok result w₁)
    (collected : ((historyLens h).view w₁).collected = some steps) :
    (asOneStep id description action).attempt w =
      .ok result ((historyLens h).put (((historyLens h).view w₁).close description steps) w₁) := by
  have ran : asOneStep id description action w = (historyLens h).grouped description action w := by
    rw [asOneStep, Action.bind_run_ok _ (historyFor?_run found), history]
  rw [grouping_begins ready closed found history] at acts
  have shut : ((historyLens h).view w).isOpen = false := by simp [History.isOpen, closed]
  have grouped := HistoryLens.grouped_run description ready shut acts collected
  simpa only [Action.attempt, ran] using grouped

theorem undo_and_redo (tended : Tended h r roots w)
    (depicts : w.arena.Depicts roots P) (closed : ((historyLens h).view w).collected = none)
    (top : ((historyLens h).view w).done = step :: rest) (connects : step.Connects r M P) :
    ∃ u v, move h .undo w = .ok true u ∧ move h .redo u = .ok true v ∧
      (u.arena.Sound ∧ u.arena.Depicts roots M) ∧ v.arena.Sound ∧ v.arena.Depicts roots P := by
  have last : History.ahead .undo ((historyLens h).view w) = step :: rest := top
  have back : step.Leads r .undo P M := connects
  have onward : step.Leads r .redo M P := connects
  obtain ⟨u, undone, tended', depicts', view⟩ := move_run tended depicts closed last back
  have next : History.ahead .redo ((historyLens h).view u) =
      step :: ((historyLens h).view w).undone := by
    rw [view]
    rfl
  obtain ⟨v, redone, tended'', depicts'', _⟩ :=
    move_run tended' depicts' (view ▸ closed) next onward
  exact ⟨u, v, undone, redone, ⟨tended'.sound, depicts'⟩, tended''.sound, depicts''⟩

theorem undo_of_text {l : Locator} {k : S.TokenClass} {old mid mid' : String}
    {oldItem midItem midItem' : Option Candidate}
    (tended : Tended h r roots w) (depicts : w.arena.Depicts roots P)
    (closed : ((historyLens h).view w).collected = none)
    (top : ((historyLens h).view w).done = .single (.text l old mid oldItem midItem) :: rest)
    (there : P.at? l = some (Sketch.token k mid' midItem').canon) :
    ∃ u, move h .undo w = .ok true u ∧ u.arena.Sound ∧
      u.arena.Depicts roots (P.set l (Sketch.token k old oldItem).canon) := by
  have last : History.ahead .undo ((historyLens h).view w) =
      .single (.text l old mid oldItem midItem) :: rest := top
  have back : Step.Leads r (.single (.text l old mid' oldItem midItem')) .undo P
      (P.set l (Sketch.token k old oldItem).canon) :=
    Step.connects_single.2 (Edit.text_connects there old oldItem)
  -- undo does not look at what the edit left behind
  have replays : Replays h r roots (HistoryLens.replayStep replay .undo
      (.single (.text l old mid oldItem midItem))) P (P.set l (Sketch.token k old oldItem).canon) :=
    (replayStep_run back :)
  obtain ⟨u, ran, tended', depicts', _⟩ := replays.moves tended depicts closed last
  exact ⟨u, ran, tended'.sound, depicts'⟩

/-- All edits of a group have become one text edit, and they go on where the edit done before the
group has typed. An undo then leads to the state before that edit. -/
structure GoesOn (h : HistoryId) (r : Registry S) (roots : List Handle) (w : Workspace S)
    (steps : List (Step Edit)) (u : Workspace S) : Prop where
  typed : ∃ l old mid mid' new oldItem midItem midItem' newItem rest,
    ((historyLens h).view w).done = .single (.text l old mid oldItem midItem) :: rest ∧
      steps = [.single (.text l mid' new midItem' newItem)]
  back : ∃ u', move h .undo w = .ok true u' ∧ ∀ x ∈ roots, Recurs u' u x
  before : ∀ v edit rest M P, ((historyLens h).view w).done = .single edit :: rest →
    v.arena.Sound → v.arena.Depicts roots M → w.arena.Depicts roots P → Edit.Connects r edit M P →
    ∀ x ∈ roots, Recurs v u x

/-- What was done in a group is one step of the history. -/
structure OneStep (h : HistoryId) (r : Registry S) (roots : List Handle) (w w' : Workspace S)
    (steps : List (Step Edit)) : Prop where
  closed : ((historyLens h).view w').collected = none
  higher : ((historyLens h).view w').undoCount ≤ ((historyLens h).view w).undoCount + 1
  idle : steps = [] → ((historyLens h).view w').done = ((historyLens h).view w).done ∧
    ((historyLens h).view w').undone = ((historyLens h).view w).undone ∧
    ∀ x ∈ roots, Recurs w w' x
  undone : steps ≠ [] → ∃ u v, move h .undo w' = .ok true u ∧ move h .redo u = .ok true v ∧
    ((∀ x ∈ roots, Recurs w u x) ∨ GoesOn h r roots w steps u) ∧ ∀ x ∈ roots, Recurs w' v x

theorem recurs_all {v : Workspace S} (steady : Language.Steady S)
    (before : v.arena.Sound ∧ v.arena.Depicts roots P)
    (after : w.arena.Sound ∧ w.arena.Depicts roots P) : ∀ x ∈ roots, Recurs v w x :=
  fun _ member => recurs_of_depicts steady before.1 after.1 before.2 after.2 member

/-- A committed step can be taken back and done again. Only where it was merged with the edit
before the group, undo leads further back. -/
theorem commit_undone (steady : Language.Steady S)
    (presents : Presents h r roots w P)
    (closed : ((historyLens h).view w).collected = none) (tended : Tended h r roots w')
    (depicts : w'.arena.Depicts roots P')
    (closed' : ((historyLens h).view w').collected = none)
    (committed : ((historyLens h).view w').done = History.trim ((historyLens h).view w).limit
      (History.push step ((historyLens h).view w).done))
    (connects : step.Connects r P P') (single : ∀ e, step = .single e → steps = [.single e]) :
    ∃ u v, move h .undo w' = .ok true u ∧ move h .redo u = .ok true v ∧
      ((∀ x ∈ roots, Recurs w u x) ∨ GoesOn h r roots w steps u) ∧ ∀ x ∈ roots, Recurs w' v x := by
  obtain ⟨top, rest, trimmed, rfl | ⟨l, old, mid, mid', new, oldItem, midItem, midItem', newItem,
    rest', before, rfl, rfl⟩⟩ := History.commit_cases ((historyLens h).view w).limit step
      ((historyLens h).view w).done
  · obtain ⟨u, v, undone, redone, shown, shown'⟩ :=
      undo_and_redo tended depicts closed' (committed.trans trimmed) connects
    exact ⟨u, v, undone, redone,
      .inl (recurs_all steady ⟨presents.tended.sound, presents.depicts⟩ shown),
      recurs_all steady ⟨tended.sound, depicts⟩ shown'⟩
  · obtain ⟨_, _, ⟨k, rfl, rfl⟩, there, rfl⟩ := Step.connects_single.1 connects
    have merged : (Edit.text l old new oldItem newItem).Connects r
        (P.set l (Sketch.token k old oldItem).canon)
        (P.set l (Sketch.token k new newItem).canon) := by
      have ended := Edit.text_connects (r := r)
        (Page.at?_set there (Sketch.token k new newItem).canon) old oldItem
      rwa [Edit.locator, Page.set_set] at ended
    obtain ⟨u, v, undone, redone, shown, shown'⟩ :=
      undo_and_redo tended depicts closed' (committed.trans trimmed) (Step.connects_single.2 merged)
    obtain ⟨u', ran, earlier⟩ :=
      undo_of_text presents.tended presents.depicts closed before there
    refine ⟨u, v, undone, redone, .inr ⟨?_, ?_, ?_⟩,
      recurs_all steady ⟨tended.sound, depicts⟩ shown'⟩
    · exact ⟨_, _, _, _, _, _, _, _, _, _, before, single _ rfl⟩
    · exact ⟨u', ran, recurs_all steady earlier shown⟩
    · intro v edit rest M Q onTop sound started ended connects
      cases before.symm.trans onTop
      rw [ended.unique presents.depicts] at connects
      rw [Edit.page_before_text connects there] at started
      exact recurs_all steady ⟨sound, started⟩ shown

theorem oneStep_of_takes (description : String) (steady : Language.Steady S)
    (presents : Presents h r roots w P)
    (closed : ((historyLens h).view w).collected = none)
    (takes : History.Takes r ((historyLens h).view w).begin P ((historyLens h).view w₁) P')
    (collected : ((historyLens h).view w₁).collected = some steps) (tended : Tended h r roots w')
    (depicts : w'.arena.Depicts roots P')
    (ended : (historyLens h).view w' = ((historyLens h).view w₁).close description steps) :
    OneStep h r roots w w' steps := by
  obtain ⟨steps', same, done, rest, linked⟩ := takes.opened [] rfl
  cases collected.symm.trans same
  have before : ((historyLens h).view w₁).done = ((historyLens h).view w).done := done
  rcases rest with ⟨rfl, undone, rfl⟩ | ⟨filled, undone⟩
  · have undone : ((historyLens h).view w₁).undone = ((historyLens h).view w).undone := undone
    constructor
    · rw [ended]
      rfl
    · simp [ended, History.close, History.undoCount, before]
    · intro _
      refine ⟨?_, ?_, recurs_all steady ⟨presents.tended.sound, presents.depicts⟩
        ⟨tended.sound, depicts⟩⟩ <;> simp [ended, History.close, before, undone]
    · exact fun filled => absurd rfl filled
  · obtain ⟨step, connects, single, closes⟩ :=
      History.close_commits description (linked P rfl) filled
    have limit : ((historyLens h).view w₁).limit = ((historyLens h).view w).limit := takes.limit
    have committed : ((historyLens h).view w').done = History.trim ((historyLens h).view w).limit
        (History.push step ((historyLens h).view w).done) := by
      simp [ended, closes, History.commit, before, limit]
    have closed' : ((historyLens h).view w').collected = none := by
      simp [ended, closes, History.commit]
    constructor
    · exact closed'
    · rw [History.undoCount, committed]
      exact Nat.le_trans (History.trim_length_le _ _) (History.push_length step _)
    · exact fun empty => absurd empty filled
    · exact fun _ =>
        commit_undone steady presents closed tended depicts closed' committed connects single

theorem Orderly.congr (orderly : Orderly h r roots w) (arena : w'.arena = w.arena)
    (contexts : w'.contexts = w.contexts) : Orderly h r roots w' :=
  ⟨orderly.toTended.congr arena contexts, arena ▸ orderly.known⟩

section

open Sample

/-- To add a word and to type it, and then to remove an item that is not there. -/
def fillWords : Editing expression Unit := do
  perform (.openItem ⟨0, 0⟩ 0)
  perform (.typeText ⟨1, 0⟩ "ab")
  perform (.removeAt ⟨0, 0⟩ 7)

def filledWords : Workspace expression :=
  performAll [.openItem ⟨0, 0⟩ 0, .typeText ⟨1, 0⟩ "ab"] (noWords.grouping ⟨0, 0⟩)

theorem filledWords_session :
    Session 0 defaultRegistry [⟨0, 0⟩] true (noWords.grouping ⟨0, 0⟩) filledWords := by
  have orderly : Orderly 0 defaultRegistry [⟨0, 0⟩]
      (performAll [.openItem ⟨0, 0⟩ 0] (noWords.grouping ⟨0, 0⟩)) :=
    oneWord_orderly.congr rfl rfl
  have added : (perform (.openItem ⟨0, 0⟩ 0)).Ends (noWords.grouping ⟨0, 0⟩)
      (performAll [.openItem ⟨0, 0⟩ 0] (noWords.grouping ⟨0, 0⟩)) := .inl ⟨(), rfl⟩
  have typed : (perform (.typeText ⟨1, 0⟩ "ab")).Ends
      (performAll [.openItem ⟨0, 0⟩ 0] (noWords.grouping ⟨0, 0⟩)) filledWords := .inl ⟨(), rfl⟩
  have below : (performAll [.openItem ⟨0, 0⟩ 0]
      (noWords.grouping ⟨0, 0⟩)).arena.links.Within ⟨0, 0⟩ ⟨1, 0⟩ := .step rfl rfl .here
  exact .request (.request (.refl true _) rfl (List.mem_singleton.2 rfl) .here added orderly) rfl
    (List.mem_singleton.2 rfl) below typed (typedWord_orderly.congr rfl rfl)

/-- A group that only types on is merged with the typing before it. -/
example : ((historyLens 0).view ((asOneStep ⟨0, 0⟩ "Type"
    (perform (.typeText ⟨1, 0⟩ "abc"))).after typedWord)).undoCount =
    ((historyLens 0).view typedWord).undoCount := by decide +kernel

end

end Workspace

end StructureEditor
