import StructureEditor.Proofs.Sessions

/-! Chronicles. A session leaves a chain of states behind: each recorded step cuts off what was
undone and adds the state that it led to, and undo and redo go back and forth in the chain. -/
namespace StructureEditor.Workspace

variable {S : Signature} [Language S] {w₀ w w' : Workspace S} {h : HistoryId} {r : Registry S}
  {roots : List Handle} {P P' M : Page S} {past future others : List (Page S)}
  {chain : List (Workspace S)} {place limit : Nat} {merged : Bool} {direction : Direction}

/-- What a session does outside of its groups: something on a document, which leads to a state, or
a move in the history. -/
inductive Act (S : Signature) where
  | operation (after : Workspace S)
  | move (direction : Direction)

/-- One operation below some roots, one action recorded as a whole, or one group of these. -/
inductive Operates (h : HistoryId) (r : Registry S) (roots : List Handle) :
    Workspace S → Workspace S → Prop where
  | request {w w' : Workspace S} {request : Request S} {id root : Handle} :
      request.edited? = some id → root ∈ roots → w.arena.links.Within root id →
      (perform request).Ends w w' → Orderly h r roots w' → Operates h r roots w w'
  | replacing {α : Type} {w w₁ w' : Workspace S} {id root : Handle} {description : String}
      {action : Editing S α} {value : α} :
      root ∈ roots → w.arena.links.Within root id → action (w.pausing id) = .ok value w₁ →
      Confined (w.pausing id) w₁ id → (replacing id description action).Ends w w' →
      Orderly h r roots w' → Operates h r roots w w'
  | group {α : Type} {w w₁ w' : Workspace S} {id root : Handle} {description : String}
      {action : Editing S α} :
      root ∈ roots → w.arena.links.Within root id → action.Ends (w.grouping id) w₁ →
      Session h r roots true (w.grouping id) w₁ → (asOneStep id description action).Ends w w' →
      Orderly h r roots w' → Operates h r roots w w'

inductive Performs (h : HistoryId) (r : Registry S) (roots : List Handle) (w₀ : Workspace S) :
    List (Act S) → Workspace S → Prop where
  | start : Performs h r roots w₀ [] w₀
  | operation {acts : List (Act S)} {w w' : Workspace S} : Performs h r roots w₀ acts w →
      Operates h r roots w w' → Performs h r roots w₀ (.operation w' :: acts) w'
  | move {acts : List (Act S)} {w : Workspace S} (direction : Direction) :
      Performs h r roots w₀ acts w →
      Performs h r roots w₀ (.move direction :: acts) ((Workspace.move h direction).after w)

variable {acts : List (Act S)}

theorem Session.performs {grouped : Bool} (session : Session h r roots grouped w₀ w)
    (isTop : grouped = false) : ∃ acts, Performs h r roots w₀ acts w := by
  induction session with
  | refl => exact ⟨[], .start⟩
  | request _ edits member within ends orderly ih =>
    obtain ⟨acts, performs⟩ := ih isTop
    exact ⟨_, performs.operation (.request edits member within ends orderly)⟩
  | replacing _ member within ran changed ends orderly ih =>
    obtain ⟨acts, performs⟩ := ih isTop
    exact ⟨_, performs.operation (.replacing member within ran changed ends orderly)⟩
  | group _ member within ended inside ends orderly ih =>
    obtain ⟨acts, performs⟩ := ih isTop
    exact ⟨_, performs.operation (.group member within ended inside ends orderly)⟩
  | move direction _ ih =>
    obtain ⟨acts, performs⟩ := ih isTop
    exact ⟨_, performs.move direction⟩

theorem Operates.steps (operates : Operates h r roots w w') (tidy : Language.Tidy S)
    (presents : Presents h r roots w P) (ready : Ready h w) : Steps h r roots P w w' := by
  cases operates with
  | request edits member within ends orderly =>
    exact orderly.steps
      ((perform_records tidy presents ready member within edits).ends ends orderly.fine)
  | replacing member within ran changed ends orderly =>
    exact replacing_steps presents ready member within ran changed ends orderly
  | group member within ended inside ends orderly =>
    exact group_steps presents ready member within ended (inside.steps tidy rfl) ends orderly

def nextPlace (count place : Nat) : Direction → Option Nat
  | .undo => if 0 < place then some (place - 1) else none
  | .redo => if place + 1 < count then some (place + 1) else none

/-- The history of some roots between the pages that it brings back, the nearest ones first. -/
structure Timeline (h : HistoryId) (r : Registry S) (roots : List Handle) (past : List (Page S))
    (P : Page S) (future : List (Page S)) (w : Workspace S) : Prop where
  tended : Tended h r roots w
  depicts : w.arena.Depicts roots P
  ready : Ready h w
  closed : ((historyLens h).view w).collected = none
  behind : History.Along r .undo ((historyLens h).view w).done past P
  ahead : History.Along r .redo ((historyLens h).view w).undone future P

def pages (past : List (Page S)) (P : Page S) (future : List (Page S)) : List (Page S) :=
  past.reverse ++ P :: future

omit [Language S] in
theorem length_pages (past : List (Page S)) (P : Page S) (future : List (Page S)) :
    (pages past P future).length = past.length + future.length + 1 := by
  simp only [pages, List.length_append, List.length_reverse, List.length_cons]
  omega

theorem Timeline.goes (timeline : Timeline h r roots past P future w) (direction : Direction)
    (along : History.Along r direction (History.ahead direction ((historyLens h).view w))
      (M :: others) P) :
    ∃ step rest w', Workspace.move h direction w = .ok true w' ∧ Tended h r roots w' ∧
      w'.arena.Depicts roots M ∧ Ready h w' ∧ ((historyLens h).view w').collected = none ∧
      step.Leads r direction P M ∧ History.Along r direction rest others M ∧
      (historyLens h).view w' = History.moved direction step rest ((historyLens h).view w) := by
  cases next : History.ahead direction ((historyLens h).view w) with
  | nil =>
    rw [next] at along
    cases along
  | cons step rest =>
    rw [next] at along
    obtain ⟨w', ran, tended, depicts, view⟩ :=
      move_run timeline.tended timeline.depicts timeline.closed next along.1
    refine ⟨step, rest, w', ran, tended, depicts, ?_, ?_, along.1, along.2, view⟩
    · rw [Ready, view]
      cases direction <;> exact timeline.ready
    · rw [view]
      cases direction <;> exact timeline.closed

theorem Timeline.stays (timeline : Timeline h r roots past P future w) (direction : Direction)
    (along : History.Along r direction (History.ahead direction ((historyLens h).view w)) [] P) :
    Workspace.move h direction w = .ok false w :=
  move_none timeline.closed (List.length_eq_zero_iff.1 along.length.symm)

theorem Timeline.back (timeline : Timeline h r roots (M :: past) P future w) :
    ∃ w', Workspace.move h .undo w = .ok true w' ∧
      Timeline h r roots past M (P :: future) w' := by
  obtain ⟨step, rest, w', ran, tended, depicts, ready, closed, leads, behind, view⟩ :=
    timeline.goes .undo timeline.behind
  refine ⟨w', ran, tended, depicts, ready, closed, ?_, ?_⟩
  · rw [view]
    exact behind
  · rw [view]
    exact ⟨leads, timeline.ahead⟩

theorem Timeline.onward (timeline : Timeline h r roots past P (M :: future) w) :
    ∃ w', Workspace.move h .redo w = .ok true w' ∧ Timeline h r roots (P :: past) M future w' := by
  obtain ⟨step, rest, w', ran, tended, depicts, ready, closed, leads, ahead, view⟩ :=
    timeline.goes .redo timeline.ahead
  refine ⟨w', ran, tended, depicts, ready, closed, ?_, ?_⟩
  · rw [view]
    exact ⟨leads, timeline.behind⟩
  · rw [view]
    exact ahead

theorem Timeline.move (timeline : Timeline h r roots past P future w) (direction : Direction) :
    ∃ w' past' P' future', Workspace.move h direction w =
        .ok (nextPlace (pages past P future).length past.length direction).isSome w' ∧
      Timeline h r roots past' P' future' w' ∧
      past'.length = (nextPlace (pages past P future).length past.length direction).getD past.length ∧
      pages past' P' future' = pages past P future := by
  have lengths := length_pages past P future
  cases direction with
  | undo =>
    cases past with
    | nil => exact ⟨w, [], P, future, timeline.stays .undo timeline.behind, timeline, rfl, rfl⟩
    | cons M past =>
      obtain ⟨w', ran, timeline'⟩ := timeline.back
      exact ⟨w', past, M, P :: future, ran, timeline', rfl, by simp [pages]⟩
  | redo =>
    cases future with
    | nil =>
      refine ⟨w, past, P, [], ?_, timeline, ?_, rfl⟩
      · simpa [nextPlace, lengths] using timeline.stays .redo timeline.ahead
      · simp [nextPlace, lengths]
    | cons M future =>
      obtain ⟨w', ran, timeline'⟩ := timeline.onward
      have inside : past.length + 1 < (pages past P (M :: future)).length := by
        rw [lengths, List.length_cons]
        omega
      refine ⟨w', P :: past, M, future, ?_, timeline', ?_, ?_⟩
      · simpa [nextPlace, inside] using ran
      · simp [nextPlace, inside]
      · simp [pages]

/-- A state stands at a place of a chain of states: so many steps can be undone, the others
redone, and every root is equal to what it was in the state at this place. -/
structure Stands (h : HistoryId) (roots : List Handle) (chain : List (Workspace S)) (place : Nat)
    (w : Workspace S) : Prop where
  undoable : ((historyLens h).view w).undoCount = place
  redoable : place + ((historyLens h).view w).redoCount + 1 = chain.length
  shown : ∃ v, chain[place]? = some v ∧ ∀ x ∈ roots, Recurs v w x

/-- Undos and redos in any order lead along a chain. Each answers whether there was a step to go,
and ends in a state that stands at the place it leads to. -/
def Retraces (h : HistoryId) (roots : List Handle) (chain : List (Workspace S)) :
    List Direction → Nat → Workspace S → Prop
  | [], place, w => Stands h roots chain place w
  | direction :: rest, place, w => Stands h roots chain place w ∧
    ∃ w', Workspace.move h direction w = .ok (nextPlace chain.length place direction).isSome w' ∧
      Retraces h roots chain rest ((nextPlace chain.length place direction).getD place) w'

def Remembers (h : HistoryId) (r : Registry S) (roots : List Handle) (chain : List (Workspace S))
    (w : Workspace S) : Prop :=
  ∃ past P future, Timeline h r roots past P future w ∧ P.Fine r ∧
    List.Forall₂ (fun v M => v.arena.Sound ∧ v.arena.Depicts roots M) chain (pages past P future)

omit [Language S] in
theorem related_at {R : Workspace S → Page S → Prop}
    (related : List.Forall₂ R chain (pages past P future)) :
    ∃ v, chain[past.length]? = some v ∧ R v P := by
  have here : (pages past P future)[past.length]? = some P := by
    simp [pages]
  obtain ⟨within, same⟩ := List.getElem?_eq_some_iff.1 here
  have inside : past.length < chain.length := related.length_eq ▸ within
  have shown := related.get inside within
  rw [List.get_eq_getElem, List.get_eq_getElem, same] at shown
  exact ⟨_, List.getElem?_eq_getElem inside, shown⟩

theorem Timeline.stands (timeline : Timeline h r roots past P future w) (steady : Language.Steady S)
    (shown : List.Forall₂ (fun v M => v.arena.Sound ∧ v.arena.Depicts roots M) chain
      (pages past P future)) : Stands h roots chain past.length w := by
  have count := timeline.behind.length
  have rest := timeline.ahead.length
  have lengths := shown.length_eq.trans (length_pages past P future)
  obtain ⟨v, here, sound, depicts⟩ := related_at shown
  refine ⟨count.symm, ?_, v, here, fun x member => ?_⟩
  · rw [lengths, History.redoCount, rest]
  · exact recurs_of_depicts steady sound timeline.tended.sound depicts timeline.depicts member

theorem Timeline.retraces (timeline : Timeline h r roots past P future w)
    (steady : Language.Steady S)
    (shown : List.Forall₂ (fun v M => v.arena.Sound ∧ v.arena.Depicts roots M) chain
      (pages past P future)) (moves : List Direction) :
    Retraces h roots chain moves past.length w := by
  induction moves generalizing w past P future with
  | nil => exact timeline.stands steady shown
  | cons direction rest ih =>
    refine ⟨timeline.stands steady shown, ?_⟩
    obtain ⟨w', past', P', future', ran, timeline', place, same⟩ := timeline.move direction
    rw [← shown.length_eq] at ran place
    exact ⟨w', ran, place ▸ ih timeline' (same ▸ shown)⟩

def forgetting (limit : Nat) (states : List (Workspace S)) : List (Workspace S) :=
  if 0 < limit ∧ limit < states.length then states.tail else states

/-- What is left of a chain behind a state that a recorded step leads to from a place. What was
undone is cut off, and so is the state at the place if the step went into the one before; a limit
forgets the oldest state. -/
def retained (limit : Nat) (merged : Bool) (chain : List (Workspace S)) (place : Nat) :
    List (Workspace S) :=
  forgetting limit (chain.take (if merged then place else place + 1))

/-- The chain of states that some acts leave behind, and the place of the present one. An
operation that leaves the history and the roots as they are changes nothing; one that records a
step ends in the last state of the chain; a move only changes the place. -/
inductive Chronicle (h : HistoryId) (roots : List Handle) (w₀ : Workspace S) :
    List (Act S) → Workspace S → List (Workspace S) → Nat → Prop where
  | start : Chronicle h roots w₀ [] w₀ [w₀] 0
  | unrecorded {acts : List (Act S)} {w w' : Workspace S} {chain : List (Workspace S)}
      {place : Nat} : Chronicle h roots w₀ acts w chain place →
      ((historyLens h).view w').done = ((historyLens h).view w).done →
      ((historyLens h).view w').undone = ((historyLens h).view w).undone →
      (∀ x ∈ roots, Recurs w w' x) →
      Chronicle h roots w₀ (.operation w' :: acts) w' chain place
  | recorded {acts : List (Act S)} {w w' : Workspace S} {chain earlier : List (Workspace S)}
      {place : Nat} {hs : History Edit} (step : Step Edit) :
      Chronicle h roots w₀ acts w chain place → (historyLens h).view w = hs →
      ((historyLens h).view w').done = History.trim hs.limit (History.push step hs.done) →
      ((historyLens h).view w').undone = [] →
      retained hs.limit (History.merges step hs.done) chain place = earlier →
      Chronicle h roots w₀ (.operation w' :: acts) w' (earlier ++ [w']) earlier.length
  | moved {acts : List (Act S)} {w : Workspace S} {chain : List (Workspace S)} {place : Nat}
      (direction : Direction) : Chronicle h roots w₀ acts w chain place →
      Chronicle h roots w₀ (.move direction :: acts) ((move h direction).after w) chain
        ((nextPlace chain.length place direction).getD place)

omit [Language S] in
theorem mem_of_mem_forgetting {v : Workspace S} {states : List (Workspace S)}
    (kept : v ∈ forgetting limit states) : v ∈ states := by
  unfold forgetting at kept
  split at kept
  · exact List.mem_of_mem_tail kept
  · exact kept

omit [Language S] in
theorem mem_of_mem_retained {v : Workspace S} (kept : v ∈ retained limit merged chain place) :
    v ∈ chain := List.mem_of_mem_take (mem_of_mem_forgetting kept)

omit [Language S] in
theorem forgetting_shows {R : Workspace S → Page S → Prop} {states : List (Workspace S)}
    {stack : List (Page S)} (related : List.Forall₂ R states stack.reverse) (limit : Nat) :
    List.Forall₂ R (forgetting limit states) (History.trim limit stack).reverse := by
  have lengths := related.length_eq.trans (List.length_reverse ..)
  rw [forgetting, History.trim, lengths]
  split
  · rw [← List.tail_reverse, ← List.drop_one, ← List.drop_one]
    exact List.forall₂_drop 1 related
  · exact related

omit [Language S] in
theorem retained_shows {R : Workspace S → Page S → Prop}
    (related : List.Forall₂ R chain (pages past P future)) (limit : Nat) (merged : Bool) :
    List.Forall₂ R (retained limit merged chain past.length)
      (History.behind limit merged P past).reverse := by
  refine forgetting_shows ?_ limit
  have cut := List.forall₂_take (if merged then past.length else past.length + 1) related
  have page : List.take (past.length + 1) past.reverse = past.reverse :=
    List.take_of_length_le (by simp)
  cases merged <;> simpa [pages, List.take_append, page] using cut

variable {step : Step Edit}

theorem Timeline.recorded (timeline : Timeline h r roots past P future w)
    (presents : Presents h r roots w' P') (ready : Ready h w')
    (closed : ((historyLens h).view w').collected = none) (connects : step.Connects r P P')
    (done : ((historyLens h).view w').done =
      History.trim limit (History.push step ((historyLens h).view w).done))
    (undone : ((historyLens h).view w').undone = []) :
    Timeline h r roots
      (History.behind limit (History.merges step ((historyLens h).view w).done) P past) P' [] w' :=
  ⟨presents.tended, presents.depicts, ready, closed,
    done ▸ timeline.behind.commit connects limit, undone ▸ trivial⟩

def Recounts (h : HistoryId) (r : Registry S) (roots : List Handle) (w₀ : Workspace S)
    (acts : List (Act S)) (w : Workspace S) : Prop :=
  ∃ chain past P future, Chronicle h roots w₀ acts w chain past.length ∧
    Timeline h r roots past P future w ∧
    List.Forall₂ (fun v M => (v.arena.Sound ∧ v.arena.Depicts roots M) ∧ M.Fine r) chain
      (pages past P future)

theorem Recounts.start (orderly : Orderly h r roots w) (new : (historyLens h).view w = { limit }) :
    Recounts h r roots w [] w := by
  obtain ⟨P, presents⟩ := orderly.presents
  refine ⟨[w], [], P, [], .start, ⟨presents.tended, presents.depicts, ?_, ?_, ?_, ?_⟩,
    .cons ⟨⟨presents.tended.sound, presents.depicts⟩, presents.fine⟩ .nil⟩
  · rw [Ready, new]
  · rw [new]
  · rw [new]
    trivial
  · rw [new]
    trivial

theorem Recounts.operation (recounts : Recounts h r roots w₀ acts w)
    (operates : Operates h r roots w w') (steady : Language.Steady S) (tidy : Language.Tidy S) :
    Recounts h r roots w₀ (.operation w' :: acts) w' := by
  obtain ⟨chain, past, P, future, chronicle, timeline, related⟩ := recounts
  obtain ⟨_, _, _, fine⟩ := related_at related
  have presents : Presents h r roots w P := ⟨timeline.tended, timeline.depicts, fine⟩
  have steps := operates.steps tidy presents timeline.ready
  have ready := steps.advances.ready timeline.ready
  obtain ⟨P', presents', takes⟩ := steps
  obtain ⟨closed, ⟨done, undone, rfl⟩ | ⟨step, connects, done, undone⟩⟩ :=
    takes.closed timeline.closed
  · have same := fun x member => recurs_of_depicts (x := x) steady timeline.tended.sound
      presents'.tended.sound timeline.depicts presents'.depicts member
    exact ⟨chain, past, P', future, chronicle.unrecorded done undone same,
      ⟨presents'.tended, presents'.depicts, ready, closed, done ▸ timeline.behind,
        undone ▸ timeline.ahead⟩, related⟩
  · have left := retained_shows related ((historyLens h).view w).limit
      (History.merges step ((historyLens h).view w).done)
    have place := left.length_eq.trans (List.length_reverse ..)
    have recorded := chronicle.recorded step rfl done undone rfl
    rw [place] at recorded
    refine ⟨_, _, P', [], recorded,
      timeline.recorded presents' ready closed connects done undone, ?_⟩
    exact List.rel_append left
      (.cons ⟨⟨presents'.tended.sound, presents'.depicts⟩, presents'.fine⟩ .nil)

theorem Recounts.move (recounts : Recounts h r roots w₀ acts w) (direction : Direction) :
    Recounts h r roots w₀ (.move direction :: acts) ((Workspace.move h direction).after w) := by
  obtain ⟨chain, past, P, future, chronicle, timeline, related⟩ := recounts
  obtain ⟨w', past', P', future', ran, timeline', place, same⟩ := timeline.move direction
  have ended : (Workspace.move h direction).after w = w' := by
    simp only [Action.after, ran]
  have moved := chronicle.moved direction
  rw [ended, related.length_eq, ← place] at moved
  rw [ended]
  exact ⟨chain, past', P', future', moved, timeline', same ▸ related⟩

theorem Performs.recounts (performs : Performs h r roots w acts w') (steady : Language.Steady S)
    (tidy : Language.Tidy S) (orderly : Orderly h r roots w)
    (new : (historyLens h).view w = { limit }) : Recounts h r roots w acts w' := by
  induction performs with
  | start => exact .start orderly new
  | operation _ operates ih => exact ih.operation operates steady tidy
  | move direction _ ih => exact ih.move direction

section

open Sample

/-- The word was typed into twice, which is one step. -/
def retypedWord : Workspace expression := performAll [.typeText ⟨1, 0⟩ "abc"] typedWord

theorem reaches_retypedWord : Reaches {} retypedWord :=
  reaches_typed reaches_typedWord rfl

theorem retypedWord_orderly : Orderly 0 defaultRegistry [⟨0, 0⟩] retypedWord :=
  word_orderly reaches_retypedWord rfl rfl rfl rfl rfl rfl

/-- A word was added and typed into twice, and the typing was taken back. -/
def untypedWord : Workspace expression := (move 0 .undo).after retypedWord

def untypedWordActs : List (Act expression) :=
  [.move .undo, .operation retypedWord, .operation typedWord, .operation oneWord]

theorem untypedWord_performs :
    Performs 0 defaultRegistry [⟨0, 0⟩] noWords untypedWordActs untypedWord := by
  have added : Operates 0 defaultRegistry [⟨0, 0⟩] noWords oneWord :=
    .request rfl (List.mem_singleton.2 rfl) .here
      (show (perform (.openItem ⟨0, 0⟩ 0)).Ends noWords oneWord from .inl ⟨(), rfl⟩) oneWord_orderly
  have typed : Operates 0 defaultRegistry [⟨0, 0⟩] oneWord typedWord :=
    .request rfl (List.mem_singleton.2 rfl) (.step rfl rfl .here)
      (show (perform (.typeText ⟨1, 0⟩ "ab")).Ends oneWord typedWord from .inl ⟨(), rfl⟩)
      typedWord_orderly
  have retyped : Operates 0 defaultRegistry [⟨0, 0⟩] typedWord retypedWord :=
    .request rfl (List.mem_singleton.2 rfl) (.step rfl rfl .here)
      (show (perform (.typeText ⟨1, 0⟩ "abc")).Ends typedWord retypedWord from .inl ⟨(), rfl⟩)
      retypedWord_orderly
  exact .move .undo (.operation (.operation (.operation .start added) typed) retyped)

end

end StructureEditor.Workspace
