import StructureEditor.Proofs.Mirroring

/-! Views that come and go. The calls that attach views to an editor and detach them are kept in a
log, together with the deaths of views; what the editor tells, and to whom, can be read off the log.
The answer of a detachment counts entries, so that a dead view that was not forgotten yet is taken
for the one that is detached. -/
namespace StructureEditor.Workspace

variable {S : Signature} {w w' : Workspace S} {id : Handle} {u v : ViewId}

inductive ViewCall where
  | attach (view : ViewId)
  | detach (view : ViewId)
  | drop (view : ViewId)
  deriving DecidableEq

/-- The views that were attached, are not detached since and were not dropped, as often as they were
attached and in that order. The newest call comes first. -/
def standing : List ViewCall → List ViewId
  | [] => []
  | .attach v :: earlier => standing earlier ++ [v]
  | .detach v :: earlier | .drop v :: earlier => (standing earlier).filter (· ≠ v)

def lingers : List ViewCall → Prop
  | .drop v :: earlier => v ∈ standing earlier ∨ lingers earlier
  | _ => False

/-- The view was attached and not detached since. -/
def AttachedStill (v : ViewId) (log : List ViewCall) : Prop :=
  ∃ later earlier, log = later ++ .attach v :: earlier ∧ .detach v ∉ later

theorem attachedStill_cons {call : ViewCall} {log : List ViewCall} :
    AttachedStill v (call :: log) ↔
      call = .attach v ∨ call ≠ .detach v ∧ AttachedStill v log := by
  constructor
  · rintro ⟨later, earlier, split, kept⟩
    cases later with
    | nil =>
      cases split
      exact .inl rfl
    | cons newest later =>
      cases split
      rw [List.mem_cons, not_or] at kept
      exact .inr ⟨Ne.symm kept.1, later, earlier, rfl, kept.2⟩
  · rintro (rfl | ⟨other, later, earlier, rfl, kept⟩)
    · exact ⟨[], log, rfl, List.not_mem_nil⟩
    · refine ⟨call :: later, earlier, rfl, ?_⟩
      rw [List.mem_cons, not_or]
      exact ⟨Ne.symm other, kept⟩

/-- Of a view that was not dropped the standing attachments say whether it is attached still. -/
theorem mem_standing {log : List ViewCall} (kept : .drop v ∉ log) :
    v ∈ standing log ↔ AttachedStill v log := by
  induction log with
  | nil => simp [standing, AttachedStill]
  | cons call log ih =>
    rw [List.mem_cons, not_or] at kept
    rw [attachedStill_cons, ← ih kept.2]
    cases call with
    | attach u => simp [standing, or_comm, eq_comm (a := v)]
    | detach u => simp [standing, and_comm, eq_comm (a := v)]
    | drop u =>
      have other : v ≠ u := fun same => kept.1 (congrArg ViewCall.drop same)
      simp [standing, other]

def audience (w : Workspace S) (id : Handle) : List ViewId :=
  w.alive ((w.arena.get? id).elim [] (·.views))

theorem tell_audience (id : Handle) (notice : Notice S) (w : Workspace S) :
    tell id notice w =
      .ok () { w with journal := w.journal ++ (w.audience id).map (Event.notice · notice) } := rfl

theorem mem_alive_iff {views : List ViewId} : u ∈ w.alive views ↔ u ∈ views ∧ w.isAlive u :=
  List.mem_filter

theorem alive_alive (views : List ViewId) : w.alive (w.alive views) = w.alive views := by
  simp [alive, List.filter_filter]

theorem alive_filter (p : ViewId → Bool) (views : List ViewId) :
    w.alive (views.filter p) = (w.alive views).filter p := List.filter_comm ..

theorem known_of_isAlive (alive : w.isAlive v) : v < w.views.size := by
  by_contra beyond
  simp [isAlive, Array.getD_eq_getD_getElem?, Array.getElem?_eq_none (Nat.le_of_not_lt beyond)]
    at alive

theorem isAlive_dropView : ((dropView v).after w).isAlive u ↔ w.isAlive u ∧ u ≠ v := by
  change (w.views.setIfInBounds v false).getD u false = true ↔ w.views.getD u false = true ∧ u ≠ v
  simp only [Array.getD_eq_getD_getElem?, Array.getElem?_setIfInBounds]
  by_cases same : v = u
  · subst same
    by_cases inside : v < w.views.size <;> simp [inside]
  · simp [same, Ne.symm same]

theorem detached_answer {views : List ViewId} :
    (w.alive (views.filter (· != v))).length < views.length ↔
      v ∈ views ∨ ∃ u ∈ views, ¬ w.isAlive u := by
  rw [alive, List.filter_filter, List.length_filter_lt_length_iff_exists]
  constructor
  · rintro ⟨u, member, out⟩
    by_cases same : u = v
    · exact .inl (same ▸ member)
    · exact .inr ⟨u, member, by simpa [same, isAlive] using out⟩
  · rintro (member | ⟨u, member, dead⟩)
    · exact ⟨v, member, by simp⟩
    · exact ⟨u, member, by simp [show w.views.getD u false = false by simpa [isAlive] using dead]⟩

structure Unattended (id : Handle) (w w' : Workspace S) : Prop where
  views : ∀ editor, w.arena.get? id = some editor →
    ∃ editor', w'.arena.get? id = some editor' ∧ editor'.views = editor.views
  known : w.views.size ≤ w'.views.size
  lives : ∀ u < w.views.size, w'.isAlive u ↔ w.isAlive u

/-- The calls for an editor that had no views, with anything else in between. Attaching, detaching
and dropping take a view that lives. -/
inductive Attended (id : Handle) : List ViewCall → Workspace S → Prop where
  | start {w : Workspace S} {editor : Editor S} : w.arena.get? id = some editor →
      editor.views = [] → Attended id [] w
  | attach {log : List ViewCall} {w : Workspace S} (v : ViewId) : Attended id log w →
      w.isAlive v → Attended id (.attach v :: log) ((watch id v).after w)
  | detach {log : List ViewCall} {w : Workspace S} (v : ViewId) : Attended id log w →
      w.isAlive v → Attended id (.detach v :: log) ((unwatch id v).after w)
  | drop {log : List ViewCall} {w : Workspace S} (v : ViewId) : Attended id log w →
      w.isAlive v → Attended id (.drop v :: log) ((dropView v).after w)
  | meanwhile {log : List ViewCall} {w w' : Workspace S} : Attended id log w →
      Unattended id w w' → Attended id log w'

structure Holds (log : List ViewCall) (views : List ViewId) (w : Workspace S) : Prop where
  known : ∀ u ∈ views, u < w.views.size
  living : w.alive views = standing log
  lingering : (∃ u ∈ views, ¬ w.isAlive u) ↔ lingers log
  dropped : ∀ u, .drop u ∈ log → u < w.views.size ∧ ¬ w.isAlive u

namespace Holds

variable {log : List ViewCall} {views : List ViewId}

theorem undropped (holds : Holds log views w) (alive : w.isAlive v) : .drop v ∉ log :=
  fun dropped => (holds.dropped v dropped).2 alive

theorem mem_iff (holds : Holds log views w) (alive : w.isAlive v) :
    v ∈ views ↔ AttachedStill v log := by
  rw [← mem_standing (holds.undropped alive), ← holds.living, mem_alive_iff, and_iff_left alive]

theorem no_dead (views : List ViewId) : ¬ ∃ u ∈ w.alive views, ¬ w.isAlive u := by
  rintro ⟨u, member, dead⟩
  exact dead (mem_alive_iff.1 member).2

theorem attach (holds : Holds log views w) (alive : w.isAlive v) (same : w'.views = w.views) :
    Holds (.attach v :: log) (w.alive views ++ [v]) w' := by
  have lives : ∀ u, w'.isAlive u ↔ w.isAlive u := fun u => by rw [isAlive, isAlive, same]
  have living : w'.alive (w.alive views ++ [v]) = w.alive views ++ [v] := by
    rw [Workspace.alive, same, List.filter_append]
    change w.alive (w.alive views) ++ [v].filter _ = _
    rw [alive_alive, List.filter_cons_of_pos (by exact alive), List.filter_nil]
  constructor
  · intro u member
    rw [same]
    rcases List.mem_append.1 member with held | new
    · exact holds.known u (mem_alive_iff.1 held).1
    · exact List.mem_singleton.1 new ▸ known_of_isAlive alive
  · rw [living, holds.living, standing]
  · refine iff_of_false ?_ id
    rw [← living]
    exact no_dead _
  · intro u member
    rw [lives, same]
    exact holds.dropped u (by simpa using member)

theorem detach (holds : Holds log views w) (v : ViewId) (same : w'.views = w.views) :
    Holds (.detach v :: log) (w.alive (views.filter (· != v))) w' := by
  have lives : ∀ u, w'.isAlive u ↔ w.isAlive u := fun u => by rw [isAlive, isAlive, same]
  have living : w'.alive (w.alive (views.filter (· != v))) = w.alive (views.filter (· != v)) := by
    rw [Workspace.alive, same]
    exact alive_alive _
  constructor
  · intro u member
    rw [same]
    exact holds.known u (List.mem_filter.1 (mem_alive_iff.1 member).1).1
  · rw [living, alive_filter, holds.living, standing]
    exact List.filter_congr fun u _ => by by_cases same : u = v <;> simp [same]
  · refine iff_of_false ?_ id
    rw [← living]
    exact no_dead _
  · intro u member
    rw [lives, same]
    exact holds.dropped u (by simpa using member)

theorem drop (holds : Holds log views w) (alive : w.isAlive v) :
    Holds (.drop v :: log) views ((dropView v).after w) := by
  have size : ((dropView v).after w).views.size = w.views.size :=
    Array.size_setIfInBounds
  constructor
  · exact fun u member => size ▸ holds.known u member
  · have living : ((dropView v).after w).alive views = (w.alive views).filter (· ≠ v) := by
      rw [Workspace.alive, Workspace.alive, List.filter_filter]
      refine List.filter_congr fun u _ => ?_
      have lives := isAlive_dropView (w := w) (u := u) (v := v)
      simp only [isAlive] at lives
      rw [Bool.eq_iff_iff, lives]
      simp [and_comm]
    rw [living, holds.living, standing]
  · have here : v ∈ views ↔ v ∈ standing log := by
      rw [← holds.living, mem_alive_iff, and_iff_left alive]
    simp only [isAlive_dropView, not_and_or, not_not, lingers, ← here, ← holds.lingering]
    constructor
    · rintro ⟨u, member, dead | rfl⟩
      · exact .inr ⟨u, member, dead⟩
      · exact .inl member
    · rintro (member | ⟨u, member, dead⟩)
      · exact ⟨v, member, .inr rfl⟩
      · exact ⟨u, member, .inl dead⟩
  · intro u member
    rw [size, isAlive_dropView]
    rcases List.mem_cons.1 member with same | before
    · cases same
      exact ⟨known_of_isAlive alive, fun lives => lives.2 rfl⟩
    · exact ⟨(holds.dropped u before).1, fun lives => (holds.dropped u before).2 lives.1⟩

theorem meanwhile (holds : Holds log views w) (unattended : Unattended id w w') :
    Holds log views w' := by
  have lives : ∀ u ∈ views, w'.isAlive u ↔ w.isAlive u := fun u member =>
    unattended.lives u (holds.known u member)
  constructor
  · exact fun u member => Nat.lt_of_lt_of_le (holds.known u member) unattended.known
  · rw [← holds.living]
    refine List.filter_congr fun u member => ?_
    have same := lives u member
    rwa [isAlive, isAlive, ← Bool.eq_iff_iff] at same
  · rw [← holds.lingering]
    exact exists_congr fun u => and_congr_right fun member => not_congr (lives u member)
  · intro u member
    obtain ⟨known, dead⟩ := holds.dropped u member
    exact ⟨Nat.lt_of_lt_of_le known unattended.known, (not_congr (unattended.lives u known)).2 dead⟩

end Holds

theorem Attended.holds {log : List ViewCall} (run : Attended id log w) :
    ∃ editor, w.arena.get? id = some editor ∧ Holds log editor.views w := by
  induction run with
  | @start w editor found none =>
    refine ⟨editor, found, ?_⟩
    rw [none]
    exact ⟨by simp, rfl, by simp [lingers], by simp⟩
  | attach v _ alive ih =>
    obtain ⟨editor, found, holds⟩ := ih
    rw [Action.after, watch_run found v]
    exact ⟨_, Arena.get?_modify_self _ found, holds.attach alive rfl⟩
  | detach v _ _ ih =>
    obtain ⟨editor, found, holds⟩ := ih
    rw [unwatch_run found v]
    exact ⟨_, Arena.get?_modify_self _ found, holds.detach v rfl⟩
  | drop v _ alive ih =>
    obtain ⟨editor, found, holds⟩ := ih
    exact ⟨editor, found, holds.drop alive⟩
  | meanwhile _ unattended ih =>
    obtain ⟨editor, found, holds⟩ := ih
    obtain ⟨editor', found', same⟩ := unattended.views editor found
    exact ⟨editor', found', same ▸ holds.meanwhile unattended⟩

theorem Attended.audience {log : List ViewCall} (run : Attended id log w) :
    w.audience id = standing log := by
  obtain ⟨editor, found, holds⟩ := run.holds
  rw [Workspace.audience, found, Option.elim_some, holds.living]

theorem Attended.mem_audience {log : List ViewCall} (run : Attended id log w) (alive : w.isAlive v) :
    v ∈ w.audience id ↔ AttachedStill v log := by
  obtain ⟨editor, found, holds⟩ := run.holds
  rw [run.audience, mem_standing (holds.undropped alive)]

theorem not_attachedStill {later earlier : List ViewCall} (notAgain : .attach v ∉ later) :
    ¬ AttachedStill v (later ++ .detach v :: earlier) := by
  induction later with
  | nil => simp [attachedStill_cons]
  | cons call later ih =>
    rw [List.mem_cons, not_or] at notAgain
    rw [List.cons_append, attachedStill_cons]
    rintro (rfl | ⟨_, still⟩)
    · exact notAgain.1 rfl
    · exact ih notAgain.2 still

/-- What a detachment answers and does. The answer is whether the view was attached and not detached
since, except that the death of another attached view makes it true as well, as long as no
attachment or detachment came after that. From then on the view is told nothing until it is attached
again, and every notice is told to the others in the order in which they were attached. -/
theorem detaching_is_exact {log : List ViewCall} (run : Attended id log w) (alive : w.isAlive v) :
    ∃ answer w', unwatch id v w = .ok answer w' ∧
      (answer = true ↔ AttachedStill v log ∨ lingers log) ∧
      w'.audience id = (w.audience id).filter (· ≠ v) ∧
      ∀ later (w'' : Workspace S), Attended id (later ++ .detach v :: log) w'' →
        (∀ notice, tell id notice w'' = .ok () { w'' with
          journal := w''.journal ++ (w''.audience id).map (Event.notice · notice) }) ∧
        w''.audience id = standing (later ++ .detach v :: log) ∧
        (.attach v ∉ later → v ∉ w''.audience id) ∧
        ∀ u, w''.isAlive u →
          (u ∈ w''.audience id ↔ AttachedStill u (later ++ .detach v :: log)) := by
  obtain ⟨editor, found, holds⟩ := run.holds
  have ran : unwatch id v w = .ok (decide ((w.alive (editor.views.filter (· != v))).length <
      editor.views.length)) ((unwatch id v).after w) := by
    rw [unwatch_run found v, unwatch, Action.bind_run_ok _ (lookup_run found)]
    rfl
  refine ⟨_, _, ran, ?_, ?_, fun later w'' after => ⟨fun notice => tell_audience id notice w'',
    after.audience, fun notAgain member => ?_, ?_⟩⟩
  · rw [decide_eq_true_iff, detached_answer, holds.mem_iff alive, holds.lingering]
  · rw [(run.detach v alive).audience, run.audience, standing]
  · have lives : w''.isAlive v := (mem_alive_iff.1 member).2
    exact not_attachedStill notAgain ((after.mem_audience lives).1 member)
  · exact fun u lives => after.mem_audience lives

section

open Sample

def newWord : Workspace expression :=
  performAll [.create (.token TokenName.word) ⟨0, []⟩] { desk with views := #[true, true] }

theorem attended_newWord : Attended ⟨0, 0⟩ [] newWord := by
  have there : (newWord.arena.get? ⟨0, 0⟩).map (·.views) = some [] := by decide +kernel
  obtain ⟨editor, found, none⟩ := Option.map_eq_some_iff.1 there
  exact .start found none

def watchedWord : Workspace expression :=
  (perform (.typeToken ⟨0, 0⟩ "ab" true)).after
    ((watch ⟨0, 0⟩ 1).after ((watch ⟨0, 0⟩ 0).after newWord))

theorem attended_watchedWord : Attended ⟨0, 0⟩ [.attach 1, .attach 0] watchedWord := by
  have first := attended_newWord.attach 0 (by unfold isAlive; decide +kernel)
  have second := first.attach 1 (by unfold isAlive; decide +kernel)
  refine second.meanwhile ⟨fun editor found => ?_, ?_, ?_⟩
  · have before : (((watch ⟨0, 0⟩ 1).after ((watch ⟨0, 0⟩ 0).after newWord)).arena.get?
        ⟨0, 0⟩).map (·.views) = some [0, 1] := by decide +kernel
    have after : (watchedWord.arena.get? ⟨0, 0⟩).map (·.views) = some [0, 1] := by decide +kernel
    rw [found, Option.map_some, Option.some.injEq] at before
    rw [before]
    exact Option.map_eq_some_iff.1 after
  · decide +kernel
  · unfold isAlive
    decide +kernel

theorem watchedWord_detaches : watchedWord.audience ⟨0, 0⟩ = [0, 1] ∧
    ∃ answer w', unwatch ⟨0, 0⟩ 0 watchedWord = .ok answer w' ∧ answer = true ∧
      w'.audience ⟨0, 0⟩ = [1] := by
  have both : watchedWord.audience ⟨0, 0⟩ = [0, 1] := by decide +kernel
  obtain ⟨answer, w', ran, said, told, -⟩ :=
    detaching_is_exact (v := 0) attended_watchedWord (by unfold isAlive; decide +kernel)
  refine ⟨both, answer, w', ran, said.2 (.inl ⟨[.attach 1], [], rfl, by simp⟩), ?_⟩
  rw [told, both]
  rfl

def forsakenWord : Workspace expression :=
  (dropView 0).after ((watch ⟨0, 0⟩ 0).after newWord)

/-- The other view was never attached to the word, but is said to be detached. -/
theorem forsakenWord_misanswers : Attended ⟨0, 0⟩ [.drop 0, .attach 0] forsakenWord ∧
    forsakenWord.isAlive 1 ∧ ¬ AttachedStill 1 [.drop 0, .attach 0] ∧
    ∃ w', unwatch ⟨0, 0⟩ 1 forsakenWord = .ok true w' := by
  have attached := attended_newWord.attach 0 (by unfold isAlive; decide +kernel)
  refine ⟨attached.drop 0 (by unfold isAlive; decide +kernel), by unfold isAlive; decide +kernel, ?_,
    _, Action.run_of_value? (by decide +kernel)⟩
  rw [← mem_standing (by decide)]
  decide

end

end StructureEditor.Workspace
