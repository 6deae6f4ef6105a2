import StructureEditor.Arena.Query
import StructureEditor.Proofs.Forest
import Mathlib.Data.List.Nodup
import Mathlib.Data.List.Perm.Subperm

/-! The arena seen through its handles: what allocating, changing and releasing do to the
table of live editors, and what disposing of a whole subtree does. -/
namespace StructureEditor

variable {S : Signature}

def Editor.blank (editor : Editor S) : Editor S := { editor with result := .errBelow }

def Editor.place (editor : Editor S) : Place := ⟨editor.parent, editor.state.children⟩

namespace Arena

variable {a a₀ : Arena S} {id x : Handle} {editor : Editor S}

/-- The free list holds the empty slots, each once. -/
def Exact (a : Arena S) : Prop :=
  a.free.Nodup ∧ ∀ index, index ∈ a.free ↔ ∃ generation, a.slots[index]? = some ⟨generation, none⟩

/-- The live editors without their results. -/
def outline (a : Arena S) (x : Handle) : Option (Editor S) := (a.get? x).map Editor.blank

def links (a : Arena S) : Links := fun x => (a.get? x).map Editor.place

theorem outline_of_get? (found : a.get? x = some editor) : a.outline x = some editor.blank := by
  simp [outline, found]

theorem links_of_get? (found : a.get? x = some editor) : a.links x = some editor.place := by
  simp [links, found]

theorem links_eq_none_iff : a.links x = none ↔ a.get? x = none := by
  simp [links]

theorem get?_of_links {place : Place} (found : a.links x = some place) :
    ∃ editor, a.get? x = some editor ∧ editor.place = place := by
  simpa [links] using found

theorem live_within {top : Handle} (found : a.get? top = some editor)
    (within : a.links.Within top x) : ∃ below, a.get? x = some below := by
  obtain ⟨place, placed⟩ := within.live (links_of_get? found)
  obtain ⟨below, isLive, _⟩ := get?_of_links placed
  exact ⟨below, isLive⟩

theorem live_child {c : Handle} (forest : a.links.Forest) (found : a.get? x = some editor)
    (member : c ∈ editor.state.children) :
    ∃ child, a.get? c = some child ∧ child.parent = some x := by
  obtain ⟨place, placed, hasParent⟩ := forest.linked (links_of_get? found) member
  obtain ⟨child, isLive, rfl⟩ := get?_of_links placed
  exact ⟨child, isLive, hasParent⟩

theorem links_eq_outline (a : Arena S) (x : Handle) :
    a.links x = (a.outline x).map Editor.place := by
  simp only [links, outline, Option.map_map]
  rfl

theorem outline_eq_none_iff : a.outline x = none ↔ a.get? x = none := by
  simp [outline]

theorem get?_of_outline {rest : Editor S} (found : a.outline x = some rest) :
    ∃ editor, a.get? x = some editor ∧ editor.blank = rest := by
  simpa [outline] using found

theorem kept_of_outline (kept : a.outline x = some editor.blank) :
    ∃ editor', a.get? x = some editor' ∧ editor'.state = editor.state ∧
      editor'.context = editor.context ∧ editor'.parent = editor.parent := by
  obtain ⟨editor', found, same⟩ := get?_of_outline kept
  have state : editor'.blank.state = editor.blank.state := by rw [same]
  have context : editor'.blank.context = editor.blank.context := by rw [same]
  have parent : editor'.blank.parent = editor.blank.parent := by rw [same]
  exact ⟨editor', found, state, context, parent⟩

def state? (a : Arena S) (x : Handle) : Option (EditorState S) := (a.get? x).map (·.state)

theorem state?_of_get? (found : a.get? x = some editor) : a.state? x = some editor.state := by
  simp [state?, found]

theorem get?_of_state? {state : EditorState S} (found : a.state? x = some state) :
    ∃ editor, a.get? x = some editor ∧ editor.state = state := by
  simpa [state?] using found

theorem state?_of_outline (found : a.outline x = some editor) : a.state? x = some editor.state := by
  obtain ⟨e, isLive, rfl⟩ := get?_of_outline found
  simp [state?, isLive, Editor.blank]

theorem state?_congr {b : Arena S} (same : b.outline x = a.outline x) :
    b.state? x = a.state? x := by
  have state : ∀ c : Arena S, c.state? x = (c.outline x).map (·.state) := by
    intro c
    simp only [state?, outline, Option.map_map]
    rfl
  rw [state, state, same]

theorem handle_eq_of_index {y : Handle} {other : Editor S} (found : a.get? x = some editor)
    (found' : a.get? y = some other) (same : x.index = y.index) : x = y := by
  have held := slot_of_get? found
  have held' := slot_of_get? found'
  rw [same, held'] at held
  cases x
  cases y
  simp_all

theorem get?_of_slot {slot : Slot S} (held : a.slots[x.index]? = some slot) :
    a.get? x = if slot.generation = x.generation then slot.editor else none := by
  simp only [get?, held]

theorem get?_of_no_slot (held : a.slots[x.index]? = none) : a.get? x = none := by
  simp only [get?, held]

theorem generation_ne {y : Handle} (different : x ≠ y) (same : x.index = y.index) :
    y.generation ≠ x.generation := by
  intro sameTenant
  apply different
  cases x
  cases y
  simp_all

theorem size_slots_modify (id : Handle) (f : Editor S → Editor S) (a : Arena S) :
    (a.modify id f).slots.size = a.slots.size := by
  unfold modify
  split <;> simp

theorem get?_modify (id : Handle) (f : Editor S → Editor S) (a : Arena S) (x : Handle) :
    (a.modify id f).get? x = if x = id then (a.get? x).map f else a.get? x := by
  split
  · next same =>
    subst same
    cases found : a.get? x with
    | none => simp [modify, found]
    | some editor => simpa using get?_modify_self f found
  · next different => exact get?_modify_of_ne f different

theorem get?_release (id : Handle) (a : Arena S) (x : Handle) :
    (a.release id).get? x = if x = id then none else a.get? x := by
  split
  · next same => rw [same, get?_release_self]
  · next different =>
    by_cases sameSlot : x.index = id.index
    · unfold release
      split
      · next alive =>
        obtain ⟨editor, found⟩ := contains_iff.1 alive
        have held := slot_of_get? found
        rw [← sameSlot] at held ⊢
        have inside := (Array.getElem?_eq_some_iff.1 held).1
        rw [get?_of_slot held, if_neg (generation_ne different sameSlot)]
        simp [get?, inside]
      · rfl
    · exact get?_release_of_ne sameSlot

theorem exact_modify (exact : a.Exact) (id : Handle) (f : Editor S → Editor S) :
    (a.modify id f).Exact := by
  unfold modify
  split
  · next editor found =>
    refine ⟨exact.1, fun index => ?_⟩
    have held := slot_of_get? found
    have inside := index_lt_of_get? found
    rw [exact.2 index]
    by_cases same : id.index = index
    · subst same
      rw [held]
      simp [inside]
    · simp [same]
  · exact exact

theorem exact_release (exact : a.Exact) (id : Handle) : (a.release id).Exact := by
  unfold release
  split
  · next alive =>
    obtain ⟨editor, found⟩ := contains_iff.1 alive
    have held := slot_of_get? found
    have inside := index_lt_of_get? found
    constructor
    · refine List.nodup_cons.2 ⟨?_, exact.1⟩
      intro member
      obtain ⟨generation, empty⟩ := (exact.2 _).1 member
      rw [held] at empty
      cases empty
    · intro index
      by_cases same : id.index = index
      · subst same
        simp [inside]
      · have other : index ≠ id.index := Ne.symm same
        simp [same, other, exact.2 index]
  · exact exact

theorem allocate_spec (exact : a.Exact) (editor : Editor S) :
    (a.allocate editor).2.Exact ∧ a.get? (a.allocate editor).1 = none ∧
      (a.allocate editor).2.get? (a.allocate editor).1 = some editor ∧
      ∀ y, y ≠ (a.allocate editor).1 → (a.allocate editor).2.get? y = a.get? y := by
  unfold allocate
  split
  · next index free isFree =>
    obtain ⟨generation, empty⟩ := (exact.2 index).1 (by simp [isFree])
    have inside : index < a.slots.size := (Array.getElem?_eq_some_iff.1 empty).1
    have apart := exact.1
    rw [isFree] at apart
    obtain ⟨unlisted, nodup⟩ := List.nodup_cons.1 apart
    simp only [empty, Option.elim_some]
    refine ⟨⟨nodup, fun other => ?_⟩, ?_, ?_, ?_⟩
    · by_cases same : index = other
      · subst same
        simp [inside, unlisted]
      · have listed := exact.2 other
        rw [isFree] at listed
        simp only [List.mem_cons, Ne.symm same, false_or] at listed
        simpa [same] using listed
    · simp [get?, empty]
    · simp [get?, inside]
    · intro y different
      by_cases same : y.index = index
      · have newer : generation ≠ y.generation := generation_ne different same
        subst same
        rw [get?_of_slot empty, if_neg newer]
        simp [get?, inside, newer]
      · simp [get?, Ne.symm same]
  · next noneFree =>
    refine ⟨⟨by simp [noneFree], fun index => ?_⟩, ?_, ?_, ?_⟩
    · have listed := exact.2 index
      rw [noneFree] at listed
      simp only [List.not_mem_nil, false_iff, not_exists] at listed
      simp only [noneFree, List.not_mem_nil, false_iff, not_exists]
      intro generation
      rw [Array.getElem?_push]
      split
      · simp
      · exact listed generation
    · simp [get?]
    · simp [get?]
    · intro y different
      by_cases same : y.index = a.slots.size
      · have newer : (0 : UInt32) ≠ y.generation := generation_ne different same
        have beyond : a.slots[y.index]? = none := by simp [same]
        rw [get?_of_no_slot beyond]
        simp [get?, same, newer]
      · simp [get?, Array.getElem?_push, same]

theorem chain_above {l : Links} {n : Nat} (depth : l.Depth x n) :
    ∃ chain : List Handle, chain.length = n + 1 ∧ chain.Nodup ∧
      ∀ y ∈ chain, (∃ place, l y = some place) ∧ l.Within y x := by
  induction depth with
  | @root x place found _ => exact ⟨[x], rfl, by simp, by simpa using ⟨⟨place, found⟩, .here⟩⟩
  | @step x p n place found hasParent above ih =>
    obtain ⟨chain, length, nodup, members⟩ := ih
    refine ⟨x :: chain, by simp [length], List.nodup_cons.2 ⟨?_, nodup⟩, ?_⟩
    · intro member
      exact Links.not_within_child (.step found hasParent above) found hasParent
        (members x member).2
    · intro y member
      rcases List.mem_cons.1 member with rfl | member
      · exact ⟨⟨place, found⟩, .here⟩
      · exact ⟨(members y member).1, .step found hasParent (members y member).2⟩

theorem length_le_countP {α : Type} (test : α → Bool) (items : List α) (indices : List Nat)
    (distinct : indices.Nodup)
    (hits : ∀ index ∈ indices, ∃ item, items[index]? = some item ∧ test item = true) :
    indices.length ≤ items.countP test := by
  have subset : indices ⊆ (List.range items.length).filter fun index =>
      (items[index]?).any test := by
    intro index member
    obtain ⟨item, found, passes⟩ := hits index member
    simp only [List.mem_filter, List.mem_range, found, Option.any_some, passes, and_true]
    exact (List.getElem?_eq_some_iff.1 found).1
  have reread : (List.range items.length).map (fun index => items[index]?) = items.map some := by
    apply List.ext_getElem?
    intro index
    by_cases inside : index < items.length <;> simp [inside]
  calc indices.length
      ≤ ((List.range items.length).filter fun index => (items[index]?).any test).length :=
        (List.subperm_of_subset distinct subset).length_le
    _ = ((List.range items.length).map fun index => items[index]?).countP (·.any test) := by
        rw [List.countP_map, List.countP_eq_length_filter]
        rfl
    _ = items.countP test := by
        rw [reread, List.countP_map]
        rfl

theorem depth_lt_size {n : Nat} (depth : a.links.Depth x n) : n < a.size := by
  obtain ⟨chain, length, distinct, members⟩ := chain_above depth
  have injective : (chain.map Handle.index).Nodup := by
    refine (List.nodup_map_iff_inj_on distinct).2 ?_
    intro y first z second same
    obtain ⟨_, found⟩ := (members y first).1
    obtain ⟨_, found'⟩ := (members z second).1
    obtain ⟨e, isLive, _⟩ := get?_of_links found
    obtain ⟨e', isLive', _⟩ := get?_of_links found'
    exact handle_eq_of_index isLive isLive' same
  have bound := length_le_countP (fun slot : Slot S => slot.editor.isSome) a.slots.toList
    (chain.map Handle.index) injective ?_
  · rw [List.length_map, length, Array.countP_toList] at bound
    exact bound
  · intro index member
    obtain ⟨y, inChain, rfl⟩ := List.mem_map.1 member
    obtain ⟨_, found⟩ := (members y inChain).1
    obtain ⟨editor, isLive, _⟩ := get?_of_links found
    exact ⟨_, by simpa using slot_of_get? isLive, rfl⟩

theorem size_le_slots (a : Arena S) : a.size ≤ a.slots.size := Array.countP_le_size

/-! Disposing. The table is read off an arena `a₀` that is a forest; the arena worked on need
only agree with it on the subtree in question, as its parent may be changed already. -/

theorem exact_disposeWithin (steps : Nat) (id : Handle) (exact : a.Exact) :
    (a.disposeWithin steps id).Exact := by
  induction steps generalizing id a with
  | zero => exact exact
  | succ steps ih =>
    simp only [disposeWithin]
    split
    · next editor _ =>
      apply exact_release
      exact List.foldlRecOn editor.state.children _ exact fun b exact c _ => ih c exact
    · exact exact

theorem get?_disposeAll {place : Place} {p : Handle} {free : Handle → Arena S → Arena S}
    (forest : a₀.links.Forest) (found : a₀.links p = some place)
    (each : ∀ c ∈ place.children, ∀ b : Arena S,
      (∀ y, a₀.links.Within c y → b.get? y = a₀.get? y) →
      (∀ y, a₀.links.Within c y → (free c b).get? y = none) ∧
      (∀ y, ¬ a₀.links.Within c y → (free c b).get? y = b.get? y))
    (kids : List Handle) (listed : ∀ c ∈ kids, c ∈ place.children) (distinct : kids.Nodup)
    (b : Arena S) (agree : ∀ c ∈ kids, ∀ y, a₀.links.Within c y → b.get? y = a₀.get? y) :
    (∀ c ∈ kids, ∀ y, a₀.links.Within c y →
      (kids.foldl (fun b c => free c b) b).get? y = none) ∧
    (∀ y, (∀ c ∈ kids, ¬ a₀.links.Within c y) →
      (kids.foldl (fun b c => free c b) b).get? y = b.get? y) := by
  induction kids generalizing b with
  | nil => exact ⟨fun c member => (nomatch member), fun y _ => rfl⟩
  | cons c rest ih =>
    obtain ⟨unlisted, distinct⟩ := List.nodup_cons.1 distinct
    obtain ⟨gone, kept⟩ := each c (listed c (by simp)) b (agree c (by simp))
    have apart : ∀ d ∈ rest, ∀ y, a₀.links.Within d y → ¬ a₀.links.Within c y := by
      intro d member y within
      refine forest.siblings_apart found (listed d (by simp [member])) (listed c (by simp)) ?_ within
      rintro rfl
      exact unlisted member
    obtain ⟨goneRest, keptRest⟩ := ih (fun d member => listed d (by simp [member])) distinct
      (free c b) fun d member y within => by
        rw [kept y (apart d member y within)]
        exact agree d (by simp [member]) y within
    refine ⟨?_, ?_⟩
    · intro d member y within
      rw [List.foldl_cons]
      rcases List.mem_cons.1 member with rfl | member
      · rw [keptRest y fun e inRest within' => apart e inRest y within' within]
        exact gone y within
      · exact goneRest d member y within
    · intro y outside
      rw [List.foldl_cons, keptRest y fun d member => outside d (by simp [member])]
      exact kept y (outside c (by simp))

theorem get?_disposeWithin {steps n : Nat} (forest : a₀.links.Forest)
    (depth : a₀.links.Depth id n) (enough : a₀.size ≤ steps + n)
    (agree : ∀ y, a₀.links.Within id y → a.get? y = a₀.get? y) :
    (∀ y, a₀.links.Within id y → (a.disposeWithin steps id).get? y = none) ∧
    (∀ y, ¬ a₀.links.Within id y → (a.disposeWithin steps id).get? y = a.get? y) := by
  induction steps generalizing id a n with
  | zero =>
    have := depth_lt_size depth
    omega
  | succ steps ih =>
    obtain ⟨place, found⟩ := depth.live
    obtain ⟨editor, isLive, rfl⟩ := get?_of_links found
    have below : ∀ c ∈ editor.place.children, ∀ b : Arena S,
        (∀ y, a₀.links.Within c y → b.get? y = a₀.get? y) →
        (∀ y, a₀.links.Within c y → (b.disposeWithin steps c).get? y = none) ∧
        (∀ y, ¬ a₀.links.Within c y → (b.disposeWithin steps c).get? y = b.get? y) := by
      intro c member b agree
      exact ih (forest.depth_of_child found member depth) (by omega) agree
    obtain ⟨gone, kept⟩ := get?_disposeAll forest found below editor.state.children
      (fun c member => member) (forest.distinct found) a fun c member y within =>
        agree y ((forest.within_of_child found member).trans within)
    have here : a.get? id = some editor := (agree id .here).trans isLive
    simp only [disposeWithin, here]
    constructor
    · intro y within
      rw [get?_release]
      split
      · rfl
      · next other =>
        rcases (forest.within_iff found).1 within with same | ⟨c, member, within⟩
        · exact absurd same other
        · exact gone c member y within
    · intro y outside
      rw [get?_release, if_neg]
      · apply kept
        intro c member within
        exact outside ((forest.within_of_child found member).trans within)
      · rintro rfl
        exact outside .here

/-- Disposing of an editor frees exactly its subtree. -/
theorem get?_dispose (forest : a₀.links.Forest) (isLive : a₀.get? id = some editor)
    (sameSlots : a.slots.size = a₀.slots.size)
    (agree : ∀ y, a₀.links.Within id y → a.get? y = a₀.get? y) :
    (∀ y, a₀.links.Within id y → (a.dispose id).get? y = none) ∧
    (∀ y, ¬ a₀.links.Within id y → (a.dispose id).get? y = a.get? y) := by
  obtain ⟨n, depth⟩ := forest.rooted (links_of_get? isLive)
  have bound := size_le_slots a₀
  exact get?_disposeWithin forest depth (by simp only [reach]; omega) agree

end Arena

end StructureEditor
