import Mathlib.Algebra.GroupWithZero.Nat
import StructureEditor.Proofs.Roots

/-! Counting editors. In a forest every live editor stands below exactly one root, so that the
arena holds just the editors of the documents that the roots show. -/
namespace StructureEditor

variable {S : Signature}

mutual

def Sketch.size : Sketch S → Nat
  | .token .. | .text .. => 1
  | .expanded _ content => 1 + Sketch.size content
  | .compound _ parts => 1 + Sketch.sizeAll parts
  | .list _ items => 1 + Sketch.sizeAll items

def Sketch.sizeAll : List (Sketch S) → Nat
  | [] => 0
  | d :: ds => Sketch.size d + Sketch.sizeAll ds

end

theorem Sketch.sizeAll_eq (ds : List (Sketch S)) : sizeAll ds = (ds.map size).sum := by
  induction ds with
  | nil => rfl
  | cons d ds ih => rw [sizeAll, ih, List.map_cons, List.sum_cons]

namespace Arena

variable {a : Arena S} {x y : Handle} {d : Sketch S} {tops : List Handle} {editor : Editor S}

def tenant (slot : Slot S × Nat) : Option Handle :=
  slot.1.editor.map fun _ => ⟨slot.2, slot.1.generation⟩

def handles (a : Arena S) : List Handle := a.slots.toList.zipIdx.filterMap tenant

theorem length_handles (a : Arena S) : a.handles.length = a.size := by
  have each : ∀ (slots : List (Slot S)) (start : Nat),
      ((slots.zipIdx start).filterMap tenant).length = slots.countP (·.editor.isSome) := by
    intro slots
    induction slots with
    | nil => exact fun _ => rfl
    | cons slot slots ih =>
      intro start
      have rest := ih (start + 1)
      cases held : slot.editor <;> simp [tenant, held, ← rest]
  rw [handles, each, size, Array.countP_toList]

theorem mem_handles : x ∈ a.handles ↔ ∃ editor, a.get? x = some editor := by
  simp only [handles, List.mem_filterMap, Prod.exists, List.mem_zipIdx_iff_getElem?,
    Array.getElem?_toList, tenant, Option.map_eq_some_iff]
  constructor
  · rintro ⟨slot, index, there, editor, held, rfl⟩
    exact ⟨editor, by simp [get?, there, held]⟩
  · rintro ⟨editor, found⟩
    exact ⟨_, x.index, slot_of_get? found, editor, rfl, rfl⟩

theorem le_index_of_tenant {slots : List (Slot S)} {start : Nat}
    (member : x ∈ (slots.zipIdx start).filterMap tenant) : start ≤ x.index := by
  obtain ⟨⟨slot, index⟩, listed, isTenant⟩ := List.mem_filterMap.1 member
  obtain ⟨_, _, rfl⟩ := Option.map_eq_some_iff.1 isTenant
  exact List.le_snd_of_mem_zipIdx listed

theorem nodup_handles (a : Arena S) : a.handles.Nodup := by
  have each : ∀ (slots : List (Slot S)) (start : Nat),
      ((slots.zipIdx start).filterMap tenant).Nodup := by
    intro slots
    induction slots with
    | nil => exact fun _ => List.nodup_nil
    | cons slot slots ih =>
      intro start
      rw [List.zipIdx_cons, List.filterMap_cons]
      cases held : tenant (slot, start) with
      | none => exact ih (start + 1)
      | some x =>
        obtain ⟨_, _, rfl⟩ := Option.map_eq_some_iff.1 held
        refine List.nodup_cons.2 ⟨fun member => ?_, ih (start + 1)⟩
        exact Nat.not_succ_le_self start (le_index_of_tenant member)
  exact each a.slots.toList 0

/-- All editors that stand below some others, each once. -/
structure Covers (a : Arena S) (tops all : List Handle) : Prop where
  distinct : all.Nodup
  mem_iff : ∀ y, y ∈ all ↔ ∃ x ∈ tops, a.links.Within x y

theorem covers_nil (a : Arena S) : a.Covers [] [] := ⟨List.nodup_nil, by simp⟩

theorem Covers.cons {all all' : List Handle} (first : a.Covers [x] all)
    (rest : a.Covers tops all')
    (apart : ∀ y z, a.links.Within x y → z ∈ tops → ¬ a.links.Within z y) :
    a.Covers (x :: tops) (all ++ all') where
  distinct := by
    refine List.nodup_append.2 ⟨first.distinct, rest.distinct, ?_⟩
    rintro y inFirst z inRest rfl
    obtain ⟨x', isTop, within⟩ := (first.mem_iff y).1 inFirst
    obtain ⟨z, member, within'⟩ := (rest.mem_iff y).1 inRest
    obtain rfl := List.mem_singleton.1 isTop
    exact apart y z within member within'
  mem_iff y := by
    simp [first.mem_iff, rest.mem_iff]

theorem Covers.node {all : List Handle} (forest : a.links.Forest) (found : a.get? x = some editor)
    (below : a.Covers editor.state.children all) : a.Covers [x] (x :: all) where
  distinct := by
    refine List.nodup_cons.2 ⟨fun member => ?_, below.distinct⟩
    obtain ⟨c, isChild, within⟩ := (below.mem_iff x).1 member
    exact forest.not_within_of_child (links_of_get? found) isChild within
  mem_iff y := by
    simp only [List.mem_cons, below.mem_iff, List.not_mem_nil, or_false, exists_eq_left]
    exact (forest.within_iff (links_of_get? found)).symm

theorem covers_all {ds : List (Sketch S)} (seen : List.Forall₂ a.Shows tops ds)
    (each : ∀ x ∈ tops, ∀ d ∈ ds, a.Shows x d → ∃ all, a.Covers [x] all ∧ all.length = d.size)
    (distinct : tops.Nodup)
    (apart : ∀ x ∈ tops, ∀ z ∈ tops, x ≠ z → ∀ y, a.links.Within x y → ¬ a.links.Within z y) :
    ∃ all, a.Covers tops all ∧ all.length = (ds.map Sketch.size).sum := by
  induction seen with
  | nil => exact ⟨[], covers_nil a, rfl⟩
  | @cons x d xs ds first _ ih =>
    obtain ⟨notLater, distinct⟩ := List.nodup_cons.1 distinct
    obtain ⟨all, covers, length⟩ := each x (by simp) d (by simp) first
    obtain ⟨all', covers', length'⟩ := ih
      (fun x member d listed => each x (by simp [member]) d (by simp [listed])) distinct
      fun x member z listed => apart x (by simp [member]) z (by simp [listed])
    refine ⟨all ++ all', covers.cons covers' fun y z within member => ?_, ?_⟩
    · refine apart x (by simp) z (by simp [member]) ?_ y within
      rintro rfl
      exact notLater member
    · rw [List.length_append, length, length', List.map_cons, List.sum_cons]

theorem covers_leaf {state : EditorState S} (forest : a.links.Forest)
    (held : a.state? x = some state) (childless : state.children = []) :
    ∃ all, a.Covers [x] all ∧ all.length = 1 := by
  obtain ⟨editor, found, rfl⟩ := get?_of_state? held
  exact ⟨[x], .node forest found (childless ▸ covers_nil a), rfl⟩

theorem covers_branch {state : EditorState S} {ds : List (Sketch S)} (forest : a.links.Forest)
    (held : a.state? x = some state) (seen : List.Forall₂ a.Shows state.children ds)
    (below : ∀ d ∈ ds, ∀ {y}, a.Shows y d → ∃ all, a.Covers [y] all ∧ all.length = d.size) :
    ∃ all, a.Covers [x] all ∧ all.length = 1 + (ds.map Sketch.size).sum := by
  obtain ⟨editor, found, rfl⟩ := get?_of_state? held
  have placed := links_of_get? found
  obtain ⟨all, covers, length⟩ := covers_all seen (fun _ _ d member seen => below d member seen)
    (forest.distinct placed) fun c first c' second different _ =>
      forest.siblings_apart placed first second different
  exact ⟨x :: all, covers.node forest found, by rw [List.length_cons, length, Nat.add_comm]⟩

theorem covers_shown (forest : a.links.Forest) (seen : a.Shows x d) :
    ∃ all, a.Covers [x] all ∧ all.length = d.size := by
  induction d using Sketch.induct generalizing x with
  | token k text item => exact covers_leaf forest seen rfl
  | text k shown item => exact covers_leaf forest seen rfl
  | expanded k content ih =>
    obtain ⟨y, held, seen⟩ := shows_expanded.1 seen
    have whole : ∃ all, a.Covers [x] all ∧ all.length = 1 + ([content].map Sketch.size).sum :=
      covers_branch forest held (.cons seen .nil) fun d member => by
        obtain rfl := List.mem_singleton.1 member
        exact ih
    simpa [Sketch.size] using whole
  | compound k parts ih =>
    obtain ⟨ids, held, seen⟩ := shows_compound.1 seen
    rw [Sketch.size, Sketch.sizeAll_eq]
    exact covers_branch forest held seen fun d member => ih d member
  | list k items ih =>
    obtain ⟨ids, held, seen⟩ := shows_list.1 seen
    rw [Sketch.size, Sketch.sizeAll_eq]
    exact covers_branch forest held seen fun d member => ih d member

theorem isRoot_iff : a.IsRoot x ↔ ∃ editor, a.get? x = some editor ∧ editor.parent = none := by
  constructor
  · rintro ⟨rest, outlined, free⟩
    obtain ⟨editor, found, rfl⟩ := get?_of_outline outlined
    exact ⟨editor, found, free⟩
  · rintro ⟨editor, found, free⟩
    exact isRoot_of_get? found free

theorem IsRoot.eq_of_within (root : a.IsRoot x) (within : a.links.Within y x) : x = y := by
  obtain ⟨editor, isLive, free⟩ := root
  exact Links.within_root_unique (links_of_outline isLive) free within

theorem exists_root (forest : a.links.Forest) (found : a.get? x = some editor) :
    ∃ root, a.IsRoot root ∧ a.links.Within root x := by
  obtain ⟨n, depth⟩ := forest.rooted (links_of_get? found)
  obtain ⟨top, place, _, within, placed, free⟩ := topWithin_spec depth
  obtain ⟨root, isLive, rfl⟩ := get?_of_links placed
  exact ⟨top, isRoot_of_get? isLive free, within⟩

/-- All roots of an arena, each once, with the documents that they show. -/
structure Census (a : Arena S) (roots : List Handle) (documents : List (Sketch S)) : Prop where
  distinct : roots.Nodup
  mem_iff : ∀ x, x ∈ roots ↔ a.IsRoot x
  shown : List.Forall₂ a.Shows roots documents

theorem Census.size_eq {roots : List Handle} {documents : List (Sketch S)}
    (census : a.Census roots documents) (forest : a.links.Forest) :
    a.size = (documents.map Sketch.size).sum := by
  obtain ⟨all, covers, count⟩ := covers_all census.shown
    (fun _ _ _ _ seen => covers_shown forest seen) census.distinct
    fun x first z second different y within within' => by
      rcases within.comparable within' with lower | lower
      · exact different (((census.mem_iff z).1 second).eq_of_within lower).symm
      · exact different (((census.mem_iff x).1 first).eq_of_within lower)
  rw [← count, ← length_handles]
  refine List.Perm.length_eq ((List.perm_ext_iff_of_nodup (nodup_handles a) covers.distinct).2 ?_)
  intro y
  rw [mem_handles, covers.mem_iff]
  constructor
  · rintro ⟨editor, found⟩
    obtain ⟨root, isRoot, within⟩ := exists_root forest found
    exact ⟨root, (census.mem_iff root).2 isRoot, within⟩
  · rintro ⟨root, member, within⟩
    obtain ⟨editor, isLive, _⟩ := (census.mem_iff root).1 member
    obtain ⟨top, found, rfl⟩ := get?_of_outline isLive
    exact live_within found within

theorem exists_census (forest : a.links.Forest) :
    ∃ roots documents, a.Census roots documents := by
  classical
  have isRoot : ∀ x, x ∈ a.handles.filter (a.IsRoot ·) ↔ a.IsRoot x := by
    intro x
    rw [List.mem_filter, decide_eq_true_iff, and_iff_right_iff_imp, mem_handles, isRoot_iff]
    exact fun ⟨editor, found, _⟩ => ⟨editor, found⟩
  have shown : ∀ x ∈ a.handles.filter (a.IsRoot ·), ∃ d, a.Shows x d := fun x member => by
    obtain ⟨editor, found, _⟩ := isRoot_iff.1 ((isRoot x).1 member)
    exact exists_shows forest found
  obtain ⟨documents, seen⟩ := forall₂_of_forall shown
  exact ⟨_, documents, (nodup_handles a).filter _, isRoot, seen⟩

end Arena

end StructureEditor
