import StructureEditor.Proofs.Rendering

/-! How large snapshots are: the number of editors that a snapshot speaks of, and the number of its
levels. A document that renders a snapshot is written as one that is no larger, and rendering goes
through such snapshots: what renders the snapshot of a document renders whatever the document
renders. -/
namespace StructureEditor

variable {S : Signature}

namespace Snapshot

mutual

def size : Snapshot → Nat
  | .token .. => 1
  | .expander _ content _ _ _ => sizeOption content + 1
  | .compound _ components => sizeList components + 1
  | .list _ items => sizeList items + 1

def sizeOption : Option Snapshot → Nat
  | none => 0
  | some s => size s

def sizeList : List Snapshot → Nat
  | [] => 0
  | s :: rest => size s + sizeList rest

end

structure NoLarger (t s : Snapshot) : Prop where
  size : t.size ≤ s.size
  depth : t.depth ≤ s.depth

structure Smaller (t s : Snapshot) : Prop where
  size : t.size < s.size
  depth : t.depth < s.depth

variable {s t u : Snapshot}

theorem NoLarger.smaller (first : t.NoLarger s) (second : s.Smaller u) : t.Smaller u :=
  ⟨Nat.lt_of_le_of_lt first.size second.size, Nat.lt_of_le_of_lt first.depth second.depth⟩

theorem size_le_sizeList {ss : List Snapshot} (member : s ∈ ss) : s.size ≤ sizeList ss := by
  induction ss with
  | nil => cases member
  | cons first rest ih =>
    rw [sizeList]
    rcases List.mem_cons.1 member with rfl | later
    · exact Nat.le_add_right _ _
    · exact Nat.le_trans (ih later) (Nat.le_add_left _ _)

theorem smaller_component {name : Option String} {components : List Snapshot}
    (member : s ∈ components) : s.Smaller (.compound name components) :=
  ⟨Nat.lt_succ_of_le (size_le_sizeList member),
    Nat.lt_succ_of_le (Workspace.depth_le_depthList member)⟩

theorem smaller_item {name : Option String} {items : List Snapshot} (member : s ∈ items) :
    s.Smaller (.list name items) :=
  ⟨Nat.lt_succ_of_le (size_le_sizeList member),
    Nat.lt_succ_of_le (Workspace.depth_le_depthList member)⟩

theorem smaller_content (displays : s.display? = some (.expanded t)) : t.Smaller s := by
  cases s with
  | expander name content text itemClass item =>
    cases content with
    | none => cases displays
    | some content =>
      cases displays
      exact ⟨Nat.lt_succ_self _, Nat.lt_succ_self _⟩
  | _ => cases displays

end Snapshot

namespace Sketch

variable [Language S] {d d' : Sketch S} {s : Snapshot}

theorem sizeList_le {ds : List (Sketch S)} {ss : List Snapshot} (renders : RendersAll ds ss)
    (each : ∀ d ∈ ds, ∀ s, d.Renders s → d.toSnapshot.size ≤ s.size) :
    Snapshot.sizeList (toSnapshots ds) ≤ Snapshot.sizeList ss := by
  induction ds generalizing ss with
  | nil => exact Nat.zero_le _
  | cons d rest ih =>
    cases ss with
    | nil => cases renders
    | cons s ss =>
      exact Nat.add_le_add (each d (by simp) s renders.1)
        (ih renders.2 fun d later => each d (by simp [later]))

theorem size_pos (s : Snapshot) : 0 < s.size := by
  cases s <;> exact Nat.succ_pos _

theorem Renders.size_le (renders : d.Renders s) : d.toSnapshot.size ≤ s.size := by
  induction d using Sketch.induct generalizing s with
  | token k text item => exact size_pos s
  | text k shown item => exact size_pos s
  | expanded k content ih =>
    obtain ⟨inner, displays, renders⟩ := renders
    exact Nat.le_trans (Nat.succ_le_succ (ih renders)) (Snapshot.smaller_content displays).size
  | compound k parts ih =>
    cases s with
    | compound name components =>
      exact Nat.succ_le_succ (sizeList_le renders fun d member _ => ih d member)
    | _ => cases renders
  | list k items ih =>
    cases s with
    | list name snapshots =>
      exact Nat.succ_le_succ (sizeList_le renders fun d member _ => ih d member)
    | _ => cases renders

theorem Renders.noLarger (renders : d.Renders s) : d.toSnapshot.NoLarger s :=
  ⟨renders.size_le, renders.depth_le⟩

theorem RendersAll.trans {ds ds' : List (Sketch S)} {ss : List Snapshot}
    (first : RendersAll ds' (toSnapshots ds)) (second : RendersAll ds ss)
    (each : ∀ d ∈ ds, ∀ (d' : Sketch S) s, d'.Renders d.toSnapshot → d.Renders s → d'.Renders s) :
    RendersAll ds' ss := by
  induction ds generalizing ds' ss with
  | nil =>
    cases ss with
    | nil => exact first
    | cons => cases second
  | cons d rest ih =>
    cases ss with
    | nil => cases second
    | cons s ss =>
      cases ds' with
      | nil => cases first
      | cons d' rest' =>
        exact ⟨each d (by simp) d' s first.1 second.1,
          ih first.2 second.2 fun d later => each d (by simp [later])⟩

omit [Language S] in
theorem not_renders_expanded {k : S.ExpanderClass} {content : Sketch S}
    (displays : s.display? = none) : ¬ (expanded k content).Renders s := by
  rintro ⟨inner, shown, _⟩
  cases displays.symm.trans shown

theorem renders_toSnapshot (d : Sketch S) : d.Renders d.toSnapshot := by
  have all : ∀ {ds : List (Sketch S)}, (∀ d ∈ ds, d.Renders d.toSnapshot) →
      RendersAll ds (toSnapshots ds) := by
    intro ds each
    rw [toSnapshots_eq_map, rendersAll_iff, List.forall₂_map_right_iff, List.forall₂_same]
    exact each
  induction d using Sketch.induct with
  | token k shown item =>
    exact congrArg (fun item => some (shown, item)) (Workspace.candidate?_of item)
  | text k shown item =>
    exact congrArg (fun item => some (Display.text shown item)) (Workspace.candidate?_of item)
  | expanded k content ih => exact ⟨content.toSnapshot, rfl, ih⟩
  | compound k parts ih => exact all ih
  | list k items ih => exact all ih

theorem Renders.trans (first : d'.Renders d.toSnapshot) (second : d.Renders s) : d'.Renders s := by
  induction d using Sketch.induct generalizing d' s with
  | token k shown item =>
    cases d' with
    | token k' shown' item' =>
      cases Eq.trans (Eq.symm (renders_toSnapshot (token k shown item))) first
      exact second
    | expanded => exact absurd first (not_renders_expanded rfl)
    | _ => cases first
  | text k shown item =>
    cases d' with
    | text k' shown' item' =>
      cases Eq.trans (Eq.symm (renders_toSnapshot (text k shown item))) first
      exact second
    | expanded =>
      obtain ⟨_, displays, _⟩ := first
      cases displays
    | _ => cases first
  | expanded k content ih =>
    obtain ⟨inner, displays, renders⟩ := second
    cases d' with
    | expanded k' content' =>
      obtain ⟨_, same, renders'⟩ := first
      cases same
      exact ⟨inner, displays, ih renders' renders⟩
    | _ => cases first
  | compound k parts ih =>
    cases s with
    | compound name components =>
      cases d' with
      | compound k' parts' => exact RendersAll.trans first second fun d member _ _ => ih d member
      | expanded => exact absurd first (not_renders_expanded rfl)
      | _ => cases first
    | _ => cases second
  | list k items ih =>
    cases s with
    | list name snapshots =>
      cases d' with
      | list k' items' => exact RendersAll.trans first second fun d member _ _ => ih d member
      | expanded => exact absurd first (not_renders_expanded rfl)
      | _ => cases first
    | _ => cases second

end Sketch

def Arena.Renders (a : Arena S) (id : Handle) (s : Snapshot) : Prop :=
  ∃ d, a.Shows id d ∧ d.Renders s

end StructureEditor
