import StructureEditor.Context
import StructureEditor.Language.Basic

/-! The arena that holds all editors. An editor lives in a slot; a slot that is given back
counts its tenants, so that a handle of an earlier tenant is known to be stale. Free slots
are reused, the one given back last first. -/
namespace StructureEditor

inductive EditorState (S : Signature) where
  | token (c : S.TokenClass) (text : String) (item : Option Candidate)
  | expander (c : S.ExpanderClass) (state : Display Handle)
  | compound (c : S.CompoundClass) (components : List Handle)
  | list (c : S.ListClass) (items : List Handle)

namespace EditorState

variable {S : Signature}

def shape : EditorState S → Shape
  | .token .. => .token
  | .expander .. => .expander
  | .compound .. => .compound
  | .list .. => .list

def classKey : EditorState S → ClassKey S
  | .token c _ _ => .token c
  | .expander c _ => .expander c
  | .compound c _ => .compound c
  | .list c _ => .list c

def children : EditorState S → List Handle
  | .token .. => []
  | .expander _ (.expanded content) => [content]
  | .expander _ (.text ..) => []
  | .compound _ components => components
  | .list _ items => items

end EditorState

abbrev ViewId := Nat

structure Editor (S : Signature) where
  context : Context
  parent : Option Handle := none
  result : Outcome S.Value := .errBelow
  views : List ViewId := []
  state : EditorState S

structure Slot (S : Signature) where
  generation : UInt32
  editor : Option (Editor S)

structure Arena (S : Signature) where
  slots : Array (Slot S) := #[]
  /-- The slot to be reused next comes first. -/
  free : List Nat := []

namespace Arena

variable {S : Signature}

def get? (a : Arena S) (id : Handle) : Option (Editor S) :=
  match a.slots[id.index]? with
  | some slot => if slot.generation = id.generation then slot.editor else none
  | none => none

def contains (a : Arena S) (id : Handle) : Bool := (a.get? id).isSome

def get (a : Arena S) (id : Handle) : Except Refusal (Editor S) :=
  match a.get? id with
  | some editor => .ok editor
  | none => .error (.stale id)

def size (a : Arena S) : Nat := a.slots.countP (·.editor.isSome)

def modify (id : Handle) (f : Editor S → Editor S) (a : Arena S) : Arena S :=
  match a.get? id with
  | some editor =>
    { a with slots := a.slots.setIfInBounds id.index ⟨id.generation, some (f editor)⟩ }
  | none => a

/-- Gives an editor a slot: a free one if there is any, else a new one. -/
def allocate (editor : Editor S) (a : Arena S) : Handle × Arena S :=
  match a.free with
  | index :: free =>
    let generation := (a.slots[index]?).elim 0 (·.generation)
    (⟨index, generation⟩,
      { slots := a.slots.setIfInBounds index ⟨generation, some editor⟩, free })
  | [] => (⟨a.slots.size, 0⟩, { a with slots := a.slots.push ⟨0, some editor⟩ })

/-- The handle of whoever is in a slot, or will be next. A slot that does not exist is a fault. -/
def holder (a : Arena S) (index : Nat) : Except Fault Handle :=
  match a.slots[index]? with
  | some slot => .ok ⟨index, slot.generation⟩
  | none => .error (.noSlot index a.slots.size)

/-- Gives an editor a slot, and trusts the stack of free slots. -/
def takeSlot (editor : Editor S) (a : Arena S) : Except Fault (Handle × Arena S) :=
  match a.free with
  | index :: free => do
    let id ← a.holder index
    return (id, { slots := a.slots.setIfInBounds index ⟨id.generation, some editor⟩, free })
  | [] => return (⟨a.slots.size, 0⟩, { a with slots := a.slots.push ⟨0, some editor⟩ })

def vacate (index : Nat) (a : Arena S) : Arena S :=
  { slots := a.slots.modify index fun slot => ⟨slot.generation + 1, none⟩
    free := index :: a.free }

def release (id : Handle) (a : Arena S) : Arena S :=
  if a.contains id then
    { slots := a.slots.setIfInBounds id.index ⟨id.generation + 1, none⟩
      free := id.index :: a.free }
  else a

def setParent (parent : Option Handle) (child : Handle) : Arena S → Arena S :=
  modify child fun editor => { editor with parent }

def setState (id : Handle) (state : EditorState S) : Arena S → Arena S :=
  modify id fun editor => { editor with state }

def setResult (id : Handle) (result : Outcome S.Value) : Arena S → Arena S :=
  modify id fun editor => { editor with result }

/-- A bound on the length of every way through the editors. -/
def reach (a : Arena S) : Nat := a.slots.size + 1

def disposeWithin : Nat → Handle → Arena S → Arena S
  | 0, _, a => a
  | depth + 1, id, a =>
    match a.get? id with
    | some editor => (editor.state.children.foldl (fun a c => disposeWithin depth c a) a).release id
    | none => a

def dispose (id : Handle) (a : Arena S) : Arena S := a.disposeWithin a.reach id

theorem contains_iff {a : Arena S} {id : Handle} :
    a.contains id = true ↔ ∃ editor, a.get? id = some editor := by
  simp [contains, Option.isSome_iff_exists]

theorem slot_of_get? {a : Arena S} {id : Handle} {editor : Editor S}
    (found : a.get? id = some editor) : a.slots[id.index]? = some ⟨id.generation, some editor⟩ := by
  unfold get? at found
  split at found
  · next slot held =>
    split at found
    · next same =>
      obtain ⟨generation, tenant⟩ := slot
      simp only at same found
      rw [held, same, found]
    · cases found
  · cases found

theorem index_lt_of_get? {a : Arena S} {id : Handle} {editor : Editor S}
    (found : a.get? id = some editor) : id.index < a.slots.size := by
  have held := slot_of_get? found
  exact (Array.getElem?_eq_some_iff.1 held).1

theorem get?_modify_self {a : Arena S} {id : Handle} {editor : Editor S}
    (f : Editor S → Editor S) (found : a.get? id = some editor) :
    (a.modify id f).get? id = some (f editor) := by
  have inside := index_lt_of_get? found
  simp only [modify, found]
  simp [get?, inside]

theorem get?_modify_of_ne {a : Arena S} {id other : Handle} (f : Editor S → Editor S)
    (different : other ≠ id) : (a.modify id f).get? other = a.get? other := by
  unfold modify
  split
  · next editor found =>
    by_cases sameSlot : other.index = id.index
    · have newer : id.generation ≠ other.generation := by
        intro sameTenant
        apply different
        cases id
        cases other
        simp_all
      obtain ⟨inside, held⟩ := Array.getElem?_eq_some_iff.1 (slot_of_get? found)
      simp [get?, sameSlot, held, inside, newer]
    · simp [get?, Ne.symm sameSlot]
  · rfl

theorem get?_release_self (a : Arena S) (id : Handle) : (a.release id).get? id = none := by
  unfold release
  split
  · next alive =>
    obtain ⟨editor, found⟩ := contains_iff.1 alive
    simp [get?, index_lt_of_get? found]
  · next gone => simpa [contains] using gone

theorem get?_release_of_ne {a : Arena S} {id other : Handle}
    (different : other.index ≠ id.index) : (a.release id).get? other = a.get? other := by
  unfold release
  split
  · simp [get?, Ne.symm different]
  · rfl

end Arena

end StructureEditor
