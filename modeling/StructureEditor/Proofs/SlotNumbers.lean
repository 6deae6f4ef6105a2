import StructureEditor.Arena.Compile
import StructureEditor.Proofs.Slots

/-! Slots by number. Adding an editor pops the stack of free slots, and it finds the children by the
numbers of their slots, whoever lives there. Where the stack holds the empty slots and the children
are alive, no number leads out of the arena or to another editor, so that it makes no difference
that no generation is compared. Nor does it when an editor is freed that was found alive. -/
namespace StructureEditor

variable {S : Signature}

namespace Arena

variable {a a₀ b : Arena S} {id parent : Handle} {editor : Editor S} {index : Nat}
  {context : Context} {state : EditorState S}

theorem holder_eq_ok_iff : a.holder index = .ok id ↔
    ∃ slot, a.slots[index]? = some slot ∧ id = ⟨index, slot.generation⟩ := by
  unfold holder
  cases a.slots[index]? with
  | none => simp
  | some slot => simp [eq_comm]

theorem holder_of_get? (found : a.get? id = some editor) : a.holder id.index = .ok id :=
  holder_eq_ok_iff.2 ⟨_, slot_of_get? found, rfl⟩

/-- Whoever gets a slot by its number has got what is allocated, and lives there. -/
theorem allocate_of_takeSlot (taken : a.takeSlot editor = .ok (id, b)) :
    a.allocate editor = (id, b) ∧ b.get? id = some editor := by
  unfold takeSlot at taken
  unfold allocate
  split at taken
  · next index free isFree =>
    cases known : a.holder index with
    | error f =>
      rw [known] at taken
      cases taken
    | ok here =>
      rw [known] at taken
      cases taken
      obtain ⟨slot, held, rfl⟩ := holder_eq_ok_iff.1 known
      obtain ⟨inside, _⟩ := Array.getElem?_eq_some_iff.1 held
      exact ⟨by simp [held], by simp [get?, inside]⟩
  · cases taken
    exact ⟨rfl, by simp [get?]⟩

theorem takeSlot_eq_allocate (exact : a.Exact) (editor : Editor S) :
    a.takeSlot editor = .ok (a.allocate editor) := by
  unfold takeSlot allocate
  split
  · next index free isFree =>
    obtain ⟨generation, empty⟩ := (exact.2 index).1 (by simp [isFree])
    rw [holder_eq_ok_iff.2 ⟨_, empty, rfl⟩, empty]
    rfl
  · rfl

theorem get?_adopt (parent : Handle) (kids : List Handle) (a : Arena S) (y : Handle) :
    (kids.foldl (fun a child => a.setParent (some parent) child) a).get? y =
      if y ∈ kids then (a.get? y).map fun editor => { editor with parent := some parent }
      else a.get? y := by
  induction kids generalizing a with
  | nil => simp
  | cons c rest ih =>
    rw [List.foldl_cons, ih, setParent, get?_modify]
    by_cases isFirst : y = c
    · subst isFirst
      cases a.get? y <;> simp
    · by_cases member : y ∈ rest <;> simp [isFirst, member]

theorem exact_adopt (parent : Handle) (kids : List Handle) (exact : a.Exact) :
    (kids.foldl (fun a child => a.setParent (some parent) child) a).Exact :=
  List.foldlRecOn kids _ exact fun _ exact c _ => exact_modify exact c _

theorem foldlM_adopt (kids : List Handle) (a : Arena S)
    (live : ∀ c ∈ kids, ∃ child, a.get? c = some child) :
    kids.foldlM (adopt parent) a =
      .ok (kids.foldl (fun a child => a.setParent (some parent) child) a) := by
  induction kids generalizing a with
  | nil => rfl
  | cons c rest ih =>
    obtain ⟨child, found⟩ := live c (by simp)
    have adopted : adopt parent a c = .ok (a.setParent (some parent) c) := by
      rw [adopt, holder_of_get? found]
      rfl
    rw [List.foldlM_cons, adopted]
    refine ih (a.setParent (some parent) c) fun d member => ?_
    obtain ⟨child, found⟩ := live d (by simp [member])
    rw [setParent, get?_modify, found]
    split
    · exact ⟨_, rfl⟩
    · exact ⟨child, rfl⟩

theorem foldlM_adopt_keeps {P : Arena S → Prop}
    (modify : ∀ {a : Arena S} (id : Handle) (f : Editor S → Editor S), P a → P (a.modify id f))
    {kids : List Handle} (holds : P a) (adopted : kids.foldlM (adopt parent) a = .ok b) : P b := by
  induction kids generalizing a with
  | nil =>
    cases adopted
    exact holds
  | cons c rest ih =>
    rw [List.foldlM_cons] at adopted
    cases known : a.holder c.index with
    | error f =>
      rw [adopt, known] at adopted
      cases adopted
    | ok here =>
      rw [adopt, known] at adopted
      exact ih (modify here _ holds) adopted

variable [Language S]

/-- With empty slots on the stack and children that are alive, to go by slots is to go by handles. -/
theorem enter_eq_insert (exact : a.Exact)
    (live : ∀ c ∈ state.children, ∃ child, a.get? c = some child) :
    a.enter context state = .ok (a.insert context state) := by
  have taken := takeSlot_eq_allocate exact { context, state }
  obtain ⟨_, fresh, new, others⟩ := allocate_spec exact { context, state }
  unfold insert
  generalize a.allocate { context, state } = made at *
  obtain ⟨id, a₁⟩ := made
  dsimp only at *
  have adopted : state.children.foldlM (adopt id) a₁ =
      .ok (state.children.foldl (fun a child => a.setParent (some id) child) a₁) := by
    refine foldlM_adopt state.children a₁ fun c member => ?_
    obtain ⟨child, found⟩ := live c member
    refine ⟨child, (others c ?_).trans found⟩
    rintro rfl
    cases fresh.symm.trans found
  have here := get?_adopt id state.children a₁ id
  generalize state.children.foldl (fun a child => a.setParent (some id) child) a₁ = b at *
  have own : b.holder id.index = .ok id := by
    rw [new] at here
    split at here
    · exact holder_of_get? here
    · exact holder_of_get? here
  simp only [enter, taken, adopted, own, bind, Except.bind, pure, Except.pure]
  split <;> rfl

theorem enter_keeps {P : Arena S → Prop}
    (modify : ∀ {a : Arena S} (id : Handle) (f : Editor S → Editor S), P a → P (a.modify id f))
    (allocate : ∀ {a : Arena S} (editor : Editor S), P a → P (a.allocate editor).2) (holds : P a)
    (entered : a.enter context state = .ok (id, b)) : P b := by
  unfold enter at entered
  cases taken : a.takeSlot { context, state } with
  | error f =>
    rw [taken] at entered
    cases entered
  | ok made =>
    obtain ⟨id', a₁⟩ := made
    have first : P a₁ := by
      have given := allocate { context, state } holds
      rwa [(allocate_of_takeSlot taken).1] at given
    cases adopted : state.children.foldlM (adopt id') a₁ with
    | error f =>
      simp only [taken, adopted, bind, Except.bind] at entered
      cases entered
    | ok a₂ =>
      have second := foldlM_adopt_keeps modify first adopted
      simp only [taken, adopted, bind, Except.bind, pure, Except.pure] at entered
      split at entered
      · cases known : a₂.holder id'.index with
        | error f =>
          rw [known] at entered
          cases entered
        | ok own =>
          rw [known] at entered
          cases entered
          exact modify own _ second
      · cases entered
        exact second

omit [Language S] in
theorem release_eq_vacate (found : a.get? id = some editor) : a.release id = a.vacate id.index := by
  have held := slot_of_get? found
  have inside := index_lt_of_get? found
  have emptied : a.slots.setIfInBounds id.index ⟨id.generation + 1, none⟩ =
      a.slots.modify id.index fun slot => ⟨slot.generation + 1, none⟩ := by
    apply Array.ext_getElem?
    intro index
    rw [Array.getElem?_setIfInBounds, Array.getElem?_modify]
    split
    · next same => rw [← same, held, Option.map_some]
    · rfl
  rw [release, if_pos (contains_iff.2 ⟨editor, found⟩), emptied, vacate]

omit [Language S] in
theorem live_above_disposed {steps n : Nat} (forest : a₀.links.Forest)
    (depth : a₀.links.Depth id n) (enough : a₀.size ≤ steps + 1 + n)
    (isLive : a₀.get? id = some editor)
    (agree : ∀ y, a₀.links.Within id y → a.get? y = a₀.get? y) :
    (editor.state.children.foldl (fun b c => b.disposeWithin steps c) a).get? id = some editor := by
  have found := links_of_get? isLive
  have cleared : ∀ c ∈ editor.state.children, ∀ b : Arena S,
      (∀ y, a₀.links.Within c y → b.get? y = a₀.get? y) →
      (∀ y, a₀.links.Within c y → (b.disposeWithin steps c).get? y = none) ∧
      ∀ y, ¬ a₀.links.Within c y → (b.disposeWithin steps c).get? y = b.get? y :=
    fun c member b agree =>
      get?_disposeWithin forest (forest.depth_of_child found member depth) (by omega) agree
  rw [(get?_disposeAll forest found cleared editor.state.children (fun c member => member)
    (forest.distinct found) a fun c member y within =>
      agree y ((forest.within_of_child found member).trans within)).2 id
    fun c member => forest.not_within_of_child found member, agree id .here, isLive]

omit [Language S] in
/-- An editor that was found alive gives up its slot after its children, without another look at
the generation. -/
theorem disposeWithin_vacates {steps n : Nat} (forest : a₀.links.Forest)
    (depth : a₀.links.Depth id n) (enough : a₀.size ≤ steps + 1 + n)
    (isLive : a₀.get? id = some editor)
    (agree : ∀ y, a₀.links.Within id y → a.get? y = a₀.get? y) :
    a.disposeWithin (steps + 1) id =
      (editor.state.children.foldl (fun b c => b.disposeWithin steps c) a).vacate id.index := by
  have here : a.get? id = some editor := (agree id .here).trans isLive
  simp only [disposeWithin, here]
  exact release_eq_vacate (live_above_disposed forest depth enough isLive agree)

end Arena

end StructureEditor
