import StructureEditor.Proofs.Tenancy

/-! The slots that stand empty. Handles are freed and issued like the plates of a stack: the slot
that was taken back last is given away first, to a tenant of the next generation. What a log of
turnovers does to the empty slots and to their generations can be read off the log. -/
namespace StructureEditor

variable {S : Signature}

/-- What a turnover does to the stack of empty slots. -/
def Turnover.recycle : Turnover → List Nat → List Nat
  | .freed id, free => id.index :: free
  | .issued _, free => free.tail

def freeing (ids : List Handle) : List Turnover := (ids.map .freed).reverse

def issuing (ids : List Handle) : List Turnover := (ids.map .issued).reverse

def Handle.successor (id : Handle) : Handle := ⟨id.index, id.generation + 1⟩

theorem freeing_append (first later : List Handle) :
    freeing (first ++ later) = freeing later ++ freeing first := by
  simp [freeing]

theorem issuing_concat (ids : List Handle) (id : Handle) :
    issuing (ids ++ [id]) = .issued id :: issuing ids := by
  simp [issuing]

theorem issuing_eq_nil {ids : List Handle} (none : issuing ids = []) : ids = [] := by
  simpa [issuing] using none

theorem issuing_eq_cons {ids : List Handle} {turnover : Turnover} {log : List Turnover}
    (some : issuing ids = turnover :: log) :
    ∃ before id, ids = before ++ [id] ∧ turnover = .issued id ∧ log = issuing before := by
  rcases List.eq_nil_or_concat ids with rfl | ⟨before, id, rfl⟩
  · simp [issuing] at some
  · rw [List.concat_eq_append, issuing_concat] at some
    cases some
    exact ⟨before, id, List.concat_eq_append, rfl, rfl⟩

theorem timesFreed_freeing {ids : List Handle} (distinct : (ids.map (·.index)).Nodup)
    (index : Nat) : timesFreed index (freeing ids) = if index ∈ ids.map (·.index) then 1 else 0 := by
  induction ids with
  | nil => rfl
  | cons id ids ih =>
    obtain ⟨unlisted, distinct⟩ := List.nodup_cons.1 distinct
    have split : freeing (id :: ids) = freeing ids ++ [.freed id] := freeing_append [id] ids
    rw [split, timesFreed_append, ih distinct, timesFreed_freed, timesFreed_nil, List.map_cons]
    by_cases same : id.index = index
    · subst same
      simp [unlisted]
    · simp [same, Ne.symm same]

namespace Arena

variable {a b c : Arena S} {log more : List Turnover} {id x : Handle}

theorem Turns.trans (first : a.Turns log b) (second : b.Turns more c) :
    a.Turns (more ++ log) c := by
  induction second with
  | refl => exact first
  | modify id f _ ih => exact ih.modify id f
  | allocate editor _ ih => exact ih.allocate editor
  | release _ live ih => exact ih.release live

theorem Turns.exact (turns : a.Turns log b) (exact : a.Exact) : b.Exact := by
  induction turns with
  | refl => exact exact
  | modify id f _ ih => exact exact_modify ih id f
  | allocate editor _ ih => exact (allocate_spec ih editor).1
  | release _ _ ih => exact exact_release ih _

/-- The generation of a slot: of its tenant, or of the next one. -/
def generation? (a : Arena S) (index : Nat) : Option UInt32 := (a.slots[index]?).map (·.generation)

theorem generation?_of_get? {editor : Editor S} (found : a.get? x = some editor) :
    a.generation? x.index = some x.generation := by
  rw [generation?, slot_of_get? found]
  rfl

theorem generation?_modify (id : Handle) (f : Editor S → Editor S) (a : Arena S) (index : Nat) :
    (a.modify id f).generation? index = a.generation? index := by
  unfold modify
  split
  · next editor found =>
    have inside := index_lt_of_get? found
    by_cases same : id.index = index
    · subst same
      rw [generation?_of_get? found]
      simp [generation?, inside]
    · simp [generation?, same]
  · rfl

theorem generation?_allocate (exact : a.Exact) (editor : Editor S) {index : Nat}
    (inside : index < a.slots.size) :
    (a.allocate editor).2.generation? index = a.generation? index := by
  unfold allocate
  split
  · next free _ isFree =>
    obtain ⟨generation, empty⟩ := (exact.2 free).1 (by simp [isFree])
    by_cases same : free = index
    · subst same
      simp [generation?, inside]
    · simp [generation?, same]
  · simp [generation?, Array.getElem?_push, Nat.ne_of_lt inside]

theorem generation?_release (live : a.contains x = true) (index : Nat) :
    (a.release x).generation? index =
      if x.index = index then some (x.generation + 1) else a.generation? index := by
  rw [generation?, slots_release live]
  split <;> rfl

theorem Turns.size_le (turns : a.Turns log b) : a.slots.size ≤ b.slots.size := by
  induction turns with
  | refl => exact Nat.le_refl _
  | modify id f _ ih => exact (size_slots_modify id f _).symm ▸ ih
  | allocate editor _ ih =>
    refine Nat.le_trans ih ?_
    unfold Arena.allocate
    split <;> simp
  | release _ live ih =>
    refine Nat.le_trans ih ?_
    rw [Arena.release, if_pos live]
    simp

theorem Turns.generation? (turns : a.Turns log b) (exact : a.Exact) {index : Nat}
    (inside : index < a.slots.size) :
    b.generation? index =
      (a.generation? index).map (· + UInt32.ofNat (timesFreed index log)) := by
  induction turns with
  | refl => simp
  | modify id f _ ih => rw [generation?_modify, ih]
  | allocate editor turns ih =>
    rw [generation?_allocate (turns.exact exact) editor (Nat.lt_of_lt_of_le inside turns.size_le),
      ih, timesFreed_issued]
  | @release log b x turns live ih =>
    rw [generation?_release live, timesFreed_freed]
    by_cases same : x.index = index
    · subst same
      obtain ⟨editor, found⟩ := contains_iff.1 live
      rw [generation?_of_get? found] at ih
      cases before : a.generation? x.index with
      | none => simp [before] at ih
      | some generation =>
        simp only [before, Option.map_some, Option.some.injEq] at ih
        simp [ih, UInt32.ofNat_add, UInt32.add_assoc]
    · simp [same, ih]

theorem Turns.free (turns : a.Turns log b) : b.free = log.foldr Turnover.recycle a.free := by
  induction turns with
  | refl => rfl
  | @modify log b id f _ ih =>
    have same : (b.modify id f).free = b.free := by
      unfold Arena.modify
      split <;> rfl
    rw [same, ih]
  | @allocate log b editor _ ih =>
    have popped : (b.allocate editor).2.free = b.free.tail := by
      unfold Arena.allocate
      split
      · next isFree =>
        rw [isFree]
        rfl
      · next noneFree =>
        rw [noneFree]
        rfl
    rw [popped, ih]
    rfl
  | @release log b x _ live ih =>
    have pushed : (b.release x).free = x.index :: b.free := by
      rw [Arena.release, if_pos live]
    rw [pushed, ih]
    rfl

theorem recycle_freeing (ids : List Handle) (free : List Nat) :
    (freeing ids).foldr Turnover.recycle free = (ids.map (·.index)).reverse ++ free := by
  induction ids generalizing free with
  | nil => rfl
  | cons id ids ih =>
    have split : freeing (id :: ids) = freeing ids ++ [.freed id] := freeing_append [id] ids
    rw [split, List.foldr_append, ih]
    simp [Turnover.recycle]

/-- The handles that the empty slots are issued under, the one that is issued next first. -/
def vacant (a : Arena S) : List Handle :=
  a.free.map fun index => ⟨index, (a.generation? index).getD 0⟩

theorem vacant_modify (id : Handle) (f : Editor S → Editor S) (a : Arena S) :
    (a.modify id f).vacant = a.vacant := by
  have same : (a.modify id f).free = a.free := by
    unfold Arena.modify
    split <;> rfl
  simp only [vacant, same, generation?_modify]

theorem vacant_allocate (exact : a.Exact) (editor : Editor S) (nonempty : a.free ≠ []) :
    a.vacant = (a.allocate editor).1 :: (a.allocate editor).2.vacant := by
  cases isFree : a.free with
  | nil => exact absurd isFree nonempty
  | cons index free =>
    obtain ⟨generation, empty⟩ := (exact.2 index).1 (by simp [isFree])
    have inside : ∀ other ∈ a.free, other < a.slots.size := by
      intro other member
      obtain ⟨_, held⟩ := (exact.2 other).1 member
      exact (Array.getElem?_eq_some_iff.1 held).1
    have handle : (a.allocate editor).1 = ⟨index, (a.generation? index).getD 0⟩ := by
      simp [allocate, isFree, generation?, empty]
    have rest : (a.allocate editor).2.free = free := by
      simp [allocate, isFree]
    rw [vacant, isFree, List.map_cons, handle, vacant, rest]
    congr 1
    apply List.map_congr_left
    intro other member
    rw [generation?_allocate exact editor (inside other (by simp [isFree, member]))]

/-- As long as there are empty slots, new editors take them in their order. -/
theorem Turns.issued {ids : List Handle} (turns : a.Turns (issuing ids) b) (exact : a.Exact)
    (enough : ids.length ≤ a.free.length) :
    ids = a.vacant.take ids.length ∧ b.vacant = a.vacant.drop ids.length := by
  generalize logged : issuing ids = log at turns
  induction turns generalizing ids with
  | refl =>
    obtain rfl := issuing_eq_nil logged
    exact ⟨rfl, rfl⟩
  | modify id f _ ih =>
    rw [vacant_modify]
    exact ih enough logged
  | @allocate log b editor turns ih =>
    obtain ⟨before, id, rfl, same, rfl⟩ := issuing_eq_cons logged
    cases same
    simp only [List.length_append, List.length_singleton] at enough ⊢
    obtain ⟨taken, left⟩ := ih (by omega) rfl
    have length : b.vacant.length = b.free.length := List.length_map _
    have nonempty : b.free ≠ [] := by
      intro empty
      rw [empty, left, List.length_drop, vacant, List.length_map, List.length_nil] at length
      omega
    have next := vacant_allocate (turns.exact exact) editor nonempty
    rw [left] at next
    constructor
    · have first : a.vacant[before.length]? = some (b.allocate editor).1 := by
        rw [← List.head?_drop, next]
        rfl
      rw [List.take_add_one, ← taken, first]
      rfl
    · rw [← List.drop_drop, next]
      rfl
  | release _ _ _ =>
    obtain ⟨_, _, _, different, _⟩ := issuing_eq_cons logged
    cases different

end Arena

end StructureEditor
