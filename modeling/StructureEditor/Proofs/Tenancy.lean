import StructureEditor.Proofs.Elements
import Mathlib.Data.List.Basic

/-! The tenants of slots. A run of requests issues handles to new editors and frees editors, slot
by slot in turns; its log says in which order. The generation of a slot is the number of its
former tenants, as far as the counter goes. So a handle that was freed stays dead, and no handle
is issued twice, until its slot has been freed as often as the counter has values. -/
namespace StructureEditor

variable {S : Signature}

inductive Turnover where
  | issued (id : Handle)
  | freed (id : Handle)
deriving DecidableEq

namespace Turnover

def handle : Turnover → Handle
  | .issued id => id
  | .freed id => id

def issues (index : Nat) : Turnover → Bool
  | .issued id => id.index == index
  | .freed _ => false

def frees (index : Nat) : Turnover → Bool
  | .issued _ => false
  | .freed id => id.index == index

end Turnover

/-- How often a slot was given to an editor. Logs have their newest turnover first. -/
def timesIssued (index : Nat) (log : List Turnover) : Nat := log.countP (·.issues index)

def timesFreed (index : Nat) (log : List Turnover) : Nat := log.countP (·.frees index)

section

variable {index : Nat} {id : Handle} {log more : List Turnover}

@[simp] theorem timesFreed_nil : timesFreed index [] = 0 := rfl

@[simp] theorem timesIssued_nil : timesIssued index [] = 0 := rfl

@[simp] theorem timesFreed_issued : timesFreed index (.issued id :: log) = timesFreed index log :=
  List.countP_cons_of_neg nofun

@[simp] theorem timesIssued_freed : timesIssued index (.freed id :: log) = timesIssued index log :=
  List.countP_cons_of_neg nofun

@[simp] theorem timesFreed_freed : timesFreed index (.freed id :: log) =
    timesFreed index log + if id.index = index then 1 else 0 := by
  simp [timesFreed, List.countP_cons, Turnover.frees]

@[simp] theorem timesIssued_issued : timesIssued index (.issued id :: log) =
    timesIssued index log + if id.index = index then 1 else 0 := by
  simp [timesIssued, List.countP_cons, Turnover.issues]

@[simp] theorem timesFreed_append :
    timesFreed index (more ++ log) = timesFreed index more + timesFreed index log :=
  List.countP_append

@[simp] theorem timesIssued_append :
    timesIssued index (more ++ log) = timesIssued index more + timesIssued index log :=
  List.countP_append

end

/-- When a handle is issued its slot is empty, when it is freed its slot is taken, and its
generation counts the tenants before. -/
def Turnover.Follows (earlier : List Turnover) : Turnover → Prop
  | .issued id => id.generation = .ofNat (timesFreed id.index earlier) ∧
    timesIssued id.index earlier = timesFreed id.index earlier
  | .freed id => id.generation = .ofNat (timesFreed id.index earlier) ∧
    timesIssued id.index earlier = timesFreed id.index earlier + 1

def Alternates : List Turnover → Prop
  | [] => True
  | turnover :: earlier => turnover.Follows earlier ∧ Alternates earlier

theorem Alternates.drop {log : List Turnover} (later : List Turnover)
    (alternates : Alternates (later ++ log)) : Alternates log := by
  induction later with
  | nil => exact alternates
  | cons _ later ih => exact ih alternates.2

theorem size_le_of_wrap {m n : Nat} (same : UInt32.ofNat (n + m) = UInt32.ofNat m)
    (positive : 0 < n) : UInt32.size ≤ n := by
  have equal : (n + m) % UInt32.size = m % UInt32.size := by
    simpa using congrArg UInt32.toNat same
  simp only [UInt32.size] at equal ⊢
  omega

/-- Between two issues of one handle its slot has had as many tenants as the counter has
values. -/
theorem Alternates.issued_again {later between earlier : List Turnover} {id : Handle}
    (alternates : Alternates (later ++ .issued id :: (between ++ .issued id :: earlier))) :
    UInt32.size ≤ timesFreed id.index between := by
  have second := (alternates.drop later).1
  have first := ((alternates.drop later).2.drop between).1
  simp only [Turnover.Follows, timesFreed_append, timesFreed_issued, timesIssued_append,
    timesIssued_issued, if_true] at first second
  have same := first.1.symm.trans second.1
  exact size_le_of_wrap same.symm (by omega)

namespace Arena

/-- One arena comes from another by elementary changes. The log has the newest turnover first. -/
inductive Turns (a : Arena S) : List Turnover → Arena S → Prop where
  | refl : Turns a [] a
  | modify {log : List Turnover} {b : Arena S} (id : Handle) (f : Editor S → Editor S) :
      Turns a log b → Turns a log (b.modify id f)
  | allocate {log : List Turnover} {b : Arena S} (editor : Editor S) : Turns a log b →
      Turns a (.issued (b.allocate editor).1 :: log) (b.allocate editor).2
  | release {log : List Turnover} {b : Arena S} {id : Handle} : Turns a log b →
      b.contains id = true → Turns a (.freed id :: log) (b.release id)

theorem turns_stable (a : Arena S) : Stable fun b => ∃ log, a.Turns log b where
  modify id f := fun ⟨log, turns⟩ => ⟨log, turns.modify id f⟩
  allocate editor := fun ⟨_, turns⟩ => ⟨_, turns.allocate editor⟩
  release := fun ⟨_, turns⟩ live => ⟨_, turns.release live⟩

variable {a b : Arena S} {log more : List Turnover} {id x : Handle}

/-- A log accounts for all slots of an arena. -/
structure Accounts (log : List Turnover) (a : Arena S) : Prop where
  exact : a.Exact
  alternates : Alternates log
  tenants : ∀ index slot, a.slots[index]? = some slot →
    slot.generation = .ofNat (timesFreed index log) ∧ timesIssued index log =
      timesFreed index log + if slot.editor.isSome then 1 else 0
  unused : ∀ index, a.slots.size ≤ index → timesFreed index log = 0 ∧ timesIssued index log = 0
  newest : ∀ x, a.contains x = true ↔ log.find? (·.handle = x) = some (.issued x)

theorem accounts_empty : Accounts [] ({} : Arena S) where
  exact := ⟨List.nodup_nil, by simp⟩
  alternates := trivial
  tenants := by simp
  unused := by simp
  newest := by simp [contains, get?]

theorem Accounts.held (accounts : Accounts log a) (live : a.contains x = true) :
    x.generation = .ofNat (timesFreed x.index log) ∧
      timesIssued x.index log = timesFreed x.index log + 1 := by
  obtain ⟨editor, found⟩ := contains_iff.1 live
  simpa using accounts.tenants x.index _ (slot_of_get? found)

theorem Accounts.vacant (accounts : Accounts log a) (editor : Editor S) :
    (a.allocate editor).1.generation = .ofNat (timesFreed (a.allocate editor).1.index log) ∧
      timesIssued (a.allocate editor).1.index log = timesFreed (a.allocate editor).1.index log := by
  unfold allocate
  split
  · next index free isFree =>
    obtain ⟨generation, empty⟩ := (accounts.exact.2 index).1 (by simp [isFree])
    simpa [empty] using accounts.tenants index _ empty
  · obtain ⟨freed, issued⟩ := accounts.unused a.slots.size (Nat.le_refl _)
    simp [freed, issued]

theorem slots_allocate (editor : Editor S) (exact : a.Exact) (index : Nat) :
    (a.allocate editor).2.slots[index]? = if (a.allocate editor).1.index = index then
      some ⟨(a.allocate editor).1.generation, some editor⟩ else a.slots[index]? := by
  unfold allocate
  split
  · next free _ isFree =>
    obtain ⟨generation, empty⟩ := (exact.2 free).1 (by simp [isFree])
    have inside : free < a.slots.size := (Array.getElem?_eq_some_iff.1 empty).1
    by_cases same : free = index
    · subst same
      simp [inside]
    · simp [same]
  · by_cases same : a.slots.size = index
    · subst same
      simp
    · simp [same, Array.getElem?_push, Ne.symm same]

theorem slots_release (live : a.contains x = true) (index : Nat) :
    (a.release x).slots[index]? = if x.index = index then some ⟨x.generation + 1, none⟩
      else a.slots[index]? := by
  obtain ⟨editor, found⟩ := contains_iff.1 live
  have inside := index_lt_of_get? found
  rw [release, if_pos live]
  by_cases same : x.index = index
  · subst same
    simp [inside]
  · simp [same]

theorem contains_modify (id : Handle) (f : Editor S → Editor S) (a : Arena S) (x : Handle) :
    (a.modify id f).contains x = a.contains x := by
  simp only [contains, get?_modify]
  split
  · exact Option.isSome_map
  · rfl

theorem contains_release (id : Handle) (a : Arena S) (x : Handle) :
    (a.release id).contains x = (decide (x ≠ id) && a.contains x) := by
  by_cases same : x = id <;> simp [contains, get?_release, same]

theorem Accounts.modify (accounts : Accounts log a) (id : Handle) (f : Editor S → Editor S) :
    Accounts log (a.modify id f) where
  exact := exact_modify accounts.exact id f
  alternates := accounts.alternates
  tenants index slot held := by
    unfold Arena.modify at held
    split at held
    · next editor found =>
      have before := slot_of_get? found
      by_cases same : id.index = index
      · subst same
        rw [Array.getElem?_setIfInBounds_self_of_lt (index_lt_of_get? found)] at held
        cases held
        simpa using accounts.tenants id.index _ before
      · rw [Array.getElem?_setIfInBounds_ne same] at held
        exact accounts.tenants index slot held
    · exact accounts.tenants index slot held
  unused index beyond := accounts.unused index (size_slots_modify id f a ▸ beyond)
  newest x := contains_modify id f a x ▸ accounts.newest x

theorem Accounts.allocate (accounts : Accounts log a) (editor : Editor S) :
    Accounts (.issued (a.allocate editor).1 :: log) (a.allocate editor).2 := by
  obtain ⟨exact, fresh, isLive, others⟩ := allocate_spec accounts.exact editor
  have slots := slots_allocate editor accounts.exact
  have vacant := accounts.vacant editor
  generalize a.allocate editor = made at *
  refine ⟨exact, ⟨vacant, accounts.alternates⟩, fun index slot held => ?_, fun index beyond => ?_,
    fun x => ?_⟩
  · rw [slots] at held
    by_cases same : made.1.index = index
    · subst same
      rw [if_pos rfl] at held
      cases held
      simpa [vacant.2] using vacant.1
    · rw [if_neg same] at held
      simpa [same] using accounts.tenants index slot held
  · have outside : made.2.slots[index]? = none := Array.getElem?_eq_none beyond
    rw [slots] at outside
    split at outside
    · cases outside
    · next other =>
      simpa [other] using accounts.unused index (Array.getElem?_eq_none_iff.1 outside)
  · rw [List.find?_cons]
    by_cases same : made.1 = x
    · subst same
      simp [contains, isLive, Turnover.handle]
    · have kept : made.2.contains x = a.contains x := by
        rw [contains, others x (Ne.symm same), contains]
      simpa [Turnover.handle, same, kept] using accounts.newest x

theorem Accounts.release (accounts : Accounts log a) (live : a.contains id = true) :
    Accounts (.freed id :: log) (a.release id) := by
  have slots := slots_release live
  have held := accounts.held live
  refine ⟨exact_release accounts.exact id, ⟨held, accounts.alternates⟩, fun index slot there => ?_,
    fun index beyond => ?_, fun x => ?_⟩
  · rw [slots] at there
    by_cases same : id.index = index
    · subst same
      rw [if_pos rfl] at there
      cases there
      simp [held.1, held.2, UInt32.ofNat_add]
    · rw [if_neg same] at there
      simpa [same] using accounts.tenants index slot there
  · have outside : (a.release id).slots[index]? = none := Array.getElem?_eq_none beyond
    rw [slots] at outside
    split at outside
    · cases outside
    · next other =>
      simpa [other] using accounts.unused index (Array.getElem?_eq_none_iff.1 outside)
  · rw [List.find?_cons, contains_release]
    by_cases same : id = x
    · subst same
      simp [Turnover.handle]
    · simpa [Turnover.handle, same, Ne.symm same] using accounts.newest x

theorem Accounts.turns (accounts : Accounts log a) (turns : a.Turns more b) :
    Accounts (more ++ log) b := by
  induction turns with
  | refl => exact accounts
  | modify id f _ ih => exact ih.modify id f
  | allocate editor _ ih => exact ih.allocate editor
  | release _ live ih => exact ih.release live

theorem Accounts.freed_of_dead {b : Arena S} {more : List Turnover} (before : Accounts log a)
    (after : Accounts (more ++ log) b) (live : a.contains id = true)
    (dead : b.contains id = false) : .freed id ∈ more := by
  have issued := (before.newest id).1 live
  have newest := after.newest id
  rw [List.find?_append, issued, dead] at newest
  cases found : more.find? (·.handle = id) with
  | none => simp [found] at newest
  | some turnover =>
    have member := List.mem_of_find?_eq_some found
    have same : turnover.handle = id := by simpa using List.find?_some found
    cases turnover with
    | issued x =>
      obtain rfl : x = id := same
      simp [found] at newest
    | freed x =>
      obtain rfl : x = id := same
      exact member

theorem Accounts.issued_of_live {b : Arena S} {more : List Turnover} (before : Accounts log a)
    (after : Accounts (more ++ log) b) (dead : a.contains id = false)
    (live : b.contains id = true) : .issued id ∈ more := by
  have newest := (after.newest id).1 live
  rw [List.find?_append] at newest
  cases found : more.find? (·.handle = id) with
  | none =>
    rw [found, Option.none_or] at newest
    rw [(before.newest id).2 newest] at dead
    cases dead
  | some turnover =>
    rw [found, Option.some_or] at newest
    cases newest
    exact List.mem_of_find?_eq_some found

/-- A handle that was freed is dead until its slot has been freed as often as the counter has
values, that time included. -/
theorem Accounts.dead {later earlier : List Turnover}
    (accounts : Accounts (later ++ .freed id :: earlier) a)
    (few : timesFreed id.index (later ++ [.freed id]) < UInt32.size) :
    a.contains id = false := by
  refine Bool.eq_false_iff.2 fun isLive => ?_
  have held := (accounts.held isLive).1
  have freed := (accounts.alternates.drop later).1.1
  simp only [timesFreed_append, timesFreed_freed, timesFreed_nil, if_true, Nat.zero_add] at held few
  have wrap : UInt32.ofNat (timesFreed id.index later + 1 + timesFreed id.index earlier) =
      UInt32.ofNat (timesFreed id.index earlier) := by
    rw [← freed, held]
    congr 1
    omega
  have many := size_le_of_wrap wrap (by omega)
  omega

end Arena

namespace Workspace

variable [Language S] {w w' w₀ : Workspace S} {log more : List Turnover} {id : Handle}

/-- One workspace comes from another by requests, however each of them ends. The log says which
handles were issued and which editors were freed, the newest turnover first. What is beside the
arena is for the client to change. -/
inductive Runs (w₀ : Workspace S) : List Turnover → Workspace S → Prop where
  | refl : Runs w₀ [] w₀
  | beside {log : List Turnover} {w w' : Workspace S} : Runs w₀ log w → w'.arena = w.arena →
      Runs w₀ log w'
  | request {log more : List Turnover} {w : Workspace S} (request : Request S) : Runs w₀ log w →
      w.arena.Turns more ((perform request).after w).arena →
      Runs w₀ (more ++ log) ((perform request).after w)

theorem perform_turns (request : Request S) (w : Workspace S) :
    ∃ more, w.arena.Turns more ((perform request).after w).arena :=
  ensures_iff.1 (perform_respects (Arena.turns_stable w.arena) request w ⟨[], .refl⟩)

theorem Runs.accounts (run : Runs {} log w) : Arena.Accounts log w.arena := by
  induction run with
  | refl => exact Arena.accounts_empty
  | beside _ same ih => exact same ▸ ih
  | request _ _ turns ih => exact ih.turns turns

theorem Reaches.runs (reached : Reaches w w') (run : Runs w₀ log w) : ∃ log, Runs w₀ log w' := by
  refine reached.keeps (P := fun w => ∃ log, Runs w₀ log w) ⟨log, run⟩
    (fun same ⟨log, run⟩ => ⟨log, run.beside same⟩) ?_
  rintro w request - ⟨log, run⟩
  obtain ⟨more, turns⟩ := perform_turns request w
  exact ⟨more ++ log, run.request request turns⟩

theorem Runs.turned (run : Runs {} log w) (turns : w.arena.Turns more w'.arena) :
    (w.arena.contains id = true → w'.arena.contains id = false → .freed id ∈ more) ∧
      (w.arena.contains id = false → w'.arena.contains id = true → .issued id ∈ more) :=
  ⟨run.accounts.freed_of_dead (run.accounts.turns turns),
    run.accounts.issued_of_live (run.accounts.turns turns)⟩

/-- Stale handles stay dead. Every request goes on with the log, frees what it makes stale and
issues what it makes live; exactly the handles are live that were issued and not freed since. A
handle that was freed is rejected in every later state, and a handle that was issued is never
issued again, unless its slot has been freed since as often as the counter of its tenants has
values. -/
theorem freed_handles_stay_dead (run : Runs {} log w) :
    (∀ request, ∃ more, Runs {} (more ++ log) ((perform request).after w) ∧ ∀ id,
      (w.arena.contains id = true → ((perform request).after w).arena.contains id = false →
        .freed id ∈ more) ∧
      (w.arena.contains id = false → ((perform request).after w).arena.contains id = true →
        .issued id ∈ more)) ∧
    (∀ id, w.arena.contains id = true ↔ log.find? (·.handle = id) = some (.issued id)) ∧
    (∀ later earlier id, log = later ++ .freed id :: earlier →
      timesFreed id.index (later ++ [.freed id]) < UInt32.size →
      w.arena.contains id = false ∧ w.arena.get id = .error (.stale id)) ∧
    ∀ later between earlier id,
      log = later ++ .issued id :: (between ++ .issued id :: earlier) →
      UInt32.size ≤ timesFreed id.index between := by
  refine ⟨fun request => ?_, run.accounts.newest, ?_, ?_⟩
  · obtain ⟨more, turns⟩ := perform_turns request w
    exact ⟨more, run.request request turns, fun _ => run.turned turns⟩
  · rintro later earlier id rfl few
    have dead := run.accounts.dead few
    have absent : w.arena.get? id = none := by simpa [Arena.contains] using dead
    exact ⟨dead, by simp only [Arena.get, absent]⟩
  · rintro later between earlier id rfl
    exact run.accounts.alternates.issued_again

section

open Sample

def twoWords : Workspace expression :=
  performAll [.create (.list ListName.words) ⟨0, []⟩, .openItem ⟨0, 0⟩ 0,
    .typeToken ⟨1, 0⟩ "ab" true, .openItem ⟨0, 0⟩ 1, .typeToken ⟨2, 0⟩ "cd" true] desk

theorem reaches_twoWords : Reaches {} twoWords :=
  reaches_performAll _ (.beside (.refl _) rfl) (by simp [Allowed])

/-- When the first word is removed and brought back, its handle is freed, and another one is
issued for the same slot. -/
theorem removedWord_stays_dead : ∃ log, Runs {} log wordsAgain ∧ .freed ⟨1, 0⟩ ∈ log ∧
    wordsAgain.arena.contains ⟨1, 0⟩ = false ∧
    log.find? (·.handle = ⟨1, 1⟩) = some (.issued ⟨1, 1⟩) := by
  obtain ⟨log, run⟩ := reaches_twoWords.runs .refl
  obtain ⟨removing, removed, turned⟩ := (freed_handles_stay_dead run).1 (.removeAt ⟨0, 0⟩ 0)
  obtain ⟨undoing, undone, -⟩ := (freed_handles_stay_dead removed).1 (.undo 0)
  have freed := (turned ⟨1, 0⟩).1 (by decide +kernel) (by decide +kernel)
  exact ⟨_, undone, by simp [freed], by decide +kernel,
    ((freed_handles_stay_dead undone).2.1 ⟨1, 1⟩).1 (by decide +kernel)⟩

end

end Workspace

end StructureEditor
