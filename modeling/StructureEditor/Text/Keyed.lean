namespace StructureEditor

abbrev Keyed (α : Type) := List (String × α)

namespace Keyed

variable {α : Type}

def insert (key : String) (value : α) : Keyed α → Keyed α
  | [] => [(key, value)]
  | (k, v) :: rest =>
    if key < k then (key, value) :: (k, v) :: rest
    else if key = k then (key, value) :: rest
    else (k, v) :: insert key value rest

def get? (entries : Keyed α) (key : String) : Option α := entries.lookup key

def erase (key : String) (entries : Keyed α) : Keyed α := entries.filter (·.1 != key)

def keys (entries : Keyed α) : List String := entries.map (·.1)

def ofList (entries : List (String × α)) : Keyed α :=
  entries.foldl (fun sorted (key, value) => insert key value sorted) []

theorem get?_insert_self (key : String) (value : α) (entries : Keyed α) :
    (entries.insert key value).get? key = some value := by
  induction entries with
  | nil => simp [insert, get?]
  | cons entry rest ih =>
    obtain ⟨k, v⟩ := entry
    simp only [get?] at ih
    by_cases before : key < k
    · simp [insert, get?, before]
    · by_cases same : key = k
      · simp [insert, get?, same]
      · have other : (key == k) = false := by simpa using same
        simp [insert, get?, before, same, List.lookup_cons, other, ih]

theorem get?_insert_of_ne {key other : String} (value : α) (entries : Keyed α)
    (different : other ≠ key) :
    (entries.insert key value).get? other = entries.get? other := by
  have skipped : (other == key) = false := by simpa using different
  induction entries with
  | nil => simp [insert, get?, List.lookup_cons, skipped]
  | cons entry rest ih =>
    obtain ⟨k, v⟩ := entry
    simp only [get?] at ih
    by_cases before : key < k
    · simp [insert, get?, before, List.lookup_cons, skipped]
    · by_cases same : key = k
      · subst same
        simp [insert, get?, List.lookup_cons, skipped]
      · simp [insert, get?, before, same, List.lookup_cons, ih]

theorem get?_erase_self (key : String) (entries : Keyed α) :
    (entries.erase key).get? key = none := by
  apply List.lookup_eq_none_iff.2
  intro entry member
  have kept : entry.1 ≠ key := by simpa using (List.mem_filter.1 member).2
  simpa using kept.symm

theorem get?_erase_of_ne {key other : String} (entries : Keyed α) (different : other ≠ key) :
    (entries.erase key).get? other = entries.get? other := by
  induction entries with
  | nil => rfl
  | cons entry rest ih =>
    obtain ⟨k, v⟩ := entry
    simp only [get?, erase] at ih
    by_cases same : k = key
    · have skipped : (other == key) = false := by simpa using different
      simp [get?, erase, same, List.lookup_cons, skipped, ih]
    · simp [get?, erase, same, List.lookup_cons, ih]

end Keyed

end StructureEditor
