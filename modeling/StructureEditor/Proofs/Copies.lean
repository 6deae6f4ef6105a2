import StructureEditor.Json.Document
import StructureEditor.Proofs.Rereading
import Mathlib.Data.List.Nodup

/-! Documents as values. A value keeps the fields of an object in the order of their keys; apart
from that a document that is taken as a value and written out again is the same, so a record is
read from it as from the document itself. -/
namespace StructureEditor

section

variable {α β : Type}

theorem mapM_eq_some {g : α → Option β} {h : α → β} {xs : List α}
    (each : ∀ x ∈ xs, g x = some (h x)) : xs.mapM g = some (xs.map h) := by
  induction xs with
  | nil => rfl
  | cons x xs ih =>
    obtain ⟨first, each⟩ := List.forall_mem_cons.1 each
    simp [first, ih each]

theorem lookup_eq_none {fields : List (String × α)} {key : String}
    (absent : key ∉ fields.map (·.1)) : fields.lookup key = none :=
  List.lookup_eq_none_iff.2 fun field member => by
    have other : key ≠ field.1 := fun same => absent (List.mem_map.2 ⟨field, member, same.symm⟩)
    simpa using other

theorem lookup_map (g : α → β) (fields : List (String × α)) (key : String) :
    (fields.map fun field => (field.1, g field.2)).lookup key = (fields.lookup key).map g := by
  induction fields with
  | nil => rfl
  | cons field fields ih =>
    obtain ⟨k, v⟩ := field
    rw [List.map_cons, List.lookup_cons, List.lookup_cons, ih]
    cases key == k <;> rfl

end

namespace Keyed

variable {α : Type} {entries : Keyed α}

def Sorted (entries : Keyed α) : Prop := entries.Pairwise fun a b => a.1 < b.1

theorem Sorted.nodup (sorted : entries.Sorted) : (entries.map (·.1)).Nodup :=
  List.pairwise_map.2 (sorted.imp fun before => Std.ne_of_lt before)

theorem mem_insert {key : String} {value : α} {entry : String × α}
    (member : entry ∈ entries.insert key value) : entry = (key, value) ∨ entry ∈ entries := by
  induction entries with
  | nil => exact .inl (List.mem_singleton.1 member)
  | cons first rest ih =>
    obtain ⟨k, v⟩ := first
    simp only [insert] at member
    split_ifs at member
    · exact List.mem_cons.1 member
    · exact (List.mem_cons.1 member).imp_right (List.mem_cons_of_mem _)
    · rcases List.mem_cons.1 member with rfl | later
      · exact .inr List.mem_cons_self
      · exact (ih later).imp_right (List.mem_cons_of_mem _)

theorem Sorted.insert (sorted : entries.Sorted) (key : String) (value : α) :
    (entries.insert key value).Sorted := by
  induction entries with
  | nil => exact List.pairwise_singleton _ _
  | cons first rest ih =>
    obtain ⟨k, v⟩ := first
    obtain ⟨above, below⟩ := List.pairwise_cons.1 sorted
    simp only [Keyed.insert]
    split_ifs with before same
    · refine List.pairwise_cons.2 ⟨fun entry member => ?_, sorted⟩
      rcases List.mem_cons.1 member with rfl | later
      · exact before
      · exact String.lt_trans before (above entry later)
    · subst same
      exact List.pairwise_cons.2 ⟨above, below⟩
    · refine List.pairwise_cons.2 ⟨fun entry member => ?_, ih below⟩
      rcases mem_insert member with rfl | later
      · exact Std.lt_of_le_of_ne (String.not_lt.1 before) (Ne.symm same)
      · exact above entry later

theorem insert_last {key : String} (value : α) (last : ∀ entry ∈ entries, entry.1 < key) :
    entries.insert key value = entries ++ [(key, value)] := by
  induction entries with
  | nil => rfl
  | cons first rest ih =>
    obtain ⟨k, v⟩ := first
    obtain ⟨before, rest⟩ := List.forall_mem_cons.1 last
    have ne : key ≠ k := fun same => String.lt_irrefl _ (same ▸ before)
    rw [insert, if_neg (String.lt_asymm before), if_neg ne, ih rest, List.cons_append]

def insertAll (entries : Keyed α) (more : List (String × α)) : Keyed α :=
  more.foldl (fun sorted (key, value) => insert key value sorted) entries

theorem Sorted.insertAll (sorted : entries.Sorted) (more : List (String × α)) :
    (entries.insertAll more).Sorted := by
  induction more generalizing entries with
  | nil => exact sorted
  | cons entry more ih => exact ih (sorted.insert entry.1 entry.2)

theorem insertAll_of_sorted {more : List (String × α)} (sorted : Sorted (entries ++ more)) :
    entries.insertAll more = entries ++ more := by
  induction more generalizing entries with
  | nil => rw [List.append_nil]; rfl
  | cons entry more ih =>
    obtain ⟨-, -, across⟩ := List.pairwise_append.1 sorted
    have placed := insert_last entry.2 fun earlier member =>
      across earlier member entry List.mem_cons_self
    have next : entries.insertAll (entry :: more) =
        (entries.insert entry.1 entry.2).insertAll more := rfl
    rw [List.append_cons] at sorted
    rw [next, placed, ih sorted, ← List.append_cons]

theorem get?_insertAll {more : List (String × α)} (distinct : (more.map (·.1)).Nodup)
    (key : String) :
    (entries.insertAll more).get? key = (more.lookup key).or (entries.get? key) := by
  induction more generalizing entries with
  | nil => rfl
  | cons entry more ih =>
    obtain ⟨k, v⟩ := entry
    obtain ⟨fresh, distinct⟩ := List.nodup_cons.1 distinct
    have next : entries.insertAll ((k, v) :: more) = (entries.insert k v).insertAll more := rfl
    rw [next, ih distinct, List.lookup_cons]
    by_cases same : key = k
    · subst same
      rw [lookup_eq_none fresh, get?_insert_self, beq_self_eq_true]
      rfl
    · rw [get?_insert_of_ne _ _ same, beq_eq_false_iff_ne.2 same]

theorem sorted_ofList (more : List (String × α)) : (ofList more).Sorted :=
  Sorted.insertAll List.Pairwise.nil more

theorem ofList_of_sorted (sorted : entries.Sorted) : ofList entries = entries :=
  insertAll_of_sorted sorted

theorem get?_ofList {more : List (String × α)} (distinct : (more.map (·.1)).Nodup) (key : String) :
    (ofList more).get? key = more.lookup key :=
  (get?_insertAll distinct key).trans (Option.or_none ..)

end Keyed

namespace Json

mutual

/-- A value without numbers that have a point or go beyond a word, and with its fields in
order. -/
def Whole : Json → Prop
  | .null | .bool _ | .string _ => True
  | .number (.int n) => Document.IsWord n
  | .number (.real _) => False
  | .array items => WholeItems items
  | .object fields => Keyed.Sorted fields ∧ WholeFields fields

def WholeItems : List Json → Prop
  | [] => True
  | item :: rest => Whole item ∧ WholeItems rest

def WholeFields : List (String × Json) → Prop
  | [] => True
  | (_, value) :: rest => Whole value ∧ WholeFields rest

end

end Json

namespace Document

mutual

theorem toJson_ofJson : ∀ {v : Json}, v.Whole → (ofJson v).toJson = v
  | .null, _ | .bool _, _ | .string _, _ | .number (.int _), _ => rfl
  | .array items, whole => by rw [ofJson, toJson, itemValues_ofItems whole]
  | .object fields, ⟨sorted, whole⟩ => by
    rw [ofJson, toJson, fieldValues_ofFields whole, Json.ofFields, Keyed.ofList_of_sorted sorted]

theorem itemValues_ofItems : ∀ {items : List Json}, Json.WholeItems items →
    itemValues (ofItems items) = items
  | [], _ => rfl
  | _ :: _, ⟨first, rest⟩ => by
    rw [ofItems, itemValues, toJson_ofJson first, itemValues_ofItems rest]

theorem fieldValues_ofFields : ∀ {fields : List (String × Json)}, Json.WholeFields fields →
    fieldValues (ofFields fields) = fields
  | [], _ => rfl
  | (_, _) :: _, ⟨first, rest⟩ => by
    rw [ofFields, fieldValues, toJson_ofJson first, fieldValues_ofFields rest]

end

mutual

theorem plain_ofJson : ∀ {v : Json}, v.Whole → (ofJson v).Plain
  | .null, _ | .bool _, _ | .string _, _ => trivial
  | .number (.int _), whole => whole
  | .array _, whole => plain_ofItems whole
  | .object _, ⟨_, whole⟩ => plain_ofFields whole

theorem plain_ofItems : ∀ {items : List Json}, Json.WholeItems items → PlainItems (ofItems items)
  | [], _ => trivial
  | _ :: _, ⟨first, rest⟩ => ⟨plain_ofJson first, plain_ofItems rest⟩

theorem plain_ofFields : ∀ {fields : List (String × Json)}, Json.WholeFields fields →
    PlainFields (ofFields fields)
  | [], _ => trivial
  | (_, _) :: _, ⟨first, rest⟩ => ⟨plain_ofJson first, plain_ofFields rest⟩

end

mutual

theorem readable_ofJson : ∀ v : Json, (ofJson v).readable = true
  | .null | .bool _ | .string _ | .number _ => rfl
  | .array items => readable_ofItems items
  | .object fields => readable_ofFields fields

theorem readable_ofItems : ∀ items : List Json, readableItems (ofItems items) = true
  | [] => rfl
  | item :: rest => by rw [ofItems, readableItems, readable_ofJson item, readable_ofItems rest]; rfl

theorem readable_ofFields : ∀ fields : List (String × Json), readableFields (ofFields fields) = true
  | [] => rfl
  | (_, value) :: rest => by
    rw [ofFields, readableFields, readable_ofJson value, readable_ofFields rest]; rfl

end

theorem readable_of_plain {d : Document} (plain : d.Plain) : d.readable = true := by
  have readable := (readable_clip_iff plain).2 (Nat.le_refl d.depth)
  rwa [clip_of_depth_le (Nat.le_refl _)] at readable

def entries : Document → List (String × Document)
  | .object fields => fields
  | _ => []

theorem only?_eq_lookup {fields : List (String × Document)} (distinct : (fields.map (·.1)).Nodup)
    (key : String) : only? key fields = some (fields.lookup key) := by
  have picked : fields.filter (·.1 == key) =
      ((fields.lookup key).map fun value => (key, value)).toList := by
    induction fields with
    | nil => rfl
    | cons field fields ih =>
      obtain ⟨k, v⟩ := field
      obtain ⟨fresh, distinct⟩ := List.nodup_cons.1 distinct
      rw [List.filter_cons, List.lookup_cons, ih distinct]
      by_cases same : k = key
      · subst same
        simp [lookup_eq_none fresh]
      · have other : (key == k) = false := by simpa using Ne.symm same
        simp [same, other]
  rw [only?, picked]
  cases fields.lookup key <;> rfl

/-- Ways for a document to travel. Its words stay as they are, its items keep their places, and the
fields of its objects their names. -/
structure Carries (f : Document → Document) : Prop where
  null : f .null = .null
  number : ∀ n, f (.number n) = .number n
  string : ∀ s, f (.string s) = .string s
  array : ∀ items, f (.array items) = .array (items.map f)
  object : ∀ fields, (fields.map (·.1)).Nodup → ∃ carried, f (.object fields) = .object carried ∧
    ∀ key, only? key carried = some ((fields.lookup key).map f)
  variant : ∀ key d, f (.object [(key, d)]) = .object [(key, f d)]
  value : ∀ v : Json, v.Whole → f (.ofJson v) = .ofJson v
  readable : ∀ d : Document, d.readable = true → (f d).readable = true

theorem carries_id : Carries id where
  null := rfl
  number _ := rfl
  string _ := rfl
  array items := by rw [List.map_id]; rfl
  object fields distinct := ⟨fields, rfl, fun key => by
    rw [only?_eq_lookup distinct, Option.map_id]; rfl⟩
  variant _ _ := rfl
  value _ _ := rfl
  readable _ readable := readable

def copy (d : Document) : Document := ofJson d.toJson

theorem itemValues_eq_map (items : List Document) : itemValues items = items.map toJson := by
  induction items with
  | nil => rfl
  | cons item items ih => rw [itemValues, ih, List.map_cons]

theorem ofItems_eq_map (items : List Json) : ofItems items = items.map ofJson := by
  induction items with
  | nil => rfl
  | cons item items ih => rw [ofItems, ih, List.map_cons]

theorem fieldValues_eq_map (fields : List (String × Document)) :
    fieldValues fields = fields.map fun field => (field.1, field.2.toJson) := by
  induction fields with
  | nil => rfl
  | cons field fields ih => rw [fieldValues, ih, List.map_cons]

theorem ofFields_eq_map (fields : List (String × Json)) :
    ofFields fields = fields.map fun field => (field.1, ofJson field.2) := by
  induction fields with
  | nil => rfl
  | cons field fields ih => rw [ofFields, ih, List.map_cons]

theorem carries_copy : Carries copy where
  null := rfl
  number _ := rfl
  string _ := rfl
  array items := by
    rw [copy, toJson, ofJson, itemValues_eq_map, ofItems_eq_map, List.map_map]
    rfl
  object fields distinct := by
    refine ⟨ofFields (Keyed.ofList (fieldValues fields)), rfl, fun key => ?_⟩
    have sorted := Keyed.sorted_ofList (fieldValues fields)
    have names : (fieldValues fields).map (·.1) = fields.map (·.1) := by
      rw [fieldValues_eq_map, List.map_map]
      rfl
    have named : ((ofFields (Keyed.ofList (fieldValues fields))).map (·.1)).Nodup := by
      rw [ofFields_eq_map, List.map_map]
      exact sorted.nodup
    have found : (Keyed.ofList (fieldValues fields)).lookup key =
        (fields.lookup key).map toJson := by
      rw [← lookup_map, ← fieldValues_eq_map]
      exact Keyed.get?_ofList (names ▸ distinct) key
    rw [only?_eq_lookup named, ofFields_eq_map, lookup_map, found, Option.map_map]
    rfl
  variant _ _ := rfl
  value v whole := congrArg ofJson (toJson_ofJson whole)
  readable d _ := readable_ofJson _

end Document

end StructureEditor
