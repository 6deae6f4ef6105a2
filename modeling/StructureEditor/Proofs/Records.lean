import StructureEditor.Json.Medium
import StructureEditor.Proofs.Copies

/-! Reading records. Some fields of a record are there only if they have a value; what is read for a
key is what was written for it, in the record itself and in one that has travelled. -/
namespace StructureEditor.Document

section

variable {α : Type} {key other : String} {f : α → Document}

theorem lookup_optional (key : String) (f : α → Document) (o : Option α) (other : String) :
    (optional key f o).lookup other = if other = key then o.map f else none := by
  cases o with
  | none => simp [optional]
  | some value =>
    simp only [optional, List.lookup_cons]
    by_cases same : other = key
    · simp [same]
    · simp [same, beq_false_of_ne same]

theorem keys_optional_sublist (key : String) (f : α → Document) (o : Option α) :
    ((optional key f o).map (·.1)).Sublist [key] := by
  cases o with
  | none => exact List.nil_sublist _
  | some => exact List.Sublist.refl _

theorem plainFields_append {fields more : List (String × Document)} :
    PlainFields (fields ++ more) ↔ PlainFields fields ∧ PlainFields more := by
  simp [plainFields_iff, or_imp, forall_and]

theorem plainFields_optional {o : Option α} :
    PlainFields (optional key f o) ↔ ∀ value ∈ o, (f value).Plain := by
  cases o <;> simp [optional, PlainFields]

theorem depthFields_append (fields more : List (String × Document)) :
    depthFields (fields ++ more) = max (depthFields fields) (depthFields more) := by
  induction fields with
  | nil => simp [depthFields]
  | cons field fields ih => simp [depthFields, ih, Nat.max_assoc]

theorem depthFields_optional (key : String) (f : α → Document) (o : Option α) :
    depthFields (optional key f o) = (o.map fun value => (f value).depth).getD 0 := by
  cases o <;> simp [optional, depthFields]

end

theorem plainFields_strings (key : String) (o : Option String) :
    PlainFields (optional key .string o) := plainFields_optional.2 fun _ _ => trivial

theorem depthFields_strings (key : String) (o : Option String) :
    depthFields (optional key .string o) = 0 := by
  cases o <;> rfl

theorem depth_le_of_only? {key : String} {fields : List (String × Document)} {d : Document}
    (found : only? key fields = some (some d)) : d.depth ≤ depthFields fields := by
  have member : (key, d) ∈ fields.filter (·.1 == key) := by
    rw [only?] at found
    split at found
    · cases found
    · next value picked =>
      cases found
      have first : (_, d) ∈ fields.filter (·.1 == key) := picked ▸ List.mem_cons_self
      obtain ⟨-, same⟩ := List.mem_filter.1 first
      obtain rfl := eq_of_beq same
      exact first
    · cases found
  exact depthFields_le_iff.1 (Nat.le_refl _) _ (List.mem_of_mem_filter member)

variable {f : Document → Document}

theorem Carries.maybe_string (carries : Carries f) (o : Option String) :
    maybe? string? (o.map (f ∘ .string)) = some o := by
  cases o with
  | none => rfl
  | some s =>
    rw [Option.map_some, Function.comp_apply, carries.string]
    rfl

theorem Carries.record? (carries : Carries f) {fields : List (String × Document)}
    (distinct : (fields.map (·.1)).Nodup) (names : List String) :
    (f (.object fields)).record? names =
      some (names.map fun name => (fields.lookup name).map f) := by
  obtain ⟨carried, travelled, only⟩ := carries.object fields distinct
  rw [travelled]
  exact mapM_eq_some fun name _ => only name

theorem Carries.variantFields? (carries : Carries f) (medium : Medium)
    {fields : List (String × Document)} (distinct : (fields.map (·.1)).Nodup)
    (names : List String) : medium.variantFields? names (f (.object fields)) =
      some (names.map fun name => (fields.lookup name).map f) := by
  have record := carries.record? distinct names
  obtain ⟨carried, travelled, -⟩ := carries.object fields distinct
  rw [travelled] at record ⊢
  exact record

theorem natBelow?_nat {n bound : Nat} (below : n < bound) : (nat n).natBelow? bound = some n := by
  have within : (0 : Int) ≤ n ∧ (n : Int) < bound := ⟨Int.natCast_nonneg n, Int.ofNat_lt.2 below⟩
  simp [natBelow?, nat, intWithin?, within]

theorem Carries.nat (carries : Carries f) (n : Nat) : f (.nat n) = .nat n := carries.number _

theorem plain_nat {n : Nat} (word : n < wordLimit) : (nat n).Plain :=
  ⟨by omega, by exact_mod_cast word⟩

end StructureEditor.Document
