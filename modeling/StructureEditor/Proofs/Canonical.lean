import StructureEditor.Proofs.Ways

/-! Equal values. Two candidates count as equal if their values do, where zero has both signs. Every
value has a canonical form, equal values have the same one, and so have the documents that
differ in such values only. -/
namespace StructureEditor

namespace Double

def canon (x : Double) : Double := if x.magnitude.isZero then ⟨false, .zero⟩ else x

theorem same_iff {x y : Double} : x.same y = true ↔ x.canon = y.canon := by
  have zero : Magnitude.zero.isZero = true := rfl
  simp only [same, Bool.or_eq_true, Bool.and_eq_true, beq_iff_eq, canon]
  constructor
  · rintro (rfl | ⟨first, second⟩)
    · rfl
    · rw [if_pos first, if_pos second]
  · intro same
    by_cases first : x.magnitude.isZero = true
    · by_cases second : y.magnitude.isZero = true
      · exact .inr ⟨first, second⟩
      · rw [if_pos first, if_neg second] at same
        rw [← same] at second
        exact absurd zero second
    · by_cases second : y.magnitude.isZero = true
      · rw [if_neg first, if_pos second] at same
        rw [same] at first
        exact absurd zero first
      · rw [if_neg first, if_neg second] at same
        exact .inl same

theorem canon_canon (x : Double) : x.canon.canon = x.canon := by
  by_cases zero : x.magnitude.isZero = true
  · simp only [canon, zero, if_true]
    rfl
  · simp [canon, zero]

end Double

namespace Number

def canon : Number → Number
  | .int value => .int value
  | .real value => .real value.canon

theorem same_iff {a b : Number} : a.same b = true ↔ a.canon = b.canon := by
  cases a <;> cases b <;> simp [same, canon, Double.same_iff]

theorem canon_canon (a : Number) : a.canon.canon = a.canon := by
  cases a <;> simp [canon, Double.canon_canon]

end Number

namespace Json

mutual

def canon : Json → Json
  | .null => .null
  | .bool value => .bool value
  | .number value => .number value.canon
  | .string value => .string value
  | .array items => .array (canonItems items)
  | .object fields => .object (canonFields fields)

def canonItems : List Json → List Json
  | [] => []
  | item :: rest => canon item :: canonItems rest

def canonFields : List (String × Json) → List (String × Json)
  | [] => []
  | (key, value) :: rest => (key, canon value) :: canonFields rest

end

mutual

theorem same_iff : ∀ a b : Json, a.same b = true ↔ a.canon = b.canon
  | .array as, b => by
    cases b <;> simp [same, canon, sameItems_iff as]
  | .object as, b => by
    cases b <;> simp [same, canon, sameFields_iff as]
  | .null, b => by cases b <;> simp [same, canon]
  | .bool _, b => by cases b <;> simp [same, canon]
  | .number _, b => by cases b <;> simp [same, canon, Number.same_iff]
  | .string _, b => by cases b <;> simp [same, canon]

theorem sameItems_iff : ∀ as bs : List Json, sameItems as bs = true ↔ canonItems as = canonItems bs
  | [], bs => by cases bs <;> simp [sameItems, canonItems]
  | a :: as, bs => by
    cases bs <;> simp [sameItems, canonItems, same_iff a, sameItems_iff as]

theorem sameFields_iff : ∀ as bs : List (String × Json),
    sameFields as bs = true ↔ canonFields as = canonFields bs
  | [], bs => by cases bs <;> simp [sameFields, canonFields]
  | (key, a) :: as, bs => by
    cases bs <;> simp [sameFields, canonFields, same_iff a, sameFields_iff as, and_assoc]

end

mutual

theorem canon_canon : ∀ a : Json, a.canon.canon = a.canon
  | .array as => by simp [canon, canonItems_canon as]
  | .object as => by simp [canon, canonFields_canon as]
  | .null => rfl
  | .bool _ => rfl
  | .number _ => by simp [canon, Number.canon_canon]
  | .string _ => rfl

theorem canonItems_canon : ∀ as : List Json, canonItems (canonItems as) = canonItems as
  | [] => rfl
  | a :: as => by simp [canonItems, canon_canon a, canonItems_canon as]

theorem canonFields_canon : ∀ as : List (String × Json),
    canonFields (canonFields as) = canonFields as
  | [] => rfl
  | (key, a) :: as => by simp [canonFields, canon_canon a, canonFields_canon as]

end

end Json

namespace Candidate

def canon (c : Candidate) : Candidate := ⟨c.className, c.value.canon⟩

theorem beq_iff {a b : Candidate} : (a == b) = true ↔ a.canon = b.canon := by
  have unfolded : (a == b) = (a.className == b.className && a.value.same b.value) := rfl
  simp [unfolded, canon, Json.same_iff]

theorem canon_canon (c : Candidate) : c.canon.canon = c.canon := by
  simp [canon, Json.canon_canon]

end Candidate

namespace Sketch

variable {S : Signature}

mutual

def canon : Sketch S → Sketch S
  | .token c shown item => .token c shown (item.map Candidate.canon)
  | .text c shown item => .text c shown (item.map Candidate.canon)
  | .expanded c content => .expanded c (canon content)
  | .compound c parts => .compound c (canonAll parts)
  | .list c items => .list c (canonAll items)

def canonAll : List (Sketch S) → List (Sketch S)
  | [] => []
  | d :: ds => canon d :: canonAll ds

end

theorem canonAll_eq_map (ds : List (Sketch S)) : canonAll ds = ds.map canon := by
  induction ds with
  | nil => rfl
  | cons d ds ih => rw [canonAll, ih, List.map_cons]

@[simp] theorem classKey_canon (d : Sketch S) : d.canon.classKey = d.classKey := by
  cases d <;> rfl

@[simp] theorem canon_canon (d : Sketch S) : d.canon.canon = d.canon := by
  have item : ∀ item : Option Candidate,
      (item.map Candidate.canon).map Candidate.canon = item.map Candidate.canon := by
    intro item
    cases item <;> simp [Candidate.canon_canon]
  induction d using Sketch.induct with
  | token c shown chosen => simp [canon, item]
  | text c shown chosen => simp [canon, item]
  | expanded c content ih => simp [canon, ih]
  | compound c parts ih =>
    simp only [canon, canonAll_eq_map, List.map_map]
    exact congrArg (compound c) (List.map_congr_left ih)
  | list c items ih =>
    simp only [canon, canonAll_eq_map, List.map_map]
    exact congrArg (list c) (List.map_congr_left ih)

theorem part?_canon (d : Sketch S) (position : Position) :
    d.canon.part? position = (d.part? position).map canon := by
  cases d <;> cases position <;> simp [canon, part?, canonAll_eq_map]

theorem at?_canon (d : Sketch S) (way : List Position) :
    d.canon.at? way = (d.at? way).map canon := by
  induction way generalizing d with
  | nil => rfl
  | cons position rest ih =>
    rw [at?, at?, part?_canon]
    cases d.part? position with
    | none => rfl
    | some e => exact ih e

variable [Language S]

theorem conforms_canon {d : Sketch S} : d.canon.Conforms ↔ d.Conforms := by
  have classes : ∀ ds : List (Sketch S), (ds.map canon).map classKey = ds.map classKey := by
    intro ds
    rw [List.map_map]
    exact List.map_congr_left fun d _ => classKey_canon d
  induction d using Sketch.induct with
  | token c shown item => exact Iff.rfl
  | text c shown item => exact Iff.rfl
  | expanded c content ih => exact ih
  | compound c parts ih =>
    simp only [canon, Conforms, canonAll_eq_map, classes, allConform_iff, List.forall_mem_map]
    exact and_congr Iff.rfl (forall₂_congr fun d member => ih d member)
  | list c items ih =>
    simp only [canon, Conforms, canonAll_eq_map, allConform_iff, List.forall_mem_map,
      classKey_canon]
    exact and_congr Iff.rfl (forall₂_congr fun d member => ih d member)

end Sketch

def Language.Steady (S : Signature) [Language S] : Prop :=
  (∀ (c : S.TokenClass) (a b : Candidate), (a == b) = true →
    (Language.token c).compileCandidate a = (Language.token c).compileCandidate b) ∧
  ∀ (c : S.ExpanderClass) (a b : Candidate), (a == b) = true →
    (Language.expander c).compileCandidate a = (Language.expander c).compileCandidate b

namespace Sketch

variable {S : Signature} [Language S]

theorem value_canon (steady : Language.Steady S) (d : Sketch S) : d.canon.value = d.value := by
  have same : ∀ c : Candidate, (c.canon == c) = true :=
    fun c => Candidate.beq_iff.2 (Candidate.canon_canon c)
  induction d using Sketch.induct with
  | token c shown item =>
    cases item with
    | none => rfl
    | some item => simp only [canon, value, Option.map_some, steady.1 c _ _ (same item)]
  | text c shown item =>
    cases item with
    | none => rfl
    | some item => simp only [canon, value, Option.map_some, steady.2 c _ _ (same item)]
  | expanded c content ih => exact ih
  | compound c parts ih =>
    simp only [canon, value, values_eq_map, canonAll_eq_map, List.map_map]
    exact congrArg (composed _) (List.map_congr_left ih)
  | list c items ih =>
    simp only [canon, value, values_eq_map, canonAll_eq_map, List.map_map]
    exact congrArg (composed _) (List.map_congr_left ih)

theorem sameAll_toSnapshots {ds es : List (Sketch S)} (same : ds.map canon = es.map canon)
    (each : ∀ d ∈ ds, ∀ e : Sketch S, d.canon = e.canon → d.toSnapshot.same e.toSnapshot = true) :
    Snapshot.sameAll (toSnapshots ds) (toSnapshots es) = true := by
  induction ds generalizing es with
  | nil =>
    cases es with
    | nil => rfl
    | cons e es => cases same
  | cons d ds ih =>
    cases es with
    | nil => cases same
    | cons e es =>
      obtain ⟨first, rest⟩ := List.cons.inj same
      simp only [toSnapshots, Snapshot.sameAll, Bool.and_eq_true]
      exact ⟨each d (by simp) e first, ih rest fun d member => each d (by simp [member])⟩

theorem same_choice {a b : Option Candidate} (same : a.map Candidate.canon = b.map Candidate.canon) :
    a.map (·.className) = b.map (·.className) ∧
      Snapshot.sameOption Json.same (a.map (·.value)) (b.map (·.value)) = true := by
  cases a with
  | none =>
    cases b with
    | none => exact ⟨rfl, rfl⟩
    | some b => cases same
  | some a =>
    cases b with
    | none => cases same
    | some b =>
      obtain ⟨name, value⟩ := Candidate.mk.inj (Option.some.inj same)
      exact ⟨congrArg some name, (Json.same_iff a.value b.value).2 value⟩

theorem same_toSnapshot {d e : Sketch S} (same : d.canon = e.canon) :
    d.toSnapshot.same e.toSnapshot = true := by
  induction d using Sketch.induct generalizing e with
  | token c shown item =>
    cases e with
    | token c' shown' item' =>
      simp only [canon, token.injEq] at same
      obtain ⟨rfl, rfl, same⟩ := same
      obtain ⟨name, value⟩ := same_choice same
      simp [toSnapshot, Snapshot.ofToken, Snapshot.same, name, value]
    | _ => simp [canon] at same
  | text c shown item =>
    cases e with
    | text c' shown' item' =>
      simp only [canon, text.injEq] at same
      obtain ⟨rfl, rfl, same⟩ := same
      obtain ⟨name, value⟩ := same_choice same
      simp [toSnapshot, Snapshot.ofExpander, Snapshot.same, Snapshot.sameContent, name, value]
    | _ => simp [canon] at same
  | expanded c content ih =>
    cases e with
    | expanded c' content' =>
      simp only [canon, expanded.injEq] at same
      obtain ⟨rfl, same⟩ := same
      simp [toSnapshot, Snapshot.ofExpander, Snapshot.same, Snapshot.sameContent, ih same,
        Snapshot.sameOption]
    | _ => simp [canon] at same
  | compound c parts ih =>
    cases e with
    | compound c' parts' =>
      simp only [canon, compound.injEq, canonAll_eq_map] at same
      obtain ⟨rfl, same⟩ := same
      simp [toSnapshot, Snapshot.same, sameAll_toSnapshots same fun d member _ => ih d member]
    | _ => simp [canon] at same
  | list c items ih =>
    cases e with
    | list c' items' =>
      simp only [canon, list.injEq, canonAll_eq_map] at same
      obtain ⟨rfl, same⟩ := same
      simp [toSnapshot, Snapshot.same, sameAll_toSnapshots same fun d member _ => ih d member]
    | _ => simp [canon] at same

end Sketch

end StructureEditor
