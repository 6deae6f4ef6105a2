import StructureEditor.Proofs.Records
import StructureEditor.Snapshot.Codec

/-! Snapshots as JSON. What is written for a snapshot is read as the same snapshot, but for one
thing: a null value of a candidate is read as an absent one, which means the same. -/
namespace StructureEditor

namespace Snapshot

def parts : Snapshot → List Snapshot
  | .token .. => []
  | .expander _ content _ _ _ => content.toList
  | .compound _ components => components
  | .list _ items => items

theorem induct {motive : Snapshot → Prop}
    (step : ∀ s : Snapshot, (∀ part ∈ s.parts, motive part) → motive s) (s : Snapshot) :
    motive s := by
  refine @Snapshot.rec motive (fun content => ∀ part ∈ content.toList, motive part)
    (fun parts => ∀ part ∈ parts, motive part) (fun _ _ _ _ => step _ (by simp [parts]))
    (fun _ _ _ _ _ inside => step _ inside) (fun _ _ inside => step _ inside)
    (fun _ _ inside => step _ inside) (by simp) (fun s holds => by simpa) (by simp) ?_ s
  exact fun s parts first rest => List.forall_mem_cons.2 ⟨first, rest⟩

def normItem : Option Json → Option Json
  | some .null => none
  | item => item

mutual

def norm : Snapshot → Snapshot
  | .token name text itemClass item => .token name text itemClass (normItem item)
  | .expander name content text itemClass item =>
    .expander name (normContent content) text itemClass (normItem item)
  | .compound name components => .compound name (normAll components)
  | .list name items => .list name (normAll items)

def normContent : Option Snapshot → Option Snapshot
  | none => none
  | some content => some (norm content)

def normAll : List Snapshot → List Snapshot
  | [] => []
  | s :: rest => norm s :: normAll rest

end

theorem normAll_eq_map (parts : List Snapshot) : normAll parts = parts.map norm := by
  induction parts with
  | nil => rfl
  | cons s rest ih => rw [normAll, ih, List.map_cons]

theorem toDocuments_eq_map (parts : List Snapshot) : toDocuments parts = parts.map toDocument := by
  induction parts with
  | nil => rfl
  | cons s rest ih => rw [toDocuments, ih, List.map_cons]

mutual

def Whole : Snapshot → Prop
  | .token _ _ _ item => ∀ v ∈ item, v.Whole
  | .expander _ content _ _ item => WholeContent content ∧ ∀ v ∈ item, v.Whole
  | .compound _ components => WholeAll components
  | .list _ items => WholeAll items

def WholeContent : Option Snapshot → Prop
  | none => True
  | some content => Whole content

def WholeAll : List Snapshot → Prop
  | [] => True
  | s :: rest => Whole s ∧ WholeAll rest

end

theorem wholeAll_iff {parts : List Snapshot} : WholeAll parts ↔ ∀ s ∈ parts, s.Whole := by
  induction parts with
  | nil => simp [WholeAll]
  | cons s rest ih => simp [WholeAll, ih]

theorem Whole.part {s part : Snapshot} (whole : s.Whole) (member : part ∈ s.parts) :
    part.Whole := by
  cases s with
  | token => cases member
  | expander _ content =>
    cases content with
    | none => cases member
    | some content =>
      obtain rfl := List.mem_singleton.1 member
      exact whole.1
  | compound => exact wholeAll_iff.1 whole part member
  | list => exact wholeAll_iff.1 whole part member

def itemNesting : Option Json → Nat
  | none => 0
  | some v => (Document.ofJson v).depth

mutual

/-- How deep the arrays and objects are nested that a snapshot is written with. -/
def nesting : Snapshot → Nat
  | .token _ _ _ item => 1 + itemNesting item
  | .expander _ content _ _ item => 1 + max (contentNesting content) (itemNesting item)
  | .compound _ components => 2 + allNesting components
  | .list _ items => 2 + allNesting items

def contentNesting : Option Snapshot → Nat
  | none => 0
  | some content => nesting content

def allNesting : List Snapshot → Nat
  | [] => 0
  | s :: rest => max (nesting s) (allNesting rest)

end

open Document

def fields (s : Snapshot) : List (String × Document) := s.toDocument.entries

theorem toDocument_eq (s : Snapshot) : s.toDocument = .object s.fields := by
  cases s <;> rfl

section

variable {name text' itemClass : Option String} {text : String} {content : Option Snapshot}
  {item : Option Json} {parts : List Snapshot}

theorem fields_token : fields (.token name text itemClass item) = classField name ++
    typeField .token :: ("text", .string text) :: itemFields itemClass item :=
  rfl

theorem fields_expander : fields (.expander name content text' itemClass item) =
    classField name ++ typeField .expander :: contentField content ++
      Document.optional "text" .string text' ++ itemFields itemClass item :=
  rfl

theorem fields_compound : fields (.compound name parts) =
    classField name ++ [typeField .compound, ("components", .array (toDocuments parts))] :=
  rfl

theorem fields_list : fields (.list name parts) =
    classField name ++ [typeField .list, ("items", .array (toDocuments parts))] :=
  rfl

end

theorem contentField_eq (content : Option Snapshot) :
    contentField content = Document.optional "editor" toDocument content := by
  cases content <;> simp [contentField, Document.optional]

def keys : List String :=
  ["_class", "_type", "editor", "text", "completionClass", "completion", "components", "items"]

theorem keys_sublist (s : Snapshot) : (s.fields.map (·.1)).Sublist keys := by
  have among : ∀ {written names : List String}, written.Sublist names →
      names.isSublist keys = true → written.Sublist keys := fun inner outer =>
    inner.trans (List.isSublist_iff_sublist.1 outer)
  have named (name : Option String) := keys_optional_sublist "_class" .string name
  have chosen (itemClass : Option String) (item : Option Json) :=
    (keys_optional_sublist "completionClass" .string itemClass).append
      (keys_optional_sublist "completion" .ofJson item)
  cases s with
  | token name text itemClass item =>
    have written := (named name).append
      (((chosen itemClass item).cons_cons "text").cons_cons "_type")
    simp only [fields_token, itemFields, List.map_append, List.map_cons]
    exact among written rfl
  | expander name content text itemClass item =>
    have inside := keys_optional_sublist "editor" toDocument content
    have written := (((named name).append (inside.cons_cons "_type")).append
      (keys_optional_sublist "text" .string text)).append (chosen itemClass item)
    simp only [fields_expander, itemFields, contentField_eq, List.map_append, List.map_cons]
    exact among written rfl
  | compound name components =>
    rw [fields_compound, List.map_append]
    exact among ((named name).append (.refl ["_type", "components"])) rfl
  | list name items =>
    rw [fields_list, List.map_append]
    exact among ((named name).append (.refl ["_type", "items"])) rfl

theorem nodup_fields (s : Snapshot) : (s.fields.map (·.1)).Nodup :=
  s.keys_sublist.nodup (by decide)

theorem lookup_classField (name : Option String) (key : String) :
    (classField name).lookup key = if key = "_class" then name.map .string else none :=
  lookup_optional ..

theorem lookup_itemFields (itemClass : Option String) (item : Option Json) (key : String) :
    (itemFields itemClass item).lookup key = if key = "completionClass" then
      itemClass.map .string else if key = "completion" then item.map .ofJson else none := by
  rw [itemFields, List.lookup_append, lookup_optional, lookup_optional]
  by_cases first : key = "completionClass"
  · subst first
    simp
  · simp [first]

theorem lookup_kind (s : Snapshot) : s.fields.lookup "_class" = s.className.map .string ∧
    s.fields.lookup "_type" = some (.string s.shape.name) := by
  cases s <;> simp [fields_token, fields_expander, fields_compound, fields_list, typeField,
    className, shape, List.lookup_append, List.lookup_cons, lookup_classField, lookup_itemFields,
    contentField_eq, lookup_optional]

section

variable {name text' itemClass : Option String} {text : String} {content : Option Snapshot}
  {item : Option Json} {parts : List Snapshot}

theorem lookup_token :
    (fields (.token name text itemClass item)).lookup "text" = some (.string text) ∧
    (fields (.token name text itemClass item)).lookup "completionClass" =
      itemClass.map .string ∧
    (fields (.token name text itemClass item)).lookup "completion" = item.map .ofJson := by
  simp [fields_token, typeField, List.lookup_append, List.lookup_cons,
    lookup_classField, lookup_itemFields]

theorem lookup_expander :
    (fields (.expander name content text' itemClass item)).lookup "editor" =
      content.map toDocument ∧
    (fields (.expander name content text' itemClass item)).lookup "text" = text'.map .string ∧
    (fields (.expander name content text' itemClass item)).lookup "completionClass" =
      itemClass.map .string ∧
    (fields (.expander name content text' itemClass item)).lookup "completion" =
      item.map .ofJson := by
  simp [fields_expander, typeField, List.lookup_append, List.lookup_cons,
    lookup_classField, lookup_itemFields, contentField_eq, lookup_optional]

theorem lookup_compound : (fields (.compound name parts)).lookup "components" =
    some (.array (toDocuments parts)) := by
  simp [fields_compound, typeField, List.lookup_append, List.lookup_cons,
    lookup_classField]

theorem lookup_list : (fields (.list name parts)).lookup "items" =
    some (.array (toDocuments parts)) := by
  simp [fields_list, typeField, List.lookup_append, List.lookup_cons,
    lookup_classField]

end

theorem depthFields_itemFields (itemClass : Option String) (item : Option Json) :
    depthFields (itemFields itemClass item) = itemNesting item := by
  rw [itemFields, depthFields_append, depthFields_strings, depthFields_optional]
  cases item <;> simp [itemNesting]

theorem depthFields_kind (name : Option String) (kind : Shape)
    (rest : List (String × Document)) :
    depthFields (classField name ++ typeField kind :: rest) = depthFields rest := by
  rw [depthFields_append, classField, depthFields_strings]
  simp [typeField, depthFields, Document.depth]

theorem depthItems_toDocuments {parts : List Snapshot}
    (each : ∀ s ∈ parts, s.toDocument.depth = s.nesting) :
    depthItems (toDocuments parts) = allNesting parts := by
  induction parts with
  | nil => rfl
  | cons s rest ih =>
    obtain ⟨first, each⟩ := List.forall_mem_cons.1 each
    rw [toDocuments, depthItems, allNesting, first, ih each]

theorem depth_toDocument (s : Snapshot) : s.toDocument.depth = s.nesting := by
  induction s using Snapshot.induct with
  | step s ih =>
    cases s with
    | token name text itemClass item =>
      rw [toDocument, Document.depth, depthFields_kind, depthFields, depthFields_itemFields]
      simp [Document.depth, nesting, Nat.add_comm]
    | expander name content text itemClass item =>
      have inside : depthFields (contentField content) = contentNesting content := by
        cases content with
        | none => rfl
        | some s => simp [contentField, depthFields, contentNesting, ih s (by simp [parts])]
      rw [toDocument, Document.depth, depthFields_append, depthFields_append, depthFields_kind,
        inside, depthFields_strings, depthFields_itemFields]
      simp [nesting, Nat.add_comm]
    | compound name components =>
      have listed : depthItems (toDocuments components) = allNesting components :=
        depthItems_toDocuments ih
      rw [toDocument, Document.depth, depthFields_kind]
      simp [depthFields, Document.depth, listed, nesting]
      omega
    | list name items =>
      have listed : depthItems (toDocuments items) = allNesting items := depthItems_toDocuments ih
      rw [toDocument, Document.depth, depthFields_kind]
      simp [depthFields, Document.depth, listed, nesting]
      omega

theorem plainFields_itemFields (itemClass : Option String) {item : Option Json}
    (whole : ∀ v ∈ item, v.Whole) : PlainFields (itemFields itemClass item) :=
  plainFields_append.2 ⟨plainFields_strings _ _,
    plainFields_optional.2 fun v member => plain_ofJson (whole v member)⟩

theorem plain_toDocument {s : Snapshot} (whole : s.Whole) : s.toDocument.Plain := by
  induction s using Snapshot.induct with
  | step s ih =>
    replace ih : ∀ part ∈ s.parts, part.toDocument.Plain := fun part member =>
      ih part member (whole.part member)
    have listed : PlainItems (toDocuments s.parts) := by
      rw [toDocuments_eq_map, plainItems_iff, List.forall_mem_map]
      exact ih
    have named : ∀ name : Option String, PlainFields (classField name) := plainFields_strings _
    rw [toDocument_eq]
    cases s with
    | token name text itemClass item =>
      exact plainFields_append.2
        ⟨named name, trivial, trivial, plainFields_itemFields _ whole⟩
    | expander name content text itemClass item =>
      have held : PlainFields (contentField content) := by
        rw [contentField_eq]
        exact plainFields_optional.2 fun s member => ih s (Option.mem_toList.2 member)
      refine plainFields_append.2 ⟨?_, plainFields_itemFields _ whole.2⟩
      exact plainFields_append.2
        ⟨plainFields_append.2 ⟨named name, trivial, held⟩, plainFields_strings _ _⟩
    | compound name components =>
      exact plainFields_append.2 ⟨named name, trivial, listed, trivial⟩
    | list name items =>
      exact plainFields_append.2 ⟨named name, trivial, listed, trivial⟩

variable {f : Document → Document}

theorem maybe_item (carries : Carries f) {item : Option Json} (whole : ∀ v ∈ item, v.Whole) :
    maybe? toJson? (item.map (f ∘ .ofJson)) = some (normItem item) := by
  cases item with
  | none => rfl
  | some v =>
    rw [Option.map_some, Function.comp_apply, carries.value v (whole v rfl)]
    have value := toJson_ofJson (whole v rfl)
    have readable := readable_ofJson v
    cases v with
    | null => rfl
    | _ => simp_all [maybe?, toJson?, normItem, ofJson]

theorem kind?_name (kind : Shape) : kind? (.string kind.name) = some kind := by
  cases kind <;> decide

def below? (levels : Nat) : Document → Option Snapshot
  | .object fields => ofFields? levels fields
  | _ => none

/-- A snapshot has travelled to a record, and is read from it if so many levels may be read. -/
def Arrives (f : Document → Document) (levels : Nat) (s : Snapshot) : Prop :=
  ∃ carried, f s.toDocument = .object carried ∧ ofFields? levels carried = some s.norm

theorem Arrives.below {levels : Nat} {s : Snapshot} (arrives : s.Arrives f levels) :
    below? levels (f s.toDocument) = some s.norm := by
  obtain ⟨carried, travelled, reads⟩ := arrives
  rw [travelled, below?, reads]

theorem maybe_content {content : Option Snapshot} {levels : Nat}
    (each : ∀ s ∈ content.toList, s.Arrives f levels) :
    maybe? (below? levels) (content.map (f ∘ toDocument)) = some (normContent content) := by
  cases content with
  | none => rfl
  | some s =>
    have arrives := each s (by simp)
    have reads := arrives.below
    obtain ⟨carried, travelled, -⟩ := arrives
    rw [travelled] at reads
    simp [travelled, maybe?, reads, normContent]

theorem mapM_parts {parts : List Snapshot} {levels : Nat}
    (each : ∀ s ∈ parts, s.Arrives f levels) :
    parts.mapM (below? levels ∘ f ∘ toDocument) = some (normAll parts) := by
  rw [normAll_eq_map]
  exact mapM_eq_some fun s member => (each s member).below

theorem ofFields?_step (carries : Carries f) {s : Snapshot} (whole : s.Whole) {levels : Nat}
    {carried : List (String × Document)}
    (only : ∀ key, only? key carried = some ((s.fields.lookup key).map f))
    (each : ∀ part ∈ s.parts, part.Arrives f levels) :
    ofFields? (levels + 1) carried = some s.norm := by
  have kind := s.lookup_kind
  cases s with
  | token name text itemClass item =>
    simp [ofFields?, only, kind, className, shape, lookup_token, carries.maybe_string,
      carries.string, kind?_name, maybe_item carries whole, string?, norm]
  | expander name content text itemClass item =>
    have opened : ofFields? (levels + 1) carried =
        (maybe? (below? levels) (content.map (f ∘ toDocument))).bind fun content =>
          some (.expander name content text itemClass (normItem item)) := by
      simp [ofFields?, only, kind, className, shape, lookup_expander, carries.maybe_string,
        carries.string, kind?_name, maybe_item carries whole.2]
      rfl
    rw [opened, maybe_content each]
    rfl
  | compound name components =>
    have read : components.mapM (below? levels ∘ f ∘ toDocument) = some (normAll components) :=
      mapM_parts each
    have opened : ofFields? (levels + 1) carried =
        (components.mapM (below? levels ∘ f ∘ toDocument)).bind fun components =>
          some (.compound name components) := by
      simp [ofFields?, only, kind, className, shape, lookup_compound, carries.maybe_string,
        carries.string, kind?_name, carries.array, toDocuments_eq_map, items?]
      rfl
    rw [opened, read]
    rfl
  | list name items =>
    have read : items.mapM (below? levels ∘ f ∘ toDocument) = some (normAll items) :=
      mapM_parts each
    have opened : ofFields? (levels + 1) carried =
        (items.mapM (below? levels ∘ f ∘ toDocument)).bind fun items =>
          some (.list name items) := by
      simp [ofFields?, only, kind, className, shape, lookup_list, carries.maybe_string,
        carries.string, kind?_name, carries.array, toDocuments_eq_map, items?]
      rfl
    rw [opened, read]
    rfl

theorem depth_part_le (carries : Carries f) {s part : Snapshot} (member : part ∈ s.parts)
    {carried : List (String × Document)}
    (only : ∀ key, only? key carried = some ((s.fields.lookup key).map f)) :
    (f part.toDocument).depth ≤ depthFields carried := by
  have listed : ∀ key, s.fields.lookup key = some (.array (toDocuments s.parts)) →
      (f part.toDocument).depth ≤ depthFields carried := fun key found => by
    have outer := depth_le_of_only? (by rw [only, found]; rfl)
    rw [carries.array, Document.depth, toDocuments_eq_map, List.map_map] at outer
    exact depthItems_le_iff.1 (Nat.le_of_succ_le outer) _ (List.mem_map_of_mem member)
  cases s with
  | token => cases member
  | expander name content text itemClass item =>
    obtain rfl := Option.mem_toList.1 member
    refine depth_le_of_only? ((only "editor").trans ?_)
    rw [lookup_expander.1]
    rfl
  | compound name components => exact listed "components" lookup_compound
  | list name items => exact listed "items" lookup_list

/-- A snapshot is read back however it travelled, where as many levels may be read as its record
has. -/
theorem arrives (carries : Carries f) {s : Snapshot} (whole : s.Whole) {levels : Nat}
    (enough : (f s.toDocument).depth ≤ levels) : s.Arrives f levels := by
  induction s using Snapshot.induct generalizing levels with
  | step s ih =>
    obtain ⟨carried, travelled, only⟩ := carries.object s.fields s.nodup_fields
    rw [toDocument_eq, travelled, Document.depth] at enough
    obtain ⟨levels, rfl⟩ := Nat.exists_eq_add_of_le' (Nat.le_of_add_left_le enough)
    refine ⟨carried, s.toDocument_eq ▸ travelled, ofFields?_step carries whole only ?_⟩
    exact fun part member => ih part member (whole.part member)
      (Nat.le_trans (depth_part_le carries member only) (Nat.le_of_succ_le_succ enough))

theorem ofDocument?_carried (carries : Carries f) {s : Snapshot} (whole : s.Whole) :
    ofDocument? (f s.toDocument) = some s.norm := by
  obtain ⟨carried, travelled, reads⟩ := arrives carries whole (Nat.le_refl _)
  have readable := carries.readable _ (readable_of_plain (plain_toDocument whole))
  rw [travelled] at readable reads ⊢
  rw [ofDocument?, if_pos readable, reads]

theorem readable_of_ofDocument? (d : Document) (read : ofDocument? d ≠ none) :
    d.readable = true := by
  unfold ofDocument? at read
  split at read
  · by_contra unreadable
    exact read (if_neg unreadable)
  · exact absurd rfl read

variable {s : Snapshot}

theorem ofDocument?_toDocument (whole : s.Whole) : ofDocument? s.toDocument = some s.norm :=
  ofDocument?_carried carries_id whole

theorem ofValue_toValue (whole : s.Whole) : ofValue s.toValue = .ok s.norm := by
  have read : ofDocument? (.ofJson s.toValue) = some s.norm :=
    ofDocument?_carried carries_copy whole
  rw [ofValue, read, orUnreadable]

variable {limit : Nat} (layer : TextLayer limit)

theorem decode_compact (whole : s.Whole) :
    decodeBy layer.parse? (layer.compact s.toDocument) =
      if s.nesting ≤ limit then .ok s.norm else .error .unreadable := by
  have read := layer.read_compact readable_of_ofDocument? (plain_toDocument whole)
  rw [decodeBy, read, depth_toDocument, ofDocument?_toDocument whole]
  split <;> rfl

theorem decode_pretty (whole : s.Whole) :
    decodeBy layer.parse? (layer.pretty s.toDocument) =
      if s.nesting ≤ limit then .ok s.norm else .error .unreadable := by
  have read := layer.read_pretty readable_of_ofDocument? (plain_toDocument whole)
  rw [decodeBy, read, depth_toDocument, ofDocument?_toDocument whole]
  split <;> rfl

end Snapshot

def Display.norm : Display Snapshot → Display Snapshot
  | .text shown item => .text shown item
  | .expanded content => .expanded content.norm

namespace Snapshot

variable (s : Snapshot)

theorem candidate?_normItem (itemClass : Option String) (item : Option Json) :
    candidate? itemClass (normItem item) = candidate? itemClass item := by
  rcases item with _ | _ | _ <;> rfl

theorem className_norm : s.norm.className = s.className := by
  cases s <;> rfl

theorem tokenState?_norm : s.norm.tokenState? = s.tokenState? := by
  cases s <;> simp [norm, tokenState?, candidate?_normItem]

theorem display?_norm : s.norm.display? = s.display?.map .norm := by
  cases s with
  | expander name content text itemClass item =>
    cases content <;> simp [norm, normContent, display?, Display.norm, candidate?_normItem]
  | _ => rfl

theorem parts_norm : s.norm.parts = s.parts.map norm := by
  cases s with
  | token => rfl
  | expander name content => cases content <;> rfl
  | compound name components => exact normAll_eq_map components
  | list name items => exact normAll_eq_map items

/-- The snapshot at the end of a path, which says at each node which part to go to. -/
def node? : List Nat → Snapshot → Option Snapshot
  | [], s => some s
  | index :: path, s => s.parts[index]?.bind (node? path)

theorem node?_norm (path : List Nat) : s.norm.node? path = (s.node? path).map norm := by
  induction path generalizing s with
  | nil => rfl
  | cons index path ih =>
    rw [node?, node?, parts_norm, List.getElem?_map]
    cases s.parts[index]? with
    | none => rfl
    | some part => exact ih part

end Snapshot

end StructureEditor
