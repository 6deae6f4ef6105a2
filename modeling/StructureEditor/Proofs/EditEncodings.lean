import StructureEditor.Edit.Codec
import StructureEditor.Proofs.Encodings
import StructureEditor.Workspace.Replay

/-! Edits as JSON. An edit that is written and read back has its snapshots without their null values
and is the same otherwise; taking it back or doing it again does the same as before. -/
namespace StructureEditor

open Document

variable {f : Document → Document}

namespace Handle

/-- The slot is numbered by half a word. -/
def Fits (id : Handle) : Prop := id.index < UInt32.size

theorem Fits.plain {id : Handle} (fits : id.Fits) : id.toDocument.Plain :=
  ⟨plain_nat (Nat.lt_trans fits (by decide)),
    plain_nat (Nat.lt_trans id.generation.toNat_lt (by decide)), trivial⟩

theorem ofDocument?_parts {d first second : Document} {index generation : Nat}
    (parts : d.record? ["index", "generation"] = some [some first, some second])
    (slot : first.natBelow? UInt32.size = some index)
    (tenant : second.natBelow? UInt32.size = some generation) :
    ofDocument? d = some ⟨index, generation.toUInt32⟩ := by
  simp [ofDocument?, parts, slot, tenant]

theorem ofDocument?_carried (carries : Carries f) {id : Handle} (fits : id.Fits) :
    ofDocument? (f id.toDocument) = some id := by
  have parts : (f id.toDocument).record? ["index", "generation"] =
      some [some (nat id.index), some (nat id.generation.toNat)] := by
    rw [toDocument, carries.record? (by simp)]
    simp [List.lookup_cons, carries.nat]
  have read := ofDocument?_parts parts (natBelow?_nat fits) (natBelow?_nat id.generation.toNat_lt)
  rwa [Nat.toUInt32_eq, UInt32.ofNat_toNat] at read

end Handle

namespace Position

def Fits : Position → Prop
  | .content => True
  | .component index | .item index => index < UInt64.size

theorem Fits.plain {position : Position} (fits : position.Fits) : position.toDocument.Plain := by
  cases position with
  | content => trivial
  | component index => exact ⟨plain_nat fits, trivial⟩
  | item index => exact ⟨plain_nat fits, trivial⟩

theorem ofDocument?_variant {d : Document} {index : Nat}
    (read : d.natBelow? UInt64.size = some index) :
    ofDocument? .edit (.object [("component", d)]) = some (.component index) ∧
      ofDocument? .edit (.object [("item", d)]) = some (.item index) := by
  constructor <;> simp [ofDocument?, variant?, read]

theorem ofDocument?_carried (carries : Carries f) {position : Position} (fits : position.Fits) :
    ofDocument? .edit (f position.toDocument) = some position := by
  cases position with
  | content =>
    rw [toDocument, carries.string]
    rfl
  | component index =>
    rw [toDocument, carries.variant, carries.nat]
    exact (ofDocument?_variant (natBelow?_nat fits)).1
  | item index =>
    rw [toDocument, carries.variant, carries.nat]
    exact (ofDocument?_variant (natBelow?_nat fits)).2

end Position

namespace Locator

structure Fits (l : Locator) : Prop where
  root : l.root.Fits
  path : ∀ position ∈ l.path, position.Fits

theorem Fits.plain {l : Locator} (fits : l.Fits) : l.toDocument.Plain :=
  ⟨fits.root.plain, plainItems_iff.2 (List.forall_mem_map.2 fun position member =>
    (fits.path position member).plain), trivial⟩

theorem ofDocument?_carried (carries : Carries f) {l : Locator} (fits : l.Fits) :
    ofDocument? .edit (f l.toDocument) = some l := by
  have path : l.path.mapM (Position.ofDocument? .edit ∘ f ∘ Position.toDocument) =
      some (l.path.map id) :=
    mapM_eq_some fun position member =>
      Position.ofDocument?_carried carries (fits.path position member)
  rw [ofDocument?, toDocument, carries.record? (by simp)]
  simp [List.lookup_cons, Handle.ofDocument?_carried carries fits.root, carries.array, items?, path]

end Locator

namespace Candidate

def Whole (c : Candidate) : Prop := c.value.Whole

theorem Whole.plain {c : Candidate} (whole : c.Whole) : c.toDocument.Plain :=
  ⟨trivial, plain_ofJson whole, trivial⟩

theorem ofDocument?_carried (carries : Carries f) {c : Candidate} (whole : c.Whole) :
    ofDocument? (f c.toDocument) = some c := by
  rw [ofDocument?, toDocument, carries.record? (by simp)]
  simp [List.lookup_cons, carries.string, carries.value _ whole, string?, toJson?, readable_ofJson,
    toJson_ofJson whole]

theorem maybe_carried (carries : Carries f) {o : Option Candidate} (whole : ∀ c ∈ o, c.Whole) :
    maybe? ofDocument? (o.map (f ∘ toDocument)) = some o ∧
      maybe? ofDocument? (some (f (orNull toDocument o))) = some o := by
  cases o with
  | none =>
    refine ⟨rfl, ?_⟩
    rw [orNull, carries.null]
    rfl
  | some c =>
    have read := ofDocument?_carried carries (whole c rfl)
    have present : f c.toDocument ≠ .null := by
      intro absent
      rw [absent] at read
      cases read
    have both : maybe? ofDocument? (some (f c.toDocument)) = some (some c) := by
      rw [maybe?]
      · rw [read]; rfl
      · exact present
    exact ⟨both, both⟩

end Candidate

namespace Display

def Whole : Display Snapshot → Prop
  | .text _ item => ∀ c ∈ item, c.Whole
  | .expanded content => content.Whole

theorem Whole.plain {state : Display Snapshot} (whole : state.Whole) : state.toDocument.Plain := by
  cases state with
  | expanded content => exact ⟨Snapshot.plain_toDocument whole, trivial⟩
  | text shown item =>
    have candidate : (orNull Candidate.toDocument item).Plain := by
      cases item with
      | none => trivial
      | some c => exact (whole c rfl).plain
    exact ⟨⟨trivial, candidate, trivial⟩, trivial⟩

theorem ofDocument?_carried (carries : Carries f) {state : Display Snapshot}
    (whole : state.Whole) : ofDocument? .edit (f state.toDocument) = some state.norm := by
  cases state with
  | expanded content =>
    rw [toDocument, carries.variant]
    simp [ofDocument?, variant?, Snapshot.ofDocument?_carried carries whole, norm]
  | text shown item =>
    have distinct : ([("text", .string shown), ("completion", orNull Candidate.toDocument item)].map
        (·.1) : List String).Nodup := by simp
    have fields := carries.variantFields? .edit distinct ["text", "completion"]
    rw [toDocument, carries.variant]
    simp [ofDocument?, variant?, fields, List.lookup_cons, carries.string, string?,
      (Candidate.maybe_carried carries whole).2, norm]

end Display

namespace Edit

def norm : Edit → Edit
  | .text editor old new oldItem newItem => .text editor old new oldItem newItem
  | .transition expander before after description =>
    .transition expander before.norm after.norm description
  | .insertion list index item => .insertion list index item.norm
  | .removal list index item => .removal list index item.norm
  | .replacement editor before after description =>
    .replacement editor before.norm after.norm description

def Whole : Edit → Prop
  | .text editor _ _ oldItem newItem =>
    editor.Fits ∧ (∀ c ∈ oldItem, c.Whole) ∧ ∀ c ∈ newItem, c.Whole
  | .transition expander before after _ => expander.Fits ∧ before.Whole ∧ after.Whole
  | .insertion list index item | .removal list index item =>
    list.Fits ∧ index < UInt64.size ∧ item.Whole
  | .replacement editor before after _ => editor.Fits ∧ before.Whole ∧ after.Whole

def fields (e : Edit) : List (String × Document) := e.toDocument.entries

theorem toDocument_eq (e : Edit) : e.toDocument = .object e.fields := by
  cases e <;> rfl

theorem nodup_fields (e : Edit) : (e.fields.map (·.1)).Nodup := by
  cases e with
  | text editor old new oldItem newItem =>
    cases oldItem <;> cases newItem <;> simp [fields, toDocument, entries, Document.optional]
  | _ => simp [fields, toDocument, entries]

theorem plain_toDocument {e : Edit} (whole : e.Whole) : e.toDocument.Plain := by
  cases e with
  | text editor old new oldItem newItem =>
    obtain ⟨fits, oldWhole, newWhole⟩ := whole
    have items : ∀ (key : String) {o : Option Candidate}, (∀ c ∈ o, c.Whole) →
        PlainFields (Document.optional key Candidate.toDocument o) := fun key o whole =>
      plainFields_optional.2 fun c member => (whole c member).plain
    exact plainFields_append.2 ⟨plainFields_append.2
      ⟨⟨trivial, fits.plain, trivial, trivial, trivial⟩, items _ oldWhole⟩, items _ newWhole⟩
  | transition expander before after description =>
    obtain ⟨fits, beforeWhole, afterWhole⟩ := whole
    exact ⟨trivial, fits.plain, beforeWhole.plain, afterWhole.plain, trivial, trivial⟩
  | insertion list index item | removal list index item =>
    obtain ⟨fits, word, itemWhole⟩ := whole
    exact ⟨trivial, fits.plain, plain_nat word, Snapshot.plain_toDocument itemWhole, trivial⟩
  | replacement editor before after description =>
    obtain ⟨fits, beforeWhole, afterWhole⟩ := whole
    exact ⟨trivial, fits.plain, Snapshot.plain_toDocument beforeWhole,
      Snapshot.plain_toDocument afterWhole, trivial, trivial⟩

theorem ofFields?_parts {carried : List (String × Document)} {l i s : Document} {list : Locator}
    {index : Nat} {item : Snapshot} (hasList : only? "list" carried = some (some l))
    (hasIndex : only? "index" carried = some (some i))
    (hasItem : only? "item" carried = some (some s))
    (place : Locator.ofDocument? .edit l = some list)
    (word : i.natBelow? UInt64.size = some index) (read : Snapshot.ofDocument? s = some item) :
    (only? "type" carried = some (some (.string "insert_item")) →
      ofFields? carried = some (.insertion list index item)) ∧
    (only? "type" carried = some (some (.string "remove_item")) →
      ofFields? carried = some (.removal list index item)) := by
  constructor <;> intro hasType <;>
    simp [ofFields?, hasType, hasList, hasIndex, hasItem, place, word, read, string?]

theorem ofFields?_carried (carries : Carries f) {e : Edit} (whole : e.Whole)
    {carried : List (String × Document)}
    (only : ∀ key, only? key carried = some ((e.fields.lookup key).map f)) :
    ofFields? carried = some e.norm := by
  cases e with
  | text editor old new oldItem newItem =>
    obtain ⟨fits, oldWhole, newWhole⟩ := whole
    simp [ofFields?, only, fields, toDocument, entries, List.lookup_append, lookup_optional,
      List.lookup_cons, carries.string, string?, Locator.ofDocument?_carried carries fits,
      (Candidate.maybe_carried carries oldWhole).1, (Candidate.maybe_carried carries newWhole).1,
      norm]
  | transition expander before after description =>
    obtain ⟨fits, beforeWhole, afterWhole⟩ := whole
    simp [ofFields?, only, fields, toDocument, entries, List.lookup_cons, carries.string, string?,
      Locator.ofDocument?_carried carries fits, Display.ofDocument?_carried carries beforeWhole,
      Display.ofDocument?_carried carries afterWhole, norm]
  | insertion list index item =>
    obtain ⟨fits, word, itemWhole⟩ := whole
    refine (ofFields?_parts ?_ ?_ ?_ (Locator.ofDocument?_carried carries fits)
      (natBelow?_nat word) (Snapshot.ofDocument?_carried carries itemWhole)).1 ?_ <;>
      simp [only, fields, toDocument, entries, List.lookup_cons, carries.string, carries.nat]
  | removal list index item =>
    obtain ⟨fits, word, itemWhole⟩ := whole
    refine (ofFields?_parts ?_ ?_ ?_ (Locator.ofDocument?_carried carries fits)
      (natBelow?_nat word) (Snapshot.ofDocument?_carried carries itemWhole)).2 ?_ <;>
      simp [only, fields, toDocument, entries, List.lookup_cons, carries.string, carries.nat]
  | replacement editor before after description =>
    obtain ⟨fits, beforeWhole, afterWhole⟩ := whole
    simp [ofFields?, only, fields, toDocument, entries, List.lookup_cons, carries.string, string?,
      Locator.ofDocument?_carried carries fits, Snapshot.ofDocument?_carried carries beforeWhole,
      Snapshot.ofDocument?_carried carries afterWhole, norm]

theorem ofDocument?_carried (carries : Carries f) {e : Edit} (whole : e.Whole) :
    ofDocument? (f e.toDocument) = some e.norm := by
  have readable := carries.readable _ (readable_of_plain (plain_toDocument whole))
  obtain ⟨carried, travelled, only⟩ := carries.object e.fields e.nodup_fields
  rw [toDocument_eq, travelled] at readable ⊢
  rw [ofDocument?, if_pos readable]
  exact ofFields?_carried carries whole only

theorem readable_of_ofDocument? (d : Document) (read : ofDocument? d ≠ none) :
    d.readable = true := by
  unfold ofDocument? at read
  by_contra unreadable
  exact read (if_neg unreadable)

variable {e : Edit}

theorem ofDocument?_toDocument (whole : e.Whole) : ofDocument? e.toDocument = some e.norm :=
  ofDocument?_carried carries_id whole

theorem ofValue_toJson (whole : e.Whole) : ofValue e.toDocument.toJson = .ok e.norm := by
  have read : ofDocument? (.ofJson e.toDocument.toJson) = some e.norm :=
    ofDocument?_carried carries_copy whole
  rw [ofValue, read, Snapshot.orUnreadable]

variable {limit : Nat} (layer : TextLayer limit)

theorem read_compact (whole : e.Whole) :
    (layer.parse? (layer.compact e.toDocument)).bind ofDocument? =
      if e.toDocument.depth ≤ limit then some e.norm else none := by
  rw [layer.read_compact readable_of_ofDocument? (plain_toDocument whole),
    ofDocument?_toDocument whole]

theorem read_pretty (whole : e.Whole) :
    (layer.parse? (layer.pretty e.toDocument)).bind ofDocument? =
      if e.toDocument.depth ≤ limit then some e.norm else none := by
  rw [layer.read_pretty readable_of_ofDocument? (plain_toDocument whole),
    ofDocument?_toDocument whole]

end Edit

/-! Restoring. Null values make no difference to it. -/

namespace Snapshot

theorem depth_norm (s : Snapshot) : s.norm.depth = s.depth := by
  induction s using Snapshot.induct with
  | step s ih =>
    have listed : ∀ {parts : List Snapshot}, (∀ s ∈ parts, s.norm.depth = s.depth) →
        depthList (normAll parts) = depthList parts := fun {parts} each => by
      induction parts with
      | nil => rfl
      | cons s rest inner =>
        obtain ⟨first, each⟩ := List.forall_mem_cons.1 each
        rw [normAll, depthList, depthList, first, inner each]
    cases s with
    | token => rfl
    | expander name content =>
      cases content with
      | none => rfl
      | some content => exact congrArg (· + 1) (ih content (by simp [parts]))
    | compound name components => exact congrArg (· + 1) (listed ih)
    | list name items => exact congrArg (· + 1) (listed ih)

end Snapshot

namespace Workspace

variable {S : Signature} [Language S]

/-- A way of restoring snapshots for which null values make no difference. -/
def Lenient (restore : Restorer S) : Prop := ∀ id s, restore id s.norm = restore id s

variable {restore : Restorer S}

theorem Lenient.rebuildAsWith (lenient : Lenient restore) (c : ClassKey S) (s : Snapshot)
    (context : Context) :
    rebuildAsWith restore c s.norm context = rebuildAsWith restore c s context := by
  have same : ∀ id, restore id s.norm = restore id s := fun id => lenient id s
  simp only [Workspace.rebuildAsWith, same]

theorem Lenient.rebuildWith (lenient : Lenient restore) (s : Snapshot) (context : Context) :
    rebuildWith restore s.norm context = rebuildWith restore s context := by
  simp only [Workspace.rebuildWith, s.className_norm, lenient.rebuildAsWith]

theorem Lenient.restoreStateWith (lenient : Lenient restore) (id : Handle)
    (state : Display Snapshot) :
    restoreStateWith restore id state.norm = restoreStateWith restore id state := by
  cases state with
  | text => rfl
  | expanded content => simp only [Workspace.restoreStateWith, Display.norm, lenient.rebuildWith]

theorem Lenient.restoreItemsWith (lenient : Lenient restore) (list : Handle) (element : ClassKey S)
    (context : Context) (index : Nat) (items : List Snapshot) :
    restoreItemsWith restore list element context index (Snapshot.normAll items) =
      restoreItemsWith restore list element context index items := by
  induction items generalizing index with
  | nil => rfl
  | cons s rest ih =>
    simp only [Snapshot.normAll, Workspace.restoreItemsWith, lenient.rebuildAsWith, ih]

omit [Language S] in
theorem Lenient.restoreParts (lenient : Lenient restore) (ids : List Handle)
    (parts : List Snapshot) :
    ((ids.zip (Snapshot.normAll parts)).forM fun (id, s) => restore id s) =
      (ids.zip parts).forM fun (id, s) => restore id s := by
  induction parts generalizing ids with
  | nil => rfl
  | cons s rest ih =>
    cases ids with
    | nil => rfl
    | cons id ids =>
      change (restore id s.norm >>= fun _ => (ids.zip (Snapshot.normAll rest)).forM _) =
        (restore id s >>= fun _ => (ids.zip rest).forM _)
      rw [lenient id s, ih ids]

theorem Lenient.restoreWith (lenient : Lenient restore) : Lenient (restoreWith restore) := by
  intro id s
  cases s with
  | token name text itemClass item =>
    simp only [Workspace.restoreWith, Snapshot.norm, Snapshot.candidate?_normItem]
    rfl
  | expander name content text itemClass item =>
    have shown := Snapshot.display?_norm (.expander name content text itemClass item)
    simp only [Snapshot.norm] at shown
    simp only [Workspace.restoreWith, Snapshot.norm, shown]
    cases (Snapshot.expander name content text itemClass item).display? with
    | none => rfl
    | some state =>
      simp only [Option.map_some, lenient.restoreStateWith]
      rfl
  | compound name components =>
    have count : (Snapshot.normAll components).length = components.length := by
      rw [Snapshot.normAll_eq_map, List.length_map]
    simp only [Workspace.restoreWith, Snapshot.norm, lenient.restoreParts, count]
    rfl
  | list name items =>
    simp only [Workspace.restoreWith, Snapshot.norm, lenient.restoreItemsWith]
    rfl

theorem restoreWithin_lenient (levels : Nat) : Lenient (restoreWithin levels : Restorer S) := by
  induction levels with
  | zero => exact fun _ _ => rfl
  | succ levels ih => exact ih.restoreWith

theorem restore_lenient : Lenient (Workspace.restore : Restorer S) := by
  intro id s
  rw [Workspace.restore, Workspace.restore, s.depth_norm, restoreWithin_lenient]

theorem replay_norm (direction : Direction) (e : Edit) :
    replay (S := S) direction e.norm = replay direction e := by
  cases direction <;> cases e <;>
    simp only [Edit.norm, replay, replayInsert, restoreState, rebuild, restore_lenient.rebuildWith,
      restore_lenient.restoreStateWith, restore_lenient _ _]

end Workspace

/-- Snapshots and edits survive being written. A value gives back the snapshot without its null
values, in which every node is in the same state; what an expanded node holds is the snapshot of
the next node, so it is without null values too. A text gives back the same if no more arrays and
objects are nested in it than the reader goes into; a text that is nested deeper is refused. An
edit that is read back is replayed like the one that was written. The texts may be those of any
layer that reads back what it writes. -/
theorem encodings_round_trip {limit : Nat} (layer : TextLayer limit) {s : Snapshot} {e : Edit}
    (whole : s.Whole) (editWhole : e.Whole) :
    Snapshot.ofValue s.toValue = .ok s.norm ∧
    (∀ path, (s.norm.node? path).map (·.tokenState?) = (s.node? path).map (·.tokenState?) ∧
      (s.norm.node? path).map (·.display?) =
        (s.node? path).map fun node => node.display?.map .norm) ∧
    Snapshot.decodeBy layer.parse? (layer.compact s.toDocument) =
      (if s.nesting ≤ limit then .ok s.norm else .error .unreadable) ∧
    Snapshot.decodeBy layer.parse? (layer.pretty s.toDocument) =
      (if s.nesting ≤ limit then .ok s.norm else .error .unreadable) ∧
    s.toDocument.depth = s.nesting ∧
    Edit.ofValue e.toDocument.toJson = .ok e.norm ∧
    (layer.parse? (layer.compact e.toDocument)).bind Edit.ofDocument? =
      (if e.toDocument.depth ≤ limit then some e.norm else none) ∧
    (layer.parse? (layer.pretty e.toDocument)).bind Edit.ofDocument? =
      (if e.toDocument.depth ≤ limit then some e.norm else none) ∧
    ∀ {S : Signature} [Language S] (direction : Direction) (w : Workspace S),
      Workspace.replay direction e.norm w = Workspace.replay direction e w := by
  refine ⟨Snapshot.ofValue_toValue whole, fun path => ⟨?_, ?_⟩, Snapshot.decode_compact layer whole,
    Snapshot.decode_pretty layer whole, s.depth_toDocument, Edit.ofValue_toJson editWhole,
    Edit.read_compact layer editWhole, Edit.read_pretty layer editWhole, fun direction w => ?_⟩
  · rw [s.node?_norm, Option.map_map]
    exact congrArg (Option.map · (s.node? path)) (funext Snapshot.tokenState?_norm)
  · rw [s.node?_norm, Option.map_map]
    exact congrArg (Option.map · (s.node? path)) (funext Snapshot.display?_norm)
  · rw [Workspace.replay_norm]

section

/-- A list with an expander that shows a text, chosen by a null value, and a compound with a token
whose candidate is an object. -/
def writtenPage : Snapshot :=
  .list (some "page") [
    .expander (some "cell") none (some "say \"é\"\n") (some "greeting") (some .null),
    .compound none [.token (some "number") "-12" (some "constant")
      (some (.object [("name", .string "dozen"), ("value", .number (.int (-12)))]))]]

def writtenEdit : Edit :=
  .transition ⟨⟨3, 1⟩, [.item 0, .content]⟩ .initial (.expanded writtenPage) "Expand"

theorem writtenPage_whole : writtenPage.Whole := by
  refine ⟨⟨trivial, ?_⟩, ⟨?_, trivial⟩, trivial⟩
  · rintro v ⟨⟩
    trivial
  · rintro v ⟨⟩
    exact ⟨List.pairwise_pair.2 (by decide), trivial, ⟨by decide, by decide⟩, trivial⟩

theorem writtenEdit_whole : writtenEdit.Whole :=
  ⟨⟨show 3 < UInt32.size by decide, by simp [Position.Fits]⟩, nofun, writtenPage_whole⟩

/-- The page is nested six deep, the edit eight. -/
theorem writtenPage_survives : Snapshot.decode writtenPage.encode = .ok writtenPage.norm ∧
    Snapshot.decode writtenPage.encodePretty = .ok writtenPage.norm ∧
    (parse? writtenEdit.toDocument.compact).bind Edit.ofDocument? = some writtenEdit.norm := by
  obtain ⟨-, -, text, pretty, -, -, edit, -, -⟩ :=
    encodings_round_trip jsonText writtenPage_whole writtenEdit_whole
  have shallow : writtenPage.nesting ≤ nestingLimit := by decide
  have shallowEdit : writtenEdit.toDocument.depth ≤ nestingLimit := by decide
  rw [if_pos shallow] at text pretty
  rw [if_pos shallowEdit] at edit
  dsimp only [jsonText] at edit
  exact ⟨text, pretty, edit⟩

end

end StructureEditor
