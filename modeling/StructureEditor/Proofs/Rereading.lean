import StructureEditor.Proofs.Spelling

/-! Reading JSON text back. A text of a document gives the document again, as deep as the reader
goes: containers that are nested deeper are read over and stand for no value. -/
namespace StructureEditor

namespace Document

theorem induct {motive : Document → Prop} (null : motive .null) (bool : ∀ b, motive (.bool b))
    (number : ∀ n, motive (.number n)) (string : ∀ s, motive (.string s))
    (array : ∀ items, (∀ d ∈ items, motive d) → motive (.array items))
    (object : ∀ fields, (∀ field ∈ fields, motive field.2) → motive (.object fields))
    (unreadable : motive .unreadable) (d : Document) : motive d := by
  refine @Document.rec motive (fun items => ∀ d ∈ items, motive d)
    (fun fields => ∀ field ∈ fields, motive field.2) (fun field => motive field.2)
    null bool number string array object unreadable (by simp) ?_ (by simp) ?_
    (fun _ _ holds => holds) d
  · exact fun d items first rest => List.forall_mem_cons.2 ⟨first, rest⟩
  · exact fun field fields first rest => List.forall_mem_cons.2 ⟨first, rest⟩

/-- Where blanks stand in a text: before each part of a container, level by level, and behind
the key of a field. -/
structure Layout where
  gap : Nat → List Char
  space : List Char
  gap_blank : ∀ level, ∀ c ∈ gap level, isBlank c = true
  space_blank : ∀ c ∈ space, isBlank c = true

namespace Layout

def compact : Layout where
  gap _ := []
  space := []
  gap_blank := by simp
  space_blank := by simp

def pretty : Layout where
  gap := lineBreak
  space := [' ']
  gap_blank level c member := by
    rcases List.mem_cons.1 member with rfl | blank
    · rfl
    · rw [List.eq_of_mem_replicate blank]
      rfl
  space_blank := by simp [isBlank]

variable (l : Layout)

mutual

def chars (level : Nat) : Document → List Char
  | .array (first :: rest) =>
    '[' :: l.gap (level + 1) ++ chars (level + 1) first ++ itemChars level rest
  | .object ((key, value) :: rest) =>
    '\x7b' :: l.gap (level + 1) ++ quoted key ++ ':' :: l.space ++ chars (level + 1) value
      ++ fieldChars level rest
  | other => other.chars

def itemChars (level : Nat) : List Document → List Char
  | [] => l.gap level ++ [']']
  | item :: rest => ',' :: l.gap (level + 1) ++ chars (level + 1) item ++ itemChars level rest

def fieldChars (level : Nat) : List (String × Document) → List Char
  | [] => l.gap level ++ ['\x7d']
  | (key, value) :: rest =>
    ',' :: l.gap (level + 1) ++ quoted key ++ ':' :: l.space ++ chars (level + 1) value
      ++ fieldChars level rest

end

mutual

theorem chars_compact (level : Nat) : ∀ d : Document, compact.chars level d = d.chars
  | .array (first :: rest) => by
    rw [chars, Document.chars, chars_compact (level + 1) first, itemChars_compact level rest]
    rfl
  | .object ((key, value) :: rest) => by
    rw [chars, Document.chars, chars_compact (level + 1) value, fieldChars_compact level rest]
    simp [compact]
  | .array [] | .object [] | .null | .bool _ | .number _ | .string _ | .unreadable => rfl

theorem itemChars_compact (level : Nat) : ∀ items : List Document,
    compact.itemChars level items = Document.itemChars items
  | [] => rfl
  | item :: rest => by
    rw [itemChars, Document.itemChars, chars_compact (level + 1) item, itemChars_compact level rest]
    rfl

theorem fieldChars_compact (level : Nat) : ∀ fields : List (String × Document),
    compact.fieldChars level fields = Document.fieldChars fields
  | [] => rfl
  | (key, value) :: rest => by
    rw [fieldChars, Document.fieldChars, chars_compact (level + 1) value,
      fieldChars_compact level rest]
    simp [compact]

end

mutual

theorem chars_pretty (level : Nat) : ∀ d : Document, pretty.chars level d = d.prettyChars level
  | .array (first :: rest) => by
    rw [chars, prettyChars, chars_pretty (level + 1) first, itemChars_pretty level rest]
    rfl
  | .object ((key, value) :: rest) => by
    rw [chars, prettyChars, chars_pretty (level + 1) value, fieldChars_pretty level rest]
    simp [pretty]
  | .array [] | .object [] | .null | .bool _ | .number _ | .string _ | .unreadable => rfl

theorem itemChars_pretty (level : Nat) : ∀ items : List Document,
    pretty.itemChars level items = prettyItems level items
  | [] => rfl
  | item :: rest => by
    rw [itemChars, prettyItems, chars_pretty (level + 1) item, itemChars_pretty level rest]
    rfl

theorem fieldChars_pretty (level : Nat) : ∀ fields : List (String × Document),
    pretty.fieldChars level fields = prettyFields level fields
  | [] => rfl
  | (key, value) :: rest => by
    rw [fieldChars, prettyFields, chars_pretty (level + 1) value,
      fieldChars_pretty level rest]
    simp [pretty]

end

end Layout

mutual

/-- All of it stands for a value, and its numbers are whole and fit a word. -/
def Plain : Document → Prop
  | .null | .bool _ | .string _ => True
  | .number (.int n) => IsWord n
  | .number (.real _) | .unreadable => False
  | .array items => PlainItems items
  | .object fields => PlainFields fields

def PlainItems : List Document → Prop
  | [] => True
  | item :: rest => Plain item ∧ PlainItems rest

def PlainFields : List (String × Document) → Prop
  | [] => True
  | (_, value) :: rest => Plain value ∧ PlainFields rest

end

theorem plainItems_iff {items : List Document} : PlainItems items ↔ ∀ d ∈ items, d.Plain := by
  induction items with
  | nil => simp [PlainItems]
  | cons item rest ih => simp [PlainItems, ih]

theorem plainFields_iff {fields : List (String × Document)} :
    PlainFields fields ↔ ∀ field ∈ fields, field.2.Plain := by
  induction fields with
  | nil => simp [PlainFields]
  | cons field rest ih => simp [PlainFields, ih]

mutual

/-- What is left of a document where only so many containers may be nested. -/
def clip (room : Nat) : Document → Document
  | .array items => if room = 0 then .unreadable else .array (clipItems (room - 1) items)
  | .object fields => if room = 0 then .unreadable else .object (clipFields (room - 1) fields)
  | other => other

def clipItems (room : Nat) : List Document → List Document
  | [] => []
  | item :: rest => clip room item :: clipItems room rest

def clipFields (room : Nat) : List (String × Document) → List (String × Document)
  | [] => []
  | (key, value) :: rest => (key, clip room value) :: clipFields room rest

end

theorem clip_array (room : Nat) (items : List Document) : clip room (.array items) =
    if room = 0 then .unreadable else .array (clipItems (room - 1) items) :=
  rfl

theorem clip_object (room : Nat) (fields : List (String × Document)) : clip room (.object fields) =
    if room = 0 then .unreadable else .object (clipFields (room - 1) fields) :=
  rfl

theorem skipBlanks_append {blanks : List Char} (rest : List Char)
    (all : ∀ c ∈ blanks, isBlank c = true) : skipBlanks (blanks ++ rest) = skipBlanks rest :=
  List.dropWhile_append_of_pos all

theorem blank_delimits {c : Char} (blank : isBlank c = true) :
    c.isDigit = false ∧ c ≠ '.' ∧ c ≠ 'e' ∧ c ≠ 'E' := by
  simp only [isBlank, Bool.or_eq_true, beq_iff_eq] at blank
  rcases blank with ((rfl | rfl) | rfl) | rfl <;> decide

theorem delimited_append {blanks rest : List Char} (all : ∀ c ∈ blanks, isBlank c = true)
    (delimited : Delimited rest) : Delimited (blanks ++ rest) := by
  cases blanks with
  | nil => exact delimited
  | cons b blanks =>
    rintro c ⟨⟩
    exact blank_delimits (all b List.mem_cons_self)

def Begins (text : List Char) : Prop :=
  ∃ c tail, text = c :: tail ∧ isBlank c = false ∧ c ≠ ']' ∧ c ≠ '\x7d'

theorem Begins.skipBlanks {text : List Char} (begins : Begins text) (rest : List Char) :
    skipBlanks (text ++ rest) = text ++ rest := by
  obtain ⟨c, tail, rfl, ink, -, -⟩ := begins
  exact skipBlanks_cons _ ink

theorem Begins.length_pos {text : List Char} (begins : Begins text) : 0 < text.length := by
  obtain ⟨c, tail, rfl, -⟩ := begins
  exact Nat.succ_pos _

theorem begins_toDigits (n : Nat) : Begins (Nat.toDigits 10 n) := by
  obtain ⟨c, cs, digits, isDigit⟩ := toDigits_eq_cons n
  refine ⟨c, cs, digits, ?_, ?_, ?_⟩
  · by_contra blank
    rw [(blank_delimits (Bool.of_not_eq_false blank)).1] at isDigit
    cases isDigit
  all_goals
    rintro rfl
    cases isDigit

theorem quoted_append (s : String) (rest : List Char) :
    quoted s ++ rest = '"' :: (s.toList.flatMap escaped ++ '"' :: rest) := by
  rw [quoted, List.append_assoc]
  rfl

theorem begins_quoted (s : String) : Begins (quoted s) :=
  ⟨_, _, rfl, rfl, by decide, by decide⟩

namespace Layout

variable (l : Layout)

theorem begins_chars (level : Nat) {d : Document} (plain : d.Plain) : Begins (l.chars level d) := by
  cases d with
  | null => exact ⟨_, _, rfl, rfl, by decide, by decide⟩
  | bool value => cases value <;> exact ⟨_, _, rfl, rfl, by decide, by decide⟩
  | string value => exact ⟨_, _, rfl, rfl, by decide, by decide⟩
  | array items => cases items <;> exact ⟨_, _, rfl, rfl, by decide, by decide⟩
  | object fields => cases fields <;> exact ⟨_, _, rfl, rfl, by decide, by decide⟩
  | unreadable => cases plain
  | number value =>
    cases value with
    | real => cases plain
    | int n =>
      rw [chars, Document.chars, chars_int, wholeChars]
      · split_ifs with negative
        · exact ⟨_, _, rfl, rfl, by decide, by decide⟩
        · exact begins_toDigits _
      all_goals simp

end Layout

/-- The reader takes the text off the front of any other, as far as there is room. -/
def Reads (text : List Char) (d : Document) : Prop :=
  ∀ steps room input rest, text.length ≤ steps → Delimited rest →
    skipBlanks input = text ++ rest → readValue? (steps + 1) room input = some (d.clip room, rest)

theorem reads_null : Reads ['n', 'u', 'l', 'l'] .null := by
  intro steps room input rest _ _ skipped
  exact readValue?_skipped steps room skipped rfl

theorem reads_bool (value : Bool) : Reads (Document.bool value).chars (.bool value) := by
  intro steps room input rest _ _ skipped
  cases value <;> exact readValue?_skipped steps room skipped rfl

theorem reads_string (s : String) : Reads (quoted s) (.string s) := by
  intro steps room input rest _ _ skipped
  rw [quoted_append] at skipped
  have body := stringBody?_quoted s rest
  exact (readValue?_skipped steps room skipped rfl).trans (congrArg (Option.map _) body)

theorem reads_number {n : Int} (word : IsWord n) : Reads (wholeChars n) (.number (.int n)) := by
  intro steps room input rest _ delimited skipped
  have numeral := numeral?_wholeChars n delimited
  obtain ⟨c, tail, chars, isDigit⟩ : ∃ c tail, wholeChars n = c :: tail ∧
      (c = '-' ∨ c.isDigit = true) := by
    rw [wholeChars]
    split_ifs
    · exact ⟨_, _, rfl, .inl rfl⟩
    · obtain ⟨c, cs, digits, isDigit⟩ := toDigits_eq_cons n.natAbs
      exact ⟨c, cs, digits, .inr isDigit⟩
  rw [chars, List.cons_append] at numeral skipped
  rw [readValue?, skipped]
  split
  case h_7 =>
    rw [numeral]
    exact congrArg (fun value => some (ofNumber? value, rest)) (number?_whole word)
  all_goals
    next same =>
    obtain ⟨rfl, -⟩ := List.cons.inj same
    rcases isDigit with other | other <;> cases other

namespace Layout

variable {l : Layout}

theorem skipBlanks_gap (level : Nat) {text : List Char} (begins : Begins text)
    (more rest : List Char) :
    skipBlanks (l.gap level ++ text ++ more ++ rest) = text ++ (more ++ rest) := by
  rw [List.append_assoc, List.append_assoc, skipBlanks_append _ (l.gap_blank level),
    begins.skipBlanks]

theorem itemChars_follow (level : Nat) (items : List Document) (rest : List Char) :
    Delimited (l.itemChars level items ++ rest) := by
  cases items with
  | nil =>
    rw [itemChars, List.append_assoc]
    exact delimited_append (l.gap_blank level) (by rintro c ⟨⟩; decide)
  | cons item items =>
    rintro c ⟨⟩
    decide

theorem fieldChars_follow (level : Nat) (fields : List (String × Document)) (rest : List Char) :
    Delimited (l.fieldChars level fields ++ rest) := by
  cases fields with
  | nil =>
    rw [fieldChars, List.append_assoc]
    exact delimited_append (l.gap_blank level) (by rintro c ⟨⟩; decide)
  | cons field fields =>
    rintro c ⟨⟩
    decide

theorem readItems?_step {item : Document} {text follow input : List Char} {steps : Nat}
    (room : Nat) (reads : Reads text item) (enough : text.length ≤ steps)
    (delimited : Delimited follow) (skipped : skipBlanks input = text ++ follow) :
    readItems? (steps + 2) room input =
      match skipBlanks follow with
      | ',' :: rest => do
        let (more, rest) ← readItems? (steps + 1) room rest
        return (item.clip room :: more, rest)
      | ']' :: rest => return ([item.clip room], rest)
      | _ => none := by
  rw [readItems?, reads steps room input follow enough delimited skipped]
  rfl

theorem readItems?_items {level : Nat} {first : Document} {items : List Document} (room : Nat)
    {rest : List Char} (starts : Begins (l.chars (level + 1) first))
    (begins : ∀ d ∈ items, Begins (l.chars (level + 1) d))
    (reads : Reads (l.chars (level + 1) first) first)
    (each : ∀ d ∈ items, Reads (l.chars (level + 1) d) d) (steps : Nat) {input : List Char}
    (enough : (l.chars (level + 1) first).length + (l.itemChars level items).length ≤ steps + 1)
    (skipped : skipBlanks input = l.chars (level + 1) first ++ (l.itemChars level items ++ rest)) :
    readItems? (steps + 2) room input = some (clipItems room (first :: items), rest) := by
  induction items generalizing first steps input with
  | nil =>
    rw [itemChars, List.length_append, List.length_singleton] at enough
    have closed : skipBlanks (l.itemChars level [] ++ rest) = ']' :: rest := by
      rw [itemChars, List.append_assoc, skipBlanks_append _ (l.gap_blank level)]
      rfl
    rw [readItems?_step room reads (by omega) (itemChars_follow level [] rest) skipped, closed]
    rfl
  | cons next items ih =>
    rw [itemChars] at enough
    simp only [List.length_append, List.length_cons] at enough
    obtain ⟨nextStarts, begins⟩ := List.forall_mem_cons.1 begins
    obtain ⟨nextReads, each⟩ := List.forall_mem_cons.1 each
    have nonempty := starts.length_pos
    obtain ⟨steps, rfl⟩ := Nat.exists_eq_add_of_le' (show 1 ≤ steps by omega)
    have separated : skipBlanks (l.itemChars level (next :: items) ++ rest) =
        ',' :: (l.gap (level + 1) ++ l.chars (level + 1) next ++ l.itemChars level items ++ rest) :=
      rfl
    have others := ih nextStarts begins nextReads each steps (by omega)
      (skipBlanks_gap (l := l) (level + 1) nextStarts (l.itemChars level items) rest)
    rw [readItems?_step room reads (by omega) (itemChars_follow level (next :: items) rest) skipped,
      separated]
    simp only [others]
    rfl

theorem reads_array {level : Nat} {items : List Document}
    (begins : ∀ d ∈ items, Begins (l.chars (level + 1) d))
    (each : ∀ d ∈ items, Reads (l.chars (level + 1) d) d) :
    Reads (l.chars level (.array items)) (.array items) := by
  intro steps room input rest enough _ skipped
  rw [readValue?, skipped]
  cases items with
  | nil => cases room <;> rfl
  | cons first items =>
    obtain ⟨starts, begins⟩ := List.forall_mem_cons.1 begins
    obtain ⟨reads, each⟩ := List.forall_mem_cons.1 each
    have nonempty := starts.length_pos
    rw [Layout.chars]
    simp only [Layout.chars, List.length_append, List.length_cons] at enough
    obtain ⟨steps, rfl⟩ := Nat.exists_eq_add_of_le' (show 2 ≤ steps by omega)
    have read := readItems?_items (room - 1) starts begins reads each steps (by omega)
      (starts.skipBlanks (l.itemChars level items ++ rest))
    simp only [List.cons_append]
    rw [skipBlanks_gap (level + 1) starts]
    obtain ⟨c, tail, chars, -, noEnd, -⟩ := starts
    split
    · next closes =>
      rw [chars] at closes
      exact absurd (List.cons.inj closes).1 noEnd
    · rw [read]
      rfl

theorem readMembers?_step {key : String} {value : Document} {text follow input : List Char}
    {steps : Nat} (room : Nat) (begins : Begins text) (reads : Reads text value)
    (enough : text.length ≤ steps) (delimited : Delimited follow)
    (skipped : skipBlanks input = quoted key ++ ':' :: (l.space ++ (text ++ follow))) :
    readMembers? (steps + 2) room input =
      match skipBlanks follow with
      | ',' :: rest => do
        let (more, rest) ← readMembers? (steps + 1) room rest
        return ((some key, value.clip room) :: more, rest)
      | '\x7d' :: rest => return ([(some key, value.clip room)], rest)
      | _ => none := by
  have named := stringBody?_quoted key (':' :: (l.space ++ (text ++ follow)))
  have read := reads steps room (l.space ++ (text ++ follow)) follow enough delimited (by
    rw [skipBlanks_append _ l.space_blank, begins.skipBlanks])
  rw [readMembers?, skipped]
  simp only [quoted, List.cons_append, List.append_assoc, List.nil_append, named,
    Option.bind_eq_bind, Option.bind_some]
  exact congrArg (Option.bind · _) read

def members (fields : List (String × Document)) : List (Option String × Document) :=
  fields.map fun field => (some field.1, field.2)

theorem readMembers?_fields {level : Nat} {key : String} {value : Document}
    {fields : List (String × Document)} (room : Nat) {rest : List Char}
    (starts : Begins (l.chars (level + 1) value))
    (begins : ∀ field ∈ fields, Begins (l.chars (level + 1) field.2))
    (reads : Reads (l.chars (level + 1) value) value)
    (each : ∀ field ∈ fields, Reads (l.chars (level + 1) field.2) field.2)
    (steps : Nat) {input : List Char}
    (enough : (l.chars (level + 1) value).length + (l.fieldChars level fields).length ≤ steps + 1)
    (skipped : skipBlanks input = quoted key ++ ':' :: (l.space ++
      (l.chars (level + 1) value ++ (l.fieldChars level fields ++ rest)))) :
    readMembers? (steps + 2) room input =
      some (members (clipFields room ((key, value) :: fields)), rest) := by
  induction fields generalizing key value steps input with
  | nil =>
    rw [fieldChars, List.length_append, List.length_singleton] at enough
    have closed : skipBlanks (l.fieldChars level [] ++ rest) = '\x7d' :: rest := by
      rw [fieldChars, List.append_assoc, skipBlanks_append _ (l.gap_blank level)]
      rfl
    rw [readMembers?_step room starts reads (by omega) (fieldChars_follow level [] rest)
      skipped, closed]
    rfl
  | cons next fields ih =>
    obtain ⟨nextKey, next⟩ := next
    obtain ⟨(nextStarts : Begins (l.chars _ next)), begins⟩ := List.forall_mem_cons.1 begins
    obtain ⟨(nextReads : Reads _ next), each⟩ := List.forall_mem_cons.1 each
    rw [fieldChars] at enough
    simp only [List.length_append, List.length_cons] at enough
    have nonempty := starts.length_pos
    obtain ⟨steps, rfl⟩ := Nat.exists_eq_add_of_le' (show 1 ≤ steps by omega)
    have separated : skipBlanks (l.fieldChars level ((nextKey, next) :: fields) ++ rest) =
        ',' :: (l.gap (level + 1) ++ (quoted nextKey ++ ':' :: (l.space ++
          (l.chars (level + 1) next ++ (l.fieldChars level fields ++ rest))))) := by
      simp only [fieldChars, List.cons_append, List.append_assoc]
      rfl
    have others := ih nextStarts begins nextReads each steps (by omega)
      ((skipBlanks_append _ (l.gap_blank (level + 1))).trans ((begins_quoted nextKey).skipBlanks _))
    rw [readMembers?_step room starts reads (by omega)
      (fieldChars_follow level ((nextKey, next) :: fields) rest) skipped, separated]
    simp only [others]
    rfl

theorem ofMembers_members (fields : List (String × Document)) :
    ofMembers (members fields) = .object fields := by
  have collected :
      (members fields).mapM (fun field => field.1.map (·, field.2)) = some fields := by
    induction fields with
    | nil => rfl
    | cons field fields ih => simp_all [members]
  rw [ofMembers, show (members fields).mapM _ = some fields from collected]

theorem reads_object {level : Nat} {fields : List (String × Document)}
    (begins : ∀ field ∈ fields, Begins (l.chars (level + 1) field.2))
    (each : ∀ field ∈ fields, Reads (l.chars (level + 1) field.2) field.2) :
    Reads (l.chars level (.object fields)) (.object fields) := by
  intro steps room input rest enough _ skipped
  rw [readValue?, skipped]
  cases fields with
  | nil => cases room <;> rfl
  | cons first fields =>
    obtain ⟨key, value⟩ := first
    obtain ⟨(starts : Begins (l.chars _ value)), begins⟩ := List.forall_mem_cons.1 begins
    obtain ⟨(reads : Reads _ value), each⟩ := List.forall_mem_cons.1 each
    have nonempty := starts.length_pos
    rw [Layout.chars]
    simp only [Layout.chars, List.length_append, List.length_cons] at enough
    obtain ⟨steps, rfl⟩ := Nat.exists_eq_add_of_le' (show 2 ≤ steps by omega)
    have read := readMembers?_fields (room - 1) starts begins reads each steps (by omega)
      ((begins_quoted key).skipBlanks (':' :: (l.space ++ (l.chars (level + 1) value ++
        (l.fieldChars level fields ++ rest)))))
    simp only [List.cons_append, List.append_assoc]
    rw [skipBlanks_append _ (l.gap_blank _), (begins_quoted key).skipBlanks]
    split
    · next closes => cases closes
    · rw [read, clip_object, ← ofMembers_members]
      rfl

/-- Whatever the layout, the text of a plain document is read back. -/
theorem reads_chars : ∀ {d : Document}, d.Plain → ∀ level, Reads (l.chars level d) d := by
  intro d
  induction d using Document.induct with
  | null => exact fun _ _ => reads_null
  | bool value => exact fun _ _ => reads_bool value
  | string value => exact fun _ _ => reads_string value
  | unreadable => exact fun plain => plain.elim
  | number value =>
    intro plain level
    cases value with
    | real => exact plain.elim
    | int n =>
      have text : l.chars level (.number (.int n)) = wholeChars n := chars_int n
      rw [text]
      exact reads_number plain
  | array items ih =>
    intro plain level
    have each := plainItems_iff.1 plain
    exact reads_array (fun d member => l.begins_chars _ (each d member))
      fun d member => ih d member (each d member) _
  | object fields ih =>
    intro plain level
    have each := plainFields_iff.1 plain
    exact reads_object (fun field member => l.begins_chars _ (each field member))
      fun field member => ih field member (each field member) _

theorem parse?_chars {d : Document} (plain : d.Plain) (level : Nat) :
    parse? (String.ofList (l.chars level d)) = some (d.clip nestingLimit) := by
  have skipped : skipBlanks (l.chars level d) = l.chars level d ++ [] := by
    have same := (l.begins_chars level plain).skipBlanks []
    rwa [List.append_nil] at same ⊢
  have read := reads_chars plain level (2 * (l.chars level d).length) nestingLimit _ []
    (by omega) (by nofun) skipped
  simp only [parse?, String.toList_ofList, read]
  rfl

end Layout

variable {d : Document}

theorem parse?_compact (plain : d.Plain) : parse? d.compact = some (d.clip nestingLimit) := by
  rw [compact, ← Layout.chars_compact 0]
  exact Layout.parse?_chars plain 0

theorem parse?_pretty (plain : d.Plain) : parse? d.pretty = some (d.clip nestingLimit) := by
  rw [pretty, ← Layout.chars_pretty 0]
  exact Layout.parse?_chars plain 0

theorem clipItems_eq_map (room : Nat) (items : List Document) :
    clipItems room items = items.map (clip room) := by
  induction items with
  | nil => rfl
  | cons item items ih => rw [clipItems, ih, List.map_cons]

theorem clipFields_eq_map (room : Nat) (fields : List (String × Document)) :
    clipFields room fields = fields.map fun field => (field.1, field.2.clip room) := by
  induction fields with
  | nil => rfl
  | cons field fields ih => rw [clipFields, ih, List.map_cons]

theorem readableItems_iff {items : List Document} :
    readableItems items = true ↔ ∀ d ∈ items, d.readable = true := by
  induction items with
  | nil => simp [readableItems]
  | cons item items ih => simp [readableItems, ih]

theorem readableFields_iff {fields : List (String × Document)} :
    readableFields fields = true ↔ ∀ field ∈ fields, field.2.readable = true := by
  induction fields with
  | nil => simp [readableFields]
  | cons field fields ih => simp [readableFields, ih]

theorem depthItems_le_iff {items : List Document} {n : Nat} :
    depthItems items ≤ n ↔ ∀ d ∈ items, d.depth ≤ n := by
  induction items with
  | nil => simp [depthItems]
  | cons item items ih => rw [depthItems, Nat.max_le, ih, List.forall_mem_cons]

theorem depthFields_le_iff {fields : List (String × Document)} {n : Nat} :
    depthFields fields ≤ n ↔ ∀ field ∈ fields, field.2.depth ≤ n := by
  induction fields with
  | nil => simp [depthFields]
  | cons field fields ih => rw [depthFields, Nat.max_le, ih, List.forall_mem_cons]

theorem clip_of_depth_le {room : Nat} (fits : d.depth ≤ room) : d.clip room = d := by
  induction d using Document.induct generalizing room with
  | array items ih =>
    rw [depth] at fits
    rw [clip_array, if_neg (by omega), clipItems_eq_map]
    have each := depthItems_le_iff.1 (Nat.le_sub_of_add_le fits)
    rw [List.map_congr_left fun d member => ih d member (each d member), List.map_id']
  | object fields ih =>
    rw [depth] at fits
    rw [clip_object, if_neg (by omega), clipFields_eq_map]
    have each := depthFields_le_iff.1 (Nat.le_sub_of_add_le fits)
    rw [List.map_congr_left fun field member =>
      show (field.1, field.2.clip (room - 1)) = field by rw [ih field member (each field member)],
      List.map_id']
  | _ => rfl

/-- All of a plain document stands for a value only if there is room for all of it. -/
theorem readable_clip_iff (plain : d.Plain) {room : Nat} :
    (d.clip room).readable = true ↔ d.depth ≤ room := by
  induction d using Document.induct generalizing room with
  | unreadable => exact plain.elim
  | array items ih =>
    rw [clip_array, depth]
    split
    · next none => simp [readable, none]
    · rw [readable, clipItems_eq_map, readableItems_iff, List.forall_mem_map,
        show depthItems items + 1 ≤ room ↔ depthItems items ≤ room - 1 by omega, depthItems_le_iff]
      have each := plainItems_iff.1 plain
      exact forall₂_congr fun d member => ih d member (each d member)
  | object fields ih =>
    rw [clip_object, depth]
    split
    · next none => simp [readable, none]
    · rw [readable, clipFields_eq_map, readableFields_iff, List.forall_mem_map,
        show depthFields fields + 1 ≤ room ↔ depthFields fields ≤ room - 1 by omega,
        depthFields_le_iff]
      have each := plainFields_iff.1 plain
      exact forall₂_congr fun field member => ih field member (each field member)
  | _ => exact iff_of_true rfl (Nat.zero_le _)

/-- What was written is read as a value, or nothing is if it was nested too deep. -/
theorem filter_clip (plain : d.Plain) (room : Nat) :
    (some (d.clip room)).filter readable = if d.depth ≤ room then some d else none := by
  by_cases fits : d.depth ≤ room
  · rw [Option.filter_some, if_pos ((readable_clip_iff plain).2 fits), if_pos fits,
      clip_of_depth_le fits]
  · have lost : ¬ (d.clip room).readable = true := fun all => fits ((readable_clip_iff plain).1 all)
    rw [Option.filter_some, if_neg lost, if_neg fits]

end Document

/-- A way to write documents as texts and to read them. It reads back what it writes, up to a limit
on how deep arrays and objects are nested; what is nested deeper is not read as a value. -/
structure TextLayer (limit : Nat) where
  compact : Document → String
  pretty : Document → String
  parse? : String → Option Document
  reads_compact : ∀ d, d.Plain →
    (parse? (compact d)).filter (·.readable) = if d.depth ≤ limit then some d else none
  reads_pretty : ∀ d, d.Plain →
    (parse? (pretty d)).filter (·.readable) = if d.depth ≤ limit then some d else none

def jsonText : TextLayer Document.nestingLimit where
  compact := Document.compact
  pretty := Document.pretty
  parse? := Document.parse?
  reads_compact d plain := by rw [Document.parse?_compact plain, Document.filter_clip plain]
  reads_pretty d plain := by rw [Document.parse?_pretty plain, Document.filter_clip plain]

namespace TextLayer

variable {α : Type} {read : Document → Option α} {limit : Nat} {d : Document}

theorem bind_strict (strict : ∀ d, read d ≠ none → d.readable = true) (found : Option Document) :
    found.bind read = (found.filter (·.readable)).bind read := by
  cases found with
  | none => rfl
  | some d =>
    by_cases whole : d.readable = true
    · rw [Option.filter_some, if_pos whole]
    · rw [Option.filter_some, if_neg whole, Option.bind_some, Option.bind_none]
      by_contra got
      exact whole (strict d got)

theorem read_compact (layer : TextLayer limit) (strict : ∀ d, read d ≠ none → d.readable = true)
    (plain : d.Plain) : (layer.parse? (layer.compact d)).bind read =
      if d.depth ≤ limit then read d else none := by
  rw [bind_strict strict, layer.reads_compact d plain]
  split <;> rfl

theorem read_pretty (layer : TextLayer limit) (strict : ∀ d, read d ≠ none → d.readable = true)
    (plain : d.Plain) : (layer.parse? (layer.pretty d)).bind read =
      if d.depth ≤ limit then read d else none := by
  rw [bind_strict strict, layer.reads_pretty d plain]
  split <;> rfl

end TextLayer

end StructureEditor
