import StructureEditor.Edit.Basic
import StructureEditor.Proofs.Pages

/-! Histories as timelines. Each recorded edit turns one page into the next, so the steps of a
history connect the pages that it can bring back. Merging, grouping and forgetting keep
the connections. -/
namespace StructureEditor

variable {S : Signature} [Language S]

def Registry.Has (r : Registry S) (c : ClassKey S) : Prop := r.lookup c.name = .ok c

namespace Sketch

mutual

/-- Every class that occurs is registered. -/
def Known (r : Registry S) : Sketch S → Prop
  | .token k _ _ => r.Has (.token k)
  | .text k _ _ => r.Has (.expander k)
  | .expanded k content => r.Has (.expander k) ∧ Known r content
  | .compound k parts => r.Has (.compound k) ∧ AllKnown r parts
  | .list k items => r.Has (.list k) ∧ AllKnown r items

def AllKnown (r : Registry S) : List (Sketch S) → Prop
  | [] => True
  | d :: ds => Known r d ∧ AllKnown r ds

end

variable {r : Registry S} {d e : Sketch S}

theorem allKnown_iff {ds : List (Sketch S)} : AllKnown r ds ↔ ∀ d ∈ ds, d.Known r := by
  induction ds with
  | nil => simp [AllKnown]
  | cons d ds ih => simp [AllKnown, ih]

theorem Known.has (known : d.Known r) : r.Has d.classKey := by
  cases d with
  | token => exact known
  | text => exact known
  | expanded => exact known.1
  | compound => exact known.1
  | list => exact known.1

/-- A document that can be rebuilt anywhere: its parts are of the declared classes, and all
classes are registered. -/
def Fine (r : Registry S) (d : Sketch S) : Prop := d.Conforms ∧ d.Known r

theorem Fine.part {position : Position} (fine : d.Fine r) (there : d.part? position = some e) :
    e.Fine r := by
  cases d with
  | token => cases position <;> cases there
  | text => cases position <;> cases there
  | expanded k content =>
    cases position with
    | content =>
      cases there
      exact ⟨fine.1, fine.2.2⟩
    | component => cases there
    | item => cases there
  | compound k parts =>
    cases position with
    | component index =>
      have member := List.mem_of_getElem? there
      exact ⟨allConform_iff.1 fine.1.2 e member, allKnown_iff.1 fine.2.2 e member⟩
    | content => cases there
    | item => cases there
  | list k items =>
    cases position with
    | item index =>
      have member := List.mem_of_getElem? there
      exact ⟨allConform_iff.1 fine.1.2 e member, allKnown_iff.1 fine.2.2 e member⟩
    | content => cases there
    | component => cases there

theorem Fine.at? {way : List Position} (fine : d.Fine r) (there : d.at? way = some e) :
    e.Fine r := by
  induction way generalizing d with
  | nil =>
    cases there
    exact fine
  | cons position rest ih =>
    obtain ⟨next, first, there⟩ := Option.bind_eq_some_iff.1 there
    exact ih (fine.part first) there

omit [Language S] in
theorem classKey_setPart (d e : Sketch S) (position : Position) :
    (d.setPart position e).classKey = d.classKey := by
  cases d <;> cases position <;> rfl

omit [Language S] in
theorem classKey_setAt {way : List Position} {part : Sketch S} (there : d.at? way = some part)
    (sameClass : e.classKey = part.classKey) : (d.setAt way e).classKey = d.classKey := by
  cases way with
  | nil =>
    cases there
    exact sameClass
  | cons position rest =>
    obtain ⟨next, first, _⟩ := Option.bind_eq_some_iff.1 there
    simp only [setAt, first, classKey_setPart]

theorem Fine.setPart {position : Position} {part : Sketch S} (fine : d.Fine r)
    (there : d.part? position = some part) (fine' : e.Fine r)
    (sameClass : e.classKey = part.classKey) : (d.setPart position e).Fine r := by
  have kept : ∀ {ds : List (Sketch S)} {index : Nat}, ds[index]? = some part →
      AllConform ds → AllKnown r ds → (ds.set index e).map classKey = ds.map classKey ∧
        AllConform (ds.set index e) ∧ AllKnown r (ds.set index e) := by
    intro ds index listed conform known
    refine ⟨?_, allConform_iff.2 fun x member => ?_, allKnown_iff.2 fun x member => ?_⟩
    · obtain ⟨inside, rfl⟩ := List.getElem?_eq_some_iff.1 listed
      rw [List.map_set, sameClass, ← List.getElem_map classKey (h := by simpa using inside),
        List.set_getElem_self]
    · rcases List.mem_or_eq_of_mem_set member with old | rfl
      · exact allConform_iff.1 conform x old
      · exact fine'.1
    · rcases List.mem_or_eq_of_mem_set member with old | rfl
      · exact allKnown_iff.1 known x old
      · exact fine'.2
  cases d with
  | token => cases position <;> cases there
  | text => cases position <;> cases there
  | expanded k content =>
    cases position with
    | content => exact ⟨fine'.1, fine.2.1, fine'.2⟩
    | component => cases there
    | item => cases there
  | compound k parts =>
    cases position with
    | component index =>
      obtain ⟨classes, conform, known⟩ := kept there fine.1.2 fine.2.2
      exact ⟨⟨classes.trans fine.1.1, conform⟩, fine.2.1, known⟩
    | content => cases there
    | item => cases there
  | list k items =>
    cases position with
    | item index =>
      obtain ⟨_, conform, known⟩ := kept there fine.1.2 fine.2.2
      refine ⟨⟨fun x member => ?_, conform⟩, fine.2.1, known⟩
      rcases List.mem_or_eq_of_mem_set member with old | rfl
      · exact fine.1.1 x old
      · exact sameClass.trans (fine.1.1 part (List.mem_of_getElem? there))
    | content => cases there
    | component => cases there

theorem Fine.setAt {way : List Position} {part : Sketch S} (fine : d.Fine r)
    (there : d.at? way = some part) (fine' : e.Fine r) (sameClass : e.classKey = part.classKey) :
    (d.setAt way e).Fine r := by
  induction way generalizing d with
  | nil => exact fine'
  | cons position rest ih =>
    obtain ⟨next, first, there⟩ := Option.bind_eq_some_iff.1 there
    simp only [Sketch.setAt, first]
    exact fine.setPart first (ih (fine.part first) there) (classKey_setAt there sameClass)

theorem known_canon : d.canon.Known r ↔ d.Known r := by
  induction d using Sketch.induct with
  | token c shown item => exact Iff.rfl
  | text c shown item => exact Iff.rfl
  | expanded c content ih => exact and_congr Iff.rfl ih
  | compound c parts ih =>
    simp only [canon, Known, canonAll_eq_map, allKnown_iff, List.forall_mem_map]
    exact and_congr Iff.rfl (forall₂_congr fun d member => ih d member)
  | list c items ih =>
    simp only [canon, Known, canonAll_eq_map, allKnown_iff, List.forall_mem_map]
    exact and_congr Iff.rfl (forall₂_congr fun d member => ih d member)

theorem fine_canon : d.canon.Fine r ↔ d.Fine r := and_congr conforms_canon known_canon

end Sketch

def Page.Fine (r : Registry S) (P : Page S) : Prop := ∀ x d, P x = some d → d.Fine r

theorem Page.Fine.at? {r : Registry S} {P : Page S} {l : Locator} {d : Sketch S} (fine : P.Fine r)
    (there : P.at? l = some d) : d.Fine r := by
  obtain ⟨whole, shown, there⟩ := Option.bind_eq_some_iff.1 there
  exact (fine l.root whole shown).at? there

theorem Page.Fine.set {r : Registry S} {P : Page S} {l : Locator} {d e : Sketch S} (fine : P.Fine r)
    (there : P.at? l = some d) (fine' : e.Fine r) (sameClass : e.classKey = d.classKey) :
    (P.set l e).Fine r := by
  obtain ⟨whole, shown, there⟩ := Option.bind_eq_some_iff.1 there
  intro x y here
  by_cases same : x = l.root
  · subst same
    simp only [Page.set, if_true, shown, Option.map_some, Option.some.injEq] at here
    exact here ▸ (fine l.root whole shown).setAt there fine' sameClass
  · rw [Page.set, if_neg same] at here
    exact fine x y here

namespace Edit

def locator : Edit → Locator
  | .text l .. | .transition l .. | .insertion l .. | .removal l .. | .replacement l .. => l

def Inserts (r : Registry S) (index : Nat) (item : Snapshot) (d d' : Sketch S) : Prop :=
  ∃ (k : S.ListClass) (ds : List (Sketch S)) (x : Sketch S), x.Fine r ∧
    x.classKey = (Language.list k).element ∧ item = x.toSnapshot ∧ index ≤ ds.length ∧
    d = .list k ds ∧ d' = .list k (ds.insertIdx index x.canon)

/-- What an edit makes of the editor that it names. -/
def Turns (r : Registry S) : Edit → Sketch S → Sketch S → Prop
  | .text _ old new oldItem newItem, d, d' =>
    ∃ k, d = (Sketch.token k old oldItem).canon ∧ d' = (Sketch.token k new newItem).canon
  | .transition _ before after _, d, d' =>
    ∃ (k : S.ExpanderClass) (s s' : Sketch S), s.classKey = .expander k ∧
      s'.classKey = .expander k ∧ s.Fine r ∧ s'.Fine r ∧
      s.toSnapshot.display? = some before ∧ s'.toSnapshot.display? = some after ∧
      d = s.canon ∧ d' = s'.canon
  | .insertion _ index item, d, d' => Inserts r index item d d'
  | .removal _ index item, d, d' => Inserts r index item d' d
  | .replacement _ before after _, d, d' =>
    ∃ s s' : Sketch S, s.classKey = s'.classKey ∧ s.Fine r ∧ s'.Fine r ∧ before = s.toSnapshot ∧
      after = s'.toSnapshot ∧ d = s.canon ∧ d' = s'.canon

def Connects (r : Registry S) (e : Edit) (P P' : Page S) : Prop :=
  ∃ d d', e.Turns r d d' ∧ P.at? e.locator = some d ∧ P' = P.set e.locator d'

theorem merge_connects {r : Registry S} {first second merged : Edit} {P M P' : Page S}
    (together : merge? first second = some merged) (before : first.Connects r P M)
    (after : second.Connects r M P') : merged.Connects r P P' := by
  cases first with
  | text l old mid oldItem midItem =>
    cases second with
    | text l' mid' new midItem' newItem =>
      simp only [merge?] at together
      split at together
      · next same =>
        subst same
        cases together
        obtain ⟨d, d', ⟨k, rfl, rfl⟩, there, rfl⟩ := before
        obtain ⟨e, e', ⟨k', rfl, rfl⟩, there', rfl⟩ := after
        have same := (Page.at?_set there _).symm.trans there'
        simp only [Sketch.canon, Option.some.injEq, Sketch.token.injEq] at same
        obtain ⟨rfl, _⟩ := same
        exact ⟨_, _, ⟨k, rfl, rfl⟩, there, Page.set_set ..⟩
      · cases together
    | _ => cases together
  | _ => cases together

def ConnectAll (r : Registry S) : List Edit → Page S → Page S → Prop
  | [], P, P' => P' = P
  | e :: rest, P, P' => ∃ M, e.Connects r P M ∧ ConnectAll r rest M P'

theorem connectAll_append {r : Registry S} {first second : List Edit} {P P' : Page S} :
    ConnectAll r (first ++ second) P P' ↔
      ∃ M, ConnectAll r first P M ∧ ConnectAll r second M P' := by
  induction first generalizing P with
  | nil => exact ⟨fun after => ⟨P, rfl, after⟩, fun ⟨_, same, after⟩ => same ▸ after⟩
  | cons e rest ih =>
    constructor
    · rintro ⟨M, connects, after⟩
      obtain ⟨N, before, after⟩ := ih.1 after
      exact ⟨N, ⟨M, connects, before⟩, after⟩
    · rintro ⟨N, ⟨M, connects, before⟩, after⟩
      exact ⟨M, connects, ih.2 ⟨N, before, after⟩⟩

end Edit

namespace Step

def Connects (r : Registry S) (step : Step Edit) (P P' : Page S) : Prop :=
  Edit.ConnectAll r step.edits P P'

/-- Steps, newest first, that lead from one page to another. -/
def Linked (r : Registry S) : List (Step Edit) → Page S → Page S → Prop
  | [], P, P' => P' = P
  | step :: rest, P, P' => ∃ M, Linked r rest P M ∧ step.Connects r M P'

variable {r : Registry S} {step : Step Edit} {steps : List (Step Edit)} {P M P' : Page S}

theorem connects_single {e : Edit} : (Step.single e).Connects r P P' ↔ e.Connects r P P' := by
  constructor
  · rintro ⟨M, connects, rfl⟩
    exact connects
  · exact fun connects => ⟨P', connects, rfl⟩

theorem editsOf_append (first second : List (Step Edit)) :
    editsOf (first ++ second) = editsOf first ++ editsOf second := by
  induction first with
  | nil => rfl
  | cons step rest ih => simp only [List.cons_append, editsOf, ih, List.append_assoc]

theorem connects_group (description : String) (linked : Linked r steps P P') :
    (Step.group description steps.reverse).Connects r P P' := by
  change Edit.ConnectAll r (editsOf steps.reverse) P P'
  induction steps generalizing P' with
  | nil => exact linked
  | cons step rest ih =>
    obtain ⟨M, linked, connects⟩ := linked
    rw [List.reverse_cons, editsOf_append, Edit.connectAll_append]
    refine ⟨M, ih linked, ?_⟩
    change Edit.ConnectAll r (step.edits ++ []) M P'
    rw [List.append_nil]
    exact connects

theorem merge_connects {first second merged : Step Edit} (together : first.merge? second = some merged)
    (before : first.Connects r P M) (after : second.Connects r M P') : merged.Connects r P P' := by
  cases first with
  | group => cases together
  | single e =>
    cases second with
    | group => cases together
    | single e' =>
      obtain ⟨m, both, rfl⟩ := Option.map_eq_some_iff.1 together
      exact connects_single.2 (Edit.merge_connects both (connects_single.1 before)
        (connects_single.1 after))

def Leads (r : Registry S) (step : Step Edit) : Direction → Page S → Page S → Prop
  | .undo, P, P' => step.Connects r P' P
  | .redo, P, P' => step.Connects r P P'

theorem push_ne_nil (step : Step Edit) (steps : List (Step Edit)) : History.push step steps ≠ [] := by
  cases steps with
  | nil => exact nofun
  | cons top rest =>
    simp only [History.push]
    split <;> exact nofun

theorem linked_push (linked : Linked r steps P M) (connects : step.Connects r M P') :
    Linked r (History.push step steps) P P' := by
  cases steps with
  | nil => exact ⟨M, linked, connects⟩
  | cons top rest =>
    simp only [History.push]
    split
    · next merged together =>
      obtain ⟨N, linked, before⟩ := linked
      exact ⟨N, linked, merge_connects together before connects⟩
    · exact ⟨M, linked, connects⟩

end Step

namespace History

open Step

variable {r : Registry S} {hs hs' hs'' : History Edit} {P P' P'' M : Page S}

/-- What one operation does to a history while it turns one page into another: nothing, or it
adds one step that leads there. While a group is open, the steps in it lead there. -/
structure Takes (r : Registry S) (hs : History Edit) (P : Page S) (hs' : History Edit)
    (P' : Page S) : Prop where
  active : hs'.active = hs.active
  limit : hs'.limit = hs.limit
  closed : hs.collected = none → hs'.collected = none ∧
    ((hs'.done = hs.done ∧ hs'.undone = hs.undone ∧ P' = P) ∨
      ∃ step : Step Edit, step.Connects r P P' ∧ hs'.done = trim hs.limit (push step hs.done) ∧
        hs'.undone = [])
  opened : ∀ steps, hs.collected = some steps → ∃ steps', hs'.collected = some steps' ∧
    hs'.done = hs.done ∧
    ((steps' = steps ∧ hs'.undone = hs.undone ∧ P' = P) ∨ (steps' ≠ [] ∧ hs'.undone = [])) ∧
    ∀ B, Linked r steps B P → Linked r steps' B P'

theorem Takes.refl (r : Registry S) (hs : History Edit) (P : Page S) : Takes r hs P hs P :=
  ⟨rfl, rfl, fun closed => ⟨closed, .inl ⟨rfl, rfl, rfl⟩⟩,
    fun steps opened => ⟨steps, opened, rfl, .inl ⟨rfl, rfl, rfl⟩, fun _ linked => linked⟩⟩

theorem takes_record {e : Edit} (active : hs.active = true) (connects : e.Connects r P P') :
    Takes r hs P (hs.record (.single e)) P' := by
  cases collected : hs.collected with
  | none =>
    have eq : hs.record (.single e) =
        { hs with undone := [], done := trim hs.limit (push (.single e) hs.done) } := by
      simp only [record, active, if_true, collected, commit]
    rw [eq]
    refine ⟨rfl, rfl, fun _ => ⟨collected, .inr ⟨_, connects_single.2 connects, rfl, rfl⟩⟩, ?_⟩
    intro steps opened
    rw [collected] at opened
    cases opened
  | some steps =>
    have eq : hs.record (.single e) =
        { hs with undone := [], collected := some (push (.single e) steps) } := by
      simp only [record, active, if_true, collected]
    rw [eq]
    refine ⟨rfl, rfl, fun closed => ?_, fun steps' opened => ?_⟩
    · rw [collected] at closed
      cases closed
    · cases collected.symm.trans opened
      exact ⟨_, rfl, rfl, .inr ⟨push_ne_nil _ _, rfl⟩, fun B linked =>
        linked_push linked (connects_single.2 connects)⟩

omit [Language S] in
theorem undone_record {step : Step Edit} (active : hs.active = true) :
    (hs.record step).undone = [] := by
  simp only [record, active, if_true]
  split <;> rfl

theorem Takes.trans {steps : List (Step Edit)} (first : Takes r hs P hs' P')
    (second : Takes r hs' P' hs'' P'') (opened : hs.collected = some steps) :
    Takes r hs P hs'' P'' := by
  refine ⟨second.active.trans first.active, second.limit.trans first.limit, fun closed => ?_, ?_⟩
  · rw [opened] at closed
    cases closed
  · intro given same
    obtain ⟨steps', opened', done, rest, linked⟩ := first.opened given same
    obtain ⟨steps'', opened'', done', rest', linked'⟩ := second.opened steps' opened'
    refine ⟨steps'', opened'', done'.trans done, ?_, fun B before => linked' B (linked B before)⟩
    rcases rest' with ⟨rfl, undone', rfl⟩ | later
    · rcases rest with ⟨rfl, undone, rfl⟩ | ⟨some, none⟩
      · exact .inl ⟨rfl, undone'.trans undone, rfl⟩
      · exact .inr ⟨some, undone'.trans none⟩
    · exact .inr later

/-- A group that has collected something is committed as one step. It is a single edit only if
nothing else was collected. -/
theorem close_commits {steps : List (Step Edit)} (description : String)
    (linked : Linked r steps P P') (filled : steps ≠ []) :
    ∃ step : Step Edit, step.Connects r P P' ∧ (∀ e, step = .single e → steps = [.single e]) ∧
      ∀ hs : History Edit, hs.close description steps = { hs with collected := none }.commit step := by
  cases steps with
  | nil => exact absurd rfl filled
  | cons newest rest =>
    cases rest with
    | nil =>
      obtain ⟨M, rfl, connects⟩ := linked
      exact ⟨newest, connects, fun e same => same ▸ rfl, fun hs => rfl⟩
    | cons before earlier =>
      refine ⟨_, connects_group description linked, fun e same => ?_, fun hs => rfl⟩
      cases same

theorem takes_close {steps : List (Step Edit)} (description : String) (closed : hs.collected = none)
    (inner : Takes r hs.begin P hs' P') (collected : hs'.collected = some steps) :
    Takes r hs P (hs'.close description steps) P' := by
  obtain ⟨steps', same, done, rest, linked⟩ := inner.opened [] rfl
  cases collected.symm.trans same
  have leads : Linked r steps P P' := linked P rfl
  have never : ∀ {steps}, hs.collected ≠ some steps := by simp [closed]
  rcases rest with ⟨rfl, undone, rfl⟩ | ⟨filled, undone⟩
  · exact ⟨inner.active, inner.limit, fun _ => ⟨rfl, .inl ⟨done, undone, rfl⟩⟩,
      fun _ opened => absurd opened never⟩
  · obtain ⟨step, connects, _, closes⟩ := close_commits description leads filled
    rw [closes]
    refine ⟨inner.active, inner.limit, fun _ => ⟨rfl, .inr ⟨step, connects, ?_, undone⟩⟩,
      fun _ opened => absurd opened never⟩
    have limit : hs'.limit = hs.limit := inner.limit
    have done : hs'.done = hs.done := done
    simp only [commit, limit, done]

/-- Steps, the nearest one first, that lead in a direction from a page through the pages there. -/
def Along (r : Registry S) (direction : Direction) :
    List (Step Edit) → List (Page S) → Page S → Prop
  | [], [], _ => True
  | step :: rest, M :: others, P => step.Leads r direction P M ∧ Along r direction rest others M
  | _, _, _ => False

variable {direction : Direction} {steps : List (Step Edit)} {step : Step Edit}
  {past others : List (Page S)}

theorem Along.length (along : Along r direction steps others P) : others.length = steps.length := by
  induction steps generalizing others P with
  | nil =>
    cases others with
    | nil => rfl
    | cons M others => cases along
  | cons step rest ih =>
    cases others with
    | nil => cases along
    | cons M others => rw [List.length_cons, List.length_cons, ih along.2]

theorem Along.dropLast (along : Along r direction steps others P) :
    Along r direction steps.dropLast others.dropLast P := by
  induction steps generalizing others P with
  | nil =>
    cases others with
    | nil => trivial
    | cons M others => cases along
  | cons step rest ih =>
    cases others with
    | nil => cases along
    | cons M others =>
      have still := ih along.2
      cases rest with
      | nil =>
        cases others with
        | nil => trivial
        | cons N others => cases along.2
      | cons next rest =>
        cases others with
        | nil => cases along.2
        | cons N others => exact ⟨along.1, still⟩

theorem Along.trim (along : Along r direction steps others P) (limit : Nat) :
    Along r direction (History.trim limit steps) (History.trim limit others) P := by
  unfold History.trim
  rw [along.length]
  split
  · exact along.dropLast
  · exact along

def merges (step : Step Edit) (stack : List (Step Edit)) : Bool :=
  (stack.head?.bind (·.merge? step)).isSome

/-- The pages behind the page that a step leads to. A page that only led to a step which is merged
with the next one is not among them. -/
def behind (limit : Nat) (merged : Bool) (M : Page S) (past : List (Page S)) : List (Page S) :=
  trim limit (if merged then past else M :: past)

theorem Along.commit (along : Along r .undo steps past M) (connects : step.Connects r M P)
    (limit : Nat) : Along r .undo (History.trim limit (push step steps))
      (behind limit (merges step steps) M past) P := by
  refine Along.trim ?_ limit
  have alone : Along r .undo (step :: steps) (M :: past) P := ⟨connects, along⟩
  cases steps with
  | nil => exact alone
  | cons top rest =>
    cases past with
    | nil => cases along
    | cons N past =>
      simp only [History.push]
      split
      · next merged together =>
        have into : merges step (top :: rest) = true := by simp [merges, together]
        rw [into]
        exact ⟨merge_connects together along.1 connects, along.2⟩
      · next together =>
        have onto : merges step (top :: rest) = false := by simp [merges, together]
        rw [onto]
        exact alone

end History

end StructureEditor
