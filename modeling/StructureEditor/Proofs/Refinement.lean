import StructureEditor.Proofs.Classes
import StructureEditor.Proofs.SampleLanguage
import StructureEditor.Proofs.Typing

/-! The arena refines a pure tree. Which handles the editors of a document have, what else is in the
arena and what was there before is not seen: two documents that look the same and are in like
surroundings go on looking the same, whatever is asked of both of them. -/
namespace StructureEditor

variable {S : Signature}

namespace Sketch

theorem map_inj_of_mem {α β : Type} {f : α → β} {xs ys : List α}
    (injective : ∀ x ∈ xs, ∀ y, f x = f y → x = y) (same : xs.map f = ys.map f) : xs = ys := by
  induction xs generalizing ys with
  | nil => exact (List.map_eq_nil_iff.1 same.symm).symm
  | cons x xs ih =>
    cases ys with
    | nil => cases same
    | cons y ys =>
      obtain ⟨first, rest⟩ := List.cons.inj same
      rw [injective x (by simp) y first, ih (fun x member => injective x (by simp [member])) rest]

theorem item_inj {item item' : Option Candidate}
    (names : item.map (·.className) = item'.map (·.className))
    (values : item.map (·.value) = item'.map (·.value)) : item = item' := by
  cases item <;> cases item'
  · rfl
  · cases names
  · cases names
  · next a b =>
    cases a
    cases b
    cases names
    cases values
    rfl

variable [Language S]

theorem toSnapshot_inj (named : Function.Injective (ClassKey.name : ClassKey S → String))
    {d e : Sketch S} (same : d.toSnapshot = e.toSnapshot) : d = e := by
  induction d using Sketch.induct generalizing e with
  | token c text item =>
    cases e with
    | token c' text' item' =>
      simp only [toSnapshot, Snapshot.ofToken, Snapshot.token.injEq, Option.some.injEq] at same
      obtain ⟨name, rfl, names, values⟩ := same
      cases named name
      rw [item_inj names values]
    | _ => simp [toSnapshot, Snapshot.ofToken, Snapshot.ofExpander] at same
  | text c shown item =>
    cases e with
    | text c' shown' item' =>
      simp only [toSnapshot, Snapshot.ofExpander, Snapshot.expander.injEq, Option.some.injEq]
        at same
      obtain ⟨name, -, rfl, names, values⟩ := same
      cases named name
      rw [item_inj names values]
    | _ => simp [toSnapshot, Snapshot.ofToken, Snapshot.ofExpander] at same
  | expanded c content ih =>
    cases e with
    | expanded c' content' =>
      simp only [toSnapshot, Snapshot.ofExpander, Snapshot.expander.injEq, Option.some.injEq]
        at same
      obtain ⟨name, below, -⟩ := same
      cases named name
      rw [ih below]
    | _ => simp [toSnapshot, Snapshot.ofToken, Snapshot.ofExpander] at same
  | compound c parts ih =>
    cases e with
    | compound c' parts' =>
      simp only [toSnapshot, Snapshot.compound.injEq, Option.some.injEq, toSnapshots_eq_map]
        at same
      obtain ⟨name, below⟩ := same
      cases named name
      rw [map_inj_of_mem (fun d member e => ih d member) below]
    | _ => simp [toSnapshot, Snapshot.ofToken, Snapshot.ofExpander] at same
  | list c items ih =>
    cases e with
    | list c' items' =>
      simp only [toSnapshot, Snapshot.list.injEq, Option.some.injEq, toSnapshots_eq_map] at same
      obtain ⟨name, below⟩ := same
      cases named name
      rw [map_inj_of_mem (fun d member e => ih d member) below]
    | _ => simp [toSnapshot, Snapshot.ofToken, Snapshot.ofExpander] at same

end Sketch

inductive Command where
  | typeText (text : String)
  | choose (choice : Choice)
  | expand
  | reset
  | paste (s : Snapshot)
  | openItem (index : Nat)
  | removeAt (index : Nat)

/-- What is asked of the editor at the end of a way from the root of a document. -/
structure Instruction where
  way : List Position
  command : Command

/-- What a command answers; a new item has no name. -/
inductive Answer where
  | done
  | verdict (holds : Bool)
  | item
deriving DecidableEq

/-- How an instruction ends. The handles that refusals are about are left out. -/
inductive Ending where
  | answered (answer : Answer)
  | refused (error : Refusal)
  | fault
deriving DecidableEq

/-- What is seen of a document after an instruction. -/
structure Sight (S : Signature) where
  ending : Ending
  snapshot : Except Refusal Snapshot
  results : List Position → Option (Outcome S.Value)

namespace Workspace

def ending (action : Editing S Answer) (w : Workspace S) : Ending :=
  match action w with
  | .ok answer _ => .answered answer
  | .error (.refused error) _ => .refused error.anonymous
  | .error (.fault _) _ => .fault

variable [Language S]

def command (x : Handle) : Command → Editing S Answer
  | .typeText text => do
    typeText x text
    return .done
  | .choose choice => do
    choose x choice
    return .done
  | .expand => return .verdict (← expand x)
  | .reset => do
    reset x
    return .done
  | .paste s => return .verdict (← paste x s)
  | .openItem index => do
    let _ ← openItem x index
    return .item
  | .removeAt index => do
    removeAt x index
    return .done

def instruct (root : Handle) (i : Instruction) : Editing S Answer := do
  command (← ask (·.follow root i.way)) i.command

/-- What is seen of a document while one instruction after the other is carried out, however they
end. -/
def sights (root : Handle) : List Instruction → Workspace S → List (Sight S)
  | [], _ => []
  | i :: rest, w =>
    let after := (instruct root i).after w
    ⟨ending (instruct root i) w, after.arena.snapshot root, after.arena.resultAt? root⟩ ::
      sights root rest after

variable {v w v' w' : Workspace S} {x y r r' : Handle} {way : List Position} {e f : Editor S}

omit [Language S] in
theorem ending_of_together {a b : Editing S Answer} {ok stopped : Workspace S → Workspace S → Prop}
    (together : Action.Together a b v w (fun p q v' w' => p = q ∧ ok v' w') stopped)
    (stops : ∀ v' w', stopped v' w' → ok v' w') :
    ending a v = ending b w ∧ ok (a.after v) (b.after w) := by
  rcases together.cases with ⟨p, q, v', w', ran, ran', rfl, holds⟩ |
    ⟨e, f, v', w', ran, ran', same, holds⟩ | ⟨e, f, v', w', ran, ran', holds⟩
  · simp only [ending, Action.after, ran, ran']
    exact ⟨trivial, holds⟩
  · simp only [ending, Action.after, ran, ran', same]
    exact ⟨trivial, stops v' w' holds⟩
  · simp only [ending, Action.after, ran, ran']
    exact ⟨trivial, stops v' w' holds⟩

theorem command_twins (isBlind : Language.Blind S) (facing : Facing v w r r')
    (led : v.arena.follow r way = .ok x) (led' : w.arena.follow r' way = .ok y)
    (asked : Command) :
    Action.Together (command x asked) (command y asked) v w
      (fun p q v' w' => p = q ∧ Abreast v w v' w' r r') fun v' w' => Abreast v w v' w' r r' := by
  have sound := facing.sound
  have sound' := facing.sound'
  have twins := facing.twins.at led led'
  have wide : ∀ v' w', Abreast v w v' w' x y → Abreast v w v' w' r r' := fun _ _ abreast =>
    abreast.widen facing.twins sound sound' led led' twins
  cases asked with
  | typeText text =>
    exact .bind ((typeText_twins isBlind text facing led led' twins).mono
      (fun _ _ _ _ abreast => .pure ⟨rfl, abreast⟩) fun _ _ abreast => abreast)
  | choose choice =>
    exact .bind ((choose_twins isBlind choice sound sound' twins).mono
      (fun _ _ v' w' abreast => .pure ⟨rfl, wide v' w' abreast⟩) wide)
  | expand =>
    exact .bind ((expand_twins isBlind sound sound' twins).mono
      (fun _ _ v' w' ⟨same, abreast⟩ => .pure ⟨congrArg _ same, wide v' w' abreast⟩) wide)
  | reset =>
    exact .bind ((reset_twins sound sound' twins).mono
      (fun _ _ v' w' abreast => .pure ⟨rfl, wide v' w' abreast⟩) wide)
  | paste s =>
    exact .bind ((paste_twins s sound sound' twins).mono
      (fun _ _ v' w' ⟨same, abreast⟩ => .pure ⟨congrArg _ same, wide v' w' abreast⟩) wide)
  | openItem index =>
    exact .bind ((openItem_twins index sound sound' twins).mono
      (fun _ _ v' w' abreast => .pure ⟨rfl, wide v' w' abreast⟩) wide)
  | removeAt index =>
    exact .bind ((removeAt_twins index sound sound' twins).mono
      (fun _ _ v' w' abreast => .pure ⟨rfl, wide v' w' abreast⟩) wide)

theorem instruct_twins (isBlind : Language.Blind S) (facing : Facing v w r r') (i : Instruction) :
    Action.Together (instruct r i) (instruct r' i) v w
      (fun p q v' w' => p = q ∧ Abreast v w v' w' r r') fun v' w' => Abreast v w v' w' r r' := by
  rcases facing.twins.follow i.way with ⟨x, y, led, led', _⟩ | ⟨_, _, _, led, led'⟩
  · exact .after_ok (ask_run led) (ask_run led') (command_twins isBlind facing led led' i.command)
  · exact .of_refused (Action.bind_run_error _ (Action.ask_run_error led))
      (Action.bind_run_error _ (Action.ask_run_error led')) rfl
      (.refl facing.sound facing.sound' facing.twins)

theorem Facing.alike (facing : Facing v w r r') : v.arena.Alike r w.arena r' := by
  obtain ⟨e, found, _⟩ := facing.root
  obtain ⟨d, seen⟩ := Arena.exists_shows facing.sound.forest found
  exact Arena.alike_of_shows facing.sound facing.sound' seen (facing.twins.shows seen)

theorem sights_eq (isBlind : Language.Blind S) (instructions : List Instruction)
    (facing : Facing v w r r') : sights r instructions v = sights r' instructions w := by
  induction instructions generalizing v w with
  | nil => rfl
  | cons i rest ih =>
    obtain ⟨same, abreast⟩ :=
      ending_of_together (instruct_twins isBlind facing i) fun _ _ abreast => abreast
    have after := facing.after abreast
    obtain ⟨s, captured, captured'⟩ := after.alike.snapshot
    have results := funext after.alike.results
    rw [sights, sights, ih after, same, captured, captured', results]

/-- Editors at the same places of two documents are in contexts that offer the same. -/
def SameSurroundings (v : Workspace S) (r : Handle) (w : Workspace S) (r' : Handle) : Prop :=
  ∀ way x y e f, v.arena.follow r way = .ok x → v.arena.get? x = some e →
    w.arena.follow r' way = .ok y → w.arena.get? y = some f →
    v.contexts.outlook e.context = w.contexts.outlook f.context

omit [Language S] in
theorem SameSurroundings.twins {d : Sketch S} (surroundings : SameSurroundings v r w r')
    (seen : v.arena.Shows r d) (seen' : w.arena.Shows r' d) : Twins v w r r' := by
  refine twins_of_shows seen seen' fun way x y led led' => ?_
  obtain ⟨_, _, shown⟩ := Arena.at?_of_follow seen led
  obtain ⟨_, _, shown'⟩ := Arena.at?_of_follow seen' led'
  obtain ⟨_, held, _⟩ := shown.state
  obtain ⟨_, held', _⟩ := shown'.state
  obtain ⟨e, found, _⟩ := Arena.get?_of_state? held
  obtain ⟨f, found', _⟩ := Arena.get?_of_state? held'
  rw [outlook?_of_get? found, outlook?_of_get? found',
    surroundings way x y e f led found led' found']

omit [Language S] in
theorem all_of_slots {a : Arena S} {holds : Editor S → Bool}
    (each : a.slots.all (fun slot => slot.editor.all holds) = true)
    (found : a.get? x = some e) : holds e = true := by
  unfold Arena.get? at found
  split at found
  · next slot there =>
    obtain ⟨inside, rfl⟩ := Array.getElem?_eq_some_iff.1 there
    have kept := Array.all_eq_true.1 each x.index inside
    split at found
    · simpa [found] using kept
    · cases found
  · cases found

omit [Language S] in
theorem root_of_parent {a : Arena S} (held : (a.get? x).map (·.parent) = some none) :
    ∃ e, a.get? x = some e ∧ e.parent = none :=
  Option.map_eq_some_iff.1 held

omit [Language S] in
theorem outlook_of_no_scope {cs : Contexts (Services S)} {c : Context}
    (none : cs.find? (·.scope) c = none) :
    cs.outlook c = fun _ => (cs.find? (·.settings) c, cs.find? (·.registry) c) := by
  funext n
  induction n with
  | zero => rfl
  | succ n ih => rw [Contexts.outlook, none, Option.getD_none, ih]

omit [Language S] in
/-- Documents of one context each are in like surroundings if the contexts offer the same. -/
theorem SameSurroundings.of_one_context {c d : Context}
    (first : v.arena.slots.all (fun slot => slot.editor.all fun e => decide (e.context = c)) = true)
    (second : w.arena.slots.all (fun slot => slot.editor.all fun e => decide (e.context = d)) = true)
    (same : v.contexts.outlook c = w.contexts.outlook d) : SameSurroundings v r w r' := by
  intro way x y e f _ found _ found'
  rw [of_decide_eq_true (all_of_slots first found), of_decide_eq_true (all_of_slots second found'),
    same]

section

open Sample

def firstList : Workspace expression :=
  performAll [.create (.list ListName.semis) ⟨0, []⟩, .openItem ⟨0, 0⟩ 0] desk

/-- A list with one item in the second context of a workspace. The item has the slot of a word
that is gone. -/
def laterList : Workspace expression :=
  performAll [.create (.token TokenName.word) ⟨1, []⟩, .create (.list ListName.semis) ⟨1, []⟩,
      .removeDocument ⟨0, 0⟩, .openItem ⟨1, 0⟩ 0]
    { contexts := ⟨#[{}, { history := some 0, registry := some defaultRegistry }]⟩
      histories := { count := 1 } }

theorem reaches_firstList : Reaches {} firstList :=
  reaches_performAll _ (.beside (.refl _) rfl) (by simp [Allowed])

theorem reaches_laterList : Reaches {} laterList :=
  reaches_performAll _ (.beside (.refl _) rfl) (by simp [Allowed])

theorem firstList_shows :
    firstList.arena.Shows ⟨0, 0⟩ (.list ListName.semis [.text ExpanderName.expr "" none]) :=
  Arena.shows_list.2 ⟨[⟨1, 0⟩], rfl, .cons rfl .nil⟩

theorem laterList_shows :
    laterList.arena.Shows ⟨1, 0⟩ (.list ListName.semis [.text ExpanderName.expr "" none]) :=
  Arena.shows_list.2 ⟨[⟨0, 1⟩], rfl, .cons rfl .nil⟩

theorem lists_in_like_surroundings : SameSurroundings firstList ⟨0, 0⟩ laterList ⟨1, 0⟩ := by
  refine .of_one_context (c := ⟨0, []⟩) (d := ⟨1, []⟩) (by decide +kernel) (by decide +kernel) ?_
  rw [outlook_of_no_scope rfl, outlook_of_no_scope rfl]
  rfl

/-- A separator is typed, the new item is expanded and its first part typed into, and the item
before it is removed. The last two instructions are refused and at fault. -/
def listInstructions : List Instruction :=
  [⟨[.item 0], .typeText "1;"⟩, ⟨[.item 1], .typeText "+"⟩, ⟨[.item 1], .expand⟩,
    ⟨[.item 1, .content, .component 0], .typeText "2"⟩, ⟨[], .removeAt 0⟩, ⟨[.item 1], .reset⟩,
    ⟨[.item 0, .content, .component 1], .reset⟩]

/-- One context with services, whose scope service names another context, and one without. -/
def scopes (scope : Context) : Contexts (Services expression) :=
  ⟨#[{ history := some 0, registry := some defaultRegistry, scope := some scope }, {}]⟩

/-- Two documents in one context. The content of the first was put into the context that the scope
service named at that time, the content of the second into the one that it names now. -/
def rescoped : Workspace expression :=
  performAll [.create (.expander ExpanderName.expr) ⟨0, []⟩,
      .wrap ExpanderName.scoped ⟨2, 0⟩ ⟨0, []⟩]
    { performAll [.create (.expander ExpanderName.expr) ⟨1, []⟩,
        .wrap ExpanderName.scoped ⟨0, 0⟩ ⟨0, []⟩]
        { contexts := scopes ⟨1, []⟩, histories := { count := 1 } }
      with contexts := scopes ⟨0, []⟩ }

theorem reaches_rescoped : Reaches {} rescoped := by
  have first : Reaches {} (performAll [.create (.expander ExpanderName.expr) ⟨1, []⟩,
      .wrap ExpanderName.scoped ⟨0, 0⟩ ⟨0, []⟩]
      { contexts := scopes ⟨1, []⟩, histories := { count := 1 } }) :=
    reaches_performAll _ (.beside (.refl _) rfl) (by simp [Allowed])
  exact reaches_performAll _ (.beside first rfl) (by simp [Allowed])

theorem rescoped_shows (x content : Handle)
    (shown : rescoped.arena.state? x = some (.expander ExpanderName.scoped (.expanded content)))
    (below : rescoped.arena.state? content = some (.expander ExpanderName.expr .initial)) :
    rescoped.arena.Shows x (.expanded ExpanderName.scoped (.text ExpanderName.expr "" none)) :=
  Arena.shows_expanded.2 ⟨content, shown, below⟩

theorem rescoped_allProper : rescoped.arena.AllProper := by
  intro x editor found
  have expanders : rescoped.arena.slots.all (fun slot =>
      slot.editor.all fun e => decide (e.state.shape = .expander)) = true := by decide +kernel
  have shape := of_decide_eq_true (all_of_slots expanders found)
  cases shown : editor.state with
  | expander => trivial
  | _ =>
    rw [shown] at shape
    cases shape

/-- Texts, and places that open to the name of the editor that they get. -/
abbrev labels : Signature where
  Value := String
  TokenClass := Unit
  ExpanderClass := Unit
  CompoundClass := Empty
  ListClass := Empty

instance : Language labels where
  token _ := { name := "text", compile := .ok }
  expander _ :=
    { name := "place"
      openText := fun _ => .create (.token ()) fun id => .typeToken id id.text (.done (some id)) }
  compound c := nomatch c
  list c := nomatch c
  rank _ := 0
  rank_component c := nomatch c
  valueEq := inferInstanceAs (DecidableEq String)

theorem labels_name_injective : Function.Injective (ClassKey.name : ClassKey labels → String) := by
  intro c d same
  have different : "text" ≠ "place" := by decide
  cases c with
  | token => cases d with
    | token => rfl
    | expander => exact absurd same different
    | compound c => cases c
    | list c => cases c
  | expander => cases d with
    | token => exact absurd same.symm different
    | expander => rfl
    | compound c => cases c
    | list c => cases c
  | compound c => cases c
  | list c => cases c

theorem labels_allProper (a : Arena labels) : a.AllProper := by
  intro x editor _
  cases editor.state with
  | token => trivial
  | expander => trivial
  | compound c => cases c
  | list c => cases c

def places (count : Nat) : Workspace labels :=
  performAll (.replicate count (.create (.expander ()) ⟨0, []⟩)) { contexts := ⟨#[{}]⟩ }

theorem reaches_places (count : Nat) : Reaches {} (places count) :=
  reaches_performAll _ (.beside (.refl _) rfl) (by simp [Allowed])

/-- Nor is it enough that the contexts offer the same all the way down: a hook that looks at a handle
tells which slots were in use. -/
theorem blind_hooks_needed :
    Function.Injective (ClassKey.name : ClassKey labels → String) ∧
    ¬ ∀ (v w : Workspace labels) (r r' : Handle) (e f : Editor labels),
      Reaches {} v → Reaches {} w → v.arena.AllProper → w.arena.AllProper →
      v.arena.get? r = some e → e.parent = none → w.arena.get? r' = some f → f.parent = none →
      SameSurroundings v r w r' → v.arena.snapshot r = w.arena.snapshot r' →
      ∀ instructions, sights r instructions v = sights r' instructions w := by
  refine ⟨labels_name_injective, fun unobservable => ?_⟩
  obtain ⟨e, root, free⟩ := root_of_parent (a := (places 1).arena) (x := ⟨0, 0⟩) (by decide +kernel)
  obtain ⟨f, root', free'⟩ := root_of_parent (a := (places 2).arena) (x := ⟨0, 0⟩) (by decide +kernel)
  have surroundings : SameSurroundings (places 1) ⟨0, 0⟩ (places 2) ⟨0, 0⟩ :=
    .of_one_context (c := ⟨0, []⟩) (d := ⟨0, []⟩) (by decide +kernel) (by decide +kernel) rfl
  have same := unobservable (places 1) (places 2) ⟨0, 0⟩ ⟨0, 0⟩ e f (reaches_places 1)
    (reaches_places 2) (labels_allProper _) (labels_allProper _) root free root' free' surroundings
    rfl [⟨[], .expand⟩]
  have results := congrArg (List.map fun sight => sight.results []) same
  have first : (sights ⟨0, 0⟩ [⟨[], .expand⟩] (places 1)).map (fun sight => sight.results []) =
    [some (.ok "#1v0")] := by decide +kernel
  have second : (sights ⟨0, 0⟩ [⟨[], .expand⟩] (places 2)).map (fun sight => sight.results []) =
    [some (.ok "#2v0")] := by decide +kernel
  rw [first, second] at results
  simp at results

end

end Workspace

end StructureEditor
