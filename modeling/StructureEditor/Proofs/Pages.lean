import StructureEditor.Proofs.Canonical

/-! Pages: what some root editors show together, up to equality of values. A change below one
editor puts another part in its place and leaves the rest of the page as it was. -/
namespace StructureEditor

variable {S : Signature}

namespace Sketch

def setPart : Sketch S → Position → Sketch S → Sketch S
  | .expanded c _, .content, e => .expanded c e
  | .compound c parts, .component index, e => .compound c (parts.set index e)
  | .list c items, .item index, e => .list c (items.set index e)
  | d, _, _ => d

/-- Puts a part at the end of a way; a way that leads nowhere changes nothing. -/
def setAt (d : Sketch S) : List Position → Sketch S → Sketch S
  | [], e => e
  | position :: rest, e =>
    match d.part? position with
    | some part => d.setPart position (part.setAt rest e)
    | none => d

variable {d e part : Sketch S} {position : Position}

theorem setAt_of_part (first : d.part? position = some part) (rest : List Position)
    (e : Sketch S) : d.setAt (position :: rest) e = d.setPart position (part.setAt rest e) := by
  rw [setAt, first]

theorem setAt_of_no_part (first : d.part? position = none) (rest : List Position) (e : Sketch S) :
    d.setAt (position :: rest) e = d := by
  rw [setAt, first]

theorem part?_setPart (there : d.part? position = some part) (e : Sketch S) :
    (d.setPart position e).part? position = some e := by
  cases d <;> cases position
  case expanded.content => rfl
  case compound.component => exact List.getElem?_set_self (List.getElem?_eq_some_iff.1 there).1
  case list.item => exact List.getElem?_set_self (List.getElem?_eq_some_iff.1 there).1
  all_goals cases there

theorem setPart_setPart (d e e' : Sketch S) (position : Position) :
    (d.setPart position e).setPart position e' = d.setPart position e' := by
  cases d <;> cases position
  case compound.component c parts index => exact congrArg (compound c) (List.set_set ..)
  case list.item c items index => exact congrArg (list c) (List.set_set ..)
  all_goals rfl

theorem setPart_part? (there : d.part? position = some part) : d.setPart position part = d := by
  have listed : ∀ {ds : List (Sketch S)} {index : Nat}, ds[index]? = some part →
      ds.set index part = ds := by
    intro ds index there
    obtain ⟨inside, rfl⟩ := List.getElem?_eq_some_iff.1 there
    exact List.set_getElem_self inside
  cases d <;> cases position
  case expanded.content =>
    cases there
    rfl
  case compound.component c parts index => exact congrArg (compound c) (listed there)
  case list.item c items index => exact congrArg (list c) (listed there)
  all_goals cases there

theorem at?_setAt {way : List Position} (there : d.at? way = some part) (e : Sketch S) :
    (d.setAt way e).at? way = some e := by
  induction way generalizing d with
  | nil => rfl
  | cons position rest ih =>
    obtain ⟨next, first, there⟩ := Option.bind_eq_some_iff.1 there
    rw [setAt_of_part first, at?, part?_setPart first]
    exact ih there

theorem setAt_setAt (d e e' : Sketch S) (way : List Position) :
    (d.setAt way e).setAt way e' = d.setAt way e' := by
  induction way generalizing d with
  | nil => rfl
  | cons position rest ih =>
    cases first : d.part? position with
    | none => rw [setAt_of_no_part first, setAt_of_no_part first]
    | some next =>
      rw [setAt_of_part first, setAt_of_part (part?_setPart first _), setAt_of_part first,
        setPart_setPart, ih]

theorem setAt_at? {way : List Position} (there : d.at? way = some part) : d.setAt way part = d := by
  induction way generalizing d with
  | nil =>
    cases there
    rfl
  | cons position rest ih =>
    obtain ⟨next, first, there⟩ := Option.bind_eq_some_iff.1 there
    rw [setAt_of_part first, ih there, setPart_part? first]

theorem canon_setPart (d e : Sketch S) (position : Position) :
    (d.setPart position e).canon = d.canon.setPart position e.canon := by
  cases d <;> cases position
  case compound.component c parts index =>
    exact congrArg (compound c) (by rw [canonAll_eq_map, canonAll_eq_map, List.map_set])
  case list.item c items index =>
    exact congrArg (list c) (by rw [canonAll_eq_map, canonAll_eq_map, List.map_set])
  all_goals rfl

theorem canon_setAt (d e : Sketch S) (way : List Position) :
    (d.setAt way e).canon = d.canon.setAt way e.canon := by
  induction way generalizing d with
  | nil => rfl
  | cons position rest ih =>
    have canonical := part?_canon d position
    cases first : d.part? position with
    | none =>
      rw [first] at canonical
      rw [setAt_of_no_part first, setAt_of_no_part canonical]
    | some next =>
      rw [first] at canonical
      rw [setAt_of_part first, setAt_of_part canonical, canon_setPart, ih]

end Sketch

namespace Arena

variable {a b : Arena S} {id root x : Handle} {d s : Sketch S}

theorem forall₂_set {xs : List Handle} {ds : List (Sketch S)} {index : Nat}
    (seen : List.Forall₂ a.Shows xs ds) (there : xs[index]? = some x) (shown : b.Shows x s)
    (others : ∀ i y, i ≠ index → xs[i]? = some y → ∀ d, a.Shows y d → b.Shows y d) :
    List.Forall₂ b.Shows xs (ds.set index s) := by
  induction seen generalizing index with
  | nil => cases there
  | @cons y e ys es first rest ih =>
    cases index with
    | zero =>
      cases there
      refine .cons shown ?_
      refine Arena.forall₂_imp_mem rest fun z member d _ seen => ?_
      obtain ⟨i, held⟩ := List.mem_iff_getElem?.1 member
      exact others (i + 1) z (by omega) held d seen
    | succ index =>
      refine .cons (others 0 y (by omega) rfl e first) (ih there ?_)
      exact fun i z different held => others (i + 1) z (by omega) held

theorem Shows.setPart {state : EditorState S} {position : Position} {c : Handle}
    (seen : a.Shows x d) (found : a.state? x = some state) (kept : b.state? x = some state)
    (child : childAt? state position = some c) (shown : b.Shows c s)
    (distinct : state.children.Nodup)
    (others : ∀ y ∈ state.children, y ≠ c → ∀ d, a.Shows y d → b.Shows y d) :
    b.Shows x (d.setPart position s) := by
  have elsewhere : ∀ {ids : List Handle} {index : Nat}, state.children = ids →
      ids[index]? = some c → ∀ i y, i ≠ index → ids[i]? = some y →
      ∀ d, a.Shows y d → b.Shows y d := by
    rintro ids index rfl there i y different held
    refine others y (List.mem_of_getElem? held) ?_
    rintro rfl
    exact different ((List.getElem?_inj (List.getElem?_eq_some_iff.1 held).1 distinct).1
      (held.trans there.symm))
  cases d with
  | token k text item =>
    cases found.symm.trans seen
    cases child
  | text k shown item =>
    cases found.symm.trans seen
    cases child
  | expanded k content =>
    obtain ⟨y, held, _⟩ := shows_expanded.1 seen
    cases found.symm.trans held
    cases position with
    | content =>
      cases child
      exact shows_expanded.2 ⟨_, kept, shown⟩
    | component index => cases child
    | item index => cases child
  | compound k parts =>
    obtain ⟨ids, held, seen⟩ := shows_compound.1 seen
    cases found.symm.trans held
    cases position with
    | component index =>
      exact shows_compound.2 ⟨ids, kept, forall₂_set seen child shown (elsewhere rfl child)⟩
    | content => cases child
    | item index => cases child
  | list k items =>
    obtain ⟨ids, held, seen⟩ := shows_list.1 seen
    cases found.symm.trans held
    cases position with
    | item index =>
      exact shows_list.2 ⟨ids, kept, forall₂_set seen child shown (elsewhere rfl child)⟩
    | content => cases child
    | component index => cases child

theorem Changes.shows_setAt {way : List Position} (changes : a.Changes b id)
    (forest : a.links.Forest) (seen : a.Shows root d) (led : a.follow root way = .ok id)
    (shown : b.Shows id s) : b.Shows root (d.setAt way s) := by
  induction way generalizing root d with
  | nil =>
    cases led
    exact shown
  | cons position rest ih =>
    obtain ⟨editor, child, found, held, led⟩ := follow_cons led
    have placed := links_of_get? found
    have member := child_of_childAt? held
    have state := state?_of_get? found
    have below := within_of_follow forest led
    have above : ¬ a.links.Within id root := fun within =>
      forest.not_within_of_child placed member (below.trans within)
    have kept := state?_of_outline (changes.outside root _ (outline_of_get? found) above)
    obtain ⟨y, e, listed, part, shownThere⟩ | ⟨missing, _⟩ := seen.child state position
    · cases held.symm.trans listed
      simp only [Sketch.setAt, part]
      refine seen.setPart state kept held (ih shownThere led) (forest.distinct placed) ?_
      intro z sibling different d' seen'
      obtain ⟨other, siblingFound, _⟩ := live_child forest found sibling
      refine changes.shows seen' forest siblingFound ?_ ?_
      · exact fun within => forest.siblings_apart placed member sibling (Ne.symm different) below within
      · intro within
        exact forest.siblings_apart placed member sibling (Ne.symm different) (below.trans within) .here
    · rw [held] at missing
      cases missing

end Arena

/-- What each of some roots shows, in canonical form. -/
abbrev Page (S : Signature) := Handle → Option (Sketch S)

namespace Page

variable {P : Page S} {l : Locator} {d : Sketch S}

def at? (P : Page S) (l : Locator) : Option (Sketch S) := (P l.root).bind (·.at? l.path)

def set (P : Page S) (l : Locator) (d : Sketch S) : Page S :=
  fun x => if x = l.root then (P x).map (·.setAt l.path d) else P x

theorem at?_set (there : P.at? l = some d) (e : Sketch S) : (P.set l e).at? l = some e := by
  obtain ⟨whole, shown, there⟩ := Option.bind_eq_some_iff.1 there
  simp only [at?, set, if_true, shown, Option.map_some, Option.bind_some]
  exact Sketch.at?_setAt there e

theorem set_set (P : Page S) (l : Locator) (d e : Sketch S) : (P.set l d).set l e = P.set l e := by
  funext x
  by_cases here : x = l.root
  · simp only [set, here, if_true, Option.map_map]
    exact congrArg (Option.map · (P l.root)) (funext fun whole => Sketch.setAt_setAt whole d e l.path)
  · simp only [set, here, if_false]

theorem set_at? (there : P.at? l = some d) : P.set l d = P := by
  obtain ⟨whole, shown, there⟩ := Option.bind_eq_some_iff.1 there
  funext x
  by_cases here : x = l.root
  · simp only [set, here, if_true, shown, Option.map_some, Sketch.setAt_at? there]
  · simp only [set, here, if_false]

end Page

structure Arena.Depicts (a : Arena S) (roots : List Handle) (P : Page S) : Prop where
  shown : ∀ x ∈ roots, ∃ d, a.Shows x d ∧ P x = some d.canon
  blank : ∀ x, x ∉ roots → P x = none

namespace Arena

variable {a b : Arena S} {roots : List Handle} {P Q : Page S} {id x : Handle} {s : Sketch S}

theorem Depicts.unique (first : a.Depicts roots P) (second : a.Depicts roots Q) : P = Q := by
  funext x
  by_cases member : x ∈ roots
  · obtain ⟨d, seen, here⟩ := first.shown x member
    obtain ⟨d', seen', here'⟩ := second.shown x member
    rw [here, here', seen.unique seen']
  · rw [first.blank x member, second.blank x member]

theorem exists_depicts (forest : a.links.Forest)
    (live : ∀ x ∈ roots, ∃ editor, a.get? x = some editor) : ∃ P, a.Depicts roots P := by
  classical
  refine ⟨fun x => if listed : x ∈ roots ∧ ∃ d, a.Shows x d then some (listed.2.choose).canon else none,
    fun x member => ?_, fun x outside => dif_neg fun listed => outside listed.1⟩
  obtain ⟨editor, found⟩ := live x member
  have seen := exists_shows forest found
  exact ⟨seen.choose, seen.choose_spec, dif_pos ⟨member, seen⟩⟩

theorem Depicts.at? {way : List Position} (depicts : a.Depicts roots P) (member : x ∈ roots)
    (led : a.follow x way = .ok id) (seen : a.Shows id s) : P.at? ⟨x, way⟩ = some s.canon := by
  obtain ⟨d, shown, here⟩ := depicts.shown x member
  obtain ⟨e, there, seen'⟩ := at?_of_follow shown led
  obtain rfl := seen.unique seen'
  simp only [Page.at?, here, Option.bind_some, Sketch.at?_canon, there, Option.map_some]

theorem Depicts.find {l : Locator} {d : Sketch S} (depicts : a.Depicts roots P)
    (there : P.at? l = some d) :
    l.root ∈ roots ∧ ∃ id s, a.find l = .ok id ∧ a.Shows id s ∧ s.canon = d := by
  obtain ⟨whole, here, there⟩ := Option.bind_eq_some_iff.1 there
  have member : l.root ∈ roots := by
    by_contra outside
    rw [depicts.blank _ outside] at here
    cases here
  obtain ⟨e, seen, shown⟩ := depicts.shown l.root member
  cases here.symm.trans shown
  rw [Sketch.at?_canon] at there
  obtain ⟨s, down, rfl⟩ := Option.map_eq_some_iff.1 there
  obtain ⟨id, led, seen'⟩ := follow_of_at? seen down
  exact ⟨member, id, s, led, seen', rfl⟩

theorem Depicts.change {way : List Position} (depicts : a.Depicts roots P)
    (changes : a.Changes b id) (forest : a.links.Forest)
    (free : ∀ x ∈ roots, ∃ editor, a.get? x = some editor ∧ editor.parent = none)
    (member : x ∈ roots) (led : a.follow x way = .ok id) (seen : b.Shows id s) :
    b.Depicts roots (P.set ⟨x, way⟩ s.canon) := by
  refine ⟨fun y listed => ?_, fun y outside => ?_⟩
  · obtain ⟨d, shown, here⟩ := depicts.shown y listed
    by_cases same : y = x
    · subst same
      refine ⟨d.setAt way s, changes.shows_setAt forest shown led seen, ?_⟩
      simp only [Page.set, if_true, here, Option.map_some, Sketch.canon_setAt]
    · obtain ⟨root, found, isRoot⟩ := free y listed
      obtain ⟨top, topFound, isTop⟩ := free x member
      have below := within_of_follow forest led
      refine ⟨d, changes.shows shown forest found ?_ ?_, ?_⟩
      · intro within
        exact same (Links.root_unique (links_of_get? found) isRoot (links_of_get? topFound) isTop
          within below)
      · intro within
        exact same (Links.within_root_unique (links_of_get? found) isRoot (below.trans within))
      · simp only [Page.set, if_neg same, here]
  · have different : y ≠ x := by
      rintro rfl
      exact outside member
    simp only [Page.set, if_neg different, depicts.blank y outside]

end Arena

end StructureEditor
