import StructureEditor.Proofs.Reachability
import StructureEditor.Proofs.Roots

/-! Names of editors. Where no editor is below itself and no compound has a component twice, the
name of an editor and its handle determine each other, so that two text edits merge exactly if they
are edits of one editor. -/
namespace StructureEditor

variable {S : Signature} {a : Arena S} {x y r : Handle} {l : Locator} {way : List Position}

namespace Arena

theorem isRoot_of_links {place : Place} (found : a.links x = some place)
    (free : place.parent = none) : a.IsRoot x := by
  obtain ⟨editor, isLive, rfl⟩ := outline_of_links found
  exact ⟨editor, isLive, free⟩

theorem find_of_name (forest : a.links.Forest) (isLive : a.contains x = true) :
    ∃ l, a.locate x = .ok l ∧ a.IsRoot l.root ∧ a.find l = .ok x := by
  obtain ⟨editor, found⟩ := Option.isSome_iff_exists.1 isLive
  obtain ⟨root, way, place, located, led, placed, free⟩ := locate_spec forest found
  exact ⟨⟨root, way⟩, located, isRoot_of_links placed free, led⟩

theorem name_of_find (forest : a.links.Forest) (isRoot : a.IsRoot r)
    (led : a.find ⟨r, way⟩ = .ok x) : a.locate x = .ok ⟨r, way⟩ := by
  obtain ⟨editor, isLive, free⟩ := isRoot
  exact locate_of_follow forest (links_of_outline isLive) free led

theorem eq_of_name (forest : a.links.Forest) (xLive : a.contains x = true)
    (yLive : a.contains y = true) (xNamed : a.locate x = .ok l) (yNamed : a.locate y = .ok l) :
    x = y := by
  obtain ⟨m, named, _, led⟩ := find_of_name forest xLive
  obtain ⟨m', named', _, led'⟩ := find_of_name forest yLive
  cases xNamed.symm.trans named
  cases yNamed.symm.trans named'
  exact Except.ok.inj (led.symm.trans led')

end Arena

theorem Edit.merge?_text_isSome (l m : Locator) (old new old' new' : String)
    (oldItem newItem oldItem' newItem' : Option Candidate) :
    ((Edit.text l old new oldItem newItem).merge? (.text m old' new' oldItem' newItem')).isSome ↔
      l = m := by
  by_cases same : l = m <;> simp [merge?, same]

namespace Workspace

variable [Language S] {w : Workspace S}

/-- In every reachable state names and handles are inverse to each other: a live editor is found by
its name, and what is found from a root by some way has that way for its name. Hence two text edits,
each recorded under the name of its editor, merge exactly if both are edits of one editor. -/
theorem names_and_handles_agree (reached : Reaches {} w) :
    (∀ x, w.arena.contains x = true →
      ∃ l, w.arena.locate x = .ok l ∧ w.arena.IsRoot l.root ∧ w.arena.find l = .ok x) ∧
    (∀ r way x, w.arena.IsRoot r → w.arena.find ⟨r, way⟩ = .ok x →
      w.arena.locate x = .ok ⟨r, way⟩) ∧
    (∀ x y l, w.arena.contains x = true → w.arena.contains y = true → w.arena.locate x = .ok l →
      w.arena.locate y = .ok l → x = y) ∧
    ∀ x y l m, w.arena.contains x = true → w.arena.contains y = true → w.arena.locate x = .ok l →
      w.arena.locate y = .ok m → ∀ old new old' new' oldItem newItem oldItem' newItem',
        ((Edit.text l old new oldItem newItem).merge?
          (.text m old' new' oldItem' newItem')).isSome ↔ x = y := by
  have forest := (sound_of_reached reached).forest
  refine ⟨fun x isLive => Arena.find_of_name forest isLive,
    fun r way x isRoot led => Arena.name_of_find forest isRoot led,
    fun x y l xLive yLive => Arena.eq_of_name forest xLive yLive, ?_⟩
  intro x y l m xLive yLive xNamed yNamed old new old' new' oldItem newItem oldItem' newItem'
  rw [Edit.merge?_text_isSome]
  constructor
  · rintro rfl
    exact Arena.eq_of_name forest xLive yLive xNamed yNamed
  · rintro rfl
    exact Except.ok.inj (xNamed.symm.trans yNamed)

section

open Sample

theorem wordsAgain_names :
    wordsAgain.arena.find ⟨⟨0, 0⟩, [.item 1]⟩ = .ok ⟨2, 0⟩ ∧
      wordsAgain.arena.locate ⟨2, 0⟩ = .ok ⟨⟨0, 0⟩, [.item 1]⟩ ∧
      ∃ l, wordsAgain.arena.locate ⟨1, 1⟩ = .ok l ∧ wordsAgain.arena.IsRoot l.root ∧
        wordsAgain.arena.find l = .ok ⟨1, 1⟩ := by
  have agree := names_and_handles_agree reaches_wordsAgain
  have led : wordsAgain.arena.find ⟨⟨0, 0⟩, [.item 1]⟩ = .ok ⟨2, 0⟩ := by decide +kernel
  exact ⟨led, agree.2.1 _ _ _ ⟨_, rfl, rfl⟩ led, agree.1 _ (by decide +kernel)⟩

def doubledSum : Workspace expression :=
  performAll [.create (.expander ExpanderName.expr) ⟨0, []⟩,
    .assemble CompoundName.sum [⟨0, 0⟩, ⟨0, 0⟩] ⟨0, []⟩] desk

/-- The second component of such a sum is found by its way, but its name is another. -/
theorem doubledSum_misnames :
    doubledSum.arena.contains ⟨0, 0⟩ = true ∧ doubledSum.arena.IsRoot ⟨1, 0⟩ ∧
      doubledSum.arena.find ⟨⟨1, 0⟩, [.component 1]⟩ = .ok ⟨0, 0⟩ ∧
      doubledSum.arena.locate ⟨0, 0⟩ = .ok ⟨⟨1, 0⟩, [.component 0]⟩ :=
  ⟨by decide +kernel, ⟨_, rfl, rfl⟩, by decide +kernel, by decide +kernel⟩

end

end Workspace

end StructureEditor
