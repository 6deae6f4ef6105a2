import StructureEditor.Proofs.Registrations

/-! Rule books that extend each other. What extends a base is asked first and the base second, and
the keys of both are keys of the whole. Only the top of the extending book takes part in this: what
that book fell back on before is replaced by the base. -/
namespace StructureEditor

variable {S : Signature}

namespace Build

theorem bind_done {α : Type} (b : Build S α) : b.bind .done = b := by
  induction b with
  | done value => rfl
  | fail => rfl
  | create c next ih => simp only [Build.bind, ih]
  | createToken c text next ih => simp only [Build.bind, ih]
  | typeToken id text next ih => simp only [Build.bind, ih]

theorem firstMade_singleton (b : Build S (Option Handle)) : firstMade [b] = b := by
  rw [firstMade_cons]
  conv_rhs => rw [← bind_done b]
  congr 1
  funext answer
  cases answer <;> rfl

theorem firstMade_groups (first rest : List (Build S (Option Handle))) :
    firstMade (first ++ rest) = firstMade [firstMade first, firstMade rest] := by
  simpa using (firstMade_flatMap id [first, rest]).symm

end Build

namespace RuleBook

def alone (book : RuleBook S) : RuleBook S := { book with fallback := [] }

theorem alone_of_fallback {book : RuleBook S} (none : book.fallback = []) : book.alone = book := by
  rw [alone, ← none]

theorem layers_extendedBy (base book : RuleBook S) :
    (base.extendedBy book).layers = book.alone.layers ++ base.layers := rfl

theorem forText_extendedBy (base book : RuleBook S) (text : String) :
    (base.extendedBy book).forText text =
      Build.firstMade [book.alone.forText text, base.forText text] := by
  rw [forText, layers_extendedBy, List.map_append, Build.firstMade_groups]
  rfl

theorem forCandidate_extendedBy (base book : RuleBook S) (item : Candidate) :
    (base.extendedBy book).forCandidate item =
      Build.firstMade [book.alone.forCandidate item, base.forCandidate item] := by
  rw [forCandidate, layers_extendedBy, List.map_append, Build.firstMade_groups]
  rfl

theorem mem_keys {book : RuleBook S} {key : String} :
    key ∈ book.keys ↔ ∃ layer ∈ book.layers, key ∈ layer.constants.keys := by
  rw [keys, Keyed.mem_keys_ofList, List.map_flatMap, List.mem_flatMap]
  simp only [List.map_map]
  rfl

theorem mem_keys_extendedBy (base book : RuleBook S) (key : String) :
    key ∈ (base.extendedBy book).keys ↔ key ∈ book.alone.keys ∨ key ∈ base.keys := by
  simp only [mem_keys, layers_extendedBy, List.mem_append, or_and_right, exists_or]

end RuleBook

namespace Workspace

variable [Language S]

/-- Both actions in one: the second is asked, in the state that the first one leaves, where the
first one declines. Otherwise the first one has the last word, also if it fails. -/
structure FallsBack (first second both : Editing S (Option (Option Handle))) : Prop where
  answered : ∀ w, (∀ w', first w ≠ .ok (some none) w') → both w = first w
  declined : ∀ w w', first w = .ok (some none) w' → both w = second w'

theorem fallsBack_build (context : Context) (b b' : Build S (Option Handle)) :
    FallsBack (build context b) (build context b') (build context (Build.firstMade [b, b'])) where
  answered _ made := build_firstMade_of_made made
  declined _ _ declined := by
    rw [build_firstMade_of_declined declined, Build.firstMade_singleton]

/-- A book that answers like one book where that one does, and like another one elsewhere, and has
the keys of both. -/
structure Joins (first second both : RuleBook S) : Prop where
  texts : ∀ text context, FallsBack (build context (first.forText text))
    (build context (second.forText text)) (build context (both.forText text))
  candidates : ∀ item context, FallsBack (build context (first.forCandidate item))
    (build context (second.forCandidate item)) (build context (both.forCandidate item))
  keys : ∀ key, key ∈ both.keys ↔ key ∈ first.keys ∨ key ∈ second.keys

theorem joins_alone (base book : RuleBook S) : Joins book.alone base (base.extendedBy book) where
  texts text context := by
    rw [RuleBook.forText_extendedBy]
    exact fallsBack_build context _ _
  candidates item context := by
    rw [RuleBook.forCandidate_extendedBy]
    exact fallsBack_build context _ _
  keys := RuleBook.mem_keys_extendedBy base book

/-- Extending a base by a book joins the two, whatever the base falls back on, as long as the book
falls back on nothing. Of any other book it joins the top with the base. -/
theorem extension_joins (base book : RuleBook S) :
    Joins book.alone base (base.extendedBy book) ∧
      (book.fallback = [] → Joins book base (base.extendedBy book)) := by
  refine ⟨joins_alone base book, fun none => ?_⟩
  have whole := joins_alone base book
  rwa [RuleBook.alone_of_fallback none] at whole

end Workspace

namespace Sample

open Workspace

def baseWords : RuleBook expression :=
  RuleBook.onKey "b" (.token TokenName.word "base") (.onKey "a" (.token TokenName.word "base") {})

def pluginWords : RuleBook expression := .onKey "a" (.token TokenName.word "plugin") {}

theorem pluginWords_join : pluginWords.fallback = [] ∧
    Joins pluginWords baseWords (baseWords.extendedBy pluginWords) :=
  ⟨rfl, (extension_joins baseWords pluginWords).2 rfl⟩

example : (baseWords.extendedBy pluginWords).keys = ["a", "b"] := by decide

/-- A plugin that has its word from the book that it falls back on loses it. -/
theorem inheritedWord_is_lost :
    "a" ∈ (RuleBook.extend pluginWords).keys ∧
      "a" ∉ (RuleBook.extendedBy {} (RuleBook.extend pluginWords)).keys ∧
      (∃ w, build ⟨0, []⟩ ((RuleBook.extend pluginWords).forText "a") {} =
        .ok (some (some ⟨0, 0⟩)) w) ∧
      build ⟨0, []⟩ ((RuleBook.extendedBy {} (RuleBook.extend pluginWords)).forText "a") {} =
        .ok (some none) {} ∧
      ¬ Joins (RuleBook.extend pluginWords) {}
        (RuleBook.extendedBy {} (RuleBook.extend pluginWords)) := by
  have isKey : "a" ∈ (RuleBook.extend pluginWords).keys := by decide
  have lost : "a" ∉ (RuleBook.extendedBy {} (RuleBook.extend pluginWords)).keys := by decide
  exact ⟨isKey, lost, ⟨_, rfl⟩, rfl, fun joins => lost ((joins.keys "a").2 (.inl isKey))⟩

end Sample

end StructureEditor
