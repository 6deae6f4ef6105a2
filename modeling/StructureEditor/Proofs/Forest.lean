import StructureEditor.Identity
import Mathlib.Data.List.Basic

/-! Forests of handles. Parents and children are two records of one relation; a forest is a
table of both in which they agree and every way upwards ends. -/
namespace StructureEditor

structure Place where
  parent : Option Handle
  children : List Handle

/-- The places of the live editors. -/
abbrev Links := Handle → Option Place

namespace Links

variable {l l' : Links} {x y p c top : Handle} {m n : Nat}

/-- `x` is `top` or stands somewhere below it. -/
inductive Within (l : Links) (top : Handle) : Handle → Prop where
  | here : Within l top top
  | step {x p : Handle} {place : Place} : l x = some place → place.parent = some p →
      Within l top p → Within l top x

/-- The number of steps from an editor up to its root. -/
inductive Depth (l : Links) : Handle → Nat → Prop where
  | root {x : Handle} {place : Place} : l x = some place → place.parent = none → Depth l x 0
  | step {x p : Handle} {n : Nat} {place : Place} : l x = some place →
      place.parent = some p → Depth l p n → Depth l x (n + 1)

structure Forest (l : Links) : Prop where
  linked : ∀ {x c place}, l x = some place → c ∈ place.children →
    ∃ child, l c = some child ∧ child.parent = some x
  listed : ∀ {x p place}, l x = some place → place.parent = some p →
    ∃ above, l p = some above ∧ x ∈ above.children
  distinct : ∀ {x place}, l x = some place → place.children.Nodup
  rooted : ∀ {x place}, l x = some place → ∃ n, Depth l x n

theorem Depth.unique (first : Depth l x m) (second : Depth l x n) : m = n := by
  induction first generalizing n with
  | root found isRoot =>
    cases second with
    | root => rfl
    | step found' hasParent =>
      rw [found] at found'
      cases found'
      rw [isRoot] at hasParent
      cases hasParent
  | step found hasParent _ ih =>
    cases second with
    | root found' isRoot =>
      rw [found] at found'
      cases found'
      rw [isRoot] at hasParent
      cases hasParent
    | step found' hasParent' above =>
      rw [found] at found'
      cases found'
      rw [hasParent] at hasParent'
      cases hasParent'
      rw [ih above]

theorem Depth.of_parent {place : Place} (depth : Depth l x n) (found : l x = some place)
    (hasParent : place.parent = some p) : ∃ k, n = k + 1 ∧ Depth l p k := by
  cases depth with
  | root found' isRoot =>
    rw [found] at found'
    cases found'
    rw [hasParent] at isRoot
    cases isRoot
  | step found' hasParent' above =>
    rw [found] at found'
    cases found'
    rw [hasParent] at hasParent'
    cases hasParent'
    exact ⟨_, rfl, above⟩

theorem Depth.live (depth : Depth l x n) : ∃ place, l x = some place := by
  cases depth with
  | root found _ => exact ⟨_, found⟩
  | step found _ _ => exact ⟨_, found⟩

theorem Within.trans (upper : Within l top y) (lower : Within l y x) : Within l top x := by
  induction lower with
  | here => exact upper
  | step found hasParent _ ih => exact .step found hasParent ih

theorem Within.parent {place : Place} (within : Within l top x) (other : x ≠ top)
    (found : l x = some place) : ∃ p, place.parent = some p ∧ Within l top p := by
  cases within with
  | here => exact absurd rfl other
  | step found' hasParent above =>
    rw [found] at found'
    cases found'
    exact ⟨_, hasParent, above⟩

theorem Within.to_parent {place : Place} (within : Within l top x) (other : x ≠ top)
    (found : l x = some place) (hasParent : place.parent = some p) : Within l top p := by
  obtain ⟨q, isParent, above⟩ := within.parent other found
  cases hasParent.symm.trans isParent
  exact above

theorem Within.live {place : Place} (within : Within l top x) (found : l top = some place) :
    ∃ place, l x = some place := by
  cases within with
  | here => exact ⟨place, found⟩
  | step found' _ _ => exact ⟨_, found'⟩

theorem not_within_vacant {place : Place} (found : l top = some place) (vacant : l x = none) :
    ¬ Within l top x := by
  intro within
  obtain ⟨_, isLive⟩ := within.live found
  rw [vacant] at isLive
  cases isLive

theorem Within.comparable (first : Within l y x) (second : Within l c x) :
    Within l y c ∨ Within l c y := by
  induction first with
  | here => exact Or.inr second
  | step found hasParent above ih =>
    cases second with
    | here => exact Or.inl (.step found hasParent above)
    | step found' hasParent' above' =>
      rw [found] at found'
      cases found'
      rw [hasParent] at hasParent'
      cases hasParent'
      exact ih above'

theorem Within.depth_le (within : Within l top x) (upper : Depth l top m)
    (lower : Depth l x n) : m ≤ n := by
  induction within generalizing n with
  | here => exact Nat.le_of_eq (upper.unique lower)
  | step found hasParent _ ih =>
    cases lower with
    | root found' isRoot =>
      rw [found] at found'
      cases found'
      rw [isRoot] at hasParent
      cases hasParent
    | step found' hasParent' above =>
      rw [found] at found'
      cases found'
      rw [hasParent] at hasParent'
      cases hasParent'
      exact Nat.le_succ_of_le (ih above)

theorem not_within_child {place : Place} (depth : Depth l c n) (found : l c = some place)
    (hasParent : place.parent = some p) : ¬ Within l c p := by
  intro within
  cases depth with
  | root found' isRoot =>
    rw [found] at found'
    cases found'
    rw [isRoot] at hasParent
    cases hasParent
  | step found' hasParent' above =>
    have same := found'
    rw [found] at same
    cases same
    rw [hasParent] at hasParent'
    cases hasParent'
    have deeper := within.depth_le (.step found hasParent above) above
    omega

theorem within_root_unique {place : Place} {r : Handle} (found : l r = some place)
    (isRoot : place.parent = none) (within : Within l top r) : r = top := by
  cases within with
  | here => rfl
  | step found' hasParent _ =>
    rw [found] at found'
    cases found'
    rw [isRoot] at hasParent
    cases hasParent

theorem root_unique {place place' : Place} {r r' : Handle} (found : l r = some place)
    (isRoot : place.parent = none) (found' : l r' = some place') (isRoot' : place'.parent = none)
    (within : Within l r x) (within' : Within l r' x) : r = r' := by
  rcases within.comparable within' with lower | lower
  · exact (within_root_unique found' isRoot' lower).symm
  · exact within_root_unique found isRoot lower

theorem not_within_below {place : Place} {r : Handle} (found : l r = some place)
    (isRoot : place.parent = none) (outside : ¬ Within l r x) (below : Within l x y) :
    ¬ Within l r y := by
  intro within
  rcases below.comparable within with lower | lower
  · obtain rfl := within_root_unique found isRoot lower
    exact outside .here
  · exact outside lower

namespace Forest

variable {place : Place}

theorem not_within_of_child (forest : Forest l) (found : l p = some place)
    (member : c ∈ place.children) : ¬ Within l c p := by
  obtain ⟨child, isLive, hasParent⟩ := forest.linked found member
  obtain ⟨n, depth⟩ := forest.rooted isLive
  exact not_within_child depth isLive hasParent

theorem within_of_child (forest : Forest l) (found : l p = some place)
    (member : c ∈ place.children) : Within l p c := by
  obtain ⟨child, isLive, hasParent⟩ := forest.linked found member
  exact .step isLive hasParent .here

theorem depth_of_child (forest : Forest l) (found : l p = some place)
    (member : c ∈ place.children) (depth : Depth l p n) : Depth l c (n + 1) := by
  obtain ⟨child, isLive, hasParent⟩ := forest.linked found member
  exact .step isLive hasParent depth

theorem siblings_apart {d : Handle} (forest : Forest l) (found : l p = some place)
    (first : c ∈ place.children) (second : d ∈ place.children) (different : c ≠ d)
    (within : Within l c x) : ¬ Within l d x := by
  intro within'
  obtain ⟨child, isLive, hasParent⟩ := forest.linked found first
  obtain ⟨child', isLive', hasParent'⟩ := forest.linked found second
  rcases within.comparable within' with lower | lower
  · exact forest.not_within_of_child found first
      (lower.to_parent (Ne.symm different) isLive' hasParent')
  · exact forest.not_within_of_child found second (lower.to_parent different isLive hasParent)

theorem within_iff (forest : Forest l) (found : l p = some place) :
    Within l p x ↔ x = p ∨ ∃ c ∈ place.children, Within l c x := by
  constructor
  · intro within
    induction within with
    | here => exact Or.inl rfl
    | @step x q inner isLive hasParent _ ih =>
      rcases ih with same | ⟨c, member, within⟩
      · obtain ⟨above, isAbove, member⟩ := forest.listed isLive hasParent
        rw [same, found] at isAbove
        cases isAbove
        exact Or.inr ⟨x, member, .here⟩
      · exact Or.inr ⟨c, member, .step isLive hasParent within⟩
  · rintro (rfl | ⟨c, member, within⟩)
    · exact .here
    · exact (forest.within_of_child found member).trans within

end Forest

/-! Parts of a table. A part that holds every parent of its members keeps its depths and its
subtrees when the rest of the table changes. -/

theorem Depth.transfer (part : Handle → Prop)
    (upwards : ∀ z p place, part z → l z = some place → place.parent = some p → part p)
    (same : ∀ z place, part z → l z = some place →
      ∃ place', l' z = some place' ∧ place'.parent = place.parent)
    (depth : Depth l x n) (member : part x) : Depth l' x n := by
  induction depth with
  | root found isRoot =>
    obtain ⟨place', found', parent⟩ := same _ _ member found
    exact .root found' (parent.trans isRoot)
  | step found hasParent _ ih =>
    obtain ⟨place', found', parent⟩ := same _ _ member found
    exact .step found' (parent.trans hasParent) (ih (upwards _ _ _ member found hasParent))

theorem Within.transfer (part : Handle → Prop)
    (upwards : ∀ z p place, part z → l z = some place → place.parent = some p → part p)
    (same : ∀ z place, part z → l z = some place →
      ∃ place', l' z = some place' ∧ place'.parent = place.parent)
    (within : Within l top x) (member : part x) : Within l' top x := by
  induction within with
  | here => exact .here
  | step found hasParent _ ih =>
    obtain ⟨place', found', parent⟩ := same _ _ member found
    exact .step found' (parent.trans hasParent) (ih (upwards _ _ _ member found hasParent))

theorem Within.of_parents (same : ∀ z place, l z = some place →
      ∃ place', l' z = some place' ∧ place'.parent = place.parent)
    (within : Within l top x) : Within l' top x :=
  within.transfer (fun _ => True) (fun _ _ _ _ _ _ => trivial) (fun z place _ => same z place) trivial

theorem not_within_parent {place : Place} (outside : ¬ Within l c x) (found : l x = some place)
    (hasParent : place.parent = some p) : ¬ Within l c p :=
  fun within => outside (.step found hasParent within)

/-- A new root adopts some of the roots. -/
structure Adoption (l l' : Links) (x : Handle) (kids : List Handle) : Prop where
  fresh : l x = none
  roots : ∀ k ∈ kids, ∃ place, l k = some place ∧ place.parent = none ∧
    l' k = some { place with parent := some x }
  new : l' x = some ⟨none, kids⟩
  others : ∀ y, y ≠ x → y ∉ kids → l' y = l y

namespace Adoption

variable {kids : List Handle} {y : Handle} {place place' : Place}

theorem old (adoption : Adoption l l' x kids) (found : l y = some place) (outside : y ∉ kids) :
    l' y = some place := by
  rw [adoption.others y _ outside, found]
  rintro rfl
  rw [adoption.fresh] at found
  cases found

theorem kept (adoption : Adoption l l' x kids) (found : l y = some place) :
    ∃ place', l' y = some place' ∧ place'.children = place.children := by
  by_cases member : y ∈ kids
  · obtain ⟨place', found', _, after⟩ := adoption.roots y member
    rw [found] at found'
    cases found'
    exact ⟨_, after, rfl⟩
  · exact ⟨place, adoption.old found member, rfl⟩

theorem attached (adoption : Adoption l l' x kids) (found : l y = some place)
    (hasParent : place.parent = some p) : y ∉ kids := by
  intro member
  obtain ⟨place', found', isRoot, _⟩ := adoption.roots y member
  rw [found] at found'
  cases found'
  rw [hasParent] at isRoot
  cases isRoot

theorem depth (adoption : Adoption l l' x kids) (depth : Depth l y n) : ∃ n, Depth l' y n := by
  induction depth with
  | @root y place found isRoot =>
    by_cases member : y ∈ kids
    · obtain ⟨_, _, _, after⟩ := adoption.roots y member
      exact ⟨1, .step after rfl (.root adoption.new rfl)⟩
    · exact ⟨0, .root (adoption.old found member) isRoot⟩
  | step found hasParent _ ih =>
    obtain ⟨n, depth⟩ := ih
    exact ⟨n + 1, .step (adoption.old found (adoption.attached found hasParent)) hasParent depth⟩

theorem origin (adoption : Adoption l l' x kids) (found' : l' y = some place') (notNew : y ≠ x) :
    ∃ place, l y = some place ∧ place'.children = place.children ∧
      (y ∈ kids ∧ place'.parent = some x ∨ place'.parent = place.parent ∧ y ∉ kids) := by
  by_cases member : y ∈ kids
  · obtain ⟨place, found, _, after⟩ := adoption.roots y member
    rw [found'] at after
    cases after
    exact ⟨place, found, rfl, Or.inl ⟨member, rfl⟩⟩
  · rw [adoption.others y notNew member] at found'
    exact ⟨place', found', rfl, Or.inr ⟨rfl, member⟩⟩

end Adoption

/-- A root becomes a child of an editor of another tree. -/
structure Hanging (l l' : Links) (p x : Handle) (above root : Place) (kids : List Handle) :
    Prop where
  isLive : l p = some above
  isRoot : l x = some root
  free : root.parent = none
  apart : ¬ Within l x p
  order : kids.Perm (x :: above.children)
  atParent : l' p = some { above with children := kids }
  atChild : l' x = some { root with parent := some p }
  others : ∀ y, y ≠ p → y ≠ x → l' y = l y

namespace Hanging

variable {kids : List Handle} {above root : Place} {y q : Handle} {place place' : Place}

theorem different (hanging : Hanging l l' p x above root kids) : x ≠ p := by
  rintro rfl
  exact hanging.apart .here

theorem attached (hanging : Hanging l l' p x above root kids) (found : l y = some place)
    (hasParent : place.parent = some q) : y ≠ x := by
  rintro rfl
  rw [hanging.isRoot] at found
  cases found
  rw [hanging.free] at hasParent
  cases hasParent

theorem unlisted (hanging : Hanging l l' p x above root kids) (forest : Forest l) :
    x ∉ above.children := by
  intro member
  obtain ⟨child, found, hasParent⟩ := forest.linked hanging.isLive member
  exact hanging.attached found hasParent rfl

theorem kept (hanging : Hanging l l' p x above root kids) (found : l y = some place) :
    ∃ place', l' y = some place' ∧ (y ≠ x → place'.parent = place.parent) ∧
      ∀ c ∈ place.children, c ∈ place'.children := by
  by_cases isParent : y = p
  · subst isParent
    rw [hanging.isLive] at found
    cases found
    exact ⟨_, hanging.atParent, fun _ => rfl,
      fun c member => hanging.order.mem_iff.2 (List.mem_cons_of_mem _ member)⟩
  · by_cases isChild : y = x
    · subst isChild
      rw [hanging.isRoot] at found
      cases found
      exact ⟨_, hanging.atChild, fun other => absurd rfl other, fun c member => member⟩
    · exact ⟨place, (hanging.others y isParent isChild).trans found, fun _ => rfl,
        fun c member => member⟩

theorem origin (hanging : Hanging l l' p x above root kids) (found' : l' y = some place') :
    ∃ place, l y = some place ∧ (y ≠ x → place'.parent = place.parent) ∧
      (y = x → place'.parent = some p) ∧
      ∀ c ∈ place'.children, c ∈ place.children ∨ y = p ∧ c = x := by
  by_cases isParent : y = p
  · subst isParent
    rw [hanging.atParent] at found'
    cases found'
    refine ⟨above, hanging.isLive, fun _ => rfl, fun same => absurd same.symm hanging.different,
      fun c member => ?_⟩
    rcases List.mem_cons.1 (hanging.order.mem_iff.1 member) with same | member
    · exact Or.inr ⟨rfl, same⟩
    · exact Or.inl member
  · by_cases isChild : y = x
    · subst isChild
      rw [hanging.atChild] at found'
      cases found'
      exact ⟨root, hanging.isRoot, fun other => absurd rfl other, fun _ => rfl,
        fun c member => Or.inl member⟩
    · rw [hanging.others y isParent isChild] at found'
      exact ⟨place', found', fun _ => rfl, fun same => absurd same isChild,
        fun c member => Or.inl member⟩

theorem outer (hanging : Hanging l l' p x above root kids) (depth : Depth l y n)
    (outside : ¬ Within l x y) : Depth l' y n := by
  refine depth.transfer (fun z => ¬ Within l x z) ?_ ?_ outside
  · exact fun z q place outside found hasParent => not_within_parent outside found hasParent
  · intro z place outside found
    obtain ⟨place', found', parent, _⟩ := hanging.kept found
    refine ⟨place', found', parent ?_⟩
    rintro rfl
    exact outside .here

theorem inner (hanging : Hanging l l' p x above root kids) (forest : Forest l)
    (within : Within l x y) : ∃ n, Depth l' y n := by
  induction within with
  | here =>
    obtain ⟨n, depth⟩ := forest.rooted hanging.isLive
    exact ⟨n + 1, .step hanging.atChild rfl (hanging.outer depth hanging.apart)⟩
  | @step y q place found hasParent _ ih =>
    obtain ⟨n, depth⟩ := ih
    obtain ⟨place', found', parent, _⟩ := hanging.kept found
    exact ⟨n + 1, .step found' ((parent (hanging.attached found hasParent)).trans hasParent) depth⟩

end Hanging

namespace Forest

variable {kids : List Handle} {above root : Place}

theorem adopt (forest : Forest l) (distinct : kids.Nodup) (adoption : Adoption l l' x kids) :
    Forest l' := by
  refine ⟨?_, ?_, ?_, ?_⟩
  · intro y c place' found' member
    by_cases isNew : y = x
    · subst isNew
      rw [adoption.new] at found'
      cases found'
      obtain ⟨_, _, _, after⟩ := adoption.roots c member
      exact ⟨_, after, rfl⟩
    · obtain ⟨place, found, children, _⟩ := adoption.origin found' isNew
      rw [children] at member
      obtain ⟨child, childFound, hasParent⟩ := forest.linked found member
      exact ⟨child, adoption.old childFound (adoption.attached childFound hasParent), hasParent⟩
  · intro y q place' found' hasParent
    by_cases isNew : y = x
    · subst isNew
      rw [adoption.new] at found'
      cases found'
      cases hasParent
    · obtain ⟨place, found, _, ⟨member, parent⟩ | ⟨parent, _⟩⟩ := adoption.origin found' isNew
      · rw [parent] at hasParent
        cases hasParent
        exact ⟨_, adoption.new, member⟩
      · rw [parent] at hasParent
        obtain ⟨upper, upperFound, member⟩ := forest.listed found hasParent
        obtain ⟨upper', upperFound', children⟩ := adoption.kept upperFound
        exact ⟨upper', upperFound', children ▸ member⟩
  · intro y place' found'
    by_cases isNew : y = x
    · subst isNew
      rw [adoption.new] at found'
      cases found'
      exact distinct
    · obtain ⟨place, found, children, _⟩ := adoption.origin found' isNew
      exact children ▸ forest.distinct found
  · intro y place' found'
    by_cases isNew : y = x
    · exact ⟨0, .root (isNew ▸ adoption.new) rfl⟩
    · obtain ⟨place, found, _⟩ := adoption.origin found' isNew
      obtain ⟨n, depth⟩ := forest.rooted found
      exact adoption.depth depth

theorem link (forest : Forest l) (hanging : Hanging l l' p x above root kids) : Forest l' := by
  refine ⟨?_, ?_, ?_, ?_⟩
  · intro y c place' found' member
    obtain ⟨place, found, _, _, children⟩ := hanging.origin found'
    rcases children c member with member | ⟨rfl, rfl⟩
    · obtain ⟨child, childFound, hasParent⟩ := forest.linked found member
      obtain ⟨child', childFound', parent, _⟩ := hanging.kept childFound
      exact ⟨child', childFound', (parent (hanging.attached childFound hasParent)).trans hasParent⟩
    · exact ⟨_, hanging.atChild, rfl⟩
  · intro y q place' found' hasParent
    obtain ⟨place, found, parent, atNew, _⟩ := hanging.origin found'
    by_cases isChild : y = x
    · rw [atNew isChild] at hasParent
      cases hasParent
      exact ⟨_, hanging.atParent, hanging.order.mem_iff.2 (by simp [isChild])⟩
    · rw [parent isChild] at hasParent
      obtain ⟨upper, upperFound, member⟩ := forest.listed found hasParent
      obtain ⟨upper', upperFound', _, children⟩ := hanging.kept upperFound
      exact ⟨upper', upperFound', children y member⟩
  · intro y place' found'
    by_cases isParent : y = p
    · subst isParent
      rw [hanging.atParent] at found'
      cases found'
      exact hanging.order.nodup_iff.2
        (List.nodup_cons.2 ⟨hanging.unlisted forest, forest.distinct hanging.isLive⟩)
    · by_cases isChild : y = x
      · subst isChild
        rw [hanging.atChild] at found'
        cases found'
        exact (forest.distinct hanging.isRoot : root.children.Nodup)
      · rw [hanging.others y isParent isChild] at found'
        exact forest.distinct found'
  · intro y place' found'
    obtain ⟨place, found, _⟩ := hanging.origin found'
    obtain ⟨n, depth⟩ := forest.rooted found
    by_cases within : Within l x y
    · exact hanging.inner forest within
    · exact ⟨n, hanging.outer depth within⟩

theorem cut (forest : Forest l)
    (gone : ∀ y, Within l c y → l' y = none)
    (kept : ∀ y place, l y = some place → ¬ Within l c y → ∃ place', l' y = some place' ∧
      place'.parent = place.parent ∧ place'.children.Nodup ∧
      ∀ z, z ∈ place'.children ↔ z ∈ place.children ∧ z ≠ c)
    (dead : ∀ y, l y = none → l' y = none) : Forest l' := by
  have origin : ∀ {y place'}, l' y = some place' → ∃ place, l y = some place ∧
      ¬ Within l c y ∧ place'.parent = place.parent ∧ place'.children.Nodup ∧
      ∀ z, z ∈ place'.children ↔ z ∈ place.children ∧ z ≠ c := by
    intro y place' found'
    have outside : ¬ Within l c y := by
      intro within
      rw [gone y within] at found'
      cases found'
    cases found : l y with
    | none =>
      rw [dead y found] at found'
      cases found'
    | some place =>
      obtain ⟨place'', found'', facts⟩ := kept y place found outside
      rw [found'] at found''
      cases found''
      exact ⟨place, rfl, outside, facts⟩
  refine ⟨?_, ?_, ?_, ?_⟩
  · intro y d place' found' member
    obtain ⟨place, found, outside, _, _, children⟩ := origin found'
    obtain ⟨member, other⟩ := (children d).1 member
    obtain ⟨child, childFound, hasParent⟩ := forest.linked found member
    have childOutside : ¬ Within l c d :=
      fun within => outside (within.to_parent other childFound hasParent)
    obtain ⟨child', childFound', parent, _⟩ := kept d child childFound childOutside
    exact ⟨child', childFound', parent.trans hasParent⟩
  · intro y q place' found' hasParent
    obtain ⟨place, found, outside, parent, _⟩ := origin found'
    rw [parent] at hasParent
    obtain ⟨upper, upperFound, member⟩ := forest.listed found hasParent
    obtain ⟨upper', upperFound', _, _, children⟩ := kept q upper upperFound
      (not_within_parent outside found hasParent)
    refine ⟨upper', upperFound', (children y).2 ⟨member, ?_⟩⟩
    rintro rfl
    exact outside .here
  · intro y place' found'
    obtain ⟨_, _, _, _, distinct, _⟩ := origin found'
    exact distinct
  · intro y place' found'
    obtain ⟨place, found, outside, _⟩ := origin found'
    obtain ⟨n, depth⟩ := forest.rooted found
    refine ⟨n, depth.transfer (fun z => ¬ Within l c z) ?_ ?_ outside⟩
    · exact fun z q place outside found hasParent => not_within_parent outside found hasParent
    · intro z place outside found
      obtain ⟨place', found', parent, _⟩ := kept z place found outside
      exact ⟨place', found', parent⟩

end Forest

end Links

end StructureEditor
