import StructureEditor.Proofs.Refusals
import StructureEditor.Proofs.RefusedReplays
import StructureEditor.Proofs.Sessions

/-! Compounds made of roots. The roots are taken into the context of the compound one after the
other, and a root from another context is replaced by a copy. Nothing of this is undone when a
later root is refused, and a root that is given twice is put into the compound twice. -/
namespace StructureEditor

variable {S : Signature} [Language S]

theorem exists_left_of_mem {α β : Type} {R : α → β → Prop} {xs : List α} {ys : List β} {y : β}
    (related : List.Forall₂ R xs ys) (member : y ∈ ys) : ∃ x ∈ xs, R x y := by
  induction related with
  | nil => cases member
  | @cons x z xs zs first _ ih =>
    rcases List.mem_cons.1 member with rfl | later
    · exact ⟨x, by simp, first⟩
    · obtain ⟨x', member', isRelated⟩ := ih later
      exact ⟨x', by simp [member'], isRelated⟩

namespace Workspace

variable {w w₁ w' : Workspace S} {id m x y : Handle} {ids moved : List Handle} {context : Context}
  {e editor : Editor S} {d : Sketch S}

theorem Copied.keeps (copied : Copied w w₁ id m context) (sound : w.arena.Sound)
    (found : w.arena.get? x = some e) (outside : ¬ w.arena.links.Within id x) :
    w₁.arena.get? x = some e := by
  obtain ⟨old, _, oldFound, oldRoot, _⟩ := copied.root
  exact Arena.get?_of_subtree sound copied.sound found fun y e below isLive =>
    copied.kept y e isLive
      (Links.not_within_below (Arena.links_of_get? oldFound) oldRoot outside below)

theorem Copied.only (copied : Copied w w₁ id m context) (sound : w.arena.Sound)
    (roots : ∀ x, w₁.arena.IsRoot x → x = m ∨ w.arena.IsRoot x ∧ x ≠ id)
    (isLive : w₁.arena.get? x = some e) :
    w₁.arena.links.Within m x ∨ w.arena.get? x = some e ∧ ¬ w.arena.links.Within id x := by
  suffices old : ∀ {z n}, w₁.arena.links.Depth z n → w₁.arena.links.Within m z ∨
      ∃ e, w.arena.get? z = some e ∧ ¬ w.arena.links.Within id z by
    obtain ⟨n, depth⟩ := copied.sound.forest.rooted (Arena.links_of_get? isLive)
    rcases old depth with below | ⟨e', was, outside⟩
    · exact .inl below
    · cases (copied.keeps sound was outside).symm.trans isLive
      exact .inr ⟨was, outside⟩
  intro z n depth
  -- from the root downwards
  induction depth with
  | @root z place placed free =>
    obtain ⟨e', isLive', rfl⟩ := Arena.get?_of_links placed
    rcases roots z (Arena.isRoot_of_get? isLive' free) with rfl | ⟨⟨e, was, wasFree⟩, other⟩
    · exact .inl .here
    · obtain ⟨e, found, rfl⟩ := Arena.get?_of_outline was
      exact .inr ⟨e, found, fun within => other
        (Links.within_root_unique (Arena.links_of_get? found) wasFree within)⟩
  | @step z p n place placed hasParent _ above =>
    rcases above with below | ⟨upper, was, outside⟩
    · exact .inl (.step placed hasParent below)
    · obtain ⟨siblings, listed, member⟩ := copied.sound.forest.listed placed hasParent
      cases (Arena.links_of_get? (copied.keeps sound was outside)).symm.trans listed
      obtain ⟨child, linked, isChild⟩ := sound.forest.linked (Arena.links_of_get? was) member
      obtain ⟨e, wasLive, rfl⟩ := Arena.get?_of_links linked
      refine .inr ⟨e, wasLive, fun within => ?_⟩
      obtain ⟨old, _, oldFound, oldRoot, _⟩ := copied.root
      by_cases here : z = id
      · subst here
        cases oldFound.symm.trans wasLive
        cases oldRoot.symm.trans isChild
      · exact outside (within.to_parent here linked isChild)

/-- What becomes of a root that is taken into a context. -/
inductive Takes (context : Context) (w : Workspace S) (id : Handle) :
    Handle → Workspace S → Prop where
  | stays : RootIn w.arena context id → Takes context w id id w
  | copied {m : Handle} {w₁ : Workspace S} {s : Snapshot} {d : Sketch S} :
      Copied w w₁ id m context →
      (∀ x, w₁.arena.IsRoot x → x = m ∨ w.arena.IsRoot x ∧ x ≠ id) →
      w.arena.snapshot id = .ok s → w₁.arena.Shows m d → d.Renders s →
      (∀ d, w.arena.Shows id d → d.Conforms → w.contexts.Supplies context d →
        w₁.arena.Shows m d) →
      Takes context w id m w₁

theorem relocate_takes (sound : w.arena.Sound)
    (found : w.arena.get? id = some editor) (free : editor.parent = none) :
    Action.Meets (relocate id context) w (fun m w₁ => Takes context w id m w₁)
      (OnRefusal fun w' => Untouched w w' ∧ w'.arena.Sound) := by
  cases ran : relocate id context w with
  | error stop w' =>
    have added := (relocateWith_meets restore_safe sound).stopped_of ran
    refine .of_error ran fun error refused => ⟨?_, added.sound⟩
    exact (relocate_careful sound id context).stopped_of ran error refused
  | ok m w₁ =>
    refine .of_ok ran ?_
    rcases (relocateWith_meets restore_safe sound).ok_of ran with ⟨rfl, rfl, e, isLive, here⟩ | copied
    · cases found.symm.trans isLive
      exact .stays ⟨editor, found, free, here⟩
    · obtain ⟨old, _, oldFound, _, elsewhere, _⟩ := copied.root
      cases found.symm.trans oldFound
      have thorough : ∀ s, w.arena.snapshot id = .ok s → Restorer.Thorough (S := S) restore s :=
        fun s _ => restore_thorough s
      obtain ⟨s, d, taken, seen, renders⟩ :=
        (relocateWith_renders restore_safe thorough sound found elsewhere).ok_of ran
      refine .copied copied ((relocateWith_roots restore_safe thorough sound).ok_of ran)
        taken seen renders fun d seen conforms supplied => ?_
      obtain ⟨m', w'', ran', seen'⟩ :=
        relocateWith_run restore_safe (restore_restores conforms) sound found free seen supplied
      cases ran.symm.trans ran'
      exact seen'

def Elsewhere (w : Workspace S) (context : Context) (id : Handle) : Prop :=
  ∃ editor, w.arena.get? id = some editor ∧ editor.parent = none ∧ editor.context ≠ context

/-- An editor that goes with one of the roots, as a copy takes the place of that root. -/
def Displaced (w : Workspace S) (context : Context) (ids : List Handle) (x : Handle) : Prop :=
  ∃ id ∈ ids, Elsewhere w context id ∧ w.arena.links.Within id x

def New (w : Workspace S) (context : Context) (ids : List Handle) (x : Handle) : Prop :=
  ∀ e, w.arena.get? x = some e → Displaced w context ids x

/-- What stands in a context for a root that was given: the root itself, if it is there already,
else a copy. The copy shows what the snapshot of the root says. It shows just the same if all
classes are the declared ones and registries know them. -/
inductive StandsFor (context : Context) (w : Workspace S) (ids : List Handle) (w' : Workspace S)
    (id : Handle) : Handle → Prop where
  | itself : RootIn w.arena context id → (∀ d, w.arena.Shows id d → w'.arena.Shows id d) →
      StandsFor context w ids w' id id
  | copy {m : Handle} {s : Snapshot} {d : Sketch S} : Elsewhere w context id →
      New w context ids m → w.arena.snapshot id = .ok s → w'.arena.Shows m d → d.Renders s →
      (∀ d, w.arena.Shows id d → d.Conforms → w.contexts.Supplies context d →
        w'.arena.Shows m d) →
      StandsFor context w ids w' id m

structure Gathered (context : Context) (w : Workspace S) (ids moved : List Handle)
    (w' : Workspace S) : Prop where
  sound : w'.arena.Sound
  contexts : w.contexts.Grown w'.contexts
  length : moved.length = ids.length
  placed : ∀ m ∈ moved, RootIn w'.arena context m
  kept : ∀ x e, w.arena.get? x = some e → ¬ Displaced w context ids x → w'.arena.get? x = some e
  only : ∀ x e, w'.arena.get? x = some e →
    (∃ m ∈ moved, New w context ids m ∧ w'.arena.links.Within m x) ∨
      w.arena.get? x = some e ∧ ¬ Displaced w context ids x
  idle : (∀ id ∈ ids, ¬ Elsewhere w context id) →
    moved = ids ∧ ∀ x, w'.arena.get? x = w.arena.get? x
  each : ids.Nodup → (∀ id ∈ ids, w.arena.IsRoot id) →
    moved.Nodup ∧ List.Forall₂ (StandsFor context w ids w') ids moved

omit [Language S] in
theorem not_elsewhere_of_rootIn (there : RootIn w.arena context id) : ¬ Elsewhere w context id := by
  rintro ⟨e, isLive, _, other⟩
  obtain ⟨e', isLive', _, here⟩ := there
  cases isLive.symm.trans isLive'
  exact other here

omit [Language S] in
theorem not_displaced_of_rootIn (ids : List Handle) (there : RootIn w.arena context x) :
    ¬ Displaced w context ids x := by
  rintro ⟨id, _, elsewhere, within⟩
  refine not_elsewhere_of_rootIn there ?_
  obtain ⟨e, isLive, free, _⟩ := there
  obtain rfl := Links.within_root_unique (Arena.links_of_get? isLive) free within
  exact elsewhere

omit [Language S] in
theorem Displaced.below (displaced : Displaced w context ids x)
    (within : w.arena.links.Within x y) : Displaced w context ids y := by
  obtain ⟨id, member, elsewhere, above⟩ := displaced
  exact ⟨id, member, elsewhere, above.trans within⟩

omit [Language S] in
theorem not_displaced_below (stays : ¬ Displaced w context ids x)
    (below : w.arena.links.Within x y) : ¬ Displaced w context ids y := by
  rintro ⟨id, member, elsewhere, within⟩
  have outside : ¬ w.arena.links.Within id x := fun above => stays ⟨id, member, elsewhere, above⟩
  obtain ⟨root, isLive, free, _⟩ := elsewhere
  exact Links.not_within_below (Arena.links_of_get? isLive) free outside below within

omit [Language S] in
theorem not_displaced_of_root (found : w.arena.get? x = some e) (free : e.parent = none)
    (other : x ∉ ids) : ¬ Displaced w context ids x := by
  rintro ⟨r, member, _, within⟩
  obtain rfl := Links.within_root_unique (Arena.links_of_get? found) free within
  exact other member

namespace Gathered

theorem keeps_outline (gathered : Gathered context w ids moved w')
    (stays : ¬ Displaced w context ids x) :
    ∀ y e, w.arena.links.Within x y → w.arena.outline y = some e → w'.arena.outline y = some e := by
  intro y e below isLive
  obtain ⟨editor, found, rfl⟩ := Arena.get?_of_outline isLive
  exact Arena.outline_of_get? (gathered.kept y editor found (not_displaced_below stays below))

theorem nil (untouched : Untouched w w') (sound : w'.arena.Sound) :
    Gathered context w [] [] w' where
  sound := sound
  contexts := untouched.contexts
  length := rfl
  placed := by simp
  kept x e found _ := (untouched.editors x).trans found
  only x e found := .inr ⟨(untouched.editors x).symm.trans found, by simp [Displaced]⟩
  idle _ := ⟨rfl, untouched.editors⟩
  each _ _ := ⟨.nil, .nil⟩

theorem shows (gathered : Gathered context w ids moved w') (sound : w.arena.Sound)
    (found : w.arena.get? x = some e) (stays : ¬ Displaced w context ids x)
    (seen : w.arena.Shows x d) : w'.arena.Shows x d :=
  Arena.shows_of_subtree sound.forest found (gathered.keeps_outline stays) seen

theorem single (takes : Takes context w id m w₁) (sound : w.arena.Sound) :
    Gathered context w [id] [m] w₁ := by
  cases takes with
  | stays there =>
    have noneGoes : ∀ x, ¬ Displaced w context [id] x := by
      simp [Displaced, not_elsewhere_of_rootIn there]
    constructor
    · exact sound
    · exact .refl _
    · rfl
    · simpa using there
    · exact fun _ _ found _ => found
    · exact fun x _ found => .inr ⟨found, noneGoes x⟩
    · exact fun _ => ⟨rfl, fun _ => rfl⟩
    · exact fun _ _ => ⟨List.nodup_singleton _, .cons (.itself there fun _ seen => seen) .nil⟩
  | copied copied roots taken seen renders same =>
    obtain ⟨old, new, oldFound, oldRoot, elsewhere, newFound, newRoot, newContext, _⟩ := copied.root
    have goes : ∀ x, Displaced w context [id] x ↔ w.arena.links.Within id x := by
      have isElsewhere : Elsewhere w context id := ⟨old, oldFound, oldRoot, elsewhere⟩
      simp [Displaced, isElsewhere]
    have isNew : New w context [id] m := by
      intro e found
      cases (Arena.outline_eq_none_iff.1 copied.fresh).symm.trans found
    constructor
    · exact copied.sound
    · exact copied.quiet.contexts
    · rfl
    · simpa using ⟨new, newFound, newRoot, newContext⟩
    · exact fun x e found outside => copied.keeps sound found (mt (goes x).2 outside)
    · intro x e isLive
      rcases copied.only sound roots isLive with below | ⟨was, outside⟩
      · exact .inl ⟨m, List.mem_singleton_self m, isNew, below⟩
      · exact .inr ⟨was, mt (goes x).1 outside⟩
    · intro none
      exact absurd ⟨old, oldFound, oldRoot, elsewhere⟩ (none id (List.mem_singleton_self id))
    · intro _ _
      exact ⟨List.nodup_singleton _,
        .cons (.copy ⟨old, oldFound, oldRoot, elsewhere⟩ isNew taken seen renders same) .nil⟩

section

variable {ids' moved' : List Handle} (first : Gathered context w ids moved w₁)
include first

theorem within_iff (sound : w.arena.Sound) (found : w.arena.get? x = some e)
    (stays : ¬ Displaced w context ids x) :
    w₁.arena.links.Within y x ↔ w.arena.links.Within y x := by
  have upwards : ∀ z p place, ¬ Displaced w context ids z → w.arena.links z = some place →
      place.parent = some p → ¬ Displaced w context ids p :=
    fun z p place stays placed hasParent above =>
      stays (above.below (.step placed hasParent .here))
  constructor
  · intro below
    refine Arena.within_of_kept sound.forest (fun z => ¬ Displaced w context ids z) ?_ ?_ below
      stays (Arena.outline_of_get? found)
    · exact fun z p e stays isLive => upwards z p e.place stays (Arena.links_of_outline isLive)
    · exact fun z e stays isLive => first.keeps_outline stays z e .here isLive
  · refine fun below => below.transfer (fun z => ¬ Displaced w context ids z) upwards ?_ stays
    intro z place stays placed
    obtain ⟨e, isLive, rfl⟩ := Arena.outline_of_links placed
    exact ⟨_, Arena.links_of_outline (first.keeps_outline stays z e .here isLive), rfl⟩

theorem displaced_iff (sound : w.arena.Sound) (found : w.arena.get? x = some e)
    (stays : ¬ Displaced w context ids x) :
    Displaced w₁ context ids' x ↔ Displaced w context ids' x := by
  constructor
  · rintro ⟨r, member, ⟨root, isLive, free, other⟩, within⟩
    rcases first.only r root isLive with ⟨m, isMoved, _, below⟩ | ⟨was, _⟩
    · obtain rfl := Links.within_root_unique (Arena.links_of_get? isLive) free below
      exact absurd ⟨root, isLive, free, other⟩ (not_elsewhere_of_rootIn (first.placed r isMoved))
    · exact ⟨r, member, ⟨root, was, free, other⟩, (first.within_iff sound found stays).1 within⟩
  · rintro ⟨r, member, ⟨root, was, free, other⟩, within⟩
    have remains : ¬ Displaced w context ids r := fun displaced => stays (displaced.below within)
    exact ⟨r, member, ⟨root, first.kept r root was remains, free, other⟩,
      (first.within_iff sound found stays).2 within⟩

theorem displaced_append (sound : w.arena.Sound) (found : w.arena.get? x = some e) :
    Displaced w context (ids ++ ids') x ↔
      Displaced w context ids x ∨ Displaced w₁ context ids' x ∧ ¬ Displaced w context ids x := by
  have both : Displaced w context (ids ++ ids') x ↔
      Displaced w context ids x ∨ Displaced w context ids' x := by
    simp only [Displaced, List.mem_append, or_and_right, exists_or]
  by_cases goes : Displaced w context ids x
  · simp [both, goes]
  · simp [both, goes, first.displaced_iff sound found goes]

theorem new_append (sound : w.arena.Sound) (new : New w₁ context ids' x) :
    New w context (ids ++ ids') x := by
  intro e found
  refine (first.displaced_append sound found).2 ?_
  by_cases goes : Displaced w context ids x
  · exact .inl goes
  · exact .inr ⟨new e (first.kept x e found goes), goes⟩

theorem stands_earlier (sound : w.arena.Sound) (found : w.arena.get? id = some e)
    (stays : ¬ Displaced w context ids id) (stands : StandsFor context w₁ ids' w' id m) :
    StandsFor context w (ids ++ ids') w' id m := by
  have keeps : ∀ d, w.arena.Shows id d → w₁.arena.Shows id d :=
    fun d seen => first.shows sound found stays seen
  have found₁ := first.kept id e found stays
  cases stands with
  | itself there same =>
    obtain ⟨e', isLive, free, own⟩ := there
    cases found₁.symm.trans isLive
    exact .itself ⟨e, found, free, own⟩ fun d seen => same d (keeps d seen)
  | @copy _ s d elsewhere new taken seen renders same =>
    obtain ⟨e', isLive, free, other⟩ := elsewhere
    cases found₁.symm.trans isLive
    obtain ⟨old, was⟩ := Arena.exists_shows sound.forest found
    have taken' : w.arena.snapshot id = .ok s := by
      rw [Arena.snapshot_of_shows sound.forest was,
        ← Arena.snapshot_of_shows first.sound.forest (keeps old was), taken]
    exact .copy ⟨e, found, free, other⟩ (first.new_append sound new) taken' seen renders
      fun d was conforms supplied => same d (keeps d was) conforms (supplied.grown first.contexts)

variable (second : Gathered context w₁ ids' moved' w')
include second

theorem stands_later (sound : w.arena.Sound) (there : RootIn w₁.arena context m)
    (stands : StandsFor context w ids w₁ id m) : StandsFor context w (ids ++ ids') w' id m := by
  have stays := not_displaced_of_rootIn ids' there
  obtain ⟨e, isLive, _⟩ := there
  cases stands with
  | itself there' same =>
    exact .itself there' fun d seen => second.shows first.sound isLive stays (same d seen)
  | copy elsewhere new taken seen renders same =>
    refine .copy elsewhere (fun e found => ?_) taken (second.shows first.sound isLive stays seen)
      renders fun d was conforms supplied =>
        second.shows first.sound isLive stays (same d was conforms supplied)
    exact (first.displaced_append sound found).2 (.inl (new e found))

theorem append_each (sound : w.arena.Sound) (distinct : (ids ++ ids').Nodup)
    (live : ∀ id ∈ ids ++ ids', w.arena.IsRoot id) :
    (moved ++ moved').Nodup ∧
      List.Forall₂ (StandsFor context w (ids ++ ids') w') (ids ++ ids') (moved ++ moved') := by
  obtain ⟨distinct, distinct', apart⟩ := List.nodup_append.1 distinct
  have remain : ∀ j ∈ ids', ∃ e, w.arena.get? j = some e ∧ e.parent = none ∧
      ¬ Displaced w context ids j := by
    intro j member
    obtain ⟨_, isLive, free⟩ := live j (List.mem_append_right _ member)
    obtain ⟨e, found, rfl⟩ := Arena.get?_of_outline isLive
    exact ⟨e, found, free, not_displaced_of_root found free fun earlier =>
      apart j earlier j member rfl⟩
  obtain ⟨movedDistinct, stand⟩ := first.each distinct fun j member =>
    live j (List.mem_append_left _ member)
  obtain ⟨movedDistinct', stand'⟩ := second.each distinct' fun j member => by
    obtain ⟨e, found, free, stays⟩ := remain j member
    exact Arena.isRoot_of_get? (first.kept j e found stays) free
  constructor
  · refine List.nodup_append.2 ⟨movedDistinct, movedDistinct', ?_⟩
    rintro m member m' member' rfl
    obtain ⟨i, isGiven, standsFirst⟩ := exists_left_of_mem stand member
    obtain ⟨j, isGiven', standsSecond⟩ := exists_left_of_mem stand' member'
    cases standsSecond with
    | itself there =>
      obtain ⟨e, found, _, stays⟩ := remain m isGiven'
      cases standsFirst with
      | itself => exact apart m isGiven m isGiven' rfl
      | copy elsewhere new => exact stays (new e found)
    | copy elsewhere new =>
      refine not_displaced_of_rootIn ids' (first.placed m member) ?_
      obtain ⟨e, isLive, _⟩ := first.placed m member
      exact new e isLive
  · refine List.rel_append (Arena.forall₂_imp_mem stand fun i _ m member stands => ?_)
      (Arena.forall₂_imp_mem stand' fun j member m _ stands => ?_)
    · exact first.stands_later second sound (first.placed m member) stands
    · obtain ⟨e, found, _, stays⟩ := remain j member
      exact first.stands_earlier sound found stays stands

theorem append (sound : w.arena.Sound) :
    Gathered context w (ids ++ ids') (moved ++ moved') w' := by
  have displaced : ∀ {x e}, w.arena.get? x = some e → (Displaced w context (ids ++ ids') x ↔
      Displaced w context ids x ∨ Displaced w₁ context ids' x ∧ ¬ Displaced w context ids x) :=
    fun found => first.displaced_append sound found
  have newer : ∀ {x}, New w context ids x → New w context (ids ++ ids') x :=
    fun new e found => (displaced found).2 (.inl (new e found))
  constructor
  · exact second.sound
  · exact first.contexts.trans second.contexts
  · simp [first.length, second.length]
  · intro m member
    rcases List.mem_append.1 member with earlier | later
    · have stays := not_displaced_of_rootIn ids' (first.placed m earlier)
      obtain ⟨e, isLive, free, own⟩ := first.placed m earlier
      exact ⟨e, second.kept m e isLive stays, free, own⟩
    · exact second.placed m later
  · intro x e found stays
    obtain ⟨outside, outside'⟩ := not_or.1 (mt (displaced found).2 stays)
    have was := first.kept x e found outside
    exact second.kept x e was fun goes => outside' ⟨goes, outside⟩
  · intro x e found
    rcases second.only x e found with ⟨m, member, new, below⟩ | ⟨was, stays⟩
    · exact .inl ⟨m, List.mem_append_right _ member, first.new_append sound new, below⟩
    · rcases first.only x e was with ⟨m, member, new, below⟩ | ⟨was', stays'⟩
      · exact .inl ⟨m, List.mem_append_left _ member, newer new,
          (second.within_iff first.sound was stays).2 below⟩
      · refine .inr ⟨was', fun goes => ?_⟩
        rcases (displaced was').1 goes with goes | ⟨goes, _⟩
        · exact stays' goes
        · exact stays goes
  · intro none
    obtain ⟨rfl, same⟩ := first.idle fun id member => none id (List.mem_append_left _ member)
    obtain ⟨rfl, same'⟩ := second.idle fun id member => by
      have before := none id (List.mem_append_right _ member)
      simpa only [Elsewhere, same] using before
    exact ⟨rfl, fun x => (same' x).trans (same x)⟩
  · exact first.append_each second sound

end

end Gathered

theorem gather_gathers (sound : w.arena.Sound) :
    Action.Meets (gather context ids) w (fun moved w' => Gathered context w ids moved w')
      (OnRefusal fun w' => ∃ taken moved, taken <+: ids ∧ Gathered context w taken moved w') := by
  induction ids generalizing w with
  | nil => exact .pure (.nil (.refl w) sound)
  | cons id rest ih =>
    have none : ∃ taken moved, taken <+: id :: rest ∧ Gathered context w taken moved w :=
      ⟨[], [], List.nil_prefix, .nil (.refl w) sound⟩
    refine .bind (.ask (fun editor answered => ?_) fun _ _ _ _ => none)
    have found := Arena.get_eq_ok_iff.1 answered
    cases attached : editor.parent with
    | some p => exact .refuse fun _ _ => none
    | none =>
      refine .bind ((relocate_takes sound found attached).mono ?_ ?_)
      · intro m w₁ takes
        have first := Gathered.single takes sound
        refine .bind ((ih first.sound).mono ?_ ?_)
        · exact fun moved w₂ second => .pure (first.append second sound)
        · intro stop w₂ others error refused
          obtain ⟨taken, moved, isPrefix, second⟩ := others error refused
          exact ⟨id :: taken, m :: moved, (List.prefix_cons_inj id).2 isPrefix,
            first.append second sound⟩
      · intro stop w₁ untouched error refused
        obtain ⟨untouched, sound₁⟩ := untouched error refused
        exact ⟨[], [], List.nil_prefix, .nil untouched sound₁⟩

theorem StandsFor.captured (stands : StandsFor context w ids w' id m) (sound : w.arena.Sound)
    (sound' : w'.arena.Sound) (seen : w.arena.Shows id d)
    (fits : RootIn w.arena context id ∨ d.Conforms ∧ w.contexts.Supplies context d) :
    w'.arena.snapshot m = w.arena.snapshot id := by
  have shown : w'.arena.Shows m d := by
    cases stands with
    | itself _ same => exact same d seen
    | copy elsewhere _ _ _ _ same =>
      rcases fits with there | ⟨conforms, supplied⟩
      · exact absurd elsewhere (not_elsewhere_of_rootIn there)
      · exact same d seen conforms supplied
  rw [Arena.snapshot_of_shows sound'.forest shown, Arena.snapshot_of_shows sound.forest seen]

structure Adopts (context : Context) (w : Workspace S) (k : S.CompoundClass) (ids : List Handle)
    (c : Handle) (moved : List Handle) (w' : Workspace S) : Prop where
  state : w'.arena.state? c = some (.compound k moved)
  distinct : moved.Nodup
  adopted : ∀ m ∈ moved, ∃ e, w'.arena.get? m = some e ∧ e.parent = some c
  unshared : ∀ m ∈ moved, ∀ p above, w'.arena.get? p = some above → m ∈ above.state.children →
    p = c
  stand : List.Forall₂ (StandsFor context w ids w') ids moved
  captured : List.Forall₂ (fun id m => ∀ d, w.arena.Shows id d →
    RootIn w.arena context id ∨ d.Conforms ∧ w.contexts.Supplies context d →
      w'.arena.snapshot m = w.arena.snapshot id) ids moved

theorem Gathered.insert (gathered : Gathered context w ids moved w₁) (sound : w.arena.Sound)
    (k : S.CompoundClass) (distinct : ids.Nodup) (live : ∀ id ∈ ids, w.arena.IsRoot id) :
    Adopts context w k ids (w₁.arena.insert context (.compound k moved)).1 moved
      (w₁.withArena (w₁.arena.insert context (.compound k moved)).2) := by
  obtain ⟨movedDistinct, stand⟩ := gathered.each distinct live
  have kids : ∀ m ∈ moved, ∃ child, w₁.arena.get? m = some child ∧ child.parent = none ∧
      ((EditorState.compound k moved).sharesContext = true → child.context = context) := by
    intro m member
    obtain ⟨e, isLive, free, own⟩ := gathered.placed m member
    exact ⟨e, isLive, free, fun _ => own⟩
  obtain ⟨sound', _, ⟨r, new⟩, adopted, _⟩ :=
    Arena.insert_spec context (.compound k moved) gathered.sound kids movedDistinct
  have shows : ∀ {m d}, w₁.arena.Shows m d →
      (w₁.arena.insert context (.compound k moved)).2.Shows m d :=
    fun seen => seen.insert gathered.sound kids movedDistinct
  have stand' : List.Forall₂ (StandsFor context w ids
      (w₁.withArena (w₁.arena.insert context (.compound k moved)).2)) ids moved := by
    refine stand.imp fun id m stands => ?_
    cases stands with
    | itself there same => exact .itself there fun d seen => shows (same d seen)
    | copy elsewhere new taken seen renders same =>
      exact .copy elsewhere new taken (shows seen) renders fun d was conforms supplied =>
        shows (same d was conforms supplied)
  constructor
  · exact Arena.state?_of_get? new
  · exact movedDistinct
  · intro m member
    obtain ⟨child, isLive, _⟩ := kids m member
    exact ⟨_, adopted m member child isLive, rfl⟩
  · intro m member p above isAbove listed
    obtain ⟨child, isLive, _⟩ := kids m member
    obtain ⟨place, placed, hasParent⟩ := sound'.forest.linked (Arena.links_of_get? isAbove) listed
    cases (Arena.links_of_get? (adopted m member child isLive)).symm.trans placed
    exact (Option.some.inj hasParent).symm
  · exact stand'
  · exact stand'.imp fun _ _ stands _ seen fits => stands.captured sound sound' seen fits

theorem assemble_meets (sound : w.arena.Sound)
    (k : S.CompoundClass) (ids : List Handle) (context : Context) :
    Action.Meets (assemble k ids context) w
      (fun c w' => ids.Nodup → (∀ id ∈ ids, w.arena.IsRoot id) →
        ∃ moved, Adopts context w k ids c moved w')
      (OnRefusal fun w' => ∃ taken moved, taken <+: ids ∧ Gathered context w taken moved w') := by
  by_cases count : ids.length = (Language.compound k).components.length
  · simp only [assemble, count, ne_eq, not_true_eq_false, if_false]
    have begun : Unfolds false w w := .start sound
    refine .bind (((gather_gathers sound).and (gather_meets begun)).mono ?_
      fun _ _ stopped => stopped.1)
    rintro moved w₁ ⟨gathered, unfolds, roots, _⟩
    have live : ∀ m ∈ moved, ∃ editor, w₁.arena.get? m = some editor :=
      fun m member => (roots m member).imp fun _ root => root.1
    exact .of_ok (enter_run unfolds.sound.exact live) fun distinct live =>
      ⟨moved, gathered.insert sound k distinct live⟩
  · simp only [assemble, count, ne_eq, not_false_eq_true, if_true]
    exact .refuse fun _ _ => ⟨[], [], List.nil_prefix, .nil (.refl w) sound⟩

/-- A compound adopts distinct roots in their order, or copies of those that come from another
context. If it is refused, some of the roots may have been taken already: those from another
context are gone then, their copies stand in the context as roots, and all else is as before. Hence
nothing has changed if there are no roots from another context. -/
theorem assembly_accounts_for_roots (reached : Reaches {} w)
    (k : S.CompoundClass) (ids : List Handle) (context : Context) :
    (∀ error w', assemble k ids context w = .error (.refused error) w' →
      ∃ taken moved, taken <+: ids ∧ Gathered context w taken moved w') ∧
    ∀ c w', assemble k ids context w = .ok c w' → ids.Nodup → (∀ id ∈ ids, w.arena.IsRoot id) →
      ∃ moved, Adopts context w k ids c moved w' := by
  have meets := assemble_meets (sound_of_reached reached) k ids context
  exact ⟨fun error w' ran => meets.stopped_of ran error rfl, fun c w' ran => meets.ok_of ran⟩

section

open Sample

/-- Two expressions in two contexts, the first of which has no services. -/
def twoExpressions : Workspace expression :=
  performAll [.create (.expander ExpanderName.expr) ⟨1, []⟩,
    .create (.expander ExpanderName.expr) ⟨0, []⟩] { desk with contexts := desk.contexts.root.2 }

theorem reaches_twoExpressions : Reaches {} twoExpressions :=
  reaches_performAll _ (.beside (.refl _) rfl) (by simp [Allowed])

def brokenDivision : Editing expression Handle := assemble CompoundName.div [⟨0, 0⟩, ⟨9, 9⟩] ⟨0, []⟩

def wholeSum : Editing expression Handle := assemble CompoundName.sum [⟨0, 0⟩, ⟨1, 0⟩] ⟨0, []⟩

theorem twoExpressions_accounted_for :
    (∃ taken moved, taken <+: [⟨0, 0⟩, ⟨9, 9⟩] ∧
      Gathered ⟨0, []⟩ twoExpressions taken moved (brokenDivision.after twoExpressions)) ∧
    ∃ moved, Adopts ⟨0, []⟩ twoExpressions CompoundName.sum [⟨0, 0⟩, ⟨1, 0⟩] ⟨0, 1⟩ moved
      (wholeSum.after twoExpressions) := by
  have refused : brokenDivision twoExpressions =
      .error (.refused (.stale ⟨9, 9⟩)) (brokenDivision.after twoExpressions) :=
    Action.run_of_refusal? (by decide +kernel)
  have made : wholeSum twoExpressions = .ok ⟨0, 1⟩ (wholeSum.after twoExpressions) :=
    Action.run_of_value? (by decide +kernel)
  constructor
  · exact (assembly_accounts_for_roots reaches_twoExpressions
      CompoundName.div _ _).1 _ _ refused
  · refine (assembly_accounts_for_roots reaches_twoExpressions
      CompoundName.sum _ _).2 _ _ made (by decide) ?_
    simp only [List.forall_mem_cons]
    exact ⟨⟨_, rfl, rfl⟩, ⟨_, rfl, rfl⟩, by simp⟩

/-- The division is refused, but the first expression is gone and a copy stands elsewhere. A sum of
one expression with itself has it twice. -/
theorem assembly_loses_and_shares :
    (∃ w', brokenDivision twoExpressions = .error (.refused (.stale ⟨9, 9⟩)) w' ∧
      twoExpressions.arena.contains ⟨0, 0⟩ = true ∧ w'.arena.contains ⟨0, 0⟩ = false ∧
      twoExpressions.arena.contains ⟨2, 0⟩ = false ∧ w'.arena.contains ⟨2, 0⟩ = true) ∧
    ∃ w', assemble CompoundName.sum [⟨1, 0⟩, ⟨1, 0⟩] ⟨0, []⟩ twoExpressions = .ok ⟨2, 0⟩ w' ∧
      w'.arena.state? ⟨2, 0⟩ = some (.compound CompoundName.sum [⟨1, 0⟩, ⟨1, 0⟩]) :=
  ⟨⟨_, Action.run_of_refusal? (by decide +kernel), by decide +kernel, by decide +kernel,
    by decide +kernel, by decide +kernel⟩, _, Action.run_of_value? (by decide +kernel), rfl⟩

end

end Workspace

end StructureEditor
