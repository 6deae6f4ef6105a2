import StructureEditor.Proofs.Hooks
import StructureEditor.Proofs.Restaging

/-! Hooks side by side. What a hook that does not look at handles makes for twins is twins, made
at the same time; with it the twins can be filled. -/
namespace StructureEditor.Workspace

variable {S : Signature} [Language S] {v w v' w' v₀ w₀ : Workspace S} {x y m n : Handle}
  {own other : Context} {pairs : Build.Pairs}

/-- Editors were added at most, whatever was recorded of them. -/
structure Enlarged (w w' : Workspace S) : Prop where
  sound : w'.arena.Sound
  grows : w.arena.Grows w'.arena
  contexts : w.contexts.Grown w'.contexts
  groups : SameGroups w w'

theorem Added.enlarged (added : Added w w') : Enlarged w w' :=
  ⟨added.sound, added.grows, added.quiet.contexts, .of_eq added.quiet.histories⟩

theorem Enlarged.refl (sound : w.arena.Sound) : Enlarged w w := (Added.refl sound).enlarged

theorem Enlarged.trans {w'' : Workspace S} (first : Enlarged w w') (second : Enlarged w' w'') :
    Enlarged w w'' :=
  ⟨second.sound, first.grows.trans second.grows, first.contexts.trans second.contexts,
    first.groups.trans second.groups⟩

theorem Enlarged.touched (enlarged : Enlarged w w') (x : Handle) : Touched w w' x :=
  ⟨enlarged.sound, enlarged.grows.changes x, enlarged.contexts, enlarged.groups⟩

theorem Twins.enlarged (twins : Twins v w x y) (sound : v.arena.Sound) (sound' : w.arena.Sound)
    (left : Enlarged v v') (right : Enlarged w w') : Twins v' w' x y :=
  twins.added sound sound' ⟨left.contexts, left.grows⟩ ⟨right.contexts, right.grows⟩

/-- Only what is beside the arena and the contexts changed, and no group was opened or closed. -/
structure Noted (w w' : Workspace S) : Prop where
  arena : w'.arena = w.arena
  contexts : w'.contexts = w.contexts
  groups : SameGroups w w'

theorem Enlarged.between {start : Workspace S} (enlarged : Enlarged start w) (begun : Noted v start)
    (ended : Noted w w') : Enlarged v w' := by
  refine ⟨ended.arena ▸ enlarged.sound, ?_, ?_, begun.groups.trans (enlarged.groups.trans ended.groups)⟩
  · rw [ended.arena, ← begun.arena]
    exact enlarged.grows
  · rw [ended.contexts, ← begun.contexts]
    exact enlarged.contexts

theorem Touched.noted (touched : Touched w v x) (noted : Noted v v') : Touched w v' x :=
  ⟨noted.arena ▸ touched.sound, noted.arena ▸ touched.changes,
    noted.contexts ▸ touched.contexts, touched.groups.trans noted.groups⟩

omit [Language S] in
theorem Twins.noted (twins : Twins v w x y) (left : Noted v v') (right : Noted w w') :
    Twins v' w' x y :=
  twins.beside left.arena left.contexts right.arena right.contexts

omit [Language S] in
theorem unrecorded_noted {α : Type} (context : Context) (action : Editing S α) (w : Workspace S) :
    ∃ start finish, Noted w start ∧ (∀ w', Noted w' (finish w')) ∧
      unrecorded context action w = action.ensuring finish start := by
  have asked : historyOf? context w = .ok (w.contexts.find? (·.history) context) w := rfl
  simp only [unrecorded, Action.bind_run_ok _ asked]
  cases w.contexts.find? (·.history) context with
  | none =>
    refine ⟨w, id, ⟨rfl, rfl, .of_eq rfl⟩, fun w' => ⟨rfl, rfl, .of_eq rfl⟩, ?_⟩
    cases ran : action w <;> simp [Action.ensuring, ran]
  | some h =>
    exact ⟨(historyLens h).update (fun history => history.pause.2) w,
      (historyLens h).update (·.resume ((historyLens h).view w).pause.1),
      ⟨rfl, rfl, sameGroups_update h fun _ => rfl⟩,
      fun w' => ⟨rfl, rfl, sameGroups_update h fun _ => rfl⟩, rfl⟩

structure NewRoot (start w : Workspace S) (context : Context) (m : Handle) : Prop where
  fresh : start.arena.outline m = none
  root : ∃ e, w.arena.get? m = some e ∧ e.parent = none ∧ e.context = context

/-- The editors that two hooks made at the same time are twins. -/
structure Companions (v₀ w₀ v w : Workspace S) (own other : Context) (pairs : Build.Pairs) :
    Prop where
  left : Enlarged v₀ v
  right : Enlarged w₀ w
  twins : ∀ m n, (m, n) ∈ pairs → Twins v w m n
  roots : ∀ m n, (m, n) ∈ pairs → NewRoot v₀ v own m ∧ NewRoot w₀ w other n
  matched : ∀ m n, (m, n) ∈ pairs → ∀ p q, (p, q) ∈ pairs → (m = p ↔ n = q)

theorem Companions.refl (sound : v.arena.Sound) (sound' : w.arena.Sound) (own other : Context) :
    Companions v w v w own other [] :=
  ⟨.refl sound, .refl sound', nofun, nofun, nofun⟩

omit [Language S] in
theorem NewRoot.between {start : Workspace S} (isNew : NewRoot start w own m) (begun : Noted v start)
    (ended : Noted w w') : NewRoot v w' own m := by
  refine ⟨?_, ?_⟩
  · rw [← begun.arena]
    exact isNew.fresh
  · rw [ended.arena]
    exact isNew.root

omit [Language S] in
theorem NewRoot.grows (isNew : NewRoot v₀ v own m) (enlarged : v.arena.Grows v'.arena) :
    NewRoot v₀ v' own m := by
  obtain ⟨e, found, free, context⟩ := isNew.root
  obtain ⟨e', found', same⟩ := Arena.get?_of_outline (enlarged m _ (Arena.outline_of_get? found))
  exact ⟨isNew.fresh, e', found', (congrArg (·.parent) same).trans free,
    (congrArg (·.context) same).trans context⟩

omit [Language S] in
theorem NewRoot.live (isNew : NewRoot v₀ v own m) : ∃ e, v.arena.outline m = some e := by
  obtain ⟨e, found, _⟩ := isNew.root
  exact ⟨_, Arena.outline_of_get? found⟩

theorem Built.newRoot {c : ClassKey S} (built : Built v v' m c own) (enlarged : Enlarged v₀ v) :
    NewRoot v₀ v' own m := by
  obtain ⟨e, found, free, context, _⟩ := built.root
  exact ⟨Arena.fresh_of_grows enlarged.grows built.fresh, e, found, free, context⟩

theorem Companions.built {c c' : ClassKey S} (companions : Companions v₀ w₀ v w own other pairs)
    (left : Built v v' m c own) (right : Built w w' n c' other) (twins : Twins v' w' m n) :
    Companions v₀ w₀ v' w' own other ((m, n) :: pairs) := by
  have older : ∀ p q, (p, q) ∈ pairs → p ≠ m ∧ q ≠ n := by
    intro p q earlier
    obtain ⟨first, second⟩ := companions.roots p q earlier
    refine ⟨?_, ?_⟩
    · rintro rfl
      obtain ⟨e, isLive⟩ := first.live
      rw [left.fresh] at isLive
      cases isLive
    · rintro rfl
      obtain ⟨e, isLive⟩ := second.live
      rw [right.fresh] at isLive
      cases isLive
  refine ⟨companions.left.trans left.toAdded.enlarged, companions.right.trans right.toAdded.enlarged,
    fun p q member => ?_, fun p q member => ?_, fun p q member p' q' member' => ?_⟩
  · rcases List.mem_cons.1 member with same | earlier
    · cases same
      exact twins
    · exact (companions.twins p q earlier).enlarged companions.left.sound companions.right.sound
        left.toAdded.enlarged right.toAdded.enlarged
  · rcases List.mem_cons.1 member with same | earlier
    · cases same
      exact ⟨left.newRoot companions.left, right.newRoot companions.right⟩
    · obtain ⟨first, second⟩ := companions.roots p q earlier
      exact ⟨first.grows left.grows, second.grows right.grows⟩
  · rcases List.mem_cons.1 member with same | earlier <;>
      rcases List.mem_cons.1 member' with same' | earlier'
    · cases same
      cases same'
      exact iff_of_true rfl rfl
    · cases same
      obtain ⟨other, other'⟩ := older p' q' earlier'
      exact iff_of_false (Ne.symm other) (Ne.symm other')
    · cases same'
      obtain ⟨other, other'⟩ := older p q earlier
      exact iff_of_false other other'
    · exact companions.matched p q earlier p' q' earlier'

theorem Companions.noted {v₁ w₁ : Workspace S} (companions : Companions v₁ w₁ v w own other pairs)
    (begun : Noted v₀ v₁) (begun' : Noted w₀ w₁) (ended : Noted v v') (ended' : Noted w w') :
    Companions v₀ w₀ v' w' own other pairs := by
  refine ⟨companions.left.between begun ended, companions.right.between begun' ended',
    fun m n member => (companions.twins m n member).noted ended ended',
    fun m n member => ?_, companions.matched⟩
  obtain ⟨isNew, isNew'⟩ := companions.roots m n member
  exact ⟨isNew.between begun ended, isNew'.between begun' ended'⟩

theorem NewRoot.stays {p : Handle} (isNew : NewRoot v₀ v own m) (touched : Touched v v' m)
    (different : p ≠ m) (kept : ∀ z, z ≠ m → v'.arena.outline z = v.arena.outline z) :
    Stays v v' p := by
  obtain ⟨e, found, free, _⟩ := isNew.root
  refine .of_outlines touched.contexts fun z within => kept z ?_
  rintro rfl
  exact different (Links.within_root_unique (Arena.links_of_get? found) free within).symm

theorem NewRoot.touched {p : Handle} (isNew : NewRoot v₀ v own p) (touched : Touched v v' m)
    (kept : ∀ z, z ≠ m → v'.arena.outline z = v.arena.outline z) : NewRoot v₀ v' own p := by
  obtain ⟨e, found, free, context⟩ := isNew.root
  by_cases same : p = m
  · subst same
    obtain ⟨e', found', stands⟩ := touched.changes.live found
    exact ⟨isNew.fresh, e', found', stands.2.1.trans free, stands.1.trans context⟩
  · obtain ⟨e', found', same⟩ :=
      Arena.get?_of_outline ((kept p same).trans (Arena.outline_of_get? found))
    exact ⟨isNew.fresh, e', found', (congrArg (·.parent) same).trans free,
      (congrArg (·.context) same).trans context⟩

theorem Enlarged.touching (enlarged : Enlarged v₀ v) (sound : v₀.arena.Sound)
    (touched : Touched v v' m) (fresh : v₀.arena.outline m = none) : Enlarged v₀ v' :=
  ⟨touched.sound, enlarged.grows.change_fresh touched.changes sound.forest fresh,
    enlarged.contexts.trans touched.contexts, enlarged.groups.trans touched.groups⟩

theorem Companions.typed (companions : Companions v₀ w₀ v w own other pairs)
    (sound : v₀.arena.Sound) (sound' : w₀.arena.Sound) (member : (m, n) ∈ pairs)
    (abreast : Abreast v w v' w' m n)
    (kept : ∀ z, z ≠ m → v'.arena.outline z = v.arena.outline z)
    (kept' : ∀ z, z ≠ n → w'.arena.outline z = w.arena.outline z) :
    Companions v₀ w₀ v' w' own other pairs := by
  obtain ⟨isNew, isNew'⟩ := companions.roots m n member
  refine ⟨companions.left.touching sound abreast.left isNew.fresh,
    companions.right.touching sound' abreast.right isNew'.fresh, fun p q listed => ?_,
    fun p q listed => ?_, companions.matched⟩
  · have together := companions.matched p q listed m n member
    by_cases same : p = m
    · obtain rfl := together.1 same
      subst same
      exact abreast.twins
    · exact (companions.twins p q listed).frame companions.left.sound.forest
        companions.right.sound.forest (isNew.stays abreast.left same kept)
        (isNew'.stays abreast.right (fun equal => same (together.2 equal)) kept')
  · obtain ⟨first, second⟩ := companions.roots p q listed
    exact ⟨first.touched abreast.left kept, second.touched abreast.right kept'⟩

theorem build_twins {hook hook' : Build S (Option Handle)}
    (alike : Build.Alike Build.Answered pairs hook hook') (sound : v₀.arena.Sound)
    (sound' : w₀.arena.Sound) (same : v₀.contexts.outlook own = w₀.contexts.outlook other)
    (companions : Companions v₀ w₀ v w own other pairs) :
    Action.Together (build own hook) (build other hook') v w
      (fun a b v' w' => ∃ pairs, Companions v₀ w₀ v' w' own other pairs ∧
        Option.Rel (Build.Answered pairs) a b) fun _ _ => False := by
  have still : ∀ {v w pairs}, Companions v₀ w₀ v w own other pairs →
      v.contexts.outlook own = w.contexts.outlook other := fun companions => by
    rw [Contexts.outlook_grown companions.left.contexts,
      Contexts.outlook_grown companions.right.contexts, same]
  induction alike generalizing v w with
  | done answered => exact .pure ⟨_, companions, .some answered⟩
  | fail pairs => exact .pure ⟨_, companions, .none⟩
  | create c _ ih =>
    obtain ⟨i, j, v', w', ran, ran', left, right, twins⟩ :=
      create_twins c companions.left.sound companions.right.sound (still companions)
    exact .after_ok ran ran' (ih i j (companions.built left right twins))
  | createToken c text _ ih =>
    obtain ⟨i, j, v', w', ran, ran', left, right, twins⟩ :=
      newToken_twins c text companions.left.sound companions.right.sound (still companions)
    exact .after_ok ran ran' (ih i j (companions.built left right twins))
  | @typeToken _ m n _ _ text member _ ih =>
    rcases writeToken_twins text none true companions.left.sound companions.right.sound
      (companions.twins _ _ member) with
      ⟨v', w', ran, ran', abreast, kept, kept'⟩ | ⟨found, ran, ran'⟩
    · exact .bind (.attempt (.of_ok ran ran' (ih (companions.typed sound sound' member abreast kept
        kept'))) (fun _ _ _ _ _ impossible => impossible.elim) fun _ _ impossible => impossible)
    · have tried : (typeToken m text true).attempt v =
          .ok (.error (.wrongShape m "token" found)) v := by
        simp only [Action.attempt, typeToken, ran]
      have tried' : (typeToken n text true).attempt w =
          .ok (.error (.wrongShape n "token" found)) w := by
        simp only [Action.attempt, typeToken, ran']
      exact .after_ok tried tried' (.pure ⟨_, companions, .none⟩)

theorem askHook_twins {hook : Build S (Option Handle)} (isBlind : hook.Blind Build.Answered)
    (sound : v.arena.Sound) (sound' : w.arena.Sound) (twins : Twins v w x y)
    (same : v.contexts.outlook own = w.contexts.outlook other) :
    Action.Together (askHook x own hook) (askHook y other hook) v w
      (fun a b v' w' => ∃ pairs, Companions v w v' w' own other pairs ∧ Build.Answered pairs a b)
      fun _ _ => False := by
  obtain ⟨e, f, found, found', _⟩ := twins.live
  obtain ⟨start, finish, begun, ended, ran⟩ := unrecorded_noted e.context (build own hook) v
  obtain ⟨start', finish', begun', ended', ran'⟩ := unrecorded_noted f.context (build other hook) w
  have ready : start.arena.Sound := begun.arena ▸ sound
  have ready' : start'.arena.Sound := begun'.arena ▸ sound'
  have built := build_twins isBlind ready ready' (by rw [begun.contexts, begun'.contexts, same])
    (.refl ready ready' own other)
  have hooks : Action.Together (unrecorded e.context (build own hook))
      (unrecorded f.context (build other hook)) v w
      (fun a b v' w' => ∃ pairs, Companions v w v' w' own other pairs ∧
        Option.Rel (Build.Answered pairs) a b) fun _ _ => False := by
    rw [Action.Together, ran, ran']
    refine Action.Together.ensuring (built.mono ?_ fun _ _ impossible => impossible)
    rintro a b v' w' ⟨pairs, companions, answered⟩
    exact ⟨pairs, companions.noted begun begun' (ended v') (ended' w'), answered⟩
  refine .after_ok (lookup_run found) (lookup_run found') (.bind (hooks.mono ?_
    fun _ _ impossible => impossible))
  rintro a b v' w' ⟨pairs, companions, answered⟩
  refine .pure ⟨pairs, companions, ?_⟩
  cases answered with
  | some answered => exact answered
  | none => exact .none

/-- Content that is on offer and was made since some state. -/
structure Proposed (start w : Workspace S) (k : S.ExpanderClass) (source x : Handle) : Prop
    extends Offered w k source x where
  beyond : ∀ z e, start.arena.outline z = some e → ¬ w.arena.links.Within source z

theorem NewRoot.proposed {w₁ : Workspace S} {k : S.ExpanderClass} {e : Editor S}
    (isNew : NewRoot v w (w₁.scopeFor k e.context).1 m) (enlarged : Enlarged v w)
    (sound : v.arena.Sound) (found : v.arena.get? x = some e)
    (grown : (w₁.scopeFor k e.context).2.Grown v.contexts) : Proposed v w k m x := by
  obtain ⟨child, root, free, home⟩ := isNew.root
  have outlined := Arena.outline_of_get? found
  obtain ⟨e', found', same⟩ := Arena.get?_of_outline (enlarged.grows x _ outlined)
  have context : e'.context = e.context := congrArg (·.context) same
  have beyond : ∀ z e, v.arena.outline z = some e → ¬ w.arena.links.Within m z := fun z e isLive =>
    enlarged.grows.not_within_fresh sound.forest isNew.fresh isLive
  refine ⟨⟨⟨child, e', root, found', free, w₁, ?_, ?_⟩, beyond x _ outlined⟩, beyond⟩
  · rw [context, home]
  · rw [context]
    exact grown.trans enlarged.contexts

theorem Proposed.cleared {k : S.ExpanderClass} (proposed : Proposed v w k m x)
    (cleared : Cleared w w' x) : Proposed v w' k m x :=
  ⟨(proposed.toOffered.cleared cleared).1, fun z e isLive within =>
    proposed.beyond z e isLive (cleared.within _ _ within)⟩

theorem fill_twins {k : S.ExpanderClass} {display : Display Handle} (sound : v₀.arena.Sound)
    (sound' : w₀.arena.Sound) (begun : Abreast v₀ w₀ v w x y)
    (held : v.arena.state? x = some (.expander k display)) (sources : Twins v w m n)
    (proposed : Proposed v₀ v k m x) (proposed' : Proposed w₀ w k n y) :
    Action.Together (fill x m) (fill y n) v w (fun _ _ v' w' => Abreast v₀ w₀ v' w' x y)
      fun v' w' => Abreast v₀ w₀ v' w' x y := by
  refine ((fillWith_twins restore_agrees restore_safe begun.left.sound begun.right.sound begun.twins
    held sources proposed.toOffered proposed'.toOffered).meets
    (fillWith_meets restore_safe begun.left.sound fun _ _ _ _ => proposed.apart)
    (fillWith_meets restore_safe begun.right.sound fun _ _ _ _ => proposed'.apart)).mono ?_ ?_
  · rintro _ _ v' w' ⟨twins, ⟨filled, _⟩, filled', _⟩
    exact ⟨⟨filled.sound, filled.changes begun.left.changes proposed.beyond,
      begun.left.contexts.trans filled.quiet.contexts,
      begun.left.groups.trans (.of_eq filled.quiet.histories)⟩,
      ⟨filled'.sound, filled'.changes begun.right.changes proposed'.beyond,
        begun.right.contexts.trans filled'.quiet.contexts,
        begun.right.groups.trans (.of_eq filled'.quiet.histories)⟩, twins⟩
  · rintro v' w' ⟨_, ⟨_, added⟩, _, added'⟩
    exact ⟨begun.left.trans (added.enlarged.touched x) sound,
      begun.right.trans (added'.enlarged.touched y) sound',
      begun.twins.enlarged begun.left.sound begun.right.sound added.enlarged added'.enlarged⟩

end StructureEditor.Workspace
