import StructureEditor.Proofs.Order
import StructureEditor.Proofs.Roots

/-! What restoring comes to. Where it goes through, the editor shows what the snapshot says, and
registries know all it shows, so that it can be taken into another context; where it is
refused, no root is left behind. -/
namespace StructureEditor

variable {S : Signature}

namespace Sketch

mutual

/-- A document shows what a snapshot says. The classes are those of the editors. -/
def Renders : Sketch S → Snapshot → Prop
  | .token _ shown item, s => s.tokenState? = some (shown, item)
  | .text _ shown item, s => s.display? = some (.text shown item)
  | .expanded _ content, s => ∃ inner, s.display? = some (.expanded inner) ∧ Renders content inner
  | .compound _ parts, .compound _ components => RendersAll parts components
  | .list _ items, .list _ snapshots => RendersAll items snapshots
  | _, _ => False

def RendersAll : List (Sketch S) → List Snapshot → Prop
  | [], [] => True
  | d :: ds, s :: ss => Renders d s ∧ RendersAll ds ss
  | _, _ => False

end

theorem rendersAll_iff {ds : List (Sketch S)} {ss : List Snapshot} :
    RendersAll ds ss ↔ List.Forall₂ Renders ds ss := by
  induction ds generalizing ss with
  | nil => cases ss <;> simp [RendersAll]
  | cons d ds ih => cases ss <;> simp [RendersAll, ih]

theorem depth_of_expanded {s inner : Snapshot} (displays : s.display? = some (.expanded inner)) :
    s.depth = inner.depth + 1 := by
  cases s with
  | expander name content text itemClass item =>
    cases content with
    | none => cases displays
    | some content =>
      cases displays
      rfl
  | _ => cases displays

theorem depth_pos (s : Snapshot) : 0 < s.depth := by
  cases s <;> exact Nat.succ_pos _

variable [Language S]

theorem depthList_le {ds : List (Sketch S)} {ss : List Snapshot}
    (related : List.Forall₂ (fun (d : Sketch S) s => d.toSnapshot.depth ≤ s.depth) ds ss) :
    Snapshot.depthList (ds.map toSnapshot) ≤ Snapshot.depthList ss := by
  induction related with
  | nil => exact Nat.le_refl _
  | cons first _ ih =>
    simp only [List.map_cons, Snapshot.depthList]
    omega

theorem Renders.depth_le {d : Sketch S} {s : Snapshot} (renders : d.Renders s) :
    d.toSnapshot.depth ≤ s.depth := by
  induction d using Sketch.induct generalizing s with
  | token k text item => exact depth_pos s
  | text k shown item => exact depth_pos s
  | expanded k content ih =>
    obtain ⟨inner, displays, renders⟩ := renders
    rw [depth_of_expanded displays]
    exact Nat.succ_le_succ (ih renders)
  | compound k parts ih =>
    cases s with
    | compound name components =>
      have each := Arena.forall₂_imp_mem (rendersAll_iff.1 renders)
        fun d member s _ renders => ih d member renders
      rw [toSnapshot, toSnapshots_eq_map]
      exact Nat.succ_le_succ (depthList_le each)
    | _ => cases renders
  | list k items ih =>
    cases s with
    | list name snapshots =>
      have each := Arena.forall₂_imp_mem (rendersAll_iff.1 renders)
        fun d member s _ renders => ih d member renders
      rw [toSnapshot, toSnapshots_eq_map]
      exact Nat.succ_le_succ (depthList_le each)
    | _ => cases renders

end Sketch

variable [Language S]

namespace Workspace

variable {w w' w'' : Workspace S} {id x : Handle} {restore : Restorer S} {s : Snapshot}
  {context : Context} {c : ClassKey S} {editor : Editor S} {d : Sketch S} {levels : Nat}

/-- An editor shows what a snapshot says, and contexts supply what it takes to show it again. -/
def Rendered (w w' : Workspace S) (id : Handle) (s : Snapshot) : Prop :=
  ∃ editor d, w'.arena.get? id = some editor ∧ w'.arena.Shows id d ∧ d.Renders s ∧
    w'.contexts.Supplies editor.context d ∧ ∀ old, w.arena.Shows id old → old.Conforms → d.Conforms

/-- A way of restoring makes an editor show a snapshot or leaves no new root. -/
def Restorer.Thorough (restore : Restorer S) (s : Snapshot) : Prop :=
  ∀ w id, w.arena.Sound → Action.Meets (restore id s) w
    (fun _ w' => w.arena.NoNewRoots w'.arena ∧ Rendered w w' id s)
    (OnRefusal fun w' => w.arena.NoNewRoots w'.arena)

/-- A way of restoring snapshots of so many levels. -/
structure Restorer.Masters (restore : Restorer S) (levels : Nat) : Prop where
  safe : restore.Safe
  restores : ∀ d : Sketch S, d.Conforms → d.toSnapshot.depth ≤ levels → restore.Restores d
  thorough : ∀ s : Snapshot, s.depth ≤ levels → restore.Thorough s

theorem unrecorded_thorough (context : Context) (thorough : restore.Thorough s) :
    Restorer.Thorough (fun id s => unrecorded context (restore id s)) s := by
  intro w id sound
  dsimp only
  obtain ⟨start, finish, paused, ran⟩ := unrecorded_run context (restore id s) w
  rw [Action.Meets, ran]
  refine Action.Meets.ensuring ((thorough start id (paused.arena ▸ sound)).mono ?_ ?_)
  · rintro _ w' ⟨noNew, editor, d, found, seen, renders, supplied, conforms⟩
    rw [paused.arena] at noNew conforms
    exact ⟨(paused.finished w').symm ▸ noNew, editor, d, (paused.finished w').symm ▸ found,
      (paused.finished w').symm ▸ seen, renders, (paused.placed w').symm ▸ supplied, conforms⟩
  · intro stop w' noNew error refused
    rw [paused.finished, ← paused.arena]
    exact noNew error refused

theorem rebuildAsWith_renders (safe : restore.Safe) (thorough : restore.Thorough s)
    (sound : w.arena.Sound) :
    Action.Meets (rebuildAsWith restore c s context) w
      (fun id w' => w.arena.OneNewRoot w'.arena id ∧ ∃ d, w'.arena.Shows id d ∧
        d.Renders s ∧ d.Conforms ∧ w'.contexts.Supplies context d)
      (OnRefusal fun w' => w.arena.NoNewRoots w'.arena) := by
  have made := Arena.create_made c context sound
  have built := created (w := w) made
  have one := (Arena.create_adds c context sound).oneNewRoot
  obtain ⟨old, shown, _, fresh⟩ := made.shown
  refine .after_ok (create_run c context w) (.bind (.attempt (.mono (.and
    (unrecorded_confined context made.sound fun w sound => safe w _ s sound)
    (unrecorded_thorough context thorough _ _ made.sound)) ?_ ?_)))
  · rintro _ w' ⟨changed, noNew, editor, d, found, seen, renders, supplied, conforms⟩
    obtain ⟨e, isLive, _, sameContext, _⟩ := (built.confined changed sound).root
    cases found.symm.trans isLive
    exact ⟨one.trans noNew, d, seen, renders, conforms old shown fresh.1, sameContext ▸ supplied⟩
  · rintro stop w' ⟨changed, noNew⟩
    cases stop with
    | fault f => exact nofun
    | refused error =>
      obtain ⟨e, isLive, free, _⟩ := (built.confined changed sound).root
      refine .after_ok (dispose_run _ w') (.refuse fun _ _ x root => ?_)
      -- the one new root is thrown away
      obtain ⟨other, root⟩ := changed.sound.roots_dispose isLive free root
      exact (one x (noNew error rfl x root)).resolve_left other

theorem rebuildWith_renders (safe : restore.Safe) (thorough : restore.Thorough s)
    (sound : w.arena.Sound) :
    Action.Meets (rebuildWith restore s context) w
      (fun id w' => w.arena.OneNewRoot w'.arena id ∧ ∃ d, w'.arena.Shows id d ∧
        d.Renders s ∧ d.Conforms ∧ w'.contexts.Supplies context d ∧
        w'.contexts.Knows context d.classKey)
      (OnRefusal fun w' => w.arena.NoNewRoots w'.arena) := by
  unfold rebuildWith
  split
  · exact .refuse fun _ _ => .refl _
  · refine .bind (.ask ?_ fun _ _ _ _ => .refl _)
    intro registry required
    cases listed : registry.lookup _ with
    | error error => exact .refuse fun _ _ => .refl _
    | ok c =>
      refine (Action.Meets.and (rebuildAsWith_meets safe sound)
        (rebuildAsWith_renders safe thorough sound)).mono ?_ fun _ _ both => both.2
      rintro id w' ⟨built, one, d, seen, renders, conforms, supplied⟩
      have found : w.contexts.find? (·.registry) context = some registry := by
        unfold Contexts.require at required
        split at required
        · next held =>
          cases required
          exact held
        · cases required
      have known : w.contexts.Knows context c := ⟨registry, found, Registry.has_of_lookup listed⟩
      obtain ⟨e, isLive, _, _, key⟩ := built.root
      have isKey : d.classKey = c :=
        (classKey_of_held seen (Arena.state?_of_get? isLive)).trans key
      exact ⟨one, d, seen, renders, conforms, supplied,
        isKey ▸ known.carry (Contexts.sameServices_of_grown built.quiet.contexts context)⟩

theorem relocateWith_roots (safe : restore.Safe)
    (thorough : ∀ s, w.arena.snapshot id = .ok s → restore.Thorough s)
    (sound : w.arena.Sound) :
    Action.Meets (relocateWith restore id context) w
      (fun m w' => ∀ x, w'.arena.IsRoot x → x = m ∨ w.arena.IsRoot x ∧ x ≠ id)
      (OnRefusal fun w' => w.arena.NoNewRoots w'.arena) := by
  refine .bind (.ask ?_ fun _ _ _ _ => .refl _)
  intro editor answered
  have found := Arena.get_eq_ok_iff.1 answered
  split
  · refine .pure fun x root => ?_
    by_cases same : x = id
    · exact .inl same
    · exact .inr ⟨root, same⟩
  · cases attached : editor.parent with
    | some p => exact .refuse fun _ _ => .refl _
    | none =>
      refine .bind (.ask (fun s taken => ?_) fun _ _ _ _ => .refl _)
      refine .bind ((Action.Meets.and (rebuildAsWith_meets safe sound)
        (rebuildAsWith_renders safe (thorough s taken) sound)).mono ?_
          fun _ _ both => both.2)
      rintro m w' ⟨built, one, _⟩
      obtain ⟨e, isLive, _, _, free⟩ :=
        Arena.kept_of_outline (built.grows id _ (Arena.outline_of_get? found))
      refine .after_ok (dispose_run id w') (.pure fun x root => ?_)
      obtain ⟨other, root⟩ := built.sound.roots_dispose isLive (free.trans attached) root
      exact (one x root).imp_right fun older => ⟨older, other⟩

theorem relocateWith_renders (safe : restore.Safe)
    (thorough : ∀ s, w.arena.snapshot id = .ok s → restore.Thorough s) (sound : w.arena.Sound)
    (found : w.arena.get? id = some editor)
    (elsewhere : editor.context ≠ context) :
    Action.Meets (relocateWith restore id context) w
      (fun m w' => ∃ s d, w.arena.snapshot id = .ok s ∧ w'.arena.Shows m d ∧ d.Renders s)
      fun _ _ => True := by
  refine .after_ok (lookup_run found) ?_
  rw [if_neg elsewhere]
  cases attached : editor.parent with
  | some p => exact .refuse trivial
  | none =>
    refine .bind (.ask (fun s taken => ?_) fun _ _ => trivial)
    refine .bind ((Action.Meets.and (rebuildAsWith_meets safe sound)
      (rebuildAsWith_renders safe (thorough s taken) sound)).mono ?_ fun _ _ _ => trivial)
    rintro m w' ⟨built, _, d, seen, renders, _⟩
    exact .after_ok (dispose_run id w') (.pure ⟨s, d, taken,
      built.shows_alone found attached seen, renders⟩)

theorem fillWith_roots {source : Handle} (safe : restore.Safe)
    (thorough : ∀ s, w.arena.snapshot source = .ok s → restore.Thorough s)
    (sound : w.arena.Sound)
    (apart : ∀ e, w.arena.get? source = some e → e.parent = none → source ≠ id →
      ¬ w.arena.links.Within source id) :
    Action.Meets (fillWith restore id source) w
      (fun _ w' => ∀ x, w'.arena.IsRoot x → w.arena.IsRoot x ∧ x ≠ source)
      (OnRefusal fun w' => w.arena.NoNewRoots w'.arena) := by
  refine fillWith_rule apart (fun _ _ _ => .refl _) fun {k old _ _ _} found state isLive free outside =>
    ?_
  have ready := added_scopeFor sound k old.context
  refine (Action.Meets.and (relocateWith_meets safe ready.sound)
    (relocateWith_roots safe thorough ready.sound)).mono ?_
      fun _ _ both => both.2
  rintro content w₂ ⟨relocated, roots⟩
  obtain ⟨new, old', fetched⟩ :=
    fetched_of_relocated ready.sound relocated found isLive free outside
  obtain ⟨w₃, ran, done, linked⟩ := fetched.hangs state
  exact .of_ok ran (done.hides fetched.found linked roots)

variable {k : S.ExpanderClass} {display : Display Handle} {content : Handle}

theorem sameServices_content {own : Context} {cs cs' : Contexts (Services S)}
    (before : (w.scopeFor k own).2.Grown cs) (after : cs.Grown cs') :
    cs.SameServices (w.scopeFor k own).1 cs' (cs'.scopeBelow k own) := by
  intro α service nothing
  have grown := (grown_scopeFor w k own).trans (before.trans after)
  have here := Contexts.sameServices_scopeBelow grown (Contexts.sameServices_of_grown grown own) k
    α service nothing
  have there := sameServices_scopeFor w k own α service nothing
  exact here.trans (there.symm.trans (before.find? nothing _).symm)

theorem refill_run (safe : restore.Safe) (restores : restore.Restores d)
    (thorough : restore.Thorough d.toSnapshot) (sound : w.arena.Sound)
    (found : w.arena.get? id = some editor)
    (held : editor.state = .expander k display)
    (built : Built { w with contexts := (w.scopeFor k editor.context).2 } w' content c
      (w.scopeFor k editor.context).1)
    (one : w.arena.OneNewRoot w'.arena content) (seen : w'.arena.Shows content d)
    (supplied : w'.contexts.Supplies (w.scopeFor k editor.context).1 d) :
    ∃ w'', (do clear id; let _ ← fillWith restore id content) w' = .ok () w'' ∧
      Confined w w'' id ∧ w.arena.NoNewRoots w''.arena ∧ w''.arena.Shows id (.expanded k d) ∧
      w'.contexts.Grown w''.contexts := by
  have added := (added_scopeFor sound k editor.context).trans built.toAdded
  obtain ⟨child, root, free, _⟩ := built.root
  obtain ⟨w₂, m, w₃, cleared, clear, seen₂, ran, seen₃, changed⟩ := refilling_run safe restores sound
    found held added built.fresh root free seen
    (supplied.carry (.refl _) (sameServices_content built.quiet.contexts (.refl _)))
  have apart : ¬ w₂.arena.links.Within content id := fun within =>
    built.grows.not_within_fresh sound.forest built.fresh (Arena.outline_of_get? found)
      (clear.within _ _ within)
  have filled := (fillWith_meets safe clear.sound fun _ _ _ _ => apart).ok_of ran
  have roots := (fillWith_roots safe (fun s taken => by
    cases (Arena.snapshot_of_shows clear.sound.forest seen₂).symm.trans taken
    exact thorough) clear.sound
    fun _ _ _ _ => apart).ok_of ran
  refine ⟨w₃, ?_, changed, fun x isRoot => ?_, seen₃,
    clear.quiet.contexts.trans filled.1.quiet.contexts⟩
  · rw [Action.bind_run_ok _ cleared, Action.bind_run_ok _ ran]
    rfl
  · obtain ⟨older, other⟩ := roots x isRoot
    exact (one x (clear_roots built.sound cleared x older)).resolve_left other

theorem Rendered.of_text {text : String} {item : Option Candidate}
    (found : w.arena.get? id = some editor) (seen : w.arena.Shows id (.text k text item))
    (displays : s.display? = some (.text text item)) : Rendered w' w id s :=
  ⟨editor, .text k text item, found, seen, displays, trivial, fun _ _ _ => trivial⟩

theorem restoreStateWith_renders {state : Display Snapshot} (masters : restore.Masters levels)
    (sound : w.arena.Sound) (displays : s.display? = some state)
    (enough : s.depth ≤ levels + 1) :
    Action.Meets (restoreStateWith restore id state) w
      (fun _ w' => w.arena.NoNewRoots w'.arena ∧ Rendered w w' id s)
      (OnRefusal fun w' => w.arena.NoNewRoots w'.arena) := by
  refine restoreStateWith_rule masters.safe sound state (fun _ _ _ => .refl _) ?_ ?_
  · rintro text item k old oldItem w₁ rfl cleared clear held
    obtain ⟨editor, found, _⟩ := Arena.get?_of_state? held
    obtain ⟨w₂, ran, done⟩ := showText_run text item clear.sound held
    obtain ⟨editor', found', _⟩ := done.live found
    refine .of_ok ran ⟨?_, .of_text found' (done.state?_eq found) displays⟩
    exact (clear_roots sound cleared).trans (done.noNewRoots found nofun)
  · rintro inner k editor display rfl found held
    have shallow : inner.depth ≤ levels := by
      rw [Sketch.depth_of_expanded displays] at enough
      omega
    have ready := added_scopeFor sound k editor.context
    refine (rebuildWith_renders masters.safe (masters.thorough inner shallow) ready.sound).mono ?_
      fun _ _ noNew _ => noNew
    rintro content w₂ ⟨one, d, seen, renders, conforms, supplied, known⟩ c built
    have depth := Nat.le_trans renders.depth_le shallow
    obtain ⟨w₃, ran, changed, noNew, seen₃, grown⟩ := refill_run masters.safe
      (masters.restores d conforms depth) (masters.thorough d.toSnapshot depth) sound found
      held built one seen supplied
    obtain ⟨editor₃, found₃, kept⟩ := changed.changes.live found
    have same := sameServices_content built.quiet.contexts grown
    refine .of_ok ran ⟨noNew, editor₃, .expanded k d, found₃, seen₃, ⟨inner, displays, renders⟩,
      ?_, fun _ _ _ => conforms⟩
    rw [show editor₃.context = editor.context from kept.1]
    exact ⟨known.carry same, supplied.carry grown same⟩

theorem restoreItemsWith_renders {k : S.ListClass} {ids : List Handle} {list : Handle}
    {element : ClassKey S} {shown : List (Sketch S)} {snapshots : List Snapshot}
    (masters : restore.Masters levels) (sound : w.arena.Sound)
    (found : w.arena.get? list = some editor) (held : editor.state = .list k ids)
    (seen : List.Forall₂ w.arena.Shows ids shown) (shallow : ∀ s ∈ snapshots, s.depth ≤ levels) :
    Action.Meets (restoreItemsWith restore list element editor.context ids.length snapshots) w
      (fun _ w' => w.arena.NoNewRoots w'.arena ∧ w.contexts.Grown w'.contexts ∧
        ∃ items, w'.arena.Shows list (.list k (shown ++ items)) ∧
          List.Forall₂ Sketch.Renders items snapshots ∧
          ∀ d ∈ items, d.Conforms ∧ d.classKey = element ∧ w'.contexts.Supplies editor.context d)
      (OnRefusal fun w' => w.arena.NoNewRoots w'.arena) := by
  induction snapshots generalizing w editor ids shown with
  | nil =>
    refine .pure ⟨.refl _, .refl _, [], Arena.shows_list.2 ⟨ids, held ▸ Arena.state?_of_get? found,
      ?_⟩, .nil, nofun⟩
    rw [List.append_nil]
    exact seen
  | cons s rest ih =>
    refine .bind ((Action.Meets.and (rebuildAsWith_meets masters.safe sound)
      (rebuildAsWith_renders masters.safe (masters.thorough s (shallow s (by simp))) sound)).mono ?_
        fun _ _ both => both.2)
    rintro item w₁ ⟨built, one, d, seen₁, renders, conforms, supplied⟩
    obtain ⟨child, root, _, _, key⟩ := built.root
    have isKey : d.classKey = element :=
      (classKey_of_held seen₁ (Arena.state?_of_get? root)).trans key
    obtain ⟨w₂, attached, joined⟩ := built.joins sound found held (Nat.le_refl ids.length)
    obtain ⟨editor', found', _⟩ :=
      Arena.get?_of_outline (built.grows list _ (Arena.outline_of_get? found))
    have hung : w.arena.NoNewRoots w₂.arena :=
      joined.rewrites.hides found' (joined.linked child root) one
    have grown := joined.confined.quiet.contexts
    have earlier : List.Forall₂ w₂.arena.Shows ids shown :=
      Arena.forall₂_imp_mem seen fun x member e _ seen => joined.shows_others x member e seen
    obtain ⟨editor₂, found₂, held₂, context₂⟩ := joined.live
    rw [List.insertIdx_length_self] at held₂
    have others := ih joined.confined.sound found₂ held₂
      (List.rel_append earlier (.cons (joined.shows_item d seen₁) .nil))
      fun s later => shallow s (by simp [later])
    rw [context₂, List.length_append, List.length_singleton] at others
    refine .after_ok attached (others.mono ?_ fun _ _ noNew error refused =>
      hung.trans (noNew error refused))
    rintro _ w₃ ⟨noNew, grown', items, seen₃, renderAll, each⟩
    refine ⟨hung.trans noNew, grown.trans grown', d :: items, by simpa using seen₃,
      .cons renders renderAll, ?_⟩
    intro e member
    rcases List.mem_cons.1 member with rfl | later
    · exact ⟨conforms, isKey, supplied.grown (joined.rewrites.quiet.contexts.trans grown')⟩
    · exact each e later

structure PartsRendered (w w' : Workspace S) (own : Context) (ids : List Handle)
    (components : List Snapshot) (parts : List (Sketch S)) : Prop where
  shown : List.Forall₂ w'.arena.Shows ids parts
  renders : List.Forall₂ Sketch.Renders parts components
  supplied : ∀ d ∈ parts, w'.contexts.Supplies own d
  conform : ∀ olds, List.Forall₂ w.arena.Shows ids olds → (∀ old ∈ olds, old.Conforms) →
    parts.map Sketch.classKey = olds.map Sketch.classKey ∧ ∀ d ∈ parts, d.Conforms

theorem PartsRendered.nil (w w' : Workspace S) (own : Context) : PartsRendered w w' own [] [] [] :=
  ⟨.nil, .nil, nofun, fun _ seen _ => by
    cases seen
    exact ⟨rfl, nofun⟩⟩

theorem PartsRendered.cons {own : Context} {ids : List Handle} {components : List Snapshot}
    {parts : List (Sketch S)} (others : PartsRendered w' w'' own ids components parts)
    (shown : w''.arena.Shows x d) (renders : d.Renders s) (supplied : w''.contexts.Supplies own d)
    (sameClass : ∀ old, w.arena.Shows x old → d.classKey = old.classKey)
    (conforms : ∀ old, w.arena.Shows x old → old.Conforms → d.Conforms)
    (kept : ∀ y ∈ ids, ∀ e, w.arena.Shows y e → w'.arena.Shows y e) :
    PartsRendered w w'' own (x :: ids) (s :: components) (d :: parts) where
  shown := .cons shown others.shown
  renders := .cons renders others.renders
  supplied := List.forall_mem_cons.2 ⟨supplied, others.supplied⟩
  conform olds seenAll fine := by
    cases seenAll with
    | @cons _ old _ olds seen seenRest =>
      obtain ⟨isOld, fine⟩ := List.forall_mem_cons.1 fine
      obtain ⟨sameClasses, conform⟩ := others.conform olds
        (Arena.forall₂_imp_mem seenRest fun y member e _ seen => kept y member e seen) fine
      refine ⟨?_, List.forall_mem_cons.2 ⟨conforms old seen isOld, conform⟩⟩
      rw [List.map_cons, List.map_cons, sameClass old seen, sameClasses]

theorem restoreParts_renders {k : S.CompoundClass} {ids chosen : List Handle}
    {components : List Snapshot} (masters : restore.Masters levels) (sound : w.arena.Sound)
    (found : w.arena.get? id = some editor)
    (held : editor.state = .compound k ids) (members : ∀ x ∈ chosen, x ∈ ids)
    (distinct : chosen.Nodup) (count : chosen.length = components.length)
    (shallow : ∀ s ∈ components, s.depth ≤ levels) :
    Action.Meets ((chosen.zip components).forM fun (id, s) => restore id s) w
      (fun _ w' => w.arena.NoNewRoots w'.arena ∧ w.contexts.Grown w'.contexts ∧
        w'.arena.state? id = some (.compound k ids) ∧
        (∃ parts, PartsRendered w w' editor.context chosen components parts) ∧
        ∀ x ∈ ids, x ∉ chosen → ∀ d, w.arena.Shows x d → w'.arena.Shows x d)
      (OnRefusal fun w' => w.arena.NoNewRoots w'.arena) := by
  induction chosen generalizing w editor components with
  | nil =>
    cases components with
    | cons => cases count
    | nil => exact .pure ⟨.refl _, .refl _, held ▸ Arena.state?_of_get? found, ⟨[], .nil ..⟩,
        fun _ _ _ _ seen => seen⟩
  | cons x rest ih =>
    cases components with
    | nil => cases count
    | cons s ss =>
      have member := members x (by simp)
      have isChild : x ∈ editor.state.children := held ▸ member
      obtain ⟨child, childFound, _⟩ := Arena.live_child sound.forest found isChild
      have sameContext := sound.shared id editor found (by rw [held]; rfl) x isChild child childFound
      obtain ⟨notLater, distinct⟩ := List.nodup_cons.1 distinct
      refine .bind ((Action.Meets.and (masters.safe w x s sound)
        (masters.thorough s (shallow s (by simp)) w x sound)).mono ?_ fun _ _ both => both.2)
      rintro _ w₁ ⟨changed, noNew, child', d, childFound', seen, renders, supplied, conforms⟩
      obtain ⟨whole, editor', found', held', context'⟩ := changed.part sound found held member
      have grown := changed.quiet.contexts
      have stillSeen : ∀ y ∈ ids, y ≠ x → ∀ e, w.arena.Shows y e → w₁.arena.Shows y e :=
        fun y sibling different e seen =>
          changed.sibling_shows sound found held member sibling different seen
      refine (ih whole.sound found' held'
        (fun y later => members y (by simp [later])) distinct (by simpa using count)
        fun s later => shallow s (by simp [later])).mono ?_ fun _ _ more error refused =>
          noNew.trans (more error refused)
      rintro _ w₂ ⟨noNew', grown', there, ⟨parts, rendered⟩, others⟩
      rw [context'] at rendered
      rw [(changed.changes.keepsPlace childFound childFound').1, sameContext] at supplied
      refine ⟨noNew.trans noNew', grown.trans grown', there, ⟨d :: parts, rendered.cons
        (others x member notLater d seen) renders (supplied.grown grown')
        (fun old first => classKey_of_changes changed.changes first seen) conforms
        fun y later => stillSeen y (members y (by simp [later])) ?_⟩, ?_⟩
      · rintro rfl
        exact notLater later
      · intro y sibling elsewhere e seen
        obtain ⟨different, elsewhere⟩ : y ≠ x ∧ y ∉ rest := by simpa using elsewhere
        exact others y sibling elsewhere e (stillSeen y sibling different e seen)

theorem Rendered.of_parts {k : S.CompoundClass} {ids : List Handle} {name : Option String}
    {components : List Snapshot} {parts : List (Sketch S)} (changed : Confined w w' id)
    (found : w.arena.get? id = some editor) (held : editor.state = .compound k ids)
    (there : w'.arena.state? id = some (.compound k ids))
    (rendered : PartsRendered w w' editor.context ids components parts) :
    Rendered w w' id (.compound name components) := by
  obtain ⟨editor', found', kept⟩ := changed.changes.live found
  refine ⟨editor', .compound k parts, found', Arena.shows_compound.2 ⟨ids, there, rendered.shown⟩,
    Sketch.rendersAll_iff.2 rendered.renders, ?_, fun old seen conforms => ?_⟩
  · rw [kept.1]
    exact Contexts.suppliesAll_iff.2 rendered.supplied
  · have held : w.arena.state? id = some (.compound k ids) := held ▸ Arena.state?_of_get? found
    have key := classKey_of_held seen held
    cases old with
    | compound k' olds =>
      cases key
      obtain ⟨ids', held', seenAll⟩ := Arena.shows_compound.1 seen
      cases held.symm.trans held'
      obtain ⟨keys, fine⟩ := rendered.conform olds seenAll (Sketch.allConform_iff.1 conforms.2)
      exact ⟨keys.trans conforms.1, Sketch.allConform_iff.2 fine⟩
    | _ => cases key

theorem restoreWith_thorough (masters : restore.Masters levels) (enough : s.depth ≤ levels + 1) :
    Restorer.Thorough (restoreWith restore) s := by
  intro w id sound
  refine restoreWith_rule sound (fun _ _ _ => .refl _) ?_ ?_ ?_ ?_
  · rintro name text itemClass item k old oldItem rfl held
    obtain ⟨editor, found, _⟩ := Arena.get?_of_state? held
    obtain ⟨w', ran, done⟩ := writeToken_quiet text (Snapshot.candidate? itemClass item) sound held
    obtain ⟨editor', found', _⟩ := done.live found
    exact .of_ok ran ⟨done.noNewRoots found nofun, editor', .token k text _, found',
      done.state?_eq found, rfl, trivial, fun _ _ _ => trivial⟩
  · exact fun state _ _ displays _ =>
      restoreStateWith_renders masters sound displays enough
  · rintro name components k ids editor rfl found held count
    have distinct := sound.forest.distinct (Arena.links_of_get? found)
    simp only [Editor.place, held, EditorState.children] at distinct
    have shallow : ∀ s ∈ components, s.depth ≤ levels := fun s member =>
      Nat.le_trans (depth_le_depthList member) (Nat.le_of_succ_le_succ enough)
    refine (Action.Meets.and (restoreParts_meets masters.safe sound found held
      fun part inside => (List.of_mem_zip inside).1) (restoreParts_renders masters sound
        found held (fun _ member => member) distinct count shallow)).mono ?_ fun _ _ both => both.2
    rintro _ w' ⟨changed, noNew, _, there, ⟨parts, rendered⟩, _⟩
    exact ⟨noNew, .of_parts changed found held there rendered⟩
  · rintro name items k ids editor w₁ rfl held ran emptied found state
    have shallow : ∀ s ∈ items, s.depth ≤ levels := fun s member =>
      Nat.le_trans (depth_le_depthList member) (Nat.le_of_succ_le_succ enough)
    have dropped := dropItems_roots sound ran
    refine (Action.Meets.and (restoreItemsWith_meets masters.safe emptied.sound found state (by simp))
      (restoreItemsWith_renders masters emptied.sound found
        state .nil shallow)).mono ?_
          fun _ _ both error refused => dropped.trans (both.2 error refused)
    rintro _ w₂ ⟨changed, noNew, grown, shown, seen, renderAll, each⟩
    obtain ⟨editor', found', kept⟩ := changed.changes.live found
    refine ⟨dropped.trans noNew, editor', .list k shown, found', seen,
      Sketch.rendersAll_iff.2 renderAll, ?_, fun _ _ _ => ⟨fun d member => (each d member).2.1,
        Sketch.allConform_iff.2 fun d member => (each d member).1⟩⟩
    rw [kept.1]
    exact Contexts.suppliesAll_iff.2 fun d member => (each d member).2.2

theorem restoreWithin_masters (levels : Nat) :
    Restorer.Masters (restoreWithin levels : Restorer S) levels where
  safe := restoreWithin_safe levels
  restores _ conforms enough := restoreWithin_restores conforms enough
  thorough := by
    induction levels with
    | zero =>
      intro s enough
      have := Sketch.depth_pos s
      omega
    | succ levels ih =>
      exact fun s enough => restoreWith_thorough ⟨restoreWithin_safe levels,
        fun _ conforms enough => restoreWithin_restores conforms enough, ih⟩ enough

theorem restore_masters (levels : Nat) :
    Restorer.Masters (Workspace.restore : Restorer S) levels where
  safe := restore_safe
  restores _ conforms _ := restore_restores conforms
  thorough s _ := (restoreWithin_masters s.depth).thorough s (Nat.le_refl _)

theorem restore_thorough (s : Snapshot) : Restorer.Thorough (Workspace.restore : Restorer S) s :=
  (restore_masters s.depth).thorough s (Nat.le_refl _)

end Workspace

end StructureEditor
