import StructureEditor.Proofs.Settling

/-! What views hear. A notice reaches the living views of one editor. Recomputing results tells
the views of an editor its result if it is another one now, and nothing otherwise. -/
namespace StructureEditor

variable {S : Signature}

def Notice.result? : Notice S → Option (Outcome S.Value)
  | .resultChanged result => some result
  | _ => none

@[simp] theorem Notice.result?_resultChanged (r : Outcome S.Value) :
    (Notice.resultChanged r : Notice S).result? = some r := rfl

namespace Workspace

variable {w w' : Workspace S} {v : ViewId} {x id : Handle} {notice : Notice S}

def noticesTo (v : ViewId) (events : List (Event S)) : List (Notice S) :=
  events.filterMap fun
    | .notice u notice => if u = v then some notice else none
    | .remark _ => none

def heard (w : Workspace S) (v : ViewId) : List (Notice S) := noticesTo v w.journal.toList

def results (w : Workspace S) (v : ViewId) : List (Outcome S.Value) :=
  (w.heard v).filterMap Notice.result?

/-- What a view was told beside results. -/
def signs (w : Workspace S) (v : ViewId) : List (Notice S) :=
  (w.heard v).filter (·.result?.isNone)

def isAlive (w : Workspace S) (v : ViewId) : Prop := w.views.getD v false = true

theorem isAlive_of_eq (views : w'.views = w.views) (alive : w'.isAlive v) : w.isAlive v := by
  rw [isAlive, ← views]
  exact alive

/-- A view is attached to one editor, once, and to no other. -/
structure Sole (w : Workspace S) (v : ViewId) (x : Handle) : Prop where
  once : ∃ editor, w.arena.get? x = some editor ∧ editor.views.count v = 1
  only : ∀ y editor, w.arena.get? y = some editor → v ∈ editor.views → y = x

def Loose (w : Workspace S) (v : ViewId) : Prop :=
  ∀ y editor, w.arena.get? y = some editor → v ∉ editor.views

theorem Sole.carry (sole : w.Sole v x)
    (same : ∀ y e', w'.arena.get? y = some e' →
      ∃ e, w.arena.get? y = some e ∧ e'.views = e.views)
    (live : ∃ e', w'.arena.get? x = some e') : w'.Sole v x := by
  obtain ⟨e', isLive⟩ := live
  refine ⟨⟨e', isLive, ?_⟩, ?_⟩
  · obtain ⟨e, wasLive, views⟩ := same x e' isLive
    obtain ⟨editor, found, count⟩ := sole.once
    rw [found] at wasLive
    cases wasLive
    rw [views, count]
  · intro y other otherLive attached
    obtain ⟨e, wasLive, views⟩ := same y other otherLive
    exact sole.only y e wasLive (views ▸ attached)

theorem Loose.carry (loose : w.Loose v)
    (same : ∀ y e', w'.arena.get? y = some e' → ∃ e, w.arena.get? y = some e ∧ e'.views = e.views) :
    w'.Loose v := by
  intro y other otherLive attached
  obtain ⟨e, wasLive, views⟩ := same y other otherLive
  exact loose y e wasLive (views ▸ attached)

theorem views_of_outline {a a' : Arena S} (same : a'.outline = a.outline) :
    ∀ y e', a'.get? y = some e' → ∃ e, a.get? y = some e ∧ e'.views = e.views := by
  intro y e' isLive
  have outlined := Arena.outline_of_get? isLive
  rw [same] at outlined
  obtain ⟨e, wasLive, rest⟩ := Arena.get?_of_outline outlined
  exact ⟨e, wasLive, (congrArg Editor.views rest).symm⟩

theorem noticesTo_append (v : ViewId) (first second : List (Event S)) :
    noticesTo v (first ++ second) = noticesTo v first ++ noticesTo v second :=
  List.filterMap_append

theorem noticesTo_tell (v : ViewId) (views : List ViewId) (notice : Notice S) :
    noticesTo v (views.map fun u => Event.notice u notice) =
      List.replicate (views.count v) notice := by
  induction views with
  | nil => rfl
  | cons u views ih =>
    simp only [noticesTo] at ih
    simp only [noticesTo, List.map_cons, List.filterMap_cons, ih, List.count_cons, beq_iff_eq]
    split
    · next other =>
      have different : ¬ u = v := by
        intro same
        simp [same] at other
      simp [different]
    · next told =>
      split at told
      · next same =>
        cases told
        rw [if_pos same, List.replicate_succ]
      · cases told

theorem heard_tell_views (ran : tell id notice w = .ok () w') (v : ViewId) :
    w'.heard v = w.heard v ++ List.replicate
      ((((w.arena.get? id).elim [] (·.views)).filter fun u => w.views.getD u false).count v)
      notice := by
  simp only [tell, Action.modify_run] at ran
  cases ran
  simp only [heard, Array.toList_appendList, noticesTo_append, noticesTo_tell]

theorem heard_tell (ran : tell id notice w = .ok () w') (sole : w.Sole v x) (alive : w.isAlive v) :
    w'.heard v = w.heard v ++ if x = id then [notice] else [] := by
  rw [heard_tell_views ran, List.count_filter (by exact alive)]
  split
  · next same =>
    obtain ⟨editor, found, count⟩ := sole.once
    rw [← same, found, Option.elim_some, count]
    rfl
  · next different =>
    cases found : w.arena.get? id with
    | none => rfl
    | some editor =>
      have absent : v ∉ editor.views := fun attached =>
        different (sole.only id editor found attached).symm
      rw [Option.elim_some, List.count_eq_zero_of_not_mem absent]
      rfl

theorem heard_tell_loose (ran : tell id notice w = .ok () w') (loose : w.Loose v) :
    w'.heard v = w.heard v := by
  rw [heard_tell_views ran, List.count_eq_zero_of_not_mem, List.replicate_zero, List.append_nil]
  intro member
  cases found : w.arena.get? id with
  | none => simp [found] at member
  | some editor => exact loose id editor found (by simpa [found] using (List.mem_filter.1 member).1)

theorem heard_remark (lines : List String) (ran : remark lines w = .ok () w') (v : ViewId) :
    w'.heard v = w.heard v := by
  simp only [remark, Action.modify_run] at ran
  cases ran
  simp only [heard, Array.toList_appendList, noticesTo_append, List.append_right_eq_self]
  simp only [noticesTo, List.filterMap_map]
  exact List.filterMap_eq_nil_iff.2 fun _ _ => rfl

variable [Language S]

/-- Results may have changed: views are told all of them that did, and nothing else. -/
structure Reports (w w' : Workspace S) : Prop extends Refreshed w w' where
  told : ∀ v x e e', w.Sole v x → w.isAlive v → w.arena.get? x = some e →
    w'.arena.get? x = some e' →
      w'.heard v = w.heard v ++ if e'.result = e.result then [] else [.resultChanged e'.result]
  silent : ∀ v, w.Loose v → w'.heard v = w.heard v

theorem Reports.refl (w : Workspace S) : Reports w w where
  toRefreshed := .refl w
  told v x e e' _ _ found found' := by
    rw [found] at found'
    cases found'
    simp
  silent _ _ := rfl

/-- Recomputing goes upwards: deeper editors are left alone. -/
theorem recomputeWithin_below {steps m n : Nat} (forest : w.arena.links.Forest)
    (depth : w.arena.links.Depth id n) (deeper : w.arena.links.Depth x m) (lower : n < m)
    (ran : recomputeWithin steps id w = .ok () w') : w'.arena.get? x = w.arena.get? x := by
  induction steps generalizing w id n with
  | zero =>
    cases ran
    rfl
  | succ steps ih =>
    obtain ⟨place, found⟩ := depth.live
    obtain ⟨editor, isLive, rfl⟩ := Arena.get?_of_links found
    obtain ⟨r, _, ⟨_, still⟩ | ⟨journal, _, moved⟩⟩ := recomputeWithin_step forest isLive
    · rw [still steps] at ran
      cases ran
      rfl
    · have other : x ≠ id := by
        rintro rfl
        have same := depth.unique deeper
        omega
      have kept : (w.arena.setResult id r).get? x = w.arena.get? x := by
        rw [Arena.setResult, Arena.get?_modify, if_neg other]
      rw [moved steps] at ran
      cases hasParent : editor.parent with
      | none =>
        rw [hasParent] at ran
        cases ran
        exact kept
      | some p =>
        rw [hasParent] at ran
        have links := (refreshed_setResult w id r journal).links
        obtain ⟨k, rfl, above⟩ := depth.of_parent found hasParent
        exact (ih (links ▸ forest) (links ▸ above) (links ▸ deeper) (by omega) ran).trans kept

theorem Reports.after_result {r : Outcome S.Value} {journal : Array (Event S)}
    (isLive : w.arena.get? id = some editor) (changed : editor.result ≠ r)
    (told : tell id (.resultChanged r) { w with arena := w.arena.setResult id r } =
      .ok () { w with arena := w.arena.setResult id r, journal })
    (rest : Reports { w with arena := w.arena.setResult id r, journal } w')
    (spared : w'.arena.get? id = (w.arena.setResult id r).get? id) : Reports w w' := by
  have refreshed := refreshed_setResult w id r journal
  have written : (w.arena.setResult id r).get? id = some { editor with result := r } := by
    rw [Arena.setResult, Arena.get?_modify, if_pos rfl, isLive]
    rfl
  have kept : ∀ y, y ≠ id → (w.arena.setResult id r).get? y = w.arena.get? y := by
    intro y other
    rw [Arena.setResult, Arena.get?_modify, if_neg other]
  have views : ∀ y e', (w.arena.setResult id r).get? y = some e' →
      ∃ e, w.arena.get? y = some e ∧ e'.views = e.views :=
    views_of_outline refreshed.outline
  refine ⟨refreshed.trans rest.toRefreshed, ?_, ?_⟩
  · intro v x e e' sole alive was now
    have sole' : Sole { w with arena := w.arena.setResult id r } v x := by
      refine sole.carry views ?_
      by_cases here : x = id
      · subst here
        exact ⟨_, written⟩
      · exact ⟨e, (kept x here).trans was⟩
    have before := heard_tell told sole' alive
    have later := rest.told v x
    by_cases here : x = id
    · subst here
      cases isLive.symm.trans was
      cases (spared.trans written).symm.trans now
      have after := later _ _ ⟨sole'.once, sole'.only⟩ alive written (spared.trans written)
      rw [if_pos rfl, List.append_nil] at after
      rw [if_pos rfl] at before
      rw [if_neg (Ne.symm changed), after]
      exact before
    · have after := later _ _ ⟨sole'.once, sole'.only⟩ alive ((kept x here).trans was) now
      rw [if_neg here, List.append_nil] at before
      rw [after]
      exact congrArg (· ++ _) before
  · intro v loose
    have loose' : Loose { w with arena := w.arena.setResult id r } v := loose.carry views
    have before := heard_tell_loose told loose'
    exact (rest.silent v loose').trans before

theorem recomputeWithin_reports {steps n : Nat} (forest : w.arena.links.Forest)
    (depth : w.arena.links.Depth id n) (ran : recomputeWithin steps id w = .ok () w') :
    Reports w w' := by
  -- once the result of an editor is written and told, the way leads upwards and does not return
  induction steps generalizing w id n with
  | zero =>
    cases ran
    exact .refl _
  | succ steps ih =>
    obtain ⟨place, found⟩ := depth.live
    obtain ⟨editor, isLive, rfl⟩ := Arena.get?_of_links found
    obtain ⟨r, _, ⟨_, still⟩ | ⟨journal, ⟨changed, told⟩, moved⟩⟩ := recomputeWithin_step forest isLive
    · rw [still steps] at ran
      cases ran
      exact .refl _
    · have links := (refreshed_setResult w id r journal).links
      rw [moved steps] at ran
      obtain hasParent | ⟨p, hasParent⟩ := Option.eq_none_or_eq_some editor.parent
      · rw [hasParent] at ran
        cases ran
        exact .after_result isLive changed told (.refl _) rfl
      · rw [hasParent] at ran
        obtain ⟨k, rfl, above⟩ := depth.of_parent found hasParent
        exact .after_result isLive changed told (ih (links ▸ forest) (links ▸ above) ran)
          (recomputeWithin_below (links ▸ forest) (links ▸ above) (links ▸ depth) (by omega) ran)

theorem recompute_reports {editor : Editor S} (forest : w.arena.links.Forest)
    (isLive : w.arena.get? id = some editor) (ran : recompute id w = .ok () w') : Reports w w' := by
  obtain ⟨n, depth⟩ := forest.rooted (Arena.links_of_get? isLive)
  exact recomputeWithin_reports forest depth ran

/-! Changes of one editor: its views are told what happened, and then or before that all views
are told the results that changed. -/

structure Telling (w w' : Workspace S) (id : Handle) (notice : Notice S) : Prop where
  told : ∀ v x e e', w.Sole v x → w.isAlive v → w.arena.get? x = some e →
    w'.arena.get? x = some e' →
      w'.results v = w.results v ++ (if e'.result = e.result then [] else [e'.result]) ∧
      w'.signs v = w.signs v ++ (if x = id then [notice] else [])
  silent : ∀ v, w.Loose v → w'.heard v = w.heard v

omit [Language S] in
/-- Editors may have other states and parents than before, or be gone; no view was told so. -/
structure Poised (w w' : Workspace S) : Prop where
  kept : ∀ y e', w'.arena.get? y = some e' →
    ∃ e, w.arena.get? y = some e ∧ e'.views = e.views ∧ e'.result = e.result
  heard : ∀ v, w'.heard v = w.heard v
  views : w'.views = w.views

omit [Language S] in
theorem Poised.sole {e' : Editor S} (poised : Poised w w') (sole : w.Sole v x)
    (isLive : w'.arena.get? x = some e') : w'.Sole v x := by
  refine sole.carry (fun y e' isLive => ?_) ⟨e', isLive⟩
  obtain ⟨e, wasLive, views, _⟩ := poised.kept y e' isLive
  exact ⟨e, wasLive, views⟩

omit [Language S] in
theorem Poised.loose (poised : Poised w w') (loose : w.Loose v) : w'.Loose v := by
  refine loose.carry fun y e' isLive => ?_
  obtain ⟨e, wasLive, views, _⟩ := poised.kept y e' isLive
  exact ⟨e, wasLive, views⟩

omit [Language S] in
theorem Poised.alive (poised : Poised w w') (alive : w.isAlive v) : w'.isAlive v :=
  isAlive_of_eq poised.views.symm alive

omit [Language S] in
theorem arena_of_tell (ran : tell id notice w = .ok () w') :
    w'.arena = w.arena ∧ w'.views = w.views := by
  simp only [tell, Action.modify_run] at ran
  cases ran
  exact ⟨rfl, rfl⟩

variable {w₁ w₂ : Workspace S}

omit [Language S] in
theorem Poised.remarked (poised : Poised w w') (lines : List String) {journal : Array (Event S)}
    (ran : remark lines w₁ = .ok () { w₁ with journal }) (same : w₁.journal = w'.journal) :
    Poised w { w' with journal } := by
  refine ⟨poised.kept, fun v => ?_, poised.views⟩
  have heard := heard_remark lines ran v
  simp only [Workspace.heard, same] at heard
  exact heard.trans (poised.heard v)

theorem Telling.early (poised : Poised w w₁) (plain : notice.result? = none)
    (ran : tell id notice w₁ = .ok () w₂) (reports : Reports w₂ w') : Telling w w' id notice := by
  obtain ⟨arena, views⟩ := arena_of_tell ran
  constructor
  · intro v x e e' sole alive was now
    obtain ⟨e₂, live₂, _⟩ := views_of_outline reports.outline x e' now
    have live₁ : w₁.arena.get? x = some e₂ := arena ▸ live₂
    have sole₁ := poised.sole sole live₁
    have alive₁ := poised.alive alive
    have sole₂ : w₂.Sole v x := ⟨arena ▸ sole₁.once, arena ▸ sole₁.only⟩
    have alive₂ : w₂.isAlive v := isAlive_of_eq views.symm alive₁
    obtain ⟨e₀, live₀, _, result⟩ := poised.kept x e₂ live₁
    rw [was] at live₀
    cases live₀
    have first := heard_tell ran sole₁ alive₁
    have second := reports.told v x e₂ e' sole₂ alive₂ live₂ now
    rw [first, poised.heard, result] at second
    simp only [results, signs, second, List.filterMap_append, List.filter_append]
    constructor <;> split <;> split <;> simp [plain]
  · intro v loose
    have loose₁ := poised.loose loose
    have loose₂ : w₂.Loose v := by
      rw [Loose, arena]
      exact loose₁
    rw [reports.silent v loose₂, heard_tell_loose ran loose₁, poised.heard]

theorem Telling.late (poised : Poised w w₁) (plain : notice.result? = none)
    (reports : Reports w₁ w₂) (ran : tell id notice w₂ = .ok () w') : Telling w w' id notice := by
  obtain ⟨arena, _⟩ := arena_of_tell ran
  constructor
  · intro v x e e' sole alive was now
    rw [arena] at now
    obtain ⟨e₁, live₁, _⟩ := views_of_outline reports.outline x e' now
    have sole₁ := poised.sole sole live₁
    have alive₁ := poised.alive alive
    have sole₂ : w₂.Sole v x := sole₁.carry (views_of_outline reports.outline) ⟨e', now⟩
    have alive₂ : w₂.isAlive v := isAlive_of_eq reports.views.symm alive₁
    obtain ⟨e₀, live₀, _, result⟩ := poised.kept x e₁ live₁
    rw [was] at live₀
    cases live₀
    have first := reports.told v x e₁ e' sole₁ alive₁ live₁ now
    have second := heard_tell ran sole₂ alive₂
    rw [first, poised.heard, result] at second
    simp only [results, signs, second, List.filterMap_append, List.filter_append]
    constructor <;> split <;> split <;> simp [plain]
  · intro v loose
    have loose₁ := poised.loose loose
    rw [heard_tell_loose ran (loose₁.carry (views_of_outline reports.outline)), reports.silent v loose₁,
      poised.heard]

theorem Telling.remarked (telling : Telling w w' id notice) (lines : List String)
    (ran : remark lines w' = .ok () w₁) : Telling w w₁ id notice := by
  have heard := heard_remark lines ran
  have arena : w₁.arena = w'.arena := by
    simp only [remark, Action.modify_run] at ran
    cases ran
    rfl
  constructor
  · intro v x e e' sole alive was now
    rw [results, signs, heard]
    exact telling.told v x e e' sole alive was (arena ▸ now)
  · exact fun v loose => (heard v).trans (telling.silent v loose)

end Workspace

end StructureEditor
