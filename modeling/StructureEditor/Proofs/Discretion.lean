import StructureEditor.Proofs.Roots

/-! What is built aside is not heard of. New editors have no views, and above a new editor stand
new editors only, so that building and restoring one tells no view anything: only hooks may
have remarked on it. -/
namespace StructureEditor

variable {S : Signature}

namespace Arena

variable {a : Arena S} {id x : Handle} {editor : Editor S}

theorem get?_of_dispose (isLive : (a.dispose id).get? x = some editor) :
    a.get? x = some editor := by
  have kept : ∀ (steps : Nat) (id : Handle) (a : Arena S),
      (a.disposeWithin steps id).get? x = some editor → a.get? x = some editor := by
    intro steps
    induction steps with
    | zero => exact fun _ _ isLive => isLive
    | succ steps ih =>
      intro id a isLive
      simp only [disposeWithin] at isLive
      split at isLive
      · next e _ =>
        rw [get?_release] at isLive
        split at isLive
        · cases isLive
        · have all : ∀ (ids : List Handle) (a : Arena S),
              (ids.foldl (fun a c => disposeWithin steps c a) a).get? x = some editor →
                a.get? x = some editor := by
            intro ids
            induction ids with
            | nil => exact fun _ isLive => isLive
            | cons c rest inner => exact fun a isLive => ih c a (inner _ isLive)
          exact all _ a isLive
      · exact isLive
  exact kept _ id a isLive

end Arena

namespace Workspace

variable {α : Type} {w₀ w w' : Workspace S} {id x : Handle}

/-- Seen from an earlier workspace, only hooks have spoken, and what is new stands below new
editors and has no views. -/
structure Discreet (w₀ w : Workspace S) : Prop where
  journal : ∃ lines : List String, w.journal = w₀.journal ++ lines.map (Event.remark (S := S))
  apart : ∀ x e, w.arena.get? x = some e → w₀.arena.get? x = none →
    e.views = [] ∧ ∀ p, e.parent = some p → w₀.arena.get? p = none

theorem Discreet.refl (w : Workspace S) : Discreet w w where
  journal := ⟨[], by simp⟩
  apart x e isLive dead := by
    rw [dead] at isLive
    cases isLive

theorem discreet_lasting : Lasting (Discreet w₀) := by
  intro w w' beside discreet
  exact ⟨beside.journal ▸ discreet.journal, beside.arena ▸ discreet.apart⟩

theorem Discreet.change {a : Arena S} (discreet : Discreet w₀ w)
    (was : ∀ x e', a.get? x = some e' → ∃ e, w.arena.get? x = some e ∧ e'.views = e.views ∧
      (e'.parent = e.parent ∨ ∃ p, e'.parent = some p ∧ w₀.arena.get? p = none)) :
    Discreet w₀ { w with arena := a } where
  journal := discreet.journal
  apart x e' isLive dead := by
    obtain ⟨e, wasLive, views, parent⟩ := was x e' isLive
    obtain ⟨unseen, above⟩ := discreet.apart x e wasLive dead
    refine ⟨views.trans unseen, fun p hasParent => ?_⟩
    rcases parent with same | ⟨q, isNew, fresh⟩
    · exact above p (same.symm.trans hasParent)
    · cases isNew.symm.trans hasParent
      exact fresh

theorem setState_discreet (id : Handle) (state : EditorState S) (discreet : Discreet w₀ w) :
    Ensures (setState id state) w (Discreet w₀) := by
  refine .ask discreet fun _ _ => .of_ok rfl (discreet.change fun x e' isLive => ?_)
  rw [Arena.get?_setState] at isLive
  split at isLive
  · obtain ⟨e, wasLive, rfl⟩ := Option.map_eq_some_iff.1 isLive
    exact ⟨e, wasLive, rfl, .inl rfl⟩
  · exact ⟨e', isLive, rfl, .inl rfl⟩

theorem setParent_discreet (child : Handle) {p : Handle} (fresh : w₀.arena.get? p = none)
    (discreet : Discreet w₀ w) : Ensures (setParent child (some p)) w (Discreet w₀) := by
  refine .ask discreet fun _ _ => .of_ok rfl (discreet.change fun x e' isLive => ?_)
  rw [Arena.get?_setParent] at isLive
  split at isLive
  · obtain ⟨e, wasLive, rfl⟩ := Option.map_eq_some_iff.1 isLive
    exact ⟨e, wasLive, rfl, .inr ⟨p, rfl, fresh⟩⟩
  · exact ⟨e', isLive, rfl, .inl rfl⟩

theorem dispose_discreet (id : Handle) (discreet : Discreet w₀ w) :
    Ensures (dispose id) w (Discreet w₀) :=
  .of_ok (dispose_run id w) (discreet.change fun _ e' isLive =>
    ⟨e', Arena.get?_of_dispose isLive, rfl, .inl rfl⟩)

theorem remark_discreet (lines : List String) (discreet : Discreet w₀ w) :
    Ensures (remark lines) w (Discreet w₀) := by
  obtain ⟨earlier, journal⟩ := discreet.journal
  refine .of_ok rfl ⟨⟨earlier ++ lines, ?_⟩, discreet.apart⟩
  refine Array.ext' ?_
  simp only [journal, List.map_append, Array.toList_appendList, List.append_assoc]

theorem tell_discreet (notice : Notice S) (fresh : w₀.arena.get? id = none)
    (discreet : Discreet w₀ w) : Ensures (tell id notice) w (Discreet w₀) := by
  have unseen : (w.arena.get? id).elim [] (·.views) = [] := by
    cases found : w.arena.get? id with
    | none => rfl
    | some editor => exact (discreet.apart id editor found fresh).1
  have same : tell id notice w = .ok () w := by
    simp only [tell, Action.modify_run, unseen, List.filter_nil, List.map_nil, Array.appendList_nil]
  exact .of_ok same discreet

variable [Language S]

theorem recomputeWithin_discreet {steps : Nat} (fresh : w₀.arena.get? id = none)
    (discreet : Discreet w₀ w) : Ensures (recomputeWithin steps id) w (Discreet w₀) := by
  induction steps generalizing w id with
  | zero => exact .pure discreet
  | succ steps ih =>
    refine .ask discreet fun result _ => .ask discreet fun editor answered => ?_
    split
    · exact .pure discreet
    · have written : Discreet w₀ { w with arena := w.arena.setResult id result } := by
        refine discreet.change fun x e' isLive => ?_
        rw [Arena.setResult, Arena.get?_modify] at isLive
        split at isLive
        · obtain ⟨e, wasLive, rfl⟩ := Option.map_eq_some_iff.1 isLive
          exact ⟨e, wasLive, rfl, .inl rfl⟩
        · exact ⟨e', isLive, rfl, .inl rfl⟩
      refine .after_ok (show change (·.setResult id result) w = .ok () _ from rfl) ?_
      refine .then (tell_discreet _ fresh written) fun _ w' told => ?_
      -- the way goes on above a new editor, where everything is new
      cases hasParent : editor.parent with
      | none => exact .pure told
      | some p =>
        exact ih ((discreet.apart id editor (Arena.get_eq_ok_iff.1 answered) fresh).2 p hasParent) told

theorem recompute_discreet (fresh : w₀.arena.get? id = none) (discreet : Discreet w₀ w) :
    Ensures (recompute id) w (Discreet w₀) := recomputeWithin_discreet fresh discreet

theorem writeToken_discreet (text : String) (item : Option Candidate)
    (fresh : w₀.arena.get? id = none) (discreet : Discreet w₀ w) :
    Ensures (writeToken id text item false) w (Discreet w₀) :=
  .ask discreet fun _ _ => .then (setState_discreet id _ discreet) fun _ _ set =>
    .then (tell_discreet _ fresh set) fun _ _ told => recompute_discreet fresh told

theorem showText_discreet (text : String) (item : Option Candidate)
    (fresh : w₀.arena.get? id = none) (discreet : Discreet w₀ w) :
    Ensures (showText id text item) w (Discreet w₀) :=
  .ask discreet fun _ _ => .then (setState_discreet id _ discreet) fun _ _ set =>
    .then (tell_discreet _ fresh set) fun _ _ told => recompute_discreet fresh told

theorem dropContent_discreet (fresh : w₀.arena.get? id = none) (discreet : Discreet w₀ w) :
    Ensures (dropContent id) w (Discreet w₀) := by
  refine .ask discreet fun answer _ => ?_
  obtain ⟨k, display⟩ := answer
  cases display with
  | text => exact .fault discreet
  | expanded content =>
    refine .then (setState_discreet id _ discreet) fun _ w₁ set => ?_
    refine .after_ok (Action.get_run w₁) ?_
    refine .then (remark_discreet _ set) fun _ _ remarked => ?_
    refine .then (dispose_discreet content remarked) fun _ _ gone => ?_
    exact .then (recompute_discreet fresh gone) fun _ _ done => tell_discreet _ fresh done

theorem clear_discreet (fresh : w₀.arena.get? id = none) (discreet : Discreet w₀ w) :
    Ensures (clear id) w (Discreet w₀) := by
  refine .ask discreet fun expanded _ => ?_
  cases expanded with
  | true => exact dropContent_discreet fresh discreet
  | false => exact .pure discreet

theorem attachItem_discreet {list item : Handle} {index : Nat} (fresh : w₀.arena.get? list = none)
    (discreet : Discreet w₀ w) : Ensures (attachItem list index item) w (Discreet w₀) :=
  (reads_checkGap list index w).then discreet fun _ _ => .ask discreet fun _ _ =>
    .then (setState_discreet list _ discreet) fun _ _ set =>
    .then (setParent_discreet item fresh set) fun _ _ hung =>
    .then (recompute_discreet fresh hung) fun _ _ done => tell_discreet _ fresh done

theorem dropItem_discreet {list : Handle} {index : Nat} (fresh : w₀.arena.get? list = none)
    (discreet : Discreet w₀ w) : Ensures (dropItem list index) w (Discreet w₀) :=
  (reads_itemAt list index w).then discreet fun item _ => .ask discreet fun _ _ =>
    .then (setState_discreet list _ discreet) fun _ _ set =>
    .then (dispose_discreet item set) fun _ _ gone =>
    .then (recompute_discreet fresh gone) fun _ _ done => tell_discreet _ fresh done

theorem dropItems_discreet {list : Handle} (fresh : w₀.arena.get? list = none)
    (discreet : Discreet w₀ w) : Ensures (dropItems list) w (Discreet w₀) :=
  .ask discreet fun _ _ =>
    forM_ensures (fun _ _ discreet => dropItem_discreet fresh discreet) _ discreet

theorem hang_discreet {k : S.ExpanderClass} {content : Handle} (fresh : w₀.arena.get? id = none)
    (discreet : Discreet w₀ w) : Ensures (hang k id content) w (Discreet w₀) :=
  .then (setParent_discreet content fresh discreet) fun _ _ hung =>
  .then (setState_discreet id _ hung) fun _ _ set =>
  .then (recompute_discreet fresh set) fun _ _ done =>
  .then (tell_discreet _ fresh done) fun _ _ told =>
  .after_ok (Action.get_run _) <|
  .then (remark_discreet _ told) fun _ _ remarked => .pure remarked

/-- Seen from an earlier workspace, editors were added, and nothing was heard of them. -/
structure Behind (w₀ w : Workspace S) : Prop extends Discreet w₀ w where
  sound : w.arena.Sound
  grows : w₀.arena.Grows w.arena

variable {restore : Restorer S} {s : Snapshot} {context : Context} {c : ClassKey S}

theorem Behind.refl (sound : w.arena.Sound) : Behind w w := ⟨.refl w, sound, .refl _⟩

theorem behind_lasting : Lasting (Behind w₀) := by
  intro w w' beside behind
  exact ⟨discreet_lasting w w' beside behind.toDiscreet, beside.arena ▸ behind.sound,
    beside.arena ▸ behind.grows⟩

theorem Behind.added (behind : Behind w₀ w) (added : Added w w') (discreet : Discreet w₀ w') :
    Behind w₀ w' := ⟨discreet, added.sound, behind.grows.trans added.grows⟩

theorem Behind.confined (behind : Behind w₀ w) (sound₀ : w₀.arena.Sound)
    (fresh : w₀.arena.get? id = none) (changed : Confined w w' id) (discreet : Discreet w₀ w') :
    Behind w₀ w' :=
  ⟨discreet, changed.sound, behind.grows.change_fresh changed.changes sound₀.forest
    (Arena.outline_eq_none_iff.2 fresh)⟩

theorem Behind.fresh (behind : Behind w₀ w) (new : w.arena.outline x = none) :
    w₀.arena.get? x = none :=
  Arena.outline_eq_none_iff.1 (Arena.fresh_of_grows behind.grows new)

theorem Behind.fresh_child {editor : Editor S} (behind : Behind w₀ w) (sound₀ : w₀.arena.Sound)
    (fresh : w₀.arena.get? id = none) (found : w.arena.get? id = some editor)
    (member : x ∈ editor.state.children) : w₀.arena.get? x = none := by
  cases was : w₀.arena.get? x with
  | none => rfl
  | some e =>
    have isOld := Arena.outline_of_get? was
    refine absurd ?_ (behind.grows.not_within_fresh sound₀.forest
      (Arena.outline_eq_none_iff.2 fresh) isOld)
    exact behind.sound.forest.within_of_child (Arena.links_of_get? found) member

def Restorer.Discreet (restore : Restorer S) : Prop :=
  ∀ w₀ w id s, w₀.arena.Sound → Behind w₀ w → w₀.arena.get? id = none →
    Ensures (restore id s) w (Workspace.Discreet w₀)

theorem Behind.adds {a : Arena S} {root : Editor S} (behind : Behind w₀ w)
    (adds : w.arena.Adds a [id]) (found : a.get? id = some root) (free : root.parent = none) :
    Discreet w₀ { w with arena := a } where
  journal := behind.journal
  apart x e isLive dead := by
    rcases adds x e isLive with wasLive | ⟨_, unseen, member | ⟨p, hasParent, parentDead⟩⟩
    · exact behind.apart x e wasLive dead
    · obtain rfl := List.mem_singleton.1 member
      cases found.symm.trans isLive
      refine ⟨unseen, fun p hasParent => ?_⟩
      rw [free] at hasParent
      cases hasParent
    · refine ⟨unseen, fun q isParent => ?_⟩
      cases hasParent.symm.trans isParent
      exact behind.fresh (Arena.outline_eq_none_iff.2 parentDead)

theorem create_discreet (c : ClassKey S) (context : Context) (behind : Behind w₀ w) :
    Discreet w₀ { w with arena := ((Arena.create c context).run w.arena).2 } := by
  obtain ⟨root, found, free, _⟩ := (Arena.create_made c context behind.sound).root
  exact behind.adds (Arena.create_adds c context behind.sound) found free

theorem rebuildAsWith_discreet (discreet : restore.Discreet) (sound₀ : w₀.arena.Sound)
    (behind : Behind w₀ w) :
    Ensures (rebuildAsWith restore c s context) w (Discreet w₀) := by
  have built := created (w := w) (Arena.create_made c context behind.sound)
  have begun := behind.added built.toAdded (create_discreet c context behind)
  refine .after_ok (create_run c context w) (Action.Meets.bind (.attempt (.mono
    (unrecorded_ensures discreet_lasting context fun start beside _ =>
      discreet w₀ start _ s sound₀ (behind_lasting _ _ beside begun) (behind.fresh built.fresh))
    ?_ ?_)))
  · exact fun _ w' holds => .pure holds
  · intro stop w' holds
    cases stop with
    | fault f => exact holds
    | refused error =>
      exact Ensures.then (dispose_discreet _ holds) fun _ _ gone => .refuse gone

theorem rebuildWith_discreet (discreet : restore.Discreet) (sound₀ : w₀.arena.Sound)
    (behind : Behind w₀ w) :
    Ensures (rebuildWith restore s context) w (Discreet w₀) := by
  unfold rebuildWith
  split
  · exact .refuse behind.toDiscreet
  · refine Action.Meets.bind (.ask (fun registry _ => ?_) fun _ _ => behind.toDiscreet)
    cases registry.lookup _ with
    | error error => exact .refuse behind.toDiscreet
    | ok c => exact rebuildAsWith_discreet discreet sound₀ behind

theorem relocateWith_discreet (discreet : restore.Discreet) (sound₀ : w₀.arena.Sound)
    (behind : Behind w₀ w) :
    Ensures (relocateWith restore id context) w (Discreet w₀) := by
  refine .ask behind.toDiscreet fun editor _ => ?_
  split
  · exact .pure behind.toDiscreet
  · cases editor.parent with
    | some p => exact .refuse behind.toDiscreet
    | none =>
      exact .ask behind.toDiscreet fun s _ =>
        .then (rebuildAsWith_discreet discreet sound₀ behind) fun m w' holds =>
        .then (dispose_discreet id holds) fun _ _ gone => .pure gone

theorem Behind.contexts (behind : Behind w₀ w) (contexts : Contexts (Services S)) :
    Behind w₀ { w with contexts } := behind_lasting w _ ⟨rfl, rfl, rfl⟩ behind

theorem fillWith_discreet {source : Handle} (discreet : restore.Discreet)
    (sound₀ : w₀.arena.Sound) (behind : Behind w₀ w) (fresh : w₀.arena.get? id = none)
    (apart : ∀ e, w.arena.get? source = some e → e.parent = none → source ≠ id →
      ¬ w.arena.links.Within source id) :
    Ensures (fillWith restore id source) w (Discreet w₀) :=
  fillWith_rule apart (fun _ => behind.toDiscreet) fun _ _ _ _ _ =>
    (relocateWith_discreet discreet sound₀ (behind.contexts _)).mono
      (fun _ _ holds => hang_discreet fresh holds) fun _ _ holds => holds

theorem restoreStateWith_discreet {state : Display Snapshot} (safe : restore.Safe)
    (discreet : restore.Discreet) (sound₀ : w₀.arena.Sound) (behind : Behind w₀ w)
    (fresh : w₀.arena.get? id = none) :
    Ensures (restoreStateWith restore id state) w (Discreet w₀) := by
  refine restoreStateWith_rule safe behind.sound state (fun _ => behind.toDiscreet)
    (fun {text item _ _ _ _} _ ran _ _ =>
      showText_discreet text item fresh ((clear_discreet fresh behind.toDiscreet).ok_of ran))
    fun {_ k editor _} _ found _ => ?_
  have behind₁ := behind.contexts (w.scopeFor k editor.context).2
  refine Action.Meets.mono (rebuildWith_discreet discreet sound₀ behind₁)
    (fun content w₂ holds c built => ?_) fun _ _ holds _ => holds
  have behind₂ := behind₁.added built.toAdded holds
  refine Action.Meets.bind ((Action.Meets.and (clear_meets behind₂.sound)
    (clear_discreet fresh holds)).mono ?_ fun _ _ both => both.2)
  rintro _ w₃ ⟨cleared, holds⟩
  have behind₃ := behind₂.confined sound₀ fresh cleared.toConfined holds
  have apart : ¬ w₃.arena.links.Within content id := fun within =>
    built.grows.not_within_fresh behind₁.sound.forest built.fresh (Arena.outline_of_get? found)
      (cleared.within _ _ within)
  exact Ensures.then (fillWith_discreet discreet sound₀ behind₃ fresh fun _ _ _ _ => apart)
    fun _ _ holds => .pure holds

theorem restoreItemsWith_discreet {list : Handle} {element : ClassKey S} {index : Nat}
    {items : List Snapshot} {k : S.ListClass} {ids : List Handle} {editor : Editor S}
    (safe : restore.Safe) (discreet : restore.Discreet) (sound₀ : w₀.arena.Sound)
    (behind : Behind w₀ w) (fresh : w₀.arena.get? list = none)
    (found : w.arena.get? list = some editor) (held : editor.state = .list k ids)
    (inside : index ≤ ids.length) :
    Ensures (restoreItemsWith restore list element editor.context index items) w (Discreet w₀) := by
  induction items generalizing w editor ids index with
  | nil => exact .pure behind.toDiscreet
  | cons s rest ih =>
    refine Action.Meets.bind ((Action.Meets.and (rebuildAsWith_meets safe behind.sound)
      (rebuildAsWith_discreet discreet sound₀ behind)).mono ?_ fun _ _ both => both.2)
    rintro item w₁ ⟨built, holds⟩
    have behind₁ := behind.added built.toAdded holds
    obtain ⟨w₂, ran, joined⟩ := built.joins behind.sound found held inside
    have holds₂ := (attachItem_discreet fresh holds).ok_of ran
    have behind₂ := behind.confined sound₀ fresh joined.confined holds₂
    obtain ⟨editor₂, found₂, held₂, context₂⟩ := joined.live
    rw [← context₂]
    refine .after_ok ran (ih behind₂ found₂ held₂ ?_)
    rw [List.length_insertIdx_of_le_length inside]
    omega

theorem restoreParts_discreet {k : S.CompoundClass} {ids : List Handle} {editor : Editor S}
    {parts : List (Handle × Snapshot)} (safe : restore.Safe) (discreet : restore.Discreet)
    (sound₀ : w₀.arena.Sound) (behind : Behind w₀ w) (fresh : w₀.arena.get? id = none)
    (found : w.arena.get? id = some editor) (held : editor.state = .compound k ids)
    (members : ∀ part ∈ parts, part.1 ∈ ids) :
    Ensures (parts.forM fun (id, s) => restore id s) w (Discreet w₀) := by
  induction parts generalizing w editor with
  | nil => exact .pure behind.toDiscreet
  | cons part rest ih =>
    have member := members part (by simp)
    have isNew := behind.fresh_child sound₀ fresh found
      (show part.1 ∈ editor.state.children from held ▸ member)
    refine Action.Meets.bind ((Action.Meets.and (safe w part.1 part.2 behind.sound)
      (discreet w₀ w part.1 part.2 sound₀ behind isNew)).mono ?_ fun _ _ both => both.2)
    rintro _ w₁ ⟨changed, holds⟩
    obtain ⟨whole, editor', found', held', _⟩ := changed.part behind.sound found held member
    exact ih (behind.confined sound₀ fresh whole holds) found' held'
      fun p inside => members p (by simp [inside])

theorem restoreWith_discreet (safe : restore.Safe) (discreet : restore.Discreet) :
    Restorer.Discreet (restoreWith restore) := by
  intro w₀ w id s sound₀ behind fresh
  refine restoreWith_rule behind.sound (fun _ => behind.toDiscreet) ?_ ?_ ?_ ?_
  · rintro name text itemClass item k old oldItem rfl -
    exact writeToken_discreet text _ fresh behind.toDiscreet
  · exact fun _ _ _ _ _ => restoreStateWith_discreet safe discreet sound₀ behind fresh
  · rintro name components k ids editor rfl found state -
    exact restoreParts_discreet safe discreet sound₀ behind fresh found state
      fun part inside => (List.of_mem_zip inside).1
  · rintro name items k ids editor w₁ rfl - ran emptied found state
    have behind₁ := behind.confined sound₀ fresh emptied
      ((dropItems_discreet fresh behind.toDiscreet).ok_of ran)
    exact restoreItemsWith_discreet safe discreet sound₀ behind₁ fresh found state (by simp)

theorem restoreWithin_discreet (levels : Nat) :
    (restoreWithin levels : Restorer S).Discreet := by
  induction levels with
  | zero => exact fun w₀ w id s _ behind _ => .refuse behind.toDiscreet
  | succ levels ih => exact restoreWith_discreet (restoreWithin_safe levels) ih

theorem restore_discreet : Restorer.Discreet (Workspace.restore : Restorer S) :=
  fun w₀ w id s => restoreWithin_discreet s.depth w₀ w id s

end Workspace

end StructureEditor
