import StructureEditor.Proofs.Operations.Frame

/-! Which roots an action leaves. In a forest everything is below a root, so that an action that
adds editors at most and no root among them has added nothing. -/
namespace StructureEditor

variable {S : Signature}

namespace Arena

variable {a a' a'' : Arena S} {id x : Handle} {editor : Editor S}

def IsRoot (a : Arena S) (x : Handle) : Prop :=
  ∃ editor, a.outline x = some editor ∧ editor.parent = none

def NoNewRoots (a a' : Arena S) : Prop := ∀ x, a'.IsRoot x → a.IsRoot x

def OneNewRoot (a a' : Arena S) (id : Handle) : Prop := ∀ x, a'.IsRoot x → x = id ∨ a.IsRoot x

theorem NoNewRoots.refl (a : Arena S) : a.NoNewRoots a := fun _ root => root

theorem NoNewRoots.trans (first : a.NoNewRoots a') (second : a'.NoNewRoots a'') :
    a.NoNewRoots a'' := fun x root => first x (second x root)

theorem OneNewRoot.trans (first : a.OneNewRoot a' id) (second : a'.NoNewRoots a'') :
    a.OneNewRoot a'' id := fun x root => first x (second x root)

theorem isRoot_of_get? (found : a.get? x = some editor) (free : editor.parent = none) :
    a.IsRoot x := ⟨editor.blank, outline_of_get? found, free⟩

theorem not_isRoot_of_none (gone : a.outline x = none) : ¬ a.IsRoot x := by
  rintro ⟨e, isLive, _⟩
  rw [gone] at isLive
  cases isLive

theorem not_isRoot_of_parent {p : Handle} (isLive : a.outline x = some editor)
    (hasParent : editor.parent = some p) : ¬ a.IsRoot x := by
  rintro ⟨e, isLive', free⟩
  cases isLive.symm.trans isLive'
  rw [hasParent] at free
  cases free

theorem outline_eq_of_roots (grows : a.Grows a') (noNew : a.NoNewRoots a')
    (forest : a.links.Forest) (forest' : a'.links.Forest) : a'.outline = a.outline := by
  have was : ∀ {x n}, a'.links.Depth x n → ∃ e, a.outline x = some e := by
    intro x n depth
    induction depth with
    | root found free =>
      obtain ⟨e, isLive, rfl⟩ := outline_of_links found
      obtain ⟨e', wasLive, _⟩ := noNew _ ⟨e, isLive, free⟩
      exact ⟨e', wasLive⟩
    | step found hasParent _ ih =>
      -- the parent was there with the same children
      obtain ⟨above, wasAbove⟩ := ih
      obtain ⟨place, placed, member⟩ := forest'.listed found hasParent
      rw [links_of_outline (grows _ above wasAbove)] at placed
      cases placed
      obtain ⟨child, childPlaced, _⟩ := forest.linked (links_of_outline wasAbove) member
      obtain ⟨e, wasLive, _⟩ := outline_of_links childPlaced
      exact ⟨e, wasLive⟩
  funext x
  cases found : a'.outline x with
  | none =>
    cases wasLive : a.outline x with
    | none => rfl
    | some e =>
      rw [grows x e wasLive] at found
      cases found
  | some e' =>
    obtain ⟨n, depth⟩ := forest'.rooted (links_of_outline found)
    obtain ⟨e, wasLive⟩ := was depth
    rw [wasLive, ← found, grows x e wasLive]

theorem Sound.roots_dispose [Language S] (sound : a.Sound) (found : a.get? id = some editor)
    (free : editor.parent = none) (root : (a.dispose id).IsRoot x) : x ≠ id ∧ a.IsRoot x := by
  obtain ⟨_, gone, kept⟩ := sound_dispose_root sound found free
  obtain ⟨e, isLive, isFree⟩ := root
  by_cases within : a.links.Within id x
  · rw [outline_eq_none_iff.2 (gone x within)] at isLive
    cases isLive
  · refine ⟨?_, e, ?_, isFree⟩
    · rintro rfl
      exact within .here
    · simpa only [outline, kept x within] using isLive

variable [Language S] {c : ClassKey S} {context : Context}

omit [Language S] in
theorem shows_of_subtree {d : Sketch S} (forest : a.links.Forest) (found : a.get? x = some editor)
    (same : ∀ y e, a.links.Within x y → a.outline y = some e → a'.outline y = some e)
    (seen : a.Shows x d) : a'.Shows x d := by
  refine seen.transfer forest fun y within => ?_
  obtain ⟨place, placed⟩ := within.live (links_of_get? found)
  obtain ⟨e, isLive, _⟩ := outline_of_links placed
  exact state?_congr ((same y e within isLive).trans isLive.symm)

theorem get?_of_subtree (sound : a.Sound) (sound' : a'.Sound) (found : a.get? x = some editor)
    (same : ∀ y e, a.links.Within x y → a.outline y = some e → a'.outline y = some e) :
    a'.get? x = some editor := by
  obtain ⟨editor', found', blank⟩ := get?_of_outline (same x _ .here (outline_of_get? found))
  obtain ⟨d, seen⟩ := exists_shows sound.forest found
  have seen' : a'.Shows x d := shows_of_subtree sound.forest found same seen
  have result := result_of_shows sound.settled seen
  have result' := result_of_shows sound'.settled seen'
  rw [result_of_get? found] at result
  rw [result_of_get? found', ← result] at result'
  have whole : editor' = { editor'.blank with result := editor'.result } := rfl
  rw [found', whole, blank, Except.ok.inj result']
  rfl

theorem get?_of_grows (sound : a.Sound) (sound' : a'.Sound) (grows : a.Grows a')
    (found : a.get? x = some editor) : a'.get? x = some editor :=
  get?_of_subtree sound sound' found fun y e _ isLive => grows y e isLive

theorem get?_of_outline_eq (sound : a.Sound) (sound' : a'.Sound) (same : a'.outline = a.outline)
    (x : Handle) : a'.get? x = a.get? x := by
  cases found : a.get? x with
  | none =>
    refine outline_eq_none_iff.1 ?_
    rw [same]
    exact outline_eq_none_iff.2 found
  | some editor =>
    refine get?_of_grows sound sound' (fun y e isLive => ?_) found
    rw [same]
    exact isLive

/-- Only new editors came, without views; the given ones are roots, and the others stand below
new ones. -/
def Adds (a a' : Arena S) (ids : List Handle) : Prop :=
  ∀ x e, a'.get? x = some e → a.get? x = some e ∨
    (a.get? x = none ∧ e.views = [] ∧ (x ∈ ids ∨ ∃ p, e.parent = some p ∧ a.get? p = none))

omit [Language S] in
theorem Adds.append {ids ids' : List Handle} (first : a.Adds a' ids) (second : a'.Adds a'' ids')
    (kept : ∀ x e, a.get? x = some e → a'.get? x = some e) : a.Adds a'' (ids ++ ids') := by
  intro x e isLive
  rcases second x e isLive with wasLive | ⟨dead, views, place⟩
  · rcases first x e wasLive with wasLive | ⟨dead, views, place⟩
    · exact .inl wasLive
    · exact .inr ⟨dead, views, place.imp_left fun member => by simp [member]⟩
  · refine .inr ⟨dead_of_kept kept dead, views, ?_⟩
    rcases place with member | ⟨p, hasParent, parentDead⟩
    · exact .inl (by simp [member])
    · exact .inr ⟨p, hasParent, dead_of_kept kept parentDead⟩

theorem adds_leaf {state : EditorState S} (context : Context) (sound : a.Sound)
    (leaf : state.children = []) :
    a.Adds (a.insert context state).2 [(a.insert context state).1] := by
  obtain ⟨_, fresh, ⟨r, new⟩, _, others⟩ :=
    insert_spec context state sound (by simp [leaf]) (by simp [leaf])
  intro x e isLive
  by_cases here : x = (a.insert context state).1
  · subst here
    cases new.symm.trans isLive
    exact .inr ⟨fresh, rfl, .inl (by simp)⟩
  · rw [others x here (by simp [leaf])] at isLive
    exact .inl isLive

theorem MadeAll.adds {ids : List Handle} {k : S.CompoundClass}
    (made : MadeAll a a' ids (Language.compound k).components context) (adds : a.Adds a' ids) :
    a.Adds (a'.insert context (.compound k ids)).2 [(a'.insert context (.compound k ids)).1] := by
  obtain ⟨_, fresh, ⟨r, new⟩, adopted, others⟩ := insert_spec context (.compound k ids) made.sound
    made.kids made.distinct
  have newFresh : a.get? (a'.insert context (.compound k ids)).1 = none :=
    dead_of_kept made.kept fresh
  intro x e isLive
  by_cases here : x = (a'.insert context (.compound k ids)).1
  · subst here
    cases new.symm.trans isLive
    exact .inr ⟨newFresh, rfl, .inl (by simp)⟩
  · by_cases isPart : x ∈ ids
    · obtain ⟨child, found, _, _, views⟩ := made.roots x isPart
      cases (adopted x isPart child found).symm.trans isLive
      exact .inr ⟨made.fresh x isPart, views, .inr ⟨_, rfl, newFresh⟩⟩
    · rw [others x here isPart] at isLive
      rcases adds x e isLive with wasLive | ⟨dead, views, member | place⟩
      · exact .inl wasLive
      · exact absurd member isPart
      · exact .inr ⟨dead, views, .inr place⟩

theorem adds_mapM {create : ClassKey S → StateM (Arena S) Handle} {cs : List (ClassKey S)}
    (each : ∀ c ∈ cs, ∀ a : Arena S, a.Sound →
      Made a ((create c).run a).2 ((create c).run a).1 c context ∧
        a.Adds ((create c).run a).2 [((create c).run a).1]) (sound : a.Sound) :
    a.Adds ((cs.mapM create).run a).2 ((cs.mapM create).run a).1 := by
  induction cs generalizing a with
  | nil => exact fun x e isLive => .inl isLive
  | cons c cs ih =>
    obtain ⟨first, adds⟩ := each c (by simp) a sound
    have rest := ih (fun d member => each d (by simp [member])) first.sound
    rw [mapM_cons_run]
    exact adds.append rest first.kept

theorem create_adds (c : ClassKey S) (context : Context) (sound : a.Sound) :
    a.Adds ((create c context).run a).2 [((create c context).run a).1] := by
  induction c using ClassKey.induct generalizing a with
  | token k =>
    rw [create_token_eq]
    exact adds_leaf context sound rfl
  | expander k =>
    rw [create_expander_eq]
    exact adds_leaf context sound rfl
  | list k =>
    rw [create_list_eq]
    exact adds_leaf context sound rfl
  | compound k ih =>
    have each := fun d (member : d ∈ (Language.compound k).components) (a : Arena S)
      (sound : a.Sound) => create_made d context sound
    rw [create_compound_eq]
    exact (madeAll_mapM each sound).adds
      (adds_mapM (fun d member a sound => ⟨each d member a sound, ih d member sound⟩) sound)

omit [Language S] in
theorem Adds.oneNewRoot (adds : a.Adds a' [id]) : a.OneNewRoot a' id := by
  rintro x ⟨rest, outlined, free⟩
  obtain ⟨e, isLive, rfl⟩ := get?_of_outline outlined
  rcases adds x e isLive with wasLive | ⟨_, _, member | ⟨p, hasParent, _⟩⟩
  · exact .inr (isRoot_of_get? wasLive free)
  · exact .inl (List.mem_singleton.1 member)
  · cases hasParent.symm.trans free

end Arena

namespace Workspace

variable [Language S] {w w' w'' : Workspace S} {id x c : Handle} {editor : Editor S}
  {state : EditorState S}

theorem Rewrites.noNewRoots {apart : Handle → Prop} (done : Rewrites w w' id state apart)
    (found : w.arena.get? id = some editor) (hidden : ∀ x, apart x → ¬ w'.arena.IsRoot x) :
    w.arena.NoNewRoots w'.arena := by
  intro x root
  by_cases here : x = id
  · subst here
    obtain ⟨e, isLive, free⟩ := root
    have outlined := Arena.outline_of_get? found
    rw [done.here _ outlined] at isLive
    cases isLive
    exact ⟨_, outlined, free⟩
  · have same := done.kept x here fun isApart => hidden x isApart root
    obtain ⟨e, isLive, free⟩ := root
    exact ⟨e, same.symm.trans isLive, free⟩

theorem Rewrites.hides {child : Editor S} {p : Handle} {P : Handle → Prop}
    (done : Rewrites w w' id state (· = c)) (found : w.arena.get? id = some editor)
    (linked : w'.arena.outline c = some { child with parent := some p })
    (one : ∀ x, w.arena.IsRoot x → x = c ∨ P x) (x : Handle) (root : w'.arena.IsRoot x) : P x := by
  have hidden : ¬ w'.arena.IsRoot c := Arena.not_isRoot_of_parent linked rfl
  have was := done.noNewRoots found (by rintro _ rfl; exact hidden) x root
  rcases one x was with rfl | other
  · exact absurd root hidden
  · exact other

theorem clear_roots (sound : w.arena.Sound) (ran : clear id w = .ok () w') :
    w.arena.NoNewRoots w'.arena := by
  cases answered : w.arena.isExpanded id with
  | error error =>
    have asked : ask (·.isExpanded id) w = .error (.refused error) w := Action.ask_run_error answered
    rw [clear, Action.bind_run_error _ asked] at ran
    cases ran
  | ok expanded =>
    obtain ⟨k, display, held, rfl⟩ := Arena.isExpanded_eq_ok_iff.1 answered
    have asked : ask (·.isExpanded id) w = .ok display.isExpanded w := ask_run answered
    rw [clear, Action.bind_run_ok _ asked] at ran
    cases display with
    | text text item =>
      cases ran
      exact .refl _
    | expanded content =>
      obtain ⟨editor, found, _⟩ := Arena.get?_of_state? held
      obtain ⟨_, dropped, done, gone⟩ := dropContent_run sound held
      cases dropped.symm.trans ran
      exact done.noNewRoots found fun x within => Arena.not_isRoot_of_none (gone x within)

theorem dropItem_roots {list : Handle} {index : Nat} (sound : w.arena.Sound)
    (ran : dropItem list index w = .ok () w') :
    w'.arena.Sound ∧ w.arena.NoNewRoots w'.arena := by
  obtain ⟨_, _, _, _, held, _, ran', done, gone⟩ | ⟨_, refused⟩ := dropItem_cases list index sound
  · obtain ⟨editor, found, _⟩ := Arena.get?_of_state? held
    cases ran.symm.trans ran'
    exact ⟨done.sound, done.noNewRoots found fun x within =>
      Arena.not_isRoot_of_none (gone x within)⟩
  · cases ran.symm.trans refused

theorem dropItems_roots {list : Handle} (sound : w.arena.Sound)
    (ran : dropItems list w = .ok () w') : w.arena.NoNewRoots w'.arena := by
  cases answered : w.arena.items list with
  | error error =>
    have asked : ask (·.items list) w = .error (.refused error) w := Action.ask_run_error answered
    rw [dropItems, Action.bind_run_error _ asked] at ran
    cases ran
  | ok ids =>
    have asked : ask (·.items list) w = .ok ids w := ask_run answered
    rw [dropItems, Action.bind_run_ok _ asked] at ran
    clear answered asked
    generalize (List.range ids.length).reverse = indices at ran
    induction indices generalizing w with
    | nil =>
      cases ran
      exact .refl _
    | cons index rest ih =>
      cases dropped : dropItem list index w with
      | error stop w₁ =>
        have stopped : (index :: rest).forM (dropItem list) w = .error stop w₁ :=
          Action.bind_run_error _ dropped
        cases stopped.symm.trans ran
      | ok _ w₁ =>
        obtain ⟨sound₁, first⟩ := dropItem_roots sound dropped
        rw [Action.forM_run_ok rest dropped] at ran
        exact first.trans (ih sound₁ ran)

end Workspace

end StructureEditor
