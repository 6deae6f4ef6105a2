import StructureEditor.Proofs.Settling
import StructureEditor.Proofs.SlotNumbers

/-! Sound arenas: a forest with an exact free list in which every cached result is up to date
and the parts of compounds and lists live in the context of the whole. Each elementary
change of the arena leaves at most one editor out of date. -/
namespace StructureEditor

variable {S : Signature}

def EditorState.sharesContext : EditorState S → Bool
  | .compound .. | .list .. => true
  | .token .. | .expander .. => false

namespace Arena

variable {a b : Arena S} {id x c : Handle} {editor : Editor S}

def Shared (a : Arena S) : Prop :=
  ∀ x editor, a.get? x = some editor → editor.state.sharesContext = true →
    ∀ c ∈ editor.state.children, ∀ child, a.get? c = some child → child.context = editor.context

theorem Shared.congr (shared : a.Shared) (same : b.outline = a.outline) : b.Shared := by
  have was : ∀ {z e}, b.get? z = some e → ∃ e', a.get? z = some e' ∧ e'.blank = e.blank := by
    intro z e isLive
    have outlined := outline_of_get? isLive
    rw [same] at outlined
    exact get?_of_outline outlined
  intro x editor isLive sharing c member child childLive
  obtain ⟨editor', isLive', blank⟩ := was isLive
  obtain ⟨child', childLive', childBlank⟩ := was childLive
  have state : editor'.blank.state = editor.blank.state := by rw [blank]
  have context : editor'.blank.context = editor.blank.context := by rw [blank]
  have childContext : child'.blank.context = child.blank.context := by rw [childBlank]
  change editor'.state = editor.state at state
  change editor'.context = editor.context at context
  change child'.context = child.context at childContext
  rw [← childContext, ← context]
  exact shared x editor' isLive' (state ▸ sharing) c (state ▸ member) child' childLive'

variable [Language S]

/-- Sound up to the result of one editor. -/
structure SoundBut (a : Arena S) (id : Handle) : Prop where
  exact : a.Exact
  forest : a.links.Forest
  shared : a.Shared
  settled : ∀ x, x ≠ id → a.SettledAt x

structure Sound (a : Arena S) : Prop where
  exact : a.Exact
  forest : a.links.Forest
  shared : a.Shared
  settled : ∀ x, a.SettledAt x

theorem sound_empty : ({} : Arena S).Sound := by
  have empty : ∀ x, ({} : Arena S).get? x = none := fun x => by simp [get?]
  have unlinked : ∀ x, ({} : Arena S).links x = none := fun x => by simp [links, empty]
  refine ⟨by simp [Exact], ⟨?_, ?_, ?_, ?_⟩, ?_, ?_⟩
  · intro x c place found
    rw [unlinked] at found
    cases found
  · intro x p place found
    rw [unlinked] at found
    cases found
  · intro x place found
    rw [unlinked] at found
    cases found
  · intro x place found
    rw [unlinked] at found
    cases found
  · intro x editor found
    rw [empty] at found
    cases found
  · intro x editor found
    rw [empty] at found
    cases found

omit [Language S] in
theorem get?_setState (id : Handle) (state : EditorState S) (a : Arena S) (x : Handle) :
    (a.setState id state).get? x =
      if x = id then (a.get? x).map fun editor => { editor with state } else a.get? x :=
  get?_modify id _ a x

omit [Language S] in
theorem get?_setParent (parent : Option Handle) (child : Handle) (a : Arena S) (x : Handle) :
    (a.setParent parent child).get? x =
      if x = child then (a.get? x).map fun editor => { editor with parent } else a.get? x :=
  get?_modify child _ a x

omit [Language S] in
theorem links_of_same (same : b.get? x = a.get? x) : b.links x = a.links x := by
  simp only [links, same]

/-- At most one editor is out of date where the others have the context, the result and the state
that they had, and the one, if it was there before, has its context and its result. -/
theorem soundBut_of_kept (sound : a.Sound) (exact : b.Exact) (forest : b.links.Forest)
    (kept : ∀ {y e'}, b.get? y = some e' → y ≠ id → ∃ e, a.get? y = some e ∧
      e'.context = e.context ∧ e'.result = e.result ∧ e'.state = e.state)
    (here : ∀ {e' e}, b.get? id = some e' → a.get? id = some e →
      e'.context = e.context ∧ e'.result = e.result)
    (shares : ∀ {e'}, b.get? id = some e' → e'.state.sharesContext = true →
      ∀ k ∈ e'.state.children, ∀ child, a.get? k = some child → child.context = e'.context) :
    b.SoundBut id := by
  have still : ∀ {k e' e}, b.get? k = some e' → a.get? k = some e →
      e'.context = e.context ∧ e'.result = e.result := by
    intro k e' e isLive was
    by_cases isOne : k = id
    · subst isOne
      exact here isLive was
    · obtain ⟨_, was', context, result, _⟩ := kept isLive isOne
      cases was.symm.trans was'
      exact ⟨context, result⟩
  refine ⟨exact, forest, ?_, ?_⟩
  · intro y e' isLive sharing k member child' childLive
    by_cases isOne : y = id
    · subst isOne
      have other : k ≠ y := by
        rintro rfl
        exact forest.not_within_of_child (links_of_get? isLive) member .here
      obtain ⟨child, childWas, context, _⟩ := kept childLive other
      exact context.trans (shares isLive sharing k member child childWas)
    · obtain ⟨e, was, context, _, state⟩ := kept isLive isOne
      rw [state] at sharing member
      obtain ⟨_, linked, _⟩ := sound.forest.linked (links_of_get? was) member
      obtain ⟨child, childWas, _⟩ := get?_of_links linked
      rw [(still childLive childWas).1, context]
      exact sound.shared y e was sharing k member child childWas
  · intro y notOne e' isLive
    obtain ⟨e, was, _, result, state⟩ := kept isLive notOne
    rw [state, result, yields_congr fun k member => ?_]
    · exact sound.settled y e was
    · obtain ⟨_, linked, _⟩ := sound.forest.linked (links_of_get? was) member
      obtain ⟨child, childWas, _⟩ := get?_of_links linked
      obtain ⟨_, linked', _⟩ := forest.linked (links_of_get? isLive) (state ▸ member)
      obtain ⟨child', childLive, _⟩ := get?_of_links linked'
      rw [result_of_get? childLive, result_of_get? childWas, (still childLive childWas).2]

omit [Language S] in
theorem links_setState {state : EditorState S} (found : a.get? id = some editor)
    (children : state.children = editor.state.children) :
    (a.setState id state).links = a.links := by
  funext x
  by_cases same : x = id
  · subst same
    have here : (a.setState x state).get? x = some { editor with state } := by
      simp [get?_setState, found]
    rw [links_of_get? here, links_of_get? found]
    simp only [Editor.place, children]
  · exact links_of_same ((get?_setState ..).trans (if_neg same))

theorem soundBut_setState {state : EditorState S} (sound : a.Sound)
    (found : a.get? id = some editor) (leaf : editor.state.children = [])
    (still : state.children = []) : (a.setState id state).SoundBut id := by
  have other : ∀ {x}, x ≠ id → (a.setState id state).get? x = a.get? x := by
    intro x different
    rw [get?_setState, if_neg different]
  have here : (a.setState id state).get? id = some { editor with state } := by
    simp [get?_setState, found]
  have links : (a.setState id state).links = a.links :=
    links_setState found (still.trans leaf.symm)
  refine soundBut_of_kept sound (exact_modify sound.exact id _) (links ▸ sound.forest) ?_ ?_ ?_
  · intro y e' isLive different
    rw [other different] at isLive
    exact ⟨e', isLive, rfl, rfl, rfl⟩
  · intro e' e isLive was
    cases isLive.symm.trans here
    cases was.symm.trans found
    exact ⟨rfl, rfl⟩
  · intro e' isLive _ k member
    cases isLive.symm.trans here
    rw [still] at member
    cases member

omit [Language S] in
theorem cut_spec {state : EditorState S} (forest : a.links.Forest)
    (found : a.get? id = some editor) (order : editor.state.children.Perm (c :: state.children)) :
    (∀ y, a.links.Within c y → ((a.setState id state).dispose c).get? y = none) ∧
    (∀ y, ¬ a.links.Within c y → y ≠ id → ((a.setState id state).dispose c).get? y = a.get? y) ∧
    ((a.setState id state).dispose c).get? id = some { editor with state } := by
  have member : c ∈ editor.state.children := order.mem_iff.2 (by simp)
  obtain ⟨place, childFound, _⟩ := forest.linked (links_of_get? found) member
  obtain ⟨child, childLive, _⟩ := get?_of_links childFound
  have above : ¬ a.links.Within c id := forest.not_within_of_child (links_of_get? found) member
  obtain ⟨gone, kept⟩ := get?_dispose (a := a.setState id state) forest childLive
    (size_slots_modify id _ a) fun y within => by
      rw [get?_setState, if_neg]
      rintro rfl
      exact above within
  refine ⟨gone, fun y outside different => ?_, ?_⟩
  · rw [kept y outside, get?_setState, if_neg different]
  · rw [kept id above, get?_setState, if_pos rfl, found]
    rfl

omit [Language S] in
theorem unlisted_elsewhere {y : Handle} {e : Editor S} (forest : a.links.Forest)
    (found : a.get? id = some editor) (member : c ∈ editor.state.children)
    (isLive : a.get? y = some e) (different : y ≠ id) : c ∉ e.state.children := by
  intro inside
  obtain ⟨place, childFound, hasParent⟩ := forest.linked (links_of_get? found) member
  obtain ⟨place', childFound', hasParent'⟩ := forest.linked (links_of_get? isLive) inside
  rw [childFound] at childFound'
  cases childFound'
  rw [hasParent] at hasParent'
  exact different (Option.some.inj hasParent').symm

omit [Language S] in
theorem unlisted_of_root {y : Handle} {e : Editor S} (forest : a.links.Forest)
    (found : a.get? id = some editor) (isRoot : editor.parent = none)
    (isLive : a.get? y = some e) : id ∉ e.state.children := by
  intro inside
  obtain ⟨place, placeFound, hasParent⟩ := forest.linked (links_of_get? isLive) inside
  rw [links_of_get? found] at placeFound
  cases placeFound
  rw [show editor.place.parent = editor.parent from rfl, isRoot] at hasParent
  cases hasParent

omit [Language S] in
theorem remaining_of_perm {kids rest : List Handle} (order : kids.Perm (c :: rest))
    (distinct : kids.Nodup) : rest.Nodup ∧ ∀ z, z ∈ rest ↔ z ∈ kids ∧ z ≠ c := by
  obtain ⟨unlisted, nodup⟩ := List.nodup_cons.1 (order.nodup_iff.1 distinct)
  refine ⟨nodup, fun z => ?_⟩
  rw [order.mem_iff, List.mem_cons]
  constructor
  · intro inside
    refine ⟨Or.inr inside, ?_⟩
    rintro rfl
    exact unlisted inside
  · rintro ⟨same | inside, other⟩
    · exact absurd same other
    · exact inside

omit [Language S] in
theorem forest_cut {state : EditorState S} (forest : a.links.Forest)
    (found : a.get? id = some editor) (order : editor.state.children.Perm (c :: state.children)) :
    ((a.setState id state).dispose c).links.Forest := by
  obtain ⟨gone, kept, here⟩ := cut_spec forest found order
  have place := links_of_get? found
  have member : c ∈ editor.state.children := order.mem_iff.2 (by simp)
  obtain ⟨_, childFound, _⟩ := forest.linked place member
  obtain ⟨nodup, listed⟩ := remaining_of_perm order (forest.distinct place)
  refine forest.cut (c := c) ?_ ?_ ?_
  · exact fun y within => links_eq_none_iff.2 (gone y within)
  · intro y yPlace yFound outside
    obtain ⟨e, isLive, rfl⟩ := get?_of_links yFound
    by_cases same : y = id
    · subst same
      rw [found] at isLive
      cases isLive
      exact ⟨_, links_of_get? here, rfl, nodup, listed⟩
    · refine ⟨e.place, (links_of_same (kept y outside same)).trans yFound, rfl,
        forest.distinct yFound, fun z => ⟨fun inside => ⟨inside, ?_⟩, fun both => both.1⟩⟩
      rintro rfl
      exact unlisted_elsewhere forest found member isLive same inside
  · intro y dead
    have different : y ≠ id := by
      rintro rfl
      rw [place] at dead
      cases dead
    exact (links_of_same (kept y (Links.not_within_vacant childFound dead) different)).trans dead

theorem soundBut_cut {state : EditorState S} (sound : a.Sound) (found : a.get? id = some editor)
    (order : editor.state.children.Perm (c :: state.children))
    (shares : state.sharesContext = true → editor.state.sharesContext = true) :
    ((a.setState id state).dispose c).SoundBut id := by
  obtain ⟨gone, kept, here⟩ := cut_spec sound.forest found order
  refine soundBut_of_kept sound (exact_disposeWithin _ _ (exact_modify sound.exact id _))
    (forest_cut sound.forest found order) ?_ ?_ ?_
  · intro y e' isLive different
    have outside : ¬ a.links.Within c y := by
      intro within
      rw [gone y within] at isLive
      cases isLive
    exact ⟨e', (kept y outside different).symm.trans isLive, rfl, rfl, rfl⟩
  · intro e' e isLive was
    cases isLive.symm.trans here
    cases was.symm.trans found
    exact ⟨rfl, rfl⟩
  · intro e' isLive sharing k member
    cases isLive.symm.trans here
    exact sound.shared id editor found (shares sharing) k (order.mem_iff.2 (.tail c member))

theorem sound_dispose_root (sound : a.Sound) (found : a.get? id = some editor)
    (isRoot : editor.parent = none) :
    (a.dispose id).Sound ∧ (∀ y, a.links.Within id y → (a.dispose id).get? y = none) ∧
      ∀ y, ¬ a.links.Within id y → (a.dispose id).get? y = a.get? y := by
  obtain ⟨gone, kept⟩ := get?_dispose sound.forest found rfl fun y _ => rfl
  have dead : ∀ {e}, (a.dispose id).get? id ≠ some e := by
    intro e isLive
    rw [gone id .here] at isLive
    cases isLive
  have forest : (a.dispose id).links.Forest := by
    refine sound.forest.cut (c := id) ?_ ?_ ?_
    · exact fun y within => links_eq_none_iff.2 (gone y within)
    · intro y place yFound outside
      obtain ⟨e, isLive, rfl⟩ := get?_of_links yFound
      refine ⟨e.place, (links_of_same (kept y outside)).trans yFound, rfl,
        sound.forest.distinct yFound, fun z => ⟨fun inside => ⟨inside, ?_⟩, fun both => both.1⟩⟩
      rintro rfl
      exact unlisted_of_root sound.forest found isRoot isLive inside
    · exact fun y vacant => (links_of_same (kept y
        (Links.not_within_vacant (links_of_get? found) vacant))).trans vacant
  have almost : (a.dispose id).SoundBut id := by
    refine soundBut_of_kept sound (exact_disposeWithin _ _ sound.exact) forest ?_
      (fun isLive => absurd isLive dead) (fun isLive => absurd isLive dead)
    intro y e' isLive _
    have outside : ¬ a.links.Within id y := by
      intro within
      rw [gone y within] at isLive
      cases isLive
    exact ⟨e', (kept y outside).symm.trans isLive, rfl, rfl, rfl⟩
  refine ⟨⟨almost.exact, almost.forest, almost.shared, fun y => ?_⟩, gone, kept⟩
  by_cases same : y = id
  · subst same
    exact fun e isLive => absurd isLive dead
  · exact almost.settled y same

theorem soundBut_link {state : EditorState S} {child : Editor S} (sound : a.Sound)
    (found : a.get? id = some editor) (root : a.get? c = some child)
    (free : child.parent = none) (apart : ¬ a.links.Within c id)
    (order : state.children.Perm (c :: editor.state.children))
    (shares : state.sharesContext = true →
      editor.state.sharesContext = true ∧ child.context = editor.context)
    (exact : b.Exact) (atParent : b.get? id = some { editor with state })
    (atChild : b.get? c = some { child with parent := some id })
    (others : ∀ y, y ≠ id → y ≠ c → b.get? y = a.get? y) : b.SoundBut id := by
  have forest : b.links.Forest := sound.forest.link ⟨links_of_get? found, links_of_get? root, free,
    apart, order, links_of_get? atParent, links_of_get? atChild,
    fun y isParent isChild => links_of_same (others y isParent isChild)⟩
  refine soundBut_of_kept sound exact forest ?_ ?_ ?_
  · intro y e' isLive notParent
    by_cases isChild : y = c
    · subst isChild
      cases isLive.symm.trans atChild
      exact ⟨child, root, rfl, rfl, rfl⟩
    · exact ⟨e', (others y notParent isChild).symm.trans isLive, rfl, rfl, rfl⟩
  · intro e' e isLive was
    cases isLive.symm.trans atParent
    cases was.symm.trans found
    exact ⟨rfl, rfl⟩
  · intro e' isLive sharing k member k' kWas
    cases isLive.symm.trans atParent
    obtain ⟨shared, sameContext⟩ := shares sharing
    rcases List.mem_cons.1 (order.mem_iff.1 member) with rfl | member
    · cases root.symm.trans kWas
      exact sameContext
    · exact sound.shared id editor found shared k member k' kWas

theorem soundBut_adopt {context : Context} {state : EditorState S} (sound : a.Sound)
    (kids : ∀ c ∈ state.children, ∃ child, a.get? c = some child ∧ child.parent = none ∧
      (state.sharesContext = true → child.context = context))
    (distinct : state.children.Nodup) (exact : b.Exact) (fresh : a.get? id = none)
    (new : b.get? id = some { context, state })
    (adopted : ∀ c ∈ state.children, ∀ child, a.get? c = some child →
      b.get? c = some { child with parent := some id })
    (others : ∀ y, y ≠ id → y ∉ state.children → b.get? y = a.get? y) : b.SoundBut id := by
  have forest : b.links.Forest := by
    refine sound.forest.adopt distinct ⟨links_eq_none_iff.2 fresh, fun k member => ?_,
      links_of_get? new, fun y notNew notKid => links_of_same (others y notNew notKid)⟩
    obtain ⟨child, was, isRoot, _⟩ := kids k member
    exact ⟨child.place, links_of_get? was, isRoot, links_of_get? (adopted k member child was)⟩
  refine soundBut_of_kept sound exact forest ?_ ?_ ?_
  · intro y e' isLive notNew
    by_cases member : y ∈ state.children
    · obtain ⟨child, was, _⟩ := kids y member
      cases isLive.symm.trans (adopted y member child was)
      exact ⟨child, was, rfl, rfl, rfl⟩
    · exact ⟨e', (others y notNew member).symm.trans isLive, rfl, rfl, rfl⟩
  · intro e' e _ was
    rw [fresh] at was
    cases was
  · intro e' isLive sharing k member child was
    cases isLive.symm.trans new
    obtain ⟨_, was', _, sameContext⟩ := kids k member
    cases was.symm.trans was'
    exact sameContext sharing

structure Inserted (a b : Arena S) (id : Handle) (context : Context) (state : EditorState S) :
    Prop where
  sound : b.Sound
  fresh : a.get? id = none
  new : ∃ result, b.get? id = some { context, state, result }
  adopted : ∀ c ∈ state.children, ∀ child, a.get? c = some child →
    b.get? c = some { child with parent := some id }
  others : ∀ y, y ≠ id → y ∉ state.children → b.get? y = a.get? y

theorem insert_spec (context : Context) (state : EditorState S) (sound : a.Sound)
    (kids : ∀ c ∈ state.children, ∃ child, a.get? c = some child ∧ child.parent = none ∧
      (state.sharesContext = true → child.context = context))
    (distinct : state.children.Nodup) :
    Inserted a (a.insert context state).2 (a.insert context state).1 context state := by
  obtain ⟨exact, fresh, new, others⟩ := allocate_spec sound.exact { context, state }
  generalize allocated : a.allocate { context, state } = made at exact fresh new others
  obtain ⟨id, a₁⟩ := made
  simp only at exact fresh new others
  let b := state.children.foldl (fun a child => a.setParent (some id) child) a₁
  have unlisted : id ∉ state.children := by
    intro member
    obtain ⟨_, was, _⟩ := kids id member
    rw [fresh] at was
    cases was
  have atNew : b.get? id = some { context, state } := by
    rw [get?_adopt, if_neg unlisted, new]
  have adopted : ∀ c ∈ state.children, ∀ child, a.get? c = some child →
      b.get? c = some { child with parent := some id } := by
    intro c member child was
    rw [get?_adopt, if_pos member, others c (by rintro rfl; exact unlisted member), was]
    rfl
  have elsewhere : ∀ y, y ≠ id → y ∉ state.children → b.get? y = a.get? y := by
    intro y notNew notKid
    rw [get?_adopt, if_neg notKid, others y notNew]
  have almost : b.SoundBut id := soundBut_adopt sound kids distinct
    (exact_adopt id state.children exact) fresh atNew adopted elsewhere
  obtain ⟨r, computed⟩ := yields_ok fun c member =>
    result_ok_of_forest almost.forest atNew member
  have inserted : a.insert context state = (id, b.setResult id r) := by
    simp only [insert, allocated]
    rw [show b.compute id = .ok r from (compute_of_get? atNew).trans computed]
  rw [inserted]
  have same : ∀ {y}, y ≠ id → (b.setResult id r).get? y = b.get? y := by
    intro y notNew
    rw [setResult, get?_modify, if_neg notNew]
  refine ⟨⟨exact_modify almost.exact id _, ?_, ?_, ?_⟩, fresh, ⟨r, ?_⟩, ?_, ?_⟩
  · exact links_congr (outline_setResult b id r) ▸ almost.forest
  · exact almost.shared.congr (outline_setResult b id r)
  · exact fun x => settledAt_setResult almost.forest atNew computed almost.settled (by simp)
  · rw [setResult, get?_modify, if_pos rfl, atNew]
    rfl
  · intro c member child was
    rw [same (by rintro rfl; exact unlisted member), adopted c member child was]
  · intro y notNew notKid
    rw [same notNew, elsewhere y notNew notKid]

end Arena

end StructureEditor
