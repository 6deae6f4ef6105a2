import StructureEditor.Proofs.RoundTrip
import StructureEditor.Proofs.Timeline

/-! Order below an editor: all contexts resolve to one history and one registry, compounds and
lists hold the declared classes, and contents are of registered classes. Whatever is restored
in an orderly place is orderly again. -/
namespace StructureEditor

variable {S : Signature}

namespace Contexts

variable {cs cs' : Contexts (Services S)} {c c' : Context} {h : HistoryId} {r : Registry S}

inductive Leads (cs : Contexts (Services S)) : Context → Context → Prop where
  | refl (c : Context) : Leads cs c c
  | step {c next last : Context} : cs.find? (·.scope) c = some next → Leads cs next last →
      Leads cs c last

/-- From a context on, everything resolves to one history and one registry. -/
def Governs (cs : Contexts (Services S)) (h : HistoryId) (r : Registry S) (c : Context) : Prop :=
  ∀ last, cs.Leads c last →
    cs.find? (·.history) last = some h ∧ cs.find? (·.registry) last = some r

theorem Governs.history (governs : cs.Governs h r c) : cs.find? (·.history) c = some h :=
  (governs c (.refl c)).1

theorem Governs.registry (governs : cs.Governs h r c) : cs.find? (·.registry) c = some r :=
  (governs c (.refl c)).2

theorem Leads.grown (grown : cs.Grown cs') (leads : cs'.Leads c c') : cs.Leads c c' := by
  induction leads with
  | refl c => exact .refl c
  | @step c next last found _ ih =>
    have same : cs'.find? (·.scope) c = cs.find? (·.scope) c := grown.find? rfl c
    exact .step (same.symm.trans found) ih

theorem Governs.carry (governs : cs.Governs h r c) (grown : cs.Grown cs')
    (same : SameServices cs c cs' c') : cs'.Governs h r c' := by
  intro last leads
  cases leads with
  | refl => exact ⟨(same _ (·.history) rfl).trans governs.history,
      (same _ (·.registry) rfl).trans governs.registry⟩
  | step found leads =>
    rw [same _ (·.scope) rfl] at found
    obtain ⟨history, registry⟩ := governs last (.step found (leads.grown grown))
    exact ⟨(grown.find? rfl last).trans history, (grown.find? rfl last).trans registry⟩

theorem Governs.grown (governs : cs.Governs h r c) (grown : cs.Grown cs') : cs'.Governs h r c :=
  governs.carry grown (sameServices_of_grown grown c)

variable [Language S]

theorem Governs.scopeBelow (governs : cs.Governs h r c) (k : S.ExpanderClass) :
    cs.Governs h r (cs.scopeBelow k c) := by
  unfold Contexts.scopeBelow
  split
  · exact governs
  · exact governs
  · cases found : cs.find? (·.scope) c with
    | none => exact governs
    | some next => exact fun last leads => governs last (.step found leads)

theorem Governs.knows {k : ClassKey S} (governs : cs.Governs h r c) (has : r.Has k) :
    cs.Knows c k := ⟨r, governs.registry, has⟩

end Contexts

variable [Language S]

theorem Workspace.governs_scopeFor {w : Workspace S} {h : HistoryId} {r : Registry S}
    {own : Context} (governs : w.contexts.Governs h r own) (k : S.ExpanderClass) :
    (w.scopeFor k own).2.Governs h r (w.scopeFor k own).1 :=
  (governs.scopeBelow k).carry (grown_scopeFor w k own) (sameServices_scopeFor w k own)

theorem Registry.has_of_lookup {r : Registry S} {name : String} {c : ClassKey S}
    (listed : r.lookup name = .ok c) : r.Has c := by
  rw [Has, name_of_lookup listed]
  exact listed

namespace Arena

variable {a b : Arena S} {r : Registry S} {x y c : Handle} {state : EditorState S} {e : Editor S}

omit [Language S] in
def OfClass (a : Arena S) (key : ClassKey S) (x : Handle) : Prop :=
  ∃ state, a.state? x = some state ∧ state.classKey = key

/-- The children of an editor are of the classes that it declares; content is of a registered
class. -/
def Declared (r : Registry S) (a : Arena S) : EditorState S → Prop
  | .token .. | .expander _ (.text ..) => True
  | .expander _ (.expanded y) => ∃ key, r.Has key ∧ a.OfClass key y
  | .compound k ids => List.Forall₂ a.OfClass (Language.compound k).components ids
  | .list k ids => ∀ y ∈ ids, a.OfClass (Language.list k).element y

theorem Declared.carry (declared : a.Declared r state)
    (same : ∀ y ∈ state.children, ∀ key, a.OfClass key y → b.OfClass key y) :
    b.Declared r state := by
  cases state with
  | token => trivial
  | expander k display =>
    cases display with
    | text => trivial
    | expanded y =>
      obtain ⟨key, has, found⟩ := declared
      exact ⟨key, has, same y (by simp [EditorState.children]) key found⟩
  | compound k ids => exact forall₂_imp_mem declared fun key _ y member => same y member key
  | list k ids => exact fun y member => same y member _ (declared y member)

omit [Language S] in
theorem ofClass_of_outline {key : ClassKey S} (found : a.outline x = some e)
    (isOf : e.state.classKey = key) : a.OfClass key x :=
  ⟨e.state, state?_of_outline found, isOf⟩

omit [Language S] in
theorem OfClass.carry {key : ClassKey S} {e' : Editor S} (isOf : a.OfClass key x)
    (found : a.outline x = some e) (found' : b.outline x = some e')
    (same : e'.state.classKey = e.state.classKey) : b.OfClass key x := by
  obtain ⟨state, held, isKey⟩ := isOf
  cases (state?_of_outline found).symm.trans held
  exact ofClass_of_outline found' (same.trans isKey)

omit [Language S] in
theorem OfClass.shown {key : ClassKey S} {d : Sketch S} (isOf : a.OfClass key x)
    (seen : a.Shows x d) : d.classKey = key := by
  obtain ⟨state, held, isKey⟩ := isOf
  obtain ⟨state', held', shown⟩ := seen.state
  cases held.symm.trans held'
  exact shown.symm.trans isKey

omit [Language S] in
theorem classes_shown {keys : List (ClassKey S)} {ids : List Handle} {ds : List (Sketch S)}
    (declared : List.Forall₂ a.OfClass keys ids) (seen : List.Forall₂ a.Shows ids ds) :
    ds.map Sketch.classKey = keys := by
  induction declared generalizing ds with
  | nil =>
    cases seen
    rfl
  | cons first _ ih =>
    cases seen with
    | cons shown rest => rw [List.map_cons, first.shown shown, ih rest]

omit [Language S] in
theorem ofClass_of_shows {d : Sketch S} (seen : a.Shows x d) : a.OfClass d.classKey x := seen.state

omit [Language S] in
theorem shown_classes {ids : List Handle} {ds : List (Sketch S)}
    (seen : List.Forall₂ a.Shows ids ds) : List.Forall₂ a.OfClass (ds.map Sketch.classKey) ids := by
  induction seen with
  | nil => exact .nil
  | cons first _ ih => exact .cons (ofClass_of_shows first) ih

omit [Language S] in
theorem member_shown {ids : List Handle} {ds : List (Sketch S)}
    (seen : List.Forall₂ a.Shows ids ds) (member : y ∈ ids) : ∃ d ∈ ds, a.Shows y d := by
  obtain ⟨i, there⟩ := List.mem_iff_getElem?.1 member
  rcases shown_at seen i with ⟨z, d, there', listed, seen⟩ | ⟨missing, _⟩
  · cases there.symm.trans there'
    exact ⟨d, List.mem_of_getElem? listed, seen⟩
  · rw [there] at missing
    cases missing

omit [Language S] in
theorem shown_member {ids : List Handle} {ds : List (Sketch S)} {d : Sketch S}
    (seen : List.Forall₂ a.Shows ids ds) (member : d ∈ ds) : ∃ y ∈ ids, a.Shows y d := by
  obtain ⟨i, there⟩ := List.mem_iff_getElem?.1 member
  rcases shown_at seen i with ⟨y, e, listed, there', seen⟩ | ⟨_, missing⟩
  · cases there.symm.trans there'
    exact ⟨y, List.mem_of_getElem? listed, seen⟩
  · rw [there] at missing
    cases missing

omit [Language S] in
theorem Changes.within_cases (changes : a.Changes b c) (forest : a.links.Forest)
    (forest' : b.links.Forest) (outside : ¬ a.links.Within c x) (isLive : a.outline x = some e)
    (within : b.links.Within x y) :
    (a.links.Within x c ∧ b.links.Within c y) ∨ (a.links.Within x y ∧ ¬ a.links.Within c y ∧
      ∃ e, a.outline y = some e ∧ b.outline y = some e) := by
  generalize eq : b.links = l at within
  induction within with
  | here => exact .inr ⟨.here, outside, e, isLive, changes.outside x e isLive outside⟩
  | @step y p place found hasParent _ ih =>
    subst eq
    rcases ih with ⟨above, below⟩ | ⟨within, apart, parent, was, still⟩
    · exact .inl ⟨above, .step found hasParent below⟩
    · obtain ⟨above, placed, member⟩ := forest'.listed found hasParent
      rw [links_of_outline still] at placed
      cases placed
      obtain ⟨place', child, childParent⟩ := forest.linked (links_of_outline was) member
      obtain ⟨e', childLive, rfl⟩ := outline_of_links child
      have inside := within.trans (forest.within_of_child (links_of_outline was) member)
      by_cases same : y = c
      · subst same
        exact .inl ⟨inside, .here⟩
      · have apart' : ¬ a.links.Within c y := by
          intro below
          obtain ⟨q, isParent, above⟩ := below.parent same child
          rw [childParent] at isParent
          cases isParent
          exact apart above
        exact .inr ⟨inside, apart', e', childLive, changes.outside y e' childLive apart'⟩

end Arena

namespace Workspace

variable {w w' w'' : Workspace S} {h : HistoryId} {r : Registry S} {id x c : Handle}
  {editor : Editor S} {state : EditorState S} {d : Sketch S} {context : Context}

omit [Language S] in
theorem classKey_of_held {a : Arena S} (seen : a.Shows id d) (held : a.state? id = some state) :
    d.classKey = state.classKey := by
  obtain ⟨state', held', key⟩ := seen.state
  cases held.symm.trans held'
  exact key.symm

omit [Language S] in
theorem classKey_of_changes {a b : Arena S} {d' : Sketch S} (changes : a.Changes b id)
    (seen : a.Shows id d) (seen' : b.Shows id d') : d'.classKey = d.classKey := by
  obtain ⟨_, held, key⟩ := seen.state
  obtain ⟨editor, found, rfl⟩ := Arena.get?_of_state? held
  obtain ⟨editor', found', kept⟩ := changes.live found
  rw [classKey_of_held seen' (Arena.state?_of_get? found'), ← key]
  exact kept.2.2.2

/-- An editor in a governed context with children of the declared classes. -/
structure InOrder (h : HistoryId) (r : Registry S) (w : Workspace S) (e : Editor S) : Prop where
  governed : w.contexts.Governs h r e.context
  declared : w.arena.Declared r e.state

def OrderBelow (h : HistoryId) (r : Registry S) (w : Workspace S) (id : Handle) : Prop :=
  ∀ y e, w.arena.links.Within id y → w.arena.outline y = some e → InOrder h r w e

theorem OrderBelow.here (order : OrderBelow h r w id) (found : w.arena.get? id = some editor) :
    InOrder h r w editor := by
  have inOrder := order id _ .here (Arena.outline_of_get? found)
  exact ⟨inOrder.governed, inOrder.declared⟩

theorem OrderBelow.below (order : OrderBelow h r w id) (within : w.arena.links.Within id c) :
    OrderBelow h r w c :=
  fun y e lower found => order y e (within.trans lower) found

theorem orderBelow_of_children (forest : w.arena.links.Forest)
    (found : w.arena.get? id = some editor) (governed : w.contexts.Governs h r editor.context)
    (declared : w.arena.Declared r editor.state)
    (each : ∀ c ∈ editor.state.children, OrderBelow h r w c) : OrderBelow h r w id := by
  intro y e within isLive
  rcases (forest.within_iff (Arena.links_of_get? found)).1 within with rfl | ⟨c, member, below⟩
  · rw [Arena.outline_of_get? found] at isLive
    cases isLive
    exact ⟨governed, declared⟩
  · exact each c member y e below isLive

theorem OrderBelow.carry (order : OrderBelow h r w c) (forest' : w'.arena.links.Forest)
    (grown : w.contexts.Grown w'.contexts)
    (same : ∀ z e', w'.arena.links.Within c z → w'.arena.outline z = some e' →
      ∃ e, w.arena.outline z = some e ∧ e.context = e'.context ∧ e.state = e'.state ∧
        (z = c ∨ e.parent = e'.parent)) : OrderBelow h r w' c := by
  have was : ∀ z, w'.arena.links.Within c z → w.arena.links.Within c z := by
    intro z within
    generalize eq : w'.arena.links = l at within
    induction within with
    | here => exact .here
    | @step z p place found hasParent above ih =>
      subst eq
      obtain ⟨e', isLive', rfl⟩ := Arena.outline_of_links found
      obtain ⟨e, isLive, _, _, top | parent⟩ :=
        same z e' (.step found hasParent above) isLive'
      · rw [top]
        exact .here
      · exact .step (Arena.links_of_outline isLive) (parent.trans hasParent) ih
  intro y e' within isLive'
  obtain ⟨e, isLive, context, state, _⟩ := same y e' within isLive'
  have inOrder := order y e (was y within) isLive
  refine ⟨context ▸ inOrder.governed.grown grown, ?_⟩
  rw [← state]
  refine inOrder.declared.carry fun z member key isOf => ?_
  have placed := Arena.links_of_outline isLive'
  have listed : z ∈ e'.state.children := state ▸ member
  obtain ⟨place, found, _⟩ := forest'.linked placed listed
  obtain ⟨child', childLive', _⟩ := Arena.outline_of_links found
  obtain ⟨child, childLive, _, childState, _⟩ :=
    same z child' (within.trans (forest'.within_of_child placed listed)) childLive'
  exact isOf.carry childLive childLive' (congrArg EditorState.classKey childState.symm)

theorem Rewrites.orderBelow {apart : Handle → Prop} (done : Rewrites w w' id state apart)
    (found : w.arena.get? id = some editor) (governed : w.contexts.Governs h r editor.context)
    (declared : w'.arena.Declared r state)
    (each : ∀ c ∈ state.children, OrderBelow h r w c)
    (moved : ∀ z e', apart z → w'.arena.outline z = some e' → z ∈ state.children ∧
      ∃ e, w.arena.outline z = some e ∧ e.context = e'.context ∧ e.state = e'.state) :
    OrderBelow h r w' id := by
  have outlined := done.here _ (Arena.outline_of_get? found)
  have placed := Arena.links_of_outline outlined
  have forest := done.sound.forest
  intro y e within isLive
  rcases (forest.within_iff placed).1 within with rfl | ⟨c, member, below⟩
  · rw [outlined] at isLive
    cases isLive
    exact ⟨governed.grown done.quiet.contexts, declared⟩
  · refine (each c member).carry forest done.quiet.contexts ?_ y e below isLive
    intro z e' lower isLive'
    have notTop : z ≠ id := by
      rintro rfl
      exact forest.not_within_of_child placed member lower
    by_cases isApart : apart z
    · obtain ⟨listed, e, isLive, context, state⟩ := moved z e' isApart isLive'
      refine ⟨e, isLive, context, state, .inl ?_⟩
      by_contra different
      exact forest.siblings_apart placed member listed (Ne.symm different) lower .here
    · exact ⟨e', (done.kept z notTop isApart).symm.trans isLive', rfl, rfl, .inr rfl⟩

theorem OrderBelow.change {e : Editor S} (order : OrderBelow h r w x)
    (changes : w.arena.Changes w'.arena c) (forest : w.arena.links.Forest)
    (forest' : w'.arena.links.Forest) (grown : w.contexts.Grown w'.contexts)
    (isLive : w.arena.outline x = some e) (outside : x ≠ c → ¬ w.arena.links.Within c x)
    (part : w.arena.links.Within x c → OrderBelow h r w' c) : OrderBelow h r w' x := by
  by_cases whole : x = c
  · subst whole
    exact part .here
  · intro y e' within isLive'
    rcases changes.within_cases forest forest' (outside whole) isLive within with
      ⟨above, below⟩ | ⟨inside, apart, same, was, still⟩
    · exact part above y e' below isLive'
    · rw [still] at isLive'
      cases isLive'
      have inOrder := order y _ inside was
      refine ⟨inOrder.governed.grown grown, inOrder.declared.carry fun z member key isOf => ?_⟩
      obtain ⟨place, found, hasParent⟩ := forest.linked (Arena.links_of_outline was) member
      obtain ⟨child, childLive, rfl⟩ := Arena.outline_of_links found
      by_cases isTop : z = c
      · subst isTop
        obtain ⟨child', childLive', kept⟩ := changes.top child childLive
        exact isOf.carry childLive childLive' kept.2.2.2
      · refine isOf.carry childLive (changes.outside z child childLive fun below => ?_) rfl
        obtain ⟨q, isParent, above⟩ := below.parent isTop found
        cases hasParent.symm.trans isParent
        exact apart above

theorem OrderBelow.child (order : OrderBelow h r w x) (forest : w.arena.links.Forest)
    (held : w.arena.state? x = some state) (member : c ∈ state.children) : OrderBelow h r w c :=
  order.below (Arena.within_of_state? forest held member)

theorem OrderBelow.conforms (order : OrderBelow h r w x) (forest : w.arena.links.Forest)
    (seen : w.arena.Shows x d) : d.Conforms := by
  induction d using Sketch.induct generalizing x with
  | token k text item => trivial
  | text k shown item => trivial
  | expanded k content ih =>
    obtain ⟨y, held, seen⟩ := Arena.shows_expanded.1 seen
    exact ih (order.child forest held (by simp [EditorState.children])) seen
  | compound k parts ih =>
    obtain ⟨ids, held, seen⟩ := Arena.shows_compound.1 seen
    obtain ⟨editor, found, state⟩ := Arena.get?_of_state? held
    have declared := (order.here found).declared
    rw [state] at declared
    refine ⟨Arena.classes_shown declared seen, Sketch.allConform_iff.2 fun d member => ?_⟩
    obtain ⟨y, listed, seen⟩ := Arena.shown_member seen member
    exact ih d member (order.child forest held listed) seen
  | list k items ih =>
    obtain ⟨ids, held, seen⟩ := Arena.shows_list.1 seen
    obtain ⟨editor, found, state⟩ := Arena.get?_of_state? held
    have declared := (order.here found).declared
    rw [state] at declared
    refine ⟨fun d member => ?_, Sketch.allConform_iff.2 fun d member => ?_⟩
    · obtain ⟨y, listed, seen⟩ := Arena.shown_member seen member
      exact (declared y listed).shown seen
    · obtain ⟨y, listed, seen⟩ := Arena.shown_member seen member
      exact ih d member (order.child forest held listed) seen

theorem OrderBelow.supplies (order : OrderBelow h r w x) (forest : w.arena.links.Forest)
    (seen : w.arena.Shows x d) {cs : Contexts (Services S)} (governs : cs.Governs h r context) :
    cs.Supplies context d := by
  induction d using Sketch.induct generalizing x context with
  | token k text item => trivial
  | text k shown item => trivial
  | expanded k content ih =>
    obtain ⟨y, held, seen⟩ := Arena.shows_expanded.1 seen
    obtain ⟨editor, found, state⟩ := Arena.get?_of_state? held
    have declared := (order.here found).declared
    rw [state] at declared
    obtain ⟨key, has, isOf⟩ := declared
    have below := governs.scopeBelow k
    refine ⟨below.knows (isOf.shown seen ▸ has), ?_⟩
    exact ih (order.child forest held (by simp [EditorState.children])) seen below
  | compound k parts ih =>
    obtain ⟨ids, held, seen⟩ := Arena.shows_compound.1 seen
    refine Contexts.suppliesAll_iff.2 fun d member => ?_
    obtain ⟨y, listed, seen⟩ := Arena.shown_member seen member
    exact ih d member (order.child forest held listed) seen governs
  | list k items ih =>
    obtain ⟨ids, held, seen⟩ := Arena.shows_list.1 seen
    refine Contexts.suppliesAll_iff.2 fun d member => ?_
    obtain ⟨y, listed, seen⟩ := Arena.shown_member seen member
    exact ih d member (order.child forest held listed) seen governs

theorem supplies_of_known {cs : Contexts (Services S)} (known : d.Known r)
    (governs : cs.Governs h r context) : cs.Supplies context d := by
  induction d using Sketch.induct generalizing context with
  | token k text item => trivial
  | text k shown item => trivial
  | expanded k content ih =>
    have below := governs.scopeBelow k
    exact ⟨below.knows known.2.has, ih known.2 below⟩
  | compound k parts ih =>
    exact Contexts.suppliesAll_iff.2 fun d member =>
      ih d member (Sketch.allKnown_iff.1 known.2 d member) governs
  | list k items ih =>
    exact Contexts.suppliesAll_iff.2 fun d member =>
      ih d member (Sketch.allKnown_iff.1 known.2 d member) governs

theorem orderBelow_fresh (sound : w.arena.Sound) (found : w.arena.get? x = some editor)
    (seen : w.arena.Shows x d) (isFresh : d.Fresh)
    (governed : w.contexts.Governs h r editor.context) : OrderBelow h r w x := by
  -- the parts of compounds and lists are in the context of the whole
  have inherited : ∀ {x editor}, w.arena.get? x = some editor →
      w.contexts.Governs h r editor.context → editor.state.sharesContext = true →
      ∀ y ∈ editor.state.children,
        ∃ child, w.arena.get? y = some child ∧ w.contexts.Governs h r child.context := by
    intro x editor found governed shares y member
    obtain ⟨child, childFound, _⟩ := Arena.live_child sound.forest found member
    exact ⟨child, childFound, sound.shared x editor found shares y member child childFound ▸ governed⟩
  induction d using Sketch.induct generalizing x editor with
  | token k text item =>
    have state := Option.some.inj ((Arena.state?_of_get? found).symm.trans seen)
    exact orderBelow_of_children sound.forest found governed (by rw [state]; trivial)
      (by simp [state, EditorState.children])
  | text k shown item =>
    have state := Option.some.inj ((Arena.state?_of_get? found).symm.trans seen)
    exact orderBelow_of_children sound.forest found governed (by rw [state]; trivial)
      (by simp [state, EditorState.children])
  | expanded k content ih => cases isFresh.2
  | compound k parts ih =>
    obtain ⟨ids, held, seen⟩ := Arena.shows_compound.1 seen
    have state := Option.some.inj ((Arena.state?_of_get? found).symm.trans held)
    refine orderBelow_of_children sound.forest found governed ?_ fun y member => ?_
    · rw [state, Arena.Declared, ← isFresh.1.1]
      exact Arena.shown_classes seen
    · obtain ⟨child, childFound, below⟩ := inherited found governed (by rw [state]; rfl) y member
      rw [state] at member
      obtain ⟨d, listed, seen⟩ := Arena.member_shown seen member
      exact ih d listed childFound seen ⟨Sketch.allConform_iff.1 isFresh.1.2 d listed,
        Sketch.allPlain_iff.1 isFresh.2 d listed⟩ below
  | list k items ih =>
    obtain ⟨ids, held, seen⟩ := Arena.shows_list.1 seen
    have state := Option.some.inj ((Arena.state?_of_get? found).symm.trans held)
    refine orderBelow_of_children sound.forest found governed ?_ fun y member => ?_
    · rw [state]
      intro y member
      obtain ⟨d, listed, seen⟩ := Arena.member_shown seen member
      exact isFresh.1.1 d listed ▸ Arena.ofClass_of_shows seen
    · obtain ⟨child, childFound, below⟩ := inherited found governed (by rw [state]; rfl) y member
      rw [state] at member
      obtain ⟨d, listed, seen⟩ := Arena.member_shown seen member
      exact ih d listed childFound seen ⟨Sketch.allConform_iff.1 isFresh.1.2 d listed,
        Sketch.allPlain_iff.1 isFresh.2 d listed⟩ below

end Workspace

end StructureEditor
