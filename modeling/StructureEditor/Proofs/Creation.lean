import StructureEditor.Proofs.Sketch

/-! Fresh editors. A created editor is a root of its class that shows a document with the
declared parts; nothing that was there before changes. -/
namespace StructureEditor

namespace Sketch

variable {S : Signature}

mutual

def Plain : Sketch S → Prop
  | .token .. | .text .. => True
  | .expanded .. => False
  | .compound _ parts => AllPlain parts
  | .list _ items => AllPlain items

def AllPlain : List (Sketch S) → Prop
  | [] => True
  | d :: ds => Plain d ∧ AllPlain ds

end

theorem allPlain_iff {ds : List (Sketch S)} : AllPlain ds ↔ ∀ d ∈ ds, d.Plain := by
  induction ds with
  | nil => simp [AllPlain]
  | cons d ds ih => simp [AllPlain, ih]

mutual

/-- Nothing was typed or chosen, and no item was added. -/
def Blank : Sketch S → Prop
  | .token _ shown item => shown = "" ∧ item = none
  | .text _ shown item => shown = "" ∧ item = none
  | .expanded .. => False
  | .compound _ parts => AllBlank parts
  | .list _ items => items = []

def AllBlank : List (Sketch S) → Prop
  | [] => True
  | d :: ds => Blank d ∧ AllBlank ds

end

theorem allBlank_iff {ds : List (Sketch S)} : AllBlank ds ↔ ∀ d ∈ ds, d.Blank := by
  induction ds with
  | nil => simp [AllBlank]
  | cons d ds ih => simp [AllBlank, ih]

theorem Blank.plain {d : Sketch S} (blank : d.Blank) : d.Plain := by
  induction d using Sketch.induct with
  | token c shown item => trivial
  | text c shown item => trivial
  | expanded c content ih => exact blank
  | compound c parts ih =>
    exact allPlain_iff.2 fun d member => ih d member (allBlank_iff.1 blank d member)
  | list c items ih =>
    cases (show items = [] from blank)
    trivial

def Fresh [Language S] (d : Sketch S) : Prop := d.Conforms ∧ d.Plain

end Sketch

namespace Arena

variable {S : Signature} {a a' a'' : Arena S} {id x : Handle} {d : Sketch S}

theorem dead_of_kept (kept : ∀ x e, a.get? x = some e → a'.get? x = some e)
    (dead : a'.get? x = none) : a.get? x = none := by
  cases was : a.get? x with
  | none => rfl
  | some e =>
    rw [kept x e was] at dead
    cases dead

theorem Shows.grow (seen : a.Shows x d) (forest : a.links.Forest)
    (kept : ∀ y state, a.state? y = some state → a'.state? y = some state) : a'.Shows x d := by
  refine seen.transfer forest fun y within => ?_
  obtain ⟨state, found, _⟩ := seen.state
  obtain ⟨editor, isLive, _⟩ := get?_of_state? found
  obtain ⟨below, belowLive⟩ := live_within isLive within
  rw [state?_of_get? belowLive]
  exact kept y _ (state?_of_get? belowLive)

theorem Grows.shows (grows : a.Grows a') (forest : a.links.Forest)
    (seen : a.Shows x d) : a'.Shows x d := by
  refine seen.grow forest fun y state held => ?_
  obtain ⟨editor, found, rfl⟩ := get?_of_state? held
  have kept := state?_of_outline (grows y _ (outline_of_get? found))
  exact kept

theorem state?_of_kept (kept : ∀ x e, a.get? x = some e → a'.get? x = some e) (y : Handle)
    (state : EditorState S) (found : a.state? y = some state) : a'.state? y = some state := by
  obtain ⟨editor, isLive, rfl⟩ := get?_of_state? found
  exact state?_of_get? (kept y editor isLive)

/-- A root editor that is not yet used anywhere. -/
def FreshRoot (a : Arena S) (id : Handle) (context : Context) : Prop :=
  ∃ editor, a.get? id = some editor ∧ editor.parent = none ∧ editor.context = context ∧
    editor.views = []

variable [Language S] {c : ClassKey S} {context : Context}

/-- An editor of a class was added. -/
structure Made (a a' : Arena S) (id : Handle) (c : ClassKey S) (context : Context) : Prop where
  sound : a'.Sound
  fresh : a.get? id = none
  kept : ∀ x e, a.get? x = some e → a'.get? x = some e
  root : a'.FreshRoot id context
  shown : ∃ d, a'.Shows id d ∧ d.classKey = c ∧ d.Fresh

structure MadeAll (a a' : Arena S) (ids : List Handle) (cs : List (ClassKey S))
    (context : Context) : Prop where
  sound : a'.Sound
  fresh : ∀ id ∈ ids, a.get? id = none
  distinct : ids.Nodup
  kept : ∀ x e, a.get? x = some e → a'.get? x = some e
  roots : ∀ id ∈ ids, a'.FreshRoot id context
  shown : ∃ ds, List.Forall₂ a'.Shows ids ds ∧ ds.map Sketch.classKey = cs ∧
    ∀ d ∈ ds, d.Fresh

theorem made_leaf {state : EditorState S} (sound : a.Sound) (leaf : state.children = [])
    (shown : ∀ b : Arena S, ∀ x, b.state? x = some state →
      ∃ d, b.Shows x d ∧ d.classKey = state.classKey ∧ d.Fresh) :
    Made a (a.insert context state).2 (a.insert context state).1 state.classKey context := by
  obtain ⟨sound', fresh, ⟨r, new⟩, _, others⟩ := insert_spec context state sound
    (by simp [leaf]) (by simp [leaf])
  refine ⟨sound', fresh, fun x e found => ?_, ⟨_, new, rfl, rfl, rfl⟩, ?_⟩
  · rw [others x (by rintro rfl; rw [fresh] at found; cases found) (by simp [leaf]), found]
  · exact shown _ _ (state?_of_get? new)

theorem made_token (k : S.TokenClass) (text : String) (context : Context) (sound : a.Sound) :
    Made a (a.insert context (.token k text none)).2 (a.insert context (.token k text none)).1
      (.token k) context :=
  made_leaf sound rfl fun _ _ found => ⟨.token k text none, found, rfl, trivial, trivial⟩

theorem made_expander (k : S.ExpanderClass) (text : String) (context : Context) (sound : a.Sound) :
    Made a (a.insert context (.expander k (.text text none))).2
      (a.insert context (.expander k (.text text none))).1 (.expander k) context :=
  made_leaf sound rfl fun _ _ found => ⟨.text k text none, found, rfl, trivial, trivial⟩

theorem MadeAll.cons {ids : List Handle} {cs : List (ClassKey S)}
    (rest : MadeAll a' a'' ids cs context) (first : Made a a' id c context) :
    MadeAll a a'' (id :: ids) (c :: cs) context := by
  obtain ⟨d, seen, key, isFresh⟩ := first.shown
  obtain ⟨ds, seenAll, keys, allFresh⟩ := rest.shown
  obtain ⟨editor, found, isRoot⟩ := first.root
  have kept : ∀ x e, a.get? x = some e → a''.get? x = some e :=
    fun x e was => rest.kept x e (first.kept x e was)
  refine ⟨rest.sound, ?_, ?_, kept, ?_, d :: ds, ?_, ?_, ?_⟩
  · intro x member
    rcases List.mem_cons.1 member with rfl | later
    · exact first.fresh
    · exact dead_of_kept first.kept (rest.fresh x later)
  · refine List.nodup_cons.2 ⟨fun member => ?_, rest.distinct⟩
    have dead := rest.fresh id member
    rw [found] at dead
    cases dead
  · intro x member
    rcases List.mem_cons.1 member with rfl | later
    · exact ⟨editor, rest.kept x editor found, isRoot⟩
    · exact rest.roots x later
  · exact .cons (seen.grow first.sound.forest (state?_of_kept rest.kept)) seenAll
  · rw [List.map_cons, key, keys]
  · intro e member
    rcases List.mem_cons.1 member with rfl | later
    · exact isFresh
    · exact allFresh e later

omit [Language S] in
theorem mapM_cons_run (create : ClassKey S → StateM (Arena S) Handle) (c : ClassKey S)
    (cs : List (ClassKey S)) (a : Arena S) :
    ((c :: cs).mapM create).run a =
      (((create c).run a).1 :: ((cs.mapM create).run ((create c).run a).2).1,
        ((cs.mapM create).run ((create c).run a).2).2) := by
  rw [List.mapM_cons]
  rfl

omit [Language S] in
theorem mapM_keeps {P : Arena S → Prop} {create : ClassKey S → StateM (Arena S) Handle}
    {cs : List (ClassKey S)} (each : ∀ c ∈ cs, ∀ a : Arena S, P a → P ((create c).run a).2)
    (holds : P a) : P ((cs.mapM create).run a).2 := by
  induction cs generalizing a with
  | nil => exact holds
  | cons c cs ih =>
    rw [mapM_cons_run]
    exact ih (fun d member => each d (List.mem_cons_of_mem c member)) (each c (by simp) a holds)

theorem madeAll_mapM {create : ClassKey S → StateM (Arena S) Handle} {cs : List (ClassKey S)}
    (each : ∀ c ∈ cs, ∀ a : Arena S, a.Sound →
      Made a ((create c).run a).2 ((create c).run a).1 c context) (sound : a.Sound) :
    MadeAll a ((cs.mapM create).run a).2 ((cs.mapM create).run a).1 cs context := by
  induction cs generalizing a with
  | nil =>
    exact ⟨sound, nofun, .nil, fun _ _ found => found, nofun, [], .nil, rfl, nofun⟩
  | cons c cs ih =>
    have first := each c (by simp) a sound
    have rest := ih (fun d member => each d (by simp [member])) first.sound
    rw [mapM_cons_run]
    exact rest.cons first

theorem Shows.insert {state : EditorState S} (seen : a.Shows x d) (sound : a.Sound)
    (kids : ∀ c ∈ state.children, ∃ child, a.get? c = some child ∧ child.parent = none ∧
      (state.sharesContext = true → child.context = context))
    (distinct : state.children.Nodup) : (a.insert context state).2.Shows x d := by
  obtain ⟨_, fresh, _, adopted, others⟩ := insert_spec context state sound kids distinct
  refine seen.grow sound.forest fun y held found => ?_
  obtain ⟨editor, isLive, rfl⟩ := get?_of_state? found
  by_cases isKid : y ∈ state.children
  · have state := state?_of_get? (adopted y isKid editor isLive)
    exact state
  · have same := others y (by rintro rfl; rw [fresh] at isLive; cases isLive) isKid
    exact state?_of_get? (same.trans isLive)

theorem MadeAll.kids {ids : List Handle} {cs : List (ClassKey S)} {k : S.CompoundClass}
    (made : MadeAll a a' ids cs context) : ∀ x ∈ (EditorState.compound k ids).children,
      ∃ child, a'.get? x = some child ∧ child.parent = none ∧
        ((EditorState.compound k ids).sharesContext = true → child.context = context) := by
  intro x member
  obtain ⟨editor, found, isRoot, sameContext, _⟩ := made.roots x member
  exact ⟨editor, found, isRoot, fun _ => sameContext⟩

theorem MadeAll.shows {ids : List Handle} {k : S.CompoundClass}
    (made : MadeAll a a' ids (Language.compound k).components context) (seen : a'.Shows x d) :
    (a'.insert context (.compound k ids)).2.Shows x d :=
  seen.insert made.sound made.kids made.distinct

theorem MadeAll.compound {ids : List Handle} {k : S.CompoundClass}
    (made : MadeAll a a' ids (Language.compound k).components context) :
    Made a (a'.insert context (.compound k ids)).2 (a'.insert context (.compound k ids)).1
      (.compound k) context := by
  obtain ⟨ds, seen, keys, allFresh⟩ := made.shown
  obtain ⟨sound, fresh, ⟨r, new⟩, _, others⟩ :=
    insert_spec context (.compound k ids) made.sound made.kids made.distinct
  have kept : ∀ x e, a.get? x = some e →
      (a'.insert context (.compound k ids)).2.get? x = some e := by
    intro x e was
    have found := made.kept x e was
    rw [others x (by rintro rfl; rw [fresh] at found; cases found), found]
    intro member
    rw [made.fresh x member] at was
    cases was
  refine ⟨sound, ?_, kept, ⟨_, new, rfl, rfl, rfl⟩, .compound k ds, ?_, rfl, ⟨keys, ?_⟩, ?_⟩
  · exact dead_of_kept made.kept fresh
  · exact shows_compound.2 ⟨ids, state?_of_get? new, seen.imp fun _ _ seen => made.shows seen⟩
  · exact Sketch.allConform_iff.2 fun d member => (allFresh d member).1
  · exact Sketch.allPlain_iff.2 fun d member => (allFresh d member).2

theorem create_made (c : ClassKey S) (context : Context) (sound : a.Sound) :
    Made a ((create c context).run a).2 ((create c context).run a).1 c context := by
  induction c using ClassKey.induct generalizing a with
  | token k =>
    rw [create_token_eq]
    exact made_token k "" context sound
  | expander k =>
    rw [create_expander_eq]
    exact made_expander k "" context sound
  | list k =>
    rw [create_list_eq]
    refine made_leaf sound rfl fun b x found => ⟨.list k [], ?_, rfl, ⟨nofun, trivial⟩, trivial⟩
    exact shows_list.2 ⟨[], found, .nil⟩
  | compound k ih =>
    rw [create_compound_eq]
    exact (madeAll_mapM (fun d member a sound => ih d member sound) sound).compound

theorem state?_insert {state : EditorState S} (sound : a.Sound)
    (kids : ∀ c ∈ state.children, ∃ child, a.get? c = some child ∧ child.parent = none ∧
      (state.sharesContext = true → child.context = context))
    (distinct : state.children.Nodup) :
    (a.insert context state).2.state? (a.insert context state).1 = some state := by
  obtain ⟨_, _, ⟨_, new⟩, _⟩ := insert_spec context state sound kids distinct
  exact state?_of_get? new

theorem shows_mapM {create : ClassKey S → StateM (Arena S) Handle} {cs : List (ClassKey S)}
    {ds : List (Sketch S)} (each : ∀ c ∈ cs, ∀ a : Arena S, a.Sound →
      Made a ((create c).run a).2 ((create c).run a).1 c context)
    (shown : List.Forall₂ (fun c d => ∀ a : Arena S, a.Sound →
      ((create c).run a).2.Shows ((create c).run a).1 d) cs ds) (sound : a.Sound) :
    List.Forall₂ ((cs.mapM create).run a).2.Shows ((cs.mapM create).run a).1 ds := by
  induction shown generalizing a with
  | nil => exact .nil
  | @cons c d cs ds seen _ ih =>
    have first := each c (by simp) a sound
    have others := fun d (member : d ∈ cs) => each d (List.mem_cons_of_mem c member)
    have rest := madeAll_mapM others first.sound
    rw [mapM_cons_run]
    exact .cons ((seen a sound).grow first.sound.forest (state?_of_kept rest.kept))
      (ih others first.sound)

omit [Language S] in
theorem forall₂_of_exists {R : ClassKey S → Sketch S → Prop} {cs : List (ClassKey S)}
    (each : ∀ c ∈ cs, ∃ d : Sketch S, d.Blank ∧ R c d) :
    ∃ ds, Sketch.AllBlank ds ∧ List.Forall₂ R cs ds := by
  induction cs with
  | nil => exact ⟨[], trivial, .nil⟩
  | cons c cs ih =>
    obtain ⟨d, blank, related⟩ := each c (by simp)
    obtain ⟨ds, allBlank, rest⟩ := ih fun e member => each e (List.mem_cons_of_mem c member)
    exact ⟨d :: ds, ⟨blank, allBlank⟩, .cons related rest⟩

theorem create_shows (c : ClassKey S) : ∃ d : Sketch S, d.Blank ∧
    ∀ (context : Context) (a : Arena S), a.Sound →
      ((create c context).run a).2.Shows ((create c context).run a).1 d := by
  induction c using ClassKey.induct with
  | token k =>
    refine ⟨.token k "" none, ⟨rfl, rfl⟩, fun context a sound => ?_⟩
    rw [create_token_eq]
    exact state?_insert sound nofun .nil
  | expander k =>
    refine ⟨.text k "" none, ⟨rfl, rfl⟩, fun context a sound => ?_⟩
    rw [create_expander_eq]
    exact state?_insert sound nofun .nil
  | list k =>
    refine ⟨.list k [], rfl, fun context a sound => ?_⟩
    rw [create_list_eq]
    exact shows_list.2 ⟨[], state?_insert sound nofun .nil, .nil⟩
  | compound k ih =>
    obtain ⟨ds, blank, parts⟩ := forall₂_of_exists ih
    refine ⟨.compound k ds, blank, fun context a sound => ?_⟩
    have each := fun d (_ : d ∈ (Language.compound k).components) (a : Arena S) (sound : a.Sound) =>
      create_made d context sound
    have made := madeAll_mapM each sound
    have seen := shows_mapM each (parts.imp fun _ _ shown => shown context) sound
    rw [create_compound_eq]
    exact shows_compound.2 ⟨_, state?_insert made.sound made.kids made.distinct,
      seen.imp fun _ _ seen => made.shows seen⟩

theorem create_blank (c : ClassKey S) (context : Context) (sound : a.Sound) :
    ∃ d, ((create c context).run a).2.Shows ((create c context).run a).1 d ∧ d.Blank :=
  (create_shows c).imp fun _ shown => ⟨shown.2 context a sound, shown.1⟩

end Arena

end StructureEditor
