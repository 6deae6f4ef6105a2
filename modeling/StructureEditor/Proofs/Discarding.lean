import StructureEditor.Proofs.Confinement
import StructureEditor.Proofs.Vacancies

/-! Discarding subtrees. The content of an expander that is reset, an item that is taken out of a
list and a document that is removed are given back editor by editor, from left to right and
children before their parent; the editors that are made next take their slots in the opposite
order. -/
namespace StructureEditor

variable {S : Signature}

namespace Arena

/-- An editor and all below it, from left to right and children before their parent. The first
argument bounds the depth. -/
def postorderWithin : Nat → Arena S → Handle → List Handle
  | 0, _, _ => []
  | depth + 1, a, id =>
    match a.get? id with
    | some editor => editor.state.children.flatMap (postorderWithin depth a) ++ [id]
    | none => []

def postorder (a : Arena S) (id : Handle) : List Handle := a.postorderWithin a.reach id

variable {a a₀ b : Arena S} {id x : Handle} {editor : Editor S} {steps n : Nat}

theorem postorderWithin_succ (found : a.get? id = some editor) :
    a.postorderWithin (steps + 1) id =
      editor.state.children.flatMap (a.postorderWithin steps) ++ [id] := by
  simp only [postorderWithin, found]

theorem postorderWithin_eq {steps' : Nat} (forest : a.links.Forest) (depth : a.links.Depth id n)
    (enough : a.size ≤ steps + n) (enough' : a.size ≤ steps' + n) :
    a.postorderWithin steps id = a.postorderWithin steps' id := by
  have inside := depth_lt_size depth
  induction steps generalizing steps' id n with
  | zero => omega
  | succ steps ih =>
    obtain ⟨steps', rfl⟩ : ∃ k, steps' = k + 1 := ⟨steps' - 1, by omega⟩
    obtain ⟨place, found⟩ := depth.live
    obtain ⟨editor, isLive, rfl⟩ := get?_of_links found
    rw [postorderWithin_succ isLive, postorderWithin_succ isLive]
    congr 1
    apply List.flatMap_congr
    intro c member
    have lower := forest.depth_of_child found member depth
    exact ih lower (by omega) (by omega) (depth_lt_size lower)

theorem postorder_eq (forest : a.links.Forest) (found : a.get? id = some editor) :
    a.postorder id = editor.state.children.flatMap a.postorder ++ [id] := by
  obtain ⟨n, depth⟩ := forest.rooted (links_of_get? found)
  have bound := size_le_slots a
  unfold postorder reach
  rw [postorderWithin_succ found]
  congr 1
  apply List.flatMap_congr
  intro c member
  have lower := forest.depth_of_child (links_of_get? found) member depth
  exact postorderWithin_eq forest lower (by omega) (by omega)

theorem mem_postorderWithin (forest : a.links.Forest) (depth : a.links.Depth id n)
    (enough : a.size ≤ steps + n) : x ∈ a.postorderWithin steps id ↔ a.links.Within id x := by
  have inside := depth_lt_size depth
  induction steps generalizing id n with
  | zero => omega
  | succ steps ih =>
    obtain ⟨place, found⟩ := depth.live
    obtain ⟨editor, isLive, rfl⟩ := get?_of_links found
    rw [postorderWithin_succ isLive, forest.within_iff found, List.mem_append, List.mem_flatMap,
      List.mem_singleton, or_comm]
    apply or_congr_right
    apply exists_congr
    intro c
    apply and_congr_right
    intro member
    have lower := forest.depth_of_child found member depth
    exact ih lower (by omega) (depth_lt_size lower)

theorem nodup_postorderWithin (forest : a.links.Forest) (depth : a.links.Depth id n)
    (enough : a.size ≤ steps + n) : (a.postorderWithin steps id).Nodup := by
  have inside := depth_lt_size depth
  induction steps generalizing id n with
  | zero => omega
  | succ steps ih =>
    obtain ⟨place, found⟩ := depth.live
    obtain ⟨editor, isLive, rfl⟩ := get?_of_links found
    have lower : ∀ c ∈ editor.state.children, a.links.Depth c (n + 1) :=
      fun c member => forest.depth_of_child found member depth
    have below : ∀ c ∈ editor.state.children, ∀ y,
        y ∈ a.postorderWithin steps c ↔ a.links.Within c y := fun c member y =>
      mem_postorderWithin forest (lower c member) (by omega)
    rw [postorderWithin_succ isLive]
    apply List.Nodup.append
    · apply List.nodup_flatMap.2
      constructor
      · intro c member
        exact ih (lower c member) (by omega) (depth_lt_size (lower c member))
      · apply (List.pairwise_iff_forall_sublist).2
        intro c d pair
        have first : c ∈ editor.state.children := pair.subset (by simp)
        have second : d ∈ editor.state.children := pair.subset (by simp)
        have different : c ≠ d := by
          rintro rfl
          exact List.nodup_iff_sublist.1 (forest.distinct found) c pair
        intro y inFirst inSecond
        exact forest.siblings_apart found first second different
          ((below c first y).1 inFirst) ((below d second y).1 inSecond)
    · simp
    · intro y inside here
      obtain rfl := List.mem_singleton.1 here
      obtain ⟨c, member, within⟩ := List.mem_flatMap.1 inside
      exact forest.not_within_of_child found member ((below c member y).1 within)

theorem turns_disposeAll {place : Place} {p : Handle} {free : Handle → Arena S → Arena S}
    (order : Handle → List Handle) (forest : a₀.links.Forest) (found : a₀.links p = some place)
    (each : ∀ c ∈ place.children, ∀ b : Arena S,
      (∀ y, a₀.links.Within c y → b.get? y = a₀.get? y) →
      b.Turns (freeing (order c)) (free c b) ∧
      (∀ y, ¬ a₀.links.Within c y → (free c b).get? y = b.get? y))
    (kids : List Handle) (listed : ∀ c ∈ kids, c ∈ place.children) (distinct : kids.Nodup)
    (b : Arena S) (agree : ∀ c ∈ kids, ∀ y, a₀.links.Within c y → b.get? y = a₀.get? y) :
    b.Turns (freeing (kids.flatMap order)) (kids.foldl (fun b c => free c b) b) := by
  induction kids generalizing b with
  | nil => exact .refl
  | cons c rest ih =>
    obtain ⟨unlisted, distinct⟩ := List.nodup_cons.1 distinct
    obtain ⟨freed, kept⟩ := each c (listed c (by simp)) b (agree c (by simp))
    have later := ih (fun d member => listed d (by simp [member])) distinct (free c b) ?_
    · rw [List.flatMap_cons, freeing_append]
      exact freed.trans later
    · intro d member y within
      rw [kept y ?_]
      · exact agree d (by simp [member]) y within
      · refine forest.siblings_apart found (listed d (by simp [member])) (listed c (by simp)) ?_ within
        rintro rfl
        exact unlisted member

theorem turns_disposeWithin (forest : a₀.links.Forest) (depth : a₀.links.Depth id n)
    (enough : a₀.size ≤ steps + n) (agree : ∀ y, a₀.links.Within id y → a.get? y = a₀.get? y) :
    a.Turns (freeing (a₀.postorderWithin steps id)) (a.disposeWithin steps id) := by
  have inside := depth_lt_size depth
  induction steps generalizing id a n with
  | zero => omega
  | succ steps ih =>
    obtain ⟨place, found⟩ := depth.live
    obtain ⟨editor, isLive, rfl⟩ := get?_of_links found
    have lower : ∀ c ∈ editor.state.children, a₀.links.Depth c (n + 1) :=
      fun c member => forest.depth_of_child found member depth
    have agreeBelow : ∀ c ∈ editor.state.children, ∀ y, a₀.links.Within c y →
        a.get? y = a₀.get? y := fun c member y within =>
      agree y ((forest.within_of_child found member).trans within)
    have here : a.get? id = some editor := (agree id .here).trans isLive
    have below := turns_disposeAll (a₀.postorderWithin steps) forest found
      (fun c member b agree => ⟨ih (lower c member) (by omega) agree (depth_lt_size (lower c member)),
        (get?_disposeWithin forest (lower c member) (by omega) agree).2⟩)
      editor.state.children (fun c member => member) (forest.distinct found) a agreeBelow
    rw [postorderWithin_succ isLive, freeing_append]
    simp only [disposeWithin, here]
    exact below.release
      (contains_iff.2 ⟨editor, live_above_disposed forest depth enough isLive agree⟩)

theorem turns_dispose (forest : a₀.links.Forest) (isLive : a₀.get? id = some editor)
    (sameSlots : a.slots.size = a₀.slots.size)
    (agree : ∀ y, a₀.links.Within id y → a.get? y = a₀.get? y) :
    a.Turns (freeing (a₀.postorder id)) (a.dispose id) := by
  obtain ⟨n, depth⟩ := forest.rooted (links_of_get? isLive)
  have bound := size_le_slots a₀
  have turns : a.Turns (freeing (a₀.postorder id)) (a.disposeWithin a₀.reach id) :=
    turns_disposeWithin forest depth (by simp only [reach]; omega) agree
  have sameReach : a.reach = a₀.reach := by simp only [reach, sameSlots]
  rw [dispose, sameReach]
  exact turns

/-- A subtree was given back. Exactly its editors are stale; their slots are empty, of the next
generation, and lie on the stack of empty slots, the one of the root of the subtree on top. So they
are given away again in the opposite order. -/
structure Discards (a : Arena S) (top : Handle) (b : Arena S) : Prop where
  stale : ∀ x, b.contains x = true ↔ a.contains x = true ∧ ¬ a.links.Within top x
  raised : ∀ x, a.links.Within top x → a.generation? x.index = some x.generation ∧
    b.slots[x.index]? = some ⟨x.generation + 1, none⟩
  kept : ∀ index, (∀ x, a.links.Within top x → x.index ≠ index) →
    b.generation? index = a.generation? index
  order : ∀ x e, a.get? x = some e →
    a.postorder x = e.state.children.flatMap a.postorder ++ [x]
  free : b.free = ((a.postorder top).map (·.index)).reverse ++ a.free
  reused : ∀ ids c, b.Turns (issuing ids) c → ids.length ≤ (a.postorder top).length →
    ids = ((a.postorder top).reverse.map (·.successor)).take ids.length

theorem mem_postorder (forest : a.links.Forest) (found : a.get? id = some editor) :
    x ∈ a.postorder id ↔ a.links.Within id x := by
  obtain ⟨n, depth⟩ := forest.rooted (links_of_get? found)
  have bound := size_le_slots a
  exact mem_postorderWithin forest depth (by simp only [reach]; omega)

theorem nodup_indices_postorder (forest : a.links.Forest) (found : a.get? id = some editor) :
    ((a.postorder id).map (·.index)).Nodup := by
  obtain ⟨n, depth⟩ := forest.rooted (links_of_get? found)
  have bound := size_le_slots a
  have distinct : (a.postorder id).Nodup :=
    nodup_postorderWithin forest depth (by simp only [reach]; omega)
  apply (List.nodup_map_iff_inj_on distinct).2
  intro x first y second same
  obtain ⟨_, xLive⟩ := live_within found ((mem_postorder forest found).1 first)
  obtain ⟨_, yLive⟩ := live_within found ((mem_postorder forest found).1 second)
  exact handle_eq_of_index xLive yLive same

theorem Turns.size_eq (turns : a.Turns log b) (freed : ∀ turnover ∈ log, ∃ id, turnover = .freed id) :
    b.slots.size = a.slots.size := by
  induction turns with
  | refl => rfl
  | modify id f _ ih => rw [size_slots_modify, ih freed]
  | allocate editor _ _ =>
    obtain ⟨_, different⟩ := freed _ List.mem_cons_self
    cases different
  | release _ live ih =>
    rw [Arena.release, if_pos live, ← ih fun turnover member => freed turnover (.tail _ member)]
    simp

theorem generation?_freed (exact : a.Exact) (forest : a.links.Forest) (found : a.get? id = some editor)
    (turns : a.Turns (freeing (a.postorder id)) b) (index : Nat) :
    b.generation? index = (a.generation? index).map
      (· + UInt32.ofNat (if index ∈ (a.postorder id).map (·.index) then 1 else 0)) := by
  have sameSize : b.slots.size = a.slots.size := by
    apply turns.size_eq
    intro turnover member
    obtain ⟨x, _, rfl⟩ := List.mem_map.1 (List.mem_reverse.1 member)
    exact ⟨x, rfl⟩
  by_cases inside : index < a.slots.size
  · rw [turns.generation? exact inside, timesFreed_freeing (nodup_indices_postorder forest found)]
  · have outside : a.slots[index]? = none := Array.getElem?_eq_none (Nat.not_lt.1 inside)
    have outside' : b.slots[index]? = none :=
      Array.getElem?_eq_none (sameSize ▸ Nat.not_lt.1 inside)
    simp [generation?, outside, outside']

theorem raised_freed (exact : a.Exact) (forest : a.links.Forest) (found : a.get? id = some editor)
    (turns : a.Turns (freeing (a.postorder id)) b) (within : a.links.Within id x) :
    b.generation? x.index = some (x.generation + 1) := by
  obtain ⟨e, isLive⟩ := live_within found within
  have listed : x.index ∈ (a.postorder id).map (·.index) :=
    List.mem_map_of_mem ((mem_postorder forest found).2 within)
  rw [generation?_freed exact forest found turns, generation?_of_get? isLive, if_pos listed]
  rfl

theorem free_freed (turns : a.Turns (freeing (a.postorder id)) b) :
    b.free = ((a.postorder id).map (·.index)).reverse ++ a.free := by
  rw [turns.free, recycle_freeing]

/-- The handles that are given away next are those of the subtree, of the next generation. -/
theorem vacant_freed (exact : a.Exact) (forest : a.links.Forest) (found : a.get? id = some editor)
    (turns : a.Turns (freeing (a.postorder id)) b) :
    b.vacant = (a.postorder id).reverse.map (·.successor) ++
      a.free.map fun index => ⟨index, (b.generation? index).getD 0⟩ := by
  rw [vacant, free_freed turns, List.map_append, ← List.map_reverse, List.map_map]
  congr 1
  apply List.map_congr_left
  intro x member
  have next := raised_freed exact forest found turns
    ((mem_postorder forest found).1 (List.mem_reverse.1 member))
  simp [next, Handle.successor]

theorem discards_of_turns (exact : a.Exact) (forest : a.links.Forest)
    (found : a.get? id = some editor) (turns : a.Turns (freeing (a.postorder id)) b)
    (gone : ∀ x, a.links.Within id x → b.get? x = none)
    (left : ∀ x, ¬ a.links.Within id x → b.contains x = a.contains x) : a.Discards id b where
  stale x := by
    by_cases within : a.links.Within id x
    · simp [contains, gone x within, within]
    · simp [left x within, within]
  raised x within := by
    obtain ⟨e, isLive⟩ := live_within found within
    have empty : x.index ∈ b.free := by
      rw [free_freed turns]
      apply List.mem_append_left
      apply List.mem_reverse.2
      exact List.mem_map_of_mem ((mem_postorder forest found).2 within)
    obtain ⟨generation, held⟩ := ((turns.exact exact).2 x.index).1 empty
    have next := raised_freed exact forest found turns within
    rw [generation?, held] at next
    cases next
    exact ⟨generation?_of_get? isLive, held⟩
  kept index elsewhere := by
    have unlisted : index ∉ (a.postorder id).map (·.index) := by
      intro member
      obtain ⟨x, inside, same⟩ := List.mem_map.1 member
      exact elsewhere x ((mem_postorder forest found).1 inside) same
    rw [generation?_freed exact forest found turns, if_neg unlisted]
    simp
  order x e isLive := postorder_eq forest isLive
  free := free_freed turns
  reused ids c issued enough := by
    have taken := (issued.issued (turns.exact exact) (by
      rw [free_freed turns, List.length_append, List.length_reverse, List.length_map]
      omega)).1
    rw [vacant_freed exact forest found turns,
      List.take_append_of_le_length (by simpa using enough)] at taken
    exact taken

variable [Language S] {context : Context} {state : EditorState S}

theorem turns_insert (context : Context) (state : EditorState S) (a : Arena S) :
    a.Turns (issuing [(a.insert context state).1]) (a.insert context state).2 := by
  have adopted : a.Turns [.issued (a.allocate { context, state }).1] (state.children.foldl
      (fun b child => b.setParent (some (a.allocate { context, state }).1) child)
      (a.allocate { context, state }).2) :=
    Stable.foldl _ (fun _ child turns => turns.modify child _) (Turns.refl.allocate _)
  unfold insert
  dsimp only
  split
  · exact adopted.modify _ _
  · exact adopted

theorem turns_create (c : ClassKey S) (context : Context) (a : Arena S) :
    ∃ before, a.Turns (issuing (before ++ [((create c context).run a).1]))
      ((create c context).run a).2 := by
  have growable : Growable fun b => ∃ ids, a.Turns (issuing ids) b := by
    constructor
    · rintro b id f ⟨ids, turns⟩
      exact ⟨ids, turns.modify id f⟩
    · rintro b editor ⟨ids, turns⟩
      refine ⟨ids ++ [(b.allocate editor).1], ?_⟩
      rw [issuing_concat]
      exact turns.allocate editor
  have leaf : ∀ (b : Arena S) state ids, a.Turns (issuing ids) b →
      ∃ before, a.Turns (issuing (before ++ [(b.insert context state).1]))
        (b.insert context state).2 := by
    intro b state ids turns
    refine ⟨ids, ?_⟩
    rw [issuing_concat]
    exact turns.trans (turns_insert context state b)
  cases c with
  | compound k =>
    obtain ⟨ids, turns⟩ := mapM_keeps (P := fun b => ∃ ids, a.Turns (issuing ids) b)
      (fun c (_ : c ∈ (Language.compound k).components) b made => growable.create context c made)
      ⟨[], .refl⟩
    rw [create_compound_eq]
    exact leaf _ _ ids turns
  | token k =>
    rw [create_token_eq]
    exact leaf a _ [] .refl
  | expander k =>
    rw [create_expander_eq]
    exact leaf a _ [] .refl
  | list k =>
    rw [create_list_eq]
    exact leaf a _ [] .refl

theorem create_expander (k : S.ExpanderClass) (context : Context) (sound : a.Sound) :
    ∃ fresh, ((create (.expander k) context).run a).2.get?
        ((create (.expander k) context).run a).1 = some fresh ∧
      fresh.state = .expander k .initial ∧ fresh.result = compileText k "" none := by
  obtain ⟨sound', _, ⟨result, found⟩, _⟩ :=
    insert_spec context (.expander k .initial) sound nofun List.nodup_nil
  rw [create_expander_eq]
  refine ⟨_, found, rfl, ?_⟩
  have settled := sound'.settled _ _ found
  exact (Except.ok.inj settled).symm

end Arena

namespace Workspace

variable [Language S] {w w' : Workspace S} {x y c top : Handle} {editor : Editor S}

/-- A subtree was cut off an editor, which is in another state now. All other editors are as they
were; only the results above the cut may have changed. -/
structure Cut (w : Workspace S) (x c : Handle) (editor : Editor S) (state : EditorState S)
    (w' : Workspace S) : Prop where
  discards : w.arena.Discards c w'.arena
  here : ∃ result, w'.arena.get? x = some { editor with state, result }
  others : ∀ y e, w.arena.get? y = some e → y ≠ x → ¬ w.arena.links.Within c y →
    w'.arena.outline y = some e.blank ∧
      (¬ w.arena.links.Within y x → w'.arena.get? y = some e)

theorem finish_turns {log : List Turnover} {b : Arena S} {id : Handle} {notice : Notice S}
    (turns : w.arena.Turns log b) {journal : Array (Event S)} :
    Ensures (do recompute id; tell id notice) { w with arena := b, journal }
      fun w' => w.arena.Turns log w'.arena :=
  Sustains.bind (Q := fun w' => w.arena.Turns log w'.arena)
    (recompute_keeps (fun id f turns => turns.modify id f) id) (fun _ => tell_respects id notice)
    _ turns

omit [Language S] in
theorem cut_turns {state : EditorState S} (forest : w.arena.links.Forest)
    (found : w.arena.get? x = some editor)
    (order : editor.state.children.Perm (c :: state.children)) :
    w.arena.Turns (freeing (w.arena.postorder c)) ((w.arena.setState x state).dispose c) := by
  have member : c ∈ editor.state.children := order.symm.subset List.mem_cons_self
  obtain ⟨child, childFound, _⟩ := Arena.live_child forest found member
  have written : w.arena.Turns [] (w.arena.setState x state) := .modify x _ .refl
  have freed := Arena.turns_dispose (a := w.arena.setState x state) forest childFound
    (Arena.size_slots_modify x _ _) fun y within => by
      rw [Arena.get?_setState, if_neg]
      rintro rfl
      exact forest.not_within_of_child (Arena.links_of_get? found) member within
  have all := written.trans freed
  rwa [List.append_nil] at all

theorem Rewrites.cut {state : EditorState S}
    (done : Rewrites w w' x state (w.arena.links.Within c)) (sound : w.arena.Sound)
    (found : w.arena.get? x = some editor)
    (order : editor.state.children.Perm (c :: state.children))
    (gone : ∀ y, w.arena.links.Within c y → w'.arena.outline y = none)
    (turns : w.arena.Turns (freeing (w.arena.postorder c)) w'.arena) :
    Cut w x c editor state w' := by
  have forest := sound.forest
  have member : c ∈ editor.state.children := order.symm.subset List.mem_cons_self
  obtain ⟨child, childFound, above⟩ := Arena.live_child forest found member
  obtain ⟨e, isLive, same⟩ := Arena.get?_of_outline (done.here _ (Arena.outline_of_get? found))
  have outside : ¬ w.arena.links.Within c x :=
    forest.not_within_of_child (Arena.links_of_get? found) member
  constructor
  · apply Arena.discards_of_turns sound.exact forest childFound turns
    · exact fun y within => Arena.outline_eq_none_iff.1 (gone y within)
    · intro y beyond
      by_cases here : y = x
      · subst here
        simp [Arena.contains, isLive, found]
      · have kept := done.kept y here beyond
        have some : ∀ a : Arena S, a.contains y = (a.outline y).isSome := by
          simp [Arena.contains, Arena.outline]
        rw [some, some, kept]
  · have whole : e = { e.blank with result := e.result } := rfl
    rw [same] at whole
    exact ⟨e.result, isLive.trans (congrArg some whole)⟩
  · intro y e isLive other beyond
    have outlined := Arena.outline_of_get? isLive
    refine ⟨(done.kept y other beyond).trans outlined, fun apart => ?_⟩
    refine Arena.get?_of_subtree sound done.sound isLive fun z e' below there => ?_
    rw [done.kept z (by rintro rfl; exact apart below) ?_]
    · exact there
    · -- what is below both `y` and `c` has them above one another
      intro within
      rcases below.comparable within with upper | lower
      · by_cases same : y = c
        · subst same
          exact beyond .here
        · exact apart (upper.to_parent (Ne.symm same) (Arena.links_of_get? childFound) above)
      · exact beyond lower

theorem dropContent_cuts {k : S.ExpanderClass} (sound : w.arena.Sound)
    (found : w.arena.get? x = some editor) (held : editor.state = .expander k (.expanded c)) :
    ∃ w', dropContent x w = .ok () w' ∧ w'.arena.Sound ∧ Quiet w w' ∧
      Cut w x c editor (.expander k .initial) w' := by
  have state := Arena.state?_of_get? found
  rw [held] at state
  have asked : ask (·.expander x) w = .ok (k, .expanded c) w :=
    ask_run (Arena.expander_eq_ok_iff.2 state)
  have order : editor.state.children.Perm (c :: (EditorState.expander k .initial).children) := by
    rw [held]
    exact .refl _
  obtain ⟨journal, remarked⟩ := remark_run ((Language.expander k).remarkOnReset x c
    ((w.arena.setState x (.expander k .initial)).contains c))
    { w with arena := w.arena.setState x (.expander k .initial) }
  have turns : Ensures (dropContent x) w fun w' =>
      w.arena.Turns (freeing (w.arena.postorder c)) w'.arena :=
    .after_ok asked (.after_ok (setState_run found) (.after_ok (Action.get_run _)
      (.after_ok remarked (.after_ok (dispose_run c _)
        (finish_turns (cut_turns sound.forest found order))))))
  obtain ⟨w', ran, done, gone⟩ := dropContent_run sound state
  exact ⟨w', ran, done.sound, done.quiet, done.cut sound found order gone (turns.ok_of ran)⟩

theorem dropItem_cuts {k : S.ListClass} {ids : List Handle} {index : Nat} (sound : w.arena.Sound)
    (found : w.arena.get? x = some editor) (held : editor.state = .list k ids)
    (listed : ids[index]? = some c) :
    ∃ w', dropItem x index w = .ok () w' ∧ w'.arena.Sound ∧ Quiet w w' ∧
      Cut w x c editor (.list k (ids.eraseIdx index)) w' := by
  have state := Arena.state?_of_get? found
  rw [held] at state
  have asked : ask (·.list x) w = .ok (k, ids) w := ask_run (Arena.list_eq_ok_iff.2 state)
  obtain ⟨inside, same⟩ := List.getElem?_eq_some_iff.1 listed
  have order : editor.state.children.Perm
      (c :: (EditorState.list k (ids.eraseIdx index)).children) := by
    rw [held, ← same]
    exact (List.getElem_cons_eraseIdx_perm inside).symm
  have turns : Ensures (dropItem x index) w fun w' =>
      w.arena.Turns (freeing (w.arena.postorder c)) w'.arena :=
    .after_ok (itemAt_run state listed) (.after_ok asked (.after_ok (setState_run found)
      (.after_ok (dispose_run c _) (finish_turns (cut_turns sound.forest found order)))))
  obtain ⟨w', ran, done, gone⟩ := dropItem_run sound state listed
  exact ⟨w', ran, done.sound, done.quiet, done.cut sound found order gone (turns.ok_of ran)⟩

omit [Language S] in
theorem Cut.recorded {state : EditorState S} {w'' : Workspace S} (cut : Cut w x c editor state w')
    (same : w''.arena = w'.arena) : Cut w x c editor state w'' := by
  obtain ⟨discards, here, others⟩ := cut
  rw [← same] at discards here others
  exact ⟨discards, here, others⟩

theorem reset_cuts {k : S.ExpanderClass} (sound : w.arena.Sound)
    (found : w.arena.get? x = some editor) (held : editor.state = .expander k (.expanded c)) :
    ∃ w', reset x w = .ok () w' ∧ w'.arena.Sound ∧ Cut w x c editor (.expander k .initial) w' := by
  have state := Arena.state?_of_get? found
  rw [held] at state
  have expanded : ask (·.isExpanded x) w = .ok true w :=
    ask_run (Arena.isExpanded_eq_ok_iff.2 ⟨k, _, state, rfl⟩)
  obtain ⟨w', ran, sound', quiet, cut⟩ := dropContent_cuts sound found held
  obtain ⟨result, here⟩ := cut.here
  obtain ⟨edit, recorded⟩ := recordTransition_notes "Reset" sound found held ran sound' quiet
    (Arena.state?_of_get? here)
  refine ⟨{ w' with histories := w.noting editor.context edit }, ?_, sound', cut.recorded rfl⟩
  simp only [reset, Action.bind_run_ok _ expanded]
  exact recorded

theorem removeAt_cuts {k : S.ListClass} {ids : List Handle} {index : Nat} (sound : w.arena.Sound)
    (found : w.arena.get? x = some editor) (held : editor.state = .list k ids)
    (listed : ids[index]? = some c) :
    ∃ w', removeAt x index w = .ok () w' ∧ Cut w x c editor (.list k (ids.eraseIdx index)) w' := by
  have state := Arena.state?_of_get? found
  rw [held] at state
  have member : c ∈ editor.state.children := by
    rw [held]
    exact List.mem_of_getElem? listed
  obtain ⟨w', ran, sound', quiet, cut⟩ := dropItem_cuts sound found held listed
  obtain ⟨_, dropped, done, _⟩ := dropItem_run sound state listed
  cases ran.symm.trans dropped
  have below := done.changes found (by rw [held]; rfl) fun y within =>
    (sound.forest.within_of_child (Arena.links_of_get? found) member).trans within
  obtain ⟨w'', removed, noted⟩ := removeAt_noted sound state listed ran
    ⟨sound', below, quiet.contexts, .of_eq quiet.histories⟩
  exact ⟨w'', removed, cut.recorded noted.arena⟩

theorem removeDocument_discards (sound : w.arena.Sound) (found : w.arena.get? top = some editor)
    (isRoot : editor.parent = none) :
    ∃ w', removeDocument top w = .ok () w' ∧ w.arena.Discards top w'.arena ∧
      ∀ y, ¬ w.arena.links.Within top y → w'.arena.get? y = w.arena.get? y := by
  obtain ⟨_, gone, kept⟩ := Arena.sound_dispose_root sound found isRoot
  have turns := Arena.turns_dispose sound.forest found rfl fun y _ => rfl
  refine ⟨{ w with arena := w.arena.dispose top }, ?_, ?_, kept⟩
  · simp only [removeDocument, Action.bind_run_ok _ (lookup_run found), isRoot,
      Option.isSome_none, Bool.false_eq_true, if_false]
    rfl
  · apply Arena.discards_of_turns sound.exact sound.forest found turns gone
    intro y beyond
    simp only [Arena.contains, kept y beyond]

/-- Resetting an expander, taking an item out of a list and removing a document free exactly a
subtree, from left to right and children before their parent. A reset expander is like a fresh one
of its class. -/
theorem discarding_frees_the_subtree (reached : Reaches {} w) :
    (∀ x editor k content, w.arena.get? x = some editor →
      editor.state = .expander k (.expanded content) →
      ∃ w', reset x w = .ok () w' ∧ Cut w x content editor (.expander k (.text "" none)) w' ∧
        ∀ (a : Arena S) context, a.Sound → ∃ fresh reset,
          ((Arena.create (.expander k) context).run a).2.get?
            ((Arena.create (.expander k) context).run a).1 = some fresh ∧
          w'.arena.get? x = some reset ∧ reset.state = fresh.state ∧
          reset.result = fresh.result) ∧
    (∀ x editor k items index item, w.arena.get? x = some editor →
      editor.state = .list k items → items[index]? = some item →
      ∃ w', removeAt x index w = .ok () w' ∧
        Cut w x item editor (.list k (items.eraseIdx index)) w') ∧
    (∀ top editor, w.arena.get? top = some editor → editor.parent = none →
      ∃ w', removeDocument top w = .ok () w' ∧ w.arena.Discards top w'.arena ∧
        ∀ y, ¬ w.arena.links.Within top y → w'.arena.get? y = w.arena.get? y) ∧
    ∀ (a : Arena S) c context, ∃ before,
      a.Turns (issuing (before ++ [((Arena.create c context).run a).1]))
        ((Arena.create c context).run a).2 := by
  have sound : w.arena.Sound := reached.sound Arena.sound_empty
  refine ⟨?_, ?_, ?_, fun a c context => Arena.turns_create c context a⟩
  · intro x editor k content found held
    obtain ⟨w', ran, sound', cut⟩ := reset_cuts sound found held
    refine ⟨w', ran, cut, fun a context soundA => ?_⟩
    obtain ⟨fresh, created, state, result⟩ := Arena.create_expander k context soundA
    obtain ⟨mine, here⟩ := cut.here
    refine ⟨fresh, _, created, here, state.symm, ?_⟩
    have settled := sound'.settled x _ here
    rw [result]
    exact (Except.ok.inj settled).symm
  · intro x editor k items index item found held listed
    exact removeAt_cuts sound found held listed
  · intro top editor found isRoot
    exact removeDocument_discards sound found isRoot

section

open Sample

def wrappedPair : Workspace expression :=
  performAll [.create (.compound CompoundName.pair) ⟨0, []⟩,
    .wrap ExpanderName.expr ⟨2, 0⟩ ⟨0, []⟩] desk

theorem reaches_wrappedPair : Reaches {} wrappedPair :=
  reaches_performAll _ (.beside (.refl _) rfl) (by simp [Allowed])

theorem wrappedPair_discards : ∃ w', reset ⟨3, 0⟩ wrappedPair = .ok () w' ∧
    w'.arena.free = [2, 1, 0] ∧ ∀ ids b, w'.arena.Turns (issuing ids) b → ids.length ≤ 3 →
      ids = [⟨2, 1⟩, ⟨1, 1⟩, ⟨0, 1⟩].take ids.length := by
  have order : wrappedPair.arena.postorder ⟨2, 0⟩ = [⟨0, 0⟩, ⟨1, 0⟩, ⟨2, 0⟩] := by
    decide +kernel
  have noneFree : wrappedPair.arena.free = [] := by decide +kernel
  obtain ⟨w', ran, cut, -⟩ := (discarding_frees_the_subtree reaches_wrappedPair).1 ⟨3, 0⟩ _
    ExpanderName.expr ⟨2, 0⟩ rfl rfl
  have free := cut.discards.free
  have reused := cut.discards.reused
  rw [order] at free reused
  rw [noneFree] at free
  exact ⟨w', ran, free, reused⟩

end

end Workspace

end StructureEditor
