import StructureEditor.Proofs.Confinement
import StructureEditor.Proofs.Groups
import StructureEditor.Proofs.TakingBack

/-! Separators. A character that separates the items of a list is typed behind an item: the text
before it stays as it is, and a fresh item follows. Both are one step of the history, and undoing
that step gives back what there was. -/
namespace StructureEditor

variable {S : Signature}

theorem stripSeparator?_push (text : String) (c : Char) :
    Workspace.stripSeparator? c (text.push c) = some text := by
  simp [Workspace.stripSeparator?, String.toList_push]

structure Arena.TextItem (a : Arena S) (x list : Handle) (e above : Editor S) (k : S.ExpanderClass)
    (old : String) (oldItem : Option Candidate) (l : S.ListClass) (items : List Handle) : Prop where
  found : a.get? x = some e
  held : e.state = .expander k (.text old oldItem)
  hasParent : e.parent = some list
  upper : a.get? list = some above
  isList : above.state = .list l items
  sameContext : above.context = e.context

section

variable {a a' : Arena S} {x list fresh y : Handle} {e above editor : Editor S}
  {k : S.ExpanderClass} {old t : String} {oldItem : Option Candidate} {l : S.ListClass}
  {items : List Handle} {index : Nat}

namespace Arena.TextItem

variable (place : a.TextItem x list e above k old oldItem l items)

include place

theorem state? : a.state? x = some (.expander k (.text old oldItem)) := by
  rw [← place.held]
  exact state?_of_get? place.found

theorem other : list ≠ x := by
  rintro rfl
  cases place.found.symm.trans place.upper
  cases place.held.symm.trans place.isList

end Arena.TextItem

variable [Language S]

/-- An item shows the text that was typed before the separator, and an item with nothing in it
follows. All other editors are as they were; only the results above may have changed. -/
structure Arena.Separated (a : Arena S) (x list : Handle) (index : Nat) (t : String)
    (fresh : Handle) (a' : Arena S) : Prop where
  sound : a'.Sound
  typed : ∀ e k display, a.get? x = some e → e.state = .expander k display →
    a'.outline x = some { e.blank with state := .expander k (.text t none) }
  listed : ∀ e l items, a.get? list = some e → e.state = .list l items →
    a'.outline list = some { e.blank with state := .list l (items.insertIdx index fresh) }
  unused : a.get? fresh = none
  attached : ∀ e, a.get? list = some e → ∃ child, a'.outline fresh = some child ∧
    child.parent = some list ∧ child.context = e.context
  blank : ∀ l items, a.state? list = some (.list l items) →
    ∃ d, a'.Shows fresh d ∧ d.classKey = (Language.list l).element ∧ d.Blank
  others : ∀ y e, a.get? y = some e → y ≠ x → y ≠ list →
    a'.outline y = some e.blank ∧ (¬ a.links.Within y x → a'.get? y = some e)

theorem Arena.textItem_of_listed (sound : a.Sound) (isList : a.state? list = some (.list l items))
    (listed : items[index]? = some x) (found : a.get? x = some e)
    (held : e.state = .expander k (.text old oldItem)) :
    ∃ above, a.TextItem x list e above k old oldItem l items := by
  obtain ⟨above, upper, isState⟩ := get?_of_state? isList
  have member : x ∈ above.state.children := by
    rw [isState]
    exact List.mem_of_getElem? listed
  obtain ⟨_, linked, hasParent⟩ := sound.forest.linked (links_of_get? upper) member
  cases (links_of_get? found).symm.trans linked
  have shares : above.state.sharesContext = true := by
    rw [isState]
    rfl
  exact ⟨above, found, held, hasParent, upper, isState,
    (sound.shared list above upper shares x member e found).symm⟩

theorem Arena.TextItem.parents (place : a.TextItem x list e above k old oldItem l items)
    (separated : a.Separated x list index t fresh a') (isLive : a.get? y = some editor) :
    ∃ e', a'.get? y = some e' ∧ e'.parent = editor.parent := by
  have outlined : ∃ e', a'.outline y = some e' ∧ e'.parent = editor.parent := by
    by_cases isItem : y = x
    · subst isItem
      cases place.found.symm.trans isLive
      exact ⟨_, separated.typed e k _ place.found place.held, rfl⟩
    · by_cases same : y = list
      · subst same
        cases place.upper.symm.trans isLive
        exact ⟨_, separated.listed above l items place.upper place.isList, rfl⟩
      · exact ⟨_, (separated.others y editor isLive isItem same).1, rfl⟩
  obtain ⟨e', outlined, same⟩ := outlined
  obtain ⟨editor', now, rfl⟩ := get?_of_outline outlined
  exact ⟨editor', now, same⟩

end

namespace Workspace

variable [Language S] {w w' : Workspace S} {x list fresh : Handle} {e above : Editor S}
  {k : S.ExpanderClass} {l : S.ListClass} {items : List Handle} {index : Nat} {old t : String}
  {oldItem : Option Candidate} {h : HistoryId}

theorem separate_run (t : String) (sound : w.arena.Sound)
    (place : w.arena.TextItem x list e above k old oldItem l items) (inside : index ≤ items.length) :
    ∃ (fresh : Handle) (w' : Workspace S) (L M : Locator) (s : Snapshot),
      w.arena.locate x = .ok L ∧ w'.arena.locate list = .ok M ∧
      (do
        recordTransition x "Type" (showText x t none)
        openItem list index) w = .ok fresh { w' with
          histories := ({ w with
            histories := w.noting e.context
              (.transition L (.text old oldItem) (.text t none) "Type") } : Workspace S).noting
            e.context (.insertion M index s) } ∧
      w.arena.Separated x list index t fresh w'.arena := by
  obtain ⟨root, way, _, located, _⟩ := Arena.locate_spec sound.forest place.found
  obtain ⟨w₁, shown, done⟩ := showText_run t none sound place.state?
  have here := done.here _ (Arena.outline_of_get? place.found)
  have typed := recordTransition_takes "Type" place.found located
    (Arena.displaySnapshot_text place.state?) shown done.quiet
    (Arena.displaySnapshot_text (done.state?_eq place.found))
  have same : ∀ y, y ≠ x → w₁.arena.outline y = w.arena.outline y :=
    fun y unequal => done.kept y unequal not_false
  obtain ⟨above', upper', state', context', _⟩ :=
    Arena.kept_of_outline ((same list place.other).trans (Arena.outline_of_get? place.upper))
  obtain ⟨fresh, w', M, s, locatedList, opened, quiet, gains, attached, d, seen, key, blank⟩ :=
    openItem_opens (w := { w₁ with
      histories := w.noting e.context
        (.transition ⟨root, way⟩ (.text old oldItem) (.text t none) "Type") })
      done.sound upper' (state'.trans place.isList) inside
  have together := gains.since place.other here same
  have moved : ∀ histories, Quiet { w with histories } { w₁ with histories } :=
    fun _ => ⟨rfl, done.quiet.views, done.quiet.contexts⟩
  have sameContext : above'.context = e.context := context'.trans place.sameContext
  refine ⟨fresh, w', ⟨root, way⟩, M, s, located, locatedList, ?_, gains.sound, ?_, ?_,
    Arena.outline_eq_none_iff.1 together.fresh, ?_, ?_, ?_⟩
  · rw [Action.bind_run_ok _ typed, opened, sameContext, (moved _).noting]
  · intro e' k' display isLive isState
    cases place.found.symm.trans isLive
    cases place.held.symm.trans isState
    exact gains.kept x _ (Ne.symm place.other) not_false here
  · intro e' l' items' isLive isState
    exact together.gained _ l' items' (Arena.outline_of_get? isLive) isState
  · intro e' isLive
    cases place.upper.symm.trans isLive
    obtain ⟨child, outlined, isChild, own⟩ := attached
    exact ⟨child, outlined, isChild, own.trans context'⟩
  · intro l' items' isState
    rw [Arena.state?_of_get? place.upper, place.isList] at isState
    cases isState
    exact ⟨d, seen, key, blank⟩
  · intro y e' isLive notItem notList
    exact ⟨together.kept y _ notList notItem (Arena.outline_of_get? isLive),
      together.keeps sound place.found place.hasParent isLive⟩

theorem opening_taken_back {M : Locator} (w' : Workspace S) (s : Snapshot)
    (separated : w.arena.Separated x list index t fresh w'.arena) (sound : w.arena.Sound)
    (place : w.arena.TextItem x list e above k old oldItem l items) (inside : index ≤ items.length)
    (locatedList : w'.arena.locate list = .ok M) :
    ∃ w₁, replay .undo (.insertion M index s) w' = .ok () w₁ ∧ w₁.arena.Sound ∧
      w₁.arena.outline x = some { e.blank with state := .expander k (.text t none) } ∧
      ∀ y editor, w.arena.get? y = some editor → y ≠ x →
        w₁.arena.outline y = some editor.blank := by
  have outlined := separated.listed above l items place.upper place.isList
  obtain ⟨above', upper', _⟩ := Arena.get?_of_outline outlined
  have listed : (items.insertIdx index fresh)[index]? = some fresh := by
    rw [List.getElem?_insertIdx_self, if_pos inside]
  obtain ⟨w₁, dropped, done, _⟩ :=
    dropItem_run separated.sound (Arena.state?_of_outline outlined) listed
  -- nothing that was there before stands below the fresh item
  have kept : ∀ y editor, w.arena.get? y = some editor → y ≠ list →
      w₁.arena.outline y = w'.arena.outline y := fun y editor isLive unequal =>
    done.kept y unequal (Arena.beyond_fresh sound.forest (fun _ _ => place.parents separated)
      separated.unused isLive)
  refine ⟨w₁, ?_, done.sound, ?_, fun y editor isLive unequal => ?_⟩
  · exact (Action.bind_run_ok _ (ask_run (Arena.find_of_locate separated.sound.forest upper'
      locatedList))).trans dropped
  · rw [kept x e place.found (Ne.symm place.other)]
    exact separated.typed e k _ place.found place.held
  · by_cases same : y = list
    · subst same
      cases place.upper.symm.trans isLive
      rw [done.here _ outlined, List.eraseIdx_insertIdx_self, ← place.isList]
      rfl
    · rw [kept y editor isLive same]
      exact (separated.others y editor isLive unequal same).1

theorem typing_taken_back {w₁ : Workspace S} {L : Locator} (after : Display Snapshot)
    (sound : w.arena.Sound) (place : w.arena.TextItem x list e above k old oldItem l items)
    (located : w.arena.locate x = .ok L) (sound₁ : w₁.arena.Sound)
    (typed : w₁.arena.outline x = some { e.blank with state := .expander k (.text t none) })
    (others : ∀ y editor, w.arena.get? y = some editor → y ≠ x →
      w₁.arena.outline y = some editor.blank) :
    ∃ w₂, replay .undo (.transition L (.text old oldItem) after "Type") w₁ = .ok () w₂ ∧
      ∀ y editor, w.arena.get? y = some editor → w₂.arena.get? y = some editor := by
  have changes : w.arena.Changes w₁.arena x := by
    constructor
    · intro y editor isLive outside
      obtain ⟨editor', now, rfl⟩ := Arena.get?_of_outline isLive
      exact others y editor' now (by rintro rfl; exact outside .here)
    · intro editor isLive
      cases (Arena.outline_of_get? place.found).symm.trans isLive
      refine ⟨_, typed, rfl, rfl, rfl, ?_⟩
      change _ = e.state.classKey
      rw [place.held]
      rfl
  have held₁ := Arena.state?_of_outline typed
  obtain ⟨w₂, shown, back⟩ := showText_run old oldItem sound₁ held₁
  have cleared : clear x w₁ = .ok () w₁ := by
    rw [clear, Action.bind_run_ok _ (ask_run (Arena.isExpanded_eq_ok_iff.2 ⟨k, _, held₁, rfl⟩))]
    rfl
  refine ⟨w₂, ?_, fun y editor isLive => Arena.get?_of_grows sound back.sound ?_ isLive⟩
  · refine (Action.bind_run_ok _ (ask_run (changes.find sound.forest place.found located))).trans ?_
    rw [restoreState, restoreStateWith_text, Action.bind_run_ok _ cleared]
    exact shown
  · intro z rest isLive
    obtain ⟨editor', now, rfl⟩ := Arena.get?_of_outline isLive
    by_cases isItem : z = x
    · subst isItem
      cases place.found.symm.trans now
      rw [back.here _ typed, ← place.held]
      rfl
    · rw [back.kept z isItem not_false]
      exact others z editor' now isItem

theorem separation_taken_back {L M : Locator} {s : Snapshot} {after : Display Snapshot}
    (separated : w.arena.Separated x list index t fresh w'.arena) (sound : w.arena.Sound)
    (place : w.arena.TextItem x list e above k old oldItem l items) (inside : index ≤ items.length)
    (located : w.arena.locate x = .ok L) (locatedList : w'.arena.locate list = .ok M)
    (histories : Histories Edit) :
    ∃ w'', [.insertion M index s, .transition L (.text old oldItem) after "Type"].forM
        (replay .undo) { w' with histories } = .ok () w'' ∧
      ∀ y editor, w.arena.get? y = some editor → w''.arena.get? y = some editor := by
  obtain ⟨w₁, removed, sound₁, typed, others⟩ := opening_taken_back { w' with histories } s
    separated sound place inside locatedList
  obtain ⟨w₂, retyped, back⟩ := typing_taken_back after sound place located sound₁ typed others
  refine ⟨w₂, ?_, back⟩
  rw [Action.forM_run_ok _ removed, Action.forM_run_ok _ retyped]
  rfl

theorem record_separation {hs : History Edit} (active : hs.active = true) (L M : Locator)
    (before after : Display Snapshot) (index : Nat) (s : Snapshot) :
    (hs.begin.record (.single (.transition L before after "Type"))).record
        (.single (.insertion M index s)) =
      { hs with
        undone := []
        collected := some [.single (.insertion M index s),
          .single (.transition L before after "Type")] } := by
  simp [History.record, History.begin, active, History.push, Step.merge?, Undoable.merge?,
    Edit.merge?]

/-- A history took one step with this name, and undoing it gives every editor back as it was. -/
def Reversible (h : HistoryId) (description : String) (w w' : Workspace S) : Prop :=
  ∃ step w'', step.description = description ∧ Stepped h step w w' ∧ undo h w' = .ok true w'' ∧
    ∀ y editor, w.arena.get? y = some editor → w''.arena.get? y = some editor

theorem separate_reversible (t : String) (sound : w.arena.Sound)
    (place : w.arena.TextItem x list e above k old oldItem l items) (inside : index ≤ items.length)
    (recorder : w.recorder? e.context = some h)
    (closed : ((historyLens h).view w).collected = none) :
    ∃ fresh w', asOneStep x "Add item" (do
        recordTransition x "Type" (showText x t none)
        openItem list index) w = .ok fresh w' ∧ Reversible h "Add item" w w' := by
  have active := (recorder?_eq_some_iff.1 recorder).2
  let begun := (historyLens h).put ((historyLens h).view w).begin w
  have viewed : (historyLens h).view begun = ((historyLens h).view w).begin := by
    simp [begun, historyLens]
  have recorder₀ : begun.recorder? e.context = some h := by
    apply recorder?_eq_some_iff.2
    rw [viewed]
    exact recorder?_eq_some_iff.1 recorder
  obtain ⟨fresh, w', L, M, s, located, locatedList, ran, separated⟩ :=
    separate_run (w := begun) t sound place inside
  let typing : Edit := .transition L (.text old oldItem) (.text t none) "Type"
  let opening : Edit := .insertion M index s
  let noted : Workspace S := { begun with histories := begun.noting e.context typing }
  have known : (historyLens h).view { w' with histories := noted.noting e.context opening } =
      { (historyLens h).view w with
        undone := []
        collected := some [.single opening, .single typing] } :=
    calc (historyLens h).view { w' with histories := noted.noting e.context opening }
      _ = ((historyLens h).view noted).record (.single opening) :=
        view_noting (w := noted) (recorder?_noting recorder₀)
      _ = (((historyLens h).view w).begin.record (.single typing)).record (.single opening) := by
        rw [← viewed]
        exact congrArg (·.record (.single opening)) (view_noting recorder₀)
      _ = _ := record_separation active ..
  have grouped := asOneStep_closes "Add item" place.found recorder closed ran (by rw [known])
  have stepped := closes_pair "Add item" closed known
  obtain ⟨w'', undone, back⟩ := stepped.undo
    (P := fun a => ∀ y editor, w.arena.get? y = some editor → a.get? y = some editor) closed
    (separation_taken_back separated sound place inside located locatedList)
  exact ⟨fresh, _, grouped, _, w'', rfl, stepped, undone, back⟩

/-- What is typed into an item and ends with the separator of its list is handled by the two edits
alone: no hook is asked. -/
theorem typeText_separates {c : Char} (t : String) (sound : w.arena.Sound)
    (place : w.arena.TextItem x list e above k old oldItem l items) (listed : items[index]? = some x)
    (separator : w.separatorAt? l e.context = some c) (another : ¬ (old = t.push c ∧ oldItem = none))
    (ran : asOneStep x "Add item" (do
      recordTransition x "Type" (showText x t none)
      openItem list (index + 1)) w = .ok fresh w') :
    typeText x (t.push c) w = .ok () w' := by
  have state := place.state?
  have child : Arena.childAt? above.state (.item index) = some x := by
    rw [place.isList]
    exact listed
  have placed := listPlace?_below sound place.upper child place.found
  rw [place.isList, placeBelow?, separator] at placed
  have separates : typeSeparator x (t.push c) w = .ok true w' := by
    refine (Action.bind_run_ok _ placed).trans ?_
    simp only [Option.map_some, stripSeparator?_push]
    rw [Action.bind_run_ok _ ran]
    rfl
  have different : showsText (t.push c) (.text old oldItem : Display Handle) = false := by
    cases oldItem with
    | some item => rfl
    | none => simpa [showsText] using another
  have shape : ask (·.shapeOf x) w = .ok .expander w :=
    ask_run (Arena.shapeOf_eq_ok_iff.2 ⟨_, state, rfl⟩)
  have shut : requireTextMode x .typing w = .ok () w := by
    refine (Action.bind_run_ok _ (ask_run (Arena.isExpanded_eq_ok_iff.2 ⟨k, _, state, rfl⟩))).trans ?_
    rfl
  refine (Action.bind_run_ok _ shape).trans ((Action.bind_run_ok _ shut).trans ?_)
  refine (Action.bind_run_ok _ (ask_run (Arena.displayOf_eq_ok_iff.2 ⟨k, state⟩))).trans ?_
  simp only [different, Bool.false_eq_true, if_false]
  rw [Action.bind_run_ok _ separates]
  rfl

/-- A separator typed at the end of the text of an item loses nothing: the item shows all of the
text before it, and a fresh item follows. The other items stay what they are. Where a history
records, this is one step of it, and undoing the step gives back all there was. -/
theorem separator_loses_nothing {c : Char} (reached : Reaches {} w)
    (isList : w.arena.state? list = some (.list l items)) (listed : items[index]? = some x)
    (found : w.arena.get? x = some e) (held : e.state = .expander k (.text old oldItem))
    (separator : w.separatorAt? l e.context = some c)
    (another : ¬ (old = t.push c ∧ oldItem = none)) :
    ∃ fresh w', typeText x (t.push c) w = .ok () w' ∧
      asOneStep x "Add item" (do
        recordTransition x "Type" (showText x t none)
        openItem list (index + 1)) w = .ok fresh w' ∧
      w.arena.Separated x list (index + 1) t fresh w'.arena ∧
      ∀ h, w.recorder? e.context = some h → ((historyLens h).view w).collected = none →
        Reversible h "Add item" w w' := by
  have sound := sound_of_reached reached
  obtain ⟨above, place⟩ := Arena.textItem_of_listed sound isList listed found held
  have inside : index + 1 ≤ items.length := (List.getElem?_eq_some_iff.1 listed).1
  obtain ⟨start, arena, contexts, goes⟩ := asOneStep_noted found "Add item" (do
    recordTransition x "Type" (showText x t none)
    openItem list (index + 1))
  rw [← arena] at sound place
  obtain ⟨fresh, w₁, L, M, s, _, _, ran, separated⟩ := separate_run t sound place inside
  obtain ⟨w', grouped, same, _⟩ := goes fresh _ ran
    ((sameGroups_noting _ _).trans ((sameGroups_noting _ _).trans (.of_eq rfl)))
  rw [arena] at sound place separated
  have typed := typeText_separates t sound place listed separator another grouped
  refine ⟨fresh, w', typed, grouped, ?_, fun h recorder closed => ?_⟩
  · rw [same]
    exact separated
  · obtain ⟨fresh', w'', grouped', reversible⟩ :=
      separate_reversible t sound place inside recorder closed
    cases grouped.symm.trans grouped'
    exact reversible

section

open Sample

def twoTerms : Workspace expression :=
  performAll [.create (.list ListName.arrows) ⟨0, []⟩, .openItem ⟨0, 0⟩ 0,
    .openItem ⟨0, 0⟩ 1] desk

theorem reaches_twoTerms : Reaches {} twoTerms :=
  reaches_performAll _ (.beside (.refl _) rfl) (by simp [Allowed])

/-- Of two arrows at the end, the first one belongs to the text. -/
theorem arrow_loses_nothing :
    ∃ fresh w', typeText ⟨1, 0⟩ "1→→" twoTerms = .ok () w' ∧
      twoTerms.arena.Separated ⟨1, 0⟩ ⟨0, 0⟩ 1 "1→" fresh w'.arena ∧
      Reversible 0 "Add item" twoTerms w' := by
  have isList : twoTerms.arena.state? ⟨0, 0⟩ = some (.list ListName.arrows [⟨1, 0⟩, ⟨2, 0⟩]) := rfl
  obtain ⟨fresh, w', typed, _, separated, reversible⟩ := separator_loses_nothing (t := "1→")
    reaches_twoTerms isList
    (show [⟨1, 0⟩, ⟨2, 0⟩][0]? = some (⟨1, 0⟩ : Handle) from rfl) rfl rfl
    (show twoTerms.separatorAt? .arrows ⟨0, []⟩ = some '→' from rfl) (by decide)
  exact ⟨fresh, w', typed, separated, reversible 0 rfl rfl⟩

end

end Workspace

end StructureEditor
