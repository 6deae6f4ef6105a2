import StructureEditor.Proofs.Reachability
import StructureEditor.Proofs.Restoring
import StructureEditor.Proofs.Ways

/-! Snapshots determine editors. Restoring the snapshot of a document into an editor of its class
goes through and makes the editor show that document, provided that registries know the
classes of all content; so do rebuilding it and taking a root into another context. -/
namespace StructureEditor

variable {S : Signature} [Language S]

namespace Contexts

variable {cs cs' : Contexts (Services S)} {c c' : Context}

def Knows (cs : Contexts (Services S)) (context : Context) (c : ClassKey S) : Prop :=
  ∃ registry, cs.find? (·.registry) context = some registry ∧ registry.lookup c.name = .ok c

def scopeBelow (cs : Contexts (Services S)) (k : S.ExpanderClass) (own : Context) : Context :=
  match (Language.expander k).contentScope with
  | .own | .fresh => own
  | .provided => (cs.find? (·.scope) own).getD own

mutual

/-- Wherever a document in a context shows content, the registry there knows its class. -/
def Supplies (cs : Contexts (Services S)) : Context → Sketch S → Prop
  | _, .token .. | _, .text .. => True
  | own, .expanded k content =>
    cs.Knows (cs.scopeBelow k own) content.classKey ∧ Supplies cs (cs.scopeBelow k own) content
  | own, .compound _ parts => SuppliesAll cs own parts
  | own, .list _ items => SuppliesAll cs own items

def SuppliesAll (cs : Contexts (Services S)) : Context → List (Sketch S) → Prop
  | _, [] => True
  | own, d :: ds => Supplies cs own d ∧ SuppliesAll cs own ds

end

theorem suppliesAll_iff {ds : List (Sketch S)} :
    cs.SuppliesAll c ds ↔ ∀ d ∈ ds, cs.Supplies c d := by
  induction ds with
  | nil => simp [SuppliesAll]
  | cons d ds ih => simp [SuppliesAll, ih]

/-- All services are found from one context as from another, where contexts may have been added. -/
def SameServices (cs : Contexts (Services S)) (c : Context) (cs' : Contexts (Services S))
    (c' : Context) : Prop :=
  ∀ (α : Type) (service : Services S → Option α), service {} = none →
    cs'.find? service c' = cs.find? service c

omit [Language S] in
theorem sameServices_of_grown (grown : cs.Grown cs') (c : Context) : SameServices cs c cs' c :=
  fun _ _ nothing => grown.find? nothing c

theorem Knows.carry {k : ClassKey S} (known : cs.Knows c k) (same : SameServices cs c cs' c') :
    cs'.Knows c' k := by
  obtain ⟨registry, found, listed⟩ := known
  exact ⟨registry, (same _ (·.registry) rfl).trans found, listed⟩

theorem sameServices_scopeBelow (grown : cs.Grown cs') (same : SameServices cs c cs' c')
    (k : S.ExpanderClass) :
    SameServices cs (cs.scopeBelow k c) cs' (cs'.scopeBelow k c') := by
  unfold scopeBelow
  split
  · exact same
  · exact same
  · rw [same _ (·.scope) rfl]
    cases cs.find? (·.scope) c with
    | none => exact same
    | some provided => exact sameServices_of_grown grown provided

theorem Supplies.carry {d : Sketch S} (supplied : cs.Supplies c d) (grown : cs.Grown cs')
    (same : SameServices cs c cs' c') : cs'.Supplies c' d := by
  induction d using Sketch.induct generalizing c c' with
  | token k text item => trivial
  | text k shown item => trivial
  | expanded k content ih =>
    have below := sameServices_scopeBelow grown same k
    exact ⟨supplied.1.carry below, ih supplied.2 below⟩
  | compound k parts ih =>
    exact suppliesAll_iff.2 fun d member => ih d member (suppliesAll_iff.1 supplied d member) same
  | list k items ih =>
    exact suppliesAll_iff.2 fun d member => ih d member (suppliesAll_iff.1 supplied d member) same

theorem Supplies.grown {d : Sketch S} (supplied : cs.Supplies c d) (grown : cs.Grown cs') :
    cs'.Supplies c d :=
  supplied.carry grown (sameServices_of_grown grown c)

omit [Language S] in
theorem sameServices_extend (cs : Contexts (Services S)) (c : Context) :
    SameServices cs c (cs.extend c).2 (cs.extend c).1 := by
  intro α service nothing
  have own : (cs.extend c).2.tables[(cs.extend c).1.level]? = some {} := by
    simp [extend, newLevel, ServiceTable.empty]
  have outer := sameServices_of_grown (grown_newLevel c.levels cs) c α service nothing
  simp only [find?, extend, newLevel, Context.levels, List.findSome?_cons] at own outer ⊢
  rw [own]
  simp only [Option.bind_eq_bind, Option.bind_some, nothing]
  exact outer

end Contexts

namespace Workspace

variable {w w' : Workspace S} {id : Handle} {restore : Restorer S} {d : Sketch S}
  {context : Context}

theorem sameServices_scopeFor (w : Workspace S) (k : S.ExpanderClass) (own : Context) :
    w.contexts.SameServices (w.contexts.scopeBelow k own) (w.scopeFor k own).2
      (w.scopeFor k own).1 := by
  unfold scopeFor Contexts.scopeBelow
  cases (Language.expander k).contentScope with
  | own => exact fun _ _ _ => rfl
  | provided => exact fun _ _ _ => rfl
  | fresh => exact Contexts.sameServices_extend w.contexts own

/-- A way of restoring makes every editor of its class show a document. -/
def Restorer.Restores (restore : Restorer S) (d : Sketch S) : Prop :=
  ∀ w id editor old, w.arena.Sound → w.arena.get? id = some editor → w.arena.Shows id old →
    old.Conforms → old.classKey = d.classKey → w.contexts.Supplies editor.context d →
    ∃ w', restore id d.toSnapshot w = .ok () w' ∧ w'.arena.Shows id d

theorem rebuildAsWith_run (safe : restore.Safe) (restores : restore.Restores d)
    (sound : w.arena.Sound) (supplied : w.contexts.Supplies context d) :
    ∃ id w', rebuildAsWith restore d.classKey d.toSnapshot context w = .ok id w' ∧
      Built w w' id d.classKey context ∧ w'.arena.Shows id d := by
  have made := Arena.create_made d.classKey context sound
  obtain ⟨old, seen, key, conforms, _⟩ := made.shown
  obtain ⟨editor, found, _, rfl, _⟩ := made.root
  have created := create_run d.classKey editor.context w
  generalize ((Arena.create d.classKey editor.context).run w.arena).1 = id at *
  generalize ((Arena.create d.classKey editor.context).run w.arena).2 = a at *
  obtain ⟨start, finish, paused, ran⟩ :=
    unrecorded_run editor.context (restore id d.toSnapshot) { w with arena := a }
  have begun : start.arena = a := paused.arena
  obtain ⟨w', restored, seen'⟩ := restores start id editor old (begun ▸ made.sound)
    (begun ▸ found) (begun ▸ seen) conforms key (paused.contexts ▸ supplied)
  have whole : rebuildAsWith restore d.classKey d.toSnapshot editor.context w =
      .ok id (finish w') := by
    have attempted : (unrecorded editor.context (restore id d.toSnapshot)).attempt
        { w with arena := a } = .ok (.ok ()) (finish w') := by
      simp only [Action.attempt, ran, Action.ensuring, restored]
    simp only [rebuildAsWith, Action.bind_run_ok _ created, orDispose,
      Action.bind_run_ok _ attempted]
    rfl
  refine ⟨id, finish w', whole, (rebuildAsWith_meets safe sound).ok_of whole, ?_⟩
  rw [paused.finished]
  exact seen'

theorem rebuildWith_run (safe : restore.Safe) (restores : restore.Restores d)
    (sound : w.arena.Sound) (supplied : w.contexts.Supplies context d)
    (known : w.contexts.Knows context d.classKey) :
    ∃ id w', rebuildWith restore d.toSnapshot context w = .ok id w' ∧
      Built w w' id d.classKey context ∧ w'.arena.Shows id d := by
  obtain ⟨registry, found, listed⟩ := known
  obtain ⟨id, w', ran, rest⟩ := rebuildAsWith_run safe restores sound supplied
  refine ⟨id, w', ?_, rest⟩
  have asked : Action.ask (fun w : Workspace S =>
      w.contexts.require "registry" (·.registry) context) w = .ok registry w := by
    refine Action.ask_run_ok ?_
    simp only [Contexts.require, found]
  have named : d.toSnapshot.className = some d.classKey.name := by
    cases d <;> rfl
  simp only [rebuildWith, named, Action.bind_run_ok _ asked, listed]
  exact ran

theorem Built.shows_alone {c : ClassKey S} {m : Handle} {editor : Editor S}
    (built : Built w w' m c context) (found : w.arena.get? id = some editor)
    (isRoot : editor.parent = none) (seen : w'.arena.Shows m d) :
    (w'.arena.dispose id).Shows m d := by
  have outlined := Arena.outline_of_get? found
  obtain ⟨editor', found', _, _, parent⟩ := Arena.kept_of_outline (built.grows id _ outlined)
  have isRoot' : editor'.parent = none := parent.trans isRoot
  obtain ⟨_, _, kept⟩ := Arena.sound_dispose_root built.sound found' isRoot'
  obtain ⟨new, newFound, newRoot, _⟩ := built.root
  refine seen.transfer built.sound.forest fun y within => ?_
  simp only [Arena.state?]
  rw [kept y ?_]
  intro below
  have different : m ≠ id := by
    rintro rfl
    rw [built.fresh] at outlined
    cases outlined
  exact different (Links.root_unique (Arena.links_of_get? newFound) newRoot
    (Arena.links_of_get? found') isRoot' within below)

theorem relocateWith_run {editor : Editor S} (safe : restore.Safe) (restores : restore.Restores d)
    (sound : w.arena.Sound) (found : w.arena.get? id = some editor) (isRoot : editor.parent = none)
    (seen : w.arena.Shows id d) (supplied : w.contexts.Supplies context d) :
    ∃ m w', relocateWith restore id context w = .ok m w' ∧ w'.arena.Shows m d := by
  simp only [relocateWith, Action.bind_run_ok _ (lookup_run found)]
  split
  · exact ⟨id, w, rfl, seen⟩
  · have asked : ask (·.snapshot id) w = .ok d.toSnapshot w :=
      ask_run (Arena.snapshot_of_shows sound.forest seen)
    have key : editor.state.classKey = d.classKey := by
      obtain ⟨state, held, key⟩ := seen.state
      rw [Arena.state?_of_get? found] at held
      cases held
      exact key
    obtain ⟨m, w', ran, built, seen'⟩ := rebuildAsWith_run safe restores sound supplied
    refine ⟨m, { w' with arena := w'.arena.dispose id }, ?_, built.shows_alone found isRoot seen'⟩
    simp only [isRoot, Option.isSome_none, Bool.false_eq_true, if_false,
      Action.bind_run_ok _ asked, key, Action.bind_run_ok _ ran]
    rfl

theorem fillWith_run {editor child : Editor S} {k : S.ExpanderClass} {text : String}
    {item : Option Candidate} {source : Handle} (safe : restore.Safe)
    (restores : restore.Restores d) (sound : w.arena.Sound)
    (found : w.arena.get? id = some editor) (held : editor.state = .expander k (.text text item))
    (root : w.arena.get? source = some child) (free : child.parent = none)
    (apart : ¬ w.arena.links.Within source id) (seen : w.arena.Shows source d)
    (supplied : w.contexts.Supplies (w.contexts.scopeBelow k editor.context) d) :
    ∃ m w', fillWith restore id source w = .ok m w' ∧ w'.arena.Shows id (.expanded k d) := by
  have state := held ▸ Arena.state?_of_get? found
  have different : (source == id) = false := by
    refine beq_eq_false_iff_ne.2 ?_
    rintro rfl
    exact apart .here
  have ready := added_scopeFor sound k editor.context
  have supplied' := supplied.carry (grown_scopeFor w k editor.context)
    (sameServices_scopeFor w k editor.context)
  obtain ⟨m, w₁, relocated, seen₁⟩ := relocateWith_run (w := { w with
    contexts := (w.scopeFor k editor.context).2 }) safe restores sound root free seen supplied'
  obtain ⟨new, editor', fetched⟩ := fetched_of_relocated ready.sound
    ((relocateWith_meets safe ready.sound).ok_of relocated) found root free apart
  obtain ⟨w₂, ran, done, linked⟩ := fetched.hangs held
  refine ⟨m, w₂, ?_, ?_⟩
  · simp only [fillWith, Action.bind_run_ok _ (requireTextMode_run .expanding state),
      Action.bind_run_ok _ (lookup_run root), free, different, Option.isSome_none, Bool.or_self,
      Bool.false_eq_true, if_false, Action.bind_run_ok _ (contentScope_run found held),
      Action.bind_run_ok _ relocated]
    exact ran
  · refine Arena.shows_expanded.2 ⟨m, done.state?_eq fetched.found, ?_⟩
    exact done.shows_linked fetched.sound fetched.root linked seen₁ fetched.apart

theorem restoreText_run {k : S.ExpanderClass} {display : Display Handle} (restore : Restorer S)
    (text : String) (item : Option Candidate) (sound : w.arena.Sound)
    (held : w.arena.state? id = some (.expander k display)) :
    ∃ w', restoreStateWith restore id (.text text item) w = .ok () w' ∧
      w'.arena.Shows id (.text k text item) := by
  obtain ⟨w₁, cleared, clear⟩ := clear_run sound held
  obtain ⟨k', old, oldItem, held₁⟩ := clear.held
  obtain rfl : k' = k := clear.changes.sameExpander held held₁
  obtain ⟨editor, found, _⟩ := Arena.get?_of_state? held₁
  obtain ⟨w₂, ran, done⟩ := showText_run text item clear.sound held₁
  refine ⟨w₂, ?_, done.state?_eq found⟩
  rw [restoreStateWith_text, Action.bind_run_ok _ cleared]
  exact ran

theorem refilling_run {editor child : Editor S} {k : S.ExpanderClass} {display : Display Handle}
    {content : Handle} (safe : restore.Safe) (restores : restore.Restores d) (sound : w.arena.Sound)
    (found : w.arena.get? id = some editor) (held : editor.state = .expander k display)
    (added : Added w w₁) (fresh : w.arena.outline content = none)
    (root : w₁.arena.get? content = some child) (free : child.parent = none)
    (seen : w₁.arena.Shows content d)
    (supplied : w₁.contexts.Supplies (w₁.contexts.scopeBelow k editor.context) d) :
    ∃ w₂ m w₃, clear id w₁ = .ok () w₂ ∧ Cleared w₁ w₂ id ∧ w₂.arena.Shows content d ∧
      fillWith restore id content w₂ = .ok m w₃ ∧ w₃.arena.Shows id (.expanded k d) ∧
      Confined w w₃ id := by
  have outlined := Arena.outline_of_get? found
  obtain ⟨e₁, found₁, state₁, context₁, _⟩ := Arena.kept_of_outline (added.grows id _ outlined)
  have held₁ := (state₁.trans held) ▸ Arena.state?_of_get? found₁
  have notAbove := added.grows.not_within_fresh sound.forest fresh outlined
  have notBelow : ¬ w₁.arena.links.Within id content := by
    intro below
    rw [Links.within_root_unique (Arena.links_of_get? root) free below] at notAbove
    exact notAbove .here
  obtain ⟨w₂, cleared, clear⟩ := clear_run added.sound held₁
  have seen₂ := clear.changes.shows seen added.sound.forest root notAbove notBelow
  obtain ⟨child₂, root₂, _, _, free₂⟩ :=
    Arena.kept_of_outline (clear.changes.outside content _ (Arena.outline_of_get? root) notBelow)
  obtain ⟨k', text, item, held₂⟩ := clear.held
  obtain rfl : k' = k := clear.changes.sameExpander held₁ held₂
  obtain ⟨e₂, found₂, state₂⟩ := Arena.get?_of_state? held₂
  have context₂ : e₂.context = editor.context :=
    (clear.changes.keepsPlace found₁ found₂).1.trans context₁
  have apart : ∀ x e, w.arena.outline x = some e → ¬ w₂.arena.links.Within content x :=
    fun x e isLive within => added.grows.not_within_fresh sound.forest fresh isLive
      (clear.within _ _ within)
  have grown := clear.quiet.contexts
  obtain ⟨m, w₃, ran, seen₃⟩ := fillWith_run safe restores clear.sound found₂ state₂ root₂
    (free₂.trans free) (apart id _ outlined) seen₂
    (supplied.carry grown (context₂ ▸ Contexts.sameServices_scopeBelow grown
      (Contexts.sameServices_of_grown grown _) k'))
  have filled := (fillWith_meets safe clear.sound fun _ _ _ _ => apart id _ outlined).ok_of ran
  exact ⟨w₂, m, w₃, cleared, clear, seen₂, ran, seen₃,
    filled.1.confined ((added.confined id).trans clear.toConfined sound) apart⟩

theorem restoreContent_run {editor : Editor S} {k : S.ExpanderClass} {display : Display Handle}
    (safe : restore.Safe) (restores : restore.Restores d) (sound : w.arena.Sound)
    (found : w.arena.get? id = some editor) (held : editor.state = .expander k display)
    (known : w.contexts.Knows (w.contexts.scopeBelow k editor.context) d.classKey)
    (supplied : w.contexts.Supplies (w.contexts.scopeBelow k editor.context) d) :
    ∃ w', restoreStateWith restore id (.expanded d.toSnapshot) w = .ok () w' ∧
      w'.arena.Shows id (.expanded k d) := by
  have ready := added_scopeFor sound k editor.context
  have same := sameServices_scopeFor w k editor.context
  obtain ⟨content, w₁, rebuilt, built, seen⟩ := rebuildWith_run (w := { w with
    contexts := (w.scopeFor k editor.context).2 }) safe restores sound
    (supplied.carry (grown_scopeFor w k editor.context) same) (known.carry same)
  obtain ⟨child, root, free, _⟩ := built.root
  have added := ready.trans built.toAdded
  have grown := added.quiet.contexts
  -- the new content is complete before the old one goes
  obtain ⟨w₂, m, w₃, cleared, _, _, filled, shown, _⟩ := refilling_run safe restores sound found held
    added built.fresh root free seen (supplied.carry grown (Contexts.sameServices_scopeBelow grown
      (Contexts.sameServices_of_grown grown _) k))
  refine ⟨w₃, ?_, shown⟩
  rw [restoreStateWith_expanded, Action.bind_run_ok _ (contentScope_run found held),
    Action.bind_run_ok _ rebuilt, Action.bind_run_ok _ cleared, Action.bind_run_ok _ filled]
  rfl

theorem Confined.sibling_shows {k : S.CompoundClass} {ids : List Handle} {part other : Handle}
    {editor : Editor S} {d : Sketch S} (changed : Confined w w' part) (sound : w.arena.Sound)
    (found : w.arena.get? id = some editor)
    (held : editor.state = .compound k ids) (member : part ∈ ids) (sibling : other ∈ ids)
    (different : other ≠ part) (seen : w.arena.Shows other d) : w'.arena.Shows other d := by
  have placed := Arena.links_of_get? found
  have isChild : part ∈ editor.state.children := held ▸ member
  have isChild' : other ∈ editor.state.children := held ▸ sibling
  obtain ⟨e, siblingFound, _⟩ := Arena.live_child sound.forest found isChild'
  exact changed.changes.shows seen sound.forest siblingFound
    (fun within => sound.forest.siblings_apart placed isChild isChild' (Ne.symm different) .here within)
    (fun within => sound.forest.siblings_apart placed isChild isChild' (Ne.symm different) within .here)

theorem restoreParts_run {k : S.CompoundClass} {ids chosen : List Handle} {parts : List (Sketch S)}
    {editor : Editor S} (safe : restore.Safe) (sound : w.arena.Sound)
    (found : w.arena.get? id = some editor) (held : editor.state = .compound k ids)
    (members : ∀ x ∈ chosen, x ∈ ids) (distinct : chosen.Nodup)
    (ready : List.Forall₂ (fun x (d : Sketch S) => ∃ old, w.arena.Shows x old ∧ old.Conforms ∧
      old.classKey = d.classKey) chosen parts)
    (each : ∀ d ∈ parts, restore.Restores d ∧ w.contexts.Supplies editor.context d) :
    ∃ w', ((chosen.zip (parts.map Sketch.toSnapshot)).forM (fun (id, s) => restore id s) :
        Editing S Unit) w = .ok () w' ∧
      w'.arena.state? id = some (.compound k ids) ∧
      List.Forall₂ w'.arena.Shows chosen parts ∧
      ∀ x ∈ ids, x ∉ chosen → ∀ d, w.arena.Shows x d → w'.arena.Shows x d := by
  induction chosen generalizing w editor parts with
  | nil =>
    cases ready
    exact ⟨w, rfl, held ▸ Arena.state?_of_get? found, .nil, fun _ _ _ _ seen => seen⟩
  | cons x rest ih =>
    cases ready with
    | @cons _ d _ ds first ready =>
      obtain ⟨old, seen, conforms, key⟩ := first
      have member := members x (by simp)
      have isChild : x ∈ editor.state.children := held ▸ member
      obtain ⟨child, childFound, _⟩ := Arena.live_child sound.forest found isChild
      have sameContext := sound.shared id editor found (by rw [held]; rfl) x isChild child childFound
      obtain ⟨restores, supplied⟩ := each d (by simp)
      obtain ⟨w₁, ran, shown⟩ :=
        restores w x child old sound childFound seen conforms key (sameContext ▸ supplied)
      have changed := (safe w x d.toSnapshot sound).ok_of ran
      obtain ⟨first, editor', found', held', context'⟩ := changed.part sound found held member
      obtain ⟨notLater, distinct⟩ := List.nodup_cons.1 distinct
      obtain ⟨w₂, ran', whole, shownRest, others⟩ := ih first.sound found' held'
        (fun y later => members y (by simp [later])) distinct
        (Arena.forall₂_imp_mem ready fun y later e _ ⟨old, seen, rest⟩ =>
          ⟨old, changed.sibling_shows sound found held member (members y (by simp [later]))
            (by rintro rfl; exact notLater later) seen, rest⟩)
        (fun e later => ⟨(each e (by simp [later])).1,
          context' ▸ (each e (by simp [later])).2.grown changed.quiet.contexts⟩)
      refine ⟨w₂, ?_, whole, .cons ?_ shownRest, ?_⟩
      · have step := Action.forM_run_ok (f := fun (id, s) => restore id s)
          (x := (x, d.toSnapshot)) (rest.zip (ds.map Sketch.toSnapshot)) ran
        exact step.trans ran'
      · exact others x member notLater d shown
      · intro y sibling elsewhere e seen
        have different : y ≠ x ∧ y ∉ rest := by simpa using elsewhere
        exact others y sibling different.2 e
          (changed.sibling_shows sound found held member sibling different.1 seen)

theorem restoreItemsWith_run {k : S.ListClass} {ids : List Handle} {list : Handle}
    {editor : Editor S} {element : ClassKey S} {shown : List (Sketch S)}
    (items : List (Sketch S)) (safe : restore.Safe) (sound : w.arena.Sound)
    (found : w.arena.get? list = some editor)
    (held : editor.state = .list k ids) (seen : List.Forall₂ w.arena.Shows ids shown)
    (each : ∀ d ∈ items, restore.Restores d ∧ d.classKey = element ∧
      w.contexts.Supplies editor.context d) :
    ∃ w', restoreItemsWith restore list element editor.context ids.length
        (items.map Sketch.toSnapshot) w = .ok () w' ∧
      w'.arena.Shows list (.list k (shown ++ items)) := by
  induction items generalizing w editor ids shown with
  | nil =>
    refine ⟨w, rfl, Arena.shows_list.2 ⟨ids, held ▸ Arena.state?_of_get? found, ?_⟩⟩
    rw [List.append_nil]
    exact seen
  | cons d rest ih =>
    obtain ⟨restores, rfl, supplied⟩ := each d (by simp)
    obtain ⟨item, w₁, rebuilt, built, seen₁⟩ := rebuildAsWith_run safe restores sound supplied
    obtain ⟨w₂, attached, joined⟩ := built.joins sound found held (Nat.le_refl ids.length)
    obtain ⟨editor₂, found₂, held₂, context₂⟩ := joined.live
    rw [List.insertIdx_length_self] at held₂
    have earlier : List.Forall₂ w₂.arena.Shows ids shown :=
      Arena.forall₂_imp_mem seen fun x member e _ seen => joined.shows_others x member e seen
    obtain ⟨w₃, ran, seen₃⟩ := ih joined.confined.sound found₂ held₂
      (List.rel_append earlier (.cons (joined.shows_item d seen₁) .nil))
      fun e later => ⟨(each e (by simp [later])).1, (each e (by simp [later])).2.1,
        context₂ ▸ (each e (by simp [later])).2.2.grown joined.confined.quiet.contexts⟩
    refine ⟨w₃, ?_, by simpa using seen₃⟩
    rw [context₂, List.length_append, List.length_singleton] at ran
    simp only [List.map_cons, restoreItemsWith]
    rw [Action.bind_run_ok _ rebuilt, Action.bind_run_ok _ attached]
    exact ran

omit [Language S] in
theorem candidate?_of (item : Option Candidate) :
    Snapshot.candidate? (item.map (·.className)) (item.map (·.value)) = item := by
  cases item <;> rfl

theorem shape_toSnapshot {state : EditorState S} (key : state.classKey = d.classKey) :
    state.shape = d.toSnapshot.shape := by
  cases state <;> cases d <;> first | rfl | cases key

omit [Language S] in
theorem restoreWith_run {next : Editing S Unit} {state : EditorState S} {wanted : Shape}
    {error : Shape → Refusal} (held : w.arena.state? id = some state) (fits : state.shape = wanted) :
    (do let shape ← ask (·.shapeOf id)
        if shape ≠ wanted then Action.refuse (error shape)
        next) w = next w := by
  have asked : ask (·.shapeOf id) w = .ok wanted w :=
    ask_run (Arena.shapeOf_eq_ok_iff.2 ⟨state, held, fits⟩)
  simp only [Action.bind_run_ok _ asked, ne_eq, not_true_eq_false, if_false]

theorem ready_parts {a : Arena S} {ids : List Handle} {olds parts : List (Sketch S)}
    (shown : List.Forall₂ a.Shows ids olds) (conform : ∀ d ∈ olds, d.Conforms)
    (classes : olds.map Sketch.classKey = parts.map Sketch.classKey) :
    List.Forall₂ (fun x (d : Sketch S) => ∃ old, a.Shows x old ∧ old.Conforms ∧
      old.classKey = d.classKey) ids parts := by
  induction shown generalizing parts with
  | nil =>
    rw [List.map_nil, eq_comm, List.map_eq_nil_iff] at classes
    rw [classes]
    exact .nil
  | @cons x old _ olds first _ ih =>
    cases parts with
    | nil => cases classes
    | cons d ds =>
      rw [List.map_cons, List.map_cons] at classes
      obtain ⟨key, classes⟩ := List.cons.inj classes
      exact .cons ⟨old, first, conform old (by simp), key⟩
        (ih (fun d member => conform d (by simp [member])) classes)

theorem restoreCompound_restores {k : S.CompoundClass} {parts : List (Sketch S)} (safe : restore.Safe)
    (conforms : (Sketch.compound k parts).Conforms) (each : ∀ p ∈ parts, restore.Restores p) :
    Restorer.Restores (restoreWith restore) (.compound k parts) := by
  intro w id editor old sound found seen oldConforms key supplied
  obtain ⟨state, held, stateKey⟩ := seen.state
  have fits := shape_toSnapshot (stateKey.trans key)
  have same := Option.some.inj ((Arena.state?_of_get? found).symm.trans held)
  cases state with
  | compound k' ids =>
    cases old with
    | compound k'' olds =>
      cases stateKey.trans key
      cases key
      obtain ⟨ids', held', shown⟩ := Arena.shows_compound.1 seen
      cases held.symm.trans held'
      have ready := ready_parts shown (Sketch.allConform_iff.1 oldConforms.2)
        (oldConforms.1.trans conforms.1.symm)
      have snapshots := Sketch.toSnapshots_eq_map parts
      have count : ids.length = (Sketch.toSnapshots parts).length := by
        rw [snapshots, List.length_map, ready.length_eq]
      have asked : ask (·.components id) w = .ok ids w :=
        ask_run (Arena.components_eq_ok_iff.2 ⟨k, held⟩)
      have distinct := sound.forest.distinct (Arena.links_of_get? found)
      simp only [Editor.place, same, EditorState.children] at distinct
      obtain ⟨w', ran, whole, shown', _⟩ := restoreParts_run safe sound found same
        (fun _ member => member) distinct ready
        fun d member => ⟨each d member, Contexts.suppliesAll_iff.1 supplied d member⟩
      refine ⟨w', (restoreWith_run held fits).trans ?_, ?_⟩
      · rw [Action.bind_run_ok _ asked]
        simp only [ne_eq, count, not_true_eq_false, if_false]
        rw [snapshots]
        exact ran
      · exact Arena.shows_compound.2 ⟨ids, whole, shown'⟩
    | _ => cases key
  | _ => cases fits

theorem restoreList_restores {k : S.ListClass} {items : List (Sketch S)} (safe : restore.Safe)
    (conforms : (Sketch.list k items).Conforms) (each : ∀ p ∈ items, restore.Restores p) :
    Restorer.Restores (restoreWith restore) (.list k items) := by
  intro w id editor old sound found seen oldConforms key supplied
  obtain ⟨state, held, stateKey⟩ := seen.state
  have fits := shape_toSnapshot (stateKey.trans key)
  cases state with
  | list k' ids =>
    cases stateKey.trans key
    obtain ⟨w₁, emptied, sound₁, quiet, changes, empty⟩ := dropItems_run sound held
    obtain ⟨editor₁, found₁, state₁⟩ := Arena.get?_of_state? empty
    have context₁ : editor₁.context = editor.context := (changes.keepsPlace found found₁).1
    have asked : ask (·.list id) w₁ = .ok (k, []) w₁ := ask_run (Arena.list_eq_ok_iff.2 empty)
    obtain ⟨w', ran, seen'⟩ := restoreItemsWith_run items safe sound₁ found₁ state₁ .nil
      fun d member => ⟨each d member, conforms.1 d member,
        context₁ ▸ (Contexts.suppliesAll_iff.1 supplied d member).grown quiet.contexts⟩
    refine ⟨w', (restoreWith_run held fits).trans ?_, seen'⟩
    simp only [Action.bind_run_ok _ emptied, Action.bind_run_ok _ asked,
      Action.bind_run_ok _ (lookup_run found₁), Sketch.toSnapshots_eq_map]
    exact ran
  | _ => cases fits

theorem restoreWith_restores (safe : restore.Safe) (conforms : d.Conforms)
    (each : ∀ p ∈ d.parts, restore.Restores p) : Restorer.Restores (restoreWith restore) d := by
  cases d with
  | compound k parts => exact restoreCompound_restores safe conforms each
  | list k items => exact restoreList_restores safe conforms each
  | token k text item =>
    intro w id editor old sound found seen oldConforms key supplied
    obtain ⟨state, held, stateKey⟩ := seen.state
    have fits := shape_toSnapshot (stateKey.trans key)
    cases state with
    | token k' oldText oldItem =>
      cases stateKey.trans key
      obtain ⟨w', ran, done⟩ := writeToken_quiet text item sound held
      refine ⟨w', (restoreWith_run held fits).trans ?_, done.state?_eq found⟩
      rw [candidate?_of]
      exact ran
    | _ => cases fits
  | text k shown item =>
    intro w id editor old sound found seen oldConforms key supplied
    obtain ⟨state, held, stateKey⟩ := seen.state
    have fits := shape_toSnapshot (stateKey.trans key)
    cases state with
    | expander k' display =>
      cases stateKey.trans key
      obtain ⟨w', ran, seen'⟩ := restoreText_run restore shown item sound held
      refine ⟨w', (restoreWith_run held fits).trans ?_, seen'⟩
      simp only [Option.getD_some, candidate?_of]
      exact ran
    | _ => cases fits
  | expanded k content =>
    intro w id editor old sound found seen oldConforms key supplied
    obtain ⟨state, held, stateKey⟩ := seen.state
    have fits := shape_toSnapshot (stateKey.trans key)
    cases state with
    | expander k' display =>
      cases stateKey.trans key
      have same := Option.some.inj ((Arena.state?_of_get? found).symm.trans held)
      obtain ⟨w', ran, seen'⟩ := restoreContent_run safe (each content (by simp [Sketch.parts]))
        sound found same supplied.1 supplied.2
      exact ⟨w', (restoreWith_run held fits).trans ran, seen'⟩
    | _ => cases fits

theorem depth_le_depthList {s : Snapshot} {ss : List Snapshot} (member : s ∈ ss) :
    s.depth ≤ Snapshot.depthList ss := by
  induction ss with
  | nil => cases member
  | cons first rest ih =>
    rw [Snapshot.depthList]
    rcases List.mem_cons.1 member with rfl | later
    · exact Nat.le_max_left _ _
    · exact Nat.le_trans (ih later) (Nat.le_max_right _ _)

theorem depth_lt_of_part {p : Sketch S} (member : p ∈ d.parts) :
    p.toSnapshot.depth < d.toSnapshot.depth := by
  have listed : ∀ {ds : List (Sketch S)}, p ∈ ds →
      p.toSnapshot.depth < Snapshot.depthList (Sketch.toSnapshots ds) + 1 := by
    intro ds member
    rw [Sketch.toSnapshots_eq_map]
    have := depth_le_depthList (List.mem_map_of_mem (f := Sketch.toSnapshot) member)
    omega
  cases d with
  | token => cases member
  | text => cases member
  | expanded k content =>
    rw [Sketch.parts, List.mem_singleton] at member
    subst member
    exact Nat.lt_succ_self _
  | compound k parts => exact listed member
  | list k items => exact listed member

theorem conforms_part {p : Sketch S} (conforms : d.Conforms) (member : p ∈ d.parts) :
    p.Conforms := by
  cases d with
  | token => cases member
  | text => cases member
  | expanded k content =>
    rw [Sketch.parts, List.mem_singleton] at member
    subst member
    exact conforms
  | compound k parts => exact Sketch.allConform_iff.1 conforms.2 p member
  | list k items => exact Sketch.allConform_iff.1 conforms.2 p member

theorem restoreWithin_restores {levels : Nat} (conforms : d.Conforms)
    (enough : d.toSnapshot.depth ≤ levels) : (restoreWithin levels).Restores d := by
  induction levels generalizing d with
  | zero =>
    have : 0 < d.toSnapshot.depth := by cases d <;> exact Nat.succ_pos _
    omega
  | succ levels ih =>
    refine restoreWith_restores (restoreWithin_safe levels) conforms fun p member => ?_
    have smaller := depth_lt_of_part member
    exact ih (conforms_part conforms member) (by omega)

theorem restore_restores (conforms : d.Conforms) :
    Restorer.Restores (Workspace.restore : Restorer S) d :=
  restoreWithin_restores conforms (Nat.le_refl _)

theorem restoreState_shows {editor : Editor S} {k : S.ExpanderClass} {display : Display Handle}
    {state : Display Snapshot} (sound : w.arena.Sound) (found : w.arena.get? id = some editor)
    (held : editor.state = .expander k display) (isKey : d.classKey = .expander k)
    (conforms : d.Conforms) (supplied : w.contexts.Supplies editor.context d)
    (recorded : d.toSnapshot.display? = some state) :
    ∃ w', restoreState id state w = .ok () w' ∧ Confined w w' id ∧ w'.arena.Shows id d := by
  have shows : ∃ w', restoreState id state w = .ok () w' ∧ w'.arena.Shows id d := by
    cases d with
    | text k' shown item =>
      cases isKey
      simp only [Sketch.toSnapshot, Snapshot.ofExpander, Snapshot.display?, Option.getD_some,
        candidate?_of, Option.some.injEq] at recorded
      subst recorded
      exact restoreText_run restore shown item sound (held ▸ Arena.state?_of_get? found)
    | expanded k' content =>
      cases isKey
      cases recorded
      exact restoreContent_run restore_safe (restore_restores conforms) sound found held supplied.1
        supplied.2
    | token => cases isKey
    | compound => cases isKey
    | list => cases isKey
  obtain ⟨w', ran, shown⟩ := shows
  exact ⟨w', ran, (restoreStateWith_meets restore_safe sound state).ok_of ran, shown⟩

section

open Sample

def emptyHooks : Workspace expression :=
  performAll [.create (.list ListName.hooklist) ⟨0, []⟩] desk

def hookPage : Sketch expression :=
  .list ListName.hooklist [.expanded ExpanderName.hook (.token TokenName.int "7" none),
    .text ExpanderName.hook "AB" (some ⟨"keyword", .string "ab"⟩)]

def filledHooks : Workspace expression :=
  performAll [.restore ⟨0, 0⟩ hookPage.toSnapshot] emptyHooks

theorem reaches_emptyHooks : Reaches {} emptyHooks :=
  reaches_performAll _ (.beside (.refl _) rfl) (by simp [Allowed])

theorem reaches_filledHooks : Reaches {} filledHooks :=
  reaches_performAll _ reaches_emptyHooks (by simp [Allowed])

theorem hookPage_conforms : hookPage.Conforms :=
  ⟨by simp [Sketch.classKey]; rfl, trivial, trivial, trivial⟩

theorem emptyHooks_supplies : emptyHooks.contexts.Supplies ⟨0, []⟩ hookPage :=
  ⟨⟨⟨defaultRegistry, rfl, rfl⟩, trivial⟩, trivial, trivial⟩

theorem emptyHooks_shows : emptyHooks.arena.Shows ⟨0, 0⟩ (.list ListName.hooklist []) :=
  Arena.shows_list.2 ⟨[], rfl, .nil⟩

theorem filledHooks_shows : Confined emptyHooks filledHooks ⟨0, 0⟩ ∧
    filledHooks.arena.Shows ⟨0, 0⟩ hookPage := by
  have sound := sound_of_reached reaches_emptyHooks
  obtain ⟨w', ran, seen⟩ := restore_restores hookPage_conforms emptyHooks ⟨0, 0⟩ _ _ sound rfl
    emptyHooks_shows ⟨nofun, trivial⟩ rfl emptyHooks_supplies
  have same : filledHooks = w' := by
    simp only [filledHooks, performAll, List.foldl_cons, List.foldl_nil, perform, Action.after, ran]
  exact same ▸ ⟨(restore_safe _ _ _ sound).ok_of ran, seen⟩

end

end Workspace

end StructureEditor
