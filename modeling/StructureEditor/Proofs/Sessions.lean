import StructureEditor.Proofs.Reachability
import StructureEditor.Proofs.SampleLanguage

/-! Sessions. Operations, groups of them, undos and redos follow each other, and each operation
leaves at most one step behind, from the documents as they were to the documents as they are. -/
namespace StructureEditor

variable {S : Signature}

/-- The editor that an operation works on which the history takes down. -/
def Request.edited? : Request S → Option Handle
  | .typeText id _ | .choose id _ | .expand id | .reset id | .paste id _ => some id
  | .openItem list _ | .removeAt list _ => some list
  | _ => none

namespace Workspace

variable [Language S]

/-- From one workspace to another by operations below some roots, by actions that are recorded
as a whole and keep to their editor, by groups of all these, and, outside of groups, by undo
and redo. Each operation leaves the documents in order. -/
inductive Session (h : HistoryId) (r : Registry S) (roots : List Handle) :
    Bool → Workspace S → Workspace S → Prop where
  | refl (grouped : Bool) (w : Workspace S) : Session h r roots grouped w w
  | request {grouped : Bool} {w w' w'' : Workspace S} {request : Request S} {id root : Handle} :
      Session h r roots grouped w w' → request.edited? = some id → root ∈ roots →
      w'.arena.links.Within root id → (perform request).Ends w' w'' → Orderly h r roots w'' →
      Session h r roots grouped w w''
  | replacing {grouped : Bool} {α : Type} {w w' w₁ w'' : Workspace S} {id root : Handle}
      {description : String} {action : Editing S α} {value : α} :
      Session h r roots grouped w w' → root ∈ roots → w'.arena.links.Within root id →
      action (w'.pausing id) = .ok value w₁ → Confined (w'.pausing id) w₁ id →
      (replacing id description action).Ends w' w'' → Orderly h r roots w'' →
      Session h r roots grouped w w''
  | group {grouped : Bool} {α : Type} {w w' w₁ w'' : Workspace S} {id root : Handle}
      {description : String} {action : Editing S α} :
      Session h r roots grouped w w' → root ∈ roots → w'.arena.links.Within root id →
      action.Ends (w'.grouping id) w₁ → Session h r roots true (w'.grouping id) w₁ →
      (asOneStep id description action).Ends w' w'' → Orderly h r roots w'' →
      Session h r roots grouped w w''
  | move {w w' : Workspace S} (direction : Direction) : Session h r roots false w w' →
      Session h r roots false w ((move h direction).after w')

variable {α : Type} {w₀ w w' w'' : Workspace S} {h : HistoryId} {r : Registry S}
  {roots : List Handle} {P : Page S} {id root : Handle}

theorem Records.ends {action : Editing S α} (records : Records h r roots P w₀ action w)
    (ends : action.Ends w w') (allFine : AllFine r roots w') : Advances h r roots P w₀ w' := by
  rcases ends with ⟨value, ran⟩ | ⟨error, ran⟩
  · exact records.ok_of ran allFine
  · exact records.stopped_of ran error rfl allFine

theorem records_of_ends {action : Editing S α} (ends : action.Ends w w')
    (advances : Advances h r roots P w₀ w') : Records h r roots P w₀ action w := by
  rcases ends with ⟨value, ran⟩ | ⟨error, ran⟩
  · exact .of_ok ran fun _ => advances
  · exact .of_error ran fun _ _ _ => advances

theorem perform_records {request : Request S} (tidy : Language.Tidy S)
    (presents : Presents h r roots w P) (ready : Ready h w) (member : root ∈ roots)
    (within : w.arena.links.Within root id) (edits : request.edited? = some id) :
    Records h r roots P w (perform request) w := by
  cases request <;> cases edits
  case typeText text => exact typeText_records tidy text presents ready member within
  case choose choice => exact choose_records tidy choice presents ready member within
  case expand => exact (expand_records tidy presents ready member within).map
  case reset => exact reset_records presents ready member within
  case openItem index => exact (openItem_records presents ready member within).map
  case removeAt index => exact removeAt_records presents ready member within
  case paste s => exact (paste_records s presents ready member within).map

def Steps (h : HistoryId) (r : Registry S) (roots : List Handle) (P : Page S)
    (w w' : Workspace S) : Prop :=
  ∃ P', Presents h r roots w' P' ∧
    History.Takes r ((historyLens h).view w) P ((historyLens h).view w') P'

theorem Orderly.steps (orderly : Orderly h r roots w') (advances : Advances h r roots P w w') :
    Steps h r roots P w w' := by
  obtain ⟨P', depicts, takes⟩ := advances
  exact ⟨P', ⟨orderly.toTended, depicts, orderly.fine P' depicts⟩, takes⟩

theorem Steps.advances (steps : Steps h r roots P w w') : Advances h r roots P w w' := by
  obtain ⟨P', presents, takes⟩ := steps
  exact ⟨P', presents.depicts, takes⟩

theorem replacing_steps {action : Editing S α} {value : α} {w₁ : Workspace S} {description : String}
    (presents : Presents h r roots w P) (ready : Ready h w) (member : root ∈ roots)
    (within : w.arena.links.Within root id) (ran : action (w.pausing id) = .ok value w₁)
    (changed : Confined (w.pausing id) w₁ id)
    (ends : (replacing id description action).Ends w w') (orderly : Orderly h r roots w') :
    Steps h r roots P w w' := by
  obtain ⟨w'', ran', advances⟩ :=
    replacing_run description presents ready member within ran changed
  have records : Records h r roots P w (replacing id description action) w := .of_ok ran' advances
  exact orderly.steps (records.ends ends orderly.fine)

theorem group_steps {action : Editing S α} {w₁ : Workspace S} {description : String}
    (presents : Presents h r roots w P) (ready : Ready h w) (member : root ∈ roots)
    (within : w.arena.links.Within root id) (ended : action.Ends (w.grouping id) w₁)
    (inner : Presents h r roots (w.grouping id) P → Ready h (w.grouping id) →
      (∃ steps, ((historyLens h).view (w.grouping id)).collected = some steps) →
      Steps h r roots P (w.grouping id) w₁)
    (ends : (asOneStep id description action).Ends w w') (orderly : Orderly h r roots w') :
    Steps h r roots P w w' := by
  obtain ⟨editor, found, governs⟩ := presents.live member within
  obtain ⟨ready', opened⟩ := ready.grouping found governs
  have records := asOneStep_records description ready found governs
    (records_of_ends ended (inner (presents.grouping id) ready' opened).advances)
  exact orderly.steps (records.ends ends orderly.fine)

theorem Session.steps {grouped : Bool} (session : Session h r roots grouped w w')
    (tidy : Language.Tidy S) (isGroup : grouped = true)
    (presents : Presents h r roots w P) (ready : Ready h w)
    (opened : ∃ steps, ((historyLens h).view w).collected = some steps) :
    Steps h r roots P w w' := by
  have further : ∀ {P w w' w''}, Steps h r roots P w w' → Ready h w →
      (∃ steps, ((historyLens h).view w).collected = some steps) →
      (∀ P', Presents h r roots w' P' → Ready h w' → Steps h r roots P' w' w'') →
      Steps h r roots P w w'' := by
    rintro P w w' w'' steps ready ⟨collected, opened⟩ next
    have ready' := steps.advances.ready ready
    obtain ⟨P', presents', takes⟩ := steps
    obtain ⟨P'', presents'', takes'⟩ := next P' presents' ready'
    exact ⟨P'', presents'', takes.trans takes' opened⟩
  induction session generalizing P with
  | refl => exact ⟨P, presents, .refl ..⟩
  | request _ edits member within ends orderly ih =>
    refine further (ih isGroup presents ready opened) ready opened fun P' presents' ready' => ?_
    exact orderly.steps ((perform_records tidy presents' ready' member within edits).ends
      ends orderly.fine)
  | replacing _ member within ran changed ends orderly ih =>
    refine further (ih isGroup presents ready opened) ready opened fun P' presents' ready' => ?_
    exact replacing_steps presents' ready' member within ran changed ends orderly
  | group _ member within ended _ ends orderly ih inner =>
    refine further (ih isGroup presents ready opened) ready opened fun P' presents' ready' => ?_
    exact group_steps presents' ready' member within ended (inner rfl) ends orderly
  | move => cases isGroup

/-- An editor is equal to what it was in another state: it has an equal snapshot, and along every
way the results that it had there. -/
structure Recurs (v w : Workspace S) (x : Handle) : Prop where
  snapshots : ∃ s s', v.arena.snapshot x = .ok s ∧ w.arena.snapshot x = .ok s' ∧ s.same s' = true
  results : ∀ way, w.arena.resultAt? x way = v.arena.resultAt? x way

theorem recurs_of_depicts {v : Workspace S} {x : Handle} (steady : Language.Steady S)
    (sound : v.arena.Sound) (sound' : w.arena.Sound) (before : v.arena.Depicts roots P)
    (after : w.arena.Depicts roots P) (member : x ∈ roots) : Recurs v w x := by
  obtain ⟨d, seen, here⟩ := before.shown x member
  obtain ⟨d', seen', here'⟩ := after.shown x member
  have same : d.canon = d'.canon := Option.some.inj (here.symm.trans here')
  refine ⟨⟨d.toSnapshot, d'.toSnapshot, Arena.snapshot_of_shows sound.forest seen,
    Arena.snapshot_of_shows sound'.forest seen', Sketch.same_toSnapshot same⟩, fun way => ?_⟩
  have parts : (d'.at? way).map Sketch.canon = (d.at? way).map Sketch.canon := by
    rw [← Sketch.at?_canon, ← Sketch.at?_canon, same]
  have values : ∀ e : Option (Sketch S),
      e.map Sketch.value = (e.map Sketch.canon).map Sketch.value := by
    intro e
    rw [Option.map_map]
    exact congrArg (Option.map · e) (funext fun e => (Sketch.value_canon steady e).symm)
  rw [Arena.resultAt?_of_shows sound seen, Arena.resultAt?_of_shows sound' seen', values, parts,
    ← values]

section

open Sample

theorem orderly_of_fresh {x : Handle} {editor : Editor S} {d : Sketch S} (sound : w.arena.Sound)
    (found : w.arena.get? x = some editor) (isRoot : editor.parent = none)
    (seen : w.arena.Shows x d) (isFresh : d.Fresh) (known : d.Known r)
    (governed : w.contexts.Governs h r editor.context) : Orderly h r [x] w := by
  have tended : Tended h r [x] w := by
    refine ⟨sound, fun y member => ?_, fun y member => ?_⟩
    · cases List.mem_singleton.1 member
      exact ⟨editor, found, isRoot⟩
    · cases List.mem_singleton.1 member
      exact orderBelow_fresh sound found seen isFresh governed
  refine ⟨tended, fun y member z e within isLive => ?_⟩
  cases List.mem_singleton.1 member
  obtain ⟨way, led, _⟩ := locates tended member within
  obtain ⟨part, there, shown⟩ := Arena.at?_of_follow seen led
  have fine : part.Fine r := Sketch.Fine.at? ⟨isFresh.1, known⟩ there
  obtain ⟨state, held, key⟩ := shown.state
  cases (Arena.state?_of_get? isLive).symm.trans held
  exact key ▸ fine.2.has

theorem desk_governs {cs : Contexts (Services expression)} (same : cs = desk.contexts) :
    cs.Governs 0 defaultRegistry ⟨0, []⟩ := by
  subst same
  intro last leads
  cases leads with
  | refl => exact ⟨rfl, rfl⟩
  | step found => cases found

def noWords : Workspace expression := performAll [.create (.list ListName.words) ⟨0, []⟩] desk

def oneWord : Workspace expression := performAll [.openItem ⟨0, 0⟩ 0] noWords

def typedWord : Workspace expression := performAll [.typeText ⟨1, 0⟩ "ab"] oneWord

theorem reaches_noWords : Reaches {} noWords :=
  reaches_performAll _ (.beside (.refl _) rfl) (by simp [Allowed])

theorem reaches_oneWord : Reaches {} oneWord :=
  reaches_performAll _ reaches_noWords (by simp [Allowed])

theorem reaches_typed {w : Workspace expression} {x : Handle} {text : String}
    (reached : Reaches {} w) (isToken : offerTyped x text w =
      .error (.refused (.wrongShape x "expander" .token)) w) :
    Reaches {} (performAll [.typeText x text] w) := by
  refine .request (.typeText x text) reached fun answer w' offered => ?_
  rw [isToken] at offered
  cases offered

theorem reaches_typedWord : Reaches {} typedWord := reaches_typed reaches_oneWord rfl

theorem noWords_orderly : Orderly 0 defaultRegistry [⟨0, 0⟩] noWords :=
  orderly_of_fresh (sound_of_reached reaches_noWords) rfl rfl
    (Arena.shows_list.2 ⟨[], rfl, .nil⟩) ⟨⟨nofun, trivial⟩, trivial⟩ ⟨rfl, trivial⟩
    (desk_governs rfl)

theorem word_orderly {w : Workspace expression} {editor : Editor expression} {text : String}
    (reached : Reaches {} w) (found : w.arena.get? ⟨0, 0⟩ = some editor)
    (isRoot : editor.parent = none) (here : editor.context = ⟨0, []⟩)
    (isList : w.arena.state? ⟨0, 0⟩ = some (.list ListName.words [⟨1, 0⟩]))
    (isWord : w.arena.state? ⟨1, 0⟩ = some (.token TokenName.word text none))
    (contexts : w.contexts = desk.contexts) : Orderly 0 defaultRegistry [⟨0, 0⟩] w :=
  orderly_of_fresh (d := .list ListName.words [.token TokenName.word text none])
    (sound_of_reached reached) found isRoot
    (Arena.shows_list.2 ⟨[⟨1, 0⟩], isList, .cons isWord .nil⟩)
    ⟨⟨by simp [Sketch.classKey]; rfl, trivial, trivial⟩, trivial, trivial⟩ ⟨rfl, rfl, trivial⟩
    (here ▸ desk_governs contexts)

theorem oneWord_orderly : Orderly 0 defaultRegistry [⟨0, 0⟩] oneWord :=
  word_orderly reaches_oneWord rfl rfl rfl rfl rfl rfl

theorem typedWord_orderly : Orderly 0 defaultRegistry [⟨0, 0⟩] typedWord :=
  word_orderly reaches_typedWord rfl rfl rfl rfl rfl rfl

end

end Workspace

end StructureEditor
