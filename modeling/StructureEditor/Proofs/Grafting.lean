import StructureEditor.Proofs.Footing
import StructureEditor.Proofs.Frames

/-! How editors come below others. Components and items live in the context of the editor above
them, and the content of an expander lives in the context that the kind of the expander gave when
the content was put there; a log keeps the contents that were put into expanders. A run of single
changes keeps this up, and leaves alone what is not to be moved meanwhile. -/
namespace StructureEditor

variable {S : Signature}

def ContentScope.context (services : Contexts (Services S)) (own : Context) :
    ContentScope → Context
  | .own => own
  | .provided => (services.find? (·.scope) own).getD own
  | .fresh => (services.extend own).1

/-- An expander was given its content, while contexts had these services. -/
structure Filling (S : Signature) where
  expander : Handle
  content : Handle
  services : Contexts (Services S)

/-- What an expander was given last. Logs have their newest entry first. -/
def given (log : List (Filling S)) (x : Handle) : Option (Filling S) :=
  log.find? fun filling => filling.expander = x

theorem given_cons (filling : Filling S) (log : List (Filling S)) (x : Handle) :
    given (filling :: log) x = if filling.expander = x then some filling else given log x := by
  by_cases here : filling.expander = x <;> simp [given, here]

def ClassKey.sharesContext : ClassKey S → Bool
  | .compound _ | .list _ => true
  | .token _ | .expander _ => false

theorem EditorState.sharesContext_classKey (state : EditorState S) :
    state.classKey.sharesContext = state.sharesContext := by
  cases state <;> rfl

theorem EditorState.expanded_of_child {state : EditorState S} {k : S.ExpanderClass} {c : Handle}
    (key : state.classKey = .expander k) (listed : c ∈ state.children) :
    state = .expander k (.expanded c) := by
  cases state with
  | expander k' display =>
    cases key
    cases display with
    | text text item => cases listed
    | expanded content => rw [List.mem_singleton.1 listed]
  | _ => cases key

namespace Footings

variable [Language S] {g h : Footings S} {log : List (Filling S)} {x y c : Handle} {f f' : Footing S}

/-- Children are live, and their parent is the editor that lists them. They live in the context that
it has for them. -/
structure Housed (log : List (Filling S)) (g : Footings S) : Prop where
  linked : ∀ x f, g x = some f → ∀ c ∈ f.children, ∃ f', g c = some f' ∧ f'.parent = some x
  shared : ∀ x f, g x = some f → f.key.sharesContext = true → ∀ c ∈ f.children, ∀ f', g c = some f' →
    f'.context = f.context
  distinct : ∀ x f k, g x = some f → f.key = .list k → f.children.Nodup
  filled : ∀ x f k, g x = some f → f.key = .expander k → ∀ c ∈ f.children, ∀ f', g c = some f' →
    ∃ filling, given log x = some filling ∧ filling.content = c ∧
      f'.context = (Language.expander k).contentScope.context filling.services f.context

/-- No child of the editor is fixed. -/
def FreeBelow (fixed : Handle → Prop) (g : Footings S) (x : Handle) : Prop :=
  ∀ f, g x = some f → ∀ c ∈ f.children, ¬ fixed c

/-- Nobody lists the editor. -/
def Unlisted (g : Footings S) (x : Handle) : Prop := ∀ y f, g y = some f → x ∉ f.children

omit [Language S] in
theorem unlisted_of_parent (linked : ∀ x f, g x = some f → ∀ c ∈ f.children,
    ∃ f', g c = some f' ∧ f'.parent = some x) (found : g c = some f)
    (others : ∀ y f', g y = some f' → f.parent = some y → c ∉ f'.children) : g.Unlisted c := by
  intro y f' isLive listed
  obtain ⟨f₁, found₁, hasParent⟩ := linked y f' isLive c listed
  cases found.symm.trans found₁
  exact others y f' isLive hasParent listed

theorem Housed.unlisted_of_root (housed : g.Housed log) (found : g c = some f)
    (isRoot : f.parent = none) : g.Unlisted c :=
  unlisted_of_parent housed.linked found fun _ _ _ hasParent => by
    rw [isRoot] at hasParent
    cases hasParent

theorem Housed.plant (housed : g.Housed log) (fresh : g x = none)
    (leaf : (∃ k, f.key = .compound k) ∨ f.children = [])
    (kids : ∀ c ∈ f.children, ∃ f', g c = some f' ∧ f'.parent = none ∧ f'.context = f.context) :
    (g.plant x f).Housed log := by
  have other : ∀ {c f'}, g c = some f' → c ≠ x := by
    rintro c f' found rfl
    rw [fresh] at found
    cases found
  -- what was there is listed where it was listed before
  have unlisted : ∀ {y f' c}, g y = some f' → c ∈ f'.children → c ∉ f.children := by
    intro y f' c found listed adopted
    obtain ⟨f₁, found₁, isRoot, _⟩ := kids c adopted
    exact housed.unlisted_of_root found₁ isRoot y f' found listed
  have carried : ∀ {y f' c}, g y = some f' → c ∈ f'.children →
      g.plant x f c = g c := by
    intro y f' c found listed
    obtain ⟨f₁, found₁, _⟩ := housed.linked y f' found c listed
    exact plant_of_ne (other found₁) (unlisted found listed)
  constructor
  · intro y f' found c listed
    rcases of_plant found with ⟨rfl, rfl⟩ | ⟨_, f₀, was, _, _, children, _⟩
    · obtain ⟨f₁, found₁, _⟩ := kids c listed
      exact ⟨_, plant_child found₁ listed (other found₁), rfl⟩
    · rw [children] at listed
      rw [carried was listed]
      exact housed.linked y f₀ was c listed
  · intro y f' found shares c listed f₁ found₁
    rcases of_plant found with ⟨rfl, rfl⟩ | ⟨_, f₀, was, context, key, children, _⟩
    · obtain ⟨f₂, found₂, _, same⟩ := kids c listed
      rw [plant_child found₂ listed (other found₂)] at found₁
      cases found₁
      exact same
    · rw [children] at listed
      rw [carried was listed] at found₁
      rw [context]
      exact housed.shared y f₀ was (key ▸ shares) c listed f₁ found₁
  · intro y f' k found isList
    rcases of_plant found with ⟨rfl, rfl⟩ | ⟨_, f₀, was, _, key, children, _⟩
    · rcases leaf with ⟨k', isCompound⟩ | none
      · rw [isCompound] at isList
        cases isList
      · rw [none]
        exact List.nodup_nil
    · rw [children]
      exact housed.distinct y f₀ k was (key ▸ isList)
  · intro y f' k found isExpander c listed f₁ found₁
    rcases of_plant found with ⟨rfl, rfl⟩ | ⟨_, f₀, was, context, key, children, _⟩
    · rcases leaf with ⟨k', isCompound⟩ | none
      · rw [isCompound] at isExpander
        cases isExpander
      · rw [none] at listed
        cases listed
    · rw [children] at listed
      rw [carried was listed] at found₁
      rw [context]
      exact housed.filled y f₀ k was (key ▸ isExpander) c listed f₁ found₁

theorem Housed.reparent (housed : g.Housed log) (isLive : g c = some f) (isRoot : f.parent = none)
    (parent : Option Handle) : (g.reparent c parent).Housed log := by
  have unlisted := housed.unlisted_of_root isLive isRoot
  have carried : ∀ {y f' d}, g y = some f' → d ∈ f'.children → g.reparent c parent d = g d := by
    intro y f' d found listed
    refine reparent_of_ne ?_
    rintro rfl
    exact unlisted y f' found listed
  constructor
  · intro y f' found d listed
    obtain ⟨f₀, was, _, _, children, _⟩ := of_reparent found
    rw [children] at listed
    rw [carried was listed]
    exact housed.linked y f₀ was d listed
  · intro y f' found shares d listed f₁ found₁
    obtain ⟨f₀, was, context, key, children, _⟩ := of_reparent found
    rw [children] at listed
    rw [carried was listed] at found₁
    rw [context]
    exact housed.shared y f₀ was (key ▸ shares) d listed f₁ found₁
  · intro y f' k found isList
    obtain ⟨f₀, was, _, key, children, _⟩ := of_reparent found
    rw [children]
    exact housed.distinct y f₀ k was (key ▸ isList)
  · intro y f' k found isExpander d listed f₁ found₁
    obtain ⟨f₀, was, context, key, children, _⟩ := of_reparent found
    rw [children] at listed
    rw [carried was listed] at found₁
    rw [context]
    exact housed.filled y f₀ k was (key ▸ isExpander) d listed f₁ found₁

theorem Housed.relist {ids : List Handle} (housed : g.Housed log) (more : List (Filling S))
    (isLive : g x = some f)
    (elsewhere : ∀ y, y ≠ x → given (more ++ log) y = given log y)
    (linked : ∀ c ∈ ids, ∃ f', g c = some f' ∧ f'.parent = some x)
    (shared : f.key.sharesContext = true → ∀ c ∈ ids, ∀ f', g c = some f' → f'.context = f.context)
    (distinct : ∀ k, f.key = .list k → ids.Nodup)
    (filled : ∀ k, f.key = .expander k → ∀ c ∈ ids, ∀ f', g c = some f' →
      ∃ filling, given (more ++ log) x = some filling ∧ filling.content = c ∧
        f'.context = (Language.expander k).contentScope.context filling.services f.context) :
    (g.relist x ids).Housed (more ++ log) := by
  constructor
  · intro y f' found c listed
    have old : ∃ f₁, g c = some f₁ ∧ f₁.parent = some y := by
      rcases relist_cases isLive found with ⟨rfl, rfl⟩ | ⟨_, was⟩
      · exact linked c listed
      · exact housed.linked y f' was c listed
    obtain ⟨f₁, found₁, hasParent⟩ := old
    obtain ⟨f₂, found₂, _, parent, _⟩ := relist_some x ids found₁
    exact ⟨f₂, found₂, parent.trans hasParent⟩
  · intro y f' found shares c listed f₁ found₁
    obtain ⟨f₂, found₂, context, _⟩ := of_relist found₁
    rw [context]
    rcases relist_cases isLive found with ⟨rfl, rfl⟩ | ⟨_, was⟩
    · exact shared shares c listed f₂ found₂
    · exact housed.shared y f' was shares c listed f₂ found₂
  · intro y f' k found isList
    rcases relist_cases isLive found with ⟨rfl, rfl⟩ | ⟨_, was⟩
    · exact distinct k isList
    · exact housed.distinct y f' k was isList
  · intro y f' k found isExpander c listed f₁ found₁
    obtain ⟨f₂, found₂, context, _⟩ := of_relist found₁
    rw [context]
    rcases relist_cases isLive found with ⟨rfl, rfl⟩ | ⟨other, was⟩
    · exact filled k isExpander c listed f₂ found₂
    · rw [elsewhere y other]
      exact housed.filled y f' k was isExpander c listed f₂ found₂

theorem Housed.prune {ids : List Handle} (housed : g.Housed log) (isLive : g x = some f)
    (fewer : ids.Sublist f.children) : (g.relist x ids).Housed log :=
  housed.relist [] isLive (fun _ _ => rfl)
    (fun c listed => housed.linked x f isLive c (fewer.subset listed))
    (fun shares c listed => housed.shared x f isLive shares c (fewer.subset listed))
    (fun k isList => (housed.distinct x f k isLive isList).sublist fewer)
    fun k isExpander c listed => housed.filled x f k isLive isExpander c (fewer.subset listed)

theorem Housed.join {k : S.ListClass} {ids : List Handle} (housed : g.Housed log)
    (isLive : g x = some f) (isList : f.key = .list k) (item : g c = some f')
    (isParent : f'.parent = some x) (same : f'.context = f.context) (distinct : ids.Nodup)
    (among : ∀ d ∈ ids, d = c ∨ d ∈ f.children) : (g.relist x ids).Housed log := by
  refine housed.relist [] isLive (fun _ _ => rfl) ?_ ?_ (fun _ _ => distinct) ?_
  · intro d listed
    rcases among d listed with rfl | old
    · exact ⟨f', item, isParent⟩
    · exact housed.linked x f isLive d old
  · intro shares d listed f₁ found
    rcases among d listed with rfl | old
    · cases item.symm.trans found
      exact same
    · exact housed.shared x f isLive shares d old f₁ found
  · intro k' isExpander
    rw [isList] at isExpander
    cases isExpander

theorem Housed.fill {k : S.ExpanderClass} {services : Contexts (Services S)}
    (housed : g.Housed log) (isLive : g x = some f) (isExpander : f.key = .expander k)
    (content : g c = some f') (isParent : f'.parent = some x)
    (scope : f'.context = (Language.expander k).contentScope.context services f.context) :
    (g.relist x [c]).Housed (⟨x, c, services⟩ :: log) := by
  refine housed.relist [⟨x, c, services⟩] isLive ?_ ?_ ?_ ?_ ?_
  · intro y other
    rw [List.singleton_append, given_cons, if_neg (Ne.symm other)]
  · intro d listed
    rw [List.mem_singleton.1 listed]
    exact ⟨f', content, isParent⟩
  · intro shares
    rw [isExpander] at shares
    cases shares
  · exact fun _ _ => List.nodup_singleton c
  · intro k' isExpander' d listed f₁ found
    rw [List.mem_singleton.1 listed] at found ⊢
    cases content.symm.trans found
    cases isExpander.symm.trans isExpander'
    exact ⟨⟨x, c, services⟩, by rw [List.singleton_append, given_cons, if_pos rfl], rfl, scope⟩

theorem Housed.thin (housed : g.Housed log) (kept : ∀ y, h y = g y ∨ h y = none)
    (unlisted : ∀ y f c, h y = some f → c ∈ f.children → h c = g c) : h.Housed log := by
  have was : ∀ {y f}, h y = some f → g y = some f := by
    intro y f found
    rcases kept y with same | gone
    · exact same ▸ found
    · rw [gone] at found
      cases found
  constructor
  · intro y f found c listed
    rw [unlisted y f c found listed]
    exact housed.linked y f (was found) c listed
  · exact fun y f found shares c listed f' found' =>
      housed.shared y f (was found) shares c listed f' (was found')
  · exact fun y f k found => housed.distinct y f k (was found)
  · exact fun y f k found isExpander c listed f' found' =>
      housed.filled y f k (was found) isExpander c listed f' (was found')

theorem Housed.dispose {a : Arena S} (housed : a.footings.Housed log)
    (unlisted : a.footings.Unlisted x) : (a.dispose x).footings.Housed log := by
  refine housed.thin (Arena.dispose_keeps a x) fun y f c found listed => ?_
  -- what went was listed by something that went, or by nobody
  have wasLive : a.footings y = some f := by
    rcases Arena.dispose_keeps a x y with same | gone
    · exact same ▸ found
    · cases gone.symm.trans found
  refine (Arena.dispose_keeps a x c).resolve_right fun gone => ?_
  obtain ⟨f₁, isLive, isParent⟩ := housed.linked y f wasLive c listed
  rcases Arena.dispose_loses isLive gone with rfl | ⟨z, f₂, foundZ, goneZ, listedZ⟩
  · exact unlisted y f wasLive listed
  · obtain ⟨f₃, isLive', isParent'⟩ := housed.linked z f₂ foundZ c listedZ
    cases isLive.symm.trans isLive'
    cases isParent.symm.trans isParent'
    cases goneZ.symm.trans found

end Footings

namespace Footings

variable {g : Footings S} {fixed : Handle → Prop} {x y : Handle} {f : Footing S}

theorem FreeBelow.relist {ids : List Handle} (free : FreeBelow fixed g x) (isLive : g y = some f)
    (among : ∀ c ∈ ids, c ∈ f.children ∨ ¬ fixed c) : FreeBelow fixed (g.relist y ids) x := by
  intro f' found c listed
  rcases relist_cases isLive found with ⟨rfl, rfl⟩ | ⟨_, was⟩
  · exact (among c listed).elim (free f isLive c) id
  · exact free f' was c listed

end Footings

structure Footing.Stays (f f' : Footing S) : Prop where
  context : f'.context = f.context
  parent : f'.parent = f.parent
  key : f'.key = f.key

theorem Footing.Stays.refl (f : Footing S) : f.Stays f := ⟨rfl, rfl, rfl⟩

theorem Footing.Stays.trans {f f' f'' : Footing S} (first : f.Stays f') (second : f'.Stays f'') :
    f.Stays f'' :=
  ⟨second.context.trans first.context, second.parent.trans first.parent, second.key.trans first.key⟩

namespace Workspace

variable [Language S] {fixed fixed' : Handle → Prop} {since : Contexts (Services S)}
  {log₀ log log' log'' : List (Filling S)} {w₀ w w' w'' : Workspace S} {x : Handle} {f : Footing S}

/-- All children are where they belong. The editors that are fixed are live, and they are below
each other only. -/
structure Tidy (fixed : Handle → Prop) (log : List (Filling S)) (w : Workspace S) : Prop where
  exact : w.arena.Exact
  housed : w.arena.footings.Housed log
  live : ∀ x, fixed x → ∃ f, w.arena.footings x = some f
  fenced : ∀ x, ¬ fixed x → w.arena.footings.FreeBelow fixed x

/-- A step of a run, which leaves the fixed editors where they are. What an expander is given is put
into the log, with the services at that time. -/
inductive Graft (fixed : Handle → Prop) (since : Contexts (Services S)) (log : List (Filling S))
    (w : Workspace S) : List (Filling S) → Workspace S → Prop where
  | still {w' : Workspace S} : w'.arena.footings = w.arena.footings → w'.arena.Exact →
      w.contexts.Grown w'.contexts → Graft fixed since log w log w'
  | plant {b : Arena S} {x : Handle} {f : Footing S} : b.Exact → w.arena.footings x = none →
      f.parent = none → ((∃ k, f.key = .compound k) ∨ f.children = []) →
      (∀ c ∈ f.children, ¬ fixed c ∧
        ∃ f', w.arena.footings c = some f' ∧ f'.parent = none ∧ f'.context = f.context) →
      b.footings = w.arena.footings.plant x f → Graft fixed since log w log { w with arena := b }
  | claim {b : Arena S} {c parent : Handle} {f : Footing S} : b.Exact → ¬ fixed c →
      w.arena.footings c = some f → f.parent = none →
      b.footings = w.arena.footings.reparent c (some parent) →
      Graft fixed since log w log { w with arena := b }
  | join {b : Arena S} {x c : Handle} {f f' : Footing S} {k : S.ListClass} {ids : List Handle} :
      b.Exact → ¬ fixed c → w.arena.footings x = some f → f.key = .list k →
      w.arena.footings c = some f' → f'.parent = some x → f'.context = f.context → ids.Nodup →
      (∀ d ∈ ids, d = c ∨ d ∈ f.children) → b.footings = w.arena.footings.relist x ids →
      Graft fixed since log w log { w with arena := b }
  /-- An expander gets its content, which lives in the context that the expander gives with the
  services of that time. -/
  | fill {b : Arena S} {x c : Handle} {f f' : Footing S} {k : S.ExpanderClass}
      {services : Contexts (Services S)} : b.Exact → ¬ fixed c → w.arena.footings x = some f →
      f.key = .expander k → w.arena.footings c = some f' → f'.parent = some x →
      f'.context = (Language.expander k).contentScope.context services f.context →
      since.Grown services → services.Grown w.contexts →
      b.footings = w.arena.footings.relist x [c] →
      Graft fixed since log w (⟨x, c, services⟩ :: log) { w with arena := b }
  | cut {b : Arena S} {x : Handle} {f : Footing S} {ids : List Handle} : b.Exact →
      w.arena.footings x = some f → ids.Sublist f.children →
      b.footings = w.arena.footings.relist x ids → Graft fixed since log w log { w with arena := b }
  /-- An editor that nobody lists is freed with what is below it. -/
  | free {id : Handle} : ¬ fixed id → w.arena.footings.Unlisted id →
      Graft fixed since log w log { w with arena := w.arena.dispose id }

/-- What was put into the log on the way from one workspace to another: the services are of that
time, and expanders were given all that they have and had not before. -/
structure Entries (since : Contexts (Services S)) (w : Workspace S) (more : List (Filling S))
    (w' : Workspace S) : Prop where
  between : ∀ filling ∈ more, since.Grown filling.services ∧ filling.services.Grown w'.contexts
  entered : ∀ x f k c, w'.arena.footings x = some f → f.key = .expander k → c ∈ f.children →
    (∃ f₀, w.arena.footings x = some f₀ ∧ f₀.key = f.key ∧ c ∈ f₀.children) ∨
      ∃ filling ∈ more, filling.expander = x ∧ filling.content = c

namespace Graft

theorem grown (step : Graft fixed since log w log' w') : w.contexts.Grown w'.contexts := by
  cases step with
  | still _ _ grown => exact grown
  | _ => exact .refl _

theorem freeBelow (step : Graft fixed since log w log' w')
    (free : w.arena.footings.FreeBelow fixed x) : w'.arena.footings.FreeBelow fixed x := by
  cases step with
  | still same _ _ => rwa [same]
  | plant _ _ _ _ kids planted =>
    intro f found c listed
    dsimp only at found
    rw [planted] at found
    rcases Footings.of_plant found with ⟨_, rfl⟩ | ⟨_, f₀, was, _, _, children, _⟩
    · exact (kids c listed).1
    · exact free f₀ was c (children ▸ listed)
  | claim _ _ _ _ moved =>
    intro f found c listed
    dsimp only at found
    rw [moved] at found
    obtain ⟨f₀, was, _, _, children, _⟩ := Footings.of_reparent found
    exact free f₀ was c (children ▸ listed)
  | join _ isFree isLive _ _ _ _ _ among relisted =>
    dsimp only
    rw [relisted]
    refine free.relist isLive fun d listed => ?_
    rcases among d listed with rfl | old
    · exact .inr isFree
    · exact .inl old
  | fill _ isFree isLive _ _ _ _ _ _ relisted =>
    dsimp only
    rw [relisted]
    exact free.relist isLive fun d listed => .inr (List.mem_singleton.1 listed ▸ isFree)
  | cut _ isLive fewer relisted =>
    dsimp only
    rw [relisted]
    exact free.relist isLive fun d listed => .inl (fewer.subset listed)
  | @free id _ _ =>
    intro f found c listed
    rcases Arena.dispose_keeps w.arena id x with same | gone
    · exact free f (same ▸ found) c listed
    · cases gone.symm.trans found

theorem frame (step : Graft fixed since log w log' w')
    (fenced : ∀ x, ¬ fixed x → w.arena.footings.FreeBelow fixed x) (isFixed : fixed x)
    (found : w.arena.footings x = some f) : ∃ f', w'.arena.footings x = some f' ∧ f.Stays f' := by
  have relisted : ∀ {y ids}, ∃ f', w.arena.footings.relist y ids x = some f' ∧ f.Stays f' := by
    intro y ids
    obtain ⟨f', isLive, context, parent, key⟩ := Footings.relist_some y ids found
    exact ⟨f', isLive, context, parent, key⟩
  cases step with
  | still same _ _ => exact ⟨f, same ▸ found, .refl f⟩
  | @plant b y f' _ fresh _ _ kids planted =>
    refine ⟨f, ?_, .refl f⟩
    dsimp only
    rw [planted, Footings.plant_of_ne, found]
    · rintro rfl
      cases fresh.symm.trans found
    · exact fun listed => (kids x listed).1 isFixed
  | claim _ isFree _ _ moved =>
    refine ⟨f, ?_, .refl f⟩
    dsimp only
    rw [moved, Footings.reparent_of_ne, found]
    rintro rfl
    exact isFree isFixed
  | join _ _ _ _ _ _ _ _ _ same =>
    dsimp only
    exact same ▸ relisted
  | fill _ _ _ _ _ _ _ _ _ same =>
    dsimp only
    exact same ▸ relisted
  | cut _ _ _ same =>
    dsimp only
    exact same ▸ relisted
  | @free id isFree _ =>
    refine ⟨f, ?_, .refl f⟩
    rw [← found]
    exact Arena.dispose_spares (N := fun z => ¬ fixed z)
      (fun z f found isFree => fenced z isFree f found) isFree fun other => other isFixed

theorem exact (step : Graft fixed since log w log' w') (before : w.arena.Exact) :
    w'.arena.Exact := by
  cases step with
  | still _ exact _ => exact exact
  | plant exact _ _ _ _ _ => exact exact
  | claim exact _ _ _ _ => exact exact
  | join exact _ _ _ _ _ _ _ _ _ => exact exact
  | fill exact _ _ _ _ _ _ _ _ _ => exact exact
  | cut exact _ _ _ => exact exact
  | free _ _ => exact Arena.exact_dispose before _

theorem housed (step : Graft fixed since log w log' w') (housed : w.arena.footings.Housed log) :
    w'.arena.footings.Housed log' := by
  cases step with
  | still same _ _ => rwa [same]
  | plant _ fresh _ leaf kids planted =>
    dsimp only
    rw [planted]
    exact housed.plant fresh leaf fun c listed => (kids c listed).2
  | claim _ _ isLive isRoot moved =>
    dsimp only
    rw [moved]
    exact housed.reparent isLive isRoot _
  | join _ _ isLive isList item isParent same distinct among relisted =>
    dsimp only
    rw [relisted]
    exact housed.join isLive isList item isParent same distinct among
  | fill _ _ isLive isExpander content isParent scope _ _ relisted =>
    dsimp only
    rw [relisted]
    exact housed.fill isLive isExpander content isParent scope
  | cut _ isLive fewer relisted =>
    dsimp only
    rw [relisted]
    exact housed.prune isLive fewer
  | free _ unlisted => exact housed.dispose unlisted

theorem tidy (step : Graft fixed since log w log' w') (tidy : Tidy fixed log w) :
    Tidy fixed log' w' where
  exact := step.exact tidy.exact
  housed := step.housed tidy.housed
  live x isFixed := by
    obtain ⟨f, found⟩ := tidy.live x isFixed
    obtain ⟨f', found', _⟩ := step.frame tidy.fenced isFixed found
    exact ⟨f', found'⟩
  fenced x isFree := step.freeBelow (tidy.fenced x isFree)

theorem entries (step : Graft fixed since log w log' w') :
    ∃ more, log' = more ++ log ∧ Entries since w more w' := by
  have none : ∀ filling ∈ ([] : List (Filling S)),
      since.Grown filling.services ∧ filling.services.Grown w'.contexts := by simp
  cases step with
  | still same _ _ =>
    exact ⟨[], rfl, none, fun x f k c found _ listed => .inl ⟨f, same ▸ found, rfl, listed⟩⟩
  | plant _ _ _ leaf _ planted =>
    refine ⟨[], rfl, none, fun x f k c found isExpander listed => ?_⟩
    dsimp only at found
    rw [planted] at found
    rcases Footings.of_plant found with ⟨_, rfl⟩ | ⟨_, f₀, was, _, key, children, _⟩
    · rcases leaf with ⟨k', isCompound⟩ | childless
      · cases isCompound.symm.trans isExpander
      · rw [childless] at listed
        cases listed
    · exact .inl ⟨f₀, was, key.symm, children ▸ listed⟩
  | claim _ _ _ _ moved =>
    refine ⟨[], rfl, none, fun x f k c found _ listed => ?_⟩
    dsimp only at found
    rw [moved] at found
    obtain ⟨f₀, was, _, key, children, _⟩ := Footings.of_reparent found
    exact .inl ⟨f₀, was, key.symm, children ▸ listed⟩
  | join _ _ isLive isList _ _ _ _ _ relisted =>
    refine ⟨[], rfl, none, fun y f k c found isExpander listed => ?_⟩
    dsimp only at found
    rw [relisted] at found
    rcases Footings.relist_cases isLive found with ⟨rfl, rfl⟩ | ⟨_, was⟩
    · cases isList.symm.trans isExpander
    · exact .inl ⟨f, was, rfl, listed⟩
  | @fill b x c f f' k services _ _ isLive _ _ _ _ after before relisted =>
    refine ⟨[⟨x, c, services⟩], rfl, by simp [after, before], fun y f k d found _ listed => ?_⟩
    dsimp only at found
    rw [relisted] at found
    rcases Footings.relist_cases isLive found with ⟨rfl, rfl⟩ | ⟨_, was⟩
    · exact .inr ⟨_, List.mem_cons_self, rfl, (List.mem_singleton.1 listed).symm⟩
    · exact .inl ⟨f, was, rfl, listed⟩
  | cut _ isLive fewer relisted =>
    refine ⟨[], rfl, none, fun y f k c found _ listed => ?_⟩
    dsimp only at found
    rw [relisted] at found
    rcases Footings.relist_cases isLive found with ⟨rfl, rfl⟩ | ⟨_, was⟩
    · exact .inl ⟨_, isLive, rfl, fewer.subset listed⟩
    · exact .inl ⟨f, was, rfl, listed⟩
  | @free id _ _ =>
    refine ⟨[], rfl, none, fun x f k c found _ listed => .inl ?_⟩
    rcases Arena.dispose_keeps w.arena id x with same | gone
    · exact ⟨f, same ▸ found, rfl, listed⟩
    · cases gone.symm.trans found

theorem mono (step : Graft fixed' since log w log' w') (fewer : ∀ x, fixed x → fixed' x)
    {earlier : Contexts (Services S)} (grown : earlier.Grown since) :
    Graft fixed earlier log w log' w' := by
  have isFree : ∀ {x}, ¬ fixed' x → ¬ fixed x := fun isFree isFixed => isFree (fewer _ isFixed)
  cases step with
  | still same exact grown => exact .still same exact grown
  | plant exact fresh isRoot leaf kids planted =>
    exact .plant exact fresh isRoot leaf (fun c listed => (kids c listed).imp_left isFree) planted
  | claim exact free isLive isRoot moved => exact .claim exact (isFree free) isLive isRoot moved
  | join exact free isLive isList item isParent same distinct among relisted =>
    exact .join exact (isFree free) isLive isList item isParent same distinct among relisted
  | fill exact free isLive isExpander content isParent scope after before relisted =>
    exact .fill exact (isFree free) isLive isExpander content isParent scope (grown.trans after)
      before relisted
  | cut exact isLive fewer relisted => exact .cut exact isLive fewer relisted
  | free free unlisted => exact .free (isFree free) unlisted

end Graft

/-- One workspace comes from another by steps. -/
inductive Grafts (fixed : Handle → Prop) (log₀ : List (Filling S)) (w₀ : Workspace S) :
    List (Filling S) → Workspace S → Prop where
  | start : Tidy fixed log₀ w₀ → Grafts fixed log₀ w₀ log₀ w₀
  | step {log log' : List (Filling S)} {w w' : Workspace S} : Grafts fixed log₀ w₀ log w →
      Graft fixed w₀.contexts log w log' w' → Grafts fixed log₀ w₀ log' w'

namespace Grafts

theorem grown (run : Grafts fixed log₀ w₀ log w) : w₀.contexts.Grown w.contexts := by
  induction run with
  | start => exact .refl _
  | step _ step ih => exact ih.trans step.grown

theorem tidy (run : Grafts fixed log₀ w₀ log w) : Tidy fixed log w := by
  induction run with
  | start tidy => exact tidy
  | step _ step ih => exact step.tidy ih

theorem freeBelow (run : Grafts fixed log₀ w₀ log w) (free : w₀.arena.footings.FreeBelow fixed x) :
    w.arena.footings.FreeBelow fixed x := by
  induction run with
  | start => exact free
  | step _ step ih => exact step.freeBelow ih

theorem frame (run : Grafts fixed log₀ w₀ log w) (isFixed : fixed x)
    (found : w₀.arena.footings x = some f) :
    ∃ f', w.arena.footings x = some f' ∧ f.Stays f' := by
  induction run with
  | start => exact ⟨f, found, .refl f⟩
  | step run step ih =>
    obtain ⟨f', isLive, stays⟩ := ih
    obtain ⟨f'', isLive', stays'⟩ := step.frame run.tidy.fenced isFixed isLive
    exact ⟨f'', isLive', stays.trans stays'⟩

theorem trans (first : Grafts fixed log₀ w₀ log w) (second : Grafts fixed' log w log' w')
    (fewer : ∀ x, fixed x → fixed' x) : Grafts fixed log₀ w₀ log' w' := by
  induction second with
  | start => exact first
  | step _ step ih => exact ih.step (step.mono fewer first.grown)

theorem log_grows (run : Grafts fixed log₀ w₀ log w) :
    ∃ more, log = more ++ log₀ ∧ Entries w₀.contexts w₀ more w := by
  induction run with
  | start => exact ⟨[], rfl, by simp, fun x f k c found _ listed => .inl ⟨f, found, rfl, listed⟩⟩
  | @step log log' w w' run step ih =>
    obtain ⟨earlier, rfl, between, entered⟩ := ih
    obtain ⟨later, rfl, between', entered'⟩ := step.entries
    refine ⟨later ++ earlier, (List.append_assoc later earlier log₀).symm, fun filling member => ?_,
      fun x f k c found isExpander listed => ?_⟩
    · rcases List.mem_append.1 member with new | old
      · exact ⟨(between' filling new).1, (between' filling new).2⟩
      · exact ⟨(between filling old).1, (between filling old).2.trans step.grown⟩
    · rcases entered' x f k c found isExpander listed with
        ⟨f₁, found₁, key, listed₁⟩ | ⟨filling, new, named⟩
      · rcases entered x f₁ k c found₁ (key.trans isExpander) listed₁ with
          ⟨f₂, found₂, key₂, listed₂⟩ | ⟨filling, old, named⟩
        · exact .inl ⟨f₂, found₂, key₂.trans key, listed₂⟩
        · exact .inr ⟨filling, List.mem_append_right later old, named⟩
      · exact .inr ⟨filling, List.mem_append_left earlier new, named⟩

end Grafts

end Workspace

end StructureEditor
