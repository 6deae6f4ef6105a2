import StructureEditor.Proofs.Transitions

/-! Hooks that do not look at handles. What such a hook does is the same whichever handles the
arena gives out: two runs of it go in step, and each handle of the one run stands for the handle
that was made at the same time in the other. Rule books made of such rules are such hooks. -/
namespace StructureEditor

variable {S : Signature} {α β : Type}

namespace Build

/-- Handles that were made at the same time in two runs. -/
abbrev Pairs := List (Handle × Handle)

/-- Two builds go in step, and their answers agree under the handles made until then. -/
inductive Alike (agree : Pairs → α → α → Prop) : Pairs → Build S α → Build S α → Prop where
  | done {pairs : Pairs} {a b : α} : agree pairs a b → Alike agree pairs (.done a) (.done b)
  | fail (pairs : Pairs) : Alike agree pairs .fail .fail
  | create {pairs : Pairs} {next next' : Handle → Build S α} (c : ClassKey S) :
      (∀ x y, Alike agree ((x, y) :: pairs) (next x) (next' y)) →
      Alike agree pairs (.create c next) (.create c next')
  | createToken {pairs : Pairs} {next next' : Handle → Build S α} (c : S.TokenClass)
      (text : String) : (∀ x y, Alike agree ((x, y) :: pairs) (next x) (next' y)) →
      Alike agree pairs (.createToken c text next) (.createToken c text next')
  | typeToken {pairs : Pairs} {x y : Handle} {next next' : Build S α} (text : String) :
      (x, y) ∈ pairs → Alike agree pairs next next' →
      Alike agree pairs (.typeToken x text next) (.typeToken y text next')

/-- Two handles that were made at the same time. -/
def Paired (pairs : Pairs) (x y : Handle) : Prop := (x, y) ∈ pairs

/-- Two answers of hooks: both decline, or both give an editor made at the same time. -/
def Answered (pairs : Pairs) : Option Handle → Option Handle → Prop := Option.Rel (Paired pairs)

variable {agree : Pairs → α → α → Prop} {agree' : Pairs → β → β → Prop} {pairs : Pairs}
  {b b' : Build S α}

theorem Alike.bind {f f' : α → Build S β} (alike : Alike agree pairs b b')
    (next : ∀ more a a', pairs ⊆ more → agree more a a' → Alike agree' more (f a) (f' a')) :
    Alike agree' pairs (b.bind f) (b'.bind f') := by
  have later : ∀ {x y : Handle} {pairs : Pairs}, (∀ more a a', pairs ⊆ more → agree more a a' →
      Alike agree' more (f a) (f' a')) → ∀ more a a', (x, y) :: pairs ⊆ more → agree more a a' →
      Alike agree' more (f a) (f' a') := fun next more a a' sub =>
    next more a a' fun pair member => sub (List.mem_cons_of_mem _ member)
  induction alike with
  | done agreed => exact next _ _ _ (fun _ member => member) agreed
  | fail pairs => exact .fail pairs
  | create c _ ih => exact .create c fun x y => ih x y (later next)
  | createToken c text _ ih => exact .createToken c text fun x y => ih x y (later next)
  | typeToken text listed _ ih => exact .typeToken text listed (ih next)

theorem Alike.more {pairs' : Pairs} (alike : Alike agree pairs b b') (sub : pairs ⊆ pairs')
    (wider : ∀ {some all : Pairs} {a a' : α}, some ⊆ all → agree some a a' → agree all a a') :
    Alike agree pairs' b b' := by
  induction alike generalizing pairs' with
  | done agreed => exact .done (wider sub agreed)
  | fail => exact .fail pairs'
  | create c _ ih => exact .create c fun x y => ih x y (List.cons_subset_cons _ sub)
  | createToken c text _ ih =>
    exact .createToken c text fun x y => ih x y (List.cons_subset_cons _ sub)
  | typeToken text listed _ ih => exact .typeToken text (sub listed) (ih sub)

theorem Answered.more {pairs' : Pairs} {a a' : Option Handle} (sub : pairs ⊆ pairs')
    (answered : Answered pairs a a') : Answered pairs' a a' := by
  cases answered with
  | some paired => exact .some (sub paired)
  | none => exact .none

/-- A build that never looks at a handle goes in step with itself. -/
def Blind (agree : Pairs → α → α → Prop) (b : Build S α) : Prop := Alike agree [] b b

theorem Blind.within {hook : Build S (Option Handle)} (isBlind : hook.Blind Answered)
    (pairs : Pairs) : Alike Answered pairs hook hook :=
  Alike.more isBlind (List.nil_subset pairs) Answered.more

theorem blind_editor (c : ClassKey S) : (Build.editor c).Blind Paired :=
  .create c fun _ _ => .done List.mem_cons_self

theorem blind_token (c : S.TokenClass) (text : String) : (Build.token c text).Blind Paired :=
  .createToken c text fun _ _ => .done List.mem_cons_self

theorem Blind.answer {make : Build S Handle} (isBlind : make.Blind Paired) :
    (some <$> make : Build S (Option Handle)).Blind Answered :=
  Alike.bind isBlind fun _ _ _ _ paired => .done (.some paired)

theorem blind_decline : (Build.done none : Build S (Option Handle)).Blind Answered := .done .none

theorem blind_firstMade {builds : List (Build S (Option Handle))}
    (each : ∀ build ∈ builds, build.Blind Answered) (pairs : Pairs) :
    Alike Answered pairs (firstMade builds) (firstMade builds) := by
  induction builds generalizing pairs with
  | nil => exact .done .none
  | cons build rest ih =>
    refine ((each build List.mem_cons_self).within pairs).bind fun more a a' _ answered => ?_
    cases answered with
    | some paired => exact .done (.some paired)
    | none => exact ih (fun other member => each other (List.mem_cons_of_mem _ member)) more

/-- A hook that does not look at handles cannot get at editors that it did not make. -/
theorem Alike.own {hook hook' : Build S (Option Handle)} {made : List Handle}
    (alike : Alike Answered pairs hook hook') (known : ∀ pair ∈ pairs, pair.1 ∈ made) :
    hook.Own made := by
  have more : ∀ {pairs : Pairs} {made : List Handle} (x : Handle), (∀ pair ∈ pairs, pair.1 ∈ made) →
      ∀ pair ∈ (x, x) :: pairs, pair.1 ∈ x :: made := by
    intro pairs made x known pair member
    rcases List.mem_cons.1 member with rfl | earlier
    · exact List.mem_cons_self
    · exact List.mem_cons_of_mem _ (known pair earlier)
  induction alike generalizing made with
  | done answered =>
    intro id same
    cases answered with
    | some paired =>
      cases same
      exact known _ paired
    | none => cases same
  | fail => trivial
  | create c _ ih => exact fun id => ih id id (more id known)
  | createToken c text _ ih => exact fun id => ih id id (more id known)
  | typeToken text listed _ ih => exact ⟨known _ listed, ih known⟩

end Build

/-- The hooks of a language do not look at handles. -/
def Language.Blind (S : Signature) [Language S] : Prop :=
  ∀ k : S.ExpanderClass, (∀ text, ((Language.expander k).openText text).Blind Build.Answered) ∧
    (∀ item, ((Language.expander k).openCandidate item).Blind Build.Answered) ∧
    ∀ text, ((Language.expander k).openTyped text).Blind Build.Answered

theorem Language.Blind.tidy [Language S] (isBlind : Language.Blind S) : Language.Tidy S := by
  intro k
  obtain ⟨texts, candidates, typed⟩ := isBlind k
  exact ⟨fun text => (texts text).own nofun, fun item => (candidates item).own nofun,
    fun text => (typed text).own nofun⟩

/-- All rules of a layer build without looking at handles. -/
structure RuleLayer.Blind (layer : RuleLayer S) : Prop where
  constants : ∀ key make, layer.constants.get? key = some make → make.Blind Build.Paired
  texts : ∀ rule ∈ layer.textRules, ∀ text, (rule text).Blind Build.Answered
  candidates : ∀ name rules, layer.candidateRules.get? name = some rules →
    ∀ rule ∈ rules, ∀ item, (rule item).Blind Build.Answered

theorem RuleLayer.blind_empty : ({} : RuleLayer S).Blind := ⟨nofun, nofun, nofun⟩

namespace RuleBook

variable {book : RuleBook S}

def Blind (book : RuleBook S) : Prop := ∀ layer ∈ book.layers, layer.Blind

theorem blind_empty : ({} : RuleBook S).Blind := by
  intro layer member
  cases List.mem_singleton.1 member
  exact RuleLayer.blind_empty

theorem Blind.onTop {change : RuleLayer S → RuleLayer S} (isBlind : book.Blind)
    (changed : book.top.Blind → (change book.top).Blind) : (book.onTop change).Blind := by
  intro layer member
  rcases List.mem_cons.1 member with rfl | below
  · exact changed (isBlind _ List.mem_cons_self)
  · exact isBlind layer (List.mem_cons_of_mem _ below)

theorem Blind.extend (isBlind : book.Blind) : book.extend.Blind := by
  intro layer member
  rcases List.mem_cons.1 member with rfl | below
  · exact RuleLayer.blind_empty
  · exact isBlind layer below

theorem Blind.onKey {make : Build S Handle} (isBlind : book.Blind) (key : String)
    (made : make.Blind Build.Paired) : (book.onKey key make).Blind := by
  refine isBlind.onTop fun top => ⟨fun other make' found => ?_, top.texts, top.candidates⟩
  by_cases same : other = key
  · subst same
    rw [Keyed.get?_insert_self] at found
    cases found
    exact made
  · rw [Keyed.get?_insert_of_ne _ _ same] at found
    exact top.constants other make' found

theorem Blind.onText {rule : TextRule S} (isBlind : book.Blind)
    (built : ∀ text, (rule text).Blind Build.Answered) : (book.onText rule).Blind := by
  refine isBlind.onTop fun top => ⟨top.constants, fun other member => ?_, top.candidates⟩
  rcases List.mem_cons.1 member with rfl | earlier
  · exact built
  · exact top.texts other earlier

theorem Blind.onCompiled {V : Type} {compile : String → Outcome V} {make : V → Build S Handle}
    (isBlind : book.Blind) (made : ∀ value, (make value).Blind Build.Paired) :
    (book.onCompiled compile make).Blind := by
  refine isBlind.onText fun text => ?_
  split
  · exact (made _).answer
  · exact Build.blind_decline

theorem Blind.onCandidate {T : Type} [CandidateType T] {make : T → Build S (Option Handle)}
    (isBlind : book.Blind) (made : ∀ value, (make value).Blind Build.Answered) :
    (book.onCandidate make).Blind := by
  refine isBlind.onTop fun top => ⟨top.constants, top.texts, fun name rules found rule listed => ?_⟩
  by_cases same : name = CandidateType.className T
  · subst same
    rw [Keyed.get?_insert_self] at found
    cases found
    rcases List.mem_cons.1 listed with rfl | earlier
    · intro item
      dsimp only
      split
      · exact made _
      · exact Build.blind_decline
    · cases held : book.top.candidateRules.get? (CandidateType.className T) with
      | none =>
        rw [held] at earlier
        cases earlier
      | some others =>
        rw [held] at earlier
        exact top.candidates _ others held rule earlier
  · rw [Keyed.get?_insert_of_ne _ _ same] at found
    exact top.candidates name rules found rule listed

theorem Blind.forText (isBlind : book.Blind) (text : String) :
    (book.forText text).Blind Build.Answered := by
  refine Build.blind_firstMade (fun build member => ?_) []
  obtain ⟨layer, listed, rfl⟩ := List.mem_map.1 member
  unfold RuleLayer.forText
  split
  · next make found => exact ((isBlind layer listed).constants text make found).answer
  · refine Build.blind_firstMade (fun build member => ?_) []
    obtain ⟨rule, listed', rfl⟩ := List.mem_map.1 member
    exact (isBlind layer listed).texts rule listed' text

theorem Blind.forCandidate (isBlind : book.Blind) (item : Candidate) :
    (book.forCandidate item).Blind Build.Answered := by
  refine Build.blind_firstMade (fun build member => ?_) []
  obtain ⟨layer, listed, rfl⟩ := List.mem_map.1 member
  refine Build.blind_firstMade (fun build member => ?_) []
  obtain ⟨rule, listed', rfl⟩ := List.mem_map.1 member
  cases held : layer.candidateRules.get? item.className with
  | none =>
    rw [held] at listed'
    cases listed'
  | some rules =>
    rw [held] at listed'
    exact (isBlind layer listed).candidates _ rules held rule listed' item

end RuleBook

end StructureEditor
