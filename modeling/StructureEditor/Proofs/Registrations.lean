import StructureEditor.Proofs.Copies
import StructureEditor.Proofs.Running
import StructureEditor.Proofs.SampleLanguage
import StructureEditor.Workspace.Build

/-! Rule books and the calls that made them. Registrations come in any order, and a book may take
over the rules of another one that was made in the same way. Which rule answers in the end can be
read off the calls alone. -/
namespace StructureEditor

variable {S : Signature} {R : Type}

/-- A call that changes a rule book. Another book is known by the calls that made it. -/
inductive Registration (S : Signature) where
  | onKey (key : String) (make : Build S Handle)
  | onKeys (keys : List String) (make : Build S Handle)
  | dropKey (key : String)
  | onText (rule : TextRule S)
  | onCompiled (V : Type) (compile : String → Outcome V) (make : V → Build S Handle)
  | onCandidate (T : Type) [CandidateType T] (make : T → Build S (Option Handle))
  | adopt (other : List (Registration S))
  | onto (base : List (Registration S))

namespace Registration

def other? : Registration S → Option (List (Registration S))
  | .adopt other | .onto other => some other
  | _ => none

mutual

/-- A key that is not there cannot be dropped; the refusal leaves the book as it is. -/
def apply : Registration S → RuleBook S → RuleBook S
  | .onKey key make, book => book.onKey key make
  | .onKeys keys make, book => book.onKeys keys make
  | .dropKey key, book =>
    match book.dropKey key with
    | .ok changed => changed
    | .error _ => book
  | .onText rule, book => book.onText rule
  | .onCompiled _ compile make, book => book.onCompiled compile make
  | @onCandidate _ _ _ make, book => book.onCandidate make
  | .adopt other, book => book.adopt (applyAll other {})
  | .onto base, book => book.onto (applyAll base {})

def applyAll : List (Registration S) → RuleBook S → RuleBook S
  | [], book => book
  | call :: later, book => applyAll later (call.apply book)

end

theorem induct {motive : List (Registration S) → Prop} (nil : motive [])
    (cons : ∀ call later, (∀ other, call.other? = some other → motive other) → motive later →
      motive (call :: later)) (calls : List (Registration S)) : motive calls := by
  match calls with
  | [] => exact nil
  | call :: later =>
    apply cons
    · intro other given
      cases call with
      | adopt _ =>
        cases given
        exact induct nil cons _
      | onto _ =>
        cases given
        exact induct nil cons _
      | _ => cases given
    · exact induct nil cons later

end Registration

def RuleBook.made (calls : List (Registration S)) : RuleBook S := Registration.applyAll calls {}

namespace Registration

mutual

/-- What a call says of a key: nothing, that it is dropped, or what it stands for from now on. -/
def told (key : String) : Registration S → Option (Option (Build S Handle))
  | .onKey k make => if key = k then some (some make) else none
  | .onKeys ks make => if key ∈ ks then some (some make) else none
  | .dropKey k => if key = k then some none else none
  | .adopt other => (latest key other).join.map some
  | _ => none

def latest (key : String) : List (Registration S) → Option (Option (Build S Handle))
  | [] => none
  | call :: later => (latest key later).or (call.told key)

end

def standing? (key : String) (calls : List (Registration S)) : Option (Build S Handle) :=
  (latest key calls).join

def compiling {V : Type} (compile : String → Outcome V) (make : V → Build S Handle) :
    TextRule S := fun text =>
  match (compile text).toOption with
  | some value => some <$> make value
  | none => .done none

def reading (T : Type) [CandidateType T] (make : T → Build S (Option Handle)) :
    CandidateRule S := fun item =>
  match item.decode T with
  | .ok value => make value
  | .error _ => .done none

def textRule? : Registration S → Option (TextRule S)
  | .onText rule => some rule
  | .onCompiled _ compile make => some (compiling compile make)
  | _ => none

def candidateRule? (name : String) : Registration S → Option (CandidateRule S)
  | @onCandidate _ T _ make =>
    if name = CandidateType.className T then some (reading T make) else none
  | _ => none

mutual

/-- The rules that a call takes over from another book, as they are ordered there. -/
def copied (direct : Registration S → Option R) : Registration S → List R
  | .adopt other => (other.filterMap direct).reverse ++ copiedAll direct other
  | _ => []

def copiedAll (direct : Registration S → Option R) : List (Registration S) → List R
  | [] => []
  | call :: later => copied direct call ++ copiedAll direct later

end

/-- Rules registered directly, newest first, and then those taken over, call by call. -/
def ordered (direct : Registration S → Option R) (calls : List (Registration S)) : List R :=
  (calls.filterMap direct).reverse ++ copiedAll direct calls

mutual

def chain : Registration S → Option (List (List (Registration S)))
  | .onto base => some (base :: (lastChain base).getD [])
  | _ => none

def lastChain : List (Registration S) → Option (List (List (Registration S)))
  | [] => none
  | call :: later => (lastChain later).or call.chain

end

/-- The calls for the book itself and for each book that it falls back on, nearest first. -/
def levels (calls : List (Registration S)) : List (List (Registration S)) :=
  calls :: (lastChain calls).getD []

def textAsked (text : String) (calls : List (Registration S)) : List (Build S (Option Handle)) :=
  ((standing? text calls).toList.map fun make => some <$> make) ++
    (ordered textRule? calls).map (· text)

def candidateAsked (item : Candidate) (calls : List (Registration S)) :
    List (Build S (Option Handle)) :=
  (ordered (candidateRule? item.className) calls).map (· item)

end Registration

namespace Keyed

variable {α β : Type} {entries : Keyed α} {key : String}

theorem mem_keys_iff : key ∈ entries.keys ↔ (entries.get? key).isSome := by
  induction entries with
  | nil => simp [keys, get?]
  | cons entry rest ih =>
    obtain ⟨k, v⟩ := entry
    simp only [keys, get?] at ih
    by_cases same : key = k
    · simp [keys, get?, same]
    · have skipped : (key == k) = false := by simpa using same
      simp [keys, get?, List.lookup_cons, same, skipped, ih]

theorem get?_insert (other : String) (value : α) (entries : Keyed α) :
    (entries.insert key value).get? other =
      if other = key then some value else entries.get? other := by
  split_ifs with same
  · subst same
    exact get?_insert_self _ _ _
  · exact get?_insert_of_ne _ _ same

theorem get?_erase (other key : String) (entries : Keyed α) :
    (entries.erase key).get? other = if other = key then none else entries.get? other := by
  split_ifs with same
  · subst same
    exact get?_erase_self _ _
  · exact get?_erase_of_ne _ same

theorem Sorted.erase (sorted : entries.Sorted) (key : String) : (entries.erase key).Sorted :=
  List.Pairwise.filter _ sorted

theorem mem_keys_ofList (more : List (String × α)) :
    key ∈ (ofList more).keys ↔ key ∈ more.map (·.1) := by
  suffices grown : ∀ entries : Keyed α, key ∈ (entries.insertAll more).keys ↔
      key ∈ entries.keys ∨ key ∈ more.map (·.1) by
    have whole : key ∈ (ofList more).keys ↔ key ∈ keys [] ∨ key ∈ more.map (·.1) := grown []
    simpa [keys] using whole
  induction more with
  | nil => simp [insertAll]
  | cons entry rest ih =>
    intro entries
    have step : entries.insertAll (entry :: rest) =
        (entries.insert entry.1 entry.2).insertAll rest := rfl
    have grows : key ∈ (entries.insert entry.1 entry.2).keys ↔
        key = entry.1 ∨ key ∈ entries.keys := by
      simp only [mem_keys_iff, get?_insert]
      by_cases same : key = entry.1 <;> simp [same]
    rw [step, ih, grows, List.map_cons, List.mem_cons]
    tauto

theorem get?_extendAll {more : List (String × List β)} (distinct : (more.map (·.1)).Nodup)
    (entries : Keyed (List β)) (key : String) :
    (Keyed.get? (more.foldl (fun all (name, values) =>
      Keyed.insert name ((Keyed.get? all name).getD [] ++ values) all) entries) key).getD [] =
      (entries.get? key).getD [] ++ (more.lookup key).getD [] := by
  induction more generalizing entries with
  | nil => simp
  | cons entry rest ih =>
    obtain ⟨name, values⟩ := entry
    obtain ⟨absent, distinct⟩ := List.nodup_cons.1 distinct
    rw [List.foldl_cons, ih distinct, get?_insert]
    by_cases same : key = name
    · subst same
      simp [lookup_eq_none absent]
    · have skipped : (key == name) = false := by simpa using same
      simp [List.lookup_cons, same, skipped]

theorem sorted_extendAll {entries : Keyed (List β)} (sorted : entries.Sorted)
    (more : List (String × List β)) :
    Sorted (more.foldl (fun all (name, values) =>
      Keyed.insert name ((Keyed.get? all name).getD [] ++ values) all) entries) := by
  induction more generalizing entries with
  | nil => exact sorted
  | cons entry rest ih => exact ih (sorted.insert _ _)

end Keyed

namespace RuleLayer

def candidateRulesOf (layer : RuleLayer S) (name : String) : List (CandidateRule S) :=
  (layer.candidateRules.get? name).getD []

structure Ordered (layer : RuleLayer S) : Prop where
  constants : layer.constants.Sorted
  candidateRules : layer.candidateRules.Sorted

end RuleLayer

namespace Registration

def tops (levels : List (List (Registration S))) : List (RuleLayer S) :=
  levels.map fun level => (RuleBook.made level).top

/-- What one call makes of a book. -/
structure Changes (call : Registration S) (book book' : RuleBook S) : Prop where
  inOrder : book.top.Ordered → book'.top.Ordered
  constant : ∀ key, book'.top.constants.get? key =
    (told key call).getD (book.top.constants.get? key)
  textRules : book'.top.textRules =
    (textRule? call).toList ++ book.top.textRules ++ copied textRule? call
  candidateRules : ∀ name, book'.top.candidateRulesOf name =
    (candidateRule? name call).toList ++ book.top.candidateRulesOf name ++
      copied (candidateRule? name) call
  fallback : book'.fallback = (call.chain.map tops).getD book.fallback

structure ChangesAll (calls : List (Registration S)) (book book' : RuleBook S) : Prop where
  inOrder : book.top.Ordered → book'.top.Ordered
  constant : ∀ key, book'.top.constants.get? key =
    (latest key calls).getD (book.top.constants.get? key)
  textRules : book'.top.textRules =
    (calls.filterMap textRule?).reverse ++ book.top.textRules ++ copiedAll textRule? calls
  candidateRules : ∀ name, book'.top.candidateRulesOf name =
    (calls.filterMap (candidateRule? name)).reverse ++ book.top.candidateRulesOf name ++
      copiedAll (candidateRule? name) calls
  fallback : book'.fallback = ((lastChain calls).map tops).getD book.fallback

namespace ChangesAll

variable {call : Registration S} {later : List (Registration S)} {book book' book'' : RuleBook S}

theorem nil (book : RuleBook S) : ChangesAll [] book book where
  inOrder := id
  constant _ := by simp [latest]
  textRules := by simp [copiedAll]
  candidateRules _ := by simp [copiedAll]
  fallback := by simp [lastChain]

theorem cons (first : Changes call book book') (rest : ChangesAll later book' book'') :
    ChangesAll (call :: later) book book'' where
  inOrder held := rest.inOrder (first.inOrder held)
  constant key := by
    rw [rest.constant, first.constant]
    cases said : latest key later <;> simp [latest, said]
  textRules := by
    rw [rest.textRules, first.textRules]
    cases direct : textRule? call <;> simp [copiedAll, direct]
  candidateRules name := by
    rw [rest.candidateRules, first.candidateRules]
    cases direct : candidateRule? name call <;> simp [copiedAll, direct]
  fallback := by
    rw [rest.fallback, first.fallback]
    cases below : lastChain later <;> simp [lastChain, below]

end ChangesAll

variable {book : RuleBook S} {key : String}

theorem changes_onKey (key : String) (make : Build S Handle) (book : RuleBook S) :
    Changes (.onKey key make) book (book.onKey key make) where
  inOrder held := ⟨held.constants.insert _ _, held.candidateRules⟩
  constant other := by
    simp only [RuleBook.onKey, RuleBook.onTop, Keyed.get?_insert, told]
    split_ifs <;> rfl
  textRules := by simp [RuleBook.onKey, RuleBook.onTop, textRule?, copied]
  candidateRules _ := by
    simp [RuleBook.onKey, RuleBook.onTop, candidateRule?, copied, RuleLayer.candidateRulesOf]
  fallback := by simp [RuleBook.onKey, RuleBook.onTop, chain]

theorem changes_onKeys (keys : List String) (make : Build S Handle) (book : RuleBook S) :
    Changes (.onKeys keys make) book (book.onKeys keys make) := by
  induction keys generalizing book with
  | nil =>
    constructor <;> simp [RuleBook.onKeys, told, textRule?, candidateRule?, copied, chain]
  | cons key keys ih =>
    have whole : book.onKeys (key :: keys) make = (book.onKey key make).onKeys keys make := rfl
    have first := changes_onKey key make book
    have rest := ih (book.onKey key make)
    rw [whole]
    constructor
    · intro held
      exact rest.inOrder (first.inOrder held)
    · intro other
      rw [rest.constant, first.constant]
      by_cases same : other = key <;> by_cases listed : other ∈ keys <;>
        simp_all [told]
    · rw [rest.textRules, first.textRules]
      simp [textRule?, copied]
    · intro name
      rw [rest.candidateRules, first.candidateRules]
      simp [candidateRule?, copied]
    · rw [rest.fallback, first.fallback]
      simp [chain]

theorem changes_dropKey (key : String) (book : RuleBook S) :
    Changes (.dropKey key) book (apply (.dropKey key) book) := by
  unfold apply RuleBook.dropKey
  cases held : book.top.constants.get? key with
  | none =>
    constructor
    · exact id
    · intro other
      by_cases same : other = key <;> simp_all [told]
    all_goals simp [textRule?, candidateRule?, copied, chain]
  | some make =>
    constructor
    · intro held
      exact ⟨held.constants.erase key, held.candidateRules⟩
    · intro other
      simp only [RuleBook.onTop, Keyed.get?_erase, told]
      split_ifs <;> rfl
    all_goals simp [RuleBook.onTop, textRule?, candidateRule?, copied, chain,
      RuleLayer.candidateRulesOf]

theorem changes_onText (rule : TextRule S) (book : RuleBook S) :
    Changes (.onText rule) book (book.onText rule) where
  inOrder held := ⟨held.constants, held.candidateRules⟩
  constant _ := by simp [RuleBook.onText, RuleBook.onTop, told]
  textRules := by simp [RuleBook.onText, RuleBook.onTop, textRule?, copied]
  candidateRules _ := by
    simp [RuleBook.onText, RuleBook.onTop, candidateRule?, copied, RuleLayer.candidateRulesOf]
  fallback := by simp [RuleBook.onText, RuleBook.onTop, chain]

theorem onCompiled_eq_onText {V : Type} (compile : String → Outcome V) (make : V → Build S Handle)
    (book : RuleBook S) : book.onCompiled compile make = book.onText (compiling compile make) := by
  unfold RuleBook.onCompiled compiling
  rfl

theorem changes_onCompiled {V : Type} (compile : String → Outcome V) (make : V → Build S Handle)
    (book : RuleBook S) :
    Changes (.onCompiled V compile make) book (book.onCompiled compile make) := by
  rw [onCompiled_eq_onText]
  obtain ⟨inOrder, constant, textRules, candidateRules, fallback⟩ :=
    changes_onText (compiling compile make) book
  exact ⟨inOrder, constant, textRules, candidateRules, fallback⟩

theorem changes_onCandidate {T : Type} [CandidateType T] (make : T → Build S (Option Handle))
    (book : RuleBook S) : Changes (.onCandidate T make) book (book.onCandidate make) where
  inOrder held := ⟨held.constants, held.candidateRules.insert _ _⟩
  constant _ := by simp [RuleBook.onCandidate, RuleBook.onTop, told]
  textRules := by simp [RuleBook.onCandidate, RuleBook.onTop, textRule?, copied]
  candidateRules name := by
    by_cases same : name = CandidateType.className T
    · subst same
      simp [RuleBook.onCandidate, RuleBook.onTop, candidateRule?, copied,
        RuleLayer.candidateRulesOf, Keyed.get?_insert]
      rfl
    · simp [RuleBook.onCandidate, RuleBook.onTop, candidateRule?, copied,
        RuleLayer.candidateRulesOf, Keyed.get?_insert, same]
  fallback := by simp [RuleBook.onCandidate, RuleBook.onTop, chain]

theorem made_of_changesAll {calls : List (Registration S)}
    (changes : ChangesAll calls {} (RuleBook.made calls)) :
    (RuleBook.made calls).top.Ordered ∧
      (∀ key, (RuleBook.made calls).top.constants.get? key = standing? key calls) ∧
      (RuleBook.made calls).top.textRules = ordered textRule? calls ∧
      (∀ name, (RuleBook.made calls).top.candidateRulesOf name =
        ordered (candidateRule? name) calls) ∧
      (RuleBook.made calls).layers = tops (levels calls) := by
  refine ⟨changes.inOrder ⟨List.Pairwise.nil, List.Pairwise.nil⟩, fun key => ?_, ?_,
    fun name => ?_, ?_⟩
  · rw [changes.constant, standing?]
    cases latest key calls <;> rfl
  · simpa [ordered] using changes.textRules
  · simpa [ordered, RuleLayer.candidateRulesOf, Keyed.get?] using changes.candidateRules name
  · rw [RuleBook.layers, changes.fallback, levels]
    cases lastChain calls <;> rfl

theorem changes_adopt {other : List (Registration S)} (book : RuleBook S)
    (changes : ChangesAll other {} (RuleBook.made other)) :
    Changes (.adopt other) book (book.adopt (RuleBook.made other)) := by
  obtain ⟨sorted, constant, textRules, candidateRules, -⟩ := made_of_changesAll changes
  constructor
  · intro held
    exact ⟨held.constants.insertAll _, Keyed.sorted_extendAll held.candidateRules _⟩
  · intro key
    have told_adopt : told key (.adopt other) = (standing? key other).map some := by
      rw [told, standing?]
    rw [told_adopt, ← constant key]
    refine (Keyed.get?_insertAll sorted.constants.nodup key).trans ?_
    unfold Keyed.get?
    cases (RuleBook.made other).top.constants.lookup key <;> rfl
  · simp [RuleBook.adopt, RuleBook.onTop, RuleLayer.adopt, textRules, textRule?, copied, ordered]
  · intro name
    have all := Keyed.get?_extendAll sorted.candidateRules.nodup book.top.candidateRules name
    have theirs := candidateRules name
    have copied_adopt : copied (candidateRule? name) (.adopt other) =
        ordered (candidateRule? name) other := by
      rw [copied, ordered]
    rw [copied_adopt, ← theirs]
    exact all
  · simp [RuleBook.adopt, RuleBook.onTop, chain]

theorem changes_onto {base : List (Registration S)} (book : RuleBook S)
    (changes : ChangesAll base {} (RuleBook.made base)) :
    Changes (.onto base) book (book.onto (RuleBook.made base)) := by
  obtain ⟨-, -, -, -, layers⟩ := made_of_changesAll changes
  constructor
  · exact id
  · simp [RuleBook.onto, told]
  · simp [RuleBook.onto, textRule?, copied]
  · simp [RuleBook.onto, candidateRule?, copied]
  · rw [RuleBook.onto, layers, chain]
    rfl

theorem changes_apply (call : Registration S) (book : RuleBook S)
    (others : ∀ other, call.other? = some other → ChangesAll other {} (RuleBook.made other)) :
    Changes call book (call.apply book) := by
  cases call with
  | onKey key make => exact changes_onKey key make book
  | onKeys keys make => exact changes_onKeys keys make book
  | dropKey key => exact changes_dropKey key book
  | onText rule => exact changes_onText rule book
  | onCompiled V compile make => exact changes_onCompiled compile make book
  | onCandidate T make => exact changes_onCandidate make book
  | adopt other => exact changes_adopt book (others other rfl)
  | onto base => exact changes_onto book (others base rfl)

theorem changesAll_applyAll (calls : List (Registration S)) :
    ∀ book : RuleBook S, ChangesAll calls book (applyAll calls book) := by
  induction calls using induct with
  | nil => exact .nil
  | cons call later others rest =>
    intro book
    have first := changes_apply call book fun other given => others other given {}
    have whole : applyAll (call :: later) book = applyAll later (call.apply book) := by
      rw [applyAll]
    rw [whole]
    exact .cons first (rest _)

theorem changesAll_made (calls : List (Registration S)) :
    ChangesAll calls {} (RuleBook.made calls) := changesAll_applyAll calls {}

end Registration

namespace Build

theorem bind_assoc {α β γ : Type} (b : Build S α) (f : α → Build S β) (g : β → Build S γ) :
    (b.bind f).bind g = b.bind fun value => (f value).bind g := by
  induction b with
  | done value => rfl
  | fail => rfl
  | create c next ih => simp only [Build.bind, ih]
  | createToken c text next ih => simp only [Build.bind, ih]
  | typeToken id text next ih => simp only [Build.bind, ih]

theorem firstMade_cons (b : Build S (Option Handle)) (rest : List (Build S (Option Handle))) :
    firstMade (b :: rest) = b.bind fun
      | some id => .done (some id)
      | none => firstMade rest := rfl

theorem firstMade_append (first rest : List (Build S (Option Handle))) :
    firstMade (first ++ rest) = firstMade (firstMade first :: rest) := by
  induction first with
  | nil => rfl
  | cons b first ih =>
    rw [List.cons_append, firstMade_cons, firstMade_cons, firstMade_cons, bind_assoc, ih]
    congr 1
    funext answer
    cases answer <;> rfl

theorem firstMade_flatMap {α : Type*} (group : α → List (Build S (Option Handle))) (xs : List α) :
    firstMade (xs.map fun x => firstMade (group x)) = firstMade (xs.flatMap group) := by
  induction xs with
  | nil => rfl
  | cons x xs ih =>
    rw [List.map_cons, firstMade_cons, ih, List.flatMap_cons, firstMade_append, firstMade_cons]

theorem firstMade_some (make : Build S Handle) (rest : List (Build S (Option Handle))) :
    firstMade ((some <$> make) :: rest) = some <$> make := bind_assoc _ _ _

end Build

namespace Registration

variable {calls : List (Registration S)}

theorem forText_made (text : String) (calls : List (Registration S)) :
    (RuleBook.made calls).forText text =
      Build.firstMade ((levels calls).flatMap (textAsked text)) := by
  have level : ∀ level : List (Registration S), (RuleBook.made level).top.forText text =
      Build.firstMade (textAsked text level) := by
    intro level
    obtain ⟨-, constant, textRules, -⟩ := made_of_changesAll (changesAll_made level)
    unfold RuleLayer.forText textAsked
    rw [constant, textRules]
    cases standing? text level with
    | none => rfl
    | some make => exact (Build.firstMade_some make _).symm
  obtain ⟨-, -, -, -, layers⟩ := made_of_changesAll (changesAll_made calls)
  rw [RuleBook.forText, layers, tops, List.map_map, ← Build.firstMade_flatMap]
  congr 2
  funext inner
  exact level inner

theorem forCandidate_made (item : Candidate) (calls : List (Registration S)) :
    (RuleBook.made calls).forCandidate item =
      Build.firstMade ((levels calls).flatMap (candidateAsked item)) := by
  have level : ∀ level : List (Registration S), (RuleBook.made level).top.forCandidate item =
      Build.firstMade (candidateAsked item level) := by
    intro level
    obtain ⟨-, -, -, candidateRules, -⟩ := made_of_changesAll (changesAll_made level)
    unfold candidateAsked
    rw [← candidateRules]
    rfl
  obtain ⟨-, -, -, -, layers⟩ := made_of_changesAll (changesAll_made calls)
  rw [RuleBook.forCandidate, layers, tops, List.map_map, ← Build.firstMade_flatMap]
  congr 2
  funext inner
  exact level inner

theorem mem_keys_made (text : String) (calls : List (Registration S)) :
    text ∈ (RuleBook.made calls).keys ↔
      ∃ level ∈ levels calls, (standing? text level).isSome := by
  obtain ⟨-, -, -, -, layers⟩ := made_of_changesAll (changesAll_made calls)
  have onLevel : ∀ level : List (Registration S),
      text ∈ (RuleBook.made level).top.constants.keys ↔ (standing? text level).isSome := by
    intro level
    obtain ⟨-, constant, -⟩ := made_of_changesAll (changesAll_made level)
    rw [Keyed.mem_keys_iff, constant]
  rw [RuleBook.keys, Keyed.mem_keys_ofList, layers, tops, List.map_flatMap, List.flatMap_map,
    List.mem_flatMap]
  simp only [List.map_map, ← onLevel]
  rfl

end Registration

namespace Workspace

variable [Language S]

abbrev Finish (S : Signature) (α : Type) := EStateM.Result Stop (Workspace S) α

/-- Builds are asked one after the other until one does not decline; those after it are not
asked. -/
inductive AskedInTurn (context : Context) :
    List (Build S (Option Handle)) → Workspace S → Finish S (Option (Option Handle)) → Prop where
  | nobody (w : Workspace S) : AskedInTurn context [] w (.ok (some none) w)
  | here {b : Build S (Option Handle)} {rest : List (Build S (Option Handle))} {w : Workspace S}
      {ending : Finish S (Option (Option Handle))} : build context b w = ending →
      (∀ w', ending ≠ .ok (some none) w') → AskedInTurn context (b :: rest) w ending
  | later {b : Build S (Option Handle)} {rest : List (Build S (Option Handle))}
      {w w' : Workspace S} {ending : Finish S (Option (Option Handle))} :
      build context b w = .ok (some none) w' → AskedInTurn context rest w' ending →
      AskedInTurn context (b :: rest) w ending

section

variable {α β : Type} {context : Context} {w w' : Workspace S}
  {asked rest : List (Build S (Option Handle))} {b : Build S (Option Handle)}

theorem build_bind (context : Context) (b : Build S α) (f : α → Build S β) :
    build context (b.bind f) = do
      match ← build context b with
      | some value => build context (f value)
      | none => return none := by
  induction b with
  | done value => simp [Build.bind, build]
  | fail => simp [Build.bind, build]
  | create c next ih => simp [Build.bind, build, ih]
  | createToken c text next ih => simp [Build.bind, build, ih]
  | typeToken id text next ih =>
    simp only [Build.bind, build, bind_assoc]
    congr 1
    funext typed
    cases typed <;> simp [ih]

theorem build_firstMade_of_declined (declined : build context b w = .ok (some none) w') :
    build context (Build.firstMade (b :: rest)) w =
      build context (Build.firstMade rest) w' := by
  rw [Build.firstMade_cons, build_bind, Action.bind_run_ok _ declined]

theorem build_firstMade_of_made (made : ∀ w', build context b w ≠ .ok (some none) w') :
    build context (Build.firstMade (b :: rest)) w = build context b w := by
  rw [Build.firstMade_cons, build_bind, Action.bind_run]
  cases ran : build context b w with
  | error stop w' => rfl
  | ok answer w' =>
    cases answer with
    | none => rfl
    | some answer =>
      cases answer with
      | none => exact absurd ran (made w')
      | some id => rfl

theorem build_firstMade_iff {ending : Finish S (Option (Option Handle))} :
    build context (Build.firstMade asked) w = ending ↔ AskedInTurn context asked w ending := by
  constructor
  · intro ran
    induction asked generalizing w with
    | nil =>
      subst ran
      exact .nobody w
    | cons b rest ih =>
      by_cases declines : ∃ w', build context b w = .ok (some none) w'
      · obtain ⟨w', declined⟩ := declines
        rw [build_firstMade_of_declined declined] at ran
        exact .later declined (ih ran)
      · have made : ∀ w', build context b w ≠ .ok (some none) w' := by
          intro w' declined
          exact declines ⟨w', declined⟩
        rw [build_firstMade_of_made made] at ran
        subst ran
        exact .here rfl made
  · intro turn
    induction turn with
    | nobody w => rfl
    | here ran made =>
      subst ran
      exact build_firstMade_of_made made
    | later declined _ ih =>
      rw [build_firstMade_of_declined declined]
      exact ih

theorem AskedInTurn.declined (turn : AskedInTurn context asked w (.ok (some none) w')) :
    ∀ b ∈ asked, ∃ v v', build context b v = .ok (some none) v' := by
  generalize ended : (.ok (some none) w' : Finish S (Option (Option Handle))) = ending at turn
  induction turn with
  | nobody => simp
  | here _ made => exact absurd ended.symm (made w')
  | later declined _ ih =>
    simp only [List.mem_cons, forall_eq_or_imp]
    exact ⟨⟨_, _, declined⟩, ih ended⟩

theorem build_map_some (make : Build S Handle) :
    build context (some <$> make) w ≠ .ok (some none) w' := by
  have mapped : (some <$> make : Build S (Option Handle)) = make.bind fun id => .done (some id) :=
    rfl
  rw [mapped, build_bind, Action.bind_run]
  cases build context make w with
  | error stop w'' => simp
  | ok answer w'' => cases answer <;> simp [build]

def GoesThrough (context : Context) (b : Build S α) : Prop :=
  ∀ w, ∃ answer w', build context b w = .ok (some answer) w'

theorem AskedInTurn.ends (through : ∀ b ∈ asked, GoesThrough context b) (w : Workspace S) :
    ∃ answer w', AskedInTurn context asked w (.ok (some answer) w') := by
  induction asked generalizing w with
  | nil => exact ⟨none, w, .nobody w⟩
  | cons b rest ih =>
    simp only [List.mem_cons, forall_eq_or_imp] at through
    obtain ⟨answer, w', ran⟩ := through.1 w
    cases answer with
    | some id => exact ⟨some id, w', .here ran (by simp)⟩
    | none =>
      obtain ⟨answer, w'', turn⟩ := ih through.2 w'
      exact ⟨answer, w'', .later ran turn⟩

end

open Registration

/-- A book that was made by any calls asks its rules in the order that the calls give: on each
level the constant that stands for the text, the rules registered directly, newest first, and the
rules that were taken over; and then the level below. -/
theorem made_asks_in_turn (calls : List (Registration S)) (text : String) (item : Candidate)
    (context : Context) (w : Workspace S) :
    (∀ ending, build context ((RuleBook.made calls).forText text) w = ending ↔
      AskedInTurn context ((levels calls).flatMap (textAsked text)) w ending) ∧
    (∀ ending, build context ((RuleBook.made calls).forCandidate item) w = ending ↔
      AskedInTurn context ((levels calls).flatMap (candidateAsked item)) w ending) ∧
    (text ∈ (RuleBook.made calls).keys ↔
      ∃ level ∈ levels calls, (standing? text level).isSome) ∧
    (text ∈ (RuleBook.made calls).keys →
      (∀ w', build context ((RuleBook.made calls).forText text) w ≠ .ok (some none) w') ∧
      ((∀ b ∈ (levels calls).flatMap (textAsked text), GoesThrough context b) →
        ∃ id w', build context ((RuleBook.made calls).forText text) w =
          .ok (some (some id)) w')) := by
  have texts := forText_made text calls
  have never : text ∈ (RuleBook.made calls).keys → ∀ w',
      ¬ AskedInTurn context ((levels calls).flatMap (textAsked text)) w (.ok (some none) w') := by
    intro isKey w' turn
    obtain ⟨level, below, stands⟩ := (mem_keys_made text calls).1 isKey
    obtain ⟨make, standing⟩ := Option.isSome_iff_exists.1 stands
    have listed : (some <$> make) ∈ (levels calls).flatMap (textAsked text) := by
      apply List.mem_flatMap.2
      exact ⟨level, below, by simp [textAsked, standing]⟩
    obtain ⟨v, v', declined⟩ := turn.declined _ listed
    exact build_map_some make declined
  refine ⟨fun ending => ?_, fun ending => ?_, mem_keys_made text calls, fun isKey => ⟨?_, ?_⟩⟩
  · rw [texts]
    exact build_firstMade_iff
  · rw [forCandidate_made]
    exact build_firstMade_iff
  · intro w' ran
    rw [texts] at ran
    exact never isKey w' (build_firstMade_iff.1 ran)
  · intro through
    obtain ⟨answer, w', turn⟩ := AskedInTurn.ends through w
    cases answer with
    | none => exact absurd turn (never isKey w')
    | some id =>
      rw [texts]
      exact ⟨id, w', build_firstMade_iff.2 turn⟩

end Workspace

namespace Sample

open Registration Workspace

/-- A key that is dropped again, and then stands for what a book below says of it. What the book
that is taken over falls back on does not come along. -/
def keywordCalls : List (Registration expression) :=
  [.onto [.onKey "if" (.token TokenName.word "below")],
   .onKey "if" (.token TokenName.word "dropped"),
   .adopt [.onText fun _ => .done none, .onto [.onKey "if" (.token TokenName.word "aside")]],
   .dropKey "if"]

theorem keywordCalls_answer :
    "if" ∈ (RuleBook.made keywordCalls).keys ∧
      (∀ b ∈ (levels keywordCalls).flatMap (textAsked "if"), GoesThrough ⟨0, []⟩ b) ∧
      ∃ id w', build ⟨0, []⟩ ((RuleBook.made keywordCalls).forText "if") {} =
        .ok (some (some id)) w' := by
  obtain ⟨-, -, isKey, answered⟩ :=
    made_asks_in_turn keywordCalls "if" ⟨"keyword", .null⟩ ⟨0, []⟩ {}
  have listed : "if" ∈ (RuleBook.made keywordCalls).keys :=
    isKey.2 ⟨[.onKey "if" (.token TokenName.word "below")], by
      simp [keywordCalls, levels, lastChain, chain], by simp [standing?, latest, told]⟩
  have asked : (levels keywordCalls).flatMap (textAsked "if") =
      [.done none, some <$> .token TokenName.word "below"] := by
    simp [keywordCalls, levels, lastChain, chain, textAsked, standing?, latest, told, ordered,
      List.filterMap, textRule?, copiedAll, copied]
  have through : ∀ b ∈ (levels keywordCalls).flatMap (textAsked "if"), GoesThrough ⟨0, []⟩ b := by
    rw [asked]
    simp only [List.mem_cons, List.not_mem_nil, or_false, forall_eq_or_imp, forall_eq]
    exact ⟨fun w => ⟨none, w, rfl⟩, fun w => ⟨_, _, rfl⟩⟩
  exact ⟨listed, through, (answered listed).2 through⟩

end Sample

end StructureEditor
