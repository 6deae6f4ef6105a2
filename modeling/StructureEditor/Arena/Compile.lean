import StructureEditor.Arena.Query

namespace StructureEditor.Arena

variable {S : Signature} [Language S]

/-- A chosen candidate counts before the text. -/
def compileToken (c : S.TokenClass) (text : String) (item : Option Candidate) :
    Outcome S.Value :=
  let behaviour := Language.token c
  match item with
  | some item => (behaviour.compileCandidate item).orElse fun _ => behaviour.compile text
  | none => behaviour.compile text

def compileText (c : S.ExpanderClass) (text : String) (item : Option Candidate) :
    Outcome S.Value :=
  let behaviour := Language.expander c
  match item with
  | some item => (behaviour.compileCandidate item).orElse fun _ => behaviour.compile text
  | none => behaviour.compile text

omit [Language S] in
def resultsOf (a : Arena S) (ids : List Handle) :
    Except Refusal (Outcome (List S.Value)) := do
  return Outcome.sequence (← ids.mapM a.result)

def compute (a : Arena S) (id : Handle) : Except Refusal (Outcome S.Value) := do
  match (← a.get id).state with
  | .token c text item => return compileToken c text item
  | .expander c (.text text item) => return compileText c text item
  | .expander _ (.expanded content) => a.result content
  | .compound c components =>
    return (← a.resultsOf components).bind (Language.compound c).compose
  | .list c items => return (← a.resultsOf items).bind (Language.list c).compose

/-- Adds a root editor, which adopts its children, and computes its result. Stale children are left
alone. -/
def insert (context : Context) (state : EditorState S) (a : Arena S) : Handle × Arena S :=
  let (id, a) := a.allocate { context, state }
  let a := state.children.foldl (fun a child => a.setParent (some id) child) a
  match a.compute id with
  | .ok result => (id, a.setResult id result)
  | .error _ => (id, a)

omit [Language S] in
/-- Makes an editor the parent of whoever is in the slot of a handle. -/
def adopt (parent : Handle) (a : Arena S) (child : Handle) : Except Fault (Arena S) :=
  return a.setParent (some parent) (← a.holder child.index)

/-- Adds a root editor as `insert` does, but goes by slots, not by generations: it adopts whoever is
in the slots of the children. -/
def enter (context : Context) (state : EditorState S) (a : Arena S) :
    Except Fault (Handle × Arena S) := do
  let (id, a) ← a.takeSlot { context, state }
  let a ← state.children.foldlM (adopt id) a
  match a.compute id with
  | .ok result => return (id, a.setResult (← a.holder id.index) result)
  | .error _ => return (id, a)

/-- Creates a fresh editor, compounds with their components first. The number bounds how
deep compounds are nested. -/
def createWithin (context : Context) : Nat → ClassKey S → StateM (Arena S) Handle
  | _, .token c => insert context (.token c "" none)
  | _, .expander c => insert context (.expander c .initial)
  | _, .list c => insert context (.list c [])
  | 0, .compound c => insert context (.compound c [])
  | depth + 1, .compound c => do
    let components ← (Language.compound c).components.mapM (createWithin context depth)
    insert context (.compound c components)

def create (c : ClassKey S) (context : Context) : StateM (Arena S) Handle :=
  createWithin context (Language.rank c) c

omit [Language S] in
private theorem mapM_eq_of_eq_on {α β : Type} {f g : α → StateM (Arena S) β} {xs : List α}
    (same : ∀ x ∈ xs, f x = g x) : xs.mapM f = xs.mapM g := by
  induction xs with
  | nil => rfl
  | cons x xs ih =>
    rw [List.mapM_cons, List.mapM_cons, same x (by simp),
      ih fun y member => same y (List.mem_cons_of_mem _ member)]

theorem components_eq_nil {c : S.CompoundClass}
    (low : Language.rank (.compound c : ClassKey S) = 0) :
    (Language.compound c).components = [] := by
  apply List.eq_nil_iff_forall_not_mem.2
  intro d member
  have below := Language.rank_component c d member
  omega

private theorem createWithin_congr (context : Context) (m n : Nat) (c : ClassKey S)
    (first : Language.rank c ≤ m) (second : Language.rank c ≤ n) :
    createWithin context m c = createWithin context n c := by
  induction m generalizing n c with
  | zero =>
    cases c with
    | compound c => cases n <;> simp [createWithin, components_eq_nil (Nat.le_zero.1 first)]
    | _ => simp [createWithin]
  | succ m ih =>
    cases c with
    | compound c =>
      cases n with
      | zero => simp [createWithin, components_eq_nil (Nat.le_zero.1 second)]
      | succ n =>
        have parts : (Language.compound c).components.mapM (createWithin context m) =
            (Language.compound c).components.mapM (createWithin context n) := by
          apply mapM_eq_of_eq_on
          intro d member
          have below := Language.rank_component c d member
          exact ih n d (by omega) (by omega)
        simp only [createWithin, parts]
    | _ => simp [createWithin]

/-- Any bound from the class's rank on creates the same editor. -/
theorem createWithin_eq (context : Context) {depth : Nat} {c : ClassKey S}
    (enough : Language.rank c ≤ depth) :
    createWithin context depth c = create c context :=
  createWithin_congr context depth (Language.rank c) c enough (Nat.le_refl _)

theorem create_token_eq (c : S.TokenClass) (context : Context) :
    create (.token c) context = insert context (.token c "" none) := by
  simp only [create, createWithin]

theorem create_expander_eq (c : S.ExpanderClass) (context : Context) :
    create (.expander c) context = insert context (.expander c .initial) := by
  simp only [create, createWithin]

theorem create_list_eq (c : S.ListClass) (context : Context) :
    create (.list c) context = insert context (.list c []) := by
  simp only [create, createWithin]

theorem create_compound_eq (c : S.CompoundClass) (context : Context) :
    create (.compound c) context = (do
      let components ← (Language.compound c).components.mapM (create · context)
      insert context (.compound c components)) := by
  cases low : Language.rank (.compound c : ClassKey S) with
  | zero =>
    simp only [create, low, createWithin, components_eq_nil low]
    rfl
  | succ depth =>
    have parts : (Language.compound c).components.mapM (createWithin context depth) =
        (Language.compound c).components.mapM (create · context) := by
      apply mapM_eq_of_eq_on
      intro d member
      have below := Language.rank_component c d member
      exact createWithin_eq context (by omega)
    simp only [create, low, createWithin]
    rw [parts]
    rfl

end StructureEditor.Arena
