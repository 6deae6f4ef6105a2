import StructureEditor.Proofs.Locating
import StructureEditor.Proofs.Sketch

/-! Ways into a document. A way leads from an editor to another one exactly if it leads
somewhere in what the editor shows, and what is seen at its end is that part. -/
namespace StructureEditor

variable {S : Signature}

namespace Sketch

def part? : Sketch S → Position → Option (Sketch S)
  | .expanded _ content, .content => some content
  | .compound _ parts, .component index => parts[index]?
  | .list _ items, .item index => items[index]?
  | _, _ => none

def at? (d : Sketch S) : List Position → Option (Sketch S)
  | [] => some d
  | position :: rest => (d.part? position).bind (·.at? rest)

end Sketch

namespace Arena

variable {a b : Arena S} {x y : Handle} {d : Sketch S}

theorem shown_at {ids : List Handle} {ds : List (Sketch S)} (seen : List.Forall₂ a.Shows ids ds)
    (index : Nat) : (∃ y e, ids[index]? = some y ∧ ds[index]? = some e ∧ a.Shows y e) ∨
      ids[index]? = none ∧ ds[index]? = none := by
  induction seen generalizing index with
  | nil => exact .inr ⟨rfl, rfl⟩
  | @cons y e _ _ first _ ih =>
    cases index with
    | zero => exact .inl ⟨y, e, rfl, rfl, first⟩
    | succ index => exact ih index

theorem Shows.child {state : EditorState S} (seen : a.Shows x d) (found : a.state? x = some state)
    (position : Position) :
    (∃ y e, childAt? state position = some y ∧ d.part? position = some e ∧ a.Shows y e) ∨
      childAt? state position = none ∧ d.part? position = none := by
  cases d with
  | token c text item =>
    cases found.symm.trans seen
    exact .inr ⟨rfl, rfl⟩
  | text c shown item =>
    cases found.symm.trans seen
    exact .inr ⟨rfl, rfl⟩
  | expanded c content =>
    obtain ⟨y, held, seen⟩ := shows_expanded.1 seen
    cases found.symm.trans held
    cases position with
    | content => exact .inl ⟨y, content, rfl, rfl, seen⟩
    | component index => exact .inr ⟨rfl, rfl⟩
    | item index => exact .inr ⟨rfl, rfl⟩
  | compound c parts =>
    obtain ⟨ids, held, seen⟩ := shows_compound.1 seen
    cases found.symm.trans held
    cases position with
    | component index => exact shown_at seen index
    | content => exact .inr ⟨rfl, rfl⟩
    | item index => exact .inr ⟨rfl, rfl⟩
  | list c items =>
    obtain ⟨ids, held, seen⟩ := shows_list.1 seen
    cases found.symm.trans held
    cases position with
    | item index => exact shown_at seen index
    | content => exact .inr ⟨rfl, rfl⟩
    | component index => exact .inr ⟨rfl, rfl⟩

theorem follow_of_shows (seen : a.Shows x d) (way : List Position) :
    (∃ y e, a.follow x way = .ok y ∧ d.at? way = some e ∧ a.Shows y e) ∨
      (∃ error, a.follow x way = .error error) ∧ d.at? way = none := by
  induction way generalizing x d with
  | nil => exact .inl ⟨x, d, rfl, rfl, seen⟩
  | cons position rest ih =>
    obtain ⟨state, held, _⟩ := seen.state
    obtain ⟨editor, found, rfl⟩ := get?_of_state? held
    rcases seen.child held position with ⟨y, e, child, part, seen⟩ | ⟨child, part⟩
    · have step : a.follow x (position :: rest) = a.follow y rest := by
        simp only [follow, List.foldlM_cons, childAt_of_get? found child]
        rfl
      have down : d.at? (position :: rest) = e.at? rest := by
        rw [Sketch.at?, part, Option.bind_some]
      rw [step, down]
      exact ih seen
    · have missing : a.childAt x position = .error (.noChild x position) := by
        simp only [childAt, get_of_get? found, Bind.bind, Except.bind, child]
        rfl
      refine .inr ⟨⟨.noChild x position, ?_⟩, by rw [Sketch.at?, part, Option.bind_none]⟩
      simp only [follow, List.foldlM_cons, missing]
      rfl

theorem follow_of_at? {way : List Position} {e : Sketch S} (seen : a.Shows x d)
    (down : d.at? way = some e) : ∃ y, a.follow x way = .ok y ∧ a.Shows y e := by
  rcases follow_of_shows seen way with ⟨y, e', led, down', seen'⟩ | ⟨_, nowhere⟩
  · cases down.symm.trans down'
    exact ⟨y, led, seen'⟩
  · rw [down] at nowhere
    cases nowhere

theorem at?_of_follow {way : List Position} (seen : a.Shows x d) (led : a.follow x way = .ok y) :
    ∃ e, d.at? way = some e ∧ a.Shows y e := by
  rcases follow_of_shows seen way with ⟨y', e, led', down, seen'⟩ | ⟨⟨_, nowhere⟩, _⟩
  · cases led.symm.trans led'
    exact ⟨e, down, seen'⟩
  · rw [led] at nowhere
    cases nowhere

def resultAt? (a : Arena S) (x : Handle) (way : List Position) : Option (Outcome S.Value) :=
  (a.follow x way >>= a.result).toOption

variable [Language S]

theorem resultAt?_of_shows (sound : a.Sound) (seen : a.Shows x d) (way : List Position) :
    a.resultAt? x way = (d.at? way).map Sketch.value := by
  rcases follow_of_shows seen way with ⟨y, e, led, down, seen⟩ | ⟨⟨error, nowhere⟩, missing⟩
  · have cached := result_of_shows sound.settled seen
    simp only [resultAt?, led, Bind.bind, Except.bind, cached, down]
    rfl
  · simp only [resultAt?, nowhere, missing, Bind.bind, Except.bind]
    rfl

/-- Two editors are equal as documents: they have one snapshot, and along every way the one
has the results that the other has. -/
structure Alike (a : Arena S) (x : Handle) (b : Arena S) (y : Handle) : Prop where
  snapshot : ∃ s, a.snapshot x = .ok s ∧ b.snapshot y = .ok s
  results : ∀ way, b.resultAt? y way = a.resultAt? x way

theorem alike_of_shows (sound : a.Sound) (sound' : b.Sound) (seen : a.Shows x d)
    (seen' : b.Shows y d) : Alike a x b y where
  snapshot := ⟨d.toSnapshot, snapshot_of_shows sound.forest seen,
    snapshot_of_shows sound'.forest seen'⟩
  results way := by rw [resultAt?_of_shows sound seen, resultAt?_of_shows sound' seen']

end Arena

end StructureEditor
