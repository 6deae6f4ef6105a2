import StructureEditor.Proofs.Hooks
import StructureEditor.Sample.Expression

/-! What the theory asks of a language holds of the sample language: its hooks do not look at
handles, its registry finds classes under their names, and candidates that are equal compile
to the same. -/
namespace StructureEditor

/-! Readers of documents. A number with a point is the only value that is equal to another one
without being the same, and they do not take it. -/

namespace Document

theorem string?_canon (j : Json) : (ofJson j.canon).string? = (ofJson j).string? := by
  cases j <;> rfl

theorem intWithin?_canon (low high : Int) (j : Json) :
    (ofJson j.canon).intWithin? low high = (ofJson j).intWithin? low high := by
  cases j with
  | number value => cases value <;> rfl
  | _ => rfl

def onlyValue? (key : String) (fields : List (String × Json)) : Option (Option Json) :=
  match fields.filter (·.1 == key) with
  | [] => some none
  | [(_, value)] => some (some value)
  | _ => none

theorem only?_map (f : Json → Document) (key : String) (fields : List (String × Json)) :
    only? key (fields.map fun field => (field.1, f field.2)) =
      (onlyValue? key fields).map (Option.map f) := by
  have picked : (fields.map fun field => (field.1, f field.2)).filter (·.1 == key) =
      (fields.filter (·.1 == key)).map fun field => (field.1, f field.2) := by
    rw [List.filter_map]
    rfl
  unfold only? onlyValue?
  rw [picked]
  cases fields.filter (·.1 == key) with
  | nil => rfl
  | cons field rest => cases rest <;> rfl

theorem only?_ofFields (key : String) (fields : List (String × Json)) :
    only? key (ofFields fields) = (onlyValue? key fields).map (Option.map ofJson) := by
  have mapped : ofFields fields = fields.map fun field => (field.1, ofJson field.2) := by
    induction fields with
    | nil => rfl
    | cons field rest ih => simp [ofFields, ih]
  rw [mapped, only?_map]

theorem only?_canonFields (key : String) (fields : List (String × Json)) :
    only? key (ofFields (Json.canonFields fields)) =
      (onlyValue? key fields).map (Option.map fun j => ofJson j.canon) := by
  have mapped : ofFields (Json.canonFields fields) =
      fields.map fun field => (field.1, ofJson field.2.canon) := by
    induction fields with
    | nil => rfl
    | cons field rest ih => simp [ofFields, Json.canonFields, ih]
  rw [mapped, only?_map fun j => ofJson j.canon]

end Document

namespace Sample

theorem blind_exprRules : exprRules.Blind := by
  have keyed : ∀ (keys : List (String × ClassKey expression)) (book : RuleBook expression),
      book.Blind →
        (keys.foldl (fun book entry => book.onKey entry.1 (fresh entry.2)) book).Blind := by
    intro keys
    induction keys with
    | nil => exact fun book isBlind => isBlind
    | cons entry rest ih =>
      exact fun book isBlind => ih _ (isBlind.onKey entry.1 (Build.blind_editor entry.2))
  refine RuleBook.Blind.onCandidate (RuleBook.Blind.onText (RuleBook.Blind.onCompiled
    (keyed _ _ (RuleBook.blind_empty.onKey "42" (Build.blind_token _ _)))
    fun value => Build.blind_token _ _) fun text => ?_) fun c => (Build.blind_token _ _).answer
  split
  · exact (Build.blind_token _ _).answer
  · exact Build.blind_decline

theorem blind_strictRules : strictRules.Blind := by
  refine RuleBook.Blind.onCandidate (RuleBook.Blind.onKey blind_exprRules.extend "42"
    (Build.blind_token _ _)) fun n => ?_
  split
  · exact (Build.blind_token _ _).answer
  · exact Build.blind_decline

theorem blind_hookOpenText (text : String) : (hookOpenText text).Blind Build.Answered := by
  unfold hookOpenText
  split
  · exact .fail []
  · exact .createToken _ _ fun _ _ => .fail _
  · exact (Build.blind_editor _).answer
  · exact .createToken _ _ fun _ _ =>
      .typeToken "2" List.mem_cons_self (.done (.some List.mem_cons_self))
  · split
    · exact (Build.blind_token _ _).answer
    · exact Build.blind_decline

theorem blind_hookOpenCandidate (item : Candidate) :
    (hookOpenCandidate item).Blind Build.Answered := by
  unfold hookOpenCandidate
  split
  · exact Build.blind_decline
  · split
    · exact (Build.blind_token _ _).answer
    · exact .fail []

theorem blind_hookOpenTyped (text : String) : (hookOpenTyped text).Blind Build.Answered := by
  unfold hookOpenTyped
  split
  · dsimp only
    split
    · exact .fail []
    · split
      · exact (Build.blind_token _ _).answer
      · exact Build.blind_decline
  · exact Build.blind_decline

theorem expression_blind : Language.Blind expression := by
  intro k
  cases k
  case expr =>
    exact ⟨blind_exprRules.forText, blind_exprRules.forCandidate, fun _ => Build.blind_decline⟩
  case strict =>
    exact ⟨blind_strictRules.forText, blind_strictRules.forCandidate, fun _ => Build.blind_decline⟩
  case plain =>
    exact ⟨fun _ => Build.blind_decline, fun _ => Build.blind_decline, fun _ => Build.blind_decline⟩
  case hook => exact ⟨blind_hookOpenText, blind_hookOpenCandidate, blind_hookOpenTyped⟩
  exact ⟨blind_exprRules.forText, blind_exprRules.forCandidate, fun _ => Build.blind_decline⟩

theorem constant_canon (j : Json) : CandidateType.ofDocument? (T := Constant) (.ofJson j.canon) =
    CandidateType.ofDocument? (.ofJson j) := by
  cases j with
  | object fields =>
    simp only [CandidateType.ofDocument?, Json.canon, Document.ofJson, Document.record?,
      List.mapM_cons, List.mapM_nil, Document.only?_canonFields _ fields,
      Document.only?_ofFields _ fields]
    cases Document.onlyValue? "name" fields with
    | none => rfl
    | some name =>
      cases Document.onlyValue? "value" fields with
      | none => rfl
      | some value =>
        cases name <;> cases value <;>
          simp [Document.string?_canon, word?, Document.intWithin?_canon]
  | array items =>
    rcases items with _ | ⟨name, _ | ⟨value, _ | ⟨third, rest⟩⟩⟩
    · rfl
    · rfl
    · simp [CandidateType.ofDocument?, Json.canon, Json.canonItems, Document.ofJson,
        Document.ofItems, Document.record?, Document.string?_canon, word?,
        Document.intWithin?_canon]
    · simp [CandidateType.ofDocument?, Json.canon, Json.canonItems, Document.ofJson,
        Document.ofItems, Document.record?]
  | _ => rfl

theorem keyword_canon (j : Json) : CandidateType.ofDocument? (T := Keyword) (.ofJson j.canon) =
    CandidateType.ofDocument? (.ofJson j) := by
  simp only [CandidateType.ofDocument?, Document.string?_canon]

theorem decode_of_beq {T : Type} [CandidateType T] {a b : Candidate} (same : (a == b) = true)
    (reads : ∀ j : Json, CandidateType.ofDocument? (T := T) (.ofJson j.canon) =
      CandidateType.ofDocument? (.ofJson j)) : a.decode T = b.decode T := by
  have canon := Candidate.beq_iff.1 same
  simp only [Candidate.canon, Candidate.mk.injEq] at canon
  obtain ⟨named, valued⟩ := canon
  simp only [Candidate.decode, Candidate.isOf, named, ← reads a.value, ← reads b.value, valued]

theorem expression_steady : Language.Steady expression := by
  refine ⟨fun c a b same => ?_, fun c a b same => ?_⟩
  · cases c
    case int =>
      have read := decode_of_beq (T := Constant) same constant_canon
      simp only [Language.token, tokenBehaviour, read]
    all_goals rfl
  · cases c
    case hook =>
      have read := decode_of_beq (T := Keyword) same keyword_canon
      simp only [Language.expander, expanderBehaviour, read]
    all_goals rfl

theorem classNamed?_name (c : ClassKey expression) : classNamed? c.name = some c := by
  cases c with
  | token k => cases k <;> rfl
  | expander k => cases k <;> rfl
  | compound k => cases k <;> rfl
  | list k => cases k <;> rfl

theorem name_injective : Function.Injective (ClassKey.name : ClassKey expression → String) := by
  intro c d same
  have found := classNamed?_name c
  rw [same, classNamed?_name d, Option.some.injEq] at found
  exact found.symm

end Sample

end StructureEditor
