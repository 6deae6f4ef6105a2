import StructureEditor.Proofs.Unfolding
import StructureEditor.Workspace.Paste
import StructureEditor.Workspace.Watch

/-! What operations do besides their changes of documents. They look at the arena, they record and
group edits and pause histories, and they enter views. -/
namespace StructureEditor.Workspace

variable {S : Signature} {α β : Type} {w : Workspace S} {id : Handle}

theorem still_ask (question : Arena S → Except Refusal α) (w : Workspace S) :
    Still (ask question) w := .ask (fun _ _ => .refl w) fun _ _ => .refl w

theorem Still.bind {action : Editing S α} {next : α → Editing S β} (first : Still action w)
    (second : ∀ value w', Beside w w' → Still (next value) w') : Still (action >>= next) w := by
  refine Action.Meets.bind (Action.Meets.mono first ?_ fun _ _ same => same)
  intro value w' same
  refine (second value w' same).mono ?_ ?_
  · exact fun _ w'' same' => same.trans same'
  · exact fun _ w'' same' => same.trans same'

theorem still_pure (value : α) (w : Workspace S) : Still (pure value : Editing S α) w :=
  .pure (.refl w)

theorem still_historyFor? (id : Handle) (w : Workspace S) : Still (historyFor? id) w := by
  refine .bind (still_ask _ w) fun editor w' _ => ?_
  exact .of_ok (show historyOf? editor.context w' = .ok _ w' from rfl) (.refl w')

theorem still_recording? (id : Handle) (w : Workspace S) : Still (recording? id) w := by
  refine .bind (still_historyFor? id w) ?_
  intro found w' _
  cases found with
  | none => exact still_pure _ w'
  | some h => exact .of_ok rfl (.refl w')

theorem still_recordIfActive {make : Editing S Edit} (made : ∀ w : Workspace S, Still make w) :
    Still (recordIfActive id make) w := by
  refine .bind (still_recording? id w) ?_
  intro found w' _
  cases found with
  | none => exact still_pure _ w'
  | some h => exact .bind (made w') fun edit w'' _ => .of_ok rfl ⟨rfl, rfl, rfl⟩

variable {P : Workspace S → Prop}

theorem Still.ensures {action : Editing S α} (still : Still action w) (lasts : Lasting P)
    (holds : P w) : Ensures action w P := by
  refine Action.Meets.mono still ?_ ?_
  · exact fun _ w' same => lasts w w' same holds
  · exact fun _ w' same => lasts w w' same holds

theorem Ensures.still {action : Editing S α} {next : α → Editing S β} (first : Ensures action w P)
    (lasts : Lasting P) (second : ∀ value w', Still (next value) w') :
    Ensures (action >>= next) w P :=
  .bind (first.mono (fun value w' holds => (second value w').ensures lasts holds)
    fun _ _ holds => holds)

theorem Ensures.ask {question : Arena S → Except Refusal α} {next : α → Editing S β} (holds : P w)
    (rest : ∀ value, question w.arena = .ok value → Ensures (next value) w P) :
    Ensures (Workspace.ask question >>= next) w P :=
  Action.Meets.bind (.ask rest fun _ _ => holds)

theorem Ensures.then {action : Editing S α} {next : α → Editing S β} (first : Ensures action w P)
    (rest : ∀ value w', P w' → Ensures (next value) w' P) : Ensures (action >>= next) w P :=
  Action.Meets.bind (first.mono rest fun _ _ holds => holds)

theorem Ensures.after_ok {action : Editing S α} {next : α → Editing S β} {value : α}
    {w' : Workspace S} (ran : action w = .ok value w') (rest : Ensures (next value) w' P) :
    Ensures (action >>= next) w P :=
  Action.Meets.after_ok ran rest

theorem Still.then {action : Editing S α} {next : α → Editing S β} (first : Still action w)
    (lasts : Lasting P) (holds : P w)
    (second : ∀ value w', action w = .ok value w' → Beside w w' → Ensures (next value) w' P) :
    Ensures (action >>= next) w P := by
  cases ran : action w with
  | ok value w' => exact .after_ok ran (second value w' ran (first.ok_of ran))
  | error stop w' =>
    exact .of_error (Action.bind_run_error _ ran) (lasts w w' (first.stopped_of ran) holds)

theorem lookup_stale (stale : w.arena.get? id = none) :
    lookup id w = .error (.refused (.stale id)) w := by
  simp only [lookup, ask, Action.ask, Arena.get, stale]

theorem historyFor?_stale (stale : w.arena.get? id = none) :
    historyFor? id w = .error (.refused (.stale id)) w :=
  Action.bind_run_error _ (lookup_stale stale)

theorem recording?_stale (stale : w.arena.get? id = none) :
    recording? id w = .error (.refused (.stale id)) w :=
  Action.bind_run_error _ (historyFor?_stale stale)

def grouping (w : Workspace S) (id : Handle) : Workspace S :=
  match w.arena.get? id with
  | some editor =>
    match w.contexts.find? (·.history) editor.context with
    | some h =>
      if !((historyLens h).view w).active || ((historyLens h).view w).isOpen then w
      else (historyLens h).put ((historyLens h).view w).begin w
    | none => w
  | none => w

theorem attempt_ensures {action : Editing S α} (ends : Ensures action w P) :
    Ensures action.attempt w P := by
  refine Action.Meets.attempt (ends.mono (fun _ _ holds => holds) ?_)
  intro stop w' holds
  cases stop with
  | refused error => exact holds
  | fault f => exact holds

theorem still_finish (h : HistoryId) (description : String) (w : Workspace S) :
    Still ((historyLens h).finish description) w := by
  refine Action.Meets.after_ok (Action.get_run w) ?_
  dsimp only
  split
  · exact .of_ok rfl ⟨rfl, rfl, rfl⟩
  · exact .fault (.refl w)

theorem still_ofExcept (result : Except Refusal α) (w : Workspace S) :
    Still (Action.ofExcept result) w := by
  cases result with
  | ok value => exact .pure (.refl w)
  | error error => exact .refuse (.refl w)

theorem grouped_ensures {action : Editing S α} {h : HistoryId} {description : String}
    (lasts : Lasting P)
    (ends : Ensures action (if !((historyLens h).view w).active || ((historyLens h).view w).isOpen
      then w else (historyLens h).put ((historyLens h).view w).begin w) P) :
    Ensures ((historyLens h).grouped description action) w P := by
  by_cases joins : (!((historyLens h).view w).active || ((historyLens h).view w).isOpen) = true
  · rw [if_pos joins] at ends
    exact .of_eq (HistoryLens.grouped_joins description action joins) ends
  · rw [if_neg joins] at ends
    refine .of_eq (HistoryLens.grouped_opens description action joins)
      (Ensures.still (attempt_ensures ends) lasts ?_)
    exact fun result w' =>
      .bind (still_finish h description w') fun _ w'' _ => still_ofExcept result w''

theorem historyFor?_run {editor : Editor S} (found : w.arena.get? id = some editor) :
    historyFor? id w = .ok (w.contexts.find? (·.history) editor.context) w := by
  simp only [historyFor?, Action.bind_run_ok _ (lookup_run found)]
  rfl

theorem asOneStep_ensures {action : Editing S α} (description : String) (lasts : Lasting P)
    (holds : P w) (ends : Ensures action (w.grouping id) P) :
    Ensures (asOneStep id description action) w P := by
  cases found : w.arena.get? id with
  | none => exact .of_error (Action.bind_run_error _ (historyFor?_stale found)) holds
  | some editor =>
    refine .after_ok (historyFor?_run found) ?_
    simp only [grouping, found] at ends
    cases responsible : w.contexts.find? (·.history) editor.context with
    | none =>
      simp only [responsible] at ends
      exact ends
    | some h =>
      simp only [responsible] at ends
      exact grouped_ensures lasts ends

variable [Language S]

theorem recordTransition_rule {action : Editing S α} {ok : α → Workspace S → Prop}
    {stopped : Stop → Workspace S → Prop} (description : String)
    (early : ∀ error, stopped (.refused error) w)
    (ends : Action.Meets action w (fun value w' => (∀ histories, ok value { w' with histories }) ∧
      ∀ error, stopped (.refused error) w') stopped) :
    Action.Meets (recordTransition id description action) w ok stopped := by
  cases found : w.arena.get? id with
  | none => exact .of_error (Action.bind_run_error _ (recording?_stale found)) (early _)
  | some editor =>
    refine .after_ok (recording?_run found) ?_
    cases w.recorder? editor.context with
    | none => exact ends.mono (fun _ w' each => each.1 w'.histories) fun _ _ stops => stops
    | some h =>
      refine .bind (.ask (fun locator _ => ?_) fun error _ => early error)
      refine .bind (.ask (fun before _ => ?_) fun error _ => early error)
      refine .bind (ends.mono (fun value w' each => ?_) fun _ _ stops => stops)
      exact .bind (.ask (fun after _ => .of_ok rfl (each.1 _)) fun error _ => each.2 error)

theorem recordTransition_ensures {action : Editing S α} (description : String)
    (lasts : Lasting P) (holds : P w) (ends : Ensures action w P) :
    Ensures (recordTransition id description action) w P :=
  recordTransition_rule description (fun _ => holds)
    (ends.mono (fun _ w' holds => ⟨fun _ => lasts w' _ ⟨rfl, rfl, rfl⟩ holds, fun _ => holds⟩)
      fun _ _ holds => holds)

def pausing (w : Workspace S) (id : Handle) : Workspace S :=
  match w.arena.get? id with
  | some editor =>
    match w.contexts.find? (·.history) editor.context with
    | some h => (historyLens h).put ((historyLens h).view w).pause.2 w
    | none => w
  | none => w

theorem replacing_ensures {action : Editing S α} (description : String) (lasts : Lasting P)
    (holds : P w) (ends : Ensures action (w.pausing id) P) :
    Ensures (replacing id description action) w P := by
  refine Ensures.still ?_ lasts fun result w' => still_ofExcept result.2 w'
  cases found : w.arena.get? id with
  | none => exact .of_error (Action.bind_run_error _ (lookup_stale found)) holds
  | some editor =>
    refine .after_ok (lookup_run found) ?_
    refine .bind (.ask (fun locator _ => ?_) fun _ _ => holds)
    refine .bind (.ask (fun before _ => ?_) fun _ _ => holds)
    refine Ensures.still ?_ lasts ?_
    · have inner : Ensures (do return ((), ← action.attempt)) (w.pausing id) P :=
        Ensures.still (attempt_ensures ends) lasts fun _ w' => still_pure _ w'
      have asked : historyOf? editor.context w =
          .ok (w.contexts.find? (·.history) editor.context) w := rfl
      refine .after_ok asked ?_
      simp only [pausing, found] at inner
      cases responsible : w.contexts.find? (·.history) editor.context with
      | none =>
        simp only [responsible] at inner
        exact inner
      | some h =>
        simp only [responsible] at inner
        refine Action.Meets.ensuring (inner.mono ?_ ?_)
        · exact fun _ w' holds => lasts w' _ ⟨rfl, rfl, rfl⟩ holds
        · exact fun _ w' holds => lasts w' _ ⟨rfl, rfl, rfl⟩ holds
    · rintro ⟨_, result⟩ w'
      cases result with
      | error error => exact still_pure _ w'
      | ok value =>
        refine .bind ?_ fun _ w'' _ => still_pure _ w''
        refine Action.Meets.attempt (Action.Meets.mono (Still.bind (still_ask _ w') fun after w'' _ =>
          still_recordIfActive fun w => still_pure _ w) (fun _ _ same => same) ?_)
        intro stop w'' same
        cases stop with
        | refused error => exact same
        | fault f => exact same

omit [Language S] in
theorem beside_grouping (w : Workspace S) (id : Handle) : Beside w (w.grouping id) := by
  unfold grouping
  repeat' split
  all_goals exact ⟨rfl, rfl, rfl⟩

omit [Language S] in
theorem beside_pausing (w : Workspace S) (id : Handle) : Beside w (w.pausing id) := by
  unfold pausing
  repeat' split
  all_goals exact ⟨rfl, rfl, rfl⟩

/-- However it ends, nothing has happened. -/
def Reads (action : Editing S α) (w : Workspace S) : Prop :=
  Action.Meets action w (fun _ w' => w' = w) fun _ w' => w' = w

omit [Language S] in
theorem Reads.rule {action : Editing S α} {next : α → Editing S β} {ok : β → Workspace S → Prop}
    {stopped : Stop → Workspace S → Prop} (reads : Reads action w) (early : ∀ stop, stopped stop w)
    (rest : ∀ value, action w = .ok value w → Action.Meets (next value) w ok stopped) :
    Action.Meets (action >>= next) w ok stopped := by
  cases ran : action w with
  | ok value w' =>
    obtain rfl : w' = w := reads.ok_of ran
    exact .after_ok ran (rest value ran)
  | error stop w' =>
    obtain rfl : w' = w := reads.stopped_of ran
    exact .of_error (Action.bind_run_error _ ran) (early stop)

omit [Language S] in
theorem Reads.then {action : Editing S α} {next : α → Editing S β} (reads : Reads action w)
    (holds : P w) (rest : ∀ value, action w = .ok value w → Ensures (next value) w P) :
    Ensures (action >>= next) w P :=
  reads.rule (fun _ => holds) rest

omit [Language S] in
theorem reads_checkGap (list : Handle) (index : Nat) (w : Workspace S) :
    Reads (checkGap list index) w := by
  obtain ⟨_, _, _, _, ran⟩ | ⟨_, ran⟩ := checkGap_cases list index w
  · exact .of_ok ran rfl
  · exact .of_error ran rfl

omit [Language S] in
theorem checkGap_ok {list : Handle} {index : Nat} (ran : checkGap list index w = .ok () w) :
    ∃ k ids, w.arena.state? list = some (.list k ids) ∧ index ≤ ids.length := by
  obtain ⟨k, ids, held, inside, _⟩ | ⟨_, refused⟩ := checkGap_cases list index w
  · exact ⟨k, ids, held, inside⟩
  · cases ran.symm.trans refused

omit [Language S] in
theorem reads_itemAt (list : Handle) (index : Nat) (w : Workspace S) :
    Reads (itemAt list index) w := by
  obtain ⟨_, _, _, _, _, ran⟩ | ⟨_, ran⟩ := itemAt_cases list index w
  · exact .of_ok ran rfl
  · exact .of_error ran rfl

omit [Language S] in
theorem itemAt_ok {list item : Handle} {index : Nat} (ran : itemAt list index w = .ok item w) :
    ∃ k ids, w.arena.state? list = some (.list k ids) ∧ ids[index]? = some item := by
  obtain ⟨k, ids, _, held, listed, ran'⟩ | ⟨_, refused⟩ := itemAt_cases list index w
  · cases ran.symm.trans ran'
    exact ⟨k, ids, held, listed⟩
  · cases ran.symm.trans refused

omit [Language S] in
theorem Reads.bind {action : Editing S α} {next : α → Editing S β} (first : Reads action w)
    (second : ∀ value, Reads (next value) w) : Reads (action >>= next) w := by
  refine Action.Meets.bind (Action.Meets.mono first ?_ fun _ _ same => same)
  rintro value w' rfl
  exact second value

omit [Language S] in
theorem reads_ask (question : Arena S → Except Refusal α) (w : Workspace S) :
    Reads (ask question) w := .ask (fun _ _ => rfl) fun _ _ => rfl

omit [Language S] in
theorem reads_pure (value : α) (w : Workspace S) : Reads (pure value : Editing S α) w := .pure rfl

omit [Language S] in
theorem reads_service? (service : Services S → Option α) (context : Context) (w : Workspace S) :
    Reads (service? service context) w := .of_ok rfl rfl

theorem reads_listPlace? (id : Handle) (w : Workspace S) : Reads (listPlace? id) w := by
  refine .bind (reads_ask _ w) fun editor => ?_
  cases editor.parent with
  | none => exact reads_pure _ w
  | some list =>
    refine .bind (reads_ask _ w) fun above => ?_
    dsimp only
    split
    · refine .bind (reads_ask _ w) fun own => .bind (reads_service? _ _ w) fun settings => ?_
      split
      · exact reads_pure _ w
      · exact reads_pure _ w
    · exact reads_pure _ w

theorem setViews_sound {a : Arena S} (id : Handle) (views : List ViewId) (sound : a.Sound) :
    (a.modify id fun editor => { editor with views }).Sound := by
  have was : ∀ {x e'}, (a.modify id fun editor => { editor with views }).get? x = some e' →
      ∃ e, a.get? x = some e ∧ e'.context = e.context ∧ e'.result = e.result ∧
        e'.state = e.state := by
    intro x e' isLive
    rw [Arena.get?_modify] at isLive
    split at isLive
    · obtain ⟨e, found, rfl⟩ := Option.map_eq_some_iff.1 isLive
      exact ⟨e, found, rfl, rfl, rfl⟩
    · exact ⟨e', isLive, rfl, rfl, rfl⟩
  have links : (a.modify id fun editor => { editor with views }).links = a.links := by
    funext x
    simp only [Arena.links, Arena.get?_modify]
    split
    · cases a.get? x <;> rfl
    · rfl
  have result : ∀ x, (a.modify id fun editor => { editor with views }).result x = a.result x := by
    intro x
    simp only [Arena.result, Arena.get, Arena.get?_modify]
    by_cases here : x = id
    · rw [if_pos here]
      cases a.get? x <;> rfl
    · rw [if_neg here]
  refine ⟨Arena.exact_modify sound.exact id _, links ▸ sound.forest, ?_, ?_⟩
  · intro x e' isLive sharing c member child' childLive
    obtain ⟨e, found, context, _, state⟩ := was isLive
    obtain ⟨child, childFound, childContext, _⟩ := was childLive
    rw [childContext, context]
    exact sound.shared x e found (state ▸ sharing) c (state ▸ member) child childFound
  · intro x e' isLive
    obtain ⟨e, found, _, sameResult, state⟩ := was isLive
    rw [state, sameResult, Arena.yields_congr fun c _ => result c]
    exact sound.settled x e found

theorem watch_sound (view : ViewId) (sound : w.arena.Sound) :
    Ensures (watch id view) w fun w' => w'.arena.Sound :=
  .bind (.ask (fun _ _ => .of_ok rfl (setViews_sound id _ sound)) fun _ _ => sound)

theorem unwatch_sound (view : ViewId) (sound : w.arena.Sound) :
    Ensures (unwatch id view) w fun w' => w'.arena.Sound :=
  .bind (.ask (fun _ _ => .of_ok rfl (setViews_sound id _ sound)) fun _ _ => sound)

end StructureEditor.Workspace
