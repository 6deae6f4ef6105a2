import StructureEditor.Proofs.Soundness

/-! What an action leaves alone. Restoring an editor changes what is below it and nothing
else; building one adds to the arena; neither touches histories or views, and contexts only
gain empty levels. -/
namespace StructureEditor

variable {S : Signature}

/-- An editor keeps its place, its context and its class. -/
def Editor.KeepsPlace (editor editor' : Editor S) : Prop :=
  editor'.context = editor.context ∧ editor'.parent = editor.parent ∧
    editor'.views = editor.views ∧ editor'.state.classKey = editor.state.classKey

theorem Editor.KeepsPlace.refl (editor : Editor S) : editor.KeepsPlace editor :=
  ⟨rfl, rfl, rfl, rfl⟩

theorem Editor.KeepsPlace.trans {e e' e'' : Editor S} (first : e.KeepsPlace e')
    (second : e'.KeepsPlace e'') : e.KeepsPlace e'' :=
  ⟨second.1.trans first.1, second.2.1.trans first.2.1, second.2.2.1.trans first.2.2.1,
    second.2.2.2.trans first.2.2.2⟩

namespace Arena

variable {a a' a'' : Arena S} {id x c : Handle} {editor : Editor S}

/-- Everything that was there stands as before. -/
def Grows (a a' : Arena S) : Prop :=
  ∀ x editor, a.outline x = some editor → a'.outline x = some editor

/-- Nothing changes but what is below one editor, which itself keeps its place. -/
structure Changes (a a' : Arena S) (id : Handle) : Prop where
  outside : ∀ x editor, a.outline x = some editor → ¬ a.links.Within id x →
    a'.outline x = some editor
  top : ∀ editor, a.outline id = some editor →
    ∃ editor', a'.outline id = some editor' ∧ editor.KeepsPlace editor'

theorem Changes.live (changes : a.Changes a' id) (found : a.get? id = some editor) :
    ∃ editor', a'.get? id = some editor' ∧ editor.KeepsPlace editor' := by
  obtain ⟨_, outlined, kept⟩ := changes.top _ (outline_of_get? found)
  obtain ⟨editor', found', rfl⟩ := get?_of_outline outlined
  exact ⟨editor', found', kept⟩

theorem Changes.keepsPlace {editor' : Editor S} (changes : a.Changes a' id)
    (found : a.get? id = some editor) (found' : a'.get? id = some editor') :
    editor.KeepsPlace editor' := by
  obtain ⟨_, isLive, kept⟩ := changes.live found
  cases found'.symm.trans isLive
  exact kept

theorem Grows.refl (a : Arena S) : a.Grows a := fun _ _ found => found

theorem Grows.trans (first : a.Grows a') (second : a'.Grows a'') : a.Grows a'' :=
  fun x editor found => second x editor (first x editor found)

theorem Grows.changes (grows : a.Grows a') (id : Handle) : a.Changes a' id where
  outside x editor found _ := grows x editor found
  top editor found := ⟨editor, grows id editor found, .refl editor⟩

theorem Changes.refl (a : Arena S) (id : Handle) : a.Changes a id := (Grows.refl a).changes id

theorem fresh_of_grows (grows : a.Grows a') (fresh : a'.outline id = none) :
    a.outline id = none := by
  cases was : a.outline id with
  | none => rfl
  | some e =>
    rw [grows id e was] at fresh
    cases fresh

theorem links_of_outline (found : a.outline x = some editor) : a.links x = some editor.place := by
  rw [links_eq_outline, found]
  rfl

theorem outline_of_links {place : Place} (found : a.links x = some place) :
    ∃ editor, a.outline x = some editor ∧ editor.place = place := by
  rw [links_eq_outline] at found
  exact Option.map_eq_some_iff.1 found

theorem live_parent {p : Handle} (forest : a.links.Forest) (isLive : a.outline x = some editor)
    (hasParent : editor.parent = some p) : ∃ above, a.outline p = some above := by
  obtain ⟨place, found, _⟩ := forest.listed (links_of_outline isLive) hasParent
  obtain ⟨above, isAbove, _⟩ := outline_of_links found
  exact ⟨above, isAbove⟩

theorem Grows.within (grows : a.Grows a') (within : a.links.Within id x) :
    a'.links.Within id x := by
  generalize eq : a.links = l at within
  induction within with
  | here => exact .here
  | step found hasParent _ above =>
    subst eq
    obtain ⟨e, isLive, rfl⟩ := outline_of_links found
    exact .step (links_of_outline (grows _ e isLive)) hasParent above

theorem within_of_kept (forest : a.links.Forest) (part : Handle → Prop)
    (upwards : ∀ z p e, part z → a.outline z = some e → e.parent = some p → part p)
    (kept : ∀ z e, part z → a.outline z = some e → a'.outline z = some e)
    (within : a'.links.Within id x) (member : part x) (isLive : a.outline x = some editor) :
    a.links.Within id x := by
  have was : ∀ z place, (part z ∧ ∃ e, a.outline z = some e) → a'.links z = some place →
      ∃ e, a.outline z = some e ∧ e.place = place := by
    rintro z place ⟨member, e, found⟩ found'
    rw [links_of_outline (kept z e member found)] at found'
    exact ⟨e, found, Option.some.inj found'⟩
  refine within.transfer (fun z => part z ∧ ∃ e, a.outline z = some e) ?_ ?_
    ⟨member, editor, isLive⟩
  · rintro z p place both found hasParent
    obtain ⟨e, isLive, rfl⟩ := was z place both found
    exact ⟨upwards z p e both.1 isLive hasParent, live_parent forest isLive hasParent⟩
  · rintro z place both found
    obtain ⟨e, isLive, rfl⟩ := was z place both found
    exact ⟨e.place, links_of_outline isLive, rfl⟩

theorem Changes.still_outside (changes : a.Changes a' id) (forest : a.links.Forest)
    (outside : ¬ a.links.Within id x) (isLive : a.outline x = some editor) :
    ¬ a'.links.Within id x := by
  intro within
  refine outside (within_of_kept forest (fun z => ¬ a.links.Within id z) ?_ ?_ within outside isLive)
  · exact fun z p e outside isLive hasParent =>
      Links.not_within_parent outside (links_of_outline isLive) hasParent
  · exact fun z e outside isLive => changes.outside z e isLive outside

theorem Changes.trans (first : a.Changes a' id) (second : a'.Changes a'' id)
    (forest : a.links.Forest) : a.Changes a'' id where
  outside x editor found outside :=
    second.outside x editor (first.outside x editor found outside)
      (first.still_outside forest outside found)
  top editor found := by
    obtain ⟨editor', found', kept⟩ := first.top editor found
    obtain ⟨editor'', found'', kept'⟩ := second.top editor' found'
    exact ⟨editor'', found'', kept.trans kept'⟩

theorem Changes.widen (changes : a.Changes a' c) (forest : a.links.Forest)
    (within : a.links.Within id c) (isLive : a.outline c = some editor) : a.Changes a' id where
  outside x e found outside :=
    changes.outside x e found fun inner => outside (within.trans inner)
  top e found := by
    by_cases same : id = c
    · subst same
      exact changes.top e found
    · refine ⟨e, changes.outside id e found ?_, .refl e⟩
      intro inner
      obtain ⟨m, depth⟩ := forest.rooted (links_of_outline found)
      obtain ⟨n, depth'⟩ := forest.rooted (links_of_outline isLive)
      have lower := within.depth_le depth depth'
      obtain ⟨p, hasParent, above⟩ := inner.parent same (links_of_outline found)
      obtain ⟨upper, upperLive⟩ := live_parent forest found hasParent
      obtain ⟨k, depth''⟩ := forest.rooted (links_of_outline upperLive)
      have deeper := depth.unique (.step (links_of_outline found) hasParent depth'')
      have higher := above.depth_le depth' depth''
      omega

theorem not_within_fresh (forest : a.links.Forest) (fresh : a.outline id = none)
    (isLive : a.outline x = some editor) : ¬ a.links.Within id x := by
  intro within
  generalize eq : a.links = l at within
  induction within generalizing editor with
  | here =>
    rw [fresh] at isLive
    cases isLive
  | @step x p place found hasParent _ ih =>
    subst eq
    rw [links_of_outline isLive] at found
    cases found
    obtain ⟨above, isAbove⟩ := live_parent forest isLive hasParent
    exact ih isAbove

theorem Grows.not_within_fresh (grows : a.Grows a') (forest : a.links.Forest)
    (fresh : a.outline id = none) (isLive : a.outline x = some editor) :
    ¬ a'.links.Within id x := by
  intro within
  refine Arena.not_within_fresh forest fresh isLive
    (within_of_kept forest (fun _ => True) ?_ ?_ within trivial isLive)
  · exact fun _ _ _ _ _ _ => trivial
  · exact fun z e _ isLive => grows z e isLive

theorem Grows.change_fresh (grows : a.Grows a') (changes : a'.Changes a'' id)
    (forest : a.links.Forest) (fresh : a.outline id = none) : a.Grows a'' :=
  fun x editor isLive => changes.outside x editor (grows x editor isLive)
    (grows.not_within_fresh forest fresh isLive)

end Arena

def Contexts.Grown {T : Type} [ServiceTable T] (before after : Contexts T) : Prop :=
  ∃ count, after.tables.toList =
    before.tables.toList ++ List.replicate count ServiceTable.empty

theorem Contexts.Grown.refl {T : Type} [ServiceTable T] (cs : Contexts T) : cs.Grown cs :=
  ⟨0, by simp⟩

theorem Contexts.Grown.trans {T : Type} [ServiceTable T] {cs cs' cs'' : Contexts T}
    (first : cs.Grown cs') (second : cs'.Grown cs'') : cs.Grown cs'' := by
  obtain ⟨m, first⟩ := first
  obtain ⟨n, second⟩ := second
  refine ⟨m + n, ?_⟩
  rw [second, first, List.append_assoc, List.replicate_append_replicate]

theorem Contexts.grown_newLevel {T : Type} [ServiceTable T] (above : List Nat) (cs : Contexts T) :
    cs.Grown (cs.newLevel above).2 :=
  ⟨1, by simp [newLevel]⟩

theorem Contexts.Grown.find? {T α : Type} [ServiceTable T] {cs cs' : Contexts T}
    (grown : cs.Grown cs') {service : T → Option α}
    (nothing : service ServiceTable.empty = none) (c : Context) :
    cs'.find? service c = cs.find? service c := by
  obtain ⟨count, tables⟩ := grown
  have same : ∀ level : Nat, (cs'.tables[level]? >>= service) = (cs.tables[level]? >>= service) := by
    intro level
    rw [← Array.getElem?_toList, ← Array.getElem?_toList, tables]
    by_cases inside : level < cs.tables.toList.length
    · rw [List.getElem?_append_left inside]
    · have beyond : cs.tables.toList[level]? = none := List.getElem?_eq_none_iff.2 (by omega)
      rw [beyond, List.getElem?_append_right (by omega), List.getElem?_replicate]
      split <;> simp [nothing]
  simp only [Contexts.find?, same]

namespace Workspace

/-- Nothing is recorded and no view comes or goes. -/
structure Quiet (w w' : Workspace S) : Prop where
  histories : w'.histories = w.histories
  views : w'.views = w.views
  contexts : w.contexts.Grown w'.contexts

variable {w w' w'' : Workspace S}

theorem Quiet.refl (w : Workspace S) : Quiet w w := ⟨rfl, rfl, .refl _⟩

theorem Quiet.trans (first : Quiet w w') (second : Quiet w' w'') : Quiet w w'' :=
  ⟨second.histories.trans first.histories, second.views.trans first.views,
    first.contexts.trans second.contexts⟩

theorem Refreshed.quiet (same : Refreshed w w') : Quiet w w' :=
  ⟨same.histories, same.views, same.contexts ▸ .refl _⟩

theorem recompute_sound [Language S] {id : Handle} {editor : Editor S}
    (sound : w.arena.SoundBut id) (isLive : w.arena.get? id = some editor) :
    ∃ w', recompute id w = .ok () w' ∧ Refreshed w w' ∧ w'.arena.Sound := by
  obtain ⟨w', ran, same, settled⟩ := recompute_run sound.forest isLive sound.settled
  refine ⟨w', ran, same, same.exact sound.exact, ?_, sound.shared.congr same.outline, settled⟩
  exact same.links ▸ sound.forest

end Workspace

end StructureEditor
