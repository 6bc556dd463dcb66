import Mathlib
import TableFeed.Proofs.Session.SinkOfSubscription
/-!
Changes that go unseen. What an input is told and what it answers depends on the outputs and on that
input. So a change that leaves these alone can be made before the input is told something as well as
after it.
-/

namespace TableFeed.Hub

/-- A change of a hub that can be made before as well as after input `i` is told something. -/
structure Unseen (f : Hub → Hub) (i : InputId) : Prop where
  display : ∀ h o, (f h).display? o = h.display? o
  input : ∀ h, (f h).inputs[i]? = h.inputs[i]?
  set : ∀ h x, (f h).setInput i x = f (h.setInput i x)
  emit : ∀ h o r, (f h).emit o r = f (h.emit o r)

variable {f : Hub → Hub} {i j : InputId}

/-- What stands in the place of an input is not seen by the others. -/
theorem unseen_setInput (hne : i ≠ j) (x : Input) : Unseen (·.setInput i x) j := by
  refine ⟨fun h o => ?_, fun h => List.getElem?_set_ne hne, fun h y => ?_, fun h o r => rfl⟩
  · exact SameOutputs.display? ⟨rfl, rfl, rfl, rfl⟩ o
  · simp only [setInput]
    rw [List.set_comm _ _ hne]

namespace Unseen

variable (hf : Unseen f i) (h : Hub)

include hf

theorem attached (o : OutputId) : (f h).attached o = h.attached o := by
  rw [Hub.attached, Hub.attached, hf.display]

theorem answer (origin : Origin) (n : Notice) (s : SinkInput) :
    s.answer (f h) origin n = s.answer h origin n := by
  have hdisplay : (f h).display? = h.display? := funext (hf.display h)
  have hcells : ∀ o, (f h).cells o = h.cells o := by
    intro o
    cases o with
    | nowhere => rfl
    | output o => rw [cells, cells, hdisplay]
    | given sheet => rfl
  simp only [SinkInput.answer, rowCount, hdisplay, hcells]

theorem emitAll (o : OutletId) (rs : List Response) :
    rs.foldl (fun h r => h.emit o r) (f h) = f (rs.foldl (fun h r => h.emit o r) h) := by
  induction rs generalizing h with
  | nil => rfl
  | cons r rs ih => rw [List.foldl_cons, List.foldl_cons, hf.emit, ih]

theorem tell (origin : Origin) (n : Notice) :
    (f h).tell origin i n = f (h.tell origin i n) := by
  rcases hi : h.inputs[i]? with _ | (r | s)
  · rw [tell_none hi, tell_none ((hf.input h).trans hi)]
  · rw [tell_recorder hi, tell_recorder ((hf.input h).trans hi), hf.set]
  · rw [tell_sink hi, tell_sink ((hf.input h).trans hi), hf.answer, hf.set, hf.emitAll]

theorem tellAll (origin : Origin) (ns : List Notice) :
    (f h).tellAll origin i ns = f (h.tellAll origin i ns) := by
  induction ns generalizing h with
  | nil => rfl
  | cons n ns ih =>
      show ((f h).tell origin i n).tellAll origin i ns = f ((h.tell origin i n).tellAll origin i ns)
      rw [hf.tell, ih]

end Unseen

theorem tellEach_unseen {is : List InputId} (hf : ∀ i ∈ is, Unseen f i) (h : Hub) (origin : Origin)
    (ns : List Notice) : (f h).tellEach origin is ns = f (h.tellEach origin is ns) := by
  induction is generalizing h with
  | nil => rfl
  | cons i is ih =>
      rw [tellEach, List.foldl_cons, (hf i List.mem_cons_self).tellAll]
      exact ih (fun j hj => hf j (List.mem_cons_of_mem _ hj)) (h.tellAll origin i ns)

/-! ### Inputs that stand aside -/

theorem mapPublisher_setInput (h : Hub) (f : Publisher → Publisher) (o : OutputId) (i : InputId)
    (x : Input) : (h.setInput i x).mapPublisher f o = (h.mapPublisher f o).setInput i x := by
  cases o with
  | table k => rfl
  | replica k => rfl
  | subscription c id =>
      simp only [mapPublisher, setInput]
      split <;> rfl

theorem attach_setInput (h : Hub) (o : OutputId) (hne : i ≠ j) (x : Input) :
    (h.setInput i x).attach o j = (h.attach o j).setInput i x := by
  have hunseen := unseen_setInput hne x
  rw [attach, hunseen.display, attach]
  split
  · rfl
  · split
    · rfl
    · rw [mapPublisher_setInput, hunseen.tellAll]

theorem detach_setInput (h : Hub) (o : OutputId) (hne : i ≠ j) (x : Input) :
    ((h.setInput i x).detach o j).1 = (h.detach o j).1.setInput i x := by
  have hunseen := unseen_setInput hne x
  rw [detach, hunseen.attached, detach]
  split
  · rw [mapPublisher_setInput, hunseen.tellAll]
  · rfl

theorem detachAll_setInput (h : Hub) {us : List (OutputId × InputId)} (hus : ∀ u ∈ us, i ≠ u.2)
    (x : Input) : (h.setInput i x).detachAll us = (h.detachAll us).setInput i x := by
  induction us generalizing h with
  | nil => rfl
  | cons u us ih =>
      rw [detachAll, List.foldl_cons, detach_setInput h u.1 (hus u List.mem_cons_self)]
      exact ih _ fun u' hu' => hus u' (List.mem_cons_of_mem u hu')

theorem addInput_setInput (h : Hub) (hi : i < h.inputs.length) (x y : Input) :
    ((h.setInput i x).addInput y).1 = (h.addInput y).1.setInput i x := by
  simp only [addInput, setInput, List.set_append, if_pos hi]

theorem fire_setInput (h : Hub) (k : Nat) (hi : i ∉ h.attached (.table k)) (x : Input) :
    (h.setInput i x).fire k = (h.fire k).setInput i x := by
  cases ht : h.tables[k]? with
  | none =>
      have ht' : (h.setInput i x).tables[k]? = none := ht
      rw [fire, ht', fire, ht]
  | some t =>
      have ht' : (h.setInput i x).tables[k]? = some t := ht
      have hpublished : (h.setInput i x).published k t = (h.published k t).setInput i x := rfl
      have hall : ∀ j ∈ t.table.publisher.inputs, Unseen (·.setInput i x) j := by
        intro j hj
        refine unseen_setInput (fun heq => hi ?_) x
        rw [attached_of_table ht, heq]
        exact hj
      rw [fire_eq ht', fire_eq ht, hpublished]
      dsimp only
      rw [tellEach_unseen hall (h.published k t)]
      rfl

end TableFeed.Hub
