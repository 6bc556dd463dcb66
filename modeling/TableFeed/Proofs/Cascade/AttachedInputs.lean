import Mathlib
import TableFeed.Proofs.Cascade.PassShares
/-!
What inputs know of an output that they may attach to and detach from while it tells them. Between
two calls from outside, an input that was last told it is attached is, and knows what is shown. The
converse fails for an input that is attached again before it was told of its detachment: it is told
of that last.
-/

namespace TableFeed

/-! ### Passes -/

theorem Publisher.sources_publish (p : Publisher) (live : RowSet) (batch : Batch) :
    sources (p.publish live batch).2 = [] := by
  have hrows : ∀ added changed removed fields,
      sources (rowNotices added changed removed fields) = [] := by
    intro added changed removed fields
    cases added <;> cases changed <;> cases removed <;> rfl
  rw [publish]
  split
  · exact hrows _ _ _ _
  · exact hrows _ _ _ _

theorem sources_of_part {part ns : List Notice} (h : part <+: ns) (hns : sources ns = []) :
    sources part = [] := by
  obtain ⟨rest, rfl⟩ := h
  rw [sources_append, List.append_eq_nil_iff] at hns
  exact hns.1

/-- A recorder that knows what is shown knows it after a pass that it hears whole. -/
theorem Recorder.shows_publish {r : Recorder} {p : Publisher} (hr : r.Shows p) (live : RowSet)
    (batch : Batch) :
    ((p.publish live batch).2.foldl hear r).Shows (p.publish live batch).1 := by
  have hrows : ∀ added changed removed fields (r : Recorder),
      ((Publisher.rowNotices added changed removed fields).foldl hear r).schema = r.schema ∧
        ((Publisher.rowNotices added changed removed fields).foldl hear r).live =
          (r.live.insertAll added).eraseAll removed := by
    intro added changed removed fields r
    cases added <;> cases changed <;> cases removed <;> exact ⟨rfl, rfl⟩
  rw [Publisher.publish]
  split
  · intro s hs
    have hall : (∅ : RowSet).insertAll live.toList = live := AscSet.ext_mem fun row => by simp
    obtain ⟨hschema, hlive⟩ := hrows live.toList [] [] ∅ (r.hear (.schema p.latest))
    dsimp only at hs ⊢
    rw [hs] at hschema hlive ⊢
    exact ⟨hschema, hlive.trans hall⟩
  · intro s hs
    obtain ⟨hschema, hlive⟩ := hrows batch.added.toList batch.changed.keys.toList
      batch.removed.toList batch.changedFields r
    obtain ⟨hr, hr'⟩ := hr s hs
    exact ⟨hschema.trans hr, by rw [hlive, hr']; rfl⟩

namespace Bearing

variable {b : Bearing} {r : Recorder} {p p' : Publisher} {ns : List Notice}

/-- What is told of rows and schemas does not touch on where an input stands. -/
theorem Fits.hear_news (hr : b.Fits r) (hns : sources ns = []) :
    b.Fits (ns.foldl Recorder.hear r) := by
  have hlast : (ns.foldl Recorder.hear r).lastSource = r.lastSource :=
    Recorder.lastSource_hear_of_none hns
  refine ⟨fun htrue => hr.told (hlast ▸ htrue), fun halt => ?_⟩
  rw [hlast]
  exact hr.knows (Recorder.alternates_of_hear halt)

/-- Who else is attached does not matter. -/
theorem InStep.congr (h : b.InStep p r) (hshown : p' = { p with inputs := p'.inputs }) :
    b.InStep p' r := by
  intro hatt htrue s hs
  rw [hshown] at hs ⊢
  exact h hatt htrue s hs

end Bearing

namespace Stage

theorem Attends.fits_heard {p : Publisher} {ns heard : List Notice} {d : Nat} {b : Bearing}
    {r : Recorder}
    (h : Attends p.replay ns heard d b) (hns : sources ns = []) (hr : Bearing.Fits ⟨true, 0⟩ r) :
    b.Fits (heard.foldl Recorder.hear r) := by
  cases h with
  | passedOver drift detached => exact drift.fits_heard hr
  | cut part_of drift =>
      have hleft : Bearing.Fits ⟨false, 1⟩ r :=
        ⟨fun _ => .inr Nat.one_pos, fun halt => ⟨fun _ => (hr.knows halt).1 (.inl rfl),
          fun hfalse => absurd hfalse Bool.false_ne_true, Nat.le_refl 1⟩⟩
      rw [List.foldl_append]
      exact drift.fits_heard (hleft.hear_news (sources_of_part part_of hns))
  | served drift =>
      rw [List.foldl_append]
      exact drift.fits_heard (hr.hear_news hns)

theorem Attends.inStep_heard {p : Publisher} {live : RowSet} {batch : Batch} {heard : List Notice}
    {d : Nat}
    {b : Bearing} {r : Recorder}
    (h : Attends (p.publish live batch).1.replay (p.publish live batch).2 heard d b)
    (hr : Bearing.InStep ⟨true, 0⟩ p r) :
    b.InStep (p.publish live batch).1 (heard.foldl Recorder.hear r) := by
  cases h with
  | passedOver drift detached => exact drift.inStep_heard (.inl detached)
  | cut part_of drift =>
      rw [List.foldl_append]
      exact drift.inStep_heard (.inr fun hfalse => absurd hfalse Bool.false_ne_true)
  | served drift =>
      rw [List.foldl_append]
      refine drift.inStep_heard (.inr fun hatt htrue => ?_)
      rw [Recorder.lastSource_hear_of_none (p.sources_publish live batch)] at htrue
      exact Recorder.shows_publish (hr hatt htrue) live batch

/-! ### Runs -/

structure Informed (st : Stage) (i : InputId) : Prop where
  fits : (st.bearing i).Fits (st.recorder i)
  inStep : (st.bearing i).InStep st.publisher (st.recorder i)

variable {st st' : Stage} {i : InputId} {t : List Entry}

theorem recorder_opening (shown : Option (Schema × RowSet))
    (scripts : AscMap InputId (List (Cue × List Action))) (i : InputId) :
    (opening shown scripts).recorder i = {} := by
  have hfresh : ∀ l : List (InputId × List (Cue × List Action)),
      ((AscMap.lookIn i (l.map fun e => (e.1, ({ script := e.2 } : Actor)))).getD {}).recorder =
        {} := by
    intro l
    induction l with
    | nil => rfl
    | cons e l ih =>
        rw [List.map_cons, AscMap.lookIn]
        split
        · rfl
        · exact ih
  exact hfresh scripts.toList

theorem informed_opening (shown : Option (Schema × RowSet))
    (scripts : AscMap InputId (List (Cue × List Action))) (i : InputId) :
    (opening shown scripts).Informed i := by
  have hbearing : (opening shown scripts).bearing i = ⟨false, 0⟩ := by cases shown <;> rfl
  constructor
  · rw [hbearing, recorder_opening]
    refine ⟨fun h => (by cases h), fun _ => ⟨fun h => ?_, fun h => (by cases h), Nat.zero_le 1⟩⟩
    rcases h with h | h
    · cases h
    · cases h
  · rw [hbearing]
    exact fun h => by cases h

theorem Informed.of_plays (h : st.Informed i) (hst : st.AtRest) (hplays : st.Plays quiet t st') :
    st'.Informed i := by
  have hdrift := hplays.drift i (by rw [hst.busy]; exact List.not_mem_nil)
  constructor
  · rw [hplays.recorder]
    exact hdrift.fits_heard h.fits
  · rw [hplays.recorder]
    exact (hdrift.inStep_heard (.inr h.inStep)).congr hplays.shown

theorem Informed.of_fires {live : RowSet} {batch : Batch} (h : st.Informed i) (hst : st.AtRest)
    (hfires : Fires live batch st t st') : st'.Informed i := by
  by_cases hi : i ∈ st.publisher.inputs
  · have hattends := hfires.attends i hi
    obtain ⟨hfits, hinStep⟩ := h
    rw [hst.bearing_of_mem hi] at hfits hinStep
    constructor
    · rw [hfires.recorder]
      exact hattends.fits_heard (st.publisher.sources_publish live batch) hfits
    · rw [hfires.recorder]
      exact (hattends.inStep_heard hinStep).congr hfires.shown
  · have hdrift := hfires.drift i hi
    constructor
    · rw [hfires.recorder]
      exact hdrift.fits_heard h.fits
    · rw [hfires.recorder]
      refine (hdrift.inStep_heard (.inr ?_)).congr hfires.shown
      rw [bearing_of_not_mem hi]
      exact fun hfalse => absurd hfalse Bool.false_ne_true

theorem Informed.turn (h : st.Informed i) (hst : st.AtRest) (x : Turn) : (st.turn x).Informed i := by
  cases x with
  | attach j =>
      obtain ⟨t, hplays⟩ := plays_turn_attach hst j
      exact h.of_plays hst hplays
  | detach j =>
      obtain ⟨t, hplays⟩ := plays_turn_detach hst j
      exact h.of_plays hst hplays
  | update schema => exact ⟨h.fits, h.inStep⟩
  | fire live batch =>
      obtain ⟨⟨t, -, hfires⟩, -⟩ := Stage.fires_fire (sound_tell st) live batch hst
      exact h.of_fires hst hfires

theorem informed_turns (shown : Option (Schema × RowSet))
    (scripts : AscMap InputId (List (Cue × List Action))) (xs : List Turn) (i : InputId) :
    ((opening shown scripts).turns xs).Informed i := by
  induction xs using List.reverseRecOn with
  | nil => exact informed_opening shown scripts i
  | append_singleton xs x ih =>
      rw [turns, List.foldl_append]
      exact ih.turn (atRest_turns shown scripts xs).1 x

/-- An input that was last told that it is attached is, and knows the schema and the rows that are
shown. -/
theorem attached_in_step (shown : Option (Schema × RowSet))
    (scripts : AscMap InputId (List (Cue × List Action))) (xs : List Turn) (i : InputId) :
    let st := (opening shown scripts).turns xs
    ((st.recorder i).lastSource = some true →
      i ∈ st.publisher.inputs ∧ (st.recorder i).Shows st.publisher) ∧
      ((st.recorder i).Alternates →
        (i ∈ st.publisher.inputs ↔ (st.recorder i).lastSource = some true) ∧
          (i ∈ st.publisher.inputs → (st.recorder i).Shows st.publisher)) := by
  intro st
  obtain ⟨hst, -⟩ := atRest_turns shown scripts xs
  obtain ⟨hfits, hinStep⟩ : st.Informed i := informed_turns shown scripts xs i
  have htold : (st.recorder i).lastSource = some true →
      i ∈ st.publisher.inputs ∧ (st.recorder i).Shows st.publisher := by
    intro htrue
    have hatt : st.publisher.isAttached i = true := by
      refine (hfits.told htrue).resolve_right fun howed => ?_
      -- an input that is still owed something knows that it is detached
      have hmem : i ∈ st.owed := List.count_pos_iff.mp howed
      exact (hst.settled i hmem (by rw [hst.busy]; exact List.not_mem_nil)).2 htrue
    exact ⟨Publisher.isAttached_iff.mp hatt, hinStep hatt htrue⟩
  refine ⟨htold, fun halt => ?_⟩
  have hknows : i ∈ st.publisher.inputs → (st.recorder i).lastSource = some true := fun hi =>
    (hfits.knows halt).1 (.inl (Publisher.isAttached_iff.mpr hi))
  exact ⟨⟨hknows, fun htrue => (htold htrue).1⟩, fun hi => (htold (hknows hi)).2⟩

/-- An input that detached itself in a pass and is attached again after it. -/
theorem attached_in_step_again :
    let st := (opening (some (.empty "s", .ofList [1]))
      (.ofList [(0, [(.added, []), (.added, [.detach 0])])])).turns
      [.attach 0, .fire ∅ { added := .ofList [2] }, .attach 0]
    0 ∈ st.publisher.inputs ∧ (st.recorder 0).Shows st.publisher := by
  intro st
  obtain ⟨-, hstep⟩ := attached_in_step (some (.empty "s", .ofList [1]))
    (.ofList [(0, [(.added, []), (.added, [.detach 0])])])
    [.attach 0, .fire ∅ { added := .ofList [2] }, .attach 0] 0
  have halternates : (st.recorder 0).Alternates := by
    rw [Recorder.Alternates]
    decide +kernel
  obtain ⟨hiff, hshows⟩ := hstep halternates
  have hatt : 0 ∈ st.publisher.inputs := hiff.mpr (by decide +kernel)
  exact ⟨hatt, hshows hatt⟩

/-- An input that detaches itself in a pass and is attached again by another one in the same pass is
told of the detachment last. -/
theorem attached_out_of_step :
    let st := (opening (some (.empty "s", .ofList [1]))
      (.ofList [(0, [(.added, []), (.added, [.detach 0])]),
        (1, [(.added, []), (.added, [.attach 0])])])).turns
      [.attach 0, .attach 1, .fire ∅ { added := .ofList [2] }]
    0 ∈ st.publisher.inputs ∧ (st.recorder 0).lastSource = some false ∧
      st.publisher.schema = some (.empty "s") ∧ st.publisher.rows = .ofList [1, 2] ∧
      (st.recorder 0).schema = none ∧ (st.recorder 0).live = ∅ := by
  decide +kernel

end Stage

end TableFeed
