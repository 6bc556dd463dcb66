import Mathlib
import TableFeed.Proofs.Cascade.InputState
/-!
What goes on while inputs act from inside what they are told. Whatever an action sets going, however
deep, comes to each input as a drift of moves, and to an input that is inside a notice it comes as
nothing but, at most, one detachment. This is shown for one way to tell at a time and then, by the
depth of actions, for all of them.
-/

namespace TableFeed

/-! ### Accounts -/

def heardBy (i : InputId) (t : List Entry) : List Notice :=
  t.filterMap fun
    | .heard j n => if j = i then some n else none
    | .did .. => none

def detachments (i : InputId) (t : List Entry) : Nat :=
  t.countP fun
    | .did _ (.detach j) (some true) => j = i
    | _ => false

theorem heardBy_append (i : InputId) (t t' : List Entry) :
    heardBy i (t ++ t') = heardBy i t ++ heardBy i t' := List.filterMap_append ..

theorem detachments_append (i : InputId) (t t' : List Entry) :
    detachments i (t ++ t') = detachments i t + detachments i t' := List.countP_append ..

theorem heardBy_heard (i j : InputId) (n : Notice) :
    heardBy i [.heard j n] = if j = i then [n] else [] := by
  by_cases h : j = i <;> simp [heardBy, h]

theorem detachments_did_detach (i j k : InputId) :
    detachments i [.did k (.detach j) (some true)] = if j = i then 1 else 0 := by
  by_cases h : j = i <;> simp [detachments, h]

theorem Publisher.isAttached_iff {p : Publisher} {i : InputId} :
    p.isAttached i = true ↔ i ∈ p.inputs := List.contains_iff_mem

namespace Stage

def recorder (st : Stage) (i : InputId) : Recorder := ((st.actors.find? i).getD {}).recorder

def bearing (st : Stage) (i : InputId) : Bearing :=
  ⟨st.publisher.isAttached i, st.owed.count i⟩

theorem bearing_owed {st : Stage} {owed : List InputId} {i : InputId} {n : Nat}
    (h : owed.count i = st.owed.count i + n) :
    ({ st with owed := owed } : Stage).bearing i = (st.bearing i).owe n := by
  rw [bearing, h]
  rfl

/-- What an account says of a stage before and after it, apart from the inputs' bearings. What is
noted of it and in which order does not matter here, except to each recorder. -/
structure Accounts (st : Stage) (t : List Entry) (st' : Stage) : Prop where
  firing : st'.firing = st.firing
  busy : st'.busy = st.busy
  shown : st'.publisher = { st.publisher with inputs := st'.publisher.inputs }
  nodup : st.publisher.inputs.Nodup → st'.publisher.inputs.Nodup
  recorder : ∀ i, st'.recorder i = (heardBy i t).foldl Recorder.hear (st.recorder i)
  skipped : ∀ i, i ∈ st'.skipped ↔ i ∈ st.skipped ∨ st.firing = true ∧ 0 < detachments i t

/-- What goes on while some inputs are inside a notice: these are told what is given, and the others
have drifts of their own. -/
structure Plays (told : InputId → List Notice) (st : Stage) (t : List Entry) (st' : Stage) : Prop
    extends Accounts st t st' where
  held : ∀ i ∈ st.busy, heardBy i t = told i ∧
    Held (st.bearing i) (detachments i t) (st'.bearing i)
  drift : ∀ i, i ∉ st.busy →
    Drift st.publisher.replay (st.bearing i) (heardBy i t) (detachments i t) (st'.bearing i)

def quiet : InputId → List Notice := fun _ => []

def only (i : InputId) (ns : List Notice) : InputId → List Notice := fun j => if j = i then ns else []

def Performs (told : InputId → List Notice) (st st' : Stage) : Prop :=
  ∃ t, st'.log = st.log ++ t ∧ st.Plays told t st'

theorem Accounts.replay {st st' : Stage} {t : List Entry} (h : st.Accounts t st') :
    st'.publisher.replay = st.publisher.replay := by
  rw [h.shown]
  rfl

theorem Accounts.trans {st st' st'' : Stage} {t t' : List Entry} (h : st.Accounts t st')
    (h' : st'.Accounts t' st'') : st.Accounts (t ++ t') st'' := by
  refine ⟨h'.firing.trans h.firing, h'.busy.trans h.busy, ?_, fun hnd => h'.nodup (h.nodup hnd),
    fun i => ?_, fun i => ?_⟩
  · rw [h'.shown, h.shown]
  · rw [h'.recorder, h.recorder, heardBy_append, List.foldl_append]
  · rw [h'.skipped, h.skipped, h.firing, detachments_append]
    constructor
    · rintro ((h | ⟨hf, h⟩) | ⟨hf, h⟩)
      · exact .inl h
      · exact .inr ⟨hf, by omega⟩
      · exact .inr ⟨hf, by omega⟩
    · rintro (h | ⟨hf, h⟩)
      · exact .inl (.inl h)
      · by_cases hpos : 0 < detachments i t
        · exact .inl (.inr ⟨hf, hpos⟩)
        · exact .inr ⟨hf, by omega⟩

theorem Accounts.refl (st : Stage) : st.Accounts [] st :=
  ⟨rfl, rfl, rfl, id, fun _ => rfl, fun i => by simp [detachments]⟩

namespace Plays

variable {told told' : InputId → List Notice} {st st' st'' : Stage} {t t' : List Entry}

theorem refl (st : Stage) : st.Plays quiet [] st :=
  ⟨.refl st, fun _ _ => ⟨rfl, .stay _⟩, fun _ _ => .stay _⟩

theorem trans (h : st.Plays told t st') (h' : st'.Plays told' t' st'') :
    st.Plays (fun i => told i ++ told' i) (t ++ t') st'' := by
  refine ⟨h.toAccounts.trans h'.toAccounts, fun i hi => ?_, fun i hi => ?_⟩
  · obtain ⟨hheard, hheld⟩ := h.held i hi
    obtain ⟨hheard', hheld'⟩ := h'.held i (h.busy ▸ hi)
    rw [heardBy_append, hheard, hheard', detachments_append]
    exact ⟨rfl, hheld.trans hheld'⟩
  · have hdrift' := h'.drift i (h.busy ▸ hi)
    rw [h.replay] at hdrift'
    rw [heardBy_append, detachments_append]
    exact (h.drift i hi).trans hdrift'

theorem congr (h : st.Plays told t st') (htold : ∀ i ∈ st.busy, told' i = told i)
    (hheard : ∀ i, heardBy i t' = heardBy i t)
    (hdetached : ∀ i, detachments i t' = detachments i t) : st.Plays told' t' st' := by
  refine ⟨⟨h.firing, h.busy, h.shown, h.nodup, fun i => ?_, fun i => ?_⟩, fun i hi => ?_,
    fun i hi => ?_⟩
  · rw [hheard]
    exact h.recorder i
  · rw [hdetached]
    exact h.skipped i
  · rw [hheard, hdetached, htold i hi]
    exact h.held i hi
  · rw [hheard, hdetached]
    exact h.drift i hi

theorem quiet_trans (h : st.Plays quiet t st') (h' : st'.Plays quiet t' st'') :
    st.Plays quiet (t ++ t') st'' :=
  (h.trans h').congr (fun _ _ => rfl) (fun _ => rfl) fun _ => rfl

theorem note_iff {e : Entry} : st.Plays told t (st'.note e) ↔ st.Plays told t st' :=
  ⟨fun h => ⟨⟨h.firing, h.busy, h.shown, h.nodup, h.recorder, h.skipped⟩, h.held, h.drift⟩,
    fun h => ⟨⟨h.firing, h.busy, h.shown, h.nodup, h.recorder, h.skipped⟩, h.held, h.drift⟩⟩

/-- The same with more owed to some inputs from before. -/
theorem owe (h : st.Plays told t st') (owed owed' : List InputId) (more : InputId → Nat)
    (hbefore : ∀ i, owed.count i = st.owed.count i + more i)
    (hafter : ∀ i, owed'.count i = st'.owed.count i + more i) :
    ({ st with owed := owed } : Stage).Plays told t { st' with owed := owed' } := by
  refine ⟨⟨h.firing, h.busy, h.shown, h.nodup, h.recorder, h.skipped⟩, fun i hi => ?_,
    fun i hi => ?_⟩
  · rw [bearing_owed (hbefore i), bearing_owed (hafter i)]
    exact ⟨(h.held i hi).1, (h.held i hi).2.owe _⟩
  · rw [bearing_owed (hbefore i), bearing_owed (hafter i)]
    exact (h.drift i hi).owe _

end Plays

namespace Performs

variable {told told' : InputId → List Notice} {st st' st'' : Stage}

theorem refl (st : Stage) : st.Performs quiet st := ⟨[], (List.append_nil _).symm, .refl st⟩

theorem trans (h : st.Performs told st') (h' : st'.Performs told' st'') :
    st.Performs (fun i => told i ++ told' i) st'' := by
  obtain ⟨t, hlog, hplays⟩ := h
  obtain ⟨t', hlog', hplays'⟩ := h'
  exact ⟨t ++ t', by rw [hlog', hlog, List.append_assoc], hplays.trans hplays'⟩

theorem quiet_trans (h : st.Performs quiet st') (h' : st'.Performs quiet st'') :
    st.Performs quiet st'' := h.trans h'

end Performs

/-! ### Ways to tell -/

/-- A state in which no input that is inside no notice is owed anything, unless it knows that it is
detached. It is not asked for during a pass. -/
def Settled (st : Stage) : Prop :=
  ∀ i ∈ st.owed, i ∉ st.busy →
    st.publisher.isAttached i = false ∧ (st.recorder i).lastSource ≠ some true

/-- What is asked of a way to tell an input that is inside a notice. -/
structure Sound (tell : Tell) : Prop where
  performs : ∀ i n (st : Stage), i ∈ st.busy → st.publisher.inputs.Nodup →
    st.Performs (only i [n]) (tell i n st)
  settled : ∀ i n (st : Stage), i ∈ st.busy → st.publisher.inputs.Nodup → st.firing = false → st.Settled →
    (tell i n st).Settled

def tells (tell : Tell) (i : InputId) (ns : List Notice) (st : Stage) : Stage :=
  ns.foldl (fun st n => tell i n st) st

theorem tellAll_eq (tell : Tell) (i : InputId) (ns : List Notice) (st : Stage) :
    tellAll tell i ns st = { tells tell i ns { st with busy := i :: st.busy } with busy := st.busy } :=
  rfl

variable {tell : Tell}

theorem performs_tells (htell : Sound tell) {i : InputId} {st : Stage} (hi : i ∈ st.busy)
    (hnodup : st.publisher.inputs.Nodup) (ns : List Notice) :
    st.Performs (only i ns) (tells tell i ns st) := by
  induction ns generalizing st with
  | nil =>
      have hnone : only i [] = quiet := by
        funext j
        rw [only, ite_self]
        rfl
      rw [hnone]
      exact .refl st
  | cons n ns ih =>
      obtain ⟨t, hlog, hplays⟩ := htell.performs i n st hi hnodup
      have hi' : i ∈ (tell i n st).busy := hplays.busy ▸ hi
      have hrest := ih hi' (hplays.nodup hnodup)
      have hboth : (fun j => only i [n] j ++ only i ns j) = only i (n :: ns) := by
        funext j
        by_cases hj : j = i <;> simp [only, hj]
      rw [← hboth]
      exact Performs.trans ⟨t, hlog, hplays⟩ hrest

theorem settled_tells (htell : Sound tell) {i : InputId} {st : Stage} (hi : i ∈ st.busy)
    (hnodup : st.publisher.inputs.Nodup) (hfiring : st.firing = false) (hst : st.Settled)
    (ns : List Notice) : (tells tell i ns st).Settled := by
  induction ns generalizing st with
  | nil => exact hst
  | cons n ns ih =>
      obtain ⟨t, -, hplays⟩ := htell.performs i n st hi hnodup
      exact ih (hplays.busy ▸ hi) (hplays.nodup hnodup) (hplays.firing.trans hfiring)
        (htell.settled i n st hi hnodup hfiring hst)

/-! ### Inputs that enter and leave a notice -/

/-- An input that was inside no notice is inside one, and all else is as it was but for its own
bearing and for inputs that are passed over. -/
structure Enters (i : InputId) (st start : Stage) : Prop where
  busy : start.busy = i :: st.busy
  idle : i ∉ st.busy
  firing : start.firing = st.firing
  shown : start.publisher = { st.publisher with inputs := start.publisher.inputs }
  nodup : st.publisher.inputs.Nodup → start.publisher.inputs.Nodup
  recorder : ∀ j, start.recorder j = st.recorder j
  bearing : ∀ j, j ≠ i → start.bearing j = st.bearing j

/-- The input leaves the notice again. What it has heard and how it was detached, before and
inside it, make up a move. -/
theorem Enters.plays_callback {i : InputId} {st start after : Stage} {t t' : List Entry}
    {ns : List Notice}
    (henter : Enters i st start) (h : start.Plays (only i ns) t after)
    (hheard : ∀ j, heardBy j t' = heardBy j t)
    (hdetached : ∀ j, j ≠ i → detachments j t' = detachments j t)
    (hskipped : ∀ j, j ∈ after.skipped ↔ j ∈ st.skipped ∨ st.firing = true ∧ 0 < detachments j t')
    (hmove : Held (start.bearing i) (detachments i t) (after.bearing i) →
      Drift st.publisher.replay (st.bearing i) ns (detachments i t') (after.bearing i)) :
    st.Plays quiet t' { after with busy := st.busy } := by
  have hbusy : ∀ {j}, j ∈ start.busy ↔ j = i ∨ j ∈ st.busy := by
    intro j
    rw [henter.busy, List.mem_cons]
  have hreplay : start.publisher.replay = st.publisher.replay := by
    rw [henter.shown]
    rfl
  refine ⟨⟨h.firing.trans henter.firing, rfl, ?_, fun hnd => h.nodup (henter.nodup hnd),
    fun j => ?_, hskipped⟩, fun j hj => ?_, fun j hj => ?_⟩
  · show after.publisher = _
    rw [h.shown, henter.shown]
  · rw [hheard, ← henter.recorder]
    exact h.recorder j
  · have hne : j ≠ i := fun heq => henter.idle (heq ▸ hj)
    obtain ⟨htold, hheld⟩ := h.held j (hbusy.mpr (.inr hj))
    rw [only, if_neg hne] at htold
    rw [henter.bearing j hne] at hheld
    rw [hheard, hdetached j hne]
    exact ⟨htold, hheld⟩
  · by_cases hne : j = i
    · subst hne
      obtain ⟨htold, hheld⟩ := h.held j (hbusy.mpr (.inl rfl))
      rw [only, if_pos rfl] at htold
      rw [hheard, htold]
      exact hmove hheld
    · have hdrift := h.drift j fun hmem => (hbusy.mp hmem).elim hne hj
      rw [henter.bearing j hne, hreplay] at hdrift
      rw [hheard, hdetached j hne]
      exact hdrift

/-! ### Settling -/

def settleOne (tell : Tell) (acc : Stage × List InputId) (i : InputId) : Stage × List InputId :=
  if i ∈ acc.1.busy then (acc.1, acc.2 ++ [i]) else (tellAll tell i Publisher.farewell acc.1, acc.2)

theorem settle_eq (tell : Tell) (st : Stage) :
    settle tell st =
      { (st.owed.foldl (settleOne tell) ({ st with owed := [] }, [])).1 with
        owed := (st.owed.foldl (settleOne tell) ({ st with owed := [] }, [])).1.owed ++
          (st.owed.foldl (settleOne tell) ({ st with owed := [] }, [])).2 } := rfl

/-- An input that is told the first of what is owed: what it is owed then is one less. -/
theorem enters_owed {i : InputId} {st : Stage} (hi : i ∉ st.busy) (due : List InputId) :
    Enters i { st with owed := st.owed ++ i :: due }
      { st with busy := i :: st.busy, owed := st.owed ++ due } := by
  refine ⟨rfl, hi, rfl, rfl, id, fun _ => rfl, fun j hj => ?_⟩
  simp [bearing, List.count_append, Ne.symm hj]

theorem bearing_owed_cons (i : InputId) (st : Stage) (due : List InputId) :
    ({ st with owed := st.owed ++ i :: due } : Stage).bearing i =
      ⟨st.publisher.isAttached i, (st.owed ++ due).count i + 1⟩ := by
  simp only [bearing, List.count_append, List.count_cons_self]
  rfl

/-- An input that is inside no notice is told what it is owed, first of those that are left. -/
theorem plays_farewell (htell : Sound tell) {i : InputId} {st : Stage} (hi : i ∉ st.busy)
    (hnodup : st.publisher.inputs.Nodup) :
    ∃ t, (tellAll tell i Publisher.farewell st).log = st.log ++ t ∧ ∀ due,
      ({ st with owed := st.owed ++ i :: due } : Stage).Plays quiet t
        { tellAll tell i Publisher.farewell st with
          owed := (tellAll tell i Publisher.farewell st).owed ++ due } := by
  have hmem : i ∈ ({ st with busy := i :: st.busy } : Stage).busy := List.mem_cons_self
  obtain ⟨t, hlog, hplays⟩ := performs_tells htell hmem hnodup Publisher.farewell
  refine ⟨t, hlog, fun due => ?_⟩
  have howing := hplays.owe (st.owed ++ due) _ (fun j => due.count j) (fun j => List.count_append ..)
    fun j => List.count_append ..
  refine (enters_owed hi due).plays_callback howing (fun _ => rfl) (fun _ _ => rfl) howing.skipped
    fun hheld => ?_
  rw [bearing_owed_cons]
  exact .of_held hheld

/-- An input that was told farewell knows that it is detached, and if it is owed more, it is. -/
theorem settled_farewell (htell : Sound tell) {i : InputId} {st : Stage} (hi : i ∉ st.busy)
    (hnodup : st.publisher.inputs.Nodup) (hfiring : st.firing = false) (hst : st.Settled) :
    (tellAll tell i Publisher.farewell st).Settled := by
  obtain ⟨start, hstart⟩ : ∃ start, ({ st with busy := i :: st.busy } : Stage) = start := ⟨_, rfl⟩
  have hmem : i ∈ start.busy := hstart ▸ List.mem_cons_self
  have hsettled : start.Settled := by
    subst hstart
    exact fun j hj hidle => hst j hj fun hbusy => hidle (List.mem_cons_of_mem _ hbusy)
  have hafter := settled_tells htell hmem (hstart ▸ hnodup) (hstart ▸ hfiring) hsettled
    Publisher.farewell
  obtain ⟨t, -, hplays⟩ := performs_tells htell hmem (hstart ▸ hnodup) Publisher.farewell
  rw [tellAll_eq, hstart]
  intro j howed hidle
  by_cases hj : j = i
  · subst hj
    obtain ⟨hheard, hheld⟩ := hplays.held j hmem
    rw [only, if_pos rfl] at hheard
    constructor
    · refine hheld.detached (fun hbefore => ?_) (List.count_pos_iff.mpr howed)
      subst hstart
      exact (hst j (List.count_pos_iff.mp hbefore) hi).1
    · show ((tells tell j Publisher.farewell start).recorder j).lastSource ≠ some true
      rw [hplays.recorder, hheard, Recorder.lastSource_hear sources_farewell]
      decide
  · refine hafter j howed fun hbusy => ?_
    rw [hplays.busy, ← hstart] at hbusy
    exact (List.mem_cons.mp hbusy).elim hj hidle

/-- A way to account for what goes on: accounts can be put together, and stay the same with more
owed to some inputs from before. -/
structure Composes (R : Stage → List Entry → Stage → Prop) : Prop where
  refl : ∀ st, R st [] st
  trans : ∀ {st st' st'' t t'}, R st t st' → R st' t' st'' → R st (t ++ t') st''
  owe : ∀ {st st' t}, R st t st' → ∀ (owed owed' : List InputId) (more : InputId → Nat),
    (∀ i, owed.count i = st.owed.count i + more i) →
    (∀ i, owed'.count i = st'.owed.count i + more i) →
      R { st with owed := owed } t { st' with owed := owed' }
  busy : ∀ {st st' t}, R st t st' → st'.busy = st.busy
  nodup : ∀ {st st' t}, R st t st' → st.publisher.inputs.Nodup → st'.publisher.inputs.Nodup

theorem composes_plays : Composes (Plays quiet) :=
  ⟨.refl, .quiet_trans, .owe, fun h => h.busy, fun h => h.nodup⟩

/-- Settling is accounted for if every farewell is, and it keeps up what each of them does. -/
theorem Composes.settleAll {R : Stage → List Entry → Stage → Prop} (hR : Composes R)
    {P : Stage → Prop}
    (hfarewell : ∀ i (st : Stage), i ∉ st.busy → st.publisher.inputs.Nodup →
      (∃ t, (tellAll tell i Publisher.farewell st).log = st.log ++ t ∧ ∀ due,
        R { st with owed := st.owed ++ i :: due } t
          { tellAll tell i Publisher.farewell st with
            owed := (tellAll tell i Publisher.farewell st).owed ++ due }) ∧
        (P st → P (tellAll tell i Publisher.farewell st)))
    (due : List InputId) (st : Stage) (hnodup : st.publisher.inputs.Nodup) (kept : List InputId) :
    ∃ after t, due.foldl (settleOne tell) (st, kept) =
        (after, kept ++ due.filter (· ∈ st.busy)) ∧ after.log = st.log ++ t ∧
      R { st with owed := st.owed ++ due } t
        { after with owed := after.owed ++ due.filter (· ∈ st.busy) } ∧ (P st → P after) := by
  induction due generalizing st kept with
  | nil => exact ⟨st, [], by simp, by simp, by simpa using hR.refl _, id⟩
  | cons i due ih =>
      by_cases hi : i ∈ st.busy
      · obtain ⟨after, t, hfold, hlog, haccount, hkeep⟩ := ih st hnodup (kept ++ [i])
        refine ⟨after, t, ?_, hlog, ?_, hkeep⟩
        · rw [List.foldl_cons, settleOne, if_pos hi, hfold, List.filter_cons_of_pos (by simpa using hi),
            List.append_assoc]
          rfl
        · rw [List.filter_cons_of_pos (by simpa using hi)]
          refine hR.owe haccount _ _ (fun j => [i].count j) (fun j => ?_) (fun j => ?_)
          all_goals
            simp only [List.count_append, List.count_cons, List.count_nil]
            omega
      · obtain ⟨⟨t, hlog, haccounts⟩, hfirst⟩ := hfarewell i st hi hnodup
        obtain ⟨st', hst'⟩ : ∃ st', tellAll tell i Publisher.farewell st = st' := ⟨_, rfl⟩
        rw [hst'] at hlog haccounts hfirst
        have haccount := haccounts due
        have hsame := hR.busy haccount
        have hnodup' := hR.nodup haccount hnodup
        have hbusy : due.filter (· ∈ st'.busy) = due.filter (· ∈ st.busy) := by
          rw [show st'.busy = st.busy from hsame]
        obtain ⟨after, t', hfold, hlog', haccount', hkeep⟩ := ih st' hnodup' kept
        rw [hbusy] at hfold haccount'
        refine ⟨after, t ++ t', ?_, ?_, ?_, fun h => hkeep (hfirst h)⟩
        · rw [List.foldl_cons, settleOne, if_neg hi, hst', hfold,
            List.filter_cons_of_neg (by simpa using hi)]
        · rw [hlog', hlog, List.append_assoc]
        · rw [List.filter_cons_of_neg (by simpa using hi)]
          exact hR.trans haccount haccount'

theorem plays_settleAll (htell : Sound tell) (due : List InputId) (st : Stage)
    (hnodup : st.publisher.inputs.Nodup) (kept : List InputId) :
    ∃ after t, due.foldl (settleOne tell) (st, kept) =
        (after, kept ++ due.filter (· ∈ st.busy)) ∧ after.log = st.log ++ t ∧
      ({ st with owed := st.owed ++ due } : Stage).Plays quiet t
        { after with owed := after.owed ++ due.filter (· ∈ st.busy) } ∧
      (st.firing = false ∧ st.Settled → after.firing = false ∧ after.Settled) := by
  refine composes_plays.settleAll (P := fun st => st.firing = false ∧ st.Settled)
    (fun i st hi hnodup => ?_) due st hnodup kept
  obtain ⟨t, hlog, hplays⟩ := plays_farewell htell hi hnodup
  exact ⟨⟨t, hlog, hplays⟩, fun h => ⟨(hplays []).firing.trans h.1,
    settled_farewell htell hi hnodup h.1 h.2⟩⟩

theorem performs_settle (htell : Sound tell) {st : Stage} (hnodup : st.publisher.inputs.Nodup) :
    st.Performs quiet (settle tell st) := by
  obtain ⟨after, t, hfold, hlog, hplays, -⟩ :=
    plays_settleAll htell st.owed { st with owed := [] } hnodup []
  rw [settle_eq, hfold]
  exact ⟨t, hlog, hplays⟩

/-- Whatever was owed before, settling leaves a settled state. -/
theorem settled_settle (htell : Sound tell) {st : Stage} (hnodup : st.publisher.inputs.Nodup)
    (hfiring : st.firing = false) : (settle tell st).Settled := by
  obtain ⟨after, t, hfold, -, hplays, hsettles⟩ :=
    plays_settleAll htell st.owed { st with owed := [] } hnodup []
  obtain ⟨-, hsettled⟩ := hsettles ⟨hfiring, fun j hj => absurd hj List.not_mem_nil⟩
  rw [settle_eq, hfold]
  intro i hi hidle
  have hbusy : after.busy = st.busy := hplays.busy
  rcases List.mem_append.mp hi with hi | hi
  · exact hsettled i hi hidle
  · rw [List.nil_append, List.mem_filter] at hi
    exact absurd (of_decide_eq_true hi.2) (hbusy ▸ hidle)

theorem performs_settleUnlessFiring (htell : Sound tell) {st : Stage}
    (hnodup : st.publisher.inputs.Nodup) : st.Performs quiet (settleUnlessFiring tell st) := by
  rw [settleUnlessFiring]
  split
  · exact .refl st
  · exact performs_settle htell hnodup

theorem settled_settleUnlessFiring (htell : Sound tell) {st : Stage}
    (hnodup : st.publisher.inputs.Nodup) (hfiring : st.firing = false) :
    (settleUnlessFiring tell st).Settled := by
  rw [settleUnlessFiring, if_neg (by rw [hfiring]; exact Bool.false_ne_true)]
  exact settled_settle htell hnodup hfiring

/-! ### Attaching -/

def replayTo (tell : Tell) (i : InputId) (start : Stage) : Stage :=
  match (tell i (.source true) start).publisher.schema with
  | none => tell i (.source true) start
  | some s =>
    if (tell i (.schema (some s)) (tell i (.source true) start)).publisher.isAttached i then
      tells tell i (tell i (.schema (some s)) (tell i (.source true) start)).publisher.replayRows
        (tell i (.schema (some s)) (tell i (.source true) start))
    else tell i (.schema (some s)) (tell i (.source true) start)

theorem replayTo_of_none {i : InputId} {start : Stage}
    (h : (tell i (.source true) start).publisher.schema = none) :
    replayTo tell i start = tell i (.source true) start := by
  simp only [replayTo, h]

theorem replayTo_of_some {i : InputId} {start named : Stage} {s : Schema}
    (h : (tell i (.source true) start).publisher.schema = some s)
    (hnamed : tell i (.schema (some s)) (tell i (.source true) start) = named) :
    replayTo tell i start =
      if named.publisher.isAttached i then tells tell i named.publisher.replayRows named else named := by
  simp only [replayTo, h, hnamed]

theorem attach_eq (tell : Tell) (i : InputId) (st : Stage) :
    attach tell i st =
      if st.publisher.isAttached i || st.busy.contains i then st
      else settleUnlessFiring tell
        { replayTo tell i { st with publisher := st.publisher.attach i, busy := i :: st.busy } with
          busy := st.busy } := rfl

/-- The input is told the replay from its beginning, and all of it if it is attached then. -/
theorem performs_replayTo (htell : Sound tell) {i : InputId} {start : Stage} (hi : i ∈ start.busy)
    (hnodup : start.publisher.inputs.Nodup) :
    ∃ ns, start.Performs (only i (.source true :: ns)) (replayTo tell i start) ∧
      .source true :: ns <+: start.publisher.replay ∧
      ((replayTo tell i start).publisher.isAttached i = true →
        .source true :: ns = start.publisher.replay) := by
  have hall := fun ns => performs_tells htell hi hnodup ns
  have hshown : ∀ {st' : Stage} {ns}, start.Performs (only i ns) st' →
      st'.publisher.schema = start.publisher.schema ∧
        st'.publisher.replayRows = start.publisher.replayRows := by
    rintro st' ns ⟨t, -, hplays⟩
    rw [hplays.shown]
    exact ⟨rfl, rfl⟩
  have hschema : (tell i (.source true) start).publisher.schema = start.publisher.schema :=
    (hshown (hall [.source true])).1
  rw [replayTo, Publisher.replay, hschema]
  cases start.publisher.schema with
  | none => exact ⟨[], hall [.source true], List.prefix_refl _, fun _ => rfl⟩
  | some s =>
      have hrows : (tell i (.schema (some s)) (tell i (.source true) start)).publisher.replayRows =
          start.publisher.replayRows := (hshown (hall [.source true, .schema (some s)])).2
      dsimp only
      rw [hrows]
      split
      · -- the rows are told as well
        refine ⟨_, ?_, List.prefix_refl _, fun _ => rfl⟩
        exact hall (.source true :: .schema (some s) :: start.publisher.replayRows)
      · next hnot =>
        refine ⟨[.schema (some s)], hall [.source true, .schema (some s)],
          ⟨start.publisher.replayRows, rfl⟩, fun hatt => ?_⟩
        exact absurd hatt hnot

def enroll (i : InputId) (st : Stage) : Stage :=
  { st with publisher := st.publisher.attach i, busy := i :: st.busy }

theorem enters_enroll {i : InputId} {st : Stage} (hnodup : st.publisher.inputs.Nodup)
    (hatt : ¬ st.publisher.isAttached i = true) (hi : i ∉ st.busy) : Enters i st (enroll i st) := by
  have hinputs : st.publisher.attach i = { st.publisher with inputs := st.publisher.inputs ++ [i] } :=
    if_neg hatt
  refine ⟨rfl, hi, rfl, ?_, fun _ => Publisher.nodup_attach hnodup i, fun _ => rfl, fun j hj => ?_⟩
  · rw [enroll, hinputs]
  · simp [enroll, bearing, hinputs, Publisher.isAttached, hj]

theorem bearing_enroll {i : InputId} {st : Stage} (hatt : ¬ st.publisher.isAttached i = true) :
    (enroll i st).bearing i = ⟨true, st.owed.count i⟩ := by
  have hinputs : st.publisher.attach i = { st.publisher with inputs := st.publisher.inputs ++ [i] } :=
    if_neg hatt
  simp [enroll, bearing, hinputs, Publisher.isAttached]

theorem performs_replayed (htell : Sound tell) {i : InputId} {st : Stage}
    (hnodup : st.publisher.inputs.Nodup) (hatt : ¬ st.publisher.isAttached i = true)
    (hi : i ∉ st.busy) : st.Performs quiet { replayTo tell i (enroll i st) with busy := st.busy } := by
  have henter := enters_enroll hnodup hatt hi
  have hmem : i ∈ (enroll i st).busy := List.mem_cons_self
  obtain ⟨ns, ⟨t, hlog, hplays⟩, hprefix, hwhole⟩ :=
    performs_replayTo htell hmem (henter.nodup hnodup)
  have hreplay : (enroll i st).publisher.replay = st.publisher.replay := by
    rw [henter.shown]
    rfl
  have hbefore : st.bearing i = ⟨false, st.owed.count i⟩ := by
    rw [bearing, Bool.eq_false_iff.mpr hatt]
  have hentered := bearing_enroll hatt
  refine ⟨t, hlog, henter.plays_callback hplays (fun _ => rfl) (fun _ _ => rfl) hplays.skipped
    fun hheld => ?_⟩
  rw [hbefore]
  rw [hentered] at hheld
  generalize hafter : (replayTo tell i (enroll i st)).bearing i = b, detachments i t = d at hheld ⊢
  cases hheld with
  | stay =>
      have hatt' : (replayTo tell i (enroll i st)).publisher.isAttached i = true :=
        congrArg Bearing.attached hafter
      rw [hwhole hatt', hreplay]
      exact .attach _
  | leave => exact .attachAndLeave _ (hreplay ▸ hprefix)

theorem Performs.nodup {told : InputId → List Notice} {st st' : Stage} (h : st.Performs told st')
    (hnodup : st.publisher.inputs.Nodup) : st'.publisher.inputs.Nodup := by
  obtain ⟨t, -, hplays⟩ := h
  exact hplays.nodup hnodup

theorem Performs.firing {told : InputId → List Notice} {st st' : Stage} (h : st.Performs told st') :
    st'.firing = st.firing := by
  obtain ⟨t, -, hplays⟩ := h
  exact hplays.firing

theorem attach_cases (tell : Tell) (i : InputId) (st : Stage) :
    attach tell i st = st ∨ ¬ st.publisher.isAttached i = true ∧ i ∉ st.busy ∧
      attach tell i st =
        settleUnlessFiring tell { replayTo tell i (enroll i st) with busy := st.busy } := by
  rw [attach_eq]
  split
  · exact .inl rfl
  · next hnot =>
    rw [Bool.or_eq_true, not_or, List.contains_iff_mem] at hnot
    exact .inr ⟨hnot.1, hnot.2, rfl⟩

theorem performs_attach (htell : Sound tell) (i : InputId) {st : Stage}
    (hnodup : st.publisher.inputs.Nodup) : st.Performs quiet (attach tell i st) := by
  rcases attach_cases tell i st with hsame | ⟨hatt, hi, hattach⟩
  · rw [hsame]
    exact .refl st
  · have hreplayed := performs_replayed htell hnodup hatt hi
    rw [hattach]
    exact hreplayed.quiet_trans (performs_settleUnlessFiring htell (hreplayed.nodup hnodup))

theorem settled_attach (htell : Sound tell) (i : InputId) {st : Stage}
    (hnodup : st.publisher.inputs.Nodup) (hfiring : st.firing = false) (hst : st.Settled) :
    (attach tell i st).Settled := by
  rcases attach_cases tell i st with hsame | ⟨hatt, hi, hattach⟩
  · rwa [hsame]
  · have hreplayed := performs_replayed htell hnodup hatt hi
    rw [hattach]
    exact settled_settleUnlessFiring htell (hreplayed.nodup hnodup) (hreplayed.firing.trans hfiring)

/-! ### Detaching -/

def gone (i : InputId) (st : Stage) : Stage :=
  { st with publisher := st.publisher.detach i
            skipped := if st.firing then i :: st.skipped else st.skipped }

def leave (tell : Tell) (i : InputId) (st : Stage) : Stage :=
  if i ∈ st.busy then { gone i st with owed := st.owed ++ [i] }
  else tellAll tell i Publisher.farewell (gone i st)

theorem detach_eq (tell : Tell) (i : InputId) (st : Stage) :
    detach tell i st =
      if st.publisher.isAttached i then (settleUnlessFiring tell (leave tell i st), true)
      else (st, false) := rfl

theorem bearing_gone {i : InputId} {st : Stage} (hnodup : st.publisher.inputs.Nodup) :
    (gone i st).bearing i = ⟨false, st.owed.count i⟩ := by
  have hleft : (st.publisher.detach i).isAttached i = false := by
    rw [Bool.eq_false_iff, ne_eq, Publisher.isAttached_iff]
    exact fun hmem => (hnodup.mem_erase_iff.mp hmem).1 rfl
  simp only [gone, bearing, hleft]

theorem bearing_gone_of_ne {i j : InputId} (st : Stage) (hj : j ≠ i) :
    (gone i st).bearing j = st.bearing j := by
  have hsame : (st.publisher.detach i).isAttached j = st.publisher.isAttached j := by
    rw [Bool.eq_iff_iff, Publisher.isAttached_iff, Publisher.isAttached_iff]
    exact List.mem_erase_of_ne hj
  simp only [gone, bearing, hsame]

/-- The inputs that are passed over after a detachment and what goes on with it. -/
theorem mem_skipped_gone (i j k : InputId) (st : Stage) (t : List Entry) :
    j ∈ (gone i st).skipped ∨ st.firing = true ∧ 0 < detachments j t ↔
      j ∈ st.skipped ∨ st.firing = true ∧
        0 < detachments j (t ++ [.did k (.detach i) (some true)]) := by
  rw [detachments_append, detachments_did_detach, gone]
  by_cases hj : i = j
  · cases st.firing <;> simp [hj]
  · cases st.firing <;> simp [hj, Ne.symm hj]

theorem heardBy_did (i j k : InputId) (t : List Entry) :
    heardBy j (t ++ [.did k (.detach i) (some true)]) = heardBy j t := by
  rw [heardBy_append]
  exact List.append_nil _

theorem detachments_did_of_ne {i j : InputId} (hj : j ≠ i) (k : InputId) (t : List Entry) :
    detachments j (t ++ [.did k (.detach i) (some true)]) = detachments j t := by
  rw [detachments_append, detachments_did_detach, if_neg (Ne.symm hj), Nat.add_zero]

theorem detachments_did_self (i k : InputId) (t : List Entry) :
    detachments i (t ++ [.did k (.detach i) (some true)]) = detachments i t + 1 := by
  rw [detachments_append, detachments_did_detach, if_pos rfl]

theorem enters_gone {i : InputId} {st : Stage} (hi : i ∉ st.busy) :
    Enters i st { gone i st with busy := i :: st.busy } :=
  ⟨rfl, hi, rfl, rfl, fun hnodup => hnodup.erase i, fun _ => rfl, fun _ hj => bearing_gone_of_ne st hj⟩

/-- An input that is owed the notices of its detachment. -/
theorem bearing_gone_owed {i : InputId} {st : Stage} (hnodup : st.publisher.inputs.Nodup) :
    ({ gone i st with owed := st.owed ++ [i] } : Stage).bearing i = ⟨false, st.owed.count i + 1⟩ := by
  have hleft := congrArg Bearing.attached (bearing_gone (i := i) hnodup)
  rw [bearing, List.count_append, List.count_singleton_self]
  exact congrArg (Bearing.mk · _) hleft

theorem bearing_gone_owed_of_ne {i j : InputId} (st : Stage) (hj : j ≠ i) :
    ({ gone i st with owed := st.owed ++ [i] } : Stage).bearing j = st.bearing j := by
  rw [← bearing_gone_of_ne st hj]
  simp [bearing, gone, Ne.symm hj]

theorem plays_leave (htell : Sound tell) {i : InputId} {st : Stage}
    (hnodup : st.publisher.inputs.Nodup) (hatt : st.publisher.isAttached i = true) (k : InputId) :
    ∃ t, (leave tell i st).log = st.log ++ t ∧
      st.Plays quiet (t ++ [.did k (.detach i) (some true)]) (leave tell i st) := by
  have hbefore : st.bearing i = ⟨true, st.owed.count i⟩ := by rw [bearing, hatt]
  rw [leave]
  split
  · -- it is owed the notices
    next hi =>
    refine ⟨[], (List.append_nil _).symm, ⟨rfl, rfl, rfl, fun hnd => hnd.erase i, fun _ => rfl,
      fun j => ?_⟩, fun j _ => ⟨rfl, ?_⟩, fun j hj => ?_⟩
    · rw [← mem_skipped_gone]
      simp [detachments, gone]
    · by_cases hj : j = i
      · subst hj
        rw [hbefore, bearing_gone_owed hnodup, detachments_did_self]
        exact .leave _
      · rw [bearing_gone_owed_of_ne st hj, detachments_did_of_ne hj]
        exact .stay _
    · have hne : j ≠ i := fun heq => hj (heq ▸ hi)
      rw [bearing_gone_owed_of_ne st hne, detachments_did_of_ne hne]
      exact .stay _
  · -- it is told at once
    next hi =>
    have henter := enters_gone hi
    have hmem : i ∈ ({ gone i st with busy := i :: st.busy } : Stage).busy := List.mem_cons_self
    obtain ⟨t, hlog, hplays⟩ := performs_tells htell hmem (henter.nodup hnodup) Publisher.farewell
    refine ⟨t, hlog, henter.plays_callback hplays (fun j => heardBy_did i j k t)
      (fun j hj => detachments_did_of_ne hj k t) ?_ fun hheld => ?_⟩
    · intro j
      rw [← mem_skipped_gone]
      exact hplays.skipped j
    · have hentered : ({ gone i st with busy := i :: st.busy } : Stage).bearing i =
          ⟨false, st.owed.count i⟩ := bearing_gone hnodup
      rw [hentered] at hheld
      obtain ⟨hsame, hnone⟩ := hheld.not_attached rfl
      rw [hbefore, detachments_did_self, hnone]
      exact hsame ▸ .detach _

theorem performs_detach (htell : Sound tell) (i k : InputId) {st : Stage}
    (hnodup : st.publisher.inputs.Nodup) :
    st.Performs quiet ((detach tell i st).1.note (.did k (.detach i) (some (detach tell i st).2))) := by
  rw [detach_eq]
  split
  · next hatt =>
    obtain ⟨t, hlog, hplays⟩ := plays_leave htell hnodup hatt k
    obtain ⟨t', hlog', hplays'⟩ := performs_settleUnlessFiring htell (hplays.nodup hnodup)
    refine ⟨t ++ t' ++ [.did k (.detach i) (some true)], ?_, ?_⟩
    · simp only [note, hlog', hlog, List.append_assoc]
    · refine (Plays.note_iff.mpr (hplays.quiet_trans hplays')).congr (fun _ _ => rfl)
        (fun j => ?_) fun j => ?_
      · rw [heardBy_did, heardBy_append, heardBy_append, heardBy_did]
      · simp only [detachments_append]
        omega
  · exact ⟨[_], rfl, (Plays.note_iff.mpr (.refl st)).congr (fun _ _ => rfl) (fun _ => rfl) fun _ => rfl⟩

theorem settled_detach (htell : Sound tell) (i : InputId) {st : Stage}
    (hnodup : st.publisher.inputs.Nodup) (hfiring : st.firing = false) (hst : st.Settled) :
    (detach tell i st).1.Settled := by
  rw [detach_eq]
  split
  · next hatt =>
    obtain ⟨t, -, hplays⟩ := plays_leave htell hnodup hatt i
    exact settled_settleUnlessFiring htell (hplays.nodup hnodup) (hplays.firing.trans hfiring)
  · exact hst

/-! ### Actions, and all ways to tell -/

theorem performs_note (st : Stage) {e : Entry} (hheard : ∀ i, heardBy i [e] = [])
    (hdetached : ∀ i, detachments i [e] = 0) : st.Performs quiet (st.note e) :=
  ⟨[e], rfl, (Plays.note_iff.mpr (.refl st)).congr (fun _ _ => rfl) hheard hdetached⟩

theorem performs_act (htell : Sound tell) (i : InputId) (a : Action) {st : Stage}
    (hnodup : st.publisher.inputs.Nodup) : st.Performs quiet (act tell i a st) := by
  cases a with
  | attach j =>
      exact (performs_attach htell j hnodup).quiet_trans (performs_note _ (fun _ => rfl) fun _ => rfl)
  | detach j => exact performs_detach htell j i hnodup
  | isAttached j => exact performs_note _ (fun _ => rfl) fun _ => rfl

theorem settled_act (htell : Sound tell) (i : InputId) (a : Action) {st : Stage}
    (hnodup : st.publisher.inputs.Nodup) (hfiring : st.firing = false) (hst : st.Settled) :
    (act tell i a st).Settled := by
  cases a with
  | attach j => exact settled_attach htell j hnodup hfiring hst
  | detach j => exact settled_detach htell j hnodup hfiring hst
  | isAttached j => exact hst

theorem recorder_hear (i j : InputId) (n : Notice) (st : Stage) :
    (hear i n st).1.recorder j =
      if i = j then (st.recorder i).hear n else st.recorder j := by
  simp only [recorder, hear, note, AscMap.find?_insert]
  by_cases hj : i = j
  · rw [if_pos hj, if_pos hj]
    rfl
  · rw [if_neg hj, if_neg hj]

/-- An input takes down what it is told before it acts. -/
theorem performs_hear {i : InputId} (n : Notice) {st : Stage} (hi : i ∈ st.busy) :
    st.Performs (only i [n]) (hear i n st).1 := by
  refine ⟨[.heard i n], rfl, ⟨rfl, rfl, rfl, id, fun j => ?_, fun j => ?_⟩, fun j _ => ⟨?_, .stay _⟩,
    fun j hj => ?_⟩
  · rw [recorder_hear, heardBy_heard]
    by_cases hj : i = j
    · rw [if_pos hj, if_pos hj, hj]
      rfl
    · rw [if_neg hj, if_neg hj]
      rfl
  · simp [detachments, hear, note]
  · rw [heardBy_heard, only]
    exact if_congr eq_comm rfl rfl
  · have hne : i ≠ j := fun heq => hj (heq ▸ hi)
    rw [heardBy_heard, if_neg hne]
    exact .stay _

theorem settled_hear {i : InputId} (n : Notice) {st : Stage} (hi : i ∈ st.busy) (hst : st.Settled) :
    (hear i n st).1.Settled := by
  intro j howed hidle
  have hne : i ≠ j := fun heq => hidle (heq ▸ hi)
  rw [recorder_hear, if_neg hne]
  exact hst j howed hidle

/-- Telling an input something, and what it does then by way of actions that are quiet. -/
theorem Sound.of_performs {f : InputId → Action → Stage → Stage}
    (hf : ∀ i a (st : Stage), st.publisher.inputs.Nodup → st.Performs quiet (f i a st) ∧
      (st.firing = false → st.Settled → (f i a st).Settled)) :
    Sound fun i n st => (hear i n st).2.foldl (fun st a => f i a st) (hear i n st).1 := by
  have hacts : ∀ (i : InputId) (acts : List Action) (st : Stage), st.publisher.inputs.Nodup →
      st.Performs quiet (acts.foldl (fun st a => f i a st) st) ∧
        (st.firing = false → st.Settled → (acts.foldl (fun st a => f i a st) st).Settled) := by
    intro i acts
    induction acts with
    | nil => exact fun st _ => ⟨.refl st, fun _ h => h⟩
    | cons a acts ih =>
        intro st hnodup
        obtain ⟨hact, hsettles⟩ := hf i a st hnodup
        obtain ⟨hperforms, hsettled⟩ := ih _ (hact.nodup hnodup)
        exact ⟨hact.quiet_trans hperforms, fun hfiring hst =>
          hsettled (hact.firing.trans hfiring) (hsettles hfiring hst)⟩
  constructor
  · intro i n st hi hnodup
    have hboth : (fun j => only i [n] j ++ quiet j) = only i [n] := by
      funext j
      exact List.append_nil _
    rw [← hboth]
    exact (performs_hear n hi).trans (hacts i (hear i n st).2 (hear i n st).1 hnodup).1
  · intro i n st hi hnodup hfiring hst
    exact (hacts i (hear i n st).2 (hear i n st).1 hnodup).2 hfiring (settled_hear n hi hst)

theorem sound_hear : Sound fun i n st => (hear i n st).1 :=
  ⟨fun _ n _ hi _ => performs_hear n hi, fun _ n _ hi _ _ => settled_hear n hi⟩

/-- Whatever inputs do, and however deep. -/
theorem sound_perform (depth : Nat) : Sound (perform depth) := by
  induction depth with
  | zero => exact sound_hear
  | succ depth ih =>
      exact .of_performs fun i a st hnodup =>
        ⟨performs_act ih i a hnodup, fun hfiring hst => settled_act ih i a hnodup hfiring hst⟩

theorem sound_tell (st : Stage) : Sound st.tell := sound_perform st.actionsLeft

end Stage

end TableFeed
