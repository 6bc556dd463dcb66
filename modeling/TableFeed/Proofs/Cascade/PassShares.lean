import Mathlib
import TableFeed.Proofs.Cascade.Actions
/-!
What a pass tells while its inputs attach and detach each other. Each attached input has its share
of the pass in turn and hears it whole unless it is detached; what goes on around that share comes
to it as a drift of its own. An input that nobody detaches hears nothing but its share, and an
input that is attached meanwhile nothing but the replay.
-/

namespace TableFeed

def heardAmong (among : List InputId) (t : List Entry) : List Entry :=
  t.filter fun
    | .heard i _ => i ∈ among
    | .did .. => false

theorem heardAmong_append (among : List InputId) (t t' : List Entry) :
    heardAmong among (t ++ t') = heardAmong among t ++ heardAmong among t' := List.filter_append ..

/-- Where only one of them hears anything, it is what that one hears. -/
theorem heardAmong_eq {among : List InputId} {i : InputId} {t : List Entry}
    (h : ∀ j ∈ among, j ≠ i → heardBy j t = []) :
    heardAmong among t = if i ∈ among then (heardBy i t).map (.heard i) else [] := by
  induction t with
  | nil => simp [heardAmong, heardBy]
  | cons e t ih =>
      have hcons : ∀ j, heardBy j (e :: t) = heardBy j [e] ++ heardBy j t := fun j =>
        heardBy_append j [e] t
      have hrest := ih fun j hj hne => (List.append_eq_nil_iff.mp (hcons j ▸ h j hj hne)).2
      have hfirst : heardAmong among [e] =
          if i ∈ among then (heardBy i [e]).map (.heard i) else [] := by
        cases e with
        | did => simp [heardAmong, heardBy]
        | heard j n =>
            by_cases hj : j ∈ among
            · by_cases hne : j = i
              · subst hne
                simp [heardAmong, heardBy, hj]
              · -- it would hear something
                have hnone := (List.append_eq_nil_iff.mp (hcons j ▸ h j hj hne)).1
                rw [heardBy_heard, if_pos rfl] at hnone
                cases hnone
            · have hne : j ≠ i ∨ i ∉ among := by
                by_cases hji : j = i
                · exact .inr (hji ▸ hj)
                · exact .inl hji
              rcases hne with hne | hne <;> simp [heardAmong, heardBy, hj, hne]
      rw [show e :: t = [e] ++ t from rfl, heardAmong_append, hfirst, hrest, heardBy_append]
      split
      · rw [List.map_append]
      · rfl

theorem heardAmong_eq_nil {among : List InputId} {t : List Entry}
    (h : ∀ j ∈ among, heardBy j t = []) : heardAmong among t = [] := by
  rw [heardAmong, List.filter_eq_nil_iff]
  intro e he
  cases e with
  | did => exact Bool.false_ne_true
  | heard j n =>
      intro hj
      have hn : n ∈ heardBy j t := List.mem_filterMap.mpr ⟨_, he, if_pos rfl⟩
      rw [h j (of_decide_eq_true hj)] at hn
      cases hn

namespace Publisher

theorem inputs_publish (p : Publisher) (live : RowSet) (batch : Batch) :
    (p.publish live batch).1.inputs = p.inputs := by
  rw [publish]
  split <;> rfl

theorem replaced_publish (p : Publisher) (live : RowSet) (batch : Batch) :
    (p.publish live batch).1.replaced = false := by
  rw [publish]
  split
  · rfl
  · next hsame => exact Bool.eq_false_iff.mpr hsame

/-- A pass that tells nothing shows nothing new. -/
theorem publish_of_nothing {p : Publisher} {live : RowSet} {batch : Batch}
    (h : (p.publish live batch).2 = []) : (p.publish live batch).1 = p := by
  rw [publish] at h ⊢
  split at h
  · cases h
  · next hsame =>
    rw [if_neg hsame]
    have hadded : batch.added.toList = [] := by
      by_contra hne
      simp [rowNotices, hne] at h
    have hremoved : batch.removed.toList = [] := by
      by_contra hne
      simp [rowNotices, hne] at h
    rw [AscSet.union, hadded, hremoved]
    rfl

end Publisher

/-! ### One input's share -/

namespace Stage

/-- A stretch of a pass in which one input has its share `ns`. It hears it whole unless it is
detached, and nothing of it if it was detached before. -/
structure Serves (ns : List Notice) (i : InputId) (st : Stage) (t : List Entry) (st' : Stage) : Prop
    extends Accounts st t st' where
  drift : ∀ j, j ≠ i →
    Drift st.publisher.replay (st.bearing j) (heardBy j t) (detachments j t) (st'.bearing j)
  held : Held (st.bearing i) (detachments i t) (st'.bearing i)
  part : heardBy i t <+: ns
  whole : detachments i t = 0 → i ∉ st.skipped → heardBy i t = ns
  passed : i ∈ st.skipped → heardBy i t = [] ∧ detachments i t = 0

theorem passTo_skipped (tell : Tell) (ns : List Notice) {i : InputId} {st : Stage}
    (hi : i ∈ st.skipped) : passTo tell ns st i = st := by
  rw [passTo]
  induction ns with
  | nil => rfl
  | cons n ns ih => rw [List.foldl_cons, if_pos hi, ih]

variable {tell : Tell} {ns : List Notice} {i : InputId} {st st' st'' : Stage} {t t' : List Entry}

theorem Serves.passed_refl (hi : i ∈ st.skipped) : Serves ns i st [] st :=
  ⟨.refl st, fun _ _ => .stay _, .stay _, List.nil_prefix, fun _ h => absurd hi h,
    fun _ => ⟨rfl, rfl⟩⟩

theorem Serves.cons {n : Notice} (hfiring : st.firing = true) (hi : i ∉ st.skipped)
    (h : Serves [n] i st t st') (h' : Serves ns i st' t' st'') :
    Serves (n :: ns) i st (t ++ t') st'' := by
  have hreplay := h.replay
  refine ⟨h.toAccounts.trans h'.toAccounts, fun j hj => ?_, ?_, ?_, fun hd _ => ?_,
    fun hmem => absurd hmem hi⟩
  · have hdrift' := h'.drift j hj
    rw [hreplay] at hdrift'
    rw [heardBy_append, detachments_append]
    exact (h.drift j hj).trans hdrift'
  · rw [detachments_append]
    exact h.held.trans h'.held
  · rw [heardBy_append]
    by_cases hskipped : i ∈ st'.skipped
    · rw [(h'.passed hskipped).1, List.append_nil]
      exact h.part.trans ⟨ns, rfl⟩
    · rw [h.whole ?_ hi]
      · exact (List.prefix_append_right_inj [n]).mpr h'.part
      · rw [h.skipped, hfiring] at hskipped
        simpa [hi] using hskipped
  · rw [detachments_append] at hd
    have hnot : i ∉ st'.skipped := by
      rw [h.skipped]
      rintro (hmem | ⟨-, hpos⟩)
      · exact hi hmem
      · omega
    rw [heardBy_append, h.whole (by omega) hi, h'.whole (by omega) hnot]
    rfl

theorem serves_tellAll (htell : Sound tell) (n : Notice) (hbusy : st.busy = [])
    (hnodup : st.publisher.inputs.Nodup) (hi : i ∉ st.skipped) :
    ∃ t, (tellAll tell i [n] st).log = st.log ++ t ∧ Serves [n] i st t (tellAll tell i [n] st) := by
  have hinside : ({ st with busy := i :: st.busy } : Stage).busy = [i] :=
    congrArg (i :: ·) hbusy
  have hmem : i ∈ ({ st with busy := i :: st.busy } : Stage).busy := List.mem_cons_self
  obtain ⟨t, hlog, hplays⟩ := performs_tells htell hmem hnodup [n]
  obtain ⟨hheard, hheld⟩ := hplays.held i List.mem_cons_self
  rw [only, if_pos rfl] at hheard
  rw [tellAll_eq]
  refine ⟨t, hlog, ⟨hplays.firing, rfl, hplays.shown, hplays.nodup, hplays.recorder,
    hplays.skipped⟩, fun j hj => ?_, hheld, ?_, fun _ _ => hheard, fun h => absurd h hi⟩
  · exact hplays.drift j (by rw [hinside]; exact fun hmem => hj (List.mem_singleton.mp hmem))
  · rw [hheard]

theorem serves_passTo (htell : Sound tell) (ns : List Notice) (i : InputId) {st : Stage}
    (hbusy : st.busy = []) (hfiring : st.firing = true) (hnodup : st.publisher.inputs.Nodup) :
    ∃ t, (passTo tell ns st i).log = st.log ++ t ∧ Serves ns i st t (passTo tell ns st i) := by
  induction ns generalizing st with
  | nil =>
      exact ⟨[], (List.append_nil _).symm, .refl st, fun _ _ => .stay _, .stay _, List.nil_prefix,
        fun _ _ => rfl, fun _ => ⟨rfl, rfl⟩⟩
  | cons n ns ih =>
      by_cases hi : i ∈ st.skipped
      · rw [passTo_skipped tell (n :: ns) hi]
        exact ⟨[], (List.append_nil _).symm, .passed_refl hi⟩
      · obtain ⟨t, hlog, hfirst⟩ := serves_tellAll htell n hbusy hnodup hi
        obtain ⟨t', hlog', hrest⟩ := ih (hfirst.busy.trans hbusy) (hfirst.firing.trans hfiring)
          (hfirst.nodup hnodup)
        have hpass : passTo tell (n :: ns) st i = passTo tell ns (tellAll tell i [n] st) i := by
          rw [passTo, List.foldl_cons, if_neg hi]
          rfl
        rw [hpass]
        exact ⟨t ++ t', by rw [hlog', hlog, List.append_assoc], hfirst.cons hfiring hi hrest⟩

/-! ### All shares -/

/-- What a pass with the share `ns` is to an input that was attached, and owed nothing, before it. -/
inductive Attends (replay ns : List Notice) : List Notice → Nat → Bearing → Prop
  /-- It is detached before its turn. -/
  | passedOver {heard : List Notice} {d : Nat} {b : Bearing}
      (drift : Drift replay ⟨true, 0⟩ heard d b) (detached : 0 < d) : Attends replay ns heard d b
  /-- It is detached during its turn. -/
  | cut {part heard : List Notice} {d : Nat} {b : Bearing} (part_of : part <+: ns)
      (drift : Drift replay ⟨false, 1⟩ heard d b) : Attends replay ns (part ++ heard) (1 + d) b
  | served {heard : List Notice} {d : Nat} {b : Bearing} (drift : Drift replay ⟨true, 0⟩ heard d b) :
      Attends replay ns (ns ++ heard) d b

theorem Attends.trans {replay heard heard' : List Notice} {d d' : Nat} {b b' : Bearing}
    (h : Attends replay ns heard d b) (h' : Drift replay b heard' d' b') :
    Attends replay ns (heard ++ heard') (d + d') b' := by
  cases h with
  | passedOver drift detached => exact .passedOver (drift.trans h') (by omega)
  | cut hprefix drift =>
      rw [List.append_assoc, Nat.add_assoc]
      exact .cut hprefix (drift.trans h')
  | served drift =>
      rw [List.append_assoc]
      exact .served (drift.trans h')

/-- An input that nobody detaches hears its share and nothing else. -/
theorem Attends.heard_of_undetached {replay heard : List Notice} {d : Nat} {b : Bearing}
    (h : Attends replay ns heard d b) (hd : d = 0) : heard = ns ∧ b = ⟨true, 0⟩ := by
  cases h with
  | passedOver drift detached => omega
  | cut hprefix drift => omega
  | served drift =>
      obtain ⟨hnone, hb⟩ := drift.eq_nil_of_undetached hd
      exact ⟨by rw [hnone, List.append_nil], hb⟩

def Awaits (st : Stage) (i : InputId) : Prop := st.bearing i = ⟨true, 0⟩ ∧ i ∉ st.skipped

/-- The shares of the inputs `is`, in turn. -/
structure Rounds (ns : List Notice) (is : List InputId) (st : Stage) (t : List Entry)
    (st' : Stage) : Prop extends Accounts st t st' where
  drift : ∀ j, j ∉ is ∨ j ∈ st.skipped →
    Drift st.publisher.replay (st.bearing j) (heardBy j t) (detachments j t) (st'.bearing j)
  attends : ∀ j ∈ is, st.Awaits j →
    Attends st.publisher.replay ns (heardBy j t) (detachments j t) (st'.bearing j)
  order : ∀ among : List InputId, (∀ j ∈ among, st.Awaits j ∧ detachments j t = 0) →
    heardAmong among t = (is.filter (· ∈ among)).flatMap fun i => ns.map (.heard i)

/-- An input that awaits its share and is not detached meanwhile still awaits it. -/
theorem Serves.awaits_of_undetached (h : Serves ns i st t st') {j : InputId} (hj : st.Awaits j)
    (hd : detachments j t = 0) : st'.Awaits j ∧ (j ≠ i → heardBy j t = []) := by
  have hskipped : j ∉ st'.skipped := by
    rw [h.skipped]
    rintro (hmem | ⟨-, hpos⟩)
    · exact hj.2 hmem
    · omega
  by_cases hji : j = i
  · subst hji
    refine ⟨⟨?_, hskipped⟩, fun hne => absurd rfl hne⟩
    have hheld := h.held
    rw [hd, hj.1] at hheld
    generalize hb : st'.bearing j = b at hheld ⊢
    cases hheld with
    | stay => rfl
  · obtain ⟨hnone, hb⟩ := (hj.1 ▸ h.drift j hji).eq_nil_of_undetached hd
    exact ⟨⟨hb, hskipped⟩, fun _ => hnone⟩

/-- An input that is passed over at its turn keeps its bearing. -/
theorem Serves.bearing_passed (h : Serves ns i st t st') (hi : i ∈ st.skipped) :
    st'.bearing i = st.bearing i := by
  have hheld := h.held
  rw [(h.passed hi).2] at hheld
  generalize st.bearing i = b, st'.bearing i = b' at hheld
  cases hheld with
  | stay => rfl

/-- An input that awaits its turn has it: it hears its share, or is detached meanwhile. -/
theorem Serves.attends_of_drift (h : Serves ns i st t st') (hi : st.Awaits i) {heard : List Notice}
    {d : Nat}
    {b : Bearing} (hrest : Drift st.publisher.replay (st'.bearing i) heard d b) :
    Attends st.publisher.replay ns (heardBy i t ++ heard) (detachments i t + d) b := by
  have hheld := h.held
  rw [hi.1] at hheld
  generalize hb' : st'.bearing i = b', hd : detachments i t = d' at hheld hrest
  cases hheld with
  | stay =>
      rw [h.whole hd hi.2, Nat.zero_add]
      exact .served hrest
  | leave => exact .cut h.part hrest

/-- At its turn an input hears its share and no other input hears anything. -/
theorem Serves.heardAmong_turn (h : Serves ns i st t st') {among : List InputId}
    (hamong : ∀ j ∈ among, st.Awaits j ∧ detachments j t = 0) :
    heardAmong among t = if i ∈ among then ns.map (.heard i) else [] := by
  rw [heardAmong_eq fun j hj => (h.awaits_of_undetached (hamong j hj).1 (hamong j hj).2).2]
  by_cases hmem : i ∈ among
  · rw [if_pos hmem, if_pos hmem, h.whole (hamong i hmem).2 (hamong i hmem).1.2]
  · rw [if_neg hmem, if_neg hmem]

/-- The first input of several has its share, and it has no other. -/
theorem Rounds.cons {is : List InputId} (hfiring : st.firing = true) (hi : i ∉ is)
    (h : Serves ns i st t st') (h' : Rounds ns is st' t' st'') :
    Rounds ns (i :: is) st (t ++ t') st'' := by
  have hlater := h'.drift
  have hattends := h'.attends
  rw [h.replay] at hlater hattends
  refine ⟨h.toAccounts.trans h'.toAccounts, fun j hj => ?_, fun j hj hawaits => ?_,
    fun among hamong => ?_⟩
  · rw [heardBy_append, detachments_append]
    by_cases hji : j = i
    · -- it is passed over
      subst hji
      have hskipped := hj.resolve_left fun hnot => hnot List.mem_cons_self
      obtain ⟨hnone, hzero⟩ := h.passed hskipped
      rw [hnone, hzero, Nat.zero_add, ← h.bearing_passed hskipped]
      exact hlater j (.inl hi)
    · refine (h.drift j hji).trans (hlater j ?_)
      rcases hj with hj | hj
      · exact .inl fun hmem => hj (List.mem_cons_of_mem _ hmem)
      · exact .inr ((h.skipped j).mpr (.inl hj))
  · rw [heardBy_append, detachments_append]
    by_cases hji : j = i
    · subst hji
      exact h.attends_of_drift hawaits (hlater j (.inl hi))
    · -- another's turn: it still awaits its own, unless it is detached
      by_cases hd : detachments j t = 0
      · obtain ⟨hstill, hnone⟩ := h.awaits_of_undetached hawaits hd
        rw [hnone hji, hd, Nat.zero_add]
        exact hattends j ((List.mem_cons.mp hj).resolve_left hji) hstill
      · have hskipped : j ∈ st'.skipped := (h.skipped j).mpr (.inr ⟨hfiring, by omega⟩)
        exact .passedOver (hawaits.1 ▸ (h.drift j hji).trans (hlater j (.inr hskipped))) (by omega)
  · have hnone : ∀ j ∈ among, detachments j t = 0 ∧ detachments j t' = 0 := by
      intro j hj
      have hd := (hamong j hj).2
      rw [detachments_append] at hd
      omega
    rw [heardAmong_append, h.heardAmong_turn fun j hj => ⟨(hamong j hj).1, (hnone j hj).1⟩,
      h'.order among fun j hj =>
        ⟨(h.awaits_of_undetached (hamong j hj).1 (hnone j hj).1).1, (hnone j hj).2⟩,
          List.filter_cons]
    by_cases hmem : i ∈ among <;> simp [hmem]

theorem rounds_passes (htell : Sound tell) (ns : List Notice) {is : List InputId} (his : is.Nodup)
    {st : Stage} (hbusy : st.busy = []) (hfiring : st.firing = true)
    (hnodup : st.publisher.inputs.Nodup) :
    ∃ t, (is.foldl (passTo tell ns) st).log = st.log ++ t ∧
      Rounds ns is st t (is.foldl (passTo tell ns) st) := by
  induction is generalizing st with
  | nil =>
      refine ⟨[], (List.append_nil _).symm, .refl st, fun _ _ => .stay _, fun j hj => ?_,
        fun _ _ => rfl⟩
      cases hj
  | cons i is ih =>
      obtain ⟨hi, his'⟩ := List.nodup_cons.mp his
      obtain ⟨t, hlog, hserves⟩ := serves_passTo htell ns i hbusy hfiring hnodup
      obtain ⟨t', hlog', hrounds⟩ := ih his' (hserves.busy.trans hbusy)
        (hserves.firing.trans hfiring) (hserves.nodup hnodup)
      exact ⟨t ++ t', by rw [List.foldl_cons, hlog', hlog, List.append_assoc],
        .cons hfiring hi hserves hrounds⟩

/-! ### Whole passes -/

structure Idle (st : Stage) : Prop where
  firing : st.firing = false
  busy : st.busy = []
  skipped : st.skipped = []
  nodup : st.publisher.inputs.Nodup

/-- How things are between two calls from outside. -/
structure AtRest (st : Stage) : Prop extends Idle st where
  settled : st.Settled

theorem Accounts.idle (h : Accounts st t st') (hst : st.Idle) : st'.Idle := by
  refine ⟨h.firing.trans hst.firing, h.busy.trans hst.busy, ?_, h.nodup hst.nodup⟩
  rw [List.eq_nil_iff_forall_not_mem]
  intro j hj
  rcases (h.skipped j).mp hj with hj | ⟨hfiring, -⟩
  · rw [hst.skipped] at hj
    cases hj
  · rw [hst.firing] at hfiring
    cases hfiring

theorem bearing_of_not_mem (hi : i ∉ st.publisher.inputs) :
    st.bearing i = ⟨false, st.owed.count i⟩ := by
  rw [bearing, Bool.eq_false_iff.mpr fun h => hi (Publisher.isAttached_iff.mp h)]

namespace AtRest

theorem not_mem_owed (h : st.AtRest) (hi : i ∈ st.publisher.inputs) : i ∉ st.owed := by
  intro howed
  have hatt := (h.settled i howed (by rw [h.busy]; exact List.not_mem_nil)).1
  rw [Publisher.isAttached_iff.mpr hi] at hatt
  cases hatt

theorem bearing_of_mem (h : st.AtRest) (hi : i ∈ st.publisher.inputs) : st.bearing i = ⟨true, 0⟩ := by
  rw [bearing, Publisher.isAttached_iff.mpr hi, List.count_eq_zero_of_not_mem (h.not_mem_owed hi)]

end AtRest

/-- What a pass over all attached inputs comes to. -/
structure Fires (live : RowSet) (batch : Batch) (st : Stage) (t : List Entry) (st' : Stage) :
    Prop where
  shown : st'.publisher =
    { (st.publisher.publish live batch).1 with inputs := st'.publisher.inputs }
  recorder : ∀ i, st'.recorder i = (heardBy i t).foldl Recorder.hear (st.recorder i)
  attends : ∀ i ∈ st.publisher.inputs,
    Attends (st.publisher.publish live batch).1.replay (st.publisher.publish live batch).2
      (heardBy i t) (detachments i t) (st'.bearing i)
  drift : ∀ i, i ∉ st.publisher.inputs →
    Drift (st.publisher.publish live batch).1.replay (st.bearing i) (heardBy i t)
      (detachments i t) (st'.bearing i)
  order : ∀ among : List InputId,
    (∀ i ∈ among, i ∈ st.publisher.inputs ∧ detachments i t = 0) →
      heardAmong among t = (st.publisher.inputs.filter (· ∈ among)).flatMap fun i =>
        (st.publisher.publish live batch).2.map (.heard i)

def fireStart (live : RowSet) (batch : Batch) (st : Stage) : Stage :=
  { st with publisher := (st.publisher.publish live batch).1, firing := true }

def fireEnd (st : Stage) : Stage := { st with firing := false, skipped := [] }

theorem fire_eq (tell : Tell) (live : RowSet) (batch : Batch) (st : Stage) :
    fire tell live batch st =
      if (st.publisher.publish live batch).2.isEmpty then st
      else settle tell ((st.fireStart live batch).publisher.inputs.foldl
        (passTo tell (st.publisher.publish live batch).2) (st.fireStart live batch)).fireEnd := rfl

theorem bearing_fireStart (live : RowSet) (batch : Batch) (st : Stage) (i : InputId) :
    (st.fireStart live batch).bearing i = st.bearing i := by
  rw [fireStart, bearing, bearing, Publisher.isAttached, Publisher.inputs_publish]
  rfl

/-- The shares, and what goes on once the pass is over. -/
theorem Rounds.fires_of_fireEnd {live : RowSet} {batch : Batch} {passed after : Stage}
    (hst : st.AtRest)
    (h : Rounds (st.publisher.publish live batch).2 st.publisher.inputs (st.fireStart live batch) t
      passed)
    (h' : passed.fireEnd.Plays quiet t' after) :
    Fires live batch st (t ++ t') after := by
  have hreplay : passed.publisher.replay = (st.publisher.publish live batch).1.replay := h.replay
  have hlater : ∀ i, Drift (st.publisher.publish live batch).1.replay (passed.bearing i)
      (heardBy i t') (detachments i t') (after.bearing i) := by
    intro i
    rw [← hreplay]
    refine h'.drift i ?_
    rw [show passed.fireEnd.busy = st.busy from h.busy, hst.busy]
    exact List.not_mem_nil
  have hawaits : ∀ i ∈ st.publisher.inputs, (st.fireStart live batch).Awaits i := by
    intro i hi
    refine ⟨(bearing_fireStart ..).trans (hst.bearing_of_mem hi), ?_⟩
    show i ∉ st.skipped
    rw [hst.skipped]
    exact List.not_mem_nil
  refine ⟨?_, fun i => ?_, fun i hi => ?_, fun i hi => ?_, fun among hamong => ?_⟩
  · rw [h'.shown]
    show { passed.publisher with inputs := after.publisher.inputs } = _
    rw [h.shown]
    rfl
  · rw [heardBy_append, List.foldl_append]
    exact (h'.recorder i).trans (congrArg ((heardBy i t').foldl Recorder.hear) (h.recorder i))
  · rw [heardBy_append, detachments_append]
    exact (h.attends i hi (hawaits i hi)).trans (hlater i)
  · rw [heardBy_append, detachments_append, ← bearing_fireStart live batch st i]
    exact (h.drift i (.inl hi)).trans (hlater i)
  · have hzero : ∀ i ∈ among, detachments i t = 0 ∧ detachments i t' = 0 := by
      intro i hi
      have hd := (hamong i hi).2
      rw [detachments_append] at hd
      omega
    rw [heardAmong_append,
      h.order among fun i hi => ⟨hawaits i (hamong i hi).1, (hzero i hi).1⟩,
      heardAmong_eq_nil fun i hi => ?_, List.append_nil]
    obtain ⟨-, hb⟩ :=
      (h.attends i (hamong i hi).1 (hawaits i (hamong i hi).1)).heard_of_undetached (hzero i hi).1
    exact ((hb ▸ hlater i).eq_nil_of_undetached (hzero i hi).2).1

theorem fires_fire (htell : Sound tell) (live : RowSet) (batch : Batch) (hst : st.AtRest) :
    (∃ t, (fire tell live batch st).log = st.log ++ t ∧
      Fires live batch st t (fire tell live batch st)) ∧ (fire tell live batch st).AtRest := by
  rw [fire_eq]
  split
  · next hnothing =>
    -- the output shows what it showed
    have hns : (st.publisher.publish live batch).2 = [] := List.isEmpty_iff.mp hnothing
    have hp := Publisher.publish_of_nothing hns
    refine ⟨⟨[], (List.append_nil _).symm, ?_, fun _ => rfl, fun i hi => ?_, fun _ _ => .stay _,
      fun among _ => ?_⟩, hst⟩
    · rw [hp]
    · rw [hst.bearing_of_mem hi, hns]
      exact .served (.stay _)
    · rw [hns]
      simp [heardAmong]
  · have hinputs : (st.fireStart live batch).publisher.inputs = st.publisher.inputs :=
      Publisher.inputs_publish ..
    have hnodup : (st.fireStart live batch).publisher.inputs.Nodup := hinputs ▸ hst.nodup
    rw [hinputs]
    have hbusy : (st.fireStart live batch).busy = [] := hst.busy
    obtain ⟨t, hlog, hrounds⟩ :=
      rounds_passes htell (st.publisher.publish live batch).2 hst.nodup hbusy rfl hnodup
    generalize st.publisher.inputs.foldl (passTo tell (st.publisher.publish live batch).2)
      (st.fireStart live batch) = passed at hlog hrounds ⊢
    have hidle : passed.fireEnd.Idle :=
      ⟨rfl, hrounds.busy.trans hst.busy, rfl, hrounds.nodup hnodup⟩
    obtain ⟨t', hlog', hplays⟩ := performs_settle htell hidle.nodup
    refine ⟨⟨t ++ t', ?_, hrounds.fires_of_fireEnd hst hplays⟩,
      ⟨hplays.idle hidle, settled_settle htell hidle.nodup hidle.firing⟩⟩
    rw [hlog', ← List.append_assoc]
    exact congrArg (· ++ t') hlog

/-! ### Runs -/

inductive Turn
  | attach (input : InputId)
  | detach (input : InputId)
  | update (schema : Option Schema)
  | fire (live : RowSet) (batch : Batch)

/-- An output before anything is done with it. It may show a schema and rows from the start. -/
def opening (shown : Option (Schema × RowSet))
    (scripts : AscMap InputId (List (Cue × List Action))) : Stage :=
  { publisher :=
      match shown with
      | none => {}
      | some (schema, rows) => .showing schema rows
    actors := scripts.mapValues fun script => { script := script } }

def turn (st : Stage) : Turn → Stage
  | .attach i => st.attach st.tell i
  | .detach i => (st.detach st.tell i).1
  | .update schema => { st with publisher := st.publisher.update schema }
  | .fire live batch => st.fire st.tell live batch

def turns (st : Stage) (xs : List Turn) : Stage := xs.foldl turn st

def account (st : Stage) (x : Turn) : List Entry := (st.turn x).log.drop st.log.length

theorem atRest_opening (shown : Option (Schema × RowSet))
    (scripts : AscMap InputId (List (Cue × List Action))) : (opening shown scripts).AtRest := by
  refine ⟨⟨rfl, rfl, rfl, ?_⟩, fun i hi => by cases hi⟩
  cases shown <;> exact List.nodup_nil

theorem plays_turn_attach (hst : st.AtRest) (i : InputId) :
    ∃ t, st.Plays quiet t (st.turn (.attach i)) := by
  obtain ⟨t, -, hplays⟩ := performs_attach (sound_tell st) i hst.nodup
  exact ⟨t, hplays⟩

theorem plays_turn_detach (hst : st.AtRest) (i : InputId) :
    ∃ t, st.Plays quiet t (st.turn (.detach i)) := by
  obtain ⟨t, -, hplays⟩ := performs_detach (sound_tell st) i i hst.nodup
  exact ⟨t, Plays.note_iff.mp hplays⟩

theorem atRest_turn (hst : st.AtRest) (x : Turn) : (st.turn x).AtRest := by
  cases x with
  | attach i =>
      obtain ⟨t, hplays⟩ := plays_turn_attach hst i
      exact ⟨hplays.idle hst.toIdle, settled_attach (sound_tell st) i hst.nodup hst.firing hst.settled⟩
  | detach i =>
      obtain ⟨t, hplays⟩ := plays_turn_detach hst i
      exact ⟨hplays.idle hst.toIdle, settled_detach (sound_tell st) i hst.nodup hst.firing hst.settled⟩
  | update schema => exact ⟨⟨hst.firing, hst.busy, hst.skipped, hst.nodup⟩, hst.settled⟩
  | fire live batch => exact (fires_fire (sound_tell st) live batch hst).2

def handedIn (xs : List Turn) : Option (Option Schema) :=
  xs.foldl (fun waiting x =>
    match x with
    | .update schema => some schema
    | .fire .. => none
    | .attach _ | .detach _ => waiting) none

def Awaiting (p : Publisher) (waiting : Option (Option Schema)) : Prop :=
  p.replaced = waiting.isSome ∧ ∀ schema ∈ waiting, p.latest = schema

theorem atRest_turns (shown : Option (Schema × RowSet))
    (scripts : AscMap InputId (List (Cue × List Action))) (xs : List Turn) :
    ((opening shown scripts).turns xs).AtRest ∧
      Awaiting ((opening shown scripts).turns xs).publisher (handedIn xs) := by
  induction xs using List.reverseRecOn with
  | nil =>
      refine ⟨atRest_opening shown scripts, ?_, fun schema h => by cases h⟩
      cases shown <;> rfl
  | append_singleton xs x ih =>
      obtain ⟨hst, hreplaced, hlatest⟩ := ih
      simp only [turns, handedIn, List.foldl_append, List.foldl_cons, List.foldl_nil]
      refine ⟨atRest_turn hst x, ?_⟩
      cases x with
      | attach i =>
          obtain ⟨t, hplays⟩ := plays_turn_attach hst i
          exact ⟨(congrArg Publisher.replaced hplays.shown).trans hreplaced, fun schema h =>
            (congrArg Publisher.latest hplays.shown).trans (hlatest schema h)⟩
      | detach i =>
          obtain ⟨t, hplays⟩ := plays_turn_detach hst i
          exact ⟨(congrArg Publisher.replaced hplays.shown).trans hreplaced, fun schema h =>
            (congrArg Publisher.latest hplays.shown).trans (hlatest schema h)⟩
      | update schema => exact ⟨rfl, fun _ h => Option.some.inj h⟩
      | fire live batch =>
          obtain ⟨⟨t, -, hfires⟩, -⟩ := fires_fire (sound_tell _) live batch hst
          refine ⟨(congrArg Publisher.replaced hfires.shown).trans ?_, fun schema h => by cases h⟩
          exact Publisher.replaced_publish ..

/-! ### Bystanders -/

def tellRows (notice : List RowId → Notice) (rows : List RowId) : List Notice :=
  if rows.isEmpty then [] else [notice rows]

/-- What a pass tells. A schema that was replaced comes first, and with it all live rows are added. -/
def tidings (waiting : Option (Option Schema)) (live : RowSet) (batch : Batch) : List Notice :=
  match waiting with
  | some none => [.schema none]
  | some (some schema) => .schema (some schema) :: tellRows .added live.toList
  | none =>
    tellRows .added batch.added.toList ++
      tellRows (.changed · batch.changedFields) batch.changed.keys.toList ++
      tellRows .removed batch.removed.toList

def rowsAfter (waiting : Option (Option Schema)) (rows live : RowSet) (batch : Batch) : RowSet :=
  match waiting with
  | some none => ∅
  | some (some _) => live
  | none => (rows.union batch.added).eraseAll batch.removed.toList

theorem publish_of_awaiting {p : Publisher} {waiting : Option (Option Schema)}
    (h : Awaiting p waiting) (live : RowSet) (batch : Batch) :
    p.publish live batch =
      ({ p with replaced := false, schema := waiting.getD p.schema
                rows := rowsAfter waiting p.rows live batch },
        tidings waiting live batch) := by
  obtain ⟨hreplaced, hlatest⟩ := h
  rw [Publisher.publish]
  cases waiting with
  | none =>
      rw [Option.isSome_none] at hreplaced
      simp [Publisher.rowNotices, tidings, tellRows, rowsAfter, hreplaced]
  | some schema =>
      rw [if_pos (hreplaced.trans Option.isSome_some), hlatest schema rfl]
      cases schema with
      | none => rfl
      | some schema => simp [Publisher.rowNotices, tidings, tellRows, rowsAfter]

/-- An input that is attached when a pass starts, and that nobody detaches, hears the pass whole and
in its turn. An input attached meanwhile hears what is shown after it. -/
theorem bystanders_of_a_pass (shown : Option (Schema × RowSet))
    (scripts : AscMap InputId (List (Cue × List Action))) (xs : List Turn) (live : RowSet)
    (batch : Batch) :
    let st := (opening shown scripts).turns xs
    let after := st.turn (.fire live batch)
    let t := st.account (.fire live batch)
    let kept := st.publisher.inputs.filter fun i => detachments i t = 0
    heardAmong kept t = (kept.flatMap fun i => (tidings (handedIn xs) live batch).map (.heard i)) ∧
      (∀ i, i ∉ st.publisher.inputs → i ∈ after.publisher.inputs → detachments i t = 0 →
        ∃ n n', n + n' ≤ st.owed.count i ∧
          heardBy i t = farewells n ++ after.publisher.replay ++ farewells n') ∧
      after.publisher.schema = (handedIn xs).getD st.publisher.schema ∧
      after.publisher.rows = rowsAfter (handedIn xs) st.publisher.rows live batch := by
  intro st after t kept
  obtain ⟨hst, hawaiting⟩ : st.AtRest ∧ Awaiting st.publisher (handedIn xs) :=
    atRest_turns shown scripts xs
  obtain ⟨⟨t', hlog, hfires⟩, hafter⟩ := fires_fire (sound_tell st) live batch hst
  have ht : t = t' := by
    show (st.fire st.tell live batch).log.drop st.log.length = t'
    rw [hlog, List.drop_left]
  rw [← ht] at hfires
  have hpublish := publish_of_awaiting hawaiting live batch
  have hshown := hfires.shown
  rw [hpublish] at hshown
  refine ⟨?_, fun i hnew hatt hd => ?_, ?_, ?_⟩
  · have hkept : st.publisher.inputs.filter (· ∈ kept) = kept := by
      refine List.filter_congr fun i hi => ?_
      simp [kept, hi]
    rw [hfires.order kept fun i hi => ?_, hkept, hpublish]
    obtain ⟨hi, hd⟩ := List.mem_filter.mp hi
    exact ⟨hi, of_decide_eq_true hd⟩
  · have hdrift := hfires.drift i hnew
    rw [bearing_of_not_mem hnew] at hdrift
    have hreplay : after.publisher.replay = (st.publisher.publish live batch).1.replay := by
      rw [show after.publisher = _ from hfires.shown]
      rfl
    rw [hreplay]
    rcases hdrift.cases_of_undetached hd with ⟨hout, -⟩ | ⟨-, -, n, n', howed, hheard⟩
    · have hout' : after.publisher.isAttached i = false := hout
      rw [Publisher.isAttached_iff.mpr hatt] at hout'
      cases hout'
    · exact ⟨n, n', by dsimp only at howed; omega, hheard⟩
  · exact congrArg Publisher.schema hshown
  · exact congrArg Publisher.rows hshown

/-- The first of three inputs detaches the second before its turn and attaches a fourth. -/
theorem bystanders_of_a_pass_fourth :
    let st := (opening (some (.empty "s", .ofList [1]))
      (.ofList [(0, [(.added, []), (.added, [.detach 1, .attach 3])])])).turns
      [.attach 0, .attach 1, .attach 2]
    let t := st.account (.fire ∅ { added := .ofList [2] })
    heardAmong [0, 2] t = [.heard 0 (.added [2]), .heard 2 (.added [2])] ∧
      heardBy 3 t = [.source true, .schema (some (.empty "s")), .added [1, 2]] := by
  obtain ⟨hkept, hnew, -⟩ := bystanders_of_a_pass (some (.empty "s", .ofList [1]))
    (.ofList [(0, [(.added, []), (.added, [.detach 1, .attach 3])])])
    [.attach 0, .attach 1, .attach 2] ∅ { added := .ofList [2] }
  constructor
  · refine Eq.trans (congrArg (heardAmong · _) ?_) (hkept.trans ?_) <;> decide +kernel
  · obtain ⟨n, n', howed, hheard⟩ :=
      hnew 3 (by decide +kernel) (by decide +kernel) (by decide +kernel)
    obtain ⟨rfl, rfl⟩ : n = 0 ∧ n' = 0 := by
      have hnone : n + n' ≤ 0 := le_of_le_of_eq howed (by decide +kernel)
      omega
    refine hheard.trans ?_
    decide +kernel

/-- An input that detached itself from inside the notices of an earlier detachment is told those of
the later one in the next pass, in which it is attached again. -/
theorem newcomer_still_owed :
    let st := (opening (some (.empty "s", .ofList [1]))
      (.ofList [(0, [(.added, []), (.added, [.detach 0]), (.withdrawn, [.detach 0])]),
        (1, [(.added, []), (.added, [.attach 0]), (.added, [.attach 0])])])).turns
      [.attach 0, .attach 1, .fire ∅ { added := .ofList [2] }]
    let after := st.turn (.fire ∅ { added := .ofList [3] })
    let t := st.account (.fire ∅ { added := .ofList [3] })
    0 ∉ st.publisher.inputs ∧ 0 ∈ after.publisher.inputs ∧ detachments 0 t = 0 ∧
      heardBy 0 t = after.publisher.replay ++ Publisher.farewell := by
  decide +kernel

end Stage

end TableFeed
