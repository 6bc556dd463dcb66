import Mathlib
import TableFeed.Proofs.Cascade.AttachedInputs
import TableFeed.Proofs.Cascade.DetachmentStarts
import TableFeed.Proofs.Cascade.InputLife
/-!
Silence after a detachment. Runs in which the beginning of every detachment is noted give each input
a life, however deep inputs act from inside what they are told: first for one way to tell at a time,
then for all of them, for passes and for runs. So an input that is detached is told so, and nothing
more until it is attached again, but for a notice that was under way.
-/

namespace TableFeed

open Incident (told parted)

/-! ### What an input lives through while it is inside a notice -/

inductive Kept : Bearing → List Incident → Bearing → Prop
  | stay (b : Bearing) : Kept b [] b
  | part (owed : Nat) : Kept ⟨true, owed⟩ [parted] ⟨false, owed + 1⟩

/-- An input is told some notices one after the other, and may be detached from inside one of them. -/
inductive Inside : Bearing → List Notice → List Incident → Bearing → Prop
  | nil (b : Bearing) : Inside b [] [] b
  | cons {b b' b'' : Bearing} {n : Notice} {ns : List Notice} {es es' : List Incident}
      (first : Kept b es b') (rest : Inside b' ns es' b'') :
      Inside b (n :: ns) (told n :: (es ++ es')) b''

namespace Kept

variable {b b' b'' : Bearing} {es es' : List Incident}

theorem trans (h : Kept b es b') (h' : Kept b' es' b'') : Kept b (es ++ es') b'' := by
  cases h with
  | stay => exact h'
  | part owed =>
      cases h' with
      | stay => exact .part owed

theorem owe (h : Kept b es b') (n : Nat) : Kept (b.owe n) es (b'.owe n) := by
  cases h with
  | stay => exact .stay _
  | part owed =>
      have hsum : owed + 1 + n = owed + n + 1 := Nat.succ_add owed n
      simp only [Bearing.owe, hsum]
      exact .part (owed + n)

theorem toLife (h : Kept b es b') : Life b es b' := by
  cases h with
  | stay => exact .stay b
  | part owed => exact .part (.stay _)

end Kept

namespace Inside

variable {b b' b'' : Bearing} {n : Notice} {ns ns' : List Notice} {es es' : List Incident}

theorem append (h : Inside b ns es b') (h' : Inside b' ns' es' b'') :
    Inside b (ns ++ ns') (es ++ es') b'' := by
  induction h with
  | nil => exact h'
  | cons first _ ih =>
      rw [List.cons_append, List.cons_append, List.append_assoc]
      exact .cons first (ih h')

theorem owe (h : Inside b ns es b') (m : Nat) : Inside (b.owe m) ns es (b'.owe m) := by
  induction h with
  | nil => exact .nil _
  | cons first _ ih => exact .cons (first.owe m) ih

theorem trans_kept (h : Inside b [n] es b') (h' : Kept b' es' b'') :
    Inside b [n] (es ++ es') b'' := by
  obtain _ | ⟨first, ⟨⟩⟩ := h
  rw [List.cons_append, List.append_nil]
  have hboth := first.trans h'
  rw [← List.append_nil (_ ++ es')]
  exact .cons hboth (.nil _)

/-- The notices of a detachment that it is owed. -/
theorem life_of_farewell {attached : Bool} {owed : Nat}
    (h : Inside ⟨attached, owed⟩ Publisher.farewell es b') :
    Life ⟨attached, owed + 1⟩ es b' := by
  obtain _ | ⟨first, _ | ⟨second, ⟨⟩⟩⟩ := h
  cases first with
  | stay =>
      cases second with
      | stay => exact .farewell (.stay _)
      | part => exact .farewell (.part (.stay _))
  | part =>
      cases second with
      | stay => exact .partInFarewell (.stay _)

/-- News of an output that it is attached to. -/
theorem life_of_news {owed : Nat} (hn : sources [n] = []) (h : Inside ⟨true, owed⟩ [n] es b') :
    Life ⟨true, owed⟩ es b' := by
  obtain _ | ⟨first, ⟨⟩⟩ := h
  rw [List.append_nil]
  exact .news hn first.toLife

/-- The rows that are shown, if there are any. -/
theorem life_of_replayRows {p : Publisher} {owed : Nat}
    (h : Inside ⟨true, owed⟩ p.replayRows es b') :
    Life ⟨true, owed⟩ es b' := by
  rw [Publisher.replayRows] at h
  split at h
  · cases h
    exact .stay _
  · exact h.life_of_news rfl

theorem life_of_entered {owed : Nat} (h : Inside ⟨true, owed⟩ [.source true] es b') :
    Life ⟨false, owed⟩ es b' := by
  obtain _ | ⟨first, ⟨⟩⟩ := h
  rw [List.append_nil]
  exact .enter first.toLife

/-- The schema is told even if it was detached when it was told that it is attached. -/
theorem entered_schema {owed : Nat} {s : Schema}
    (h : Inside ⟨true, owed⟩ [.source true, .schema (some s)] es b') : Life ⟨false, owed⟩ es b' := by
  obtain _ | ⟨first, _ | ⟨second, ⟨⟩⟩⟩ := h
  cases first with
  | stay =>
      rw [List.append_nil]
      exact .enter (.news rfl second.toLife)
  | part =>
      cases second with
      | stay => exact .enterAndPart s (.stay _)

end Inside

/-! ### Incidents in an account -/

def incidents (i : InputId) (t : List Entry) : List Incident :=
  t.filterMap fun
    | .heard j n => if j = i then some (.told n) else none
    | .did _ (.detach j) none => if j = i then some .parted else none
    | .did .. => none

theorem incidents_append (i : InputId) (t t' : List Entry) :
    incidents i (t ++ t') = incidents i t ++ incidents i t' := List.filterMap_append ..

theorem incidents_heard (i j : InputId) (n : Notice) :
    incidents i [.heard j n] = if j = i then [told n] else [] := by
  by_cases h : j = i <;> simp [incidents, h]

theorem incidents_begin (i j k : InputId) :
    incidents i [.did k (.detach j) none] = if j = i then [parted] else [] := by
  by_cases h : j = i <;> simp [incidents, h]

theorem notices_incidents (i : InputId) (t : List Entry) :
    Incident.notices (incidents i t) = heardBy i t := by
  rw [Incident.notices, incidents, List.filterMap_filterMap, heardBy]
  congr 1
  funext e
  cases e with
  | heard j n => by_cases h : j = i <;> simp [h]
  | did k a answer =>
      cases a with
      | attach j => rfl
      | isAttached j => rfl
      | detach j =>
          cases answer with
          | none => by_cases h : j = i <;> simp [h]
          | some answer => rfl

namespace Stage

/-- What is noted gives every input a life. Those that are inside a notice are told nothing, apart
from some. -/
structure Lives (apart : InputId → Prop) (st : Stage) (t : List Entry) (st' : Stage) : Prop where
  busy : st'.busy = st.busy
  nodup : st.publisher.inputs.Nodup → st'.publisher.inputs.Nodup
  kept : ∀ i ∈ st.busy, ¬apart i → Kept (st.bearing i) (incidents i t) (st'.bearing i)
  life : ∀ i, i ∉ st.busy → Life (st.bearing i) (incidents i t) (st'.bearing i)

structure Tells (i : InputId) (ns : List Notice) (st : Stage) (t : List Entry) (st' : Stage) : Prop
    extends Lives (· = i) st t st' where
  inside : Inside (st.bearing i) ns (incidents i t) (st'.bearing i)

def nobody : InputId → Prop := fun _ => False

def Lived (st st' : Stage) : Prop := ∃ t, st'.log = st.log ++ t ∧ st.Lives nobody t st'

def Told (i : InputId) (ns : List Notice) (st st' : Stage) : Prop :=
  ∃ t, st'.log = st.log ++ t ∧ Tells i ns st t st'

variable {st st' st'' : Stage} {t t' : List Entry} {i : InputId} {n : Notice} {ns ns' : List Notice}
variable {apart : InputId → Prop}

theorem Lives.refl (st : Stage) : st.Lives apart [] st :=
  ⟨rfl, id, fun _ _ _ => .stay _, fun _ _ => .stay _⟩

theorem Lives.trans (h : st.Lives apart t st') (h' : st'.Lives apart t' st'') :
    st.Lives apart (t ++ t') st'' := by
  refine ⟨h'.busy.trans h.busy, fun hnd => h'.nodup (h.nodup hnd), fun i hi hnot => ?_, fun i hi => ?_⟩
  · rw [incidents_append]
    exact (h.kept i hi hnot).trans (h'.kept i (h.busy ▸ hi) hnot)
  · rw [incidents_append]
    exact (h.life i hi).trans (h'.life i (h.busy ▸ hi))

theorem Lives.of_nobody (h : st.Lives nobody t st') : st.Lives apart t st' :=
  ⟨h.busy, h.nodup, fun i hi _ => h.kept i hi id, h.life⟩

theorem Tells.trans (h : Tells i ns st t st') (h' : Tells i ns' st' t' st'') :
    Tells i (ns ++ ns') st (t ++ t') st'' := by
  refine ⟨h.toLives.trans h'.toLives, ?_⟩
  rw [incidents_append]
  exact h.inside.append h'.inside

/-- Quiet things may follow a notice. -/
theorem Tells.trans_lives (hi : i ∈ st.busy) (h : Tells i [n] st t st')
    (h' : st'.Lives nobody t' st'') :
    Tells i [n] st (t ++ t') st'' := by
  refine ⟨h.toLives.trans h'.of_nobody, ?_⟩
  rw [incidents_append]
  exact h.inside.trans_kept (h'.kept i (h.busy ▸ hi) id)

/-- The same with more owed to some inputs from before. -/
theorem Lives.owe (h : st.Lives apart t st') (owed owed' : List InputId) (more : InputId → Nat)
    (hbefore : ∀ i, owed.count i = st.owed.count i + more i)
    (hafter : ∀ i, owed'.count i = st'.owed.count i + more i) :
    ({ st with owed := owed } : Stage).Lives apart t { st' with owed := owed' } := by
  refine ⟨h.busy, h.nodup, fun i hi hnot => ?_, fun i hi => ?_⟩
  · rw [bearing_owed (hbefore i), bearing_owed (hafter i)]
    exact (h.kept i hi hnot).owe _
  · rw [bearing_owed (hbefore i), bearing_owed (hafter i)]
    exact (h.life i hi).owe _

theorem Tells.owe (h : Tells i ns st t st') (owed owed' : List InputId) (more : InputId → Nat)
    (hbefore : ∀ j, owed.count j = st.owed.count j + more j)
    (hafter : ∀ j, owed'.count j = st'.owed.count j + more j) :
    Tells i ns { st with owed := owed } t { st' with owed := owed' } := by
  refine ⟨h.toLives.owe owed owed' more hbefore hafter, ?_⟩
  rw [bearing_owed (hbefore i), bearing_owed (hafter i)]
  exact h.inside.owe _

theorem Lived.refl (st : Stage) : st.Lived st := ⟨[], (List.append_nil _).symm, .refl st⟩

theorem Lived.trans (h : st.Lived st') (h' : st'.Lived st'') : st.Lived st'' := by
  obtain ⟨t, hlog, hlives⟩ := h
  obtain ⟨t', hlog', hlives'⟩ := h'
  exact ⟨t ++ t', by rw [hlog', hlog, List.append_assoc], hlives.trans hlives'⟩

theorem Lived.nodup (h : st.Lived st') (hnodup : st.publisher.inputs.Nodup) :
    st'.publisher.inputs.Nodup := by
  obtain ⟨t, -, hlives⟩ := h
  exact hlives.nodup hnodup

/-! ### Ways to tell -/

def Living (tell : Tell) : Prop := ∀ i n (st : Stage), i ∈ st.busy → st.publisher.inputs.Nodup →
  Told i [n] st (tell i n st)

variable {tell : Tell}

theorem told_tells (htell : Living tell) (hi : i ∈ st.busy) (hnodup : st.publisher.inputs.Nodup)
    (ns : List Notice) : Told i ns st (tells tell i ns st) := by
  induction ns generalizing st with
  | nil => exact ⟨[], (List.append_nil _).symm, .refl st, .nil _⟩
  | cons n ns ih =>
      obtain ⟨t, hlog, hfirst⟩ := htell i n st hi hnodup
      obtain ⟨t', hlog', hrest⟩ := ih (hfirst.busy ▸ hi) (hfirst.nodup hnodup)
      exact ⟨t ++ t', hlog'.trans (by rw [hlog, List.append_assoc]), hfirst.trans hrest⟩

/-- An input that was inside a notice leaves it again. -/
theorem Enters.lives_callback {start after : Stage} (henter : Enters i st start)
    (h : Tells i ns start t after)
    (hother : ∀ j, j ≠ i → incidents j t' = incidents j t)
    (hself : Inside (start.bearing i) ns (incidents i t) (after.bearing i) →
      Life (st.bearing i) (incidents i t') (after.bearing i)) :
    st.Lives nobody t' { after with busy := st.busy } := by
  have hbusy : ∀ {j}, j ∈ start.busy ↔ j = i ∨ j ∈ st.busy := by
    intro j
    rw [henter.busy, List.mem_cons]
  refine ⟨rfl, fun hnd => h.nodup (henter.nodup hnd), fun j hj _ => ?_, fun j hj => ?_⟩
  · have hne : j ≠ i := fun heq => henter.idle (heq ▸ hj)
    have hkept := h.kept j (hbusy.mpr (.inr hj)) hne
    rw [henter.bearing j hne] at hkept
    rw [hother j hne]
    exact hkept
  · by_cases hne : j = i
    · subst hne
      exact hself h.inside
    · have hlife := h.life j fun hmem => (hbusy.mp hmem).elim hne hj
      rw [henter.bearing j hne] at hlife
      rw [hother j hne]
      exact hlife

/-! ### Settling -/

theorem composes_lives : Composes (Lives nobody) :=
  ⟨.refl, .trans, .owe, fun h => h.busy, fun h => h.nodup⟩

/-- An input that is inside no notice is told what it is owed, first of those that are left. -/
theorem lives_farewell (htell : Living tell) (hi : i ∉ st.busy) (hnodup : st.publisher.inputs.Nodup) :
    ∃ t, (tellAll tell i Publisher.farewell st).log = st.log ++ t ∧ ∀ due,
      ({ st with owed := st.owed ++ i :: due } : Stage).Lives nobody t
        { tellAll tell i Publisher.farewell st with
          owed := (tellAll tell i Publisher.farewell st).owed ++ due } := by
  have hmem : i ∈ ({ st with busy := i :: st.busy } : Stage).busy := List.mem_cons_self
  obtain ⟨t, hlog, htells⟩ := told_tells htell hmem hnodup Publisher.farewell
  refine ⟨t, hlog, fun due => ?_⟩
  have howing := htells.owe (st.owed ++ due) _ (fun j => due.count j) (fun j => List.count_append ..)
    fun j => List.count_append ..
  refine (enters_owed hi due).lives_callback howing (fun _ _ => rfl) fun hinside => ?_
  rw [bearing_owed_cons]
  exact hinside.life_of_farewell

theorem lived_settle (htell : Living tell) (hnodup : st.publisher.inputs.Nodup) :
    st.Lived (settle tell st) := by
  obtain ⟨after, t, hfold, hlog, hlives, -⟩ := composes_lives.settleAll (P := fun _ => True)
    (fun i st hi hnodup => ⟨lives_farewell htell hi hnodup, id⟩) st.owed { st with owed := [] } hnodup []
  rw [settle_eq, hfold]
  exact ⟨t, hlog, hlives⟩

theorem lived_settleUnlessFiring (htell : Living tell) (hnodup : st.publisher.inputs.Nodup) :
    st.Lived (settleUnlessFiring tell st) := by
  rw [settleUnlessFiring]
  split
  · exact .refl st
  · exact lived_settle htell hnodup

/-! ### Attaching -/

/-- The replay to an input that was put among the attached ones: it enters its life there. -/
theorem told_replayTo (htell : Living tell) {start : Stage} (hi : i ∈ start.busy)
    (hnodup : start.publisher.inputs.Nodup) {owed : Nat} (hb : start.bearing i = ⟨true, owed⟩) :
    ∃ ns t, (replayTo tell i start).log = start.log ++ t ∧
      Tells i ns start t (replayTo tell i start) ∧
      Life ⟨false, owed⟩ (incidents i t) ((replayTo tell i start).bearing i) := by
  obtain ⟨t₁, hlog₁, hfirst⟩ := htell i (.source true) start hi hnodup
  cases hschema : (tell i (.source true) start).publisher.schema with
  | none =>
      rw [replayTo_of_none hschema]
      exact ⟨_, t₁, hlog₁, hfirst, (hb ▸ hfirst.inside).life_of_entered⟩
  | some s =>
      obtain ⟨t₂, hlog₂, hsecond⟩ := htell i (.schema (some s)) _ (hfirst.busy ▸ hi) (hfirst.nodup hnodup)
      rw [replayTo_of_some hschema rfl]
      generalize tell i (.schema (some s)) (tell i (.source true) start) = named at hlog₂ hsecond ⊢
      have hboth := hfirst.trans hsecond
      have hlog : named.log = start.log ++ (t₁ ++ t₂) := by rw [hlog₂, hlog₁, List.append_assoc]
      have hlife := (hb ▸ hboth.inside).entered_schema
      split
      · -- it is still attached
        next hatt =>
        obtain ⟨t₃, hlog₃, hrows⟩ := told_tells htell (hboth.busy ▸ hi) (hboth.nodup hnodup)
          named.publisher.replayRows
        have hbearing : named.bearing i = ⟨true, named.owed.count i⟩ := by rw [bearing, hatt]
        refine ⟨_, _, hlog₃.trans (by rw [hlog, List.append_assoc]), hboth.trans hrows, ?_⟩
        rw [incidents_append]
        exact hlife.trans (hbearing ▸ (hbearing ▸ hrows.inside).life_of_replayRows)
      · exact ⟨_, _, hlog, hboth, hlife⟩

theorem lived_attach (htell : Living tell) (i : InputId) (hnodup : st.publisher.inputs.Nodup) :
    st.Lived (attach tell i st) := by
  rcases attach_cases tell i st with hsame | ⟨hatt, hi, hattach⟩
  · rw [hsame]
    exact .refl st
  · have henter := enters_enroll hnodup hatt hi
    have hbefore : st.bearing i = ⟨false, st.owed.count i⟩ := by
      rw [bearing, Bool.eq_false_iff.mpr hatt]
    have hmem : i ∈ (enroll i st).busy := List.mem_cons_self
    obtain ⟨ns, t, hlog, htells, hlife⟩ :=
      told_replayTo htell hmem (henter.nodup hnodup) (bearing_enroll hatt)
    have hreplayed : st.Lived { replayTo tell i (enroll i st) with busy := st.busy } :=
      ⟨t, hlog, henter.lives_callback htells (fun _ _ => rfl) fun _ => hbefore ▸ hlife⟩
    rw [hattach]
    exact hreplayed.trans (lived_settleUnlessFiring htell (hreplayed.nodup hnodup))

/-! ### Detaching -/

theorem lives_leave (htell : Living tell) (hnodup : st.publisher.inputs.Nodup)
    (hatt : st.publisher.isAttached i = true) (k : InputId) :
    ∃ t, (leave tell i st).log = st.log ++ t ∧
      st.Lives nobody (.did k (.detach i) none :: t) (leave tell i st) := by
  have hbefore : st.bearing i = ⟨true, st.owed.count i⟩ := by rw [bearing, hatt]
  have hself : ∀ t, incidents i (.did k (.detach i) none :: t) = parted :: incidents i t := by
    intro t
    rw [← List.singleton_append, incidents_append, incidents_begin, if_pos rfl]
    rfl
  have hother : ∀ t j, j ≠ i → incidents j (.did k (.detach i) none :: t) = incidents j t := by
    intro t j hj
    rw [← List.singleton_append, incidents_append, incidents_begin, if_neg (Ne.symm hj)]
    rfl
  rw [leave]
  split
  · -- it is owed the notices
    next hi =>
    refine ⟨[], (List.append_nil _).symm, rfl, fun hnd => hnd.erase i, fun j _ _ => ?_,
      fun j hj => ?_⟩
    · by_cases hj : j = i
      · subst hj
        rw [hself, hbefore, bearing_gone_owed hnodup]
        exact .part _
      · rw [hother _ j hj, bearing_gone_owed_of_ne st hj]
        exact .stay _
    · have hne : j ≠ i := fun heq => hj (heq ▸ hi)
      rw [hother _ j hne, bearing_gone_owed_of_ne st hne]
      exact .stay _
  · -- it is told at once
    next hi =>
    have henter := enters_gone hi
    have hmem : i ∈ ({ gone i st with busy := i :: st.busy } : Stage).busy := List.mem_cons_self
    obtain ⟨t, hlog, htells⟩ := told_tells htell hmem (henter.nodup hnodup) Publisher.farewell
    refine ⟨t, hlog, henter.lives_callback htells (hother t) fun hinside => ?_⟩
    have hentered : ({ gone i st with busy := i :: st.busy } : Stage).bearing i =
        ⟨false, st.owed.count i⟩ := bearing_gone hnodup
    rw [hentered] at hinside
    rw [hself, hbefore]
    exact .part hinside.life_of_farewell

theorem lived_detach (htell : Living tell) (k i : InputId) (hnodup : st.publisher.inputs.Nodup) :
    st.Lived (detach tell i (noteParting k i st)).1 := by
  rw [noteParting]
  split
  · next hatt =>
    have hatt' : (st.note (.did k (.detach i) none)).publisher.isAttached i = true := hatt
    have hnodup' : (st.note (.did k (.detach i) none)).publisher.inputs.Nodup := hnodup
    obtain ⟨t, hlog, hlives⟩ := lives_leave htell hnodup' hatt' k
    have hleft : st.Lived (leave tell i (st.note (.did k (.detach i) none))) :=
      ⟨.did k (.detach i) none :: t, hlog.trans (List.append_assoc ..),
        hlives.busy, hlives.nodup, hlives.kept, hlives.life⟩
    rw [detach_eq, if_pos hatt']
    exact hleft.trans (lived_settleUnlessFiring htell (hleft.nodup hnodup))
  · next hatt =>
    rw [detach_eq, if_neg hatt]
    exact .refl st

/-! ### Actions, and all ways to tell -/

theorem lived_note (st : Stage) {e : Entry} (he : ∀ i, incidents i [e] = []) :
    st.Lived (st.note e) := by
  refine ⟨[e], rfl, rfl, id, fun i _ _ => ?_, fun i _ => ?_⟩
  · rw [he]
    exact .stay _
  · rw [he]
    exact .stay _

theorem lived_actNoting (htell : Living tell) (k : InputId) (a : Action)
    (hnodup : st.publisher.inputs.Nodup) : st.Lived (actNoting tell k a st) := by
  cases a with
  | attach i => exact (lived_attach htell i hnodup).trans (lived_note _ fun _ => rfl)
  | detach i => exact (lived_detach htell k i hnodup).trans (lived_note _ fun _ => rfl)
  | isAttached i => exact lived_note _ fun _ => rfl

theorem told_hear (n : Notice) (hi : i ∈ st.busy) : Told i [n] st (hear i n st).1 := by
  have hother : ∀ j, j ≠ i → incidents j [.heard i n] = [] := fun j hj => by
    rw [incidents_heard, if_neg (Ne.symm hj)]
  refine ⟨[.heard i n], rfl, ⟨rfl, id, fun j _ hj => ?_, fun j hj => ?_⟩, ?_⟩
  · rw [hother j hj]
    exact .stay _
  · rw [hother j fun heq => hj (heq ▸ hi)]
    exact .stay _
  · rw [incidents_heard, if_pos rfl]
    exact .cons (.stay _) (.nil _)

theorem living_performNoting (depth : Nat) : Living (performNoting depth) := by
  induction depth with
  | zero => exact fun i n st hi _ => told_hear n hi
  | succ depth ih =>
      intro i n st hi hnodup
      have hacts : ∀ (acts : List Action) (st : Stage), st.publisher.inputs.Nodup →
          st.Lived (acts.foldl (fun st a => actNoting (performNoting depth) i a st) st) := by
        intro acts
        induction acts with
        | nil => exact fun st _ => .refl st
        | cons a acts iha =>
            intro st hnodup
            have hact := lived_actNoting ih i a hnodup
            exact hact.trans (iha _ (hact.nodup hnodup))
      obtain ⟨t, hlog, hheard⟩ := told_hear n hi
      obtain ⟨t', hlog', hlives⟩ := hacts (hear i n st).2 _ (hheard.nodup hnodup)
      exact ⟨t ++ t', hlog'.trans (by rw [hlog, List.append_assoc]), hheard.trans_lives hi hlives⟩

theorem performs_noteParting (k i : InputId) (st : Stage) :
    st.Performs quiet (noteParting k i st) := by
  rw [noteParting]
  split
  · exact performs_note st (fun _ => rfl) fun _ => rfl
  · exact .refl st

theorem settled_noteParting (k i : InputId) (hst : st.Settled) : (noteParting k i st).Settled := by
  rw [noteParting]
  split
  · exact hst
  · exact hst

theorem sound_performNoting (depth : Nat) : Sound (performNoting depth) := by
  induction depth with
  | zero => exact sound_hear
  | succ depth ih =>
      refine .of_performs fun i a st hnodup => ?_
      cases a with
      | detach j =>
          have hnoted := performs_noteParting i j st
          exact ⟨hnoted.quiet_trans (performs_act ih i (.detach j) (hnoted.nodup hnodup)),
            fun hfiring hst => settled_act ih i (.detach j) (hnoted.nodup hnodup)
              (hnoted.firing.trans hfiring) (settled_noteParting i j hst)⟩
      | attach j =>
          exact ⟨performs_act ih i (.attach j) hnodup,
            fun hfiring hst => settled_act ih i (.attach j) hnodup hfiring hst⟩
      | isAttached j =>
          exact ⟨performs_act ih i (.isAttached j) hnodup,
            fun hfiring hst => settled_act ih i (.isAttached j) hnodup hfiring hst⟩

/-! ### Passes -/

/-- An input that awaits its share goes on to do so unless it is passed over from then on. -/
theorem Serves.awaits_or_skipped (h : Serves ns i st t st') (hfiring : st.firing = true) {j : InputId}
    (hj : st.Awaits j ∨ j ∈ st.skipped) : st'.Awaits j ∨ j ∈ st'.skipped := by
  rw [h.skipped]
  rcases hj with hj | hj
  · by_cases hd : detachments j t = 0
    · exact .inl (h.awaits_of_undetached hj hd).1
    · exact .inr (.inr ⟨hfiring, Nat.pos_of_ne_zero hd⟩)
  · exact .inr (.inl hj)

theorem sources_of_mem (h : sources ns = []) (hn : n ∈ ns) : sources [n] = [] := by
  obtain ⟨before, after, rfl⟩ := List.append_of_mem hn
  rw [← List.singleton_append, sources_append, sources_append, List.append_eq_nil_iff,
    List.append_eq_nil_iff] at h
  exact h.2.1

theorem lived_passTo (hsound : Sound tell) (htell : Living tell) (hns : ∀ n ∈ ns, sources [n] = [])
    (hbusy : st.busy = []) (hfiring : st.firing = true) (hnodup : st.publisher.inputs.Nodup)
    (hi : st.Awaits i ∨ i ∈ st.skipped) : st.Lived (passTo tell ns st i) := by
  induction ns generalizing st with
  | nil => exact .refl st
  | cons n ns ih =>
      by_cases hskipped : i ∈ st.skipped
      · rw [passTo_skipped tell (n :: ns) hskipped]
        exact .refl st
      · have hawaits := hi.resolve_right hskipped
        have hmem : i ∈ ({ st with busy := i :: st.busy } : Stage).busy := List.mem_cons_self
        have hidle : i ∉ st.busy := by
          rw [hbusy]
          exact List.not_mem_nil
        have henter : Enters i st { st with busy := i :: st.busy } :=
          ⟨rfl, hidle, rfl, rfl, id, fun _ => rfl, fun _ _ => rfl⟩
        obtain ⟨t, hlog, htells⟩ := told_tells htell hmem hnodup [n]
        have hfirst : st.Lived (tellAll tell i [n] st) := by
          refine ⟨t, hlog, henter.lives_callback htells (fun _ _ => rfl) fun hinside => ?_⟩
          have hbearing : ({ st with busy := i :: st.busy } : Stage).bearing i = ⟨true, 0⟩ := hawaits.1
          rw [hawaits.1]
          exact (hbearing ▸ hinside).life_of_news (hns n List.mem_cons_self)
        obtain ⟨t', -, hserves⟩ := serves_tellAll hsound n hbusy hnodup hskipped
        have hpass : passTo tell (n :: ns) st i = passTo tell ns (tellAll tell i [n] st) i := by
          rw [passTo, List.foldl_cons, if_neg hskipped]
          rfl
        rw [hpass]
        exact hfirst.trans (ih (fun n' hn' => hns n' (List.mem_cons_of_mem _ hn'))
          (hserves.busy.trans hbusy) (hserves.firing.trans hfiring) (hserves.nodup hnodup)
          (hserves.awaits_or_skipped hfiring hi))

theorem lived_passes (hsound : Sound tell) (htell : Living tell) (hns : ∀ n ∈ ns, sources [n] = [])
    (is : List InputId) (hbusy : st.busy = []) (hfiring : st.firing = true)
    (hnodup : st.publisher.inputs.Nodup) (his : ∀ i ∈ is, st.Awaits i ∨ i ∈ st.skipped) :
    st.Lived (is.foldl (passTo tell ns) st) := by
  induction is generalizing st with
  | nil => exact .refl st
  | cons i is ih =>
      obtain ⟨t, -, hserves⟩ := serves_passTo hsound ns i hbusy hfiring hnodup
      have hfirst := lived_passTo hsound htell hns hbusy hfiring hnodup (his i List.mem_cons_self)
      exact hfirst.trans (ih (hserves.busy.trans hbusy) (hserves.firing.trans hfiring)
        (hserves.nodup hnodup) fun j hj =>
          hserves.awaits_or_skipped hfiring (his j (List.mem_cons_of_mem _ hj)))

theorem lived_fire (hsound : Sound tell) (htell : Living tell) (hst : st.AtRest) (live : RowSet)
    (batch : Batch) : st.Lived (fire tell live batch st) := by
  rw [fire_eq]
  split
  · exact .refl st
  · have hinputs : (st.fireStart live batch).publisher.inputs = st.publisher.inputs :=
      Publisher.inputs_publish ..
    have hnodup : (st.fireStart live batch).publisher.inputs.Nodup := hinputs ▸ hst.nodup
    have hns : ∀ n ∈ (st.publisher.publish live batch).2, sources [n] = [] := fun n hn =>
      sources_of_mem (st.publisher.sources_publish live batch) hn
    have hawaits : ∀ i ∈ st.publisher.inputs,
        (st.fireStart live batch).Awaits i ∨ i ∈ (st.fireStart live batch).skipped := by
      intro i hi
      refine .inl ⟨(bearing_fireStart ..).trans (hst.bearing_of_mem hi), ?_⟩
      show i ∉ st.skipped
      rw [hst.skipped]
      exact List.not_mem_nil
    rw [hinputs]
    have hbusy : (st.fireStart live batch).busy = [] := hst.busy
    obtain ⟨t, hlog, hlives⟩ :=
      lived_passes hsound htell hns st.publisher.inputs hbusy rfl hnodup hawaits
    generalize st.publisher.inputs.foldl (passTo tell (st.publisher.publish live batch).2)
      (st.fireStart live batch) = passed at hlog hlives ⊢
    have hpassed : st.Lived passed.fireEnd := by
      refine ⟨t, hlog, hlives.busy, fun _ => hlives.nodup hnodup, fun i hi _ => ?_, fun i hi => ?_⟩
      · rw [← bearing_fireStart live batch st i]
        exact hlives.kept i hi id
      · rw [← bearing_fireStart live batch st i]
        exact hlives.life i hi
    exact hpassed.trans (lived_settle htell (hpassed.nodup hst.nodup))

/-! ### Runs -/

theorem lived_turnNoting (hst : st.AtRest) (x : Turn) : st.Lived (st.turnNoting x) := by
  have htell := living_performNoting st.actionsLeft
  cases x with
  | attach i => exact lived_attach htell i hst.nodup
  | detach i => exact lived_detach htell i i hst.nodup
  | update schema => exact ⟨[], (List.append_nil _).symm, rfl, id, fun _ _ _ => .stay _, fun _ _ => .stay _⟩
  | fire live batch => exact lived_fire (sound_performNoting st.actionsLeft) htell hst live batch

theorem atRest_plain : st.plain.AtRest ↔ st.AtRest :=
  ⟨fun h => ⟨⟨h.firing, h.busy, h.skipped, h.nodup⟩, h.settled⟩,
    fun h => ⟨⟨h.firing, h.busy, h.skipped, h.nodup⟩, h.settled⟩⟩

section

variable (shown : Option (Schema × RowSet)) (scripts : AscMap InputId (List (Cue × List Action)))
  (xs : List Turn) (i : InputId)

theorem plain_run :
    ((opening shown scripts).turnsNoting xs).plain = (opening shown scripts).turns xs :=
  plain_turnsNoting (opening shown scripts) xs

theorem atRest_turnsNoting : ((opening shown scripts).turnsNoting xs).AtRest :=
  atRest_plain.mp (plain_run shown scripts xs ▸ (atRest_turns shown scripts xs).1)

/-- A run gives every input a life. -/
theorem life_turnsNoting :
    Life ⟨false, 0⟩ (incidents i ((opening shown scripts).turnsNoting xs).log)
      (((opening shown scripts).turnsNoting xs).bearing i) := by
  induction xs using List.reverseRecOn with
  | nil =>
      have hbearing : (opening shown scripts).bearing i = ⟨false, 0⟩ := by cases shown <;> rfl
      exact hbearing ▸ .stay _
  | append_singleton xs x ih =>
      have hst := atRest_turnsNoting shown scripts xs
      obtain ⟨t, hlog, hlives⟩ := lived_turnNoting hst x
      rw [turnsNoting_concat, hlog, incidents_append]
      refine ih.trans (hlives.life i ?_)
      rw [hst.busy]
      exact List.not_mem_nil

end

/-! ### What recorders know of it -/

/-- A recorder has taken down what is noted that its input heard. -/
def Recorded (st : Stage) (i : InputId) : Prop := (st.recorder i).events = heardBy i st.log

theorem Recorded.of_heard (h : st.Recorded i) (hlog : st'.log = st.log ++ t)
    (hheard : st'.recorder i = (heardBy i t).foldl Recorder.hear (st.recorder i)) :
    st'.Recorded i := by
  rw [Recorded, hheard, Recorder.events_foldl_hear, hlog, heardBy_append, h]

theorem Recorded.of_performs {told : InputId → List Notice} (h : st.Recorded i)
    (hperforms : st.Performs told st') : st'.Recorded i := by
  obtain ⟨t, hlog, hplays⟩ := hperforms
  exact h.of_heard hlog (hplays.recorder i)

theorem Recorded.turn (h : st.Recorded i) (hst : st.AtRest) (x : Turn) : (st.turn x).Recorded i := by
  have htell := sound_tell st
  cases x with
  | attach j => exact h.of_performs (performs_attach htell j hst.nodup)
  | detach j =>
      have hnoted := h.of_performs (performs_detach htell j j hst.nodup)
      rw [Recorded, note, heardBy_append] at hnoted
      exact hnoted.trans (List.append_nil _)
  | update schema => exact h
  | fire live batch =>
      obtain ⟨⟨t, hlog, hfires⟩, -⟩ := fires_fire htell live batch hst
      exact h.of_heard hlog (hfires.recorder i)

theorem recorded_turns (shown : Option (Schema × RowSet))
    (scripts : AscMap InputId (List (Cue × List Action))) (xs : List Turn) (i : InputId) :
    ((opening shown scripts).turns xs).Recorded i := by
  induction xs using List.reverseRecOn with
  | nil =>
      rw [Recorded, turns, List.foldl_nil, recorder_opening]
      rfl
  | append_singleton xs x ih =>
      rw [turns, List.foldl_append]
      exact ih.turn (atRest_turns shown scripts xs).1 x

theorem heardBy_plain (st : Stage) (i : InputId) : heardBy i st.plain.log = heardBy i st.log := by
  rw [heardBy, heardBy, plain, List.filterMap_filter]
  congr 1
  funext e
  cases e with
  | heard j n => rfl
  | did k a answer =>
      cases a with
      | attach j => rfl
      | isAttached j => rfl
      | detach j => cases answer <;> rfl

/-- An input that was aware of where it stood when it was detached, and that was not attached again,
is owed nothing when a call from outside has returned. -/
theorem not_mem_owed_of_aware (hst : st.AtRest) {before after : List Incident} {late : List Notice}
    (hrecorded : (st.recorder i).events = Incident.notices (before ++ .parted :: after))
    (haware : Incident.Aware before) (hnot : .told (.source true) ∉ after)
    (huntil : Incident.untilAttached after = late) (hlate : sources late = []) : i ∉ st.owed := by
  intro hmem
  refine (hst.settled i hmem (by rw [hst.busy]; exact List.not_mem_nil)).2 ?_
  -- all that it was told since then says nothing of where it stands
  rw [Recorder.lastSource, hrecorded, Incident.notices_append, Incident.notices_parted,
    ← Incident.untilAttached_of_not_mem hnot, huntil, sources_append, hlate, List.append_nil]
  exact haware.2

/-- From the beginning of a detachment until it is attached again, an input hears of detachments
alone, but for a notice under way: the schema, or the rest of an earlier farewell. -/
theorem silent_once_detached (shown : Option (Schema × RowSet))
    (scripts : AscMap InputId (List (Cue × List Action))) (xs : List Turn) (i : InputId) :
    let st := (opening shown scripts).turnsNoting xs
    let life := incidents i st.log
    st.plain = (opening shown scripts).turns xs ∧
      life.count (.told (.source false)) + st.owed.count i = life.count .parted ∧
      ∀ before after, life = before ++ .parted :: after →
        ∃ late n, Incident.untilAttached after = late ++ farewells n ∧
          (late = [] ∨
            (∃ s, late = [.schema (some s)] ∧ before.getLast? = some (.told (.source true))) ∨
            late = [.source false] ∧ ¬Incident.CaughtUp before) ∧
          (Incident.CaughtUp before → n ≤ 1) ∧
          (Incident.Aware before → .told (.source true) ∉ after → n = 1) := by
  intro st life
  have hplain : st.plain = (opening shown scripts).turns xs := plain_run shown scripts xs
  have hlife : Life ⟨false, 0⟩ life (st.bearing i) := life_turnsNoting shown scripts xs i
  have hrecorded : (st.recorder i).events = Incident.notices life := by
    have hevents := recorded_turns shown scripts xs i
    rw [← hplain, Recorded, heardBy_plain] at hevents
    exact hevents.trans (notices_incidents i st.log).symm
  refine ⟨hplain, hlife.count_farewell_add_owed, fun before after hsplit => ?_⟩
  obtain ⟨late, n, huntil, hlate, honce⟩ := hlife.untilAttached_after_parted hsplit
  refine ⟨late, n, huntil, hlate, fun hcaught => (honce hcaught).1, fun haware hnot => ?_⟩
  have htold : n + st.owed.count i = 1 := (honce haware.1).2 hnot
  by_contra hne
  obtain rfl : n = 0 := by omega
  have hsources : sources late = [] := by
    rcases hlate with rfl | ⟨s, rfl, -⟩ | ⟨-, hbehind⟩
    · rfl
    · rfl
    · exact absurd haware.1 hbehind
  have howed := not_mem_owed_of_aware (atRest_turnsNoting shown scripts xs) (hsplit ▸ hrecorded) haware hnot
    (huntil.trans (List.append_nil late)) hsources
  rw [List.count_eq_zero_of_not_mem howed] at htold
  cases htold

/-- An input that detaches itself in a pass hears of it when the pass is over, and nothing else. -/
theorem silent_once_detached_inPass :
    let st := (opening (some (.empty "s", .ofList [1]))
      (.ofList [(0, [(.added, []), (.added, [.detach 0])])])).turnsNoting
      [.attach 0, .fire ∅ { added := .ofList [2] }]
    ∃ before after, incidents 0 st.log = before ++ parted :: after ∧ Incident.Aware before ∧
      told (.source true) ∉ after ∧ Incident.untilAttached after = farewells 1 := by
  intro st
  obtain ⟨-, -, hsilent⟩ := silent_once_detached (some (.empty "s", .ofList [1]))
    (.ofList [(0, [(.added, []), (.added, [.detach 0])])])
    [.attach 0, .fire ∅ { added := .ofList [2] }] 0
  let before : List Incident := [told (.source true), told (.schema (some (.empty "s"))),
    told (.added [1]), told (.added [2])]
  let after : List Incident := [told (.schema none), told (.source false)]
  have hsplit : incidents 0 st.log = before ++ parted :: after := by decide +kernel
  have haware : Incident.Aware before := by decide
  have hnot : told (.source true) ∉ after := by decide
  obtain ⟨late, n, huntil, hlate, -, honce⟩ := hsilent before after hsplit
  obtain rfl : n = 1 := honce haware hnot
  have hnone : late = [] := by
    rcases hlate with h | ⟨s, -, hlast⟩ | ⟨-, hbehind⟩
    · exact h
    · exact absurd hlast (by decide)
    · exact absurd haware.1 hbehind
  exact ⟨before, after, hsplit, haware, hnot, by rw [huntil, hnone, List.nil_append]⟩

/-- An input that detaches itself when it is told that it is attached hears the schema after that. -/
theorem schema_told_late :
    let st := (opening (some (.empty "s", .ofList [1])) (.ofList [(0, [(.attached, [.detach 0])])])).turnsNoting
      [.attach 0]
    incidents 0 st.log = [told (.source true), parted, told (.schema (some (.empty "s"))),
      told (.schema none), told (.source false)] := by
  decide +kernel

/-- One that is attached by another while it is owed the notices of a detachment can detach itself
between the two. It hears the second of them after that, and is still owed those of its own. -/
example :
    let st := (opening (some (.empty "s", .ofList [1])) (.ofList
      [(0, [(.added, []), (.added, [.detach 0]), (.withdrawn, [.detach 0])]),
        (1, [(.added, []), (.added, [.attach 0])])])).turnsNoting
      [.attach 0, .attach 1, .fire ∅ { added := .ofList [2] }]
    (incidents 0 st.log).drop 4 = [parted, told (.source true), told (.schema (some (.empty "s"))),
      told (.added [1, 2]), told (.schema none), parted, told (.source false)] := by
  decide +kernel

end Stage

end TableFeed
