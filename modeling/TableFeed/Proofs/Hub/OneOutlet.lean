import Mathlib
import TableFeed.Proofs.Hub.AttachedSink
/-!
A hub whose inputs are the sinks of one outlet. Its tables are in order and no subscription has two
sinks; whatever happens to a table or to an input keeps it so. What is sent then comes from the
sinks, and a machine that stands with one of them is led along.
-/

namespace TableFeed

structure Table.Staged (t : Table) (frameLimit : Nat) (n : Nat) : Prop where
  coherent : t.Coherent
  nodup : t.publisher.inputs.Nodup
  within : t.Within defaultRowLimit
  size : t.shown.schema.size ≤ 0x100000000 ∨ frameLimit ≤ 0x100000000
  known : ∀ i ∈ t.publisher.inputs, i < n

namespace Table.Staged

variable {t : Table} {frameLimit n : Nat}

theorem create {schema : Schema} (hfits : (Table.create schema).Fits defaultRowLimit frameLimit) :
    (Table.create schema).Staged frameLimit n := by
  refine ⟨coherent_create schema, List.nodup_nil, ?_, ?_, fun i hi => by cases hi⟩
  · rintro row (hrow | hrow | hrow) <;> exact absurd hrow List.not_mem_nil
  · exact hfits.2

theorem move {t' : Table} (h : t.Staged frameLimit n) (hmove : Move t t')
    (hlive : ∀ row ∈ t'.rows.live, row ≤ defaultRowLimit) : t'.Staged frameLimit n :=
  ⟨h.coherent.move hmove, hmove.inputs_eq ▸ h.nodup, h.within.move hmove hlive,
    h.coherent.shown_move hmove ▸ h.size, hmove.inputs_eq ▸ h.known⟩

theorem fire (h : t.Staged frameLimit n) (hfits : t.Fits defaultRowLimit frameLimit) :
    t.fire.1.Staged frameLimit n := by
  have hinputs : t.fire.1.publisher.inputs = t.publisher.inputs := Hub.inputs_publish t
  have hschema : t.fire.1.shown.schema = t.schema := Sheet.schema_foldl_resetRow ..
  exact ⟨h.coherent.fire, hinputs ▸ h.nodup, h.within.fire h.coherent, hschema ▸ hfits.2,
    hinputs ▸ h.known⟩

/-- Inputs come and go. -/
theorem with_publisher (h : t.Staged frameLimit n) {p : Publisher}
    (hcoherent : Table.Coherent { t with publisher := p }) (hrows : p.rows = t.publisher.rows)
    (hnodup : p.inputs.Nodup) (hknown : ∀ i ∈ p.inputs, i < n) :
    Staged { t with publisher := p } frameLimit n :=
  ⟨hcoherent, hnodup, h.within.with_publisher hrows, h.size, hknown⟩

theorem grow (h : t.Staged frameLimit n) {n' : Nat} (hn : n ≤ n') : t.Staged frameLimit n' :=
  ⟨h.coherent, h.nodup, h.within, h.size, fun i hi => Nat.lt_of_lt_of_le (h.known i hi) hn⟩

end Table.Staged

namespace Hub

/-- A hub whose inputs are sinks that send to outlet `o`, for different subscriptions. -/
structure Stage (h : Hub) (o : OutletId) (frameLimit : Nat) : Prop where
  tables : ∀ (k : Nat) (t : AnyTable), h.tables[k]? = some t →
    t.table.Staged frameLimit h.inputs.length
  sinks : ∀ (i : InputId) (x : Input), h.inputs[i]? = some x →
    ∃ s, x = .sink s ∧ s.outlet = o ∧ s.sink.encoder.limit = frameLimit
  unique : ∀ (i j : InputId) (s s' : SinkInput), h.inputs[i]? = some (.sink s) →
    h.inputs[j]? = some (.sink s') → s.sink.subscription = s'.sink.subscription → i = j
  isOpen : h.IsOpen o

def Vacant (h : Hub) (o : OutletId) (sub : Int32) : Prop :=
  ∀ i : InputId, ¬∃ x, h.inputs[i]? = some x ∧ x.Addresses o sub

theorem SameInputs.vacant_iff {h g : Hub} (hg : h.SameInputs g) (o : OutletId) (sub : Int32) :
    g.Vacant o sub ↔ h.Vacant o sub := forall_congr' fun i => not_congr (hg.addresses_iff i)

theorem Vacant.of_sameInputs {h g : Hub} {o : OutletId} {sub : Int32} (hv : h.Vacant o sub)
    (hg : h.SameInputs g) : g.Vacant o sub := (hg.vacant_iff o sub).mpr hv

/-- Nothing is sent for a subscription without a sink. -/
theorem Vacant.sentFor_eq {h g : Hub} {o : OutletId} {sub : Int32} (hv : h.Vacant o sub)
    (hg : h.Sends g o) : g.sentFor o sub = h.sentFor o sub := by
  obtain ⟨rs, hrs, hall⟩ := hg
  have hnone : rs.filter (·.subscription = sub) = [] := by
    rw [List.filter_eq_nil_iff]
    intro r hr hsub
    obtain ⟨i, s, hs, ho, hfrom⟩ := hall r hr
    exact hv i ⟨_, hs, ho, hfrom.subscription_eq.symm.trans (of_decide_eq_true hsub)⟩
  rw [sentFor, sentFor, hrs, List.filter_append, hnone, List.append_nil]

/-- An input is the new one or was there before. -/
theorem input_addInput {h : Hub} {i : Nat} {x y : Input}
    (hy : (h.addInput x).1.inputs[i]? = some y) :
    h.inputs[i]? = some y ∨ (i = h.inputs.length ∧ y = x) := by
  have hat : (h.inputs ++ [x])[i]? = some y := hy
  rw [List.getElem?_append] at hat
  split at hat
  · exact .inl hat
  · obtain ⟨hi, hat⟩ := List.getElem?_eq_some_iff.mp hat
    rw [List.getElem_singleton] at hat
    rw [List.length_singleton] at hi
    exact .inr ⟨by omega, hat.symm⟩

theorem SameInputs.length_eq {h g : Hub} (hg : h.SameInputs g) :
    g.inputs.length = h.inputs.length := by
  have hnone : ∀ j : InputId, g.inputs[j]? = none ↔ h.inputs[j]? = none := by
    intro j
    have hgj := hg.input j
    revert hgj
    generalize h.inputs[j]? = x
    generalize g.inputs[j]? = y
    rintro (⟨-⟩ | -) <;> simp
  simp only [List.getElem?_eq_none_iff] at hnone
  exact Nat.le_antisymm ((hnone _).mpr (Nat.le_refl _)) ((hnone _).mp (Nat.le_refl _))

namespace Stage

variable {h g : Hub} {o : OutletId} {frameLimit : Nat} {k : Nat} {t : AnyTable}

theorem publishes_table (hs : h.Stage o frameLimit) (ht : h.tables[k]? = some t) :
    h.Publishes k t := by
  refine ⟨ht, (hs.tables k t ht).coherent, (hs.tables k t ht).nodup, fun i hi r hr => ?_⟩
  obtain ⟨s, hsink, -⟩ := hs.sinks i _ hr
  cases hsink

theorem alone (hs : h.Stage o frameLimit) {i : InputId} {s : SinkInput}
    (hi : h.inputs[i]? = some (.sink s)) : h.Alone i o s.sink.subscription := by
  rintro j hj ⟨x, hx, hadr⟩
  obtain ⟨s', rfl, -⟩ := hs.sinks j x hx
  exact hj (hs.unique j i s' s hx hi hadr.2)

/-- Nothing but the state of the inputs has changed, and tables that are still in order. -/
theorem of_sameInputs (hs : h.Stage o frameLimit) (hg : h.SameInputs g) (hopen : g.IsOpen o)
    (htables : ∀ (k : Nat) (t : AnyTable), g.tables[k]? = some t →
      t.table.Staged frameLimit h.inputs.length) : g.Stage o frameLimit := by
  refine ⟨fun k t ht => hg.length_eq.symm ▸ htables k t ht, fun i x hx => ?_,
    fun i j s s' hi hj hsub => ?_, hopen⟩
  · have hgi := hg.input i
    rw [hx] at hgi
    revert hgi
    rcases hold : h.inputs[i]? with _ | y
    · rintro ⟨⟩
    · rintro (@⟨_, _, ⟨r, r'⟩ | ⟨ho, hsame⟩⟩)
      · obtain ⟨s, hsink, -⟩ := hs.sinks i _ hold
        cases hsink
      · obtain ⟨s, hsink, hos, hlimit⟩ := hs.sinks i _ hold
        cases hsink
        exact ⟨_, rfl, ho.trans hos, hsame.2.2.trans hlimit⟩
  · obtain ⟨t, ht, -, hsame⟩ := hg.of_sink hi
    obtain ⟨t', ht', -, hsame'⟩ := hg.of_sink hj
    exact hs.unique i j t t' ht ht' (hsame.1.symm.trans (hsub.trans hsame'.1))

/-- What is sent comes from the sinks. -/
theorem sent (hs : h.Stage o frameLimit) (hg : h.Sends g o) :
    ∃ rs, g.sentTo o = h.sentTo o ++ rs ∧
      ∀ r ∈ rs, r.FromSink r.subscription frameLimit ∧ ¬h.Vacant o r.subscription := by
  obtain ⟨rs, hsent, hall⟩ := hg
  refine ⟨rs, hsent, fun r hr => ?_⟩
  obtain ⟨i, s, hi, ho, hfrom⟩ := hall r hr
  obtain ⟨s', hsink, -, hlimit⟩ := hs.sinks i _ hi
  cases hsink
  have hsub := hfrom.subscription_eq
  refine ⟨?_, fun hv => hv i ⟨_, hi, ho, hsub.symm⟩⟩
  rw [hsub, ← hlimit]
  exact hfrom

/-! ### Owner's operations -/

theorem act (hs : h.Stage o frameLimit) (a : Act)
    (hfits : ∀ t, (h.deed k (.act a)).tables[k]? = some t →
      t.table.Fits defaultRowLimit frameLimit) : (h.deed k (.act a)).Stage o frameLimit := by
  have hinputs : h.SameInputs (h.deed k (.act a)) := ⟨(SameInputs.refl h).input⟩
  refine hs.of_sameInputs hinputs hs.isOpen fun j t ht => ?_
  by_cases hkj : k = j
  · subst hkj
    have hfit := hfits t ht
    rcases hk : h.tables[k]? with _ | t'
    · simp [deed, hk] at ht
    rw [table_act hk, Option.some.injEq] at ht
    subst ht
    have hstaged := hs.tables k t' hk
    have hroom : a.inserts = true → t'.table.rows.HasRoom := fun _ =>
      hstaged.within.hasRoom (by decide)
    exact hstaged.move (AnyTable.moves_act hstaged.coherent.sound hroom) hfit.1
  · rw [table_act_of_ne hkj] at ht
    exact hs.tables j t ht

/-! ### Passes -/

theorem sameInputs_fire (h : Hub) (k : Nat) : h.SameInputs (h.fire k) := by
  rcases ht : h.tables[k]? with _ | t
  · rw [Hub.fire, ht]
    exact .refl h
  · refine ⟨fun j => ?_⟩
    rw [input_fire ht]
    exact (sameInputs_tellEach (h.published k t) _ _ _).input j

theorem isOpen_fire (hopen : h.IsOpen o) (k : Nat) : (h.fire k).IsOpen o := by
  rcases ht : h.tables[k]? with _ | t
  · rw [Hub.fire, ht]
    exact hopen
  · have hopen' : (h.published k t).IsOpen o := hopen
    rw [fire_eq ht]
    exact isOpen_tellEach hopen' ..

theorem sends_fire (hopen : h.IsOpen o) (k : Nat) : h.Sends (h.fire k) o := by
  rcases ht : h.tables[k]? with _ | t
  · rw [Hub.fire, ht]
    exact sends_nothing rfl
  · have hopen' : (h.published k t).IsOpen o := hopen
    rw [fire_eq ht]
    exact sends_tellEach hopen' _ _

theorem fire (hs : h.Stage o frameLimit)
    (hfits : ∀ t, h.tables[k]? = some t → t.table.Fits defaultRowLimit frameLimit) :
    (h.fire k).Stage o frameLimit := by
  refine hs.of_sameInputs (sameInputs_fire h k) (isOpen_fire hs.isOpen k) fun j t ht => ?_
  rcases hk : h.tables[k]? with _ | t'
  · rw [Hub.fire, hk] at ht
    exact hs.tables j t ht
  · by_cases hkj : k = j
    · subst hkj
      rw [table_fire hk, Option.some.injEq] at ht
      rw [← ht, AnyTable.table_mapTable]
      exact (hs.tables k t' hk).fire (hfits t' hk)
    · rw [table_fire_of_ne hk hkj] at ht
      exact hs.tables j t ht

/-! ### Attaching and detaching -/

theorem sameInputs_attach (ht : h.tables[k]? = some t) (i : InputId) :
    h.SameInputs (h.attach (.table k) i) := by
  rw [attach_eq ht]
  split
  · exact .refl h
  · exact ⟨(sameInputs_tellAll (h.entered k i) _ _ _).input⟩

theorem isOpen_attach (hopen : h.IsOpen o) (ht : h.tables[k]? = some t) (i : InputId) :
    (h.attach (.table k) i).IsOpen o := by
  have hopen' : (h.entered k i).IsOpen o := hopen
  rw [attach_eq ht]
  split
  · exact hopen
  · exact isOpen_tellAll hopen' _

theorem sends_attach (hopen : h.IsOpen o) (ht : h.tables[k]? = some t) (i : InputId) :
    h.Sends (h.attach (.table k) i) o := by
  have hopen' : (h.entered k i).IsOpen o := hopen
  rw [attach_eq ht]
  split
  · exact sends_nothing rfl
  · exact sends_tellAll hopen' _

theorem attach (hs : h.Stage o frameLimit) (ht : h.tables[k]? = some t) {i : InputId}
    (hi : i < h.inputs.length) : (h.attach (.table k) i).Stage o frameLimit := by
  refine hs.of_sameInputs (sameInputs_attach ht i) (isOpen_attach hs.isOpen ht i) fun j t' ht' => ?_
  by_cases hkj : k = j
  · subst hkj
    have hstaged := hs.tables k t ht
    rw [table_attach ht, Option.some.injEq] at ht'
    rw [← ht', AnyTable.table_mapTable]
    refine hstaged.with_publisher (hstaged.coherent.attach i) (Publisher.rows_attach _ i)
      (Publisher.nodup_attach hstaged.nodup i) fun j hj => ?_
    rcases Publisher.mem_attach.mp hj with hj | rfl
    · exact hstaged.known j hj
    · exact hi
  · rw [table_attach_of_ne hkj] at ht'
    exact hs.tables j t' ht'

theorem sameInputs_detach (ht : h.tables[k]? = some t) (i : InputId) :
    h.SameInputs (h.detach (.table k) i).1 := by
  rw [detach_eq ht]
  split
  · exact ⟨(sameInputs_tellAll (h.left k i) _ _ _).input⟩
  · exact .refl h

theorem isOpen_detach (hopen : h.IsOpen o) (ht : h.tables[k]? = some t) (i : InputId) :
    (h.detach (.table k) i).1.IsOpen o := by
  have hopen' : (h.left k i).IsOpen o := hopen
  rw [detach_eq ht]
  split
  · exact isOpen_tellAll hopen' _
  · exact hopen

theorem sentTo_detach (hopen : h.IsOpen o) (ht : h.tables[k]? = some t) (i : InputId) :
    (h.detach (.table k) i).1.sentTo o = h.sentTo o := by
  have hopen' : (h.left k i).IsOpen o := hopen
  rw [detach_eq ht]
  split
  · exact sentTo_farewell hopen' _ i
  · rfl

/-- The inputs of a table are at most those it had, whichever table an input is taken off. -/
theorem table_detach (ht : h.tables[k]? = some t) (i : InputId) {j : Nat} {t' : AnyTable}
    (ht' : (h.detach (.table k) i).1.tables[j]? = some t') :
    ∃ old, h.tables[j]? = some old ∧
      (t' = old ∨ t' = old.mapTable fun t => { t with publisher := t.publisher.detach i }) := by
  rw [detach_eq ht] at ht'
  split at ht'
  · rw [(sameOutputs_tellAll ..).tables] at ht'
    by_cases hkj : k = j
    · subst hkj
      rw [table_left ht, Option.some.injEq] at ht'
      exact ⟨t, ht, .inr ht'.symm⟩
    · rw [table_left_of_ne hkj] at ht'
      exact ⟨t', ht', .inl rfl⟩
  · exact ⟨t', ht', .inl rfl⟩

theorem detach (hs : h.Stage o frameLimit) (ht : h.tables[k]? = some t) (i : InputId) :
    (h.detach (.table k) i).1.Stage o frameLimit := by
  refine hs.of_sameInputs (sameInputs_detach ht i) (isOpen_detach hs.isOpen ht i) fun j t' ht' => ?_
  obtain ⟨old, hold, rfl | rfl⟩ := table_detach ht i ht'
  · exact hs.tables j _ hold
  · have hstaged := hs.tables j old hold
    rw [AnyTable.table_mapTable]
    exact hstaged.with_publisher (hstaged.coherent.detach i) rfl (hstaged.nodup.erase i) fun j hj =>
      hstaged.known j (List.mem_of_mem_erase hj)

/-! ### Replies and new sinks -/

theorem emit (hs : h.Stage o frameLimit) (r : Response) : (h.emit o r).Stage o frameLimit :=
  hs.of_sameInputs ⟨(SameInputs.refl h).input⟩ (isOpen_emit hs.isOpen o r) hs.tables

/-- A sink for a subscription that has none. -/
theorem addInput (hs : h.Stage o frameLimit) {s : SinkInput} (ho : s.outlet = o)
    (hlimit : s.sink.encoder.limit = frameLimit)
    (hnew : h.Vacant o s.sink.subscription) :
    (h.addInput (.sink s)).1.Stage o frameLimit := by
  -- the new sink is for another subscription than all others
  have hother : ∀ (i : InputId) (s' : SinkInput), h.inputs[i]? = some (.sink s') →
      s'.sink.subscription ≠ s.sink.subscription := by
    intro i s' hs' hsub
    obtain ⟨_, hsink, ho', -⟩ := hs.sinks i _ hs'
    cases hsink
    exact hnew i ⟨_, hs', ho', hsub⟩
  refine ⟨fun k t ht => ?_, fun i x hx => ?_, fun i j s₁ s₂ hi hj hsub => ?_, hs.isOpen⟩
  · exact (hs.tables k t ht).grow (by simp [Hub.addInput])
  · rcases input_addInput hx with hx | ⟨-, rfl⟩
    · exact hs.sinks i x hx
    · exact ⟨s, rfl, ho, hlimit⟩
  · rcases input_addInput hi with hi | ⟨hilast, heq⟩ <;>
      rcases input_addInput hj with hj | ⟨hjlast, heq'⟩
    · exact hs.unique i j s₁ s₂ hi hj hsub
    · cases heq'
      exact absurd hsub (hother i s₁ hi)
    · cases heq
      exact absurd hsub.symm (hother j s₂ hj)
    · rw [hilast, hjlast]

end Stage

end Hub

end TableFeed
