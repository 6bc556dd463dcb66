import Mathlib
import TableFeed.Proofs.Hub.OneOutlet
/-!
A machine that follows a table through the sink of its subscription. It keeps following while any
table changes or fires, while other sinks come and go, and while replies are sent in between.
-/

namespace TableFeed.Hub

/-- A machine that stands with sink `i`, which is attached to table `k` and to no other. -/
structure Follows (h : Hub) (k : Nat) (i : InputId) (o : OutletId) (e : Encoder) (m : Mirror) :
    Prop where
  posted : ∃ (t : AnyTable) (n : Nat), h.tables[k]? = some t ∧ h.Posted k t.table i o e m n
  only : ∀ (j : Nat) (t : AnyTable), h.tables[j]? = some t → i ∈ t.table.publisher.inputs → j = k

/-- What was sent for a subscription from one hub to the next takes its machine on. -/
def Leads (h g : Hub) (o : OutletId) (sub : Int32) (m m' : Mirror) : Prop :=
  ∃ rs, g.sentFor o sub = h.sentFor o sub ++ rs ∧ m.Takes sub defaultRowLimit rs m'

theorem leads_nowhere {h g : Hub} {o : OutletId} {sub : Int32}
    (hg : g.sentFor o sub = h.sentFor o sub) (m : Mirror) : h.Leads g o sub m m :=
  ⟨[], by rw [hg, List.append_nil], .nil m⟩

namespace Follows

variable {h g : Hub} {k : Nat} {i : InputId} {o : OutletId} {e : Encoder} {m : Mirror}
  {frameLimit : Nat}

/-- Tables with the same inputs, and a sink that did not notice. -/
theorem congr (hf : h.Follows k i o e m) (htables : g.tables = h.tables)
    (hi : g.inputs[i]? = h.inputs[i]?) : g.Follows k i o e m := by
  obtain ⟨t, n, ht, hposted⟩ := hf.posted
  exact ⟨⟨t, n, htables ▸ ht, hposted.congr hi⟩, htables ▸ hf.only⟩

theorem exists_employs (hf : h.Follows k i o e m) : ∃ s, h.Employs i o e s := by
  obtain ⟨t, n, -, -, s, hs, -⟩ := hf.posted
  exact ⟨s, hs⟩

theorem alone (hf : h.Follows k i o e m) (hs : h.Stage o frameLimit) :
    h.Alone i o e.subscription := by
  obtain ⟨s, hi, -, hsame⟩ := hf.exists_employs
  have hsub : s.sink.subscription = e.subscription := hsame.1
  exact hsub ▸ hs.alone hi

theorem act (hf : h.Follows k i o e m) (hs : h.Stage o frameLimit) (j : Nat) (a : Act) :
    (h.deed j (.act a)).Follows k i o e m := by
  have hmove : ∀ t, h.tables[j]? = some t → Move t.table (t.act a).table := by
    intro t ht
    have hstaged := hs.tables j t ht
    exact AnyTable.moves_act hstaged.coherent.sound fun _ => hstaged.within.hasRoom (by decide)
  obtain ⟨t, n, ht, hposted⟩ := hf.posted
  refine ⟨?_, fun l t' ht' hi => ?_⟩
  · by_cases hjk : j = k
    · subst hjk
      exact ⟨t.act a, n, table_act ht a,
        (hposted.move (hs.tables j t ht).coherent (hmove t ht)).congr rfl⟩
    · exact ⟨t, n, (table_act_of_ne hjk a).trans ht, hposted.congr rfl⟩
  · by_cases hjl : j = l
    · subst hjl
      rcases hj : h.tables[j]? with _ | old
      · simp [deed, hj] at ht'
      rw [table_act hj, Option.some.injEq] at ht'
      rw [← ht', (hmove old hj).inputs_eq] at hi
      exact hf.only j old hj hi
    · rw [table_act_of_ne hjl] at ht'
      exact hf.only l t' ht' hi

/-- Another table fires. -/
theorem fire_other (hf : h.Follows k i o e m) (hs : h.Stage o frameLimit) {j : Nat} {t : AnyTable}
    (ht : h.tables[j]? = some t) (hjk : j ≠ k) :
    (h.fire j).sentFor o e.subscription = h.sentFor o e.subscription ∧
      (h.fire j).inputs[i]? = h.inputs[i]? := by
  have hi : i ∉ t.table.publisher.inputs := fun hi => hjk (hf.only j t ht hi)
  have hopen : (h.published j t).IsOpen o := hs.isOpen
  refine ⟨?_, ?_⟩
  · rw [fire_eq ht]
    exact sentFor_tellEach_of_not_addresses hopen
      (fun l hl => hf.alone hs l fun heq => hi (heq ▸ hl)) _
  · rw [input_fire ht, input_tellEach_of_not_mem hi]
    rfl

theorem fire (hf : h.Follows k i o e m) (hs : h.Stage o frameLimit) (he : e.limit = frameLimit)
    (j : Nat)
    (hfits : ∀ t, h.tables[j]? = some t → t.table.Fits defaultRowLimit frameLimit) :
    ∃ m', h.Leads (h.fire j) o e.subscription m m' ∧ (h.fire j).Follows k i o e m' := by
  rcases hj : h.tables[j]? with _ | t
  · rw [Hub.fire, hj]
    exact ⟨m, leads_nowhere rfl m, hf⟩
  have honly : ∀ (l : Nat) (t' : AnyTable), (h.fire j).tables[l]? = some t' →
      i ∈ t'.table.publisher.inputs → l = k := by
    intro l t' ht' hi
    by_cases hjl : j = l
    · subst hjl
      have hinputs : t.table.fire.1.publisher.inputs = t.table.publisher.inputs :=
        inputs_publish t.table
      rw [table_fire hj, Option.some.injEq] at ht'
      rw [← ht', AnyTable.table_mapTable, hinputs] at hi
      exact hf.only j t hj hi
    · rw [table_fire_of_ne hj hjl] at ht'
      exact hf.only l t' ht' hi
  obtain ⟨t', n, ht', hposted⟩ := hf.posted
  by_cases hjk : j = k
  · subst hjk
    rw [hj, Option.some.injEq] at ht'
    subst ht'
    obtain ⟨rs, m', hsent, htakes, hposted'⟩ := hposted.fire (hs.publishes_table hj)
      (hs.tables j t hj).within (he ▸ (hfits t hj).2) hs.isOpen (hf.alone hs)
    refine ⟨m', ⟨rs, hsent, htakes⟩, ⟨_, n + failures rs, table_fire hj, ?_⟩, honly⟩
    rw [AnyTable.table_mapTable]
    exact hposted'
  · obtain ⟨hsent, hinput⟩ := hf.fire_other hs hj hjk
    exact ⟨m, leads_nowhere hsent m,
      ⟨t', n, (table_fire_of_ne hj hjk).trans ht', hposted.congr hinput⟩, honly⟩

/-! ### Other sinks -/

/-- Another input is attached to a table. -/
theorem attach (hf : h.Follows k i o e m) (hs : h.Stage o frameLimit) {j : Nat} {t : AnyTable}
    (ht : h.tables[j]? = some t) {i' : InputId} (hi' : i' ≠ i) :
    (h.attach (.table j) i').sentFor o e.subscription = h.sentFor o e.subscription ∧
      (h.attach (.table j) i').Follows k i o e m := by
  have hopen : (h.entered j i').IsOpen o := hs.isOpen
  have hother : ¬∃ x, (h.entered j i').inputs[i']? = some x ∧ x.Addresses o e.subscription :=
    hf.alone hs i' hi'
  have hsent : (h.attach (.table j) i').sentFor o e.subscription = h.sentFor o e.subscription := by
    rw [attach_eq ht]
    split
    · rfl
    · exact sentFor_tellAll_of_not_addresses hopen hother _
  have hinput : (h.attach (.table j) i').inputs[i]? = h.inputs[i]? := by
    rw [attach_eq ht]
    split
    · rfl
    · rw [input_tellAll_of_ne _ _ hi']
      rfl
  have hmem : ∀ p : Publisher, i ∈ (p.attach i').inputs ↔ i ∈ p.inputs := by
    intro p
    rw [Publisher.mem_attach]
    exact or_iff_left (Ne.symm hi')
  obtain ⟨t', n, ht', hposted⟩ := hf.posted
  refine ⟨hsent, ?_, fun l u hu hi => ?_⟩
  · by_cases hjk : j = k
    · subst hjk
      rw [ht, Option.some.injEq] at ht'
      subst ht'
      refine ⟨_, n, table_attach ht i', ?_⟩
      rw [AnyTable.table_mapTable]
      exact (hposted.congr hinput).with_publisher (Publisher.rows_attach _ i')
        ((hmem _).mpr hposted.1)
    · exact ⟨t', n, (table_attach_of_ne hjk i').trans ht', hposted.congr hinput⟩
  · by_cases hjl : j = l
    · subst hjl
      rw [table_attach ht, Option.some.injEq] at hu
      rw [← hu, AnyTable.table_mapTable] at hi
      exact hf.only j t ht ((hmem _).mp hi)
    · rw [table_attach_of_ne hjl] at hu
      exact hf.only l u hu hi

/-- Another input is taken off a table. -/
theorem detach (hf : h.Follows k i o e m) {j : Nat} {t : AnyTable} (ht : h.tables[j]? = some t)
    {i' : InputId} (hi' : i' ≠ i) : (h.detach (.table j) i').1.Follows k i o e m := by
  have hinput : (h.detach (.table j) i').1.inputs[i]? = h.inputs[i]? := by
    rw [detach_eq ht]
    split
    · rw [input_tellAll_of_ne _ _ hi']
      rfl
    · rfl
  obtain ⟨t', n, ht', hposted⟩ := hf.posted
  refine ⟨?_, fun l u hu hi => ?_⟩
  · rw [detach_eq ht] at hinput ⊢
    split at hinput
    · rw [if_pos ‹_›, (sameOutputs_tellAll ..).tables]
      by_cases hjk : j = k
      · subst hjk
        rw [ht, Option.some.injEq] at ht'
        subst ht'
        refine ⟨_, n, table_left ht i', ?_⟩
        rw [AnyTable.table_mapTable]
        exact (hposted.congr hinput).with_publisher rfl
          ((List.mem_erase_of_ne (Ne.symm hi')).mpr hposted.1)
      · exact ⟨t', n, (table_left_of_ne hjk i').trans ht', hposted.congr hinput⟩
    · rw [if_neg ‹_›]
      exact ⟨t', n, ht', hposted⟩
  · obtain ⟨old, hold, rfl | rfl⟩ := Stage.table_detach ht i' hu
    · exact hf.only l _ hold hi
    · rw [AnyTable.table_mapTable] at hi
      exact hf.only l old hold (List.mem_of_mem_erase hi)

/-- Another sink is taken in. -/
theorem addInput (hf : h.Follows k i o e m) (x : Input) : (h.addInput x).1.Follows k i o e m := by
  obtain ⟨s, hi, -⟩ := hf.exists_employs
  obtain ⟨hlt, -⟩ := List.getElem?_eq_some_iff.mp hi
  exact hf.congr rfl (List.getElem?_append_left hlt)

end Follows

/-! ### New sinks -/

def engaged (h : Hub) (o : OutletId) (k : Nat) (e : Encoder) : Hub :=
  (h.addInput (.sink { sink := { encoder := e }, outlet := o })).1.attach (.table k)
    h.inputs.length

/-- The subscription had no sink, and its machine follows the table from now on. -/
theorem Stage.engaged {h : Hub} {o : OutletId} {frameLimit : Nat} (hs : h.Stage o frameLimit)
    {e : Encoder} (he : e.limit = frameLimit)
    (hdistinct : ∀ names, e.requested = some names → names.Nodup) {k : Nat} {t : AnyTable}
    (ht : h.tables[k]? = some t) (hvacant : h.Vacant o e.subscription) (m : Mirror) :
    (h.engaged o k e).Stage o frameLimit ∧
      ∃ m', h.Leads (h.engaged o k e) o e.subscription m m' ∧
        (h.engaged o k e).Follows k h.inputs.length o e m' := by
  obtain ⟨g, hg⟩ : ∃ g, g = (h.addInput (.sink { sink := { encoder := e }, outlet := o })).1 :=
    ⟨_, rfl⟩
  have hengaged : h.engaged o k e = g.attach (.table k) h.inputs.length := by rw [hg, Hub.engaged]
  have hstage : g.Stage o frameLimit := hg ▸ hs.addInput rfl he hvacant
  have hgt : g.tables[k]? = some t := hg ▸ ht
  have hlast : g.inputs[h.inputs.length]? =
      some (.sink { sink := { encoder := e }, outlet := o }) := hg ▸ List.getElem?_concat_length
  have hlt : h.inputs.length < g.inputs.length := by simp [hg, Hub.addInput]
  -- no table knows the new input yet
  have hnone : ∀ (j : Nat) (t : AnyTable), g.tables[j]? = some t →
      h.inputs.length ∉ t.table.publisher.inputs := by
    intro j t ht hi
    rw [hg] at ht
    exact absurd ((hs.tables j t ht).known _ hi) (Nat.lt_irrefl _)
  have hawaiting : g.Awaiting t.table h.inputs.length o e :=
    ⟨hnone k t hgt, _, ⟨hlast, rfl, .refl e⟩, rfl⟩
  obtain ⟨rs, m', hsent, htakes, hposted, -⟩ := hawaiting.attach (hstage.publishes_table hgt)
    (hstage.tables k t hgt).within (he ▸ (hstage.tables k t hgt).size) hdistinct hstage.isOpen m
  have hunsent : g.sentFor o e.subscription = h.sentFor o e.subscription := by
    rw [hg]
    rfl
  rw [hengaged]
  refine ⟨hstage.attach hgt hlt, m', ⟨rs, hsent.trans (by rw [hunsent]), htakes⟩,
    ⟨_, failures rs, table_attach hgt _, ?_⟩, fun l u hu hi => ?_⟩
  · rw [AnyTable.table_mapTable]
    exact hposted
  · by_cases hkl : k = l
    · exact hkl.symm
    · rw [table_attach_of_ne hkl] at hu
      exact absurd hi (hnone l u hu)

end TableFeed.Hub
