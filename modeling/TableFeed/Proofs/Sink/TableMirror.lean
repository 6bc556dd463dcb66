import Mathlib
import TableFeed.Proofs.Hub.AttachedSink
import TableFeed.Proofs.Replica.Runs
/-!
The mirror law: after every pass of a table, whoever takes what a sink has sent reads the table off
it, or both ends know that the sink has given up.
-/

namespace TableFeed

namespace Hub

def Throughout (h : Hub) (id : Nat) (P : Table → Prop) : List Deed → Prop
  | [] => ∀ t, h.tables[id]? = some t → P t.table
  | d :: ds => (∀ t, h.tables[id]? = some t → P t.table) ∧ (h.deed id d).Throughout id P ds

instance decidableThroughout (id : Nat) (P : Table → Prop) [DecidablePred P] :
    ∀ (ds : List Deed) (h : Hub), Decidable (h.Throughout id P ds)
  | [], h => inferInstanceAs (Decidable (∀ t ∈ h.tables[id]?, P t.table))
  | d :: ds, h =>
    have := decidableThroughout id P ds (h.deed id d)
    inferInstanceAs (Decidable ((∀ t ∈ h.tables[id]?, P t.table) ∧ _))

variable {h : Hub} {id : Nat} {P : Table → Prop}

theorem Throughout.head {ds : List Deed} (hP : h.Throughout id P ds) {t : AnyTable}
    (ht : h.tables[id]? = some t) : P t.table := by
  cases ds with
  | nil => exact hP t ht
  | cons d ds => exact hP.1 t ht

theorem throughout_append {ds es : List Deed} (hP : h.Throughout id P (ds ++ es)) :
    h.Throughout id P ds ∧ (h.deeds id ds).Throughout id P es := by
  induction ds generalizing h with
  | nil => exact ⟨fun t ht => hP.head ht, hP⟩
  | cons d ds ih =>
      obtain ⟨hds, hes⟩ := ih hP.2
      exact ⟨⟨hP.1, hds⟩, hes⟩

/-- A sink for encoder `e` that is not attached yet and has sent nothing, or whose responses took the
machine from its start to where the sink stands. -/
def Upholds (h : Hub) (id : Nat) (t : Table) (i : InputId) (o : OutletId) (e : Encoder)
    (limit : RowId) : Prop :=
  (h.Awaiting t i o e ∧ h.sentFor o e.subscription = []) ∨
    ∃ m, Mirror.Takes e.subscription limit {} (h.sentFor o e.subscription) m ∧
      h.Posted id t i o e m (failures (h.sentFor o e.subscription))

structure Feeds (h : Hub) (id : Nat) (t : AnyTable) (i : InputId) (o : OutletId) (e : Encoder)
    (limit : RowId) : Prop where
  publishes : h.Publishes id t
  within : t.table.Within limit
  size : t.table.shown.schema.size ≤ 0x100000000 ∨ e.limit ≤ 0x100000000
  isOpen : h.IsOpen o
  alone : h.Alone i o e.subscription
  upholds : h.Upholds id t.table i o e limit

namespace Feeds

variable {t : AnyTable} {i : InputId} {o : OutletId} {e : Encoder} {limit : RowId}

/-! ### Owner's operations -/

theorem act (hf : h.Feeds id t i o e limit) (hlimit : limit < 0xffffffff) {a : Act}
    (hfits : (t.act a).table.Fits limit e.limit) :
    (h.deed id (.act a)).Feeds id (t.act a) i o e limit := by
  have hroom : a.inserts = true → t.table.rows.HasRoom := fun _ => hf.within.hasRoom hlimit
  have hc := hf.publishes.coherent
  have hmove := AnyTable.moves_act hc.sound hroom
  refine ⟨hf.publishes.act hroom, hf.within.move hmove hfits.1, hc.shown_move hmove ▸ hf.size,
    hf.isOpen, hf.alone, ?_⟩
  rcases hf.upholds with ⟨⟨hi, hs⟩, hnone⟩ | ⟨m, htakes, hposted⟩
  · exact .inl ⟨⟨hmove.inputs_eq ▸ hi, hs⟩, hnone⟩
  · exact .inr ⟨m, htakes, hposted.move hc hmove⟩

/-! ### Passes -/

/-- After a pass the sink stands where the pass led it. -/
theorem upholds_fire (hf : h.Feeds id t i o e limit) (hfits : t.table.Fits limit e.limit) :
    (h.fire id).Upholds id t.table.fire.1 i o e limit := by
  have hopen : (h.published id t).IsOpen o := hf.isOpen
  have hinputs : t.table.fire.1.publisher.inputs = t.table.publisher.inputs := inputs_publish t.table
  rcases hf.upholds with ⟨⟨hi, s, hs, hphase⟩, hnone⟩ | ⟨m, htakes, hposted⟩
  · -- others are told
    refine .inl ⟨⟨hinputs ▸ hi, s, ⟨?_, hs.2⟩, hphase⟩, ?_⟩
    · rw [input_fire hf.publishes.table, input_tellEach_of_not_mem hi]
      exact hs.1
    · rw [fire_eq hf.publishes.table]
      exact (sentFor_tellEach_of_not_addresses hopen
        (fun j hj => hf.alone j fun heq => hi (heq ▸ hj)) _).trans hnone
  · obtain ⟨rs, m', hsent, htakes', hposted'⟩ := hposted.fire hf.publishes hf.within hfits.2
      hf.isOpen hf.alone
    rw [Upholds, hsent, failures_append]
    exact .inr ⟨m', htakes.append htakes', hposted'⟩

theorem fire (hf : h.Feeds id t i o e limit) (hfits : t.table.Fits limit e.limit) :
    (h.fire id).Feeds id (t.mapTable fun t => t.fire.1) i o e limit := by
  have hopen : (h.published id t).IsOpen o := hf.isOpen
  have hschema : t.table.fire.1.shown.schema = t.table.schema := Sheet.schema_foldl_resetRow ..
  refine ⟨hf.publishes.fire, ?_, ?_, ?_, fun j hj => ?_, ?_⟩
  · rw [AnyTable.table_mapTable]
    exact hf.within.fire hf.publishes.coherent
  · rw [AnyTable.table_mapTable, hschema]
    exact hfits.2
  · rw [fire_eq hf.publishes.table]
    exact isOpen_tellEach hopen ..
  · rw [input_fire hf.publishes.table]
    exact mt ((sameInputs_tellEach ..).addresses_iff j).mp (hf.alone j hj)
  · rw [AnyTable.table_mapTable]
    exact hf.upholds_fire hfits

/-! ### Attaching -/

theorem alone_attach (hf : h.Feeds id t i o e limit) (j : InputId) :
    (h.attach (.table id) j).Alone i o e.subscription := by
  rw [attach_eq hf.publishes.table]
  split
  · exact hf.alone
  · exact Alone.of_sameInputs (h := h.entered id j) hf.alone (sameInputs_tellAll ..)

theorem isOpen_attach (hf : h.Feeds id t i o e limit) (j : InputId) :
    (h.attach (.table id) j).IsOpen o := by
  have hopen : (h.entered id j).IsOpen o := hf.isOpen
  rw [attach_eq hf.publishes.table]
  split
  · exact hf.isOpen
  · exact isOpen_tellAll hopen _

/-- An attachment of another input, or of one that is attached, sends nothing. -/
theorem sentFor_attach_of_silent (hf : h.Feeds id t i o e limit) {j : InputId}
    (hj : i ≠ j ∨ j ∈ t.table.publisher.inputs) :
    (h.attach (.table id) j).sentFor o e.subscription = h.sentFor o e.subscription := by
  rw [attach_eq hf.publishes.table]
  split
  · rfl
  next hnew =>
    have hopen : (h.entered id j).IsOpen o := hf.isOpen
    have hother : ¬∃ x, (h.entered id j).inputs[j]? = some x ∧ x.Addresses o e.subscription :=
      hf.alone j (Ne.symm (hj.resolve_right hnew))
    exact sentFor_tellAll_of_not_addresses hopen hother _

/-- Another input is attached. -/
theorem upholds_attach_of_ne (hf : h.Feeds id t i o e limit) {j : InputId} (hij : i ≠ j)
    (hj : j ∉ t.table.publisher.inputs) :
    (h.attach (.table id) j).Upholds id { t.table with publisher := t.table.publisher.attach j } i
      o e limit := by
  have hsent := hf.sentFor_attach_of_silent (.inl hij)
  have hinput : (h.attach (.table id) j).inputs[i]? = h.inputs[i]? := by
    rw [attach_eq hf.publishes.table, if_neg hj, input_tellAll_of_ne _ _ (Ne.symm hij)]
    rfl
  have hmem : i ∈ (t.table.publisher.attach j).inputs ↔ i ∈ t.table.publisher.inputs := by
    rw [Publisher.mem_attach]
    exact or_iff_left hij
  rw [Upholds, hsent]
  rcases hf.upholds with ⟨⟨hi, s, hs, hphase⟩, hnone⟩ | ⟨m, htakes, hposted⟩
  · exact .inl ⟨⟨mt hmem.mp hi, s, ⟨hinput.trans hs.1, hs.2⟩, hphase⟩, hnone⟩
  · exact .inr ⟨m, htakes, (hposted.congr hinput).with_publisher (Publisher.rows_attach _ j)
      (hmem.mpr hposted.1)⟩

theorem attach (hf : h.Feeds id t i o e limit)
    (hdistinct : ∀ names, e.requested = some names → names.Nodup) (j : InputId) :
    (h.attach (.table id) j).Feeds id
      (t.mapTable fun t => { t with publisher := t.publisher.attach j }) i o e limit := by
  refine ⟨hf.publishes.attach j, ?_, ?_, hf.isOpen_attach j, hf.alone_attach j, ?_⟩
  · rw [AnyTable.table_mapTable]
    exact hf.within.with_publisher (Publisher.rows_attach _ j)
  · rw [AnyTable.table_mapTable]
    exact hf.size
  · rw [AnyTable.table_mapTable]
    by_cases hj : j ∈ t.table.publisher.inputs
    · -- it is attached already
      have hsame : t.table.publisher.attach j = t.table.publisher := by
        simp [Publisher.attach, Publisher.isAttached, hj]
      rw [hsame, attach_eq hf.publishes.table, if_pos hj]
      exact hf.upholds
    · by_cases hij : i = j
      · subst hij
        rcases hf.upholds with ⟨hawaiting, hnone⟩ | ⟨m, -, hposted⟩
        · obtain ⟨rs, m', hsent, htakes, hposted, -⟩ := hawaiting.attach hf.publishes hf.within hf.size
            hdistinct hf.isOpen {}
          rw [hnone, List.nil_append] at hsent
          rw [Upholds, hsent]
          exact .inr ⟨m', htakes, hposted⟩
        · exact absurd hposted.1 hj
      · exact hf.upholds_attach_of_ne hij hj

/-! ### Runs -/

theorem deed (hf : h.Feeds id t i o e limit) (hlimit : limit < 0xffffffff)
    (hdistinct : ∀ names, e.requested = some names → names.Nodup) {d : Deed} {ds : List Deed}
    (hfits : h.Throughout id (Table.Fits limit e.limit) (d :: ds)) :
    ∃ t', (h.deed id d).Feeds id t' i o e limit ∧
      ∀ j, j ∈ t.table.publisher.inputs ∨ d = .attach j → j ∈ t'.table.publisher.inputs := by
  have hnow := hfits.head hf.publishes.table
  cases d with
  | act a =>
      have hroom : a.inserts = true → t.table.rows.HasRoom := fun _ => hf.within.hasRoom hlimit
      have hmove := AnyTable.moves_act hf.publishes.coherent.sound hroom
      refine ⟨t.act a, hf.act hlimit (hfits.2.head (table_act hf.publishes.table a)),
        fun j hj => ?_⟩
      rw [hmove.inputs_eq]
      exact hj.resolve_right fun heq => by cases heq
  | fire =>
      refine ⟨_, hf.fire hnow, fun j hj => ?_⟩
      have hinputs : t.table.fire.1.publisher.inputs = t.table.publisher.inputs :=
        inputs_publish t.table
      rw [AnyTable.table_mapTable, hinputs]
      exact hj.resolve_right fun heq => by cases heq
  | attach k =>
      refine ⟨_, hf.attach hdistinct k, fun j hj => ?_⟩
      rw [AnyTable.table_mapTable]
      refine Publisher.mem_attach.mpr ?_
      rcases hj with hj | heq
      · exact .inl hj
      · cases heq
        exact .inr rfl

theorem deeds (hf : h.Feeds id t i o e limit) (hlimit : limit < 0xffffffff)
    (hdistinct : ∀ names, e.requested = some names → names.Nodup) (ds : List Deed)
    (hfits : h.Throughout id (Table.Fits limit e.limit) ds) :
    ∃ t', (h.deeds id ds).Feeds id t' i o e limit ∧
      ∀ j, j ∈ t.table.publisher.inputs ∨ .attach j ∈ ds → j ∈ t'.table.publisher.inputs := by
  induction ds generalizing h t with
  | nil => exact ⟨t, hf, fun j hj => hj.resolve_right List.not_mem_nil⟩
  | cons d ds ih =>
      obtain ⟨t₁, hf₁, hin₁⟩ := hf.deed hlimit hdistinct hfits
      obtain ⟨t', hf', hin'⟩ := ih hf₁ hfits.2
      refine ⟨t', hf', fun j hj => hin' j ?_⟩
      rcases hj with hj | hj
      · exact .inl (hin₁ j (.inl hj))
      · rcases List.mem_cons.mp hj with heq | hj
        · exact .inl (hin₁ j (.inr heq.symm))
        · exact .inr hj

end Feeds

end Hub

/-! ### The mirror law -/

/-- What a machine takes, it accepts. -/
theorem Mirror.Takes.run {sub : Int32} {limit : RowId} {m m' : Mirror} {rs : List Response}
    (h : Mirror.Takes sub limit m rs m') :
    (m.run sub limit (rs.map .accept)).1 = m' ∧
      ∀ v ∈ (m.run sub limit (rs.map .accept)).2, v = .accepted := by
  induction h with
  | nil m => exact ⟨rfl, fun v hv => by cases hv⟩
  | cons hr hrest ih =>
      refine ⟨ih.1, fun v hv => ?_⟩
      rcases List.mem_cons.mp hv with rfl | hv
      · exact hr
      · exact ih.2 v hv

/-- A replica takes the responses that its machine takes, and shows the same. -/
theorem Mirror.Takes.replica {sub : Int32} {limit : RowId} (hlimit : limit < 0xffffffff) {m : Mirror}
    {rs : List Response} (h : Mirror.Takes sub limit {} rs m) :
    Reflects sub limit
        (({ subscription := sub, rowLimit := limit } : Replica).run (rs.map .accept)).1 m ∧
      ∀ v ∈ (({ subscription := sub, rowLimit := limit } : Replica).run (rs.map .accept)).2,
        v = .accepted := by
  obtain ⟨hreflects, hverdicts⟩ := (Reflects.fresh sub limit).run hlimit (rs.map .accept)
  rw [hverdicts]
  exact ⟨h.run.1 ▸ hreflects, h.run.2⟩

namespace Hub.Feeds

variable {h : Hub} {id : Nat} {t : AnyTable} {i : InputId} {o : OutletId} {e : Encoder}
  {limit : RowId}

/-- A table without rows, and a sink that was not attached yet and has sent nothing. -/
theorem fresh {schema : Schema} (ht : h.tables[id]? = some t) (hnew : t.table = .create schema)
    (hi : h.inputs[i]? = some (.sink { sink := { encoder := e }, outlet := o }))
    (hopen : h.IsOpen o) (hunsent : h.sentFor o e.subscription = [])
    (halone : h.Alone i o e.subscription) (hfits : t.table.Fits limit e.limit) :
    h.Feeds id t i o e limit := by
  have hempty : ∀ row, ¬(row ∈ t.table.rows.live ∨ row ∈ t.table.rows.retired ∨
      row ∈ t.table.publisher.rows) := by
    rw [hnew]
    rintro row (hrow | hrow | hrow) <;> exact absurd hrow List.not_mem_nil
  have hinputs : t.table.publisher.inputs = [] := by rw [hnew]; rfl
  have hnone : ∀ j, j ∉ t.table.publisher.inputs := by
    rw [hinputs]
    exact fun j => List.not_mem_nil
  refine ⟨⟨ht, hnew ▸ Table.coherent_create schema, hinputs ▸ List.nodup_nil,
    fun j hj => absurd hj (hnone j)⟩, fun row hrow => absurd hrow (hempty row), ?_, hopen, halone, ?_⟩
  · have hsize := hfits.2
    rw [hnew] at hsize ⊢
    exact hsize
  · exact .inl ⟨⟨hnone i, _, ⟨hi, rfl, .refl e⟩, rfl⟩, hunsent⟩

theorem run_accepted (hf : h.Feeds id t i o e limit) (hlimit : limit < 0xffffffff) :
    ∀ v ∈ (({ subscription := e.subscription, rowLimit := limit } : Replica).run
      ((h.sentFor o e.subscription).map .accept)).2, v = .accepted := by
  rcases hf.upholds with ⟨-, hnone⟩ | ⟨m, htakes, -⟩
  · rw [hnone]
    intro v hv
    cases hv
  · exact (htakes.replica hlimit).2

/-- If nothing waits for the next pass, the replica shows the table. -/
theorem run_mirrors (hf : h.Feeds id t i o e limit) (hlimit : limit < 0xffffffff)
    (hi : i ∈ t.table.publisher.inputs) (hbatch : t.table.batch = {})
    (hkept : t.table.publisher.replaced = false) :
    let r := (({ subscription := e.subscription, rowLimit := limit } : Replica).run
      ((h.sentFor o e.subscription).map .accept)).1
    (r.phase = .live ∧ r.liveRows = t.table.rows.liveRows ∧
        ∀ row ∈ t.table.rows.live, ∀ name,
          (∀ names, e.requested = some names → name ∈ names) →
            r.get row name = t.table.get row (.name name)) ∨
      (r.phase = .failed ∧ failures (h.sentFor o e.subscription) = 1) := by
  intro r
  obtain ⟨m, htakes, -, s, ⟨-, -, hsame⟩, hm⟩ := hf.upholds.resolve_left fun h' => h'.1.1 hi
  obtain ⟨hr, -⟩ := htakes.replica hlimit
  generalize hn : failures (h.sentFor o e.subscription) = n at hm
  cases hm with
  | @serves ids source reads serves =>
      have hshows := serves.toShows hf.publishes.coherent hbatch hkept
      refine .inl ⟨hr.phase.trans hshows.tracks.machine, ?_, fun row hrow name hname => ?_⟩
      · rw [hr.liveRows_eq, hshows.keys_eq]
        rfl
      · rw [hr.get_eq, hshows.get_eq hrow fun names hnames => hname names (hsame.2.1 ▸ hnames)]
  | gaveUp sink machine => exact .inr ⟨hr.phase.trans machine, rfl⟩

end Hub.Feeds

/-- A fresh replica accepts all that a sink has sent. After every pass of the table it shows the
same rows and the same values in the fields asked for, or both ends know that the sink gave up. -/
theorem replica_mirrors_table {h : Hub} {id : Nat} {t : AnyTable} {schema : Schema}
    (ht : h.tables[id]? = some t) (hnew : t.table = .create schema) {i : InputId} {o : OutletId}
    (sub : Int32) (requested : Option (List String)) (frameLimit : Nat)
    (hi : h.inputs[i]? = some (.sink { sink := .create sub requested frameLimit, outlet := o }))
    (hopen : h.IsOpen o) (hunsent : h.sentFor o sub = [])
    (halone : ∀ j ≠ i, ¬∃ x, h.inputs[j]? = some x ∧ x.Addresses o sub)
    (hdistinct : ∀ names, requested = some names → names.Nodup)
    (limit : RowId) (hlimit : limit < 0xffffffff) (ds : List Deed)
    (hfits : h.Throughout id (Table.Fits limit frameLimit) ds) :
    let sent := (h.deeds id ds).sentFor o sub
    let r := ({ subscription := sub, rowLimit := limit } : Replica).run (sent.map .accept)
    (∀ v ∈ r.2, v = .accepted) ∧
      ∀ ds', ds = ds' ++ [.fire] → .attach i ∈ ds' →
        ∃ t', (h.deeds id ds).tables[id]? = some t' ∧
          ((r.1.phase = .live ∧ r.1.liveRows = t'.table.rows.liveRows ∧
              ∀ row ∈ t'.table.rows.live, ∀ name,
                (∀ names, requested = some names → name ∈ names) →
                  r.1.get row name = t'.table.get row (.name name)) ∨
            (r.1.phase = .failed ∧ failures sent = 1)) := by
  intro sent r
  obtain ⟨e, he⟩ : ∃ e, e = (Sink.create sub requested frameLimit).encoder := ⟨_, rfl⟩
  have hsub : e.subscription = sub := by rw [he]; rfl
  have hreq : e.requested = requested := by rw [he]; rfl
  have hframe : e.limit = frameLimit := by rw [he]; rfl
  have hfresh : h.Feeds id t i o e limit :=
    .fresh ht hnew (he ▸ hi) hopen (hsub ▸ hunsent) (hsub ▸ halone) (hframe ▸ hfits.head ht)
  rw [← hframe] at hfits
  rw [← hreq] at hdistinct ⊢
  subst hsub
  refine ⟨?_, fun ds' hds hattached => ?_⟩
  · obtain ⟨t', hf', -⟩ := hfresh.deeds hlimit hdistinct ds hfits
    exact hf'.run_accepted hlimit
  · subst hds
    obtain ⟨hbefore, hafter⟩ := Hub.throughout_append hfits
    obtain ⟨t', hf', hin⟩ := hfresh.deeds hlimit hdistinct ds' hbefore
    have hlast : h.deeds id (ds' ++ [.fire]) = (h.deeds id ds').fire id := Hub.deeds_append id h ds' _
    have hfired := hf'.fire (hafter.head hf'.publishes.table)
    rw [← hlast] at hfired
    have hi' : i ∈ t'.table.fire.1.publisher.inputs := by
      rw [Table.fire]
      exact (Hub.inputs_publish t'.table).symm ▸ hin i (.inr hattached)
    have hmirrors := hfired.run_mirrors hlimit
    rw [AnyTable.table_mapTable] at hmirrors
    refine ⟨_, hfired.publishes.table, ?_⟩
    rw [AnyTable.table_mapTable]
    exact hmirrors hi' rfl hf'.publishes.coherent.schema_publish.2.2

/-- A sink joins while a row waits to be told. -/
def joinsEarly : List Deed :=
  [.act (.insert [⟨.name "a", ⟨.int32, 7⟩⟩]), .attach 0, .fire]

theorem replica_mirrors_table_joinsEarly :
    let schema : Schema := ⟨⟨"T", [⟨"b", .bool, {}⟩, ⟨"a", .int32, {}⟩]⟩, by decide⟩
    let h : Hub := { tables := [.plain (.create schema)],
                     inputs := [.sink { sink := .create 1 (some ["a"]) 1000, outlet := 0 }],
                     outlets := [{}] }
    let r := ({ subscription := 1, rowLimit := 9 } : Replica).run
      (((h.deeds 0 joinsEarly).sentFor 0 1).map .accept)
    h.Throughout 0 (Table.Fits 9 1000) joinsEarly ∧ (∀ v ∈ r.2, v = .accepted) ∧
      (r.1.get 0 "a" = .ok ⟨.int32, 7⟩ ∨ r.1.phase = .failed) := by
  intro schema h r
  obtain ⟨t, ht⟩ : ∃ t, t = ((Table.create schema).insert [⟨.name "a", ⟨.int32, 7⟩⟩]).1 := ⟨_, rfl⟩
  have hcell : t.fire.1.get 0 (.name "a") = .ok ⟨.int32, 7⟩ := by
    rw [ht]
    cbv
  have hlive : t.rows.live.toList = [0] := by
    rw [ht]
    cbv
  have hwithin : ∀ row ∈ t.rows.live, row ≤ 9 := by
    intro row hrow
    rw [← AscSet.mem_toList, hlive, List.mem_singleton] at hrow
    rw [hrow]
    decide
  have htable : h.tables[0]? = some (.plain (.create schema)) := rfl
  -- the table after each deed
  have hact : (AnyTable.plain (.create schema)).act (.insert [⟨.name "a", ⟨.int32, 7⟩⟩]) =
      .plain t := by
    rw [ht]
    rfl
  have hinserted := hact ▸ Hub.table_act htable (.insert [⟨.name "a", ⟨.int32, 7⟩⟩])
  have hattached := Hub.table_attach hinserted 0
  have hfired := Hub.table_fire hattached
  have hfits : h.Throughout 0 (Table.Fits 9 1000) joinsEarly := by
    refine ⟨fun t' ht' => ⟨?_, .inr (by decide)⟩, fun t' ht' => ⟨?_, .inr (by decide)⟩,
      fun t' ht' => ⟨?_, .inr (by decide)⟩, fun t' ht' => ⟨?_, .inr (by decide)⟩⟩
    · cases htable.symm.trans ht'
      exact fun row hrow => absurd hrow List.not_mem_nil
    · cases hinserted.symm.trans ht'
      exact hwithin
    · cases hattached.symm.trans ht'
      exact hwithin
    · cases hfired.symm.trans ht'
      exact hwithin
  have halone : ∀ j ≠ 0, ¬∃ x, h.inputs[j]? = some x ∧ x.Addresses 0 1 := by
    rintro j hj ⟨x, hx, -⟩
    cases j with
    | zero => exact hj rfl
    | succ j => cases hx
  obtain ⟨haccepted, hmirrors⟩ := replica_mirrors_table htable rfl 1 (some ["a"]) 1000 rfl
    ⟨{}, rfl, rfl⟩ rfl halone (by simp) 9 (by decide) joinsEarly hfits
  refine ⟨hfits, haccepted, ?_⟩
  obtain ⟨t', ht', ⟨-, -, hread⟩ | ⟨hfailed, -⟩⟩ :=
    hmirrors [.act (.insert [⟨.name "a", ⟨.int32, 7⟩⟩]), .attach 0] rfl (by simp)
  · cases hfired.symm.trans ht'
    have hrow : (0 : RowId) ∈ t.rows.live := by
      rw [← AscSet.mem_toList, hlive]
      exact List.mem_singleton_self 0
    exact .inl ((hread 0 hrow "a" (by simp)).trans hcell)
  · exact .inr hfailed

end TableFeed
