import Mathlib
import TableFeed.Proofs.Table.Runs
/-!
What recorders of a table are told. A recorder always knows the rows that the output shows, so what
a pass tells it is new to it where it should be; and after a pass it knows the live rows.
-/

namespace TableFeed

/-! ### What a recorder makes of it -/

namespace Recorder

theorem events_foldl_hear (ns : List Notice) (r : Recorder) :
    (ns.foldl hear r).events = r.events ++ ns := by
  induction ns generalizing r with
  | nil => simp
  | cons n ns ih =>
      have hn : (r.hear n).events = r.events ++ [n] := by cases n <;> rfl
      rw [List.foldl_cons, ih, hn, List.append_assoc]
      rfl

/-- A recorder that was told what an output shows knows its rows. -/
theorem live_replay (r : Recorder) {p : Publisher} {s : Schema} (h : p.schema = some s) :
    (p.replay.foldl hear r).live = p.rows := by
  have hall : (∅ : RowSet).insertAll p.rows.toList = p.rows :=
    AscSet.ext_mem fun row => by simp
  simp only [Publisher.replay, h, Publisher.replayRows]
  by_cases hempty : p.rows.isEmpty = true
  · have hnil : p.rows.toList = [] := List.isEmpty_iff.mp hempty
    rw [hnil] at hall
    rw [if_pos hempty]
    exact hall
  · rw [if_neg hempty]
    exact hall

/-- The live rows after a pass. -/
theorem live_pass (r : Recorder) (p : Pass) :
    (p.notices.foldl hear r).live =
      ((if p.schema.isSome then ∅ else r.live).insertAll p.added).eraseAll p.removed := by
  obtain ⟨schema, added, changed, removed, fields⟩ := p
  cases schema <;> cases added <;> cases changed <;> cases removed <;> rfl

end Recorder

/-- Lists with strictly ascending rows; rows added were not live when they were told, changed rows
were live and stay so, and removed rows were live. -/
structure Pass.Orderly (p : Pass) (before after : Recorder) : Prop where
  ascending : p.added.Pairwise (· < ·) ∧ p.changed.Pairwise (· < ·) ∧ p.removed.Pairwise (· < ·)
  added : ∀ row ∈ p.added, row ∉ (if p.schema.isSome then ∅ else before.live)
  changed : ∀ row ∈ p.changed, row ∈ before.live ∧ row ∈ after.live
  removed : ∀ row ∈ p.removed, row ∈ before.live

/-- The next pass of a table is in order for a recorder that knows the rows shown. -/
theorem Table.Coherent.orderly_pass {t : Table} (h : t.Coherent) {r : Recorder}
    (hr : r.live = t.publisher.rows) : t.pass.Orderly r (t.pass.notices.foldl Recorder.hear r) := by
  have hlive := r.live_pass t.pass
  rw [Table.pass] at hlive ⊢
  split at hlive
  · next hreplaced =>
    rw [if_pos hreplaced]
    refine ⟨⟨pairwise_rows _, .nil, .nil⟩, fun row _ => AscSet.not_mem_empty, ?_, ?_⟩
    · intro row hrow
      cases hrow
    · intro row hrow
      cases hrow
  · next hreplaced =>
    rw [if_neg hreplaced]
    refine ⟨⟨pairwise_rows _, pairwise_rows _, pairwise_rows _⟩, ?_, ?_, ?_⟩
    · intro row hrow
      rw [if_neg (by simp), hr]
      exact h.added_hidden row hrow
    · intro row hrow
      obtain ⟨hshown, hremoved⟩ := h.changed_shown row (AscMap.mem_keys_iff.mp hrow)
      rw [hlive, hr, AscSet.mem_eraseAll, AscSet.mem_insertAll, if_neg (by simp)]
      exact ⟨hshown, .inl hshown, hremoved⟩
    · intro row hrow
      rw [hr]
      exact h.removed_shown row hrow

/-- After a pass it knows the live rows. -/
theorem Table.Coherent.live_pass {t : Table} (h : t.Coherent) {r : Recorder}
    (hr : r.live = t.publisher.rows) :
    (t.pass.notices.foldl Recorder.hear r).live = t.publish.1.publisher.rows := by
  rw [r.live_pass, h.rows_publish, pass]
  refine AscSet.ext_mem fun row => ?_
  split
  · simp
  · have hdisjoint : row ∈ t.batch.added → row ∉ t.batch.removed := fun hadd hrem =>
      h.added_hidden row hadd (h.removed_shown row hrem)
    have hlive := h.live_iff row
    simp only [hr, Option.isSome_none, Bool.false_eq_true, if_false, AscSet.mem_eraseAll,
      AscSet.mem_insertAll, AscSet.mem_toList]
    tauto

/-! ### Runs -/

/-- A table of a hub that is coherent and whose recorders know the rows it shows. -/
structure Hub.Publishes (h : Hub) (id : Nat) (t : AnyTable) : Prop where
  table : h.tables[id]? = some t
  coherent : t.table.Coherent
  nodup : t.table.publisher.inputs.Nodup
  follows : ∀ i ∈ t.table.publisher.inputs, ∀ r, h.inputs[i]? = some (.recorder r) →
    r.live = t.table.publisher.rows

namespace Hub.Publishes

variable {h : Hub} {id : Nat} {t : AnyTable}

theorem act (hp : h.Publishes id t) {a : Act} (hroom : a.inserts = true → t.table.rows.HasRoom) :
    (h.deed id (.act a)).Publishes id (t.act a) := by
  have hmove := AnyTable.moves_act hp.coherent.sound hroom
  refine ⟨table_act hp.table a, hp.coherent.move hmove, ?_, ?_⟩
  · rw [hmove.inputs_eq]
    exact hp.nodup
  · intro i hi r hr
    rw [hmove.inputs_eq] at hi
    rw [hmove.rows_eq]
    exact hp.follows i hi r hr

/-- What a recorder among the inputs is after a pass. -/
theorem input_fire (hp : h.Publishes id t) {i : InputId} (hi : i ∈ t.table.publisher.inputs)
    {r : Recorder} (hr : h.inputs[i]? = some (.recorder r)) :
    (h.fire id).inputs[i]? = some (.recorder (t.table.pass.notices.foldl Recorder.hear r)) := by
  rw [Hub.input_fire hp.table, input_tellEach_of_mem hp.nodup hi, hp.coherent.notices_publish]
  exact input_tellAll_recorder (h := h.published id t) hr _

/-- Recorders, and no other inputs, are recorders after a pass. -/
theorem recorder_fire_iff (hp : h.Publishes id t) (i : InputId) :
    (∃ r, (h.fire id).inputs[i]? = some (.recorder r)) ↔
      ∃ r, h.inputs[i]? = some (.recorder r) := by
  rw [Hub.input_fire hp.table]
  exact (sameInputs_tellEach ..).recorder_iff i

theorem fire (hp : h.Publishes id t) : (h.fire id).Publishes id (t.mapTable fun t => t.fire.1) := by
  have hinputs : (t.mapTable fun t => t.fire.1).table.publisher.inputs = t.table.publisher.inputs := by
    rw [AnyTable.table_mapTable]
    exact inputs_publish t.table
  refine ⟨table_fire hp.table, ?_, ?_, ?_⟩
  · rw [AnyTable.table_mapTable]
    exact hp.coherent.fire
  · rw [hinputs]
    exact hp.nodup
  · intro i hi r hr
    rw [hinputs] at hi
    obtain ⟨old, hold⟩ := (hp.recorder_fire_iff i).mp ⟨r, hr⟩
    rw [hp.input_fire hi hold, Option.some.injEq, Input.recorder.injEq] at hr
    rw [AnyTable.table_mapTable, ← hr]
    exact hp.coherent.live_pass (hp.follows i hi old hold)

theorem attach (hp : h.Publishes id t) (i : InputId) :
    (h.attach (.table id) i).Publishes id
      (t.mapTable fun t => { t with publisher := t.publisher.attach i }) := by
  refine ⟨table_attach hp.table i, ?_, ?_, ?_⟩
  · rw [AnyTable.table_mapTable]
    exact hp.coherent.attach i
  · rw [AnyTable.table_mapTable]
    exact Publisher.nodup_attach hp.nodup i
  · intro j hj r hr
    rw [AnyTable.table_mapTable] at hj ⊢
    show r.live = (t.table.publisher.attach i).rows
    rw [Publisher.rows_attach]
    rw [attach_eq hp.table] at hr
    split at hr
    · next hi =>
      rcases Publisher.mem_attach.mp hj with hj | rfl
      · exact hp.follows j hj r hr
      · exact hp.follows j hi r hr
    · next hi =>
      by_cases hij : i = j
      · subst hij
        obtain ⟨old, hold⟩ := ((sameInputs_tellAll ..).recorder_iff i).mp ⟨r, hr⟩
        rw [input_tellAll_recorder hold, Option.some.injEq, Input.recorder.injEq] at hr
        rw [← hr]
        exact old.live_replay hp.coherent.shown
      · rw [input_tellAll_of_ne _ _ hij] at hr
        rcases Publisher.mem_attach.mp hj with hj | rfl
        · exact hp.follows j hj r hr
        · exact absurd rfl hij

end Hub.Publishes

def Deed.pending (waiting : Option Schema) : Deed → Option Schema
  | .act (.replaceSchema schema) => some schema
  | .fire => none
  | _ => waiting

def pendingSchema (ds : List Deed) : Option Schema := ds.foldl Deed.pending none

/-- A table whose output waits to publish the given schema. -/
structure Table.Awaits (t : Table) (waiting : Option Schema) : Prop where
  replaced : t.publisher.replaced = waiting.isSome
  latest : ∀ schema, waiting = some schema → t.publisher.latest = some schema

theorem Table.publisher_act (t : Table) (a : Act) :
    ((AnyTable.plain t).act a).table.publisher =
      match a with
      | .replaceSchema schema => t.publisher.update (some schema)
      | _ => t.publisher := by
  cases a with
  | insert writes =>
      show (t.insert writes).1.publisher = t.publisher
      rw [insert]
      dsimp only
      split <;> rfl
  | update row writes =>
      show (t.updateLocked [] row writes).1.publisher = t.publisher
      rw [updateLocked]
      split <;> rfl
  | remove row =>
      rw [AnyTable.act, remove]
      cases t.rows.retire row <;> rfl
  | replaceSchema schema => rfl
  | upsert key writes => rfl
  | removeKey key => rfl

theorem AnyTable.act_plain (t : Table) (a : Act) : ∃ t', (plain t).act a = plain t' := by
  cases a with
  | remove row =>
      rw [act]
      split <;> exact ⟨_, rfl⟩
  | insert writes => exact ⟨_, rfl⟩
  | update row writes => exact ⟨_, rfl⟩
  | replaceSchema schema => exact ⟨_, rfl⟩
  | upsert key writes => exact ⟨_, rfl⟩
  | removeKey key => exact ⟨_, rfl⟩

theorem Table.Awaits.congr {t t' : Table} {waiting : Option Schema} (hw : t.Awaits waiting)
    (hreplaced : t'.publisher.replaced = t.publisher.replaced)
    (hlatest : t'.publisher.latest = t.publisher.latest) : t'.Awaits waiting :=
  ⟨hreplaced.trans hw.replaced, fun schema hs => hlatest.trans (hw.latest schema hs)⟩

/-- Of what an owner does to a table, only a replaced schema concerns the next pass. -/
theorem Table.Awaits.act {t t' : Table} {waiting : Option Schema} (hw : t.Awaits waiting) {a : Act}
    (ht' : (AnyTable.plain t).act a = .plain t') : t'.Awaits ((Deed.act a).pending waiting) := by
  have hpub := t.publisher_act a
  rw [ht'] at hpub
  change t'.publisher = _ at hpub
  cases a with
  | replaceSchema schema =>
      refine ⟨by rw [hpub]; rfl, fun s hs => ?_⟩
      rw [hpub]
      exact hs
  | insert | update | remove | upsert | removeKey => exact hw.congr (by rw [hpub]) (by rw [hpub])

theorem Table.Awaits.attach {t : Table} {waiting : Option Schema} (hw : t.Awaits waiting)
    (i : InputId) : Awaits { t with publisher := t.publisher.attach i } waiting := by
  rw [Publisher.attach]
  split
  · exact hw
  · exact hw.congr rfl rfl

namespace Hub.Publishes

variable {h : Hub} {id : Nat} {t : Table} {waiting : Option Schema}

/-- One deed: the table stays a plain one in order, waits for what the deed says, keeps its inputs
and gets the one that is attached. -/
theorem deed (hp : h.Publishes id (.plain t)) (hw : t.Awaits waiting) (d : Deed)
    (hroom : d.inserts = true → t.rows.HasRoom) :
    ∃ t', (h.deed id d).Publishes id (.plain t') ∧ t'.Awaits (d.pending waiting) ∧
      (∀ i, i ∈ t.publisher.inputs ∨ d = .attach i → i ∈ t'.publisher.inputs) ∧
      ∀ i : InputId, (∃ r, (h.deed id d).inputs[i]? = some (.recorder r)) ↔
        ∃ r, h.inputs[i]? = some (.recorder r) := by
  cases d with
  | act a =>
      obtain ⟨t', ht'⟩ := AnyTable.act_plain t a
      have hpub := t.publisher_act a
      rw [ht'] at hpub
      have hinputs : t'.publisher.inputs = t.publisher.inputs := by
        refine (congrArg Publisher.inputs hpub).trans ?_
        cases a <;> rfl
      refine ⟨t', ht' ▸ hp.act (a := a) hroom, hw.act ht', fun i hi => ?_, fun i => Iff.rfl⟩
      have hin : i ∈ t.publisher.inputs := hi.resolve_right fun heq => by cases heq
      exact hinputs ▸ hin
  | fire =>
      refine ⟨t.fire.1, hp.fire, ?_, fun i hi => ?_, hp.recorder_fire_iff⟩
      · exact ⟨hp.coherent.schema_publish.2.2, fun s hs => by cases hs⟩
      · have hinputs : t.fire.1.publisher.inputs = t.publisher.inputs := inputs_publish t
        rw [hinputs]
        exact hi.resolve_right fun heq => by cases heq
  | attach j =>
      refine ⟨{ t with publisher := t.publisher.attach j }, hp.attach j, hw.attach j, ?_, fun i => ?_⟩
      · rintro i (hi | heq)
        · exact Publisher.mem_attach.mpr (.inl hi)
        · cases heq
          exact Publisher.mem_attach.mpr (.inr rfl)
      · show (∃ r, (h.attach (.table id) j).inputs[i]? = _) ↔ _
        rw [attach_eq hp.table]
        split
        · exact Iff.rfl
        · exact (sameInputs_tellAll ..).recorder_iff _

theorem deeds (hp : h.Publishes id (.plain t)) (hw : t.Awaits waiting) (ds : List Deed)
    (hroom : h.HasRoomFor id ds) :
    ∃ t', (h.deeds id ds).Publishes id (.plain t') ∧ t'.Awaits (ds.foldl Deed.pending waiting) ∧
      (∀ i, i ∈ t.publisher.inputs ∨ .attach i ∈ ds → i ∈ t'.publisher.inputs) ∧
      ∀ i : InputId, (∃ r, (h.deeds id ds).inputs[i]? = some (.recorder r)) ↔
        ∃ r, h.inputs[i]? = some (.recorder r) := by
  induction ds generalizing h t waiting with
  | nil =>
      exact ⟨t, hp, hw, fun i hi => hi.resolve_right List.not_mem_nil, fun _ => Iff.rfl⟩
  | cons d ds ih =>
      obtain ⟨hfirst, hrest⟩ := hroom
      obtain ⟨t₁, hp₁, hw₁, hin₁, hrec₁⟩ := hp.deed hw d fun hins => hfirst hins _ hp.table
      obtain ⟨t', hp', hw', hin', hrec'⟩ := ih hp₁ hw₁ hrest
      refine ⟨t', hp', hw', fun i hi => hin' i ?_, fun i => (hrec' i).trans (hrec₁ i)⟩
      rcases hi with hi | hi
      · exact .inl (hin₁ i (.inl hi))
      · rcases List.mem_cons.mp hi with heq | hi
        · exact .inl (hin₁ i (.inr heq.symm))
        · exact .inr hi

end Hub.Publishes

/-- The rows shown, less those removed and with those added since, are the live rows of a table; and
when it fires, every recorder attached is told one pass in order and knows the live rows. -/
theorem publication_in_order {h : Hub} {id : Nat} {schema : Schema}
    (ht : h.tables[id]? = some (.plain (.create schema))) (ds : List Deed)
    (hroom : h.HasRoomFor id ds) :
    ∃ t, (h.deeds id ds).tables[id]? = some (.plain t) ∧
      (∀ row, row ∈ t.rows.live ↔
        (row ∈ t.publisher.rows ∧ row ∉ t.batch.removed) ∨ row ∈ t.batch.added) ∧
      (∀ row ∈ t.batch.added, row ∉ t.publisher.rows) ∧
      (∀ row ∈ t.batch.removed, row ∈ t.publisher.rows) ∧
      (∀ row ∈ t.batch.changed.keys, row ∈ t.publisher.rows) ∧
      ∀ i r₀, h.inputs[i]? = some (.recorder r₀) → .attach i ∈ ds →
        ∃ (r r' : Recorder) (t' : Table) (pass : Pass), (h.deeds id ds).inputs[i]? = some (.recorder r) ∧
          (h.deeds id (ds ++ [.fire])).inputs[i]? = some (.recorder r') ∧
          (h.deeds id (ds ++ [.fire])).tables[id]? = some (.plain t') ∧
          r'.events = r.events ++ pass.notices ∧ pass.Orderly r r' ∧
          (∀ s, pendingSchema ds = some s →
            pass = { schema := some s, added := t.rows.live.toList }) ∧
          (pendingSchema ds = none → pass.schema = none) ∧
          r'.live = t'.publisher.rows ∧ t'.publisher.rows = t'.rows.live := by
  have hfresh : h.Publishes id (.plain (.create schema)) :=
    ⟨ht, Table.coherent_create schema, List.nodup_nil, fun i hi => by cases hi⟩
  have hawaits : (Table.create schema).Awaits none := ⟨rfl, fun s hs => by cases hs⟩
  obtain ⟨t, hp, hw, hin, hrec⟩ := hfresh.deeds hawaits ds hroom
  have hc : t.Coherent := hp.coherent
  refine ⟨t, hp.table, hc.live_iff, hc.added_hidden, hc.removed_shown, fun row hrow =>
    (hc.changed_shown row (AscMap.mem_keys_iff.mp hrow)).1, fun i r₀ hr₀ hi => ?_⟩
  obtain ⟨r, hr⟩ := (hrec i).mpr ⟨r₀, hr₀⟩
  have hknows : r.live = t.publisher.rows := hp.follows i (hin i (.inr hi)) r hr
  have hafter : h.deeds id (ds ++ [.fire]) = (h.deeds id ds).fire id := Hub.deeds_append id h ds _
  rw [hafter]
  refine ⟨r, _, t.fire.1, t.pass, hr, hp.input_fire (hin i (.inr hi)) hr, hp.fire.table,
    Recorder.events_foldl_hear .., hc.orderly_pass hknows, fun s hs => ?_, fun hnone => ?_,
    hc.live_pass hknows, hc.rows_publish⟩
  · have hreplaced : t.publisher.replaced = true := by
      rw [hw.replaced]
      exact Option.isSome_iff_exists.mpr ⟨s, hs⟩
    have hschema : t.schema = s := Option.some.inj (hc.latest.symm.trans (hw.latest s hs))
    rw [Table.pass, if_pos hreplaced, hschema]
  · have hreplaced : t.publisher.replaced = false := by
      rw [hw.replaced]
      exact Option.isSome_eq_false_iff.mpr (Option.isNone_iff_eq_none.mpr hnone)
    rw [Table.pass, if_neg (Bool.eq_false_iff.mp hreplaced)]

def joinsAndReplaces : List Deed :=
  [.act (.insert []), .attach 0, .fire, .act (.replaceSchema (.empty "B"))]

theorem publication_in_order_joinsAndReplaces :
    let h : Hub := { tables := [.plain (.create (.empty "A"))], inputs := [.recorder {}] }
    h.tables[0]? = some (.plain (.create (.empty "A"))) ∧ h.HasRoomFor 0 joinsAndReplaces ∧
      ∃ (t : Table) (r r' : Recorder), (h.deeds 0 joinsAndReplaces).tables[0]? = some (.plain t) ∧
        (h.deeds 0 joinsAndReplaces).inputs[0]? = some (.recorder r) ∧
        (h.deeds 0 (joinsAndReplaces ++ [.fire])).inputs[0]? = some (.recorder r') ∧
        r'.events = r.events ++
          ({ schema := some (.empty "B"), added := t.rows.live.toList } : Pass).notices := by
  intro h
  have hroom : h.HasRoomFor 0 joinsAndReplaces := by
    refine ⟨?_, ?_, ?_, ?_, trivial⟩
    · intro _ t ht
      cases ht
      exact ⟨0, AscSet.not_mem_empty, List.not_mem_nil⟩
    · exact fun hins => absurd hins (by decide)
    · exact fun hins => absurd hins (by decide)
    · exact fun hins => absurd hins (by decide)
  have htable : h.tables[0]? = some (.plain (.create (.empty "A"))) := rfl
  obtain ⟨t, ht, -, -, -, -, hrecorders⟩ := publication_in_order htable joinsAndReplaces hroom
  obtain ⟨r, r', t', pass, hr, hr', -, hevents, -, hreplaced, -⟩ :=
    hrecorders 0 {} rfl (by simp [joinsAndReplaces])
  rw [hreplaced (.empty "B") rfl] at hevents
  exact ⟨htable, hroom, t, r, r', ht, hr, hr', hevents⟩

end TableFeed
