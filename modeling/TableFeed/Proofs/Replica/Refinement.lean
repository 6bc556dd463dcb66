import Mathlib
import TableFeed.Proofs.Replica.MessageShape
/-!
A replica follows its machine: after any calls it shows the phase, the live rows and the cells of
the machine that took the same calls. The machine holds whole records; the replica holds columns
whose slots outlive their rows, so the relation between the two speaks of live rows only.
-/

namespace TableFeed

def Sheet.record (s : Sheet) (row : RowId) : Record := s.fields.map (·.value row)

namespace Sheet

@[simp] theorem getElem?_record (s : Sheet) (row : RowId) (id : FieldId) :
    (s.record row)[id]? = s.value? row id := by
  simp [record, value?, field?]

theorem record_eq_iff {s : Sheet} {row : RowId} {record : Record} :
    record = s.record row ↔ ∀ id, record[id]? = s.value? row id := by
  rw [List.ext_getElem?_iff]
  simp

end Sheet

namespace RowIds

theorem claim_spec {s : RowIds} {row : RowId} (hlive : row ∉ s.live) (hmax : row < 0xffffffff) :
    ∃ t, s.claim row = .ok (t, true) ∧ t.live = s.live.insert row := by
  have hdead : s.isLive row = false := by simpa [isLive, AscSet.contains] using hlive
  have hne : row ≠ 0xffffffff := by
    rintro rfl
    exact absurd hmax (by decide)
  simp only [claim, hdead, Bool.false_eq_true, if_false, hne]
  split
  · exact ⟨_, rfl, rfl⟩
  · split
    · exact ⟨_, rfl, rfl⟩
    · exact ⟨_, rfl, rfl⟩

theorem release_spec {s : RowIds} {row : RowId} (hlive : row ∈ s.live) :
    ∃ t, s.release row = .ok t ∧ t.live = s.live.erase row := by
  have h : s.isLive row = true := by simpa [isLive, AscSet.contains] using hlive
  exact ⟨_, by rw [release, if_pos h], rfl⟩

end RowIds

namespace Replica

/-! ### The rows of a message -/

theorem applyRows_insert {type : ResponseType} (htype : type = .init ∨ type = .add)
    {rows : List RowId} (hrows : rows.Nodup) (hmax : ∀ row ∈ rows, row < 0xffffffff) (r : Replica)
    (hlive : ∀ row ∈ rows, row ∉ r.rows.live) (sheet : Sheet) (batch : Batch) :
    ∃ ids, applyRows type rows r sheet batch = ({ r with rows := ids },
        rows.foldl Sheet.resetRow sheet, .ok (rows.foldl Batch.add batch)) ∧
      ids.live = r.rows.live.insertAll rows := by
  induction rows generalizing r sheet batch with
  | nil => exact ⟨r.rows, rfl, rfl⟩
  | cons row rows ih =>
      rw [List.nodup_cons] at hrows
      obtain ⟨ids, hclaim, hids⟩ :=
        RowIds.claim_spec (hlive row List.mem_cons_self) (hmax row List.mem_cons_self)
      have hrest : ∀ other ∈ rows, other ∉ ids.live := by
        intro other hother
        rw [hids, AscSet.mem_insert, not_or]
        exact ⟨fun heq => hrows.1 (heq ▸ hother), hlive other (List.mem_cons_of_mem _ hother)⟩
      obtain ⟨last, happly, hlast⟩ :=
        ih hrows.2 (fun other h => hmax other (List.mem_cons_of_mem _ h)) { r with rows := ids }
          hrest (sheet.resetRow row) (batch.add row)
      refine ⟨last, ?_, ?_⟩
      · rcases htype with rfl | rfl <;> simp only [applyRows, hclaim, happly, List.foldl_cons]
      · rw [hlast, hids]
        rfl

theorem applyRows_remove {rows : List RowId} (hrows : rows.Nodup) (r : Replica)
    (hlive : ∀ row ∈ rows, row ∈ r.rows.live) (sheet : Sheet) (batch : Batch) :
    ∃ ids, applyRows .remove rows r sheet batch =
        ({ r with rows := ids }, sheet, .ok (rows.foldl Batch.remove batch)) ∧
      ids.live = r.rows.live.eraseAll rows := by
  induction rows generalizing r batch with
  | nil => exact ⟨r.rows, rfl, rfl⟩
  | cons row rows ih =>
      rw [List.nodup_cons] at hrows
      obtain ⟨ids, hrelease, hids⟩ := RowIds.release_spec (hlive row List.mem_cons_self)
      have hrest : ∀ other ∈ rows, other ∈ ids.live := by
        intro other hother
        rw [hids, AscSet.mem_erase]
        exact ⟨fun heq => hrows.1 (heq ▸ hother), hlive other (List.mem_cons_of_mem _ hother)⟩
      obtain ⟨last, happly, hlast⟩ :=
        ih hrows.2 { r with rows := ids } hrest (batch.remove row)
      refine ⟨last, ?_, ?_⟩
      · simp only [applyRows, hrelease, happly, List.foldl_cons]
      · rw [hlast, hids]
        rfl

theorem applyRows_change (rows : List RowId) (r : Replica) (sheet : Sheet) (batch : Batch) :
    applyRows .change rows r sheet batch = (r, sheet, .ok batch) := by
  induction rows with
  | nil => rfl
  | cons row rows ih => simpa [applyRows] using ih

/-- Rows do not conflict with a message if they are live just when it needs that. -/
theorem conflict_eq_none_iff (r : Replica) (type : ResponseType) (rows : List RowId) :
    r.conflict type rows = none ↔ ∀ row ∈ rows, r.isLive row = needsLive type := by
  rw [conflict, Option.map_eq_none_iff, List.find?_eq_none]
  simp only [bne_iff_ne, ne_eq, not_not]

/-! ### The columns of a message -/

theorem schema_applyColumns (rows : List RowId) (writes : List ColumnWrite) (sheet : Sheet) :
    (applyColumns rows writes sheet).schema = sheet.schema := by
  induction writes generalizing sheet with
  | nil => rfl
  | cons w writes ih =>
      rw [applyColumns, List.foldl_cons]
      exact (ih _).trans (Sheet.schema_mapField ..)

def planned? (rows : List RowId) (writes : List ColumnWrite) (row : RowId) (id : FieldId) :
    Option Value :=
  (AscMap.lookIn id (writes.map fun w => (w.field, w.values))).bind fun values =>
    AscMap.lookIn row (rows.zip values)

theorem map_fst_zip_nodup {rows : List RowId} (hrows : rows.Nodup) (values : List Value) :
    ((rows.zip values).map (·.1)).Nodup := by
  induction rows generalizing values with
  | nil => simp
  | cons row rows ih =>
      cases values with
      | nil => simp
      | cons v values =>
          rw [List.nodup_cons] at hrows
          rw [List.zip_cons_cons, List.map_cons, List.nodup_cons]
          refine ⟨fun hmem => ?_, ih hrows.2 values⟩
          obtain ⟨cell, hcell, hrow⟩ := List.mem_map.mp hmem
          have hrow' : cell.1 = row := hrow
          exact hrows.1 (hrow' ▸ (List.of_mem_zip hcell).1)

theorem value?_write {rows : List RowId} (hrows : rows.Nodup) (sheet : Sheet) (w : ColumnWrite)
    (htyped : ∀ f, sheet.schema.field? w.field = some f → ∀ v ∈ w.values, v.type = f.type)
    (row : RowId) (id : FieldId) :
    (sheet.mapField w.field fun _ c =>
        (rows.zip w.values).foldl (fun c cell => c.write cell.1 cell.2) c).value? row id =
      if w.field = id then
        (sheet.value? row id).map fun old => (AscMap.lookIn row (rows.zip w.values)).getD old
      else sheet.value? row id := by
  rw [Sheet.value?, Sheet.field?_mapField]
  split
  · next hid =>
    subst hid
    rw [Sheet.value?]
    cases hf : sheet.field? w.field with
    | none => rfl
    | some f =>
        have hvalues : ∀ cell ∈ rows.zip w.values, cell.2.type = f.info.type := fun cell hcell =>
          htyped f.info (by rw [Sheet.schema_field?, hf, Option.map_some]) cell.2
            (List.of_mem_zip hcell).2
        simp only [Option.map_some, StoredField.value, StoredField.map,
          Column.value_foldl_write (map_fst_zip_nodup hrows w.values) hvalues]
  · rfl

theorem value?_applyColumns {rows : List RowId} (hrows : rows.Nodup) {writes : List ColumnWrite}
    (hfields : (writes.map (·.field)).Nodup) (sheet : Sheet)
    (htyped : ∀ w ∈ writes, ∀ f, sheet.schema.field? w.field = some f →
      ∀ v ∈ w.values, v.type = f.type) (row : RowId) (id : FieldId) :
    (applyColumns rows writes sheet).value? row id =
      (sheet.value? row id).map fun old => (planned? rows writes row id).getD old := by
  induction writes generalizing sheet with
  | nil => simp [applyColumns, planned?, AscMap.lookIn]
  | cons w writes ih =>
      rw [List.map_cons, List.nodup_cons] at hfields
      rw [applyColumns, List.foldl_cons]
      refine (ih hfields.2 _ fun v hv f hf => ?_).trans ?_
      · rw [Sheet.schema_mapField] at hf
        exact htyped v (List.mem_cons_of_mem _ hv) f hf
      rw [value?_write hrows sheet w (htyped w List.mem_cons_self)]
      by_cases hid : w.field = id
      · have hnone : AscMap.lookIn id (writes.map fun w => (w.field, w.values)) = none := by
          rw [AscMap.lookIn_eq_none_iff, List.map_map, ← hid]
          exact hfields.1
        simp only [planned?, AscMap.lookIn, List.map_cons, hid, if_true, hnone, Option.map_map,
          Option.bind_none, Option.bind_some, Option.getD_none]
        rfl
      · simp [planned?, AscMap.lookIn, hid]

theorem lookIn_zip {rows : List RowId} (hrows : rows.Nodup) {values : List Value} {row : RowId}
    {k : Nat} (hk : rows[k]? = some row) : AscMap.lookIn row (rows.zip values) = values[k]? := by
  cases hv : values[k]? with
  | some v =>
      refine AscMap.lookIn_of_mem (map_fst_zip_nodup hrows values) (List.mem_iff_getElem?.mpr ⟨k, ?_⟩)
      rw [List.getElem?_zip_eq_some]
      exact ⟨hk, hv⟩
  | none =>
      rw [AscMap.lookIn_eq_none_iff]
      rintro hmem
      obtain ⟨cell, hcell, hrow⟩ := List.mem_map.mp hmem
      obtain ⟨j, hj⟩ := List.mem_iff_getElem?.mp hcell
      rw [List.getElem?_zip_eq_some] at hj
      have hrow' : cell.1 = row := hrow
      have hjk : j = k := by
        obtain ⟨hlt, -⟩ := List.getElem?_eq_some_iff.mp hj.1
        exact (List.getElem?_inj hlt hrows).mp (by rw [hj.1, hk, hrow'])
      rw [← hjk, hj.2] at hv
      cases hv

/-- What a well shaped message has for a cell is what was sent for it. -/
theorem planned?_eq_sent? {limit : RowId} {fields : List FieldInfo} {type : ResponseType}
    {d : RowData} (h : d.WellShaped limit fields type) {row : RowId} {k : Nat}
    (hk : d.rows[k]? = some row) {id : FieldId} {f : FieldInfo} (hf : fields[id]? = some f) :
    planned? d.rows (d.columns.map (writeOf fields)) row id = d.sent? k id f.type := by
  have hlook : AscMap.lookIn id ((d.columns.map (writeOf fields)).map fun w => (w.field, w.values)) =
      (AscMap.lookIn id d.columns).map fun ws => (writeOf fields (id, ws)).values := by
    rw [List.map_map]
    exact AscMap.lookIn_map (fun c => (writeOf fields c).values) id d.columns
  rw [planned?, RowData.sent?, hlook]
  cases hcol : AscMap.lookIn id d.columns with
  | none => rfl
  | some ws =>
      have hmem : (id, ws) ∈ d.columns := AscMap.mem_of_lookIn hcol
      simp only [Option.map_some, Option.bind_some, writeOf]
      rw [lookIn_zip h.distinct hk, List.getElem?_map]
      cases hw : ws[k]? with
      | none => rfl
      | some w =>
          have htyped := h.typed _ hmem w (List.mem_of_getElem? hw)
          rw [hf, Option.bind_some] at htyped
          obtain ⟨v, hv⟩ := Option.isSome_iff_exists.mp htyped
          simp [hf, hv]

/-- A cell after the columns of a message were written. -/
theorem value?_planned {limit : RowId} {type : ResponseType} {d : RowData} {sheet : Sheet}
    (h : d.WellShaped limit sheet.schema.fields type) (row : RowId) (id : FieldId) :
    (applyColumns d.rows (d.columns.map (writeOf sheet.schema.fields)) sheet).value? row id =
      (sheet.value? row id).map fun old =>
        (planned? d.rows (d.columns.map (writeOf sheet.schema.fields)) row id).getD old := by
  refine value?_applyColumns h.distinct ?_ sheet ?_ row id
  · rw [List.map_map]
    exact h.once
  · intro w hw f hf v hv
    obtain ⟨c, hc, rfl⟩ := List.mem_map.mp hw
    obtain ⟨x, hx, rfl⟩ := List.mem_map.mp hv
    have hfield : sheet.schema.fields[c.1]? = some f := hf
    have htyped := h.typed c hc x hx
    rw [hfield, Option.bind_some] at htyped ⊢
    obtain ⟨u, hu⟩ := Option.isSome_iff_exists.mp htyped
    rw [hu, Option.getD_some]
    exact type_of_unwiden hu

/-- The record of a listed row after the columns of a message were written. -/
theorem record_applyColumns {limit : RowId} {type : ResponseType} {d : RowData} (sheet : Sheet)
    (h : d.WellShaped limit sheet.schema.fields type) {row : RowId} {k : Nat}
    (hk : d.rows[k]? = some row) :
    (applyColumns d.rows (d.columns.map (writeOf sheet.schema.fields)) sheet).record row =
      Mirror.compose sheet.schema.fields d k fun id => sheet.value? row id := by
  symm
  rw [Sheet.record_eq_iff]
  intro id
  rw [value?_planned h, Mirror.getElem?_compose]
  cases hf : sheet.schema.fields[id]? with
  | none =>
      rw [(sheet.value?_eq_none_iff row id).mpr hf]
      rfl
  | some f =>
      obtain ⟨v, hv⟩ := Option.ne_none_iff_exists'.mp
        (mt (sheet.value?_eq_none_iff row id).mp (by rw [Schema.field?, hf]; simp))
      rw [hv, planned?_eq_sent? h hk hf]
      rfl

/-- The record of any other row stays. -/
theorem record_applyColumns_of_not_mem {limit : RowId} {type : ResponseType} {d : RowData}
    (sheet : Sheet) (h : d.WellShaped limit sheet.schema.fields type) {row : RowId}
    (hrow : row ∉ d.rows) :
    (applyColumns d.rows (d.columns.map (writeOf sheet.schema.fields)) sheet).record row =
      sheet.record row := by
  rw [Sheet.record_eq_iff]
  intro id
  have hnone : ∀ values : List Value, AscMap.lookIn row (d.rows.zip values) = none := by
    intro values
    rw [AscMap.lookIn_eq_none_iff]
    intro hmem
    obtain ⟨cell, hcell, rfl⟩ := List.mem_map.mp hmem
    exact hrow (List.of_mem_zip hcell).1
  rw [Sheet.getElem?_record, value?_planned h, planned?]
  simp [hnone]

/-- The record of a row that is new with a message: what was sent, and absent for the rest. -/
theorem record_applyColumns_fresh {limit : RowId} {type : ResponseType} {d : RowData}
    (sheet : Sheet) (h : d.WellShaped limit sheet.schema.fields type) {row : RowId} {k : Nat}
    (hk : d.rows[k]? = some row) :
    (applyColumns d.rows (d.columns.map (writeOf sheet.schema.fields))
        (d.rows.foldl Sheet.resetRow sheet)).record row =
      Mirror.compose sheet.schema.fields d k fun _ => none := by
  have hschema := sheet.schema_foldl_resetRow d.rows
  rw [← hschema] at h ⊢
  rw [record_applyColumns _ h hk]
  refine List.mapIdx_eq_mapIdx_iff.mpr fun id hid => ?_
  have hmem : row ∈ d.rows := List.mem_of_getElem? hk
  simp only [Sheet.value?_foldl_resetRow]
  cases hv : sheet.value? row id with
  | none => rfl
  | some v =>
      have htype : v.type = (d.rows.foldl Sheet.resetRow sheet).schema.fields[id].type := by
        refine sheet.type_of_value? row id hv ?_
        rw [← hschema]
        exact List.getElem?_eq_getElem hid
      simp [hmem, htype]

theorem record_foldl_resetRow_of_not_mem (sheet : Sheet) {rows : List RowId} {row : RowId}
    (hrow : row ∉ rows) : (rows.foldl Sheet.resetRow sheet).record row = sheet.record row := by
  rw [Sheet.record_eq_iff]
  intro id
  rw [Sheet.getElem?_record, Sheet.value?_foldl_resetRow]
  simp [hrow]

end Replica

/-! ### The relation -/

/-- A replica for subscription `sub` with row ids up to `limit` that shows what a machine shows. -/
structure Reflects (sub : Int32) (limit : RowId) (r : Replica) (m : Mirror) : Prop where
  subscription : r.subscription = sub
  rowLimit : r.rowLimit = limit
  phase : r.phase = m.phase
  schema : r.schema = m.schema
  live : ∀ row, row ∈ r.rows.live ↔ m.rows.contains row = true
  records : ∀ row record, m.rows.find? row = some record →
    ∃ sheet, r.sheet = some sheet ∧ record = sheet.record row

namespace Reflects

variable {sub : Int32} {limit : RowId} {r : Replica} {m : Mirror}

theorem isLive_eq (h : Reflects sub limit r m) (row : RowId) :
    r.isLive row = m.rows.contains row := by
  rw [Bool.eq_iff_iff, ← h.live row]
  exact decide_eq_true_iff

theorem liveRows_eq (h : Reflects sub limit r m) : r.liveRows = m.rows.keys.toList := by
  have hrows : r.rows.live = m.rows.keys := by
    refine AscSet.ext_mem fun row => ?_
    rw [h.live, AscMap.mem_keys_iff]
  exact congrArg AscSet.toList hrows

theorem get_eq (h : Reflects sub limit r m) (row : RowId) (name : String) :
    r.get row name = m.get row name := by
  have hschema := h.schema
  rw [Replica.get, Mirror.get, ← hschema, Replica.schema]
  cases hsheet : r.sheet with
  | none => rfl
  | some sheet =>
      rw [Option.map_some]
      simp only [Schema.fieldId?]
      cases hid : sheet.schema.fields.findIdx? (·.name == name) with
      | none => rfl
      | some id =>
          obtain ⟨f, hf, hinfo⟩ := sheet.exists_field? id hid
          simp only [Option.bind_some, hf, hinfo, Option.map_some, Option.getD_some]
          rw [h.isLive_eq, AscMap.contains]
          cases hrow : m.rows.find? row with
          | none => rfl
          | some record =>
              obtain ⟨other, hother, rfl⟩ := h.records row record hrow
              obtain rfl : other = sheet := Option.some.inj (hother.symm.trans hsheet)
              rw [Option.bind_some, Sheet.getElem?_record, Sheet.value?, hf]
              rfl

end Reflects

end TableFeed
