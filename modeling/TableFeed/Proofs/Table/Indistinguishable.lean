import Mathlib
import TableFeed.Proofs.Encoder.RowData
import TableFeed.Proofs.Table.CellHistory
/-!
States that cannot be told apart. Two sheets may store the same cells in different ways, and of two
stores of ids one may have an id in its counter that the other has as the last of its free ones.
Nothing that can be done to a table or asked of it finds such a difference or makes it greater.
-/

namespace TableFeed

inductive SameResult {α : Type} (R : α → α → Prop) : Except Error α → Except Error α → Prop
  | ok {a b : α} (alike : R a b) : SameResult R (.ok a) (.ok b)
  | error (e : Error) : SameResult R (.error e) (.error e)

/-! ### Sheets -/

namespace Sheet

structure Twin (s t : Sheet) : Prop where
  schema : t.schema = s.schema
  cells : ∀ row id, t.value? row id = s.value? row id

variable {s t : Sheet} {row other : RowId} {id other' : FieldId} {v : Value}

theorem value?_set (h : s.set row id v = .ok t) : t.value? other other' =
    if other = row ∧ other' = id then some v else s.value? other other' := by
  split
  next hcell =>
    obtain ⟨rfl, rfl⟩ := hcell
    exact value?_set_self h
  next hcell => exact (rewrites_set h).kept other other' hcell

theorem schema_carryOver (schema : Schema) (old : Sheet) (rows : List RowId) :
    ((ofSchema schema).carryOver old rows).schema = schema := by
  refine Schema.toLayout_injective ?_
  simp [carryOver, Sheet.schema, ofSchema, Function.comp_def]

namespace Twin

theorem refl (s : Sheet) : s.Twin s := ⟨rfl, fun _ _ => rfl⟩

/-- A sheet that is shelved, if there is one. -/
theorem shelved (s? : Option Sheet) : Option.Rel Twin s? s? := by
  cases s? with
  | none => exact .none
  | some s => exact .some (.refl s)

theorem field? (h : s.Twin t) (id : FieldId) :
    (s.field? id = none ∧ t.field? id = none) ∨
      ∃ (info : FieldInfo) (c c' : Column info.type), s.field? id = some ⟨info, c⟩ ∧
        t.field? id = some ⟨info, c'⟩ ∧ c'.get = c.get := by
  have hinfo : (t.field? id).map (·.info) = (s.field? id).map (·.info) := by
    rw [← schema_field?, ← schema_field?, h.schema]
  have hcells := fun row => h.cells row id
  simp only [value?] at hcells
  cases hs : s.field? id with
  | none =>
      rw [hs] at hinfo
      exact .inl ⟨rfl, Option.map_eq_none_iff.mp hinfo⟩
  | some f =>
      cases ht : t.field? id with
      | none =>
          rw [hs, ht] at hinfo
          cases hinfo
      | some f' =>
          obtain ⟨info, c⟩ := f
          obtain ⟨info', c'⟩ := f'
          rw [hs, ht] at hinfo hcells
          obtain rfl : info' = info := Option.some.inj hinfo
          refine .inr ⟨info', c, c', rfl, rfl, funext fun row => ?_⟩
          have hvalue : (⟨info'.type, c'.get row⟩ : Value) = ⟨info'.type, c.get row⟩ :=
            Option.some.inj (hcells row)
          exact eq_of_heq (Value.mk.inj hvalue).2

theorem set (h : s.Twin t) (row : RowId) (id : FieldId) (v : Value) :
    SameResult Twin (s.set row id v) (t.set row id v) := by
  rcases h.field? id with ⟨hs, ht⟩ | ⟨info, c, c', hs, ht, -⟩
  · rw [Sheet.set, Sheet.set, hs, ht]
    exact .error _
  · by_cases htype : v.type = info.type
    · have hset : s.set row id v = .ok (s.mapField id fun _ c => c.write row v) := by
        rw [Sheet.set, hs]
        exact if_pos htype
      have hset' : t.set row id v = .ok (t.mapField id fun _ c => c.write row v) := by
        rw [Sheet.set, ht]
        exact if_pos htype
      rw [hset, hset']
      refine .ok ⟨by rw [schema_mapField, schema_mapField, h.schema], fun other id' => ?_⟩
      rw [value?_set hset, value?_set hset', h.cells]
    · rw [Sheet.set, Sheet.set, hs, ht]
      simp only [htype, if_false]
      exact .error _

theorem resolve (h : s.Twin t) (ref : FieldRef) : t.resolve ref = s.resolve ref := by
  cases ref with
  | id id => rfl
  | name n => rw [Sheet.resolve, Sheet.resolve, h.schema]

theorem put (h : s.Twin t) (locked : List FieldId) (row : RowId) (w : Write) :
    SameResult (fun x y => x.1.Twin y.1 ∧ y.2 = x.2) (s.put locked row w) (t.put locked row w) := by
  rw [Sheet.put, Sheet.put, h.resolve]
  cases s.resolve w.field with
  | error e => exact .error e
  | ok id =>
      dsimp only [bind, Except.bind]
      rcases h.field? id with ⟨hs, ht⟩ | ⟨info, c, c', hs, ht, -⟩
      · rw [hs, ht]
        exact .error _
      · rw [hs, ht]
        dsimp only
        split
        · exact .error _
        · have hset := h.set row id w.value
          generalize s.set row id w.value = x at hset
          generalize t.set row id w.value = y at hset
          cases hset with
          | ok halike => exact .ok ⟨halike, rfl⟩
          | error e => exact .error e

theorem writeRow (h : s.Twin t) (locked : List FieldId) (row : RowId) (writes : List Write)
    (written : FieldSet) :
    (Sheet.writeRow locked row writes s written).1.Twin
        (Sheet.writeRow locked row writes t written).1 ∧
      (Sheet.writeRow locked row writes t written).2 =
        (Sheet.writeRow locked row writes s written).2 := by
  induction writes generalizing s t written with
  | nil => exact ⟨h, rfl⟩
  | cons w writes ih =>
      have hput := h.put locked row w
      rw [Sheet.writeRow, Sheet.writeRow]
      generalize s.put locked row w = x at hput
      generalize t.put locked row w = y at hput
      cases hput with
      | @ok a b halike =>
          obtain ⟨s', id⟩ := a
          obtain ⟨t', id'⟩ := b
          obtain ⟨hsheet, rfl⟩ := halike
          exact ih hsheet _
      | error e => exact ⟨h, rfl⟩

theorem resetRows (h : s.Twin t) (rows : List RowId) :
    (rows.foldl Sheet.resetRow s).Twin (rows.foldl Sheet.resetRow t) := by
  refine ⟨?_, fun row id => ?_⟩
  · rw [schema_foldl_resetRow, schema_foldl_resetRow, h.schema]
  · rw [value?_foldl_resetRow, value?_foldl_resetRow, h.cells]

theorem carryOver (h : s.Twin t) (schema : Schema) (rows : List RowId) :
    ((ofSchema schema).carryOver s rows).Twin ((ofSchema schema).carryOver t rows) := by
  refine ⟨by rw [schema_carryOver, schema_carryOver], fun row id => ?_⟩
  cases hf : schema.field? id with
  | none =>
      rw [(value?_eq_none_iff ..).mpr (by rw [schema_carryOver, hf]),
        (value?_eq_none_iff ..).mpr (by rw [schema_carryOver, hf])]
  | some f =>
      have hcells : t.value? row = s.value? row := funext (h.cells row)
      rw [value?_carryOver schema s rows hf, value?_carryOver schema t rows hf, h.schema, hcells]

end Twin

end Sheet

/-! ### What is sent of a sheet -/

section Sending

variable {s t : Sheet} (h : s.Twin t)

include h

theorem Encoder.gather_twin (rows : List RowId) (fields : List (FieldId × Nat)) :
    gather t rows fields = gather s rows fields := by
  show gatherFrom t rows { rows := rows } fields = gatherFrom s rows { rows := rows } fields
  generalize ({ rows := rows } : RowData) = d
  induction fields generalizing d with
  | nil => rfl
  | cons f fields ih =>
      rw [gatherFrom_cons, gatherFrom_cons]
      rcases h.field? f.1 with ⟨hs, ht⟩ | ⟨info, c, c', hs, ht, hget⟩
      · rw [hs, ht]
      · rw [hs, ht]
        dsimp only
        rw [hget]
        exact ih _

theorem Encoder.encodeRows_twin (e : Encoder) (type : ResponseType) (rows : List RowId) :
    e.encodeRows t type rows = e.encodeRows s type rows := by
  simp only [encodeRows, gather_twin h]

theorem Encoder.encodeChange_twin (e : Encoder) (rows : List RowId) (changed : FieldSet) :
    e.encodeChange t rows changed = e.encodeChange s rows changed := by
  simp only [encodeChange, gather_twin h]

/-- A sink does not tell the sheets apart. -/
theorem Sink.hear_twin (x : Sink) (rows : Nat) (n : Notice) :
    x.hear rows t n = x.hear rows s n := by
  simp only [hear, hearSchema, Encoder.encodeRows_twin h, Encoder.encodeChange_twin h]

end Sending

/-! ### Row ids -/

namespace RowIds

/-- Two stores that hand out the same ids: the same one, or one whose counter has passed an id that
is the last of the free ones instead. -/
inductive Twin (s : RowIds) : RowIds → Prop
  | same : Twin s s
  | passed : Twin s { s with next := s.next + 1, free := s.free ++ [s.next] }

variable {s t : RowIds}

/-- Giving back the id that was handed out last. -/
theorem twin_release (hnew : s.allocate.2 ∉ s.live) :
    ∃ t, s.allocate.1.release s.allocate.2 = .ok t ∧ s.Twin t := by
  obtain ⟨next, free, retired, live⟩ := s
  have hback : ∀ row, row ∉ live → (live.insert row).erase row = live := by
    intro row hrow
    refine AscSet.ext_mem fun other => ?_
    rw [AscSet.mem_erase, AscSet.mem_insert]
    by_cases hother : other = row
    · simp [hother, hrow]
    · simp [hother]
  cases free with
  | nil =>
      refine ⟨_, release_eq_ok.mpr ⟨AscSet.mem_insert.mpr (.inl rfl), rfl⟩, ?_⟩
      simp only [allocate, hback next hnew]
      exact .passed
  | cons row rest =>
      refine ⟨_, release_eq_ok.mpr ⟨AscSet.mem_insert.mpr (.inl rfl), rfl⟩, ?_⟩
      simp only [allocate, hback row hnew]
      exact .same

namespace Twin

theorem live (h : s.Twin t) : t.live = s.live := by
  cases h <;> rfl

theorem retired (h : s.Twin t) : t.retired = s.retired := by
  cases h <;> rfl

/-- The id that the one has free is the next one of the other's counter. -/
theorem allocate (h : s.Twin t) :
    t.allocate.2 = s.allocate.2 ∧ s.allocate.1.Twin t.allocate.1 := by
  obtain ⟨next, free, retired, live⟩ := s
  cases h with
  | same => exact ⟨rfl, .same⟩
  | passed =>
      cases free with
      | nil => exact ⟨rfl, .same⟩
      | cons row rest => exact ⟨rfl, .passed⟩

theorem release (h : s.Twin t) (row : RowId) :
    SameResult Twin (s.release row) (t.release row) := by
  have hlive : t.isLive row = s.isLive row := by rw [isLive, isLive, h.live]
  rw [RowIds.release, RowIds.release, hlive]
  split
  · cases h with
    | same => exact .ok .same
    | passed => exact .ok .passed
  · exact .error _

theorem retire (h : s.Twin t) (row : RowId) : SameResult Twin (s.retire row) (t.retire row) := by
  have hlive : t.isLive row = s.isLive row := by rw [isLive, isLive, h.live]
  rw [RowIds.retire, RowIds.retire, hlive]
  split
  · cases h with
    | same => exact .ok .same
    | passed => exact .ok .passed
  · exact .error _

theorem recycle (h : s.Twin t) : s.recycle.Twin t.recycle := by
  cases h with
  | same => exact .same
  | passed =>
      simp only [RowIds.recycle, ← List.append_assoc]
      exact .passed

end Twin

end RowIds

/-! ### Tables -/

namespace Table

/-- Two tables that differ at most in how they store their cells and in which ids they have counted
already. -/
structure Twin (t t' : Table) : Prop where
  sheet : t.sheet.Twin t'.sheet
  shelved : Option.Rel Sheet.Twin t.shelved t'.shelved
  rows : t.rows.Twin t'.rows
  batch : t'.batch = t.batch
  publisher : t'.publisher = t.publisher

namespace Twin

variable {t t' : Table}

theorem refl (t : Table) : t.Twin t := ⟨.refl _, Sheet.Twin.shelved _, .same, rfl, rfl⟩

theorem isLive (h : t.Twin t') (row : RowId) : t'.isLive row = t.isLive row := by
  rw [Table.isLive, Table.isLive, RowIds.isLive, RowIds.isLive, h.rows.live]

theorem shown (h : t.Twin t') : t.shown.Twin t'.shown := by
  have hshelved := h.shelved
  rw [Table.shown, Table.shown]
  generalize t.shelved = x at hshelved
  generalize t'.shelved = y at hshelved
  cases hshelved with
  | some hold => exact hold
  | none => exact h.sheet

theorem get (h : t.Twin t') (row : RowId) (ref : FieldRef) : t'.get row ref = t.get row ref := by
  rw [Table.get, Table.get, h.sheet.resolve, h.isLive]
  cases t.sheet.resolve ref with
  | error e => rfl
  | ok id =>
      dsimp only [bind, Except.bind]
      rcases h.sheet.field? id with ⟨hs, ht⟩ | ⟨info, c, c', hs, ht, hget⟩
      · rw [hs, ht]
      · rw [hs, ht]
        simp only [StoredField.value, Column.value, hget]

/-- Giving up a row that was written. -/
theorem discard (h : t.Twin t') (row : RowId) : (t.discard row).Twin (t'.discard row) := by
  refine ⟨h.sheet.resetRows [row], h.shelved, ?_, h.batch, h.publisher⟩
  have hrelease := h.rows.release row
  simp only [Table.discard]
  generalize t.rows.release row = x at hrelease
  generalize t'.rows.release row = y at hrelease
  cases hrelease with
  | ok hids => exact hids
  | error e => exact h.rows

theorem insert (h : t.Twin t') (writes : List Write) :
    (t.insert writes).1.Twin (t'.insert writes).1 ∧ (t'.insert writes).2 = (t.insert writes).2 := by
  obtain ⟨hrow, hids⟩ := h.rows.allocate
  have hwrite := h.sheet.writeRow [] t.rows.allocate.2 writes ∅
  simp only [Table.insert, hrow]
  generalize Sheet.writeRow [] t.rows.allocate.2 writes t.sheet ∅ = x at hwrite
  generalize Sheet.writeRow [] t.rows.allocate.2 writes t'.sheet ∅ = y at hwrite
  obtain ⟨sheet, written, result⟩ := x
  obtain ⟨sheet', out⟩ := y
  obtain ⟨hsheet, rfl⟩ := hwrite
  have hwritten : Twin { t with rows := t.rows.allocate.1, sheet := sheet }
      { t' with rows := t'.rows.allocate.1, sheet := sheet' } :=
    ⟨hsheet, h.shelved, hids, h.batch, h.publisher⟩
  cases result with
  | ok u => exact ⟨⟨hsheet, h.shelved, hids, by rw [h.batch], h.publisher⟩, rfl⟩
  | error e => exact ⟨hwritten.discard _, rfl⟩

theorem updateLocked (h : t.Twin t') (locked : List FieldId) (row : RowId) (writes : List Write) :
    (t.updateLocked locked row writes).1.Twin (t'.updateLocked locked row writes).1 ∧
      (t'.updateLocked locked row writes).2 = (t.updateLocked locked row writes).2 := by
  have hwrite := h.sheet.writeRow locked row writes ∅
  rw [Table.updateLocked, Table.updateLocked, h.isLive]
  split
  · generalize Sheet.writeRow locked row writes t.sheet ∅ = x at hwrite
    generalize Sheet.writeRow locked row writes t'.sheet ∅ = y at hwrite
    obtain ⟨sheet, out⟩ := x
    obtain ⟨sheet', out'⟩ := y
    obtain ⟨hsheet, rfl⟩ := hwrite
    exact ⟨⟨hsheet, h.shelved, h.rows, by rw [h.batch], h.publisher⟩, rfl⟩
  · exact ⟨h, rfl⟩

theorem remove (h : t.Twin t') (row : RowId) : SameResult Twin (t.remove row) (t'.remove row) := by
  have hretire := h.rows.retire row
  rw [Table.remove, Table.remove]
  generalize t.rows.retire row = x at hretire
  generalize t'.rows.retire row = y at hretire
  cases hretire with
  | ok hids => exact .ok ⟨h.sheet, h.shelved, hids, by rw [h.batch], h.publisher⟩
  | error e => exact .error e

theorem replaceSchema (h : t.Twin t') (schema : Schema) :
    (t.replaceSchema schema).Twin (t'.replaceSchema schema) := by
  have hlive : t'.rows.liveRows = t.rows.liveRows := by
    rw [RowIds.liveRows, RowIds.liveRows, h.rows.live]
  refine ⟨?_, .some h.shown, h.rows, h.batch, by rw [Table.replaceSchema, h.publisher]; rfl⟩
  rw [Table.replaceSchema, Table.replaceSchema, hlive]
  exact h.sheet.carryOver schema _

theorem publish (h : t.Twin t') :
    t.publish.1.Twin t'.publish.1 ∧ t'.publish.2 = t.publish.2 := by
  rw [Table.publish, Table.publish, h.batch, h.publisher, h.rows.live]
  exact ⟨⟨h.sheet, .none, h.rows, rfl, rfl⟩, rfl⟩

theorem settle (h : t.Twin t') : t.settle.Twin t'.settle := by
  refine ⟨?_, h.shelved, h.rows.recycle, h.batch, h.publisher⟩
  rw [Table.settle, Table.settle, h.rows.retired]
  exact h.sheet.resetRows _

/-- Changing what is attached. -/
theorem mapPublisher (h : t.Twin t') (f : Publisher → Publisher) :
    Twin { t with publisher := f t.publisher } { t' with publisher := f t'.publisher } :=
  ⟨h.sheet, h.shelved, h.rows, h.batch, congrArg f h.publisher⟩

end Twin

end Table

namespace KeyedTable

structure Twin (t t' : KeyedTable) : Prop where
  table : t.table.Twin t'.table
  keyFields : t'.keyFields = t.keyFields
  keys : t'.keys = t.keys

theorem writeKey_twin {s t : Sheet} (h : s.Twin t) (row : RowId) (cells : List (FieldId × Value)) :
    (writeKey row cells s).1.Twin (writeKey row cells t).1 ∧
      (writeKey row cells t).2 = (writeKey row cells s).2 := by
  induction cells generalizing s t with
  | nil => exact ⟨h, rfl⟩
  | cons cell cells ih =>
      have hset := h.set row cell.1 cell.2
      rw [writeKey, writeKey]
      generalize s.set row cell.1 cell.2 = x at hset
      generalize t.set row cell.1 cell.2 = y at hset
      cases hset with
      | ok hsheet => exact ih hsheet
      | error e => exact ⟨h, rfl⟩

namespace Twin

variable {t t' : KeyedTable}

theorem writeNew (h : t.Twin t') (row : RowId) (key : Key) (writes : List Write) :
    (t.writeNew row key writes).1.Twin (t'.writeNew row key writes).1 ∧
      (t'.writeNew row key writes).2 = (t.writeNew row key writes).2 := by
  obtain ⟨hkey, hout⟩ := writeKey_twin h.table.sheet row (t.keyFields.zip key)
  rw [KeyedTable.writeNew, KeyedTable.writeNew, h.keyFields]
  dsimp only
  rw [hout]
  cases (writeKey row (t.keyFields.zip key) t.table.sheet).2 with
  | error e => exact ⟨hkey, rfl⟩
  | ok u =>
      obtain ⟨hsheet, hrest⟩ := hkey.writeRow t.keyFields row writes ∅
      exact ⟨hsheet, congrArg (·.2) hrest⟩

theorem upsert (h : t.Twin t') (key : Key) (writes : List Write) :
    (t.upsert key writes).1.Twin (t'.upsert key writes).1 ∧
      (t'.upsert key writes).2 = (t.upsert key writes).2 := by
  have hlookup : t'.lookup key = t.lookup key := by rw [lookup, lookup, h.keys]
  rw [KeyedTable.upsert, KeyedTable.upsert, hlookup, h.keyFields]
  cases hrow : t.lookup key with
  | some row =>
      obtain ⟨htable, hout⟩ := h.table.updateLocked t.keyFields row writes
      dsimp only
      rw [hout]
      exact ⟨⟨htable, rfl, h.keys⟩, rfl⟩
  | none =>
      dsimp only
      split
      · exact ⟨h, rfl⟩
      · obtain ⟨hnew, hids⟩ := h.table.rows.allocate
        have hlook : t.keys.lookup key = none := hrow
        obtain ⟨hsheet, hout⟩ := h.writeNew t.table.rows.allocate.2 key writes
        have hwritten : Table.Twin
            { t.table with rows := t.table.rows.allocate.1,
                           sheet := (t.writeNew t.table.rows.allocate.2 key writes).1 }
            { t'.table with rows := t'.table.rows.allocate.1,
                            sheet := (t'.writeNew t.table.rows.allocate.2 key writes).1 } :=
          ⟨hsheet, h.table.shelved, hids, h.table.batch, h.table.publisher⟩
        simp only [KeyIndex.intern, h.keys, hlook, hnew, hout]
        cases (t.writeNew t.table.rows.allocate.2 key writes).2 with
        | ok u =>
            exact ⟨⟨⟨hsheet, h.table.shelved, hids, by rw [h.table.batch], h.table.publisher⟩,
              rfl, rfl⟩, rfl⟩
        | error e => exact ⟨⟨hwritten.discard _, rfl, rfl⟩, rfl⟩

theorem remove (h : t.Twin t') (key : Key) :
    (t.remove key).1.Twin (t'.remove key).1 ∧ (t'.remove key).2 = (t.remove key).2 := by
  have hlookup : t'.lookup key = t.lookup key := by rw [lookup, lookup, h.keys]
  rw [KeyedTable.remove, KeyedTable.remove, hlookup]
  cases t.lookup key with
  | none => exact ⟨h, rfl⟩
  | some row =>
      have hremove := h.table.remove row
      dsimp only
      generalize t.table.remove row = x at hremove
      generalize t'.table.remove row = y at hremove
      cases hremove with
      | ok htable => exact ⟨⟨htable, h.keyFields, by rw [h.keys]⟩, rfl⟩
      | error e => exact ⟨⟨h.table, h.keyFields, by rw [h.keys]⟩, rfl⟩

end Twin

end KeyedTable

end TableFeed
