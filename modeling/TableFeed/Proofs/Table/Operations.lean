import Mathlib
import TableFeed.Hub
import TableFeed.Proofs.Fields.SheetCells
import TableFeed.Proofs.RowIds.Allocation
/-!
What an owner can do to a table. Every operation, with writers that succeed or fail part way, comes
down to one of five moves; what holds of tables is proved for the moves.
-/

namespace TableFeed

/-! ### Batches -/

namespace Batch

variable (b : Batch) (row other : RowId)

@[simp] theorem mem_added_add : other ∈ (b.add row).added ↔ other = row ∨ other ∈ b.added :=
  AscSet.mem_insert

@[simp] theorem mem_removed_add : other ∈ (b.add row).removed ↔ other ≠ row ∧ other ∈ b.removed :=
  AscSet.mem_erase

@[simp] theorem find?_changed_add :
    (b.add row).changed.find? other = if row = other then none else b.changed.find? other :=
  AscMap.find?_erase

theorem touches_iff : b.touches row = true ↔ row ∈ b.added ∨ row ∈ b.removed := by
  simp [touches, AscSet.contains]

variable (fields : FieldSet)

@[simp] theorem added_changeFields : (b.changeFields row fields).added = b.added := by
  rw [changeFields]
  split <;> rfl

@[simp] theorem removed_changeFields : (b.changeFields row fields).removed = b.removed := by
  rw [changeFields]
  split <;> rfl

theorem find?_changed_changeFields :
    (b.changeFields row fields).changed.find? other =
      if row = other ∧ fields.isEmpty = false ∧ ¬b.touches row = true then
        some (((b.changed.find? row).getD ∅).union fields)
      else b.changed.find? other := by
  rw [changeFields]
  by_cases hskip : (fields.isEmpty || b.touches row) = true
  · rw [if_pos hskip, if_neg]
    rintro ⟨-, hfields, htouches⟩
    rw [hfields, Bool.false_or] at hskip
    exact htouches hskip
  · rw [if_neg hskip]
    simp only [Bool.or_eq_true, not_or, Bool.not_eq_true] at hskip
    simp only [mergeChange, AscMap.find?_insert, hskip.1, hskip.2, Bool.false_eq_true,
      not_false_eq_true, and_true]

theorem remove_of_added (h : row ∈ b.added) :
    b.remove row = { b with added := b.added.erase row } :=
  if_pos (decide_eq_true h)

theorem remove_of_not_added (h : row ∉ b.added) :
    b.remove row = { b with changed := b.changed.erase row, removed := b.removed.insert row } :=
  if_neg (mt of_decide_eq_true h)

end Batch

/-! ### Writers -/

namespace Sheet

/-- Two sheets of one schema that differ at most in the cells of `row` in `fields`. -/
structure Rewrites (s t : Sheet) (row : RowId) (fields : FieldId → Prop) : Prop where
  schema : t.schema = s.schema
  kept : ∀ other id, ¬(other = row ∧ fields id) → t.value? other id = s.value? other id

namespace Rewrites

variable {s t u : Sheet} {row : RowId} {fields : FieldId → Prop}

theorem refl (s : Sheet) (row : RowId) (fields : FieldId → Prop) : s.Rewrites s row fields :=
  ⟨rfl, fun _ _ _ => rfl⟩

theorem trans (h : s.Rewrites t row fields) (h' : t.Rewrites u row fields) :
    s.Rewrites u row fields :=
  ⟨h'.schema.trans h.schema, fun other id hout => (h'.kept other id hout).trans (h.kept other id hout)⟩

theorem mono {more : FieldId → Prop} (h : s.Rewrites t row fields)
    (hmore : ∀ id, fields id → more id) : s.Rewrites t row more :=
  ⟨h.schema, fun other id hout => h.kept other id fun hin => hout ⟨hin.1, hmore id hin.2⟩⟩

end Rewrites

theorem rewrites_set {s t : Sheet} {row : RowId} {id : FieldId} {v : Value}
    (h : s.set row id v = .ok t) : s.Rewrites t row (· = id) := by
  rw [set] at h
  split at h
  · cases h
  next f hf =>
    split at h
    · next htype =>
      rw [← Except.ok.inj h]
      refine ⟨schema_mapField .., fun other id' hout => ?_⟩
      rw [value?, field?_mapField]
      split
      · next heq =>
        subst heq
        rw [value?, hf, Option.map_some, Option.map_some, Option.map_some]
        have hrow : row ≠ other := fun heq => hout ⟨heq.symm, rfl⟩
        simp only [StoredField.value, StoredField.map, Column.value_write htype, if_neg hrow]
      · rfl
    · cases h

/-- What a write that is made does: it sets the cell of a field that is not locked. -/
theorem put_eq_ok {s t : Sheet} {locked : List FieldId} {row : RowId} {w : Write} {id : FieldId}
    (h : s.put locked row w = .ok (t, id)) : id ∉ locked ∧ s.set row id w.value = .ok t := by
  rw [put] at h
  cases hres : s.resolve w.field with
  | error e =>
      rw [hres] at h
      cases h
  | ok id' =>
      rw [hres] at h
      dsimp only [bind, Except.bind] at h
      split at h
      · cases h
      · by_cases hlocked : id' ∈ locked
        · rw [if_pos (List.contains_iff_mem.mpr hlocked)] at h
          cases h
        · rw [if_neg (mt List.contains_iff_mem.mp hlocked)] at h
          cases hset : s.set row id' w.value with
          | error e =>
              rw [hset] at h
              cases h
          | ok u =>
              rw [hset] at h
              cases h
              exact ⟨hlocked, hset⟩

theorem rewrites_put {s t : Sheet} {locked : List FieldId} {row : RowId} {w : Write} {id : FieldId}
    (h : s.put locked row w = .ok (t, id)) : s.Rewrites t row (· = id) :=
  rewrites_set (put_eq_ok h).2

/-- A writer changes at most the cells it reports, and only of its row. -/
theorem rewrites_writeRow (locked : List FieldId) (row : RowId) (writes : List Write) (s : Sheet)
    (written : FieldSet) :
    s.Rewrites (writeRow locked row writes s written).1 row
        (· ∈ (writeRow locked row writes s written).2.1) ∧
      ∀ id ∈ written, id ∈ (writeRow locked row writes s written).2.1 := by
  induction writes generalizing s written with
  | nil => exact ⟨.refl .., fun _ h => h⟩
  | cons w writes ih =>
      rw [writeRow]
      split
      · exact ⟨.refl .., fun _ h => h⟩
      next t id hput =>
        obtain ⟨hrest, hmono⟩ := ih t (written.insert id)
        have hfirst : s.Rewrites t row
            (· ∈ (writeRow locked row writes t (written.insert id)).2.1) :=
          (rewrites_put hput).mono fun id' heq => hmono id' (AscSet.mem_insert.mpr (.inl heq))
        exact ⟨hfirst.trans hrest, fun id' h => hmono id' (AscSet.mem_insert.mpr (.inr h))⟩

end Sheet

theorem KeyedTable.rewrites_writeKey (row : RowId) (cells : List (FieldId × Value)) (s : Sheet) :
    s.Rewrites (writeKey row cells s).1 row (· ∈ cells.map (·.1)) := by
  induction cells generalizing s with
  | nil => exact .refl ..
  | cons cell cells ih =>
      rw [writeKey]
      split
      · next t hset =>
        have hfirst : s.Rewrites t row (· ∈ (cell :: cells).map (·.1)) :=
          (Sheet.rewrites_set hset).mono fun id heq => List.mem_cons.mpr (.inl heq)
        exact hfirst.trans ((ih t).mono fun id hid => List.mem_cons_of_mem _ hid)
      · exact .refl ..

/-- A new row's key and its writer change at most the cells of the row. -/
theorem KeyedTable.rewrites_writeNew (t : KeyedTable) (row : RowId) (key : Key)
    (writes : List Write) :
    t.table.sheet.Rewrites (t.writeNew row key writes).1 row fun _ => True := by
  have hkey := (rewrites_writeKey row (t.keyFields.zip key) t.table.sheet).mono fun _ _ => trivial
  rw [writeNew]
  split
  next sheet result hwrite =>
    rw [hwrite] at hkey
    split
    · exact hkey
    · exact hkey.trans ((Sheet.rewrites_writeRow ..).1.mono fun _ _ => trivial)

/-- Writing a row with an id just allocated, when the writer fails: the row is discarded. -/
theorem Table.discard_allocated {t : Table} (h : t.rows.Sound) (hroom : t.rows.HasRoom)
    {sheet : Sheet} (hsheet : t.sheet.Rewrites sheet t.rows.allocate.2 fun _ => True) :
    ∃ ids sheet', ({ t with rows := t.rows.allocate.1, sheet := sheet } : Table).discard
        t.rows.allocate.2 = { t with rows := ids, sheet := sheet' } ∧
      ids.Sound ∧ ids.live = t.rows.live ∧ ids.retired = t.rows.retired ∧
      sheet'.schema = t.sheet.schema ∧
      ∀ row ∈ t.rows.live, ∀ id, sheet'.value? row id = t.sheet.value? row id := by
  obtain ⟨hnew, -, hlive, hretired, hsound⟩ := h.allocate hroom
  have hmem : t.rows.allocate.2 ∈ t.rows.allocate.1.live := by
    rw [hlive, AscSet.mem_insert]
    exact .inl rfl
  obtain ⟨ids, hids⟩ : ∃ ids, t.rows.allocate.1.release t.rows.allocate.2 = .ok ids :=
    ⟨_, RowIds.release_eq_ok.mpr ⟨hmem, rfl⟩⟩
  obtain ⟨-, hback, hstill, hfreed⟩ := hsound.release hids
  refine ⟨ids, sheet.resetRow t.rows.allocate.2, ?_, hfreed, ?_, hstill.trans hretired,
    (sheet.schema_resetRow _).trans hsheet.schema, ?_⟩
  · simp only [Table.discard, hids]
  · refine AscSet.ext_mem fun row => ?_
    rw [hback, hlive, AscSet.mem_erase, AscSet.mem_insert]
    constructor
    · rintro ⟨hne, heq | hmem⟩
      · exact absurd heq hne
      · exact hmem
    · intro hrow
      exact ⟨fun heq => hnew (heq ▸ hrow), .inr hrow⟩
  · intro row hrow id
    have hne : t.rows.allocate.2 ≠ row := fun heq => hnew (heq ▸ hrow)
    rw [Sheet.value?_resetRow, hsheet.kept row id fun hin => hne hin.1.symm]
    simp [hne]

/-! ### The moves -/

inductive Move (t : Table) : Table → Prop
  /-- Nothing to tell of: at most rows that are not live were written. -/
  | idle {sheet : Sheet} {ids : RowIds} (sound : ids.Sound) (live : ids.live = t.rows.live)
      (retired : ids.retired = t.rows.retired) (schema : sheet.schema = t.sheet.schema)
      (kept : ∀ row ∈ t.rows.live, ∀ id, sheet.value? row id = t.sheet.value? row id) :
      Move t { t with sheet := sheet, rows := ids }
  /-- A row whose id was not in use. -/
  | added {row : RowId} {sheet : Sheet} {ids : RowIds} (sound : ids.Sound)
      (new : row ∉ t.rows.live) (unused : row ∉ t.rows.retired)
      (live : ids.live = t.rows.live.insert row) (retired : ids.retired = t.rows.retired)
      (rewrites : t.sheet.Rewrites sheet row fun _ => True) :
      Move t { t with sheet := sheet, rows := ids, batch := t.batch.add row }
  /-- Fields of a live row were written. -/
  | changed {row : RowId} {sheet : Sheet} {fields : FieldSet} (there : row ∈ t.rows.live)
      (rewrites : t.sheet.Rewrites sheet row (· ∈ fields)) :
      Move t { t with sheet := sheet, batch := t.batch.changeFields row fields }
  | removed {row : RowId} {ids : RowIds} (sound : ids.Sound) (there : row ∈ t.rows.live)
      (live : ids.live = t.rows.live.erase row) (retired : ids.retired = t.rows.retired ++ [row]) :
      Move t { t with rows := ids, batch := t.batch.remove row }
  | replaced (schema : Schema) : Move t (t.replaceSchema schema)

namespace Move

variable {t : Table}

theorem refl (h : t.rows.Sound) : Move t t := .idle h rfl rfl rfl fun _ _ _ => rfl

theorem discarded (h : t.rows.Sound) (hroom : t.rows.HasRoom) {sheet : Sheet}
    (hsheet : t.sheet.Rewrites sheet t.rows.allocate.2 fun _ => True) :
    Move t (({ t with rows := t.rows.allocate.1, sheet := sheet } : Table).discard
      t.rows.allocate.2) := by
  obtain ⟨ids, sheet, hdiscard, hsound, hlive, hretired, hschema, hkept⟩ :=
    Table.discard_allocated h hroom hsheet
  rw [hdiscard]
  exact .idle hsound hlive hretired hschema hkept

theorem insert (h : t.rows.Sound) (hroom : t.rows.HasRoom) (writes : List Write) :
    Move t (t.insert writes).1 := by
  obtain ⟨hnew, hunused, hlive, hretired, hsound⟩ := h.allocate hroom
  have hsheet : t.sheet.Rewrites (Sheet.writeRow [] t.rows.allocate.2 writes t.sheet ∅).1
      t.rows.allocate.2 fun _ => True :=
    (Sheet.rewrites_writeRow [] t.rows.allocate.2 writes t.sheet ∅).1.mono fun _ _ => trivial
  obtain ⟨sheet, written, result, hout⟩ : ∃ sheet written result,
      Sheet.writeRow [] t.rows.allocate.2 writes t.sheet ∅ = (sheet, written, result) :=
    ⟨_, _, _, rfl⟩
  rw [hout] at hsheet
  cases result with
  | ok u =>
      simp only [Table.insert, hout]
      exact .added hsound hnew hunused hlive hretired hsheet
  | error e =>
      simp only [Table.insert, hout]
      exact discarded h hroom hsheet

theorem updateLocked (h : t.rows.Sound) (locked : List FieldId) (row : RowId)
    (writes : List Write) : Move t (t.updateLocked locked row writes).1 := by
  rw [Table.updateLocked]
  split
  · next hlive =>
    refine .changed ?_ (Sheet.rewrites_writeRow locked row writes t.sheet ∅).1
    simpa [Table.isLive, RowIds.isLive, AscSet.contains] using hlive
  · exact .refl h

theorem remove (h : t.rows.Sound) {row : RowId} {t' : Table} (ht : t.remove row = .ok t') :
    Move t t' := by
  rw [Table.remove] at ht
  cases hids : t.rows.retire row with
  | error e =>
      rw [hids] at ht
      cases ht
  | ok ids =>
      rw [hids] at ht
      obtain ⟨hmem, hlive, hretired, hsound⟩ := h.retire hids
      rw [← Except.ok.inj ht]
      exact .removed hsound hmem hlive hretired

theorem upsert {k : KeyedTable} (h : k.table.rows.Sound) (hroom : k.table.rows.HasRoom)
    (key : Key) (writes : List Write) : Move k.table (k.upsert key writes).1.table := by
  rw [KeyedTable.upsert]
  split
  · exact updateLocked h ..
  next hnone =>
    split
    · exact .refl h
    · have hlook : k.keys.lookup key = none := hnone
      have hsheet := k.rewrites_writeNew k.table.rows.allocate.2 key writes
      rw [KeyIndex.intern, hlook]
      dsimp only
      generalize k.writeNew k.table.rows.allocate.2 key writes = out at hsheet ⊢
      obtain ⟨sheet, result⟩ := out
      obtain ⟨hnew, hunused, hlive, hretired, hsound⟩ := h.allocate hroom
      cases result with
      | ok u => exact .added hsound hnew hunused hlive hretired hsheet
      | error e => exact discarded h hroom hsheet

theorem removeKey {k : KeyedTable} (h : k.table.rows.Sound) (key : Key) :
    Move k.table (k.remove key).1.table := by
  rw [KeyedTable.remove]
  split
  · exact .refl h
  next row hrow =>
    dsimp only
    split
    · next table hremove => exact remove h hremove
    · exact .refl h

end Move

/-! ### Operations -/

inductive Act
  | insert (writes : List Write)
  | update (row : RowId) (writes : List Write)
  | remove (row : RowId)
  | replaceSchema (schema : Schema)
  | upsert (key : Key) (writes : List Write)
  | removeKey (key : Key)

def Act.inserts : Act → Bool
  | insert _ | upsert _ _ => true
  | _ => false

namespace AnyTable

/-- Applies an operation, which may fail. One that this kind of table does not have does nothing. -/
def act : AnyTable → Act → AnyTable
  | plain t, .insert writes => plain (t.insert writes).1
  | plain t, .update row writes => plain (t.update row writes).1
  | plain t, .remove row =>
    match t.remove row with
    | .ok t => plain t
    | .error _ => plain t
  | plain t, .replaceSchema schema => plain (t.replaceSchema schema)
  | keyed t, .upsert key writes => keyed (t.upsert key writes).1
  | keyed t, .removeKey key => keyed (t.remove key).1
  | t, _ => t

theorem moves_act {t : AnyTable} (h : t.table.rows.Sound) {a : Act}
    (hroom : a.inserts = true → t.table.rows.HasRoom) : Move t.table (t.act a).table := by
  cases t with
  | plain t =>
      cases a with
      | insert writes => exact .insert h (hroom rfl) writes
      | update row writes => exact .updateLocked h [] row writes
      | remove row =>
          rw [act]
          split
          · next t' ht => exact .remove h ht
          · exact .refl h
      | replaceSchema schema => exact .replaced schema
      | upsert key writes => exact .refl h
      | removeKey key => exact .refl h
  | keyed k =>
      cases a with
      | upsert key writes => exact .upsert h (hroom rfl) key writes
      | removeKey key => exact .removeKey h key
      | insert writes => exact .refl h
      | update row writes => exact .refl h
      | remove row => exact .refl h
      | replaceSchema schema => exact .refl h

end AnyTable

end TableFeed
