import Mathlib
import TableFeed.Proofs.Encoder.Responses
import TableFeed.Proofs.Replica.MessageShape
/-!
Rows as they travel. Short and char values are widened on the way out and brought back by the
machine, so a message gathered from a sheet says of each cell exactly what the sheet holds.
-/

namespace TableFeed

def Value.widen : Value → Value
  | ⟨.short, n⟩ => ⟨.int32, n.toInt32⟩
  | ⟨.char, c⟩ => ⟨.int32, c.val.toInt32⟩
  | v => v

theorem toInt_val_char (c : Char) : c.val.toInt32.toInt = (c.toNat : Int) := by
  have hlt : c.toNat < 1114112 := by
    have hvalid : c.toNat < 0xd800 ∨ 0xdfff < c.toNat ∧ c.toNat < 0x110000 := c.valid
    omega
  have hn := toInt_eq_toNat c.val.toInt32
  have hnat : c.val.toInt32.toUInt32.toNat = c.toNat := rfl
  rw [hnat] at hn
  split at hn <;> omega

/-- What was widened is brought back. -/
theorem unwiden_widen (v : Value) : unwiden v.type v.widen = some v := by
  obtain ⟨t, a⟩ := v
  cases t with
  | short =>
      have hlow := Int16.le_toInt a
      have hhigh := Int16.toInt_lt a
      simp only [Value.widen, unwiden, Int16.toInt_toInt32]
      rw [if_pos (by omega), Int16.ofInt_toInt]
  | char =>
      have hvalid : (c : Char) → 0 ≤ c.val.toInt32.toInt ∧ c.val.toInt32.toInt.toNat.isValidChar := by
        intro c
        rw [toInt_val_char]
        exact ⟨by omega, c.valid⟩
      simp only [Value.widen, unwiden]
      rw [if_pos (hvalid a), toInt_val_char, Int.toNat_natCast, Char.ofNat_toNat]
  | bool => rfl
  | byte => rfl
  | int32 => rfl
  | int64 => rfl
  | float32 => rfl
  | float64 => rfl
  | string => rfl
  | generic => rfl

namespace RowData

/-- A section with one column more, whose values travel as `ws`. -/
theorem count_sectionColumns (t : DataType) (cs : List (WireColumn t.Carrier)) (id : UInt32)
    (vs : List t.Carrier) {ws : List Value} (hws : vs.map (Value.mk t) = ws)
    (c : FieldId × List Value) :
    (sectionColumns t (cs ++ [⟨id, vs⟩])).count c =
      (sectionColumns t cs).count c + [(id.toNat, ws)].count c := by
  rw [sectionColumns, List.map_append, List.count_append, ← hws]
  rfl

/-- A column that is pushed comes to the columns there are. -/
theorem columns_push (d : RowData) (id : UInt32) (t : DataType) (vs : List t.Carrier) :
    (d.push id t vs).columns.Perm
      (d.columns ++ [(id.toNat, vs.map fun a => (Value.mk t a).widen)]) := by
  obtain ⟨ws, hws⟩ : ∃ ws, vs.map (fun a => (Value.mk t a).widen) = ws := ⟨_, rfl⟩
  refine List.perm_iff_count.mpr fun c => ?_
  rw [hws, List.count_append, columns, columns]
  simp only [List.count_append]
  -- a column goes to the section of its type, or to the one its values are widened to
  cases t with
  | bool =>
      have h := count_sectionColumns .bool d.bools id vs hws c
      simp only [push]
      omega
  | byte =>
      have h := count_sectionColumns .byte d.bytes id vs hws c
      simp only [push]
      omega
  | short =>
      have h := count_sectionColumns .int32 d.int32s id (vs.map Int16.toInt32) (List.map_map.trans hws) c
      simp only [push]
      omega
  | char =>
      have h := count_sectionColumns .int32 d.int32s id
        (vs.map fun (a : DataType.char.Carrier) => Char.val a |>.toInt32) (List.map_map.trans hws) c
      simp only [push]
      omega
  | int32 =>
      have h := count_sectionColumns .int32 d.int32s id vs hws c
      simp only [push]
      omega
  | int64 =>
      have h := count_sectionColumns .int64 d.int64s id vs hws c
      simp only [push]
      omega
  | float32 =>
      have h := count_sectionColumns .float32 d.floats id vs hws c
      simp only [push]
      omega
  | float64 =>
      have h := count_sectionColumns .float64 d.doubles id vs hws c
      simp only [push]
      omega
  | string =>
      have h := count_sectionColumns .string d.strings id vs hws c
      simp only [push]
      omega
  | generic =>
      have h := count_sectionColumns .generic d.generics id vs hws c
      simp only [push]
      omega

theorem length_le_columnsSize {α : Type} (size : α → Nat) (cols : List (WireColumn α)) :
    cols.length ≤ Wire.columnsSize size cols := by
  induction cols with
  | nil => exact Nat.zero_le _
  | cons col cols ih =>
      simp only [Wire.columnsSize, Wire.listSize, List.foldr_cons, List.length_cons] at ih ⊢
      omega

/-- Every column takes some room. -/
theorem length_columns_le (d : RowData) : d.columns.length ≤ Wire.dataSize d := by
  have hbools := length_le_columnsSize (fun _ => 1) d.bools
  have hbytes := length_le_columnsSize (fun _ => 1) d.bytes
  have hint32s := length_le_columnsSize (fun _ => 4) d.int32s
  have hint64s := length_le_columnsSize (fun _ => 8) d.int64s
  have hfloats := length_le_columnsSize (fun _ => 4) d.floats
  have hdoubles := length_le_columnsSize (fun _ => 8) d.doubles
  have hstrings := length_le_columnsSize Wire.stringSize d.strings
  have hgenerics := length_le_columnsSize Wire.bytesSize d.generics
  simp only [columns, sectionColumns, List.length_append, List.length_map, Wire.dataSize]
  omega

theorem rows_push (d : RowData) (id : UInt32) (t : DataType) (vs : List t.Carrier) :
    (d.push id t vs).rows = d.rows := by
  cases t <;> rfl

end RowData

namespace Encoder

def columnOf (sheet : Sheet) (rows : List RowId) (f : FieldId × Nat) : FieldId × List Value :=
  ((UInt32.ofNat f.2).toNat,
    rows.map fun row => ((sheet.value? row f.1).map Value.widen).getD default)

def gatherFrom (sheet : Sheet) (rows : List RowId) (d : RowData) (fields : List (FieldId × Nat)) :
    Except Error RowData :=
  fields.foldlM (fun data (id, number) =>
    match sheet.field? id with
    | none => .error (.invalidOperation .outsideSchema)
    | some f => .ok (data.push (UInt32.ofNat number) f.info.type (rows.map f.column.get))) d

theorem gatherFrom_cons (sheet : Sheet) (rows : List RowId) (d : RowData) (f : FieldId × Nat)
    (fields : List (FieldId × Nat)) :
    gatherFrom sheet rows d (f :: fields) =
      match sheet.field? f.1 with
      | none => .error (.invalidOperation .outsideSchema)
      | some g => gatherFrom sheet rows
          (d.push (UInt32.ofNat f.2) g.info.type (rows.map g.column.get)) fields := by
  obtain ⟨id, number⟩ := f
  rw [gatherFrom, List.foldlM_cons]
  dsimp only
  cases hf : sheet.field? id with
  | none => rfl
  | some g => rfl

theorem gatherFrom_eq {sheet : Sheet} {rows : List RowId} {fields : List (FieldId × Nat)}
    {d₀ d : RowData} (h : gatherFrom sheet rows d₀ fields = .ok d) :
    d.rows = d₀.rows ∧ d.columns.Perm (d₀.columns ++ fields.map (columnOf sheet rows)) := by
  induction fields generalizing d₀ with
  | nil =>
      cases h
      exact ⟨rfl, by simp⟩
  | cons f fields ih =>
      rw [gatherFrom_cons] at h
      cases hf : sheet.field? f.1 with
      | none =>
          rw [hf] at h
          cases h
      | some g =>
          rw [hf] at h
          obtain ⟨hrows, hcolumns⟩ := ih h
          have hcolumn : columnOf sheet rows f = ((UInt32.ofNat f.2).toNat,
              (rows.map g.column.get).map fun a => (Value.mk g.info.type a).widen) := by
            simp only [columnOf, Sheet.value?, hf, List.map_map]
            rfl
          rw [List.map_cons, hcolumn, List.append_cons]
          exact ⟨hrows.trans (RowData.rows_push ..),
            hcolumns.trans ((RowData.columns_push ..).append_right _)⟩

/-- A gathered message has the rows, and one column for each field. -/
theorem gather_eq {sheet : Sheet} {rows : List RowId} {fields : List (FieldId × Nat)} {d : RowData}
    (h : gather sheet rows fields = .ok d) :
    d.rows = rows ∧ d.columns.Perm (fields.map (columnOf sheet rows)) :=
  gatherFrom_eq (show gatherFrom sheet rows { rows := rows } fields = .ok d from h)

end Encoder

end TableFeed
