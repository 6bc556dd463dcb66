import Mathlib
import TableFeed.Sheet

/-!
Reading the cells of a sheet after it was changed. Every change of a sheet is described by what
`value?` reads afterwards, so that nothing else has to look into columns.
-/

namespace TableFeed

def AscMap.insertAll {κ α : Type} [Ord κ] [DecidableEq κ] [Std.TransOrd κ] [Std.LawfulEqOrd κ]
    (m : AscMap κ α) (es : List (κ × α)) : AscMap κ α :=
  es.foldl (fun m e => m.insert e.1 e.2) m

namespace AscMap

variable {κ α : Type} [Ord κ] [DecidableEq κ]

omit [Ord κ] in
theorem lookIn_eq_none_iff {k : κ} {l : List (κ × α)} :
    lookIn k l = none ↔ k ∉ l.map (·.1) := by
  induction l with
  | nil => simp [lookIn]
  | cons e es ih =>
      by_cases he : e.1 = k
      · simp [lookIn, he]
      · simp [lookIn, he, ih, Ne.symm he]

omit [Ord κ] in
theorem lookIn_of_mem {k : κ} {a : α} {l : List (κ × α)} (hl : (l.map (·.1)).Nodup)
    (h : (k, a) ∈ l) : lookIn k l = some a := by
  induction l with
  | nil => simp at h
  | cons e es ih =>
      rw [List.map_cons, List.nodup_cons] at hl
      rcases List.mem_cons.mp h with rfl | h
      · simp [lookIn]
      · have hne : e.1 ≠ k := fun he => hl.1 (he ▸ List.mem_map_of_mem h)
        simp [lookIn, hne, ih hl.2 h]

omit [Ord κ] in
theorem mem_of_lookIn {k : κ} {a : α} {l : List (κ × α)} (h : lookIn k l = some a) :
    (k, a) ∈ l := by
  induction l with
  | nil => cases h
  | cons e es ih =>
      rw [lookIn] at h
      split at h
      · next he =>
        rw [← he, ← Option.some.inj h]
        exact List.mem_cons_self
      · exact List.mem_cons_of_mem _ (ih h)

omit [Ord κ] in
/-- Looking up where each entry keeps its key. -/
theorem lookIn_map {β : Type} (g : κ × α → β) (k : κ) (l : List (κ × α)) :
    lookIn k (l.map fun e => (e.1, g e)) = (lookIn k l).map fun a => g (k, a) := by
  induction l with
  | nil => rfl
  | cons e es ih =>
      rw [List.map_cons, lookIn, lookIn]
      split
      · next he => simp [← he]
      · exact ih

theorem mem_keys_iff [Std.TransOrd κ] {m : AscMap κ α} {k : κ} :
    k ∈ m.keys ↔ m.contains k = true := by
  show k ∈ m.toList.map (·.1) ↔ (lookIn k m.toList).isSome = true
  rw [Option.isSome_iff_ne_none, ne_eq, lookIn_eq_none_iff, not_not]

theorem mem_values [Std.TransOrd κ] {m : AscMap κ α} {k : κ} {a : α} (h : m.find? k = some a) :
    a ∈ m.values :=
  List.mem_map.mpr ⟨(k, a), find?_eq_some_iff.mp h, rfl⟩

theorem contains_iff {m : AscMap κ α} {k : κ} :
    m.contains k = true ↔ ∃ a, m.find? k = some a := by
  rw [contains, Option.isSome_iff_exists]

theorem insert_insert [Std.TransOrd κ] [Std.LawfulEqOrd κ] (m : AscMap κ α) (k : κ) (a b : α) :
    (m.insert k a).insert k b = m.insert k b := by
  refine ext_find? fun j => ?_
  rw [find?_insert, find?_insert, find?_insert]
  split <;> rfl

theorem insert_of_find? [Std.TransOrd κ] [Std.LawfulEqOrd κ] {m : AscMap κ α} {k : κ} {a : α}
    (h : m.find? k = some a) : m.insert k a = m := by
  refine ext_find? fun j => ?_
  rw [find?_insert]
  split
  · next hk => rw [← hk, h]
  · rfl

theorem find?_insertAll [Std.TransOrd κ] [Std.LawfulEqOrd κ] {m : AscMap κ α}
    {es : List (κ × α)} (hes : (es.map (·.1)).Nodup) (k : κ) :
    (m.insertAll es).find? k = (lookIn k es).or (m.find? k) := by
  induction es generalizing m with
  | nil => simp [insertAll, lookIn]
  | cons e es ih =>
      rw [List.map_cons, List.nodup_cons] at hes
      show ((m.insert e.1 e.2).insertAll es).find? k = _
      rw [ih hes.2, find?_insert]
      by_cases he : e.1 = k
      · have hnone : lookIn k es = none := by
          rw [lookIn_eq_none_iff, ← he]
          exact hes.1
        simp [lookIn, he, hnone]
      · simp [lookIn, he]

end AscMap

/-! ### One column -/

namespace Column

variable {t : DataType}

theorem value_reset (c : Column t) (row other : RowId) :
    (c.reset row).value other = if row = other then .absent t else c.value other := by
  simp only [value, get_reset, Value.absent]
  split <;> rfl

theorem value_write {c : Column t} {v : Value} (hv : v.type = t) (row other : RowId) :
    (c.write row v).value other = if row = other then v else c.value other := by
  obtain ⟨u, a⟩ := v
  obtain rfl : u = t := hv
  simp only [write, Value.as?_mk, value, get_set]
  split <;> rfl

/-- Cells written one after the other read as the one written to the row. -/
theorem value_foldl_write {c : Column t} {cells : List (RowId × Value)}
    (hrows : (cells.map (·.1)).Nodup) (htype : ∀ cell ∈ cells, cell.2.type = t) (row : RowId) :
    (cells.foldl (fun c cell => c.write cell.1 cell.2) c).value row =
      (AscMap.lookIn row cells).getD (c.value row) := by
  induction cells generalizing c with
  | nil => rfl
  | cons cell cells ih =>
      rw [List.map_cons, List.nodup_cons] at hrows
      have hcell : cell.2.type = t := htype cell List.mem_cons_self
      rw [List.foldl_cons, ih hrows.2 fun e he => htype e (List.mem_cons_of_mem _ he),
        value_write hcell]
      by_cases hrow : cell.1 = row
      · have hnone : AscMap.lookIn row cells = none := by
          rw [AscMap.lookIn_eq_none_iff, ← hrow]
          exact hrows.1
        simp [AscMap.lookIn, hrow, hnone]
      · simp [AscMap.lookIn, hrow]

end Column

/-! ### A sheet -/

namespace Sheet

variable (s : Sheet) (row : RowId) (id : FieldId)

theorem field?_eq_none_iff : s.field? id = none ↔ s.schema.fields.length ≤ id := by
  simp [field?, schema]

theorem schema_field? : s.schema.field? id = (s.field? id).map (·.info) := by
  simp [Schema.field?, field?, schema]

/-- A name is found at a field that is there. -/
theorem exists_field? {name : String} (hid : s.schema.fieldId? name = some id) :
    ∃ f, s.field? id = some f ∧ s.schema.fields[id]? = some f.info := by
  obtain ⟨hlt, -⟩ := List.findIdx?_eq_some_iff_getElem.mp hid
  obtain ⟨f, hf⟩ := Option.ne_none_iff_exists'.mp
    (mt (s.field?_eq_none_iff id).mp (Nat.not_le.mpr hlt))
  refine ⟨f, hf, (s.schema_field? id).trans ?_⟩
  rw [hf, Option.map_some]

theorem field?_mapAll (g : (t : DataType) → Column t → Column t) :
    (s.mapAll g).field? id = (s.field? id).map (·.map g) := by
  simp [field?, mapAll]

theorem field?_mapField (g : (t : DataType) → Column t → Column t) (other : FieldId) :
    (s.mapField id g).field? other =
      if id = other then (s.field? other).map (·.map g) else s.field? other := by
  simp only [field?, mapField, List.getElem?_modify]
  split
  · rfl
  · simp

/-- The type of a cell's value is the one of its field. -/
theorem type_of_value? {v : Value} {f : FieldInfo} (hv : s.value? row id = some v)
    (hf : s.schema.field? id = some f) : v.type = f.type := by
  rw [schema_field?] at hf
  rw [value?] at hv
  cases hs : s.field? id with
  | none => simp [hs] at hv
  | some stored =>
      rw [hs, Option.map_some, Option.some.injEq] at hv hf
      rw [← hv, ← hf]
      rfl

theorem value?_eq_none_iff : s.value? row id = none ↔ s.schema.field? id = none := by
  rw [value?, schema_field?, Option.map_eq_none_iff, Option.map_eq_none_iff]

theorem value?_resetRow (other : RowId) :
    (s.resetRow row).value? other id =
      (s.value? other id).map fun v => if row = other then .absent v.type else v := by
  rw [value?, resetRow, field?_mapAll, value?]
  cases s.field? id with
  | none => rfl
  | some f =>
      simp only [Option.map_some, StoredField.value, StoredField.map, Column.value_reset]
      split <;> rfl

theorem schema_resetRow : (s.resetRow row).schema = s.schema := schema_mapAll ..

/-- Rows cleared one after the other read as absent, the others as before. -/
theorem value?_foldl_resetRow (rows : List RowId) :
    (rows.foldl resetRow s).value? row id =
      (s.value? row id).map fun v => if row ∈ rows then .absent v.type else v := by
  induction rows generalizing s with
  | nil => simp
  | cons r rows ih =>
      rw [List.foldl_cons, ih, value?_resetRow, Option.map_map]
      congr 1
      funext v
      by_cases hr : r = row
      · simp [hr, Value.absent]
      · simp [hr, Ne.symm hr]

theorem schema_foldl_resetRow (rows : List RowId) : (rows.foldl resetRow s).schema = s.schema := by
  induction rows generalizing s with
  | nil => rfl
  | cons r rows ih => rw [List.foldl_cons, ih, schema_resetRow]

end Sheet

end TableFeed
