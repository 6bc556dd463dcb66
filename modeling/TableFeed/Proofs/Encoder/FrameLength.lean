import Mathlib
import TableFeed.Proofs.Encoder.Halving
import TableFeed.Proofs.Wire.Frames
/-!
The length of a frame, told before the frame is written. It is the length of what is written, for
every response. Leaving rows out of a data section, with their values in every column, makes the
frame shorter by what the rows take up, and what is left is what an encoder gathers for the rows
that stay: so halving a batch makes it shorter every time.
-/

namespace TableFeed

/-! ### Items left out -/

def pick {α : Type} : List Bool → List α → List α
  | true :: kept, a :: as => a :: pick kept as
  | false :: kept, _ :: as => pick kept as
  | _, _ => []

section Pick

variable {α β : Type}

theorem pick_sublist (kept : List Bool) (as : List α) : (pick kept as).Sublist as := by
  induction as generalizing kept with
  | nil => cases kept <;> simp [pick]
  | cons a as ih =>
      rcases kept with _ | ⟨_ | _, kept⟩
      · exact List.nil_sublist _
      · exact (ih kept).cons a
      · exact (ih kept).cons_cons a

/-- Whatever is left out, there are marks that leave it out. -/
theorem exists_pick {part as : List α} (h : part.Sublist as) :
    ∃ kept, kept.length = as.length ∧ pick kept as = part := by
  induction h with
  | slnil => exact ⟨[], rfl, rfl⟩
  | cons a _ ih =>
      obtain ⟨kept, hlength, hpart⟩ := ih
      exact ⟨false :: kept, congrArg (· + 1) hlength, hpart⟩
  | cons_cons a _ ih =>
      obtain ⟨kept, hlength, hpart⟩ := ih
      exact ⟨true :: kept, congrArg (· + 1) hlength, congrArg (a :: ·) hpart⟩

theorem pick_map (f : α → β) (kept : List Bool) (as : List α) :
    pick kept (as.map f) = (pick kept as).map f := by
  induction as generalizing kept with
  | nil => cases kept <;> simp [pick]
  | cons a as ih => rcases kept with _ | ⟨_ | _, kept⟩ <;> simp [pick, ih]

/-- How many items stay depends on the places alone. -/
theorem length_pick {as : List α} {bs : List β} (h : as.length = bs.length) (kept : List Bool) :
    (pick kept as).length = (pick kept bs).length := by
  induction as generalizing bs kept with
  | nil =>
      obtain rfl := List.length_eq_zero_iff.mp h.symm
      cases kept <;> simp [pick]
  | cons a as ih =>
      rcases bs with _ | ⟨b, bs⟩
      · cases h
      have hrest := ih (Nat.succ.inj h)
      rcases kept with _ | ⟨_ | _, kept⟩
      · rfl
      · exact hrest kept
      · exact congrArg (· + 1) (hrest kept)

end Pick

def WireColumn.keep {α : Type} (kept : List Bool) (c : WireColumn α) : WireColumn α :=
  { c with values := pick kept c.values }

namespace RowData

/-- The section without the rows that are not marked, and without their values. -/
def keep (kept : List Bool) (d : RowData) : RowData where
  rows := pick kept d.rows
  bools := d.bools.map (·.keep kept)
  bytes := d.bytes.map (·.keep kept)
  int32s := d.int32s.map (·.keep kept)
  int64s := d.int64s.map (·.keep kept)
  floats := d.floats.map (·.keep kept)
  doubles := d.doubles.map (·.keep kept)
  strings := d.strings.map (·.keep kept)
  generics := d.generics.map (·.keep kept)

def Aligned (d : RowData) : Prop := ∀ c ∈ d.columns, c.2.length = d.rows.length

instance (d : RowData) : Decidable d.Aligned :=
  inferInstanceAs (Decidable (∀ c ∈ d.columns, c.2.length = d.rows.length))

/-- In every column the values of the same rows are left out. -/
theorem columns_keep (kept : List Bool) (d : RowData) :
    (d.keep kept).columns = d.columns.map fun c => (c.1, pick kept c.2) := by
  simp only [columns, sectionColumns, keep, WireColumn.keep, List.map_append, List.map_map,
    Function.comp_def, pick_map]

theorem Aligned.keep {d : RowData} (h : d.Aligned) (kept : List Bool) : (d.keep kept).Aligned := by
  intro c hc
  rw [columns_keep] at hc
  obtain ⟨whole, hwhole, rfl⟩ := List.mem_map.mp hc
  exact length_pick (h whole hwhole) kept

theorem keep_push (kept : List Bool) (d : RowData) (id : UInt32) (t : DataType)
    (vs : List t.Carrier) :
    (d.push id t vs).keep kept = (d.keep kept).push id t (pick kept vs) := by
  cases t <;> simp [push, keep, WireColumn.keep, pick_map]

end RowData

/-! ### What rows take up -/

namespace Wire

/-- Items left out of a list save at least what the least item takes up, each of them. -/
theorem listSize_add_le {α : Type} (size : α → Nat) {least : Nat} (hleast : ∀ a, least ≤ size a)
    {part as : List α} (h : part.Sublist as) :
    listSize size part + (as.length - part.length) * least ≤ listSize size as := by
  induction h with
  | slnil => simp
  | @cons part as a hpart ih =>
      have hlength := hpart.length_le
      have ha := hleast a
      have hcount : (a :: as).length - part.length = (as.length - part.length) + 1 := by
        rw [List.length_cons]
        omega
      rw [hcount, Nat.add_one_mul]
      simp only [listSize, List.foldr_cons] at ih ⊢
      omega
  | @cons_cons part as a hpart ih =>
      have hcount : (a :: as).length - (a :: part).length = as.length - part.length := by
        rw [List.length_cons, List.length_cons]
        omega
      rw [hcount]
      simp only [listSize, List.foldr_cons] at ih ⊢
      omega

/-- A row left out of aligned columns saves at least a byte in each of them. -/
theorem columnsSize_keep_le {α : Type} (size : α → Nat) (hsize : ∀ a, 1 ≤ size a)
    (kept : List Bool) {rows : List RowId} {cols : List (WireColumn α)}
    (hcols : ∀ c ∈ cols, c.values.length = rows.length) :
    columnsSize size (cols.map (·.keep kept)) +
        (rows.length - (pick kept rows).length) * cols.length ≤ columnsSize size cols := by
  induction cols with
  | nil => simp
  | cons c cols ih =>
      have hlength := hcols c List.mem_cons_self
      have hrest := ih fun c' hc' => hcols c' (List.mem_cons_of_mem _ hc')
      have hcolumn := listSize_add_le size hsize (pick_sublist kept c.values)
      rw [Nat.mul_one, hlength, length_pick hlength kept] at hcolumn
      rw [List.length_cons, Nat.mul_add_one]
      simp only [columnsSize, listSize, List.map_cons, List.foldr_cons, WireColumn.keep]
        at hrest hcolumn ⊢
      omega

/-- A row left out of an aligned section saves its number and at least a byte in each column. -/
theorem dataSize_keep_le {d : RowData} (h : d.Aligned) (kept : List Bool) :
    dataSize (d.keep kept) + (d.rows.length - (pick kept d.rows).length) * (4 + d.columnCount) ≤
      dataSize d := by
  have hsections := h
  simp only [RowData.Aligned, RowData.columns, RowData.sectionColumns, List.forall_mem_append,
    List.forall_mem_map, List.length_map] at hsections
  obtain ⟨⟨⟨⟨⟨⟨⟨hbools, hbytes⟩, hint32s⟩, hint64s⟩, hfloats⟩, hdoubles⟩, hstrings⟩, hgenerics⟩ :=
    hsections
  have hrows := listSize_add_le (fun _ => 4) (fun _ => le_rfl) (pick_sublist kept d.rows)
  have hstring : ∀ s, 1 ≤ stringSize s := fun s => Nat.le_add_right_of_le (by decide)
  have hgeneric : ∀ bs, 1 ≤ bytesSize bs := fun bs => Nat.le_add_right_of_le (by decide)
  replace hbools := columnsSize_keep_le (fun _ : Bool => 1) (fun _ => le_rfl) kept hbools
  replace hbytes := columnsSize_keep_le (fun _ : Int8 => 1) (fun _ => le_rfl) kept hbytes
  replace hint32s := columnsSize_keep_le (fun _ : Int32 => 4) (fun _ => by decide) kept hint32s
  replace hint64s := columnsSize_keep_le (fun _ : Int64 => 8) (fun _ => by decide) kept hint64s
  replace hfloats := columnsSize_keep_le (fun _ : UInt32 => 4) (fun _ => by decide) kept hfloats
  replace hdoubles := columnsSize_keep_le (fun _ : UInt64 => 8) (fun _ => by decide) kept hdoubles
  replace hstrings := columnsSize_keep_le stringSize hstring kept hstrings
  replace hgenerics := columnsSize_keep_le bytesSize hgeneric kept hgenerics
  simp only [dataSize, RowData.keep, RowData.columnCount, Nat.mul_add] at hrows ⊢
  omega

end Wire

/-! ### What an encoder gathers for the rows that stay -/

namespace Encoder

variable {sheet : Sheet} {rows : List RowId} {fields : List (FieldId × Nat)}

theorem gatherFrom_keep (d₀ : RowData) {d : RowData} (h : gatherFrom sheet rows d₀ fields = .ok d)
    (kept : List Bool) :
    gatherFrom sheet (pick kept rows) (d₀.keep kept) fields = .ok (d.keep kept) := by
  induction fields generalizing d₀ with
  | nil =>
      cases h
      rfl
  | cons f fields ih =>
      rw [gatherFrom_cons] at h ⊢
      cases hf : sheet.field? f.1 with
      | none =>
          rw [hf] at h
          cases h
      | some g =>
          rw [hf] at h
          have hrest := ih _ h
          rw [RowData.keep_push, pick_map] at hrest
          exact hrest

theorem gather_keep {d : RowData} (h : gather sheet rows fields = .ok d) (kept : List Bool) :
    gather sheet (pick kept rows) fields = .ok (d.keep kept) :=
  gatherFrom_keep { rows := rows } h kept

theorem aligned_gather {d : RowData} (h : gather sheet rows fields = .ok d) : d.Aligned := by
  obtain ⟨hrows, hcolumns⟩ := gather_eq h
  intro c hc
  obtain ⟨f, -, rfl⟩ := List.mem_map.mp (hcolumns.mem_iff.mp hc)
  rw [hrows, columnOf, List.length_map]

end Encoder

namespace Wire

theorem length_encodeResponse (r : Response) :
    (encodeResponse r).length = responseLength r + 4 := by
  rw [encodeResponse, length_enclose, ← length_responseBody]

/-- Only the data section matters when rows are left out. -/
theorem responseLength_keep_le {r : Response} {d : RowData} (hdata : r.data = some d)
    (h : d.Aligned) (kept : List Bool) :
    responseLength { r with data := some (d.keep kept) } +
      (d.rows.length - (pick kept d.rows).length) * (4 + d.columnCount) ≤ responseLength r := by
  have hdrop := dataSize_keep_le h kept
  simp only [responseLength, hdata, Option.map_some, Option.getD_some]
  omega

/-- A frame is as long as told, whatever is in it, and shorter by at least four bytes and a byte for
each column for every row that is left out of its data section. -/
theorem responseLength_told (r : Response) :
    (encodeResponse r).length = responseLength r + 4 ∧
      ∀ d, r.data = some d →
        (d.Aligned → ∀ rows, rows.Sublist d.rows →
          (∃ kept, kept.length = d.rows.length ∧ pick kept d.rows = rows) ∧
          ∀ kept, pick kept d.rows = rows →
            (d.keep kept).columns = d.columns.map (fun c => (c.1, pick kept c.2)) ∧
            (d.keep kept).Aligned ∧
            responseLength { r with data := some (d.keep kept) } +
              (d.rows.length - rows.length) * (4 + d.columnCount) ≤ responseLength r) ∧
        ∀ sheet rows fields, Encoder.gather sheet rows fields = .ok d →
          d.Aligned ∧ ∀ kept, Encoder.gather sheet (pick kept rows) fields = .ok (d.keep kept) := by
  refine ⟨length_encodeResponse r, fun d hdata => ⟨fun haligned rows hrows => ?_, ?_⟩⟩
  · refine ⟨exists_pick hrows, fun kept hkept => ?_⟩
    subst hkept
    exact ⟨d.columns_keep kept, haligned.keep kept, responseLength_keep_le hdata haligned kept⟩
  · exact fun sheet rows fields hgather =>
      ⟨Encoder.aligned_gather hgather, fun kept => Encoder.gather_keep hgather kept⟩

/-- The middle one of three rows is left out, with one value of each column. -/
theorem responseLength_told_middle :
    let d : RowData :=
      { rows := [4, 7, 9], int64s := [⟨0, [1, 2, 3]⟩], strings := [⟨1, ["", "ab", "c"]⟩] }
    let r : Response :=
      { subscription := 1, type := .add, data := some d, acknowledgement := some {} }
    let part := d.keep [true, false, true]
    d.Aligned ∧ part.rows = [4, 9] ∧ part.columns = [(0, [⟨.int64, 1⟩, ⟨.int64, 3⟩]),
        (1, [⟨.string, ""⟩, ⟨.string, "c"⟩])] ∧
      (encodeResponse r).length = 127 ∧ responseLength r = 123 ∧
      responseLength { r with data := some part } = 105 ∧
      responseLength { r with data := some part } + 1 * (4 + 2) ≤ responseLength r := by
  intro d r part
  have haligned : d.Aligned := by decide
  have hrows : [4, 9].Sublist d.rows := by decide
  obtain ⟨hlength, hdata⟩ := responseLength_told r
  obtain ⟨-, hcut⟩ := (hdata d rfl).1 haligned [4, 9] hrows
  obtain ⟨hcolumns, -, hle⟩ := hcut [true, false, true] rfl
  have hwhole : responseLength r = 123 := by decide +kernel
  exact ⟨haligned, rfl, hcolumns, hlength.trans (congrArg (· + 4) hwhole), hwhole,
    by decide +kernel, hle⟩

end Wire

end TableFeed
