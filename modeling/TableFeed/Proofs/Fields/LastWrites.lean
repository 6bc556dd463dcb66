import Mathlib
import TableFeed.Field

/-!
The storage of a field is a total map from rows to values: every row reads as it was last written,
whatever was written, reset and cleared in which order. An operation on the array is described by
its length and by what every row reads, also past the end, so that growing and shortening it can
neither lose a value nor bring one back. The columns of a sheet, which keep the written cells only,
read the same.
-/

namespace TableFeed

/-! ### The array -/

namespace Slots

variable {t : DataType} (s : Slots t) (row other : RowId) (a : t.Carrier) (n : Nat)

theorem get_of_length_le (h : s.length ≤ row.toNat) : s.get row = t.absent := by
  rw [get, Array.getD_eq_getD_getElem?, Array.getElem?_eq_none h, Option.getD_none]

theorem length_grow : (s.grow n).length = max s.length n := by
  rw [length, length, grow, Array.size_append, Array.size_replicate]
  omega

/-- What is added reads as it did when it was past the end. -/
theorem get_grow : (s.grow n).get row = s.get row := by
  by_cases h : row.toNat < s.values.size
  · simp only [get, grow, Array.getD_eq_getD_getElem?, Array.getElem?_append_left h]
  · have h := Nat.le_of_not_lt h
    rw [get_of_length_le s row h, get, grow, Array.getD_eq_getD_getElem?,
      Array.getElem?_append_right h, Array.getElem?_replicate]
    split <;> rfl

theorem length_put : (s.put row a).length = s.length := Array.size_setIfInBounds

theorem get_put_of_lt (h : row.toNat < s.length) :
    (s.put row a).get other = if row = other then a else s.get other := by
  rw [get, put, Array.getD_eq_getD_getElem?, Array.getElem?_setIfInBounds]
  split
  · next hrow =>
    have hsize : row.toNat < s.values.size := h
    rw [if_pos (UInt32.toNat_inj.mp hrow), if_pos hsize, Option.getD_some]
  · next hrow =>
    rw [if_neg fun h => hrow (congrArg UInt32.toNat h), get, Array.getD_eq_getD_getElem?]

theorem put_of_length_le (h : s.length ≤ row.toNat) : s.put row a = s := by
  rw [put, Array.setIfInBounds_eq_of_size_le h]

theorem length_set : (s.set row a).length = max s.length (row.toNat + 1) := by
  rw [set, length_put, length_grow]

theorem get_set : (s.set row a).get other = if row = other then a else s.get other := by
  have hroom : row.toNat < (s.grow (row.toNat + 1)).length := by
    rw [length_grow]
    omega
  rw [set, get_put_of_lt _ _ _ _ hroom, get_grow]

theorem length_reset : (s.reset row).length = s.length := s.length_put ..

/-- Past the end nothing is written, but there the row reads as absent already. -/
theorem get_reset : (s.reset row).get other = if row = other then t.absent else s.get other := by
  by_cases h : row.toNat < s.length
  · exact s.get_put_of_lt row other t.absent h
  · have h := Nat.le_of_not_lt h
    rw [reset, put_of_length_le _ _ _ h]
    split
    · next hrow => rw [← hrow, get_of_length_le s row h]
    · rfl

/-- The array reads as the column does and has as many slots as the column counts. -/
structure Shows (s : Slots t) (c : Column t) : Prop where
  length_eq : s.length = c.slots
  get_eq : ∀ row, s.get row = c.get row

namespace Shows

variable {s : Slots t} {c : Column t}

theorem empty : ({} : Slots t).Shows {} := ⟨rfl, fun _ => rfl⟩

theorem set (h : s.Shows c) (row : RowId) (a : t.Carrier) : (s.set row a).Shows (c.set row a) where
  length_eq := by rw [length_set, h.length_eq, Column.set]
  get_eq other := by rw [get_set, Column.get_set, h.get_eq]

theorem reset (h : s.Shows c) (row : RowId) : (s.reset row).Shows (c.reset row) where
  length_eq := by rw [length_reset, h.length_eq, Column.reset]
  get_eq other := by rw [get_reset, Column.get_reset, h.get_eq]

end Shows

end Slots

/-! ### Calls -/

namespace Field

variable {f : Field} {t : DataType} {row other : RowId} {v : Value}

theorem set_of_ne (h : v.type ≠ f.type) : f.set row v = .error (.typeMismatch f.type v.type) := by
  rw [set, Value.as?, dif_neg h]

theorem set_of_eq (row : RowId) (h : v.type = f.type) :
    ∃ g, f.set row v = .ok g ∧ g.type = f.type ∧ g.length = max f.length (row.toNat + 1) ∧
      ∀ other, g.get other = if row = other then v else f.get other := by
  obtain ⟨t, s⟩ := f
  obtain ⟨u, a⟩ := v
  obtain rfl : u = t := h
  refine ⟨⟨u, s.set row a⟩, by rw [set, Value.as?_mk], rfl, s.length_set row a, fun other => ?_⟩
  rw [get, s.get_set row other a, get]
  split <;> rfl

theorem get_reset : (f.reset row).get other =
    if row = other then .absent f.type else f.get other := by
  rw [get, reset, f.slots.get_reset row other, get]
  split <;> rfl

inductive Call
  | set (row : RowId) (v : Value)
  | reset (row : RowId)
  | clear

def call (f : Field) : Call → Field × Except Error Unit
  | .set row v =>
    match f.set row v with
    | .ok g => (g, .ok ())
    | .error e => (f, .error e)
  | .reset row => (f.reset row, .ok ())
  | .clear => (f.clear, .ok ())

abbrev Record := List (Call × Except Error Unit)

namespace Record

/-- The value last written to a row, unless the row was reset or the field cleared since. -/
def lastSet (row : RowId) : Record → Option Value
  | [] => none
  | (.set r v, .ok ()) :: past => if r = row then some v else lastSet row past
  | (.set _ _, .error _) :: past => lastSet row past
  | (.reset r, _) :: past => if r = row then none else lastSet row past
  | (.clear, _) :: _ => none

/-- One more than the highest row written since the last clear, 0 if there is none. -/
def height : Record → Nat
  | [] => 0
  | (.set row _, .ok ()) :: past => max (row.toNat + 1) (height past)
  | (.set _ _, .error _) :: past => height past
  | (.reset _, _) :: past => height past
  | (.clear, _) :: _ => 0

end Record

open Record

def run (t : DataType) (cs : List Call) : Field × Record :=
  cs.foldl (fun (f, past) c => ((f.call c).1, (c, (f.call c).2) :: past)) ({ type := t }, [])

theorem run_concat (t : DataType) (cs : List Call) (c : Call) :
    run t (cs ++ [c]) =
      (((run t cs).1.call c).1, (c, ((run t cs).1.call c).2) :: (run t cs).2) := by
  rw [run, List.foldl_concat]
  rfl

/-! ### What every call keeps -/

structure Recalls (f : Field) (t : DataType) (past : Record) : Prop where
  type_eq : f.type = t
  get_eq : ∀ row, f.get row = (lastSet row past).getD (.absent t)
  length_eq : f.length = height past

namespace Recalls

variable {past : Record}

theorem set (h : f.Recalls t past) (row : RowId) (v : Value) :
    (f.call (.set row v)).1.Recalls t ((.set row v, (f.call (.set row v)).2) :: past) := by
  by_cases hv : v.type = f.type
  · obtain ⟨g, hg, htype, hlength, hget⟩ := set_of_eq row hv
    rw [call, hg]
    refine ⟨htype.trans h.type_eq, fun other => ?_, ?_⟩
    · rw [hget, lastSet]
      split
      · rfl
      · exact h.get_eq other
    · rw [hlength, h.length_eq, height, Nat.max_comm]
  · rw [call, set_of_ne hv]
    exact ⟨h.type_eq, h.get_eq, h.length_eq⟩

theorem reset (h : f.Recalls t past) (row : RowId) :
    (f.reset row).Recalls t ((.reset row, .ok ()) :: past) := by
  refine ⟨h.type_eq, fun other => ?_, (f.slots.length_reset row).trans h.length_eq⟩
  rw [get_reset, lastSet]
  split
  · rw [h.type_eq, Option.getD_none]
  · exact h.get_eq other

theorem clear (h : f.Recalls t past) : f.clear.Recalls t ((.clear, .ok ()) :: past) :=
  ⟨h.type_eq, fun _ => congrArg Value.absent h.type_eq, rfl⟩

theorem call (h : f.Recalls t past) (c : Call) :
    (f.call c).1.Recalls t ((c, (f.call c).2) :: past) := by
  cases c with
  | set row v => exact h.set row v
  | reset row => exact h.reset row
  | clear => exact h.clear

end Recalls

theorem recalls_run (t : DataType) (cs : List Call) : (run t cs).1.Recalls t (run t cs).2 := by
  induction cs using List.reverseRecOn with
  | nil => exact ⟨rfl, fun _ => rfl, rfl⟩
  | append_singleton cs c ih =>
      rw [run_concat]
      exact ih.call c

theorem get_call_of_ne (hrow : row ≠ other) :
    (∀ v, (f.call (.set row v)).1.get other = f.get other) ∧
      (f.call (.reset row)).1.get other = f.get other := by
  refine ⟨fun v => ?_, by rw [call, get_reset, if_neg hrow]⟩
  by_cases hv : v.type = f.type
  · obtain ⟨g, hg, -, -, hget⟩ := set_of_eq row hv
    rw [call, hg, hget, if_neg hrow]
  · rw [call, set_of_ne hv]

/-- A field reads in every row the value last written there and not reset or cleared since. A write
fails if the value has another type, and only then. -/
theorem reads_last_set (t : DataType) (cs : List Call) :
    let f := (run t cs).1
    let past := (run t cs).2
    f.type = t ∧
      (∀ row, f.get row = (lastSet row past).getD (.absent t)) ∧
      f.length = height past ∧
      (∀ row v, ((f.call (.set row v)).2 = .ok () ↔ v.type = t) ∧
        (v.type ≠ t → f.call (.set row v) = (f, .error (.typeMismatch t v.type)))) ∧
      ∀ row other, row ≠ other → (∀ v, (f.call (.set row v)).1.get other = f.get other) ∧
        (f.call (.reset row)).1.get other = f.get other := by
  intro f past
  have h : f.Recalls t past := recalls_run t cs
  have hrefused : ∀ row v, v.type ≠ t →
      f.call (.set row v) = (f, .error (.typeMismatch t v.type)) := by
    intro row v hv
    rw [call, set_of_ne fun he => hv (he.trans h.type_eq), h.type_eq]
  refine ⟨h.type_eq, h.get_eq, h.length_eq, fun row v => ⟨⟨fun hok => ?_, fun hv => ?_⟩,
    hrefused row v⟩, fun row other hrow => get_call_of_ne hrow⟩
  · by_contra hv
    rw [hrefused row v hv] at hok
    cases hok
  · obtain ⟨g, hg, -⟩ := set_of_eq row (hv.trans h.type_eq.symm)
    rw [call, hg]

/-! ### The columns of a sheet -/

def Call.onColumn (c : Column t) : Call → Column t
  | .set row v => c.write row v
  | .reset row => c.reset row
  | .clear => c.clear

theorem call_shows {s : Slots t} {column : Column t} (h : s.Shows column) (c : Call) :
    ∃ s' : Slots t, ((⟨t, s⟩ : Field).call c).1 = ⟨t, s'⟩ ∧ s'.Shows (c.onColumn column) := by
  cases c with
  | set row v =>
      obtain ⟨u, a⟩ := v
      by_cases hu : u = t
      · subst hu
        refine ⟨s.set row a, by rw [call, set, Value.as?_mk], ?_⟩
        rw [Call.onColumn, Column.write, Value.as?_mk]
        exact h.set row a
      · refine ⟨s, by rw [call, set_of_ne hu], ?_⟩
        rw [Call.onColumn, Column.write, Value.as?, dif_neg hu]
        exact h
  | reset row => exact ⟨s.reset row, rfl, h.reset row⟩
  | clear => exact ⟨s.clear, rfl, .empty⟩

/-- A field and a column of its type read the same after the same calls, and have as many slots. -/
theorem run_shows (t : DataType) (cs : List Call) :
    ∃ s : Slots t, (run t cs).1 = ⟨t, s⟩ ∧ s.Shows (cs.foldl Call.onColumn {}) := by
  induction cs using List.reverseRecOn with
  | nil => exact ⟨{}, rfl, .empty⟩
  | append_singleton cs c ih =>
      obtain ⟨s, hs, hshows⟩ := ih
      rw [run_concat, hs, List.foldl_concat]
      exact call_shows hshows c

end Field

end TableFeed
