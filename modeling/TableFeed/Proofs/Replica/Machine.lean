import Mathlib
import TableFeed.Proofs.Fields.SheetCells
import TableFeed.Replica

/-!
The protocol that a replica follows, as a machine over whole records. It knows a phase, a schema
and a map from the live rows to their records, and it says of every response whether it is
accepted, refused without effect, or a violation after which the subscription is given up.
-/

namespace TableFeed

instance (fields : List FieldInfo) : Decidable (WellNamed fields) :=
  inferInstanceAs (Decidable (_ ∧ _))

/-- The value of type `t` that travels as `w`. Short and char values travel as 32 bit integers
and have to be in their range. -/
def unwiden (t : DataType) (w : Value) : Option Value :=
  match t, w with
  | .short, ⟨.int32, n⟩ =>
    if -32768 ≤ n.toInt ∧ n.toInt ≤ 32767 then some ⟨.short, Int16.ofInt n.toInt⟩ else none
  | .char, ⟨.int32, n⟩ =>
    if 0 ≤ n.toInt ∧ n.toInt.toNat.isValidChar then some ⟨.char, Char.ofNat n.toInt.toNat⟩
    else none
  | t, w => if w.type = t then some w else none

namespace RowData

def sectionColumns (t : DataType) (cs : List (WireColumn t.Carrier)) :
    List (FieldId × List Value) :=
  cs.map fun c => (c.field.toNat, c.values.map (Value.mk t))

def columns (d : RowData) : List (FieldId × List Value) :=
  sectionColumns .bool d.bools ++ sectionColumns .byte d.bytes ++
    sectionColumns .int32 d.int32s ++ sectionColumns .int64 d.int64s ++
    sectionColumns .float32 d.floats ++ sectionColumns .float64 d.doubles ++
    sectionColumns .string d.strings ++ sectionColumns .generic d.generics

/-- What was sent for a field of type `t` of the `k`th row, if anything was. -/
def sent? (d : RowData) (k : Nat) (id : FieldId) (t : DataType) : Option Value :=
  ((AscMap.lookIn id d.columns).bind (·[k]?)).bind (unwiden t)

/-- A message that can be read under a schema: its rows are within the limit and listed once, and
each column is for a field of its own and has a value of the field's type for every row. A removal
has no columns. -/
structure WellShaped (limit : RowId) (fields : List FieldInfo) (type : ResponseType)
    (d : RowData) : Prop where
  within : ∀ row ∈ d.rows, row ≤ limit
  distinct : d.rows.Nodup
  bare : type = .remove → d.columns = []
  known : ∀ c ∈ d.columns, c.1 < fields.length
  once : (d.columns.map (·.1)).Nodup
  full : ∀ c ∈ d.columns, c.2.length = d.rows.length
  typed : ∀ c ∈ d.columns, ∀ w ∈ c.2,
    (fields[c.1]?.bind fun f => unwiden f.type w).isSome = true

instance (limit : RowId) (fields : List FieldInfo) (type : ResponseType) (d : RowData) :
    Decidable (WellShaped limit fields type d) :=
  decidable_of_iff
    ((∀ row ∈ d.rows, row ≤ limit) ∧ d.rows.Nodup ∧ (type = .remove → d.columns = []) ∧
      (∀ c ∈ d.columns, c.1 < fields.length) ∧ (d.columns.map (·.1)).Nodup ∧
      (∀ c ∈ d.columns, c.2.length = d.rows.length) ∧
      ∀ c ∈ d.columns, ∀ w ∈ c.2, (fields[c.1]?.bind fun f => unwiden f.type w).isSome = true)
    ⟨fun ⟨h1, h2, h3, h4, h5, h6, h7⟩ => ⟨h1, h2, h3, h4, h5, h6, h7⟩,
      fun ⟨h1, h2, h3, h4, h5, h6, h7⟩ => ⟨h1, h2, h3, h4, h5, h6, h7⟩⟩

end RowData

abbrev Record := List Value

structure Mirror where
  phase : Phase := .awaitingSchema
  schema : Option Schema := none
  rows : AscMap RowId Record := ∅

inductive Verdict
  | accepted
  /-- Nothing changes. -/
  | refused
  /-- It came out of order and the subscription is given up. -/
  | violated
  deriving DecidableEq, Repr

namespace Mirror

instance : Inhabited Mirror := ⟨{}⟩

/-- A record of the `k`th row of a message: what was sent, and for the other fields `old`. -/
def compose (fields : List FieldInfo) (d : RowData) (k : Nat) (old : FieldId → Option Value) :
    Record :=
  fields.mapIdx fun id f => (d.sent? k id f.type).getD ((old id).getD (.absent f.type))

/-- The records of rows that are new: absent where nothing was sent. -/
def freshRecords (fields : List FieldInfo) (d : RowData) : List (RowId × Record) :=
  d.rows.zipIdx.map fun (row, k) => (row, compose fields d k fun _ => none)

/-- The records of rows that are there: as they were where nothing was sent. -/
def overwritten (m : Mirror) (fields : List FieldInfo) (d : RowData) : List (RowId × Record) :=
  d.rows.zipIdx.map fun (row, k) =>
    (row, compose fields d k fun id => (m.rows.find? row).bind (·[id]?))

def absorb (m : Mirror) (type : ResponseType) (fields : List FieldInfo) (d : RowData) : Mirror :=
  match type with
  | .remove => { m with phase := .live, rows := d.rows.foldl AscMap.erase m.rows }
  | .change => { m with phase := .live, rows := m.rows.insertAll (m.overwritten fields d) }
  | _ => { m with phase := .live, rows := m.rows.insertAll (freshRecords fields d) }

/-- Whether the rows of a message have to be there already. -/
def expectsLive : ResponseType → Bool
  | .change | .remove => true
  | _ => false

def giveUp (m : Mirror) : Mirror × Verdict := ({ m with phase := .failed }, .violated)

/-- The phase in which rows of this type may come. -/
def due : ResponseType → Phase
  | .init => .awaitingInit
  | _ => .live

def acceptData (m : Mirror) (limit : RowId) (type : ResponseType) (data : Option RowData) :
    Mirror × Verdict :=
  if m.phase = .failed then (m, .accepted)
  else if m.phase ≠ due type then m.giveUp
  else
    match data, m.schema with
    | some d, some s =>
      if d.WellShaped limit s.fields type then
        if ∀ row ∈ d.rows, m.rows.contains row = expectsLive type then
          (m.absorb type s.fields d, .accepted)
        else m.giveUp
      else (m, .refused)
    | _, _ => (m, .refused)

/-- Takes a schema, whose field names have to be different and not empty. -/
def acceptSchema (m : Mirror) (layout : Option Layout) : Mirror × Verdict :=
  match layout with
  | none => (m, .refused)
  | some l =>
    if h : WellNamed l.fields then
      ({ phase := .awaitingInit, schema := some ⟨l, h⟩, rows := ∅ }, .accepted)
    else (m, .refused)

def accept (sub : Int32) (limit : RowId) (m : Mirror) (r : Response) : Mirror × Verdict :=
  if r.subscription ≠ sub then (m, .refused)
  else
    match r.type with
    | .message =>
      match r.acknowledgement with
      | none => (m, .refused)
      | some ack => (if ack.success then m else { m with phase := .failed }, .accepted)
    | .schema => m.acceptSchema r.schema
    | type => m.acceptData limit type r.data

def get (m : Mirror) (row : RowId) (name : String) : Except Error Value :=
  match m.schema with
  | none => .error (.invalidOperation .noSchemaReceived)
  | some s =>
    match s.fields.findIdx? (·.name == name) with
    | none => .error (.fieldNotFound (.name name))
    | some id =>
      let type := (s.fields[id]?.map (·.type)).getD .bool
      .ok (((m.rows.find? row).bind (·[id]?)).getD (.absent type))

/-! ### Records after a message -/

theorem getElem?_compose (fields : List FieldInfo) (d : RowData) (k : Nat)
    (old : FieldId → Option Value) (id : FieldId) :
    (compose fields d k old)[id]? = fields[id]?.map fun f =>
      (d.sent? k id f.type).getD ((old id).getD (.absent f.type)) := by
  rw [compose, List.getElem?_mapIdx]

theorem map_fst_listed (rows : List RowId) (g : RowId → Nat → Record) :
    (rows.zipIdx.map fun (row, k) => (row, g row k)).map (·.1) = rows := by
  rw [List.map_map]
  exact List.zipIdx_map_fst 0 rows

theorem lookIn_listed {rows : List RowId} (hrows : rows.Nodup) (g : RowId → Nat → Record)
    {row : RowId} {k : Nat} (hk : rows[k]? = some row) :
    AscMap.lookIn row (rows.zipIdx.map fun (row, k) => (row, g row k)) = some (g row k) := by
  refine AscMap.lookIn_of_mem ((map_fst_listed rows g).symm ▸ hrows) ?_
  refine List.mem_map.mpr ⟨(row, k), ?_, rfl⟩
  rwa [List.mem_zipIdx_iff_getElem?]

/-- Writing a record for each row of a list. -/
theorem find?_insertAll_listed {m : AscMap RowId Record} {rows : List RowId} (hrows : rows.Nodup)
    (g : RowId → Nat → Record) {row : RowId} {k : Nat} (hk : rows[k]? = some row) :
    (m.insertAll (rows.zipIdx.map fun (row, k) => (row, g row k))).find? row =
      some (g row k) := by
  rw [AscMap.find?_insertAll ((map_fst_listed rows g).symm ▸ hrows), lookIn_listed hrows g hk,
    Option.some_or]

theorem find?_insertAll_unlisted {m : AscMap RowId Record} {rows : List RowId}
    (hrows : rows.Nodup) (g : RowId → Nat → Record) {row : RowId} (hrow : row ∉ rows) :
    (m.insertAll (rows.zipIdx.map fun (row, k) => (row, g row k))).find? row = m.find? row := by
  have hnone : AscMap.lookIn row (rows.zipIdx.map fun (row, k) => (row, g row k)) = none := by
    rwa [AscMap.lookIn_eq_none_iff, map_fst_listed]
  rw [AscMap.find?_insertAll ((map_fst_listed rows g).symm ▸ hrows), hnone, Option.none_or]

section Rows

variable {fields : List FieldInfo} {d : RowData} (hd : d.rows.Nodup) {row : RowId} {k : Nat}

include hd

theorem find?_fresh (rows : AscMap RowId Record) (hk : d.rows[k]? = some row) :
    (rows.insertAll (freshRecords fields d)).find? row =
      some (compose fields d k fun _ => none) :=
  find?_insertAll_listed hd (fun _ k => compose fields d k fun _ => none) hk

theorem find?_fresh_of_not_mem (rows : AscMap RowId Record) (hrow : row ∉ d.rows) :
    (rows.insertAll (freshRecords fields d)).find? row = rows.find? row :=
  find?_insertAll_unlisted hd (fun _ k => compose fields d k fun _ => none) hrow

theorem find?_overwritten (m : Mirror) (hk : d.rows[k]? = some row) :
    (m.rows.insertAll (m.overwritten fields d)).find? row =
      some (compose fields d k fun id => (m.rows.find? row).bind (·[id]?)) :=
  find?_insertAll_listed hd
    (fun row k => compose fields d k fun id => (m.rows.find? row).bind (·[id]?)) hk

theorem find?_overwritten_of_not_mem (m : Mirror) (hrow : row ∉ d.rows) :
    (m.rows.insertAll (m.overwritten fields d)).find? row = m.rows.find? row :=
  find?_insertAll_unlisted hd
    (fun row k => compose fields d k fun id => (m.rows.find? row).bind (·[id]?)) hrow

end Rows

theorem find?_foldl_erase (m : AscMap RowId Record) (rows : List RowId) (row : RowId) :
    (rows.foldl AscMap.erase m).find? row = if row ∈ rows then none else m.find? row := by
  induction rows generalizing m with
  | nil => simp
  | cons r rows ih =>
      rw [List.foldl_cons, ih, AscMap.find?_erase]
      by_cases hr : r = row
      · simp [hr]
      · simp [hr, Ne.symm hr]

/-- Rows are accepted by a machine that has given up, which ignores them, and in order. -/
theorem acceptData_accepted {m : Mirror} {limit : RowId} {type : ResponseType}
    {data : Option RowData} (h : (m.acceptData limit type data).2 = .accepted) :
    (m.phase = .failed ∧ (m.acceptData limit type data).1 = m) ∨
      ∃ d s, data = some d ∧ m.schema = some s ∧ m.phase = due type ∧
        d.WellShaped limit s.fields type ∧
        (∀ row ∈ d.rows, m.rows.contains row = expectsLive type) ∧
        (m.acceptData limit type data).1 = m.absorb type s.fields d := by
  rw [acceptData.eq_def] at h ⊢
  split at h
  · next hfailed =>
    rw [if_pos hfailed]
    exact .inl ⟨hfailed, rfl⟩
  next hfailed =>
    rw [if_neg hfailed]
    split at h
    · cases h
    next hdue =>
      rw [if_neg hdue]
      split at h
      · next d s hschema =>
        split at h
        · next hshape =>
          split at h
          · next hrows =>
            refine .inr ⟨d, s, rfl, hschema, not_not.mp hdue, hshape, hrows, ?_⟩
            rw [if_pos hshape, if_pos hrows]
          · cases h
        · cases h
      · cases h

end Mirror

/-! ### Runs -/

inductive Call
  | accept (r : Response)
  | reset

def Mirror.call (sub : Int32) (limit : RowId) (m : Mirror) : Call → Mirror × Verdict
  | .accept r => m.accept sub limit r
  | .reset => ({}, .accepted)

def Mirror.run (sub : Int32) (limit : RowId) : Mirror → List Call → Mirror × List Verdict
  | m, [] => (m, [])
  | m, c :: cs =>
    let (m, v) := m.call sub limit c
    let (m, vs) := m.run sub limit cs
    (m, v :: vs)

end TableFeed
