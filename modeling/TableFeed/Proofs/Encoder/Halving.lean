import Mathlib
import TableFeed.Proofs.Encoder.Projection
import TableFeed.Proofs.Encoder.RowData
/-!
What becomes of a batch that is halved until its parts fit a frame. The responses are the batch cut
into pieces, so rows and columns come back when they are put one after another. A frame only grows
with its rows: halving gives up exactly when there is a row that is too long by itself, and it gives
up at the first one.
-/

namespace TableFeed

open Wire

/-! ### Sections -/

namespace RowData

def columnsOf (d : RowData) : DataType → List (FieldId × List Value)
  | .bool => sectionColumns .bool d.bools
  | .byte => sectionColumns .byte d.bytes
  | .int32 => sectionColumns .int32 d.int32s
  | .int64 => sectionColumns .int64 d.int64s
  | .float32 => sectionColumns .float32 d.floats
  | .float64 => sectionColumns .float64 d.doubles
  | .string => sectionColumns .string d.strings
  | .generic => sectionColumns .generic d.generics
  | .short | .char => []

theorem columnsOf_push (d : RowData) (id : UInt32) (t : DataType) (vs : List t.Carrier)
    (u : DataType) : (d.push id t vs).columnsOf u = d.columnsOf u ++
      if t.carriedAs = u then [(id.toNat, vs.map fun a => (Value.mk t a).widen)] else [] := by
  cases t <;> cases u <;>
    simp [push, columnsOf, sectionColumns, DataType.carriedAs, Value.widen, Function.comp_def]

end RowData

/-! ### Sizes -/

namespace Wire

theorem listSize_le {α : Type} (size : α → Nat) {as bs : List α} (h : as.Sublist bs) :
    listSize size as ≤ listSize size bs := by
  induction h with
  | slnil => exact le_rfl
  | cons b _ ih =>
      simp only [listSize, List.foldr_cons] at ih ⊢
      omega
  | cons_cons b _ ih =>
      simp only [listSize, List.foldr_cons] at ih ⊢
      omega

theorem columnsSize_append {α : Type} (size : α → Nat) (cs : List (WireColumn α))
    (c : WireColumn α) :
    columnsSize size (cs ++ [c]) = columnsSize size cs + (4 + listSize size c.values) := by
  induction cs with
  | nil => simp [columnsSize, listSize]
  | cons b cs ih =>
      simp only [columnsSize, listSize, List.cons_append, List.foldr_cons] at ih ⊢
      omega

def carrierSize : (t : DataType) → t.Carrier → Nat
  | .bool | .byte => fun _ => 1
  | .short | .char | .int32 | .float32 => fun _ => 4
  | .int64 | .float64 => fun _ => 8
  | .string => stringSize
  | .generic => bytesSize

theorem listSize_map {α β : Type} (f : α → β) (size : β → Nat) (as : List α) :
    listSize size (as.map f) = listSize (fun a => size (f a)) as := by
  rw [listSize, List.foldr_map, listSize]

/-- A column that is pushed adds its own size. -/
theorem dataSize_push (d : RowData) (id : UInt32) (t : DataType) (vs : List t.Carrier) :
    dataSize (d.push id t vs) = dataSize d + (4 + listSize (carrierSize t) vs) := by
  cases t <;>
    · dsimp only [dataSize, RowData.push, carrierSize, DataType.Carrier]
      simp only [columnsSize_append, listSize_map]
      omega

theorem responseLength_ofData (sub : Int32) (type : ResponseType) (d : RowData) :
    responseLength (.ofData sub type d) = 15 + dataSize d := by
  simp [responseLength, Response.ofData]

end Wire

@[simp] theorem Encoder.continuation_continuation (type : ResponseType) :
    continuation (continuation type) = continuation type := by cases type <;> rfl

/-! ### Parts -/

namespace Parts

variable {e : Encoder} {encode : List RowId → Except Error RowData} {type : ResponseType}
  {rows : List RowId} {rs : List Response}

/-- The first part has the type of the batch, the others continue it, and each is a piece of it. -/
theorem messages (h : Parts e encode type rows rs) :
    ∃ d ds parts, rs = .ofData e.subscription type d ::
        ds.map (Response.ofData e.subscription (Encoder.continuation type)) ∧
      parts.flatten = rows ∧
      List.Forall₂ (fun part data => encode part = .ok data) parts (d :: ds) := by
  induction h with
  | @whole type rows data hdata hfits =>
      exact ⟨data, [], [rows], rfl, List.append_nil rows, .cons hdata .nil⟩
  | @halves type rows head tail _ _ ihhead ihtail =>
      obtain ⟨d, ds, parts, rfl, hparts, hmade⟩ := ihhead
      obtain ⟨d', ds', parts', rfl, hparts', hmade'⟩ := ihtail
      refine ⟨d, ds ++ d' :: ds', parts ++ parts', by simp, ?_, List.rel_append hmade hmade'⟩
      rw [List.flatten_append, hparts, hparts', List.take_append_drop]

theorem responseLength_le (h : Parts e encode type rows rs) :
    ∀ r ∈ rs, responseLength r ≤ e.limit := by
  induction h with
  | whole hdata hfits =>
      intro r hr
      rwa [List.mem_singleton.mp hr]
  | halves _ _ ihhead ihtail =>
      intro r hr
      exact (List.mem_append.mp hr).elim (ihhead r) (ihtail r)

end Parts

namespace Encoder

/-! ### Gathering -/

def carriedIn (sheet : Sheet) (u : DataType) (fields : List (FieldId × Nat)) :
    List (FieldId × Nat) :=
  fields.filter fun f => (sheet.field? f.1).map (·.info.type.carriedAs) = some u

variable {sheet : Sheet} {fields : List (FieldId × Nat)}

theorem gatherFrom_ok (h : ∀ f ∈ fields, f.1 < sheet.fields.length) (rows : List RowId)
    (d : RowData) : ∃ d', gatherFrom sheet rows d fields = .ok d' := by
  induction fields generalizing d with
  | nil => exact ⟨d, rfl⟩
  | cons f fields ih =>
      have hknown : f.1 < sheet.fields.length := h f List.mem_cons_self
      have hf : sheet.field? f.1 = some sheet.fields[f.1] := List.getElem?_eq_getElem hknown
      rw [gatherFrom_cons, hf]
      exact ih (fun f hf => h f (List.mem_cons_of_mem _ hf)) _

/-- In each section the columns come in the order of their fields. -/
theorem columnsOf_gatherFrom {rows : List RowId} {b d : RowData}
    (h : gatherFrom sheet rows b fields = .ok d) (u : DataType) :
    d.columnsOf u = b.columnsOf u ++ (carriedIn sheet u fields).map (columnOf sheet rows) := by
  induction fields generalizing b with
  | nil =>
      cases h
      simp [carriedIn]
  | cons f fields ih =>
      rw [gatherFrom_cons] at h
      cases hf : sheet.field? f.1 with
      | none =>
          rw [hf] at h
          cases h
      | some g =>
          rw [hf] at h
          have hcolumn : columnOf sheet rows f = ((UInt32.ofNat f.2).toNat,
              (rows.map g.column.get).map fun a => (Value.mk g.info.type a).widen) := by
            simp only [columnOf, Sheet.value?, hf, List.map_map]
            rfl
          rw [ih h, RowData.columnsOf_push, ← hcolumn, carriedIn, carriedIn, List.filter_cons, hf]
          by_cases hu : g.info.type.carriedAs = u
          · simp [hu]
          · simp [hu]

/-- More rows take no less room. -/
theorem dataSize_gatherFrom_le {part rows : List RowId} (hpart : part.Sublist rows)
    {b d z d' : RowData} (h : gatherFrom sheet part b fields = .ok d)
    (h' : gatherFrom sheet rows z fields = .ok d') (hle : dataSize b ≤ dataSize z) :
    dataSize d ≤ dataSize d' := by
  induction fields generalizing b z with
  | nil =>
      cases h
      cases h'
      exact hle
  | cons f fields ih =>
      rw [gatherFrom_cons] at h h'
      cases hf : sheet.field? f.1 with
      | none =>
          rw [hf] at h
          cases h
      | some g =>
          rw [hf] at h h'
          refine ih h h' ?_
          have hcolumn := listSize_le (carrierSize g.info.type) (hpart.map g.column.get)
          rw [dataSize_push, dataSize_push]
          omega

theorem dataSize_gather_le {part rows : List RowId} (hpart : part.Sublist rows) {d d' : RowData}
    (h : gather sheet part fields = .ok d) (h' : gather sheet rows fields = .ok d') :
    dataSize d ≤ dataSize d' := by
  refine dataSize_gatherFrom_le (b := { rows := part }) (z := { rows := rows }) hpart h h' ?_
  have hrows := listSize_le (fun _ : RowId => 4) hpart
  simp only [dataSize]
  omega

/-! ### Halving -/

def Needs (encode : List RowId → Except Error RowData) (rows : List RowId) (n : Nat) : Prop :=
  ∃ d, encode rows = .ok d ∧ ∀ (sub : Int32) (type : ResponseType),
    responseLength (.ofData sub type d) = n

def Exceeds (e : Encoder) (encode : List RowId → Except Error RowData) (rows : List RowId) : Prop :=
  ∃ n, Needs encode rows n ∧ e.limit < n

/-- The error of a batch with a row that is too long by itself: it names the first such row. A batch
without rows that is too long all the same is blamed on row 0. -/
def Blames (e : Encoder) (encode : List RowId → Except Error RowData) (type : ResponseType)
    (rows : List RowId) (err : Error) : Prop :=
  (rows = [] ∧ ∃ n, Needs encode [] n ∧ e.limit < n ∧
    err = .invalidOperation (.overFrameLimit type 0 n e.limit)) ∨
  ∃ before row after n, rows = before ++ row :: after ∧
    (∀ other ∈ before, ¬e.Exceeds encode [other]) ∧ Needs encode [row] n ∧ e.limit < n ∧
    err = .invalidOperation (.overFrameLimit
      (if before = [] then type else continuation type) row n e.limit)

/-- A way to encode rows that never fails, whose messages have the rows and only grow with them. -/
structure Packs (encode : List RowId → Except Error RowData) : Prop where
  total : ∀ rows, ∃ d, encode rows = .ok d
  rows : ∀ {rows d}, encode rows = .ok d → d.rows = rows
  grows : ∀ {part rows d d'}, part.Sublist rows → encode part = .ok d → encode rows = .ok d' →
    dataSize d ≤ dataSize d'

theorem needs_of_encode {encode : List RowId → Except Error RowData} {rows : List RowId}
    {d : RowData} (h : encode rows = .ok d) : Needs encode rows (15 + dataSize d) :=
  ⟨d, h, fun sub type => responseLength_ofData sub type d⟩

section Halving

variable {e : Encoder} {encode : List RowId → Except Error RowData} {type : ResponseType}
  {rows part : List RowId}

theorem Blames.append_right {tail : List RowId} {err : Error} (hne : part ≠ [])
    (h : e.Blames encode type part err) : e.Blames encode type (part ++ tail) err := by
  rcases h with ⟨hnil, -⟩ | ⟨before, row, after, n, rfl, h⟩
  · exact absurd hnil hne
  · exact .inr ⟨before, row, after ++ tail, n, by simp, h⟩

theorem Blames.append_left {head : List RowId} {err : Error} (hne : part ≠ []) (hhead : head ≠ [])
    (hfits : ∀ row ∈ head, ¬e.Exceeds encode [row])
    (h : e.Blames encode (continuation type) part err) :
    e.Blames encode type (head ++ part) err := by
  rcases h with ⟨hnil, -⟩ | ⟨before, row, after, n, rfl, hbefore, hneeds, hlong, herr⟩
  · exact absurd hnil hne
  · have hlater : head ++ before ≠ [] := by simp [hhead]
    refine .inr ⟨head ++ before, row, after, n, by simp, fun other hother => ?_, hneeds, hlong, ?_⟩
    · exact (List.mem_append.mp hother).elim (hfits other) (hbefore other)
    · rw [herr, continuation_continuation, ite_self, if_neg hlater]

namespace Packs

/-- What fits with more rows fits with fewer. -/
theorem not_exceeds (h : Packs encode) (hpart : part.Sublist rows) {d : RowData}
    (hd : encode rows = .ok d) (hfits : 15 + dataSize d ≤ e.limit) : ¬e.Exceeds encode part := by
  rintro ⟨n, ⟨d', hd', hn⟩, hlong⟩
  have hle := h.grows hpart hd' hd
  have hlen := hn 0 .add
  rw [responseLength_ofData] at hlen
  omega

/-- Halving ends with responses, and then no row is too long, or at the first row that is. -/
theorem splits_or_blames (h : Packs encode) (e : Encoder) (type : ResponseType)
    (rows : List RowId) :
    ((∃ rs, e.split encode type rows = .ok rs) ∧ (rows = [] → ¬e.Exceeds encode []) ∧
      ∀ row ∈ rows, ¬e.Exceeds encode [row]) ∨
    ∃ err, e.split encode type rows = .error err ∧ e.Blames encode type rows err := by
  induction hn : rows.length using Nat.strong_induction_on generalizing type rows with
  | _ n ih =>
      subst hn
      obtain ⟨d, hd⟩ := h.total rows
      rw [split, hd]
      dsimp only
      rw [responseLength_ofData]
      by_cases hfits : 15 + dataSize d ≤ e.limit
      · rw [if_pos hfits]
        refine .inl ⟨⟨_, rfl⟩, fun _ => h.not_exceeds (List.nil_sublist _) hd hfits,
          fun row hrow => h.not_exceeds (List.singleton_sublist.mpr hrow) hd hfits⟩
      · rw [if_neg hfits]
        have hlong := Nat.lt_of_not_le hfits
        by_cases hshort : rows.length < 2
        · rw [dif_pos hshort]
          refine .inr ⟨_, rfl, ?_⟩
          rcases rows with _ | ⟨row, _ | ⟨next, rows⟩⟩
          · exact .inl ⟨rfl, _, needs_of_encode hd, hlong, rfl⟩
          · exact .inr ⟨[], row, [], _, rfl, by simp, needs_of_encode hd, hlong, rfl⟩
          · rw [List.length_cons, List.length_cons] at hshort
            omega
        · rw [dif_neg hshort]
          obtain ⟨head, hhead⟩ : ∃ head, rows.take (rows.length / 2) = head := ⟨_, rfl⟩
          obtain ⟨tail, htail⟩ : ∃ tail, rows.drop (rows.length / 2) = tail := ⟨_, rfl⟩
          have hrows : rows = head ++ tail := by rw [← hhead, ← htail, List.take_append_drop]
          have hheadlen : head.length = rows.length / 2 := by
            rw [← hhead, List.length_take]
            omega
          have htaillen : tail.length = rows.length - rows.length / 2 := by
            rw [← htail, List.length_drop]
          have hheadne : head ≠ [] := List.ne_nil_of_length_pos (by omega)
          have htailne : tail ≠ [] := List.ne_nil_of_length_pos (by omega)
          rw [hhead, htail]
          rcases ih head.length (by omega) type head rfl with
            ⟨⟨first, hfirst⟩, -, hheadfits⟩ | ⟨err, herr, hblames⟩
          · rcases ih tail.length (by omega) (continuation type) tail rfl with
              ⟨⟨rest, hrest⟩, -, htailfits⟩ | ⟨err, herr, hblames⟩
            · rw [hfirst, hrest, hrows]
              refine .inl ⟨⟨_, rfl⟩, fun hnil => absurd (List.append_eq_nil_iff.mp hnil).1 hheadne,
                fun row hrow => ?_⟩
              exact (List.mem_append.mp hrow).elim (hheadfits row) (htailfits row)
            · rw [hfirst, herr, hrows]
              exact .inr ⟨err, rfl, hblames.append_left htailne hheadne hheadfits⟩
          · rw [herr, hrows]
            exact .inr ⟨err, rfl, hblames.append_right hheadne⟩

/-- Messages of pieces have the rows of the pieces. -/
theorem pieces (h : Packs encode) {parts : List (List RowId)} {ds : List RowData}
    (hmade : List.Forall₂ (fun part data => encode part = .ok data) parts ds) :
    ds.flatMap (·.rows) = parts.flatten ∧ ∀ d ∈ ds, encode d.rows = .ok d := by
  induction hmade with
  | nil => exact ⟨rfl, fun d hd => absurd hd List.not_mem_nil⟩
  | @cons part d parts ds hdata _ ih =>
      have hrows := h.rows hdata
      refine ⟨by rw [List.flatMap_cons, hrows, ih.1, List.flatten_cons], fun d' hd' => ?_⟩
      rcases List.mem_cons.mp hd' with rfl | hd'
      · rwa [hrows]
      · exact ih.2 d' hd'

end Packs

end Halving

theorem packs_gather (h : ∀ f ∈ fields, f.1 < sheet.fields.length) :
    Packs fun rows => gather sheet rows fields :=
  ⟨fun rows => gatherFrom_ok h rows { rows := rows }, fun hd => (gather_eq hd).1,
    fun hpart hd hd' => dataSize_gather_le hpart hd hd'⟩

/-! ### Batches -/

/-- Messages that carry some fields of some rows between them: put one after another, they have the
rows, and in each section the values of each field under its number. -/
structure Carry (sheet : Sheet) (fields : List (FieldId × Nat)) (rows : List RowId)
    (ds : List RowData) : Prop where
  listed : ds.flatMap (·.rows) = rows
  columns : ∀ d ∈ ds, ∀ u,
    d.columnsOf u = (carriedIn sheet u fields).map (columnOf sheet d.rows)
  values : ∀ f ∈ fields, ∃ stored u, ∃ k : Nat, sheet.field? f.1 = some stored ∧
    u = stored.info.type.carriedAs ∧ (carriedIn sheet u fields)[k]? = some f ∧
    (∀ d ∈ ds, (d.columnsOf u)[k]?.map Prod.fst = some (UInt32.ofNat f.2).toNat) ∧
    ds.flatMap (fun d => ((d.columnsOf u)[k]?.map Prod.snd).getD []) =
      rows.map fun row => (stored.value row).widen

/-- What is to come of encoding a batch. Responses have its type, the later ones continue it, and
together they carry the batch within the limit. There is an error exactly when a row is too long by
itself, or the empty response is for a batch without rows, and it names the first such row. -/
structure Ships (e : Encoder) (sheet : Sheet) (fields : List (FieldId × Nat)) (type : ResponseType)
    (rows : List RowId) (result : Except Error (List Response)) : Prop where
  whole : ∀ rs, result = .ok rs → (∀ r ∈ rs, responseLength r ≤ e.limit) ∧
    ∃ d ds, Carry sheet fields rows (d :: ds) ∧ rs = .ofData e.subscription type d ::
      ds.map (Response.ofData e.subscription (continuation type))
  fails_iff : (∃ err, result = .error err) ↔
    (rows = [] ∧ e.Exceeds (fun rows => gather sheet rows fields) []) ∨
      ∃ row ∈ rows, e.Exceeds (fun rows => gather sheet rows fields) [row]
  blames : ∀ err, result = .error err →
    e.Blames (fun rows => gather sheet rows fields) type rows err

theorem carry_of_gather (h : ∀ f ∈ fields, f.1 < sheet.fields.length) {rows : List RowId}
    {ds : List RowData} (hrows : ds.flatMap (·.rows) = rows)
    (hmade : ∀ d ∈ ds, gather sheet d.rows fields = .ok d) :
    Carry sheet fields rows ds := by
  have hcolumns : ∀ d ∈ ds, ∀ u,
      d.columnsOf u = (carriedIn sheet u fields).map (columnOf sheet d.rows) := by
    intro d hd u
    have hstart : ({ rows := d.rows } : RowData).columnsOf u = [] := by cases u <;> rfl
    rw [columnsOf_gatherFrom (b := { rows := d.rows }) (hmade d hd) u, hstart, List.nil_append]
  refine ⟨hrows, hcolumns, fun f hfields => ?_⟩
  obtain ⟨stored, hstored⟩ : ∃ stored, sheet.field? f.1 = some stored :=
    ⟨_, List.getElem?_eq_getElem (h f hfields)⟩
  obtain ⟨u, hu⟩ : ∃ u, u = stored.info.type.carriedAs := ⟨_, rfl⟩
  have hcarried : f ∈ carriedIn sheet u fields := by
    refine List.mem_filter.mpr ⟨hfields, ?_⟩
    rw [hstored, hu]
    simp
  obtain ⟨k, hf⟩ := List.mem_iff_getElem?.mp hcarried
  have hvalue : ∀ row, ((sheet.value? row f.1).map Value.widen).getD default =
      (stored.value row).widen := by
    intro row
    rw [Sheet.value?, hstored]
    rfl
  refine ⟨stored, u, k, hstored, hu, hf, fun d hd => ?_, ?_⟩
  · rw [hcolumns d hd u, List.getElem?_map, hf]
    rfl
  · have hcolumn : ∀ d ∈ ds, ((d.columnsOf u)[k]?.map Prod.snd).getD [] =
        d.rows.map fun row => (stored.value row).widen := by
      intro d hd
      rw [hcolumns d hd u, List.getElem?_map, hf]
      simp only [Option.map_some, Option.getD_some, columnOf, hvalue]
    rw [List.flatMap_congr hcolumn, ← List.map_flatMap, hrows]

theorem ships_split (e : Encoder) (h : ∀ f ∈ fields, f.1 < sheet.fields.length)
    (type : ResponseType) (rows : List RowId) :
    e.Ships sheet fields type rows (e.split (fun rows => gather sheet rows fields) type rows) := by
  have hpacks := packs_gather h
  refine ⟨fun rs hrs => ?_, ?_, fun err herr => ?_⟩
  · have hparts := parts_of_split hrs
    obtain ⟨d, ds, parts, hds, hflatten, hmade⟩ := hparts.messages
    obtain ⟨hrows, hmade⟩ := hpacks.pieces hmade
    exact ⟨hparts.responseLength_le, d, ds, carry_of_gather h (hrows.trans hflatten) hmade, hds⟩
  · rcases hpacks.splits_or_blames e type rows with
      ⟨⟨rs, hrs⟩, hempty, hfits⟩ | ⟨err, herr, hblames⟩
    · rw [hrs]
      refine iff_of_false (by simp) ?_
      rintro (⟨hnil, hlong⟩ | ⟨row, hrow, hlong⟩)
      · exact hempty hnil hlong
      · exact hfits row hrow hlong
    · refine iff_of_true ⟨err, herr⟩ ?_
      rcases hblames with
        ⟨hnil, n, hneeds, hlong, -⟩ | ⟨before, row, after, n, rfl, -, hneeds, hlong, -⟩
      · exact .inl ⟨hnil, n, hneeds, hlong⟩
      · exact .inr ⟨row, by simp, n, hneeds, hlong⟩
  · rcases hpacks.splits_or_blames e type rows with ⟨⟨rs, hrs⟩, -⟩ | ⟨err', herr', hblames⟩
    · rw [hrs] at herr
      cases herr
    · rw [herr'] at herr
      cases herr
      exact hblames

theorem lt_size_of_resolve {e : Encoder} {schema : Schema} {ids : List FieldId}
    (h : e.resolve schema = .ok ids) : ∀ id ∈ ids, id < schema.size := by
  rw [resolve] at h
  split at h
  · cases h
    exact fun id => List.mem_range.mp
  · exact (resolve_names h).1

/-- Rows, changes and removals are sent as batches cut into pieces within the limit. This fails only
for a row that does not fit by itself, and says which. -/
theorem splitting_exact {e : Encoder} {sheet : Sheet} {ids : List FieldId}
    (hadopted : e.projection = some ids) (hids : e.resolve sheet.schema = .ok ids) :
    (∀ type rows, e.Ships sheet (numbered ids) type rows (e.encodeRows sheet type rows)) ∧
    (∀ rows changed, (∃ id ∈ ids, changed.contains id = true) →
      e.Ships sheet ((numbered ids).filter fun f => changed.contains f.1) .change rows
        (e.encodeChange sheet rows changed)) ∧
    ∀ rows, e.Ships sheet [] .remove rows (e.encodeRemove rows) := by
  have hknown : ∀ f ∈ numbered ids, f.1 < sheet.fields.length := by
    intro f hf
    have hid := lt_size_of_resolve hids f.1 (List.fst_mem_of_mem_zipIdx hf)
    rwa [Schema.size, Sheet.schema, List.length_map] at hid
  refine ⟨fun type rows => ?_, fun rows changed hsome => ?_, fun rows => ?_⟩
  · rw [encodeRows, hadopted]
    exact e.ships_split hknown type rows
  · have hfields : ((numbered ids).filter fun f => changed.contains f.1).isEmpty = false := by
      obtain ⟨id, hid, hchanged⟩ := hsome
      obtain ⟨k, hk⟩ := List.mem_iff_getElem?.mp hid
      have hmem : (id, k) ∈ numbered ids := List.mem_zipIdx_iff_getElem?.mpr hk
      rw [List.isEmpty_eq_false_iff_exists_mem]
      exact ⟨_, List.mem_filter.mpr ⟨hmem, hchanged⟩⟩
    rw [encodeChange, hadopted]
    dsimp only
    rw [hfields]
    exact e.ships_split (fun f hf => hknown f (List.mem_filter.mp hf).1) .change rows
  · exact e.ships_split (fun f hf => absurd hf List.not_mem_nil) .remove rows

/-- Three rows that do not fit one frame are sent in two, the first as what was asked for. -/
theorem splitting_exact_halved :
    let schema : Schema := ⟨⟨"T", [⟨"a", .int64, {}⟩, ⟨"s", .string, {}⟩]⟩, by decide⟩
    let sheet := Sheet.ofSchema schema
    let e : Encoder :=
      { subscription := 2, requested := some ["s"], limit := 76, projection := some [1] }
    e.resolve sheet.schema = .ok [1] ∧
      e.Ships sheet [(1, 0)] .init [4, 7, 9] (e.encodeRows sheet .init [4, 7, 9]) ∧
      (e.encodeRows sheet .init [4, 7, 9]).map (List.map fun r => (r.type, r.data.map (·.rows))) =
        .ok [(.init, some [4]), (.add, some [7, 9])] := by
  intro schema sheet e
  have hids : e.resolve sheet.schema = .ok [1] := by decide
  exact ⟨hids, (splitting_exact rfl hids).1 .init [4, 7, 9], by decide +kernel⟩

end Encoder

end TableFeed
