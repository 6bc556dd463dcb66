import Mathlib
import TableFeed.Proofs.Encoder.Projection
/-!
What an encoder sends and what the machine makes of it. A batch arrives whole or in parts; either
way the machine accepts every part, and afterwards shows of the rows what the sheet held.
-/

namespace TableFeed

open Encoder (numbered columnOf gather)

/-! ### Gathered messages -/

namespace RowData

variable {schema : Schema} {ids : List FieldId} {sheet : Sheet} {rows : List RowId}
  {fields : List (FieldId × Nat)} {d : RowData}

theorem lookIn_columns {cols : List (FieldId × List Value)} (hd : d.columns.Perm cols)
    (hcols : (cols.map (·.1)).Nodup) (n : FieldId) :
    AscMap.lookIn n d.columns = AscMap.lookIn n cols := by
  have hkeys := hd.map (·.1)
  cases hn : AscMap.lookIn n cols with
  | none =>
      rw [AscMap.lookIn_eq_none_iff] at hn ⊢
      exact fun hmem => hn (hkeys.mem_iff.mp hmem)
  | some ws =>
      exact AscMap.lookIn_of_mem (hkeys.nodup_iff.mpr hcols)
        (hd.mem_iff.mpr (AscMap.mem_of_lookIn hn))

theorem mem_numbered {f : FieldId × Nat} : f ∈ numbered ids ↔ ids[f.2]? = some f.1 := by
  rw [numbered]
  exact List.mem_zipIdx_iff_getElem?

variable (hp : Projects schema ids) (hfields : fields.Sublist (numbered ids))

include hp hfields

/-- The numbers of the fields sent are their places in the projection. -/
theorem toNat_number {f : FieldId × Nat} (hf : f ∈ fields) : (UInt32.ofNat f.2).toNat = f.2 := by
  obtain ⟨hlt, -⟩ := List.getElem?_eq_some_iff.mp (mem_numbered.mp (hfields.subset hf))
  have hnumbered := hp.numbered
  rw [UInt32.toNat_ofNat']
  omega

theorem keys_columnOf : (fields.map (columnOf sheet rows)).map (·.1) = fields.map (·.2) := by
  rw [List.map_map]
  exact List.map_congr_left fun f hf => toNat_number hp hfields hf

theorem nodup_keys : ((fields.map (columnOf sheet rows)).map (·.1)).Nodup := by
  rw [keys_columnOf hp hfields]
  refine (hfields.map (·.2)).nodup ?_
  rw [numbered, List.zipIdx_map_snd]
  exact List.nodup_range'

variable (hsheet : sheet.schema = schema)

include hsheet

/-- A cell of a field that is sent holds a value of the field's type. -/
theorem value?_of_sent {f : FieldId × Nat} (hf : f ∈ fields) (row : RowId) :
    ∃ g v, schema.field? f.1 = some g ∧ sheet.value? row f.1 = some v ∧ v.type = g.type := by
  have hid : f.1 < schema.size :=
    hp.known f.1 (List.mem_of_getElem? (mem_numbered.mp (hfields.subset hf)))
  have hg : schema.field? f.1 = some schema.fields[f.1] := List.getElem?_eq_getElem hid
  obtain ⟨v, hv⟩ := Option.ne_none_iff_exists'.mp
    (mt (sheet.value?_eq_none_iff row f.1).mp (by rw [hsheet, hg]; simp))
  exact ⟨_, v, hg, hv, sheet.type_of_value? row f.1 hv (hsheet ▸ hg)⟩

variable (hd : gather sheet rows fields = .ok d)

include hd

/-- What is sent for a cell: the value in the sheet, if its field is sent. -/
theorem sent?_gather {row : RowId} {k : Nat} (hk : rows[k]? = some row) {id : FieldId} {n : Nat}
    (hid : ids[n]? = some id) {g : FieldInfo} (hg : schema.field? id = some g) :
    d.sent? k n g.type = if (id, n) ∈ fields then sheet.value? row id else none := by
  obtain ⟨-, hcolumns⟩ := Encoder.gather_eq hd
  rw [sent?, lookIn_columns hcolumns (nodup_keys hp hfields)]
  split
  · next hmem =>
    obtain ⟨g', v, hg', hv, htype⟩ := value?_of_sent hp hfields hsheet hmem row
    obtain rfl : g = g' := Option.some.inj (hg.symm.trans hg')
    have hcolumn : columnOf sheet rows (id, n) = (n, (columnOf sheet rows (id, n)).2) :=
      Prod.ext (toNat_number hp hfields hmem) rfl
    rw [AscMap.lookIn_of_mem (nodup_keys hp hfields)
      (hcolumn ▸ List.mem_map_of_mem (f := columnOf sheet rows) hmem)]
    simp only [columnOf, Option.bind_some, List.getElem?_map, hk, Option.map_some, hv,
      Option.getD_some]
    rw [← htype, unwiden_widen]
  · next hmem =>
    have hnone : AscMap.lookIn n (fields.map (columnOf sheet rows)) = none := by
      rw [AscMap.lookIn_eq_none_iff, keys_columnOf hp hfields]
      intro hn
      obtain ⟨f, hf, rfl⟩ := List.mem_map.mp hn
      have hsame := (mem_numbered.mp (hfields.subset hf)).symm.trans hid
      exact hmem (Option.some.inj hsame ▸ hf)
    rw [hnone]
    rfl

theorem wellShaped_gather {limit : RowId} {type : ResponseType} (htype : type ≠ .remove)
    (hrows : rows.Nodup) (hlimit : ∀ row ∈ rows, row ≤ limit) :
    d.WellShaped limit (ids.filterMap schema.field?) type := by
  obtain ⟨hr, hcolumns⟩ := Encoder.gather_eq hd
  have hcolumn : ∀ c ∈ d.columns, ∃ f ∈ fields, c = columnOf sheet rows f ∧ c.1 = f.2 := by
    intro c hc
    obtain ⟨f, hf, rfl⟩ := List.mem_map.mp (hcolumns.mem_iff.mp hc)
    exact ⟨f, hf, rfl, toNat_number hp hfields hf⟩
  refine ⟨hr ▸ hlimit, hr ▸ hrows, fun h => absurd h htype, fun c hc => ?_, ?_, fun c hc => ?_,
    fun c hc w hw => ?_⟩
  · obtain ⟨f, hf, -, hnumber⟩ := hcolumn c hc
    obtain ⟨hlt, -⟩ := List.getElem?_eq_some_iff.mp (mem_numbered.mp (hfields.subset hf))
    rw [Selects.length_fields hp.known, hnumber]
    exact hlt
  · exact (hcolumns.map (·.1)).nodup_iff.mpr (nodup_keys hp hfields)
  · obtain ⟨f, -, rfl, -⟩ := hcolumn c hc
    simp [columnOf, hr]
  · obtain ⟨f, hf, rfl, hnumber⟩ := hcolumn c hc
    obtain ⟨row, -, rfl⟩ := List.mem_map.mp hw
    obtain ⟨g, v, hg, hv, hvtype⟩ := value?_of_sent hp hfields hsheet hf row
    rw [hnumber, Selects.getElem?_fields hp.known, mem_numbered.mp (hfields.subset hf)]
    simp only [Option.bind_some, hg, hv, Option.map_some, Option.getD_some]
    rw [← hvtype, unwiden_widen]
    rfl

end RowData

/-- Fields that were sent fit into a frame, so there are not more of them than it has bytes. -/
theorem Parts.fields_le {e : Encoder} {sheet : Sheet} {fields : List (FieldId × Nat)}
    {type : ResponseType} {rows : List RowId} {rs : List Response}
    (h : Parts e (fun rows => gather sheet rows fields) type rows rs) : fields.length ≤ e.limit := by
  induction h with
  | @whole type rows d hdata hfits =>
      obtain ⟨-, hcolumns⟩ := Encoder.gather_eq hdata
      calc
        fields.length = d.columns.length := by rw [hcolumns.length_eq, List.length_map]
        _ ≤ Wire.dataSize d := d.length_columns_le
        _ ≤ Wire.responseLength (.ofData e.subscription type d) := by
          simp only [Wire.responseLength, Response.ofData, Option.map_some, Option.getD_some]
          omega
        _ ≤ e.limit := hfits
  | halves hhead htail ihhead ihtail => exact ihhead

/-! ### One message at the machine -/

namespace Mirror

def cell? (m : Mirror) (row : RowId) (n : FieldId) : Option Value :=
  (m.rows.find? row).bind (·[n]?)

inductive Takes (sub : Int32) (limit : RowId) : Mirror → List Response → Mirror → Prop
  | nil (m : Mirror) : Takes sub limit m [] m
  | cons {m m' : Mirror} {r : Response} {rs : List Response} :
      (m.accept sub limit r).2 = .accepted → Takes sub limit (m.accept sub limit r).1 rs m' →
      Takes sub limit m (r :: rs) m'

namespace Takes

variable {sub : Int32} {limit : RowId} {m m' m'' : Mirror}

theorem singleton {r : Response} {v : Mirror} (h : m.accept sub limit r = (v, .accepted)) :
    Takes sub limit m [r] v := by
  refine .cons (by rw [h]) ?_
  rw [h]
  exact .nil v

theorem append {rs rs' : List Response} (h : Takes sub limit m rs m')
    (h' : Takes sub limit m' rs' m'') : Takes sub limit m (rs ++ rs') m'' := by
  induction h with
  | nil m => exact h'
  | cons hr hrest ih => exact .cons hr (ih h')

end Takes

def Knows (m : Mirror) (schema : Schema) (ids : List FieldId) : Prop :=
  m.schema.map Schema.toLayout = some ⟨schema.name, ids.filterMap schema.field?⟩

theorem Knows.schema_eq {m : Mirror} {schema : Schema} {ids : List FieldId}
    (h : m.Knows schema ids) :
    ∃ s, m.schema = some s ∧ s.fields = ids.filterMap schema.field? := by
  obtain ⟨s, hs, hl⟩ := Option.map_eq_some_iff.mp h
  exact ⟨s, hs, congrArg Layout.fields hl⟩

theorem acceptData_of_ok {m : Mirror} {limit : RowId} {type : ResponseType} {d : RowData}
    {s : Schema} (hphase : m.phase = due type) (hs : m.schema = some s)
    (hd : d.WellShaped limit s.fields type)
    (hrows : ∀ row ∈ d.rows, m.rows.contains row = expectsLive type) :
    m.acceptData limit type (some d) = (m.absorb type s.fields d, .accepted) := by
  have hfailed : m.phase ≠ .failed := by
    rw [hphase]
    cases type <;> exact Phase.noConfusion
  rw [acceptData.eq_def, if_neg hfailed, if_neg (not_not.mpr hphase), hs]
  dsimp only
  rw [if_pos hd, if_pos hrows]

theorem accept_ofData {m : Mirror} {sub : Int32} {limit : RowId} {type : ResponseType}
    (htype : type.carriesRows = true) (d : RowData) :
    m.accept sub limit (.ofData sub type d) = m.acceptData limit type (some d) := by
  have hsub : ¬(Response.ofData sub type d).subscription ≠ sub := not_not.mpr rfl
  rw [accept, if_neg hsub]
  cases type with
  | message => cases htype
  | schema => cases htype
  | add => rfl
  | change => rfl
  | remove => rfl
  | init => rfl

variable {m : Mirror} {limit : RowId} {schema : Schema} {ids : List FieldId}
  {sheet : Sheet} {rows : List RowId}

theorem contains_insertAll_iff {es : AscMap RowId Record} {rows : List RowId} {row : RowId}
    (hin : row ∈ rows → ∃ r, es.find? row = some r)
    (hout : row ∉ rows → es.find? row = m.rows.find? row) :
    es.contains row = true ↔ m.rows.contains row = true ∨ row ∈ rows := by
  by_cases hrow : row ∈ rows
  · obtain ⟨r, hr⟩ := hin hrow
    simp [AscMap.contains, hr, hrow]
  · simp [AscMap.contains, hout hrow, hrow]

/-- New rows with all their fields. -/
theorem accept_new (sub : Int32) (hp : Projects schema ids) (hsheet : sheet.schema = schema)
    {type : ResponseType} (htype : type = .init ∨ type = .add) (hphase : m.phase = due type)
    (hm : m.Knows schema ids) (hrows : rows.Nodup) (hlimit : ∀ row ∈ rows, row ≤ limit)
    (hnew : ∀ row ∈ rows, m.rows.contains row = false) {d : RowData}
    (hd : gather sheet rows (numbered ids) = .ok d) :
    ∃ m', m.accept sub limit (.ofData sub type d) = (m', .accepted) ∧ m'.phase = .live ∧
      m'.schema = m.schema ∧
      (∀ row, m'.rows.contains row = true ↔ m.rows.contains row = true ∨ row ∈ rows) ∧
      (∀ row ∈ rows, ∀ n, m'.cell? row n = ids[n]?.bind (sheet.value? row)) ∧
      ∀ row ∉ rows, ∀ n, m'.cell? row n = m.cell? row n := by
  obtain ⟨s, hs, hfields⟩ := hm.schema_eq
  obtain ⟨hdrows, -⟩ := Encoder.gather_eq hd
  have hcarries : type.carriesRows = true := by rcases htype with rfl | rfl <;> rfl
  have hremove : type ≠ .remove := by rcases htype with rfl | rfl <;> exact ResponseType.noConfusion
  have hexpects : expectsLive type = false := by rcases htype with rfl | rfl <;> rfl
  have hshape := RowData.wellShaped_gather hp (.refl _) hsheet hd hremove hrows hlimit
  rw [← hfields] at hshape
  have habsorb : m.absorb type s.fields d =
      { m with phase := .live, rows := m.rows.insertAll (freshRecords s.fields d) } := by
    rcases htype with rfl | rfl <;> rfl
  refine ⟨m.absorb type s.fields d, ?_, ?_, ?_, ?_, ?_, ?_⟩
  · rw [accept_ofData hcarries]
    refine acceptData_of_ok hphase hs hshape ?_
    rw [hdrows, hexpects]
    exact hnew
  · rw [habsorb]
  · rw [habsorb]
  · intro row
    rw [habsorb, ← hdrows]
    refine contains_insertAll_iff (fun hrow => ?_) fun hrow => ?_
    · obtain ⟨k, hk⟩ := List.mem_iff_getElem?.mp hrow
      exact ⟨_, find?_fresh hshape.distinct m.rows hk⟩
    · exact find?_fresh_of_not_mem hshape.distinct m.rows hrow
  · intro row hrow n
    obtain ⟨k, hk⟩ := List.mem_iff_getElem?.mp hrow
    rw [habsorb, cell?, find?_fresh hshape.distinct m.rows (hdrows ▸ hk), Option.bind_some,
      getElem?_compose, hfields, Selects.getElem?_fields hp.known]
    cases hid : ids[n]? with
    | none => rfl
    | some id =>
        have hmem : (id, n) ∈ numbered ids := RowData.mem_numbered.mpr hid
        obtain ⟨g, v, hg, hv, -⟩ := RowData.value?_of_sent hp (.refl _) hsheet hmem row
        simp only [Option.bind_some, hg, Option.map_some,
          RowData.sent?_gather hp (.refl _) hsheet hd hk hid hg, if_pos hmem, hv, Option.getD_some]
  · intro row hrow n
    rw [habsorb, cell?, find?_fresh_of_not_mem hshape.distinct m.rows (hdrows ▸ hrow)]
    rfl

/-- Changes of rows that are there, in some of their fields. -/
theorem accept_changes (sub : Int32) (hp : Projects schema ids) (hsheet : sheet.schema = schema)
    (hphase : m.phase = .live) (hm : m.Knows schema ids)
    (hrows : rows.Nodup) (hlimit : ∀ row ∈ rows, row ≤ limit) (hthere : ∀ row ∈ rows, m.rows.contains row = true)
    {fields : List (FieldId × Nat)} (hsent : fields.Sublist (numbered ids)) {d : RowData}
    (hd : gather sheet rows fields = .ok d) :
    ∃ m', m.accept sub limit (.ofData sub .change d) = (m', .accepted) ∧ m'.phase = .live ∧
      m'.schema = m.schema ∧ (∀ row, m'.rows.contains row = m.rows.contains row) ∧
      (∀ row ∈ rows, ∀ f ∈ fields, m'.cell? row f.2 = sheet.value? row f.1) ∧
      ∀ row n id v, ids[n]? = some id → (row ∈ rows → (id, n) ∉ fields) →
        m.cell? row n = some v → m'.cell? row n = some v := by
  obtain ⟨s, hs, hfields⟩ := hm.schema_eq
  obtain ⟨hdrows, -⟩ := Encoder.gather_eq hd
  have hshape : d.WellShaped limit (ids.filterMap schema.field?) .change :=
    RowData.wellShaped_gather hp hsent hsheet hd ResponseType.noConfusion hrows hlimit
  rw [← hfields] at hshape
  refine ⟨m.absorb .change s.fields d, ?_, rfl, rfl, ?_, ?_, ?_⟩
  · rw [accept_ofData rfl]
    refine acceptData_of_ok hphase hs hshape ?_
    rw [hdrows]
    exact hthere
  · intro row
    rw [Bool.eq_iff_iff]
    show (m.rows.insertAll (m.overwritten s.fields d)).contains row = true ↔ _
    by_cases hrow : row ∈ rows
    · obtain ⟨k, hk⟩ := List.mem_iff_getElem?.mp hrow
      rw [hthere row hrow, AscMap.contains, find?_overwritten hshape.distinct m (hdrows ▸ hk)]
      rfl
    · rw [AscMap.contains, find?_overwritten_of_not_mem hshape.distinct m (hdrows ▸ hrow),
        AscMap.contains]
  · intro row hrow f hf
    obtain ⟨k, hk⟩ := List.mem_iff_getElem?.mp hrow
    have hid : ids[f.2]? = some f.1 := RowData.mem_numbered.mp (hsent.subset hf)
    obtain ⟨g, v, hg, hv, -⟩ := RowData.value?_of_sent hp hsent hsheet hf row
    show ((m.rows.insertAll (m.overwritten s.fields d)).find? row).bind (·[f.2]?) = _
    rw [find?_overwritten hshape.distinct m (hdrows ▸ hk), Option.bind_some, getElem?_compose,
      hfields, Selects.getElem?_fields hp.known, hid, Option.bind_some, hg, Option.map_some,
      RowData.sent?_gather hp hsent hsheet hd hk hid hg, if_pos hf, hv]
    rfl
  · intro row n id v hid hunsent hcell
    show ((m.rows.insertAll (m.overwritten s.fields d)).find? row).bind (·[n]?) = _
    by_cases hrow : row ∈ rows
    · obtain ⟨k, hk⟩ := List.mem_iff_getElem?.mp hrow
      have hlt : id < schema.fields.length := hp.known id (List.mem_of_getElem? hid)
      have hg : schema.field? id = some schema.fields[id] := List.getElem?_eq_getElem hlt
      have hold : (m.rows.find? row).bind (·[n]?) = some v := hcell
      rw [find?_overwritten hshape.distinct m (hdrows ▸ hk), Option.bind_some, getElem?_compose,
        hfields, Selects.getElem?_fields hp.known, hid, Option.bind_some, hg, Option.map_some,
        RowData.sent?_gather hp hsent hsheet hd hk hid hg, if_neg (hunsent hrow), hold]
      rfl
    · rw [find?_overwritten_of_not_mem hshape.distinct m (hdrows ▸ hrow)]
      exact hcell

/-- Removals of rows that are there. -/
theorem accept_removals (sub : Int32) (hphase : m.phase = .live) (hm : m.Knows schema ids)
    (hrows : rows.Nodup) (hlimit : ∀ row ∈ rows, row ≤ limit) (hthere : ∀ row ∈ rows, m.rows.contains row = true) :
    ∃ m', m.accept sub limit (.ofData sub .remove { rows := rows }) = (m', .accepted) ∧
      m'.phase = .live ∧ m'.schema = m.schema ∧
      (∀ row, m'.rows.contains row = true ↔ m.rows.contains row = true ∧ row ∉ rows) ∧
      ∀ row ∉ rows, ∀ n, m'.cell? row n = m.cell? row n := by
  obtain ⟨s, hs, hfields⟩ := hm.schema_eq
  have hnone : ({ rows := rows } : RowData).columns = [] := rfl
  refine ⟨m.absorb .remove s.fields { rows := rows }, ?_, rfl, rfl, ?_, ?_⟩
  · rw [accept_ofData rfl]
    refine acceptData_of_ok hphase hs ⟨hlimit, hrows, fun _ => hnone, ?_, ?_, ?_, ?_⟩ hthere
    · simp [hnone]
    · simp [hnone]
    · simp [hnone]
    · simp [hnone]
  · intro row
    show (rows.foldl AscMap.erase m.rows).contains row = true ↔ _
    rw [AscMap.contains, find?_foldl_erase, AscMap.contains]
    by_cases hrow : row ∈ rows <;> simp [hrow]
  · intro row hrow n
    show ((rows.foldl AscMap.erase m.rows).find? row).bind (·[n]?) = _
    rw [find?_foldl_erase, if_neg hrow]
    rfl

/-! ### A batch in parts -/

variable {e : Encoder} {rs : List Response}

theorem knows_congr {m' : Mirror} (hm : m.Knows schema ids) (h : m'.schema = m.schema) :
    m'.Knows schema ids := by
  rw [Knows, h]
  exact hm

theorem mem_halves (row : RowId) (rows : List RowId) (n : Nat) :
    row ∈ rows ↔ row ∈ rows.take n ∨ row ∈ rows.drop n := by
  rw [← List.mem_append, List.take_append_drop]

theorem nodup_halves {rows : List RowId} (hrows : rows.Nodup) (n : Nat) :
    (rows.take n).Nodup ∧ (rows.drop n).Nodup ∧
      ∀ row ∈ rows.take n, row ∉ rows.drop n := by
  rw [← List.take_append_drop n rows, List.nodup_append] at hrows
  exact ⟨hrows.1, hrows.2.1, fun row hrow hdrop => hrows.2.2 row hrow row hdrop rfl⟩

/-- New rows: all parts are accepted, and afterwards the machine has the rows as in the sheet. -/
theorem takes_new (hp : Projects schema ids) (hsheet : sheet.schema = schema)
    {type : ResponseType}
    (hparts : Parts e (fun rows => gather sheet rows (numbered ids)) type rows rs)
    (htype : type = .init ∨ type = .add) (hphase : m.phase = due type) (hm : m.Knows schema ids)
    (hrows : rows.Nodup) (hlimit : ∀ row ∈ rows, row ≤ limit)
    (hnew : ∀ row ∈ rows, m.rows.contains row = false) :
    ∃ m', Takes e.subscription limit m rs m' ∧ m'.phase = .live ∧ m'.schema = m.schema ∧
      (∀ row, m'.rows.contains row = true ↔ m.rows.contains row = true ∨ row ∈ rows) ∧
      (∀ row ∈ rows, ∀ n, m'.cell? row n = ids[n]?.bind (sheet.value? row)) ∧
      ∀ row ∉ rows, ∀ n, m'.cell? row n = m.cell? row n := by
  induction hparts generalizing m with
  | whole hdata _ =>
      obtain ⟨m', haccept, hafter⟩ := accept_new e.subscription hp hsheet htype hphase hm
        hrows hlimit hnew hdata
      exact ⟨m', .singleton haccept, hafter⟩
  | @halves type rows head tail _ _ ihhead ihtail =>
      obtain ⟨hhead, htail, hdisjoint⟩ := nodup_halves hrows (rows.length / 2)
      have hmem := fun row => mem_halves row rows (rows.length / 2)
      obtain ⟨m₁, htakes₁, hphase₁, hschema₁, hrows₁, hcells₁, hold₁⟩ := ihhead htype hphase hm
        hhead (fun row hrow => hlimit row ((hmem row).mpr (.inl hrow)))
        fun row hrow => hnew row ((hmem row).mpr (.inl hrow))
      have hcontinue : Encoder.continuation type = .add := by rcases htype with rfl | rfl <;> rfl
      obtain ⟨m', htakes, hphase', hschema', hrows', hcells', hold'⟩ := ihtail (m := m₁)
        (.inr hcontinue) (by rw [hphase₁, hcontinue]; rfl) (knows_congr hm hschema₁) htail
        (fun row hrow => hlimit row ((hmem row).mpr (.inr hrow))) (fun row hrow => by
          have hold := hnew row ((hmem row).mpr (.inr hrow))
          have hnot : row ∉ rows.take (rows.length / 2) := fun h => hdisjoint row h hrow
          simpa [hold, hnot] using mt (hrows₁ row).mp)
      refine ⟨m', htakes₁.append htakes, hphase', hschema'.trans hschema₁, fun row => ?_,
        fun row hrow n => ?_, fun row hrow n => ?_⟩
      · rw [hrows', hrows₁, hmem row, or_assoc]
      · by_cases hdrop : row ∈ rows.drop (rows.length / 2)
        · exact hcells' row hdrop n
        · rw [hold' row hdrop n]
          exact hcells₁ row (((hmem row).mp hrow).resolve_right hdrop) n
      · rw [hmem row, not_or] at hrow
        rw [hold' row hrow.2 n, hold₁ row hrow.1 n]

/-- Changes: all parts are accepted, and afterwards the machine has the fields sent as in the
sheet. -/
theorem takes_changes (hp : Projects schema ids) (hsheet : sheet.schema = schema)
    {fields : List (FieldId × Nat)} (hsent : fields.Sublist (numbered ids)) {type : ResponseType}
    (hparts : Parts e (fun rows => gather sheet rows fields) type rows rs) (htype : type = .change)
    (hphase : m.phase = .live) (hm : m.Knows schema ids)
    (hrows : rows.Nodup) (hlimit : ∀ row ∈ rows, row ≤ limit) (hthere : ∀ row ∈ rows, m.rows.contains row = true) :
    ∃ m', Takes e.subscription limit m rs m' ∧ m'.phase = .live ∧ m'.schema = m.schema ∧
      (∀ row, m'.rows.contains row = m.rows.contains row) ∧
      (∀ row ∈ rows, ∀ f ∈ fields, m'.cell? row f.2 = sheet.value? row f.1) ∧
      ∀ row n id v, ids[n]? = some id → (row ∈ rows → (id, n) ∉ fields) →
        m.cell? row n = some v → m'.cell? row n = some v := by
  induction hparts generalizing m with
  | whole hdata _ =>
      obtain ⟨m', haccept, hafter⟩ := accept_changes e.subscription hp hsheet hphase hm
        hrows hlimit hthere hsent hdata
      exact ⟨m', .singleton (htype ▸ haccept), hafter⟩
  | @halves type rows head tail _ _ ihhead ihtail =>
      obtain ⟨hhead, htail, hdisjoint⟩ := nodup_halves hrows (rows.length / 2)
      have hmem := fun row => mem_halves row rows (rows.length / 2)
      obtain ⟨m₁, htakes₁, hphase₁, hschema₁, hrows₁, hcells₁, hold₁⟩ := ihhead htype hphase hm
        hhead (fun row hrow => hlimit row ((hmem row).mpr (.inl hrow)))
        fun row hrow => hthere row ((hmem row).mpr (.inl hrow))
      obtain ⟨m', htakes, hphase', hschema', hrows', hcells', hold'⟩ := ihtail (m := m₁)
        (by rw [htype]; rfl) hphase₁ (knows_congr hm hschema₁) htail
        (fun row hrow => hlimit row ((hmem row).mpr (.inr hrow))) fun row hrow => by
          rw [hrows₁]
          exact hthere row ((hmem row).mpr (.inr hrow))
      refine ⟨m', htakes₁.append htakes, hphase', hschema'.trans hschema₁, fun row => ?_,
        fun row hrow f hf => ?_, fun row n id v hid hunsent hcell => ?_⟩
      · rw [hrows', hrows₁]
      · by_cases hdrop : row ∈ rows.drop (rows.length / 2)
        · exact hcells' row hdrop f hf
        · have htake := ((hmem row).mp hrow).resolve_right hdrop
          have hid : ids[f.2]? = some f.1 := RowData.mem_numbered.mp (hsent.subset hf)
          obtain ⟨g, v, -, hv, -⟩ := RowData.value?_of_sent hp hsent hsheet hf row
          rw [hv]
          exact hold' row f.2 f.1 v hid (fun h => absurd h hdrop) ((hcells₁ row htake f hf).trans hv)
      · exact hold' row n id v hid (fun h => hunsent ((hmem row).mpr (.inr h)))
          (hold₁ row n id v hid (fun h => hunsent ((hmem row).mpr (.inl h))) hcell)

/-- Removals: all parts are accepted, and afterwards the rows are gone. -/
theorem takes_removals {type : ResponseType}
    (hparts : Parts e (fun rows => .ok { rows := rows }) type rows rs) (htype : type = .remove)
    (hphase : m.phase = .live) (hm : m.Knows schema ids)
    (hrows : rows.Nodup) (hlimit : ∀ row ∈ rows, row ≤ limit) (hthere : ∀ row ∈ rows, m.rows.contains row = true) :
    ∃ m', Takes e.subscription limit m rs m' ∧ m'.phase = .live ∧ m'.schema = m.schema ∧
      (∀ row, m'.rows.contains row = true ↔ m.rows.contains row = true ∧ row ∉ rows) ∧
      ∀ row ∉ rows, ∀ n, m'.cell? row n = m.cell? row n := by
  induction hparts generalizing m with
  | whole hdata _ =>
      cases hdata
      obtain ⟨m', haccept, hafter⟩ := accept_removals e.subscription hphase hm
        hrows hlimit hthere
      exact ⟨m', .singleton (htype ▸ haccept), hafter⟩
  | @halves type rows head tail _ _ ihhead ihtail =>
      obtain ⟨hhead, htail, hdisjoint⟩ := nodup_halves hrows (rows.length / 2)
      have hmem := fun row => mem_halves row rows (rows.length / 2)
      obtain ⟨m₁, htakes₁, hphase₁, hschema₁, hrows₁, hold₁⟩ := ihhead htype hphase hm
        hhead (fun row hrow => hlimit row ((hmem row).mpr (.inl hrow)))
        fun row hrow => hthere row ((hmem row).mpr (.inl hrow))
      obtain ⟨m', htakes, hphase', hschema', hrows', hold'⟩ := ihtail (m := m₁)
        (by rw [htype]; rfl) hphase₁ (knows_congr hm hschema₁) htail
        (fun row hrow => hlimit row ((hmem row).mpr (.inr hrow))) fun row hrow =>
          (hrows₁ row).mpr ⟨hthere row ((hmem row).mpr (.inr hrow)),
            fun h => hdisjoint row h hrow⟩
      refine ⟨m', htakes₁.append htakes, hphase', hschema'.trans hschema₁, fun row => ?_,
        fun row hrow n => ?_⟩
      · rw [hrows', hrows₁, hmem row, not_or, and_assoc]
      · rw [hmem row, not_or] at hrow
        rw [hold' row hrow.2 n, hold₁ row hrow.1 n]

end Mirror

end TableFeed
