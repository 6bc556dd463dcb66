import Mathlib
import TableFeed.Proofs.Sink.Service
import TableFeed.Proofs.Table.ShownRows
/-!
A sink at a table. Between two passes the machine shows the rows that the output shows, and of each
the cells that no batch has recorded as changed; a pass brings it up to date, and so does the
replay that a sink gets when it is attached.
-/

namespace TableFeed

theorem AscSet.not_mem_of_nil {α : Type} [Ord α] {s : AscSet α} (h : s.toList = []) (a : α) :
    a ∉ s := by
  rw [← mem_toList, h]
  exact List.not_mem_nil

namespace Batch

def Changes (b : Batch) (row : RowId) (id : FieldId) : Prop :=
  ∃ fields, b.changed.find? row = some fields ∧ id ∈ fields

variable {b : Batch} {row : RowId} {id : FieldId}

theorem Changes.mem_keys (h : b.Changes row id) : row ∈ b.changed.keys := by
  obtain ⟨fields, hfields, -⟩ := h
  exact AscMap.mem_keys_iff.mpr (by rw [AscMap.contains, hfields]; rfl)

theorem mem_foldl_union {sets : List FieldSet} {start : FieldSet} :
    id ∈ sets.foldl AscSet.union start ↔ id ∈ start ∨ ∃ set ∈ sets, id ∈ set := by
  induction sets generalizing start with
  | nil => simp
  | cons set sets ih =>
      rw [List.foldl_cons, ih, AscSet.mem_union, List.exists_mem_cons_iff, or_assoc]

/-- The fields that are told are those changed on some row. -/
theorem mem_changedFields : id ∈ b.changedFields ↔ ∃ row, b.Changes row id := by
  rw [changedFields, mem_foldl_union, or_iff_right AscSet.not_mem_empty]
  constructor
  · rintro ⟨fields, hfields, hid⟩
    obtain ⟨⟨row, set⟩, hrow, rfl⟩ := List.mem_map.mp hfields
    exact ⟨row, set, AscMap.find?_eq_some_iff.mpr hrow, hid⟩
  · rintro ⟨row, fields, hfields, hid⟩
    exact ⟨fields, AscMap.mem_values hfields, hid⟩

theorem Changes.mem_changedFields (h : b.Changes row id) : id ∈ b.changedFields :=
  Batch.mem_changedFields.mpr ⟨row, h⟩

/-- Recording changes keeps those recorded before and adds the new ones, unless the row is touched
otherwise. -/
theorem Changes.changeFields {other : RowId} {fields : FieldSet}
    (h : b.Changes row id ∨ row = other ∧ id ∈ fields) (htouches : ¬b.touches row = true) :
    (b.changeFields other fields).Changes row id := by
  by_cases hnew : other = row ∧ fields.isEmpty = false
  · obtain ⟨rfl, hfields⟩ := hnew
    refine ⟨_, (b.find?_changed_changeFields ..).trans (if_pos ⟨rfl, hfields, htouches⟩), ?_⟩
    rw [AscSet.mem_union]
    rcases h with ⟨old, hold, hid⟩ | ⟨-, hid⟩
    · rw [hold]
      exact .inl hid
    · exact .inr hid
  · rcases h with ⟨old, hold, hid⟩ | ⟨rfl, hid⟩
    · refine ⟨old, ?_, hid⟩
      rw [find?_changed_changeFields, if_neg fun hin => hnew ⟨hin.1, hin.2.1⟩, hold]
    · rw [not_and, Bool.not_eq_false] at hnew
      exact absurd hid (AscSet.not_mem_of_nil (List.isEmpty_iff.mp (hnew rfl)) id)

/-- Removing a row forgets the changes of that row only. -/
theorem Changes.remove {other : RowId} (h : b.Changes row id)
    (hrow : row ∉ (b.remove other).removed) : (b.remove other).Changes row id := by
  by_cases hadded : other ∈ b.added
  · rw [remove_of_added _ _ hadded]
    exact h
  · rw [remove_of_not_added _ _ hadded] at hrow ⊢
    have hne : ¬other = row := fun heq => hrow (AscSet.mem_insert.mpr (.inl heq.symm))
    obtain ⟨fields, hfields, hid⟩ := h
    exact ⟨fields, by rw [AscMap.find?_erase, if_neg hne, hfields], hid⟩

theorem mem_removed_remove {other : RowId} (h : row ∈ b.removed) : row ∈ (b.remove other).removed := by
  rw [remove]
  split
  · exact h
  · exact AscSet.mem_insert.mpr (.inr h)

end Batch

/-! ### Cells by name -/

def Sheet.look (s : Sheet) (row : RowId) (name : String) : Except Error Value :=
  match (s.schema.fieldId? name).bind s.field? with
  | none => .error (.fieldNotFound (.name name))
  | some f => .ok (f.value row)

/-- A table reads the cells of live rows from its sheet. -/
theorem Table.get_eq_look (t : Table) {row : RowId} (hrow : row ∈ t.rows.live) (name : String) :
    t.get row (.name name) = t.sheet.look row name := by
  have hlive : t.isLive row = true := decide_eq_true hrow
  simp only [get, Sheet.look, Sheet.resolve, Schema.require]
  cases hid : t.sheet.schema.fieldId? name with
  | none => rfl
  | some id =>
      obtain ⟨f, hf, -⟩ := t.sheet.exists_field? id hid
      show (match t.sheet.field? id with | none => _ | some f => _) = _
      rw [Option.bind_some, hf]
      simp only [hlive, if_true]
      rfl

namespace Sink

/-- A sink that is live, and a machine that shows of some rows what a sheet holds. -/
structure Shows (s : Sink) (sheet : Sheet) (live : RowSet) (ids : List FieldId) (m : Mirror) :
    Prop where
  tracks : s.Tracks sheet.schema ids .live m
  rows : ∀ row, m.rows.contains row = true ↔ row ∈ live
  cells : ∀ row ∈ live, ∀ n id, ids[n]? = some id → m.cell? row n = sheet.value? row id

/-- A sink that is live at a table, and a machine that shows what the table shows, but for the cells
whose changes wait for the next pass. -/
structure Serves (s : Sink) (t : Table) (ids : List FieldId) (m : Mirror) : Prop where
  tracks : s.Tracks t.shown.schema ids .live m
  rows : ∀ row, m.rows.contains row = true ↔ row ∈ t.publisher.rows
  cells : ∀ row ∈ t.publisher.rows, row ∉ t.batch.removed → ∀ n id, ids[n]? = some id →
    ¬t.batch.Changes row id → m.cell? row n = t.shown.value? row id

variable {limit : RowId} {m : Mirror} {s : Sink} {ids : List FieldId}

/-- A schema and all rows, from wherever the sink was. -/
theorem answered_start (hs : s.phase ≠ .failed) {sheet : Sheet} (hserve : s.CanServe sheet.schema)
    {rows : RowSet} (hlimit : ∀ row ∈ rows, row ≤ limit) :
    Answered limit m (s.hearAll rows.size sheet
      (.schema (some sheet.schema) :: if rows.isEmpty then [] else [.added rows.toList]))
      fun s' m' => ∃ ids, s'.Shows sheet rows ids m' := by
  rw [← List.singleton_append]
  refine answered_append (P := fun s' m' => ∃ ids,
      s'.Tracks sheet.schema ids (if rows.size = 0 then .live else .awaitingInit) m' ∧
        ∀ row, m'.rows.contains row = false) ?_ ?_
  · rw [hearAll_one]
    exact answered_schema hs hserve rfl rows.size
  · rintro s' m' ⟨ids, htracks, hempty⟩
    have hphase : s'.phase ≠ .failed := by
      rw [htracks.phase]
      split <;> exact Phase.noConfusion
    refine answered_rows hphase (fun hnone => ?_) ?_
    · have hsize : rows.size = 0 := by rw [AscSet.size, hnone, List.length_nil]
      have hnot := AscSet.not_mem_of_nil hnone
      rw [if_pos hsize] at htracks
      refine ⟨ids, htracks, fun row => ?_, fun row hrow => absurd hrow (hnot row)⟩
      simp [hempty row, hnot row]
    · refine (htracks.answered_added limit _ rfl (by split <;> simp) (AscSet.nodup_toList rows) hlimit
        fun row _ => hempty row).mono ?_
      rintro s'' m'' ⟨htracks', hrows, hcells, -⟩
      refine ⟨ids, htracks', fun row => ?_, fun row hrow n id hid => ?_⟩
      · rw [hrows, hempty row]
        simp
      · rw [hcells row hrow n, hid]
        rfl

theorem Tracks.goes_on {schema : Schema} (h : s.Tracks schema ids .live m) :
    s.phase ≠ .failed := by
  rw [h.phase]
  exact Phase.noConfusion

theorem Tracks.value? {sheet : Sheet} (h : s.Tracks sheet.schema ids .live m) (row : RowId) {n : Nat}
    {id : FieldId} (hid : ids[n]? = some id) : ∃ v, sheet.value? row id = some v := by
  obtain ⟨-, v, -, hv, -⟩ := RowData.value?_of_sent h.toProjects (.refl _) rfl
    (RowData.mem_numbered (f := (id, n)).mpr hid) row
  exact ⟨v, hv⟩

/-! ### Rows that come, are written to and go -/

/-- A sink that is live, and a machine that has the rows in `live` and shows what a sheet holds in the
cells in `known`. -/
structure Covers (s : Sink) (sheet : Sheet) (live : RowId → Prop) (known : RowId → FieldId → Prop)
    (ids : List FieldId) (m : Mirror) : Prop where
  tracks : s.Tracks sheet.schema ids .live m
  rows : ∀ row, m.rows.contains row = true ↔ live row
  cells : ∀ row n id, ids[n]? = some id → known row id → m.cell? row n = sheet.value? row id

namespace Covers

variable {sheet sheet' : Sheet} {live live' : RowId → Prop} {known known' : RowId → FieldId → Prop}

theorem mono (h : s.Covers sheet live known ids m) (hlive : ∀ row, live' row ↔ live row)
    (hknown : ∀ row id, known' row id → known row id) : s.Covers sheet live' known' ids m :=
  ⟨h.tracks, fun row => (h.rows row).trans (hlive row).symm, fun row n id hid hrow =>
    h.cells row n id hid (hknown row id hrow)⟩

/-- New rows come, and all their cells with them. -/
theorem answered_added (h : s.Covers sheet live known ids m) (hschema : sheet'.schema = sheet.schema)
    {rows : RowSet} (hnew : ∀ row ∈ rows, ¬live row ∧ row ≤ limit)
    (hkept : ∀ row id, known row id → row ∉ rows → sheet'.value? row id = sheet.value? row id)
    (size : Nat) :
    Answered limit m (s.hearAll size sheet'
      (if rows.toList.isEmpty then [] else [.added rows.toList]))
      fun s' m' => s'.Covers sheet' (fun row => live row ∨ row ∈ rows)
        (fun row id => row ∈ rows ∨ known row id) ids m' := by
  have htracks : s.Tracks sheet'.schema ids .live m := hschema ▸ h.tracks
  refine answered_rows htracks.goes_on (fun hnone => ?_) ?_
  · have hnot := AscSet.not_mem_of_nil hnone
    refine ⟨htracks, fun row => (h.rows row).trans (by simp [hnot row]), fun row n id hid hrow => ?_⟩
    have hold := hrow.resolve_left (hnot row)
    exact (h.cells row n id hid hold).trans (hkept row id hold (hnot row)).symm
  · refine (htracks.answered_added limit size rfl (.inr rfl) (AscSet.nodup_toList rows)
      (fun row hrow => (hnew row hrow).2) fun row hrow => ?_).mono ?_
    · exact Bool.eq_false_iff.mpr fun hin => (hnew row hrow).1 ((h.rows row).mp hin)
    · rintro s' m' ⟨htracks', hrows, hcells, hothers⟩
      refine ⟨htracks', fun row => ?_, fun row n id hid hrow => ?_⟩
      · rw [hrows, h.rows]
        rfl
      · by_cases hin : row ∈ rows
        · rw [hcells row hin n, hid]
          rfl
        · have hold := hrow.resolve_left hin
          rw [hothers row hin n, h.cells row n id hid hold, hkept row id hold hin]

/-- Some cells of some rows are written to. -/
theorem answered_changed (h : s.Covers sheet live known ids m)
    (hschema : sheet'.schema = sheet.schema) {rows : RowSet}
    (hthere : ∀ row ∈ rows, live row ∧ row ≤ limit) {fields : FieldSet}
    (hkept : ∀ row id, known row id → ¬(row ∈ rows ∧ id ∈ fields) →
      sheet'.value? row id = sheet.value? row id) (size : Nat) :
    Answered limit m (s.hearAll size sheet'
      (if rows.toList.isEmpty then [] else [.changed rows.toList fields]))
      fun s' m' => s'.Covers sheet' live
        (fun row id => row ∈ rows ∧ id ∈ fields ∨ known row id) ids m' := by
  have htracks : s.Tracks sheet'.schema ids .live m := hschema ▸ h.tracks
  have hold : ∀ row n id, ids[n]? = some id → known row id → ¬(row ∈ rows ∧ id ∈ fields) →
      m.cell? row n = sheet'.value? row id := fun row n id hid hrow hout =>
    (h.cells row n id hid hrow).trans (hkept row id hrow hout).symm
  refine answered_rows htracks.goes_on (fun hnone => ?_) ?_
  · have hnot : ∀ row id, ¬(row ∈ rows ∧ id ∈ fields) := fun row id hin =>
      AscSet.not_mem_of_nil hnone row hin.1
    exact ⟨htracks, h.rows, fun row n id hid hrow =>
      hold row n id hid (hrow.resolve_left (hnot row id)) (hnot row id)⟩
  · refine (htracks.answered_changed rfl (AscSet.nodup_toList rows)
      (fun row hrow => (hthere row hrow).2)
      (fun row hrow => (h.rows row).mpr (hthere row hrow).1) fields).mono ?_
    rintro s' m' ⟨htracks', hrows, hcells, hothers⟩
    refine ⟨htracks', fun row => ?_, fun row n id hid hrow => ?_⟩
    · rw [hrows]
      exact h.rows row
    · by_cases hsent : row ∈ rows ∧ id ∈ fields
      · exact hcells row hsent.1 n id hid hsent.2
      · obtain ⟨v, hv⟩ := htracks.value? row hid
        rw [hv]
        refine hothers row n id v hid (not_and.mp hsent) ?_
        rw [← hv]
        exact hold row n id hid (hrow.resolve_left hsent) hsent

/-- Rows go. -/
theorem answered_removed (h : s.Covers sheet live known ids m) {rows : RowSet}
    (hthere : ∀ row ∈ rows, live row ∧ row ≤ limit) (size : Nat) :
    Answered limit m (s.hearAll size sheet
      (if rows.toList.isEmpty then [] else [.removed rows.toList]))
      fun s' m' => s'.Covers sheet (fun row => live row ∧ row ∉ rows)
        (fun row id => known row id ∧ row ∉ rows) ids m' := by
  refine answered_rows h.tracks.goes_on (fun hnone => ?_) ?_
  · have hnot := AscSet.not_mem_of_nil hnone
    exact h.mono (fun row => and_iff_left (hnot row)) fun row id hrow => hrow.1
  · refine (h.tracks.answered_removed (AscSet.nodup_toList rows)
      (fun row hrow => (hthere row hrow).2)
      fun row hrow => (h.rows row).mpr (hthere row hrow).1).mono ?_
    rintro s' m' ⟨htracks, hrows, hothers⟩
    refine ⟨htracks, fun row => ?_, fun row n id hid hrow => ?_⟩
    · rw [hrows, h.rows]
      rfl
    · rw [hothers row hrow.2 n]
      exact h.cells row n id hid hrow.1

end Covers

theorem shows_iff_covers {sheet : Sheet} {live : RowSet} :
    s.Shows sheet live ids m ↔ s.Covers sheet (· ∈ live) (fun row _ => row ∈ live) ids m :=
  ⟨fun h => ⟨h.tracks, h.rows, fun row n id hid hrow => h.cells row hrow n id hid⟩,
    fun h => ⟨h.tracks, h.rows, fun row hrow n id hid => h.cells row n id hid hrow⟩⟩

/-! ### Passes -/

/-- In the middle of a pass: the new rows are told, the removals are not. What is left of the cells
to be told is `stale`. -/
structure Halfway (s : Sink) (t : Table) (ids : List FieldId) (stale : RowId → FieldId → Prop)
    (m : Mirror) : Prop where
  tracks : s.Tracks t.sheet.schema ids .live m
  rows : ∀ row, m.rows.contains row = true ↔ row ∈ t.publisher.rows ∨ row ∈ t.batch.added
  cells : ∀ row ∈ t.rows.live, ∀ n id, ids[n]? = some id → ¬stale row id →
    m.cell? row n = t.sheet.value? row id

variable {t : Table}

theorem halfway_iff_covers {stale : RowId → FieldId → Prop} :
    s.Halfway t ids stale m ↔ s.Covers t.sheet (fun row => row ∈ t.publisher.rows ∨ row ∈ t.batch.added)
      (fun row id => row ∈ t.rows.live ∧ ¬stale row id) ids m :=
  ⟨fun h => ⟨h.tracks, h.rows, fun row n id hid hrow => h.cells row hrow.1 n id hid hrow.2⟩,
    fun h => ⟨h.tracks, h.rows, fun row hrow n id hid hout => h.cells row n id hid ⟨hrow, hout⟩⟩⟩

theorem Serves.answered_additions (h : s.Serves t ids m) (hc : t.Coherent)
    (hkept : t.publisher.replaced = false) (hlive : ∀ row ∈ t.rows.live, row ≤ limit)
    (rows : Nat) :
    Answered limit m (s.hearAll rows t.sheet
      (if t.batch.added.toList.isEmpty then [] else [.added t.batch.added.toList]))
      fun s' m' => s'.Halfway t ids t.batch.Changes m' := by
  have hcovers : s.Covers t.sheet (· ∈ t.publisher.rows) (fun row id => row ∈ t.publisher.rows ∧
      row ∉ t.batch.removed ∧ ¬t.batch.Changes row id) ids m := by
    rw [← hc.shown_eq hkept]
    exact ⟨h.tracks, h.rows, fun row n id hid hrow => h.cells row hrow.1 hrow.2.1 n id hid hrow.2.2⟩
  have hnew : ∀ row ∈ t.batch.added, row ∉ t.publisher.rows ∧ row ≤ limit := fun row hrow =>
    ⟨hc.added_hidden row hrow, hlive row ((hc.live_iff row).mpr (.inr hrow))⟩
  refine (hcovers.answered_added rfl hnew (fun _ _ _ _ => rfl) rows).mono fun s' m' h' => ?_
  refine halfway_iff_covers.mpr (h'.mono (fun row => .rfl) fun row id hrow => ?_)
  rcases (hc.live_iff row).mp hrow.1 with ⟨hpub, hremoved⟩ | hadded
  · exact .inr ⟨hpub, hremoved, hrow.2⟩
  · exact .inl hadded

theorem Halfway.answered_changes (h : s.Halfway t ids t.batch.Changes m) (hc : t.Coherent)
    (hshown : ∀ row ∈ t.publisher.rows, row ≤ limit) (rows : Nat) :
    Answered limit m (s.hearAll rows t.sheet
      (if t.batch.changed.keys.toList.isEmpty then []
        else [.changed t.batch.changed.keys.toList t.batch.changedFields]))
      fun s' m' => s'.Halfway t ids (fun _ _ => False) m' := by
  have hthere : ∀ row ∈ t.batch.changed.keys,
      (row ∈ t.publisher.rows ∨ row ∈ t.batch.added) ∧ row ≤ limit := by
    intro row hrow
    have hpub := (hc.changed_shown row (AscMap.mem_keys_iff.mp hrow)).1
    exact ⟨.inl hpub, hshown row hpub⟩
  refine ((halfway_iff_covers.mp h).answered_changed rfl hthere (fun _ _ _ _ => rfl) rows).mono
    fun s' m' h' => halfway_iff_covers.mpr (h'.mono (fun row => .rfl) fun row id hrow => ?_)
  by_cases hchanges : t.batch.Changes row id
  · exact .inl ⟨hchanges.mem_keys, hchanges.mem_changedFields⟩
  · exact .inr ⟨hrow.1, hchanges⟩

theorem Halfway.answered_removals (h : s.Halfway t ids (fun _ _ => False) m) (hc : t.Coherent)
    (hshown : ∀ row ∈ t.publisher.rows, row ≤ limit) (rows : Nat) :
    Answered limit m (s.hearAll rows t.sheet
      (if t.batch.removed.toList.isEmpty then [] else [.removed t.batch.removed.toList]))
      fun s' m' => s'.Shows t.sheet t.rows.live ids m' := by
  have hlive : ∀ row, row ∈ t.rows.live ↔
      (row ∈ t.publisher.rows ∨ row ∈ t.batch.added) ∧ row ∉ t.batch.removed := by
    intro row
    rw [hc.live_iff]
    have hadded := hc.added_hidden row
    have hremoved := hc.removed_shown row
    tauto
  have hthere : ∀ row ∈ t.batch.removed,
      (row ∈ t.publisher.rows ∨ row ∈ t.batch.added) ∧ row ≤ limit := fun row hrow =>
    ⟨.inl (hc.removed_shown row hrow), hshown row (hc.removed_shown row hrow)⟩
  refine ((halfway_iff_covers.mp h).answered_removed hthere rows).mono fun s' m' h' =>
    shows_iff_covers.mpr (h'.mono hlive fun row id hrow => ?_)
  exact ⟨⟨hrow, not_false⟩, ((hlive row).mp hrow).2⟩

/-- The next pass: afterwards the machine shows the table's live rows as they are. -/
theorem Serves.answered_pass (h : s.Serves t ids m) (hc : t.Coherent)
    (hsize : t.schema.size ≤ 0x100000000 ∨ s.encoder.limit ≤ 0x100000000)
    (hlive : ∀ row ∈ t.rows.live, row ≤ limit) (hshown : ∀ row ∈ t.publisher.rows, row ≤ limit) :
    Answered limit m (s.hearAll t.rows.live.size t.sheet t.pass.notices) fun s' m' =>
      ∃ ids, s'.Shows t.sheet t.rows.live ids m' := by
  by_cases hreplaced : t.publisher.replaced = true
  · have hnotices : t.pass.notices = .schema (some t.sheet.schema) ::
        if t.rows.live.isEmpty then [] else [.added t.rows.live.toList] := by
      simp [Table.pass, hreplaced, Pass.notices, Table.schema, AscSet.isEmpty]
    rw [hnotices]
    exact answered_start h.tracks.goes_on ⟨h.tracks.canServe.distinct, hsize⟩ hlive
  · have hnotices : t.pass.notices =
        (if t.batch.added.toList.isEmpty then [] else [.added t.batch.added.toList]) ++
          ((if t.batch.changed.keys.toList.isEmpty then []
            else [.changed t.batch.changed.keys.toList t.batch.changedFields]) ++
          if t.batch.removed.toList.isEmpty then [] else [.removed t.batch.removed.toList]) := by
      simp [Table.pass, hreplaced, Pass.notices]
    rw [hnotices]
    have hkept := Bool.eq_false_iff.mpr hreplaced
    refine answered_append (h.answered_additions hc hkept hlive _) fun s₁ m₁ h₁ => ?_
    refine answered_append (h₁.answered_changes hc hshown _) fun s₂ m₂ h₂ => ?_
    exact (h₂.answered_removals hc hshown _).mono fun s' m' h' => ⟨ids, h'⟩

/-! ### From pass to pass -/

/-- After a pass the machine is up to date, and the removed rows can be cleared. -/
theorem Shows.serves_fire (h : s.Shows t.sheet t.rows.live ids m) (hc : t.Coherent) :
    s.Serves t.fire.1 ids m := by
  have hsheet : t.fire.1.shown = t.rows.retired.foldl Sheet.resetRow t.sheet := rfl
  have hrows : t.fire.1.publisher.rows = t.rows.live := hc.rows_publish
  refine ⟨?_, fun row => ?_, fun row hrow _ n id hid _ => ?_⟩
  · have hschema : t.fire.1.shown.schema = t.sheet.schema := t.sheet.schema_foldl_resetRow _
    rw [hschema]
    exact h.tracks
  · rw [hrows]
    exact h.rows row
  · rw [hrows] at hrow
    rw [h.cells row hrow n id hid, hsheet, Sheet.value?_foldl_resetRow]
    simp [hc.sound.notRetired row hrow]

/-- A sink that was just attached has been told what the output shows. -/
theorem Shows.toServes (h : s.Shows t.shown t.publisher.rows ids m) : s.Serves t ids m :=
  ⟨h.tracks, h.rows, fun row hrow _ n id hid _ => h.cells row hrow n id hid⟩

/-- What the owner does to the table in between leaves the machine as current as the batch says. -/
theorem Serves.move {t' : Table} (h : s.Serves t ids m) (hc : t.Coherent) (hmove : Move t t') :
    s.Serves t' ids m := by
  cases hmove with
  | idle sound live retired schema kept =>
      refine ⟨?_, h.rows, fun row hrow hremoved n id hid hchanges => ?_⟩
      · exact (Table.schema_shown t schema).symm ▸ h.tracks
      · rw [h.cells row hrow hremoved n id hid hchanges]
        exact (t.value?_shown (kept row ((hc.live_iff row).mpr (.inl ⟨hrow, hremoved⟩)) id)).symm
  | @added row sheet ids' sound new unused live retired rewrites =>
      refine ⟨?_, h.rows, fun other hother hremoved n id hid hchanges => ?_⟩
      · exact (Table.schema_shown t rewrites.schema).symm ▸ h.tracks
      · have hne : other ≠ row := fun heq => (hc.not_removed_of_not_live new unused).1 (heq ▸ hother)
        have hremoved' : other ∉ t.batch.removed := fun hin =>
          hremoved ((Batch.mem_removed_add ..).mpr ⟨hne, hin⟩)
        have hchanges' : ¬t.batch.Changes other id := by
          rintro ⟨fields, hfields, hin⟩
          refine hchanges ⟨fields, ?_, hin⟩
          rw [Batch.find?_changed_add, if_neg (Ne.symm hne), hfields]
        rw [h.cells other hother hremoved' n id hid hchanges']
        exact (t.value?_shown (rewrites.kept other id fun hin => hne hin.1)).symm
  | @changed row sheet fields there rewrites =>
      refine ⟨?_, h.rows, fun other hother hremoved n id hid hchanges => ?_⟩
      · exact (Table.schema_shown t rewrites.schema).symm ▸ h.tracks
      · rw [Batch.removed_changeFields] at hremoved
        have htouches : ¬t.batch.touches other = true := by
          rw [Batch.touches_iff, not_or]
          exact ⟨fun hin => hc.added_hidden other hin hother, hremoved⟩
        have hchanges' := not_or.mp fun hin => hchanges (Batch.Changes.changeFields hin htouches)
        rw [h.cells other hother hremoved n id hid hchanges'.1]
        exact (t.value?_shown (rewrites.kept other id hchanges'.2)).symm
  | @removed row ids' sound there live retired =>
      refine ⟨h.tracks, h.rows, fun other hother hremoved n id hid hchanges => ?_⟩
      exact h.cells other hother (mt Batch.mem_removed_remove hremoved) n id hid
        fun hin => hchanges (hin.remove hremoved)
  | replaced schema =>
      -- the sheet that was shown is shelved
      exact ⟨h.tracks, h.rows, h.cells⟩

/-! ### Reading -/

/-- Nothing of a table waits for a pass: the machine shows what the table shows. -/
theorem Serves.shows_shown (h : s.Serves t ids m) (hbatch : t.batch = {}) :
    s.Shows t.shown t.publisher.rows ids m := by
  refine ⟨h.tracks, h.rows, fun row hrow n id hid => h.cells row hrow ?_ n id hid ?_⟩
  · rw [hbatch]
    exact AscSet.not_mem_empty
  · rintro ⟨fields, hfields, -⟩
    rw [hbatch] at hfields
    cases hfields

/-- A sink is up to date at a table that has nothing to tell. -/
theorem Serves.toShows (h : s.Serves t ids m) (hc : t.Coherent) (hbatch : t.batch = {})
    (hkept : t.publisher.replaced = false) : s.Shows t.sheet t.rows.live ids m := by
  have hrows : t.publisher.rows = t.rows.live := AscSet.ext_mem fun row => by
    rw [hc.live_iff, hbatch]
    simp
  rw [← hc.shown_eq hkept, ← hrows]
  exact h.shows_shown hbatch

theorem Shows.keys_eq (h : s.Shows t.sheet t.rows.live ids m) : m.rows.keys = t.rows.live := by
  refine AscSet.ext_mem fun row => ?_
  rw [AscMap.mem_keys_iff, h.rows]

/-- A machine reads a cell as the sheet does, if it has got the value. -/
theorem Tracks.get_eq {sheet : Sheet} (h : s.Tracks sheet.schema ids .live m) {row : RowId}
    {name : String} (hname : ∀ names, s.encoder.requested = some names → name ∈ names)
    (hcell : ∀ n id, ids[n]? = some id → sheet.schema.fieldId? name = some id →
      m.cell? row n = sheet.value? row id) : m.get row name = sheet.look row name := by
  obtain ⟨schema, hschema, hlayout⟩ := Option.map_eq_some_iff.mp h.knows
  obtain rfl : schema = h.toSelects.announced := Schema.toLayout_injective hlayout
  rw [Sheet.look]
  simp only [Mirror.get, hschema]
  cases hn : h.toSelects.announced.fieldId? name with
  | none =>
      rw [Encoder.fieldId?_eq_none h.resolved h.toSelects hname hn]
      rw [Schema.fieldId?] at hn
      rw [hn]
      rfl
  | some n =>
      obtain ⟨id, hid, hfound⟩ := h.toSelects.fieldId?_announced hn
      obtain ⟨v, hv⟩ := h.value? row hid
      obtain ⟨f, hf, hvalue⟩ := Option.map_eq_some_iff.mp hv
      have hread := hcell n id hid hfound
      rw [Mirror.cell?, hv] at hread
      rw [Schema.fieldId?] at hn
      rw [hfound, hn, Option.bind_some, hf]
      simp only [hread, Option.getD_some, hvalue]

/-- Machines that know the fields asked for under one schema know the same. -/
theorem Tracks.congr {s' : Sink} {schema : Schema} {p p' : Phase} {ids' : List FieldId} {m' : Mirror}
    (h : s.Tracks schema ids p m) (h' : s'.Tracks schema ids' p' m')
    (hsame : s.encoder.requested = s'.encoder.requested) : ids' = ids ∧ m'.schema = m.schema := by
  have hresolve : s.encoder.resolve schema = s'.encoder.resolve schema := by
    rw [Encoder.resolve, Encoder.resolve, hsame]
  obtain rfl : ids' = ids :=
    Except.ok.inj (h'.resolved.symm.trans (hresolve.symm.trans h.resolved))
  exact ⟨rfl, Option.map_injective (fun _ _ => Schema.toLayout_injective) (h'.knows.trans h.knows.symm)⟩

/-- If they have the same rows, they read a cell alike where the sheets that they show do. -/
theorem Shows.get_congr {s' : Sink} {sheet sheet' : Sheet} {rows : RowSet} {ids' : List FieldId}
    {m' : Mirror} (h : s.Shows sheet rows ids m) (h' : s'.Shows sheet' rows ids' m')
    (hschema : sheet'.schema = sheet.schema) (hsame : s.encoder.requested = s'.encoder.requested)
    {row : RowId} {name : String}
    (hlook : row ∈ rows → (∀ names, s.encoder.requested = some names → name ∈ names) →
      sheet.look row name = sheet'.look row name) : m.get row name = m'.get row name := by
  obtain ⟨-, hknows⟩ := h.tracks.congr (hschema ▸ h'.tracks) hsame
  by_cases hrow : row ∈ rows
  · obtain ⟨schema, hm, hlayout⟩ := Option.map_eq_some_iff.mp h.tracks.knows
    obtain rfl : schema = h.tracks.toSelects.announced := Schema.toLayout_injective hlayout
    cases hn : h.tracks.toSelects.announced.fieldId? name with
    | none =>
        -- neither has such a field
        rw [Schema.fieldId?] at hn
        simp only [Mirror.get, hknows, hm, hn]
    | some n =>
        have hname : ∀ names, s.encoder.requested = some names → name ∈ names := fun _ =>
          Encoder.mem_requested h.tracks.resolved h.tracks.toSelects hn
        rw [h.tracks.get_eq hname fun n id hid _ => h.cells row hrow n id hid,
          h'.tracks.get_eq (fun names hnames => hname names (hsame.trans hnames))
            fun n id hid _ => h'.cells row hrow n id hid]
        exact hlook hrow hname
  · -- neither has the row
    have hnone : ∀ {s : Sink} {sheet : Sheet} {ids : List FieldId} {m : Mirror},
        s.Shows sheet rows ids m → m.rows.find? row = none := fun hshows =>
      Option.not_isSome_iff_eq_none.mp (mt (hshows.rows row).mp hrow)
    simp only [Mirror.get, hknows, hnone h, hnone h']

/-- A cell of a live row reads the same at the machine and at the table. -/
theorem Shows.get_eq (h : s.Shows t.sheet t.rows.live ids m) {row : RowId}
    (hrow : row ∈ t.rows.live) {name : String}
    (hname : ∀ names, s.encoder.requested = some names → name ∈ names) :
    m.get row name = t.get row (.name name) :=
  (h.tracks.get_eq hname fun n id hid _ => h.cells row hrow n id hid).trans
    (t.get_eq_look hrow name).symm

/-- A cell reads the same at the machine and at what the table shows, unless a change of it waits. -/
theorem Serves.get_eq (h : s.Serves t ids m) {row : RowId} (hrow : row ∈ t.publisher.rows)
    (hremoved : row ∉ t.batch.removed) {name : String}
    (hname : ∀ names, s.encoder.requested = some names → name ∈ names)
    (hkept : ∀ id, t.shown.schema.fieldId? name = some id → ¬t.batch.Changes row id) :
    m.get row name = t.shown.look row name :=
  h.tracks.get_eq hname fun n id hid hfound => h.cells row hrow hremoved n id hid (hkept id hfound)

end Sink

end TableFeed
