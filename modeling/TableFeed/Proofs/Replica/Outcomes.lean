import Mathlib
import TableFeed.Proofs.Client.Dispatch
import TableFeed.Proofs.Replica.Runs
import TableFeed.Proofs.Sink.AtTable
/-!
What becomes of a replica when it takes a response, and what its inputs are told of it. Between two
responses its output shows the schema and the rows that it has.
-/

namespace TableFeed

namespace Batch

/-- The batch of rows that have come. -/
theorem foldl_add (rows : List RowId) (added : RowSet) :
    rows.foldl add { added := added } = { added := added.insertAll rows } := by
  induction rows generalizing added with
  | nil => rfl
  | cons row rows ih => exact ih (added.insert row)

/-- The batch of rows that have gone. -/
theorem foldl_remove (rows : List RowId) (removed : RowSet) :
    rows.foldl remove { removed := removed } = { removed := removed.insertAll rows } := by
  induction rows generalizing removed with
  | nil => rfl
  | cons row rows ih => exact ih (removed.insert row)

/-- The batch of rows that have been written to in some fields. -/
theorem foldl_changeFields (rows : List RowId) (fields : FieldSet) {b : Batch}
    (hadded : b.added = ∅) (hremoved : b.removed = ∅) :
    let b' := rows.foldl (fun b row => b.changeFields row fields) b
    b'.added = ∅ ∧ b'.removed = ∅ ∧ (∀ row ∈ b'.changed.keys, row ∈ b.changed.keys ∨ row ∈ rows) ∧
      ∀ row id, b.Changes row id ∨ row ∈ rows ∧ id ∈ fields → b'.Changes row id := by
  induction rows generalizing b with
  | nil => exact ⟨hadded, hremoved, fun row hrow => .inl hrow, by simp⟩
  | cons row rows ih =>
      have htouches : ∀ other, ¬b.touches other = true := by
        intro other
        rw [touches_iff, hadded, hremoved]
        simp
      obtain ⟨hadded', hremoved', hkeys, hchanges⟩ := ih (b := b.changeFields row fields)
        ((b.added_changeFields row fields).trans hadded)
        ((b.removed_changeFields row fields).trans hremoved)
      refine ⟨hadded', hremoved', fun other hother => ?_, fun other id hother => hchanges other id ?_⟩
      · rcases hkeys other hother with hother | hother
        · rw [AscMap.mem_keys_iff, AscMap.contains, find?_changed_changeFields] at hother
          split at hother
          next hsame => exact .inr (hsame.1 ▸ List.mem_cons_self)
          next => exact .inl (AscMap.mem_keys_iff.mpr hother)
        · exact .inr (List.mem_cons_of_mem row hother)
      · rcases hother with hold | ⟨hrow, hid⟩
        · exact .inl (Changes.changeFields (.inl hold) (htouches other))
        · rcases List.mem_cons.mp hrow with rfl | hrow
          · exact .inl (Changes.changeFields (.inr ⟨rfl, hid⟩) (htouches other))
          · exact .inr ⟨hrow, hid⟩

end Batch

namespace Replica

/-- A replica between two calls: its output shows the rows and the schema that it has. -/
structure Settled (r : Replica) (limit : RowId) : Prop where
  rowLimit : r.rowLimit = limit
  rows : r.publisher.rows = r.rows.live
  schema : r.publisher.schema = r.schema
  kept : r.publisher.replaced = false
  within : ∀ row ∈ r.rows.live, row ≤ limit

/-- What a call that offers a schema, or none, makes of a replica, and what the inputs are told. -/
inductive Outcome (limit : RowId) (offer : Option Layout) (r r' : Replica) : List Notice → Prop
  | same (sheet : r'.sheet = r.sheet) (rows : r'.rows = r.rows) : Outcome limit offer r r' []
  /-- Everything starts over. -/
  | restarts {schema : Option Schema} (sheet : r'.sheet = schema.map .ofSchema)
      (offered : ∀ s, schema = some s → offer = some s.toLayout)
      (rows : ∀ row, row ∉ r'.rows.live) : Outcome limit offer r r' [.schema schema]
  /-- Rows have come. -/
  | gains {sheet sheet' : Sheet} {rows : RowSet} (before : r.sheet = some sheet)
      (after : r'.sheet = some sheet') (schema : sheet'.schema = sheet.schema)
      (new : ∀ row ∈ rows, row ∉ r.rows.live ∧ row ≤ limit)
      (live : ∀ row, row ∈ r'.rows.live ↔ row ∈ r.rows.live ∨ row ∈ rows)
      (kept : ∀ row ∉ rows, ∀ id, sheet'.value? row id = sheet.value? row id) :
      Outcome limit offer r r' (if rows.toList.isEmpty then [] else [.added rows.toList])
  /-- Rows have been written to. -/
  | changes {sheet sheet' : Sheet} {rows : RowSet} {fields : FieldSet}
      (before : r.sheet = some sheet) (after : r'.sheet = some sheet')
      (schema : sheet'.schema = sheet.schema) (there : ∀ row ∈ rows, row ∈ r.rows.live)
      (live : r'.rows = r.rows)
      (kept : ∀ row id, ¬(row ∈ rows ∧ id ∈ fields) → sheet'.value? row id = sheet.value? row id) :
      Outcome limit offer r r' (if rows.toList.isEmpty then [] else [.changed rows.toList fields])
  /-- Rows have gone. -/
  | loses {sheet : Sheet} {rows : RowSet} (before : r.sheet = some sheet)
      (after : r'.sheet = some sheet) (there : ∀ row ∈ rows, row ∈ r.rows.live)
      (live : ∀ row, row ∈ r'.rows.live ↔ row ∈ r.rows.live ∧ row ∉ rows) :
      Outcome limit offer r r' (if rows.toList.isEmpty then [] else [.removed rows.toList])

def Becomes (limit : RowId) (offer : Option Layout) (r : Replica) (x : Replica × List Notice) : Prop :=
  x.1.Settled limit ∧ Outcome limit offer r x.1 x.2

variable {limit : RowId} {offer : Option Layout} {r : Replica}

/-- A schema that a replica has was there before, or it was offered. -/
theorem Outcome.schema {r' : Replica} {ns : List Notice} (ho : Outcome limit offer r r' ns)
    {schema : Schema} (hschema : r'.schema = some schema) :
    r.schema = some schema ∨ offer = some schema.toLayout := by
  rw [Replica.schema] at hschema ⊢
  cases ho with
  | same sheet => exact .inl (sheet ▸ hschema)
  | @restarts given sheet offered =>
      rw [sheet, Option.map_map] at hschema
      refine .inr (offered schema ?_)
      rw [← hschema]
      simp [Function.comp_def]
  | gains before after same => exact .inl (by rw [← hschema, before, after, Option.map_some, ← same]; rfl)
  | changes before after same => exact .inl (by rw [← hschema, before, after, Option.map_some, ← same]; rfl)
  | loses before after => exact .inl (by rw [← hschema, before, after])

namespace Settled

/-- Nothing is told, and the phase is another one at most. -/
theorem becomes_with_phase (hr : r.Settled limit) (phase : Phase) :
    Becomes limit offer r ({ r with phase := phase }, []) :=
  ⟨⟨hr.rowLimit, hr.rows, hr.schema, hr.kept, hr.within⟩, .same rfl rfl⟩

theorem restart (hr : r.Settled limit) (phase : Phase) (schema : Option Schema)
    (offered : ∀ s, schema = some s → offer = some s.toLayout) :
    Becomes limit offer r (r.restart phase (schema.map .ofSchema)) := by
  have hschema : (schema.map Sheet.ofSchema).map Sheet.schema = schema := by
    rw [Option.map_map]
    simp [Function.comp_def]
  have hnotices : (r.restart phase (schema.map .ofSchema)).2 = [.schema schema] := by
    simp only [Replica.restart, publish, Publisher.publish, Publisher.update, hschema]
    cases schema <;> rfl
  have hnone : ∀ row : RowId, row ∉ ({} : RowIds).live := fun row => List.not_mem_nil
  refine ⟨⟨hr.rowLimit, ?_, rfl, rfl, fun row hrow => absurd hrow (hnone row)⟩,
    hnotices ▸ .restarts rfl offered hnone⟩
  cases schema <;> rfl

/-- A batch of rows is told. -/
theorem publish (hr : r.Settled limit) (batch : Batch) {sheet sheet' : Sheet}
    (before : r.sheet = some sheet) (hschema : sheet'.schema = sheet.schema) {ids : RowIds}
    (hlive : ∀ row, row ∈ ids.live ↔
      (row ∈ r.rows.live ∨ row ∈ batch.added) ∧ row ∉ batch.removed)
    (hwithin : ∀ row ∈ ids.live, row ≤ limit) :
    let after : Replica := { r with phase := .live, sheet := some sheet', rows := ids }
    (after.publish batch).1.Settled limit ∧
      (after.publish batch).2 = Publisher.rowNotices batch.added.toList batch.changed.keys.toList
        batch.removed.toList batch.changedFields := by
  intro after
  have hpublish : after.publish batch = ({ after with publisher := { r.publisher with
      rows := (r.publisher.rows.union batch.added).eraseAll batch.removed.toList } },
      Publisher.rowNotices batch.added.toList batch.changed.keys.toList batch.removed.toList
        batch.changedFields) := by
    simp only [Replica.publish, Publisher.publish, after, hr.kept, Bool.false_eq_true, if_false]
  rw [hpublish]
  refine ⟨⟨hr.rowLimit, AscSet.ext_mem fun row => ?_, ?_, hr.kept, hwithin⟩, rfl⟩
  · rw [hlive, AscSet.mem_eraseAll, AscSet.mem_union, hr.rows]
    rfl
  · show r.publisher.schema = some sheet'.schema
    rw [hr.schema, Replica.schema, before, hschema]
    rfl

/-! ### Rows -/

variable {sheet : Sheet} {type : ResponseType} {d : RowData}

theorem apply_insert (hr : r.Settled limit) (hlimit : limit < 0xffffffff)
    (hsheet : r.sheet = some sheet) (htype : type = .init ∨ type = .add)
    (hd : d.WellShaped limit sheet.schema.fields type) (hnew : ∀ row ∈ d.rows, row ∉ r.rows.live) :
    ∃ r' batch, r.apply type sheet d.rows (d.columns.map (writeOf sheet.schema.fields)) =
        (r', .ok batch) ∧
      Becomes limit offer r (({ r' with phase := .live } : Replica).publish batch) := by
  -- only the highest row id cannot be claimed, and the limit is below it
  have hmax : ∀ row ∈ d.rows, row < 0xffffffff := fun row hrow =>
    UInt32.lt_of_le_of_lt (hd.within row hrow) hlimit
  obtain ⟨ids, happly, hids⟩ := applyRows_insert htype hd.distinct hmax r hnew sheet {}
  have hchange : type ≠ .change := by
    rintro rfl
    simp at htype
  have hlive : ∀ row, row ∈ ids.live ↔ row ∈ r.rows.live ∨ row ∈ AscSet.ofList d.rows := by
    intro row
    rw [hids, AscSet.mem_insertAll, AscSet.mem_ofList]
  obtain ⟨sheet', hsheet'⟩ : ∃ sheet', sheet' = applyColumns d.rows
      (d.columns.map (writeOf sheet.schema.fields)) (d.rows.foldl Sheet.resetRow sheet) := ⟨_, rfl⟩
  have hschema : sheet'.schema = sheet.schema := by
    rw [hsheet', schema_applyColumns, Sheet.schema_foldl_resetRow]
  have hkept : ∀ row ∉ d.rows, ∀ id, sheet'.value? row id = sheet.value? row id := by
    intro row hrow id
    rw [← sheet.schema_foldl_resetRow d.rows] at hd hsheet'
    rw [← Sheet.getElem?_record, hsheet', record_applyColumns_of_not_mem _ hd hrow,
      record_foldl_resetRow_of_not_mem sheet hrow, Sheet.getElem?_record]
  have hwithin : ∀ row ∈ ids.live, row ≤ limit := by
    intro row hrow
    rcases (hlive row).mp hrow with hrow | hrow
    · exact hr.within row hrow
    · exact hd.within row (AscSet.mem_ofList.mp hrow)
  obtain ⟨hsettled, hnotices⟩ := hr.publish { added := .ofList d.rows } hsheet hschema
    (fun row => (hlive row).trans (by simp)) hwithin
  refine ⟨_, _, by simp only [apply, happly, if_neg hchange, ← hsheet']; rfl, ?_⟩
  rw [Batch.foldl_add]
  have htold : Publisher.rowNotices (AscSet.ofList d.rows).toList [] [] ∅ =
      if (AscSet.ofList d.rows).toList.isEmpty then [] else [.added (AscSet.ofList d.rows).toList] := by
    simp [Publisher.rowNotices]
  refine ⟨hsettled, (hnotices.trans htold) ▸ .gains hsheet rfl hschema (fun row hrow => ?_) hlive
    fun row hrow => hkept row fun hin => hrow (AscSet.mem_ofList.mpr hin)⟩
  rw [AscSet.mem_ofList] at hrow
  exact ⟨hnew row hrow, hd.within row hrow⟩

theorem apply_change (hr : r.Settled limit) (hsheet : r.sheet = some sheet)
    (hd : d.WellShaped limit sheet.schema.fields .change)
    (hthere : ∀ row ∈ d.rows, row ∈ r.rows.live) :
    ∃ r' batch, r.apply .change sheet d.rows (d.columns.map (writeOf sheet.schema.fields)) =
        (r', .ok batch) ∧
      Becomes limit offer r (({ r' with phase := .live } : Replica).publish batch) := by
  obtain ⟨sheet', hsheet'⟩ : ∃ sheet', sheet' = applyColumns d.rows
      (d.columns.map (writeOf sheet.schema.fields)) sheet := ⟨_, rfl⟩
  obtain ⟨fields, hfields⟩ : ∃ fields : FieldSet, fields =
      .ofList ((d.columns.map (writeOf sheet.schema.fields)).map (·.field)) := ⟨_, rfl⟩
  obtain ⟨batch, hbatch⟩ : ∃ batch : Batch, batch =
      d.rows.foldl (fun b row => b.changeFields row fields) {} := ⟨_, rfl⟩
  obtain ⟨hadded, hremoved, hkeys, hchanges⟩ :=
    Batch.foldl_changeFields d.rows fields (b := {}) rfl rfl
  rw [← hbatch] at hadded hremoved hkeys hchanges
  have hschema : sheet'.schema = sheet.schema := by rw [hsheet', schema_applyColumns]
  have hlisted : ∀ row ∈ batch.changed.keys, row ∈ d.rows := fun row hrow =>
    (hkeys row hrow).resolve_left List.not_mem_nil
  -- a cell that the batch does not name is in a row that the message does not list, or in a field
  -- that it does not send
  have hkept : ∀ row id, ¬(row ∈ batch.changed.keys ∧ id ∈ batch.changedFields) →
      sheet'.value? row id = sheet.value? row id := by
    intro row id hout
    by_cases hrow : row ∈ d.rows
    · have hid : id ∉ fields := fun hid =>
        have hchanged := hchanges row id (.inr ⟨hrow, hid⟩)
        hout ⟨hchanged.mem_keys, hchanged.mem_changedFields⟩
      have hnone : planned? d.rows (d.columns.map (writeOf sheet.schema.fields)) row id = none := by
        rw [hfields, AscSet.mem_ofList] at hid
        rw [planned?, AscMap.lookIn_eq_none_iff.mpr (by rwa [List.map_map]), Option.bind_none]
      rw [hsheet', value?_planned hd, hnone]
      simp
    · rw [← Sheet.getElem?_record, hsheet', record_applyColumns_of_not_mem _ hd hrow,
        Sheet.getElem?_record]
  have hlive : ∀ row, row ∈ r.rows.live ↔
      (row ∈ r.rows.live ∨ row ∈ batch.added) ∧ row ∉ batch.removed := by
    simp [hadded, hremoved]
  obtain ⟨hsettled, hnotices⟩ := hr.publish batch hsheet hschema hlive hr.within
  refine ⟨_, batch, by
    simp only [apply, applyRows_change, if_true, ← hsheet', ← hfields, ← hbatch]
    rfl, ?_⟩
  have htold : Publisher.rowNotices batch.added.toList batch.changed.keys.toList batch.removed.toList
      batch.changedFields = if batch.changed.keys.toList.isEmpty then []
        else [.changed batch.changed.keys.toList batch.changedFields] := by
    have hempty : (∅ : RowSet).toList = [] := rfl
    rw [hadded, hremoved, hempty]
    simp [Publisher.rowNotices]
  exact ⟨hsettled, (hnotices.trans htold) ▸ .changes hsheet rfl hschema
    (fun row hrow => hthere row (hlisted row hrow)) rfl hkept⟩

theorem apply_remove (hr : r.Settled limit) (hsheet : r.sheet = some sheet)
    (hd : d.WellShaped limit sheet.schema.fields .remove)
    (hthere : ∀ row ∈ d.rows, row ∈ r.rows.live) :
    ∃ r' batch, r.apply .remove sheet d.rows (d.columns.map (writeOf sheet.schema.fields)) =
        (r', .ok batch) ∧
      Becomes limit offer r (({ r' with phase := .live } : Replica).publish batch) := by
  obtain ⟨ids, happly, hids⟩ := applyRows_remove hd.distinct r hthere sheet {}
  have hlive : ∀ row, row ∈ ids.live ↔ row ∈ r.rows.live ∧ row ∉ AscSet.ofList d.rows := by
    intro row
    rw [hids, AscSet.mem_eraseAll, AscSet.mem_ofList]
  obtain ⟨hsettled, hnotices⟩ := hr.publish { removed := .ofList d.rows } hsheet rfl
    (fun row => (hlive row).trans (by simp)) fun row hrow => hr.within row ((hlive row).mp hrow).1
  have htold : Publisher.rowNotices [] [] (AscSet.ofList d.rows).toList ∅ =
      if (AscSet.ofList d.rows).toList.isEmpty then []
        else [.removed (AscSet.ofList d.rows).toList] := by
    simp [Publisher.rowNotices]
  refine ⟨_, _, by simp only [apply, happly]; rfl, ?_⟩
  rw [Batch.foldl_remove, hd.bare rfl]
  refine ⟨hsettled, (hnotices.trans htold) ▸ .loses hsheet rfl (fun row hrow => ?_) hlive⟩
  exact hthere row (AscSet.mem_ofList.mp hrow)

/-! ### One response -/

theorem acceptRows (hr : r.Settled limit) (hlimit : limit < 0xffffffff)
    (hsheet : r.sheet = some sheet) (htype : type.carriesRows = true) (d : RowData) :
    Becomes limit offer r ((r.acceptRows type sheet d).1, (r.acceptRows type sheet d).2.1) := by
  have hcheck := r.settles_checkShape type sheet d
  rw [hr.rowLimit] at hcheck
  rw [Replica.acceptRows]
  rcases hcheck with ⟨hd, hok⟩ | ⟨-, e, herr, -⟩
  · rw [hok]
    dsimp only
    cases hconflict : r.conflict type d.rows with
    | some fault => exact hr.becomes_with_phase .failed
    | none =>
        rw [conflict_eq_none_iff] at hconflict
        have happly : ∃ r' batch, r.apply type sheet d.rows
            (d.columns.map (writeOf sheet.schema.fields)) = (r', .ok batch) ∧
              Becomes limit offer r (({ r' with phase := .live } : Replica).publish batch) := by
          have hlive : ∀ row, row ∈ r.rows.live ↔ r.isLive row = true := fun row =>
            decide_eq_true_iff.symm
          cases type with
          | message | schema => cases htype
          | init | add =>
              refine hr.apply_insert hlimit hsheet (by simp) hd fun row hrow hin => ?_
              rw [hlive, hconflict row hrow] at hin
              cases hin
          | change => exact hr.apply_change hsheet hd fun row hrow => (hlive row).mpr (hconflict row hrow)
          | remove => exact hr.apply_remove hsheet hd fun row hrow => (hlive row).mpr (hconflict row hrow)
        obtain ⟨r', batch, happly, hbecomes⟩ := happly
        simp only [happly]
        exact hbecomes
  · rw [herr]
    exact hr.becomes_with_phase r.phase

theorem acceptData (hr : r.Settled limit) (hlimit : limit < 0xffffffff)
    (htype : type.carriesRows = true) (data : Option RowData) :
    Becomes limit offer r ((r.acceptData type data).1, (r.acceptData type data).2.1) := by
  rw [Replica.acceptData.eq_def]
  split
  · exact hr.becomes_with_phase r.phase
  · split
    · exact hr.becomes_with_phase .failed
    · cases hsheet : r.sheet with
      | none => cases data <;> exact hr.becomes_with_phase r.phase
      | some sheet =>
          cases data with
          | none => exact hr.becomes_with_phase r.phase
          | some d => exact hr.acceptRows hlimit hsheet htype d

/-- A response. -/
theorem accept (hr : r.Settled limit) (hlimit : limit < 0xffffffff) (response : Response) :
    Becomes limit response.schema r ((r.accept response).1, (r.accept response).2.1) := by
  rw [Replica.accept]
  split
  · exact hr.becomes_with_phase r.phase
  · cases response.type with
    | message =>
        dsimp only
        split
        · exact hr.becomes_with_phase r.phase
        · dsimp only
          split
          · exact hr.becomes_with_phase r.phase
          · exact hr.becomes_with_phase .failed
    | schema =>
        cases hoffer : response.schema with
        | none => exact hr.becomes_with_phase r.phase
        | some layout =>
            have hlayout := layout.toSchema_eq
            simp only [Replica.acceptSchema]
            split
            · exact hr.becomes_with_phase r.phase
            next schema hschema =>
              refine hr.restart .awaitingInit (some schema) fun s hs => ?_
              cases hs
              rw [hschema] at hlayout
              split at hlayout
              · cases hlayout
                rfl
              · obtain ⟨fault, hfault⟩ := hlayout
                cases hfault
    | init => exact hr.acceptData hlimit rfl response.data
    | add => exact hr.acceptData hlimit rfl response.data
    | change => exact hr.acceptData hlimit rfl response.data
    | remove => exact hr.acceptData hlimit rfl response.data

/-- Forgetting everything. -/
theorem reset (hr : r.Settled limit) : Becomes limit offer r r.reset :=
  hr.restart .awaitingSchema none fun s hs => by cases hs

theorem fresh (sub : Int32) (limit : RowId) :
    ({ subscription := sub, rowLimit := limit } : Replica).Settled limit :=
  ⟨rfl, rfl, rfl, rfl, fun _ hrow => absurd hrow List.not_mem_nil⟩

end Settled

end Replica

/-! ### Calls -/

def Call.offer : Call → Option Layout
  | .accept response => response.schema
  | .reset => none

namespace Replica

def take (r : Replica) : Call → Replica × List Notice
  | .accept response => ((r.accept response).1, (r.accept response).2.1)
  | .reset => r.reset

theorem Settled.take {limit : RowId} {r : Replica} (hr : r.Settled limit)
    (hlimit : limit < 0xffffffff) (c : Call) : Becomes limit c.offer r (r.take c) := by
  cases c with
  | accept response => exact hr.accept hlimit response
  | reset => exact hr.reset

/-- Whatever call a replica takes, its inputs stay. -/
theorem inputs_take (r : Replica) (c : Call) : (r.take c).1.publisher.inputs = r.publisher.inputs := by
  cases c with
  | accept response => exact (r.sameEnds_accept response).2
  | reset => exact (sameEnds_publish _ {}).2

end Replica

end TableFeed
