import Mathlib
import TableFeed.Proofs.Table.Operations
/-!
What a table and its output agree on between two operations. The rows shown, corrected by what the
batch has recorded, are the live rows; every move keeps this up, and a pass makes both equal.
-/

namespace TableFeed

/-- The batch accounts for every difference between the live rows and the rows shown. -/
structure Table.Coherent (t : Table) : Prop where
  sound : t.rows.Sound
  live_iff : ∀ row, row ∈ t.rows.live ↔
    (row ∈ t.publisher.rows ∧ row ∉ t.batch.removed) ∨ row ∈ t.batch.added
  added_hidden : ∀ row ∈ t.batch.added, row ∉ t.publisher.rows
  removed_shown : ∀ row ∈ t.batch.removed, row ∈ t.publisher.rows
  changed_shown : ∀ row, t.batch.changed.contains row = true →
    row ∈ t.publisher.rows ∧ row ∉ t.batch.removed
  /-- An id is out of use as long as its removal has not been told. -/
  removed_retired : ∀ row ∈ t.batch.removed, row ∈ t.rows.retired
  shown : t.publisher.schema = some t.shown.schema
  latest : t.publisher.latest = some t.schema
  shelved : t.publisher.replaced = t.shelved.isSome

/-- What one pass tells. Parts without rows are left out, as is the schema if it stays. -/
structure Pass where
  schema : Option Schema := none
  added : List RowId := []
  changed : List RowId := []
  removed : List RowId := []
  fields : FieldSet := ∅

def Pass.notices (p : Pass) : List Notice :=
  (p.schema.toList.map fun s => .schema (some s)) ++
    (if p.added.isEmpty then [] else [.added p.added]) ++
    (if p.changed.isEmpty then [] else [.changed p.changed p.fields]) ++
    (if p.removed.isEmpty then [] else [.removed p.removed])

namespace Table

def pass (t : Table) : Pass :=
  if t.publisher.replaced then { schema := some t.schema, added := t.rows.live.toList }
  else
    { added := t.batch.added.toList, changed := t.batch.changed.keys.toList,
      removed := t.batch.removed.toList, fields := t.batch.changedFields }

theorem schema_shown (t : Table) {sheet : Sheet} (h : sheet.schema = t.sheet.schema) :
    (t.shelved.getD sheet).schema = t.shown.schema := by
  rw [shown]
  cases t.shelved with
  | none => exact h
  | some old => rfl

/-- A sheet that is shelved does not change. -/
theorem value?_shown (t : Table) {sheet : Sheet} {row : RowId} {id : FieldId}
    (h : sheet.value? row id = t.sheet.value? row id) :
    (t.shelved.getD sheet).value? row id = t.shown.value? row id := by
  rw [shown]
  cases t.shelved with
  | none => exact h
  | some old => rfl

theorem coherent_create (schema : Schema) : (create schema).Coherent := by
  refine ⟨RowIds.sound_empty, ?_, ?_, ?_, ?_, ?_, ?_, ?_, rfl⟩
  · intro row
    constructor
    · intro h
      exact absurd h AscSet.not_mem_empty
    · rintro (⟨h, -⟩ | h) <;> exact absurd h AscSet.not_mem_empty
  · intro row h
    exact absurd h AscSet.not_mem_empty
  · intro row h
    exact absurd h AscSet.not_mem_empty
  · intro row h
    cases h
  · intro row h
    exact absurd h AscSet.not_mem_empty
  · exact congrArg some (Sheet.schema_ofSchema schema).symm
  · exact congrArg some (Sheet.schema_ofSchema schema).symm

namespace Coherent

variable {t t' : Table}

/-! ### Moves -/

theorem not_removed_of_not_live (h : t.Coherent) {row : RowId} (hlive : row ∉ t.rows.live)
    (hretired : row ∉ t.rows.retired) : row ∉ t.publisher.rows ∧ row ∉ t.batch.removed := by
  have hremoved : row ∉ t.batch.removed := fun hmem => hretired (h.removed_retired row hmem)
  exact ⟨fun hmem => hlive ((h.live_iff row).mpr (.inl ⟨hmem, hremoved⟩)), hremoved⟩

theorem added (h : t.Coherent) {row : RowId} {sheet : Sheet} {ids : RowIds} (sound : ids.Sound)
    (new : row ∉ t.rows.live) (unused : row ∉ t.rows.retired)
    (live : ids.live = t.rows.live.insert row) (retired : ids.retired = t.rows.retired)
    (schema : sheet.schema = t.sheet.schema) :
    Coherent { t with sheet := sheet, rows := ids, batch := t.batch.add row } := by
  obtain ⟨hhidden, hremoved⟩ := h.not_removed_of_not_live new unused
  refine ⟨sound, fun other => ?_, fun other hother => ?_, fun other hother => ?_,
    fun other hother => ?_, fun other hother => ?_, ?_, ?_, h.shelved⟩
  · rw [live, AscSet.mem_insert, h.live_iff, Batch.mem_removed_add, Batch.mem_added_add]
    by_cases hrow : other = row
    · simp [hrow]
    · simp [hrow]
  · rcases (Batch.mem_added_add ..).mp hother with rfl | hother
    · exact hhidden
    · exact h.added_hidden other hother
  · exact h.removed_shown other ((Batch.mem_removed_add ..).mp hother).2
  · rw [AscMap.contains, Batch.find?_changed_add] at hother
    split at hother
    · cases hother
    · obtain ⟨hpub, hrem⟩ := h.changed_shown other hother
      exact ⟨hpub, fun hmem => hrem ((Batch.mem_removed_add ..).mp hmem).2⟩
  · rw [retired]
    exact h.removed_retired other ((Batch.mem_removed_add ..).mp hother).2
  · exact h.shown.trans (congrArg some (schema_shown t schema).symm)
  · exact h.latest.trans (congrArg some schema.symm)

theorem changed (h : t.Coherent) {row : RowId} {sheet : Sheet} {fields : FieldSet}
    (there : row ∈ t.rows.live) (schema : sheet.schema = t.sheet.schema) :
    Coherent { t with sheet := sheet, batch := t.batch.changeFields row fields } := by
  refine ⟨h.sound, fun other => ?_, fun other hother => ?_, fun other hother => ?_,
    fun other hother => ?_, fun other hother => ?_, ?_, ?_, h.shelved⟩
  · simpa using h.live_iff other
  · exact h.added_hidden other (by simpa using hother)
  · exact h.removed_shown other (by simpa using hother)
  · rw [AscMap.contains, Batch.find?_changed_changeFields] at hother
    simp only [Batch.removed_changeFields]
    split at hother
    · next hrow =>
      obtain ⟨rfl, -, htouches⟩ := hrow
      rw [Batch.touches_iff, not_or] at htouches
      exact (((h.live_iff row).mp there).resolve_right htouches.1)
    · exact h.changed_shown other hother
  · exact h.removed_retired other (by simpa using hother)
  · exact h.shown.trans (congrArg some (schema_shown t schema).symm)
  · exact h.latest.trans (congrArg some schema.symm)

theorem removed (h : t.Coherent) {row : RowId} {ids : RowIds} (sound : ids.Sound)
    (there : row ∈ t.rows.live) (live : ids.live = t.rows.live.erase row)
    (retired : ids.retired = t.rows.retired ++ [row]) :
    Coherent { t with rows := ids, batch := t.batch.remove row } := by
  have hkeep : ∀ other ∈ t.rows.retired, other ∈ ids.retired := by
    intro other hother
    rw [retired]
    exact List.mem_append_left _ hother
  by_cases hadded : row ∈ t.batch.added
  · rw [Batch.remove_of_added _ _ hadded]
    refine ⟨sound, fun other => ?_, fun other hother => ?_, h.removed_shown, h.changed_shown,
      fun other hother => hkeep other (h.removed_retired other hother), h.shown, h.latest,
      h.shelved⟩
    · rw [live, AscSet.mem_erase, h.live_iff, AscSet.mem_erase]
      by_cases hrow : other = row
      · simp [hrow, h.added_hidden row hadded]
      · simp [hrow]
    · exact h.added_hidden other (AscSet.mem_erase.mp hother).2
  · rw [Batch.remove_of_not_added _ _ hadded]
    have hpub : row ∈ t.publisher.rows := (((h.live_iff row).mp there).resolve_right hadded).1
    refine ⟨sound, fun other => ?_, h.added_hidden, fun other hother => ?_, fun other hother => ?_,
      fun other hother => ?_, h.shown, h.latest, h.shelved⟩
    · rw [live, AscSet.mem_erase, h.live_iff, AscSet.mem_insert]
      by_cases hrow : other = row
      · simp [hrow, hadded]
      · simp [hrow]
    · rcases AscSet.mem_insert.mp hother with rfl | hother
      · exact hpub
      · exact h.removed_shown other hother
    · rw [AscMap.contains, AscMap.find?_erase] at hother
      split at hother
      · cases hother
      next hne =>
        obtain ⟨hshown, hrem⟩ := h.changed_shown other hother
        refine ⟨hshown, fun hmem => ?_⟩
        rcases AscSet.mem_insert.mp hmem with heq | hmem
        · exact hne heq.symm
        · exact hrem hmem
    · rcases AscSet.mem_insert.mp hother with rfl | hother
      · rw [retired]
        simp
      · exact hkeep other (h.removed_retired other hother)

theorem schema_replaceSchema (t : Table) (schema : Schema) :
    (t.replaceSchema schema).sheet.schema = schema := by
  refine Schema.toLayout_injective ?_
  simp [replaceSchema, Sheet.carryOver, Sheet.schema, Sheet.ofSchema, Function.comp_def]

theorem move (h : t.Coherent) (hmove : Move t t') : t'.Coherent := by
  cases hmove with
  | @idle sheet ids sound live retired schema kept =>
      refine ⟨sound, fun row => ?_, h.added_hidden, h.removed_shown, h.changed_shown,
        fun row hrow => ?_, ?_, h.latest.trans (congrArg some schema.symm), h.shelved⟩
      · rw [live]
        exact h.live_iff row
      · rw [retired]
        exact h.removed_retired row hrow
      · exact h.shown.trans (congrArg some (schema_shown t schema).symm)
  | added sound new unused live retired rewrites =>
      exact h.added sound new unused live retired rewrites.schema
  | changed there rewrites => exact h.changed there rewrites.schema
  | removed sound there live retired => exact h.removed sound there live retired
  | replaced schema =>
      exact ⟨h.sound, h.live_iff, h.added_hidden, h.removed_shown, h.changed_shown,
        h.removed_retired, h.shown, congrArg some (schema_replaceSchema t schema).symm, rfl⟩

/-- A move leaves the schema that is shown. -/
theorem shown_move (h : t.Coherent) (hmove : Move t t') : t'.shown.schema = t.shown.schema := by
  have hpublisher : t'.publisher.schema = t.publisher.schema := by cases hmove <;> rfl
  exact Option.some.inj ((h.move hmove).shown.symm.trans (hpublisher.trans h.shown))

/-- Unless another schema waits for the next pass, what inputs read is what the owner writes. -/
theorem shown_eq (h : t.Coherent) (hkept : t.publisher.replaced = false) : t.shown = t.sheet := by
  have hshelved := h.shelved
  rw [hkept, eq_comm, Option.isSome_eq_false_iff, Option.isNone_iff_eq_none] at hshelved
  rw [Table.shown, hshelved, Option.getD_none]

/-! ### Passes -/

/-- After a pass the rows shown are the live rows. -/
theorem rows_publish (h : t.Coherent) : t.publish.1.publisher.rows = t.rows.live := by
  simp only [publish, Publisher.publish]
  split
  · rw [h.latest]
    rfl
  · refine AscSet.ext_mem fun row => ?_
    simp only [AscSet.mem_eraseAll, AscSet.mem_union, AscSet.mem_toList]
    rw [h.live_iff]
    have hdisjoint : row ∈ t.batch.added → row ∉ t.batch.removed := fun hadd hrem =>
      h.added_hidden row hadd (h.removed_shown row hrem)
    tauto

theorem notices_publish (h : t.Coherent) : t.publish.2 = t.pass.notices := by
  simp only [publish, Publisher.publish, pass]
  split
  · simp [h.latest, Pass.notices, Publisher.rowNotices]
  · simp [Pass.notices, Publisher.rowNotices]

theorem schema_publish (h : t.Coherent) :
    t.publish.1.publisher.schema = some t.schema ∧ t.publish.1.publisher.latest = some t.schema ∧
      t.publish.1.publisher.replaced = false := by
  simp only [publish, Publisher.publish]
  split
  · exact ⟨h.latest, h.latest, rfl⟩
  next hreplaced =>
    have hkept := Bool.eq_false_iff.mpr hreplaced
    refine ⟨?_, h.latest, hkept⟩
    rw [h.shown, h.shown_eq hkept]
    rfl

theorem fire (h : t.Coherent) : t.fire.1.Coherent := by
  obtain ⟨hschema, hlatest, hreplaced⟩ := h.schema_publish
  have hkept : (t.rows.retired.foldl Sheet.resetRow t.sheet).schema = t.sheet.schema :=
    t.sheet.schema_foldl_resetRow _
  refine ⟨h.sound.recycle, fun row => ?_, fun row hrow => ?_, fun row hrow => ?_,
    fun row hrow => ?_, fun row hrow => ?_, ?_, ?_, hreplaced⟩
  · show row ∈ t.rows.live ↔ (row ∈ t.publish.1.publisher.rows ∧ row ∉ (∅ : RowSet)) ∨
      row ∈ (∅ : RowSet)
    rw [h.rows_publish]
    simp
  · exact absurd hrow AscSet.not_mem_empty
  · exact absurd hrow AscSet.not_mem_empty
  · cases hrow
  · exact absurd hrow AscSet.not_mem_empty
  · exact hschema.trans (congrArg some hkept.symm)
  · exact hlatest.trans (congrArg some hkept.symm)

end Coherent

end Table

end TableFeed
