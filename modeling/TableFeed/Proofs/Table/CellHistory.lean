import Mathlib
import TableFeed.Proofs.Table.ShownRows
/-!
What the cells of a table go back to. The past of a table is kept as a list of marks, the latest
one first: rows begin and end, cells are set, schemas are replaced. A cell of a live row reads what
it was last set to since the row began, and nothing that was under the row's id before. What makes
this so is that every id that can be handed out reads as absent throughout the sheet.
-/

namespace TableFeed

inductive Mark
  | begun (row : RowId)
  | set (row : RowId) (field : FieldId) (value : Value)
  | ended (row : RowId)
  | replaced (old new : Schema)

/-- The field of `old` that goes on as field `id` of `new`: the one of the same name, if it has the
same type. -/
def Schema.origin? (new old : Schema) (id : FieldId) : Option FieldId :=
  (new.field? id).bind fun f =>
    (old.fieldId? f.name).filter fun j => (old.field? j).map (·.type) = some f.type

namespace Mark

/-- Whether a row has begun and not ended since. -/
def isLive (row : RowId) : List Mark → Bool
  | [] => false
  | .begun r :: past => r = row || isLive row past
  | .ended r :: past => r ≠ row && isLive row past
  | _ :: past => isLive row past

/-- What a cell was set to last since its row began. A field of a new schema has the past of the
field it goes back to, if there is one. -/
def lastSet (row : RowId) : List Mark → FieldId → Option Value
  | [], _ => none
  | .begun r :: past, id => if r = row then none else lastSet row past id
  | .set r field v :: past, id => if r = row ∧ field = id then some v else lastSet row past id
  | .ended r :: past, id => if r = row then none else lastSet row past id
  | .replaced old new :: past, id => (new.origin? old id).bind (lastSet row past)

end Mark

def Sheet.sets (locked : List FieldId) (row : RowId) : List Write → Sheet → List Mark
  | [], _ => []
  | w :: ws, s =>
    match s.put locked row w with
    | .error _ => []
    | .ok (s, id) => sets locked row ws s ++ [.set row id w.value]

namespace Table

inductive Op
  | insert (writes : List Write)
  | update (row : RowId) (writes : List Write)
  | remove (row : RowId)
  | replaceSchema (schema : Schema)
  | fire

def op (t : Table) : Op → Table
  | .insert writes => (t.insert writes).1
  | .update row writes => (t.update row writes).1
  | .remove row =>
    match t.remove row with
    | .ok t => t
    | .error _ => t
  | .replaceSchema schema => t.replaceSchema schema
  | .fire => t.fire.1

/-- What an operation adds to the past. The row of an insert that fails has begun and ended. -/
def marks (t : Table) : Op → List Mark
  | .insert writes =>
    match t.insert writes with
    | (_, row, .ok ()) => Sheet.sets [] row writes t.sheet ++ [.begun row]
    | (_, row, .error _) => .ended row :: (Sheet.sets [] row writes t.sheet ++ [.begun row])
  | .update row writes => if t.isLive row then Sheet.sets [] row writes t.sheet else []
  | .remove row =>
    match t.remove row with
    | .ok _ => [.ended row]
    | .error _ => []
  | .replaceSchema schema => [.replaced t.schema schema]
  | .fire => []

def run (t : Table) (past : List Mark) : List Op → Table × List Mark
  | [] => (t, past)
  | o :: os => (t.op o).run (t.marks o ++ past) os

/-- Whether an id is left for every row that is inserted: not all 2³² of them are live or wait for
the next pass. -/
def LeavesRoom (t : Table) : List Op → Prop
  | [] => True
  | o :: os => (∀ writes, o = .insert writes → t.rows.HasRoom) ∧ (t.op o).LeavesRoom os

end Table

/-- A field goes back to one of its own type. -/
theorem Schema.field?_of_origin {new old : Schema} {id j : FieldId} {f : FieldInfo}
    (hf : new.field? id = some f) (h : new.origin? old id = some j) :
    ∃ g, old.field? j = some g ∧ g.type = f.type := by
  rw [origin?, hf, Option.bind_some, Option.filter_eq_some_iff] at h
  simpa using h.2

/-! ### What a writer adds -/

namespace Sheet

variable {s t : Sheet} {row other : RowId} {locked : List FieldId} {writes : List Write}

theorem set_of_mem_sets {e : Mark} (h : e ∈ sets locked row writes s) :
    ∃ field v, e = .set row field v := by
  induction writes generalizing s with
  | nil => cases h
  | cons w ws ih =>
      rw [sets] at h
      split at h
      · cases h
      next t id hput =>
        rcases List.mem_append.mp h with h | h
        · exact ih h
        · exact ⟨id, w.value, List.mem_singleton.mp h⟩

end Sheet

namespace Mark

variable {row other : RowId} {es past : List Mark}

theorem isLive_append (h : ∀ e ∈ es, ∃ field v, e = .set row field v) :
    isLive other (es ++ past) = isLive other past := by
  induction es with
  | nil => rfl
  | cons e es ih =>
      obtain ⟨field, v, rfl⟩ := h e List.mem_cons_self
      simpa [isLive] using ih fun e' he' => h e' (List.mem_cons_of_mem _ he')

theorem lastSet_append (h : ∀ e ∈ es, ∃ field v, e = .set row field v) (hne : row ≠ other) :
    lastSet other (es ++ past) = lastSet other past := by
  induction es with
  | nil => rfl
  | cons e es ih =>
      obtain ⟨field, v, rfl⟩ := h e List.mem_cons_self
      funext id
      simp [lastSet, hne, ih fun e' he' => h e' (List.mem_cons_of_mem _ he')]

end Mark

/-! ### Sheets -/

namespace Sheet

variable {s t : Sheet} {row other : RowId} {last : FieldId → Option Value}

/-- A row reads the values of `last`, and as absent where it has none. -/
def Reads (s : Sheet) (row : RowId) (last : FieldId → Option Value) : Prop :=
  ∀ id f, s.schema.field? id = some f →
    s.value? row id = some ((last id).getD (.absent f.type))

theorem reads_ofSchema (schema : Schema) (row : RowId) :
    (ofSchema schema).Reads row fun _ => none := by
  intro id f hf
  rw [schema_ofSchema] at hf
  have hfield : (ofSchema schema).field? id = some { info := f } := by
    have hf' : schema.fields[id]? = some f := hf
    simp [field?, ofSchema, hf']
  simp [value?, hfield, StoredField.value, Column.value, Column.get, Value.absent]

/-- A row whose cells read as they did before. -/
theorem Reads.congr (h : s.Reads row last) (hschema : t.schema = s.schema)
    (hcells : ∀ id, t.value? row id = s.value? row id) : t.Reads row last := by
  intro id f hf
  rw [hschema] at hf
  rw [hcells, h id f hf]

/-- A row beside the one that was written. -/
theorem Reads.of_rewrites_ne (h : s.Reads other last) (ht : s.Rewrites t row fun _ => True)
    (hne : row ≠ other) : t.Reads other last :=
  h.congr ht.schema fun id => ht.kept other id fun hin => hne hin.1.symm

/-- A row whose cells were cleared. -/
theorem reads_of_cleared (hschema : t.schema = s.schema)
    (hcells : ∀ id, t.value? row id = (s.value? row id).map fun v => .absent v.type) :
    t.Reads row fun _ => none := by
  intro id f hf
  rw [hschema] at hf
  obtain ⟨v, hv⟩ : ∃ v, s.value? row id = some v := by
    rw [← Option.ne_none_iff_exists', ne_eq, value?_eq_none_iff, hf]
    simp
  simp [hcells, hv, s.type_of_value? row id hv hf]

/-- The cell that was set reads as it was set. -/
theorem value?_set_self {id : FieldId} {v : Value} (h : s.set row id v = .ok t) :
    t.value? row id = some v := by
  rw [set] at h
  split at h
  · cases h
  next f hf =>
    split at h
    next htype =>
      rw [← Except.ok.inj h, value?, field?_mapField, if_pos rfl, hf]
      simp [StoredField.value, StoredField.map, Column.value_write htype]
    next => cases h

theorem Reads.set {id : FieldId} {v : Value} (h : s.Reads row last)
    (hset : s.set row id v = .ok t) :
    t.Reads row fun other => if id = other then some v else last other := by
  intro other f hf
  have hrewrites := rewrites_set hset
  rw [hrewrites.schema] at hf
  by_cases hid : id = other
  · subst hid
    simp [value?_set_self hset]
  · have hkept := hrewrites.kept row other fun hin => hid hin.2.symm
    rw [hkept, h other f hf]
    simp [hid]

/-- A writer's row reads what the writer set it to, and else as before. -/
theorem Reads.writeRow {past : List Mark} (h : s.Reads row (Mark.lastSet row past))
    (locked : List FieldId) (writes : List Write) (written : FieldSet) :
    (Sheet.writeRow locked row writes s written).1.Reads row
      (Mark.lastSet row (sets locked row writes s ++ past)) := by
  induction writes generalizing s past written with
  | nil => exact h
  | cons w ws ih =>
      cases hput : s.put locked row w with
      | error e =>
          simp only [Sheet.writeRow, sets, hput]
          exact h
      | ok x =>
          obtain ⟨t, id⟩ := x
          have hset : t.Reads row (Mark.lastSet row (.set row id w.value :: past)) := by
            simpa [Mark.lastSet] using h.set (put_eq_ok hput).2
          have hrest := ih hset (written.insert id)
          simpa only [Sheet.writeRow, sets, hput, List.append_assoc, List.singleton_append]
            using hrest

theorem value_foldl_copy {t : DataType} {value : RowId → Value} (htype : ∀ r, (value r).type = t)
    (rows : List RowId) (c : Column t) :
    (rows.foldl (fun c r => c.write r (value r)) c).value row =
      if row ∈ rows then value row else c.value row := by
  induction rows generalizing c with
  | nil => simp
  | cons r rows ih =>
      rw [List.foldl_cons, ih, Column.value_write (htype r)]
      by_cases hr : r = row
      · simp [hr]
      · simp [hr, Ne.symm hr]

/-- The rows taken over into a new schema read what they read in the fields their fields go back to.
Every other cell is absent. -/
theorem value?_carryOver (schema : Schema) (old : Sheet) (rows : List RowId) {id : FieldId}
    {f : FieldInfo} (hf : schema.field? id = some f) :
    ((ofSchema schema).carryOver old rows).value? row id =
      some (if row ∈ rows then
        ((schema.origin? old.schema id).bind (old.value? row)).getD (.absent f.type)
      else .absent f.type) := by
  have hfield : ((ofSchema schema).carryOver old rows).field? id =
      some (StoredField.carryFrom old rows { info := f }) := by
    have hf' : schema.fields[id]? = some f := hf
    simp [field?, carryOver, ofSchema, hf']
  have habsent : ({ info := f } : StoredField).value row = .absent f.type := rfl
  rw [value?, hfield, Option.map_some, StoredField.carryFrom, Schema.origin?, hf, Option.bind_some]
  cases hid : old.schema.fieldId? f.name with
  | none => simp [habsent]
  | some j =>
      cases hg : old.field? j with
      | none => simp [habsent, schema_field?, hg, Option.filter]
      | some g =>
          by_cases htype : g.info.type = f.type
          · have hcopy : (({ info := f } : StoredField).map fun _ c =>
                rows.foldl (fun c r => c.write r (g.value r)) c).value row =
                  if row ∈ rows then g.value row else .absent f.type :=
              value_foldl_copy (fun _ => htype) rows {}
            simp [schema_field?, hg, htype, Option.filter, value?, hcopy]
          · simp [habsent, schema_field?, hg, htype, Option.filter]

end Sheet

/-! ### Rows that are not there -/

namespace Table

/-- The ids of a table are sound, and the rows that can be handed out read as absent. -/
structure Tidy (t : Table) : Prop where
  sound : t.rows.Sound
  blank : ∀ row, row ∉ t.rows.live → row ∉ t.rows.retired → t.sheet.Reads row fun _ => none

theorem tidy_create (schema : Schema) : (create schema).Tidy :=
  ⟨RowIds.sound_empty, fun row _ _ => Sheet.reads_ofSchema schema row⟩

namespace Tidy

variable {t t' : Table}

/-- A row that waited is cleared by a pass, any other was blank before it. -/
theorem fire (h : t.Tidy) : t.fire.1.Tidy := by
  have hcells : ∀ row id, t.fire.1.sheet.value? row id =
      (t.sheet.value? row id).map fun v => if row ∈ t.rows.retired then .absent v.type else v :=
    fun row id => t.sheet.value?_foldl_resetRow row id t.rows.retired
  have hschema : t.fire.1.sheet.schema = t.sheet.schema :=
    t.sheet.schema_foldl_resetRow t.rows.retired
  refine ⟨h.sound.recycle, fun row hrow _ => ?_⟩
  by_cases hretired : row ∈ t.rows.retired
  · refine Sheet.reads_of_cleared hschema fun id => ?_
    simp [hcells, hretired]
  · refine (h.blank row hrow hretired).congr hschema fun id => ?_
    simp [hcells, hretired]

theorem remove (h : t.Tidy) {row : RowId} (ht : t.remove row = .ok t') : t'.Tidy := by
  rw [Table.remove] at ht
  cases hids : t.rows.retire row with
  | error e =>
      rw [hids] at ht
      cases ht
  | ok ids =>
      rw [hids] at ht
      obtain ⟨hmem, hlive, hretired, hsound⟩ := h.sound.retire hids
      rw [← Except.ok.inj ht]
      refine ⟨hsound, fun other hother hwait => ?_⟩
      have hwait : other ∉ t.rows.retired ∧ other ≠ row := by simpa [hretired] using hwait
      refine h.blank other (fun hmem => hother ?_) hwait.1
      simp [hlive, hwait.2, hmem]

/-- Only live rows go on in a new schema. -/
theorem replaceSchema (h : t.Tidy) (schema : Schema) : (t.replaceSchema schema).Tidy := by
  refine ⟨h.sound, fun row hrow _ id f hf => ?_⟩
  have hdead : row ∉ t.rows.liveRows := hrow
  have hfield : schema.field? id = some f := by
    rw [Coherent.schema_replaceSchema] at hf
    exact hf
  show ((Sheet.ofSchema schema).carryOver t.sheet t.rows.liveRows).value? row id = _
  rw [Sheet.value?_carryOver schema t.sheet t.rows.liveRows hfield, if_neg hdead]
  rfl

theorem updateLocked (h : t.Tidy) (locked : List FieldId) (row : RowId) (writes : List Write) :
    (t.updateLocked locked row writes).1.Tidy := by
  rw [Table.updateLocked]
  split
  next hrow =>
    have hmem : row ∈ t.rows.live := RowIds.isLive_iff.mp hrow
    refine ⟨h.sound, fun other hother hwait => ?_⟩
    have hne : row ≠ other := fun heq => hother (heq ▸ hmem)
    exact (h.blank other hother hwait).of_rewrites_ne
      ((Sheet.rewrites_writeRow locked row writes t.sheet ∅).1.mono fun _ _ => trivial) hne
  next => exact h

section Insert

variable (h : t.Tidy) (hroom : t.rows.HasRoom) {sheet : Sheet}
  (hsheet : t.sheet.Rewrites sheet t.rows.allocate.2 fun _ => True)

include h hroom hsheet

/-- A row that was written stays. -/
theorem added (b : Batch) :
    Tidy { t with rows := t.rows.allocate.1, sheet := sheet, batch := b } := by
  obtain ⟨hnew, hunused, hlive, hretired, hsound⟩ := h.sound.allocate hroom
  refine ⟨hsound, fun other hother hwait => ?_⟩
  obtain ⟨hne, hold⟩ : other ≠ t.rows.allocate.2 ∧ other ∉ t.rows.live := by
    simpa [hlive] using hother
  exact (h.blank other hold (hretired ▸ hwait)).of_rewrites_ne hsheet (Ne.symm hne)

/-- A row that was discarded is blank again. -/
theorem discarded :
    (({ t with rows := t.rows.allocate.1, sheet := sheet } : Table).discard
      t.rows.allocate.2).Tidy := by
  obtain ⟨ids, sheet', hdiscard, hsound, hlive, hretired, hschema, -⟩ :=
    Table.discard_allocated h.sound hroom hsheet
  have hreset : sheet' = sheet.resetRow t.rows.allocate.2 := congrArg Table.sheet hdiscard.symm
  rw [hdiscard]
  refine ⟨hsound, fun other hother hwait => ?_⟩
  have hold : other ∉ t.rows.live := hlive ▸ hother
  by_cases hne : t.rows.allocate.2 = other
  · subst hne hreset
    refine Sheet.reads_of_cleared (sheet.schema_resetRow _) fun id => ?_
    simp [Sheet.value?_resetRow]
  · refine (h.blank other hold (hretired ▸ hwait)).congr hschema fun id => ?_
    rw [hreset, Sheet.value?_resetRow, hsheet.kept other id fun hin => hne hin.1.symm]
    simp [hne]

end Insert

end Tidy

end Table

/-! ### Tables -/

namespace Table

variable {t : Table} {past : List Mark}

/-- The cells of a table stand for its past. Rows that wait for the next pass may read as
anything. -/
structure Recalls (t : Table) (past : List Mark) : Prop where
  sound : t.rows.Sound
  live : ∀ row, row ∈ t.rows.live ↔ Mark.isLive row past = true
  reads : ∀ row ∈ t.rows.live, t.sheet.Reads row (Mark.lastSet row past)
  blank : ∀ row, row ∉ t.rows.live → row ∉ t.rows.retired → t.sheet.Reads row fun _ => none

theorem recalls_create (schema : Schema) : (create schema).Recalls [] := by
  refine ⟨RowIds.sound_empty, fun row => ?_, fun row _ => ?_, (tidy_create schema).blank⟩
  · simp [create, Mark.isLive]
  · exact Sheet.reads_ofSchema schema row

namespace Recalls

theorem tidy (h : t.Recalls past) : t.Tidy := ⟨h.sound, h.blank⟩

theorem fire (h : t.Recalls past) : t.fire.1.Recalls past := by
  have hcells : ∀ row id, t.fire.1.sheet.value? row id =
      (t.sheet.value? row id).map fun v => if row ∈ t.rows.retired then .absent v.type else v :=
    fun row id => t.sheet.value?_foldl_resetRow row id t.rows.retired
  have hschema : t.fire.1.sheet.schema = t.sheet.schema :=
    t.sheet.schema_foldl_resetRow t.rows.retired
  refine ⟨h.sound.recycle, h.live, fun row hrow => ?_, h.tidy.fire.blank⟩
  refine (h.reads row hrow).congr hschema fun id => ?_
  simp [hcells, h.sound.notRetired row hrow]

theorem remove (h : t.Recalls past) {row : RowId} {t' : Table} (ht : t.remove row = .ok t') :
    t'.Recalls (.ended row :: past) := by
  have htidy : t'.Tidy := h.tidy.remove ht
  rw [Table.remove] at ht
  cases hids : t.rows.retire row with
  | error e =>
      rw [hids] at ht
      cases ht
  | ok ids =>
      rw [hids] at ht
      obtain ⟨hmem, hlive, hretired, hsound⟩ := h.sound.retire hids
      cases ht
      refine ⟨hsound, fun other => ?_, fun other hother => ?_, htidy.blank⟩
      · show other ∈ ids.live ↔ _
        rw [hlive, AscSet.mem_erase, h.live, Mark.isLive, Bool.and_eq_true, decide_eq_true_eq,
          ne_comm]
      · obtain ⟨hne, hother⟩ : other ≠ row ∧ other ∈ t.rows.live := by simpa [hlive] using hother
        intro id f hf
        rw [h.reads other hother id f hf]
        simp [Mark.lastSet, Ne.symm hne]

/-- The rows that go on in a new schema go on with the fields that go back to fields of the old one;
every other row is blank in it. -/
theorem replaceSchema (h : t.Recalls past) (schema : Schema) :
    (t.replaceSchema schema).Recalls (.replaced t.schema schema :: past) := by
  have hcells : ∀ row id f, (t.replaceSchema schema).sheet.schema.field? id = some f →
      (t.replaceSchema schema).sheet.value? row id = some (if row ∈ t.rows.live then
        ((schema.origin? t.schema id).bind (t.sheet.value? row)).getD (.absent f.type)
      else .absent f.type) := by
    intro row id f hf
    rw [Coherent.schema_replaceSchema] at hf
    exact Sheet.value?_carryOver schema t.sheet t.rows.liveRows hf
  refine ⟨h.sound, h.live, fun row hrow id f hf => ?_, (h.tidy.replaceSchema schema).blank⟩
  have hlive : row ∈ t.rows.live := hrow
  rw [hcells row id f hf, if_pos hlive, Mark.lastSet]
  rw [Coherent.schema_replaceSchema] at hf
  cases horigin : schema.origin? t.schema id with
  | none => rfl
  | some j =>
      obtain ⟨g, hg, htype⟩ := Schema.field?_of_origin hf horigin
      rw [Option.bind_some, Option.bind_some, h.reads row hlive j g hg, htype, Option.getD_some]

/-- What a writer leaves in the rows that it does not write. -/
theorem reads_bystander {row other : RowId} {es : List Mark} {s s' : Sheet}
    (h : s.Reads other (Mark.lastSet other past)) (hs : s.Rewrites s' row fun _ => True)
    (hes : ∀ e ∈ es, ∃ field v, e = .set row field v) (hne : row ≠ other) :
    s'.Reads other (Mark.lastSet other (es ++ past)) := by
  rw [Mark.lastSet_append hes hne]
  exact h.of_rewrites_ne hs hne

theorem update (h : t.Recalls past) (row : RowId) (writes : List Write) :
    (t.update row writes).1.Recalls (t.marks (.update row writes) ++ past) := by
  have htidy : (t.update row writes).1.Tidy := h.tidy.updateLocked [] row writes
  rw [Table.update, Table.updateLocked] at htidy ⊢
  rw [Table.marks]
  cases hrow : t.isLive row with
  | false => exact h
  | true =>
      rw [hrow] at htidy
      have hmem : row ∈ t.rows.live := RowIds.isLive_iff.mp hrow
      have hsheet : t.sheet.Rewrites (Sheet.writeRow [] row writes t.sheet ∅).1 row fun _ => True :=
        (Sheet.rewrites_writeRow [] row writes t.sheet ∅).1.mono fun _ _ => trivial
      have hes : ∀ e ∈ Sheet.sets [] row writes t.sheet, ∃ field v, e = .set row field v :=
        fun e he => Sheet.set_of_mem_sets he
      refine ⟨h.sound, fun other => ?_, fun other hother => ?_, htidy.blank⟩
      · exact (h.live other).trans (by rw [if_pos rfl, Mark.isLive_append hes])
      · by_cases hne : row = other
        · subst hne
          exact (h.reads row hmem).writeRow [] writes ∅
        · exact reads_bystander (h.reads other hother) hsheet hes hne

section Insert

variable (h : t.Recalls past) (hroom : t.rows.HasRoom) {es : List Mark} {sheet : Sheet}
  (hes : ∀ e ∈ es, ∃ field v, e = .set t.rows.allocate.2 field v)
  (hsheet : t.sheet.Rewrites sheet t.rows.allocate.2 fun _ => True)

include h hroom hes hsheet

theorem added (b : Batch) (hrow : sheet.Reads t.rows.allocate.2
      (Mark.lastSet t.rows.allocate.2 (es ++ .begun t.rows.allocate.2 :: past))) :
    Recalls { t with rows := t.rows.allocate.1, sheet := sheet, batch := b }
      (es ++ .begun t.rows.allocate.2 :: past) := by
  obtain ⟨hnew, hunused, hlive, hretired, hsound⟩ := h.sound.allocate hroom
  refine ⟨hsound, fun other => ?_, fun other hother => ?_, (h.tidy.added hroom hsheet b).blank⟩
  · rw [hlive, AscSet.mem_insert, h.live, Mark.isLive_append hes, Mark.isLive, Bool.or_eq_true,
      decide_eq_true_eq, eq_comm]
  · by_cases hne : t.rows.allocate.2 = other
    · exact hne ▸ hrow
    · have hold : other ∈ t.rows.live := by simpa [hlive, Ne.symm hne] using hother
      refine reads_bystander ?_ hsheet hes hne
      intro id f hf
      rw [h.reads other hold id f hf, Mark.lastSet, if_neg hne]

/-- A row that was discarded has begun and ended. -/
theorem discarded :
    (({ t with rows := t.rows.allocate.1, sheet := sheet } : Table).discard
      t.rows.allocate.2).Recalls
        (.ended t.rows.allocate.2 :: (es ++ .begun t.rows.allocate.2 :: past)) := by
  obtain ⟨hnew, hunused, -⟩ := h.sound.allocate hroom
  obtain ⟨ids, sheet', hdiscard, hsound, hlive, hretired, hschema, hkept⟩ :=
    Table.discard_allocated h.sound hroom hsheet
  have htidy := h.tidy.discarded hroom hsheet
  rw [hdiscard] at htidy ⊢
  refine ⟨hsound, fun other => ?_, fun other hother => ?_, htidy.blank⟩
  · rw [hlive, h.live, Mark.isLive, Mark.isLive_append hes, Mark.isLive]
    by_cases hne : t.rows.allocate.2 = other
    · simp [← hne, ← h.live, hnew]
    · simp [hne]
  · have hold : other ∈ t.rows.live := hlive ▸ hother
    have hne : t.rows.allocate.2 ≠ other := fun heq => hnew (heq ▸ hold)
    refine Sheet.Reads.congr ?_ hschema (hkept other hold)
    intro id f hf
    rw [h.reads other hold id f hf, Mark.lastSet, if_neg hne, Mark.lastSet_append hes hne,
      Mark.lastSet, if_neg hne]

end Insert

theorem insert (h : t.Recalls past) (hroom : t.rows.HasRoom) (writes : List Write) :
    (t.insert writes).1.Recalls (t.marks (.insert writes) ++ past) := by
  have hsheet : t.sheet.Rewrites (Sheet.writeRow [] t.rows.allocate.2 writes t.sheet ∅).1
      t.rows.allocate.2 fun _ => True :=
    (Sheet.rewrites_writeRow [] t.rows.allocate.2 writes t.sheet ∅).1.mono fun _ _ => trivial
  have hes : ∀ e ∈ Sheet.sets [] t.rows.allocate.2 writes t.sheet,
      ∃ field v, e = .set t.rows.allocate.2 field v := fun e he => Sheet.set_of_mem_sets he
  -- whatever the row had in an earlier life was cleared, so it begins with nothing
  have hblank : t.sheet.Reads t.rows.allocate.2
      (Mark.lastSet t.rows.allocate.2 (.begun t.rows.allocate.2 :: past)) := by
    obtain ⟨hnew, hunused, -⟩ := h.sound.allocate hroom
    intro id f hf
    rw [h.blank _ hnew hunused id f hf, Mark.lastSet, if_pos rfl]
  have hrow := hblank.writeRow [] writes ∅
  obtain ⟨sheet, written, result, hout⟩ : ∃ sheet written result,
      Sheet.writeRow [] t.rows.allocate.2 writes t.sheet ∅ = (sheet, written, result) :=
    ⟨_, _, _, rfl⟩
  rw [hout] at hsheet hrow
  cases result with
  | ok u =>
      simp only [Table.insert, Table.marks, hout, List.append_assoc, List.singleton_append]
      exact h.added hroom hes hsheet _ hrow
  | error e =>
      simp only [Table.insert, Table.marks, hout, List.append_assoc, List.cons_append]
      exact h.discarded hroom hes hsheet

theorem op (h : t.Recalls past) {o : Op} (hroom : ∀ writes, o = .insert writes → t.rows.HasRoom) :
    (t.op o).Recalls (t.marks o ++ past) := by
  cases o with
  | insert writes => exact h.insert (hroom writes rfl) writes
  | update row writes => exact h.update row writes
  | remove row =>
      rw [Table.op, Table.marks]
      cases ht : t.remove row with
      | ok t' => exact h.remove ht
      | error e => exact h
  | replaceSchema schema => exact h.replaceSchema schema
  | fire => exact h.fire

theorem run (h : t.Recalls past) {os : List Op} (hroom : t.LeavesRoom os) :
    (t.run past os).1.Recalls (t.run past os).2 := by
  induction os generalizing t past with
  | nil => exact h
  | cons o os ih => exact ih (h.op hroom.1) hroom.2

theorem get_eq (h : t.Recalls past) (row : RowId) {ref : FieldRef} {id : FieldId} {f : FieldInfo}
    (hid : t.sheet.resolve ref = .ok id) (hf : t.schema.field? id = some f) :
    t.get row ref = .ok (if Mark.isLive row past
      then (Mark.lastSet row past id).getD (.absent f.type) else .absent f.type) := by
  have hstored : ∃ stored, t.sheet.field? id = some stored ∧ stored.info = f := by
    have hinfo : t.sheet.schema.field? id = some f := hf
    simpa [Sheet.schema_field?] using hinfo
  obtain ⟨stored, hstored, hinfo⟩ := hstored
  have hlive : t.isLive row = Mark.isLive row past := by
    rw [Bool.eq_iff_iff, ← h.live, Table.isLive, RowIds.isLive_iff]
  simp only [Table.get, hid, hstored, hinfo, ← hlive, bind, Except.bind, pure, Except.pure]
  split
  next hrow =>
    have hreads := h.reads row (RowIds.isLive_iff.mp hrow) id f hf
    rw [Sheet.value?, hstored, Option.map_some] at hreads
    rw [Option.some.inj hreads]
  next => rfl

end Recalls

/-- A cell reads what it was last set to since its row began, if the row has not ended, and else
nothing. -/
theorem get_eq_lastSet (schema : Schema) {os : List Op} (hroom : (create schema).LeavesRoom os)
    (row : RowId) {ref : FieldRef} {id : FieldId} {f : FieldInfo}
    (hid : ((create schema).run [] os).1.sheet.resolve ref = .ok id)
    (hf : ((create schema).run [] os).1.schema.field? id = some f) :
    ((create schema).run [] os).1.isLive row = Mark.isLive row ((create schema).run [] os).2 ∧
    ((create schema).run [] os).1.get row ref =
      .ok (if Mark.isLive row ((create schema).run [] os).2
        then (Mark.lastSet row ((create schema).run [] os).2 id).getD (.absent f.type)
        else .absent f.type) := by
  have h := (recalls_create schema).run hroom
  refine ⟨?_, h.get_eq row hid hf⟩
  rw [Bool.eq_iff_iff, ← h.live, Table.isLive, RowIds.isLive_iff]

/-- Row 1 is taken twice, after an insert that fails, and its field moves into a schema where it
stands elsewhere. Row 0 is removed before, and blank when its id is used again. -/
theorem get_eq_lastSet_reused :
    let old : Schema := ⟨⟨"T", [⟨"n", .int32, {}⟩]⟩, by simp [WellNamed]⟩
    let new : Schema := ⟨⟨"T", [⟨"b", .bool, {}⟩, ⟨"n", .int32, {}⟩]⟩, by simp [WellNamed]⟩
    let set (n : Int32) : Write := ⟨.name "n", ⟨.int32, n⟩⟩
    let os : List Op := [.insert [set 5], .insert [set 7, ⟨.id 1, ⟨.bool, true⟩⟩], .insert [],
      .update 1 [set 3, ⟨.id 0, ⟨.bool, true⟩⟩], .remove 0, .replaceSchema new, .fire, .insert []]
    let t := ((create old).run [] os).1
    (create old).LeavesRoom os ∧ t.schema = new ∧
      t.get 1 (.name "n") = .ok ⟨.int32, 3⟩ ∧ t.get 0 (.name "n") = .ok ⟨.int32, 0⟩ := by
  intro old new set os t
  have hroom : (create old).LeavesRoom os := by
    refine ⟨fun _ _ => ⟨9, ?_, ?_⟩, fun _ _ => ⟨9, ?_, ?_⟩, fun _ _ => ⟨9, ?_, ?_⟩,
      (fun _ h => nomatch h), (fun _ h => nomatch h), (fun _ h => nomatch h), (fun _ h => nomatch h),
      fun _ _ => ⟨9, ?_, ?_⟩, trivial⟩ <;> decide +kernel
  have hschema : t.schema = new := by decide +kernel
  have hid : t.sheet.resolve (.name "n") = .ok 1 := by
    rw [Sheet.resolve]
    show t.schema.require "n" = .ok 1
    rw [hschema]
    rfl
  have hf : t.schema.field? 1 = some ⟨"n", .int32, {}⟩ := by
    rw [hschema]
    rfl
  obtain ⟨-, hone⟩ := get_eq_lastSet old hroom 1 hid hf
  obtain ⟨-, hzero⟩ := get_eq_lastSet old hroom 0 hid hf
  have hset : Mark.isLive 1 ((create old).run [] os).2 = true ∧
      Mark.lastSet 1 ((create old).run [] os).2 1 = some ⟨.int32, 3⟩ := by decide +kernel
  have hunset : Mark.isLive 0 ((create old).run [] os).2 = true ∧
      Mark.lastSet 0 ((create old).run [] os).2 1 = none := by decide +kernel
  rw [if_pos hset.1, hset.2] at hone
  rw [if_pos hunset.1, hunset.2] at hzero
  exact ⟨hroom, hschema, hone, hzero⟩

end Table

end TableFeed
