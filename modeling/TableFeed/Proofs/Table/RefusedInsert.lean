import Mathlib
import TableFeed.Proofs.Hub.OutputsAlone
import TableFeed.Proofs.Keys.Bijection
import TableFeed.Proofs.Table.Indistinguishable
/-!
What is left of a row that could not be inserted. Its id goes back and its cells are cleared, but
the counter of ids has moved and the columns have grown. Nobody can tell: whatever is done to the
table afterwards gives the same results, and its inputs are told the same, as if nobody had tried.
-/

namespace TableFeed

/-! ### Rows that are given up -/

/-- A table after a row has been written and given up is the twin of what it was. -/
theorem Table.Tidy.twin_discard {t : Table} (h : t.Tidy) (hroom : t.rows.HasRoom) {sheet : Sheet}
    (hsheet : t.sheet.Rewrites sheet t.rows.allocate.2 fun _ => True) :
    t.Twin (({ t with rows := t.rows.allocate.1, sheet := sheet } : Table).discard
      t.rows.allocate.2) := by
  obtain ⟨hnew, hunused, -⟩ := h.sound.allocate hroom
  obtain ⟨ids, hids, hrows⟩ := RowIds.twin_release hnew
  have hcleared := (h.discarded hroom hsheet).blank t.rows.allocate.2
  have hschema : (sheet.resetRow t.rows.allocate.2).schema = t.sheet.schema :=
    (sheet.schema_resetRow _).trans hsheet.schema
  simp only [Table.discard, hids] at hcleared ⊢
  rw [hrows.live, hrows.retired] at hcleared
  refine ⟨⟨hschema, fun row id => ?_⟩, Sheet.Twin.shelved t.shelved, hrows, rfl, rfl⟩
  by_cases hrow : t.rows.allocate.2 = row
  · -- the cells of the row were blank before, and are so again
    rw [← hrow]
    cases hf : t.sheet.schema.field? id with
    | none =>
        rw [(Sheet.value?_eq_none_iff ..).mpr (hschema ▸ hf),
          (Sheet.value?_eq_none_iff ..).mpr hf]
    | some f => rw [hcleared hnew hunused id f (hschema ▸ hf), h.blank _ hnew hunused id f hf]
  · rw [Sheet.value?_resetRow, hsheet.kept row id fun hin => hrow hin.1.symm]
    simp [hrow]

/-! ### Tables of either kind -/

namespace AnyTable

inductive Question
  | get (row : RowId) (field : FieldRef)
  | isLive (row : RowId)
  | lookup (key : Key)
  | size
  | isEmpty
  | hasPendingChanges

inductive Answer
  | inserted (row : RowId) (result : Except Error Unit)
  | updated (result : Except Error FieldSet)
  | removed (result : Except Error Unit)
  | upserted (result : Except Error (RowId × Bool))
  | keyRemoved (result : Except Error (Option RowId))
  | value (result : Except Error Value)
  | row (row : Option RowId)
  | flag (value : Bool)
  | count (n : Nat)
  | nothing

def reply : AnyTable → Act → Answer
  | plain t, .insert writes => .inserted (t.insert writes).2.1 (t.insert writes).2.2
  | plain t, .update row writes => .updated (t.update row writes).2
  | plain t, .remove row => .removed ((t.remove row).map fun _ => ())
  | keyed t, .upsert key writes => .upserted (t.upsert key writes).2
  | keyed t, .removeKey key => .keyRemoved (t.remove key).2
  | _, _ => .nothing

def read : AnyTable → Question → Answer
  | t, .get row field => .value (t.table.get row field)
  | t, .isLive row => .flag (t.table.isLive row)
  | t, .hasPendingChanges => .flag t.table.hasPendingChanges
  | plain t, .size => .count t.size
  | plain t, .isEmpty => .flag t.isEmpty
  | plain _, .lookup _ => .nothing
  | keyed t, .size => .count t.size
  | keyed t, .isEmpty => .flag t.isEmpty
  | keyed t, .lookup key => .row (t.lookup key)

def New (t : AnyTable) : Prop :=
  (∃ schema, t = plain (.create schema)) ∨
    ∃ schema names k, KeyedTable.create schema names = .ok k ∧ t = keyed k

/-- Whether an operation takes an id for a row. -/
def Takes : AnyTable → Act → Prop
  | plain _, .insert _ => True
  | keyed t, .upsert key _ => t.lookup key = none ∧ key.length = t.keyFields.length
  | _, _ => False

/-- Whether an operation is to add a row and fails. -/
def Refuses : AnyTable → Act → Prop
  | plain t, .insert writes => ∃ row e, (t.insert writes).2 = (row, .error e)
  | keyed t, .upsert key writes => t.lookup key = none ∧ ∃ e, (t.upsert key writes).2 = .error e
  | _, _ => False

inductive Twin : AnyTable → AnyTable → Prop
  | plain {t t' : Table} (h : t.Twin t') : Twin (plain t) (plain t')
  | keyed {t t' : KeyedTable} (h : t.Twin t') : Twin (keyed t) (keyed t')

namespace Twin

variable {t t' : AnyTable}

theorem table (h : t.Twin t') : t.table.Twin t'.table := by
  cases h with
  | plain h => exact h
  | keyed h => exact h.table

theorem mapTable (h : t.Twin t') {f : Table → Table}
    (hf : ∀ {t t' : Table}, t.Twin t' → (f t).Twin (f t')) :
    (t.mapTable f).Twin (t'.mapTable f) := by
  cases h with
  | plain h => exact .plain (hf h)
  | keyed h => exact .keyed ⟨hf h.table, h.keyFields, h.keys⟩

/-- An operation does the same to both and gives back the same. -/
theorem act (h : t.Twin t') (a : Act) : (t.act a).Twin (t'.act a) ∧ t'.reply a = t.reply a := by
  cases h with
  | @plain t t' h =>
      cases a with
      | insert writes =>
          obtain ⟨htable, hout⟩ := h.insert writes
          exact ⟨.plain htable, by rw [reply, reply, hout]⟩
      | update row writes =>
          obtain ⟨htable, hout⟩ := h.updateLocked [] row writes
          exact ⟨.plain htable, congrArg Answer.updated hout⟩
      | remove row =>
          have hremove := h.remove row
          rw [AnyTable.act, AnyTable.act, reply, reply]
          generalize t.remove row = x at hremove
          generalize t'.remove row = y at hremove
          cases hremove with
          | ok htable => exact ⟨.plain htable, rfl⟩
          | error e => exact ⟨.plain h, rfl⟩
      | replaceSchema schema => exact ⟨.plain (h.replaceSchema schema), rfl⟩
      | upsert | removeKey => exact ⟨.plain h, rfl⟩
  | @keyed t t' h =>
      cases a with
      | upsert key writes =>
          obtain ⟨htable, hout⟩ := h.upsert key writes
          exact ⟨.keyed htable, congrArg Answer.upserted hout⟩
      | removeKey key =>
          obtain ⟨htable, hout⟩ := h.remove key
          exact ⟨.keyed htable, congrArg Answer.keyRemoved hout⟩
      | insert | update | remove | replaceSchema => exact ⟨.keyed h, rfl⟩

theorem read (h : t.Twin t') (q : Question) : t'.read q = t.read q := by
  cases q with
  | get row field => exact congrArg Answer.value (h.table.get row field)
  | isLive row => exact congrArg Answer.flag (h.table.isLive row)
  | hasPendingChanges =>
      simp only [AnyTable.read, Table.hasPendingChanges, h.table.batch]
  | lookup key =>
      cases h with
      | plain h => rfl
      | keyed h => simp only [AnyTable.read, KeyedTable.lookup, h.keys]
  | size =>
      cases h with
      | plain h => simp only [AnyTable.read, Table.size, RowIds.size, h.rows.live]
      | keyed h => simp only [AnyTable.read, KeyedTable.size, h.keys]
  | isEmpty =>
      cases h with
      | plain h => simp only [AnyTable.read, Table.isEmpty, RowIds.isEmpty, h.rows.live]
      | keyed h => simp only [AnyTable.read, KeyedTable.isEmpty, h.keys]

end Twin

end AnyTable

/-- The row of an upsert stays, or it is given up. -/
theorem KeyedTable.tidy_upsert {k : KeyedTable} (h : k.table.Tidy) {key : Key}
    (hroom : k.lookup key = none → key.length = k.keyFields.length → k.table.rows.HasRoom)
    (writes : List Write) :
    (k.upsert key writes).1.table.Tidy ∧
      (k.lookup key = none → ∀ e, (k.upsert key writes).2 = .error e →
        k.Twin (k.upsert key writes).1) := by
  rw [upsert]
  cases hrow : k.lookup key with
  | some row => exact ⟨h.updateLocked .., fun hnone => absurd hnone (Option.some_ne_none row)⟩
  | none =>
      dsimp only
      by_cases hlength : key.length = k.keyFields.length
      · have hspace := hroom hrow hlength
        have hlook : k.keys.lookup key = none := hrow
        have hsheet := k.rewrites_writeNew k.table.rows.allocate.2 key writes
        rw [if_neg (not_not_intro hlength), KeyIndex.intern, hlook]
        dsimp only
        generalize k.writeNew k.table.rows.allocate.2 key writes = out at hsheet ⊢
        obtain ⟨sheet, result⟩ := out
        cases result with
        | ok u => exact ⟨h.added hspace hsheet _, fun _ e he => by cases he⟩
        | error e =>
            exact ⟨h.discarded hspace hsheet, fun _ _ _ =>
              ⟨h.twin_discard hspace hsheet, rfl, KeyIndex.forget_cons hlook⟩⟩
      · rw [if_pos hlength]
        exact ⟨h, fun _ _ _ => ⟨.refl _, rfl, rfl⟩⟩

/-- The row of an insert stays, or it is given up. -/
theorem Table.tidy_insert {t : Table} (h : t.Tidy) (hroom : t.rows.HasRoom) (writes : List Write) :
    (t.insert writes).1.Tidy ∧
      ∀ row e, (t.insert writes).2 = (row, .error e) → t.Twin (t.insert writes).1 := by
  have hsheet : t.sheet.Rewrites (Sheet.writeRow [] t.rows.allocate.2 writes t.sheet ∅).1
      t.rows.allocate.2 fun _ => True :=
    (Sheet.rewrites_writeRow [] t.rows.allocate.2 writes t.sheet ∅).1.mono fun _ _ => trivial
  simp only [insert]
  generalize Sheet.writeRow [] t.rows.allocate.2 writes t.sheet ∅ = out at hsheet ⊢
  obtain ⟨sheet, written, result⟩ := out
  cases result with
  | ok u => exact ⟨h.added hroom hsheet _, fun row e he => by cases he⟩
  | error e => exact ⟨h.discarded hroom hsheet, fun _ _ _ => h.twin_discard hroom hsheet⟩

namespace AnyTable

variable {t : AnyTable} {a : Act}

theorem tidy_new (h : t.New) : t.table.Tidy := by
  rcases h with ⟨schema, rfl⟩ | ⟨schema, names, k, hk, rfl⟩
  · exact Table.tidy_create schema
  · obtain ⟨ids, rfl⟩ := KeyedTable.create_eq hk
    exact Table.tidy_create schema

theorem tidy_act (h : t.table.Tidy) (hroom : t.Takes a → t.table.rows.HasRoom) :
    (t.act a).table.Tidy := by
  cases t with
  | plain t =>
      cases a with
      | insert writes => exact (Table.tidy_insert h (hroom trivial) writes).1
      | update row writes => exact h.updateLocked [] row writes
      | remove row =>
          rw [act]
          split
          next t' ht => exact h.remove ht
          next => exact h
      | replaceSchema schema => exact h.replaceSchema schema
      | upsert | removeKey => exact h
  | keyed k =>
      cases a with
      | upsert key writes =>
          exact (KeyedTable.tidy_upsert h (fun hnone hlength => hroom ⟨hnone, hlength⟩) writes).1
      | removeKey key =>
          rw [act, KeyedTable.remove]
          split
          · exact h
          next row hrow =>
            dsimp only
            split
            next t' ht => exact h.remove ht
            next => exact h
      | insert | update | remove | replaceSchema => exact h

/-- An operation that fails to add a row leaves the twin of the table. -/
theorem twin_act (h : t.table.Tidy) (hroom : t.Takes a → t.table.rows.HasRoom)
    (hrefuses : t.Refuses a) : t.Twin (t.act a) := by
  cases t with
  | plain t =>
      cases a with
      | insert writes =>
          obtain ⟨row, e, he⟩ := hrefuses
          exact .plain ((Table.tidy_insert h (hroom trivial) writes).2 row e he)
      | update | remove | replaceSchema | upsert | removeKey => exact hrefuses.elim
  | keyed k =>
      cases a with
      | upsert key writes =>
          obtain ⟨hnone, e, he⟩ := hrefuses
          exact .keyed ((KeyedTable.tidy_upsert h (fun hnone hlength => hroom ⟨hnone, hlength⟩)
            writes).2 hnone e he)
      | insert | update | remove | replaceSchema | removeKey => exact hrefuses.elim

end AnyTable

/-! ### Calls -/

namespace Hub

inductive Call
  | deed (d : Deed)
  | detach (i : InputId)
  | ask (q : AnyTable.Question)

variable (id : Nat)

def call (h : Hub) : Call → Hub × AnyTable.Answer
  | .deed (.act a) => (h.deed id (.act a), (h.tables[id]?.map (·.reply a)).getD .nothing)
  | .deed d => (h.deed id d, .nothing)
  | .detach i => ((h.detach (.table id) i).1, .flag (h.detach (.table id) i).2)
  | .ask q => (h, (h.tables[id]?.map (·.read q)).getD .nothing)

def calls (h : Hub) : List Call → Hub × List AnyTable.Answer
  | [] => (h, [])
  | c :: cs =>
    let (h, first) := h.call id c
    let (h, rest) := h.calls cs
    (h, first :: rest)

/-- Whether an id is left whenever one is taken for a row: not all 2³² of them are live or wait for
the next pass. -/
def LeavesRoom (h : Hub) : List Call → Prop
  | [] => True
  | c :: cs =>
    (∀ a t, c = .deed (.act a) → h.tables[id]? = some t → t.Takes a → t.table.rows.HasRoom) ∧
      (h.call id c).1.LeavesRoom cs

variable {id} {h g : Hub} {t t' : AnyTable} {origin : Origin}

theorem leavesRoom_append {cs cs' : List Call} (hroom : h.LeavesRoom id (cs ++ cs')) :
    h.LeavesRoom id cs ∧ (h.calls id cs).1.LeavesRoom id cs' := by
  induction cs generalizing h with
  | nil => exact ⟨trivial, hroom⟩
  | cons c cs ih =>
      obtain ⟨hfirst, hrest⟩ := hroom
      obtain ⟨hcs, hcs'⟩ := ih hrest
      exact ⟨⟨hfirst, hcs⟩, hcs'⟩

/-! ### Telling with one table or its twin -/

section Telling

variable (ht : h.tables[id]? = some t) (htwin : t.Twin t')

include ht

theorem table_setTable (t' : AnyTable) : (h.setTable id t').tables[id]? = some t' := by
  obtain ⟨hlt, -⟩ := List.getElem?_eq_some_iff.mp ht
  exact List.getElem?_set_self hlt

theorem display?_setTable (t' : AnyTable) (o : OutputId) : (h.setTable id t').display? o =
    if o = .table id then some t'.table.display else h.display? o := by
  cases o with
  | table k =>
      by_cases hk : k = id
      · subst hk
        rw [if_pos rfl, display?, table_setTable ht]
        rfl
      · have hne : OutputId.table k ≠ .table id := fun heq => hk (OutputId.table.inj heq)
        rw [if_neg hne, display?, display?, setTable, List.getElem?_set_ne (Ne.symm hk)]
  | replica k => rfl
  | subscription c sub => rfl

include htwin

theorem rowCount_setTable (o : Option OutputId) : (h.setTable id t').rowCount o = h.rowCount o := by
  cases o with
  | none => rfl
  | some o =>
      rw [rowCount, rowCount, Option.bind_some, Option.bind_some, display?_setTable ht]
      split
      next ho =>
        rw [ho, display?_table ht, Table.display, Table.display, htwin.table.publisher]
        rfl
      next => rfl

theorem cells_setTable (o : Origin) : (h.cells o).Twin ((h.setTable id t').cells o) := by
  cases o with
  | nowhere => exact .refl _
  | output o =>
      rw [cells, cells, display?_setTable ht]
      split
      next ho =>
        rw [ho, display?_table ht]
        exact htwin.table.shown
      next => exact .refl _
  | given sheet => exact .refl _

/-- A sink answers as it would with the one table. -/
theorem answer_setTable (origin : Origin) (n : Notice) (x : SinkInput) :
    x.answer (h.setTable id t') origin n = x.answer h origin n := by
  simp only [SinkInput.answer, rowCount_setTable ht htwin,
    Sink.hear_twin (cells_setTable ht htwin _)]

omit ht htwin in
theorem emitAll_setTable (h : Hub) (id : Nat) (t' : AnyTable) (o : OutletId) (rs : List Response) :
    rs.foldl (fun h r => h.emit o r) (h.setTable id t') =
      (rs.foldl (fun h r => h.emit o r) h).setTable id t' := by
  induction rs generalizing h with
  | nil => rfl
  | cons r rs ih => exact ih (h.emit o r)

theorem tell_setTable (i : InputId) (n : Notice) :
    (h.setTable id t').tell origin i n = (h.tell origin i n).setTable id t' := by
  rcases hx : h.inputs[i]? with _ | (r | x)
  · rw [tell_none (h := h.setTable id t') hx, tell_none hx]
  · rw [tell_recorder (h := h.setTable id t') hx, tell_recorder hx]
    rfl
  · rw [tell_sink (h := h.setTable id t') hx, tell_sink hx, answer_setTable ht htwin]
    exact emitAll_setTable (h.setInput i _) id t' x.outlet _

theorem tellAll_setTable (i : InputId) (ns : List Notice) :
    (h.setTable id t').tellAll origin i ns = (h.tellAll origin i ns).setTable id t' := by
  induction ns generalizing h with
  | nil => rfl
  | cons n ns ih =>
      have htold : (h.tell origin i n).tables[id]? = some t := by
        rw [(sameOutputs_tell h origin i n).tables]
        exact ht
      have hfirst : (h.setTable id t').tell origin i n = (h.tell origin i n).setTable id t' :=
        tell_setTable ht htwin i n
      rw [tellAll, List.foldl_cons, hfirst]
      exact ih htold

theorem tellEach_setTable (is : List InputId) (ns : List Notice) :
    (h.setTable id t').tellEach origin is ns = (h.tellEach origin is ns).setTable id t' := by
  induction is generalizing h with
  | nil => rfl
  | cons i is ih =>
      have htold : (h.tellAll origin i ns).tables[id]? = some t := by
        rw [(sameOutputs_tellAll h origin i ns).tables]
        exact ht
      rw [tellEach, List.foldl_cons, tellAll_setTable ht htwin]
      exact ih htold

end Telling

def Twin (id : Nat) (h g : Hub) : Prop :=
  ∃ t t', h.tables[id]? = some t ∧ t.Twin t' ∧ g = h.setTable id t'

namespace Twin

theorem tellAll (htwin : h.Twin id g) (origin : Origin) (i : InputId) (ns : List Notice) :
    (h.tellAll origin i ns).Twin id (g.tellAll origin i ns) := by
  obtain ⟨t, t', ht, htwin, rfl⟩ := htwin
  refine ⟨t, t', ?_, htwin, tellAll_setTable ht htwin i ns⟩
  rw [(sameOutputs_tellAll h origin i ns).tables]
  exact ht

theorem tellEach (htwin : h.Twin id g) (origin : Origin) (is : List InputId) (ns : List Notice) :
    (h.tellEach origin is ns).Twin id (g.tellEach origin is ns) := by
  obtain ⟨t, t', ht, htwin, rfl⟩ := htwin
  refine ⟨t, t', ?_, htwin, tellEach_setTable ht htwin is ns⟩
  rw [(sameOutputs_tellEach h origin is ns).tables]
  exact ht

/-- Changing the table. -/
theorem modify (htwin : h.Twin id g) {f : AnyTable → AnyTable}
    (hf : ∀ {t t' : AnyTable}, t.Twin t' → (f t).Twin (f t')) :
    Hub.Twin id { h with tables := h.tables.modify id f }
      { g with tables := g.tables.modify id f } := by
  obtain ⟨t, t', ht, htwin, rfl⟩ := htwin
  refine ⟨f t, f t', by simp [ht], hf htwin, ?_⟩
  have htables : (h.tables.set id t').modify id f = (h.tables.modify id f).set id (f t') := by
    simp only [List.set_eq_modify, List.modify_modify_eq]
    rfl
  simp only [setTable, htables]

theorem mapPublisher (htwin : h.Twin id g) (f : Publisher → Publisher) :
    (h.mapPublisher f (.table id)).Twin id (g.mapPublisher f (.table id)) :=
  htwin.modify fun htwin => htwin.mapTable fun htwin => htwin.mapPublisher f

theorem attach (htwin : h.Twin id g) (i : InputId) :
    (h.attach (.table id) i).Twin id (g.attach (.table id) i) := by
  obtain ⟨t, t', ht, htable, rfl⟩ := htwin
  have hpublisher := htable.table.publisher
  have hhub : h.Twin id (h.setTable id t') := ⟨t, t', ht, htable, rfl⟩
  rw [attach_eq ht, attach_eq (table_setTable ht t'), hpublisher]
  split
  · exact hhub
  · exact (hhub.mapPublisher _).tellAll _ i _

theorem detach (htwin : h.Twin id g) (i : InputId) :
    (h.detach (.table id) i).1.Twin id (g.detach (.table id) i).1 ∧
      (g.detach (.table id) i).2 = (h.detach (.table id) i).2 := by
  obtain ⟨t, t', ht, htable, rfl⟩ := htwin
  have hpublisher := htable.table.publisher
  have hhub : h.Twin id (h.setTable id t') := ⟨t, t', ht, htable, rfl⟩
  have hfound : ∀ g : Hub, (g.detach (.table id) i).2 = (g.attached (.table id)).contains i := by
    intro g
    rw [Hub.detach]
    split
    next hi => exact hi.symm
    next hi => exact (Bool.eq_false_iff.mpr hi).symm
  refine ⟨?_, ?_⟩
  · rw [detach_eq ht, detach_eq (table_setTable ht t'), hpublisher]
    split
    · exact (hhub.mapPublisher _).tellAll _ i _
    · exact hhub
  · rw [hfound, hfound, attached_of_table ht, attached_of_table (table_setTable ht t'), hpublisher]

theorem fire (htwin : h.Twin id g) : (h.fire id).Twin id (g.fire id) := by
  obtain ⟨t, t', ht, htable, rfl⟩ := htwin
  have ht' := table_setTable ht t'
  have hpublished : (h.published id t).Twin id ((h.setTable id t').published id t') := by
    refine ⟨_, _, table_published ht, htable.mapTable fun htwin => htwin.publish.1, ?_⟩
    simp only [published, setTable, List.set_set]
  rw [fire_eq ht, fire_eq ht', htable.table.publisher, htable.table.publish.2]
  exact (hpublished.tellEach _ _ _).modify fun htwin => htwin.mapTable fun htwin => htwin.settle

/-- A call changes nothing that can be told, and gives back the same. -/
theorem call (htwin : h.Twin id g) (c : Call) :
    (h.call id c).1.Twin id (g.call id c).1 ∧ (g.call id c).2 = (h.call id c).2 := by
  obtain ⟨t, t', ht, htable, hg⟩ := htwin
  have ht' : g.tables[id]? = some t' := hg ▸ table_setTable ht t'
  have hhub : h.Twin id g := ⟨t, t', ht, htable, hg⟩
  rcases c with (a | _ | i) | i | q
  · refine ⟨hhub.modify fun htwin => (htwin.act a).1, ?_⟩
    simp only [Hub.call, ht, ht', Option.map_some, Option.getD_some, (htable.act a).2]
  · exact ⟨hhub.fire, rfl⟩
  · exact ⟨hhub.attach i, rfl⟩
  · exact ⟨(hhub.detach i).1, congrArg AnyTable.Answer.flag (hhub.detach i).2⟩
  · refine ⟨hhub, ?_⟩
    simp only [Hub.call, ht, ht', Option.map_some, Option.getD_some, htable.read q]

end Twin

theorem Twin.calls (htwin : h.Twin id g) (cs : List Call) :
    (h.calls id cs).1.Twin id (g.calls id cs).1 ∧ (g.calls id cs).2 = (h.calls id cs).2 := by
  induction cs generalizing h g with
  | nil => exact ⟨htwin, rfl⟩
  | cons c cs ih =>
      obtain ⟨hfirst, hanswer⟩ := htwin.call c
      obtain ⟨hrest, hanswers⟩ := ih hfirst
      exact ⟨hrest, congrArg₂ List.cons hanswer hanswers⟩

/-! ### Reachable tables -/

/-- What the table of a call has become. -/
theorem tidy_call (ht : h.tables[id]? = some t) (htidy : t.table.Tidy) {c : Call}
    (hroom : ∀ a, c = .deed (.act a) → t.Takes a → t.table.rows.HasRoom) :
    ∃ t', (h.call id c).1.tables[id]? = some t' ∧ t'.table.Tidy := by
  have hmap : ∀ f : Table → Table, (f t.table).Tidy → (t.mapTable f).table.Tidy :=
    fun f hf => by rwa [AnyTable.table_mapTable]
  rcases c with (a | _ | i) | i | q
  · exact ⟨_, table_act ht a, AnyTable.tidy_act htidy (hroom a rfl)⟩
  · exact ⟨_, table_fire ht, hmap _ htidy.fire⟩
  · exact ⟨_, table_attach ht i, hmap _ ⟨htidy.sound, htidy.blank⟩⟩
  · by_cases hi : i ∈ t.table.publisher.inputs
    · refine ⟨_, ?_, hmap (fun t => { t with publisher := t.publisher.detach i })
        ⟨htidy.sound, htidy.blank⟩⟩
      rw [call, detach_eq ht, if_pos hi, (sameOutputs_tellAll ..).tables]
      exact table_left ht i
    · refine ⟨t, ?_, htidy⟩
      rw [call, detach_eq ht, if_neg hi]
      exact ht
  · exact ⟨t, ht, htidy⟩

theorem tidy_calls (ht : h.tables[id]? = some t) (htidy : t.table.Tidy) {cs : List Call}
    (hroom : h.LeavesRoom id cs) :
    ∃ t', (h.calls id cs).1.tables[id]? = some t' ∧ t'.table.Tidy := by
  induction cs generalizing h t with
  | nil => exact ⟨t, ht, htidy⟩
  | cons c cs ih =>
      obtain ⟨t', ht', htidy'⟩ := tidy_call ht htidy fun a hc => hroom.1 a t hc ht
      exact ih ht' htidy' hroom.2

/-- An insert that fails, or an upsert of a new key that does, leaves no trace: whatever comes later
is as if it had not been tried. -/
theorem refused_row_traceless {start : Hub} {new : AnyTable} (hstart : start.tables[id]? = some new)
    (hnew : new.New) {before : List Call} {a : Act}
    (hroom : start.LeavesRoom id (before ++ [.deed (.act a)]))
    (ht : (start.calls id before).1.tables[id]? = some t) (hrefuses : t.Refuses a)
    (later : List Call) :
    let h := (start.calls id before).1
    let tried := (h.call id (.deed (.act a))).1
    (tried.calls id later).2 = (h.calls id later).2 ∧
      (tried.calls id later).1.inputs = (h.calls id later).1.inputs ∧
      (tried.calls id later).1.outlets = (h.calls id later).1.outlets := by
  intro h tried
  obtain ⟨hbefore, hlast, -⟩ := leavesRoom_append hroom
  obtain ⟨t', ht', htidy⟩ := tidy_calls hstart (AnyTable.tidy_new hnew) hbefore
  obtain rfl : t' = t := Option.some.inj (ht'.symm.trans ht)
  have htwin : h.Twin id tried := by
    refine ⟨t', t'.act a, ht, AnyTable.twin_act htidy (hlast a t' rfl ht) hrefuses, ?_⟩
    show { h with tables := h.tables.modify id (·.act a) } = h.setTable id (t'.act a)
    have htables : h.tables.modify id (·.act a) = h.tables.set id (t'.act a) := by
      rw [List.modify_eq_set_getElem?, ht]
      rfl
    rw [htables]
    rfl
  obtain ⟨⟨u, u', -, -, hafter⟩, hanswers⟩ := htwin.calls later
  exact ⟨hanswers, by rw [hafter]; rfl, by rw [hafter]; rfl⟩

/-- The writer of a new key sets a field and then the key field, which it may not. Its id has been
counted by then, and is free afterwards. The key comes again, and another one. -/
theorem refused_row_traceless_upsert :
    let schema : Schema := ⟨⟨"A", [⟨"k", .int32, {}⟩, ⟨"v", .int32, {}⟩]⟩, by decide⟩
    let made : KeyedTable := { table := .create schema, keyFields := [0] }
    let start : Hub := { tables := [.keyed made], inputs := [.recorder {}] }
    let set (name : String) (n : Int32) : Write := ⟨.name name, ⟨.int32, n⟩⟩
    let upsert (n : Int32) (writes : List Write) : Act := .upsert [⟨.int32, n⟩] writes
    let before : List Call := [.deed (.attach 0), .deed (.act (upsert 1 []))]
    let refused : Act := upsert 2 [set "v" 5, set "k" 3]
    let later : List Call := [.deed (.act (upsert 2 [set "v" 6])), .deed (.act (upsert 3 [])),
      .deed .fire, .ask (.get 1 (.name "v"))]
    let h := (start.calls 0 before).1
    let tried := (h.call 0 (.deed (.act refused))).1
    (AnyTable.New (.keyed made) ∧ start.LeavesRoom 0 (before ++ [.deed (.act refused)]) ∧
        ∃ t, h.tables[0]? = some t ∧ t.Refuses refused) ∧
      (h.tables.map (fun t => (t.table.rows.next, t.table.rows.free)) = [(1, [])] ∧
        tried.tables.map (fun t => (t.table.rows.next, t.table.rows.free)) = [(2, [1])]) ∧
      (tried.calls 0 later).2 = (h.calls 0 later).2 ∧
      (tried.calls 0 later).1.inputs = (h.calls 0 later).1.inputs ∧
      (tried.calls 0 later).1.outlets = (h.calls 0 later).1.outlets := by
  intro schema made start set upsert before refused later h tried
  have hnew : AnyTable.New (.keyed made) := .inr ⟨schema, ["k"], made, rfl, rfl⟩
  have hroom : start.LeavesRoom 0 (before ++ [.deed (.act refused)]) := by
    refine ⟨fun a t ha => ?_, fun a t _ ht _ => ?_, fun a t _ ht _ => ?_, trivial⟩
    · cases ha
    · obtain rfl := Option.some.inj ht
      exact ⟨9, by decide +kernel, by decide +kernel⟩
    · obtain rfl := Option.some.inj ht
      exact ⟨9, by decide +kernel, by decide +kernel⟩
  obtain ⟨t, ht⟩ : ∃ t, h.tables[0]? = some t := ⟨_, rfl⟩
  have hrefuses : t.Refuses refused := by
    obtain rfl := Option.some.inj ht
    exact ⟨by decide +kernel, .invalidOperation (.keyFieldLocked "k"), by decide +kernel⟩
  exact ⟨⟨hnew, hroom, t, ht, hrefuses⟩, ⟨by decide +kernel, by decide +kernel⟩,
    refused_row_traceless rfl hnew hroom ht hrefuses later⟩

end Hub

end TableFeed
