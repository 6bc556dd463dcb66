import Mathlib
import TableFeed.Proofs.Hub.OneOutlet
/-!
Outputs apart from who listens. What the owner of a table does, what a pass tells and what a sink
reads do not depend on what is attached; so all of it can be said of a hub without any inputs.
-/

namespace TableFeed

theorem map_modify {α β : Type} {f : α → α} {f' : β → β} {g : α → β} (h : ∀ a, g (f a) = f' (g a))
    (l : List α) (k : Nat) : (l.modify k f).map g = (l.map g).modify k f' := by
  refine List.ext_getElem? fun n => ?_
  simp only [List.getElem?_map, List.getElem?_modify]
  cases l[n]? with
  | none => rfl
  | some a => by_cases hk : k = n <;> simp [hk, h]

/-! ### Tables -/

def Table.plugged (t : Table) (is : List InputId) : Table :=
  { t with publisher := { t.publisher with inputs := is } }

namespace Table

variable (t : Table) (is : List InputId)

theorem plugged_updateLocked (locked : List FieldId) (row : RowId) (writes : List Write) :
    (t.plugged is).updateLocked locked row writes =
      ((t.updateLocked locked row writes).1.plugged is, (t.updateLocked locked row writes).2) := by
  have hlive : (t.plugged is).isLive row = t.isLive row := rfl
  rw [updateLocked, updateLocked, hlive]
  split <;> rfl

theorem plugged_insert (writes : List Write) :
    ((t.plugged is).insert writes).1 = (t.insert writes).1.plugged is := by
  have hids : (t.plugged is).rows = t.rows := rfl
  have hsheet : (t.plugged is).sheet = t.sheet := rfl
  rw [insert, insert, hids, hsheet]
  dsimp only
  split <;> rfl

theorem plugged_remove (row : RowId) :
    (t.plugged is).remove row = (t.remove row).map (·.plugged is) := by
  have hids : (t.plugged is).rows = t.rows := rfl
  rw [remove, remove, hids]
  cases t.rows.retire row <;> rfl

theorem plugged_publish : (t.plugged is).publish = (t.publish.1.plugged is, t.publish.2) := by
  obtain ⟨sheet, shelved, rows, batch, ⟨inputs, latest, replaced, schema, shown⟩⟩ := t
  cases replaced <;> rfl

theorem plugged_fire : (t.plugged is).fire.1 = t.fire.1.plugged is := by
  simp only [fire, plugged_publish]
  rfl

end Table

namespace KeyedTable

def plugged (k : KeyedTable) (is : List InputId) : KeyedTable :=
  { k with table := k.table.plugged is }

variable (k : KeyedTable) (is : List InputId)

theorem plugged_upsert (key : Key) (writes : List Write) :
    ((k.plugged is).upsert key writes).1 = (k.upsert key writes).1.plugged is := by
  have hlookup : (k.plugged is).lookup key = k.lookup key := rfl
  have hupdate : ∀ row, (k.plugged is).table.updateLocked (k.plugged is).keyFields row writes =
      ((k.table.updateLocked k.keyFields row writes).1.plugged is,
        (k.table.updateLocked k.keyFields row writes).2) :=
    fun row => k.table.plugged_updateLocked is k.keyFields row writes
  have hwrite : ∀ row, (k.plugged is).writeNew row key writes = k.writeNew row key writes :=
    fun _ => rfl
  rw [upsert, upsert, hlookup]
  cases k.lookup key with
  | some row =>
      dsimp only
      rw [hupdate]
      rfl
  | none =>
      dsimp only
      split
      · next hlength =>
        have hlength' : key.length ≠ k.keyFields.length := hlength
        rw [if_pos hlength']
      · next hlength =>
        have hlength' : ¬key.length ≠ k.keyFields.length := hlength
        have hintern : (k.plugged is).keys.intern (k.plugged is).table.rows key =
            k.keys.intern k.table.rows key := rfl
        rw [if_neg hlength', hintern, hwrite]
        split <;> rfl

theorem plugged_remove (key : Key) :
    ((k.plugged is).remove key).1 = (k.remove key).1.plugged is := by
  have hlookup : (k.plugged is).lookup key = k.lookup key := rfl
  rw [remove, remove, hlookup]
  cases k.lookup key with
  | none => rfl
  | some row =>
      have hremove : (k.plugged is).table.remove row = (k.table.remove row).map (·.plugged is) :=
        k.table.plugged_remove is row
      dsimp only
      rw [hremove]
      cases k.table.remove row <;> rfl

end KeyedTable

namespace AnyTable

def plugged (t : AnyTable) (is : List InputId) : AnyTable := t.mapTable (·.plugged is)

variable (t : AnyTable) (is : List InputId)

theorem plugged_act (a : Act) : (t.plugged is).act a = (t.act a).plugged is := by
  cases t with
  | plain t =>
      cases a with
      | insert writes => exact congrArg plain (t.plugged_insert is writes)
      | update row writes =>
          exact congrArg (fun x => plain x.1) (t.plugged_updateLocked is [] row writes)
      | remove row =>
          show (plain (t.plugged is)).act (.remove row) = _
          rw [act, act, Table.plugged_remove]
          cases t.remove row <;> rfl
      | replaceSchema | upsert | removeKey => rfl
  | keyed k =>
      cases a with
      | upsert key writes => exact congrArg keyed (k.plugged_upsert is key writes)
      | removeKey key => exact congrArg keyed (k.plugged_remove is key)
      | insert | update | remove | replaceSchema => rfl

theorem plugged_fire :
    ((t.plugged is).mapTable fun t => t.fire.1) = (t.mapTable fun t => t.fire.1).plugged is := by
  cases t with
  | plain t => exact congrArg plain (t.plugged_fire is)
  | keyed k => exact congrArg (fun t => keyed { k with table := t }) (k.table.plugged_fire is)

theorem plugged_publish :
    ((t.plugged is).mapTable fun t => t.publish.1) = (t.mapTable fun t => t.publish.1).plugged is := by
  cases t with
  | plain t => exact congrArg (fun x => plain x.1) (t.plugged_publish is)
  | keyed k =>
      exact congrArg (fun x => keyed { k with table := x.1 }) (k.table.plugged_publish is)

theorem inputs_plugged : (t.plugged is).table.publisher.inputs = is := by
  cases t <;> rfl

theorem plugged_self : t.plugged t.table.publisher.inputs = t := by
  cases t <;> rfl

/-- What an owner does leaves the inputs alone. -/
theorem inputs_act (a : Act) :
    (t.act a).table.publisher.inputs = t.table.publisher.inputs := by
  have hact := t.plugged_act t.table.publisher.inputs a
  rw [plugged_self] at hact
  rw [hact, inputs_plugged]

def unplugged : AnyTable := t.plugged []

theorem publish_unplugged : t.unplugged.table.publish.2 = t.table.publish.2 := by
  cases t with
  | plain t => exact congrArg (·.2) (t.plugged_publish [])
  | keyed k => exact congrArg (·.2) (k.table.plugged_publish [])

/-- What a table tells an input that attaches. -/
theorem replay_unplugged :
    t.unplugged.table.publisher.replay = t.table.publisher.replay := by
  cases t <;> rfl

end AnyTable

/-! ### Hubs -/

namespace Hub

def unplugged (h : Hub) : Hub :=
  { h with tables := h.tables.map AnyTable.unplugged, inputs := [], outlets := [] }

variable {h g : Hub} {k : Nat} {i : InputId} {t : AnyTable}

theorem tables_unplugged (h : Hub) (k : Nat) :
    h.unplugged.tables[k]? = h.tables[k]?.map AnyTable.unplugged := List.getElem?_map

theorem SameOutputs.unplugged (hg : h.SameOutputs g) : g.unplugged = h.unplugged := by
  simp only [Hub.unplugged, hg.tables, hg.replicas, hg.clients, hg.ended]

/-! #### Reading -/

theorem rowCount_unplugged (h : Hub) (o : Option OutputId) :
    h.unplugged.rowCount o = h.rowCount o := by
  rcases o with _ | (k | k | ⟨c, id⟩)
  · rfl
  · rw [rowCount, rowCount, Option.bind_some, Option.bind_some, display?, display?,
      tables_unplugged]
    rcases h.tables[k]? with _ | (t | t) <;> rfl
  · rfl
  · rfl

theorem cells_unplugged (h : Hub) (o : Origin) : h.unplugged.cells o = h.cells o := by
  rcases o with _ | (k | k | ⟨c, id⟩) | sheet
  · rfl
  · rw [cells, cells, display?, display?, tables_unplugged]
    rcases h.tables[k]? with _ | (t | t) <;> rfl
  · rfl
  · rfl
  · rfl

theorem answerAll_unplugged (h : Hub) (origin : Origin) (ns : List Notice) (s : SinkInput) :
    s.answerAll h.unplugged origin ns = s.answerAll h origin ns := by
  induction ns generalizing s with
  | nil => rfl
  | cons n ns ih =>
      simp only [SinkInput.answerAll, SinkInput.answer, rowCount_unplugged, cells_unplugged, ih]

/-- A sink answers alike where outputs are alike. -/
theorem answerAll_congr (hg : g.unplugged = h.unplugged) (origin : Origin) (ns : List Notice)
    (s : SinkInput) : s.answerAll g origin ns = s.answerAll h origin ns := by
  rw [← answerAll_unplugged, hg, answerAll_unplugged]

theorem schema_unplugged (h : Hub) (o : OutputId) :
    (h.unplugged.display? o).bind (·.publisher.schema) =
      (h.display? o).bind (·.publisher.schema) := by
  rcases o with k | k | ⟨c, id⟩
  · rw [display?, display?, tables_unplugged]
    rcases h.tables[k]? with _ | (t | t) <;> rfl
  · rfl
  · rfl

/-! #### Changing -/

theorem unplugged_emit (h : Hub) (o : OutletId) (r : Response) :
    (h.emit o r).unplugged = h.unplugged := rfl

theorem unplugged_addInput (h : Hub) (x : Input) : (h.addInput x).1.unplugged = h.unplugged := rfl

theorem unplugged_act (h : Hub) (k : Nat) (a : Act) :
    (h.deed k (.act a)).unplugged = h.unplugged.deed k (.act a) := by
  have htables : (h.tables.modify k (·.act a)).map AnyTable.unplugged =
      (h.tables.map AnyTable.unplugged).modify k (·.act a) :=
    map_modify (fun t => (t.plugged_act [] a).symm) h.tables k
  simp only [deed, unplugged, htables]

/-- Changing what is attached to a table. -/
theorem unplugged_mapPublisher (h : Hub) (k : Nat) {f : Publisher → Publisher}
    (hf : ∀ p, { f p with inputs := [] } = { p with inputs := [] }) :
    (h.mapPublisher f (.table k)).unplugged = h.unplugged := by
  have htable : ∀ t : AnyTable, (t.mapTable fun t => { t with publisher := f t.publisher }).unplugged =
      id t.unplugged := by
    rintro (t | t)
    · exact congrArg (fun p => AnyTable.plain { t with publisher := p }) (hf t.publisher)
    · exact congrArg (fun p => AnyTable.keyed { t with table := { t.table with publisher := p } })
        (hf t.table.publisher)
  have htables := map_modify htable h.tables k
  rw [List.modify_id] at htables
  simp only [mapPublisher, unplugged, htables]

theorem unplugged_attach (h : Hub) (k : Nat) (i : InputId) :
    (h.attach (.table k) i).unplugged = h.unplugged := by
  rcases ht : h.tables[k]? with _ | t
  · simp [attach, display?, ht]
  · have hentered : (h.entered k i).unplugged = h.unplugged := by
      refine unplugged_mapPublisher h k fun p => ?_
      rw [Publisher.attach]
      split <;> rfl
    rw [attach_eq ht]
    split
    · rfl
    · exact (sameOutputs_tellAll ..).unplugged.trans hentered

theorem unplugged_detach (h : Hub) (k : Nat) (i : InputId) :
    (h.detach (.table k) i).1.unplugged = h.unplugged := by
  rcases ht : h.tables[k]? with _ | t
  · simp [detach, attached, display?, ht]
  · have hleft : (h.left k i).unplugged = h.unplugged := unplugged_mapPublisher h k fun p => rfl
    rw [detach_eq ht]
    split
    · exact (sameOutputs_tellAll ..).unplugged.trans hleft
    · rfl

theorem tables_published (ht : h.tables[k]? = some t) :
    (h.published k t).tables = h.tables.modify k (·.mapTable fun t => t.publish.1) := by
  refine List.ext_getElem? fun n => ?_
  by_cases hk : k = n
  · subst hk
    rw [table_published ht, List.getElem?_modify_eq, ht]
    rfl
  · rw [List.getElem?_modify_ne _ _ hk]
    exact List.getElem?_set_ne hk

theorem unplugged_published (ht : h.tables[k]? = some t) :
    (h.published k t).unplugged =
      { h.unplugged with tables := h.unplugged.tables.modify k (·.mapTable fun t => t.publish.1) } := by
  have htables : (h.published k t).tables.map AnyTable.unplugged =
      (h.tables.map AnyTable.unplugged).modify k (·.mapTable fun t => t.publish.1) := by
    rw [tables_published ht]
    exact map_modify (fun t => (t.plugged_publish []).symm) h.tables k
  simp only [unplugged, htables]
  rfl

theorem tables_fire (h : Hub) (k : Nat) :
    (h.fire k).tables = h.tables.modify k (·.mapTable fun t => t.fire.1) := by
  refine List.ext_getElem? fun n => ?_
  rcases ht : h.tables[k]? with _ | t
  · rw [fire, ht]
    by_cases hk : k = n
    · subst hk
      rw [List.getElem?_modify_eq, ht]
      rfl
    · rw [List.getElem?_modify_ne _ _ hk]
  · by_cases hk : k = n
    · subst hk
      rw [table_fire ht, List.getElem?_modify_eq, ht]
      rfl
    · rw [table_fire_of_ne ht hk, List.getElem?_modify_ne _ _ hk]

theorem unplugged_fire (h : Hub) (k : Nat) :
    (h.fire k).unplugged =
      { h.unplugged with tables := h.unplugged.tables.modify k (·.mapTable fun t => t.fire.1) } := by
  have htables : (h.fire k).tables.map AnyTable.unplugged =
      (h.tables.map AnyTable.unplugged).modify k (·.mapTable fun t => t.fire.1) := by
    rw [tables_fire]
    exact map_modify (fun t => (t.plugged_fire []).symm) h.tables k
  have hrest : (h.fire k).replicas = h.replicas ∧ (h.fire k).clients = h.clients ∧
      (h.fire k).ended = h.ended := by
    rcases ht : h.tables[k]? with _ | t
    · rw [fire, ht]
      exact ⟨rfl, rfl, rfl⟩
    · have hsame := sameOutputs_tellEach (h.published k t) (.output (.table k))
        t.table.publisher.inputs t.table.publish.2
      rw [fire_eq ht]
      exact ⟨hsame.replicas, hsame.clients, hsame.ended⟩
  simp only [unplugged, htables, hrest]

end Hub

end TableFeed
