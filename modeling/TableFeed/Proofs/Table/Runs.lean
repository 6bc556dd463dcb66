import Mathlib
import TableFeed.Proofs.Hub.Notices
import TableFeed.Proofs.Table.ShownRows
/-!
Runs of one table of a hub: its owner changes it and has it fire, and inputs are attached to it, in
any order. The lemmas here say what one such deed does to the table, to its inputs and to what was
sent.
-/

namespace TableFeed

inductive Deed
  | act (a : Act)
  | fire
  | attach (i : InputId)

def Deed.inserts : Deed → Bool
  | act a => a.inserts
  | _ => false

namespace AnyTable

theorem table_mapTable (t : AnyTable) (f : Table → Table) : (t.mapTable f).table = f t.table := by
  cases t <;> rfl

theorem mapTable_mapTable (t : AnyTable) (f g : Table → Table) :
    (t.mapTable f).mapTable g = t.mapTable (g ∘ f) := by
  cases t <;> rfl

end AnyTable

namespace Hub

variable (id : Nat)

def deed (h : Hub) : Deed → Hub
  | .act a => { h with tables := h.tables.modify id (·.act a) }
  | .fire => h.fire id
  | .attach i => h.attach (.table id) i

def deeds (h : Hub) (ds : List Deed) : Hub := ds.foldl (fun h d => h.deed id d) h

/-- Whether an id is left for every row that is inserted: not all 2³² of them are live or wait for
the next pass. -/
def HasRoomFor (h : Hub) : List Deed → Prop
  | [] => True
  | d :: ds =>
    (d.inserts = true → ∀ t, h.tables[id]? = some t → t.table.rows.HasRoom) ∧
      (h.deed id d).HasRoomFor ds

theorem deeds_append (h : Hub) (ds es : List Deed) :
    h.deeds id (ds ++ es) = (h.deeds id ds).deeds id es := List.foldl_append

variable {id} {h : Hub} {t : AnyTable}

/-! ### Owner's operations -/

theorem table_act (ht : h.tables[id]? = some t) (a : Act) :
    (h.deed id (.act a)).tables[id]? = some (t.act a) := by
  simp [deed, ht]

/-- Another table does not notice. -/
theorem table_act_of_ne {other : Nat} (hne : id ≠ other) (a : Act) :
    (h.deed id (.act a)).tables[other]? = h.tables[other]? := by
  simp [deed, hne]

/-! ### Passes -/

/-- A hub while a pass of a table is told: the table shows it already. -/
def published (h : Hub) (id : Nat) (t : AnyTable) : Hub :=
  h.setTable id (t.mapTable fun t => t.publish.1)

theorem table_published (ht : h.tables[id]? = some t) :
    (h.published id t).tables[id]? = some (t.mapTable fun t => t.publish.1) := by
  obtain ⟨hlt, -⟩ := List.getElem?_eq_some_iff.mp ht
  exact List.getElem?_set_self hlt

theorem display?_table (ht : h.tables[id]? = some t) :
    h.display? (.table id) = some t.table.display := by
  simp [display?, ht]

theorem attached_table (h : Hub) (id : Nat) :
    h.attached (.table id) = (h.tables[id]?.map fun t => t.table.publisher.inputs).getD [] := by
  rw [attached, display?]
  cases h.tables[id]? <;> rfl

theorem attached_of_table (ht : h.tables[id]? = some t) :
    h.attached (.table id) = t.table.publisher.inputs := by
  rw [attached_table, ht]
  rfl

theorem inputs_publish (t : Table) : t.publish.1.publisher.inputs = t.publisher.inputs := by
  simp only [Table.publish, Publisher.publish]
  split <;> rfl

theorem attached_published (ht : h.tables[id]? = some t) :
    (h.published id t).attached (.table id) = t.table.publisher.inputs := by
  rw [attached_of_table (table_published ht), AnyTable.table_mapTable]
  exact inputs_publish t.table

theorem fire_eq (ht : h.tables[id]? = some t) :
    h.fire id =
      let told := (h.published id t).tellEach (.output (.table id)) t.table.publisher.inputs
        t.table.publish.2
      { told with tables := told.tables.modify id (·.mapTable Table.settle) } := by
  simp only [fire, ht, ← attached_published ht]
  rfl

theorem table_fire (ht : h.tables[id]? = some t) :
    (h.fire id).tables[id]? = some (t.mapTable fun t => t.fire.1) := by
  rw [fire_eq ht]
  simp only [List.getElem?_modify, (sameOutputs_tellEach ..).tables, table_published ht, if_true]
  show some ((t.mapTable fun t => t.publish.1).mapTable Table.settle) = _
  rw [AnyTable.mapTable_mapTable]
  rfl

theorem table_fire_of_ne (ht : h.tables[id]? = some t) {other : Nat} (hne : id ≠ other) :
    (h.fire id).tables[other]? = h.tables[other]? := by
  rw [fire_eq ht]
  simp only [List.getElem?_modify, (sameOutputs_tellEach ..).tables, hne, if_false, id_map']
  exact List.getElem?_set_ne hne

theorem input_fire (ht : h.tables[id]? = some t) (i : InputId) :
    (h.fire id).inputs[i]? = ((h.published id t).tellEach (.output (.table id))
      t.table.publisher.inputs t.table.publish.2).inputs[i]? := by
  rw [fire_eq ht]

/-! ### Attaching -/

def entered (h : Hub) (id : Nat) (i : InputId) : Hub :=
  h.mapPublisher (·.attach i) (.table id)

theorem attach_eq (ht : h.tables[id]? = some t) (i : InputId) :
    h.attach (.table id) i =
      if i ∈ t.table.publisher.inputs then h
      else (h.entered id i).tellAll (.output (.table id)) i t.table.publisher.replay := by
  simp only [attach, display?_table ht, Table.display, Publisher.isAttached, List.contains_iff_mem]
  rfl

theorem table_entered (ht : h.tables[id]? = some t) (i : InputId) :
    (h.entered id i).tables[id]? =
      some (t.mapTable fun t => { t with publisher := t.publisher.attach i }) := by
  simp [entered, mapPublisher, ht]

theorem table_attach (ht : h.tables[id]? = some t) (i : InputId) :
    (h.attach (.table id) i).tables[id]? =
      some (t.mapTable fun t => { t with publisher := t.publisher.attach i }) := by
  rw [attach_eq ht]
  split
  · next hi =>
    have hsame : t.table.publisher.attach i = t.table.publisher := by
      simp [Publisher.attach, Publisher.isAttached, hi]
    rw [ht]
    cases t with
    | plain t =>
        simp only [AnyTable.mapTable, AnyTable.table] at hsame ⊢
        rw [hsame]
    | keyed k =>
        simp only [AnyTable.mapTable, AnyTable.table] at hsame ⊢
        rw [hsame]
  · rw [(sameOutputs_tellAll ..).tables, table_entered ht]

theorem table_attach_of_ne {other : Nat} (hne : id ≠ other) (i : InputId) :
    (h.attach (.table id) i).tables[other]? = h.tables[other]? := by
  rcases ht : h.tables[id]? with _ | t
  · simp [attach, display?, ht]
  · rw [attach_eq ht]
    split
    · rfl
    · rw [(sameOutputs_tellAll ..).tables]
      simp [entered, mapPublisher, hne]

/-! ### Detaching -/

def left (h : Hub) (id : Nat) (i : InputId) : Hub := h.mapPublisher (·.detach i) (.table id)

theorem detach_eq (ht : h.tables[id]? = some t) (i : InputId) :
    (h.detach (.table id) i).1 =
      if i ∈ t.table.publisher.inputs then
        (h.left id i).tellAll (.output (.table id)) i Publisher.farewell
      else h := by
  simp only [detach, attached, display?_table ht, Table.display, Option.map_some,
    Option.getD_some, List.contains_iff_mem]
  split <;> rfl

theorem table_left (ht : h.tables[id]? = some t) (i : InputId) :
    (h.left id i).tables[id]? =
      some (t.mapTable fun t => { t with publisher := t.publisher.detach i }) := by
  simp [left, mapPublisher, ht]

theorem table_left_of_ne {other : Nat} (hne : id ≠ other) (i : InputId) :
    (h.left id i).tables[other]? = h.tables[other]? := by
  simp [left, mapPublisher, hne]

/-- A sink that is told that it is detached sends nothing. -/
theorem sentTo_farewell {o : OutletId} (hopen : h.IsOpen o) (origin : Origin) (i : InputId) :
    (h.tellAll origin i Publisher.farewell).sentTo o = h.sentTo o := by
  have hsilent : ∀ n, n = .schema none ∨ n = .source false → ∀ (g : Hub) (s : SinkInput),
      (s.answer g origin n).2 = [] := by
    rintro n (rfl | rfl) g s
    · rw [SinkInput.answer]
      cases hphase : (SinkInput.follow s origin (.schema none)).sink.phase <;>
        simp only [Sink.hear, hphase]
    · rfl
  have htell : ∀ n, n = .schema none ∨ n = .source false → ∀ g : Hub, g.IsOpen o →
      (g.tell origin i n).sentTo o = g.sentTo o := by
    intro n hn g hg
    by_cases hsink : ∃ s, g.inputs[i]? = some (.sink s)
    · obtain ⟨s, hs⟩ := hsink
      rw [sentTo_tell_sink hg hs, hsilent n hn, List.append_nil, ite_self]
    · exact sentTo_tell_of_not_sink (fun s hs => hsink ⟨s, hs⟩) n
  have hfirst := htell (.schema none) (.inl rfl) h hopen
  have hsecond := htell (.source false) (.inr rfl) (h.tell origin i (.schema none))
    (isOpen_tell hopen _)
  exact hsecond.trans hfirst

end Hub

/-! ### What every deed keeps -/

theorem Table.Coherent.attach {t : Table} (h : t.Coherent) (i : InputId) :
    Coherent { t with publisher := t.publisher.attach i } := by
  rw [Publisher.attach]
  split
  · exact h
  · exact ⟨h.sound, h.live_iff, h.added_hidden, h.removed_shown, h.changed_shown,
      h.removed_retired, h.shown, h.latest, h.shelved⟩

theorem Publisher.nodup_attach {p : Publisher} (h : p.inputs.Nodup) (i : InputId) :
    (p.attach i).inputs.Nodup := by
  rw [attach]
  split
  · exact h
  · next hi =>
    rw [Publisher.isAttached, List.contains_iff_mem] at hi
    show (p.inputs ++ [i]).Nodup
    rw [List.nodup_append]
    refine ⟨h, List.nodup_singleton i, fun a ha b hb => ?_⟩
    rw [List.mem_singleton.mp hb]
    exact fun heq => hi (heq ▸ ha)

theorem Publisher.rows_attach (p : Publisher) (i : InputId) : (p.attach i).rows = p.rows := by
  rw [attach]
  split <;> rfl

theorem Publisher.mem_attach {p : Publisher} {i j : InputId} :
    j ∈ (p.attach i).inputs ↔ j ∈ p.inputs ∨ j = i := by
  rw [attach]
  split
  · next hi =>
    rw [Publisher.isAttached, List.contains_iff_mem] at hi
    exact ⟨.inl, fun h => h.elim id fun heq => heq ▸ hi⟩
  · simp

theorem Table.Coherent.detach {t : Table} (h : t.Coherent) (i : InputId) :
    Coherent { t with publisher := t.publisher.detach i } :=
  ⟨h.sound, h.live_iff, h.added_hidden, h.removed_shown, h.changed_shown, h.removed_retired,
    h.shown, h.latest, h.shelved⟩

theorem Move.inputs_eq {t t' : Table} (h : Move t t') :
    t'.publisher.inputs = t.publisher.inputs := by
  cases h <;> rfl

theorem Move.rows_eq {t t' : Table} (h : Move t t') : t'.publisher.rows = t.publisher.rows := by
  cases h <;> rfl

end TableFeed
