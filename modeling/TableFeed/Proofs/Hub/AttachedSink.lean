import Mathlib
import TableFeed.Proofs.Sink.ServesTable
import TableFeed.Proofs.Table.Publication
/-!
Sinks at their post: attached to a table of a hub, among other inputs. What happens to the table
leads the sink on, and what it sends then leads the machine along.
-/

namespace TableFeed

/-! ### Tables with small row ids -/

/-- Rows that are live, that wait for the next pass or that are shown have ids up to a limit. -/
def Table.Within (t : Table) (limit : RowId) : Prop :=
  ∀ row, row ∈ t.rows.live ∨ row ∈ t.rows.retired ∨ row ∈ t.publisher.rows → row ≤ limit

namespace Table.Within

variable {t t' : Table} {limit : RowId}

theorem move (h : t.Within limit) (hmove : Move t t') (hlive : ∀ row ∈ t'.rows.live, row ≤ limit) :
    t'.Within limit := by
  have hshown : ∀ row ∈ t'.publisher.rows, row ≤ limit := fun row hrow =>
    h row (.inr (.inr (hmove.rows_eq ▸ hrow)))
  have hretired : ∀ row ∈ t'.rows.retired, row ≤ limit := by
    intro row hrow
    cases hmove with
    | idle sound live retired schema kept => exact h row (.inr (.inl (retired ▸ hrow)))
    | added sound new unused live retired rewrites =>
        exact h row (.inr (.inl (retired ▸ hrow)))
    | changed there rewrites => exact h row (.inr (.inl hrow))
    | removed sound there live retired =>
        rw [retired, List.mem_append, List.mem_singleton] at hrow
        rcases hrow with hrow | rfl
        · exact h row (.inr (.inl hrow))
        · exact h row (.inl there)
    | replaced schema => exact h row (.inr (.inl hrow))
  rintro row (hrow | hrow | hrow)
  · exact hlive row hrow
  · exact hretired row hrow
  · exact hshown row hrow

theorem fire (h : t.Within limit) (hc : t.Coherent) : t.fire.1.Within limit := by
  have hrows : t.fire.1.publisher.rows = t.rows.live := hc.rows_publish
  rintro row (hrow | hrow | hrow)
  · exact h row (.inl hrow)
  · exact absurd hrow List.not_mem_nil
  · exact h row (.inl (hrows ▸ hrow))

/-- Inputs come and go. -/
theorem with_publisher (h : t.Within limit) {p : Publisher} (hrows : p.rows = t.publisher.rows) :
    Within { t with publisher := p } limit := by
  rintro row (hrow | hrow | hrow)
  · exact h row (.inl hrow)
  · exact h row (.inr (.inl hrow))
  · exact h row (.inr (.inr (hrows ▸ hrow)))

/-- The highest id of all is free. -/
theorem hasRoom (h : t.Within limit) (hlimit : limit < 0xffffffff) : t.rows.HasRoom := by
  have hnot : ¬(0xffffffff : RowId) ≤ limit := UInt32.not_le.mpr hlimit
  exact ⟨0xffffffff, fun hrow => hnot (h _ (.inl hrow)), fun hrow => hnot (h _ (.inr (.inl hrow)))⟩

end Table.Within

/-- What is asked of a table all along: its row ids are up to a limit, and there are numbers for its
fields on the wire, or frames are too short for so many. -/
def Table.Fits (limit : RowId) (frameLimit : Nat) (t : Table) : Prop :=
  (∀ row ∈ t.rows.live, row ≤ limit) ∧
    (t.schema.size ≤ 0x100000000 ∨ frameLimit ≤ 0x100000000)

instance (limit : RowId) (frameLimit : Nat) (t : Table) : Decidable (t.Fits limit frameLimit) :=
  -- over the rows there are, not over all ids
  have : Decidable (∀ row ∈ t.rows.live.toList, row ≤ limit) := List.decidableBAll _ _
  inferInstanceAs (Decidable ((∀ row ∈ t.rows.live.toList, row ≤ limit) ∧ (_ ∨ _)))

/-! ### Sinks -/

namespace Hub

def Employs (h : Hub) (i : InputId) (o : OutletId) (e : Encoder) (s : SinkInput) : Prop :=
  h.inputs[i]? = some (.sink s) ∧ s.outlet = o ∧ e.Same s.sink.encoder

def Awaiting (h : Hub) (t : Table) (i : InputId) (o : OutletId) (e : Encoder) : Prop :=
  i ∉ t.publisher.inputs ∧ ∃ s, h.Employs i o e s ∧ s.sink.phase = .awaitingSchema

/-- A sink that is attached to table `id`, and that stands there with its machine after it has said
`n` times that it fails. -/
def Posted (h : Hub) (id : Nat) (t : Table) (i : InputId) (o : OutletId) (e : Encoder) (m : Mirror)
    (n : Nat) : Prop :=
  i ∈ t.publisher.inputs ∧ ∃ s, h.Employs i o e s ∧ s.Standing id t m n

def Alone (h : Hub) (i : InputId) (o : OutletId) (sub : Int32) : Prop :=
  ∀ j ≠ i, ¬∃ x, h.inputs[j]? = some x ∧ x.Addresses o sub

variable {h g : Hub} {id : Nat} {t : AnyTable} {i : InputId} {o : OutletId} {e : Encoder}
  {m : Mirror} {n : Nat} {limit : RowId}

theorem Alone.of_sameInputs {sub : Int32} (halone : h.Alone i o sub) (hg : h.SameInputs g) :
    g.Alone i o sub := fun j hj => mt (hg.addresses_iff j).mp (halone j hj)

/-- A sink answers and goes on for the same encoder. -/
theorem Employs.answered {s : SinkInput} (hs : h.Employs i o e s) {origin : Origin}
    {ns : List Notice} (hi : g.inputs[i]? = some (.sink (s.answerAll h origin ns).1)) :
    g.Employs i o e (s.answerAll h origin ns).1 := by
  obtain ⟨ho, hsame, -⟩ := SinkInput.answerAll_addresses h origin ns s
  exact ⟨hi, ho.trans hs.2.1, hs.2.2.trans hsame⟩

namespace Posted

/-- Only the sink itself and its table matter. -/
theorem congr {t : Table} (h' : h.Posted id t i o e m n) (hi : g.inputs[i]? = h.inputs[i]?) :
    g.Posted id t i o e m n := by
  obtain ⟨hmem, s, hs, hstands⟩ := h'
  exact ⟨hmem, s, ⟨hi.trans hs.1, hs.2⟩, hstands⟩

theorem move {t t' : Table} (h' : h.Posted id t i o e m n) (hc : t.Coherent) (hmove : Move t t') :
    h.Posted id t' i o e m n := by
  obtain ⟨hmem, s, hs, hstands⟩ := h'
  exact ⟨hmove.inputs_eq ▸ hmem, s, hs, hstands.move hc hmove⟩

/-- Other inputs come and go. -/
theorem with_publisher {t : Table} (h' : h.Posted id t i o e m n) {p : Publisher}
    (hrows : p.rows = t.publisher.rows) (hi : i ∈ p.inputs) :
    h.Posted id { t with publisher := p } i o e m n := by
  obtain ⟨-, s, hs, hstands⟩ := h'
  exact ⟨hi, s, hs, hstands.with_publisher hrows⟩

/-- A pass of the table. -/
theorem fire (h' : h.Posted id t.table i o e m n) (hp : h.Publishes id t)
    (hwithin : t.table.Within limit)
    (hsize : t.table.schema.size ≤ 0x100000000 ∨ e.limit ≤ 0x100000000) (hopen : h.IsOpen o)
    (halone : h.Alone i o e.subscription) :
    ∃ rs m', (h.fire id).sentFor o e.subscription = h.sentFor o e.subscription ++ rs ∧
      m.Takes e.subscription limit rs m' ∧
      (h.fire id).Posted id t.table.fire.1 i o e m' (n + failures rs) := by
  obtain ⟨hi, s, hs, hstands⟩ := h'
  have hsub : s.sink.subscription = e.subscription := hs.2.2.1
  have hopen' : (h.published id t).IsOpen o := hopen
  have hs' : (h.published id t).inputs[i]? = some (.sink s) := hs.1
  have hd : (h.published id t).display? (.table id) = some t.table.publish.1.display := by
    rw [display?_table (table_published hp.table), AnyTable.table_mapTable]
  have hinputs : t.table.fire.1.publisher.inputs = t.table.publisher.inputs := inputs_publish t.table
  have hsize' : t.table.schema.size ≤ 0x100000000 ∨ s.sink.encoder.limit ≤ 0x100000000 := by
    rw [hs.2.2.2.2]
    exact hsize
  obtain ⟨m', htakes, hstands'⟩ := hstands.pass hp.coherent hsize'
    (fun row hrow => hwithin row (.inl hrow)) (fun row hrow => hwithin row (.inr (.inr hrow))) hd
  rw [hsub] at htakes
  refine ⟨_, m', ?_, htakes, ?_, _, ?_, hstands'⟩
  · rw [fire_eq hp.table, hp.coherent.notices_publish]
    exact sentFor_tellEach hopen' hs' hs.2.1 hsub hp.nodup hi (fun j _ hj => halone j hj) _
  · rw [hinputs]
    exact hi
  · refine Employs.answered (h := h.published id t) hs ?_
    rw [input_fire hp.table, hp.coherent.notices_publish, input_tellEach_of_mem hp.nodup hi,
      input_tellAll_sink hs']

end Posted

/-- A sink is attached, and gets what is shown. If it does not give up, its machine shows just
that. -/
theorem Awaiting.attach (h' : h.Awaiting t.table i o e) (hp : h.Publishes id t)
    (hwithin : t.table.Within limit)
    (hsize : t.table.shown.schema.size ≤ 0x100000000 ∨ e.limit ≤ 0x100000000)
    (hdistinct : ∀ names, e.requested = some names → names.Nodup) (hopen : h.IsOpen o)
    (m : Mirror) :
    ∃ rs m', (h.attach (.table id) i).sentFor o e.subscription =
        h.sentFor o e.subscription ++ rs ∧
      m.Takes e.subscription limit rs m' ∧
      (h.attach (.table id) i).Posted id
        { t.table with publisher := t.table.publisher.attach i } i o e m' (failures rs) ∧
      (failures rs = 0 → ∃ (s : Sink) (ids : List FieldId), e.Same s.encoder ∧
        s.Shows t.table.shown t.table.publisher.rows ids m') := by
  obtain ⟨hi, s, hs, hphase⟩ := h'
  obtain ⟨t', ht'⟩ : ∃ t', t' = { t.table with publisher := t.table.publisher.attach i } := ⟨_, rfl⟩
  have hopen' : (h.entered id i).IsOpen o := hopen
  have hs' : (h.entered id i).inputs[i]? = some (.sink s) := hs.1
  have hsub : s.sink.subscription = e.subscription := hs.2.2.1
  have hreplay : t'.publisher.replay = t.table.publisher.replay := by
    rw [ht', Publisher.attach]
    split <;> rfl
  have hd : (h.entered id i).display? (.table id) = some t'.display := by
    rw [display?_table (table_entered hp.table i), AnyTable.table_mapTable, ht']
  have hserve : s.sink.CanServe t'.shown.schema := by
    refine ⟨fun names hnames => hdistinct names (hs.2.2.2.1 ▸ hnames), ?_⟩
    rw [ht', hs.2.2.2.2]
    exact hsize
  have hc : t'.Coherent := ht' ▸ hp.coherent.attach i
  have hwithin' : t'.Within limit := ht' ▸ hwithin.with_publisher (Publisher.rows_attach _ i)
  have hgoes : s.sink.phase ≠ .failed := by
    rw [hphase]
    exact Phase.noConfusion
  obtain ⟨m', htakes, hstands, hshows⟩ := SinkInput.Standing.replay (m := m) hgoes hc hserve
    (fun row hrow => hwithin' row (.inr (.inr hrow))) hd
  rw [hreplay, hsub] at htakes
  rw [hreplay] at hstands hshows
  have hemploys : ((h.entered id i).tellAll (.output (.table id)) i
      t.table.publisher.replay).Employs i o e _ :=
    Employs.answered (h := h.entered id i) hs (input_tellAll_sink hs' _)
  rw [attach_eq hp.table, if_neg hi, ← ht']
  refine ⟨_, m', ?_, htakes, ⟨?_, _, hemploys, hstands⟩, fun hnone => ?_⟩
  · exact sentFor_tellAll hopen' hs' hs.2.1 hsub _
  · rw [ht']
    exact Publisher.mem_attach.mpr (.inr rfl)
  · obtain ⟨ids, hids⟩ := hshows hnone
    have hrows : t'.publisher.rows = t.table.publisher.rows := by
      rw [ht']
      exact Publisher.rows_attach _ i
    have hsheet : t'.shown = t.table.shown := by rw [ht']; rfl
    rw [hrows, hsheet] at hids
    exact ⟨_, ids, hemploys.2.2, hids⟩

end Hub

end TableFeed
