import Mathlib
import TableFeed.Proofs.Sink.TableMirror
/-!
Several sinks at one table. Whenever they were attached, their replicas have the rows that the table
published last and the fields of the schema that it published, and each shows in a cell what the
table held when its sink was told last: at a pass, or when it was attached. So a sink that joins
between a write and the pass that tells of it is ahead of the others until that pass.
-/

namespace TableFeed

def Deed.tells (inputs : List InputId) (i : InputId) : Deed → Bool
  | act _ => false
  | fire => inputs.contains i
  | attach j => j == i && !inputs.contains i

namespace Hub

def shown? (h : Hub) (id : Nat) : Option Sheet := h.tables[id]?.map (·.table.shown)

/-- What a table showed when its output told an input last. Before the deeds it was `old`. -/
def lastTold (id : Nat) (i : InputId) (h : Hub) (old : Option Sheet) : List Deed → Option Sheet
  | [] => old
  | d :: ds =>
    (h.deed id d).lastTold id i
      (if d.tells (h.attached (.table id)) i then (h.deed id d).shown? id else old) ds

variable {h : Hub} {id : Nat}

theorem lastTold_append (i : InputId) (old : Option Sheet) (ds es : List Deed) :
    h.lastTold id i old (ds ++ es) = (h.deeds id ds).lastTold id i (h.lastTold id i old ds) es := by
  induction ds generalizing h old with
  | nil => rfl
  | cons d ds ih => exact ih ..

theorem shown?_table {t : AnyTable} (ht : h.tables[id]? = some t) :
    h.shown? id = some t.table.shown := by
  rw [shown?, ht, Option.map_some]

/-- What an attached sink has sent so far leads a machine to show the rows that the table shows, with
the cells as they are in `told`. -/
def Recalls (h : Hub) (t : Table) (i : InputId) (o : OutletId) (e : Encoder) (limit : RowId)
    (told : Option Sheet) : Prop :=
  i ∈ t.publisher.inputs → failures (h.sentFor o e.subscription) = 0 →
    ∃ (sheet : Sheet) (s : Sink) (ids : List FieldId) (m : Mirror), told = some sheet ∧
      sheet.schema = t.shown.schema ∧ e.Same s.encoder ∧
      Mirror.Takes e.subscription limit {} (h.sentFor o e.subscription) m ∧
      s.Shows sheet t.publisher.rows ids m

namespace Feeds

variable {t : AnyTable} {i : InputId} {o : OutletId} {e : Encoder} {limit : RowId}
  {told : Option Sheet}

/-! ### One deed -/

/-- What the owner does is not told before the next pass. -/
theorem recalls_act (hf : h.Feeds id t i o e limit) (hlimit : limit < 0xffffffff)
    (hr : h.Recalls t.table i o e limit told) (a : Act) :
    (h.deed id (.act a)).Recalls (t.act a).table i o e limit told := by
  have hmove := AnyTable.moves_act hf.publishes.coherent.sound fun _ : a.inserts = true =>
    hf.within.hasRoom hlimit
  intro hi hnone
  obtain ⟨sheet, s, ids, m, htold, hschema, hsame, htakes, hshows⟩ := hr (hmove.inputs_eq ▸ hi) hnone
  exact ⟨sheet, s, ids, m, htold, hschema.trans (hf.publishes.coherent.shown_move hmove).symm, hsame,
    htakes, hmove.rows_eq ▸ hshows⟩

/-- A pass tells all that was done. -/
theorem recalls_fire (hf : h.Feeds id t i o e limit) (hfits : t.table.Fits limit e.limit) :
    (h.fire id).Recalls t.table.fire.1 i o e limit (some t.table.fire.1.shown) := by
  intro hi hnone
  have hupholds := hf.upholds_fire hfits
  obtain ⟨m, htakes, -, s, ⟨-, -, hsame⟩, hstands⟩ := hupholds.resolve_left fun h' => h'.1.1 hi
  rw [hnone] at hstands
  cases hstands with
  | serves source reads serves =>
      exact ⟨_, s.sink, _, m, rfl, rfl, hsame, htakes, serves.shows_shown rfl⟩

/-- A sink that is attached is told all that is shown, and no other is told anything. -/
theorem recalls_attach (hf : h.Feeds id t i o e limit)
    (hdistinct : ∀ names, e.requested = some names → names.Nodup)
    (hr : h.Recalls t.table i o e limit told) (j : InputId) :
    (h.attach (.table id) j).Recalls { t.table with publisher := t.table.publisher.attach j } i o e
      limit (if (Deed.attach j).tells t.table.publisher.inputs i then some t.table.shown else told) := by
  have hrows := Publisher.rows_attach t.table.publisher j
  intro hi hnone
  by_cases hnew : j = i ∧ i ∉ t.table.publisher.inputs
  · obtain ⟨rfl, hout⟩ := hnew
    have htells : (Deed.attach j).tells t.table.publisher.inputs j = true := by
      simp [Deed.tells, hout]
    rw [htells, if_pos rfl]
    rcases hf.upholds with ⟨hawaiting, hunsent⟩ | ⟨m, -, hposted⟩
    · obtain ⟨rs, m, hsent, htakes, -, hshows⟩ := hawaiting.attach hf.publishes hf.within hf.size
        hdistinct hf.isOpen {}
      rw [hunsent, List.nil_append] at hsent
      rw [hsent] at hnone ⊢
      obtain ⟨s, ids, hsame, hids⟩ := hshows hnone
      exact ⟨_, s, ids, m, rfl, rfl, hsame, htakes, hrows.symm ▸ hids⟩
    · exact absurd hposted.1 hout
  · have hsilent : i ≠ j ∨ j ∈ t.table.publisher.inputs := by
      by_cases hij : i = j
      · exact .inr (hij ▸ not_not.mp fun hout => hnew ⟨hij.symm, hout⟩)
      · exact .inl hij
    have hold : i ∈ t.table.publisher.inputs := by
      rcases Publisher.mem_attach.mp hi with hold | heq
      · exact hold
      · exact heq ▸ hsilent.resolve_left fun hne => hne heq
    have htells : (Deed.attach j).tells t.table.publisher.inputs i = false := by
      simp [Deed.tells, hold]
    rw [hf.sentFor_attach_of_silent hsilent] at hnone ⊢
    rw [htells, if_neg Bool.false_ne_true, hrows]
    exact hr hold hnone

theorem recalls_deed (hf : h.Feeds id t i o e limit) (hlimit : limit < 0xffffffff)
    (hdistinct : ∀ names, e.requested = some names → names.Nodup) {d : Deed} {ds : List Deed}
    (hfits : h.Throughout id (Table.Fits limit e.limit) (d :: ds))
    (hr : h.Recalls t.table i o e limit told) {t' : AnyTable}
    (ht' : (h.deed id d).tables[id]? = some t') :
    (h.deed id d).Recalls t'.table i o e limit
      (if d.tells (h.attached (.table id)) i then (h.deed id d).shown? id else told) := by
  rw [attached_of_table hf.publishes.table, shown?_table ht']
  cases d with
  | act a =>
      obtain rfl := Option.some.inj ((table_act hf.publishes.table a).symm.trans ht')
      exact hf.recalls_act hlimit hr a
  | fire =>
      obtain rfl := Option.some.inj ((table_fire hf.publishes.table).symm.trans ht')
      rw [AnyTable.table_mapTable]
      intro hi
      have hin : i ∈ t.table.publisher.inputs := inputs_publish t.table ▸ hi
      rw [Deed.tells, List.contains_iff_mem.mpr hin, if_pos rfl]
      exact hf.recalls_fire (hfits.head hf.publishes.table) hi
  | attach j =>
      obtain rfl := Option.some.inj ((table_attach hf.publishes.table j).symm.trans ht')
      rw [AnyTable.table_mapTable]
      exact hf.recalls_attach hdistinct hr j

/-! ### Runs -/

theorem recalls_deeds (hf : h.Feeds id t i o e limit) (hlimit : limit < 0xffffffff)
    (hdistinct : ∀ names, e.requested = some names → names.Nodup) (ds : List Deed)
    (hfits : h.Throughout id (Table.Fits limit e.limit) ds)
    (hr : h.Recalls t.table i o e limit told) {t' : AnyTable}
    (ht' : (h.deeds id ds).tables[id]? = some t') :
    (h.deeds id ds).Recalls t'.table i o e limit (h.lastTold id i told ds) := by
  induction ds generalizing h t told with
  | nil =>
      obtain rfl := Option.some.inj (hf.publishes.table.symm.trans ht')
      exact hr
  | cons d ds ih =>
      obtain ⟨t₁, hf₁, -⟩ := hf.deed hlimit hdistinct hfits
      exact ih hf₁ hfits.2 (hf.recalls_deed hlimit hdistinct hfits hr hf₁.publishes.table) ht'

/-- Inputs that are attached already are told at the same times. -/
theorem lastTold_congr (hf : h.Feeds id t i o e limit) (hlimit : limit < 0xffffffff)
    (hdistinct : ∀ names, e.requested = some names → names.Nodup) {j : InputId}
    (hi : i ∈ t.table.publisher.inputs) (hj : j ∈ t.table.publisher.inputs) (ds : List Deed)
    (hfits : h.Throughout id (Table.Fits limit e.limit) ds) :
    h.lastTold id i told ds = h.lastTold id j told ds := by
  induction ds generalizing h t told with
  | nil => rfl
  | cons d ds ih =>
      obtain ⟨t₁, hf₁, hin⟩ := hf.deed hlimit hdistinct hfits
      have htells : d.tells t.table.publisher.inputs i = d.tells t.table.publisher.inputs j := by
        cases d <;> simp [Deed.tells, hi, hj]
      rw [lastTold, lastTold, attached_of_table hf.publishes.table, htells]
      exact ih hf₁ (hin i (.inl hi)) (hin j (.inl hj)) hfits.2

end Feeds

end Hub

/-! ### Subscribers -/

/-- Who follows a table: an input that sends to an outlet for a subscription, in frames up to a
limit, and a replica that takes row ids up to another. -/
structure Subscriber where
  input : InputId
  outlet : OutletId
  subscription : Int32
  frameLimit : Nat
  rowLimit : RowId

/-- Whether a change of a cell waits for the next pass, as far as it can be told: of rows that are
removed it is not recorded. -/
def Table.Unsettled (t : Table) (row : RowId) (name : String) : Prop :=
  row ∈ t.batch.removed ∨ ∃ id, t.shown.schema.fieldId? name = some id ∧ t.batch.Changes row id

namespace Hub

def sentOn (h : Hub) (x : Subscriber) : List Response := h.sentFor x.outlet x.subscription

/-- What a new replica comes to that takes the responses sent to a subscriber. -/
def copy (h : Hub) (x : Subscriber) : Replica :=
  (({ subscription := x.subscription, rowLimit := x.rowLimit } : Replica).run
    ((h.sentOn x).map .accept)).1

/-- A subscriber that has got nothing yet. It is alone with its subscription, and a run of the table
stays in its limits. -/
structure Subscribes (h : Hub) (id : Nat) (requested : Option (List String)) (ds : List Deed)
    (x : Subscriber) : Prop where
  sink : h.inputs[x.input]? = some (.sink
    { sink := .create x.subscription requested x.frameLimit, outlet := x.outlet })
  isOpen : h.IsOpen x.outlet
  unsent : h.sentOn x = []
  alone : h.Alone x.input x.outlet x.subscription
  small : x.rowLimit < 0xffffffff
  fits : h.Throughout id (Table.Fits x.rowLimit x.frameLimit) ds

namespace Subscribes

variable {h : Hub} {id : Nat} {t : AnyTable} {schema : Schema} {requested : Option (List String)}
  {ds : List Deed} {x : Subscriber}

theorem toFeeds (hx : h.Subscribes id requested ds x) (ht : h.tables[id]? = some t)
    (hnew : t.table = .create schema) :
    h.Feeds id t x.input x.outlet (Sink.create x.subscription requested x.frameLimit).encoder
      x.rowLimit :=
  .fresh ht hnew hx.sink hx.isOpen hx.unsent hx.alone (hx.fits.head ht)

/-- Where an attached subscriber stands that has not given up: with a machine that its replica
reflects, and that shows the rows shown as they were told last. That is how they are now, but for what
waits for the next pass. -/
theorem exists_told_sheet (hx : h.Subscribes id requested ds x) (ht : h.tables[id]? = some t)
    (hnew : t.table = .create schema)
    (hdistinct : ∀ names, requested = some names → names.Nodup) (hin : .attach x.input ∈ ds)
    (hok : failures ((h.deeds id ds).sentOn x) = 0) {t' : AnyTable}
    (ht' : (h.deeds id ds).tables[id]? = some t') :
    ∃ (sheet : Sheet) (s : Sink) (ids : List FieldId) (m : Mirror),
      h.lastTold id x.input none ds = some sheet ∧ sheet.schema = t'.table.shown.schema ∧
      s.encoder.requested = requested ∧
      Reflects x.subscription x.rowLimit ((h.deeds id ds).copy x) m ∧
      s.Shows sheet t'.table.publisher.rows ids m ∧
      ∀ row ∈ t'.table.publisher.rows, ∀ name,
        (∀ names, requested = some names → name ∈ names) → ¬t'.table.Unsettled row name →
          sheet.look row name = t'.table.shown.look row name := by
  have hfeeds := hx.toFeeds ht hnew
  obtain ⟨t₁, hf, hjoined⟩ := hfeeds.deeds hx.small hdistinct ds hx.fits
  obtain rfl := Option.some.inj (hf.publishes.table.symm.trans ht')
  have hattached := hjoined x.input (.inr hin)
  have hstart : h.Recalls t.table x.input x.outlet
      (Sink.create x.subscription requested x.frameLimit).encoder x.rowLimit none := by
    intro hmem
    rw [hnew] at hmem
    cases hmem
  obtain ⟨sheet, s, ids, m, htold, hschema, hsame, htakes, hshows⟩ :=
    hfeeds.recalls_deeds hx.small hdistinct ds hx.fits hstart ht' hattached hok
  obtain ⟨hreflects, -⟩ := htakes.replica hx.small
  refine ⟨sheet, s, ids, m, htold, hschema, hsame.2.1, hreflects, hshows,
    fun row hrow name hname hquiet => ?_⟩
  -- the machine that serves the table is read by the same replica
  obtain ⟨m₁, htakes₁, -, s₁, ⟨-, -, hsame₁⟩, hstands⟩ :=
    hf.upholds.resolve_left fun h' => h'.1.1 hattached
  obtain ⟨hreflects₁, -⟩ := htakes₁.replica hx.small
  have hnone : failures ((h.deeds id ds).sentFor x.outlet
    (Sink.create x.subscription requested x.frameLimit).encoder.subscription) = 0 := hok
  rw [hnone] at hstands
  cases hstands with
  | serves source reads serves =>
      have hread := serves.get_eq hrow (fun hremoved => hquiet (.inl hremoved))
        (fun names hnames => hname names (hsame₁.2.1.symm.trans hnames))
        fun id hid hchanges => hquiet (.inr ⟨id, hid, hchanges⟩)
      have htold := hshows.tracks.get_eq
        (fun names hnames => hname names (hsame.2.1.symm.trans hnames))
        fun n id hid _ => hshows.cells row hrow n id hid
      rw [← htold, ← hread, ← hreflects.get_eq, ← hreflects₁.get_eq]

end Subscribes

end Hub

/-- Two subscribers of a table that ask for the same fields agree in every cell of which no change
waits for the next pass, whenever they were attached. -/
theorem subscribers_agree {h : Hub} {id : Nat} {t : AnyTable} {schema : Schema}
    (ht : h.tables[id]? = some t) (hnew : t.table = .create schema)
    (requested : Option (List String))
    (hdistinct : ∀ names, requested = some names → names.Nodup) (ds : List Deed)
    {x y : Subscriber} (hx : h.Subscribes id requested ds x) (hy : h.Subscribes id requested ds y)
    (hxin : .attach x.input ∈ ds) (hyin : .attach y.input ∈ ds)
    (hxok : failures ((h.deeds id ds).sentOn x) = 0)
    (hyok : failures ((h.deeds id ds).sentOn y) = 0) :
    let r := (h.deeds id ds).copy x
    let r' := (h.deeds id ds).copy y
    ∃ t', (h.deeds id ds).tables[id]? = some t' ∧
      r.phase = .live ∧ r'.phase = .live ∧ r.schema = r'.schema ∧
      r.liveRows = t'.table.publisher.rows.toList ∧
      r'.liveRows = t'.table.publisher.rows.toList ∧
      (∀ row ∈ t'.table.publisher.rows, ∀ name,
        (∀ names, requested = some names → name ∈ names) →
          (h.lastTold id x.input none ds).map (·.look row name) = some (r.get row name) ∧
          (h.lastTold id y.input none ds).map (·.look row name) = some (r'.get row name)) ∧
      (∀ row name, ¬t'.table.Unsettled row name → r.get row name = r'.get row name) ∧
      ∀ ds₁ ds₂, ds = ds₁ ++ .fire :: ds₂ → .attach x.input ∈ ds₁ → .attach y.input ∈ ds₁ →
        ∀ row name, r.get row name = r'.get row name := by
  intro r r'
  obtain ⟨t', hf', -⟩ := (hx.toFeeds ht hnew).deeds hx.small hdistinct ds hx.fits
  have ht' := hf'.publishes.table
  obtain ⟨sheet, s, ids, m, htold, hschema, hreq, hr, hshows, hquiet⟩ :=
    hx.exists_told_sheet ht hnew hdistinct hxin hxok ht'
  obtain ⟨sheet', s', ids', m', htold', hschema', hreq', hr', hshows', hquiet'⟩ :=
    hy.exists_told_sheet ht hnew hdistinct hyin hyok ht'
  have hsame : s.encoder.requested = s'.encoder.requested := hreq.trans hreq'.symm
  have hsheets : sheet'.schema = sheet.schema := hschema'.trans hschema.symm
  have hrows : ∀ {s : Sink} {sheet : Sheet} {ids : List FieldId} {m : Mirror},
      s.Shows sheet t'.table.publisher.rows ids m → m.rows.keys = t'.table.publisher.rows :=
    fun hshows => AscSet.ext_mem fun row => by rw [AscMap.mem_keys_iff, hshows.rows]
  -- the replicas read alike where the machines do
  have hget : ∀ {row name}, (row ∈ t'.table.publisher.rows →
      (∀ names, requested = some names → name ∈ names) →
        sheet.look row name = sheet'.look row name) → r.get row name = r'.get row name := by
    intro row name hlook
    rw [hr.get_eq, hr'.get_eq]
    exact hshows.get_congr hshows' hsheets hsame fun hrow hname => hlook hrow (hreq ▸ hname)
  refine ⟨t', ht', hr.phase.trans hshows.tracks.machine, hr'.phase.trans hshows'.tracks.machine, ?_, ?_,
    ?_, fun row hrow name hname => ⟨?_, ?_⟩, fun row name hsettled => hget fun hrow hname => ?_,
    fun ds₁ ds₂ hds hxin₁ hyin₁ row name => hget fun _ _ => ?_⟩
  · obtain ⟨-, hknows⟩ := hshows.tracks.congr (hsheets ▸ hshows'.tracks) hsame
    rw [hr.schema, hr'.schema, hknows]
  · rw [hr.liveRows_eq, hrows hshows]
  · rw [hr'.liveRows_eq, hrows hshows']
  · rw [htold, hr.get_eq, hshows.tracks.get_eq (hreq ▸ hname) fun n id hid _ =>
      hshows.cells row hrow n id hid]
    rfl
  · rw [htold', hr'.get_eq, hshows'.tracks.get_eq (hreq' ▸ hname) fun n id hid _ =>
      hshows'.cells row hrow n id hid]
    rfl
  · rw [hquiet row hrow name hname hsettled, hquiet' row hrow name hname hsettled]
  · -- at the pass both are told, and from then on at the same times
    subst hds
    obtain ⟨hbefore, hafter⟩ := Hub.throughout_append hx.fits
    obtain ⟨t₁, hf₁, hin₁⟩ := (hx.toFeeds ht hnew).deeds hx.small hdistinct ds₁ hbefore
    have hxin' := hin₁ x.input (.inr hxin₁)
    have hyin' := hin₁ y.input (.inr hyin₁)
    obtain ⟨t₂, hf₂, hin₂⟩ := hf₁.deed hx.small hdistinct hafter
    have hboth : (h.lastTold id x.input none (ds₁ ++ .fire :: ds₂)) =
        h.lastTold id y.input none (ds₁ ++ .fire :: ds₂) := by
      rw [Hub.lastTold_append, Hub.lastTold_append, Hub.lastTold, Hub.lastTold,
        Hub.attached_of_table hf₁.publishes.table, Deed.tells, Deed.tells,
        List.contains_iff_mem.mpr hxin', List.contains_iff_mem.mpr hyin']
      exact hf₂.lastTold_congr hx.small hdistinct (hin₂ _ (.inl hxin')) (hin₂ _ (.inl hyin')) ds₂
        hafter.2
    rw [htold, htold'] at hboth
    rw [Option.some.inj hboth]

def Hub.withTwoSinks : Hub where
  tables := [.plain (.create ⟨⟨"T", [⟨"a", .int32, {}⟩]⟩, by decide⟩)]
  inputs := [.sink { sink := .create 1 none 1000, outlet := 0 },
    .sink { sink := .create 1 none 1000, outlet := 1 }]
  outlets := [{}, {}]

/-- The second one joins while a change waits to be told. -/
def joinsAhead : List Deed :=
  [.act (.insert [⟨.name "a", ⟨.int32, 1⟩⟩]), .fire, .attach 0,
    .act (.update 0 [⟨.name "a", ⟨.int32, 2⟩⟩]), .attach 1]

theorem subscribes_withTwoSinks {ds : List Deed} {k : Nat} (hk : k < 2)
    (hfits : Hub.withTwoSinks.Throughout 0 (Table.Fits 9 1000) ds) :
    Hub.withTwoSinks.Subscribes 0 none ds ⟨k, k, 1, 1000, 9⟩ := by
  have hother : ∀ j ≠ k, ¬∃ x, Hub.withTwoSinks.inputs[j]? = some x ∧ x.Addresses k 1 := by
    rintro j hj ⟨x, hx, haddresses⟩
    match j, hx with
    | 0, hx =>
        cases hx
        exact hj haddresses.1
    | 1, hx =>
        cases hx
        exact hj haddresses.1
  match k, hk with
  | 0, _ => exact ⟨rfl, ⟨{}, rfl, rfl⟩, rfl, hother, by decide, hfits⟩
  | 1, _ => exact ⟨rfl, ⟨{}, rfl, rfl⟩, rfl, hother, by decide, hfits⟩

theorem subscribers_agree_joinsAhead :
    let x : Subscriber := ⟨0, 0, 1, 1000, 9⟩
    let y : Subscriber := ⟨1, 1, 1, 1000, 9⟩
    let g := Hub.withTwoSinks.deeds 0 joinsAhead
    let fired := Hub.withTwoSinks.deeds 0 (joinsAhead ++ [.fire])
    Hub.withTwoSinks.Subscribes 0 none joinsAhead x ∧
      Hub.withTwoSinks.Subscribes 0 none joinsAhead y ∧
      (g.copy x).schema = (g.copy y).schema ∧ (g.copy x).liveRows = (g.copy y).liveRows ∧
      (fired.copy x).get 0 "a" = (fired.copy y).get 0 "a" := by
  intro x y g fired
  have hfits : Hub.withTwoSinks.Throughout 0 (Table.Fits 9 1000) (joinsAhead ++ [.fire]) := by
    decide +kernel
  have hbefore := (Hub.throughout_append hfits).1
  have hx := subscribes_withTwoSinks (k := 0) (by decide) hbefore
  have hy := subscribes_withTwoSinks (k := 1) (by decide) hbefore
  obtain ⟨t, -, -, -, hschema, hrows, hrows', -⟩ := subscribers_agree (t := .plain (.create _)) rfl rfl
    none (by simp) joinsAhead hx hy (by simp [joinsAhead]) (by simp [joinsAhead]) (by decide +kernel)
    (by decide +kernel)
  obtain ⟨t', -, -, -, -, -, -, -, -, hagree⟩ := subscribers_agree (t := .plain (.create _)) rfl rfl
    none (by simp) (joinsAhead ++ [.fire]) (subscribes_withTwoSinks (k := 0) (by decide) hfits)
    (subscribes_withTwoSinks (k := 1) (by decide) hfits) (by simp [joinsAhead]) (by simp [joinsAhead])
    (by decide +kernel) (by decide +kernel)
  exact ⟨hx, hy, hschema, hrows.trans hrows'.symm,
    hagree joinsAhead [] rfl (by simp [joinsAhead]) (by simp [joinsAhead]) 0 "a"⟩

/-- Until that pass the second one is ahead of the first. -/
theorem latecomer_ahead :
    let x : Subscriber := ⟨0, 0, 1, 1000, 9⟩
    let y : Subscriber := ⟨1, 1, 1, 1000, 9⟩
    let g := Hub.withTwoSinks.deeds 0 joinsAhead
    Hub.withTwoSinks.Subscribes 0 none joinsAhead x ∧
      Hub.withTwoSinks.Subscribes 0 none joinsAhead y ∧
      .attach x.input ∈ joinsAhead ∧ .attach y.input ∈ joinsAhead ∧
      failures (g.sentOn x) = 0 ∧ failures (g.sentOn y) = 0 ∧
      (g.copy x).get 0 "a" = .ok ⟨.int32, 1⟩ ∧ (g.copy y).get 0 "a" = .ok ⟨.int32, 2⟩ := by
  intro x y g
  have hfits : Hub.withTwoSinks.Throughout 0 (Table.Fits 9 1000) joinsAhead := by decide +kernel
  exact ⟨subscribes_withTwoSinks (k := 0) (by decide) hfits,
    subscribes_withTwoSinks (k := 1) (by decide) hfits, by simp [x, joinsAhead], by simp [y, joinsAhead],
    by decide +kernel, by decide +kernel, by decide +kernel, by decide +kernel⟩

end TableFeed
