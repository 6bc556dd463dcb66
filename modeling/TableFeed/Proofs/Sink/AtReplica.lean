import Mathlib
import TableFeed.Proofs.Replica.Outcomes
import TableFeed.Proofs.Sink.TableMirror
/-!
A sink at a replica. After every response that the replica takes, and after it has forgotten
everything, what the sink has sent shows all that the replica has.
-/

namespace TableFeed

/-! ### A sink that hears a replica -/

namespace Sink.Shows

variable {s : Sink} {sheet sheet' : Sheet} {live live' rows : RowSet} {ids : List FieldId}
  {m : Mirror} {limit : RowId}

/-- Rows come. -/
theorem answered_gains (h : s.Shows sheet live ids m) (hschema : sheet'.schema = sheet.schema)
    (hnew : ∀ row ∈ rows, row ∉ live ∧ row ≤ limit)
    (hlive : ∀ row, row ∈ live' ↔ row ∈ live ∨ row ∈ rows)
    (hkept : ∀ row ∉ rows, ∀ id, sheet'.value? row id = sheet.value? row id) (size : Nat) :
    Answered limit m (s.hearAll size sheet'
      (if rows.toList.isEmpty then [] else [.added rows.toList]))
      fun s' m' => s'.Shows sheet' live' ids m' := by
  refine ((shows_iff_covers.mp h).answered_added hschema hnew (fun row id _ hrow => hkept row hrow id)
    size).mono fun s' m' h' => shows_iff_covers.mpr (h'.mono hlive fun row id hrow => ?_)
  exact ((hlive row).mp hrow).symm

/-- Rows are written to. -/
theorem answered_changes (h : s.Shows sheet live ids m) (hschema : sheet'.schema = sheet.schema)
    (hthere : ∀ row ∈ rows, row ∈ live) (hlimit : ∀ row ∈ live, row ≤ limit) {fields : FieldSet}
    (hkept : ∀ row id, ¬(row ∈ rows ∧ id ∈ fields) → sheet'.value? row id = sheet.value? row id)
    (size : Nat) :
    Answered limit m (s.hearAll size sheet'
      (if rows.toList.isEmpty then [] else [.changed rows.toList fields]))
      fun s' m' => s'.Shows sheet' live ids m' := by
  refine ((shows_iff_covers.mp h).answered_changed hschema
    (fun row hrow => ⟨hthere row hrow, hlimit row (hthere row hrow)⟩) (fun row id _ => hkept row id)
    size).mono fun s' m' h' => shows_iff_covers.mpr (h'.mono (fun row => .rfl) fun row id => .inr)

/-- Rows go. -/
theorem answered_loses (h : s.Shows sheet live ids m) (hthere : ∀ row ∈ rows, row ∈ live)
    (hlimit : ∀ row ∈ live, row ≤ limit)
    (hlive : ∀ row, row ∈ live' ↔ row ∈ live ∧ row ∉ rows) (size : Nat) :
    Answered limit m (s.hearAll size sheet
      (if rows.toList.isEmpty then [] else [.removed rows.toList]))
      fun s' m' => s'.Shows sheet live' ids m' := by
  refine ((shows_iff_covers.mp h).answered_removed
    (fun row hrow => ⟨hthere row hrow, hlimit row (hthere row hrow)⟩) size).mono
    fun s' m' h' => shows_iff_covers.mpr (h'.mono hlive fun row id hrow => (hlive row).mp hrow)

end Sink.Shows

namespace SinkInput

/-- Where a sink that is attached to replica `k` stands, and its machine, after the sink has said `n`
times that it fails. -/
inductive Relays (k : Nat) (r : Replica) (s : SinkInput) (m : Mirror) : Nat → Prop
  | shows {sheet : Sheet} {ids : List FieldId} (source : s.source = some (.replica k))
      (reads : s.reads = .output (.replica k)) (there : r.sheet = some sheet)
      (shows : s.sink.Shows sheet r.rows.live ids m) : Relays k r s m 0
  /-- There is no schema to send. -/
  | waits (source : s.source = some (.replica k)) (gone : r.sheet = none)
      (goes : s.sink.phase ≠ .failed) : Relays k r s m 0
  | gaveUp (sink : s.sink.phase = .failed) (machine : m.phase = .failed) : Relays k r s m 1

variable {h : Hub} {k n : Nat} {r r' : Replica} {s : SinkInput} {m : Mirror} {limit : RowId}
  {sheet : Sheet} {ns : List Notice}

/-- The sheet and the rows of the replica are what matters. -/
theorem Relays.congr (h' : Relays k r s m n) (hsheet : r'.sheet = r.sheet) (hrows : r'.rows = r.rows) :
    Relays k r' s m n := by
  cases h' with
  | shows source reads there shows => exact .shows source reads (hsheet.trans there) (hrows ▸ shows)
  | waits source gone goes => exact .waits source (hsheet.trans gone) goes
  | gaveUp sink machine => exact .gaveUp sink machine

/-- A schema sets what the sink reads, whatever that was. -/
theorem answerAll_schema {o : OutputId} {d : Display} (hd : h.display? o = some d)
    (hsheet : d.sheet = some sheet) (hsource : s.source = some o) (schema : Schema)
    (hns : ∀ n ∈ ns, n.isNews = true) :
    s.answerAll h (.output o) (.schema (some schema) :: ns) =
      ({ s with reads := .output o
                sink := (s.sink.hearAll d.publisher.rows.size sheet (.schema (some schema) :: ns)).1 },
        (s.sink.hearAll d.publisher.rows.size sheet (.schema (some schema) :: ns)).2) := by
  have hnews : ∀ n ∈ Notice.schema (some schema) :: ns, n.isNews = true := by
    intro n hn
    rcases List.mem_cons.mp hn with rfl | hn
    · rfl
    · exact hns n hn
  exact answerAll_news (s := { s with reads := .output o }) hd hsheet hsource rfl hnews

/-- What the sink and its machine make of what it sends. -/
theorem Relays.of_answered {x : Sink × List Response} (hs : s.sink = x.1)
    (h : Answered limit m x fun s m => ∃ ids, s.Shows sheet r.rows.live ids m)
    (hsource : s.source = some (.replica k)) (hreads : s.reads = .output (.replica k))
    (hthere : r.sheet = some sheet) :
    ∃ m', m.Takes x.1.subscription limit x.2 m' ∧ Relays k r s m' (failures x.2) := by
  obtain ⟨m', htakes, ⟨-, hnone, ids, hshows⟩ | ⟨hphase, hmachine, hone⟩⟩ := h
  · exact ⟨m', htakes, hnone ▸ .shows hsource hreads hthere (hs ▸ hshows)⟩
  · exact ⟨m', htakes, hone ▸ .gaveUp (hs ▸ hphase) hmachine⟩

/-- A schema and the rows that go with it, from wherever the sink was. -/
theorem relays_start (hd : h.display? (.replica k) = some r.display) (hr : r.Settled limit)
    (hthere : r.sheet = some sheet) (hsource : s.source = some (.replica k))
    (hgoes : s.sink.phase ≠ .failed) (hserve : s.sink.CanServe sheet.schema) :
    let told : List Notice := .schema (some sheet.schema) ::
      if r.rows.live.isEmpty then [] else [.added r.rows.live.toList]
    ∃ m', m.Takes s.sink.subscription limit (s.answerAll h (.output (.replica k)) told).2 m' ∧
      Relays k r (s.answerAll h (.output (.replica k)) told).1 m'
        (failures (s.answerAll h (.output (.replica k)) told).2) := by
  intro told
  have hnews : ∀ n ∈ (if r.rows.live.isEmpty then [] else [.added r.rows.live.toList]),
      Notice.isNews n = true := by
    intro n hn
    split at hn
    · cases hn
    · rw [List.mem_singleton.mp hn]
      rfl
  have hrows : r.display.publisher.rows = r.rows.live := hr.rows
  have hanswered : Answered limit m (s.sink.hearAll r.rows.live.size sheet told)
      fun s' m' => ∃ ids, s'.Shows sheet r.rows.live ids m' :=
    Sink.answered_start hgoes hserve hr.within
  have hstart := answerAll_schema hd hthere hsource sheet.schema hnews
  rw [hrows] at hstart
  rw [hstart]
  obtain ⟨m', htakes, hafter⟩ := Relays.of_answered (s := { s with
    reads := .output (.replica k)
    sink := (s.sink.hearAll r.rows.live.size sheet told).1 }) rfl hanswered hsource rfl hthere
  rw [Sink.subscription_hearAll] at htakes
  exact ⟨m', htakes, hafter⟩

/-- News of rows, for a sink that shows the replica. -/
theorem relays_rows (hd : h.display? (.replica k) = some r.display) (hr : r.Settled limit)
    (hthere : r.sheet = some sheet) (hsource : s.source = some (.replica k))
    (hreads : s.reads = .output (.replica k)) {ids : List FieldId} (hns : ∀ n ∈ ns, n.isNews = true)
    (hanswered : Answered limit m (s.sink.hearAll r.rows.live.size sheet ns)
      fun s' m' => s'.Shows sheet r.rows.live ids m') :
    ∃ m', m.Takes s.sink.subscription limit (s.answerAll h (.output (.replica k)) ns).2 m' ∧
      Relays k r (s.answerAll h (.output (.replica k)) ns).1 m'
        (failures (s.answerAll h (.output (.replica k)) ns).2) := by
  have hrows : r.display.publisher.rows = r.rows.live := hr.rows
  have hnews := answerAll_news hd hthere hsource hreads hns
  rw [hrows] at hnews
  rw [hnews]
  obtain ⟨m', htakes, hafter⟩ := Relays.of_answered (s := { s with
    sink := (s.sink.hearAll r.rows.live.size sheet ns).1 }) rfl
    (hanswered.mono fun s' m' hshows => ⟨ids, hshows⟩) hsource hreads hthere
  rw [Sink.subscription_hearAll] at htakes
  exact ⟨m', htakes, hafter⟩

/-- A schema is withdrawn: the sink waits for another one and says nothing. -/
theorem relays_withdrawn (hsource : s.source = some (.replica k)) (hgoes : s.sink.phase ≠ .failed)
    (hgone : r.sheet = none) (m : Mirror) :
    (s.answerAll h (.output (.replica k)) [.schema none]).2 = [] ∧
      Relays k r (s.answerAll h (.output (.replica k)) [.schema none]).1 m 0 := by
  have hanswer : s.answerAll h (.output (.replica k)) [.schema none] =
      ({ s with reads := .nowhere
                sink := { encoder := s.sink.encoder.reset, phase := .awaitingSchema } }, []) := by
    obtain ⟨⟨e, phase⟩, outlet, source, reads⟩ := s
    cases phase with
    | failed => exact absurd rfl hgoes
    | awaitingSchema => rfl
    | awaitingInit => rfl
    | live => rfl
  rw [hanswer]
  exact ⟨rfl, .waits hsource hgone Phase.noConfusion⟩

/-- The replica starts over, with a schema or without. -/
theorem relays_restart (hd : h.display? (.replica k) = some r.display) (hr : r.Settled limit)
    {schema : Option Schema} (hsheet : r.sheet = schema.map .ofSchema)
    (hrows : ∀ row, row ∉ r.rows.live) (hsource : s.source = some (.replica k))
    (hgoes : s.sink.phase ≠ .failed)
    (hserve : ∀ schema, r.schema = some schema → s.sink.CanServe schema) (m : Mirror) :
    ∃ m', m.Takes s.sink.subscription limit
        (s.answerAll h (.output (.replica k)) [.schema schema]).2 m' ∧
      Relays k r (s.answerAll h (.output (.replica k)) [.schema schema]).1 m'
        (failures (s.answerAll h (.output (.replica k)) [.schema schema]).2) := by
  cases schema with
  | none =>
      obtain ⟨hnone, hwaits⟩ := relays_withdrawn (h := h) hsource hgoes hsheet m
      rw [hnone]
      exact ⟨m, .nil m, hwaits⟩
  | some schema =>
      have hstart := relays_start (m := m) hd hr hsheet hsource hgoes
        (hserve _ (by rw [Replica.schema, hsheet]; rfl))
      have hempty : r.rows.live.isEmpty = true :=
        List.isEmpty_iff.mpr (List.eq_nil_iff_forall_not_mem.mpr hrows)
      rw [Sheet.schema_ofSchema, if_pos hempty] at hstart
      exact hstart

/-- What a call makes of the replica. -/
theorem Relays.outcome (h' : Relays k r s m n) (hr : r.Settled limit) {offer : Option Layout}
    (ho : r.Outcome limit offer r' ns) (hr' : r'.Settled limit) (hd : h.display? (.replica k) = some r'.display)
    (hserve : ∀ schema, r'.schema = some schema → s.sink.CanServe schema) :
    ∃ m', m.Takes s.sink.subscription limit (s.answerAll h (.output (.replica k)) ns).2 m' ∧
      Relays k r' (s.answerAll h (.output (.replica k)) ns).1 m'
        (n + failures (s.answerAll h (.output (.replica k)) ns).2) := by
  have hnews : ∀ {rows : RowSet} {told : Notice}, told.isNews = true →
      ∀ n ∈ (if rows.toList.isEmpty then [] else [told]), Notice.isNews n = true := by
    intro rows told htold n hn
    split at hn
    · cases hn
    · rw [List.mem_singleton.mp hn]
      exact htold
  cases h' with
  | gaveUp sink machine =>
      obtain ⟨hphase, hnone⟩ := answerAll_of_failed h (.output (.replica k)) sink ns
      rw [hnone]
      exact ⟨m, .nil m, .gaveUp hphase machine⟩
  | waits source gone goes =>
      -- a replica without a schema takes no rows
      have hgiven : ∀ {sheet}, r.sheet ≠ some sheet := by simp [gone]
      rw [Nat.zero_add]
      cases ho with
      | same sheet rows => exact ⟨m, .nil m, .congr (.waits source gone goes) sheet rows⟩
      | restarts sheet _ rows => exact relays_restart hd hr' sheet rows source goes hserve m
      | gains before => exact absurd before hgiven
      | changes before => exact absurd before hgiven
      | loses before => exact absurd before hgiven
  | @shows sheet ids source reads there shows =>
      rw [Nat.zero_add]
      cases ho with
      | same sheet rows => exact ⟨m, .nil m, .congr (.shows source reads there shows) sheet rows⟩
      | restarts sheet _ rows =>
          exact relays_restart hd hr' sheet rows source shows.tracks.goes_on hserve m
      | gains before after schema new live kept =>
          obtain rfl := Option.some.inj (there.symm.trans before)
          exact relays_rows hd hr' after source reads (hnews rfl)
            (shows.answered_gains schema new live kept _)
      | changes before after schema hthere live kept =>
          obtain rfl := Option.some.inj (there.symm.trans before)
          have hanswered := shows.answered_changes schema hthere hr.within kept r'.rows.live.size
          rw [← live] at hanswered
          exact relays_rows hd hr' after source reads (hnews rfl) hanswered
      | loses before after hthere live =>
          obtain rfl := Option.some.inj (there.symm.trans before)
          exact relays_rows hd hr' after source reads (hnews rfl)
            (shows.answered_loses hthere hr.within live _)

/-- The sink is attached to the replica, and gets what is shown. -/
theorem relays_replay (hd : h.display? (.replica k) = some r.display) (hr : r.Settled limit)
    (hgoes : s.sink.phase ≠ .failed)
    (hserve : ∀ schema, r.schema = some schema → s.sink.CanServe schema) (m : Mirror) :
    ∃ m', m.Takes s.sink.subscription limit
        (s.answerAll h (.output (.replica k)) r.publisher.replay).2 m' ∧
      Relays k r (s.answerAll h (.output (.replica k)) r.publisher.replay).1 m'
        (failures (s.answerAll h (.output (.replica k)) r.publisher.replay).2) := by
  obtain ⟨told, hreplay⟩ : ∃ told, r.publisher.replay = .source true :: told := ⟨_, rfl⟩
  -- from the first notice on the sink knows its source
  have hstart : s.answerAll h (.output (.replica k)) (.source true :: told) =
      ({ s with source := some (.replica k) } : SinkInput).answerAll h (.output (.replica k)) told := by
    rfl
  rw [hreplay, hstart]
  rw [Publisher.replay, hr.schema, Replica.schema] at hreplay
  cases hsheet : r.sheet with
  | none =>
      rw [hsheet] at hreplay
      cases hreplay
      exact ⟨m, .nil m, .waits rfl hsheet hgoes⟩
  | some sheet =>
      have htold : told = .schema (some sheet.schema) ::
          if r.rows.live.isEmpty then [] else [.added r.rows.live.toList] := by
        rw [hsheet] at hreplay
        cases hreplay
        rw [Publisher.replayRows, hr.rows]
        rfl
      rw [htold]
      exact relays_start (s := { s with source := some (.replica k) }) hd hr hsheet rfl hgoes
        (hserve _ (by rw [Replica.schema, hsheet]; rfl))

end SinkInput

theorem Publisher.replay_attach (p : Publisher) (i : InputId) : (p.attach i).replay = p.replay := by
  rw [attach]
  split <;> rfl

theorem Replica.Settled.attach {r : Replica} {limit : RowId} (hr : r.Settled limit) (i : InputId) :
    Settled { r with publisher := r.publisher.attach i } limit := by
  rw [Publisher.attach]
  split
  · exact hr
  · exact ⟨hr.rowLimit, hr.rows, hr.schema, hr.kept, hr.within⟩

/-! ### A hub with a replica and a sink -/

inductive Dealing
  | call (c : Call)
  | attach (i : InputId)

namespace Hub

def deal (h : Hub) (k : Nat) : Dealing → Hub
  | .call (.accept response) => (h.accept k response).1
  | .call .reset => h.resetReplica k
  | .attach i => h.attach (.replica k) i

def deals (h : Hub) (k : Nat) (ds : List Dealing) : Hub := ds.foldl (fun h d => h.deal k d) h

variable {h g : Hub} {k : Nat} {r : Replica} {i j : InputId} {o : OutletId} {e : Encoder}
  {limit : RowId}

theorem display?_replica (hk : h.replicas[k]? = some r) :
    h.display? (.replica k) = some r.display := by
  simp [display?, hk]

theorem replica_setReplica (hk : h.replicas[k]? = some r) (r' : Replica) :
    (h.setReplica k r').replicas[k]? = some r' := by
  obtain ⟨hlt, -⟩ := List.getElem?_eq_some_iff.mp hk
  exact List.getElem?_set_self hlt

theorem deal_call (hk : h.replicas[k]? = some r) (c : Call) :
    h.deal k (.call c) = (h.setReplica k (r.take c).1).tellEach (.output (.replica k))
      r.publisher.inputs (r.take c).2 := by
  have hattached : (h.setReplica k (r.take c).1).attached (.replica k) = r.publisher.inputs := by
    rw [attached, display?_replica (replica_setReplica hk _)]
    exact r.inputs_take c
  rw [tellEach, ← hattached]
  cases c <;> simp only [deal, accept, resetReplica, hk] <;> rfl

def joined (h : Hub) (k : Nat) (i : InputId) : Hub := h.mapPublisher (·.attach i) (.replica k)

theorem replica_joined (hk : h.replicas[k]? = some r) (i : InputId) :
    (h.joined k i).replicas[k]? = some { r with publisher := r.publisher.attach i } := by
  simp [joined, mapPublisher, hk]

theorem attach_replica (hk : h.replicas[k]? = some r) (i : InputId) :
    h.attach (.replica k) i =
      if i ∈ r.publisher.inputs then h
      else (h.joined k i).tellAll (.output (.replica k)) i r.publisher.replay := by
  simp only [attach, display?_replica hk, Replica.display, Publisher.isAttached,
    List.contains_iff_mem]
  rfl

theorem Employs.canServe {s : SinkInput} (hs : h.Employs i o e s) (hall : e.requested = none)
    {schema : Schema} (hsize : schema.size ≤ 0x100000000 ∨ e.limit ≤ 0x100000000) :
    s.sink.CanServe schema := by
  obtain ⟨-, -, -, hrequested, hlimit⟩ := hs
  refine ⟨fun names hnames => ?_, hlimit ▸ hsize⟩
  rw [hrequested, hall] at hnames
  cases hnames

/-- A hub with replica `k`, and with a sink that is not attached yet and has sent nothing, or whose
responses took the machine from its start to where the sink stands. -/
structure Relaying (h : Hub) (k : Nat) (r : Replica) (i : InputId) (o : OutletId) (e : Encoder)
    (limit : RowId) : Prop where
  replica : h.replicas[k]? = some r
  settled : r.Settled limit
  nodup : r.publisher.inputs.Nodup
  isOpen : h.IsOpen o
  alone : h.Alone i o e.subscription
  size : ∀ schema, r.schema = some schema → schema.size ≤ 0x100000000 ∨ e.limit ≤ 0x100000000
  upholds : (i ∉ r.publisher.inputs ∧ h.sentFor o e.subscription = [] ∧
      ∃ s, h.Employs i o e s ∧ s.sink.phase = .awaitingSchema) ∨
    i ∈ r.publisher.inputs ∧ ∃ m s, h.Employs i o e s ∧
      Mirror.Takes e.subscription limit {} (h.sentFor o e.subscription) m ∧
      s.Relays k r m (failures (h.sentFor o e.subscription))

namespace Relaying

/-- The replica takes a call. -/
theorem call (hr : h.Relaying k r i o e limit) (hlimit : limit < 0xffffffff)
    (hall : e.requested = none) {c : Call}
    (hfits : ∀ l, c.offer = some l → l.fields.length ≤ 0x100000000 ∨ e.limit ≤ 0x100000000) :
    (h.deal k (.call c)).Relaying k (r.take c).1 i o e limit := by
  obtain ⟨hsettled, hout⟩ := hr.settled.take hlimit c
  have hsize : ∀ schema, (r.take c).1.schema = some schema →
      schema.size ≤ 0x100000000 ∨ e.limit ≤ 0x100000000 := by
    intro schema hschema
    rcases hout.schema hschema with hold | hoffer
    · exact hr.size schema hold
    · exact hfits _ hoffer
  obtain ⟨g, hg⟩ : ∃ g, g = h.setReplica k (r.take c).1 := ⟨_, rfl⟩
  have hopen : g.IsOpen o := hg ▸ hr.isOpen
  have hinputs : g.inputs = h.inputs := by rw [hg]; rfl
  have hsent : g.sentFor o e.subscription = h.sentFor o e.subscription := by rw [hg]; rfl
  have hreplica : g.replicas[k]? = some (r.take c).1 := hg ▸ replica_setReplica hr.replica _
  have halone : g.Alone i o e.subscription := hg ▸ hr.alone
  rw [deal_call hr.replica, ← hg]
  refine ⟨?_, hsettled, (r.inputs_take c).symm ▸ hr.nodup, isOpen_tellEach hopen _ _,
    halone.of_sameInputs (sameInputs_tellEach ..), hsize, ?_⟩
  · rw [(sameOutputs_tellEach ..).replicas, hreplica]
  rw [r.inputs_take c]
  rcases hr.upholds with ⟨hi, hnone, s, hs, hphase⟩ | ⟨hi, m, s, hs, htakes, hrelays⟩
  · -- others are told
    refine .inl ⟨hi, ?_, s, ⟨?_, hs.2⟩, hphase⟩
    · rw [sentFor_tellEach_of_not_addresses hopen (fun j hj => halone j fun heq => hi (heq ▸ hj)),
        hsent, hnone]
    · rw [input_tellEach_of_not_mem hi, hinputs]
      exact hs.1
  · have hs' : g.inputs[i]? = some (.sink s) := hinputs ▸ hs.1
    have hsub : s.sink.subscription = e.subscription := hs.2.2.1
    have hd : g.display? (.replica k) = some (r.take c).1.display := display?_replica hreplica
    obtain ⟨m', htakes', hrelays'⟩ := hrelays.outcome hr.settled hout hsettled hd
      fun schema hschema => hs.canServe hall (hsize schema hschema)
    have hafter : (g.tellEach (.output (.replica k)) r.publisher.inputs (r.take c).2).sentFor o
        e.subscription = h.sentFor o e.subscription ++
          (s.answerAll g (.output (.replica k)) (r.take c).2).2 := by
      rw [sentFor_tellEach hopen hs' hs.2.1 hsub hr.nodup hi fun j _ hj => halone j hj, hsent]
    rw [hafter, failures_append]
    refine .inr ⟨hi, m', (s.answerAll g (.output (.replica k)) (r.take c).2).1, ?_,
      htakes.append (hsub ▸ htakes'), hrelays'⟩
    refine Employs.answered (h := g) ⟨hs', hs.2⟩ ?_
    rw [input_tellEach_of_mem hr.nodup hi, input_tellAll_sink hs']

/-- The sink is attached: what it sends at once shows all that the replica has. -/
theorem relays_joined (hr : h.Relaying k r i o e limit) (hall : e.requested = none)
    (hi : i ∉ r.publisher.inputs)
    (hg : g = (h.joined k i).tellAll (.output (.replica k)) i r.publisher.replay) :
    ∃ m s, g.Employs i o e s ∧ Mirror.Takes e.subscription limit {} (g.sentFor o e.subscription) m ∧
      s.Relays k { r with publisher := r.publisher.attach i } m
        (failures (g.sentFor o e.subscription)) := by
  subst hg
  obtain ⟨-, hnone, s, hs, hphase⟩ := hr.upholds.resolve_right fun hin => hi hin.1
  have hs' : (h.joined k i).inputs[i]? = some (.sink s) := hs.1
  have hgoes : s.sink.phase ≠ .failed := by
    rw [hphase]
    exact Phase.noConfusion
  obtain ⟨m, htakes, hrelays⟩ := SinkInput.relays_replay
    (display?_replica (replica_joined hr.replica i)) (hr.settled.attach i) hgoes
    (fun schema hschema => hs.canServe hall (hr.size schema hschema)) {}
  rw [Publisher.replay_attach] at htakes hrelays
  have hsent : ((h.joined k i).tellAll (.output (.replica k)) i r.publisher.replay).sentFor o
      e.subscription = (s.answerAll (h.joined k i) (.output (.replica k)) r.publisher.replay).2 := by
    rw [sentFor_tellAll (h := h.joined k i) hr.isOpen hs' hs.2.1 hs.2.2.1]
    exact (congrArg (· ++ _) hnone).trans (List.nil_append _)
  rw [hsent]
  exact ⟨m, _, Employs.answered (h := h.joined k i) hs (input_tellAll_sink hs' _),
    hs.2.2.1 ▸ htakes, hrelays⟩

/-- An input is attached that was not. -/
theorem attach_new (hr : h.Relaying k r i o e limit) (hall : e.requested = none)
    (hj : j ∉ r.publisher.inputs) :
    (h.attach (.replica k) j).Relaying k { r with publisher := r.publisher.attach j } i o e limit := by
  have hmem : ∀ x, x ∈ (r.publisher.attach j).inputs ↔ x ∈ r.publisher.inputs ∨ x = j :=
    fun _ => Publisher.mem_attach
  have halone : (h.joined k j).Alone i o e.subscription := hr.alone
  rw [attach_replica hr.replica, if_neg hj]
  refine ⟨?_, hr.settled.attach j, Publisher.nodup_attach hr.nodup j,
    isOpen_tellAll (h := h.joined k j) hr.isOpen _, halone.of_sameInputs (sameInputs_tellAll ..),
      hr.size, ?_⟩
  · rw [(sameOutputs_tellAll ..).replicas, replica_joined hr.replica]
  by_cases hij : i = j
  · subst hij
    exact .inr ⟨(hmem i).mpr (.inr rfl), hr.relays_joined hall hj rfl⟩
  · -- the sink does not notice
    have hother : ¬∃ x, (h.joined k j).inputs[j]? = some x ∧ x.Addresses o e.subscription :=
      hr.alone j (Ne.symm hij)
    have hsent : ((h.joined k j).tellAll (.output (.replica k)) j r.publisher.replay).sentFor o
        e.subscription = h.sentFor o e.subscription :=
      sentFor_tellAll_of_not_addresses (h := h.joined k j) hr.isOpen hother _
    have hinput : ((h.joined k j).tellAll (.output (.replica k)) j r.publisher.replay).inputs[i]? =
        h.inputs[i]? := input_tellAll_of_ne _ _ (Ne.symm hij) _
    rw [hsent]
    rcases hr.upholds with ⟨hi, hnone, s, hs, hphase⟩ | ⟨hi, m, s, hs, htakes, hrelays⟩
    · exact .inl ⟨fun hin => ((hmem i).mp hin).elim hi hij, hnone, s, ⟨hinput.trans hs.1, hs.2⟩, hphase⟩
    · exact .inr ⟨(hmem i).mpr (.inl hi), m, s, ⟨hinput.trans hs.1, hs.2⟩, htakes,
        hrelays.congr rfl rfl⟩

/-- One dealing. -/
theorem deal (hr : h.Relaying k r i o e limit) (hlimit : limit < 0xffffffff)
    (hall : e.requested = none) {d : Dealing}
    (hfits : ∀ c l, d = .call c → c.offer = some l →
      l.fields.length ≤ 0x100000000 ∨ e.limit ≤ 0x100000000) :
    ∃ r', (h.deal k d).Relaying k r' i o e limit ∧
      ∀ j, j ∈ r.publisher.inputs ∨ d = .attach j → j ∈ r'.publisher.inputs := by
  cases d with
  | call c =>
      refine ⟨_, hr.call hlimit hall fun l hl => hfits c l rfl hl, fun j hj => ?_⟩
      rw [r.inputs_take c]
      exact hj.resolve_right fun heq => by cases heq
  | attach j =>
      by_cases hj : j ∈ r.publisher.inputs
      · refine ⟨r, ?_, fun x hx => ?_⟩
        · rw [Hub.deal, attach_replica hr.replica, if_pos hj]
          exact hr
        · rcases hx with hx | heq
          · exact hx
          · cases heq
            exact hj
      · refine ⟨_, hr.attach_new hall hj, fun x hx => Publisher.mem_attach.mpr ?_⟩
        rcases hx with hx | heq
        · exact .inl hx
        · cases heq
          exact .inr rfl

/-- Any number of dealings. -/
theorem deals (hr : h.Relaying k r i o e limit) (hlimit : limit < 0xffffffff)
    (hall : e.requested = none) {ds : List Dealing}
    (hfits : ∀ c l, .call c ∈ ds → c.offer = some l →
      l.fields.length ≤ 0x100000000 ∨ e.limit ≤ 0x100000000) :
    ∃ r', (h.deals k ds).Relaying k r' i o e limit ∧
      ∀ j, j ∈ r.publisher.inputs ∨ .attach j ∈ ds → j ∈ r'.publisher.inputs := by
  induction ds generalizing h r with
  | nil => exact ⟨r, hr, fun j hj => hj.resolve_right List.not_mem_nil⟩
  | cons d ds ih =>
      obtain ⟨r₁, hr₁, hin₁⟩ := hr.deal hlimit hall (d := d) fun c l hd hl =>
        hfits c l (hd ▸ List.mem_cons_self) hl
      obtain ⟨r', hr', hin'⟩ := ih hr₁ fun c l hc hl => hfits c l (List.mem_cons_of_mem d hc) hl
      refine ⟨r', hr', fun j hj => hin' j ?_⟩
      rcases hj with hj | hj
      · exact .inl (hin₁ j (.inl hj))
      · rcases List.mem_cons.mp hj with heq | hj
        · exact .inl (hin₁ j (.inr heq.symm))
        · exact .inr hj

/-- A replica that has taken nothing yet, and a sink that was not attached and has sent nothing. -/
theorem fresh {sub : Int32} (hk : h.replicas[k]? = some { subscription := sub, rowLimit := limit })
    (hi : h.inputs[i]? = some (.sink { sink := { encoder := e }, outlet := o }))
    (hopen : h.IsOpen o) (hunsent : h.sentFor o e.subscription = [])
    (halone : h.Alone i o e.subscription) :
    h.Relaying k { subscription := sub, rowLimit := limit } i o e limit := by
  refine ⟨hk, .fresh sub limit, List.nodup_nil, hopen, halone, fun schema hschema => ?_, .inl ?_⟩
  · cases hschema
  · exact ⟨List.not_mem_nil, hunsent, _, ⟨hi, rfl, .refl e⟩, rfl⟩

end Relaying

end Hub

/-! ### A replica of a replica -/

namespace Sink.Shows

variable {s : Sink} {sheet : Sheet} {ids : List FieldId} {m : Mirror} {r : Replica}

/-- A sink that sends every field announces the schema as it is. -/
theorem schema_eq {live : RowSet} (h : s.Shows sheet live ids m)
    (hall : s.encoder.requested = none) : m.schema = some sheet.schema := by
  have hids : ids = List.range sheet.schema.size := by
    have hresolved := h.tracks.resolved
    rw [Encoder.resolve, hall] at hresolved
    exact (Except.ok.inj hresolved).symm
  obtain ⟨schema, hschema, hlayout⟩ := Option.map_eq_some_iff.mp h.tracks.knows
  rw [hids, Schema.filterMap_range] at hlayout
  rw [hschema]
  exact congrArg some (Schema.toLayout_injective hlayout)

/-- Every cell reads the same at the machine and at the replica. -/
theorem get_eq_replica (h : s.Shows sheet r.rows.live ids m) (hthere : r.sheet = some sheet)
    (hall : s.encoder.requested = none) (row : RowId) (name : String) :
    m.get row name = r.get row name := by
  by_cases hrow : row ∈ r.rows.live
  · have hlive : r.isLive row = true := decide_eq_true hrow
    refine (h.tracks.get_eq (fun names hnames => ?_) fun n id hid _ => h.cells row hrow n id hid).trans ?_
    · rw [hall] at hnames
      cases hnames
    · simp only [Replica.get, hthere, hlive, if_true]
      rfl
  · -- the row is not live at either: the field decides
    have hnone : m.rows.find? row = none := by
      have hcontains := mt (h.rows row).mp hrow
      rwa [AscMap.contains, Bool.not_eq_true, Option.isSome_eq_false_iff, Option.isNone_iff_eq_none]
        at hcontains
    have hlive : r.isLive row = false := decide_eq_false hrow
    rw [Mirror.get, Replica.get, h.schema_eq hall, hthere]
    simp only [Schema.fieldId?, hnone, hlive]
    cases hid : sheet.schema.fields.findIdx? (·.name == name) with
    | none => rfl
    | some id =>
        obtain ⟨f, hf, hinfo⟩ := sheet.exists_field? id hid
        simp only [Option.bind_some, hf, hinfo, Option.map_some, Option.getD_some]
        rfl

/-- The machine has the rows of the replica. -/
theorem keys_eq_live {live : RowSet} (h : s.Shows sheet live ids m) : m.rows.keys = live :=
  AscSet.ext_mem fun row => by rw [AscMap.mem_keys_iff, h.rows]

end Sink.Shows

/-- A replica behind a sink at another replica accepts all that the sink sends, and shows what that
one shows whenever it has a schema. Schemas with more fields than 32 bits can number have to be over
the frame limit. -/
theorem replica_mirrors_replica {h : Hub} {k : Nat} {sub : Int32} {limit : RowId}
    (hk : h.replicas[k]? = some { subscription := sub, rowLimit := limit })
    (hlimit : limit < 0xffffffff) {i : InputId} {o : OutletId} (sub' : Int32) (frameLimit : Nat)
    (hi : h.inputs[i]? = some (.sink { sink := .create sub' none frameLimit, outlet := o }))
    (hopen : h.IsOpen o) (hunsent : h.sentFor o sub' = [])
    (halone : ∀ j ≠ i, ¬∃ x, h.inputs[j]? = some x ∧ x.Addresses o sub')
    (ds : List Dealing)
    (hfits : ∀ c l, .call c ∈ ds → c.offer = some l →
      l.fields.length ≤ 0x100000000 ∨ frameLimit ≤ 0x100000000) :
    let sent := (h.deals k ds).sentFor o sub'
    let d := ({ subscription := sub', rowLimit := limit } : Replica).run (sent.map .accept)
    (∀ v ∈ d.2, v = .accepted) ∧
      ∃ r, (h.deals k ds).replicas[k]? = some r ∧
        (.attach i ∈ ds → failures sent = 0 → ∀ schema, r.schema = some schema →
          d.1.phase = .live ∧ d.1.schema = some schema ∧ d.1.liveRows = r.liveRows ∧
            ∀ row name, d.1.get row name = r.get row name) := by
  intro sent d
  obtain ⟨e, he⟩ : ∃ e, e = (Sink.create sub' none frameLimit).encoder := ⟨_, rfl⟩
  have hsub : e.subscription = sub' := by rw [he]; rfl
  have hall : e.requested = none := by rw [he]; rfl
  have hframe : e.limit = frameLimit := by rw [he]; rfl
  have hfresh : h.Relaying k { subscription := sub, rowLimit := limit } i o e limit :=
    .fresh hk (he ▸ hi) hopen (hsub ▸ hunsent) (hsub ▸ halone)
  rw [← hframe] at hfits
  subst hsub
  obtain ⟨r, hr, hin⟩ := hfresh.deals hlimit hall hfits
  rcases hr.upholds with ⟨hout, hnone, -⟩ | ⟨-, m, s, hs, htakes, hrelays⟩
  · refine ⟨fun v hv => ?_, r, hr.replica, fun hattached => absurd (hin i (.inr hattached)) hout⟩
    have hd : d.2 = [] := by simp only [d, sent, hnone]; rfl
    rw [hd] at hv
    cases hv
  · obtain ⟨hreflects, haccepted⟩ := htakes.replica hlimit
    refine ⟨haccepted, r, hr.replica, fun _ hsound schema hschema => ?_⟩
    rw [hsound] at hrelays
    cases hrelays with
    | waits source gone goes =>
        rw [Replica.schema, gone] at hschema
        cases hschema
    | @shows sheet ids source reads there shows =>
        have hasks : s.sink.encoder.requested = none := hs.2.2.2.1.trans hall
        rw [Replica.schema, there] at hschema
        obtain rfl := Option.some.inj hschema
        refine ⟨hreflects.phase.trans shows.tracks.machine,
          hreflects.schema.trans (shows.schema_eq hasks), ?_, fun row name => ?_⟩
        · rw [hreflects.liveRows_eq, shows.keys_eq_live]
          rfl
        · exact (hreflects.get_eq row name).trans (shows.get_eq_replica there hasks row name)

def Hub.relay : Hub :=
  { replicas := [{ subscription := 1, rowLimit := 9 }]
    inputs := [.sink { sink := .create 2 none 1000, outlet := 0 }]
    outlets := [{}] }

/-- The sink joins late. A row comes a second time, which the replica refuses, and it starts over with
another schema. -/
def joinsLate : List Dealing :=
  [.call (.accept (.ofSchema 1 ⟨"T", [⟨"a", .int32, {}⟩]⟩)),
    .call (.accept (.ofData 1 .init { rows := [3], int32s := [⟨0, [7]⟩] })),
    .attach 0,
    .call (.accept (.ofData 1 .add { rows := [3] })),
    .call .reset,
    .call (.accept (.ofSchema 1 ⟨"U", [⟨"b", .int32, {}⟩]⟩)),
    .call (.accept (.ofData 1 .init { rows := [5], int32s := [⟨0, [8]⟩] }))]

theorem replica_mirrors_replica_joinsLate :
    let sent := (Hub.relay.deals 0 joinsLate).sentFor 0 2
    let d := ({ subscription := 2, rowLimit := 9 } : Replica).run (sent.map .accept)
    failures sent = 0 ∧ (∀ v ∈ d.2, v = .accepted) ∧ d.1.phase = .live ∧ d.1.liveRows = [5] ∧
      d.1.get 5 "b" = .ok ⟨.int32, 8⟩ := by
  intro sent d
  have hsound : failures ((Hub.relay.deals 0 joinsLate).sentFor 0 2) = 0 := by cbv
  have hends : (Hub.relay.deals 0 joinsLate).replicas[0]?.map
      (fun r => (r.schema.isSome, r.liveRows, r.get 5 "b")) = some (true, [5], .ok ⟨.int32, 8⟩) := by
    cbv
  have halone : ∀ j ≠ 0, ¬∃ x, Hub.relay.inputs[j]? = some x ∧ x.Addresses 0 2 := by
    rintro j hj ⟨x, hx, -⟩
    cases j with
    | zero => exact hj rfl
    | succ j => cases hx
  obtain ⟨haccepted, r, hr, hmirrors⟩ := replica_mirrors_replica (h := Hub.relay) (k := 0) rfl
    (by decide) 2 1000 rfl ⟨{}, rfl, rfl⟩ rfl halone joinsLate fun c l hc hl => .inr (by decide)
  rw [hr, Option.map_some, Option.some.injEq, Prod.mk.injEq, Prod.mk.injEq] at hends
  obtain ⟨hschema, hrows, hcell⟩ := hends
  obtain ⟨schema, hthere⟩ := Option.isSome_iff_exists.mp hschema
  obtain ⟨hlive, -, hsame, hreads⟩ := hmirrors (by simp [joinsLate]) hsound schema hthere
  exact ⟨hsound, haccepted, hlive, hsame.trans hrows, (hreads 5 "b").trans hcell⟩

end TableFeed
