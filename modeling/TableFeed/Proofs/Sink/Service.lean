import Mathlib
import TableFeed.Proofs.Encoder.Delivery
/-!
A sink and the machine that takes what it sends. Either the sink goes on, and the machine accepts
all of it and knows what the sink was told; or the sink gives up, says so once and is silent, and
the machine gives up with it.
-/

namespace TableFeed

def Response.isFailure (r : Response) : Bool :=
  r.type = .message && (r.acknowledgement.map fun ack => !ack.success).getD false

def failures (rs : List Response) : Nat := rs.countP Response.isFailure

theorem failures_append (rs rs' : List Response) :
    failures (rs ++ rs') = failures rs + failures rs' := List.countP_append

theorem Parts.failures_eq {e : Encoder} {encode : List RowId → Except Error RowData}
    {type : ResponseType} {rows : List RowId} {rs : List Response}
    (h : Parts e encode type rows rs) : failures rs = 0 := by
  induction h with
  | whole hdata hfits => simp [failures, Response.isFailure, Response.ofData]
  | halves hhead htail ihhead ihtail => rw [failures_append, ihhead, ihtail]

/-- What becomes of responses to a machine, from a sink as it is afterwards: the sink goes on and
nothing failed, or it has just given up. -/
def Answered (limit : RowId) (m : Mirror) (x : Sink × List Response) (Q : Sink → Mirror → Prop) :
    Prop :=
  ∃ m', m.Takes x.1.subscription limit x.2 m' ∧
    ((x.1.phase ≠ .failed ∧ failures x.2 = 0 ∧ Q x.1 m') ∨
      (x.1.phase = .failed ∧ m'.phase = .failed ∧ failures x.2 = 1))

theorem Answered.mono {limit : RowId} {m : Mirror} {x : Sink × List Response}
    {P Q : Sink → Mirror → Prop} (h : Answered limit m x P) (hPQ : ∀ s' m', P s' m' → Q s' m') :
    Answered limit m x Q := by
  obtain ⟨m', htakes, ⟨hphase, hnone, hP⟩ | hgiven⟩ := h
  · exact ⟨m', htakes, .inl ⟨hphase, hnone, hPQ _ _ hP⟩⟩
  · exact ⟨m', htakes, .inr hgiven⟩

namespace Sink

def hearAll (rows : Nat) (sheet : Sheet) : List Notice → Sink → Sink × List Response
  | [], s => (s, [])
  | n :: ns, s =>
    let (s, first) := s.hear rows sheet n
    let (s, rest) := hearAll rows sheet ns s
    (s, first ++ rest)

variable {limit : RowId} {m : Mirror} {s : Sink} {rows : Nat} {sheet : Sheet}

theorem hear_of_failed (rows : Nat) (sheet : Sheet) (h : s.phase = .failed) (n : Notice) :
    s.hear rows sheet n = (s, []) := by
  obtain ⟨e, phase⟩ := s
  cases h
  cases n <;> rfl

theorem hearAll_of_failed (rows : Nat) (sheet : Sheet) (h : s.phase = .failed) (ns : List Notice) :
    s.hearAll rows sheet ns = (s, []) := by
  induction ns with
  | nil => rfl
  | cons n ns ih =>
      rw [hearAll, hear_of_failed rows sheet h]
      dsimp only
      rw [ih]
      rfl

theorem subscription_hear (s : Sink) (rows : Nat) (sheet : Sheet) (n : Notice) :
    (s.hear rows sheet n).1.subscription = s.subscription :=
  (s.speaks_hear rows sheet n).1.1

theorem subscription_hearAll (ns : List Notice) :
    (s.hearAll rows sheet ns).1.subscription = s.subscription := by
  induction ns generalizing s with
  | nil => rfl
  | cons n ns ih => exact ih.trans (subscription_hear ..)

theorem hearAll_append (ns ns' : List Notice) (s : Sink) :
    s.hearAll rows sheet (ns ++ ns') =
      let first := s.hearAll rows sheet ns
      let rest := first.1.hearAll rows sheet ns'
      (rest.1, first.2 ++ rest.2) := by
  induction ns generalizing s with
  | nil => rfl
  | cons n ns ih =>
      rw [List.cons_append, hearAll, hearAll]
      dsimp only
      rw [ih, List.append_assoc]

theorem hearAll_one (n : Notice) (s : Sink) : s.hearAll rows sheet [n] = s.hear rows sheet n := by
  simp [hearAll]

theorem answered_nil {Q : Sink → Mirror → Prop} (hs : s.phase ≠ .failed) (hQ : Q s m) :
    Answered limit m (s.hearAll rows sheet []) Q :=
  ⟨m, .nil m, .inl ⟨hs, rfl, hQ⟩⟩

/-- Some notices and then more: a sink that gives up at the first ones stays silent. -/
theorem answered_append {ns ns' : List Notice} {P Q : Sink → Mirror → Prop}
    (hfirst : Answered limit m (s.hearAll rows sheet ns) P)
    (hrest : ∀ s' m', P s' m' → Answered limit m' (s'.hearAll rows sheet ns') Q) :
    Answered limit m (s.hearAll rows sheet (ns ++ ns')) Q := by
  rw [hearAll_append]
  obtain ⟨m₁, htakes₁, ⟨hphase, hnone, hP⟩ | ⟨hphase, hm₁, hone⟩⟩ := hfirst
  · obtain ⟨m', htakes, hafter⟩ := hrest _ m₁ hP
    rw [subscription_hearAll] at htakes
    refine ⟨m', ?_, ?_⟩
    · rw [subscription_hearAll]
      exact htakes₁.append htakes
    · simpa only [failures_append, hnone, Nat.zero_add] using hafter
  · have hsilent := hearAll_of_failed rows sheet hphase ns'
    refine ⟨m₁, ?_, .inr ?_⟩
    · simpa only [hsilent, List.append_nil] using htakes₁
    · simpa only [hsilent, List.append_nil] using ⟨hphase, hm₁, hone⟩

/-- A notice of rows, which is left out if there are none. -/
theorem answered_rows {α : Type} {xs : List α} {n : Notice} {Q : Sink → Mirror → Prop}
    (hs : s.phase ≠ .failed) (hnone : xs = [] → Q s m)
    (h : Answered limit m (s.hear rows sheet n) Q) :
    Answered limit m (s.hearAll rows sheet (if xs.isEmpty then [] else [n])) Q := by
  split
  · next hxs => exact answered_nil hs (hnone (List.isEmpty_iff.mp hxs))
  · rw [hearAll_one]
    exact h

theorem takes_failure (m : Mirror) (sub : Int32) (limit : RowId) (text : String) :
    m.Takes sub limit [.message sub 0 false text] { m with phase := .failed } :=
  .singleton (by simp [Mirror.accept, Response.message])

/-- Giving up. -/
theorem answered_fail {Q : Sink → Mirror → Prop} (e : Error) : Answered limit m (s.fail e) Q :=
  ⟨_, takes_failure m s.subscription limit e.message, .inr ⟨rfl, rfl, rfl⟩⟩

/-- Sending what could be encoded. -/
theorem answered_send {Q : Sink → Mirror → Prop} {x : Except Error (List Response)}
    (hs : s.phase ≠ .failed)
    (h : ∀ rs, x = .ok rs → failures rs = 0 ∧ ∃ m', m.Takes s.subscription limit rs m' ∧ Q s m') :
    Answered limit m (s.send x) Q := by
  cases x with
  | error e => exact answered_fail e
  | ok rs =>
      obtain ⟨hnone, m', htakes, hQ⟩ := h rs rfl
      exact ⟨m', htakes, .inl ⟨hs, hnone, hQ⟩⟩

/-! ### A sink in service -/

/-- A sink whose fields can be sent under a schema. Numbers of fields have 32 bits, and this is
enough if frames are not longer than 2³² bytes. -/
structure CanServe (s : Sink) (schema : Schema) : Prop where
  distinct : ∀ names, s.encoder.requested = some names → names.Nodup
  size : schema.size ≤ 0x100000000 ∨ s.encoder.limit ≤ 0x100000000

/-- A sink in phase `p` that sends the fields it resolved under a schema, and a machine in the same
phase that knows them. -/
structure Tracks (s : Sink) (schema : Schema) (ids : List FieldId) (p : Phase) (m : Mirror) :
    Prop where
  canServe : s.CanServe schema
  resolved : s.encoder.resolve schema = .ok ids
  numbered : p = .live → ids.length ≤ 0x100000000
  projection : s.encoder.projection = some ids
  phase : s.phase = p
  machine : m.phase = p
  knows : m.Knows schema ids

variable {schema : Schema} {ids : List FieldId} {p : Phase}

theorem Tracks.toSelects (h : s.Tracks schema ids p m) : Selects schema ids :=
  Encoder.selects_of_resolve h.resolved h.canServe.distinct

theorem Tracks.toProjects (h : s.Tracks schema ids .live m) : Projects schema ids :=
  ⟨h.toSelects, h.numbered rfl⟩

/-- New rows, the initial ones or later ones. -/
theorem Tracks.answered_added (h : s.Tracks schema ids p m) (limit : RowId) (rows : Nat)
    (hsheet : sheet.schema = schema)
    (hp : p = .awaitingInit ∨ p = .live) {added : List RowId} (hadded : added.Nodup)
    (hlimit : ∀ row ∈ added, row ≤ limit) (hnew : ∀ row ∈ added, m.rows.contains row = false) :
    Answered limit m (s.hear rows sheet (.added added)) fun s' m' =>
      s'.Tracks schema ids .live m' ∧
        (∀ row, m'.rows.contains row = true ↔ m.rows.contains row = true ∨ row ∈ added) ∧
        (∀ row ∈ added, ∀ n, m'.cell? row n = ids[n]?.bind (sheet.value? row)) ∧
        ∀ row ∉ added, ∀ n, m'.cell? row n = m.cell? row n := by
  -- both phases send all fields, and the machine is in the phase for the type that is sent
  have hsend : ∀ type, type = .init ∨ type = .add → m.phase = Mirror.due type →
      Answered limit m (({ s with phase := .live } : Sink).send
        (s.encoder.encodeRows sheet type added)) fun s' m' =>
      s'.Tracks schema ids .live m' ∧
        (∀ row, m'.rows.contains row = true ↔ m.rows.contains row = true ∨ row ∈ added) ∧
        (∀ row ∈ added, ∀ n, m'.cell? row n = ids[n]?.bind (sheet.value? row)) ∧
        ∀ row ∉ added, ∀ n, m'.cell? row n = m.cell? row n := by
    intro type htype hdue
    refine answered_send Phase.noConfusion fun rs hrs => ?_
    rw [Encoder.encodeRows, h.projection] at hrs
    have hparts := Encoder.parts_of_split hrs
    have hnumbered : ids.length ≤ 0x100000000 := by
      rcases h.canServe.size with hsize | hframe
      · exact h.toSelects.few.trans hsize
      · have hfields := hparts.fields_le
        rw [Encoder.numbered, List.length_zipIdx] at hfields
        exact hfields.trans hframe
    obtain ⟨m', htakes, hphase, hschema, hafter⟩ := Mirror.takes_new ⟨h.toSelects, hnumbered⟩ hsheet
      hparts htype hdue h.knows hadded hlimit hnew
    exact ⟨hparts.failures_eq, m', htakes, ⟨⟨h.canServe.distinct, h.canServe.size⟩, h.resolved,
      fun _ => hnumbered, h.projection, rfl, hphase, Mirror.knows_congr h.knows hschema⟩, hafter⟩
  rcases hp with rfl | rfl
  · have hhear : s.hear rows sheet (.added added) = ({ s with phase := .live } : Sink).send
        (s.encoder.encodeRows sheet .init added) := by
      simp only [hear, h.phase]
    rw [hhear]
    exact hsend .init (.inl rfl) h.machine
  · have hhear : s.hear rows sheet (.added added) = ({ s with phase := .live } : Sink).send
        (s.encoder.encodeRows sheet .add added) := by
      have hs : ({ s with phase := .live } : Sink) = s := by rw [← h.phase]
      simp only [hear, h.phase, hs]
    rw [hhear]
    exact hsend .add (.inr rfl) h.machine

/-- Changes: of the rows listed, all the fields given that are sent. -/
theorem Tracks.answered_changed (h : s.Tracks schema ids .live m) (hsheet : sheet.schema = schema)
    {changed : List RowId} (hchanged : changed.Nodup) (hlimit : ∀ row ∈ changed, row ≤ limit)
    (hthere : ∀ row ∈ changed, m.rows.contains row = true) (fields : FieldSet) :
    Answered limit m (s.hear rows sheet (.changed changed fields)) fun s' m' =>
      s'.Tracks schema ids .live m' ∧ (∀ row, m'.rows.contains row = m.rows.contains row) ∧
        (∀ row ∈ changed, ∀ n id, ids[n]? = some id → id ∈ fields →
          m'.cell? row n = sheet.value? row id) ∧
        ∀ row n id v, ids[n]? = some id → (row ∈ changed → id ∉ fields) →
          m.cell? row n = some v → m'.cell? row n = some v := by
  have hhear : s.hear rows sheet (.changed changed fields) =
      s.send (s.encoder.encodeChange sheet changed fields) := by
    simp only [hear, h.phase]
  have hlive : s.phase ≠ .failed := by
    rw [h.phase]
    exact Phase.noConfusion
  have hmem : ∀ {n id}, ids[n]? = some id →
      ((id, n) ∈ (Encoder.numbered ids).filter (fun f => fields.contains f.1) ↔ id ∈ fields) := by
    intro n id hid
    have hnumbered : (id, n) ∈ Encoder.numbered ids := RowData.mem_numbered.mpr hid
    rw [List.mem_filter]
    exact ⟨fun hin => of_decide_eq_true hin.2, fun hin => ⟨hnumbered, decide_eq_true hin⟩⟩
  rw [hhear]
  refine answered_send hlive fun rs hrs => ?_
  rw [Encoder.encodeChange, h.projection] at hrs
  dsimp only at hrs
  split at hrs
  · next hempty =>
    -- none of the fields is sent, and neither is anything
    cases hrs
    refine ⟨rfl, m, .nil m, h, fun _ => rfl, fun row hrow n id hid hin => ?_,
      fun row n id v hid _ hcell => hcell⟩
    rw [List.isEmpty_iff] at hempty
    exact absurd (hempty ▸ (hmem hid).mpr hin) List.not_mem_nil
  · have hparts := Encoder.parts_of_split hrs
    obtain ⟨m', htakes, hphase, hschema, hrows, hcells, hkept⟩ := Mirror.takes_changes h.toProjects
      hsheet List.filter_sublist hparts rfl h.machine h.knows hchanged hlimit hthere
    refine ⟨hparts.failures_eq, m', htakes, ⟨h.canServe, h.resolved, h.numbered, h.projection,
      h.phase, hphase, Mirror.knows_congr h.knows hschema⟩, hrows, fun row hrow n id hid hin => ?_,
      fun row n id v hid hout => ?_⟩
    · exact hcells row hrow (id, n) ((hmem hid).mpr hin)
    · exact hkept row n id v hid fun hrow hin => hout hrow ((hmem hid).mp hin)

theorem Tracks.answered_removed (h : s.Tracks schema ids .live m) {removed : List RowId}
    (hremoved : removed.Nodup) (hlimit : ∀ row ∈ removed, row ≤ limit)
    (hthere : ∀ row ∈ removed, m.rows.contains row = true) :
    Answered limit m (s.hear rows sheet (.removed removed)) fun s' m' =>
      s'.Tracks schema ids .live m' ∧
        (∀ row, m'.rows.contains row = true ↔ m.rows.contains row = true ∧ row ∉ removed) ∧
        ∀ row ∉ removed, ∀ n, m'.cell? row n = m.cell? row n := by
  have hhear : s.hear rows sheet (.removed removed) =
      s.send (s.encoder.encodeRemove removed) := by
    simp only [hear, h.phase]
  have hlive : s.phase ≠ .failed := by
    rw [h.phase]
    exact Phase.noConfusion
  rw [hhear]
  refine answered_send hlive fun rs hrs => ?_
  have hparts := Encoder.parts_of_split hrs
  obtain ⟨m', htakes, hphase, hschema, hafter⟩ := Mirror.takes_removals hparts rfl h.machine h.knows
    hremoved hlimit hthere
  exact ⟨hparts.failures_eq, m', htakes, ⟨h.canServe, h.resolved, h.numbered, h.projection,
    h.phase, hphase, Mirror.knows_congr h.knows hschema⟩, hafter⟩

/-- One more response before an answer. -/
theorem answered_after {m₁ : Mirror} {r : Response} {x : Sink × List Response}
    {Q : Sink → Mirror → Prop} (haccept : m.accept x.1.subscription limit r = (m₁, .accepted))
    (hr : r.isFailure = false) (h : Answered limit m₁ x Q) : Answered limit m (x.1, r :: x.2) Q := by
  obtain ⟨m', htakes, hafter⟩ := h
  refine ⟨m', .cons (by rw [haccept]) ?_, ?_⟩
  · rw [haccept]
    exact htakes
  · have hcount : failures (r :: x.2) = failures x.2 := by simp [failures, hr]
    rw [hcount]
    exact hafter

/-- A schema. Without rows the initial rows, which are none, go out at once. -/
theorem answered_schema (hs : s.phase ≠ .failed) (hserve : s.CanServe schema)
    (hsheet : sheet.schema = schema) (rows : Nat) :
    Answered limit m (s.hear rows sheet (.schema (some schema))) fun s' m' =>
      ∃ ids, s'.Tracks schema ids (if rows = 0 then .live else .awaitingInit) m' ∧
        ∀ row, m'.rows.contains row = false := by
  have hhear : s.hear rows sheet (.schema (some schema)) = s.hearSchema rows sheet schema := by
    cases hphase : s.phase with
    | failed => exact absurd hphase hs
    | awaitingSchema => simp only [hear, hphase]
    | awaitingInit => simp only [hear, hphase]
    | live => simp only [hear, hphase]
  rw [hhear, hearSchema]
  split
  · exact answered_fail _
  next e' response hadopt =>
    obtain ⟨ids, hids, rfl, rfl⟩ := Encoder.adopt_eq hadopt
    have hp := Encoder.selects_of_resolve hids hserve.distinct
    have hfields : WellNamed (ids.filterMap schema.field?) := hp.named
    obtain ⟨announced, hannounced⟩ : ∃ announced : Mirror,
        announced = ⟨.awaitingInit, some hp.announced, ∅⟩ := ⟨_, rfl⟩
    obtain ⟨adopted, hadopted⟩ : ∃ adopted : Sink,
        adopted = ⟨{ s.encoder with projection := some ids }, .awaitingInit⟩ := ⟨_, rfl⟩
    have haccept : m.accept s.subscription limit
        (.ofSchema s.encoder.subscription ⟨schema.name, ids.filterMap schema.field?⟩) =
          (announced, .accepted) := by
      simp [Mirror.accept, Response.ofSchema, subscription, Mirror.acceptSchema, hfields, hannounced,
        Selects.announced]
    have htracks : adopted.Tracks schema ids .awaitingInit announced := by
      rw [hadopted, hannounced]
      exact ⟨⟨hserve.distinct, hserve.size⟩, hids, Phase.noConfusion, rfl, rfl, rfl, rfl⟩
    have hempty : ∀ row, announced.rows.contains row = false := by
      rw [hannounced]
      exact fun row => rfl
    split
    · next hrows =>
      have hinit := htracks.answered_added limit rows hsheet (.inl rfl) List.nodup_nil
        (fun _ hrow => by cases hrow) fun _ hrow => by cases hrow
      have hsame : adopted.hear rows sheet (.added []) = ({ adopted with phase := .live } : Sink).send
          (adopted.encoder.encodeRows sheet .init []) := by
        rw [hadopted]
        rfl
      have hsub := subscription_hear adopted rows sheet (.added [])
      rw [hsame] at hinit hsub
      subst hadopted
      refine answered_after (hsub ▸ haccept) rfl
        (hinit.mono fun s' m' hafter => ⟨ids, hafter.1, fun row => ?_⟩)
      simpa [hempty row] using hafter.2.1 row
    · next hrows =>
      refine ⟨announced, .singleton haccept, .inl ⟨Phase.noConfusion, rfl, ids, ?_, hempty⟩⟩
      rw [hadopted] at htracks
      exact htracks

end Sink

end TableFeed
