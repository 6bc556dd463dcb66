import Mathlib
import TableFeed.Proofs.Encoder.Halving
import TableFeed.Proofs.Server.AttachedSinks
import TableFeed.Proofs.Sink.Service
/-!
What a session sends about a request. Whatever the request, it is acknowledged once, and first of
all. A subscription that is granted opens with the schema that its output shows and the initial
rows, and nothing else is sent. A request that fails leaves the session and everything attached as
it was.
-/

namespace TableFeed

/-! ### What is sent -/

def Outlet.add (out : Outlet) (rs : List Response) : Outlet :=
  if out.closed then out else { out with sent := out.sent ++ rs }

@[simp] theorem Outlet.add_nil (out : Outlet) : out.add [] = out := by
  rw [add, List.append_nil, ite_self]

@[simp] theorem Outlet.add_add (out : Outlet) (rs rs' : List Response) :
    (out.add rs).add rs' = out.add (rs ++ rs') := by
  cases hclosed : out.closed <;> simp [add, hclosed]

namespace Hub

variable {h : Hub} {o : OutletId} {i : InputId} {origin : Origin}

theorem outlets_emit (h : Hub) (o : OutletId) (r : Response) :
    (h.emit o r).outlets = h.outlets.modify o (·.add [r]) := rfl

theorem outlets_emitAll (h : Hub) (o : OutletId) (rs : List Response) :
    (rs.foldl (fun h r => h.emit o r) h).outlets = h.outlets.modify o (·.add rs) := by
  induction rs generalizing h with
  | nil =>
      simp only [List.foldl_nil, Outlet.add_nil]
      exact (List.modify_id o h.outlets).symm
  | cons r rs ih =>
      rw [List.foldl_cons, ih, outlets_emit, List.modify_modify_eq]
      simp [Function.comp_def]

theorem outlets_tellAll {x : SinkInput} (hx : h.inputs[i]? = some (.sink x)) (ns : List Notice) :
    (h.tellAll origin i ns).outlets =
      h.outlets.modify x.outlet (·.add (x.answerAll h origin ns).2) := by
  induction ns generalizing h x with
  | nil =>
      simp only [SinkInput.answerAll, Outlet.add_nil]
      exact (List.modify_id x.outlet h.outlets).symm
  | cons n ns ih =>
      have htold : (h.tell origin i n).outlets =
          h.outlets.modify x.outlet (·.add (x.answer h origin n).2) := by
        rw [tell_sink hx, outlets_emitAll]
        rfl
      refine (ih (input_tell_sink hx n)).trans ?_
      rw [htold, (SinkInput.answer_addresses h origin n x).1, (sameOutputs_tell ..).answerAll,
        List.modify_modify_eq]
      simp [Function.comp_def, SinkInput.answerAll]

theorem outlets_tellAll_of_not_sink (hi : ∀ x, h.inputs[i]? ≠ some (.sink x)) (ns : List Notice) :
    (h.tellAll origin i ns).outlets = h.outlets := by
  induction ns generalizing h with
  | nil => rfl
  | cons n ns ih =>
      have htold : (h.tell origin i n).outlets = h.outlets := by
        rcases hx : h.inputs[i]? with _ | (r | x)
        · rw [tell_none hx]
        · rw [tell_recorder hx]
          rfl
        · exact absurd hx (hi x)
      refine (ih fun x hx => ?_).trans htold
      obtain ⟨x', hx', -⟩ := (sameInputs_tell h origin i n).of_sink hx
      exact hi x' hx'

/-- Nobody answers when it is detached. -/
theorem outlets_detach (h : Hub) (o : OutputId) (i : InputId) :
    (h.detach o i).1.outlets = h.outlets := by
  rw [detach]
  split
  · rw [← (h.ends_mapPublisher (·.detach i) o).2]
    by_cases hsink : ∃ x, (h.mapPublisher (·.detach i) o).inputs[i]? = some (.sink x)
    · obtain ⟨x, hx⟩ := hsink
      have hquiet : ∀ g : Hub, (x.answerAll g (.output o) Publisher.farewell).2 = [] := by
        intro g
        obtain ⟨⟨e, phase⟩, outlet, source, reads⟩ := x
        cases phase <;> rfl
      simp only [outlets_tellAll hx, hquiet, Outlet.add_nil]
      exact List.modify_id x.outlet _
    · exact outlets_tellAll_of_not_sink (fun x hx => hsink ⟨x, hx⟩) _
  · rfl

end Hub

/-! ### How a subscription opens -/

/-- The initial rows, in one response or several, or why they cannot be sent. -/
def StartsRows (sub : Int32) (rs : List Response) : Prop :=
  (∃ (d : RowData) (ds : List RowData),
    rs = .ofData sub .init d :: ds.map (Response.ofData sub .add)) ∨
  ∃ text, rs = [.message sub 0 false text]

/-- What a new subscription is sent first: the schema, and then the initial rows. -/
def Opens (sub : Int32) (schema : Schema) (rs : List Response) : Prop :=
  ∃ layout later, rs = .ofSchema sub layout :: later ∧ layout.name = schema.name ∧
    StartsRows sub later

namespace Sink

def opening (s : Sink) (d : Display) : List Response :=
  (s.hearAll d.publisher.rows.size (d.sheet.getD default) d.publisher.replay).2

theorem startsRows_send (s : Sink) (sheet : Sheet) (rows : List RowId) :
    StartsRows s.subscription (s.send (s.encoder.encodeRows sheet .init rows)).2 := by
  cases hsent : s.encoder.encodeRows sheet .init rows with
  | error e => exact .inr ⟨e.message, rfl⟩
  | ok rs =>
      rw [Encoder.encodeRows] at hsent
      split at hsent
      · cases hsent
      · obtain ⟨d, ds, -, rfl, -⟩ := (Encoder.parts_of_split hsent).messages
        exact .inl ⟨d, ds, rfl⟩

/-- A sink is told nothing to send where no schema is shown. -/
theorem opening_of_none (s : Sink) {d : Display} (hshown : d.publisher.schema = none) :
    s.opening d = [] := by
  simp only [opening, Publisher.replay, hshown, hearAll, hear, List.append_nil]

/-- A sink that can serve what is shown. -/
theorem opens_opening {s : Sink} (hs : s.phase = .awaitingSchema) {d : Display} {schema : Schema}
    (hshown : d.publisher.schema = some schema) {ids : List FieldId}
    (hids : s.encoder.resolve schema = .ok ids) : Opens s.subscription schema (s.opening d) := by
  obtain ⟨e, phase⟩ := s
  cases hs
  obtain ⟨e', he'⟩ : ∃ e', e' = { e with projection := some ids } := ⟨_, rfl⟩
  obtain ⟨layout, hlayout⟩ : ∃ layout : Layout,
      layout = ⟨schema.name, ids.filterMap schema.field?⟩ := ⟨_, rfl⟩
  have hsub : e'.subscription = e.subscription := by rw [he']
  have hadopt : e.adopt schema = .ok (e', .ofSchema e.subscription layout) := by
    rw [Encoder.adopt, hids, he', hlayout]
    rfl
  have hstarts : ∀ rows, StartsRows e.subscription
      ((⟨e', .live⟩ : Sink).send (e'.encodeRows (d.sheet.getD default) .init rows)).2 := by
    intro rows
    rw [← hsub]
    exact startsRows_send ⟨e', .live⟩ _ rows
  refine ⟨layout, ?_⟩
  by_cases hrows : d.publisher.rows.toList = []
  · have hnone : d.publisher.rows.size = 0 := by rw [AscSet.size, hrows]; rfl
    have hempty : d.publisher.rows.isEmpty = true := by rw [AscSet.isEmpty, hrows]; rfl
    refine ⟨_, ?_, by rw [hlayout], hstarts []⟩
    simp only [opening, Publisher.replay, Publisher.replayRows, hshown, hempty, if_true, hearAll,
      hear, hearSchema, hadopt, hnone, List.nil_append, List.append_nil, subscription]
  · have hsome : d.publisher.rows.size ≠ 0 := mt List.length_eq_zero_iff.mp hrows
    have hempty : d.publisher.rows.isEmpty = false := by
      rw [AscSet.isEmpty, ← Bool.not_eq_true, List.isEmpty_iff]
      exact hrows
    refine ⟨_, ?_, by rw [hlayout], hstarts d.publisher.rows.toList⟩
    simp only [opening, Publisher.replay, Publisher.replayRows, hshown, hempty, Bool.false_eq_true,
      if_false, hearAll, hear, hearSchema, hadopt, hsome, List.nil_append, List.append_nil,
      List.singleton_append, subscription]

end Sink

namespace SinkInput

/-- A sink that is attached answers as it would alone. -/
theorem answerAll_replay {h : Hub} {o : OutputId} {d d' : Display} {x : SinkInput}
    (hd' : h.display? o = some d') (hrows : d'.publisher.rows = d.publisher.rows)
    (hsheet : d'.sheet = d.sheet) :
    (x.answerAll h (.output o) d.publisher.replay).2 = x.sink.opening d := by
  have hcount : h.rowCount (some o) = d.publisher.rows.size := by
    rw [Hub.rowCount, Option.bind_some, hd', ← hrows]
    rfl
  have hcells : h.cells (.output o) = d.sheet.getD default := by
    rw [Hub.cells, hd', ← hsheet]
    rfl
  rw [Sink.opening, Publisher.replay]
  cases d.publisher.schema with
  | none => rfl
  | some schema =>
      dsimp only [Publisher.replayRows]
      split
      · simp only [answerAll, answer, Hub.SinkInput.follow, Sink.hearAll, Sink.hear, hcount, hcells]
      · simp only [answerAll, answer, Hub.SinkInput.follow, Sink.hearAll, Sink.hear, hcount, hcells]

end SinkInput

/-! ### Requests -/

namespace Hub

def Anchored (h : Hub) : Prop := ∀ o, ∀ i ∈ h.attached o, i < h.inputs.length

def schemaOf (h : Hub) (o : OutputId) : Option Schema := (h.display? o).bind (·.publisher.schema)

variable {h : Hub} {o : OutputId}

/-- What a new sink sends when it is attached. -/
theorem outlets_attach_new (hanchored : h.Anchored) {d : Display} (hd : h.display? o = some d)
    (x : SinkInput) :
    ((h.addInput (.sink x)).1.attach o h.inputs.length).outlets =
        h.outlets.modify x.outlet (·.add (x.sink.opening d)) ∧
      ∀ r ∈ x.sink.opening d, r.FromSink x.sink.subscription x.sink.encoder.limit := by
  obtain ⟨g, hg⟩ : ∃ g, g = (h.addInput (.sink x)).1 := ⟨_, rfl⟩
  obtain ⟨j, hj⟩ : ∃ j, j = g.mapPublisher (·.attach h.inputs.length) o := ⟨_, rfl⟩
  have hinput : j.inputs[h.inputs.length]? = some (.sink x) := by
    rw [hj, (ends_mapPublisher ..).1, hg]
    exact input_addInput_last h _
  have hgd : g.display? o = some d := by rw [hg]; exact hd
  have hjd : j.display? o = some (Display.map (·.attach h.inputs.length) d) := by
    rw [hj, display?_mapPublisher, if_pos rfl, hgd]
    rfl
  have hnew : d.publisher.isAttached h.inputs.length = false := by
    rw [← Bool.not_eq_true, Publisher.isAttached, List.contains_iff_mem]
    intro hi
    have hattached : h.attached o = d.publisher.inputs := by rw [attached, hd]; rfl
    exact Nat.lt_irrefl _ (hanchored o _ (hattached ▸ hi))
  have hattach : g.attach o h.inputs.length =
      j.tellAll (.output o) h.inputs.length d.publisher.replay := by
    rw [attach, hgd, hj]
    simp only [hnew, Bool.false_eq_true, if_false]
  have hopening := SinkInput.answerAll_replay (x := x) (d := d) hjd
    (by simp only [Display.map, Publisher.attach, hnew, Bool.false_eq_true, if_false]) rfl
  have hresponses := (x.answerAll_addresses j (.output o) d.publisher.replay).2.2
  dsimp only at hresponses
  rw [hopening] at hresponses
  refine ⟨?_, hresponses⟩
  rw [← hg, hattach, outlets_tellAll hinput, hopening, hj, (ends_mapPublisher ..).2, hg]
  rfl

end Hub

def Registry.Shown (registry : Registry) (h : Hub) : Prop :=
  ∀ name o, registry.outputs.find? name = some o → (h.display? o).isSome

namespace Session

/-- What becomes of a request. It is acknowledged first of all; what follows is unasked. -/
structure Answers (s : Session) (registry : Registry) (h : Hub) (r : Request) (success : Bool)
    (text : String) (rest : List Response) : Prop where
  /-- Whatever was sent before, and whether the outlet is open or not. -/
  sent : ∀ outlets, (s.handle registry { h with outlets := outlets } r).2.outlets =
    outlets.modify s.outlet (·.add (.message r.subscription r.token success text :: rest))
  unasked : ∀ r' ∈ rest, r'.token = 0 ∧ r'.FromSink r.subscription s.limit
  subscribed : r.type = .subscribe → (success = true ↔
    s.subscriptions.find? r.subscription = none ∧
      ∃ u, (s.handle registry h r).1.subscriptions.find? r.subscription = some u ∧
        u.input ∈ (s.handle registry h r).2.attached u.output ∧
        (s.handle registry h r).2.Reaches s.outlet r.subscription u.input)
  opens : r.type = .subscribe → success = true →
    ∀ u, (s.handle registry h r).1.subscriptions.find? r.subscription = some u →
      (∀ schema, h.schemaOf u.output = some schema → Opens r.subscription schema rest) ∧
        (h.schemaOf u.output = none → rest = [])
  silent : ¬(r.type = .subscribe ∧ success = true) → rest = []
  unsubscribed : r.type = .unsubscribe → (success = true ↔
    (s.subscriptions.find? r.subscription).isSome ∧
      (s.handle registry h r).1.subscriptions.find? r.subscription = none)
  unchanged : success = false → (s.handle registry h r).1 = s ∧
    (s.handle registry h r).2.inputs = h.inputs ∧
    ∀ o, (s.handle registry h r).2.attached o = h.attached o

variable {s : Session} {registry : Registry} {h : Hub} {r : Request}

theorem check_outlets (outlets : List Outlet) :
    s.check registry { h with outlets := outlets } r = s.check registry h r := by
  have hdisplay : ({ h with outlets := outlets } : Hub).display? = h.display? :=
    funext (Hub.SameOutputs.display? ⟨rfl, rfl, rfl, rfl⟩)
  simp only [check, hdisplay]

/-- A sink is only attached where it can serve what is shown. -/
theorem resolve_of_check {selection : Selection} {o : OutputId} {sink : Sink}
    (hcheck : s.check registry h r = .ok (selection, o, sink)) {schema : Schema}
    (hshown : h.schemaOf o = some schema) : ∃ ids, sink.encoder.resolve schema = .ok ids := by
  obtain ⟨hselection, houtput, hsink⟩ := check_ok hcheck
  have hnew : s.subscriptions.contains r.subscription = false := by
    rw [AscMap.contains, find?_of_check hcheck]
    rfl
  rw [Hub.schemaOf] at hshown
  cases hids : sink.encoder.resolve schema with
  | ok ids => exact ⟨ids, rfl⟩
  | error e =>
      have hinvalid : (Sink.create r.subscription selection.projection s.limit).encoder.validate
          schema = .error e := by
        rw [← hsink, Encoder.validate, hids]
        rfl
      simp only [check, hselection, hnew, houtput, hshown, hinvalid] at hcheck
      cases hcheck

/-- A reply and no more. -/
theorem answers_reply {success : Bool} {text : String}
    (hhandle : ∀ outlets, s.handle registry { h with outlets := outlets } r =
      (s, s.reply { h with outlets := outlets } r success text))
    (hsubscribe : r.type = .subscribe → success = false)
    (hunsubscribe : r.type = .unsubscribe → success = false ∧
      s.subscriptions.find? r.subscription = none) :
    s.Answers registry h r success text [] := by
  have hnow : s.handle registry h r = (s, s.reply h r success text) := hhandle h.outlets
  refine ⟨fun outlets => by rw [hhandle outlets]; rfl, by simp, fun htype => ?_, fun htype => ?_,
    fun _ => rfl, fun htype => ?_, fun _ => by rw [hnow]; exact ⟨rfl, rfl, fun _ => rfl⟩⟩
  · rw [hsubscribe htype, hnow]
    refine iff_of_false (by simp) ?_
    rintro ⟨hnone, u, hu, -⟩
    rw [hnone] at hu
    cases hu
  · intro hsuccess
    rw [hsubscribe htype] at hsuccess
    cases hsuccess
  · obtain ⟨hfailed, hnone⟩ := hunsubscribe htype
    rw [hfailed, hnone]
    exact iff_of_false (by simp) (by simp)

/-- A request to subscribe that is granted is acknowledged first, then the sink is attached. -/
theorem handle_grant (htype : r.type = .subscribe) {selection : Selection} {o : OutputId}
    {sink : Sink} (hcheck : s.check registry h r = .ok (selection, o, sink))
    (outlets : List Outlet) :
    s.handle registry { h with outlets := outlets } r =
      s.enrolled (s.reply { h with outlets := outlets } r true s!"Subscribed to {selection.output}")
        r.subscription selection.output o sink := by
  rw [handle, htype]
  dsimp only
  rw [subscribe, check_outlets, hcheck]
  rfl

/-- The sink of a subscription taken on is attached to its output. -/
theorem reaches_enrolled (s : Session) {g : Hub} {o : OutputId} {d : Display}
    (hd : g.display? o = some d) (sub : Int32) (name : String) {sink : Sink}
    (hsub : sink.subscription = sub) :
    g.inputs.length ∈ (s.enrolled g sub name o sink).2.attached o ∧
      (s.enrolled g sub name o sink).2.Reaches s.outlet sub g.inputs.length := by
  have hadded : (g.addInput (.sink { sink := sink, outlet := s.outlet })).1.display? o = some d := hd
  refine ⟨?_, ?_⟩
  · exact ((Hub.attached_joined (Option.isSome_of_eq_some hadded) g.inputs.length o).1 _).mpr
      (.inr ⟨rfl, rfl⟩)
  · exact ((Hub.rewired_attach _ o g.inputs.length).inputs.addresses_iff _).mpr
      ⟨_, Hub.input_addInput_last g _, rfl, hsub⟩

/-- What the sink of a granted subscription sends when it is attached. -/
theorem opens_of_check {selection : Selection} {o : OutputId} {sink : Sink}
    (hcheck : s.check registry h r = .ok (selection, o, sink)) {d : Display}
    (hd : h.display? o = some d) :
    (∀ schema, h.schemaOf o = some schema → Opens r.subscription schema (sink.opening d)) ∧
      (h.schemaOf o = none → sink.opening d = []) := by
  obtain ⟨-, -, hsink⟩ := check_ok hcheck
  have hshown : h.schemaOf o = d.publisher.schema := by rw [Hub.schemaOf, hd]; rfl
  refine ⟨fun schema hschema => ?_, fun hnone => Sink.opening_of_none sink (hshown ▸ hnone)⟩
  obtain ⟨ids, hids⟩ := resolve_of_check hcheck hschema
  have hopens := Sink.opens_opening (s := sink) (by rw [hsink]; rfl) (hshown ▸ hschema) hids
  rw [hsink] at hopens ⊢
  exact hopens

/-- A subscription is granted. -/
theorem answers_grant (hanchored : h.Anchored) (hregistry : registry.Shown h)
    (htype : r.type = .subscribe) {selection : Selection} {o : OutputId} {sink : Sink}
    (hcheck : s.check registry h r = .ok (selection, o, sink)) :
    ∃ text rest, s.Answers registry h r true text rest := by
  obtain ⟨-, houtput, hsink⟩ := check_ok hcheck
  have hsub : sink.subscription = r.subscription := by rw [hsink]; rfl
  obtain ⟨d, hd⟩ := Option.isSome_iff_exists.mp (hregistry _ o houtput)
  have hhandle := handle_grant htype hcheck
  obtain ⟨text, htext⟩ : ∃ text, text = s!"Subscribed to {selection.output}" := ⟨_, rfl⟩
  rw [← htext] at hhandle
  have hdisplay : ∀ outlets,
      (s.reply { h with outlets := outlets } r true text).display? o = some d := fun outlets =>
    (Hub.SameOutputs.display? (h := h) ⟨rfl, rfl, rfl, rfl⟩ o).trans hd
  have hsent := fun outlets => Hub.outlets_attach_new
    (h := s.reply { h with outlets := outlets } r true text) hanchored (hdisplay outlets)
    { sink := sink, outlet := s.outlet }
  have hnow := hhandle h.outlets
  have hu : ∀ u, (s.handle registry h r).1.subscriptions.find? r.subscription = some u ↔
      u = ⟨selection.output, o, h.inputs.length⟩ := by
    intro u
    rw [hnow, enrolled, AscMap.find?_insert, if_pos rfl, Option.some_inj, eq_comm]
    rfl
  refine ⟨text, sink.opening d, fun outlets => ?_, fun r' hr' => ?_, fun _ => ?_,
    fun _ _ u hu' => ?_, fun hnot => absurd ⟨htype, rfl⟩ hnot,
    fun hother => (by cases htype.symm.trans hother), fun hfailed => by cases hfailed⟩
  · rw [hhandle, enrolled]
    refine (hsent outlets).1.trans ?_
    show (outlets.modify s.outlet (·.add [_])).modify s.outlet _ = _
    rw [List.modify_modify_eq]
    simp [Function.comp_def]
  · have hfrom := (hsent []).2 r' hr'
    rw [hsink] at hfrom
    exact ⟨by cases hfrom <;> rfl, hfrom⟩
  · refine iff_of_true rfl ⟨find?_of_check hcheck, _, (hu _).mpr rfl, ?_⟩
    rw [hnow]
    exact s.reaches_enrolled (hdisplay h.outlets) r.subscription selection.output hsub
  · cases (hu u).mp hu'
    exact opens_of_check hcheck hd

/-- A subscription is let go. -/
theorem answers_release (htype : r.type = .unsubscribe) {u : Subscription}
    (hu : s.subscriptions.find? r.subscription = some u) :
    ∃ text, s.Answers registry h r true text [] := by
  obtain ⟨text, htext⟩ : ∃ text, text = s!"Unsubscribed from {u.name}" := ⟨_, rfl⟩
  have hhandle : ∀ g : Hub, s.handle registry g r =
      ({ s with subscriptions := s.subscriptions.erase r.subscription },
        s.reply (g.detach u.output u.input).1 r true text) := by
    intro g
    rw [handle, htype]
    dsimp only
    rw [unsubscribe, hu, htext]
  refine ⟨text, fun outlets => ?_, by simp, fun hother => (by cases htype.symm.trans hother),
    fun hother => (by cases htype.symm.trans hother), fun _ => rfl, fun _ => ?_,
    fun hfailed => by cases hfailed⟩
  · rw [hhandle]
    show (Hub.detach _ u.output u.input).1.outlets.modify s.outlet _ = _
    rw [Hub.outlets_detach]
    rfl
  · rw [hhandle, hu]
    exact iff_of_true rfl ⟨rfl, by rw [AscMap.find?_erase, if_pos rfl]⟩

/-- A modification is decided without a look at what is attached. -/
theorem modify_eq_reply (s : Session) (registry : Registry) (r : Request) :
    ∃ success text, ∀ g : Hub, s.modify registry g r = s.reply g r success text := by
  cases hsub : s.subscriptions.find? r.subscription with
  | none => exact ⟨_, _, fun g => by rw [modify, hsub]⟩
  | some sub =>
      cases hms : (r.selection.map (·.modifications)).getD [] with
      | nil => exact ⟨_, _, fun g => by rw [modify, hsub]; dsimp only; rw [hms]⟩
      | cons m ms => exact ⟨_, _, fun g => by rw [modify, hsub]; dsimp only; rw [hms]⟩

/-- Every request is answered, whatever the session holds. -/
theorem answers_handle (hanchored : h.Anchored) (hregistry : registry.Shown h) (s : Session)
    (r : Request) : ∃ success text rest, s.Answers registry h r success text rest := by
  cases htype : r.type with
  | subscribe =>
      cases hcheck : s.check registry h r with
      | error fault =>
          refine ⟨false, fault.text, [], answers_reply (fun outlets => ?_) (fun _ => rfl)
            fun hother => by cases htype.symm.trans hother⟩
          rw [handle, htype]
          dsimp only
          rw [subscribe, check_outlets, hcheck]
      | ok granted =>
          obtain ⟨selection, o, sink⟩ := granted
          exact ⟨true, answers_grant hanchored hregistry htype hcheck⟩
  | modify =>
      obtain ⟨success, text, hmodify⟩ := modify_eq_reply s registry r
      refine ⟨success, text, [], answers_reply (fun outlets => ?_)
        (fun hother => by cases htype.symm.trans hother)
        fun hother => by cases htype.symm.trans hother⟩
      rw [handle, htype]
      dsimp only
      rw [hmodify]
  | unsubscribe =>
      cases hu : s.subscriptions.find? r.subscription with
      | none =>
          refine ⟨false, "Subscription not found", [], answers_reply (fun outlets => ?_)
            (fun _ => rfl) fun _ => ⟨rfl, hu⟩⟩
          rw [handle, htype]
          dsimp only
          rw [unsubscribe, hu]
      | some u =>
          obtain ⟨text, hanswers⟩ := answers_release htype hu
          exact ⟨true, text, [], hanswers⟩
  | unknown code =>
      exact ⟨false, _, [], answers_reply (fun outlets => by rw [handle, htype]) (fun _ => rfl)
        fun hother => by cases htype.symm.trans hother⟩

/-! ### Reachable sessions -/

/-- A session and its hub as they may be. It starts without subscriptions, answers requests under
any registries and is closed; in between, anything may happen to the outputs, and inputs that exist
may be attached and detached. -/
inductive Reached : Session → Hub → Prop
  | fresh {s : Session} {h : Hub} (none : s.subscriptions = ∅) (anchored : h.Anchored) : Reached s h
  | request {s : Session} {h : Hub} {registry : Registry} (before : Reached s h)
      (shown : registry.Shown h) (r : Request) :
    Reached (s.handle registry h r).1 (s.handle registry h r).2
  | close {s : Session} {h : Hub} (before : Reached s h) : Reached (s.close h).1 (s.close h).2
  | elsewhere {s : Session} {h g : Hub} (before : Reached s h)
      (grown : h.inputs.length ≤ g.inputs.length)
      (attached : ∀ o, ∀ i ∈ g.attached o, i ∈ h.attached o ∨ i < g.inputs.length) : Reached s g

theorem anchored_detach (hanchored : h.Anchored) (o : OutputId) (i : InputId) :
    (h.detach o i).1.Anchored := by
  intro o' j hj
  rw [(h.rewired_detach o i).inputs.length_eq]
  refine hanchored o' j ?_
  rw [Hub.attached_detach] at hj
  split at hj
  · exact List.mem_of_mem_erase hj
  · exact hj

theorem anchored_close (hanchored : h.Anchored) : (s.close h).2.Anchored := by
  rw [close]
  induction s.subscriptions.values generalizing h with
  | nil => exact hanchored
  | cons u us ih => exact ih (anchored_detach hanchored u.output u.input)

/-- A request attaches no input but the one it adds. -/
theorem anchored_handle (hanchored : h.Anchored) (hregistry : registry.Shown h) :
    (s.handle registry h r).2.Anchored := by
  have hserves := s.serves_handle registry h r
  generalize s.handle registry h r = y at hserves
  cases hserves with
  | reply success text => exact hanchored
  | @grant name o sink text hnew hregistered hsub =>
      obtain ⟨name', ho⟩ := hregistered
      obtain ⟨g, hg⟩ : ∃ g, g = ((s.reply h r true text).addInput
        (.sink { sink := sink, outlet := s.outlet })).1 := ⟨_, rfl⟩
      have hdisplay : (g.display? o).isSome := by rw [hg]; exact hregistry name' o ho
      have hlength : g.inputs.length = h.inputs.length + 1 := by
        rw [hg]
        exact List.length_append
      intro o' j hj
      rw [enrolled, ← hg] at hj ⊢
      rw [(g.rewired_attach o _).inputs.length_eq, hlength]
      rcases ((Hub.attached_joined hdisplay _ o').1 j).mp hj with hold | ⟨-, rfl⟩
      · rw [hg] at hold
        exact Nat.lt_succ_of_lt (hanchored o' j hold)
      · exact Nat.lt_succ_self _
  | release hu => exact anchored_detach hanchored _ _

theorem Reached.anchored (hreached : Reached s h) : h.Anchored := by
  induction hreached with
  | fresh hnone hanchored => exact hanchored
  | request hbefore hshown r hanchored => exact anchored_handle hanchored hshown
  | close hbefore hanchored => exact anchored_close hanchored
  | elsewhere hbefore hgrown hattached hanchored =>
      exact fun o i hi => (hattached o i hi).elim
        (fun hold => (hanchored o i hold).trans_le hgrown) id

/-- Every request is acknowledged once, before anything else that it causes to be sent, and what
fails changes nothing. -/
theorem request_answered (hreached : Reached s h) (hregistry : registry.Shown h) (r : Request) :
    ∃ success text rest, s.Answers registry h r success text rest :=
  answers_handle hreached.anchored hregistry s r

/-- A table is followed, and then asked for once more for the same subscription. -/
theorem request_answered_again :
    let schema : Schema := ⟨⟨"T", [⟨"a", .int32, {}⟩]⟩, by decide⟩
    let registry : Registry := { outputs := .ofList [("T", .table 0)] }
    let h : Hub := { tables := [.plain (.create schema)], outlets := [{}] }
    let s : Session := { connection := 1, outlet := 0 }
    let ask : Request := ⟨5, 7, .subscribe, some (.everything "T")⟩
    let now := s.handle registry h ask
    (now.1.Reached now.2 ∧ registry.Shown now.2) ∧
      (now.2.attached (.table 0) = [0] ∧
        now.2.outlets.map (fun out => out.sent.map (·.type)) = [[.message, .schema, .init]] ∧
        (now.1.handle registry now.2 ask).2.outlets.map (fun out => out.sent.map (·.type)) =
          [[.message, .schema, .init, .message]]) ∧
      ∃ success text rest, now.1.Answers registry now.2 ask success text rest := by
  intro schema registry h s ask now
  have hregistered : ∀ name o, registry.outputs.find? name = some o → o = .table 0 := by
    intro name o ho
    have hmem : (name, o) ∈ registry.outputs.toList := AscMap.find?_eq_some_iff.mp ho
    have hone : registry.outputs.toList = [("T", .table 0)] := by decide +kernel
    rw [hone, List.mem_singleton] at hmem
    cases hmem
    rfl
  have hbefore : registry.Shown h := by
    intro name o ho
    cases hregistered name o ho
    rfl
  have hafter : registry.Shown now.2 := by
    intro name o ho
    cases hregistered name o ho
    decide +kernel
  have hanchored : h.Anchored := by
    rintro ((_ | k) | k | ⟨c, id⟩) i hi
    all_goals cases hi
  have hreached : now.1.Reached now.2 := .request (.fresh rfl hanchored) hbefore ask
  exact ⟨⟨hreached, hafter⟩, ⟨by decide +kernel, by decide +kernel, by decide +kernel⟩,
    request_answered hreached hafter ask⟩

end Session

end TableFeed
