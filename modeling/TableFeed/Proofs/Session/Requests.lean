import Mathlib
import TableFeed.Proofs.Client.Dispatch
import TableFeed.Proofs.Session.SubscriptionCourse
/-!
A session answers its requests one after the other. The reply goes out first, and what sinks have to
say follows. Whatever the request is, every subscription at the other end goes on along its course.
-/

namespace TableFeed

/-! ### Responses that are due -/

theorem Mirror.takes_success (m : Mirror) (sub : Int32) (limit : RowId) (token : Int64)
    (text : String) : m.Takes sub limit [.message sub token true text] m :=
  .singleton (by simp [Mirror.accept, Response.message])

theorem Mirror.takes_refusal (m : Mirror) (sub : Int32) (limit : RowId) (token : Int64)
    (text : String) :
    m.Takes sub limit [.message sub token false text] { m with phase := .failed } :=
  .singleton (by simp [Mirror.accept, Response.message])

namespace Client

variable {c : Client} {id : Int32}

theorem due_append (c : Client) (id : Int32) (rs rs' : List Response) :
    c.due id (rs ++ rs') = c.due id rs ++ c.due id rs' := List.filter_append ..

theorem due_cons_pos {r : Response} (hid : r.subscription = id) (hheeds : c.Heeds r)
    (rs : List Response) : c.due id (r :: rs) = r :: c.due id rs :=
  List.filter_cons_of_pos (decide_eq_true ⟨hid, hheeds⟩)

theorem due_cons_neg {r : Response} (h : ¬(r.subscription = id ∧ c.Heeds r)) (rs : List Response) :
    c.due id (r :: rs) = c.due id rs :=
  List.filter_cons_of_neg (mt of_decide_eq_true h)

/-- What a sink sends answers no request. -/
theorem heeds_of_fromSink (hzero : c.pending.find? 0 = none) {r : Response} {sub : Int32}
    {limit : Nat} (hr : r.FromSink sub limit) : c.Heeds r := by
  intro hmessage
  cases hr with
  | schema layout => cases hmessage
  | rows carries fits =>
      have htype : (ResponseType.message).carriesRows = true := hmessage ▸ carries
      cases htype
  | @failure e he =>
      have htoken : c.pending.find? (Response.message sub 0 false e.message).token = none := hzero
      rw [htoken]
      exact ⟨nofun, nofun⟩

theorem due_fromSink (hzero : c.pending.find? 0 = none) {rs : List Response} {limit : Nat}
    (hrs : ∀ r ∈ rs, r.FromSink r.subscription limit) (id : Int32) :
    c.due id rs = rs.filter (·.subscription = id) := by
  refine List.filter_congr fun r hr => ?_
  have hheeds := heeds_of_fromSink hzero (hrs r hr)
  simp only [hheeds, and_true]

/-- A reply is heeded unless it answers a request to modify or to unsubscribe. -/
theorem heeds_reply_iff {a : Request} (hawaits : c.pending.find? a.token = some a.type)
    (success : Bool) (text : String) :
    c.Heeds (.message a.subscription a.token success text) ↔
      a.type ≠ .modify ∧ a.type ≠ .unsubscribe := by
  have hiff : c.Heeds (.message a.subscription a.token success text) ↔
      c.pending.find? a.token ≠ some .modify ∧ c.pending.find? a.token ≠ some .unsubscribe :=
    ⟨fun h => h rfl, fun h _ => h⟩
  rw [hiff, hawaits]
  simp only [ne_eq, Option.some.injEq]

end Client

/-! ### Sessions on duty -/

/-- A session, and the requests it is going to get. Everything it serves is a table, and no
subscription that is asked for has a sink yet. -/
structure Session.OnDuty (s : Session) (registry : Registry) (frameLimit : Nat) (h : Hub)
    (asked : List Request) : Prop where
  stage : h.Stage 0 frameLimit
  outlet : s.outlet = 0
  limit : s.limit = frameLimit
  outputs : ∀ name o, registry.outputs.find? name = some o →
    ∃ k, o = .table k ∧ k < h.tables.length
  seats : ∀ id sub, s.subscriptions.find? id = some sub →
    ∃ k x, sub.output = .table k ∧ k < h.tables.length ∧ h.inputs[sub.input]? = some (.sink x) ∧
      x.sink.subscription = id
  fresh : ∀ a ∈ asked, a.type = .subscribe → h.Vacant 0 a.subscription
  distinct : ∀ a ∈ asked, a.type = .subscribe → ∀ selection names, a.selection = some selection →
    selection.projection = some names → names.Nodup
  single : asked.Pairwise fun a b => b.type = .subscribe → a.subscription ≠ b.subscription

/-- An answer to request `a`: what was sent, and where it leaves the session and its hub. It is sent
to a client that awaits the answer. -/
structure Session.Answered (registry : Registry) (frameLimit : Nat) (h : Hub) (a : Request)
    (asked : List Request) (c : Client) (x : Session × Hub) (new : List Response) : Prop where
  sent : x.2.sentTo 0 = h.sentTo 0 ++ new
  reply : ∃ success text rs, new = .message a.subscription a.token success text :: rs ∧
    ∀ r ∈ rs, r.FromSink r.subscription frameLimit ∧ ¬x.2.Vacant 0 r.subscription
  duty : x.1.OnDuty registry frameLimit x.2 asked
  steady : h.Steady x.2
  vacant : ∀ id, a.subscription ≠ id → h.Vacant 0 id → x.2.Vacant 0 id
  course : ∀ id selection m, Course registry frameLimit h (a :: asked) id selection m →
    (a.type = .unsubscribe → a.subscription ≠ id) →
      ∃ m', m.Takes id defaultRowLimit (c.due id new) m' ∧
        Course registry frameLimit x.2 asked id selection m'

namespace Session

variable {s s' : Session} {registry : Registry} {frameLimit : Nat} {h g : Hub} {a : Request}
  {asked : List Request} {c : Client}

namespace OnDuty

/-- What a session has to do with a hub changes little. -/
theorem of_steady (hduty : s.OnDuty registry frameLimit h asked) (hstage : g.Stage 0 frameLimit)
    (hg : h.Steady g)
    (hfresh : ∀ a ∈ asked, a.type = .subscribe → h.Vacant 0 a.subscription →
      g.Vacant 0 a.subscription) : s.OnDuty registry frameLimit g asked := by
  refine ⟨hstage, hduty.outlet, hduty.limit, fun name o ho => ?_, fun id sub hsub => ?_,
    fun a ha htype => hfresh a ha htype (hduty.fresh a ha htype), hduty.distinct, hduty.single⟩
  · obtain ⟨k, hk, hlt⟩ := hduty.outputs name o ho
    exact ⟨k, hk, hg.tables.symm ▸ hlt⟩
  · obtain ⟨k, x, hk, hlt, hx, hid⟩ := hduty.seats id sub hsub
    obtain ⟨x', hx', hid'⟩ := hg.sinks _ x hx
    exact ⟨k, x', hk, hg.tables.symm ▸ hlt, hx', hid'.trans hid⟩

/-- Nothing but tables, inputs and the outputs of the registry matters, as long as the outlet stays
open. -/
theorem congr (hduty : s.OnDuty registry frameLimit h asked) {registry' : Registry}
    (houtputs : registry'.outputs = registry.outputs) (htables : g.tables = h.tables)
    (hinputs : g.inputs = h.inputs) (hopen : g.IsOpen 0) :
    s.OnDuty registry' frameLimit g asked := by
  have hsame : h.SameInputs g := ⟨by rw [hinputs]; exact (Hub.SameInputs.refl h).input⟩
  refine ⟨hduty.stage.of_sameInputs hsame hopen (htables ▸ hduty.stage.tables), hduty.outlet,
    hduty.limit, ?_, ?_, fun a ha htype => (hduty.fresh a ha htype).of_sameInputs hsame,
    hduty.distinct, hduty.single⟩
  · rw [houtputs, htables]
    exact hduty.outputs
  · rw [hinputs, htables]
    exact hduty.seats

theorem of_cons (hduty : s.OnDuty registry frameLimit h (a :: asked)) :
    s.OnDuty registry frameLimit h asked :=
  ⟨hduty.stage, hduty.outlet, hduty.limit, hduty.outputs, hduty.seats,
    fun b hb => hduty.fresh b (List.mem_cons_of_mem a hb),
    fun b hb => hduty.distinct b (List.mem_cons_of_mem a hb), hduty.single.of_cons⟩

/-- Another request is on the way. -/
theorem append_request (hduty : s.OnDuty registry frameLimit h asked)
    (hvacant : a.type = .subscribe → h.Vacant 0 a.subscription)
    (hdistinct : a.type = .subscribe → ∀ selection names, a.selection = some selection →
      selection.projection = some names → names.Nodup)
    (hother : ∀ b ∈ asked, a.type = .subscribe → b.subscription ≠ a.subscription) :
    s.OnDuty registry frameLimit h (asked ++ [a]) := by
  refine ⟨hduty.stage, hduty.outlet, hduty.limit, hduty.outputs, hduty.seats, fun b hb => ?_,
    fun b hb => ?_, ?_⟩
  · rcases List.mem_append.mp hb with hb | hb
    · exact hduty.fresh b hb
    · exact List.mem_singleton.mp hb ▸ hvacant
  · rcases List.mem_append.mp hb with hb | hb
    · exact hduty.distinct b hb
    · exact List.mem_singleton.mp hb ▸ hdistinct
  · rw [List.pairwise_append]
    refine ⟨hduty.single, List.pairwise_singleton _ _, fun b hb b' hb' => ?_⟩
    exact List.mem_singleton.mp hb' ▸ hother b hb

theorem reply_eq (hduty : s.OnDuty registry frameLimit h asked) (g : Hub) (a : Request)
    (success : Bool) (text : String) :
    s.reply g a success text = g.emit 0 (.message a.subscription a.token success text) := by
  rw [reply, hduty.outlet]

/-- A subscription whose request is the next one has nothing yet. -/
theorem course_next (hduty : s.OnDuty registry frameLimit h (a :: asked)) {id : Int32}
    {selection : Selection} {m : Mirror}
    (hcourse : Course registry frameLimit h (a :: asked) id selection m)
    (htype : a.type = .subscribe) (hid : a.subscription = id) :
    m = {} ∧ a.selection = some selection := by
  have hvacant := hduty.fresh a List.mem_cons_self htype
  cases hcourse with
  | asked mem type sub wants =>
      rcases List.mem_cons.mp mem with rfl | mem
      · exact ⟨rfl, wants⟩
      · exact absurd (hid.trans sub.symm) ((List.pairwise_cons.mp hduty.single).1 _ mem type)
  | served output sub wants limit follows =>
      obtain ⟨x, hx, ho, hsame⟩ := follows.exists_employs
      exact absurd ⟨_, hx, ho, hsame.1.trans (sub.trans hid.symm)⟩ (hvacant _)
  | refused failed vacant settled =>
      exact absurd hid (settled a List.mem_cons_self htype)

end OnDuty

/-! ### Replies alone -/

/-- A reply after a change of the hub that nobody tells of. -/
theorem answered_quietly (hduty : s'.OnDuty registry frameLimit g asked)
    (hsent : g.sentTo 0 = h.sentTo 0) (hsteady : h.Steady g) (hinputs : h.SameInputs g)
    (hquiet : a.type = .modify ∨ a.type = .unsubscribe)
    (hawaits : c.pending.find? a.token = some a.type)
    (hcourse : ∀ id selection m, Course registry frameLimit h (a :: asked) id selection m →
      (a.type = .unsubscribe → a.subscription ≠ id) →
        Course registry frameLimit g (a :: asked) id selection m) (success : Bool) (text : String) :
    Answered registry frameLimit h a asked c
      (s', g.emit 0 (.message a.subscription a.token success text))
      [.message a.subscription a.token success text] := by
  have hheeds : ¬c.Heeds (.message a.subscription a.token success text) := by
    rw [Client.heeds_reply_iff hawaits]
    rintro ⟨hmodify, hunsubscribe⟩
    exact hquiet.elim hmodify hunsubscribe
  have hreply : g.SameInputs (g.emit 0 (.message a.subscription a.token success text)) :=
    ⟨(Hub.SameInputs.refl g).input⟩
  refine ⟨?_, ⟨success, text, [], rfl, fun r hr => by cases hr⟩, ?_, hsteady.trans (.emit g 0 _),
    fun id _ hv => (hv.of_sameInputs hinputs).of_sameInputs hreply,
    fun id selection m hm hother => ?_⟩
  · rw [Hub.sentTo_emit hduty.stage.isOpen, if_pos rfl, hsent]
  · exact hduty.of_steady (hduty.stage.emit _) (.emit g 0 _) fun _ _ _ hv => hv.of_sameInputs hreply
  · refine ⟨m, ?_, ((hcourse id selection m hm hother).of_cons fun htype => ?_).congr rfl rfl⟩
    · rw [Client.due_cons_neg fun hr => hheeds hr.2]
      exact .nil m
    · rw [htype] at hquiet
      rcases hquiet with hquiet | hquiet <;> cases hquiet

/-- A request to subscribe that is refused. -/
theorem answered_refusal (hduty : s.OnDuty registry frameLimit h (a :: asked))
    (htype : a.type = .subscribe) (hawaits : c.pending.find? a.token = some a.type)
    (text : String) :
    Answered registry frameLimit h a asked c
      (s, h.emit 0 (.message a.subscription a.token false text))
      [.message a.subscription a.token false text] := by
  have hreply : h.SameInputs (h.emit 0 (.message a.subscription a.token false text)) :=
    ⟨(Hub.SameInputs.refl h).input⟩
  have hheeds : c.Heeds (.message a.subscription a.token false text) := by
    rw [Client.heeds_reply_iff hawaits, htype]
    exact ⟨nofun, nofun⟩
  refine ⟨?_, ⟨false, text, [], rfl, fun r hr => by cases hr⟩, ?_, .emit h 0 _,
    fun id _ hv => hv.of_sameInputs hreply, fun id selection m hm _ => ?_⟩
  · rw [Hub.sentTo_emit hduty.stage.isOpen, if_pos rfl]
  · exact hduty.of_cons.of_steady (hduty.stage.emit _) (.emit h 0 _) fun _ _ _ hv =>
      hv.of_sameInputs hreply
  · by_cases hid : a.subscription = id
    · obtain ⟨rfl, -⟩ := hduty.course_next hm htype hid
      have hdue : c.due id [.message a.subscription a.token false text] =
          [.message a.subscription a.token false text] := Client.due_cons_pos hid hheeds []
      subst hid
      rw [hdue]
      exact ⟨{ phase := .failed }, Mirror.takes_refusal {} ..,
        .refused rfl ((hduty.fresh a List.mem_cons_self htype).of_sameInputs hreply)
          fun b hb hsub => Ne.symm ((List.pairwise_cons.mp hduty.single).1 b hb hsub)⟩
    · refine ⟨m, ?_, (hm.of_cons fun _ => hid).congr rfl rfl⟩
      rw [Client.due_cons_neg fun hr => hid hr.1]
      exact .nil m

/-! ### Subscribing -/

theorem check_ok {selection : Selection} {output : OutputId} {sink : Sink}
    (h : s.check registry g a = .ok (selection, output, sink)) :
    a.selection = some selection ∧ registry.outputs.find? selection.output = some output ∧
      sink = .create a.subscription selection.projection s.limit := by
  rw [check] at h
  rcases hselection : a.selection with _ | wanted
  · rw [hselection] at h
    cases h
  rcases houtput : registry.outputs.find? wanted.output with _ | o
  · simp only [hselection, houtput] at h
    split at h <;> cases h
  simp only [hselection, houtput] at h
  split at h
  · cases h
  · split at h
    · split at h
      · cases h
      · split at h
        · cases h
        · cases h
          exact ⟨rfl, houtput, rfl⟩
    · split at h
      · cases h
      · cases h
        exact ⟨rfl, houtput, rfl⟩

/-- A session takes on a subscription, with a sink that follows a table. -/
theorem OnDuty.insert_subscription (hduty : s.OnDuty registry frameLimit g asked) {name : String}
    {k : Nat}
    (houtput : registry.outputs.find? name = some (.table k)) {i : InputId} {e : Encoder}
    {m : Mirror} (hfollows : g.Follows k i 0 e m) {id : Int32} (hsub : e.subscription = id) :
    OnDuty { s with subscriptions := s.subscriptions.insert id ⟨name, .table k, i⟩ } registry
      frameLimit g asked := by
  refine ⟨hduty.stage, hduty.outlet, hduty.limit, hduty.outputs, fun id' sub hsub' => ?_,
    hduty.fresh, hduty.distinct, hduty.single⟩
  rw [AscMap.find?_insert] at hsub'
  split at hsub'
  next hid =>
    cases hsub'
    obtain ⟨x, hx, -, hsame⟩ := hfollows.exists_employs
    obtain ⟨k', hk', hlt⟩ := hduty.outputs _ _ houtput
    exact ⟨k', x, hk', hlt, hx, hsame.1.trans (hsub.trans hid)⟩
  next => exact hduty.seats id' sub hsub'

/-- A request to subscribe that is granted. -/
theorem answered_engage (hduty : s.OnDuty registry frameLimit h (a :: asked))
    (htype : a.type = .subscribe) (hawaits : c.pending.find? a.token = some a.type)
    (hzero : c.pending.find? 0 = none) {selection : Selection}
    (hselection : a.selection = some selection) {k : Nat}
    (houtput : registry.outputs.find? selection.output = some (.table k)) {e : Encoder}
    (he : e = (Sink.create a.subscription selection.projection s.limit).encoder) {told : Hub}
    {text : String} (htold : told = h.emit 0 (.message a.subscription a.token true text))
    {o : OutletId} (ho : o = 0) :
    ∃ new, Answered registry frameLimit h a asked c
      ({ s with
          subscriptions := s.subscriptions.insert a.subscription
            ⟨selection.output, .table k, told.inputs.length⟩ }, told.engaged o k e) new := by
  subst ho
  have hsub : e.subscription = a.subscription := by rw [he]; rfl
  have hlimit : e.limit = frameLimit := by rw [he]; exact hduty.limit
  have hreply : h.SameInputs told := by
    rw [htold]
    exact ⟨(Hub.SameInputs.refl h).input⟩
  have hstage : told.Stage 0 frameLimit := htold ▸ hduty.stage.emit _
  have hreplied : told.sentTo 0 = h.sentTo 0 ++ [.message a.subscription a.token true text] := by
    rw [htold, Hub.sentTo_emit hduty.stage.isOpen, if_pos rfl]
  have hheeds : c.Heeds (.message a.subscription a.token true text) := by
    rw [Client.heeds_reply_iff hawaits, htype]
    exact ⟨nofun, nofun⟩
  obtain ⟨t, ht⟩ : ∃ t, told.tables[k]? = some t := by
    obtain ⟨k', hk', hlt⟩ := hduty.outputs _ _ houtput
    cases hk'
    rw [htold]
    exact ⟨_, List.getElem?_eq_getElem hlt⟩
  have hvacant : told.Vacant 0 e.subscription :=
    hsub ▸ (hduty.fresh a List.mem_cons_self htype).of_sameInputs hreply
  have hfirst := (List.pairwise_cons.mp hduty.single).1
  have hnames : ∀ names, e.requested = some names → names.Nodup := by
    rw [he]
    exact fun names => hduty.distinct a List.mem_cons_self htype selection names hselection
  obtain ⟨hafter, m', hleads, hfollows⟩ := hstage.engaged hlimit hnames ht hvacant {}
  obtain ⟨rs, hsent, hrs⟩ := hstage.sent_engage hlimit hvacant ht
  have hsteady : h.Steady (told.engaged 0 k e) :=
    Hub.Steady.trans (htold ▸ .emit h 0 _) (.engaged ht)
  have hother : ∀ id, a.subscription ≠ id → h.Vacant 0 id → (told.engaged 0 k e).Vacant 0 id :=
    fun id hne hv => (hv.of_sameInputs hreply).engaged ht (hsub.symm ▸ hne)
  have hdue : ∀ id, c.due id rs = rs.filter (·.subscription = id) := fun id =>
    Client.due_fromSink hzero (fun r hr => (hrs r hr).1) id
  have hkept : s.OnDuty registry frameLimit (told.engaged 0 k e) asked :=
    hduty.of_cons.of_steady hafter hsteady fun b hb hsubscribe hv =>
      hother _ (hfirst b hb hsubscribe) hv
  refine ⟨.message a.subscription a.token true text :: rs, ?_, ⟨true, text, rs, rfl, hrs⟩,
    hkept.insert_subscription houtput hfollows hsub, hsteady, hother,
    fun id selection' m hm _ => ?_⟩
  · rw [hsent, hreplied, List.append_assoc]
    rfl
  · by_cases hid : a.subscription = id
    · obtain ⟨rfl, hwants⟩ := hduty.course_next hm htype hid
      cases hselection.symm.trans hwants
      refine ⟨m', ?_, .served houtput (hsub.trans hid) (by rw [he]; rfl) hlimit hfollows⟩
      rw [Client.due_cons_pos hid hheeds, hdue, ← hid]
      exact (Mirror.takes_success {} ..).append (hsub ▸ hleads.takes_filter hsent)
    · obtain ⟨hquiet, hgoes⟩ := (hm.of_cons fun _ => hid).congr (g := told) (by rw [htold]; rfl)
        (by rw [htold]; rfl) |>.engaged hstage (fun b hb hsubscribe =>
          (hduty.of_cons.fresh b hb hsubscribe).of_sameInputs hreply) hlimit hvacant
            (hsub.symm ▸ hid) ht
      refine ⟨m, ?_, hgoes⟩
      rw [Client.due_cons_neg fun hr => hid hr.1, hdue]
      exact (Hub.leads_nowhere hquiet m).takes_filter hsent

namespace OnDuty

theorem subscribe (hduty : s.OnDuty registry frameLimit h (a :: asked))
    (htype : a.type = .subscribe) (hawaits : c.pending.find? a.token = some a.type)
    (hzero : c.pending.find? 0 = none) :
    ∃ new, Answered registry frameLimit h a asked c (s.subscribe registry h a) new := by
  rw [Session.subscribe]
  split
  next fault hfault =>
    rw [hduty.reply_eq]
    exact ⟨_, answered_refusal hduty htype hawaits fault.text⟩
  next selection output sink hcheck =>
    obtain ⟨hselection, houtput, rfl⟩ := check_ok hcheck
    obtain ⟨k, rfl, -⟩ := hduty.outputs _ _ houtput
    exact answered_engage hduty htype hawaits hzero hselection houtput rfl
      (hduty.reply_eq h a true s!"Subscribed to {selection.output}") hduty.outlet

/-! ### Modifying and unsubscribing -/

/-- A reply and nothing else. -/
theorem answered_reply (hduty : s.OnDuty registry frameLimit h (a :: asked))
    (hquiet : a.type = .modify ∨ a.type = .unsubscribe)
    (hawaits : c.pending.find? a.token = some a.type) (success : Bool) (text : String) :
    Answered registry frameLimit h a asked c (s, s.reply h a success text)
      [.message a.subscription a.token success text] := by
  rw [hduty.reply_eq]
  exact answered_quietly hduty.of_cons rfl (.refl h) (.refl h) hquiet hawaits
    (fun id selection m hm _ => hm) success text

/-- Whatever is decided about a modification, the subscription goes on. -/
theorem modify (hduty : s.OnDuty registry frameLimit h (a :: asked)) (htype : a.type = .modify)
    (hawaits : c.pending.find? a.token = some a.type) :
    ∃ new, Answered registry frameLimit h a asked c (s, s.modify registry h a) new := by
  rw [Session.modify]
  split
  · exact ⟨_, hduty.answered_reply (.inl htype) hawaits _ _⟩
  · split
    · exact ⟨_, hduty.answered_reply (.inl htype) hawaits _ _⟩
    · exact ⟨_, hduty.answered_reply (.inl htype) hawaits _ _⟩

/-- A session gives up one of its subscriptions. -/
theorem erase_subscription (hduty : s.OnDuty registry frameLimit h asked) (id : Int32) :
    OnDuty { s with subscriptions := s.subscriptions.erase id } registry frameLimit h asked := by
  refine ⟨hduty.stage, hduty.outlet, hduty.limit, hduty.outputs, fun id' sub hsub => ?_,
    hduty.fresh, hduty.distinct, hduty.single⟩
  rw [AscMap.find?_erase] at hsub
  split at hsub
  · cases hsub
  · exact hduty.seats id' sub hsub

/-- The sink of the subscription is taken off its table before the reply. -/
theorem unsubscribe (hduty : s.OnDuty registry frameLimit h (a :: asked))
    (htype : a.type = .unsubscribe) (hawaits : c.pending.find? a.token = some a.type) :
    ∃ new, Answered registry frameLimit h a asked c (s.unsubscribe h a) new := by
  rw [Session.unsubscribe]
  split
  next => exact ⟨_, hduty.answered_reply (.inr htype) hawaits _ _⟩
  next sub hsub =>
    obtain ⟨k, x, houtput, hlt, hx, hid⟩ := hduty.seats _ _ hsub
    have ht := List.getElem?_eq_getElem hlt
    obtain ⟨g, hg⟩ : ∃ g, g = (h.detach (.table k) sub.input).1 := ⟨_, rfl⟩
    have hsame : h.SameInputs g := hg ▸ Hub.Stage.sameInputs_detach ht _
    have hsteady : h.Steady g := hg ▸ .detach ht _
    have hafter : g.Stage 0 frameLimit := hg ▸ hduty.stage.detach ht _
    have hsent : g.sentTo 0 = h.sentTo 0 := hg ▸ Hub.Stage.sentTo_detach hduty.stage.isOpen ht _
    have hleft := (hduty.of_cons.of_steady hafter hsteady
      fun _ _ _ hv => hv.of_sameInputs hsame).erase_subscription
      a.subscription
    dsimp only
    rw [hduty.reply_eq, houtput, ← hg]
    refine ⟨_, answered_quietly hleft hsent hsteady hsame (.inr htype) hawaits
      (fun id selection m hm hne => ?_) _ _⟩
    rw [hg]
    exact hm.detach ht hx (hid ▸ hne htype)

/-- Any request that is understood is answered. -/
theorem handle (hduty : s.OnDuty registry frameLimit h (a :: asked))
    (hunderstood : ∀ code, a.type ≠ .unknown code)
    (hawaits : c.pending.find? a.token = some a.type) (hzero : c.pending.find? 0 = none) :
    ∃ new, Answered registry frameLimit h a asked c (s.handle registry h a) new := by
  rw [Session.handle.eq_def]
  split
  next htype => exact hduty.subscribe htype hawaits hzero
  next htype => exact hduty.modify htype hawaits
  next htype => exact hduty.unsubscribe htype hawaits
  next code htype => exact absurd htype (hunderstood code)

end OnDuty

end Session

end TableFeed
