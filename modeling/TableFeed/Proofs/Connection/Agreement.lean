import Mathlib
import TableFeed.Proofs.Client.Tokens
import TableFeed.Proofs.Connection.Exchange
import TableFeed.Proofs.Session.Requests
/-!
The two ends of a connection, apart from the bytes between them. There are requests that the session
has not got and responses that the client has not handled; once they are, every subscription of the
client is served by a sink whose machine its replica follows, or both sides know that it is given
up. Whatever either end does keeps it so.
-/

namespace TableFeed

/-! ### Ids of subscriptions -/

/-- One of the first `n` ids that a client gives. -/
def Numbered (n : Nat) (id : Int32) : Prop := ∃ k, k < n ∧ Int32.ofNat (k + 1) = id

theorem Numbered.mono {n n' : Nat} {id : Int32} (h : Numbered n id) (hn : n ≤ n') :
    Numbered n' id := by
  obtain ⟨k, hk, heq⟩ := h
  exact ⟨k, Nat.lt_of_lt_of_le hk hn, heq⟩

/-- The next id is new. -/
theorem not_numbered_next {n : Nat} (hn : n < 0x100000000) :
    ¬Numbered n (Int32.ofNat (n + 1)) := by
  rintro ⟨k, hk, heq⟩
  have hbits : (k + 1) % 2 ^ 32 = (n + 1) % 2 ^ 32 := congrArg (·.toBitVec.toNat) heq
  omega

def subscribed (issued : List (Int64 × RequestType)) : Nat := issued.countP (·.2 = .subscribe)

theorem subscribed_le (issued : List (Int64 × RequestType)) (x : Int64 × RequestType) :
    subscribed issued ≤ subscribed (issued ++ [x]) := by
  rw [subscribed, subscribed, List.countP_append]
  exact Nat.le_add_right ..

theorem subscribed_subscribe (issued : List (Int64 × RequestType)) (token : Int64) :
    subscribed (issued ++ [(token, .subscribe)]) = subscribed issued + 1 := by
  rw [subscribed, List.countP_append]
  rfl

theorem subscribed_other (issued : List (Int64 × RequestType)) (token : Int64) (type : RequestType)
    (h : type ≠ .subscribe) : subscribed (issued ++ [(token, type)]) = subscribed issued := by
  rw [subscribed, List.countP_append, List.countP_singleton, if_neg (by simpa using h)]
  rfl

/-! ### Responses of a server -/

/-- What a server sends: replies, and what its sinks say. -/
inductive Response.FromServer (limit : Nat) : Response → Prop
  | reply (sub : Int32) {token : Int64} (success : Bool) (text : String) (asked : token ≠ 0) :
      FromServer limit (.message sub token success text)
  | sink {r : Response} (h : r.FromSink r.subscription limit) : FromServer limit r

namespace Response.FromServer

variable {limit : Nat} {r : Response}

/-- Nothing of it reads like a violation. -/
theorem not_violation_of_reported (h : r.FromServer limit) :
    ∀ m ∈ Client.reported r, ¬m.IsViolation := by
  intro m hm
  rw [Client.reported] at hm
  split at hm
  next hmessage =>
    rw [List.mem_singleton.mp hm]
    rintro ⟨htoken, -, id, fault, htext⟩
    cases h with
    | reply sub success text asked => exact asked htoken
    | sink h =>
        generalize r.subscription = sub at h
        cases h with
        | schema layout => cases hmessage
        | rows carries fits =>
            have hcarries : (ResponseType.message).carriesRows = true := hmessage ▸ carries
            cases hcarries
        | failure he => exact Error.message_ne_violation he id fault htext
  next => cases hm

end Response.FromServer

/-! ### Machines that give up -/

theorem Verdict.ok_of_accepted {x : Except Error Unit} (h : ofResult x = .accepted) :
    x = .ok () := by
  rcases x with e | _
  · rw [ofResult] at h
    split at h <;> cases h
  · rfl

/-- A machine gives up over a response that it accepts only if it is told of a failure. -/
theorem Mirror.failed_of_accepted {m : Mirror} {sub : Int32} {limit : RowId} {r : Response}
    (haccepted : (m.accept sub limit r).2 = .accepted) (hbefore : m.phase ≠ .failed)
    (hafter : (m.accept sub limit r).1.phase = .failed) :
    r.type = .message ∧ (r.acknowledgement.getD {}).success = false := by
  have hdata : ∀ type, (m.acceptData limit type r.data).2 = .accepted →
      (m.acceptData limit type r.data).1.phase ≠ .failed := by
    intro type
    rw [acceptData.eq_def, if_neg hbefore]
    split
    · exact fun h => by cases h
    · split
      · split
        · split
          · intro _
            rw [absorb.eq_def]
            split <;> exact Phase.noConfusion
          · exact fun h => by cases h
        · exact fun h => by cases h
      · exact fun h => by cases h
  have hschema : (m.acceptSchema r.schema).2 = .accepted →
      (m.acceptSchema r.schema).1.phase ≠ .failed := by
    rw [acceptSchema.eq_def]
    split
    · exact fun h => by cases h
    · split
      · exact fun _ => Phase.noConfusion
      · exact fun h => by cases h
  rw [accept] at haccepted hafter
  split at haccepted
  · cases haccepted
  next hsub =>
    rw [if_neg hsub] at hafter
    generalize htype : r.type = type at haccepted hafter ⊢
    cases type with
    | message =>
        dsimp only at haccepted hafter
        split at haccepted
        · cases haccepted
        next ack hack =>
          rw [hack] at hafter ⊢
          dsimp only at hafter
          refine ⟨rfl, ?_⟩
          rw [Option.getD_some, Bool.eq_false_iff]
          intro hsuccess
          rw [if_pos hsuccess] at hafter
          exact hbefore hafter
    | schema => exact absurd hafter (hschema haccepted)
    | _ => exact absurd hafter (hdata _ haccepted)

/-! ### Requests of a client -/

structure Client.Asks (c c' : Client) (a : Request) : Prop where
  token : a.token = c.nextToken
  limit : c'.limit = c.limit
  nextToken : c'.nextToken = c.nextToken + 1
  pending : c'.pending = c.pending.insert c.nextToken a.type
  stream : c'.stream = c.stream
  inbox : c'.inbox = c.inbox
  outgoing : c.hungUp = false → c'.outgoing = c.outgoing ++ [Wire.encodeRequest a]
  hungUp : c'.hungUp = c.hungUp
  messages : c'.messages = c.messages

namespace Client

theorem asks_send (c : Client) (id : Int32) (type : RequestType) (selection : Option Selection) :
    c.Asks (c.send id type selection).1 ⟨c.nextToken, id, type, selection⟩ :=
  ⟨rfl, rfl, rfl, rfl, rfl, rfl, fun h => if_neg (by rw [h]; exact Bool.false_ne_true), rfl, rfl⟩

theorem asks_subscribe (c : Client) (selection : Selection) :
    c.Asks (c.subscribe selection).1 ⟨c.nextToken, c.nextId, .subscribe, some selection⟩ :=
  ⟨rfl, rfl, rfl, rfl, rfl, rfl, fun h => if_neg (by rw [h]; exact Bool.false_ne_true), rfl, rfl⟩

theorem mem_reported {r : Response} (h : r.type = .message) :
    ⟨r.subscription, r.token, (r.acknowledgement.getD {}).success,
      (r.acknowledgement.getD {}).message⟩ ∈ reported r := by
  rw [reported, if_pos h]
  exact List.mem_singleton_self _

structure Alike (c c' : Client) : Prop where
  nextToken : c'.nextToken = c.nextToken
  nextId : c'.nextId = c.nextId
  subscriptions : c'.subscriptions = c.subscriptions
  pending : c'.pending = c.pending
  messages : c'.messages = c.messages

theorem Alike.refl (c : Client) : c.Alike c := ⟨rfl, rfl, rfl, rfl, rfl⟩

/-- Requests that are awaited alike make the same responses due. -/
theorem due_congr {c c' : Client} {rs : List Response}
    (h : ∀ r ∈ rs, r.type = .message → c'.pending.find? r.token = c.pending.find? r.token)
    (id : Int32) : c'.due id rs = c.due id rs := by
  refine List.filter_congr fun r hr => ?_
  have hheeds : c'.Heeds r ↔ c.Heeds r := by
    refine forall_congr' fun hmessage => ?_
    rw [h r hr hmessage]
  simp only [hheeds]

end Client

/-! ### Accord -/

/-- A subscription of a client: its replica goes on as its machine does, and what is still to reach
it leads the machine to where it is at the serving end. A replica that has failed was told so. -/
structure Attuned (registry : Registry) (frameLimit : Nat) (h : Hub) (c : Client)
    (asked : List Request) (said : List Response) (issued : List (Int64 × RequestType)) (id : Int32)
    (sub : ClientSubscription) : Prop where
  alone : sub.replica.publisher.inputs = []
  wanted : ∀ a ∈ asked, a.type = .unsubscribe → a.subscription ≠ id
  follows : ∃ m m', Reflects id defaultRowLimit sub.replica m ∧
    m.Takes id defaultRowLimit (c.due id said) m' ∧
    Course registry frameLimit h asked id sub.selection m'
  failed : sub.replica.phase = .failed → ∃ msg ∈ c.messages, msg.subscription = id ∧
    msg.success = false ∧ (msg.token = 0 ∨ ∃ type ≠ .modify, (msg.token, type) ∈ issued)

structure Unused (h : Hub) (c : Client) (asked : List Request) (said : List Response) (id : Int32) :
    Prop where
  vacant : h.Vacant 0 id
  absent : c.subscriptions.find? id = none
  unasked : ∀ a ∈ asked, a.subscription ≠ id
  unsaid : ∀ r ∈ said, r.subscription ≠ id

/-- A session and its hub, a client, the requests that the session has not got and the responses that
the client has not handled. -/
structure Accord (registry : Registry) (frameLimit : Nat) (h : Hub) (s : Session) (c : Client)
    (asked : List Request) (said : List Response) (issued : List (Int64 × RequestType)) : Prop where
  duty : s.OnDuty registry frameLimit h asked
  ledger : Ledger c.pending c.nextToken asked said issued
  nextId : c.nextId = Int32.ofNat (subscribed issued + 1)
  unused : ∀ id, ¬Numbered (subscribed issued) id → Unused h c asked said id
  proper : ∀ r ∈ said, r.FromServer frameLimit
  attuned : ∀ id sub, c.subscriptions.find? id = some sub →
    Attuned registry frameLimit h c asked said issued id sub
  clean : ∀ m ∈ c.messages, ¬m.IsViolation

namespace Accord

variable {registry : Registry} {frameLimit : Nat} {h g : Hub} {s s' : Session} {c c' : Client}
  {a : Request} {asked asked' : List Request} {r : Response} {said new : List Response}
  {issued : List (Int64 × RequestType)}

/-- What does not matter to either end. -/
theorem congr (ha : Accord registry frameLimit h s c asked said issued) {registry' : Registry}
    (houtputs : registry'.outputs = registry.outputs) (htables : g.tables = h.tables)
    (hinputs : g.inputs = h.inputs) (hopen : g.IsOpen 0) (hc : c.Alike c') :
    Accord registry' frameLimit g s c' asked said issued := by
  have hsame : h.SameInputs g := ⟨by rw [hinputs]; exact (Hub.SameInputs.refl h).input⟩
  have hdue : ∀ id, c'.due id said = c.due id said :=
    Client.due_congr fun r _ _ => by rw [hc.pending]
  refine ⟨ha.duty.congr houtputs htables hinputs hopen, ?_, hc.nextId.trans ha.nextId,
    fun id hid => ?_, ha.proper, fun id sub hsub => ?_, hc.messages.symm ▸ ha.clean⟩
  · rw [hc.pending, hc.nextToken]
    exact ha.ledger
  · obtain ⟨hvacant, habsent, hunasked, hunsaid⟩ := ha.unused id hid
    exact ⟨hvacant.of_sameInputs hsame, hc.subscriptions.symm ▸ habsent, hunasked, hunsaid⟩
  · obtain ⟨halone, hwanted, ⟨m, m', hm, htakes, hcourse⟩, hfailed⟩ :=
      ha.attuned id sub (hc.subscriptions ▸ hsub)
    exact ⟨halone, hwanted,
      ⟨m, m', hm, (hdue id).symm ▸ htakes, (hcourse.of_outputs houtputs).congr htables hinputs⟩,
      hc.messages.symm ▸ hfailed⟩

/-! ### The serving end -/

/-- The serving end sends something new, and with it every machine goes on along its course. -/
theorem append_said (ha : Accord registry frameLimit h s c asked said issued)
    (hduty : s'.OnDuty registry frameLimit g asked')
    (hledger : Ledger c.pending c.nextToken asked' (said ++ new) issued)
    (hasked : ∀ a ∈ asked', a ∈ asked)
    (hvacant : ∀ id, ¬Numbered (subscribed issued) id → g.Vacant 0 id)
    (hnew : ∀ r ∈ new, r.FromServer frameLimit ∧ Numbered (subscribed issued) r.subscription)
    (hcourse : ∀ id selection m, Course registry frameLimit h asked id selection m →
      (∀ a ∈ asked, a.type = .unsubscribe → a.subscription ≠ id) →
        ∃ m', m.Takes id defaultRowLimit (c.due id new) m' ∧
          Course registry frameLimit g asked' id selection m') :
    Accord registry frameLimit g s' c asked' (said ++ new) issued := by
  refine ⟨hduty, hledger, ha.nextId, fun id hid => ?_, fun r hr => ?_, fun id sub hsub => ?_,
    ha.clean⟩
  · obtain ⟨-, habsent, hunasked, hunsaid⟩ := ha.unused id hid
    refine ⟨hvacant id hid, habsent, fun a h => hunasked a (hasked a h), fun r hr => ?_⟩
    rcases List.mem_append.mp hr with hr | hr
    · exact hunsaid r hr
    · exact fun heq => hid (heq ▸ (hnew r hr).2)
  · rcases List.mem_append.mp hr with hr | hr
    · exact ha.proper r hr
    · exact (hnew r hr).1
  · obtain ⟨halone, hwanted, ⟨m, m', hm, htakes, hm'⟩, hfailed⟩ := ha.attuned id sub hsub
    obtain ⟨m'', htakes', hm''⟩ := hcourse id sub.selection m' hm' hwanted
    -- what was under way leads to `m'`, and what is new goes on from there
    refine ⟨halone, fun a h => hwanted a (hasked a h), ⟨m, m'', hm, ?_, hm''⟩, hfailed⟩
    rw [Client.due_append]
    exact htakes.append htakes'

/-- A sink speaks for a subscription with a number. -/
theorem numbered_of_not_vacant (ha : Accord registry frameLimit h s c asked said issued) {id : Int32}
    (hid : ¬h.Vacant 0 id) : Numbered (subscribed issued) id :=
  Classical.byContradiction fun hnot => hid (ha.unused id hnot).vacant

theorem numbered_of_subscribed (ha : Accord registry frameLimit h s c asked said issued) {id : Int32}
    {sub : ClientSubscription} (hsub : c.subscriptions.find? id = some sub) :
    Numbered (subscribed issued) id :=
  Classical.byContradiction fun hnot => by cases (ha.unused id hnot).absent.symm.trans hsub

theorem act (ha : Accord registry frameLimit h s c asked said issued) (k : Nat) (x : Act)
    (hfits : ∀ t, (h.deed k (.act x)).tables[k]? = some t →
      t.table.Fits defaultRowLimit frameLimit) :
    Accord registry frameLimit (h.deed k (.act x)) s c asked said issued := by
  have hinputs : h.SameInputs (h.deed k (.act x)) := ⟨(Hub.SameInputs.refl h).input⟩
  have hduty : s.OnDuty registry frameLimit (h.deed k (.act x)) asked :=
    ha.duty.of_steady (ha.duty.stage.act x hfits) (.act h k x)
      fun _ _ _ hv => hv.of_sameInputs hinputs
  rw [← List.append_nil said]
  refine ha.append_said hduty ((List.append_nil said).symm ▸ ha.ledger) (fun _ h => h)
    (fun id hid => (ha.unused id hid).vacant.of_sameInputs hinputs) (fun r hr => by cases hr)
    fun id selection m hm _ => ⟨m, .nil m, hm.act ha.duty.stage k x⟩

theorem fire (ha : Accord registry frameLimit h s c asked said issued) (hlen : issued.length < 2 ^ 64)
    (k : Nat) (hfits : ∀ t, h.tables[k]? = some t → t.table.Fits defaultRowLimit frameLimit) :
    ∃ new, (h.fire k).sentTo 0 = h.sentTo 0 ++ new ∧
      Accord registry frameLimit (h.fire k) s c asked (said ++ new) issued := by
  have hinputs : h.SameInputs (h.fire k) := Hub.Stage.sameInputs_fire h k
  obtain ⟨new, hsent, hnew⟩ := ha.duty.stage.sent (Hub.Stage.sends_fire ha.duty.stage.isOpen k)
  have hduty : s.OnDuty registry frameLimit (h.fire k) asked :=
    ha.duty.of_steady (ha.duty.stage.fire hfits) (.fire h k)
      fun _ _ _ hv => hv.of_sameInputs hinputs
  refine ⟨new, hsent, ha.append_said hduty (ha.ledger.hear fun r hr => (hnew r hr).1) (fun _ h => h)
    (fun id hid => (ha.unused id hid).vacant.of_sameInputs hinputs)
    (fun r hr => ⟨.sink (hnew r hr).1, ha.numbered_of_not_vacant (hnew r hr).2⟩)
    fun id selection m hm _ => ?_⟩
  obtain ⟨m', hleads, hm'⟩ := hm.fire ha.duty.stage k hfits ha.duty.fresh
  refine ⟨m', ?_, hm'⟩
  -- no sink answers a request, so all that it sends is heeded
  rw [Client.due_fromSink (ha.ledger.find?_zero hlen) (fun r hr => (hnew r hr).1)]
  exact hleads.takes_filter hsent

/-- The session answers the next request. -/
theorem handle_next (ha : Accord registry frameLimit h s c (a :: asked) said issued)
    (hlen : issued.length < 2 ^ 64) :
    ∃ new, (s.handle registry h a).2.sentTo 0 = h.sentTo 0 ++ new ∧
      h.Steady (s.handle registry h a).2 ∧
      Accord registry frameLimit (s.handle registry h a).2 (s.handle registry h a).1 c asked
        (said ++ new) issued := by
  have hawaited := ha.ledger.awaited a List.mem_cons_self
  obtain ⟨new, hnew⟩ := ha.duty.handle (ha.ledger.understood a List.mem_cons_self) hawaited
    (ha.ledger.find?_zero hlen)
  obtain ⟨success, text, rs, rfl, hrs⟩ := hnew.reply
  have hnumbered : Numbered (subscribed issued) a.subscription :=
    Classical.byContradiction fun hnot => (ha.unused _ hnot).unasked a List.mem_cons_self rfl
  have hvacant : ∀ id, ¬Numbered (subscribed issued) id →
      (s.handle registry h a).2.Vacant 0 id := fun id hid =>
    hnew.vacant id (fun heq => hid (heq ▸ hnumbered)) (ha.unused id hid).vacant
  have hzero : a.token ≠ 0 := fun heq =>
    ha.ledger.not_issued_zero hlen a.type (heq ▸ ha.ledger.known _ _ hawaited)
  refine ⟨_, hnew.sent, hnew.steady, ha.append_said hnew.duty
    (ha.ledger.append_answer hlen success text fun r hr => (hrs r hr).1)
    (fun b hb => List.mem_cons_of_mem a hb) hvacant (fun r hr => ?_) fun id selection m hm hwanted =>
      hnew.course id selection m hm (hwanted a List.mem_cons_self)⟩
  rcases List.mem_cons.mp hr with rfl | hr
  · exact ⟨.reply _ _ _ hzero, hnumbered⟩
  · exact ⟨.sink (hrs r hr).1,
      Classical.byContradiction fun hnot => (hrs r hr).2 (hvacant _ hnot)⟩

/-! ### Requests -/

/-- No response that is under way answers a request that is only being sent. -/
theorem due_asks (ha : Accord registry frameLimit h s c asked said issued)
    (hlen : issued.length + 1 < 2 ^ 64) (hasks : c.Asks c' a) (id : Int32) :
    c'.due id said = c.due id said := by
  refine Client.due_congr (fun r hr hmessage => ?_) id
  have hother : c.nextToken ≠ r.token := by
    by_cases hzero : r.token = 0
    · rw [hzero]
      exact ha.ledger.next_ne_zero hlen
    · obtain ⟨type, htype⟩ :=
        ha.ledger.answers _ (mem_replyTokens.mpr ⟨r, hr, hmessage, hzero, rfl⟩)
      exact ha.ledger.next_ne hlen (ha.ledger.known _ _ htype)
  rw [hasks.pending, AscMap.find?_insert, if_neg hother]

/-- A subscription that is only being asked for: it has an empty replica, and nothing is due to it. -/
theorem attuned_new {id : Int32} (hunused : Unused h c asked said id) {sub : ClientSubscription}
    (hreplica : sub.replica = { subscription := id }) (htype : a.type = .subscribe)
    (hid : a.subscription = id) (hselection : a.selection = some sub.selection)
    {issued' : List (Int64 × RequestType)} :
    Attuned registry frameLimit h c' (asked ++ [a]) said issued' id sub := by
  have hnone : c'.due id said = [] :=
    List.filter_eq_nil_iff.mpr fun r hr hdue => hunused.unsaid r hr (of_decide_eq_true hdue).1
  refine ⟨by rw [hreplica], fun b hb htype' => ?_, ⟨{}, {}, ?_, ?_, ?_⟩, fun hphase => ?_⟩
  · rcases List.mem_append.mp hb with hb | hb
    · exact hunused.unasked b hb
    · rw [List.mem_singleton.mp hb, htype] at htype'
      cases htype'
  · rw [hreplica]
    exact .fresh _ _
  · rw [hnone]
    exact .nil _
  · exact .asked (List.mem_append_right _ (List.mem_singleton_self a)) htype hid hselection
  · rw [hreplica] at hphase
    cases hphase

/-- A subscription stays attuned when a request is sent, unless it is to end it. -/
theorem attuned_asks (ha : Accord registry frameLimit h s c asked said issued)
    (hlen : issued.length + 1 < 2 ^ 64) (hasks : c.Asks c' a) {id : Int32}
    {sub : ClientSubscription} (hsub : c.subscriptions.find? id = some sub)
    (hkept : a.type = .unsubscribe → a.subscription ≠ id)
    (hother : a.type = .subscribe → a.subscription ≠ id) (x : Int64 × RequestType) :
    Attuned registry frameLimit h c' (asked ++ [a]) said (issued ++ [x]) id sub := by
  obtain ⟨halone, hwanted, ⟨m, m', hm, htakes, hcourse⟩, hfailed⟩ := ha.attuned id sub hsub
  refine ⟨halone, fun b hb => ?_,
    ⟨m, m', hm, (ha.due_asks hlen hasks id).symm ▸ htakes, hcourse.append_request hother⟩,
      fun hphase => ?_⟩
  · rcases List.mem_append.mp hb with hb | hb
    · exact hwanted b hb
    · rw [List.mem_singleton.mp hb]
      exact hkept
  · obtain ⟨msg, hmsg, hto, hfailure, hanswers⟩ := hfailed hphase
    refine ⟨msg, hasks.messages.symm ▸ hmsg, hto, hfailure, hanswers.imp_right ?_⟩
    rintro ⟨type, hne, hissued⟩
    exact ⟨type, hne, List.mem_append_left _ hissued⟩

/-- The client sends a request. A subscription that is not new keeps its replica, unless the request
is to end it. -/
theorem append_request (ha : Accord registry frameLimit h s c asked said issued)
    (hlen : issued.length + 1 < 2 ^ 64) (hasks : c.Asks c' a)
    (hunderstood : ∀ code, a.type ≠ .unknown code)
    (hnextId : c'.nextId = Int32.ofNat (subscribed (issued ++ [(c.nextToken, a.type)]) + 1))
    (hnumbered : Numbered (subscribed (issued ++ [(c.nextToken, a.type)])) a.subscription)
    (hnew : a.type = .subscribe → Unused h c asked said a.subscription)
    (hdistinct : a.type = .subscribe → ∀ selection names, a.selection = some selection →
      selection.projection = some names → names.Nodup)
    (habsent : ∀ id, a.subscription ≠ id → c.subscriptions.find? id = none →
      c'.subscriptions.find? id = none)
    (hsubs : ∀ id sub, c'.subscriptions.find? id = some sub →
      (c.subscriptions.find? id = some sub ∧
        (a.type = .unsubscribe → a.subscription ≠ id)) ∨
      (a.type = .subscribe ∧ a.subscription = id ∧ a.selection = some sub.selection ∧
        sub.replica = { subscription := id })) :
    Accord registry frameLimit h s c' (asked ++ [a]) said
      (issued ++ [(c.nextToken, a.type)]) := by
  refine ⟨ha.duty.append_request (fun htype => (hnew htype).vacant) hdistinct
      (fun b hb htype => (hnew htype).unasked b hb), ?_, hnextId, fun id hid => ?_, ha.proper,
    fun id sub hsub => ?_, ?_⟩
  · rw [hasks.pending, hasks.nextToken]
    exact ha.ledger.send hlen hasks.token hunderstood
  · have hother : a.subscription ≠ id := fun heq => hid (heq ▸ hnumbered)
    obtain ⟨hvacant, hnone, hunasked, hunsaid⟩ :=
      ha.unused id fun h => hid (h.mono (subscribed_le issued _))
    refine ⟨hvacant, habsent id hother hnone, fun b hb => ?_, hunsaid⟩
    rcases List.mem_append.mp hb with hb | hb
    · exact hunasked b hb
    · rw [List.mem_singleton.mp hb]
      exact hother
  · rcases hsubs id sub hsub with ⟨hold, hkept⟩ | ⟨htype, hid, hselection, hreplica⟩
    · refine ha.attuned_asks hlen hasks hold hkept (fun htype => ?_) _
      rintro rfl
      cases (hnew htype).absent.symm.trans hold
    · exact attuned_new (hid ▸ hnew htype) hreplica htype hid hselection
  · rw [hasks.messages]
    exact ha.clean

theorem subscribe (ha : Accord registry frameLimit h s c asked said issued)
    (hlen : issued.length + 1 < 2 ^ 64) (hids : subscribed issued < 0x100000000)
    {selection : Selection}
    (hdistinct : ∀ names, selection.projection = some names → names.Nodup) :
    Accord registry frameLimit h s (c.subscribe selection).1
      (asked ++ [⟨c.nextToken, c.nextId, .subscribe, some selection⟩]) said
      (issued ++ [(c.nextToken, .subscribe)]) := by
  have hcount := subscribed_subscribe issued c.nextToken
  have hnext : c.nextId = Int32.ofNat (subscribed issued + 1) := ha.nextId
  have hsubs : (c.subscribe selection).1.subscriptions =
      c.subscriptions.insert c.nextId ⟨selection, { subscription := c.nextId }⟩ := rfl
  refine ha.append_request hlen (c.asks_subscribe selection) (fun code => nofun) ?_ ?_ (fun _ => ?_)
    (fun _ selection' names hselection hnames => ?_) (fun id hne hnone => ?_) fun id sub hsub => ?_
  · rw [hcount]
    exact (congrArg (· + 1) hnext).trans (Int32.ofNat_add _ _).symm
  · rw [hcount]
    exact ⟨subscribed issued, Nat.lt_succ_self _, hnext.symm⟩
  · exact ha.unused _ (hnext ▸ not_numbered_next hids)
  · cases hselection
    exact hdistinct names hnames
  · rw [hsubs, AscMap.find?_insert, if_neg hne, hnone]
  · rw [hsubs, AscMap.find?_insert] at hsub
    split at hsub
    next hid =>
      cases hsub
      exact .inr ⟨rfl, hid, rfl, by rw [hid]⟩
    next => exact .inl ⟨hsub, fun h => by cases h⟩

theorem modify (ha : Accord registry frameLimit h s c asked said issued)
    (hlen : issued.length + 1 < 2 ^ 64) {id : Int32} {sub : ClientSubscription}
    (hsub : c.subscriptions.find? id = some sub) (selection : Option Selection) :
    Accord registry frameLimit h s (c.send id .modify selection).1
      (asked ++ [⟨c.nextToken, id, .modify, selection⟩]) said
      (issued ++ [(c.nextToken, .modify)]) := by
  have hcount := subscribed_other issued c.nextToken .modify nofun
  refine ha.append_request hlen (c.asks_send id .modify selection) (fun code => nofun) ?_ ?_
    nofun nofun
    (fun id _ hnone => hnone) fun id sub hsub => .inl ⟨hsub, nofun⟩
  · rw [hcount]
    exact ha.nextId
  · rw [hcount]
    exact ha.numbered_of_subscribed hsub

theorem unsubscribe (ha : Accord registry frameLimit h s c asked said issued)
    (hlen : issued.length + 1 < 2 ^ 64) {id : Int32} {sub : ClientSubscription}
    (hsub : c.subscriptions.find? id = some sub)
    (hasks : c.Asks c' ⟨c.nextToken, id, .unsubscribe, none⟩) (hnextId : c'.nextId = c.nextId)
    (hsubs : c'.subscriptions = c.subscriptions.erase id) :
    Accord registry frameLimit h s c' (asked ++ [⟨c.nextToken, id, .unsubscribe, none⟩]) said
      (issued ++ [(c.nextToken, .unsubscribe)]) := by
  have hcount := subscribed_other issued c.nextToken .unsubscribe nofun
  refine ha.append_request hlen hasks (fun code => nofun) ?_ ?_ nofun nofun (fun id' _ hnone => ?_)
    fun id' sub' hsub' => ?_
  · rw [hcount, hnextId]
    exact ha.nextId
  · rw [hcount]
    exact ha.numbered_of_subscribed hsub
  · rw [hsubs, AscMap.find?_erase, hnone, ite_self]
  · rw [hsubs, AscMap.find?_erase] at hsub'
    split at hsub'
    · cases hsub'
    next hne => exact .inl ⟨hsub', fun _ => hne⟩

/-! ### Responses -/

/-- A message that is heeded answers no request, or another one than to modify. -/
theorem answers_other (ha : Accord registry frameLimit h s c asked (r :: said) issued)
    (hheeds : c.Heeds r) (hmessage : r.type = .message) :
    r.token = 0 ∨ ∃ type ≠ .modify, (r.token, type) ∈ issued := by
  by_cases hzero : r.token = 0
  · exact .inl hzero
  · obtain ⟨type, htype⟩ := ha.ledger.answers _
      (mem_replyTokens.mpr ⟨r, List.mem_cons_self, hmessage, hzero, rfl⟩)
    refine .inr ⟨type, ?_, ha.ledger.known _ _ htype⟩
    rintro rfl
    exact (hheeds hmessage).1 htype

/-- Noting the answer to a request leaves the other responses that are due as they are. -/
theorem due_noted (ha : Accord registry frameLimit h s c asked (r :: said) issued)
    (hlen : issued.length < 2 ^ 64) (hnoted : Client.Noted c c' r) (id : Int32) :
    c'.due id said = c.due id said := by
  refine Client.due_congr (fun r' hr' hmessage' => ?_) id
  rw [hnoted.pending]
  split
  next hmessage =>
    rw [AscMap.find?_erase]
    split
    next heq =>
      by_cases hzero : r'.token = 0
      · rw [hzero, ha.ledger.find?_zero hlen]
      · exact absurd heq (ha.ledger.ne_token hlen hmessage (List.mem_append_left _
          (mem_replyTokens.mpr ⟨r', hr', hmessage', hzero, rfl⟩)))
    next => rfl
  next => rfl

/-- A replica accepts what is due to it. -/
theorem accept_ok (ha : Accord registry frameLimit h s c asked (r :: said) issued)
    (hheeds : c.Heeds r) {sub : ClientSubscription}
    (hsub : c.subscriptions.find? r.subscription = some sub) :
    (sub.replica.accept r).2.2 = .ok () := by
  obtain ⟨-, -, ⟨m, m', hm, htakes, -⟩, -⟩ := ha.attuned _ sub hsub
  rw [Client.due_cons_pos rfl hheeds] at htakes
  cases htakes with
  | cons haccepted hrest =>
      exact Verdict.ok_of_accepted ((hm.accept (by decide) r).2.trans haccepted)

/-- A subscription stays attuned when a response is handled. If it fails with it, this is recorded. -/
theorem attuned_handled (ha : Accord registry frameLimit h s c asked (r :: said) issued)
    (hlen : issued.length < 2 ^ 64) (hhandled : Client.Handled c c' r) {id : Int32}
    {sub' : ClientSubscription} (hsub' : c'.subscriptions.find? id = some sub') :
    Attuned registry frameLimit h c' asked said issued id sub' := by
  obtain ⟨sub, hsub⟩ : ∃ sub, c.subscriptions.find? id = some sub := by
    rcases hnone : c.subscriptions.find? id with _ | sub
    · cases (hhandled.absent id hnone).symm.trans hsub'
    · exact ⟨sub, rfl⟩
  obtain ⟨halone, hwanted, ⟨m, m', hm, htakes, hcourse⟩, hfailed⟩ := ha.attuned id sub hsub
  obtain ⟨_, hsub'', hselection, hinputs, hm'⟩ := hhandled.there id sub m hsub hm
  cases hsub'.symm.trans hsub''
  refine ⟨hinputs.trans halone, hwanted, ⟨_, m', hm', ?_, hselection ▸ hcourse⟩, fun hphase => ?_⟩
  · rw [ha.due_noted hlen hhandled.toNoted]
    split
    next hdue =>
      rw [Client.due_cons_pos hdue.1 hdue.2] at htakes
      cases htakes with
      | cons haccepted hrest => exact hrest
    next hdue =>
      rw [Client.due_cons_neg hdue] at htakes
      exact htakes
  · rw [hhandled.messages]
    by_cases hbefore : sub.replica.phase = .failed
    · obtain ⟨msg, hmsg, hrest⟩ := hfailed hbefore
      exact ⟨msg, List.mem_append_left _ hmsg, hrest⟩
    · -- the response was the failure
      rw [hm'.phase] at hphase
      split at hphase
      next hdue =>
        rw [Client.due_cons_pos hdue.1 hdue.2] at htakes
        cases htakes with
        | cons haccepted hrest =>
            obtain ⟨hmessage, hfailure⟩ :=
              Mirror.failed_of_accepted haccepted (hm.phase ▸ hbefore) hphase
            exact ⟨_, List.mem_append_right _ (Client.mem_reported hmessage), hdue.1, hfailure,
              ha.answers_other hdue.2 hmessage⟩
      next => exact absurd (hm.phase.trans hphase) hbefore

/-- The client handles the next response, and nobody else is told of it. -/
theorem dispatch (ha : Accord registry frameLimit h s c asked (r :: said) issued)
    (hlen : issued.length < 2 ^ 64) :
    Accord registry frameLimit h s (c.dispatch r).1 asked said issued ∧
      Client.Noted c (c.dispatch r).1 r ∧
      ∀ told, (c.dispatch r).2 = some told →
        ∃ sub, (c.dispatch r).1.subscriptions.find? told.subscription = some sub ∧
          sub.replica.publisher.inputs = [] := by
  obtain ⟨hhandled, htold⟩ := Client.handled_dispatch fun hheeds _ hsub => ha.accept_ok hheeds hsub
  refine ⟨⟨ha.duty, ?_, hhandled.nextId.trans ha.nextId, fun id hid => ?_,
    fun r' hr' => ha.proper r' (List.mem_cons_of_mem r hr'),
    fun id sub hsub => ha.attuned_handled hlen hhandled hsub, fun msg hmsg => ?_⟩,
    hhandled.toNoted, fun told h => ?_⟩
  · rw [hhandled.pending, hhandled.nextToken]
    exact ha.ledger.dispatch hlen
  · obtain ⟨hvacant, habsent, hunasked, hunsaid⟩ := ha.unused id hid
    exact ⟨hvacant, hhandled.absent id habsent, hunasked,
      fun r' hr' => hunsaid r' (List.mem_cons_of_mem r hr')⟩
  · rw [hhandled.messages, List.mem_append] at hmsg
    rcases hmsg with hmsg | hmsg
    · exact ha.clean msg hmsg
    · exact (ha.proper r List.mem_cons_self).not_violation_of_reported msg hmsg
  · obtain ⟨sub, hsub⟩ := Option.isSome_iff_exists.mp (htold told h)
    exact ⟨sub, hsub, (ha.attuned_handled hlen hhandled hsub).alone⟩

end Accord

end TableFeed
