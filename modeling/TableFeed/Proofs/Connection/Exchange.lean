import Mathlib
import TableFeed.Proofs.Hub.AttachedSink
import TableFeed.Server

/-!
A client and a server with the bytes between them. The tables change, the client asks for things,
bytes are carried in pieces of any length and either end polls, in any order. A piece for which a
queue has no room is not moved yet.
-/

namespace TableFeed

open Wire

/-- The two ends of one connection. The client is the first one of the hub, the connection has number
1 and its responses go to the first outlet. -/
structure Exchange where
  hub : Hub
  server : Server
  gate : Gate
  /-- Request bytes on their way to the gate. -/
  up : Bytes := []
  /-- Response bytes on their way to the client. -/
  down : Bytes := []
  /-- The tokens of the requests so far, and what was asked for. -/
  issued : List (Int64 × RequestType) := []

namespace Exchange

def start (tables : List AnyTable) (registry : Registry) (config : ServerConfig)
    (inboxCapacity limit : Nat) : Exchange :=
  { hub := { tables := tables, clients := [.create inboxCapacity limit], outlets := [{}] }
    server := { config := config, registry := registry }
    gate := ((Gate.create config).connect 0).1 }

inductive Step
  | act (table : Nat) (a : Act)
  | fire (table : Nat)
  | subscribe (selection : Selection)
  | modify (id : Int32) (m : Modification)
  | unsubscribe (id : Int32)
  /-- Has the server decide in another way about the modifications of an output. -/
  | judge (name : String) (handler : ModificationHandler)
  /-- Moves up to `n` bytes of the requests to the gate, as one piece. -/
  | carryUp (n : Nat)
  | serve
  /-- Moves up to `n` bytes of the responses to the client, as one piece. -/
  | carryDown (n : Nat)
  | poll

def client? (w : Exchange) : Option Client := w.hub.clients[0]?

def ask (w : Exchange) (c : Client) (token : Int64) (type : RequestType) : Exchange :=
  { w with hub := w.hub.setClient 0 c, issued := w.issued ++ [(token, type)] }

def carryUp (w : Exchange) (n : Nat) (c : Client) : Exchange :=
  let (c, frames) := c.takeOutgoing
  let up := w.up ++ frames.flatten
  let w := { w with hub := w.hub.setClient 0 c, up := up }
  match w.gate.submit (.receive 1 (up.take n)) with
  | .error _ => w
  | .ok gate => { w with gate := gate, up := up.drop n }

def carryDown (w : Exchange) (n : Nat) (c : Client) : Exchange :=
  let (hub, responses) := w.hub.takeSent 0
  let down := w.down ++ responses.flatMap encodeResponse
  let w := { w with hub := hub, down := down }
  match c.queue (down.take n) with
  | .error _ => w
  | .ok c => { w with hub := hub.setClient 0 c, down := down.drop n }

def step (w : Exchange) : Step → Exchange
  | .act k a => { w with hub := w.hub.deed k (.act a) }
  | .fire k => { w with hub := w.hub.fire k }
  | .subscribe selection =>
    match w.client? with
    | none => w
    | some c => w.ask (c.subscribe selection).1 c.nextToken .subscribe
  | .modify id m =>
    match w.client? with
    | none => w
    | some c =>
      match c.modify id m with
      | .error _ => w
      | .ok (c, token) => w.ask c token .modify
  | .unsubscribe id =>
    match w.hub.unsubscribe 0 id with
    | (hub, .ok token) => { w with hub := hub, issued := w.issued ++ [(token, .unsubscribe)] }
    | (_, .error _) => w
  | .judge name handler =>
    { w with server := { w.server with registry := w.server.registry.handleWith name handler } }
  | .carryUp n =>
    match w.client? with
    | none => w
    | some c => w.carryUp n c
  | .serve =>
    let (server, gate, hub, _) := w.server.poll w.gate w.hub
    { w with server := server, gate := gate, hub := hub }
  | .carryDown n =>
    match w.client? with
    | none => w
    | some c => w.carryDown n c
  | .poll => { w with hub := (w.hub.pollClient 0).1 }

def run (w : Exchange) (steps : List Step) : Exchange := steps.foldl step w

/-- What is asked of the two ends all along: row ids, numbers of fields and lengths of frames within
bounds, distinct fields in every subscription, and counters that have not come round. -/
structure Admits (w : Exchange) : Prop where
  tables : ∀ t ∈ w.hub.tables, t.table.Fits defaultRowLimit w.server.config.frameLimit
  selections : ∀ c ∈ w.client?, ∀ sub ∈ c.subscriptions.values,
    ∀ names ∈ sub.selection.projection, names.Nodup
  requests : ∀ c ∈ w.client?, ∀ frame ∈ c.outgoing,
    frame.length - 4 < 0x100000000 ∧ frame.length - 4 ≤ w.server.config.frameLimit
  responses : ∀ c ∈ w.client?, ∀ r ∈ w.hub.sentTo 0,
    if r.type = .schema ∨ r.type = .message then
      responseLength r < 0x100000000 ∧ responseLength r ≤ c.limit
    else w.server.config.frameLimit < 0x100000000 ∨ responseLength r < 0x100000000
  tokens : w.issued.length < 0x10000000000000000
  ids : w.issued.countP (·.2 = .subscribe) ≤ 0x100000000

def AdmitsRun : Exchange → List Step → Prop
  | w, [] => w.Admits
  | w, s :: steps => w.Admits ∧ (w.step s).AdmitsRun steps

instance (w : Exchange) : Decidable w.Admits :=
  decidable_of_iff
    ((∀ t ∈ w.hub.tables, t.table.Fits defaultRowLimit w.server.config.frameLimit) ∧
      (∀ c ∈ w.client?,
        (∀ sub ∈ c.subscriptions.values, ∀ names ∈ sub.selection.projection, names.Nodup) ∧
        (∀ frame ∈ c.outgoing,
          frame.length - 4 < 0x100000000 ∧ frame.length - 4 ≤ w.server.config.frameLimit) ∧
        (∀ r ∈ w.hub.sentTo 0,
          if r.type = .schema ∨ r.type = .message then
            responseLength r < 0x100000000 ∧ responseLength r ≤ c.limit
          else w.server.config.frameLimit < 0x100000000 ∨ responseLength r < 0x100000000)) ∧
      w.issued.length < 0x10000000000000000 ∧
      w.issued.countP (·.2 = .subscribe) ≤ 0x100000000)
    ⟨fun ⟨htables, hclient, htokens, hids⟩ => ⟨htables, fun c hc => (hclient c hc).1,
        fun c hc => (hclient c hc).2.1, fun c hc => (hclient c hc).2.2, htokens, hids⟩,
      fun h => ⟨h.tables, fun c hc => ⟨h.selections c hc, h.requests c hc, h.responses c hc⟩,
        h.tokens, h.ids⟩⟩

instance decidableAdmitsRun : ∀ (w : Exchange) (steps : List Step), Decidable (w.AdmitsRun steps)
  | w, [] => inferInstanceAs (Decidable w.Admits)
  | w, s :: steps =>
    have := decidableAdmitsRun (w.step s) steps
    inferInstanceAs (Decidable (w.Admits ∧ (w.step s).AdmitsRun steps))

structure Quiet (w : Exchange) : Prop where
  up : w.up = []
  down : w.down = []
  gate : ∀ id piece, .receive id piece ∈ w.gate.inbox.items → piece = []
  sent : w.hub.sentTo 0 = []
  client : ∀ c, w.client? = some c → c.outgoing = [] ∧ ∀ piece ∈ c.inbox.items, piece = []

end Exchange

def ClientMessage.IsViolation (m : ClientMessage) : Prop :=
  m.token = 0 ∧ m.success = false ∧
    ∃ id fault, m.text = (Error.protocolViolation id fault).message

/-- A replica that shows what a table shows: the same rows, and of each the fields asked for, but for
cells whose changes wait for the next pass of the table. When nothing waits, it shows the table as
it is. -/
structure Replica.Mirrors (r : Replica) (t : Table) (selection : Selection) : Prop where
  rows : r.liveRows = t.publisher.rows.toList
  cells : ∀ row ∈ t.publisher.rows, row ∉ t.batch.removed → ∀ name,
    (∀ names, selection.projection = some names → name ∈ names) →
    (∀ id, t.shown.schema.fieldId? name = some id → ¬t.batch.Changes row id) →
    r.get row name = t.shown.look row name
  current : t.batch = {} → t.publisher.replaced = false →
    r.liveRows = t.rows.liveRows ∧ ∀ row ∈ t.rows.live, ∀ name,
      (∀ names, selection.projection = some names → name ∈ names) →
      r.get row name = t.get row (.name name)

end TableFeed
