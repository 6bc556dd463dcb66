import TableFeed.Client
import TableFeed.KeyedTable
import TableFeed.Recorder
import TableFeed.Sink

/-!
The outputs and inputs of one process. Tables and replicas publish here, and recorders and sinks
listen; what an output tells goes to the inputs attached to it, one after the other in the order of
attachment, and each answers before the next is told. A sink reads the cells of the schema it
adopted as they are when it answers, and its responses go to its outlet.
-/

namespace TableFeed

/-- An output: a table, a replica of its own, or the replica of a client's subscription. -/
inductive OutputId
  | table (id : Nat)
  | replica (id : Nat)
  | subscription (client : Nat) (id : Int32)
  deriving DecidableEq

/-- Where the cells of an adopted schema are found. -/
inductive Origin
  | nowhere
  | output (id : OutputId)
  | given (sheet : Sheet)

abbrev OutletId := Nat

/-- Where responses go. Nothing goes to an outlet that is closed. -/
structure Outlet where
  sent : List Response := []
  closed : Bool := false

/-- A sink among the inputs of a process. -/
structure SinkInput where
  sink : Sink
  outlet : OutletId
  /-- The output that it was attached to last, unless it was detached since. -/
  source : Option OutputId := none
  reads : Origin := .nowhere

inductive Input
  | recorder (r : Recorder)
  | sink (s : SinkInput)

inductive AnyTable
  | plain (t : Table)
  | keyed (t : KeyedTable)

namespace AnyTable

def table : AnyTable → Table
  | plain t => t
  | keyed t => t.table

def mapTable (f : Table → Table) : AnyTable → AnyTable
  | plain t => plain (f t)
  | keyed t => keyed { t with table := f t.table }

end AnyTable

/-- What an output shows, and the cells behind it as they are now. -/
structure Display where
  publisher : Publisher
  sheet : Option Sheet

def Table.display (t : Table) : Display := ⟨t.publisher, some t.shown⟩

def Replica.display (r : Replica) : Display := ⟨r.publisher, r.sheet⟩

/-- Ids are positions in these lists; nothing is ever taken out of them. -/
structure Hub where
  tables : List AnyTable := []
  replicas : List Replica := []
  clients : List Client := []
  /-- The replicas of subscriptions that have ended. Inputs may still be attached to them. -/
  ended : List (OutputId × Replica) := []
  inputs : List Input := []
  outlets : List Outlet := []

namespace Hub

instance : Inhabited Hub := ⟨{}⟩

def addTable (h : Hub) (t : AnyTable) : Hub × Nat :=
  ({ h with tables := h.tables ++ [t] }, h.tables.length)

def addReplica (h : Hub) (r : Replica) : Hub × Nat :=
  ({ h with replicas := h.replicas ++ [r] }, h.replicas.length)

def addClient (h : Hub) (c : Client) : Hub × Nat :=
  ({ h with clients := h.clients ++ [c] }, h.clients.length)

def addInput (h : Hub) (i : Input) : Hub × InputId :=
  ({ h with inputs := h.inputs ++ [i] }, h.inputs.length)

def addOutlet (h : Hub) : Hub × OutletId :=
  ({ h with outlets := h.outlets ++ [{}] }, h.outlets.length)

/-- Closes an outlet. What was sent to it and not taken is lost. -/
def closeOutlet (h : Hub) (o : OutletId) : Hub :=
  { h with outlets := h.outlets.modify o fun _ => { closed := true } }

/-- Takes what was sent to an outlet since the last time. -/
def takeSent (h : Hub) (o : OutletId) : Hub × List Response :=
  ({ h with outlets := h.outlets.modify o fun out => { out with sent := [] } },
    (h.outlets[o]?.map (·.sent)).getD [])

/-- Sends a response to an outlet. -/
def emit (h : Hub) (o : OutletId) (r : Response) : Hub :=
  { h with outlets := h.outlets.modify o fun out =>
      if out.closed then out else { out with sent := out.sent ++ [r] } }

def setTable (h : Hub) (id : Nat) (t : AnyTable) : Hub := { h with tables := h.tables.set id t }

def setReplica (h : Hub) (id : Nat) (r : Replica) : Hub :=
  { h with replicas := h.replicas.set id r }

def setClient (h : Hub) (id : Nat) (c : Client) : Hub := { h with clients := h.clients.set id c }

def setInput (h : Hub) (id : InputId) (i : Input) : Hub := { h with inputs := h.inputs.set id i }

def display? (h : Hub) : OutputId → Option Display
  | .table i => h.tables[i]?.map fun t => t.table.display
  | .replica i => h.replicas[i]?.map Replica.display
  | .subscription c id =>
    match h.clients[c]?.bind fun client => client.replica? id with
    | some r => some r.display
    | none => (AscMap.lookIn (.subscription c id) h.ended).map Replica.display

/-- Changes the publisher of an output. -/
def mapPublisher (h : Hub) (f : Publisher → Publisher) : OutputId → Hub
  | .table i =>
    { h with tables := h.tables.modify i (·.mapTable fun t =>
        { t with publisher := f t.publisher }) }
  | .replica i =>
    { h with replicas := h.replicas.modify i fun r => { r with publisher := f r.publisher } }
  | .subscription c id =>
    match h.clients[c]?.bind fun client => client.replica? id with
    | some r =>
      { h with clients := h.clients.modify c fun client =>
          client.setReplica id { r with publisher := f r.publisher } }
    | none =>
      { h with ended := h.ended.map fun e =>
          if e.1 = .subscription c id then (e.1, { e.2 with publisher := f e.2.publisher })
          else e }

/-- The cells found at an origin. -/
def cells (h : Hub) : Origin → Sheet
  | .nowhere => default
  | .output o => ((h.display? o).bind (·.sheet)).getD default
  | .given sheet => sheet

/-- How many rows an output shows. -/
def rowCount (h : Hub) (o : Option OutputId) : Nat :=
  ((o.bind h.display?).map fun d => d.publisher.rows.size).getD 0

/-- What a sink keeps of where it is attached and whose schema it adopted, after a notice that
comes from `origin`. -/
def SinkInput.follow (s : SinkInput) (origin : Origin) : Notice → SinkInput
  | .source attached =>
    { s with source := match attached, origin with
        | true, .output o => some o
        | _, _ => none }
  | .schema (some _) => { s with reads := origin }
  | .schema none => { s with reads := .nowhere }
  | _ => s

/-- Tells one input one thing. -/
def tell (h : Hub) (origin : Origin) (i : InputId) (n : Notice) : Hub :=
  match h.inputs[i]? with
  | none => h
  | some (.recorder r) => h.setInput i (.recorder (r.hear n))
  | some (.sink s) =>
    let s := SinkInput.follow s origin n
    let (sink, responses) := s.sink.hear (h.rowCount s.source) (h.cells s.reads) n
    responses.foldl (fun h r => h.emit s.outlet r) (h.setInput i (.sink { s with sink := sink }))

def tellAll (h : Hub) (origin : Origin) (i : InputId) (ns : List Notice) : Hub :=
  ns.foldl (fun h n => h.tell origin i n) h

/-- The inputs attached to an output. -/
def attached (h : Hub) (o : OutputId) : List InputId :=
  ((h.display? o).map fun d => d.publisher.inputs).getD []

/-- Tells every input of an output what a pass tells. -/
def broadcast (h : Hub) (o : OutputId) (ns : List Notice) : Hub :=
  (h.attached o).foldl (fun h i => h.tellAll (.output o) i ns) h

/-- Attaches an input to an output and tells it what is shown. -/
def attach (h : Hub) (o : OutputId) (i : InputId) : Hub :=
  match h.display? o with
  | none => h
  | some d =>
    if d.publisher.isAttached i then h
    else (h.mapPublisher (·.attach i) o).tellAll (.output o) i d.publisher.replay

/-- Detaches an input from an output and tells it so. Gives whether it was attached. -/
def detach (h : Hub) (o : OutputId) (i : InputId) : Hub × Bool :=
  if (h.attached o).contains i then
    ((h.mapPublisher (·.detach i) o).tellAll (.output o) i Publisher.farewell, true)
  else (h, false)

/-- Fires a table: its inputs are told the batch, then the removed rows are cleared. -/
def fire (h : Hub) (id : Nat) : Hub :=
  match h.tables[id]? with
  | none => h
  | some t =>
    let (_, notices) := t.table.publish
    let h := h.setTable id (t.mapTable fun t => t.publish.1)
    let h := h.broadcast (.table id) notices
    { h with tables := h.tables.modify id (·.mapTable Table.settle) }

/-- Has a replica accept a response. -/
def accept (h : Hub) (id : Nat) (response : Response) : Hub × Except Error Unit :=
  match h.replicas[id]? with
  | none => (h, .ok ())
  | some r =>
    let (r, notices, result) := r.accept response
    ((h.setReplica id r).broadcast (.replica id) notices, result)

def resetReplica (h : Hub) (id : Nat) : Hub :=
  match h.replicas[id]? with
  | none => h
  | some r =>
    let (r, notices) := r.reset
    (h.setReplica id r).broadcast (.replica id) notices

def tellReplica (h : Hub) (client : Nat) (told : ReplicaNotices) : Hub :=
  h.broadcast (.subscription client told.subscription) told.notices

/-- Ends a client's subscription. What is attached to its replica stays attached. -/
def unsubscribe (h : Hub) (client : Nat) (id : Int32) : Hub × Except Error Int64 :=
  match h.clients[client]? with
  | none => (h, .error (.unknownSubscription id))
  | some c =>
    match c.unsubscribe id with
    | .error e => (h, .error e)
    | .ok (c', token) =>
      let last := (c.replica? id).toList.map fun r => (OutputId.subscription client id, r)
      ({ h.setClient client c' with ended := last ++ h.ended }, .ok token)

/-- Has a client subscribe to everything again. Gives the number of its subscriptions. -/
def resubscribe (h : Hub) (client : Nat) : Hub × Nat :=
  match h.clients[client]? with
  | none => (h, 0)
  | some c =>
    let (c', told) := c.resubscribeAll
    (told.foldl (fun h t => h.tellReplica client t) (h.setClient client c'), told.length)

/-- Has a client handle one frame. -/
def handleFrame (h : Hub) (client : Nat) (result : Except Error Frame) : Hub :=
  match h.clients[client]? with
  | none => h
  | some c =>
    let (c, told) := c.handle result
    let h := h.setClient client c
    match told with
    | none => h
    | some t => h.tellReplica client t

/-- Has a client apply bytes of the server's stream. Gives the number of responses handled. -/
def receive (h : Hub) (client : Nat) (bytes : Bytes) : Hub × Except Error Nat :=
  match h.clients[client]? with
  | none => (h, .ok 0)
  | some c =>
    let (c, results) := c.takeIn bytes
    (results.foldl (fun h result => h.handleFrame client result) (h.setClient client c),
      Client.outcome results)

/-- Has a client apply up to `pieces` queued pieces of the server's stream. -/
def pollPieces (h : Hub) (client : Nat) : (pieces handled : Nat) → Hub × Except Error Nat
  | 0, handled => (h, .ok handled)
  | pieces + 1, handled =>
    match h.clients[client]?.bind Client.nextPiece with
    | none => (h, .ok handled)
    | some (piece, c) =>
      match (h.setClient client c).receive client piece with
      | (h, .error e) => (h, .error e)
      | (h, .ok n) => h.pollPieces client pieces (handled + n)

/-- Has a client apply everything queued. Gives the number of responses handled. -/
def pollClient (h : Hub) (client : Nat) : Hub × Except Error Nat :=
  h.pollPieces client ((h.clients[client]?.map fun c => c.inbox.items.length).getD 0) 0

end Hub

end TableFeed
