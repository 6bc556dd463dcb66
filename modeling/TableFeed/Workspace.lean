import TableFeed.Link

/-!
The objects of one process under names, for scripts that create them and make them work together.
A name given again stands for the new object; what is attached or registered of the old one stays.
-/

namespace TableFeed

open Wire

abbrev Names (α : Type) := List (String × α)

namespace Names

variable {α : Type}

def get? (ns : Names α) (name : String) : Option α := AscMap.lookIn name ns

def set (ns : Names α) (name : String) (a : α) : Names α :=
  (name, a) :: ns.filter fun e => e.1 != name

end Names

/-- An output by the name of its owner. -/
inductive OutputName
  | table (name : String)
  | replica (name : String)
  | subscription (client : String) (id : Int32)

structure NamedSink where
  input : InputId
  outlet : OutletId

structure NamedConnection where
  id : UInt64
  outlet : OutletId

structure Workspace where
  hub : Hub := {}
  registry : Registry := {}
  server : Option Server := none
  gate : Gate := default
  tables : Names Nat := []
  recorders : Names InputId := []
  sinks : Names NamedSink := []
  replicas : Names Nat := []
  sessions : Names Session := []
  clients : Names Nat := []
  connections : Names NamedConnection := []
  holds : Names (Nat × Replica.Hold) := []
  /-- What sinks and sessions sent and no replica was fed yet, by outlet. -/
  unfed : AscMap OutletId (List Response) := ∅

namespace Workspace

instance : Inhabited Workspace := ⟨{}⟩

/-! Tables -/

def addTable (w : Workspace) (name : String) (t : AnyTable) : Workspace :=
  let (hub, id) := w.hub.addTable t
  { w with hub := hub, tables := w.tables.set name id }

def table? (w : Workspace) (name : String) : Option AnyTable :=
  (w.tables.get? name).bind fun id => w.hub.tables[id]?

/-- Runs an operation of a table without a key. -/
def onPlain {α : Type} (w : Workspace) (name : String) (f : Table → Table × α) :
    Workspace × Option α :=
  match w.tables.get? name with
  | none => (w, none)
  | some id =>
    match w.hub.tables[id]? with
    | some (.plain t) =>
      let (t, a) := f t
      ({ w with hub := w.hub.setTable id (.plain t) }, some a)
    | _ => (w, none)

/-- Runs an operation of a table with a key. -/
def onKeyed {α : Type} (w : Workspace) (name : String) (f : KeyedTable → KeyedTable × α) :
    Workspace × Option α :=
  match w.tables.get? name with
  | none => (w, none)
  | some id =>
    match w.hub.tables[id]? with
    | some (.keyed t) =>
      let (t, a) := f t
      ({ w with hub := w.hub.setTable id (.keyed t) }, some a)
    | _ => (w, none)

def fire (w : Workspace) (name : String) : Workspace :=
  match w.tables.get? name with
  | some id => { w with hub := w.hub.fire id }
  | none => w

/-! Outputs and inputs -/

def client? (w : Workspace) (name : String) : Option Client :=
  (w.clients.get? name).bind fun id => w.hub.clients[id]?

/-- The output of that name. That of a subscription lasts as long as the subscription. -/
def output? (w : Workspace) : OutputName → Option OutputId
  | .table name => (w.tables.get? name).map .table
  | .replica name => (w.replicas.get? name).map .replica
  | .subscription client id => do
    let _ ← (← w.client? client).replica? id
    return .subscription (← w.clients.get? client) id

def display? (w : Workspace) (o : OutputName) : Option Display := (w.output? o).bind w.hub.display?

def addRecorder (w : Workspace) (name : String) : Workspace :=
  let (hub, id) := w.hub.addInput (.recorder {})
  { w with hub := hub, recorders := w.recorders.set name id }

/-- Adds a sink with an outlet of its own. -/
def addSink (w : Workspace) (name : String) (sink : Sink) : Workspace :=
  let (hub, outlet) := w.hub.addOutlet
  let (hub, id) := hub.addInput (.sink { sink := sink, outlet := outlet })
  { w with hub := hub, sinks := w.sinks.set name ⟨id, outlet⟩ }

def recorder? (w : Workspace) (name : String) : Option Recorder := do
  match ← w.hub.inputs[← w.recorders.get? name]? with
  | .recorder r => some r
  | .sink _ => none

def sink? (w : Workspace) (name : String) : Option SinkInput := do
  match ← w.hub.inputs[(← w.sinks.get? name).input]? with
  | .sink s => some s
  | .recorder _ => none

def input? (w : Workspace) (name : String) : Option InputId :=
  w.recorders.get? name <|> (w.sinks.get? name).map (·.input)

def attach (w : Workspace) (o : OutputName) (input : String) : Workspace :=
  match w.output? o, w.input? input with
  | some o, some i => { w with hub := w.hub.attach o i }
  | _, _ => w

def detach (w : Workspace) (o : OutputName) (input : String) : Workspace × Bool :=
  match w.output? o, w.input? input with
  | some o, some i =>
    let (hub, gone) := w.hub.detach o i
    ({ w with hub := hub }, gone)
  | _, _ => (w, false)

/-- Tells an input something that no output tells it. -/
def tell (w : Workspace) (input : String) (origin : Origin) (n : Notice) : Workspace :=
  match w.input? input with
  | some i => { w with hub := w.hub.tell origin i n }
  | none => w

/-! Replicas -/

def addReplica (w : Workspace) (name : String) (r : Replica) : Workspace :=
  let (hub, id) := w.hub.addReplica r
  { w with hub := hub, replicas := w.replicas.set name id }

def replica? (w : Workspace) (name : String) : Option Replica :=
  (w.replicas.get? name).bind fun id => w.hub.replicas[id]?

/-- Has a replica accept responses. Gives the result of each. -/
def accept (w : Workspace) (name : String) (responses : List Response) :
    Workspace × List (Except Error Unit) :=
  match w.replicas.get? name with
  | none => (w, [])
  | some id =>
    responses.foldl (fun (w, results) response =>
      let (hub, result) := w.hub.accept id response
      ({ w with hub := hub }, results ++ [result])) (w, [])

/-- Has a replica accept what a sink or a session has sent and no replica was fed yet. -/
def feed (w : Workspace) (source name : String) : Workspace × List (Except Error Unit) :=
  match (w.sinks.get? source).map (·.outlet) <|> (w.sessions.get? source).map (·.outlet) with
  | none => (w, [])
  | some outlet =>
    { w with unfed := w.unfed.erase outlet }.accept name ((w.unfed.find? outlet).getD [])

def resetReplica (w : Workspace) (name : String) : Workspace :=
  match w.replicas.get? name with
  | some id => { w with hub := w.hub.resetReplica id }
  | none => w

/-- Takes hold of a replica's sheet. -/
def hold (w : Workspace) (replica name : String) : Workspace :=
  match w.replicas.get? replica, (w.replica? replica).bind Replica.hold? with
  | some id, some hold => { w with holds := w.holds.set name (id, hold) }
  | _, _ => w

def held? (w : Workspace) (name : String) : Option Sheet := do
  let (id, hold) ← w.holds.get? name
  return (← w.hub.replicas[id]?).held hold

/-! Registries and sessions -/

/-- The server's registry or the one of the sessions without a server. -/
def registryOf (w : Workspace) (ofServer : Bool) : Registry :=
  if ofServer then (w.server.map (·.registry)).getD {} else w.registry

def mapRegistry (w : Workspace) (ofServer : Bool) (f : Registry → Registry) : Workspace :=
  if ofServer then { w with server := w.server.map fun s => { s with registry := f s.registry } }
  else { w with registry := f w.registry }

def register (w : Workspace) (ofServer : Bool) (name : String) (o : OutputName) : Workspace :=
  match w.output? o with
  | some o => w.mapRegistry ofServer (·.register name o)
  | none => w

/-- Adds a session with an outlet of its own. -/
def addSession (w : Workspace) (name : String) (connection : UInt64) (limit : Nat) : Workspace :=
  let (hub, outlet) := w.hub.addOutlet
  { w with
    hub := hub
    sessions := w.sessions.set name { connection := connection, outlet := outlet, limit := limit } }

/-- Runs an operation of a session. Gives the session after it. -/
def onSession (w : Workspace) (name : String) (f : Session → Hub → Session × Hub) :
    Workspace × Option Session :=
  match w.sessions.get? name with
  | none => (w, none)
  | some s =>
    let (s, hub) := f s w.hub
    ({ w with hub := hub, sessions := w.sessions.set name s }, some s)

def request (w : Workspace) (session : String) (r : Request) : Workspace × Option Session :=
  w.onSession session fun s h => s.handle w.registry h r

def closeSession (w : Workspace) (session : String) : Workspace × Option Session :=
  w.onSession session Session.close

/-! The server and its connections -/

def startServer (w : Workspace) (config : ServerConfig) : Workspace :=
  { w with server := some { config := config }, gate := .create config }

def dropServer (w : Workspace) : Workspace := { w with server := none, gate := w.gate.shut }

/-- Runs an operation of the server. -/
def onServer {α : Type} (w : Workspace) (f : Server → Hub → Server × Hub × α) :
    Workspace × Option α :=
  match w.server with
  | none => (w, none)
  | some s =>
    let (s, hub, a) := f s w.hub
    ({ w with hub := hub, server := some s }, some a)

def poll (w : Workspace) : Workspace × Nat :=
  match w.server with
  | none => (w, 0)
  | some s =>
    let (s, gate, hub, n) := s.poll w.gate w.hub
    ({ w with hub := hub, gate := gate, server := some s }, n)

def connect (w : Workspace) (name : String) : Workspace × Except Error UInt64 :=
  let (hub, outlet) := w.hub.addOutlet
  let (gate, result) := w.gate.connect outlet
  let w := { w with hub := hub, gate := gate }
  match result with
  | .ok id => ({ w with connections := w.connections.set name ⟨id, outlet⟩ }, .ok id)
  | .error e => (w, .error e)

/-- Opens a connection of a given number at the server itself. -/
def openConnection (w : Workspace) (name : String) (id : UInt64) : Workspace :=
  let (hub, outlet) := w.hub.addOutlet
  let w := { w with hub := hub, connections := w.connections.set name ⟨id, outlet⟩ }
  (w.onServer fun s h =>
    let (s, h) := s.openConnection h id outlet
    (s, h, ())).1

def submit (w : Workspace) (c : Command) : Workspace × Except Error Unit :=
  match w.gate.submit c with
  | .ok gate => ({ w with gate := gate }, .ok ())
  | .error e => (w, .error e)

def disconnect (w : Workspace) (connection : String) : Workspace × Except Error Unit :=
  match w.connections.get? connection with
  | some c => w.submit (.close c.id)
  | none => (w, .ok ())

/-- Drops the receiving end of a connection. -/
def dropConnection (w : Workspace) (connection : String) : Workspace :=
  match w.connections.get? connection with
  | some c => { w with hub := w.hub.closeOutlet c.outlet }
  | none => w

/-- Sends bytes to the server piece by piece. Gives the result of each piece. -/
def send (w : Workspace) (connection : String) (pieces : List Bytes) :
    Workspace × List (Except Error Unit) :=
  match w.connections.get? connection with
  | none => (w, [])
  | some c =>
    pieces.foldl (fun (w, results) piece =>
      let (w, result) := w.submit (.receive c.id piece)
      (w, results ++ [result])) (w, [])

/-- Takes the frames that came on a connection since the last time. -/
def takeFrames (w : Workspace) (connection : String) : Workspace × List Bytes :=
  match w.connections.get? connection with
  | none => (w, [])
  | some c =>
    let (hub, responses) := w.hub.takeSent c.outlet
    ({ w with hub := hub }, responses.map encodeResponse)

/-! Clients -/

def addClient (w : Workspace) (name : String) (c : Client) : Workspace :=
  let (hub, id) := w.hub.addClient c
  { w with hub := hub, clients := w.clients.set name id }

/-- Runs an operation of a client alone. -/
def onClient {α : Type} (w : Workspace) (name : String) (f : Client → Client × α) :
    Workspace × Option α :=
  match w.clients.get? name, w.client? name with
  | some id, some c =>
    let (c, a) := f c
    ({ w with hub := w.hub.setClient id c }, some a)
  | _, _ => (w, none)

/-- Runs an operation of a client that its replicas' inputs may hear of. -/
def onClientHub {α : Type} (w : Workspace) (name : String) (f : Hub → Nat → Hub × α) :
    Workspace × Option α :=
  match w.clients.get? name with
  | none => (w, none)
  | some id =>
    let (hub, a) := f w.hub id
    ({ w with hub := hub }, some a)

/-- Has a client apply pieces of the server's stream. Gives the result of each. -/
def receive (w : Workspace) (client : String) (pieces : List Bytes) :
    Workspace × List (Except Error Nat) :=
  pieces.foldl (fun (w, results) piece =>
    let (w, result) := w.onClientHub client fun h id => h.receive id piece
    (w, results ++ result.toList)) (w, [])

/-- Moves everything there is to move between a client and a connection. Gives the traffic and the
messages that the client has then. -/
def pump (w : Workspace) (client connection : String) (pieceSize : Option Nat) :
    Workspace × Except Error (Traffic × List ClientMessage) :=
  match w.clients.get? client, w.connections.get? connection with
  | some id, some c =>
    let link : Link :=
      { client := id, connection := c.id, outlet := c.outlet, pieceSize := pieceSize }
    let (ends, result) := link.run { hub := w.hub, gate := w.gate, server := w.server }
    let w := { w with hub := ends.hub, gate := ends.gate, server := ends.server }
    match result with
    | .error e => (w, .error e)
    | .ok traffic =>
      let (w, messages) := w.onClient client Client.takeMessages
      (w, .ok (traffic, messages.getD []))
  | _, _ => (w, .ok ({}, []))

/-! What happened in a step of a script -/

/-- Takes what the recorders were told since the last time. -/
def takeEvents (w : Workspace) : Workspace × List (String × List Notice) :=
  w.recorders.foldl (fun (w, told) (name, i) =>
    match w.recorder? name with
    | some r =>
      if r.events.isEmpty then (w, told)
      else ({ w with hub := w.hub.setInput i (.recorder r.clear) }, told ++ [(name, r.events)])
    | none => (w, told)) (w, [])

/-- Takes what sinks and sessions sent since the last time. It waits to be fed to a replica. -/
def takeSent (w : Workspace) : Workspace × List (String × List Response) :=
  let outlets := w.sinks.map (fun (name, s) => (name, s.outlet)) ++
    w.sessions.map fun (name, s) => (name, s.outlet)
  outlets.foldl (fun (w, told) (name, o) =>
    let (hub, sent) := w.hub.takeSent o
    if sent.isEmpty then (w, told)
    else
      ({ w with hub := hub, unfed := w.unfed.insert o (((w.unfed.find? o).getD []) ++ sent) },
        told ++ [(name, sent)])) (w, [])

end Workspace

end TableFeed
