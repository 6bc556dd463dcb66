import TableFeed.Server

/-!
A wire between a client and a connection of a server in the same process. Running it carries
request frames to the gate, lets the server poll and carries response frames back, until a round
moves nothing.
-/

namespace TableFeed

open Wire

/-- The bytes cut into pieces of `size` bytes; the last piece may be shorter. -/
def pieces (size : Nat) (bytes : Bytes) : List Bytes :=
  if bytes.isEmpty then []
  else bytes.take (max size 1) :: pieces size (bytes.drop (max size 1))
termination_by bytes.length
decreasing_by
  next h =>
    cases bytes with
    | nil => simp at h
    | cons b bs =>
      simp only [List.length_drop, List.length_cons]
      omega

/-- The pieces in which bytes are moved; all at once if no size is given. -/
def inPieces (size : Option Nat) (bytes : Bytes) : List Bytes :=
  match size with
  | none => [bytes]
  | some n => pieces n bytes

/-- What is at the two ends of a wire. The server may be gone. -/
structure Ends where
  hub : Hub
  gate : Gate
  server : Option Server

structure Link where
  client : Nat
  connection : UInt64
  outlet : OutletId
  pieceSize : Option Nat := none
  /-- How many rounds a run has at most. What a client receives may cause further frames on the same
  connection, and replicas that feed each other in a ring would never come to rest. -/
  patience : Nat := 1000000

/-- What was moved. -/
structure Traffic where
  sent : Nat := 0
  commands : Nat := 0
  received : Nat := 0
  handled : Nat := 0
  deriving DecidableEq

namespace Traffic

def isNone (t : Traffic) : Bool := t = {}

def add (t u : Traffic) : Traffic :=
  { sent := t.sent + u.sent, commands := t.commands + u.commands,
    received := t.received + u.received, handled := t.handled + u.handled }

end Traffic

namespace Link

/-- Queues the pieces of some bytes at the gate, up to the first that is refused. -/
def submit (connection : UInt64) : List Bytes → Gate → Gate × Except Error Unit
  | [], g => (g, .ok ())
  | piece :: rest, g =>
    match g.submit (.receive connection piece) with
    | .ok g => submit connection rest g
    | .error e => (g, .error e)

/-- Queues request frames at the gate, up to the first that is refused. Gives the frames after that
one. -/
def carryRequests (l : Link) : List Bytes → Gate → Gate × List Bytes × Except Error Unit
  | [], g => (g, [], .ok ())
  | frame :: rest, g =>
    match submit l.connection (inPieces l.pieceSize frame) g with
    | (g, .error e) => (g, rest, .error e)
    | (g, .ok ()) => l.carryRequests rest g

def poll (ends : Ends) : Ends × Nat :=
  match ends.server with
  | none => (ends, 0)
  | some s =>
    let (s, gate, hub, n) := s.poll ends.gate ends.hub
    ({ hub := hub, gate := gate, server := some s }, n)

/-- Hands the pieces of some bytes to the client, up to a fault of the stream. -/
def deliver (l : Link) : List Bytes → Hub → Nat → Hub × Except Error Nat
  | [], hub, handled => (hub, .ok handled)
  | piece :: rest, hub, handled =>
    match hub.receive l.client piece with
    | (hub, .error e) => (hub, .error e)
    | (hub, .ok n) => l.deliver rest hub (handled + n)

/-- The request frames that the client has written. -/
def requests (l : Link) (hub : Hub) : List Bytes :=
  (hub.clients[l.client]?.map (·.outgoing)).getD []

/-- Leaves these request frames with the client. -/
def leave (l : Link) (frames : List Bytes) (hub : Hub) : Hub :=
  { hub with clients := hub.clients.modify l.client fun c => { c with outgoing := frames } }

/-- One round over the wire. Of the requests, what follows a refused frame stays with the client.
The response frames that are there are taken before the first of them is handed over: what is sent
meanwhile waits for the next round, and what follows a fault of the stream is lost. -/
def round (l : Link) (ends : Ends) : Ends × Except Error Traffic :=
  let requests := l.requests ends.hub
  let (gate, left, submitted) := l.carryRequests requests ends.gate
  let ends := { ends with hub := l.leave left ends.hub, gate := gate }
  match submitted with
  | .error e => (ends, .error e)
  | .ok () =>
    let (ends, commands) := poll ends
    let (hub, responses) := ends.hub.takeSent l.outlet
    let frames := responses.map encodeResponse
    match l.deliver (frames.flatMap (inPieces l.pieceSize)) hub 0 with
    | (hub, .error e) => ({ ends with hub := hub }, .error e)
    | (hub, .ok handled) =>
      ({ ends with hub := hub },
        .ok { sent := requests.length, commands, received := responses.length, handled })

/-- Up to `rounds` rounds, ending with one that moves nothing. -/
def rounds (l : Link) : (rounds : Nat) → Ends → Traffic → Ends × Except Error Traffic
  | 0, ends, total => (ends, .ok total)
  | n + 1, ends, total =>
    match l.round ends with
    | (ends, .error e) => (ends, .error e)
    | (ends, .ok t) => if t.isNone then (ends, .ok total) else l.rounds n ends (total.add t)

/-- Moves everything there is to move. -/
def run (l : Link) (ends : Ends) : Ends × Except Error Traffic :=
  l.rounds l.patience ends {}

end Link

end TableFeed
