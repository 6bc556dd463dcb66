import TableFeed.Session

/-!
The server: sessions by connection, fed by a queue of commands. Bytes of a connection need not come
in whole frames. A request that cannot be read is answered with a failure on subscription zero; a
stream that cannot be read closes its connection.
-/

namespace TableFeed

open Wire

structure ServerConfig where
  inboxCapacity : Nat := 1024
  frameLimit : Nat := defaultFrameLimit
  /-- How many commands one poll applies at most. -/
  drainLimit : Nat := 256
  deriving DecidableEq

/-- Work for the server. -/
inductive Command
  | open (connection : UInt64) (outlet : OutletId)
  | receive (connection : UInt64) (bytes : Bytes)
  | close (connection : UInt64)

/-- The way in to a server, which stays when the server is gone. -/
structure Gate where
  inbox : Mailbox Command
  nextConnection : UInt64 := 1

namespace Gate

def create (config : ServerConfig) : Gate := { inbox := .create config.inboxCapacity }

instance : Inhabited Gate := ⟨create {}⟩

def submit (g : Gate) (c : Command) : Except Error Gate :=
  match g.inbox.offer c with
  | .ok inbox => .ok { g with inbox := inbox }
  | .error .full => .error (.invalidOperation .queueFull)
  | .error .closed => .error (.invalidOperation .serverStopped)

/-- Opens a connection whose responses go to `outlet`. Its number is used up even if the server
cannot be reached. -/
def connect (g : Gate) (outlet : OutletId) : Gate × Except Error UInt64 :=
  let id := g.nextConnection
  let g := { g with nextConnection := id + 1 }
  match g.submit (.open id outlet) with
  | .ok g => (g, .ok id)
  | .error e => (g, .error e)

/-- Shuts the gate, as the server is gone. -/
def shut (g : Gate) : Gate := { g with inbox := { g.inbox.close with items := [] } }

end Gate

structure Connection where
  session : Session
  stream : Stream
  outlet : OutletId

structure Server where
  config : ServerConfig := {}
  registry : Registry := {}
  connections : AscMap UInt64 Connection := ∅

namespace Server

instance : Inhabited Server := ⟨{}⟩

def session? (s : Server) (id : UInt64) : Option Session :=
  (s.connections.find? id).map (·.session)

/-- Opens a connection. An open one of the same number is closed. -/
def openConnection (s : Server) (h : Hub) (id : UInt64) (outlet : OutletId) : Server × Hub :=
  let limit := s.config.frameLimit
  let connection : Connection :=
    { session := { connection := id, outlet := outlet, limit := limit }
      stream := { limit := limit }
      outlet := outlet }
  let h := match s.connections.find? id with
    | some previous => (previous.session.close h).2
    | none => h
  ({ s with connections := s.connections.insert id connection }, h)

/-- Closes a connection and detaches its subscriptions. Gives whether it was open. -/
def close (s : Server) (h : Hub) (id : UInt64) : Server × Hub × Bool :=
  match s.connections.find? id with
  | none => (s, h, false)
  | some c => ({ s with connections := s.connections.erase id }, (c.session.close h).2, true)

/-- Handles one frame of a connection. -/
def handleFrame (registry : Registry) (c : Connection) (h : Hub) :
    Except Error Frame → Connection × Hub
  | .ok (.request r) =>
    let (session, h) := c.session.handle registry h r
    ({ c with session := session }, h)
  | .ok (.response _) => (c, h)
  | .error e => (c, if e.isFatal then h else h.emit c.outlet (.message 0 0 false e.message))

/-- Whether the frames end in a fault of the stream. -/
def endsFatally (results : List (Except Error Frame)) : Bool :=
  results.any fun
    | .error e => e.isFatal
    | .ok _ => false

/-- Handles bytes of a connection. -/
def receive (s : Server) (h : Hub) (id : UInt64) (bytes : Bytes) : Server × Hub :=
  match s.connections.find? id with
  | none => (s, h)
  | some c =>
    let (stream, results) := (c.stream.push bytes).drain
    let (c, h) := results.foldl (fun (c, h) result => handleFrame s.registry c h result)
      ({ c with stream := stream }, h)
    let s := { s with connections := s.connections.insert id c }
    if endsFatally results then
      let (s, h, _) := s.close h id
      (s, h)
    else (s, h)

/-- Applies one command. -/
def apply (s : Server) (h : Hub) : Command → Server × Hub
  | .open id outlet => s.openConnection h id outlet
  | .receive id bytes => s.receive h id bytes
  | .close id =>
    let (s, h, _) := s.close h id
    (s, h)

/-- Applies the commands that wait at the gate, up to the limit of one poll. Gives how many. -/
def poll (s : Server) (g : Gate) (h : Hub) : Server × Gate × Hub × Nat :=
  let commands := g.inbox.items.take s.config.drainLimit
  let (s', h) := commands.foldl (fun (s, h) c => s.apply h c) (s, h)
  (s', { g with inbox := { g.inbox with items := g.inbox.items.drop s.config.drainLimit } }, h,
    commands.length)

end Server

end TableFeed
