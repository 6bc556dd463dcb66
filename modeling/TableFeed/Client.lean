import TableFeed.Mailbox
import TableFeed.Replica
import TableFeed.Wire.Encode
import TableFeed.Wire.Stream

/-!
The client end of a connection. It sends requests and keeps a replica for each subscription. A
response changes at most the replica it is addressed to. Acknowledgements and violations are kept
as messages until they are taken.
-/

namespace TableFeed

open Wire

structure ClientSubscription where
  selection : Selection
  replica : Replica

/-- An acknowledgement or a failure that was reported. -/
structure ClientMessage where
  subscription : Int32
  /-- The token of the request that was answered; zero if there is none. -/
  token : Int64
  success : Bool
  text : String
  deriving DecidableEq

/-- The notices that the inputs of one replica are told. -/
structure ReplicaNotices where
  subscription : Int32
  notices : List Notice

structure Client where
  limit : Nat := defaultFrameLimit
  nextToken : Int64 := 1
  nextId : Int32 := 1
  subscriptions : AscMap Int32 ClientSubscription := ∅
  /-- Subscriptions ended here whose acknowledgement has not arrived. -/
  closing : AscSet Int32 := ∅
  /-- Requests whose acknowledgement has not arrived, by token. -/
  pending : AscMap Int64 RequestType := ∅
  stream : Stream
  /-- Pieces of the server's stream that have arrived and are not yet applied. -/
  inbox : Mailbox Bytes
  /-- Request frames for the server. -/
  outgoing : List Bytes := []
  /-- Whether nobody takes the request frames any more. -/
  hungUp : Bool := false
  messages : List ClientMessage := []

namespace Client

def create (inboxCapacity limit : Nat) : Client :=
  { limit := limit, stream := { limit := limit }, inbox := .create inboxCapacity }

instance : Inhabited Client := ⟨create 1 0⟩

/-- Sends a request. Gives its token. -/
def send (c : Client) (id : Int32) (type : RequestType) (selection : Option Selection) :
    Client × Int64 :=
  let request : Request :=
    { token := c.nextToken, subscription := id, type := type, selection := selection }
  ({ c with
      nextToken := c.nextToken + 1
      pending := c.pending.insert c.nextToken type
      outgoing := if c.hungUp then c.outgoing else c.outgoing ++ [encodeRequest request] },
    c.nextToken)

/-- Subscribes with an empty replica. Gives the id of the subscription. -/
def subscribe (c : Client) (selection : Selection) : Client × Int32 :=
  let id := c.nextId
  let (c, _) := { c with nextId := id + 1 }.send id .subscribe (some selection)
  ({ c with subscriptions := c.subscriptions.insert id ⟨selection, { subscription := id }⟩ }, id)

/-- Asks for a modification of a subscription. Gives the token of the request. -/
def modify (c : Client) (id : Int32) (m : Modification) : Except Error (Client × Int64) :=
  match c.subscriptions.find? id with
  | none => .error (.unknownSubscription id)
  | some sub =>
    .ok (c.send id .modify (some { output := sub.selection.output, modifications := [m] }))

/-- Ends a subscription. Gives the token of the request. -/
def unsubscribe (c : Client) (id : Int32) : Except Error (Client × Int64) :=
  if c.subscriptions.contains id then
    .ok ({ c with subscriptions := c.subscriptions.erase id,
                  closing := c.closing.insert id }.send id .unsubscribe none)
  else .error (.unknownSubscription id)

/-- Resets a replica and subscribes again. -/
def renew (c : Client) (id : Int32) (sub : ClientSubscription) : Client × ReplicaNotices :=
  let (replica, notices) := sub.replica.reset
  let c := { c with subscriptions := c.subscriptions.insert id { sub with replica := replica } }
  ((c.send id .subscribe (some sub.selection)).1, ⟨id, notices⟩)

/-- Subscribes to everything again, as on a new connection: what is left of the old stream is
dropped. -/
def resubscribeAll (c : Client) : Client × List ReplicaNotices :=
  let fresh := { c with stream := { limit := c.limit }, pending := ∅, closing := ∅ }
  c.subscriptions.toList.foldl (fun (c, told) (id, sub) =>
    let (c, notices) := c.renew id sub
    (c, told ++ [notices])) (fresh, [])

def record (c : Client) (m : ClientMessage) : Client := { c with messages := c.messages ++ [m] }

/-- Hands a response to the replica it is addressed to. -/
def deliver (c : Client) (response : Response) : Client × Option ReplicaNotices :=
  let id := response.subscription
  match c.subscriptions.find? id with
  | none => (c, none)
  | some sub =>
    let (replica, notices, result) := sub.replica.accept response
    let c := { c with subscriptions := c.subscriptions.insert id { sub with replica := replica } }
    let c := match result with
      | .error (.protocolViolation i fault) =>
        c.record ⟨id, 0, false, (Error.protocolViolation i fault).message⟩
      | _ => c
    (c, some ⟨id, notices⟩)

/-- Handles an acknowledgement. Only a failure reaches the replica, and not that of a request to
modify or to unsubscribe. -/
def acknowledge (c : Client) (response : Response) : Client × Option ReplicaNotices :=
  let id := response.subscription
  let ack := response.acknowledgement.getD {}
  let answered := c.pending.find? response.token
  let c := { c with pending := c.pending.erase response.token }
  let c := c.record ⟨id, response.token, ack.success, ack.message⟩
  if answered = some .unsubscribe then ({ c with closing := c.closing.erase id }, none)
  else if ack.success || answered = some .modify then (c, none)
  else c.deliver response

def dispatch (c : Client) (response : Response) : Client × Option ReplicaNotices :=
  if response.type = .message then c.acknowledge response else c.deliver response

/-- Takes bytes of the server's stream. Gives the frames that are complete with them. -/
def takeIn (c : Client) (bytes : Bytes) : Client × List (Except Error Frame) :=
  let (stream, results) := (c.stream.push bytes).drain
  ({ c with stream := stream }, results)

/-- Handles one frame. Requests and frames without a message are skipped. -/
def handle (c : Client) : Except Error Frame → Client × Option ReplicaNotices
  | .ok (.response response) => c.dispatch response
  | _ => (c, none)

/-- What taking in the frames comes to: the number of responses, or the fault after which the
stream cannot be read. -/
def outcome (results : List (Except Error Frame)) : Except Error Nat :=
  results.foldlM (fun handled result =>
    match result with
    | .ok (.response _) => .ok (handled + 1)
    | .ok (.request _) => .ok handled
    | .error e => if e.isFatal then .error e else .ok handled) 0

/-- Applies bytes of the server's stream. Gives the number of responses handled. -/
def accept (c : Client) (bytes : Bytes) : Client × Except Error Nat :=
  let (c, results) := c.takeIn bytes
  (results.foldl (fun c result => (c.handle result).1) c, outcome results)

/-- Queues a piece of the server's stream. -/
def queue (c : Client) (bytes : Bytes) : Except Refusal Client :=
  (c.inbox.offer bytes).map fun inbox => { c with inbox := inbox }

/-- Takes the next queued piece. -/
def nextPiece (c : Client) : Option (Bytes × Client) :=
  match c.inbox.items with
  | [] => none
  | piece :: rest => some (piece, { c with inbox := { c.inbox with items := rest } })

/-- Takes the messages reported since the last time. -/
def takeMessages (c : Client) : Client × List ClientMessage :=
  ({ c with messages := [] }, c.messages)

/-- Takes the request frames sent since the last time. -/
def takeOutgoing (c : Client) : Client × List Bytes := ({ c with outgoing := [] }, c.outgoing)

def replica? (c : Client) (id : Int32) : Option Replica :=
  (c.subscriptions.find? id).map (·.replica)

def setReplica (c : Client) (id : Int32) (r : Replica) : Client :=
  { c with subscriptions := c.subscriptions.modify id fun sub => { sub with replica := r } }

/-- The ids of the subscriptions, lowest first. -/
def ids (c : Client) : List Int32 := c.subscriptions.keys.toList

end Client

end TableFeed
