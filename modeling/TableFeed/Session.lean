import TableFeed.Hub

/-!
The serving end of a connection: its subscriptions, and the answers to its requests. Every request
is answered with one acknowledgement, before anything else that it causes. A subscription that
cannot be set up leaves nothing behind.
-/

namespace TableFeed

/-- Decides about the modifications of an output's subscriptions. -/
abbrev ModificationHandler := Int32 → Modification → Acknowledgement

/-- The outputs that can be subscribed to, by name. -/
structure Registry where
  outputs : AscMap String OutputId := ∅
  handlers : AscMap String ModificationHandler := ∅

namespace Registry

instance : Inhabited Registry := ⟨{}⟩

/-- Registers an output, over the one of the same name. -/
def register (r : Registry) (name : String) (o : OutputId) : Registry :=
  { r with outputs := r.outputs.insert name o }

/-- Takes an output out, and its handler with it. -/
def unregister (r : Registry) (name : String) : Registry :=
  { outputs := r.outputs.erase name, handlers := r.handlers.erase name }

def handleWith (r : Registry) (name : String) (handler : ModificationHandler) : Registry :=
  { r with handlers := r.handlers.insert name handler }

/-- The registered names, lowest first. -/
def names (r : Registry) : List String := r.outputs.keys.toList

/-- The decision about one modification. Without a handler it fails. -/
def judge (r : Registry) (name : String) (id : Int32) (m : Modification) : Acknowledgement :=
  match r.handlers.find? name with
  | some handler => handler id m
  | none => ⟨false, s!"No modification handler for {name}"⟩

/-- The decisions about several modifications, up to the first that fails; the last one made
counts. -/
def judgeAll (r : Registry) (name : String) (id : Int32) :
    List Modification → Acknowledgement → Acknowledgement
  | [], last => last
  | m :: ms, _ =>
    let ack := r.judge name id m
    if ack.success then r.judgeAll name id ms ack else ack

end Registry

structure Subscription where
  name : String
  output : OutputId
  input : InputId

structure Session where
  connection : UInt64
  outlet : OutletId
  limit : Nat := Wire.defaultFrameLimit
  subscriptions : AscMap Int32 Subscription := ∅

namespace Session

instance : Inhabited Session := ⟨{ connection := 0, outlet := 0 }⟩

def size (s : Session) : Nat := s.subscriptions.size

def isEmpty (s : Session) : Bool := s.subscriptions.isEmpty

def reply (s : Session) (h : Hub) (r : Request) (success : Bool) (text : String) : Hub :=
  h.emit s.outlet (.message r.subscription r.token success text)

/-- Why a selection cannot be subscribed to. -/
inductive SubscribeFault
  | noSelection
  | alreadyExists (id : Int32)
  | noOutput (name : String)
  | invalid (name : String) (error : Error)
  | refused (text : String)

def SubscribeFault.text : SubscribeFault → String
  | noSelection => "Subscribe without subscription"
  | alreadyExists id => s!"Subscription already exists: {id}"
  | noOutput name => s!"Output not found: {name}"
  | invalid name e => s!"Exception handling subscription for {name}: {e.message}"
  | refused text => text

/-- Checks a subscribe request. Gives the selection, its output and the sink that will serve it. -/
def check (s : Session) (registry : Registry) (h : Hub) (r : Request) :
    Except SubscribeFault (Selection × OutputId × Sink) := do
  let some selection := r.selection | throw .noSelection
  if s.subscriptions.contains r.subscription then throw (.alreadyExists r.subscription)
  let some output := registry.outputs.find? selection.output | throw (.noOutput selection.output)
  let sink := Sink.create r.subscription selection.projection s.limit
  if let some schema := (h.display? output).bind (·.publisher.schema) then
    if let .error e := sink.encoder.validate schema then throw (.invalid selection.output e)
  let ack := registry.judgeAll selection.output r.subscription selection.modifications ⟨true, ""⟩
  if !ack.success then throw (.refused ack.message)
  return (selection, output, sink)

def subscribe (s : Session) (registry : Registry) (h : Hub) (r : Request) : Session × Hub :=
  match s.check registry h r with
  | .error fault => (s, s.reply h r false fault.text)
  | .ok (selection, output, sink) =>
    let h := s.reply h r true s!"Subscribed to {selection.output}"
    let (h, input) := h.addInput (.sink { sink := sink, outlet := s.outlet })
    let sub := { name := selection.output, output := output, input := input }
    ({ s with subscriptions := s.subscriptions.insert r.subscription sub }, h.attach output input)

def modify (s : Session) (registry : Registry) (h : Hub) (r : Request) : Hub :=
  match s.subscriptions.find? r.subscription with
  | none => s.reply h r false "Subscription not found"
  | some sub =>
    match (r.selection.map (·.modifications)).getD [] with
    | [] => s.reply h r false "Modify without modification"
    | ms =>
      let ack := registry.judgeAll sub.name r.subscription ms {}
      s.reply h r ack.success ack.message

def unsubscribe (s : Session) (h : Hub) (r : Request) : Session × Hub :=
  match s.subscriptions.find? r.subscription with
  | none => (s, s.reply h r false "Subscription not found")
  | some sub =>
    let h := (h.detach sub.output sub.input).1
    ({ s with subscriptions := s.subscriptions.erase r.subscription },
      s.reply h r true s!"Unsubscribed from {sub.name}")

/-- Answers one request. -/
def handle (s : Session) (registry : Registry) (h : Hub) (r : Request) : Session × Hub :=
  match r.type with
  | .subscribe => s.subscribe registry h r
  | .modify => (s, s.modify registry h r)
  | .unsubscribe => s.unsubscribe h r
  | .unknown code => (s, s.reply h r false s!"Request type not understood: {code}")

/-- Detaches every subscription. -/
def close (s : Session) (h : Hub) : Session × Hub :=
  ({ s with subscriptions := ∅ },
    s.subscriptions.values.foldl (fun h sub => (h.detach sub.output sub.input).1) h)

end Session

end TableFeed
