/-!
The kinds of messages a subscription exchanges, and its progress. A subscription is served as a
schema, then the initial rows, then changes to them.
-/

namespace TableFeed

inductive RequestType
  | subscribe | modify | unsubscribe
  /-- A kind that is not understood, kept so that the request can be answered. -/
  | unknown (code : UInt8)
  deriving DecidableEq, Repr

namespace RequestType

def code : RequestType → UInt8
  | subscribe => 1
  | modify => 2
  | unsubscribe => 3
  | unknown c => c

def ofCode : UInt8 → RequestType
  | 1 => subscribe
  | 2 => modify
  | 3 => unsubscribe
  | c => unknown c

def name : RequestType → String
  | subscribe => "SUBSCRIBE"
  | modify => "MODIFY"
  | unsubscribe => "UNSUBSCRIBE"
  | unknown _ => "UNKNOWN"

end RequestType

inductive ResponseType
  | message | schema | add | change | remove | init
  deriving DecidableEq, Repr

namespace ResponseType

def code : ResponseType → UInt8
  | message => 1
  | schema => 2
  | add => 3
  | change => 4
  | remove => 5
  | init => 6

def ofCode? : UInt8 → Option ResponseType
  | 1 => some message
  | 2 => some schema
  | 3 => some add
  | 4 => some change
  | 5 => some remove
  | 6 => some init
  | _ => none

def name : ResponseType → String
  | message => "MESSAGE"
  | schema => "SCHEMA"
  | add => "ADD"
  | change => "CHG"
  | remove => "REM"
  | init => "INIT"

def all : List ResponseType := [message, schema, add, change, remove, init]

def ofName? (n : String) : Option ResponseType := all.find? fun t => t.name == n

def carriesRows : ResponseType → Bool
  | add | change | remove | init => true
  | message | schema => false

end ResponseType

inductive FrameKind
  | request | response
  deriving DecidableEq, Repr

namespace FrameKind

def code : FrameKind → UInt8
  | request => 1
  | response => 2

def ofCode? : UInt8 → Option FrameKind
  | 1 => some request
  | 2 => some response
  | _ => none

end FrameKind

/-- How far a subscription has come, on the serving and on the receiving side. -/
inductive Phase
  | awaitingSchema | awaitingInit | live
  /-- Given up: nothing more is served, or what arrives is ignored until the next schema. -/
  | failed
  deriving DecidableEq, Repr, Inhabited

namespace Phase

def name : Phase → String
  | awaitingSchema => "AwaitingSchema"
  | awaitingInit => "AwaitingInit"
  | live => "Live"
  | failed => "Failed"

end Phase

end TableFeed
