import TableFeed.Server
import TableFeed.Text.Quoted

/-!
One-line summaries of outputs, tables and the ends of subscriptions, for logs.
-/

namespace TableFeed

/-- A record with named parts. -/
def record (name : String) (parts : List (String × String)) : String :=
  name ++ " \x7b " ++ ", ".intercalate (parts.map fun p => p.1 ++ ": " ++ p.2) ++ " \x7d"

def Publisher.summary (p : Publisher) : String :=
  record "TransformOutput" [("inputs", toString p.inputs.length), ("rows", toString p.rows.size)]

/-- The summary of an output as its owner has it. -/
def Publisher.ownerSummary (p : Publisher) : String :=
  record "OutputManager" [("output", p.summary)]

def Table.summary (t : Table) : String :=
  record "Table" [("schema", quoted t.schema.name), ("rows", toString t.size),
    ("pending", toString t.batch.size)]

def SinkInput.summary (s : SinkInput) : String :=
  record "SubscriptionSink" [("subscription_id", toString s.sink.subscription),
    ("state", s.sink.phase.name), ("attached", toString s.source.isSome)]

def Replica.summary (r : Replica) : String :=
  record "SubscriptionDecoder" [("subscription_id", toString r.subscription),
    ("state", r.phase.name),
    ("schema", match r.sheet with
      | some s => "Some(" ++ quoted s.name ++ ")"
      | none => "None"),
    ("live", toString r.rows.size)]

def Registry.summary (r : Registry) : String :=
  record "RegisteredOutputs" [("outputs", "[" ++ ", ".intercalate (r.names.map quoted) ++ "]"),
    ("handlers", toString r.handlers.size)]

def ServerConfig.summary (c : ServerConfig) : String :=
  record "ServerConfig" [("inbound_capacity", toString c.inboxCapacity),
    ("max_frame_len", toString c.frameLimit), ("drain_limit", toString c.drainLimit)]

def Server.summary (s : Server) : String :=
  record "SubscriptionServer" [("config", s.config.summary), ("outputs", s.registry.summary),
    ("connections", toString s.connections.size)]

end TableFeed
