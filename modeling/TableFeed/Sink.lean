import TableFeed.Encoder
import TableFeed.Publisher

/-!
The serving end of a subscription: an input that answers every notice with responses. The first
rows after a schema are the initial ones, later rows are additions. A source without rows gets
empty initial rows right after the schema. A sink that cannot encode something says so once and is
silent from then on.
-/

namespace TableFeed

structure Sink where
  encoder : Encoder
  phase : Phase := .awaitingSchema
  deriving DecidableEq

namespace Sink

def create (subscription : Int32) (requested : Option (List String)) (limit : Nat) : Sink :=
  { encoder := { subscription := subscription, requested := requested, limit := limit } }

instance : Inhabited Sink := ⟨create 0 none 0⟩

def subscription (s : Sink) : Int32 := s.encoder.subscription

/-- Gives up and sends why. -/
def fail (s : Sink) (e : Error) : Sink × List Response :=
  ({ s with phase := .failed }, [.message s.subscription 0 false e.message])

/-- Sends what could be encoded, or gives up. -/
def send (s : Sink) : Except Error (List Response) → Sink × List Response
  | .ok responses => (s, responses)
  | .error e => s.fail e

/-- Answers a schema. Without rows in the source the initial rows are sent at once. -/
def hearSchema (s : Sink) (sourceRows : Nat) (sheet : Sheet) (schema : Schema) :
    Sink × List Response :=
  match s.encoder.adopt schema with
  | .error e => s.fail e
  | .ok (encoder, response) =>
    if sourceRows = 0 then
      let s := { s with encoder := encoder, phase := .live }
      let (s, responses) := s.send (s.encoder.encodeRows sheet .init [])
      (s, response :: responses)
    else ({ s with encoder := encoder, phase := .awaitingInit }, [response])

/-- Answers one notice. `sourceRows` is how many rows the source shows, and `sheet` holds the cells
of the adopted schema as they are now; with a schema it is the sheet of that schema. -/
def hear (s : Sink) (sourceRows : Nat) (sheet : Sheet) (n : Notice) : Sink × List Response :=
  match n, s.phase with
  | .source _, _ => (s, [])
  | .schema _, .failed => (s, [])
  | .schema none, _ => ({ s with encoder := s.encoder.reset, phase := .awaitingSchema }, [])
  | .schema (some schema), _ => s.hearSchema sourceRows sheet schema
  | .added rows, .awaitingInit =>
    let s := { s with phase := .live }
    s.send (s.encoder.encodeRows sheet .init rows)
  | .added rows, .live => s.send (s.encoder.encodeRows sheet .add rows)
  | .changed rows fields, .live => s.send (s.encoder.encodeChange sheet rows fields)
  | .removed rows, .live => s.send (s.encoder.encodeRemove rows)
  | _, _ => (s, [])

end Sink

end TableFeed
