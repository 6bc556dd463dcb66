import TableFeed.RowIds

/-!
Outputs and what they tell their inputs. An output shows a schema and a set of rows as of its last
pass; its owner's later changes stay unseen until the next one. An input that attaches is told what
is shown, and from then on what each pass changes.
-/

namespace TableFeed

abbrev InputId := Nat

/-- One thing an input is told. -/
inductive Notice
  /-- The input is attached to an output, or no longer is. -/
  | source (attached : Bool)
  /-- The schema is published or replaced; without one it is withdrawn. No row is live after it. -/
  | schema (schema : Option Schema)
  | added (rows : List RowId)
  | changed (rows : List RowId) (fields : FieldSet)
  | removed (rows : List RowId)
  deriving DecidableEq

/-- An output: its attached inputs, and the schema and rows it shows. -/
structure Publisher where
  inputs : List InputId := []
  /-- The schema its owner handed in last. -/
  latest : Option Schema := none
  /-- Whether that schema waits for the next pass. -/
  replaced : Bool := false
  schema : Option Schema := none
  rows : RowSet := ∅
  deriving DecidableEq

namespace Publisher

instance : Inhabited Publisher := ⟨{}⟩

/-- An output that shows a schema and rows from the start. -/
def showing (schema : Schema) (rows : RowSet) : Publisher :=
  { latest := some schema, schema := some schema, rows := rows }

def isAttached (p : Publisher) (i : InputId) : Bool := p.inputs.contains i

/-- Adds an input at the end; one that is attached already keeps its place. -/
def attach (p : Publisher) (i : InputId) : Publisher :=
  if p.isAttached i then p else { p with inputs := p.inputs ++ [i] }

def detach (p : Publisher) (i : InputId) : Publisher := { p with inputs := p.inputs.erase i }

/-- The rows as an input that attaches is told them. -/
def replayRows (p : Publisher) : List Notice :=
  if p.rows.isEmpty then [] else [.added p.rows.toList]

/-- What an input is told when it attaches. -/
def replay (p : Publisher) : List Notice :=
  .source true ::
    match p.schema with
    | none => []
    | some s => .schema (some s) :: p.replayRows

/-- What an input is told when it is detached. -/
def farewell : List Notice := [.schema none, .source false]

/-- Hands in a schema for the next pass. -/
def update (p : Publisher) (schema : Option Schema) : Publisher :=
  { p with latest := schema, replaced := true }

/-- Rows are told of only if there are any. -/
def rowNotices (added changed removed : List RowId) (fields : FieldSet) : List Notice :=
  (if added.isEmpty then [] else [.added added]) ++
    (if changed.isEmpty then [] else [.changed changed fields]) ++
    (if removed.isEmpty then [] else [.removed removed])

/-- One pass over a batch: the output as it is shown from then on, and what every input attached
to it is told. If the schema was replaced, the batch is not told: all `live` rows are added. -/
def publish (p : Publisher) (live : RowSet) (batch : Batch) : Publisher × List Notice :=
  if p.replaced then
    let rows := if p.latest.isSome then live else ∅
    ({ p with replaced := false, schema := p.latest, rows := rows },
      .schema p.latest :: rowNotices rows.toList [] [] ∅)
  else
    ({ p with rows := (p.rows.union batch.added).eraseAll batch.removed.toList },
      rowNotices batch.added.toList batch.changed.keys.toList batch.removed.toList
        batch.changedFields)

end Publisher

end TableFeed
