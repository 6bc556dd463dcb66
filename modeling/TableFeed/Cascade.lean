import TableFeed.Recorder

/-!
An output whose inputs act from inside what they are told: they attach and detach inputs, others or
themselves, on the output that is telling them. Each input carries a script. What it does at a
notice is the first entry left in its script for that kind of notice, and the entry is used up.

Everything here is written for a given way `tell` to tell one input one thing, and `perform` ties
the knot: it goes one level deeper with every action, and there are no more levels than actions
left in all scripts.
-/

namespace TableFeed

/-- What an input can do from inside a notice. -/
inductive Action
  | attach (input : InputId)
  | detach (input : InputId)
  | isAttached (input : InputId)
  deriving DecidableEq, Repr

/-- The kinds of notices a script tells apart. -/
inductive Cue
  | attached | detached | schema | withdrawn | added | changed | removed
  deriving DecidableEq, Repr

def Notice.cue : Notice → Cue
  | .source true => .attached
  | .source false => .detached
  | .schema (some _) => .schema
  | .schema none => .withdrawn
  | .added _ => .added
  | .changed _ _ => .changed
  | .removed _ => .removed

/-- A recorder with a script. -/
structure Actor where
  recorder : Recorder := {}
  script : List (Cue × List Action) := []

/-- One line of the account that is kept of a run. -/
inductive Entry
  | heard (input : InputId) (notice : Notice)
  | did (input : InputId) (action : Action) (answer : Option Bool)
  deriving DecidableEq

structure Stage where
  publisher : Publisher := {}
  actors : AscMap InputId Actor := ∅
  /-- Whether a pass is going on. -/
  firing : Bool := false
  /-- Inputs detached in the pass that is going on: it tells them nothing more. -/
  skipped : List InputId := []
  /-- Detached inputs that are still owed the notices of it. -/
  owed : List InputId := []
  /-- Inputs that are inside a notice, the innermost first. -/
  busy : List InputId := []
  log : List Entry := []

namespace Stage

instance : Inhabited Stage := ⟨{}⟩

abbrev Tell := InputId → Notice → Stage → Stage

def note (st : Stage) (e : Entry) : Stage := { st with log := st.log ++ [e] }

/-- Removes the first entry of a script for a cue. Gives its actions and the rest. -/
def takeEntry (cue : Cue) : List (Cue × List Action) → List Action × List (Cue × List Action)
  | [] => ([], [])
  | e :: es =>
    if e.1 = cue then (e.2, es)
    else
      let (acts, rest) := takeEntry cue es
      (acts, e :: rest)

/-- The input takes down what it is told, and its next entry for it is used up. -/
def hear (i : InputId) (n : Notice) (st : Stage) : Stage × List Action :=
  let actor := (st.actors.find? i).getD {}
  let (acts, rest) := takeEntry n.cue actor.script
  let actor := { recorder := actor.recorder.hear n, script := rest }
  (note { st with actors := st.actors.insert i actor } (.heard i n), acts)

/-- Tells an input several things in a row, all inside one notice. -/
def tellAll (tell : Tell) (i : InputId) (ns : List Notice) (st : Stage) : Stage :=
  let after := ns.foldl (fun st n => tell i n st) { st with busy := i :: st.busy }
  { after with busy := st.busy }

/-- Delivers the notices owed to inputs that are no longer inside one. -/
def settle (tell : Tell) (st : Stage) : Stage :=
  let (after, kept) := st.owed.foldl (fun (acc : Stage × List InputId) i =>
    if i ∈ acc.1.busy then (acc.1, acc.2 ++ [i])
    else (tellAll tell i Publisher.farewell acc.1, acc.2)) ({ st with owed := [] }, [])
  { after with owed := after.owed ++ kept }

/-- Notices are owed across a pass and settled at its end. -/
def settleUnlessFiring (tell : Tell) (st : Stage) : Stage :=
  if st.firing then st else settle tell st

/-- Attaches an input and tells it what is shown. An input that detaches itself meanwhile is not
told the rows. An input that is inside a notice cannot be attached. -/
def attach (tell : Tell) (i : InputId) (st : Stage) : Stage :=
  if st.publisher.isAttached i || st.busy.contains i then st
  else
    let start := { st with publisher := st.publisher.attach i, busy := i :: st.busy }
    let sourced := tell i (.source true) start
    let replayed :=
      match sourced.publisher.schema with
      | none => sourced
      | some s =>
        let named := tell i (.schema (some s)) sourced
        if named.publisher.isAttached i then
          named.publisher.replayRows.foldl (fun st n => tell i n st) named
        else named
    settleUnlessFiring tell { replayed with busy := st.busy }

/-- Detaches an input and tells it so, at once or, if it is inside a notice, when it has left it.
Gives whether it was attached. -/
def detach (tell : Tell) (i : InputId) (st : Stage) : Stage × Bool :=
  if st.publisher.isAttached i then
    let gone := { st with publisher := st.publisher.detach i,
                          skipped := if st.firing then i :: st.skipped else st.skipped }
    let told :=
      if i ∈ gone.busy then { gone with owed := gone.owed ++ [i] }
      else tellAll tell i Publisher.farewell gone
    (settleUnlessFiring tell told, true)
  else (st, false)

/-- The part of a pass that one input hears. It ends where the input is detached. -/
def passTo (tell : Tell) (ns : List Notice) (st : Stage) (i : InputId) : Stage :=
  ns.foldl (fun st n =>
    if i ∈ st.skipped then st else tellAll tell i [n] st) st

/-- One pass over the inputs attached at its start, in the order of their attachment. Without
anything to tell there is no pass, and what is owed stays owed. -/
def fire (tell : Tell) (live : RowSet) (batch : Batch) (st : Stage) : Stage :=
  let (publisher, notices) := st.publisher.publish live batch
  if notices.isEmpty then st
  else
    let start := { st with publisher := publisher, firing := true }
    let passed := publisher.inputs.foldl (passTo tell notices) start
    settle tell { passed with firing := false, skipped := [] }

/-- An action of input `i`, noted with its answer. -/
def act (tell : Tell) (i : InputId) (a : Action) (st : Stage) : Stage :=
  match a with
  | .attach j => (attach tell j st).note (.did i a none)
  | .detach j =>
    let (st, gone) := detach tell j st
    st.note (.did i a (some gone))
  | .isAttached j => st.note (.did i a (some (st.publisher.isAttached j)))

/-- Tells input `i` one thing and runs what it does then, down to `depth` levels of action. -/
def perform : (depth : Nat) → Tell
  | 0, i, n, st => (hear i n st).1
  | depth + 1, i, n, st =>
    let (st, acts) := hear i n st
    acts.foldl (fun st a => act (perform depth) i a st) st

/-- How many actions are left in all scripts. -/
def actionsLeft (st : Stage) : Nat :=
  (st.actors.values.flatMap fun a => a.script.flatMap fun e => e.2).length

/-- The way to tell an input something with every action left to its scripts. -/
def tell (st : Stage) : Tell := perform st.actionsLeft

end Stage

end TableFeed
