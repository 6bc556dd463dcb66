import Mathlib
import TableFeed.Proofs.Connection.BytesInTransit
import TableFeed.Proofs.Session.RequestOutcomes
/-!
Subscriptions do not interfere. A server and the tables it serves go through events; what is sent for
a subscription of a connection goes by what happens to the tables, by that connection and by the
requests for that subscription, whatever else there is in between.
-/

namespace TableFeed

/-! ### Connections -/

namespace Connection

structure Line where
  outlet : OutletId
  stream : Wire.Stream
  limit : Nat
  name : Option String

def line (x : Connection) (sub : Int32) : Line :=
  { outlet := x.session.outlet
    stream := x.stream
    limit := x.session.limit
    name := (x.session.subscriptions.find? sub).map (·.name) }

structure Tended (x : Connection) (registry : Registry) (h : Hub) : Prop where
  holds : x.session.Holds h
  outlet : x.outlet = x.session.outlet
  outputs : registry.OfTables h

variable {x x' : Connection} {h h' g : Hub} {o : OutletId} {sub : Int32}
  {seat : Option (OutputId × InputId)} {registry : Registry}

theorem Tended.of_keeps (hx : x.Tended registry h) (hg : h.Keeps g) : x.Tended registry g :=
  ⟨hx.holds.of_keeps hg, hx.outlet, hx.outputs.of_keeps hg⟩

/-- What is done about a request. -/
theorem Tended.does_handle (hx : x.Tended registry h) (r : Request) :
    ∃ v, x.session.Does h r v (x.session.handle registry h r) := by
  obtain ⟨v, hd, -⟩ := Session.does_handle (.refl x.session h r.subscription) hx.outputs hx.outputs
  exact ⟨v, hd⟩

/-- A frame comes on a connection that sends elsewhere. -/
theorem Tended.frame_other (hx : x.Tended registry h) (hh : h.Seats o sub seat)
    (hne : x.session.outlet ≠ o) (result : Except Error Frame) :
    Hub.Quiet o sub h seat (Server.handleFrame registry x h result).2 seat ∧
      (Server.handleFrame registry x h result).1.Tended registry
        (Server.handleFrame registry x h result).2 ∧
      (Server.handleFrame registry x h result).1.session.outlet ≠ o := by
  rcases result with e | r | r
  · rw [Server.handleFrame]
    split
    · exact ⟨.refl hh, hx, hne⟩
    · exact ⟨hh.quiet_emit fun hsame => hne (hx.outlet ▸ hsame.1),
        hx.of_keeps (h.keeps_emit _ _), hne⟩
  · obtain ⟨v, hd⟩ := hx.does_handle r
    have houtlet := hd.find?_of_ne.1
    refine ⟨hd.quiet_of_other hx.holds hh fun hsame => hne hsame.1, ⟨hd.holds hx.holds,
      hx.outlet.trans houtlet.symm, hx.outputs.of_keeps (hd.keeps_hub hx.holds)⟩, ?_⟩
    exact fun ho => hne (houtlet.symm.trans ho)
  · exact ⟨.refl hh, hx, hne⟩

theorem Tended.frames_other (hx : x.Tended registry h) (hh : h.Seats o sub seat)
    (hne : x.session.outlet ≠ o) (results : List (Except Error Frame)) :
    let y := results.foldl (fun (x, h) result => Server.handleFrame registry x h result) (x, h)
    Hub.Quiet o sub h seat y.2 seat ∧ y.1.Tended registry y.2 ∧ y.1.session.outlet ≠ o := by
  induction results generalizing x h with
  | nil => exact ⟨.refl hh, hx, hne⟩
  | cons result results ih =>
      obtain ⟨hquiet, htended, hne'⟩ := hx.frame_other hh hne result
      obtain ⟨hquiet', hrest⟩ := ih htended hquiet.seats hne'
      exact ⟨hquiet.trans hquiet', hrest⟩

structure Seated (x : Connection) (registry : Registry) (h : Hub) (sub : Int32) : Prop
    extends x.Tended registry h where
  seats : h.Seats x.session.outlet sub (x.session.seat sub)

/-- Two connections that are alike for a subscription. -/
structure Alike (x : Connection) (h : Hub) (x' : Connection) (h' : Hub) (sub : Int32) : Prop where
  line : x'.line sub = x.line sub
  aspect : h'.aspect x.session.outlet sub (x'.session.seat sub) =
    h.aspect x.session.outlet sub (x.session.seat sub)

theorem Seated.handleFrame (hx : x.Seated registry h sub) (result : Except Error Frame) :
    (Server.handleFrame registry x h result).1.Seated registry
      (Server.handleFrame registry x h result).2 sub ∧
      h.Keeps (Server.handleFrame registry x h result).2 ∧
      (Server.handleFrame registry x h result).1.session.outlet = x.session.outlet := by
  rcases result with e | r | r
  · rw [Server.handleFrame]
    split
    · exact ⟨hx, .refl h, rfl⟩
    · have hkeeps := h.keeps_emit x.outlet (.message 0 0 false e.message)
      exact ⟨⟨hx.toTended.of_keeps hkeeps, hx.seats.emit _ _⟩, hkeeps, rfl⟩
  · obtain ⟨v, hd⟩ := hx.does_handle r
    obtain ⟨houtlet, -, hfind⟩ := hd.find?_of_ne
    have hkeeps := hd.keeps_hub hx.holds
    refine ⟨⟨⟨hd.holds hx.holds, hx.outlet.trans houtlet.symm, hx.outputs.of_keeps hkeeps⟩, ?_⟩,
      hkeeps, houtlet⟩
    show (x.session.handle registry h r).2.Seats (x.session.handle registry h r).1.outlet sub
      ((x.session.handle registry h r).1.seat sub)
    rw [houtlet]
    by_cases hsub : r.subscription = sub
    · subst hsub
      exact hd.seats_addressed hx.holds hx.seats
    · rw [hd.seat_of_ne hsub]
      exact (hd.quiet_of_other hx.holds hx.seats fun hsame => hsub hsame.2).seats
  · exact ⟨hx, .refl h, rfl⟩

namespace Alike

variable {x'' : Connection} {h'' : Hub}

theorem outlet_eq (h₁ : x.Alike h x' h' sub) : x'.session.outlet = x.session.outlet :=
  congrArg Line.outlet h₁.line

theorem symm (h₁ : x.Alike h x' h' sub) : x'.Alike h' x h sub := by
  refine ⟨h₁.line.symm, ?_⟩
  rw [h₁.outlet_eq]
  exact h₁.aspect.symm

theorem trans (h₁ : x.Alike h x' h' sub) (h₂ : x'.Alike h' x'' h'' sub) :
    x.Alike h x'' h'' sub := by
  have haspect := h₂.aspect
  rw [h₁.outlet_eq] at haspect
  exact ⟨h₂.line.trans h₁.line, haspect.trans h₁.aspect⟩

end Alike

/-- A request for another subscription comes. -/
theorem Seated.request_other (hx : x.Seated registry h sub) {r : Request}
    (hsub : r.subscription ≠ sub) :
    x.Alike h (Server.handleFrame registry x h (.ok (.request r))).1
      (Server.handleFrame registry x h (.ok (.request r))).2 sub := by
  obtain ⟨v, hd⟩ := hx.does_handle r
  obtain ⟨houtlet, hlimit, hfind⟩ := hd.find?_of_ne
  have hname := congrArg (Option.map Subscription.name) (hfind sub hsub)
  refine ⟨Line.mk.injEq .. ▸ ⟨houtlet, rfl, hlimit, hname⟩, ?_⟩
  show (x.session.handle registry h r).2.aspect x.session.outlet sub
    ((x.session.handle registry h r).1.seat sub) = _
  rw [hd.seat_of_ne hsub]
  exact (hd.quiet_of_other hx.holds hx.seats fun hsame => hsub hsame.2).aspect_eq

/-- A request for the subscription comes on two connections that are alike: the verdict is the same,
and so is what comes of it. -/
theorem Alike.request (halike : x.Alike h x' h' sub) (hx : x.Seated registry h sub)
    (hx' : x'.Seated registry h' sub) {r : Request} (hsub : r.subscription = sub) :
    (Server.handleFrame registry x h (.ok (.request r))).1.Alike
      (Server.handleFrame registry x h (.ok (.request r))).2
      (Server.handleFrame registry x' h' (.ok (.request r))).1
      (Server.handleFrame registry x' h' (.ok (.request r))).2 sub := by
  subst hsub
  obtain ⟨houtlet, hstream, hlimit, hname⟩ := Line.mk.inj halike.line
  have hseats' : h'.Seats x.session.outlet r.subscription (x'.session.seat r.subscription) :=
    houtlet ▸ hx'.seats
  obtain ⟨v, hd, hd'⟩ := Session.does_handle ⟨hlimit, hname, congrArg (·.outputs) halike.aspect⟩
    hx.outputs hx'.outputs
  obtain ⟨hout, hlim, -⟩ := hd.find?_of_ne
  obtain ⟨hout', hlim', -⟩ := hd'.find?_of_ne
  refine ⟨Line.mk.injEq .. ▸ ⟨hout'.trans (houtlet.trans hout.symm), hstream,
    hlim'.trans (hlimit.trans hlim.symm), hd.name_congr hd' hname⟩, ?_⟩
  show (x'.session.handle registry h' r).2.aspect (x.session.handle registry h r).1.outlet
    r.subscription ((x'.session.handle registry h' r).1.seat r.subscription) =
    (x.session.handle registry h r).2.aspect (x.session.handle registry h r).1.outlet
    r.subscription ((x.session.handle registry h r).1.seat r.subscription)
  rw [hout]
  exact hd.congr hd' hx.holds hx'.holds hx.seats hseats' houtlet halike.aspect

/-- The same frame leaves connections alike that were so. -/
theorem Alike.handleFrame (halike : x.Alike h x' h' sub) (hx : x.Seated registry h sub)
    (hx' : x'.Seated registry h' sub) (result : Except Error Frame) :
    (Server.handleFrame registry x h result).1.Alike (Server.handleFrame registry x h result).2
      (Server.handleFrame registry x' h' result).1 (Server.handleFrame registry x' h' result).2
      sub := by
  rcases result with e | r | r
  · rw [Server.handleFrame, Server.handleFrame]
    split
    · exact halike
    · refine ⟨halike.line, ?_⟩
      rw [hx.outlet, hx'.outlet, halike.outlet_eq]
      exact Hub.aspect_emit_congr hx.seats (halike.outlet_eq ▸ hx'.seats) halike.aspect _ _
  · by_cases hsub : r.subscription = sub
    · exact halike.request hx hx' hsub
    -- each of the two stays like itself, so they stay like each other
    · exact (hx.request_other hsub).symm.trans (halike.trans (hx'.request_other hsub))
  · exact halike

theorem Seated.foldl_handleFrame (hx : x.Seated registry h sub)
    (results : List (Except Error Frame)) :
    let y := results.foldl (fun (x, h) result => Server.handleFrame registry x h result) (x, h)
    y.1.Seated registry y.2 sub ∧ h.Keeps y.2 ∧ y.1.session.outlet = x.session.outlet := by
  induction results generalizing x h with
  | nil => exact ⟨hx, .refl h, rfl⟩
  | cons result results ih =>
      obtain ⟨hseated, hkeeps, houtlet⟩ := hx.handleFrame result
      obtain ⟨hseated', hkeeps', houtlet'⟩ := ih hseated
      exact ⟨hseated', hkeeps.trans hkeeps', houtlet'.trans houtlet⟩

theorem Alike.foldl_handleFrame (halike : x.Alike h x' h' sub) (hx : x.Seated registry h sub)
    (hx' : x'.Seated registry h' sub) (results : List (Except Error Frame)) :
    let y := results.foldl (fun (x, h) result => Server.handleFrame registry x h result) (x, h)
    let y' := results.foldl (fun (x, h) result => Server.handleFrame registry x h result) (x', h')
    y.1.Alike y.2 y'.1 y'.2 sub := by
  induction results generalizing x h x' h' with
  | nil => exact halike
  | cons result results ih =>
      exact ih (halike.handleFrame hx hx' result) (hx.handleFrame result).1
        (hx'.handleFrame result).1

theorem Tended.with_stream (hx : x.Tended registry h) (stream : Wire.Stream) :
    ({ x with stream := stream } : Connection).Tended registry h :=
  ⟨hx.holds, hx.outlet, hx.outputs⟩

theorem Seated.with_stream (hx : x.Seated registry h sub) (stream : Wire.Stream) :
    ({ x with stream := stream } : Connection).Seated registry h sub :=
  ⟨hx.toTended.with_stream stream, hx.seats⟩

theorem Alike.with_stream (halike : x.Alike h x' h' sub) (stream : Wire.Stream) :
    ({ x with stream := stream } : Connection).Alike h { x' with stream := stream } h' sub :=
  ⟨congrArg (fun l : Line => { l with stream := stream }) halike.line, halike.aspect⟩

end Connection

/-! ### Servers -/

namespace Server

def serve (s : Server) (h : Hub) (id : UInt64) (x : Connection)
    (results : List (Except Error Frame)) : Server × Hub :=
  let y := results.foldl (fun (x, h) result => handleFrame s.registry x h result) (x, h)
  ({ s with connections := s.connections.insert id y.1 }, y.2)

inductive Event
  | act (table : Nat) (a : Act)
  | fire (table : Nat)
  | command (c : Command)
  /-- A request has come in whole on a connection. -/
  | request (connection : UInt64) (r : Request)
  /-- The receiving end of an outlet is dropped. -/
  | hangUp (outlet : OutletId)

def step (s : Server) (h : Hub) : Event → Server × Hub
  | .act k a => (s, h.deed k (.act a))
  | .fire k => (s, h.fire k)
  | .command c => s.apply h c
  | .request id r =>
    match s.connections.find? id with
    | none => (s, h)
    | some x => s.serve h id x [.ok (.request r)]
  | .hangUp out => (s, h.closeOutlet out)

def run (s : Server) (h : Hub) (es : List Event) : Server × Hub :=
  es.foldl (fun x e => x.1.step x.2 e) (s, h)

theorem serve_cons (s : Server) (h : Hub) (id : UInt64) (x : Connection) (result : Except Error Frame)
    (results : List (Except Error Frame)) :
    s.serve h id x (result :: results) =
      let y := s.serve h id x [result]
      y.1.serve y.2 id (handleFrame s.registry x h result).1 results := by
  simp only [serve, List.foldl_cons, List.foldl_nil, AscMap.insert_insert]

/-- A connection handles requests one after the other. -/
theorem serve_requests {s : Server} {h : Hub} {id : UInt64} {x : Connection}
    (hx : s.connections.find? id = some x) (rs : List Request) :
    s.serve h id x (rs.map fun r => .ok (.request r)) = s.run h (rs.map (.request id)) := by
  induction rs generalizing s h x with
  | nil =>
      show ({ s with connections := s.connections.insert id x }, h) = (s, h)
      rw [AscMap.insert_of_find? hx]
  | cons r rs ih =>
      have hstep : s.step h (.request id r) = s.serve h id x [.ok (.request r)] := by
        simp only [step, hx]
      rw [List.map_cons, List.map_cons, run, List.foldl_cons, hstep, serve_cons]
      exact ih (AscMap.find?_insert.trans (if_pos rfl))

/-- Whether an event is about the tables, about connection `c` as a whole, or about subscription
`sub` on it. -/
def Event.concerns (c : UInt64) (sub : Int32) : Event → Bool
  | .act .. | .fire _ => true
  | .command (.open id _) | .command (.receive id _) | .command (.close id) => id = c
  | .request id r => id = c ∧ r.subscription = sub
  | .hangUp _ => false

/-- Of all connections, `c` and no other one sends to outlet `o`, whose receiving end stays. -/
def Event.Routes (c : UInt64) (o : OutletId) : Event → Prop
  | .command (.open id out) => out = o ↔ id = c
  | .hangUp out => out ≠ o
  | _ => True

variable {s s' : Server} {h h' g : Hub} {c id : UInt64} {o : OutletId} {sub : Int32}
  {x : Connection}

def seat (s : Server) (c : UInt64) (sub : Int32) : Option (OutputId × InputId) :=
  (s.connections.find? c).bind fun x => x.session.seat sub

structure Sound (s : Server) (h : Hub) (c : UInt64) (o : OutletId) (sub : Int32) : Prop where
  seats : h.Seats o sub (s.seat c sub)
  outputs : s.registry.OfTables h
  tended : ∀ id x, s.connections.find? id = some x →
    x.Tended s.registry h ∧ (x.session.outlet = o ↔ id = c)

structure View where
  registry : Registry
  config : ServerConfig
  aspect : Hub.Aspect
  line : Option Connection.Line

def view (s : Server) (h : Hub) (c : UInt64) (o : OutletId) (sub : Int32) : View :=
  { registry := s.registry
    config := s.config
    aspect := h.aspect o sub (s.seat c sub)
    line := (s.connections.find? c).map (·.line sub) }

structure Puts (s : Server) (id : UInt64) (x? : Option Connection) (s' : Server) : Prop where
  registry : s'.registry = s.registry
  config : s'.config = s.config
  find : ∀ j, s'.connections.find? j = if id = j then x? else s.connections.find? j

theorem puts_insert (s : Server) (id : UInt64) (x : Connection) :
    s.Puts id (some x) { s with connections := s.connections.insert id x } :=
  ⟨rfl, rfl, fun _ => AscMap.find?_insert⟩

theorem puts_erase (s : Server) (id : UInt64) :
    s.Puts id none { s with connections := s.connections.erase id } :=
  ⟨rfl, rfl, fun _ => AscMap.find?_erase⟩

section Puts

variable {x? : Option Connection}

theorem Puts.seat_of_ne (hput : s.Puts id x? s') (hne : id ≠ c) : s'.seat c sub = s.seat c sub := by
  rw [seat, seat, hput.find, if_neg hne]

theorem Puts.seat_self (hput : s.Puts c x? s') :
    s'.seat c sub = x?.bind fun x => x.session.seat sub := by
  rw [seat, hput.find, if_pos rfl]

theorem Puts.view_self (hput : s.Puts c x? s') :
    s'.view g c o sub = ⟨s.registry, s.config, g.aspect o sub (x?.bind fun x => x.session.seat sub),
      x?.map (·.line sub)⟩ := by
  rw [view, hput.registry, hput.config, hput.seat_self, hput.find, if_pos rfl]

/-- Only the hub has changed. -/
theorem Sound.hub (hs : s.Sound h c o sub) (hkeeps : h.Keeps g) (hseats : g.Seats o sub (s.seat c sub)) :
    s.Sound g c o sub :=
  ⟨hseats, hs.outputs.of_keeps hkeeps, fun id x hx =>
    ⟨(hs.tended id x hx).1.of_keeps hkeeps, (hs.tended id x hx).2⟩⟩

/-- Another connection has changed. -/
theorem Sound.put_other (hs : s.Sound h c o sub) (hput : s.Puts id x? s') (hne : id ≠ c)
    (hquiet : Hub.Quiet o sub h (s.seat c sub) g (s.seat c sub))
    (hx : ∀ x, x? = some x → x.Tended s.registry g ∧ x.session.outlet ≠ o) :
    s'.Sound g c o sub ∧ s'.view g c o sub = s.view h c o sub := by
  refine ⟨⟨?_, ?_, fun j x hj => ?_⟩, ?_⟩
  · rw [hput.seat_of_ne hne]
    exact hquiet.seats
  · rw [hput.registry]
    exact hs.outputs.of_keeps hquiet.keeps
  · rw [hput.find] at hj
    rw [hput.registry]
    split at hj
    next hid =>
      obtain ⟨htended, ho⟩ := hx x hj
      exact ⟨htended, fun heq => absurd heq ho, fun heq => absurd (hid.trans heq) hne⟩
    next =>
      obtain ⟨htended, ho⟩ := hs.tended j x hj
      exact ⟨htended.of_keeps hquiet.keeps, ho⟩
  · rw [view, view, hput.registry, hput.config, hput.seat_of_ne hne, hquiet.aspect_eq, hput.find,
      if_neg hne]

/-- The connection itself has changed. -/
theorem Sound.put_own (hs : s.Sound h c o sub) (hput : s.Puts c x? s') (hkeeps : h.Keeps g)
    (hseats : g.Seats o sub (x?.bind fun x => x.session.seat sub))
    (hx : ∀ x, x? = some x → x.Tended s.registry g ∧ x.session.outlet = o) :
    s'.Sound g c o sub := by
  refine ⟨?_, ?_, fun j x hj => ?_⟩
  · rw [hput.seat_self]
    exact hseats
  · rw [hput.registry]
    exact hs.outputs.of_keeps hkeeps
  · rw [hput.find] at hj
    rw [hput.registry]
    split at hj
    next hid =>
      obtain ⟨htended, ho⟩ := hx x hj
      exact ⟨htended, fun _ => hid.symm, fun _ => ho⟩
    next =>
      obtain ⟨htended, ho⟩ := hs.tended j x hj
      exact ⟨htended.of_keeps hkeeps, ho⟩

end Puts

/-! ### Opening and closing -/

def closing (s : Server) (h : Hub) (id : UInt64) : Hub :=
  match s.connections.find? id with
  | some x => (x.session.close h).2
  | none => h

theorem Sound.closing_other (hs : s.Sound h c o sub) (hne : id ≠ c) :
    Hub.Quiet o sub h (s.seat c sub) (s.closing h id) (s.seat c sub) := by
  cases hx : s.connections.find? id with
  | none =>
      simp only [closing, hx]
      exact .refl hs.seats
  | some x =>
      simp only [closing, hx]
      obtain ⟨htended, ho⟩ := hs.tended id x hx
      exact htended.holds.quiet_close_other hs.seats fun heq => hne (ho.mp heq)

theorem Sound.closing_own (hs : s.Sound h c o sub) :
    Hub.Quiet o sub h (s.seat c sub) (s.closing h c) none := by
  have hseats := hs.seats
  cases hx : s.connections.find? c with
  | none =>
      simp only [closing, seat, hx, Option.bind_none] at hseats ⊢
      exact .refl hseats
  | some x =>
      simp only [closing, seat, hx, Option.bind_some] at hseats ⊢
      exact (hs.tended c x hx).1.holds.quiet_close_own hseats

/-- What there is to see when the connection has no subscriptions left goes by what there was to
see. -/
theorem aspect_closing (hs : s.Sound h c o sub) (hs' : s'.Sound h' c o sub)
    (hview : s'.view h' c o sub = s.view h c o sub) :
    (s'.closing h' c).aspect o sub none = (s.closing h c).aspect o sub none := by
  have haspect : h'.aspect o sub (s'.seat c sub) = h.aspect o sub (s.seat c sub) :=
    congrArg View.aspect hview
  rw [hs.closing_own.aspect_none, hs'.closing_own.aspect_none, haspect]

def opened (s : Server) (id : UInt64) (out : OutletId) : Connection :=
  { session := { connection := id, outlet := out, limit := s.config.frameLimit }
    stream := { limit := s.config.frameLimit }
    outlet := out }

theorem openConnection_eq (s : Server) (h : Hub) (id : UInt64) (out : OutletId) :
    s.openConnection h id out =
      ({ s with connections := s.connections.insert id (s.opened id out) }, s.closing h id) := rfl

theorem tended_opened (hs : s.registry.OfTables g) (id : UInt64) (out : OutletId) :
    (s.opened id out).Tended s.registry g :=
  ⟨fun _ _ hu => (by cases hu), rfl, hs⟩

theorem close_puts (s : Server) (h : Hub) (id : UInt64) :
    s.Puts id none (s.apply h (.close id)).1 ∧ (s.apply h (.close id)).2 = s.closing h id := by
  cases hx : s.connections.find? id with
  | none =>
      simp only [apply, close, closing, hx, and_true]
      refine ⟨rfl, rfl, fun j => ?_⟩
      split
      · next hid => rw [← hid, hx]
      · rfl
  | some x =>
      simp only [apply, close, closing, hx, and_true]
      exact s.puts_erase id

theorem Sound.close_other (hs : s.Sound h c o sub) (hne : id ≠ c) :
    (s.apply h (.close id)).1.Sound (s.apply h (.close id)).2 c o sub ∧
      (s.apply h (.close id)).1.view (s.apply h (.close id)).2 c o sub = s.view h c o sub := by
  obtain ⟨hput, hhub⟩ := s.close_puts h id
  rw [hhub]
  exact hs.put_other hput hne (hs.closing_other hne) nofun

theorem Sound.close_own (hs : s.Sound h c o sub) :
    (s.apply h (.close c)).1.Sound (s.apply h (.close c)).2 c o sub := by
  obtain ⟨hput, hhub⟩ := s.close_puts h c
  rw [hhub]
  exact hs.put_own hput hs.closing_own.keeps hs.closing_own.seats nofun

theorem close_congr (hs : s.Sound h c o sub) (hs' : s'.Sound h' c o sub)
    (hview : s'.view h' c o sub = s.view h c o sub) :
    (s'.apply h' (.close c)).1.view (s'.apply h' (.close c)).2 c o sub =
      (s.apply h (.close c)).1.view (s.apply h (.close c)).2 c o sub := by
  obtain ⟨hput, hhub⟩ := s.close_puts h c
  obtain ⟨hput', hhub'⟩ := s'.close_puts h' c
  obtain ⟨hregistry, hconfig, -, -⟩ := View.mk.inj hview
  have haspect := aspect_closing hs hs' hview
  rw [hhub, hhub', hput.view_self, hput'.view_self, hregistry, hconfig]
  simp only [Option.bind_none, Option.map_none, haspect]

theorem Sound.open_other (hs : s.Sound h c o sub) (hne : id ≠ c) {out : OutletId} (hout : out ≠ o) :
    (s.apply h (.open id out)).1.Sound (s.apply h (.open id out)).2 c o sub ∧
      (s.apply h (.open id out)).1.view (s.apply h (.open id out)).2 c o sub = s.view h c o sub := by
  have hquiet := hs.closing_other hne
  rw [apply, openConnection_eq]
  refine hs.put_other (s.puts_insert id _) hne hquiet fun x hx => ?_
  cases hx
  exact ⟨tended_opened (hs.outputs.of_keeps hquiet.keeps) id out, hout⟩

theorem Sound.open_own (hs : s.Sound h c o sub) :
    (s.apply h (.open c o)).1.Sound (s.apply h (.open c o)).2 c o sub := by
  have hquiet := hs.closing_own
  rw [apply, openConnection_eq]
  refine hs.put_own (s.puts_insert c _) hquiet.keeps hquiet.seats fun x hx => ?_
  cases hx
  exact ⟨tended_opened (hs.outputs.of_keeps hquiet.keeps) c o, rfl⟩

theorem open_congr (hs : s.Sound h c o sub) (hs' : s'.Sound h' c o sub)
    (hview : s'.view h' c o sub = s.view h c o sub) :
    (s'.apply h' (.open c o)).1.view (s'.apply h' (.open c o)).2 c o sub =
      (s.apply h (.open c o)).1.view (s.apply h (.open c o)).2 c o sub := by
  obtain ⟨hregistry, hconfig, -, -⟩ := View.mk.inj hview
  have haspect := aspect_closing hs hs' hview
  have hopened : s'.opened c o = s.opened c o := by rw [opened, opened, hconfig]
  rw [apply, apply, openConnection_eq, openConnection_eq, (puts_insert ..).view_self,
    (puts_insert ..).view_self, hregistry, hconfig, hopened]
  exact congrArg (fun a => View.mk _ _ a _) haspect

/-! ### Frames -/

/-- Frames come on another connection. -/
theorem Sound.serve_other (hs : s.Sound h c o sub) (hne : id ≠ c) (hx : x.Tended s.registry h)
    (hout : x.session.outlet ≠ o) (results : List (Except Error Frame)) :
    (s.serve h id x results).1.Sound (s.serve h id x results).2 c o sub ∧
      (s.serve h id x results).1.view (s.serve h id x results).2 c o sub = s.view h c o sub := by
  obtain ⟨hquiet, htended, hout'⟩ := hx.frames_other hs.seats hout results
  refine hs.put_other (s.puts_insert id _) hne hquiet fun x hx => ?_
  cases hx
  exact ⟨htended, hout'⟩

theorem Sound.serve_own (hs : s.Sound h c o sub) (hx : x.Seated s.registry h sub)
    (hout : x.session.outlet = o) (results : List (Except Error Frame)) :
    (s.serve h c x results).1.Sound (s.serve h c x results).2 c o sub := by
  subst hout
  obtain ⟨hseated, hkeeps, hout⟩ := hx.foldl_handleFrame results
  refine hs.put_own (s.puts_insert c _) hkeeps (hout ▸ hseated.seats) fun x hx => ?_
  cases hx
  exact ⟨hseated.toTended, hout⟩

theorem serve_congr (hregistry : s'.registry = s.registry) (hconfig : s'.config = s.config)
    {x' : Connection} (hx : x.Seated s.registry h sub) (hx' : x'.Seated s.registry h' sub)
    (hout : x.session.outlet = o) (halike : x.Alike h x' h' sub)
    (results : List (Except Error Frame)) :
    (s'.serve h' c x' results).1.view (s'.serve h' c x' results).2 c o sub =
      (s.serve h c x results).1.view (s.serve h c x results).2 c o sub := by
  obtain ⟨-, -, hout'⟩ := hx.foldl_handleFrame results
  obtain ⟨hline, haspect⟩ := halike.foldl_handleFrame hx hx' results
  rw [hout', hout] at haspect
  rw [serve, serve, (puts_insert ..).view_self, (puts_insert ..).view_self, hregistry, hconfig]
  simp only [Option.bind_some, Option.map_some, hline, haspect]

/-- The connection as it is found at the server. -/
theorem Sound.seated (hs : s.Sound h c o sub) (hx : s.connections.find? c = some x) :
    x.Seated s.registry h sub ∧ x.session.outlet = o := by
  obtain ⟨htended, ho⟩ := hs.tended c x hx
  have hout := ho.mpr rfl
  have hseats := hs.seats
  rw [seat, hx, Option.bind_some, ← hout] at hseats
  exact ⟨⟨htended, hseats⟩, hout⟩

theorem view_of_find? (hx : s.connections.find? c = some x) :
    s.view h c o sub =
      ⟨s.registry, s.config, h.aspect o sub (x.session.seat sub), some (x.line sub)⟩ := by
  rw [view, seat, hx]
  rfl

theorem find?_of_view (hview : s'.view h' c o sub = s.view h c o sub)
    (hx : s.connections.find? c = none) : s'.connections.find? c = none := by
  have hline : (s'.connections.find? c).map (·.line sub) = (s.connections.find? c).map (·.line sub) :=
    congrArg View.line hview
  rw [hx] at hline
  exact Option.map_eq_none_iff.mp hline

theorem alike_of_view (hview : s'.view h' c o sub = s.view h c o sub)
    (hx : s.connections.find? c = some x) (hout : x.session.outlet = o) :
    ∃ x', s'.connections.find? c = some x' ∧ x.Alike h x' h' sub := by
  have hline : (s'.connections.find? c).map (·.line sub) = (s.connections.find? c).map (·.line sub) :=
    congrArg View.line hview
  have haspect : h'.aspect o sub (s'.seat c sub) = h.aspect o sub (s.seat c sub) :=
    congrArg View.aspect hview
  rw [hx] at hline
  obtain ⟨x', hx', hline'⟩ := Option.map_eq_some_iff.mp hline
  rw [seat, seat, hx, hx', Option.bind_some, Option.bind_some, ← hout] at haspect
  exact ⟨x', hx', hline', haspect⟩

theorem receive_eq (hx : s.connections.find? id = some x) (bytes : Bytes) :
    s.receive h id bytes =
      let cut := (x.stream.push bytes).drain
      let y := s.serve h id { x with stream := cut.1 } cut.2
      if endsFatally cut.2 then y.1.apply y.2 (.close id) else y := by
  simp only [receive, hx]
  rfl

/-- A piece of a stream has the requests that it completes handled one after the other. -/
theorem receive_requests (hx : s.connections.find? id = some x) {bytes : Bytes} {stream : Wire.Stream}
    {rs : List Request}
    (hcut : (x.stream.push bytes).drain = (stream, rs.map fun r => .ok (.request r))) :
    s.receive h id bytes =
      ({ s with connections := s.connections.insert id { x with stream := stream } } : Server).run h
        (rs.map (.request id)) := by
  rw [receive_eq hx, hcut]
  dsimp only
  rw [endsFatally_requests, if_neg Bool.false_ne_true,
    ← serve_requests (AscMap.find?_insert.trans (if_pos rfl))]
  simp only [serve, AscMap.insert_insert]

theorem Sound.receive_other (hs : s.Sound h c o sub) (hne : id ≠ c) (bytes : Bytes) :
    (s.receive h id bytes).1.Sound (s.receive h id bytes).2 c o sub ∧
      (s.receive h id bytes).1.view (s.receive h id bytes).2 c o sub = s.view h c o sub := by
  cases hx : s.connections.find? id with
  | none =>
      simp only [receive, hx]
      exact ⟨hs, trivial⟩
  | some x =>
      obtain ⟨htended, ho⟩ := hs.tended id x hx
      rw [receive_eq hx]
      dsimp only
      obtain ⟨hserved, hview⟩ := hs.serve_other hne
        (htended.with_stream (x.stream.push bytes).drain.1)
        (fun heq => hne (ho.mp heq)) (x.stream.push bytes).drain.2
      split
      · obtain ⟨hclosed, hview'⟩ := hserved.close_other hne
        exact ⟨hclosed, hview'.trans hview⟩
      · exact ⟨hserved, hview⟩

theorem Sound.receive_own (hs : s.Sound h c o sub) (bytes : Bytes) :
    (s.receive h c bytes).1.Sound (s.receive h c bytes).2 c o sub := by
  cases hx : s.connections.find? c with
  | none =>
      simp only [receive, hx]
      exact hs
  | some x =>
      obtain ⟨hseated, hout⟩ := hs.seated hx
      rw [receive_eq hx]
      dsimp only
      have hserved := hs.serve_own (hseated.with_stream (x.stream.push bytes).drain.1) hout
        (x.stream.push bytes).drain.2
      split
      · exact hserved.close_own
      · exact hserved

theorem receive_congr (hs : s.Sound h c o sub) (hs' : s'.Sound h' c o sub)
    (hview : s'.view h' c o sub = s.view h c o sub) (bytes : Bytes) :
    (s'.receive h' c bytes).1.view (s'.receive h' c bytes).2 c o sub =
      (s.receive h c bytes).1.view (s.receive h c bytes).2 c o sub := by
  obtain ⟨hregistry, hconfig, -, -⟩ := View.mk.inj hview
  cases hx : s.connections.find? c with
  | none =>
      simp only [receive, hx, find?_of_view hview hx]
      exact hview
  | some x =>
      obtain ⟨hseated, hout⟩ := hs.seated hx
      obtain ⟨x', hx', halike⟩ := alike_of_view hview hx hout
      obtain ⟨hseated', hout'⟩ := hs'.seated hx'
      have hstream : x'.stream = x.stream := congrArg (·.stream) halike.line
      rw [receive_eq hx, receive_eq hx', hstream]
      dsimp only
      have hcut := hseated.with_stream (x.stream.push bytes).drain.1
      have hcut' := hseated'.with_stream (x.stream.push bytes).drain.1
      have hserved := hs.serve_own hcut hout (x.stream.push bytes).drain.2
      have hserved' := hs'.serve_own hcut' hout' (x.stream.push bytes).drain.2
      rw [hregistry] at hcut'
      have hview' := serve_congr (c := c) hregistry hconfig hcut hcut' hout (halike.with_stream _)
        (x.stream.push bytes).drain.2
      -- both have cut the same frames, so both are closed after them or neither is
      split
      · exact close_congr hserved hserved' hview'
      · exact hview'

/-! ### Steps -/

theorem Sound.step_other (hs : s.Sound h c o sub) {e : Event} (he : e.Routes c o)
    (hother : e.concerns c sub = false) :
    (s.step h e).1.Sound (s.step h e).2 c o sub ∧
      (s.step h e).1.view (s.step h e).2 c o sub = s.view h c o sub := by
  cases e with
  | act k a => cases hother
  | fire k => cases hother
  | command cmd =>
      cases cmd with
      | «open» id out =>
          have hne : id ≠ c := of_decide_eq_false hother
          exact hs.open_other hne fun hout => hne (he.mp hout)
      | receive id bytes => exact hs.receive_other (of_decide_eq_false hother) bytes
      | close id => exact hs.close_other (of_decide_eq_false hother)
  | request id r =>
      have hother' : ¬(id = c ∧ r.subscription = sub) := of_decide_eq_false hother
      cases hx : s.connections.find? id with
      | none =>
          simp only [step, hx]
          exact ⟨hs, trivial⟩
      | some x =>
          simp only [step, hx]
          obtain ⟨htended, ho⟩ := hs.tended id x hx
          by_cases hid : id = c
          -- the connection changes, but not in what the subscription sees of it
          · subst hid
            obtain ⟨hseated, hout⟩ := hs.seated hx
            refine ⟨hs.serve_own hseated hout _, ?_⟩
            obtain ⟨hline, haspect⟩ := hseated.request_other fun hsub => hother' ⟨rfl, hsub⟩
            rw [hout] at haspect
            rw [serve, (puts_insert ..).view_self, view_of_find? hx]
            simp only [List.foldl_cons, List.foldl_nil, Option.bind_some, Option.map_some, hline,
              haspect]
          · exact hs.serve_other hid htended (fun heq => hid (ho.mp heq)) _
  | hangUp out =>
      have hquiet := hs.seats.quiet_closeOutlet he
      refine ⟨hs.hub hquiet.keeps hquiet.seats, ?_⟩
      simp only [step, view, hquiet.aspect_eq]

theorem Sound.step_own (hs : s.Sound h c o sub) {e : Event} (he : e.Routes c o)
    (hown : e.concerns c sub = true) : (s.step h e).1.Sound (s.step h e).2 c o sub := by
  cases e with
  | act k a => exact hs.hub (Hub.keeps_act h k a) (hs.seats.act k a)
  | fire k => exact hs.hub (Hub.keeps_fire h k) (hs.seats.fire k)
  | command cmd =>
      cases cmd with
      | «open» id out =>
          obtain rfl : id = c := of_decide_eq_true hown
          obtain rfl : out = o := he.mpr rfl
          exact hs.open_own
      | receive id bytes =>
          obtain rfl : id = c := of_decide_eq_true hown
          exact hs.receive_own bytes
      | close id =>
          obtain rfl : id = c := of_decide_eq_true hown
          exact hs.close_own
  | request id r =>
      obtain ⟨rfl, hsub⟩ : id = c ∧ r.subscription = sub := of_decide_eq_true hown
      cases hx : s.connections.find? id with
      | none =>
          simp only [step, hx]
          exact hs
      | some x =>
          simp only [step, hx]
          obtain ⟨hseated, hout⟩ := hs.seated hx
          exact hs.serve_own hseated hout _
  | hangUp out => cases hown

theorem step_congr (hs : s.Sound h c o sub) (hs' : s'.Sound h' c o sub)
    (hview : s'.view h' c o sub = s.view h c o sub) {e : Event} (he : e.Routes c o)
    (hown : e.concerns c sub = true) :
    (s'.step h' e).1.view (s'.step h' e).2 c o sub = (s.step h e).1.view (s.step h e).2 c o sub := by
  obtain ⟨hregistry, hconfig, haspect, hline⟩ := View.mk.inj hview
  cases e with
  | act k a => exact View.mk.injEq .. ▸ ⟨hregistry, hconfig, Hub.aspect_act_congr haspect k a, hline⟩
  | fire k =>
      exact View.mk.injEq .. ▸
        ⟨hregistry, hconfig, Hub.aspect_fire_congr hs.seats hs'.seats haspect k, hline⟩
  | command cmd =>
      cases cmd with
      | «open» id out =>
          obtain rfl : id = c := of_decide_eq_true hown
          obtain rfl : out = o := he.mpr rfl
          exact open_congr hs hs' hview
      | receive id bytes =>
          obtain rfl : id = c := of_decide_eq_true hown
          exact receive_congr hs hs' hview bytes
      | close id =>
          obtain rfl : id = c := of_decide_eq_true hown
          exact close_congr hs hs' hview
  | request id r =>
      obtain ⟨rfl, hsub⟩ : id = c ∧ r.subscription = sub := of_decide_eq_true hown
      cases hx : s.connections.find? id with
      | none =>
          simp only [step, hx, find?_of_view hview hx]
          exact hview
      | some x =>
          obtain ⟨hseated, hout⟩ := hs.seated hx
          obtain ⟨x', hx', halike⟩ := alike_of_view hview hx hout
          simp only [step, hx, hx']
          exact serve_congr hregistry hconfig hseated (hregistry ▸ (hs'.seated hx').1) hout halike _
  | hangUp out => cases hown

/-! ### Runs -/

/-- Events that concern neither the tables nor the subscription can be left out. -/
theorem run_view (hs : s.Sound h c o sub) (hs' : s'.Sound h' c o sub)
    (hview : s'.view h' c o sub = s.view h c o sub) {es : List Event}
    (hes : ∀ e ∈ es, e.Routes c o) :
    (s'.run h' (es.filter (·.concerns c sub))).1.view (s'.run h' (es.filter (·.concerns c sub))).2
      c o sub = (s.run h es).1.view (s.run h es).2 c o sub := by
  induction es generalizing s h s' h' with
  | nil => exact hview
  | cons e es ih =>
      have he := hes e List.mem_cons_self
      have hrest : ∀ e ∈ es, e.Routes c o := fun e' he' => hes e' (List.mem_cons_of_mem e he')
      cases hown : e.concerns c sub with
      | true =>
          rw [List.filter_cons_of_pos hown]
          exact ih (hs.step_own he hown) (hs'.step_own he hown) (step_congr hs hs' hview he hown) hrest
      | false =>
          -- the run without the event waits
          rw [List.filter_cons_of_neg (Bool.eq_false_iff.mp hown)]
          obtain ⟨hnext, hsame⟩ := hs.step_other he hown
          exact ih hnext hs' (hview.trans hsame.symm) hrest

end Server

theorem Server.sound_start {s : Server} {h : Hub} {c : UInt64} {o : OutletId} {sub : Int32}
    (hs : s.connections = ∅) (hregistry : s.registry.OfTables h) (hwired : h.Wired)
    (hopen : h.IsOpen o) (hvacant : h.Vacant o sub) : s.Sound h c o sub := by
  have hseat : s.seat c sub = none := by
    rw [seat, hs]
    rfl
  refine ⟨hseat ▸ hwired.seats_of_vacant hopen hvacant, hregistry, fun id x hx => ?_⟩
  rw [hs] at hx
  cases hx

/-- What is sent for a subscription goes by the tables, by its own requests and by what happens to
its connection as a whole, and by nothing else. -/
theorem Server.subscriptions_isolated {s : Server} {h : Hub} {c : UInt64} {o : OutletId}
    {sub : Int32} (hs : s.connections = ∅) (hregistry : s.registry.OfTables h) (hwired : h.Wired)
    (hopen : h.IsOpen o) (hvacant : h.Vacant o sub) {es es' : List Event}
    (hes : ∀ e ∈ es, e.Routes c o) (hes' : ∀ e ∈ es', e.Routes c o)
    (hsame : es.filter (·.concerns c sub) = es'.filter (·.concerns c sub)) :
    (s.run h es).2.sentFor o sub = (s.run h es').2.sentFor o sub := by
  have hsound : s.Sound h c o sub := sound_start hs hregistry hwired hopen hvacant
  have hview := run_view hsound hsound rfl hes
  have hview' := run_view hsound hsound rfl hes'
  rw [hsame] at hview
  exact congrArg (·.aspect.sent) (hview.symm.trans hview')

namespace Server

def undisturbed : List Event :=
  [.command (.open 1 0), .request 1 ⟨1, 7, .subscribe, some (.everything "T")⟩,
    .act 0 (.insert [⟨.name "a", ⟨.int32, 5⟩⟩]), .fire 0]

/-- Subscription 7 of connection 1 among others: connection 2 subscribes to the table first and is
closed in the end, and on connection 1 another subscription is granted, asked for again, and ended. -/
def amongOthers : List Event :=
  [.command (.open 2 1), .request 2 ⟨1, 7, .subscribe, some (.everything "T")⟩,
    .command (.open 1 0), .request 1 ⟨5, 3, .subscribe, some (.everything "T")⟩,
    .request 1 ⟨1, 7, .subscribe, some (.everything "T")⟩,
    .request 1 ⟨6, 3, .subscribe, some (.everything "T")⟩,
    .act 0 (.insert [⟨.name "a", ⟨.int32, 5⟩⟩]), .request 1 ⟨7, 3, .unsubscribe, none⟩,
    .fire 0, .command (.close 2), .hangUp 1]

theorem subscriptions_isolated_amongOthers :
    let schema : Schema := ⟨⟨"T", [⟨"a", .int32, {}⟩]⟩, by decide⟩
    let s : Server := { registry := { outputs := .ofList [("T", .table 0)] } }
    let h : Hub := { tables := [.plain (.create schema)], outlets := [{}, {}] }
    s.connections = ∅ ∧ s.registry.OfTables h ∧ h.Wired ∧ h.IsOpen 0 ∧ h.Vacant 0 7 ∧
      (∀ e ∈ undisturbed, e.Routes 1 0) ∧ (∀ e ∈ amongOthers, e.Routes 1 0) ∧
      undisturbed.filter (·.concerns 1 7) = amongOthers.filter (·.concerns 1 7) ∧
      (s.run h undisturbed).2.sentFor 0 7 = (s.run h amongOthers).2.sentFor 0 7 ∧
      ((s.run h amongOthers).2.sentFor 0 7).map (·.type) = [.message, .schema, .init, .add] ∧
      (s.run h amongOthers).2.sentTo 0 ≠ (s.run h amongOthers).2.sentFor 0 7 := by
  intro schema s h
  have hregistry : s.registry.OfTables h := by
    intro name out hout
    have hmem : (name, out) ∈ s.registry.outputs.toList := AscMap.find?_eq_some_iff.mp hout
    have hone : s.registry.outputs.toList = [("T", .table 0)] := by decide +kernel
    rw [hone, List.mem_singleton] at hmem
    cases hmem
    exact ⟨0, rfl, Nat.zero_lt_one⟩
  have hwired : h.Wired := by
    intro k t ht
    obtain ⟨hlt, rfl⟩ := List.getElem?_eq_some_iff.mp ht
    obtain rfl : k = 0 := Nat.lt_one_iff.mp hlt
    exact ⟨List.nodup_nil, fun i hi => by cases hi⟩
  have hopen : h.IsOpen 0 := ⟨{}, rfl, rfl⟩
  have hvacant : h.Vacant 0 7 := by
    rintro i ⟨x, hx, -⟩
    cases hx
  have hroutes : ∀ e ∈ undisturbed, e.Routes 1 0 := by
    simp [undisturbed, Event.Routes]
  have hroutes' : ∀ e ∈ amongOthers, e.Routes 1 0 := by
    simp [amongOthers, Event.Routes]
  have hsame : undisturbed.filter (·.concerns 1 7) = amongOthers.filter (·.concerns 1 7) := rfl
  exact ⟨rfl, hregistry, hwired, hopen, hvacant, hroutes, hroutes', hsame,
    subscriptions_isolated rfl hregistry hwired hopen hvacant hroutes hroutes' hsame,
    by decide +kernel, by decide +kernel⟩

end Server

end TableFeed
