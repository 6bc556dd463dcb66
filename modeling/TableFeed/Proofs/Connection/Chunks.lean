import Mathlib
import TableFeed.Proofs.Hub.Commuting
import TableFeed.Proofs.Server.Isolation
import TableFeed.Proofs.Wire.StreamSplitting
/-!
Bytes that come in one piece or in two. A stream that is read whenever something arrives gives the
same frames either way, and it ends up the same. So the ends of a connection do the same: what a
server or a client does with two pieces, one after the other, is what it does with both at once.
-/

namespace TableFeed.Wire

open TableFeed

/-- One whole frame that does not exceed the limit and does not hold a message. -/
structure Garbled (limit : Nat) (piece : Bytes) (fault : MessageFault) : Prop where
  least : 5 ≤ piece.length
  length : piece.length = ofLittleEndian (piece.take 4) + 4
  inside : piece.length ≤ limit + 4
  read : decodeFrame piece = .error (.malformedMessage fault)

namespace Stream

variable {s : Stream}

theorem push_append (s : Stream) (a b : Bytes) : s.push (a ++ b) = (s.push a).push b := by
  cases hs : s.poisoned with
  | true => rw [push_of_poisoned hs, push_of_poisoned hs, push_of_poisoned hs]
  | false =>
      have hs' : (s.push a).poisoned = false := by rw [push_of_sound hs]; exact hs
      rw [push_of_sound hs', push_of_sound hs, push_of_sound hs]
      simp

theorem poisoned_push (s : Stream) (bytes : Bytes) : (s.push bytes).poisoned = s.poisoned := by
  rw [push]
  split <;> rfl

/-- The next piece, once it has arrived as a whole. -/
theorem next_of_takes {s' : Stream} {result : Except Error Frame} {piece : Bytes}
    (hs : s.poisoned = false) (h : Takes s s' result piece) (hinside : piece.length ≤ s.limit + 4)
    (hresult : ∀ fault, result ≠ .error (.malformedFrame fault)) :
    s.next = (s', result.map some) := by
  obtain ⟨hbuffer, hleast, hlength, hread, hsame⟩ := h
  obtain ⟨a, b, c, d, code, body, rfl⟩ : ∃ a b c d code body,
      piece = a :: b :: c :: d :: code :: body := by
    rcases piece with _ | ⟨a, _ | ⟨b, _ | ⟨c, _ | ⟨d, _ | ⟨code, body⟩⟩⟩⟩⟩
    case cons.cons.cons.cons.cons => exact ⟨a, b, c, d, code, body, rfl⟩
    all_goals simp at hleast
  simp only [List.take_succ_cons, List.take_zero, List.length_cons] at hlength hinside
  have hn : ofLittleEndian [a, b, c, d] = body.length + 1 := by omega
  rw [decodeFrame_piece code hn] at hread
  have hwhole : ¬(code :: (body ++ s'.buffer)).length < body.length + 1 := by
    simp only [List.length_cons, List.length_append]
    omega
  rw [next, if_neg (by rw [hs]; exact Bool.false_ne_true), hbuffer]
  simp only [List.cons_append, hn]
  rw [if_neg (by omega), if_neg hwhole]
  cases hkind : FrameKind.ofCode? code with
  | none =>
      rw [hkind] at hread
      exact absurd hread.symm (hresult _)
  | some kind =>
      rw [hkind] at hread
      simp only [Nat.add_sub_cancel, List.take_left, List.drop_left]
      rw [← hread, hsame]

theorem next_of_stuck {fault : FrameFault} (hs : s.poisoned = false) (h : Stuck s fault) :
    s.next = ({ s with buffer := [], poisoned := true }, .error (.malformedFrame fault)) := by
  rw [next, if_neg (by rw [hs]; exact Bool.false_ne_true)]
  cases h with
  | length hbuffer houtside =>
      rw [hbuffer]
      dsimp only
      rw [if_pos houtside, poison]
  | kind hbuffer hinside hwhole hunknown =>
      rw [hbuffer]
      dsimp only
      rw [if_neg (by omega), if_neg (by rw [List.length_cons]; omega), hunknown]
      rfl

theorem Takes.push {s' : Stream} {result : Except Error Frame} {piece : Bytes}
    (hs : s.poisoned = false) (h : Takes s s' result piece) (bytes : Bytes) :
    Takes (s.push bytes) (s'.push bytes) result piece := by
  have hsame := h.same
  have hs' : s'.poisoned = false := by rw [hsame]; exact hs
  have hlimit : s'.limit = s.limit := by rw [hsame]
  rw [push_of_sound hs, push_of_sound hs']
  refine ⟨?_, h.least, h.length, h.read, ?_⟩
  · simp [h.buffer]
  · simp [hs, hs', hlimit]

theorem Stuck.push {fault : FrameFault} (hs : s.poisoned = false) (h : Stuck s fault)
    (bytes : Bytes) : Stuck (s.push bytes) fault := by
  rw [push_of_sound hs]
  cases h with
  | length hbuffer houtside => exact .length (by rw [hbuffer]; rfl) houtside
  | kind hbuffer hinside hwhole hunknown =>
      refine .kind (by rw [hbuffer]; rfl) hinside ?_ hunknown
      show _ ≤ (_ ++ bytes).length + 1
      rw [List.length_append]
      omega

theorem limit_push (s : Stream) (bytes : Bytes) : (s.push bytes).limit = s.limit := by
  rw [push]
  split <;> rfl

/-- A frame that has arrived is read the same when more has arrived behind it. -/
theorem next_push (hnext : s.next.2 ≠ .ok none) (bytes : Bytes) :
    (s.push bytes).next = (s.next.1.push bytes, s.next.2) := by
  cases hs : s.poisoned with
  | true => rw [push_of_poisoned hs, next_of_poisoned hs, push_of_poisoned hs]
  | false =>
      have hs' := (s.poisoned_push bytes).trans hs
      have h := reads_next hs
      generalize s.next.1 = s', s.next.2 = result at h hnext ⊢
      cases h with
      | short => exact absurd rfl hnext
      | frame htakes hinside =>
          rw [← s.limit_push bytes] at hinside
          exact next_of_takes hs' (htakes.push hs bytes) hinside nofun
      | fault htakes hinside =>
          rw [← s.limit_push bytes] at hinside
          exact next_of_takes hs' (htakes.push hs bytes) hinside nofun
      | stuck hstuck =>
          rw [next_of_stuck hs' (hstuck.push hs bytes), push_of_sound hs]
          rfl

/-- The stream and the results after one call, and after those that follow if it goes on. -/
theorem drain_eq (s : Stream) :
    s.drain = if goesOn s.next.2 then (s.next.1.drain.1, told s.next.2 ++ s.next.1.drain.2)
      else (s.next.1, told s.next.2) := by
  rw [drain]
  split
  next heq => simp [heq, goesOn, told]
  next heq => simp [heq, goesOn, told]
  next heq =>
    rw [heq]
    cases hfatal : Error.isFatal _ <;> simp [goesOn, told, hfatal]

theorem next_of_none (hnext : s.next.2 = .ok none) : s.next.1 = s := by
  cases hs : s.poisoned with
  | true => rw [next_of_poisoned hs]
  | false =>
      have h := reads_next hs
      revert h hnext
      generalize s.next.1 = s', s.next.2 = result
      rintro rfl ⟨⟩
      rfl

/-- A stream that fails for good is given up. -/
theorem poisoned_of_fatal {e : Error} (hnext : s.next.2 = .error e) (hfatal : e.isFatal = true) :
    s.next.1.poisoned = true := by
  cases hs : s.poisoned with
  | true =>
      rw [next_of_poisoned hs]
      exact hs
  | false =>
      have h := reads_next hs
      generalize s.next.1 = s', s.next.2 = result at h hnext ⊢
      subst hnext
      cases h with
      | fault => cases hfatal
      | stuck => rfl

theorem endsFatally_append (results results' : List (Except Error Frame)) :
    Server.endsFatally (results ++ results') =
      (Server.endsFatally results || Server.endsFatally results') :=
  List.any_append

/-- Nothing that is told while reading goes on is fatal. -/
theorem endsFatally_told {result : Except Error (Option Frame)} (hgoes : goesOn result = true) :
    Server.endsFatally (told result) = false := by
  rcases result with e | _ | f
  · simpa [goesOn, told, Server.endsFatally] using hgoes
  · rfl
  · rfl

/-- Reading that ends in a fault of the stream leaves it given up. -/
theorem poisoned_drain (hfatal : Server.endsFatally s.drain.2 = true) :
    s.drain.1.poisoned = true := by
  induction s using reading_ends with
  | on s hgoes ih =>
      rw [drain_eq, if_pos hgoes, endsFatally_append, endsFatally_told hgoes, Bool.false_or] at hfatal
      rw [drain_eq, if_pos hgoes]
      exact ih hfatal
  | stops s hstops =>
      rw [drain_eq, hstops, if_neg Bool.false_ne_true] at hfatal ⊢
      rcases hresult : s.next.2 with e | _ | f
      · refine poisoned_of_fatal hresult ?_
        simpa [hresult, told, Server.endsFatally] using hfatal
      · rw [hresult] at hfatal
        cases hfatal
      · rw [hresult] at hstops
        cases hstops

theorem drain_of_poisoned (hs : s.poisoned = true) : s.drain = (s, [lost]) := by
  rw [drain_eq, next_of_poisoned hs]
  rfl

/-- Bytes that arrive in two pieces give the frames that they give at once, unless the stream was
given up before the second. -/
theorem drain_push (s : Stream) (bytes : Bytes) :
    (s.push bytes).drain = if Server.endsFatally s.drain.2 then s.drain
      else ((s.drain.1.push bytes).drain.1, s.drain.2 ++ (s.drain.1.push bytes).drain.2) := by
  induction s using reading_ends with
  | on s hgoes ih =>
      -- what is read first does not change when more arrives behind it
      have hnext : s.next.2 ≠ .ok none := fun h => by simp [h, goesOn] at hgoes
      rw [drain_eq (s.push bytes), next_push hnext, drain_eq s, if_pos hgoes, if_pos hgoes, ih,
        endsFatally_append, endsFatally_told hgoes, Bool.false_or]
      split <;> simp
  | stops s hstops =>
      rcases hresult : s.next.2 with e | _ | f
      · -- the stream is given up, and what arrives is dropped
        have hfatal : e.isFatal = true := by simpa [hresult, goesOn] using hstops
        have hpush := push_of_poisoned (poisoned_of_fatal hresult hfatal) bytes
        have hnext := next_push (s := s) (by simp [hresult]) bytes
        rw [drain_eq (s.push bytes), drain_eq s, hnext, hpush]
        simp [hresult, goesOn, told, hfatal, Server.endsFatally]
      · -- the next frame is not whole yet
        rw [drain_eq s]
        simp [hresult, goesOn, told, next_of_none hresult, Server.endsFatally]
      · rw [hresult] at hstops
        cases hstops

/-- All that is read of a stream that is not given up is what its buffer says. -/
theorem drain_eq_cutFrames (hs : s.poisoned = false) : s.drain.2 = cutFrames s.limit s.buffer := by
  induction s using reading_ends with
  | stops s hstops =>
      rw [drain_eq, hstops, if_neg Bool.false_ne_true]
      exact (cutFrames_of_stops hs hstops).symm
  | on s hgoes ih =>
      have h := reads_next hs
      rw [drain_eq, if_pos hgoes]
      generalize s.next.1 = s', s.next.2 = result at h hgoes ih ⊢
      cases h with
      | short => cases hgoes
      | stuck => cases hgoes
      | frame htakes hinside | fault htakes hinside =>
          have hsame := htakes.same
          have hcut := cutFrames_of_takes htakes hinside nofun []
          rw [List.append_nil, List.append_nil] at hcut
          rw [hcut, ih (by rw [hsame]; exact hs), hsame]
          rfl

theorem endsFatally_iff {results : List (Except Error Frame)} :
    Server.endsFatally results = true ↔ ∃ fault, .error (.malformedFrame fault) ∈ results := by
  rw [Server.endsFatally, List.any_eq_true]
  constructor
  · rintro ⟨e | f, hmem, hfatal⟩
    · cases e with
      | malformedFrame fault => exact ⟨fault, hmem⟩
      | _ => cases hfatal
    · cases hfatal
  · rintro ⟨fault, hmem⟩
    exact ⟨_, hmem, rfl⟩

theorem next_of_garbled {piece rest : Bytes} {fault : MessageFault} (hs : s.poisoned = false)
    (hbad : Garbled s.limit piece fault) (hbuffer : s.buffer = piece ++ rest) :
    s.next = ({ s with buffer := rest }, .error (.malformedMessage fault)) :=
  next_of_takes hs ⟨hbuffer, hbad.least, hbad.length, hbad.read, rfl⟩ hbad.inside nofun

/-- A frame without a message is told of, and then reading goes on behind it. -/
theorem drain_of_garbled {a : Bytes} {fault : MessageFault} (hs : s.poisoned = false)
    (hbad : Garbled s.limit (s.buffer ++ a) fault) (b : Bytes) :
    (s.push (a ++ b)).drain =
      let rest := (({ s with buffer := [] } : Stream).push b).drain
      (rest.1, .error (.malformedMessage fault) :: rest.2) := by
  have hs' := (s.poisoned_push (a ++ b)).trans hs
  have hbuffer : (s.push (a ++ b)).buffer = (s.buffer ++ a) ++ b := by
    rw [push_of_sound hs, List.append_assoc]
  rw [← s.limit_push (a ++ b)] at hbad
  have hrest : ({ s.push (a ++ b) with buffer := b } : Stream) =
      ({ s with buffer := [] } : Stream).push b := by
    rw [push_of_sound hs, push_of_sound (s := { s with buffer := [] }) hs]
    rfl
  rw [drain_eq, next_of_garbled hs' hbad hbuffer, hrest]
  rfl

/-- Bytes that a stream is given up at, whatever follows. -/
theorem drain_of_lost {a : Bytes} {fault : FrameFault} (hs : s.poisoned = false)
    (hcut : cutFrames s.limit (s.buffer ++ a) = [.error (.malformedFrame fault)]) (b : Bytes) :
    (s.push (a ++ b)).drain.2 = [.error (.malformedFrame fault)] := by
  have hs' := (s.poisoned_push a).trans hs
  have hdrain : (s.push a).drain.2 = [.error (.malformedFrame fault)] := by
    rw [drain_eq_cutFrames hs', limit_push, push_of_sound hs, hcut]
  rw [push_append, drain_push, hdrain]
  exact hdrain

end Stream

end TableFeed.Wire

/-! ### Servers -/

namespace TableFeed.Server

open Wire Wire.Stream

variable {s : Server} {h : Hub} {id : UInt64} {x : Connection}

/-- What a connection does goes by its session; what has arrived since does not matter to it. -/
theorem handleFrame_stream (registry : Registry) (x : Connection) (h : Hub) (stream : Wire.Stream)
    (result : Except Error Frame) :
    handleFrame registry { x with stream := stream } h result =
      ({ (handleFrame registry x h result).1 with stream := stream },
        (handleFrame registry x h result).2) := by
  rcases result with e | r | r <;> rfl

def frames (registry : Registry) (x : Connection) (h : Hub) (results : List (Except Error Frame)) :
    Connection × Hub :=
  results.foldl (fun (x, h) result => handleFrame registry x h result) (x, h)

theorem frames_cons (registry : Registry) (x : Connection) (h : Hub) (result : Except Error Frame)
    (results : List (Except Error Frame)) :
    frames registry x h (result :: results) =
      frames registry (handleFrame registry x h result).1 (handleFrame registry x h result).2
        results := rfl

theorem frames_stream (registry : Registry) (x : Connection) (h : Hub) (stream : Wire.Stream)
    (results : List (Except Error Frame)) :
    frames registry { x with stream := stream } h results =
      ({ (frames registry x h results).1 with stream := stream },
        (frames registry x h results).2) := by
  induction results generalizing x h with
  | nil => rfl
  | cons result results ih =>
      rw [frames_cons, handleFrame_stream]
      exact ih _ _

theorem frames_append (registry : Registry) (x : Connection) (h : Hub)
    (results results' : List (Except Error Frame)) :
    frames registry x h (results ++ results') =
      frames registry (frames registry x h results).1 (frames registry x h results).2 results' :=
  List.foldl_append

theorem serve_eq (s : Server) (h : Hub) (id : UInt64) (x : Connection)
    (results : List (Except Error Frame)) :
    s.serve h id x results =
      let y := frames s.registry x h results
      ({ s with connections := s.connections.insert id y.1 }, y.2) := rfl

theorem receive_of_none (hx : s.connections.find? id = none) (h : Hub) (bytes : Bytes) :
    s.receive h id bytes = (s, h) := by
  simp only [receive, hx]

/-- A connection whose stream fails for good is closed. -/
theorem find?_receive_of_fatal (hx : s.connections.find? id = some x) {bytes : Bytes}
    (hfatal : endsFatally (x.stream.push bytes).drain.2 = true) :
    (s.receive h id bytes).1.connections.find? id = none := by
  rw [receive_eq hx]
  dsimp only
  rw [if_pos hfatal]
  exact ((close_puts ..).1.find id).trans (if_pos rfl)

/-- A server that is given two pieces does what it does with both at once. -/
theorem receive_append (s : Server) (h : Hub) (id : UInt64) (a b : Bytes) :
    s.receive h id (a ++ b) = (s.receive h id a).1.receive (s.receive h id a).2 id b := by
  cases hx : s.connections.find? id with
  | none => simp only [receive_of_none hx]
  | some x =>
      have hcut := drain_push (x.stream.push a) b
      rw [← push_append] at hcut
      cases hfatal : endsFatally (x.stream.push a).drain.2 with
      | true =>
          rw [if_pos hfatal] at hcut
          rw [receive_of_none (find?_receive_of_fatal hx hfatal), receive_eq hx, receive_eq hx, hcut]
      | false =>
          rw [if_neg (by rw [hfatal]; exact Bool.false_ne_true)] at hcut
          rw [receive_eq hx, receive_eq hx, hcut]
          simp only [hfatal, Bool.false_eq_true, if_false]
          have hfind : (s.serve h id { x with stream := (x.stream.push a).drain.1 }
              (x.stream.push a).drain.2).1.connections.find? id =
                some (frames s.registry { x with stream := (x.stream.push a).drain.1 } h
                  (x.stream.push a).drain.2).1 :=
            AscMap.find?_insert.trans (if_pos rfl)
          rw [receive_eq hfind]
          simp only [serve_eq, frames_append, frames_stream, AscMap.insert_insert,
            endsFatally_append, hfatal, Bool.false_or]

/-- Whatever comes in on a connection, the other ones stay as they are. -/
theorem find?_receive_of_ne (s : Server) (h : Hub) (bytes : Bytes) {other : UInt64}
    (hne : other ≠ id) :
    (s.receive h id bytes).1.connections.find? other = s.connections.find? other := by
  cases hx : s.connections.find? id with
  | none => rw [receive_of_none hx]
  | some x =>
      have hserve : ∀ y results, (s.serve h id y results).1.connections.find? other =
          s.connections.find? other :=
        fun y results => AscMap.find?_insert.trans (if_neg (Ne.symm hne))
      rw [receive_eq hx]
      dsimp only
      split
      · exact ((close_puts ..).1.find other).trans ((if_neg (Ne.symm hne)).trans (hserve ..))
      · exact hserve ..

/-- A connection that was open is closed if its stream cannot be cut into frames, and for no other
reason. -/
theorem find?_receive_eq_none (hx : s.connections.find? id = some x)
    (hsound : x.stream.poisoned = false) (h : Hub) (bytes : Bytes) :
    (s.receive h id bytes).1.connections.find? id = none ↔
      ∃ fault, .error (.malformedFrame fault) ∈ cutFrames x.stream.limit (x.stream.buffer ++ bytes) := by
  have hdrain : (x.stream.push bytes).drain.2 =
      cutFrames x.stream.limit (x.stream.buffer ++ bytes) := by
    rw [drain_eq_cutFrames ((x.stream.poisoned_push bytes).trans hsound), limit_push,
      push_of_sound hsound]
  rw [← hdrain, ← endsFatally_iff]
  refine ⟨fun hnone => ?_, find?_receive_of_fatal hx⟩
  by_contra hfatal
  rw [receive_eq hx] at hnone
  dsimp only at hnone
  rw [if_neg hfatal, serve_eq] at hnone
  simp [AscMap.find?_insert] at hnone

def flushed (x : Connection) : Connection := { x with stream := { x.stream with buffer := [] } }

/-- A frame that does not hold a message costs that frame only, and is answered with one failure. -/
theorem receive_of_garbled (hx : s.connections.find? id = some x)
    (hsound : x.stream.poisoned = false) {a : Bytes} {fault : MessageFault}
    (hbad : Garbled x.stream.limit (x.stream.buffer ++ a) fault) (h : Hub) (b : Bytes) :
    s.receive h id (a ++ b) =
      ({ s with connections := s.connections.insert id (flushed x) } : Server).receive
        (h.emit x.outlet (.message 0 0 false (Error.malformedMessage fault).message)) id b := by
  obtain ⟨s', hs'⟩ : ∃ s' : Server, s' = { s with connections := s.connections.insert id (flushed x) } :=
    ⟨_, rfl⟩
  have hfind : s'.connections.find? id = some (flushed x) := by
    rw [hs']
    exact AscMap.find?_insert.trans (if_pos rfl)
  have hgoes : ∀ results, endsFatally (.error (.malformedMessage fault) :: results) =
      endsFatally results := fun _ => Bool.false_or _
  have hframe : ∀ stream, handleFrame s.registry { x with stream := stream } h
      (.error (.malformedMessage fault)) = ({ x with stream := stream },
        h.emit x.outlet (.message 0 0 false (Error.malformedMessage fault).message)) :=
    fun _ => rfl
  rw [← hs', receive_eq hx, receive_eq hfind, drain_of_garbled hsound hbad]
  simp only [hgoes, serve_eq, frames_cons, hframe, hs', AscMap.insert_insert, flushed]

/-- A connection whose stream cannot be cut into frames any further is closed, and what follows is
not read. -/
theorem receive_of_lost (hx : s.connections.find? id = some x)
    (hsound : x.stream.poisoned = false) {a : Bytes} {fault : FrameFault}
    (hcut : cutFrames x.stream.limit (x.stream.buffer ++ a) = [.error (.malformedFrame fault)])
    (h : Hub) (b : Bytes) :
    s.receive h id (a ++ b) = s.apply h (.close id) := by
  have hclose : ∀ y : Connection, y.session = x.session →
      ({ s with connections := s.connections.insert id y } : Server).apply h (.close id) =
        s.apply h (.close id) := by
    intro y hy
    have hfind : (s.connections.insert id y).find? id = some y :=
      AscMap.find?_insert.trans (if_pos rfl)
    have herase : (s.connections.insert id y).erase id = s.connections.erase id := by
      refine AscMap.ext_find? fun j => ?_
      rw [AscMap.find?_erase, AscMap.find?_erase, AscMap.find?_insert]
      split <;> rfl
    simp only [apply, close, hfind, hx, hy, herase]
  rw [receive_eq hx]
  dsimp only
  rw [drain_of_lost hsound hcut b]
  exact hclose _ rfl

end TableFeed.Server

/-! ### Clients -/

namespace TableFeed.Client

open Wire Wire.Stream

def restream (c : Client) (stream : Wire.Stream) : Client := { c with stream := stream }

theorem deliver_restream (c : Client) (stream : Wire.Stream) (r : Response) :
    (c.restream stream).deliver r = ((c.deliver r).1.restream stream, (c.deliver r).2) := by
  simp only [deliver, restream]
  split
  · rfl
  · split <;> rfl

/-- What a client makes of a frame goes by its subscriptions; what has arrived since does not matter
to it. -/
theorem handle_restream (c : Client) (stream : Wire.Stream) (result : Except Error Frame) :
    (c.restream stream).handle result =
      ((c.handle result).1.restream stream, (c.handle result).2) := by
  rcases result with e | r | r
  · rfl
  · rfl
  · rw [handle, handle, dispatch, dispatch]
    split
    · rw [acknowledge, acknowledge]
      by_cases hleaves : c.pending.find? r.token = some .unsubscribe
      · have hleaves' : (c.restream stream).pending.find? r.token = some .unsubscribe := hleaves
        rw [if_pos hleaves, if_pos hleaves']
        rfl
      · have hleaves' : (c.restream stream).pending.find? r.token ≠ some .unsubscribe := hleaves
        rw [if_neg hleaves, if_neg hleaves']
        show (if (r.acknowledgement.getD {}).success ||
          decide (c.pending.find? r.token = some .modify) then _ else _) = _
        split
        · rfl
        · let ack := r.acknowledgement.getD {}
          exact deliver_restream (({ c with pending := c.pending.erase r.token } : Client).record
            ⟨r.subscription, r.token, ack.success, ack.message⟩) stream r
    · exact deliver_restream c stream r

def count (handled : Nat) : Except Error Frame → Except Error Nat
  | .ok (.response _) => .ok (handled + 1)
  | .ok (.request _) => .ok handled
  | .error e => if e.isFatal then .error e else .ok handled

theorem outcome_eq (results : List (Except Error Frame)) : outcome results = results.foldlM count 0 :=
  rfl

theorem foldlM_count (handled : Nat) (results : List (Except Error Frame)) :
    results.foldlM count handled = (outcome results).map (handled + ·) := by
  induction results generalizing handled with
  | nil => rfl
  | cons result results ih =>
      have hstep : ∀ n, (result :: results).foldlM count n =
          (count n result).bind fun n => results.foldlM count n := fun _ => List.foldlM_cons
      rw [outcome_eq, hstep, hstep]
      rcases result with e | r | r
      · rw [count, count]
        split
        · rfl
        · simp only [Except.bind, ih]
          cases outcome results <;> simp [Except.map]
      · simp only [count, Except.bind, ih]
        cases outcome results <;> simp [Except.map]
      · simp only [count, Except.bind, ih]
        cases outcome results <;> simp [Except.map, Nat.add_assoc]

theorem outcome_append (results results' : List (Except Error Frame)) :
    outcome (results ++ results') =
      (outcome results).bind fun handled => (outcome results').map (handled + ·) := by
  rw [outcome_eq, List.foldlM_append]
  exact congrArg _ (funext fun handled => foldlM_count handled results')

/-- Taking in frames fails because of a fault of the stream, and always then. -/
theorem outcome_error_iff {results : List (Except Error Frame)} :
    (∃ e, outcome results = .error e) ↔ Server.endsFatally results = true := by
  induction results with
  | nil => simp [outcome_eq, Server.endsFatally, pure, Except.pure]
  | cons result results ih =>
      have hrest : ∀ n, (∃ e, results.foldlM count n = .error e) ↔
          Server.endsFatally results = true := by
        intro n
        rw [foldlM_count, ← ih]
        cases outcome results <;> simp [Except.map]
      have hends := endsFatally_append [result] results
      rw [List.singleton_append] at hends
      rw [outcome_eq, List.foldlM_cons, hends]
      rcases result with e | r | r
      · cases hfatal : e.isFatal with
        | true => simp [count, hfatal, Server.endsFatally, bind, Except.bind]
        | false =>
            have hcount : count 0 (.error e) = .ok 0 := by simp [count, hfatal]
            have hone : Server.endsFatally [.error e] = false := by simp [Server.endsFatally, hfatal]
            rw [hcount, hone, Bool.false_or]
            exact hrest 0
      · exact hrest 0
      · exact hrest 1

end TableFeed.Client

namespace TableFeed.Hub

open Wire Wire.Stream

variable {h : Hub} {k : Nat} {c : Client}

def restream (h : Hub) (k : Nat) (stream : Wire.Stream) : Hub :=
  { h with clients := h.clients.modify k (·.restream stream) }

theorem unseen_restream (k : Nat) (stream : Wire.Stream) (i : InputId) :
    Unseen (·.restream k stream) i := by
  refine ⟨fun h o => ?_, fun h => rfl, fun h x => rfl, fun h o r => rfl⟩
  cases o with
  | table => rfl
  | replica => rfl
  | subscription j id =>
      simp only [display?, restream, List.getElem?_modify]
      cases h.clients[j]? with
      | none => rfl
      | some c => by_cases hkj : k = j <;> simp [hkj, Client.replica?, Client.restream]

theorem restream_restream (h : Hub) (k : Nat) (stream stream' : Wire.Stream) :
    (h.restream k stream).restream k stream' = h.restream k stream' := by
  simp only [restream, List.modify_modify_eq]
  rfl

theorem tellReplica_restream (h : Hub) (k : Nat) (stream : Wire.Stream) (told : ReplicaNotices) :
    (h.restream k stream).tellReplica k told = (h.tellReplica k told).restream k stream := by
  have hunseen := unseen_restream k stream
  rw [tellReplica, broadcast, (hunseen 0).attached]
  exact tellEach_unseen (fun i _ => hunseen i) h _ _

theorem clients_restream (hc : h.clients[k]? = some c) (stream : Wire.Stream) :
    (h.restream k stream).clients[k]? = some (c.restream stream) := by
  simp [restream, hc]

theorem setClient_restream (h : Hub) (k : Nat) (stream : Wire.Stream) (c : Client) :
    (h.restream k stream).setClient k (c.restream stream) =
      (h.setClient k c).restream k stream := by
  have hclients : (h.clients.modify k (·.restream stream)).set k (c.restream stream) =
      (h.clients.set k c).modify k (·.restream stream) := by
    refine List.ext_getElem? fun j => ?_
    by_cases hkj : k = j
    · subst hkj
      by_cases hk : k < h.clients.length <;> simp [hk]
    · simp [hkj]
  simp only [restream, setClient, hclients]

theorem handleFrame_restream (h : Hub) (k : Nat) (stream : Wire.Stream) (result : Except Error Frame) :
    (h.restream k stream).handleFrame k result = (h.handleFrame k result).restream k stream := by
  cases hc : h.clients[k]? with
  | none =>
      have hnone : (h.restream k stream).clients[k]? = none := by simp [restream, hc]
      rw [handleFrame, hnone, handleFrame, hc]
  | some c =>
      rw [handleFrame, clients_restream hc, handleFrame, hc]
      dsimp only
      rw [Client.handle_restream]
      dsimp only
      rw [setClient_restream]
      split
      · rfl
      · exact tellReplica_restream ..

def handleAll (h : Hub) (k : Nat) (results : List (Except Error Frame)) : Hub :=
  results.foldl (fun h result => h.handleFrame k result) h

theorem handleAll_restream (h : Hub) (k : Nat) (stream : Wire.Stream)
    (results : List (Except Error Frame)) :
    (h.restream k stream).handleAll k results = (h.handleAll k results).restream k stream := by
  induction results generalizing h with
  | nil => rfl
  | cons result results ih =>
      rw [handleAll, List.foldl_cons, handleFrame_restream]
      exact ih _

theorem handleAll_append (h : Hub) (k : Nat) (results results' : List (Except Error Frame)) :
    h.handleAll k (results ++ results') = (h.handleAll k results).handleAll k results' :=
  List.foldl_append

/-- A frame without a message is passed over. -/
theorem handleFrame_error (hc : h.clients[k]? = some c) (e : Error) :
    h.handleFrame k (.error e) = h := by
  have hclients : h.clients.set k c = h.clients := by
    obtain ⟨hk, hget⟩ := List.getElem?_eq_some_iff.mp hc
    rw [← hget, List.set_getElem_self]
  simp only [handleFrame, hc, Client.handle, setClient, hclients]

/-- Telling the inputs of a replica does not change it. -/
theorem clients_tellReplica (h : Hub) (k : Nat) (told : ReplicaNotices) :
    (h.tellReplica k told).clients = h.clients :=
  (sameOutputs_tellEach ..).clients

theorem client_handleFrame (hc : h.clients[k]? = some c) (result : Except Error Frame) :
    (h.handleFrame k result).clients[k]? = some (c.handle result).1 := by
  rw [handleFrame, hc]
  dsimp only
  split
  · exact client_setClient hc
  · rw [clients_tellReplica]
    exact client_setClient hc

/-- A client is still there after it has handled frames. -/
theorem exists_client_handleAll (hc : h.clients[k]? = some c) (results : List (Except Error Frame)) :
    ∃ c', (h.handleAll k results).clients[k]? = some c' := by
  induction results generalizing h c with
  | nil => exact ⟨c, hc⟩
  | cons result results ih => exact ih (client_handleFrame hc result)

theorem receive_eq (hc : h.clients[k]? = some c) (bytes : Bytes) :
    h.receive k bytes =
      let cut := (c.stream.push bytes).drain
      ((h.handleAll k cut.2).restream k cut.1, Client.outcome cut.2) := by
  have hset : ∀ stream, h.setClient k (c.restream stream) = h.restream k stream := by
    intro stream
    have hclients : h.clients.set k (c.restream stream) = h.clients.modify k (·.restream stream) := by
      refine List.ext_getElem? fun j => ?_
      by_cases hkj : k = j
      · subst hkj
        rw [List.getElem?_set_self (List.getElem?_eq_some_iff.mp hc).1, List.getElem?_modify_eq, hc]
        rfl
      · simp [hkj]
    simp only [setClient, restream, hclients]
  rw [receive, hc]
  show (handleAll (h.setClient k (c.restream (c.stream.push bytes).drain.1)) k _, _) = _
  rw [hset, handleAll_restream]

/-- A client that is given two pieces does what it does with both at once. -/
theorem receive_append (h : Hub) (k : Nat) (a b : Bytes) :
    let first := h.receive k a
    let second := first.1.receive k b
    let both := h.receive k (a ++ b)
    both.1 = second.1 ∧
      ((∃ e, both.2 = .error e) ↔ (∃ e, first.2 = .error e) ∨ ∃ e, second.2 = .error e) ∧
      ∀ m n, first.2 = .ok m → second.2 = .ok n → both.2 = .ok (m + n) := by
  cases hc : h.clients[k]? with
  | none =>
      have hnone : ∀ bytes, h.receive k bytes = (h, .ok 0) := by
        intro bytes
        rw [receive, hc]
      simp [hnone]
  | some c =>
      have hcut := drain_push (c.stream.push a) b
      rw [← push_append] at hcut
      obtain ⟨c', hc'⟩ := exists_client_handleAll hc (c.stream.push a).drain.2
      have hsecond := fun bytes => receive_eq (clients_restream hc' (c.stream.push a).drain.1) bytes
      rw [receive_eq hc, receive_eq hc]
      dsimp only
      rw [hsecond, hcut]
      dsimp only [Client.restream]
      cases hfatal : Server.endsFatally (c.stream.push a).drain.2 with
      | true =>
          have hpoisoned := poisoned_drain hfatal
          rw [if_pos rfl, push_of_poisoned hpoisoned, drain_of_poisoned hpoisoned]
          have hskip : ((h.handleAll k (c.stream.push a).drain.2).restream k
              (c.stream.push a).drain.1).handleAll k [lost] =
                (h.handleAll k (c.stream.push a).drain.2).restream k (c.stream.push a).drain.1 :=
            handleFrame_error (clients_restream hc' _) (.malformedFrame .unsynchronized)
          have hfails := Client.outcome_error_iff.mpr hfatal
          refine ⟨?_, ⟨.inl, fun _ => hfails⟩, fun m n hm => ?_⟩
          · rw [hskip, restream_restream]
          · obtain ⟨e, he⟩ := hfails
            rw [he] at hm
            cases hm
      | false =>
          rw [if_neg Bool.false_ne_true]
          refine ⟨?_, ?_, fun m n hm hn => ?_⟩
          · rw [handleAll_append, handleAll_restream, restream_restream]
          · rw [Client.outcome_error_iff, Client.outcome_error_iff, Client.outcome_error_iff,
              endsFatally_append, Bool.or_eq_true]
          · rw [Client.outcome_append, hm]
            simp only [Except.bind, hn, Except.map]

end TableFeed.Hub

namespace TableFeed

open Wire

/-- Where a stream is cut does not matter to either end. A frame without a message is answered and
skipped, and only a stream that cannot be cut into frames closes its connection. -/
theorem receive_in_pieces :
    (∀ (s : Server) (h : Hub) (id : UInt64) (a b : Bytes),
      s.receive h id (a ++ b) = (s.receive h id a).1.receive (s.receive h id a).2 id b) ∧
    (∀ (s : Server) (h : Hub) (id : UInt64) (x : Connection), s.connections.find? id = some x →
      x.stream.poisoned = false →
      (∀ a b fault, Garbled x.stream.limit (x.stream.buffer ++ a) fault →
        s.receive h id (a ++ b) =
          ({ s with connections := s.connections.insert id (Server.flushed x) } : Server).receive
            (h.emit x.outlet (.message 0 0 false (Error.malformedMessage fault).message)) id b) ∧
      (∀ a b fault,
        cutFrames x.stream.limit (x.stream.buffer ++ a) = [.error (.malformedFrame fault)] →
        s.receive h id (a ++ b) = s.apply h (.close id)) ∧
      ∀ bytes, (s.receive h id bytes).1.connections.find? id = none ↔
        ∃ fault, .error (.malformedFrame fault) ∈
          cutFrames x.stream.limit (x.stream.buffer ++ bytes)) ∧
    (∀ (s : Server) (h : Hub) (id other : UInt64) (bytes : Bytes), other ≠ id →
      (s.receive h id bytes).1.connections.find? other = s.connections.find? other) ∧
    ∀ (h : Hub) (k : Nat) (a b : Bytes),
      let first := h.receive k a
      let second := first.1.receive k b
      let both := h.receive k (a ++ b)
      both.1 = second.1 ∧
        ((∃ e, both.2 = .error e) ↔ (∃ e, first.2 = .error e) ∨ ∃ e, second.2 = .error e) ∧
        ∀ m n, first.2 = .ok m → second.2 = .ok n → both.2 = .ok (m + n) := by
  refine ⟨Server.receive_append, fun s h id x hx hsound => ⟨?_, ?_, ?_⟩,
    fun s h id other bytes hne => Server.find?_receive_of_ne s h bytes hne, Hub.receive_append⟩
  · exact fun a b fault hbad => Server.receive_of_garbled hx hsound hbad h b
  · exact fun a b fault hcut => Server.receive_of_lost hx hsound hcut h b
  · exact fun bytes => Server.find?_receive_eq_none hx hsound h bytes

/-- A request behind a frame without a message is answered as well as that frame; then a frame of no
kind closes the connection, and the other one stays. -/
theorem receive_in_pieces_garbled :
    let x (id : UInt64) : Connection :=
      { session := { connection := id, outlet := 0 }, stream := { limit := 40 }, outlet := 0 }
    let s : Server := { connections := (AscMap.insert ∅ 7 (x 7)).insert 8 (x 8) }
    let h : Hub := { outlets := [{}] }
    let bad : Bytes := [2, 0, 0, 0, 1, 9]
    let asked := encodeRequest { token := 5, subscription := 2, type := .unsubscribe }
    let lost : Bytes := [1, 0, 0, 0, 7]
    Garbled 40 bad (.truncated 8 0 1) ∧
      (s.receive h 7 (bad ++ asked)).2.sentTo 0 =
        [.message 0 0 false (Error.malformedMessage (.truncated 8 0 1)).message,
          .message 2 5 false "Subscription not found"] ∧
      (s.receive h 7 lost).1.connections.find? 7 = none ∧
      ((s.receive h 7 lost).1.connections.find? 8).isSome := by
  intro x s h bad asked lost
  have hbad : Garbled 40 bad (.truncated 8 0 1) := ⟨by decide, by decide, by decide, by decide +kernel⟩
  have hx : s.connections.find? 7 = some (x 7) := rfl
  obtain ⟨-, hopen, hother, -⟩ := receive_in_pieces
  obtain ⟨hgarbled, -, hclosed⟩ := hopen s h 7 (x 7) hx rfl
  refine ⟨hbad, ?_, (hclosed lost).mpr ⟨.unknownKind 7, by decide +kernel⟩, ?_⟩
  · rw [hgarbled bad asked _ hbad]
    decide +kernel
  · rw [hother s h 7 8 lost (by decide)]
    rfl

end TableFeed
