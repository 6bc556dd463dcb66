import Mathlib
import TableFeed.Proofs.Connection.Chunks
import TableFeed.Proofs.Hub.Attachments
/-!
How long the frames of a session are. Rows are split until they fit the limit of the session, whatever
is asked and whatever happens to the tables. Schemas and replies go out as they are: as long as these
fit as well, a peer with that limit reads every frame, in whatever pieces they come.
-/

namespace TableFeed

open Wire

/-! ### Responses -/

structure Response.Trimmed (limit : Nat) (r : Response) : Prop where
  complete : r.Complete
  fits : r.type.carriesRows = true → responseLength r ≤ limit

theorem Response.trimmed_message (limit : Nat) (sub : Int32) (token : Int64) (success : Bool)
    (text : String) : (Response.message sub token success text).Trimmed limit :=
  ⟨rfl, nofun⟩

theorem Response.FromSink.trimmed {sub : Int32} {limit : Nat} {r : Response}
    (h : r.FromSink sub limit) : r.Trimmed limit := by
  cases h with
  | schema layout => exact ⟨rfl, nofun⟩
  | failure he => exact trimmed_message ..
  | @rows type data carries fits =>
      refine ⟨?_, fun _ => fits⟩
      cases type <;> first | rfl | cases carries

/-! ### Hubs -/

namespace Hub

variable {h g : Hub} {o other : OutletId} {limit : Nat} {r : Response} {i : InputId}

structure Trims (h : Hub) (o : OutletId) (limit : Nat) : Prop where
  sinks : ∀ (i : InputId) (s : SinkInput), h.inputs[i]? = some (.sink s) → s.outlet = o →
    s.sink.encoder.limit = limit
  sent : ∀ r ∈ h.sentTo o, r.Trimmed limit

theorem mem_sentTo_emit {r' : Response} (hr : r' ∈ (h.emit other r).sentTo o) :
    r' ∈ h.sentTo o ∨ other = o ∧ r' = r := by
  rw [sentTo, emit, List.getElem?_modify] at hr
  rw [sentTo]
  by_cases ho : other = o
  · subst ho
    rcases hout : h.outlets[other]? with _ | out
    · simp [hout] at hr
    · by_cases hclosed : out.closed
      · exact .inl (by simpa [hout, hclosed] using hr)
      · simpa [hout, hclosed] using hr
  · exact .inl (by simpa [ho] using hr)

namespace Trims

/-- Nothing but inputs and outlets matters. -/
theorem congr (hh : h.Trims o limit) (hinputs : g.inputs = h.inputs) (houtlets : g.outlets = h.outlets) :
    g.Trims o limit := by
  refine ⟨?_, ?_⟩
  · rw [hinputs]
    exact hh.sinks
  · rw [sentTo, houtlets]
    exact hh.sent

theorem emit (hh : h.Trims o limit) (hr : other = o → r.Trimmed limit) :
    (h.emit other r).Trims o limit := by
  refine ⟨hh.sinks, fun r' hr' => ?_⟩
  rcases mem_sentTo_emit hr' with hr' | ⟨ho, rfl⟩
  · exact hh.sent r' hr'
  · exact hr ho

theorem emitAll (hh : h.Trims o limit) (rs : List Response)
    (hrs : other = o → ∀ r ∈ rs, r.Trimmed limit) :
    (rs.foldl (fun h r => h.emit other r) h).Trims o limit := by
  induction rs generalizing h with
  | nil => exact hh
  | cons r rs ih =>
      exact ih (hh.emit fun ho => hrs ho r List.mem_cons_self) fun ho r hr =>
        hrs ho r (List.mem_cons_of_mem _ hr)

theorem setInput (hh : h.Trims o limit) {x : Input}
    (hx : ∀ s, x = .sink s → s.outlet = o → s.sink.encoder.limit = limit) :
    (h.setInput i x).Trims o limit := by
  refine ⟨fun j s hs => ?_, hh.sent⟩
  rw [Hub.setInput, List.getElem?_set] at hs
  split at hs
  · split at hs
    · exact hx s (Option.some.inj hs)
    · cases hs
  · exact hh.sinks j s hs

theorem addInput (hh : h.Trims o limit) {x : Input}
    (hx : ∀ s, x = .sink s → s.outlet = o → s.sink.encoder.limit = limit) :
    (h.addInput x).1.Trims o limit := by
  refine ⟨fun j s hs => ?_, hh.sent⟩
  rcases input_addInput hs with hs | ⟨-, hx'⟩
  · exact hh.sinks j s hs
  · exact hx s hx'.symm

/-- A sink answers within the limit it was given. -/
theorem tell (hh : h.Trims o limit) (origin : Origin) (i : InputId) (n : Notice) :
    (h.tell origin i n).Trims o limit := by
  rcases hi : h.inputs[i]? with _ | (rec | s)
  · rwa [tell_none hi]
  · rw [tell_recorder hi]
    exact hh.setInput nofun
  · obtain ⟨houtlet, hencoder, hsent⟩ := SinkInput.answer_addresses h origin n s
    have hlimit := hh.sinks i s hi
    rw [tell_sink hi]
    refine (hh.setInput ?_).emitAll _ fun ho r hr => ?_
    · rintro s' hs' ho
      cases hs'
      rw [hencoder.2.2]
      exact hlimit (houtlet ▸ ho)
    · have hr := (hsent r hr).trimmed
      rwa [hlimit ho] at hr

theorem tellAll (hh : h.Trims o limit) (origin : Origin) (i : InputId) (ns : List Notice) :
    (h.tellAll origin i ns).Trims o limit := by
  induction ns generalizing h with
  | nil => exact hh
  | cons n ns ih => exact ih (hh.tell origin i n)

theorem broadcast (hh : h.Trims o limit) (out : OutputId) (ns : List Notice) :
    (h.broadcast out ns).Trims o limit := by
  rw [Hub.broadcast]
  induction h.attached out generalizing h with
  | nil => exact hh
  | cons i is ih => exact ih (hh.tellAll (.output out) i ns)

theorem mapPublisher (hh : h.Trims o limit) (f : Publisher → Publisher) (out : OutputId) :
    (h.mapPublisher f out).Trims o limit := by
  obtain ⟨hinputs, houtlets⟩ := ends_mapPublisher h f out
  exact hh.congr hinputs houtlets

theorem attach (hh : h.Trims o limit) (out : OutputId) (i : InputId) :
    (h.attach out i).Trims o limit := by
  rw [Hub.attach]
  split
  · exact hh
  · split
    · exact hh
    · exact (hh.mapPublisher _ out).tellAll ..

theorem detach (hh : h.Trims o limit) (out : OutputId) (i : InputId) :
    (h.detach out i).1.Trims o limit := by
  rw [Hub.detach]
  split
  · exact (hh.mapPublisher _ out).tellAll ..
  · exact hh

theorem fire (hh : h.Trims o limit) (k : Nat) : (h.fire k).Trims o limit := by
  rw [Hub.fire]
  split
  · exact hh
  next t _ =>
    have hset : (h.setTable k (t.mapTable fun t => t.publish.1)).Trims o limit := hh.congr rfl rfl
    exact (hset.broadcast (.table k) t.table.publish.2).congr rfl rfl

theorem accept (hh : h.Trims o limit) (k : Nat) (response : Response) :
    (h.accept k response).1.Trims o limit := by
  rw [Hub.accept]
  split
  · exact hh
  next x _ =>
    have hset : (h.setReplica k (x.accept response).1).Trims o limit := hh.congr rfl rfl
    exact hset.broadcast (.replica k) (x.accept response).2.1

end Trims

end Hub

/-! ### Sessions -/

namespace Session

inductive Event
  | request (registry : Registry) (r : Request)
  | close
  | act (table : Nat) (a : Act)
  | fire (table : Nat)
  | accept (replica : Nat) (response : Response)

def step (s : Session) (h : Hub) : Event → Session × Hub
  | .request registry r => s.handle registry h r
  | .close => s.close h
  | .act k a => (s, h.deed k (.act a))
  | .fire k => (s, h.fire k)
  | .accept k response => (s, (h.accept k response).1)

def run (s : Session) (h : Hub) (es : List Event) : Session × Hub :=
  es.foldl (fun x e => x.1.step x.2 e) (s, h)

/-- A session whose outlet has been sent nothing too long in rows. -/
structure Trims (s : Session) (h : Hub) (o : OutletId) (limit : Nat) : Prop where
  hub : h.Trims o limit
  outlet : s.outlet = o
  limit : s.limit = limit

variable {s : Session} {h : Hub} {o : OutletId} {limit : Nat}

theorem Trims.reply (hs : s.Trims h o limit) (r : Request) (success : Bool) (text : String) :
    (s.reply h r success text).Trims o limit :=
  hs.hub.emit fun _ => Response.trimmed_message ..

theorem Trims.handle (hs : s.Trims h o limit) (registry : Registry) (r : Request) :
    (s.handle registry h r).1.Trims (s.handle registry h r).2 o limit := by
  have hreply := hs.reply r
  rw [Session.handle]
  split
  · rw [subscribe]
    split
    · exact ⟨hreply .., hs.outlet, hs.limit⟩
    next selection output sink hcheck =>
      obtain ⟨-, -, rfl⟩ := check_ok hcheck
      refine ⟨((hreply ..).addInput ?_).attach .., hs.outlet, hs.limit⟩
      rintro x hx -
      cases hx
      exact hs.limit
  · refine ⟨?_, hs.outlet, hs.limit⟩
    dsimp only
    rw [modify]
    split
    · exact hreply ..
    · split
      · exact hreply ..
      · exact hreply ..
  · rw [unsubscribe]
    split
    · exact ⟨hreply .., hs.outlet, hs.limit⟩
    next u _ =>
      exact ⟨(hs.hub.detach u.output u.input).emit fun _ => Response.trimmed_message ..,
        hs.outlet, hs.limit⟩
  · exact ⟨hreply .., hs.outlet, hs.limit⟩

theorem Trims.close (hs : s.Trims h o limit) : (s.close h).1.Trims (s.close h).2 o limit := by
  refine ⟨?_, hs.outlet, hs.limit⟩
  rw [Session.close]
  dsimp only
  have hhub := hs.hub
  clear hs
  induction s.subscriptions.values generalizing h with
  | nil => exact hhub
  | cons u us ih => exact ih (hhub.detach u.output u.input)

theorem Trims.step (hs : s.Trims h o limit) (e : Event) :
    (s.step h e).1.Trims (s.step h e).2 o limit := by
  cases e with
  | request registry r => exact hs.handle registry r
  | close => exact hs.close
  | act k a => exact ⟨hs.hub.congr rfl rfl, hs.outlet, hs.limit⟩
  | fire k => exact ⟨hs.hub.fire k, hs.outlet, hs.limit⟩
  | accept k response => exact ⟨hs.hub.accept k response, hs.outlet, hs.limit⟩

theorem Trims.run (hs : s.Trims h o limit) (es : List Event) :
    (s.run h es).1.Trims (s.run h es).2 o limit := by
  induction es generalizing s h with
  | nil => exact hs
  | cons e es ih => exact ih (hs.step e)

end Session

/-! ### Peers -/

namespace Wire.Stream

/-- Whole frames that a stream can read, cut into frames. -/
theorem cutFrames_of_carries {limit : Nat} {rs : List Response}
    (hrs : ∀ r ∈ rs, Carries limit (encodeResponse r) (.response r)) :
    cutFrames limit (rs.flatMap encodeResponse) = rs.map fun r => .ok (.response r) := by
  let s : Stream := { buffer := rs.flatMap encodeResponse, limit := limit }
  have hbytes : s.buffer ++ [] = rs.flatMap encodeResponse := List.append_nil _
  obtain ⟨done, left, rfl, hdone, -, hholds⟩ := drain_frames (s := s) rfl hrs hbytes
  have hleft := hholds.all_read
  subst hleft
  have hcut := (drain_eq_cutFrames (s := s) rfl).symm.trans hdone
  simpa only [s, List.append_nil] using hcut

/-- A stream that is sent frames it can read is not given up, in whatever pieces they come, and reads
them from the first one on. -/
theorem reads_of_carries {limit : Nat} {rs : List Response}
    (hrs : ∀ r ∈ rs, Carries limit (encodeResponse r) (.response r)) {cs : List Call}
    (hbytes : cs.flatMap Call.bytes <+: rs.flatMap encodeResponse) :
    (({ limit := limit } : Stream).calls cs).1.poisoned = false ∧
      (({ limit := limit } : Stream).calls cs).2 <+: rs.map fun r => .ok (.response r) := by
  obtain ⟨later, hlater⟩ := hbytes
  have hwhole := cutFrames_of_carries hrs
  rw [← hlater] at hwhole
  rcases keeps_or_loses (s := { limit := limit }) rfl cs with hkeeps | hloses
  · have hcut := hkeeps.cut later
    exact ⟨hkeeps.sound, _, hcut.symm.trans hwhole⟩
  · -- what is given up ends in a fault, and there is none
    obtain ⟨-, all, -, ⟨fault, hlast⟩, -, hcut⟩ := hloses
    have hall : all = rs.map fun r => .ok (.response r) := (hcut later).symm.trans hwhole
    have hmem := List.mem_of_getLast? hlast
    rw [hall] at hmem
    obtain ⟨r, -, hr⟩ := List.mem_map.mp hmem
    cases hr

end Wire.Stream

/-- Every response with rows fits the limit of its session. As long as schemas and replies do as
well, a peer with that limit reads all that was sent, in whatever pieces it comes. -/
theorem Session.rows_within_limit {s : Session} {h : Hub} (hnew : h.sentTo s.outlet = [])
    (hsinks : ∀ (i : InputId) (x : SinkInput), h.inputs[i]? = some (.sink x) → x.outlet = s.outlet →
      x.sink.encoder.limit = s.limit) (es : List Session.Event) :
    (∀ r ∈ (s.run h es).2.sentTo s.outlet, r.type.carriesRows = true →
      responseLength r ≤ s.limit) ∧
    ∀ most, s.limit ≤ most →
      (∀ r ∈ (s.run h es).2.sentTo s.outlet,
        responseLength r < 0x100000000 ∧ (r.type.carriesRows = false → responseLength r ≤ most)) →
      ∀ cs : List Stream.Call,
        cs.flatMap Stream.Call.bytes <+: ((s.run h es).2.sentTo s.outlet).flatMap encodeResponse →
        (({ limit := most } : Stream).calls cs).1.poisoned = false ∧
          (({ limit := most } : Stream).calls cs).2 <+:
            ((s.run h es).2.sentTo s.outlet).map fun r => .ok (.response r) := by
  have hstart : s.Trims h s.outlet s.limit :=
    ⟨⟨hsinks, by rw [hnew]; exact fun r hr => absurd hr List.not_mem_nil⟩, rfl, rfl⟩
  have hsent := (hstart.run es).hub.sent
  refine ⟨fun r hr => (hsent r hr).fits, fun most hmost hlengths cs hbytes => ?_⟩
  refine Stream.reads_of_carries (fun r hr => ?_) hbytes
  obtain ⟨hlength, hother⟩ := hlengths r hr
  refine carries_response (hsent r hr).complete ?_ hlength
  cases hrows : r.type.carriesRows with
  | true => exact ((hsent r hr).fits hrows).trans hmost
  | false => exact hother hrows

/-- Three rows that do not fit one frame are sent in two, and a peer reads them piece by piece. -/
theorem Session.rows_within_limit_split :
    let schema : Schema := ⟨⟨"T", [⟨"a", .int64, {}⟩]⟩, by decide⟩
    let s : Session := { connection := 1, outlet := 0, limit := 90 }
    let h : Hub := { tables := [.plain (.create schema)], outlets := [{}] }
    let ask : Request := ⟨5, 2, .subscribe, some (.everything "T")⟩
    let es : List Session.Event := [.act 0 (.insert []), .act 0 (.insert []), .act 0 (.insert []),
      .fire 0, .request (Registry.register {} "T" (.table 0)) ask]
    let sent := (s.run h es).2.sentTo 0
    let bytes := sent.flatMap encodeResponse
    let cs : List Stream.Call := [.push (bytes.take 100), .next, .push (bytes.drop 100)]
    sent.map (·.type) = [.message, .schema, .init, .add] ∧
      (∀ r ∈ sent, r.type.carriesRows = true → responseLength r ≤ 90) ∧
      (∀ r ∈ sent, responseLength r < 0x100000000 ∧
        (r.type.carriesRows = false → responseLength r ≤ 90)) ∧
      (({ limit := 90 } : Stream).calls cs).1.poisoned = false := by
  intro schema s h ask es sent bytes cs
  have hnone : ∀ (i : InputId) (x : SinkInput), h.inputs[i]? = some (.sink x) → x.outlet = s.outlet →
      x.sink.encoder.limit = s.limit := by
    intro i x hx
    cases hx
  have hlengths : ∀ r ∈ sent, responseLength r < 0x100000000 ∧
      (r.type.carriesRows = false → responseLength r ≤ 90) := by decide +kernel
  have hcut : ∀ bs : Bytes, ([.push (bs.take 100), .next, .push (bs.drop 100)] :
      List Stream.Call).flatMap Stream.Call.bytes = bs := fun bs => by simp [Stream.Call.bytes]
  have hbytes : cs.flatMap Stream.Call.bytes <+: bytes :=
    ⟨[], (List.append_nil _).trans (hcut bytes)⟩
  obtain ⟨hrows, hpeer⟩ := rows_within_limit (s := s) (h := h) rfl hnone es
  exact ⟨by decide +kernel, hrows, hlengths, (hpeer 90 le_rfl hlengths cs hbytes).1⟩

/-- A reply that quotes a long name is longer than the limit, and a peer with that limit is lost. -/
theorem Session.reply_over_limit :
    let s : Session := { connection := 1, outlet := 0, limit := 64 }
    let h : Hub := { outlets := [{}] }
    let ask : Request := ⟨1, 1, .subscribe, some (.everything "nnnnnnnnnnnnnnnnnnnnnnnnnnnnnn")⟩
    let sent := (s.run h [.request {} ask]).2.sentTo 0
    let peer := ({ limit := 64 } : Stream).calls [.push (sent.flatMap encodeResponse), .next]
    sent.map responseLength = [68] ∧ peer.1.poisoned = true := by
  decide +kernel

end TableFeed
