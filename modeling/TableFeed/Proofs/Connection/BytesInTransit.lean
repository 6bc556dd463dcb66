import Mathlib
import TableFeed.Proofs.Connection.Agreement
import TableFeed.Proofs.Wire.Frames
/-!
Requests and responses as bytes on their way. Wherever the bytes of a request are, in a frame that
was not taken yet, between the two ends, in a piece at the gate or in the stream of the connection,
its frame comes out once it has arrived as a whole. The same goes for responses.
-/

namespace TableFeed

open Wire

/-! ### Frames of a server -/

namespace Response.FromServer

variable {limit : Nat} {r : Response}

theorem complete (h : r.FromServer limit) : r.Complete := by
  cases h with
  | reply sub success text asked => rfl
  | sink h =>
      generalize r.subscription = sub at h
      cases h with
      | schema layout => rfl
      | @rows type data carries fits => cases type <;> first | rfl | cases carries
      | failure he => rfl

/-- A response fits into a frame. Rows fit because the sink has seen to it. -/
theorem carries_encodeResponse (h : r.FromServer limit) {most : Nat} (hmost : limit ≤ most)
    (hfits : if r.type = .schema ∨ r.type = .message then
        responseLength r < 0x100000000 ∧ responseLength r ≤ most
      else limit < 0x100000000 ∨ responseLength r < 0x100000000) :
    Carries most (encodeResponse r) (.response r) := by
  have hwhole := h.complete
  suffices hlength : responseLength r < 0x100000000 ∧ responseLength r ≤ most from
    carries_response hwhole hlength.2 hlength.1
  cases h with
  | reply sub success text asked => exact (if_pos (.inr rfl)).mp hfits
  | sink h =>
      generalize r.subscription = sub at h
      cases h with
      | schema layout => exact (if_pos (.inl rfl)).mp hfits
      | @rows type data carries fits =>
          have hneither : ¬(type = .schema ∨ type = .message) := by
            rintro (rfl | rfl) <;> cases carries
          refine ⟨?_, fits.trans hmost⟩
          rcases (if_neg hneither).mp hfits with hlimit | hlength
          · exact fits.trans_lt hlimit
          · exact hlength
      | failure he => exact (if_pos (.inr rfl)).mp hfits

end Response.FromServer

/-! ### The serving end -/

def Connection.first (limit : Nat) : Connection :=
  { session := { connection := 1, outlet := 0, limit := limit }
    stream := { limit := limit }
    outlet := 0 }

namespace Server

/-- The commands that wait for a connection: pieces of its stream, and before them that it opens, if
it has not. -/
inductive Awaits (server : Server) (x : Connection) (pieces : List Bytes) : List Command → Prop
  | opened (found : server.connections.find? 1 = some x) :
      Awaits server x pieces (pieces.map (.receive 1))
  | unopened (missing : server.connections.find? 1 = none)
      (first : x = .first server.config.frameLimit) :
      Awaits server x pieces (.open 1 0 :: pieces.map (.receive 1))

/-- A connection for which some commands wait and some bytes are to come, and the requests that it
is going to read from them. -/
structure Reads (server : Server) (x : Connection) (items : List Command) (later : Bytes)
    (asked : List Request) : Prop where
  limit : x.stream.limit = server.config.frameLimit
  stream : ∃ pieces, server.Awaits x pieces items ∧
    x.stream.Holds encodeRequest .request (pieces.flatten ++ later) asked

namespace Reads

variable {server : Server} {x : Connection} {items : List Command} {later : Bytes}
  {asked : List Request}

/-- What a server decides does not matter. -/
theorem congr (hr : server.Reads x items later asked) {server' : Server}
    (hconfig : server'.config = server.config)
    (hconnections : server'.connections = server.connections) :
    server'.Reads x items later asked := by
  obtain ⟨pieces, hawaits, hholds⟩ := hr.stream
  refine ⟨hconfig.symm ▸ hr.limit, pieces, ?_, hholds⟩
  cases hawaits with
  | opened found => exact .opened (hconnections.symm ▸ found)
  | unopened missing first =>
      exact .unopened (hconnections.symm ▸ missing) (hconfig.symm ▸ first)

/-- More requests are sent. -/
theorem append_request (hr : server.Reads x items later asked) {a : Request}
    (ha : Carries server.config.frameLimit (encodeRequest a) (.request a)) :
    server.Reads x items (later ++ encodeRequest a) (asked ++ [a]) := by
  obtain ⟨pieces, hawaits, hholds⟩ := hr.stream
  refine ⟨hr.limit, pieces, hawaits, ?_⟩
  have hone : ∀ b ∈ [a], Carries x.stream.limit (encodeRequest b) (.request b) := by
    intro b hb
    rw [List.mem_singleton.mp hb, hr.limit]
    exact ha
  have hmore := hholds.append hone
  rwa [List.flatMap_singleton, List.append_assoc] at hmore

/-- A piece gets to the gate. -/
theorem append_receive {piece : Bytes} (hr : server.Reads x items (piece ++ later) asked) :
    server.Reads x (items ++ [.receive 1 piece]) later asked := by
  obtain ⟨pieces, hawaits, hholds⟩ := hr.stream
  refine ⟨hr.limit, pieces ++ [piece], ?_, ?_⟩
  · cases hawaits with
    | opened found =>
        have hopened : server.Awaits x (pieces ++ [piece]) _ := .opened found
        rwa [List.map_append] at hopened
    | unopened missing first =>
        have hunopened : server.Awaits x (pieces ++ [piece]) _ := .unopened missing first
        rwa [List.map_append] at hunopened
  · rw [List.flatten_append, List.flatten_singleton, List.append_assoc]
    exact hholds

/-- Once nothing is on its way, everything was read. -/
theorem all_read (hr : server.Reads x items [] asked)
    (hquiet : ∀ id piece, .receive id piece ∈ items → piece = []) : asked = [] := by
  obtain ⟨pieces, hawaits, hholds⟩ := hr.stream
  have hpieces : pieces.flatten = [] := by
    refine List.flatten_eq_nil_iff.mpr fun piece hpiece => hquiet 1 piece ?_
    cases hawaits with
    | opened found => exact List.mem_map_of_mem hpiece
    | unopened missing first => exact List.mem_cons_of_mem _ (List.mem_map_of_mem hpiece)
  rw [hpieces] at hholds
  exact hholds.all_read

end Reads

/-- What a server does for its connection: it sends responses, and nothing else changes but what the
requests are about. -/
structure Advances (server server' : Server) (h h' : Hub) (new : List Response) : Prop where
  config : server'.config = server.config
  registry : server'.registry = server.registry
  steady : h.Steady h'
  sent : h'.sentTo 0 = h.sentTo 0 ++ new

variable {server : Server} {h : Hub} {x : Connection} {c : Client} {items : List Command}
  {later : Bytes} {asked left : List Request} {said : List Response}
  {issued : List (Int64 × RequestType)}

/-- A connection handles the frames that it has read. -/
theorem handles_frames {registry : Registry} {frameLimit : Nat} {done : List Request}
    (ha : Accord registry frameLimit h x.session c (done ++ left) said issued)
    (hlen : issued.length < 2 ^ 64) {y : Connection × Hub}
    (hy : y = (done.map fun a => Except.ok (Frame.request a)).foldl
      (fun (x, h) result => handleFrame registry x h result) (x, h)) :
    ∃ new, y.2.sentTo 0 = h.sentTo 0 ++ new ∧ h.Steady y.2 ∧ y.1.stream = x.stream ∧
      Accord registry frameLimit y.2 y.1.session c left (said ++ new) issued := by
  induction done generalizing h x said with
  | nil =>
      rw [hy]
      refine ⟨[], (List.append_nil _).symm, .refl _, rfl, ?_⟩
      rw [List.append_nil]
      exact ha
  | cons a done ih =>
      obtain ⟨new, hsent, hsteady, hafter⟩ := ha.handle_next hlen
      obtain ⟨new', hsent', hsteady', hstream', hafter'⟩ :=
        ih (x := { x with session := (x.session.handle registry h a).1 }) hafter hy
      refine ⟨new ++ new', ?_, hsteady.trans hsteady', hstream', ?_⟩
      · rw [hsent', hsent, List.append_assoc]
      · rw [← List.append_assoc]
        exact hafter'

theorem endsFatally_requests (done : List Request) :
    endsFatally (done.map fun a => .ok (.request a)) = false := by
  rw [endsFatally, List.any_map, List.any_eq_false]
  exact fun _ _ => Bool.false_ne_true

/-- A server handles the first command that waits. -/
theorem advances_apply {command : Command} (hr : server.Reads x (command :: items) later asked)
    (ha : Accord server.registry server.config.frameLimit h x.session c asked said issued)
    (hlen : issued.length < 2 ^ 64) {server' : Server} {h' : Hub}
    (happly : server.apply h command = (server', h')) :
    ∃ x' asked' new, server.Advances server' h h' new ∧ server'.Reads x' items later asked' ∧
      Accord server'.registry server'.config.frameLimit h' x'.session c asked' (said ++ new)
        issued := by
  obtain ⟨pieces, hawaits, hholds⟩ := hr.stream
  generalize hall : command :: items = all at hawaits
  cases hawaits with
  | opened found =>
      obtain ⟨piece, pieces, rfl, rfl, rfl⟩ := List.map_eq_cons_iff.mp hall.symm
      rw [List.flatten_cons, List.append_assoc] at hholds
      obtain ⟨done, left, rfl, hresults, hlimit, hleft⟩ := hholds.push_drain
      obtain ⟨stream, hstream⟩ : ∃ stream, stream = (x.stream.push piece).drain.1 := ⟨_, rfl⟩
      obtain ⟨y, hy⟩ : ∃ y, y = (done.map fun a => Except.ok (Frame.request a)).foldl
        (fun (x, h) result => handleFrame server.registry x h result)
        ({ x with stream := stream }, h) := ⟨_, rfl⟩
      obtain ⟨new, hsent, hsteady, hkept, hafter⟩ :=
        handles_frames (x := { x with stream := stream }) ha hlen hy
      -- whole frames are no fault of the stream, so the connection stays open
      have happlied : server.apply h (.receive 1 piece) =
          ({ server with connections := server.connections.insert 1 y.1 }, y.2) := by
        rw [apply, receive, found]
        dsimp only
        rw [hresults, ← hstream, ← hy, endsFatally_requests, if_neg Bool.false_ne_true]
      rw [happlied] at happly
      cases happly
      refine ⟨y.1, left, new, ⟨rfl, rfl, hsteady, hsent⟩, ⟨?_, pieces, ?_, ?_⟩, hafter⟩
      · rw [hkept, hstream]
        exact hlimit.trans hr.limit
      · exact .opened (AscMap.find?_insert.trans (if_pos rfl))
      · rw [hkept, hstream]
        exact hleft
  | unopened missing first =>
      cases hall
      have happlied : server.apply h (.open 1 0) =
          ({ server with connections :=
              server.connections.insert 1 (.first server.config.frameLimit) }, h) := by
        rw [apply, openConnection, missing]
        rfl
      rw [happlied] at happly
      cases happly
      refine ⟨x, asked, [], ⟨rfl, rfl, .refl _, (List.append_nil _).symm⟩,
        ⟨hr.limit, pieces, ?_, hholds⟩, ?_⟩
      · refine .opened ?_
        rw [first]
        exact AscMap.find?_insert.trans (if_pos rfl)
      · rw [List.append_nil]
        exact ha

/-- A server handles some of the commands that wait. -/
theorem applies_all {commands : List Command} (hr : server.Reads x (commands ++ items) later asked)
    (ha : Accord server.registry server.config.frameLimit h x.session c asked said issued)
    (hlen : issued.length < 2 ^ 64) {server' : Server} {h' : Hub}
    (hfold : commands.foldl (fun (s, h) command => s.apply h command) (server, h) =
      (server', h')) :
    ∃ x' asked' new, server.Advances server' h h' new ∧ server'.Reads x' items later asked' ∧
      Accord server'.registry server'.config.frameLimit h' x'.session c asked' (said ++ new)
        issued := by
  induction commands generalizing server h x asked said with
  | nil =>
      cases hfold
      refine ⟨x, asked, [], ⟨rfl, rfl, .refl _, (List.append_nil _).symm⟩,
        hr, ?_⟩
      rw [List.append_nil]
      exact ha
  | cons command commands ih =>
      rw [List.foldl_cons] at hfold
      obtain ⟨x₁, asked₁, new₁, hadv₁, hr₁, ha₁⟩ := advances_apply hr ha hlen rfl
      obtain ⟨x₂, asked₂, new₂, hadv₂, hr₂, ha₂⟩ := ih hr₁ ha₁ hfold
      refine ⟨x₂, asked₂, new₁ ++ new₂, ⟨hadv₂.config.trans hadv₁.config,
        hadv₂.registry.trans hadv₁.registry, hadv₁.steady.trans hadv₂.steady, ?_⟩, hr₂, ?_⟩
      · rw [hadv₂.sent, hadv₁.sent, List.append_assoc]
      · rw [← List.append_assoc]
        exact ha₂

end Server

/-! ### The client -/

namespace Client

structure Keeps (c c' : Client) : Prop where
  limit : c'.limit = c.limit
  outgoing : c'.outgoing = c.outgoing
  hungUp : c'.hungUp = c.hungUp

structure SameLink (c c' : Client) : Prop extends Keeps c c' where
  stream : c'.stream = c.stream
  inbox : c'.inbox = c.inbox

variable {c c' c'' : Client}

theorem Keeps.refl (c : Client) : c.Keeps c := ⟨rfl, rfl, rfl⟩

theorem Keeps.trans (h : c.Keeps c') (h' : c'.Keeps c'') : c.Keeps c'' :=
  ⟨h'.limit.trans h.limit, h'.outgoing.trans h.outgoing, h'.hungUp.trans h.hungUp⟩

theorem SameLink.refl (c : Client) : c.SameLink c := ⟨.refl c, rfl, rfl⟩

theorem SameLink.trans (h : c.SameLink c') (h' : c'.SameLink c'') : c.SameLink c'' :=
  ⟨h.toKeeps.trans h'.toKeeps, h'.stream.trans h.stream, h'.inbox.trans h.inbox⟩

theorem SameLink.of_noted {r : Response} (h : Noted c c' r) : c.SameLink c' :=
  ⟨⟨h.limit, h.outgoing, h.hungUp⟩, h.stream, h.inbox⟩

end Client

/-- A client to which some bytes are to come, and the responses that it is going to read from what it
has and from them. -/
structure Client.Hears (c : Client) (later : Bytes) (said : List Response) : Prop where
  limit : c.stream.limit = c.limit
  stream : c.stream.Holds encodeResponse .response (c.inbox.items.flatten ++ later) said

namespace Client.Hears

variable {c c' : Client} {later : Bytes} {said : List Response}

theorem congr (hc : c.Hears later said) (hsame : c.SameLink c') : c'.Hears later said := by
  refine ⟨?_, ?_⟩
  · rw [hsame.stream, hsame.limit]
    exact hc.limit
  · rw [hsame.stream, hsame.inbox]
    exact hc.stream

/-- More responses are sent. -/
theorem append (hc : c.Hears later said) {new : List Response}
    (hnew : ∀ r ∈ new, Carries c.limit (encodeResponse r) (.response r)) :
    c.Hears (later ++ new.flatMap encodeResponse) (said ++ new) := by
  refine ⟨hc.limit, ?_⟩
  have hmore := hc.stream.append fun r hr => hc.limit.symm ▸ hnew r hr
  rwa [List.append_assoc] at hmore

/-- Once nothing is on its way, everything was read. -/
theorem all_read (hc : c.Hears [] said) (hquiet : ∀ piece ∈ c.inbox.items, piece = []) :
    said = [] := by
  have hholds := hc.stream
  rw [List.flatten_eq_nil_iff.mpr hquiet] at hholds
  exact hholds.all_read

end Client.Hears

theorem Client.nextPiece_eq_some {c c' : Client} {piece : Bytes}
    (h : c.nextPiece = some (piece, c')) :
    ∃ rest, c.inbox.items = piece :: rest ∧
      c' = { c with inbox := { c.inbox with items := rest } } := by
  rw [nextPiece.eq_def] at h
  split at h
  · cases h
  next first rest hitems =>
    cases h
    exact ⟨rest, hitems, rfl⟩

/-- Two hubs that differ at most in what clients are about. -/
structure Hub.SameFeed (h g : Hub) : Prop where
  tables : g.tables = h.tables
  inputs : g.inputs = h.inputs
  outlets : g.outlets = h.outlets

namespace Hub.SameFeed

variable {h g k : Hub}

theorem refl (h : Hub) : h.SameFeed h := ⟨rfl, rfl, rfl⟩

theorem trans (hg : h.SameFeed g) (hk : g.SameFeed k) : h.SameFeed k :=
  ⟨hk.tables.trans hg.tables, hk.inputs.trans hg.inputs, hk.outlets.trans hg.outlets⟩

theorem setClient (h : Hub) (client : Nat) (c : Client) : h.SameFeed (h.setClient client c) :=
  ⟨rfl, rfl, rfl⟩

theorem sentTo_eq (hg : h.SameFeed g) (o : OutletId) : g.sentTo o = h.sentTo o := by
  rw [sentTo, sentTo, hg.outlets]

theorem isOpen (hg : h.SameFeed g) {o : OutletId} (hopen : h.IsOpen o) : g.IsOpen o := by
  obtain ⟨out, hout, hclosed⟩ := hopen
  exact ⟨out, hg.outlets ▸ hout, hclosed⟩

end Hub.SameFeed

namespace Hub

variable {registry : Registry} {frameLimit : Nat} {h : Hub} {s : Session} {c : Client}
  {asked : List Request} {later : Bytes} {said left : List Response}
  {issued : List (Int64 × RequestType)}

theorem client_setClient {k : Nat} {c' : Client} (hc : h.clients[k]? = some c) :
    (h.setClient k c').clients[k]? = some c' :=
  List.getElem?_set_self (List.getElem?_eq_some_iff.mp hc).1

/-- A client handles the frames that it has read. -/
theorem handles_frames {done : List Response} (hc : h.clients[0]? = some c)
    (ha : Accord registry frameLimit h s c asked (done ++ left) issued)
    (hlen : issued.length < 2 ^ 64) {g : Hub}
    (hg : g = (done.map fun r => Except.ok (Frame.response r)).foldl
      (fun h result => h.handleFrame 0 result) h) :
    ∃ c', g.clients[0]? = some c' ∧ c.SameLink c' ∧ h.SameFeed g ∧
      Accord registry frameLimit g s c' asked left issued := by
  induction done generalizing h c with
  | nil =>
      cases hg
      exact ⟨c, hc, .refl c, .refl h, ha⟩
  | cons r done ih =>
      obtain ⟨hafter, hnoted, htold⟩ := ha.dispatch hlen
      rw [List.map_cons, List.foldl_cons, handleFrame_response hc htold] at hg
      have hset := SameFeed.setClient h 0 (c.dispatch r).1
      obtain ⟨c', hc', hlink, hfeed, ha'⟩ := ih (client_setClient hc)
        (hafter.congr rfl rfl rfl (hset.isOpen ha.duty.stage.isOpen) (.refl _)) hg
      exact ⟨c', hc', (Client.SameLink.of_noted hnoted).trans hlink, hset.trans hfeed, ha'⟩

/-- A client takes in a piece of the stream. -/
theorem accord_receive {piece : Bytes} (hc : h.clients[0]? = some c)
    (hlimit : c.stream.limit = c.limit)
    (hholds : c.stream.Holds encodeResponse .response (piece ++ (c.inbox.items.flatten ++ later)) said)
    (ha : Accord registry frameLimit h s c asked said issued) (hlen : issued.length < 2 ^ 64) :
    ∃ c' said', (h.receive 0 piece).1.clients[0]? = some c' ∧ c.Keeps c' ∧ c'.Hears later said' ∧
      h.SameFeed (h.receive 0 piece).1 ∧
      Accord registry frameLimit (h.receive 0 piece).1 s c' asked said' issued := by
  obtain ⟨done, left, rfl, hresults, hkept, hleft⟩ := hholds.push_drain
  obtain ⟨c₁, hc₁⟩ : ∃ c₁, c₁ = { c with stream := (c.stream.push piece).drain.1 } := ⟨_, rfl⟩
  have hreceive : (h.receive 0 piece).1 = (done.map fun r => Except.ok (Frame.response r)).foldl
      (fun h result => h.handleFrame 0 result) (h.setClient 0 c₁) := by
    rw [receive, hc]
    simp only [Client.takeIn, hresults]
    rw [hc₁]
  have hset := SameFeed.setClient h 0 c₁
  have ha₁ : Accord registry frameLimit (h.setClient 0 c₁) s c₁ asked (done ++ left) issued :=
    ha.congr rfl rfl rfl (hset.isOpen ha.duty.stage.isOpen) (hc₁ ▸ ⟨rfl, rfl, rfl, rfl, rfl⟩)
  have hkeeps : c.Keeps c₁ := hc₁ ▸ ⟨rfl, rfl, rfl⟩
  have hhears : c₁.Hears later left := by
    rw [hc₁]
    exact ⟨hkept.trans hlimit, hleft⟩
  obtain ⟨c', hc', hlink, hfeed, ha'⟩ := handles_frames (client_setClient hc) ha₁ hlen hreceive
  exact ⟨c', left, hc', hkeeps.trans hlink.toKeeps, hhears.congr hlink, hset.trans hfeed, ha'⟩

/-- A client takes in some of the pieces that it has queued. -/
theorem accord_pollPieces (pieces handled : Nat) (hc : h.clients[0]? = some c)
    (hhears : c.Hears later said)
    (ha : Accord registry frameLimit h s c asked said issued) (hlen : issued.length < 2 ^ 64) :
    ∃ c' said', (h.pollPieces 0 pieces handled).1.clients[0]? = some c' ∧ c.Keeps c' ∧
      c'.Hears later said' ∧ h.SameFeed (h.pollPieces 0 pieces handled).1 ∧
      Accord registry frameLimit (h.pollPieces 0 pieces handled).1 s c' asked said' issued := by
  induction pieces generalizing h c said handled with
  | zero => exact ⟨c, said, hc, .refl c, hhears, .refl h, ha⟩
  | succ pieces ih =>
      rw [pollPieces, hc, Option.bind_some]
      rcases hnext : c.nextPiece with _ | ⟨piece, c₁⟩
      · exact ⟨c, said, hc, .refl c, hhears, .refl h, ha⟩
      · obtain ⟨rest, hitems, hc₁⟩ := Client.nextPiece_eq_some hnext
        have hset := SameFeed.setClient h 0 c₁
        have hkeeps : c.Keeps c₁ := hc₁ ▸ ⟨rfl, rfl, rfl⟩
        have ha₁ : Accord registry frameLimit (h.setClient 0 c₁) s c₁ asked said issued :=
          ha.congr rfl rfl rfl (hset.isOpen ha.duty.stage.isOpen)
            (hc₁ ▸ ⟨rfl, rfl, rfl, rfl, rfl⟩)
        -- the piece is taken from the front of what was still to be read
        have hholds : c₁.stream.Holds encodeResponse .response
            (piece ++ (c₁.inbox.items.flatten ++ later)) said := by
          have hbytes := hhears.stream
          rw [hitems, List.flatten_cons, List.append_assoc] at hbytes
          rw [hc₁]
          exact hbytes
        have hlimit : c₁.stream.limit = c₁.limit := by
          rw [hc₁]
          exact hhears.limit
        obtain ⟨c₂, said₂, hc₂, hkeeps₂, hhears₂, hfeed₂, ha₂⟩ :=
          accord_receive (client_setClient hc) hlimit hholds ha₁ hlen
        dsimp only
        split
        next g e hreceive =>
          rw [hreceive] at hc₂ hfeed₂ ha₂
          exact ⟨c₂, said₂, hc₂, hkeeps.trans hkeeps₂, hhears₂, hset.trans hfeed₂, ha₂⟩
        next g n hreceive =>
          rw [hreceive] at hc₂ hfeed₂ ha₂
          obtain ⟨c₃, said₃, hc₃, hkeeps₃, hhears₃, hfeed₃, ha₃⟩ := ih (handled + n) hc₂ hhears₂ ha₂
          exact ⟨c₃, said₃, hc₃, hkeeps.trans (hkeeps₂.trans hkeeps₃), hhears₃,
            hset.trans (hfeed₂.trans hfeed₃), ha₃⟩

end Hub

end TableFeed
