import Mathlib
import TableFeed.Proofs.Connection.BytesInTransit
import TableFeed.Proofs.Connection.Exchange
/-!
Runs of an exchange. Whatever the order of its steps, the two ends are in accord all along. So no
response ever arrives out of order, and once no bytes are on their way every subscription mirrors its
table or has been reported as failed.
-/

namespace TableFeed

open Wire

/-! ### Queues -/

theorem Mailbox.items_offer {α : Type} {m m' : Mailbox α} {a : α} (h : m.offer a = .ok m') :
    m'.items = m.items ++ [a] := by
  rw [offer] at h
  split at h
  · cases h
  · split at h
    · cases h
    · cases h
      rfl

theorem Gate.items_submit {g g' : Gate} {command : Command} (h : g.submit command = .ok g') :
    g'.inbox.items = g.inbox.items ++ [command] := by
  rw [submit] at h
  split at h
  next inbox hoffer =>
    cases h
    exact Mailbox.items_offer hoffer
  · cases h
  · cases h

theorem Client.queue_eq_ok {c c' : Client} {piece : Bytes} (h : c.queue piece = .ok c') :
    ∃ inbox, inbox.items = c.inbox.items ++ [piece] ∧ c' = { c with inbox := inbox } := by
  rw [queue] at h
  rcases hoffer : c.inbox.offer piece with e | inbox
  · rw [hoffer] at h
    cases h
  · rw [hoffer] at h
    cases h
    exact ⟨inbox, Mailbox.items_offer hoffer, rfl⟩

theorem Hub.sentTo_takeSent (h : Hub) (o : OutletId) : (h.takeSent o).1.sentTo o = [] := by
  rw [sentTo, takeSent, List.getElem?_modify_eq]
  cases h.outlets[o]? <;> rfl

theorem Hub.isOpen_takeSent {h : Hub} {o : OutletId} (hopen : h.IsOpen o) :
    (h.takeSent o).1.IsOpen o := by
  obtain ⟨out, hout, hclosed⟩ := hopen
  refine ⟨{ out with sent := [] }, ?_, hclosed⟩
  rw [takeSent, List.getElem?_modify_eq, hout]
  rfl

/-! ### Registries -/

namespace Server

theorem registry_close (s : Server) (h : Hub) (id : UInt64) :
    (s.close h id).1.registry = s.registry := by
  rw [close]
  split <;> rfl

theorem registry_apply (s : Server) (h : Hub) (command : Command) :
    (s.apply h command).1.registry = s.registry := by
  cases command with
  | «open» id outlet => rfl
  | receive id piece =>
      rw [apply, receive]
      split
      · rfl
      · dsimp only
        split
        · exact registry_close ..
        · rfl
  | close id => exact registry_close ..

theorem registry_poll (s : Server) (g : Gate) (h : Hub) :
    (s.poll g h).1.registry = s.registry := by
  rw [poll]
  dsimp only
  generalize g.inbox.items.take s.config.drainLimit = commands
  induction commands generalizing s h with
  | nil => rfl
  | cons command commands ih => exact (ih ..).trans (registry_apply s h command)

end Server

/-! ### Rest -/

/-- A machine that has taken all that its sink has sent mirrors the table, and a replica with it. -/
theorem Reflects.mirrors_of_serves {r : Replica} {m : Mirror} {id : Int32} {limit : RowId}
    (hr : Reflects id limit r m) {s : Sink} {t : Table} {ids : List FieldId}
    (hserves : s.Serves t ids m) (hc : t.Coherent) {selection : Selection}
    (hwants : s.encoder.requested = selection.projection) : r.Mirrors t selection := by
  refine ⟨?_, fun row hrow hremoved name hname hkept => ?_, fun hbatch hreplaced => ?_⟩
  · have hkeys : m.rows.keys = t.publisher.rows := by
      refine AscSet.ext_mem fun row => ?_
      rw [AscMap.mem_keys_iff, hserves.rows]
    rw [hr.liveRows_eq, hkeys]
  · rw [hr.get_eq]
    exact hserves.get_eq hrow hremoved (fun names hnames => hname names (hwants ▸ hnames)) hkept
  · have hshows := hserves.toShows hc hbatch hreplaced
    refine ⟨?_, fun row hrow name hname => ?_⟩
    · rw [hr.liveRows_eq, hshows.keys_eq]
      rfl
    · rw [hr.get_eq]
      exact hshows.get_eq hrow fun names hnames => hname names (hwants ▸ hnames)

/-- Nothing is to be read any more: a subscription mirrors its table, or has been reported as
failed. -/
theorem Accord.at_rest {registry : Registry} {frameLimit : Nat} {h : Hub} {s : Session} {c : Client}
    {issued : List (Int64 × RequestType)} (ha : Accord registry frameLimit h s c [] [] issued)
    (hlen : issued.length < 2 ^ 64) {id : Int32} {sub : ClientSubscription}
    (hsub : c.subscriptions.find? id = some sub) :
    (sub.replica.phase = .failed ∧ ∃ msg ∈ c.messages, msg.subscription = id ∧
      msg.success = false ∧ (msg.token, .modify) ∉ issued) ∨
    (sub.replica.phase = .live ∧ ∃ k t,
      registry.outputs.find? sub.selection.output = some (.table k) ∧ h.tables[k]? = some t ∧
        sub.replica.Mirrors t.table sub.selection) := by
  obtain ⟨-, -, ⟨m, m', hm, htakes, hcourse⟩, hfailed⟩ := ha.attuned id sub hsub
  have hreported : m.phase = .failed → sub.replica.phase = .failed ∧ ∃ msg ∈ c.messages,
      msg.subscription = id ∧ msg.success = false ∧ (msg.token, .modify) ∉ issued := by
    intro hphase
    have hgone := hm.phase.trans hphase
    obtain ⟨msg, hmsg, hto, hfailure, hanswers⟩ := hfailed hgone
    refine ⟨hgone, msg, hmsg, hto, hfailure, fun hmodify => ?_⟩
    rcases hanswers with hzero | ⟨type, hne, hissued⟩
    · exact ha.ledger.not_issued_zero hlen .modify (hzero ▸ hmodify)
    · exact hne (ha.ledger.unique hlen hissued hmodify)
  -- nothing is due, so the machine is where its course has it
  cases htakes
  cases hcourse with
  | asked mem type sub wants => cases mem
  | refused failed vacant settled => exact .inl (hreported failed)
  | served output sub wants limit follows =>
      obtain ⟨t, n, ht, -, sink, hemploys, hstands⟩ := follows.posted
      cases hstands with
      | gaveUp sink machine => exact .inl (hreported machine)
      | serves source reads shows =>
          exact .inr ⟨hm.phase.trans shows.tracks.machine, _, t, output, ht,
            hm.mirrors_of_serves shows (ha.duty.stage.tables _ t ht).coherent
              (hemploys.2.2.2.1.trans wants)⟩

/-! ### Steps -/

namespace Exchange

/-- The two ends of an exchange, with the requests and responses between them. -/
structure Going (w : Exchange) (x : Connection) (asked : List Request) (c : Client)
    (said : List Response) : Prop where
  client : w.client? = some c
  reads : w.server.Reads x w.gate.inbox.items (w.up ++ c.outgoing.flatten) asked
  hears : c.Hears (w.down ++ (w.hub.sentTo 0).flatMap encodeResponse) said
  accord : Accord w.server.registry w.server.config.frameLimit w.hub x.session c asked said w.issued
  limit : w.server.config.frameLimit ≤ c.limit
  listening : c.hungUp = false

namespace Going

variable {w : Exchange} {x : Connection} {asked : List Request} {c : Client}
  {said : List Response}

/-- The serving end has sent something. -/
theorem append_said (hw : w.Going x asked c said) {server : Server} {gate : Gate} {hub : Hub}
    {x' : Connection} {asked' : List Request} {new : List Response}
    (hadmits : Admits { w with server := server, gate := gate, hub := hub })
    (hadv : w.server.Advances server w.hub hub new)
    (hreads : server.Reads x' gate.inbox.items (w.up ++ c.outgoing.flatten) asked')
    (haccord : Accord server.registry server.config.frameLimit hub x'.session c asked'
      (said ++ new) w.issued) :
    Going { w with server := server, gate := gate, hub := hub } x' asked' c (said ++ new) := by
  have hclient : hub.clients[0]? = some c := hadv.steady.clients.symm ▸ hw.client
  have hlimit : server.config.frameLimit ≤ c.limit := hadv.config.symm ▸ hw.limit
  refine ⟨hclient, hreads, ?_, haccord, hlimit, hw.listening⟩
  -- that rows fit is known of every server, of the rest it is asked of the run
  have hcarries : ∀ r ∈ new, Carries c.limit (encodeResponse r) (.response r) := by
    intro r hr
    have hout : r ∈ hub.sentTo 0 := hadv.sent.symm ▸ List.mem_append_right _ hr
    exact (haccord.proper r (List.mem_append_right _ hr)).carries_encodeResponse hlimit
      (hadmits.responses c hclient r hout)
  have hmore := hw.hears.append hcarries
  show c.Hears (w.down ++ (hub.sentTo 0).flatMap encodeResponse) (said ++ new)
  rwa [hadv.sent, List.flatMap_append, ← List.append_assoc]

theorem act (hw : w.Going x asked c said) (k : Nat) (a : Act)
    (hadmits : Admits (w.step (.act k a))) :
    (w.step (.act k a)).Going x asked c said := by
  have haccord := hw.accord.act k a fun t ht =>
    hadmits.tables t (List.mem_of_getElem? ht)
  have hadv : w.server.Advances w.server w.hub (w.hub.deed k (.act a)) [] :=
    ⟨rfl, rfl, .act w.hub k a, (List.append_nil _).symm⟩
  have hgoing := hw.append_said hadmits hadv hw.reads ((List.append_nil said).symm ▸ haccord)
  rwa [List.append_nil] at hgoing

theorem fire (hw : w.Going x asked c said) (k : Nat) (hbefore : w.Admits)
    (hadmits : Admits (w.step (.fire k))) :
    ∃ said', (w.step (.fire k)).Going x asked c said' := by
  obtain ⟨new, hsent, haccord⟩ := hw.accord.fire hbefore.tokens k fun t ht =>
    hbefore.tables t (List.mem_of_getElem? ht)
  exact ⟨_, hw.append_said hadmits ⟨rfl, rfl, .fire w.hub k, hsent⟩ hw.reads haccord⟩

theorem step_serve (hw : w.Going x asked c said) (hbefore : w.Admits)
    (hadmits : Admits (w.step .serve)) :
    ∃ x' asked' said', (w.step .serve).Going x' asked' c said' := by
  have hreads := hw.reads
  rw [← List.take_append_drop w.server.config.drainLimit w.gate.inbox.items] at hreads
  obtain ⟨x', asked', new, hadv, hreads', haccord⟩ :=
    Server.applies_all hreads hw.accord hbefore.tokens rfl
  exact ⟨x', asked', _, hw.append_said hadmits hadv hreads' haccord⟩

/-- The client has sent a request. -/
theorem append_request (hw : w.Going x asked c said) {c' : Client} {a : Request} {hub : Hub}
    {type : RequestType}
    (hasks : c.Asks c' a) (hfeed : w.hub.SameFeed hub) (hclient : hub.clients[0]? = some c')
    (hadmits : Admits { w with hub := hub, issued := w.issued ++ [(c.nextToken, type)] })
    (hkind : ∀ code, a.type ≠ .unknown code)
    (haccord : Accord w.server.registry w.server.config.frameLimit w.hub x.session c'
      (asked ++ [a]) said (w.issued ++ [(c.nextToken, type)])) :
    Going { w with hub := hub, issued := w.issued ++ [(c.nextToken, type)] } x (asked ++ [a]) c'
      said := by
  have hout := hasks.outgoing hw.listening
  obtain ⟨hlen, hfits⟩ := hadmits.requests c' hclient (encodeRequest a)
    (hout ▸ List.mem_append_right _ (List.mem_singleton_self _))
  have hwithin : (encodeRequest a).length - 4 ≤ w.server.config.frameLimit := hfits
  have hlength : (encodeRequest a).length = (requestBody a).length + 5 := length_enclose ..
  have hcarries : Carries w.server.config.frameLimit (encodeRequest a) (.request a) :=
    carries_request (fun code h => absurd h (hkind code)) (by omega) (by omega)
  refine ⟨hclient, ?_, ?_, ?_, hasks.limit.symm ▸ hw.limit, hasks.hungUp.trans hw.listening⟩
  · rw [hout, List.flatten_append, List.flatten_singleton, ← List.append_assoc]
    exact hw.reads.append_request hcarries
  · show c'.Hears (w.down ++ (hub.sentTo 0).flatMap encodeResponse) said
    rw [hfeed.sentTo_eq]
    refine ⟨?_, ?_⟩
    · rw [hasks.stream, hasks.limit]
      exact hw.hears.limit
    · rw [hasks.stream, hasks.inbox]
      exact hw.hears.stream
  · exact haccord.congr rfl hfeed.tables hfeed.inputs (hfeed.isOpen haccord.duty.stage.isOpen)
      (.refl c')

theorem subscribe (hw : w.Going x asked c said) (selection : Selection)
    (hadmits : Admits (w.step (.subscribe selection))) :
    ∃ asked' c', (w.step (.subscribe selection)).Going x asked' c' said := by
  have hstep : w.step (.subscribe selection) =
      w.ask (c.subscribe selection).1 c.nextToken .subscribe := by
    rw [step, hw.client]
  rw [hstep] at hadmits ⊢
  have hclient : (w.hub.setClient 0 (c.subscribe selection).1).clients[0]? =
      some (c.subscribe selection).1 := Hub.client_setClient hw.client
  have htokens := hadmits.tokens
  have hids := hadmits.ids
  simp only [Exchange.ask, List.length_append, List.length_singleton] at htokens
  simp only [Exchange.ask, ← subscribed.eq_def, subscribed_subscribe] at hids
  have hnew : (c.subscribe selection).1.subscriptions.find? c.nextId =
      some ⟨selection, { subscription := c.nextId }⟩ := AscMap.find?_insert.trans (if_pos rfl)
  have haccord := hw.accord.subscribe htokens hids
    (hadmits.selections _ hclient _ (AscMap.mem_values hnew))
  exact ⟨_, _, hw.append_request (c.asks_subscribe selection) (.setClient ..) hclient hadmits
    (fun _ h => by cases h)
    haccord⟩

theorem modify (hw : w.Going x asked c said) (id : Int32) (m : Modification)
    (hadmits : Admits (w.step (.modify id m))) :
    ∃ asked' c', (w.step (.modify id m)).Going x asked' c' said := by
  rcases hsub : c.subscriptions.find? id with _ | sub
  · have hstep : w.step (.modify id m) = w := by
      rw [step, hw.client]
      simp only [Client.modify, hsub]
    rw [hstep]
    exact ⟨asked, c, hw⟩
  · obtain ⟨selection, hselection⟩ : ∃ selection : Option Selection,
        selection = some { output := sub.selection.output, modifications := [m] } := ⟨_, rfl⟩
    have hstep : w.step (.modify id m) =
        w.ask (c.send id .modify selection).1 c.nextToken .modify := by
      rw [step, hw.client, hselection]
      simp only [Client.modify, hsub]
      rfl
    rw [hstep] at hadmits ⊢
    have htokens := hadmits.tokens
    simp only [Exchange.ask, List.length_append, List.length_singleton] at htokens
    exact ⟨_, _, hw.append_request (c.asks_send id .modify selection) (.setClient ..)
      (Hub.client_setClient hw.client) hadmits (fun _ h => by cases h)
      (hw.accord.modify htokens hsub selection)⟩

theorem unsubscribe (hw : w.Going x asked c said) (id : Int32)
    (hadmits : Admits (w.step (.unsubscribe id))) :
    ∃ asked' c', (w.step (.unsubscribe id)).Going x asked' c' said := by
  have hclient : w.hub.clients[0]? = some c := hw.client
  rcases hsub : c.subscriptions.find? id with _ | sub
  · have hstep : w.step (.unsubscribe id) = w := by
      simp only [step, Hub.unsubscribe, hclient, Client.unsubscribe, AscMap.contains, hsub]
      rfl
    rw [hstep]
    exact ⟨asked, c, hw⟩
  · obtain ⟨c₁, hc₁⟩ : ∃ c₁ : Client, c₁ = { c with
        subscriptions := c.subscriptions.erase id, closing := c.closing.insert id } := ⟨_, rfl⟩
    obtain ⟨hub, hhub⟩ : ∃ hub, hub = (w.hub.unsubscribe 0 id).1 := ⟨_, rfl⟩
    have hunsubscribe : w.hub.unsubscribe 0 id = (hub, .ok c.nextToken) := by
      rw [hhub]
      simp only [Hub.unsubscribe, hclient, Client.unsubscribe, AscMap.contains, hsub]
      rfl
    have hafter : hub = { w.hub.setClient 0 (c₁.send id .unsubscribe none).1 with
        ended := hub.ended } := by
      rw [hhub, hc₁]
      simp only [Hub.unsubscribe, hclient, Client.unsubscribe, AscMap.contains, hsub]
      rfl
    have hfeed : w.hub.SameFeed hub := by
      rw [hafter]
      exact ⟨rfl, rfl, rfl⟩
    have hstep : w.step (.unsubscribe id) = { w with
        hub := hub, issued := w.issued ++ [(c.nextToken, .unsubscribe)] } := by
      simp only [step, hunsubscribe]
    have hset : hub.clients[0]? = some (c₁.send id .unsubscribe none).1 := by
      rw [hafter]
      exact Hub.client_setClient hw.client
    have hasks : c.Asks (c₁.send id .unsubscribe none).1 ⟨c.nextToken, id, .unsubscribe, none⟩ := by
      rw [hc₁]
      exact ⟨rfl, rfl, rfl, rfl, rfl, rfl, fun h => if_neg (by simp [h]), rfl, rfl⟩
    rw [hstep] at hadmits ⊢
    have htokens := hadmits.tokens
    simp only [List.length_append, List.length_singleton] at htokens
    refine ⟨_, _, hw.append_request hasks hfeed hset hadmits (fun _ h => by cases h)
      (hw.accord.unsubscribe htokens hsub hasks ?_ ?_)⟩
    · rw [hc₁]
      rfl
    · rw [hc₁]
      rfl

/-- The server decides in another way. -/
theorem step_judge (hw : w.Going x asked c said) (name : String) (handler : ModificationHandler) :
    (w.step (.judge name handler)).Going x asked c said :=
  ⟨hw.client, hw.reads.congr rfl rfl, hw.hears,
    hw.accord.congr rfl rfl rfl hw.accord.duty.stage.isOpen (.refl c), hw.limit, hw.listening⟩

theorem step_carryUp (hw : w.Going x asked c said) (n : Nat) :
    ∃ c', (w.step (.carryUp n)).Going x asked c' said := by
  obtain ⟨c', hc'⟩ : ∃ c' : Client, c' = { c with outgoing := [] } := ⟨_, rfl⟩
  obtain ⟨up, hup⟩ : ∃ up, up = w.up ++ c.outgoing.flatten := ⟨_, rfl⟩
  have hset := Hub.SameFeed.setClient w.hub 0 c'
  have hreads : w.server.Reads x w.gate.inbox.items up asked := hup ▸ hw.reads
  have hhears : c'.Hears (w.down ++ ((w.hub.setClient 0 c').sentTo 0).flatMap encodeResponse)
      said := by
    rw [hset.sentTo_eq, hc']
    exact ⟨hw.hears.limit, hw.hears.stream⟩
  have haccord : Accord w.server.registry w.server.config.frameLimit (w.hub.setClient 0 c')
      x.session c' asked said w.issued :=
    hw.accord.congr rfl rfl rfl (hset.isOpen hw.accord.duty.stage.isOpen)
      (hc' ▸ ⟨rfl, rfl, rfl, rfl, rfl⟩)
  have hlimit : w.server.config.frameLimit ≤ c'.limit := by
    rw [hc']
    exact hw.limit
  have hlistening : c'.hungUp = false := by
    rw [hc']
    exact hw.listening
  -- the frames leave the client whether or not the gate has room for the piece
  have hempty : c'.outgoing.flatten = [] := by rw [hc']; rfl
  refine ⟨c', ?_⟩
  cases hoffered : w.gate.submit (.receive 1 (up.take n)) with
  | error e =>
      have hstep : w.step (.carryUp n) = { w with hub := w.hub.setClient 0 c', up := up } := by
        simp only [step, hw.client, Exchange.carryUp, Client.takeOutgoing, ← hc', ← hup, hoffered]
      rw [hstep]
      refine ⟨Hub.client_setClient hw.client, ?_, hhears, haccord, hlimit, hlistening⟩
      rw [hempty, List.append_nil]
      exact hreads
  | ok gate =>
      have hstep : w.step (.carryUp n) =
          { w with hub := w.hub.setClient 0 c', gate := gate, up := up.drop n } := by
        simp only [step, hw.client, Exchange.carryUp, Client.takeOutgoing, ← hc', ← hup, hoffered]
      rw [hstep]
      refine ⟨Hub.client_setClient hw.client, ?_, hhears, haccord, hlimit, hlistening⟩
      rw [hempty, List.append_nil, Gate.items_submit hoffered]
      rw [← List.take_append_drop n up] at hreads
      exact hreads.append_receive

theorem step_carryDown (hw : w.Going x asked c said) (n : Nat) :
    ∃ c', (w.step (.carryDown n)).Going x asked c' said := by
  obtain ⟨hub, hhub⟩ : ∃ hub, hub = (w.hub.takeSent 0).1 := ⟨_, rfl⟩
  obtain ⟨down, hdown⟩ : ∃ down, down = w.down ++ (w.hub.sentTo 0).flatMap encodeResponse :=
    ⟨_, rfl⟩
  have hopen : hub.IsOpen 0 := hhub ▸ Hub.isOpen_takeSent hw.accord.duty.stage.isOpen
  have hsent : hub.sentTo 0 = [] := hhub ▸ Hub.sentTo_takeSent w.hub 0
  have hclient : hub.clients[0]? = some c := by
    rw [hhub]
    exact hw.client
  have htaken : Accord w.server.registry w.server.config.frameLimit hub x.session c asked said
      w.issued := by
    refine hw.accord.congr rfl ?_ ?_ hopen (.refl c) <;> rw [hhub] <;> rfl
  have hhears : c.Hears down said := hdown ▸ hw.hears
  have htake : w.hub.takeSent 0 = (hub, w.hub.sentTo 0) := by
    rw [hhub]
    rfl
  cases hqueued : c.queue (down.take n) with
  | error e =>
      have hstep : w.step (.carryDown n) = { w with hub := hub, down := down } := by
        simp only [step, hw.client, Exchange.carryDown, htake, ← hdown, hqueued]
      rw [hstep]
      refine ⟨c, hclient, hw.reads, ?_, htaken, hw.limit, hw.listening⟩
      show c.Hears (down ++ (hub.sentTo 0).flatMap encodeResponse) said
      rw [hsent, List.flatMap_nil, List.append_nil]
      exact hhears
  | ok c' =>
      have hstep : w.step (.carryDown n) =
          { w with hub := hub.setClient 0 c', down := down.drop n } := by
        simp only [step, hw.client, Exchange.carryDown, htake, ← hdown, hqueued]
      rw [hstep]
      obtain ⟨inbox, hitems, rfl⟩ := Client.queue_eq_ok hqueued
      have hset := Hub.SameFeed.setClient hub 0 { c with inbox := inbox }
      refine ⟨{ c with inbox := inbox }, Hub.client_setClient hclient, hw.reads, ?_,
        htaken.congr rfl rfl rfl (hset.isOpen hopen) ⟨rfl, rfl, rfl, rfl, rfl⟩, hw.limit,
        hw.listening⟩
      show Client.Hears _ (down.drop n ++ ((hub.setClient 0 _).sentTo 0).flatMap encodeResponse) said
      rw [hset.sentTo_eq, hsent, List.flatMap_nil, List.append_nil]
      refine ⟨hhears.limit, ?_⟩
      show c.stream.Holds _ _ (inbox.items.flatten ++ down.drop n) said
      rw [hitems, List.flatten_append, List.flatten_singleton, List.append_assoc,
        List.take_append_drop]
      exact hhears.stream

theorem poll (hw : w.Going x asked c said) (hbefore : w.Admits) :
    ∃ c' said', (w.step .poll).Going x asked c' said' := by
  obtain ⟨c', said', hc', hkeeps, hhears, hfeed, haccord⟩ :=
    Hub.accord_pollPieces ((w.hub.clients[0]?.map fun c => c.inbox.items.length).getD 0) 0 hw.client
      hw.hears
      hw.accord hbefore.tokens
  refine ⟨c', said', hc', ?_, ?_, haccord, hkeeps.limit.symm ▸ hw.limit,
    hkeeps.hungUp.trans hw.listening⟩
  · rw [hkeeps.outgoing]
    exact hw.reads
  · have hsent : (w.step .poll).hub.sentTo 0 = w.hub.sentTo 0 := hfeed.sentTo_eq 0
    rw [hsent]
    exact hhears

/-- Every step keeps the two ends in accord. -/
theorem step (hw : w.Going x asked c said) (hbefore : w.Admits) (s : Step)
    (hadmits : Admits (w.step s)) :
    ∃ x' asked' c' said', (w.step s).Going x' asked' c' said' := by
  cases s with
  | act k a => exact ⟨x, asked, c, said, hw.act k a hadmits⟩
  | fire k =>
      obtain ⟨said', h⟩ := hw.fire k hbefore hadmits
      exact ⟨x, asked, c, said', h⟩
  | subscribe selection =>
      obtain ⟨asked', c', h⟩ := hw.subscribe selection hadmits
      exact ⟨x, asked', c', said, h⟩
  | modify id m =>
      obtain ⟨asked', c', h⟩ := hw.modify id m hadmits
      exact ⟨x, asked', c', said, h⟩
  | unsubscribe id =>
      obtain ⟨asked', c', h⟩ := hw.unsubscribe id hadmits
      exact ⟨x, asked', c', said, h⟩
  | judge name handler => exact ⟨x, asked, c, said, hw.step_judge name handler⟩
  | carryUp n =>
      obtain ⟨c', h⟩ := hw.step_carryUp n
      exact ⟨x, asked, c', said, h⟩
  | serve =>
      obtain ⟨x', asked', said', h⟩ := hw.step_serve hbefore hadmits
      exact ⟨x', asked', c, said', h⟩
  | carryDown n =>
      obtain ⟨c', h⟩ := hw.step_carryDown n
      exact ⟨x, asked, c', said, h⟩
  | poll =>
      obtain ⟨c', said', h⟩ := hw.poll hbefore
      exact ⟨x, asked, c', said', h⟩

end Going

/-! ### Runs -/

section Start

variable {tables : List AnyTable} {registry : Registry} {config : ServerConfig}
  {inboxCapacity limit : Nat}

theorem items_gate_start : (start tables registry config inboxCapacity limit).gate.inbox.items =
    [.open 1 0] := by
  simp [start, Gate.create, Gate.connect, Gate.submit, Mailbox.create, Mailbox.offer]

theorem stage_start (htables : ∀ t ∈ tables, ∃ schema, t.table = .create schema)
    (hadmits : (start tables registry config inboxCapacity limit).Admits) :
    (start tables registry config inboxCapacity limit).hub.Stage 0 config.frameLimit := by
  refine ⟨fun k t ht => ?_, fun i x hx => ?_, fun i j s s' hs => ?_, ⟨{}, rfl, rfl⟩⟩
  · obtain ⟨schema, hschema⟩ := htables t (List.mem_of_getElem? ht)
    have hfits := hadmits.tables t (List.mem_of_getElem? ht)
    rw [hschema] at hfits ⊢
    exact .create hfits
  · cases hx
  · cases hs

/-- Before anything is sent, the two ends are in accord. -/
theorem accord_start (htables : ∀ t ∈ tables, ∃ schema, t.table = .create schema)
    (houtputs : ∀ name o, registry.outputs.find? name = some o →
      ∃ k, o = .table k ∧ k < tables.length)
    (hadmits : (start tables registry config inboxCapacity limit).Admits) :
    Accord registry config.frameLimit (start tables registry config inboxCapacity limit).hub
      (Connection.first config.frameLimit).session (.create inboxCapacity limit) [] [] [] := by
  have hnone : ∀ {α : Type} {P : α → Prop}, ∀ a ∈ ([] : List α), P a := nofun
  refine ⟨⟨stage_start htables hadmits, rfl, rfl, houtputs, fun id sub hsub => ?_, hnone, hnone,
    .nil⟩, ⟨rfl, rfl, fun token type h => ?_, hnone, hnone, hnone, .nil⟩, rfl,
    fun id _ => ⟨fun i => ?_, rfl, hnone, hnone⟩, hnone, fun id sub hsub => ?_, hnone⟩
  · cases hsub
  · cases h
  · rintro ⟨x, hx, -⟩
    cases hx
  · cases hsub

theorem going_start (htables : ∀ t ∈ tables, ∃ schema, t.table = .create schema)
    (houtputs : ∀ name o, registry.outputs.find? name = some o →
      ∃ k, o = .table k ∧ k < tables.length)
    (hlimit : config.frameLimit ≤ limit)
    (hadmits : (start tables registry config inboxCapacity limit).Admits) :
    (start tables registry config inboxCapacity limit).Going (.first config.frameLimit) []
      (.create inboxCapacity limit) [] := by
  refine ⟨rfl, ⟨rfl, [], ?_, .fresh ..⟩, ⟨rfl, .fresh ..⟩,
    accord_start htables houtputs hadmits, hlimit, rfl⟩
  rw [items_gate_start]
  exact .unopened rfl rfl

end Start

/-- No step changes what there is to subscribe to. -/
theorem outputs_step (w : Exchange) (s : Step) :
    (w.step s).server.registry.outputs = w.server.registry.outputs := by
  cases s with
  | act k a => rfl
  | fire k => rfl
  | subscribe selection =>
      rw [step]
      split <;> rfl
  | modify id m =>
      rw [step]
      split
      · rfl
      · split <;> rfl
  | unsubscribe id =>
      rw [step]
      split <;> rfl
  | judge name handler => rfl
  | carryUp n =>
      rw [step]
      split
      · rfl
      · rw [carryUp]
        dsimp only
        split <;> rfl
  | serve => exact congrArg Registry.outputs (Server.registry_poll w.server w.gate w.hub)
  | carryDown n =>
      rw [step]
      split
      · rfl
      · rw [carryDown]
        dsimp only
        split <;> rfl
  | poll => rfl

theorem outputs_run (w : Exchange) (steps : List Step) :
    (w.run steps).server.registry.outputs = w.server.registry.outputs := by
  induction steps generalizing w with
  | nil => rfl
  | cons s steps ih => exact (ih (w.step s)).trans (outputs_step w s)

theorem AdmitsRun.admits {w : Exchange} {steps : List Step} (h : w.AdmitsRun steps) : w.Admits := by
  cases steps with
  | nil => exact h
  | cons s steps => exact h.1

/-- An exchange whose run is admitted all along stays in accord. -/
theorem Going.run {w : Exchange} {x : Connection} {asked : List Request} {c : Client}
    {said : List Response} (hw : w.Going x asked c said) {steps : List Step}
    (hadmits : w.AdmitsRun steps) :
    (w.run steps).Admits ∧ ∃ x' asked' c' said', (w.run steps).Going x' asked' c' said' := by
  induction steps generalizing w x asked c said with
  | nil => exact ⟨hadmits, x, asked, c, said, hw⟩
  | cons s steps ih =>
      obtain ⟨hbefore, hrest⟩ := hadmits
      obtain ⟨x', asked', c', said', hnext⟩ := hw.step hbefore s hrest.admits
      exact ih hnext hrest

/-- Whatever the order of the steps, no response arrives out of order, and once no bytes are on
their way every subscription that is left mirrors its table or has been reported as failed. -/
theorem converges {tables : List AnyTable} {registry : Registry} {config : ServerConfig}
    {inboxCapacity limit : Nat} {steps : List Step} {w : Exchange}
    (hw : (start tables registry config inboxCapacity limit).run steps = w)
    (htables : ∀ t ∈ tables, ∃ schema, t.table = .create schema)
    (houtputs : ∀ name o, registry.outputs.find? name = some o →
      ∃ k, o = .table k ∧ k < tables.length)
    (hlimit : config.frameLimit ≤ limit)
    (hadmits : (start tables registry config inboxCapacity limit).AdmitsRun steps) :
    ∃ c, w.client? = some c ∧ (∀ m ∈ c.messages, ¬m.IsViolation) ∧
      (w.Quiet → ∀ id sub, c.subscriptions.find? id = some sub →
        (sub.replica.phase = .failed ∧ ∃ msg ∈ c.messages, msg.subscription = id ∧
          msg.success = false ∧ (msg.token, .modify) ∉ w.issued) ∨
        (sub.replica.phase = .live ∧ ∃ k t,
          registry.outputs.find? sub.selection.output = some (.table k) ∧
            w.hub.tables[k]? = some t ∧ sub.replica.Mirrors t.table sub.selection)) := by
  obtain ⟨hadmitted, x, asked, c, said, hgoing⟩ :=
    (going_start htables houtputs hlimit hadmits.admits).run hadmits
  have houtputs' : w.server.registry.outputs = registry.outputs := hw ▸ outputs_run _ steps
  rw [hw] at hgoing hadmitted
  refine ⟨c, hgoing.client, hgoing.accord.clean, fun hquiet id sub hsub => ?_⟩
  obtain ⟨houtgoing, hinbox⟩ := hquiet.client c hgoing.client
  have hreads := hgoing.reads
  rw [hquiet.up, houtgoing] at hreads
  have hhears := hgoing.hears
  rw [hquiet.down, hquiet.sent] at hhears
  have haccord := hgoing.accord
  rw [hreads.all_read hquiet.gate, hhears.all_read hinbox] at haccord
  rw [← houtputs']
  exact haccord.at_rest hadmitted.tokens hsub

/-- Two subscriptions, one of them to an output that does not exist, and a modification that nobody
decides about. The requests arrive in two pieces, and so do the responses; the table fires between
them. -/
def interleaved : List Step :=
  [.act 0 (.insert [⟨.name "a", ⟨.int32, 7⟩⟩]), .subscribe (.everything "T"),
    .subscribe (.everything "U"), .carryUp 9, .serve, .modify 1 ⟨"k", "sort", []⟩, .carryUp 500,
    .serve, .carryDown 30, .poll, .fire 0, .carryDown 500, .poll]

theorem converges_interleaved :
    let schema : Schema := ⟨⟨"T", [⟨"b", .bool, {}⟩, ⟨"a", .int32, {}⟩]⟩, by decide⟩
    let registry : Registry := { outputs := .ofList [("T", .table 0)] }
    let first := start [.plain (.create schema)] registry { frameLimit := 1000 } 4 1000
    let w := first.run interleaved
    (∀ name o, registry.outputs.find? name = some o → ∃ k, o = .table k ∧ k < 1) ∧
      first.AdmitsRun interleaved ∧ w.Quiet ∧
      ∃ c, w.client? = some c ∧ (∀ m ∈ c.messages, ¬m.IsViolation) ∧
        c.messages.map (·.success) = [true, false, false] ∧
        (∃ sub t, c.subscriptions.find? 1 = some sub ∧ sub.replica.phase = .live ∧
          w.hub.tables[0]? = some t ∧ sub.replica.Mirrors t.table sub.selection ∧
          sub.replica.get 0 "a" = .ok ⟨.int32, 7⟩) ∧
        ∃ sub, c.subscriptions.find? 2 = some sub ∧ sub.replica.phase = .failed := by
  intro schema registry first w
  have houtputs : ∀ name o, registry.outputs.find? name = some o →
      ∃ k, o = .table k ∧ k < 1 := by
    intro name o ho
    have hmem : (name, o) ∈ registry.outputs.toList := AscMap.find?_eq_some_iff.mp ho
    have hone : registry.outputs.toList = [("T", .table 0)] := by decide +kernel
    rw [hone, List.mem_singleton] at hmem
    cases hmem
    exact ⟨0, rfl, Nat.zero_lt_one⟩
  have hadmits : first.AdmitsRun interleaved := by decide +kernel
  obtain ⟨c, hc, hclean, hrest⟩ := converges (w := w) rfl
    (fun t ht => ⟨schema, by rw [List.mem_singleton.mp ht]; rfl⟩) houtputs (Nat.le_refl 1000) hadmits
  -- what is not said of every run
  have hrun : (w.up = [] ∧ w.down = [] ∧ w.gate.inbox.items.length = 0 ∧ w.hub.sentTo 0 = []) ∧
      ∀ c ∈ w.client?, (c.outgoing = [] ∧ c.inbox.items = []) ∧
        c.messages.map (·.success) = [true, false, false] ∧
        (c.subscriptions.find? 1).map (fun sub => (sub.replica.phase, sub.replica.get 0 "a")) =
          some (.live, .ok ⟨.int32, 7⟩) ∧
        (c.subscriptions.find? 2).map (·.replica.phase) = some .failed := by decide +kernel
  obtain ⟨⟨hup, hdown, hgate, hsent⟩, hclient⟩ := hrun
  obtain ⟨-, hmessages, hone, htwo⟩ := hclient c hc
  have hquiet : w.Quiet := by
    refine ⟨hup, hdown, fun id piece hpiece => ?_, hsent, fun c hc => ?_⟩
    · rw [List.length_eq_zero_iff.mp hgate] at hpiece
      cases hpiece
    · obtain ⟨⟨houtgoing, hitems⟩, -⟩ := hclient c hc
      refine ⟨houtgoing, fun piece hpiece => ?_⟩
      rw [hitems] at hpiece
      cases hpiece
  obtain ⟨sub, hsub, hlive⟩ := Option.map_eq_some_iff.mp hone
  obtain ⟨hphase, hread⟩ := Prod.mk.inj hlive
  refine ⟨houtputs, hadmits, hquiet, c, hc, hclean, hmessages, ?_, ?_⟩
  · rcases hrest hquiet 1 sub hsub with ⟨hfailed, -⟩ | ⟨-, k, t, ho, ht, hmirrors⟩
    · cases hphase.symm.trans hfailed
    · obtain ⟨j, hj, hlt⟩ := houtputs _ _ ho
      cases hj
      obtain rfl : k = 0 := by omega
      exact ⟨sub, t, hsub, hphase, ht, hmirrors, hread⟩
  · obtain ⟨sub, hsub, hfailed⟩ := Option.map_eq_some_iff.mp htwo
    exact ⟨sub, hsub, hfailed⟩

end Exchange

end TableFeed
