import Mathlib
import TableFeed.Proofs.Connection.Chunks
/-!
Reconnecting. A client that subscribes to everything again starts over: what its replicas show, what it
was reading and what it was waiting for no longer matters, and two clients that differ in nothing else
go on alike. Only the pieces that are still queued are not dropped: they are read as if they came on the
new connection.
-/

namespace TableFeed

open Wire

/-! ### Replicas -/

namespace Replica

/-- A replica as it shows itself, apart from who listens to it and how often it has started over. -/
def face (r : Replica) : Replica :=
  { r with publisher := { r.publisher with inputs := [] }, restarts := 0 }

/-- A replica of the same subscription that has not been sent anything. -/
def blank (r : Replica) : Replica := { subscription := r.subscription, rowLimit := r.rowLimit }

theorem face_reset (r : Replica) : r.reset.1.face = r.blank := by
  rfl

theorem publish_face (r : Replica) (batch : Batch) :
    (r.face.publish batch).1.face = (r.publish batch).1.face ∧
      (r.face.publish batch).2 = (r.publish batch).2 := by
  obtain ⟨sub, phase, sheet, rows, ⟨inputs, latest, replaced, schema, shown⟩, limit, restarts⟩ := r
  cases replaced <;> exact ⟨rfl, rfl⟩

theorem applyRows_face (type : ResponseType) (rows : List RowId) (r : Replica) (sheet : Sheet)
    (batch : Batch) :
    applyRows type rows r.face sheet batch =
      ((applyRows type rows r sheet batch).1.face, (applyRows type rows r sheet batch).2) := by
  induction rows generalizing r sheet batch with
  | nil => rfl
  | cons row rows ih =>
      have hids : r.face.rows = r.rows := rfl
      cases type <;> simp only [applyRows, hids]
      case remove =>
        split
        · rfl
        next ids _ => exact ih { r with rows := ids } _ _
      case init | add =>
        split
        · rfl
        next ids _ _ => exact ih { r with rows := ids } _ _
      all_goals exact ih r _ _

theorem apply_face (r : Replica) (type : ResponseType) (sheet : Sheet) (rows : List RowId)
    (writes : List ColumnWrite) :
    r.face.apply type sheet rows writes =
      ((r.apply type sheet rows writes).1.face, (r.apply type sheet rows writes).2) := by
  simp only [apply, applyRows_face]
  cases (applyRows type rows r sheet {}).2.2 <;> rfl

theorem acceptRows_face (r : Replica) (type : ResponseType) (sheet : Sheet) (d : RowData) :
    (r.face.acceptRows type sheet d).1.face = (r.acceptRows type sheet d).1.face ∧
      (r.face.acceptRows type sheet d).2 = (r.acceptRows type sheet d).2 := by
  have hshape : r.face.checkShape type sheet d = r.checkShape type sheet d := rfl
  have hconflict : r.face.conflict type d.rows = r.conflict type d.rows := rfl
  simp only [acceptRows, hshape, hconflict, apply_face]
  cases r.checkShape type sheet d with
  | error e => exact ⟨rfl, rfl⟩
  | ok writes =>
      dsimp only
      cases r.conflict type d.rows with
      | some fault => exact ⟨rfl, rfl⟩
      | none =>
          dsimp only
          cases (r.apply type sheet d.rows writes).2 with
          | error e => exact ⟨rfl, rfl⟩
          | ok batch =>
              obtain ⟨hshows, htold⟩ := publish_face
                { (r.apply type sheet d.rows writes).1 with phase := .live } batch
              exact ⟨hshows, congrArg (·, Except.ok ()) htold⟩

/-- Who listens to a replica does not matter to what it makes of a response. -/
theorem accept_face (r : Replica) (response : Response) :
    (r.face.accept response).1.face = (r.accept response).1.face ∧
      (r.face.accept response).2 = (r.accept response).2 := by
  have hdata : ∀ type data, (r.face.acceptData type data).1.face = (r.acceptData type data).1.face ∧
      (r.face.acceptData type data).2 = (r.acceptData type data).2 := by
    intro type data
    have hphase : r.face.phase = r.phase := rfl
    have hsheet : r.face.sheet = r.sheet := rfl
    simp only [acceptData.eq_def, hphase, hsheet]
    split
    · exact ⟨rfl, rfl⟩
    · split
      · exact ⟨rfl, rfl⟩
      · split
        · exact ⟨rfl, rfl⟩
        · exact ⟨rfl, rfl⟩
        · exact acceptRows_face ..
  have hsub : r.face.subscription = r.subscription := rfl
  simp only [accept, hsub]
  split
  · exact ⟨rfl, rfl⟩
  · split
    · split
      · exact ⟨rfl, rfl⟩
      · dsimp only
        split <;> exact ⟨rfl, rfl⟩
    · simp only [acceptSchema.eq_def]
      split
      · exact ⟨rfl, rfl⟩
      · split <;> exact ⟨rfl, rfl⟩
    · exact hdata ..

theorem accept_congr {r r' : Replica} (h : r.face = r'.face) (response : Response) :
    (r.accept response).1.face = (r'.accept response).1.face ∧
      (r.accept response).2 = (r'.accept response).2 := by
  have hr := r.accept_face response
  have hr' := r'.accept_face response
  rw [h] at hr
  exact ⟨hr.1.symm.trans hr'.1, hr.2.symm.trans hr'.2⟩

end Replica

/-! ### Clients -/

namespace ClientSubscription

def face (sub : ClientSubscription) : ClientSubscription :=
  { sub with replica := sub.replica.face }

def terms (sub : ClientSubscription) : ClientSubscription :=
  { sub with replica := sub.replica.blank }

end ClientSubscription

namespace Client

/-- Clients that may differ in what the old connection left behind: the bytes read or queued, the
requests under way and all that was sent to the replicas. -/
structure Akin (c c' : Client) : Prop where
  limit : c.limit = c'.limit
  nextToken : c.nextToken = c'.nextToken
  nextId : c.nextId = c'.nextId
  outgoing : c.outgoing = c'.outgoing
  hungUp : c.hungUp = c'.hungUp
  messages : c.messages = c'.messages
  subscriptions : c.subscriptions.mapValues ClientSubscription.terms =
    c'.subscriptions.mapValues ClientSubscription.terms

def rest (c : Client) : Client := { c with subscriptions := ∅, inbox := default }

/-- Clients that do the same from now on, except for the subscriptions `left` to renew. If they are
to read their queues, these are the same as well. -/
structure Agree (polls : Prop) (left : List Int32) (c c' : Client) : Prop where
  rest : c.rest = c'.rest
  inbox : polls → c.inbox = c'.inbox
  subscriptions : ∀ id, id ∉ left →
    (c.subscriptions.find? id).map ClientSubscription.face =
      (c'.subscriptions.find? id).map ClientSubscription.face

variable {polls : Prop} {left : List Int32} {c c' : Client}

theorem rest_send (c : Client) (id : Int32) (type : RequestType) (selection : Option Selection) :
    (c.send id type selection).1.rest = (c.rest.send id type selection).1 := rfl

theorem Agree.send (h : Agree polls left c c') (id : Int32) (type : RequestType)
    (selection : Option Selection) :
    Agree polls left (c.send id type selection).1 (c'.send id type selection).1 ∧
      (c.send id type selection).2 = (c'.send id type selection).2 := by
  have htoken := congrArg Client.nextToken h.rest
  refine ⟨⟨?_, h.inbox, h.subscriptions⟩, htoken⟩
  rw [rest_send, rest_send, h.rest]

/-- Subscriptions that show themselves alike take the place of what was there. -/
theorem Agree.insert {sub sub' : ClientSubscription} {id : Int32}
    (h : Agree polls (id :: left) c c') (hsub : sub.face = sub'.face) :
    Agree polls left { c with subscriptions := c.subscriptions.insert id sub }
      { c' with subscriptions := c'.subscriptions.insert id sub' } := by
  refine ⟨h.rest, h.inbox, fun j hj => ?_⟩
  show ((c.subscriptions.insert id sub).find? j).map ClientSubscription.face =
    ((c'.subscriptions.insert id sub').find? j).map ClientSubscription.face
  rw [AscMap.find?_insert, AscMap.find?_insert]
  split
  next => exact congrArg some hsub
  next hne => exact h.subscriptions j (List.not_mem_cons_of_ne_of_not_mem (Ne.symm hne) hj)

theorem Agree.weaken (h : Agree polls left c c') (id : Int32) : Agree polls (id :: left) c c' :=
  ⟨h.rest, h.inbox, fun j hj => h.subscriptions j (List.not_mem_of_not_mem_cons hj)⟩

theorem Agree.renew {sub sub' : ClientSubscription} {id : Int32}
    (h : Agree polls (id :: left) c c') (hsub : sub.terms = sub'.terms) :
    Agree polls left (c.renew id sub).1 (c'.renew id sub').1 ∧
      (c.renew id sub).2 = (c'.renew id sub').2 := by
  obtain ⟨selection, r⟩ := sub
  obtain ⟨selection', r'⟩ := sub'
  obtain ⟨rfl, hblank⟩ : selection = selection' ∧ r.blank = r'.blank := by
    simpa [ClientSubscription.terms] using hsub
  have hface : (⟨selection, r.reset.1⟩ : ClientSubscription).face =
      (⟨selection, r'.reset.1⟩ : ClientSubscription).face := by
    rw [ClientSubscription.face, ClientSubscription.face, Replica.face_reset, Replica.face_reset,
      hblank]
  exact ⟨((h.insert hface).send id .subscribe (some selection)).1, rfl⟩

def renewAll (c : Client) (told : List ReplicaNotices) (subs : List (Int32 × ClientSubscription)) :
    Client × List ReplicaNotices :=
  subs.foldl (fun (c, told) (id, sub) => ((c.renew id sub).1, told ++ [(c.renew id sub).2])) (c, told)

theorem Agree.renewAll {subs subs' : List (Int32 × ClientSubscription)}
    (h : Agree polls (subs.map (·.1)) c c')
    (hsubs : subs.map (fun e => (e.1, e.2.terms)) = subs'.map fun e => (e.1, e.2.terms))
    (told : List ReplicaNotices) :
    Agree polls [] (c.renewAll told subs).1 (c'.renewAll told subs').1 ∧
      (c.renewAll told subs).2 = (c'.renewAll told subs').2 := by
  induction subs generalizing subs' c c' told with
  | nil =>
      rw [List.map_nil, eq_comm, List.map_eq_nil_iff] at hsubs
      rw [hsubs]
      exact ⟨h, rfl⟩
  | cons e subs ih =>
      rcases subs' with _ | ⟨e', subs'⟩
      · cases hsubs
      · obtain ⟨id, sub⟩ := e
        obtain ⟨id', sub'⟩ := e'
        simp only [List.map_cons, List.cons.injEq, Prod.mk.injEq] at hsubs
        obtain ⟨⟨rfl, hterms⟩, hsubs⟩ := hsubs
        obtain ⟨hnext, htold⟩ := Agree.renew h hterms
        rw [Client.renewAll, Client.renewAll, List.foldl_cons, List.foldl_cons]
        dsimp only
        rw [htold]
        exact ih hnext hsubs (told ++ [(c'.renew id sub').2])

def cleared (c : Client) : Client :=
  { c with stream := { limit := c.limit }, pending := ∅, closing := ∅ }

theorem resubscribeAll_eq (c : Client) :
    c.resubscribeAll = c.cleared.renewAll [] c.subscriptions.toList := rfl

/-- What the old connection left behind is gone once everything has been subscribed to again. -/
theorem Akin.agree_resubscribeAll (h : Akin c c') (hinbox : polls → c.inbox = c'.inbox) :
    Agree polls [] c.resubscribeAll.1 c'.resubscribeAll.1 ∧
      c.resubscribeAll.2 = c'.resubscribeAll.2 := by
  have hsubs := congrArg AscMap.toList h.subscriptions
  have hstart : Agree polls (c.subscriptions.toList.map (·.1)) c.cleared c'.cleared := by
    refine ⟨?_, hinbox, ?_⟩
    · simp only [rest, cleared, h.limit, h.nextToken, h.nextId, h.outgoing, h.hungUp, h.messages]
    · intro id hid
      have hkeys : c.subscriptions.toList.map (·.1) = c'.subscriptions.toList.map (·.1) := by
        have hfirst := congrArg (List.map (·.1)) hsubs
        rwa [AscMap.mapValues, AscMap.mapValues, List.map_map, List.map_map] at hfirst
      have hnone : c.subscriptions.find? id = none := AscMap.lookIn_eq_none_iff.mpr hid
      have hnone' : c'.subscriptions.find? id = none := AscMap.lookIn_eq_none_iff.mpr (hkeys ▸ hid)
      show (c.subscriptions.find? id).map _ = (c'.subscriptions.find? id).map _
      rw [hnone, hnone']
  rw [resubscribeAll_eq, resubscribeAll_eq]
  exact hstart.renewAll hsubs []

/-! Clients that agree go on alike. -/

/-- A change of other things than the subscriptions and the queue. -/
theorem Agree.update (h : Agree polls left c c') (f : Client → Client)
    (hrest : ∀ c : Client, (f c).rest = f c.rest) (hinbox : ∀ c, (f c).inbox = c.inbox)
    (hsubs : ∀ c, (f c).subscriptions = c.subscriptions) : Agree polls left (f c) (f c') := by
  refine ⟨?_, ?_, ?_⟩
  · rw [hrest, hrest, h.rest]
  · rw [hinbox, hinbox]
    exact h.inbox
  · rw [hsubs, hsubs]
    exact h.subscriptions

theorem Agree.record (h : Agree polls left c c') (m : ClientMessage) :
    Agree polls left (c.record m) (c'.record m) :=
  h.update (·.record m) (fun _ => rfl) (fun _ => rfl) fun _ => rfl

theorem Agree.pending (h : Agree polls left c c') : c.pending = c'.pending := by
  have hpending := congrArg Client.pending h.rest
  exact hpending

theorem Agree.stream (h : Agree polls left c c') : c.stream = c'.stream := by
  have hstream := congrArg Client.stream h.rest
  exact hstream

theorem Agree.messages (h : Agree polls left c c') : c.messages = c'.messages := by
  have hmessages := congrArg Client.messages h.rest
  exact hmessages

theorem Agree.outgoing (h : Agree polls left c c') : c.outgoing = c'.outgoing := by
  have houtgoing := congrArg Client.outgoing h.rest
  exact houtgoing

theorem Agree.nextId (h : Agree polls left c c') : c.nextId = c'.nextId := by
  have hid := congrArg Client.nextId h.rest
  exact hid

theorem Agree.find?_cases (h : Agree polls [] c c') (id : Int32) :
    (c.subscriptions.find? id = none ∧ c'.subscriptions.find? id = none) ∨
      ∃ sub sub', c.subscriptions.find? id = some sub ∧ c'.subscriptions.find? id = some sub' ∧
        sub.face = sub'.face := by
  have hsame := h.subscriptions id List.not_mem_nil
  rcases hc : c.subscriptions.find? id with _ | sub <;>
    rcases hc' : c'.subscriptions.find? id with _ | sub' <;> rw [hc, hc'] at hsame
  case none.none => exact .inl ⟨rfl, rfl⟩
  case some.some => exact .inr ⟨sub, sub', rfl, rfl, Option.some.inj hsame⟩
  all_goals cases hsame

theorem Agree.deliver (h : Agree polls [] c c') (r : Response) :
    Agree polls [] (c.deliver r).1 (c'.deliver r).1 ∧ (c.deliver r).2 = (c'.deliver r).2 := by
  rcases h.find?_cases r.subscription with ⟨hnone, hnone'⟩ | ⟨sub, sub', hsub, hsub', hface⟩
  · simp only [Client.deliver, hnone, hnone', and_true]
    exact h
  · obtain ⟨selection, replica⟩ := sub
    obtain ⟨selection', replica'⟩ := sub'
    obtain ⟨rfl, hreplica⟩ : selection = selection' ∧ replica.face = replica'.face := by
      simpa [ClientSubscription.face] using hface
    obtain ⟨hnext, htold⟩ := Replica.accept_congr hreplica r
    have hgoes : Agree polls []
        { c with subscriptions :=
            c.subscriptions.insert r.subscription ⟨selection, (replica.accept r).1⟩ }
        { c' with subscriptions :=
            c'.subscriptions.insert r.subscription ⟨selection, (replica'.accept r).1⟩ } :=
      (h.weaken r.subscription).insert (by rw [ClientSubscription.face, hnext]; rfl)
    simp only [Client.deliver, hsub, hsub', htold, and_true]
    rcases (replica'.accept r).2.2 with e | _
    · cases e
      case protocolViolation => exact hgoes.record _
      all_goals exact hgoes
    · exact hgoes

theorem Agree.acknowledge (h : Agree polls [] c c') (r : Response) :
    Agree polls [] (c.acknowledge r).1 (c'.acknowledge r).1 ∧
      (c.acknowledge r).2 = (c'.acknowledge r).2 := by
  let ack := r.acknowledgement.getD {}
  let note (d : Client) : Client := { d with pending := c'.pending.erase r.token }.record
    ⟨r.subscription, r.token, ack.success, ack.message⟩
  have hnoted : Agree polls [] (note c) (note c') :=
    h.update note (fun _ => rfl) (fun _ => rfl) fun _ => rfl
  have hclosed : ∀ d d', Agree polls [] d d' →
      Agree polls [] { d with closing := d.closing.erase r.subscription }
        { d' with closing := d'.closing.erase r.subscription } := fun d d' hd =>
    hd.update (fun c => { c with closing := c.closing.erase r.subscription }) (fun _ => rfl)
      (fun _ => rfl) fun _ => rfl
  rw [Client.acknowledge, Client.acknowledge, h.pending]
  split
  · exact ⟨hclosed _ _ hnoted, rfl⟩
  · split
    · exact ⟨hnoted, rfl⟩
    · exact hnoted.deliver r

/-- Clients that agree make the same of a frame. -/
theorem Agree.handle (h : Agree polls [] c c') (result : Except Error Frame) :
    Agree polls [] (c.handle result).1 (c'.handle result).1 ∧
      (c.handle result).2 = (c'.handle result).2 := by
  rcases result with e | r | r
  · exact ⟨h, rfl⟩
  · exact ⟨h, rfl⟩
  · simp only [Client.handle, Client.dispatch]
    split
    · exact h.acknowledge r
    · exact h.deliver r

theorem Agree.restream (h : Agree polls left c c') (stream : Wire.Stream) :
    Agree polls left (c.restream stream) (c'.restream stream) :=
  h.update (·.restream stream) (fun _ => rfl) (fun _ => rfl) fun _ => rfl

theorem Agree.subscribe (h : Agree polls [] c c') (selection : Selection) :
    Agree polls [] (c.subscribe selection).1 (c'.subscribe selection).1 ∧
      (c.subscribe selection).2 = (c'.subscribe selection).2 := by
  have hnext : Agree polls [] { c with nextId := c.nextId + 1 } { c' with nextId := c.nextId + 1 } :=
    h.update (fun d => { d with nextId := c.nextId + 1 }) (fun _ => rfl) (fun _ => rfl) fun _ => rfl
  obtain ⟨hsent, -⟩ := hnext.send c.nextId .subscribe (some selection)
  simp only [Client.subscribe, ← h.nextId, and_true]
  exact (hsent.weaken c.nextId).insert rfl

theorem Agree.modify (h : Agree polls [] c c') (id : Int32) (m : Modification) :
    (∃ x x', c.modify id m = .ok x ∧ c'.modify id m = .ok x' ∧ Agree polls [] x.1 x'.1 ∧ x.2 = x'.2) ∨
      ∃ e, c.modify id m = .error e ∧ c'.modify id m = .error e := by
  rcases h.find?_cases id with ⟨hnone, hnone'⟩ |
    ⟨⟨selection, r⟩, ⟨selection', r'⟩, hsub, hsub', hface⟩
  · exact .inr ⟨.unknownSubscription id, by rw [Client.modify, hnone], by rw [Client.modify, hnone']⟩
  · obtain rfl : selection = selection' := (ClientSubscription.mk.inj hface).1
    exact .inl ⟨_, _, by rw [Client.modify, hsub], by rw [Client.modify, hsub'], h.send ..⟩

theorem Agree.unsubscribe (h : Agree polls [] c c') (id : Int32) :
    (∃ x x', c.unsubscribe id = .ok x ∧ c'.unsubscribe id = .ok x' ∧ Agree polls [] x.1 x'.1 ∧
        x.2 = x'.2) ∨
      ∃ e, c.unsubscribe id = .error e ∧ c'.unsubscribe id = .error e := by
  rw [Client.unsubscribe, Client.unsubscribe]
  rcases h.find?_cases id with ⟨hnone, hnone'⟩ | ⟨sub, sub', hsub, hsub', -⟩
  · refine .inr ⟨.unknownSubscription id, if_neg ?_, if_neg ?_⟩
    · simp [AscMap.contains, hnone]
    · simp [AscMap.contains, hnone']
  · have hclosing := h.update (fun c => { c with closing := c.closing.insert id }) (fun _ => rfl)
      (fun _ => rfl) fun _ => rfl
    have hleft : Agree polls []
        { c with subscriptions := c.subscriptions.erase id, closing := c.closing.insert id }
        { c' with subscriptions := c'.subscriptions.erase id, closing := c'.closing.insert id } := by
      refine ⟨hclosing.rest, h.inbox, fun j hj => ?_⟩
      show ((c.subscriptions.erase id).find? j).map _ = ((c'.subscriptions.erase id).find? j).map _
      rw [AscMap.find?_erase, AscMap.find?_erase]
      split
      · rfl
      · exact h.subscriptions j hj
    refine .inl ⟨_, _, if_pos ?_, if_pos ?_, hleft.send ..⟩
    · simp [AscMap.contains, hsub]
    · simp [AscMap.contains, hsub']

end Client

/-! ### What a client is asked to do -/

inductive Client.Task
  | queue (piece : Bytes)
  | poll
  | receive (bytes : Bytes)
  | subscribe (selection : Selection)
  | unsubscribe (id : Int32)
  | modify (id : Int32) (m : Modification)
  | takeMessages
  | takeOutgoing

inductive Client.Reply
  | absent
  | queued (refusal : Option Refusal)
  | handled (result : Except Error Nat)
  | subscribed (id : Int32)
  | asked (result : Except Error Int64)
  | messages (ms : List ClientMessage)
  | outgoing (frames : List Bytes)
  deriving DecidableEq

def Client.Task.Queues : Client.Task → Prop
  | .queue _ | .poll => True
  | _ => False

namespace Hub

def onClient (h : Hub) (k : Nat) (f : Client → Client × Client.Reply) : Hub × Client.Reply :=
  match h.clients[k]? with
  | none => (h, .absent)
  | some c => (h.setClient k (f c).1, (f c).2)

def attend (h : Hub) (k : Nat) : Client.Task → Hub × Client.Reply
  | .queue piece =>
    h.onClient k fun c =>
      match c.queue piece with
      | .ok c => (c, .queued none)
      | .error refusal => (c, .queued (some refusal))
  | .poll =>
    let (h, result) := h.pollClient k
    (h, .handled result)
  | .receive bytes =>
    let (h, result) := h.receive k bytes
    (h, .handled result)
  | .subscribe selection =>
    h.onClient k fun c =>
      let (c, id) := c.subscribe selection
      (c, .subscribed id)
  | .unsubscribe id =>
    let (h, result) := h.unsubscribe k id
    (h, .asked result)
  | .modify id m =>
    h.onClient k fun c =>
      match c.modify id m with
      | .ok (c, token) => (c, .asked (.ok token))
      | .error e => (c, .asked (.error e))
  | .takeMessages =>
    h.onClient k fun c =>
      let (c, ms) := c.takeMessages
      (c, .messages ms)
  | .takeOutgoing =>
    h.onClient k fun c =>
      let (c, frames) := c.takeOutgoing
      (c, .outgoing frames)

def attendAll (h : Hub) (k : Nat) : List Client.Task → Hub × List Client.Reply
  | [] => (h, [])
  | task :: tasks =>
    let (h, reply) := h.attend k task
    let (h, replies) := h.attendAll k tasks
    (h, reply :: replies)

variable {h g : Hub} {k : Nat} {polls : Prop} {c c' : Client}

/-- Hubs in which a client agrees with its counterpart; nothing is asked of the rest. -/
def Agree (polls : Prop) (k : Nat) (h g : Hub) : Prop :=
  ∃ c c', h.clients[k]? = some c ∧ g.clients[k]? = some c' ∧ Client.Agree polls [] c c'

theorem Agree.handleAll (hagree : Agree polls k h g) (results : List (Except Error Frame)) :
    Agree polls k (h.handleAll k results) (g.handleAll k results) := by
  induction results generalizing h g with
  | nil => exact hagree
  | cons result results ih =>
      obtain ⟨c, c', hc, hc', hsame⟩ := hagree
      exact ih ⟨_, _, client_handleFrame hc result, client_handleFrame hc' result,
        (hsame.handle result).1⟩

theorem Agree.receive (hagree : Agree polls k h g) (bytes : Bytes) :
    Agree polls k (h.receive k bytes).1 (g.receive k bytes).1 ∧
      (h.receive k bytes).2 = (g.receive k bytes).2 := by
  obtain ⟨c, c', hc, hc', hsame⟩ := hagree
  rw [receive_eq hc, receive_eq hc', hsame.stream]
  refine ⟨?_, rfl⟩
  obtain ⟨d, d', hd, hd', hnext⟩ := Agree.handleAll ⟨c, c', hc, hc', hsame⟩
    (c'.stream.push bytes).drain.2
  exact ⟨_, _, clients_restream hd _, clients_restream hd' _, hnext.restream _⟩

theorem Agree.pollPieces (hpolls : polls) (pieces handled : Nat) (hagree : Agree polls k h g) :
    Agree polls k (h.pollPieces k pieces handled).1 (g.pollPieces k pieces handled).1 ∧
      (h.pollPieces k pieces handled).2 = (g.pollPieces k pieces handled).2 := by
  induction pieces generalizing h g handled with
  | zero => exact ⟨hagree, rfl⟩
  | succ pieces ih =>
      have hkept := hagree
      obtain ⟨c, c', hc, hc', hsame⟩ := hagree
      have hinbox := hsame.inbox hpolls
      rw [Hub.pollPieces, Hub.pollPieces, hc, hc', Option.bind_some, Option.bind_some,
        Client.nextPiece, Client.nextPiece, hinbox]
      rcases c'.inbox.items with _ | ⟨piece, rest⟩
      · exact ⟨hkept, rfl⟩
      · have htaken : Client.Agree polls [] { c with inbox := { c'.inbox with items := rest } }
            { c' with inbox := { c'.inbox with items := rest } } :=
          ⟨hsame.rest, fun _ => rfl, hsame.subscriptions⟩
        obtain ⟨hnext, hresult⟩ := Agree.receive
          ⟨_, _, client_setClient hc, client_setClient hc', htaken⟩ piece
        dsimp only
        generalize (h.setClient k _).receive k piece = x at hnext hresult ⊢
        generalize (g.setClient k _).receive k piece = y at hnext hresult ⊢
        obtain ⟨h', result⟩ := x
        obtain ⟨g', result'⟩ := y
        obtain rfl : result = result' := hresult
        cases result with
        | error e => exact ⟨hnext, rfl⟩
        | ok n => exact ih (handled + n) hnext

theorem Agree.pollClient (hpolls : polls) (hagree : Agree polls k h g) :
    Agree polls k (h.pollClient k).1 (g.pollClient k).1 ∧
      (h.pollClient k).2 = (g.pollClient k).2 := by
  obtain ⟨c, c', hc, hc', hsame⟩ := hagree
  rw [Hub.pollClient, Hub.pollClient, hc, hc', Option.map_some, Option.map_some, hsame.inbox hpolls]
  exact Agree.pollPieces hpolls _ 0 ⟨c, c', hc, hc', hsame⟩

theorem Agree.onClient {f : Client → Client × Client.Reply} (hagree : Agree polls k h g)
    (hf : ∀ c c', Client.Agree polls [] c c' →
      Client.Agree polls [] (f c).1 (f c').1 ∧ (f c).2 = (f c').2) :
    Agree polls k (h.onClient k f).1 (g.onClient k f).1 ∧
      (h.onClient k f).2 = (g.onClient k f).2 := by
  obtain ⟨c, c', hc, hc', hsame⟩ := hagree
  obtain ⟨hnext, hreply⟩ := hf c c' hsame
  simp only [Hub.onClient, hc, hc']
  exact ⟨⟨_, _, client_setClient hc, client_setClient hc', hnext⟩, hreply⟩

theorem Agree.unsubscribe (hagree : Agree polls k h g) (id : Int32) :
    Agree polls k (h.unsubscribe k id).1 (g.unsubscribe k id).1 ∧
      (h.unsubscribe k id).2 = (g.unsubscribe k id).2 := by
  have hkept := hagree
  obtain ⟨c, c', hc, hc', hsame⟩ := hagree
  rw [Hub.unsubscribe, Hub.unsubscribe, hc, hc']
  rcases hsame.unsubscribe id with ⟨x, x', hx, hx', hnext, htoken⟩ | ⟨e, he, he'⟩
  · simp only [hx, hx', htoken, and_true]
    exact ⟨_, _, client_setClient hc, client_setClient hc', hnext⟩
  · simp only [he, he', and_true]
    exact hkept

/-- A task comes to the same for clients that agree. -/
theorem Agree.attend (hagree : Agree polls k h g) (task : Client.Task) (hpolls : task.Queues → polls) :
    Agree polls k (h.attend k task).1 (g.attend k task).1 ∧
      (h.attend k task).2 = (g.attend k task).2 := by
  cases task with
  | queue piece =>
      refine hagree.onClient fun c c' hsame => ?_
      have hinbox := hsame.inbox (hpolls trivial)
      simp only [Client.queue, hinbox]
      cases c'.inbox.offer piece with
      | error refusal => exact ⟨hsame, rfl⟩
      | ok inbox => exact ⟨⟨hsame.rest, fun _ => rfl, hsame.subscriptions⟩, rfl⟩
  | poll =>
      obtain ⟨hnext, hresult⟩ := hagree.pollClient (hpolls trivial)
      exact ⟨hnext, congrArg Client.Reply.handled hresult⟩
  | receive bytes =>
      obtain ⟨hnext, hresult⟩ := hagree.receive bytes
      exact ⟨hnext, congrArg Client.Reply.handled hresult⟩
  | subscribe selection =>
      refine hagree.onClient fun c c' hsame => ?_
      obtain ⟨hnext, hid⟩ := hsame.subscribe selection
      exact ⟨hnext, congrArg Client.Reply.subscribed hid⟩
  | unsubscribe id =>
      obtain ⟨hnext, hresult⟩ := hagree.unsubscribe id
      exact ⟨hnext, congrArg Client.Reply.asked hresult⟩
  | modify id m =>
      refine hagree.onClient fun c c' hsame => ?_
      rcases hsame.modify id m with ⟨x, x', hx, hx', hnext, htoken⟩ | ⟨e, he, he'⟩
      · simp only [hx, hx', htoken, and_true]
        exact hnext
      · simp only [he, he', and_true]
        exact hsame
  | takeMessages =>
      refine hagree.onClient fun c c' hsame => ⟨?_, ?_⟩
      · exact hsame.update (fun c => { c with messages := [] }) (fun _ => rfl) (fun _ => rfl)
          fun _ => rfl
      · exact congrArg Client.Reply.messages hsame.messages
  | takeOutgoing =>
      refine hagree.onClient fun c c' hsame => ⟨?_, ?_⟩
      · exact hsame.update (fun c => { c with outgoing := [] }) (fun _ => rfl) (fun _ => rfl)
          fun _ => rfl
      · exact congrArg Client.Reply.outgoing hsame.outgoing

theorem Agree.attendAll (hagree : Agree polls k h g) (tasks : List Client.Task)
    (hpolls : ∀ task ∈ tasks, task.Queues → polls) :
    Agree polls k (h.attendAll k tasks).1 (g.attendAll k tasks).1 ∧
      (h.attendAll k tasks).2 = (g.attendAll k tasks).2 := by
  induction tasks generalizing h g with
  | nil => exact ⟨hagree, rfl⟩
  | cons task tasks ih =>
      obtain ⟨hnext, hreply⟩ := hagree.attend task (hpolls task List.mem_cons_self)
      obtain ⟨hlast, hreplies⟩ := ih hnext fun task htask => hpolls task (List.mem_cons_of_mem _ htask)
      exact ⟨hlast, congrArg₂ List.cons hreply hreplies⟩

theorem clients_tellReplicas (h : Hub) (k : Nat) (told : List ReplicaNotices) :
    (told.foldl (fun h t => h.tellReplica k t) h).clients = h.clients := by
  induction told generalizing h with
  | nil => rfl
  | cons t told ih => exact (ih _).trans (clients_tellReplica h k t)

/-- Clients that differ in what an old connection left behind agree once they have subscribed again. -/
theorem agree_resubscribe (hc : h.clients[k]? = some c) (hc' : g.clients[k]? = some c')
    (hakin : Client.Akin c c') (hinbox : polls → c.inbox = c'.inbox) :
    Agree polls k (h.resubscribe k).1 (g.resubscribe k).1 ∧
      (h.resubscribe k).2 = (g.resubscribe k).2 := by
  obtain ⟨hsame, htold⟩ := hakin.agree_resubscribeAll hinbox
  rw [resubscribe, resubscribe, hc, hc']
  refine ⟨⟨_, _, ?_, ?_, hsame⟩, congrArg List.length htold⟩
  · dsimp only
    rw [clients_tellReplicas]
    exact client_setClient hc
  · dsimp only
    rw [clients_tellReplicas]
    exact client_setClient hc'

end Hub

/-- Clients that differ only in what an old connection left behind go on alike once they have
subscribed to everything again, if their queues are the same or are not read. -/
theorem resubscribe_forgets {h g : Hub} {k : Nat} {c c' : Client} (hc : h.clients[k]? = some c)
    (hc' : g.clients[k]? = some c') (hakin : Client.Akin c c') (tasks : List Client.Task)
    (hqueue : c.inbox = c'.inbox ∨ ∀ task ∈ tasks, ¬task.Queues) :
    (h.resubscribe k).2 = (g.resubscribe k).2 ∧
      ((h.resubscribe k).1.attendAll k tasks).2 = ((g.resubscribe k).1.attendAll k tasks).2 ∧
      ∃ d d', ((h.resubscribe k).1.attendAll k tasks).1.clients[k]? = some d ∧
        ((g.resubscribe k).1.attendAll k tasks).1.clients[k]? = some d' ∧
        (∀ id, (d.replica? id).map Replica.face = (d'.replica? id).map Replica.face) ∧
        d.messages = d'.messages ∧ d.outgoing = d'.outgoing := by
  obtain ⟨hagree, hcount⟩ := Hub.agree_resubscribe hc hc' hakin fun hsame : c.inbox = c'.inbox => hsame
  have hpolls : ∀ task ∈ tasks, task.Queues → c.inbox = c'.inbox := fun task htask hreads =>
    hqueue.resolve_right fun hquiet => hquiet task htask hreads
  obtain ⟨⟨d, d', hd, hd', hlast⟩, hreplies⟩ := hagree.attendAll tasks hpolls
  refine ⟨hcount, hreplies, d, d', hd, hd', fun id => ?_, hlast.messages, hlast.outgoing⟩
  have hshown := congrArg (Option.map ClientSubscription.replica)
    (hlast.subscriptions id List.not_mem_nil)
  rw [Option.map_map, Option.map_map] at hshown
  rw [Client.replica?, Client.replica?, Option.map_map, Option.map_map]
  exact hshown

/-- A client with half a frame in its buffer and a subscription that it has ended reads the new
connection from its beginning, as one does that has not been connected before. -/
theorem resubscribe_forgets_half :
    let layout := encodeResponse (.ofSchema 1 ⟨"T", []⟩)
    let c' : Client := ((Client.create 4 64).subscribe (.everything "T")).1
    let c : Client :=
      { c' with
        stream := c'.stream.push (layout.take 9), pending := ∅, closing := .ofList [7] }
    let h : Hub := { clients := [c] }
    let g : Hub := { clients := [c'] }
    let tasks : List Client.Task := [.receive layout, .poll, .takeOutgoing]
    c.stream.buffer.length = 9 ∧
      ((h.resubscribe 0).1.attendAll 0 tasks).2 = ((g.resubscribe 0).1.attendAll 0 tasks).2 ∧
      (((g.resubscribe 0).1.attendAll 0 tasks).1.clients[0]?.bind (·.replica? 1)).map (·.phase) =
        some .awaitingInit := by
  intro layout c' c h g tasks
  have hakin : Client.Akin c c' := ⟨rfl, rfl, rfl, rfl, rfl, rfl, rfl⟩
  exact ⟨by decide +kernel, (resubscribe_forgets (h := h) (g := g) (k := 0) rfl rfl hakin tasks
    (.inl rfl)).2.1, by decide +kernel⟩

/-- A piece of the old connection that is still queued reaches a replica that has been reset. -/
theorem resubscribe_reads_queue :
    let c' : Client := ((Client.create 4 64).subscribe (.everything "T")).1
    let c : Client :=
      { c' with inbox := { c'.inbox with items := [encodeResponse (.ofSchema 1 ⟨"T", []⟩)] } }
    let run (c : Client) := (({ clients := [c] } : Hub).resubscribe 0).1.attendAll 0 [.poll]
    let phase (c : Client) := ((run c).1.clients[0]?.bind (·.replica? 1)).map (·.phase)
    Client.Akin c c' ∧
      (run c).2 = [.handled (.ok 1)] ∧ (run c').2 = [.handled (.ok 0)] ∧
      phase c = some .awaitingInit ∧ phase c' = some .awaitingSchema := by
  intro c' c run phase
  exact ⟨⟨rfl, rfl, rfl, rfl, rfl, rfl, rfl⟩, by decide +kernel, by decide +kernel, by decide +kernel,
    by decide +kernel⟩

end TableFeed
