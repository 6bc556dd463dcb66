import Mathlib
import TableFeed.Hub
import TableFeed.Proofs.Replica.Runs
/-!
What a client makes of one response. Every acknowledgement is recorded. Unless it answers a request to
modify or to unsubscribe, or succeeds, a response goes to the replica it is addressed to; and as long
as replicas accept what they get, no violation is recorded.
-/

namespace TableFeed

/-! ### Texts of failures -/

theorem head_append {a b : String} {c : Char} (h : a.toList.head? = some c) :
    (a ++ b).toList.head? = some c := by
  rw [String.toList_append, List.head?_append, h]
  rfl

/-- No other error reads like a violation: their first letters differ. -/
theorem Error.message_ne_violation {e : Error} (he : e.isViolation = false) (id : Int32)
    (fault : OrderFault) : e.message ≠ (Error.protocolViolation id fault).message := by
  have hviolation : (Error.protocolViolation id fault).message.toList.head? = some 'P' :=
    head_append (head_append (head_append (a := "Protocol violation on subscription ") (by decide)))
  have hother : ∃ c, c ≠ 'P' ∧ e.message.toList.head? = some c := by
    cases e with
    | invalidRow row =>
        exact ⟨'R', by decide, head_append (head_append (a := "Row ") (by decide))⟩
    | typeMismatch expected got =>
        exact ⟨'T', by decide,
          head_append (head_append (head_append (a := "Type mismatch: expected ") (by decide)))⟩
    | fieldNotFound field =>
        exact ⟨'F', by decide, head_append (a := "Field not found: ") (by decide)⟩
    | invalidSchema fault =>
        exact ⟨'I', by decide, head_append (a := "Invalid schema: ") (by decide)⟩
    | unknownSubscription id =>
        exact ⟨'U', by decide, head_append (a := "Unknown subscription: ") (by decide)⟩
    | malformedFrame fault =>
        exact ⟨'M', by decide, head_append (a := "Malformed frame: ") (by decide)⟩
    | malformedMessage fault =>
        exact ⟨'M', by decide, head_append (a := "Malformed message: ") (by decide)⟩
    | protocolViolation id fault => cases he
    | invalidOperation fault =>
        exact ⟨'I', by decide, head_append (a := "Invalid operation: ") (by decide)⟩
  obtain ⟨c, hc, hhead⟩ := hother
  intro heq
  rw [heq, hviolation] at hhead
  exact hc (Option.some.inj hhead).symm

/-! ### What a replica keeps -/

namespace Replica

def SameEnds (r r' : Replica) : Prop :=
  r'.subscription = r.subscription ∧ r'.publisher.inputs = r.publisher.inputs

theorem sameEnds_publish (r : Replica) (batch : Batch) : r.SameEnds (r.publish batch).1 := by
  refine ⟨rfl, ?_⟩
  simp only [publish, Publisher.publish]
  split <;> rfl

/-- The rows of a message change which rows are live and nothing else of a replica. -/
theorem applyRows_eq (type : ResponseType) (rows : List RowId) (r : Replica) (sheet : Sheet)
    (batch : Batch) : ∃ ids, (applyRows type rows r sheet batch).1 = { r with rows := ids } := by
  induction rows generalizing r sheet batch with
  | nil => exact ⟨r.rows, rfl⟩
  | cons row rows ih =>
      cases type <;> rw [applyRows]
      case remove =>
        split
        · exact ⟨r.rows, rfl⟩
        · exact ih _ _ _
      case init | add =>
        split
        · exact ⟨r.rows, rfl⟩
        · exact ih _ _ _
      all_goals first | exact ih _ _ _ | (intro h; cases h)

theorem apply_eq (r : Replica) (type : ResponseType) (sheet : Sheet) (rows : List RowId)
    (writes : List ColumnWrite) : ∃ ids sheet', (r.apply type sheet rows writes).1 =
      { r with rows := ids, sheet := some sheet' } := by
  obtain ⟨ids, hrows⟩ := applyRows_eq type rows r sheet {}
  rw [apply]
  dsimp only
  split <;> exact ⟨ids, _, by rw [hrows]⟩

theorem sameEnds_acceptRows (r : Replica) (type : ResponseType) (sheet : Sheet) (d : RowData) :
    r.SameEnds (r.acceptRows type sheet d).1 := by
  rw [acceptRows]
  split
  · exact ⟨rfl, rfl⟩
  · split
    · exact ⟨rfl, rfl⟩
    next writes _ _ _ =>
      obtain ⟨ids, sheet', happly⟩ := r.apply_eq type sheet d.rows writes
      dsimp only
      rw [happly]
      split
      · exact ⟨rfl, rfl⟩
      · exact sameEnds_publish _ _

/-- Whatever a replica is sent, it is still that of its subscription, and its inputs stay. -/
theorem sameEnds_accept (r : Replica) (response : Response) :
    r.SameEnds (r.accept response).1 := by
  have hdata : ∀ type data, r.SameEnds (r.acceptData type data).1 := by
    intro type data
    rw [acceptData.eq_def]
    split
    · exact ⟨rfl, rfl⟩
    · split
      · exact ⟨rfl, rfl⟩
      · split
        · exact ⟨rfl, rfl⟩
        · exact ⟨rfl, rfl⟩
        · exact sameEnds_acceptRows ..
  rw [accept]
  split
  · exact ⟨rfl, rfl⟩
  · split
    · split
      · exact ⟨rfl, rfl⟩
      · dsimp only
        split <;> exact ⟨rfl, rfl⟩
    · rw [acceptSchema.eq_def]
      split
      · exact ⟨rfl, rfl⟩
      · split
        · exact ⟨rfl, rfl⟩
        · exact sameEnds_publish _ {}
    · exact hdata ..

end Replica

/-! ### One response -/

namespace Client

/-- Whether a response may reach a replica: it does not answer a request to modify or to
unsubscribe. -/
def Heeds (c : Client) (r : Response) : Prop :=
  r.type = .message →
    c.pending.find? r.token ≠ some .modify ∧ c.pending.find? r.token ≠ some .unsubscribe

instance (c : Client) (r : Response) : Decidable (c.Heeds r) :=
  inferInstanceAs (Decidable (_ → _))

/-- The responses that are still to reach the replica of a subscription. -/
def due (c : Client) (id : Int32) (rs : List Response) : List Response :=
  rs.filter fun r => r.subscription = id ∧ c.Heeds r

def reported (r : Response) : List ClientMessage :=
  if r.type = .message then
    [⟨r.subscription, r.token, (r.acknowledgement.getD {}).success,
      (r.acknowledgement.getD {}).message⟩]
  else []

structure Noted (c c' : Client) (r : Response) : Prop where
  limit : c'.limit = c.limit
  nextToken : c'.nextToken = c.nextToken
  nextId : c'.nextId = c.nextId
  pending : c'.pending = if r.type = .message then c.pending.erase r.token else c.pending
  stream : c'.stream = c.stream
  inbox : c'.inbox = c.inbox
  outgoing : c'.outgoing = c.outgoing
  hungUp : c'.hungUp = c.hungUp
  messages : c'.messages = c.messages ++ reported r

/-- A response is noted, and then it reaches the replica it is addressed to, or goes no further. -/
theorem dispatch_cases (c : Client) (r : Response) :
    ∃ c', Noted c c' r ∧ c'.subscriptions = c.subscriptions ∧
      ((c.dispatch r = c'.deliver r ∧ c.Heeds r) ∨
        (c.dispatch r = (c', none) ∧ r.type = .message ∧
          (c.Heeds r → (r.acknowledgement.getD {}).success = true))) := by
  by_cases hmessage : r.type = .message
  · obtain ⟨noted, hnoted⟩ : ∃ noted, noted = { c with pending := c.pending.erase r.token }.record
        ⟨r.subscription, r.token, (r.acknowledgement.getD {}).success,
          (r.acknowledgement.getD {}).message⟩ := ⟨_, rfl⟩
    have hpending : noted.pending = if r.type = .message then c.pending.erase r.token
        else c.pending := by
      rw [if_pos hmessage, hnoted]
      rfl
    have hmessages : noted.messages = c.messages ++ reported r := by
      rw [reported, if_pos hmessage, hnoted]
      rfl
    have hkept : Noted c noted r := by
      refine ⟨?_, ?_, ?_, hpending, ?_, ?_, ?_, ?_, hmessages⟩ <;> rw [hnoted] <;> rfl
    have hsame : noted.subscriptions = c.subscriptions := by
      rw [hnoted]
      rfl
    rw [dispatch, if_pos hmessage, acknowledge]
    rw [← hnoted]
    split
    next hunsubscribe =>
      refine ⟨{ noted with closing := noted.closing.erase r.subscription },
        ⟨hkept.limit, hkept.nextToken, hkept.nextId, hpending, hkept.stream, hkept.inbox,
          hkept.outgoing, hkept.hungUp, hmessages⟩, hsame, .inr ⟨rfl, hmessage, ?_⟩⟩
      exact fun hheeds => absurd hunsubscribe (hheeds hmessage).2
    next hunsubscribe =>
      refine ⟨noted, hkept, hsame, ?_⟩
      split
      next hquiet =>
        refine .inr ⟨rfl, hmessage, fun hheeds => ?_⟩
        rw [Bool.or_eq_true] at hquiet
        exact hquiet.resolve_right fun hmodify =>
          (hheeds hmessage).1 (of_decide_eq_true hmodify)
      next hquiet =>
        refine .inl ⟨rfl, fun _ => ⟨fun hmodify => hquiet ?_, hunsubscribe⟩⟩
        rw [Bool.or_eq_true]
        exact .inr (decide_eq_true hmodify)
  · rw [dispatch, if_neg hmessage]
    refine ⟨c, ⟨rfl, rfl, rfl, ?_, rfl, rfl, rfl, rfl, ?_⟩, rfl,
      .inl ⟨rfl, fun h => absurd h hmessage⟩⟩
    · rw [if_neg hmessage]
    · rw [reported, if_neg hmessage, List.append_nil]

/-- A client after a response was handled and the replica it reached, if it did, has accepted it:
that replica goes on as its machine does, and all others stay. -/
structure Handled (c c' : Client) (r : Response) : Prop extends Noted c c' r where
  absent : ∀ id, c.subscriptions.find? id = none → c'.subscriptions.find? id = none
  there : ∀ id sub m, c.subscriptions.find? id = some sub →
    Reflects id defaultRowLimit sub.replica m →
      ∃ sub', c'.subscriptions.find? id = some sub' ∧ sub'.selection = sub.selection ∧
        sub'.replica.publisher.inputs = sub.replica.publisher.inputs ∧
        Reflects id defaultRowLimit sub'.replica
          (if r.subscription = id ∧ c.Heeds r then (m.accept id defaultRowLimit r).1 else m)

/-- A client that has noted a response hands it over. -/
theorem handled_deliver {c c' : Client} {r : Response} (hnoted : Noted c c' r)
    (hsame : c'.subscriptions = c.subscriptions) (hheeds : c.Heeds r)
    (haccepts : ∀ sub, c.subscriptions.find? r.subscription = some sub →
      (sub.replica.accept r).2.2 = .ok ()) :
    Handled c (c'.deliver r).1 r ∧ ∀ told, (c'.deliver r).2 = some told →
      ((c'.deliver r).1.subscriptions.find? told.subscription).isSome := by
  rcases hfound : c.subscriptions.find? r.subscription with _ | sub
  · have hdeliver : c'.deliver r = (c', none) := by
      rw [deliver, hsame, hfound]
    rw [hdeliver]
    refine ⟨⟨hnoted, fun id hid => hsame ▸ hid, fun id sub m hsub hm => ?_⟩,
      fun told htold => by cases htold⟩
    rw [if_neg fun hr => by cases hfound.symm.trans (hr.1 ▸ hsub)]
    exact ⟨sub, hsame ▸ hsub, rfl, rfl, hm⟩
  · obtain ⟨after, hafter⟩ : ∃ after : ClientSubscription,
        after = ⟨sub.selection, (sub.replica.accept r).1⟩ := ⟨_, rfl⟩
    have hdeliver : c'.deliver r =
        ({ c' with subscriptions := c.subscriptions.insert r.subscription after },
          some ⟨r.subscription, (sub.replica.accept r).2.1⟩) := by
      rw [deliver, hsame, hfound, hafter]
      dsimp only
      rw [haccepts sub hfound]
    rw [hdeliver]
    refine ⟨⟨⟨hnoted.limit, hnoted.nextToken, hnoted.nextId, hnoted.pending, hnoted.stream,
      hnoted.inbox, hnoted.outgoing, hnoted.hungUp, hnoted.messages⟩, fun id hid => ?_,
      fun id sub' m hsub' hm => ?_⟩, fun told htold => ?_⟩
    · have hne : r.subscription ≠ id := fun heq => by
        rw [heq, hid] at hfound
        cases hfound
      exact (AscMap.find?_insert.trans (if_neg hne)).trans hid
    · by_cases hid : r.subscription = id
      · subst hid
        cases hfound.symm.trans hsub'
        rw [if_pos ⟨rfl, hheeds⟩]
        refine ⟨after, AscMap.find?_insert.trans (if_pos rfl), ?_⟩
        rw [hafter]
        exact ⟨rfl, (Replica.sameEnds_accept _ r).2, (hm.accept (by decide) r).1⟩
      · rw [if_neg fun hr => hid hr.1]
        exact ⟨sub', (AscMap.find?_insert.trans (if_neg hid)).trans hsub', rfl, rfl, hm⟩
    · cases htold
      rw [AscMap.find?_insert, if_pos rfl]
      rfl

theorem handled_dispatch {c : Client} {r : Response} (haccepts : c.Heeds r →
      ∀ sub, c.subscriptions.find? r.subscription = some sub →
        (sub.replica.accept r).2.2 = .ok ()) :
    Handled c (c.dispatch r).1 r ∧ ∀ told, (c.dispatch r).2 = some told →
      ((c.dispatch r).1.subscriptions.find? told.subscription).isSome := by
  obtain ⟨c', hnoted, hsame, ⟨heq, hheeds⟩ | ⟨heq, hmessage, hquiet⟩⟩ := dispatch_cases c r
  · rw [heq]
    exact handled_deliver hnoted hsame hheeds (haccepts hheeds)
  · rw [heq]
    refine ⟨⟨hnoted, fun id hid => hsame ▸ hid, fun id sub m hsub hm => ?_⟩,
      fun told htold => by cases htold⟩
    -- a success changes nothing, whether or not it is heeded
    have hidle : c.Heeds r → (m.accept id defaultRowLimit r).1 = m := by
      intro hheeds
      have hsuccess := hquiet hheeds
      rw [Mirror.accept]
      split
      · rfl
      · rw [hmessage]
        dsimp only
        split
        · rfl
        next ack hack =>
          rw [hack] at hsuccess
          exact if_pos hsuccess
    refine ⟨sub, hsame ▸ hsub, rfl, rfl, ?_⟩
    split
    next hr => exact (hidle hr.2).symm ▸ hm
    next => exact hm

end Client

/-- Nothing is attached to the replicas of a client, so nobody is told what they make of a
response. -/
theorem Hub.handleFrame_response {h : Hub} {c : Client} {r : Response}
    (hc : h.clients[0]? = some c)
    (htold : ∀ told, (c.dispatch r).2 = some told →
      ∃ sub, (c.dispatch r).1.subscriptions.find? told.subscription = some sub ∧
        sub.replica.publisher.inputs = []) :
    h.handleFrame 0 (.ok (.response r)) = h.setClient 0 (c.dispatch r).1 := by
  obtain ⟨hlt, -⟩ := List.getElem?_eq_some_iff.mp hc
  rw [handleFrame, hc]
  dsimp only
  rw [Client.handle]
  split
  next => rfl
  next told htold' =>
    obtain ⟨sub, hsub, hinputs⟩ := htold told htold'
    have hset : (h.setClient 0 (c.dispatch r).1).clients[0]? = some (c.dispatch r).1 :=
      List.getElem?_set_self hlt
    have hattached : (h.setClient 0 (c.dispatch r).1).attached
        (.subscription 0 told.subscription) = [] := by
      simp [attached, display?, hset, Client.replica?, hsub, Replica.display, hinputs]
    rw [tellReplica, broadcast, hattached]
    rfl

end TableFeed
