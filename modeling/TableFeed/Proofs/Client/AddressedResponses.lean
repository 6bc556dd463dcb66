import Mathlib
import TableFeed.Proofs.Client.Reconnecting
import TableFeed.Proofs.Connection.Agreement
import TableFeed.Proofs.Wire.Canonical
/-!
What one response does to a client. Whatever the client did before, a response read off its stream
changes at most the replica it is addressed to, and is recorded once if it is an acknowledgement or a
violation. The ids that a client gives are different, so nothing is addressed to a replica by the id of
a subscription that was ended.
-/

namespace TableFeed

open Wire

theorem AscMap.nodup_keys {κ α : Type} [Ord κ] [Std.TransOrd κ] [Std.LawfulEqOrd κ]
    (m : AscMap κ α) : (m.toList.map (·.1)).Nodup :=
  List.pairwise_map.mpr (m.ascending.imp fun h => AscSet.ne_of_compare_lt h)

/-! ### Responses of a stream -/

namespace Wire

variable {r : Response}

theorem complete_of_decodeFrame {piece : Bytes} (h : decodeFrame piece = .ok (.response r)) :
    r.Complete := by
  rw [decodeFrame.eq_def] at h
  split at h
  next a b c d code body =>
    dsimp only at h
    by_cases hlength : ofLittleEndian [a, b, c, d] = body.length + 1
    · rw [if_neg (not_not_intro hlength)] at h
      split at h
      · cases h
      next kind _ =>
        cases kind with
        | request =>
            rw [decodeBody] at h
            cases hread : Reader.request.whole body <;> rw [hread] at h <;> cases h
        | response => exact (spelledBody_of_decode h).1
    · rw [if_pos hlength] at h
      cases h
  · cases h

namespace Stream

theorem complete_of_told {s : Stream} (h : .ok (.response r) ∈ told s.next.2) : r.Complete := by
  cases hs : s.poisoned with
  | true =>
      rw [next_of_poisoned hs] at h
      cases List.mem_singleton.mp h
  | false =>
      have hreads := reads_next hs
      generalize s.next.1 = s' at hreads
      generalize s.next.2 = result at hreads h
      cases hreads with
      | short => cases h
      | frame htakes =>
          obtain rfl := Except.ok.inj (List.mem_singleton.mp h)
          exact complete_of_decodeFrame htakes.read
      | fault | stuck => cases List.mem_singleton.mp h

/-- A response that is read has the part that its type needs. -/
theorem complete_of_drain {s : Stream} (h : .ok (.response r) ∈ s.drain.2) : r.Complete := by
  induction s using reading_ends with
  | stops s hstops =>
      rw [drain_eq, hstops, if_neg Bool.false_ne_true] at h
      exact complete_of_told h
  | on s hgoes ih =>
      rw [drain_eq, if_pos hgoes] at h
      exact (List.mem_append.mp h).elim complete_of_told ih

end Stream

end Wire

namespace Client

/-! ### Clients as they come about -/

inductive Reached (capacity limit : Nat) : Nat → Client → Prop
  | create : Reached capacity limit 0 (.create capacity limit)
  | subscribe {n : Nat} {c : Client} (h : Reached capacity limit n c) (selection : Selection) :
      Reached capacity limit (n + 1) (c.subscribe selection).1
  | modify {n : Nat} {c c' : Client} {id : Int32} {m : Modification} {token : Int64}
      (h : Reached capacity limit n c) (done : c.modify id m = .ok (c', token)) :
      Reached capacity limit n c'
  | unsubscribe {n : Nat} {c c' : Client} {id : Int32} {token : Int64}
      (h : Reached capacity limit n c) (done : c.unsubscribe id = .ok (c', token)) :
      Reached capacity limit n c'
  | resubscribeAll {n : Nat} {c : Client} (h : Reached capacity limit n c) :
      Reached capacity limit n c.resubscribeAll.1
  | queue {n : Nat} {c c' : Client} {bytes : Bytes} (h : Reached capacity limit n c)
      (done : c.queue bytes = .ok c') : Reached capacity limit n c'
  | nextPiece {n : Nat} {c c' : Client} {bytes : Bytes} (h : Reached capacity limit n c)
      (done : c.nextPiece = some (bytes, c')) : Reached capacity limit n c'
  | takeIn {n : Nat} {c : Client} (h : Reached capacity limit n c) (bytes : Bytes) :
      Reached capacity limit n (c.takeIn bytes).1
  | handle {n : Nat} {c : Client} (h : Reached capacity limit n c) (result : Except Error Frame) :
      Reached capacity limit n (c.handle result).1
  | takeMessages {n : Nat} {c : Client} (h : Reached capacity limit n c) :
      Reached capacity limit n c.takeMessages.1
  /-- Requests are taken away, all or some of them, or nobody takes them any more. -/
  | carry {n : Nat} {c : Client} (h : Reached capacity limit n c) (left : List Bytes)
      (hungUp : Bool) : Reached capacity limit n { c with outgoing := left, hungUp := hungUp }
  /-- An input is attached to a replica or detached from it. -/
  | wire {n : Nat} {c : Client} {id : Int32} {r : Replica} (h : Reached capacity limit n c)
      (there : c.replica? id = some r) (f : Publisher → Publisher) :
      Reached capacity limit n (c.setReplica id { r with publisher := f r.publisher })

/-- The replicas of a client are those of its subscriptions, under ids that it gave. Until these come
round, none is given again. -/
structure Sound (n : Nat) (c : Client) : Prop where
  nextId : c.nextId = Int32.ofNat (n + 1)
  addressed : ∀ id sub, c.subscriptions.find? id = some sub → sub.replica.subscription = id
  given : ∀ id, id ∈ c.closing ∨ (c.subscriptions.find? id).isSome → Numbered n id
  ended : n ≤ 0x100000000 → ∀ id ∈ c.closing, c.subscriptions.find? id = none

namespace Sound

variable {n : Nat} {c c' : Client} {id : Int32}

/-- What else a client has does not matter. -/
theorem congr (h : c.Sound n) (hid : c'.nextId = c.nextId) (hsubs : c'.subscriptions = c.subscriptions)
    (hclosing : c'.closing = c.closing) : c'.Sound n := by
  refine ⟨hid.trans h.nextId, ?_, ?_, ?_⟩
  · rw [hsubs]
    exact h.addressed
  · rw [hsubs, hclosing]
    exact h.given
  · rw [hsubs, hclosing]
    exact h.ended

/-- A subscription that is there gets another replica of the same subscription. -/
theorem put (h : c.Sound n) {sub : ClientSubscription} (hsub : c.subscriptions.find? id = some sub)
    {r : Replica} (hsame : r.subscription = id) (hid : c'.nextId = c.nextId)
    (hclosing : c'.closing = c.closing)
    (hsubs : c'.subscriptions = c.subscriptions.insert id { sub with replica := r }) :
    c'.Sound n := by
  have hfind : ∀ other, c'.subscriptions.find? other =
      if id = other then some { sub with replica := r } else c.subscriptions.find? other :=
    fun other => hsubs ▸ AscMap.find?_insert
  have hsome : ∀ other, (c'.subscriptions.find? other).isSome = (c.subscriptions.find? other).isSome := by
    intro other
    rw [hfind]
    split
    next heq =>
      rw [← heq, hsub]
      rfl
    · rfl
  refine ⟨hid.trans h.nextId, fun other found hfound => ?_, fun other hother => h.given other ?_,
    fun hn other hother => ?_⟩
  · rw [hfind] at hfound
    split at hfound
    next heq =>
      cases hfound
      exact hsame.trans heq
    · exact h.addressed other found hfound
  · rwa [hclosing, hsome] at hother
  · have hnone := h.ended hn other (hclosing ▸ hother)
    rw [← Option.not_isSome_iff_eq_none, hsome, hnone]
    exact Bool.false_ne_true

theorem create (capacity limit : Nat) : (Client.create capacity limit).Sound 0 := by
  refine ⟨rfl, fun id sub hsub => ?_, fun id hid => ?_, fun _ id hid => absurd hid AscSet.not_mem_empty⟩
  · cases AscMap.find?_empty.symm.trans hsub
  · rcases hid with hclosing | hsome
    · exact absurd hclosing AscSet.not_mem_empty
    · cases hsome

theorem subscribe (h : c.Sound n) (selection : Selection) :
    (c.subscribe selection).1.Sound (n + 1) := by
  have hfind : ∀ id, (c.subscribe selection).1.subscriptions.find? id =
      if c.nextId = id then some ⟨selection, { subscription := c.nextId }⟩
      else c.subscriptions.find? id := fun id => AscMap.find?_insert
  have hclosing : (c.subscribe selection).1.closing = c.closing := rfl
  refine ⟨?_, fun id sub hsub => ?_, fun id hid => ?_, fun hn id hid => ?_⟩
  · show c.nextId + 1 = Int32.ofNat (n + 1 + 1)
    rw [h.nextId]
    exact (Int32.ofNat_add (n + 1) 1).symm
  · rw [hfind] at hsub
    split at hsub
    next heq =>
      cases hsub
      exact heq
    · exact h.addressed id sub hsub
  · rw [hfind, hclosing] at hid
    by_cases heq : c.nextId = id
    · exact ⟨n, Nat.lt_succ_self n, h.nextId.symm.trans heq⟩
    · rw [if_neg heq] at hid
      exact (h.given id hid).mono (Nat.le_succ n)
  · have hne : c.nextId ≠ id := fun heq =>
      not_numbered_next hn (h.nextId ▸ heq ▸ h.given id (.inl hid))
    rw [hfind, if_neg hne]
    exact h.ended (Nat.le_of_succ_le hn) id hid

theorem unsubscribe (h : c.Sound n) {token : Int64} (hdone : c.unsubscribe id = .ok (c', token)) :
    c'.Sound n := by
  rw [Client.unsubscribe] at hdone
  split at hdone
  next hthere =>
    cases hdone
    have hfind : ∀ other, (c.subscriptions.erase id).find? other =
        if id = other then none else c.subscriptions.find? other := fun other => AscMap.find?_erase
    refine ⟨h.nextId, fun other sub hsub => ?_, fun other hother => ?_, fun hn other hother => ?_⟩
    · have hsub' : (c.subscriptions.erase id).find? other = some sub := hsub
      rw [hfind] at hsub'
      split at hsub'
      · cases hsub'
      · exact h.addressed other sub hsub'
    · refine h.given other ?_
      rcases hother with hclosing | hsome
      · rcases AscSet.mem_insert.mp hclosing with rfl | hclosing
        · exact .inr hthere
        · exact .inl hclosing
      · have hsome' : ((c.subscriptions.erase id).find? other).isSome := hsome
        rw [hfind] at hsome'
        split at hsome'
        · cases hsome'
        · exact .inr hsome'
    · show (c.subscriptions.erase id).find? other = none
      rw [hfind]
      split
      · rfl
      next hne =>
        exact h.ended hn other ((AscSet.mem_insert.mp hother).resolve_left (Ne.symm hne))
  · cases hdone

theorem renew (h : c.Sound n) {sub : ClientSubscription} (hsub : c.subscriptions.find? id = some sub) :
    (c.renew id sub).1.Sound n :=
  have hsame : sub.replica.reset.1.subscription = id := h.addressed id sub hsub
  h.put hsub hsame rfl rfl rfl

theorem renewAll (h : c.Sound n) (told : List ReplicaNotices)
    {subs : List (Int32 × ClientSubscription)} (hnodup : (subs.map (·.1)).Nodup)
    (hsubs : ∀ e ∈ subs, c.subscriptions.find? e.1 = some e.2) : (c.renewAll told subs).1.Sound n := by
  induction subs generalizing c told with
  | nil => exact h
  | cons e subs ih =>
      rw [List.map_cons, List.nodup_cons] at hnodup
      refine ih (h.renew (hsubs e List.mem_cons_self)) _ hnodup.2 fun e' he' => ?_
      have hne : e.1 ≠ e'.1 := fun heq => hnodup.1 (heq ▸ List.mem_map_of_mem he')
      refine (AscMap.find?_insert.trans (if_neg hne)).trans ?_
      exact hsubs e' (List.mem_cons_of_mem _ he')

theorem resubscribeAll (h : c.Sound n) : c.resubscribeAll.1.Sound n := by
  have hcleared : c.cleared.Sound n := by
    refine ⟨h.nextId, h.addressed, fun id hid => h.given id (.inr ?_), fun _ id hid => ?_⟩
    · exact hid.resolve_left AscSet.not_mem_empty
    · exact absurd hid AscSet.not_mem_empty
  rw [resubscribeAll_eq]
  exact hcleared.renewAll [] (AscMap.nodup_keys _) fun e he => AscMap.find?_eq_some_iff.mpr he

theorem deliver (h : c.Sound n) (r : Response) : (c.deliver r).1.Sound n := by
  rw [Client.deliver]
  dsimp only
  split
  · exact h
  next sub hsub =>
    have hsame : (sub.replica.accept r).1.subscription = r.subscription :=
      (Replica.sameEnds_accept ..).1.trans (h.addressed _ sub hsub)
    split
    · exact h.put hsub hsame rfl rfl rfl
    · exact h.put hsub hsame rfl rfl rfl

theorem handle (h : c.Sound n) (result : Except Error Frame) : (c.handle result).1.Sound n := by
  rcases result with e | r | r
  · exact h
  · exact h
  rw [Client.handle, Client.dispatch]
  split
  · rw [Client.acknowledge]
    split
    · refine ⟨h.nextId, h.addressed, fun id hid => h.given id (hid.imp_left fun hclosing => ?_),
        fun hn id hid => h.ended hn id ?_⟩
      · exact (AscSet.mem_erase.mp hclosing).2
      · exact (AscSet.mem_erase.mp hid).2
    · split
      · exact h.congr rfl rfl rfl
      · refine deliver (h.congr ?_ ?_ ?_) r <;> rfl
  · exact h.deliver r

theorem setReplica_publisher (h : c.Sound n) {r : Replica} (hthere : c.replica? id = some r)
    (f : Publisher → Publisher) : (c.setReplica id { r with publisher := f r.publisher }).Sound n := by
  rw [replica?, Option.map_eq_some_iff] at hthere
  obtain ⟨sub, hsub, rfl⟩ := hthere
  have hsame : ({ sub.replica with publisher := f sub.replica.publisher } : Replica).subscription =
      id := h.addressed id sub hsub
  refine h.put hsub hsame rfl rfl ?_
  rw [setReplica, AscMap.modify, hsub]

end Sound

theorem Reached.sound {capacity limit n : Nat} {c : Client} (h : Reached capacity limit n c) :
    c.Sound n := by
  induction h with
  | create => exact .create capacity limit
  | subscribe _ selection ih => exact ih.subscribe selection
  | modify _ done ih =>
      rw [Client.modify] at done
      split at done
      · cases done
      · cases done
        exact ih.congr rfl rfl rfl
  | unsubscribe _ done ih => exact ih.unsubscribe done
  | resubscribeAll _ ih => exact ih.resubscribeAll
  | queue _ done ih =>
      rw [Client.queue] at done
      generalize Mailbox.offer _ _ = offered at done
      cases offered <;> cases done
      exact ih.congr rfl rfl rfl
  | nextPiece _ done ih =>
      rw [Client.nextPiece] at done
      split at done
      · cases done
      · cases done
        exact ih.congr rfl rfl rfl
  | takeIn _ bytes ih => exact ih.congr rfl rfl rfl
  | handle _ result ih => exact ih.handle result
  | takeMessages _ ih => exact ih.congr rfl rfl rfl
  | carry _ left hungUp ih => exact ih.congr rfl rfl rfl
  | wire _ there f ih => exact ih.setReplica_publisher there f

/-! ### What a response does -/

structure Touched (n : Nat) (c c' : Client) (r : Response) : Prop where
  others : ∀ id, id ≠ r.subscription → c'.subscriptions.find? id = c.subscriptions.find? id
  unknown : c.subscriptions.find? r.subscription = none → c'.subscriptions = c.subscriptions
  /-- As long as the ids have not come round, that of an ended subscription is unknown. -/
  closing : n ≤ 0x100000000 → r.subscription ∈ c.closing →
    c.subscriptions.find? r.subscription = none ∧ c'.subscriptions = c.subscriptions
  success : ∀ ack, r.type = .message → r.acknowledgement = some ack → ack.success = true →
    c'.subscriptions = c.subscriptions
  spared : r.type = .message →
    c.pending.find? r.token = some .modify ∨ c.pending.find? r.token = some .unsubscribe →
    c'.subscriptions = c.subscriptions
  fails : ∀ ack sub, r.type = .message → r.acknowledgement = some ack → ack.success = false →
    c.pending.find? r.token ≠ some .modify → c.pending.find? r.token ≠ some .unsubscribe →
    c.subscriptions.find? r.subscription = some sub →
    c'.subscriptions.find? r.subscription =
      some { sub with replica := { sub.replica with phase := .failed } }
  passedOn : ∀ sub, r.type ≠ .message → c.subscriptions.find? r.subscription = some sub →
    c'.subscriptions.find? r.subscription =
      some { sub with replica := (sub.replica.accept r).1 }
  recorded : r.type = .message → ∃ ack, r.acknowledgement = some ack ∧
    c'.messages = c.messages ++ [⟨r.subscription, r.token, ack.success, ack.message⟩]
  violated : ∀ sub id fault, c.subscriptions.find? r.subscription = some sub →
    (sub.replica.accept r).2.2 = .error (.protocolViolation id fault) →
    r.type ≠ .message ∧ c'.messages = c.messages ++
      [⟨r.subscription, 0, false, (Error.protocolViolation id fault).message⟩]
  silent : r.type ≠ .message →
    (∀ sub id fault, c.subscriptions.find? r.subscription = some sub →
      (sub.replica.accept r).2.2 ≠ .error (.protocolViolation id fault)) →
    c'.messages = c.messages
  answered : ∀ token, c'.pending.find? token =
    if r.type = .message ∧ token = r.token then none else c.pending.find? token

def violation (id : Int32) : Except Error Unit → List ClientMessage
  | .error (.protocolViolation i fault) =>
    [⟨id, 0, false, (Error.protocolViolation i fault).message⟩]
  | _ => []

theorem violation_eq_nil {id : Int32} {result : Except Error Unit}
    (h : ∀ i fault, result ≠ .error (.protocolViolation i fault)) : violation id result = [] := by
  rcases result with e | u
  · cases e
    case protocolViolation i fault => exact absurd rfl (h i fault)
    all_goals rfl
  · rfl

variable {n : Nat} {c c' : Client} {r : Response}

theorem deliver_unknown (h : c.subscriptions.find? r.subscription = none) :
    (c.deliver r).1 = c := by
  rw [deliver, h]

theorem deliver_known {sub : ClientSubscription}
    (h : c.subscriptions.find? r.subscription = some sub) :
    (c.deliver r).1 = { c with
      subscriptions :=
        c.subscriptions.insert r.subscription { sub with replica := (sub.replica.accept r).1 }
      messages := c.messages ++ violation r.subscription (sub.replica.accept r).2.2 } := by
  rw [deliver, h]
  dsimp only
  split
  next heq =>
    rw [heq]
    rfl
  next hno =>
    rw [violation_eq_nil hno, List.append_nil]

/-- At most the subscription with this id is another one, and none is new. -/
def Differs (c c' : Client) (id : Int32) : Prop :=
  c'.subscriptions = c.subscriptions ∨
    ∃ sub sub', c.subscriptions.find? id = some sub ∧
      c'.subscriptions = c.subscriptions.insert id sub'

theorem differs_deliver (c : Client) (r : Response) : Differs c (c.deliver r).1 r.subscription := by
  rcases hfound : c.subscriptions.find? r.subscription with _ | sub
  · rw [deliver_unknown hfound]
    exact .inl rfl
  · rw [deliver_known hfound]
    exact .inr ⟨sub, _, hfound, rfl⟩

theorem Differs.find?_of_ne {id other : Int32} (h : Differs c c' id) (hne : other ≠ id) :
    c'.subscriptions.find? other = c.subscriptions.find? other := by
  rcases h with hsame | ⟨sub, sub', -, hinsert⟩
  · rw [hsame]
  · rw [hinsert, AscMap.find?_insert, if_neg (Ne.symm hne)]

theorem Differs.unknown {id : Int32} (h : Differs c c' id) (hnone : c.subscriptions.find? id = none) :
    c'.subscriptions = c.subscriptions := by
  rcases h with hsame | ⟨sub, sub', hsub, -⟩
  · exact hsame
  · cases hnone.symm.trans hsub

theorem Differs.closing {id : Int32} (h : Differs c c' id) (hsound : c.Sound n)
    (hn : n ≤ 0x100000000) (hid : id ∈ c.closing) :
    c.subscriptions.find? id = none ∧ c'.subscriptions = c.subscriptions :=
  have hnone := hsound.ended hn id hid
  ⟨hnone, h.unknown hnone⟩

theorem accept_acknowledgement {x : Replica} {ack : Acknowledgement}
    (hid : r.subscription = x.subscription) (hmessage : r.type = .message)
    (hack : r.acknowledgement = some ack) :
    x.accept r = (if ack.success then x else { x with phase := .failed }, [], .ok ()) := by
  rw [Replica.accept, if_neg (not_not_intro hid), hmessage, hack]

/-- An acknowledgement goes no further if it succeeds or answers a request to modify or to
unsubscribe. -/
def GoesNoFurther (c : Client) (r : Response) (ack : Acknowledgement) : Prop :=
  ack.success = true ∨ c.pending.find? r.token = some .modify ∨
    c.pending.find? r.token = some .unsubscribe

/-- An acknowledgement is noted, and then it goes no further or is handed over. -/
theorem acknowledge_cases {ack : Acknowledgement} (hack : r.acknowledgement = some ack) :
    ∃ noted : Client,
      (c.GoesNoFurther r ack ∧ (c.acknowledge r).1 = noted ∨
        ¬c.GoesNoFurther r ack ∧ (c.acknowledge r).1 = (noted.deliver r).1) ∧
      noted.subscriptions = c.subscriptions ∧ noted.pending = c.pending.erase r.token ∧
      noted.messages = c.messages ++ [⟨r.subscription, r.token, ack.success, ack.message⟩] := by
  rw [acknowledge, hack, GoesNoFurther]
  split
  next hunsubscribe => exact ⟨_, .inl ⟨.inr (.inr hunsubscribe), rfl⟩, rfl, rfl, rfl⟩
  next hunsubscribe =>
    split
    next hquiet =>
      refine ⟨_, .inl ⟨?_, rfl⟩, rfl, rfl, rfl⟩
      rw [Bool.or_eq_true, decide_eq_true_iff] at hquiet
      exact hquiet.imp_right .inl
    next hgoes =>
      refine ⟨_, .inr ⟨?_, rfl⟩, rfl, rfl, rfl⟩
      rw [Bool.or_eq_true, decide_eq_true_iff, not_or] at hgoes
      rintro (hsuccess | hmodify | hasked)
      · exact hgoes.1 hsuccess
      · exact hgoes.2 hmodify
      · exact hunsubscribe hasked

/-- What goes no further changes no replica. -/
theorem subscriptions_acknowledge {ack : Acknowledgement} (hack : r.acknowledgement = some ack)
    (hends : c.GoesNoFurther r ack) : (c.acknowledge r).1.subscriptions = c.subscriptions := by
  obtain ⟨noted, hgoes, hsubs, -⟩ := acknowledge_cases (c := c) hack
  rcases hgoes with ⟨-, hend⟩ | ⟨hon, -⟩
  · exact hend ▸ hsubs
  · exact absurd hends hon

theorem differs_acknowledge {ack : Acknowledgement} (hack : r.acknowledgement = some ack) :
    Differs c (c.acknowledge r).1 r.subscription := by
  obtain ⟨noted, hgoes, hsubs, -⟩ := acknowledge_cases (c := c) hack
  rcases hgoes with ⟨-, hend⟩ | ⟨-, hend⟩
  · exact .inl (hend ▸ hsubs)
  · have hdelivered := differs_deliver noted r
    rwa [Differs, hsubs, ← hend] at hdelivered

/-- An acknowledgement that is handed over and is no success fails the replica. -/
theorem find?_acknowledge {ack : Acknowledgement} (h : c.Sound n) (hmessage : r.type = .message)
    (hack : r.acknowledgement = some ack) (hgoes : ¬c.GoesNoFurther r ack)
    {sub : ClientSubscription} (hsub : c.subscriptions.find? r.subscription = some sub) :
    (c.acknowledge r).1.subscriptions.find? r.subscription =
      some { sub with replica := { sub.replica with phase := .failed } } := by
  obtain ⟨noted, hends | ⟨-, hend⟩, hsubs, -⟩ := acknowledge_cases (c := c) hack
  · exact absurd hends.1 hgoes
  · rw [hend, deliver_known (hsubs ▸ hsub),
      accept_acknowledgement (h.addressed _ sub hsub).symm hmessage hack,
      if_neg fun hsuccess => hgoes (.inl hsuccess)]
    exact AscMap.find?_insert.trans (if_pos rfl)

/-- An acknowledgement is recorded once and answers its request. -/
theorem recorded_acknowledge {ack : Acknowledgement} (h : c.Sound n) (hmessage : r.type = .message)
    (hack : r.acknowledgement = some ack) :
    (c.acknowledge r).1.messages =
        c.messages ++ [⟨r.subscription, r.token, ack.success, ack.message⟩] ∧
      (c.acknowledge r).1.pending = c.pending.erase r.token := by
  obtain ⟨noted, hgoes, hsubs, hpending, hmessages⟩ := acknowledge_cases (c := c) hack
  rcases hgoes with ⟨-, hend⟩ | ⟨-, hend⟩
  · rw [hend]
    exact ⟨hmessages, hpending⟩
  · rw [hend]
    rcases hfound : noted.subscriptions.find? r.subscription with _ | sub
    · rw [deliver_unknown hfound]
      exact ⟨hmessages, hpending⟩
    -- the replica does not object, so that nothing else is recorded
    · rw [deliver_known hfound,
        accept_acknowledgement (h.addressed _ sub (hsubs ▸ hfound)).symm hmessage hack]
      exact ⟨(List.append_nil _).trans hmessages, hpending⟩

theorem touched_message (h : c.Sound n) (hmessage : r.type = .message) {ack : Acknowledgement}
    (hack : r.acknowledgement = some ack) : Touched n c (c.acknowledge r).1 r := by
  have hdiffers : Differs c (c.acknowledge r).1 r.subscription := differs_acknowledge hack
  have hquiet : c.GoesNoFurther r ack → (c.acknowledge r).1.subscriptions = c.subscriptions :=
    subscriptions_acknowledge hack
  obtain ⟨hmessages, hpending⟩ := recorded_acknowledge h hmessage hack
  have hones : ∀ other, r.acknowledgement = some other → other = ack := fun other hother =>
    Option.some.inj (hother.symm.trans hack)
  refine ⟨fun id => hdiffers.find?_of_ne, hdiffers.unknown, fun hn => hdiffers.closing h hn,
    fun other _ hother hsuccess => hquiet (.inl (hones other hother ▸ hsuccess)),
    fun _ hasked => hquiet (.inr hasked),
    fun other sub _ hother hfailure hmodify hunsubscribe hsub => ?_,
    fun _ hno => absurd hmessage hno, fun _ => ⟨ack, hack, hmessages⟩,
    fun sub id fault hsub hresult => ?_, fun hno => absurd hmessage hno, fun token => ?_⟩
  · refine find?_acknowledge h hmessage hother ?_ hsub
    rintro (hsuccess | hmodify' | hunsubscribe')
    · exact Bool.false_ne_true (hfailure.symm.trans hsuccess)
    · exact hmodify hmodify'
    · exact hunsubscribe hunsubscribe'
  · rw [accept_acknowledgement (h.addressed _ sub hsub).symm hmessage hack] at hresult
    cases hresult
  · rw [hpending, AscMap.find?_erase]
    simp only [hmessage, true_and, eq_comm]

theorem touched_data (h : c.Sound n) (hmessage : r.type ≠ .message) :
    Touched n c (c.deliver r).1 r := by
  have hdiffers := differs_deliver c r
  refine ⟨fun id => hdiffers.find?_of_ne, hdiffers.unknown, fun hn => hdiffers.closing h hn,
    fun _ h => absurd h hmessage, fun h => absurd h hmessage,
    fun _ _ h => absurd h hmessage, fun sub _ hsub => ?_, fun h => absurd h hmessage,
    fun sub id fault hsub hresult => ⟨hmessage, ?_⟩, fun _ hquiet => ?_, fun token => ?_⟩
  · rw [deliver_known hsub]
    exact AscMap.find?_insert.trans (if_pos rfl)
  · rw [deliver_known hsub, hresult]
    rfl
  · rcases hfound : c.subscriptions.find? r.subscription with _ | sub
    · rw [deliver_unknown hfound]
    · rw [deliver_known hfound]
      dsimp only
      rw [violation_eq_nil fun i fault => hquiet sub i fault hfound, List.append_nil]
  · rw [if_neg fun h => hmessage h.1]
    rcases hfound : c.subscriptions.find? r.subscription with _ | sub
    · rw [deliver_unknown hfound]
    · rw [deliver_known hfound]

theorem touched_dispatch (h : c.Sound n) (hcomplete : r.Complete) :
    Touched n c (c.dispatch r).1 r := by
  rw [dispatch]
  split
  next hmessage =>
    rw [Response.Complete, hmessage] at hcomplete
    obtain ⟨ack, hack⟩ := Option.isSome_iff_exists.mp hcomplete
    exact touched_message h hmessage hack
  next hmessage => exact touched_data h hmessage

theorem Reached.handleAll {capacity limit : Nat} (h : Reached capacity limit n c)
    (results : List (Except Error Frame)) :
    Reached capacity limit n (results.foldl (fun c result => (c.handle result).1) c) := by
  induction results generalizing c with
  | nil => exact h
  | cons result results ih => exact ih (h.handle result)

/-- A response that a client reads changes at most the replica it is addressed to, and is recorded
as an acknowledgement or a violation alone. -/
theorem touches_addressee {capacity limit : Nat} (h : Reached capacity limit n c) (bytes : Bytes)
    {before after : List (Except Error Frame)}
    (hcut : (c.takeIn bytes).2 = before ++ .ok (.response r) :: after) :
    let handled (results : List (Except Error Frame)) :=
      results.foldl (fun c result => (c.handle result).1) (c.takeIn bytes).1
    (c.accept bytes).1 = handled (before ++ .ok (.response r) :: after) ∧
      Touched n (handled before) (handled (before ++ [.ok (.response r)])) r := by
  intro handled
  have hresponse : .ok (.response r) ∈ (c.stream.push bytes).drain.2 := by
    show .ok (.response r) ∈ (c.takeIn bytes).2
    rw [hcut]
    exact List.mem_append_right _ List.mem_cons_self
  refine ⟨congrArg handled hcut, ?_⟩
  have hreached := (h.takeIn bytes).handleAll before
  have hstep : handled (before ++ [.ok (.response r)]) = ((handled before).dispatch r).1 :=
    List.foldl_concat ..
  rw [hstep]
  exact touched_dispatch hreached.sound (Stream.complete_of_drain hresponse)

/-- Of two subscriptions, the first is told that it has failed after it got a row: it keeps the row, and
the second has nothing to do with it. -/
theorem touches_addressee_failure :
    let c := (((create 1 1000).subscribe (.everything "T")).1.subscribe (.everything "T")).1
    let failure : Response := .message 1 7 false "gone"
    let before : List Response := [.ofSchema 1 ⟨"T", []⟩, .ofData 1 .init { rows := [0] }]
    let bytes := (before ++ [failure]).flatMap encodeResponse
    let handled (rs : List Response) :=
      (rs.map fun r => .ok (.response r)).foldl (fun c result => (c.handle result).1)
        (c.takeIn bytes).1
    Touched 2 (handled before) (handled (before ++ [failure])) failure ∧
      ((handled before).replica? 1).map (fun r => (r.phase, r.liveRows)) = some (.live, [0]) ∧
      ((handled (before ++ [failure])).replica? 1).map (fun r => (r.phase, r.liveRows)) =
        some (.failed, [0]) ∧
      ((handled (before ++ [failure])).replica? 2).map (·.phase) = some .awaitingSchema ∧
      (c.accept bytes).1.messages = [⟨1, 7, false, "gone"⟩] := by
  intro c failure before bytes handled
  have hreached : Reached 1 1000 2 c :=
    (Reached.create.subscribe (.everything "T")).subscribe (.everything "T")
  have hcut : (c.takeIn bytes).2 =
      before.map (fun r => .ok (.response r)) ++ [.ok (.response failure)] := by decide +kernel
  exact ⟨(touches_addressee hreached bytes hcut).2, by decide +kernel, by decide +kernel,
    by decide +kernel, by decide +kernel⟩

end Client

end TableFeed
