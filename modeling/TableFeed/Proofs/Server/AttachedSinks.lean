import Mathlib
import TableFeed.Proofs.Server.SinkOwners
/-!
No sink is lost and none is left behind. Along every run of a server, the sinks attached to an output
are those of the subscriptions that open connections hold on it. Once a connection is closed, opened
again or lost to a fault of its stream, what it held is attached nowhere and sends nothing any more.
-/

namespace TableFeed.Server

variable {start h g : Hub} {s s' : Server} {c id : UInt64} {sub : Int32} {o : OutputId}
  {i : InputId} {x y : Connection} {x? : Option Connection}

/-- Something that happens to a server and its hub and keeps the roster in order. A sink that was
there is held by whom it was held, or by nobody; and an input that was attached nowhere has no part
in what happens. -/
structure Orderly (start : Hub) (s : Server) (h : Hub) (f : Hub → Server × Hub) : Prop where
  roster : Roster start (f h).1 (f h).2
  grown : h.inputs.length ≤ (f h).2.inputs.length
  held : ∀ c sub o i, i < h.inputs.length → (f h).1.seat c sub = some (o, i) →
    s.seat c sub = some (o, i)
  aside : ∀ i x, i < h.inputs.length → (∀ o, i ∉ h.attached o) →
    f (h.setInput i x) = ((f h).1, (f h).2.setInput i x)

namespace Orderly

variable {f : Hub → Server × Hub}

/-- An input that is attached nowhere stays so. -/
theorem idle (hf : Orderly start s h f) (hr : Roster start s h) (hi : i < h.inputs.length)
    (hidle : ∀ o, i ∉ h.attached o) (o : OutputId) : i ∉ (f h).2.attached o := by
  intro hattached
  rcases (hf.roster.attached o i).mp hattached with hfirst | ⟨c, sub, hseat⟩
  · exact hidle o ((hr.attached o i).mpr (.inl hfirst))
  · exact hidle o ((hr.attached o i).mpr (.inr ⟨c, sub, hf.held c sub o i hi hseat⟩))

/-- One thing after the other. -/
theorem andThen (hf : Orderly start s h f) (hr : Roster start s h)
    {k : Server → Hub → Server × Hub} (hk : Orderly start (f h).1 (f h).2 (k (f h).1)) :
    Orderly start s h fun h => k (f h).1 (f h).2 := by
  refine ⟨hk.roster, hf.grown.trans hk.grown, fun c sub o i hi hseat => ?_, fun i x hi hidle => ?_⟩
  · exact hf.held c sub o i hi (hk.held c sub o i (hi.trans_le hf.grown) hseat)
  · rw [hf.aside i x hi hidle]
    exact hk.aside i x (hi.trans_le hf.grown) (hf.idle hr hi hidle)

end Orderly

namespace Roster

/-- Nothing is attached or detached. -/
theorem orderly_of_rewired (hr : Roster start s h) {F : Hub → Hub} (hg : h.Rewired (F h))
    (hattached : ∀ o, (F h).attached o = h.attached o)
    (haside : ∀ i x, (∀ o, i ∉ h.attached o) → F (h.setInput i x) = (F h).setInput i x)
    (houtputs : ∀ name o, s'.registry.outputs.find? name = some o → (start.display? o).isSome)
    (hseat : ∀ c sub, s'.seat c sub = s.seat c sub)
    (houtlet : ∀ c, s'.outlet? c = s.outlet? c) : Orderly start s h fun h => (s', F h) := by
  refine ⟨hr.of_rewired hg hattached houtputs hseat houtlet, hg.inputs.length_eq.ge,
    fun c sub o i _ hheld => (hseat c sub).symm.trans hheld, fun i x _ hidle => ?_⟩
  dsimp only
  rw [haside i x hidle]

/-- Only the hub has changed. -/
theorem orderly_hub (hr : Roster start s h) {F : Hub → Hub} (hg : h.Rewired (F h))
    (hattached : ∀ o, (F h).attached o = h.attached o)
    (haside : ∀ i x, (∀ o, i ∉ h.attached o) → F (h.setInput i x) = (F h).setInput i x) :
    Orderly start s h fun h => (s, F h) :=
  hr.orderly_of_rewired hg hattached haside hr.outputs (fun _ _ => rfl) fun _ => rfl

/-- Only the registry has changed. -/
theorem orderly_registry (hr : Roster start s h) {registry : Registry}
    (houtputs : ∀ name o, registry.outputs.find? name = some o → (start.display? o).isSome) :
    Orderly start s h fun h => ({ s with registry := registry }, h) :=
  hr.orderly_of_rewired (.refl h) (fun _ => rfl) (fun _ _ _ => rfl) houtputs (fun _ _ => rfl)
    fun _ => rfl

/-- Nothing happens. -/
theorem orderly_nothing (hr : Roster start s h) : Orderly start s h fun h => (s, h) :=
  hr.orderly_hub (.refl h) (fun _ => rfl) fun _ _ _ => rfl

/-- Things that keep the roster in order, one after the other. -/
theorem orderly_foldl {β : Type} {k : Server → Hub → β → Server × Hub} {bs : List β}
    (hk : ∀ s h, Roster start s h → ∀ b ∈ bs, Orderly start s h fun h => k s h b)
    (hr : Roster start s h) :
    Orderly start s h fun h => bs.foldl (fun y b => k y.1 y.2 b) (s, h) := by
  induction bs generalizing s h with
  | nil => exact hr.orderly_nothing
  | cons b bs ih =>
      have hfirst := hk s h hr b List.mem_cons_self
      exact hfirst.andThen hr (k := fun s h => bs.foldl (fun y b => k y.1 y.2 b) (s, h))
        (ih (fun s h hr b' hb' => hk s h hr b' (List.mem_cons_of_mem b hb')) hfirst.roster)

theorem orderly_emit (hr : Roster start s h) (out : OutletId) (r : Response) :
    Orderly start s h fun h => (s, h.emit out r) :=
  hr.orderly_hub (h.rewired_outlets _).1 (h.rewired_outlets _).2 fun _ _ _ => rfl

end Roster

/-! ### Requests -/

theorem seat_put (hput : s.Puts id x? s') (c : UInt64) (sub : Int32) :
    s'.seat c sub = if id = c then x?.bind fun x => x.session.seat sub else s.seat c sub := by
  split
  next hid => exact hid ▸ hput.seat_self
  next hid => exact hput.seat_of_ne hid

/-- A connection that sends where it did. -/
theorem outlet?_put (hput : s.Puts id (some y) s') (hx : s.connections.find? id = some x)
    (hout : y.session.outlet = x.session.outlet) (c : UInt64) : s'.outlet? c = s.outlet? c := by
  rw [outlet?, hput.find, outlet?]
  split
  next hid => rw [← hid, hx, Option.map_some, Option.map_some, hout]
  next => rfl

theorem seat_of_find? (hx : s.connections.find? id = some x) (sub : Int32) :
    s.seat id sub = x.session.seat sub := by
  rw [seat, hx, Option.bind_some]

/-- The seats of a server in which a connection has taken on a subscription. -/
theorem seat_enrolled (hput : s.Puts id (some y) s') (hx : s.connections.find? id = some x)
    {u : Subscription} (hy : y.session.subscriptions = x.session.subscriptions.insert sub u)
    (hnew : x.session.subscriptions.find? sub = none) (c' : UInt64) (sub' : Int32)
    (v : OutputId × InputId) :
    s'.seat c' sub' = some v ↔
      s.seat c' sub' = some v ∨ (c' = id ∧ sub' = sub) ∧ v = (u.output, u.input) := by
  rw [seat_put hput]
  split
  next hid =>
    subst hid
    rw [Option.bind_some, seat_of_find? hx, Session.seat, Session.seat, hy, AscMap.find?_insert]
    split
    next hsub => simp [← hsub, hnew, eq_comm]
    next hsub => simp [Ne.symm hsub]
  next hid => simp [Ne.symm hid]

/-- The seats of a server in which a connection has let go of a subscription. -/
theorem seat_released (hr : Roster start s h) (hput : s.Puts id (some y) s')
    (hx : s.connections.find? id = some x)
    (hy : y.session.subscriptions = x.session.subscriptions.erase sub) {u : OutputId × InputId}
    (hu : s.seat id sub = some u) (c' : UInt64) (sub' : Int32) (v : OutputId × InputId) :
    s'.seat c' sub' = some v ↔ s.seat c' sub' = some v ∧ v ∉ [u] := by
  have hother : ∀ {c' sub' v}, (c' ≠ id ∨ sub' ≠ sub) → s.seat c' sub' = some v → v ≠ u := by
    rintro c' sub' v hne hv rfl
    obtain ⟨rfl, rfl⟩ := hr.alone id sub v.1 v.2 c' sub' v.1 hu hv
    exact hne.elim (· rfl) (· rfl)
  rw [seat_put hput]
  split
  next hid =>
    subst hid
    rw [Option.bind_some, seat_of_find? hx, Session.seat, hy, AscMap.find?_erase]
    split
    next hsub =>
      rw [seat_of_find? hx, hsub] at hu
      simp [hu, eq_comm]
    next hsub =>
      rw [← Session.seat, List.mem_singleton, ← seat_of_find? hx]
      exact ⟨fun hv => ⟨hv, hother (.inr (Ne.symm hsub)) hv⟩, And.left⟩
  next hid =>
    rw [List.mem_singleton]
    exact ⟨fun hv => ⟨hv, hother (.inl (Ne.symm hid)) hv⟩, And.left⟩

def frame (s : Server) (h : Hub) (id : UInt64) (result : Except Error Frame) : Server × Hub :=
  match s.connections.find? id with
  | none => (s, h)
  | some x => s.serve h id x [result]

theorem frame_of_find? (hx : s.connections.find? id = some x) (h : Hub)
    (result : Except Error Frame) : s.frame h id result = s.serve h id x [result] := by
  simp only [frame, hx]

/-- A connection handles frames one after the other. -/
theorem serve_frames (hx : s.connections.find? id = some x) (h : Hub)
    (results : List (Except Error Frame)) :
    s.serve h id x results = results.foldl (fun y result => y.1.frame y.2 id result) (s, h) := by
  induction results generalizing s h x with
  | nil =>
      show ({ s with connections := s.connections.insert id x }, h) = (s, h)
      rw [AscMap.insert_of_find? hx]
  | cons result results ih =>
      rw [List.foldl_cons, frame_of_find? hx, serve_cons]
      exact ih (AscMap.find?_insert.trans (if_pos rfl)) _

namespace Roster

/-- A session handles a request. -/
theorem of_serves (hr : Roster start s h) (hx : s.connections.find? id = some x) {r : Request}
    {y : Session × Hub} (hy : x.session.Serves s.registry h r y)
    (hput : s.Puts id (some { x with session := y.1 }) s') :
    Roster start s' y.2 ∧ h.inputs.length ≤ y.2.inputs.length ∧
      ∀ c sub o i, i < h.inputs.length → s'.seat c sub = some (o, i) →
        s.seat c sub = some (o, i) := by
  have hemit : ∀ (g : Hub) out r, g.Rewired (g.emit out r) := fun g out r => (g.rewired_outlets _).1
  cases hy with
  | reply success text =>
      have hsame : ∀ c sub, s'.seat c sub = s.seat c sub := by
        intro c sub
        rw [seat_put hput]
        split
        next hid => rw [← hid, seat_of_find? hx, Option.bind_some]
        next => rfl
      refine ⟨hr.of_rewired (hemit ..) (fun _ => rfl) (hput.registry ▸ hr.outputs) hsame
        (outlet?_put hput hx rfl), Nat.le_refl _, fun c sub o i _ hheld => (hsame c sub).symm.trans hheld⟩
  | @grant name o sink text new registered subscription =>
      obtain ⟨name', hname⟩ := registered
      have hreplied : Roster start s (x.session.reply h r true text) :=
        hr.of_rewired (hemit ..) (fun _ => rfl) hr.outputs (fun _ _ => rfl) fun _ => rfl
      have hseat := seat_enrolled hput hx rfl new
      have hjoined : Roster start s' (x.session.enrolled (x.session.reply h r true text)
          r.subscription name o sink).2 :=
        hreplied.enrolled (hr.outputs name' o hname) (by rw [outlet?, hx, Option.map_some])
          subscription hput.registry hseat (outlet?_put hput hx rfl)
      refine ⟨hjoined, ?_, fun c sub o' i hi hheld => ?_⟩
      · show h.inputs.length ≤ (Hub.attach _ o h.inputs.length).inputs.length
        rw [(Hub.rewired_attach _ _ _).inputs.length_eq]
        exact (Hub.length_addInput (x.session.reply h r true text) _).le
      · rcases (hseat c sub _).mp hheld with hheld | ⟨-, heq⟩
        · exact hheld
        · cases heq
          exact absurd hi (Nat.lt_irrefl _)
  | @release u text there =>
      have hu : s.seat id r.subscription = some (u.output, u.input) :=
        (seat_of_find? hx _).trans (Session.seat_of_find? there)
      have hseat := seat_released hr hput hx rfl hu
      have houtlet := outlet?_put hput hx rfl
      have hleft : Roster start s' (h.detach u.output u.input).1 :=
        hr.detachAll (fun v hv => ⟨id, r.subscription, List.mem_singleton.mp hv ▸ hu⟩) hput.registry
          hseat fun c _ _ _ => houtlet c
      refine ⟨hleft.of_rewired (hemit ..) (fun _ => rfl) hleft.outputs (fun _ _ => rfl)
        fun _ => rfl, ?_,
        fun c sub o i _ hheld => ((hseat c sub _).mp hheld).1⟩
      show h.inputs.length ≤ (h.detach u.output u.input).1.inputs.length
      rw [(h.rewired_detach _ _).inputs.length_eq]

/-- A connection handles a frame. -/
theorem orderly_frame (hr : Roster start s h) (id : UInt64) (result : Except Error Frame) :
    Orderly start s h fun h => s.frame h id result := by
  cases hx : s.connections.find? id with
  | none =>
      simp only [frame, hx]
      exact hr.orderly_nothing
  | some x =>
      have hunchanged : { s with connections := s.connections.insert id x } = s := by
        rw [AscMap.insert_of_find? hx]
      simp only [frame_of_find? hx]
      rcases result with e | r | r
      · show Orderly start s h fun h => ({ s with connections := s.connections.insert id x },
          if e.isFatal then h else h.emit x.outlet (.message 0 0 false e.message))
        rw [hunchanged]
        split
        · exact hr.orderly_nothing
        · exact hr.orderly_emit _ _
      · obtain ⟨hroster, hgrown, hheld⟩ :=
          hr.of_serves hx (x.session.serves_handle s.registry h r) (s.puts_insert id _)
        refine ⟨hroster, hgrown, hheld, fun i x' hi hidle => ?_⟩
        -- the session's sinks are attached, so the one that is not is none of them
        have hfree : ∀ sub u, x.session.subscriptions.find? sub = some u → i ≠ u.input := by
          rintro sub u hu rfl
          exact hidle u.output ((hr.attached _ _).mpr
            (.inr ⟨id, sub, (seat_of_find? hx sub).trans (Session.seat_of_find? hu)⟩))
        simp only [serve, List.foldl_cons, List.foldl_nil, handleFrame,
          Session.handle_setInput hi hfree]
      · show Orderly start s h fun h => ({ s with connections := s.connections.insert id x }, h)
        rw [hunchanged]
        exact hr.orderly_nothing

end Roster

/-! ### Opening and closing -/

def heldBy (s : Server) (id : UInt64) : List (OutputId × InputId) :=
  match s.connections.find? id with
  | some x => x.session.subscriptions.values.map fun u => (u.output, u.input)
  | none => []

theorem mem_heldBy {u : OutputId × InputId} : u ∈ s.heldBy id ↔ ∃ sub, s.seat id sub = some u := by
  cases hx : s.connections.find? id with
  | none => simp [heldBy, seat, hx]
  | some x =>
      simp only [heldBy, hx, seat_of_find? hx, Session.seat, List.mem_map, Option.map_eq_some_iff,
        AscMap.values]
      constructor
      · rintro ⟨v, ⟨⟨sub, w⟩, hmem, rfl⟩, rfl⟩
        exact ⟨sub, w, AscMap.find?_eq_some_iff.mpr hmem, rfl⟩
      · rintro ⟨sub, v, hv, rfl⟩
        exact ⟨v, ⟨(sub, v), AscMap.find?_eq_some_iff.mp hv, rfl⟩, rfl⟩

theorem closing_eq (s : Server) (h : Hub) (id : UInt64) :
    s.closing h id = h.detachAll (s.heldBy id) := by
  cases hx : s.connections.find? id with
  | none =>
      simp only [closing, heldBy, hx]
      rfl
  | some x =>
      simp only [closing, heldBy, hx, Session.close, Hub.detachAll, List.foldl_map]

namespace Roster

/-- A connection lets go of everything. -/
theorem orderly_closing (hr : Roster start s h) (hput : s.Puts id x? s')
    (hempty : ∀ sub, (x?.bind fun x => x.session.seat sub) = none) :
    Orderly start s h fun h => (s', s.closing h id) := by
  have hseat : ∀ c sub u, s'.seat c sub = some u ↔ s.seat c sub = some u ∧ u ∉ s.heldBy id := by
    intro c sub u
    rw [seat_put hput, mem_heldBy]
    split
    next hid =>
      -- the connection holds nothing now
      subst hid
      simp only [hempty, reduceCtorEq, false_iff, not_and, not_not]
      exact fun hu => ⟨sub, hu⟩
    next hid =>
      refine ⟨fun hu => ⟨hu, ?_⟩, And.left⟩
      rintro ⟨sub', hu'⟩
      exact hid (hr.alone c sub u.1 u.2 id sub' u.1 hu hu').1
  have houtlet : ∀ c sub u, s'.seat c sub = some u → s'.outlet? c = s.outlet? c := by
    intro c sub u hu
    rw [seat_put hput] at hu
    split at hu
    next hid =>
      rw [hempty] at hu
      cases hu
    next hid => rw [outlet?, outlet?, hput.find, if_neg hid]
  simp only [closing_eq]
  refine ⟨hr.detachAll (fun u hu => ⟨id, mem_heldBy.mp hu⟩) hput.registry hseat houtlet,
    (h.rewired_detachAll _).inputs.length_eq.ge, fun c sub o i _ hu => ((hseat c sub _).mp hu).1,
    fun i x _ hidle => ?_⟩
  rw [Hub.detachAll_setInput]
  rintro u hu rfl
  exact hidle u.1 ((hr.attached _ _).mpr (.inr ⟨id, mem_heldBy.mp hu⟩))

theorem orderly_close (hr : Roster start s h) (id : UInt64) :
    Orderly start s h fun h => s.apply h (.close id) := by
  cases hx : s.connections.find? id with
  | none =>
      simp only [apply, close, hx]
      exact hr.orderly_nothing
  | some x =>
      have hclosing := hr.orderly_closing (s.puts_erase id) fun _ => rfl
      simpa only [apply, close, closing, hx] using hclosing

theorem orderly_open (hr : Roster start s h) (id : UInt64) (out : OutletId) :
    Orderly start s h fun h => s.openConnection h id out := by
  simp only [openConnection_eq]
  exact hr.orderly_closing (s.puts_insert id _) fun _ => rfl

/-- Bytes come in on a connection. They are cut into frames that are handled one after the other,
and a fault of the stream closes the connection. -/
theorem orderly_receive (hr : Roster start s h) (id : UInt64) (bytes : Bytes) :
    Orderly start s h fun h => s.receive h id bytes := by
  cases hx : s.connections.find? id with
  | none =>
      simp only [receive_of_none hx]
      exact hr.orderly_nothing
  | some x =>
      simp only [receive_eq hx]
      generalize (x.stream.push bytes).drain = cut
      obtain ⟨y, hy⟩ : ∃ y : Connection, y = { x with stream := cut.1 } := ⟨_, rfl⟩
      obtain ⟨s', hs'⟩ : ∃ s' : Server, s' = { s with connections := s.connections.insert id y } :=
        ⟨_, rfl⟩
      have hput : s.Puts id (some y) s' := hs' ▸ s.puts_insert id y
      have hsession : y.session = x.session := by rw [hy]
      -- what has arrived does not matter to who holds what
      have hseat : ∀ c sub, s'.seat c sub = s.seat c sub := by
        intro c sub
        rw [seat_put hput]
        split
        next hid => rw [← hid, seat_of_find? hx, Option.bind_some, hsession]
        next => rfl
      have hcut : Orderly start s h fun h => (s', h) :=
        hr.orderly_of_rewired (.refl h) (fun _ => rfl) (fun _ _ _ => rfl)
          (hput.registry ▸ hr.outputs) hseat
          (outlet?_put hput hx (by rw [hsession]))
      have hserve : ∀ h, s.serve h id y cut.2 = s'.serve h id y cut.2 := by
        intro h
        simp only [serve, hs', AscMap.insert_insert]
      have hfind : s'.connections.find? id = some y := (hput.find id).trans (if_pos rfl)
      simp only [← hy, hserve, serve_frames hfind]
      have hframes : Orderly start s h fun h =>
          cut.2.foldl (fun y result => y.1.frame y.2 id result) (s', h) :=
        hcut.andThen hr (k := fun s h => cut.2.foldl (fun y result => y.1.frame y.2 id result) (s, h))
          (orderly_foldl (fun _ _ hr result _ => hr.orderly_frame id result) hcut.roster)
      split
      · exact hframes.andThen hr (k := fun s h => s.apply h (.close id)) (hframes.roster.orderly_close id)
      · exact hframes

end Roster

/-! ### Runs -/

inductive Turn
  | event (e : Event)
  | register (name : String) (o : OutputId)
  | unregister (name : String)
  | handleWith (name : String) (handler : ModificationHandler)

def turn (s : Server) (h : Hub) : Turn → Server × Hub
  | .event e => s.step h e
  | .register name o => ({ s with registry := s.registry.register name o }, h)
  | .unregister name => ({ s with registry := s.registry.unregister name }, h)
  | .handleWith name handler => ({ s with registry := s.registry.handleWith name handler }, h)

def turns (s : Server) (h : Hub) (ts : List Turn) : Server × Hub :=
  ts.foldl (fun y t => y.1.turn y.2 t) (s, h)

def Turn.Fits (start : Hub) : Turn → Prop
  | .register _ o => (start.display? o).isSome
  | _ => True

/-- Whether connection `c`, in a server after a turn, has been closed, opened or lost in it. -/
def Turn.Drops (c : UInt64) (s : Server) : Turn → Prop
  | .event (.command (.open id _)) | .event (.command (.close id)) => id = c
  | .event (.command (.receive id _)) => id = c ∧ s.connections.find? c = none
  | _ => False

namespace Roster

theorem orderly_step (hr : Roster start s h) (e : Event) :
    Orderly start s h fun h => s.step h e := by
  cases e with
  | act k a => exact hr.orderly_hub (h.rewired_act k a).1 (h.rewired_act k a).2 fun _ _ _ => rfl
  | fire k =>
      exact hr.orderly_hub (h.rewired_fire k).1 (h.rewired_fire k).2
        fun i x hidle => h.fire_setInput k (hidle _) x
  | command c =>
      cases c with
      | «open» id out => exact hr.orderly_open id out
      | receive id bytes => exact hr.orderly_receive id bytes
      | close id => exact hr.orderly_close id
  | request id r => exact hr.orderly_frame id (.ok (.request r))
  | hangUp out =>
      exact hr.orderly_hub (h.rewired_outlets _).1 (h.rewired_outlets _).2 fun _ _ _ => rfl

theorem orderly_turn (hr : Roster start s h) {t : Turn} (ht : t.Fits start) :
    Orderly start s h fun h => s.turn h t := by
  cases t with
  | event e => exact hr.orderly_step e
  | register name o =>
      refine hr.orderly_registry fun name' o' ho' => ?_
      rw [Registry.register, AscMap.find?_insert] at ho'
      split at ho'
      · cases ho'
        exact ht
      · exact hr.outputs name' o' ho'
  | unregister name =>
      refine hr.orderly_registry fun name' o' ho' => ?_
      rw [Registry.unregister, AscMap.find?_erase] at ho'
      split at ho'
      · cases ho'
      · exact hr.outputs name' o' ho'
  | handleWith name handler => exact hr.orderly_registry hr.outputs

theorem orderly_turns (hr : Roster start s h) {ts : List Turn} (hts : ∀ t ∈ ts, t.Fits start) :
    Orderly start s h fun h => s.turns h ts :=
  orderly_foldl (fun _ _ hr t ht => hr.orderly_turn (hts t ht)) hr

end Roster

theorem turns_append (s : Server) (h : Hub) (ts ts' : List Turn) :
    s.turns h (ts ++ ts') = (s.turns h ts).1.turns (s.turns h ts).2 ts' := List.foldl_append

/-- A connection that has been dropped holds nothing, and the others hold what they held. -/
theorem seat_of_drops {t : Turn} (ht : t.Drops c (s.turn h t).1) (c' : UInt64) (sub : Int32) :
    (s.turn h t).1.seat c' sub = if c = c' then none else s.seat c' sub := by
  rcases t with ((k | k | ⟨⟨id, out⟩ | ⟨id, bytes⟩ | id⟩ | ⟨id, r⟩ | out) | ⟨name, o⟩ | name | ⟨name, f⟩)
  case event.command.open =>
    obtain rfl : id = c := ht
    exact seat_put (s.puts_insert id _) c' sub
  case event.command.receive =>
    obtain ⟨rfl, hclosed⟩ := ht
    have hnone : (s.receive h id bytes).1.connections.find? id = none := hclosed
    show (s.receive h id bytes).1.seat c' sub = _
    split
    next hc => rw [← hc, seat, hnone, Option.bind_none]
    next hc => rw [seat, find?_receive_of_ne s h bytes (Ne.symm hc), seat]
  case event.command.close =>
    obtain rfl : id = c := ht
    exact seat_put (s.close_puts h id).1 c' sub
  all_goals exact ht.elim

/-- Input `i` is attached nowhere after the turns, and has had no part in them: nothing has been
told to it and nothing sent by it, as it is all the same what stands in its place. -/
def Gone (s : Server) (h : Hub) (i : InputId) (ts : List Turn) : Prop :=
  (∀ o, i ∉ (s.turns h ts).2.attached o) ∧
    ∀ x, s.turns (h.setInput i x) ts = ((s.turns h ts).1, (s.turns h ts).2.setInput i x)

/-- The roster of a server that has no connections. -/
theorem Roster.first_of_empty {s : Server} (hs : s.connections = ∅)
    (houtputs : ∀ name o, s.registry.outputs.find? name = some o → (start.display? o).isSome)
    (hnodup : ∀ o, (start.attached o).Nodup)
    (hfirst : ∀ o, ∀ i ∈ start.attached o, i < start.inputs.length) : Roster start s start := by
  have hseat : ∀ c sub, s.seat c sub = none := by
    intro c sub
    rw [seat, hs]
    rfl
  refine ⟨houtputs, fun _ => rfl, hfirst, Nat.le_refl _, hnodup, fun o i => ?_, ?_, ?_, ?_⟩
  · simp [hseat]
  all_goals simp [hseat]

theorem Roster.gone_of_idle (hr : Roster start s h) (hi : i < h.inputs.length)
    (hidle : ∀ o, i ∉ h.attached o) {ts : List Turn} (hts : ∀ t ∈ ts, t.Fits start) :
    s.Gone h i ts := by
  have hlater := hr.orderly_turns hts
  exact ⟨hlater.idle hr hi hidle, fun x => hlater.aside i x hi hidle⟩

/-- A sink that a connection holds is never held by another one. -/
theorem Roster.only_holder (hr : Roster start s h) (hseat : s.seat c sub = some (o, i)) (ts : List Turn)
    (hts : ∀ t ∈ ts, t.Fits start) :
    i < (s.turns h ts).2.inputs.length ∧
      ∀ c' sub' o', (s.turns h ts).1.seat c' sub' = some (o', i) → c' = c := by
  have hlater := hr.orderly_turns hts
  have hlt := hr.lt hseat
  refine ⟨hlt.trans_le hlater.grown, fun c' sub' o' hheld => ?_⟩
  have hbefore := hlater.held c' sub' o' i hlt hheld
  exact (hr.alone c sub o i c' sub' o' hseat hbefore).1

/-- What only the dropped connection may have held is attached nowhere. -/
theorem Roster.idle_of_drops {t : Turn} (hr : Roster start (s.turn h t).1 (s.turn h t).2)
    (ht : t.Drops c (s.turn h t).1) (hnew : start.inputs.length ≤ i)
    (hother : ∀ c' sub o, s.seat c' sub = some (o, i) → c' = c) (o : OutputId) :
    i ∉ (s.turn h t).2.attached o := by
  intro hattached
  rcases (hr.attached o i).mp hattached with hfirst | ⟨c', sub, hseat⟩
  · exact Nat.not_lt.mpr hnew (hr.first o i hfirst)
  · rw [seat_of_drops ht] at hseat
    split at hseat
    next => cases hseat
    next hc => exact hc (hother c' sub o hseat).symm

/-- The inputs attached to an output are those that were so at the start and the sinks of the
subscriptions that open connections hold on it, each of them once. -/
theorem sinks_in_custody {s : Server} {start : Hub} (hs : s.connections = ∅)
    (houtputs : ∀ name o, s.registry.outputs.find? name = some o → (start.display? o).isSome)
    (hnodup : ∀ o, (start.attached o).Nodup)
    (hfirst : ∀ o, ∀ i ∈ start.attached o, i < start.inputs.length)
    {ts : List Turn} (hts : ∀ t ∈ ts, t.Fits start) :
    let now := s.turns start ts
    (∀ o, (now.2.attached o).Nodup ∧
      ∀ i, i ∈ now.2.attached o ↔
        i ∈ start.attached o ∨ ∃ c sub, now.1.seat c sub = some (o, i)) ∧
      (∀ c sub o i, now.1.seat c sub = some (o, i) →
        (∃ x, now.1.connections.find? c = some x ∧ now.2.Reaches x.session.outlet sub i) ∧
          (∀ o', i ∉ start.attached o') ∧
          ∀ c' sub' o', now.1.seat c' sub' = some (o', i) → c' = c ∧ sub' = sub) ∧
      ∀ before t later, ts = before ++ t :: later →
        let last := s.turns start before
        let next := last.1.turn last.2 t
        ∀ c i, t.Drops c next.1 →
          (∃ past sub o, past <+: before ∧ (s.turns start past).1.seat c sub = some (o, i)) ∨
              last.2.inputs.length ≤ i ∧ i < next.2.inputs.length →
            next.1.Gone next.2 i later := by
  have hbegin : Roster start s start := .first_of_empty hs houtputs hnodup hfirst
  have hroster : ∀ past, past <+: ts → Roster start (s.turns start past).1 (s.turns start past).2 :=
    fun past hpast => (hbegin.orderly_turns fun t ht => hts t (hpast.subset ht)).roster
  have hnow := hroster ts List.prefix_rfl
  refine ⟨fun o => ⟨hnow.nodup o, hnow.attached o⟩, fun c sub o i hseat => ?_, ?_⟩
  · obtain ⟨out, hout, hreaches⟩ := hnow.sinks c sub o i hseat
    obtain ⟨x, hx, rfl⟩ := Option.map_eq_some_iff.mp hout
    refine ⟨⟨x, hx, hreaches⟩, fun o' hold => ?_,
      fun c' sub' o' hseat' => hnow.alone c sub o i c' sub' o' hseat hseat'⟩
    exact Nat.not_lt.mpr (hnow.fresh c sub o i hseat) (hfirst o' i hold)
  · rintro before t later rfl last next c i hdrops hi
    have hlast : Roster start last.1 last.2 := hroster before (List.prefix_append ..)
    have ht : Orderly start last.1 last.2 fun h => last.1.turn h t :=
      hlast.orderly_turn (hts t (by simp))
    have hlater : ∀ t ∈ later, t.Fits start := fun t' ht' => hts t' (by simp [ht'])
    have hother : start.inputs.length ≤ i ∧ i < next.2.inputs.length ∧
        ∀ c' sub o, last.1.seat c' sub = some (o, i) → c' = c := by
      rcases hi with ⟨past, sub, o, ⟨rest, rfl⟩, hseat⟩ | ⟨hnew, hlt⟩
      · have hpast := hroster past (by simp [List.append_assoc])
        obtain ⟨hlt, honly⟩ := hpast.only_holder hseat rest fun t' ht' => hts t' (by simp [ht'])
        rw [← turns_append] at hlt honly
        exact ⟨hpast.fresh c sub o i hseat, hlt.trans_le ht.grown, honly⟩
      · exact ⟨hlast.grown.trans hnew, hlt, fun c' sub o hheld =>
          absurd (hlast.lt hheld) (Nat.not_lt.mpr hnew)⟩
    obtain ⟨hnew, hlt, hother⟩ := hother
    exact ht.roster.gone_of_idle hlt (ht.roster.idle_of_drops hdrops hnew hother) hlater

/-- Two connections follow a table. The first one asks for it once more, and loses its stream to a
frame of no kind in the same piece. -/
theorem sinks_in_custody_lost :
    let schema : Schema := ⟨⟨"T", [⟨"a", .int32, {}⟩]⟩, by decide⟩
    let s : Server := { registry := { outputs := .ofList [("T", .table 0)] } }
    let start : Hub := { tables := [.plain (.create schema)], outlets := [{}, {}] }
    let ask (sub : Int32) : Request := ⟨1, sub, .subscribe, some (.everything "T")⟩
    let before : List Turn := [.event (.command (.open 1 0)), .event (.command (.open 2 1)),
      .event (.request 1 (ask 7)), .event (.request 2 (ask 7)), .unregister "T",
      .register "T" (.table 0)]
    let fault : Turn := .event (.command (.receive 1 (Wire.encodeRequest (ask 8) ++ [1, 0, 0, 0, 7])))
    let later : List Turn := [.event (.act 0 (.insert [⟨.name "a", ⟨.int32, 5⟩⟩])), .event (.fire 0)]
    let last := s.turns start before
    let next := last.1.turn last.2 fault
    let now := next.1.turns next.2 later
    (s.connections = ∅ ∧ (∀ name o, s.registry.outputs.find? name = some o → (start.display? o).isSome) ∧
        (∀ o, (start.attached o).Nodup) ∧ (∀ o, ∀ i ∈ start.attached o, i < start.inputs.length) ∧
        (∀ t ∈ before ++ fault :: later, t.Fits start) ∧ fault.Drops 1 next.1) ∧
      (last.2.attached (.table 0) = [0, 1] ∧ next.2.inputs.length = 3 ∧
        now.2.attached (.table 0) = [1] ∧
        now.2.sentTo 0 = next.2.sentTo 0 ∧ (now.2.sentTo 1).length = (next.2.sentTo 1).length + 1) ∧
      next.1.Gone next.2 0 later ∧ next.1.Gone next.2 2 later := by
  intro schema s start ask before fault later last next now
  have hregistry : ∀ name o, s.registry.outputs.find? name = some o → (start.display? o).isSome := by
    intro name o ho
    have hmem : (name, o) ∈ s.registry.outputs.toList := AscMap.find?_eq_some_iff.mp ho
    have hone : s.registry.outputs.toList = [("T", .table 0)] := by decide +kernel
    rw [hone, List.mem_singleton] at hmem
    cases hmem
    rfl
  have hnothing : ∀ o, start.attached o = [] := by
    rintro ((_ | k) | k | ⟨c, id⟩) <;> rfl
  have hnodup : ∀ o, (start.attached o).Nodup := fun o => (hnothing o).symm ▸ List.nodup_nil
  have hfirst : ∀ o, ∀ i ∈ start.attached o, i < start.inputs.length := by simp [hnothing]
  have hfits : ∀ t ∈ before ++ fault :: later, t.Fits start := by
    simp [before, fault, later, Turn.Fits, start, Hub.display?]
  have hdrops : fault.Drops 1 next.1 := ⟨rfl, by decide +kernel⟩
  have hgone := (sinks_in_custody rfl hregistry hnodup hfirst hfits).2.2 before fault later rfl 1
  refine ⟨⟨rfl, hregistry, hnodup, hfirst, hfits, hdrops⟩, ⟨by decide +kernel, by decide +kernel,
    by decide +kernel, by decide +kernel, by decide +kernel⟩, ?_, ?_⟩
  · have hseat : last.1.seat 1 7 = some (.table 0, 0) := by decide +kernel
    exact hgone 0 hdrops (.inl ⟨before, 7, .table 0, List.prefix_rfl, hseat⟩)
  · exact hgone 2 hdrops (.inr (by decide +kernel))

end TableFeed.Server
