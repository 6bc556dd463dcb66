import Mathlib
import TableFeed.Proofs.Connection.Chunks
import TableFeed.Proofs.Hub.Attachments
/-!
Who holds the sinks that a server attaches. Each of them is held by one subscription of one open
connection, and it is attached to the output of that subscription and nowhere else. An input that
exists and is attached nowhere stands aside for good: whatever happens, nothing is told to it, so it
sends nothing.
-/

namespace TableFeed

/-! ### What a session does -/

namespace Session

variable {s : Session} {h : Hub} {r : Request} {registry : Registry}

def enrolled (s : Session) (h : Hub) (sub : Int32) (name : String) (o : OutputId) (sink : Sink) :
    Session × Hub :=
  let u : Subscription := { name := name, output := o, input := h.inputs.length }
  ({ s with subscriptions := s.subscriptions.insert sub u },
    (h.addInput (.sink { sink := sink, outlet := s.outlet })).1.attach o h.inputs.length)

/-- A session and its hub after a request, whatever the outputs are. -/
inductive Serves (s : Session) (registry : Registry) (h : Hub) (r : Request) : Session × Hub → Prop
  | reply (success : Bool) (text : String) : Serves s registry h r (s, s.reply h r success text)
  | grant {name : String} {o : OutputId} {sink : Sink} {text : String}
      (new : s.subscriptions.find? r.subscription = none)
      (registered : ∃ name, registry.outputs.find? name = some o)
      (subscription : sink.subscription = r.subscription) :
    Serves s registry h r (s.enrolled (s.reply h r true text) r.subscription name o sink)
  | release {u : Subscription} {text : String}
      (there : s.subscriptions.find? r.subscription = some u) :
    Serves s registry h r ({ s with subscriptions := s.subscriptions.erase r.subscription },
      s.reply (h.detach u.output u.input).1 r true text)

theorem serves_handle (s : Session) (registry : Registry) (h : Hub) (r : Request) :
    s.Serves registry h r (s.handle registry h r) := by
  rw [handle]
  split
  · rw [subscribe]
    split
    · exact .reply false _
    next selection o sink hcheck =>
      obtain ⟨-, houtput, rfl⟩ := check_ok hcheck
      exact .grant (find?_of_check hcheck) ⟨_, houtput⟩ rfl
  · rw [modify]
    split
    · exact .reply false _
    · split
      · exact .reply false _
      · exact .reply _ _
  · rw [unsubscribe]
    split
    · exact .reply false _
    next u hu => exact .release hu
  · exact .reply false _

theorem enrolled_setInput {i : InputId} (hi : i < h.inputs.length) (sub : Int32) (name : String)
    (o : OutputId) (sink : Sink) (x : Input) :
    s.enrolled (h.setInput i x) sub name o sink =
      ((s.enrolled h sub name o sink).1, (s.enrolled h sub name o sink).2.setInput i x) := by
  have hlength : (h.setInput i x).inputs.length = h.inputs.length := List.length_set
  rw [enrolled, hlength, Hub.addInput_setInput h hi, Hub.attach_setInput _ o (Nat.ne_of_lt hi)]
  rfl

/-- What stands in the place of an input that the session does not hold does not matter to it. -/
theorem handle_setInput {i : InputId} (hi : i < h.inputs.length)
    (hfree : ∀ sub u, s.subscriptions.find? sub = some u → i ≠ u.input) (x : Input) :
    s.handle registry (h.setInput i x) r =
      ((s.handle registry h r).1, (s.handle registry h r).2.setInput i x) := by
  have hdisplay : (h.setInput i x).display? = h.display? :=
    funext (Hub.SameOutputs.display? ⟨rfl, rfl, rfl, rfl⟩)
  have hcheck : s.check registry (h.setInput i x) r = s.check registry h r := by
    simp only [check, hdisplay]
  rw [handle, handle]
  split
  · rw [subscribe, hcheck, subscribe]
    split
    · rfl
    next selection o sink hcheck =>
      exact enrolled_setInput (h := s.reply h r true _) hi r.subscription selection.output o sink x
  · rw [modify, modify]
    split
    · rfl
    · split <;> rfl
  · rw [unsubscribe, unsubscribe]
    split
    · rfl
    next u hu =>
      dsimp only
      rw [Hub.detach_setInput h u.output (hfree _ u hu)]
      rfl
  · rfl

end Session

namespace Server

variable {start h g : Hub} {s s' : Server} {c : UInt64} {sub : Int32} {o : OutputId} {i : InputId}

def outlet? (s : Server) (c : UInt64) : Option OutletId :=
  (s.connections.find? c).map (·.session.outlet)

/-- The sinks that are attached, other than inputs that were so at the start, and the subscriptions
that are held: each sink belongs to one subscription. -/
structure Roster (start : Hub) (s : Server) (h : Hub) : Prop where
  outputs : ∀ name o, s.registry.outputs.find? name = some o → (start.display? o).isSome
  shows : ∀ o, (h.display? o).isSome = (start.display? o).isSome
  first : ∀ o, ∀ i ∈ start.attached o, i < start.inputs.length
  grown : start.inputs.length ≤ h.inputs.length
  nodup : ∀ o, (h.attached o).Nodup
  attached : ∀ o i, i ∈ h.attached o ↔ i ∈ start.attached o ∨ ∃ c sub, s.seat c sub = some (o, i)
  fresh : ∀ c sub o i, s.seat c sub = some (o, i) → start.inputs.length ≤ i
  sinks : ∀ c sub o i, s.seat c sub = some (o, i) →
    ∃ out, s.outlet? c = some out ∧ h.Reaches out sub i
  alone : ∀ c sub o i c' sub' o', s.seat c sub = some (o, i) → s.seat c' sub' = some (o', i) →
    c' = c ∧ sub' = sub

namespace Roster

theorem lt (hr : Roster start s h) (hseat : s.seat c sub = some (o, i)) : i < h.inputs.length := by
  obtain ⟨out, -, hreaches⟩ := hr.sinks c sub o i hseat
  exact hreaches.lt

/-- Nothing is attached or detached. -/
theorem of_rewired (hr : Roster start s h) (hg : h.Rewired g)
    (hattached : ∀ o, g.attached o = h.attached o)
    (houtputs : ∀ name o, s'.registry.outputs.find? name = some o → (start.display? o).isSome)
    (hseat : ∀ c sub, s'.seat c sub = s.seat c sub)
    (houtlet : ∀ c, s'.outlet? c = s.outlet? c) : Roster start s' g := by
  refine ⟨houtputs, fun o => (hg.outputs o).trans (hr.shows o), hr.first, ?_, ?_, ?_, ?_, ?_, ?_⟩
  · rw [hg.inputs.length_eq]
    exact hr.grown
  · simpa only [hattached] using hr.nodup
  · simpa only [hattached, hseat] using hr.attached
  · simpa only [hseat] using hr.fresh
  · intro c sub o i hseated
    rw [hseat] at hseated
    obtain ⟨out, hout, hreaches⟩ := hr.sinks c sub o i hseated
    exact ⟨out, (houtlet c).trans hout, (hg.inputs.addresses_iff i).mpr hreaches⟩
  · simpa only [hseat] using hr.alone

/-- A subscription gets a sink of its own. -/
theorem enrolled (hr : Roster start s h) {sink : Sink} {out : OutletId}
    (hdisplay : (start.display? o).isSome) (hout : s.outlet? c = some out)
    (hsub : sink.subscription = sub) (hregistry : s'.registry = s.registry)
    (hseat : ∀ c' sub' u, s'.seat c' sub' = some u ↔
      s.seat c' sub' = some u ∨ (c' = c ∧ sub' = sub) ∧ u = (o, h.inputs.length))
    (houtlet : ∀ c, s'.outlet? c = s.outlet? c) :
    Roster start s' ((h.addInput (.sink { sink := sink, outlet := out })).1.attach o
      h.inputs.length) := by
  have hadded : ((h.addInput (.sink { sink := sink, outlet := out })).1.display? o).isSome := by
    have hshows := hr.shows o
    rw [hdisplay] at hshows
    exact hshows
  have hg := (h.addInput (.sink { sink := sink, outlet := out })).1.rewired_attach o h.inputs.length
  have hattach := Hub.attached_joined hadded h.inputs.length
  refine ⟨hregistry ▸ hr.outputs, fun o' => (hg.outputs o').trans (hr.shows o'), hr.first, ?_,
    fun o' => (hattach o').2 (hr.nodup o'), fun o' i => ?_, ?_, ?_, ?_⟩
  · rw [hg.inputs.length_eq]
    exact hr.grown.trans (h.length_addInput _).le
  · refine ((hattach o').1 i).trans ?_
    show i ∈ h.attached o' ∨ _ ↔ _
    rw [hr.attached]
    constructor
    · rintro ((hfirst | ⟨c', sub', hu⟩) | ⟨rfl, rfl⟩)
      · exact .inl hfirst
      · exact .inr ⟨c', sub', (hseat c' sub' _).mpr (.inl hu)⟩
      · exact .inr ⟨c, sub, (hseat c sub _).mpr (.inr ⟨⟨rfl, rfl⟩, rfl⟩)⟩
    · rintro (hfirst | ⟨c', sub', hu⟩)
      · exact .inl (.inl hfirst)
      · rcases (hseat c' sub' _).mp hu with hu | ⟨-, heq⟩
        · exact .inl (.inr ⟨c', sub', hu⟩)
        · cases heq
          exact .inr ⟨rfl, rfl⟩
  · intro c' sub' o' i hu
    rcases (hseat c' sub' _).mp hu with hu | ⟨-, heq⟩
    · exact hr.fresh c' sub' o' i hu
    · cases heq
      exact hr.grown
  · intro c' sub' o' i hu
    rcases (hseat c' sub' _).mp hu with hu | ⟨⟨rfl, rfl⟩, heq⟩
    · obtain ⟨out', hout', hreaches⟩ := hr.sinks c' sub' o' i hu
      exact ⟨out', (houtlet c').trans hout', (hg.inputs.addresses_iff i).mpr
        ((Hub.Keeps.addInput h _).reaches _ _ _ hreaches)⟩
    · cases heq
      exact ⟨out, (houtlet c').trans hout, (hg.inputs.addresses_iff _).mpr
        ⟨_, Hub.input_addInput_last h _, rfl, hsub⟩⟩
  · -- no sink before the new one has its number
    intro c₁ sub₁ o₁ i c₂ sub₂ o₂ hu₁ hu₂
    rcases (hseat c₁ sub₁ _).mp hu₁ with hu₁ | ⟨⟨rfl, rfl⟩, heq₁⟩ <;>
      rcases (hseat c₂ sub₂ _).mp hu₂ with hu₂ | ⟨⟨rfl, rfl⟩, heq₂⟩
    · exact hr.alone c₁ sub₁ o₁ i c₂ sub₂ o₂ hu₁ hu₂
    · cases heq₂
      exact absurd (hr.lt hu₁) (Nat.lt_irrefl _)
    · cases heq₁
      exact absurd (hr.lt hu₂) (Nat.lt_irrefl _)
    · exact ⟨rfl, rfl⟩

/-- Sinks that subscriptions have let go are detached. -/
theorem detachAll (hr : Roster start s h) {us : List (OutputId × InputId)}
    (hheld : ∀ u ∈ us, ∃ c sub, s.seat c sub = some u)
    (hregistry : s'.registry = s.registry)
    (hseat : ∀ c sub u, s'.seat c sub = some u ↔ s.seat c sub = some u ∧ u ∉ us)
    (houtlet : ∀ c sub u, s'.seat c sub = some u → s'.outlet? c = s.outlet? c) :
    Roster start s' (h.detachAll us) := by
  have hg := h.rewired_detachAll us
  obtain ⟨hnodup, hattached⟩ := Hub.attached_detachAll hr.nodup us
  have hkept : ∀ c sub u, s'.seat c sub = some u → s.seat c sub = some u :=
    fun c sub u hu => ((hseat c sub u).mp hu).1
  refine ⟨hregistry ▸ hr.outputs, fun o => (hg.outputs o).trans (hr.shows o), hr.first, ?_, hnodup,
    fun o i => ?_, fun c sub o i hu => hr.fresh c sub o i (hkept c sub _ hu),
    fun c sub o i hu => ?_, fun c sub o i c' sub' o' hu hu' =>
      hr.alone c sub o i c' sub' o' (hkept c sub _ hu) (hkept c' sub' _ hu')⟩
  · rw [hg.inputs.length_eq]
    exact hr.grown
  · rw [hattached, hr.attached]
    constructor
    · rintro ⟨hfirst | ⟨c, sub, hu⟩, hus⟩
      · exact .inl hfirst
      · exact .inr ⟨c, sub, (hseat c sub _).mpr ⟨hu, hus⟩⟩
    · rintro (hfirst | ⟨c, sub, hu⟩)
      · -- subscriptions do not hold what was attached at the start
        refine ⟨.inl hfirst, fun hus => ?_⟩
        obtain ⟨c, sub, hu⟩ := hheld _ hus
        exact Nat.not_lt.mpr (hr.fresh c sub o i hu) (hr.first o i hfirst)
      · obtain ⟨hu, hus⟩ := (hseat c sub _).mp hu
        exact ⟨.inr ⟨c, sub, hu⟩, hus⟩
  · obtain ⟨out, hout, hreaches⟩ := hr.sinks c sub o i (hkept c sub _ hu)
    exact ⟨out, (houtlet c sub _ hu).trans hout, (hg.inputs.addresses_iff i).mpr hreaches⟩

end Roster

end Server

end TableFeed
