import Mathlib
import TableFeed.Proofs.Hub.Following
import TableFeed.Session

/-!
The course of a subscription at the serving end. Its request is on the way, or a sink serves it and
its machine follows a table, or it has been refused. Tables change and fire, and other subscriptions
come and go, and what is sent meanwhile leads the machine along its course.
-/

namespace TableFeed

namespace Hub

/-! ### What stays -/

/-- Clients stay, no table is lost, and a sink remains one for its subscription. -/
structure Steady (h g : Hub) : Prop where
  clients : g.clients = h.clients
  tables : g.tables.length = h.tables.length
  sinks : ∀ (i : InputId) (s : SinkInput), h.inputs[i]? = some (.sink s) →
    ∃ s', g.inputs[i]? = some (.sink s') ∧ s'.sink.subscription = s.sink.subscription

namespace Steady

variable {h g k : Hub}

theorem trans (hg : h.Steady g) (hk : g.Steady k) : h.Steady k := by
  refine ⟨hk.clients.trans hg.clients, hk.tables.trans hg.tables, fun i s hs => ?_⟩
  obtain ⟨s', hs', hsub⟩ := hg.sinks i s hs
  obtain ⟨s'', hs'', hsub'⟩ := hk.sinks i s' hs'
  exact ⟨s'', hs'', hsub'.trans hsub⟩

theorem of_sameInputs (hg : h.SameInputs g) (hclients : g.clients = h.clients)
    (htables : g.tables.length = h.tables.length) : h.Steady g := by
  refine ⟨hclients, htables, fun i s hs => ?_⟩
  obtain ⟨s', hs', -, hsame⟩ := hg.sink hs
  exact ⟨s', hs', hsame.1⟩

theorem refl (h : Hub) : h.Steady h := of_sameInputs (.refl h) rfl rfl

theorem act (h : Hub) (k : Nat) (a : Act) : h.Steady (h.deed k (.act a)) :=
  of_sameInputs ⟨(SameInputs.refl h).input⟩ rfl (List.length_modify ..)

theorem fire (h : Hub) (k : Nat) : h.Steady (h.fire k) := by
  rcases ht : h.tables[k]? with _ | t
  · rw [Hub.fire, ht]
    exact of_sameInputs (.refl h) rfl rfl
  · have hsame := sameOutputs_tellEach (h.published k t) (.output (.table k))
      t.table.publisher.inputs t.table.publish.2
    refine of_sameInputs (Stage.sameInputs_fire h k) ?_ ?_
    · rw [fire_eq ht]
      exact hsame.clients
    · rw [fire_eq ht]
      dsimp only
      rw [List.length_modify, hsame.tables]
      exact List.length_set

theorem attach {k : Nat} {t : AnyTable} (ht : h.tables[k]? = some t) (i : InputId) :
    h.Steady (h.attach (.table k) i) := by
  refine of_sameInputs (Stage.sameInputs_attach ht i) ?_ ?_
  · rw [attach_eq ht]
    split
    · rfl
    · exact (sameOutputs_tellAll ..).clients
  · rw [attach_eq ht]
    split
    · rfl
    · rw [(sameOutputs_tellAll ..).tables]
      exact List.length_modify ..

theorem detach {k : Nat} {t : AnyTable} (ht : h.tables[k]? = some t) (i : InputId) :
    h.Steady (h.detach (.table k) i).1 := by
  refine of_sameInputs (Stage.sameInputs_detach ht i) ?_ ?_
  · rw [detach_eq ht]
    split
    · exact (sameOutputs_tellAll ..).clients
    · rfl
  · rw [detach_eq ht]
    split
    · rw [(sameOutputs_tellAll ..).tables]
      exact List.length_modify ..
    · rfl

theorem emit (h : Hub) (o : OutletId) (r : Response) : h.Steady (h.emit o r) :=
  of_sameInputs ⟨(SameInputs.refl h).input⟩ rfl rfl

theorem addInput (h : Hub) (x : Input) : h.Steady (h.addInput x).1 := by
  refine ⟨rfl, rfl, fun i s hs => ⟨s, ?_, rfl⟩⟩
  obtain ⟨hlt, -⟩ := List.getElem?_eq_some_iff.mp hs
  exact (List.getElem?_append_left hlt).trans hs

end Steady

/-- What the sinks have sent is what leads a machine. -/
theorem Leads.takes_filter {h g : Hub} {o : OutletId} {sub : Int32} {m m' : Mirror}
    (hleads : h.Leads g o sub m m') {rs : List Response} (hsent : g.sentTo o = h.sentTo o ++ rs) :
    m.Takes sub defaultRowLimit (rs.filter (·.subscription = sub)) m' := by
  obtain ⟨rs', hrs', htakes⟩ := hleads
  have hsame : g.sentFor o sub = h.sentFor o sub ++ rs.filter (·.subscription = sub) := by
    rw [sentFor, hsent, List.filter_append]
    rfl
  rw [List.append_cancel_left (hsame.symm.trans hrs')]
  exact htakes

/-! ### New sinks -/

section Engage

variable {h : Hub} {o : OutletId} {frameLimit : Nat} {k : Nat} {t : AnyTable} {e : Encoder}

/-- A sink for another subscription is taken in. -/
theorem Vacant.addInput {id : Int32} (hv : h.Vacant o id) {s : SinkInput}
    (hne : s.sink.subscription ≠ id) : (h.addInput (.sink s)).1.Vacant o id := by
  rintro i ⟨x, hx, hadr⟩
  rcases input_addInput hx with hx | ⟨-, rfl⟩
  · exact hv i ⟨x, hx, hadr⟩
  · exact hne hadr.2

theorem Vacant.engaged {id : Int32} (hv : h.Vacant o id) (ht : h.tables[k]? = some t)
    (hne : e.subscription ≠ id) : (h.engaged o k e).Vacant o id := by
  obtain ⟨g, hg⟩ : ∃ g, g = (h.addInput (.sink { sink := { encoder := e }, outlet := o })).1 :=
    ⟨_, rfl⟩
  have htable : g.tables[k]? = some t := hg ▸ ht
  have hvacant : g.Vacant o id := hg ▸ hv.addInput hne
  rw [Hub.engaged, ← hg]
  exact hvacant.of_sameInputs (Stage.sameInputs_attach htable _)

theorem Steady.engaged (ht : h.tables[k]? = some t) : h.Steady (h.engaged o k e) := by
  obtain ⟨x, hx⟩ : ∃ x : Input, x = .sink { sink := { encoder := e }, outlet := o } := ⟨_, rfl⟩
  have htable : (h.addInput x).1.tables[k]? = some t := ht
  rw [Hub.engaged, ← hx]
  exact (addInput h x).trans (.attach htable _)

/-- What is sent then comes from the sinks, of which the new one is one. -/
theorem Stage.sent_engage (hs : h.Stage o frameLimit) (he : e.limit = frameLimit)
    (hvacant : h.Vacant o e.subscription) (ht : h.tables[k]? = some t) :
    ∃ rs, (h.engaged o k e).sentTo o = h.sentTo o ++ rs ∧ ∀ r ∈ rs,
      r.FromSink r.subscription frameLimit ∧ ¬(h.engaged o k e).Vacant o r.subscription := by
  obtain ⟨g, hg⟩ : ∃ g, g = (h.addInput (.sink { sink := { encoder := e }, outlet := o })).1 :=
    ⟨_, rfl⟩
  have hstage : g.Stage o frameLimit := hg ▸ hs.addInput rfl he hvacant
  have htable : g.tables[k]? = some t := hg ▸ ht
  obtain ⟨rs, hsent, hall⟩ := hstage.sent (sends_attach hstage.isOpen htable h.inputs.length)
  rw [Hub.engaged, ← hg]
  refine ⟨rs, hsent.trans ?_, fun r hr => ⟨(hall r hr).1, ?_⟩⟩
  · rw [hg]
    rfl
  · rw [(Stage.sameInputs_attach htable _).vacant_iff]
    exact (hall r hr).2

end Engage

end Hub

/-! ### Courses -/

/-- How far a subscription has come at the serving end, and what its machine will be once it has
taken all that was sent for it. -/
inductive Course (registry : Registry) (frameLimit : Nat) (h : Hub) (asked : List Request)
    (id : Int32) (selection : Selection) : Mirror → Prop
  /-- Its request has not been answered. -/
  | asked {a : Request} (mem : a ∈ asked) (type : a.type = .subscribe) (sub : a.subscription = id)
      (wants : a.selection = some selection) : Course registry frameLimit h asked id selection {}
  | served {k : Nat} {i : InputId} {e : Encoder} {m : Mirror}
      (output : registry.outputs.find? selection.output = some (.table k))
      (sub : e.subscription = id) (wants : e.requested = selection.projection)
      (limit : e.limit = frameLimit) (follows : h.Follows k i 0 e m) :
      Course registry frameLimit h asked id selection m
  | refused {m : Mirror} (failed : m.phase = .failed) (vacant : h.Vacant 0 id)
      (settled : ∀ a ∈ asked, a.type = .subscribe → a.subscription ≠ id) :
      Course registry frameLimit h asked id selection m

namespace Course

variable {registry : Registry} {frameLimit : Nat} {h g : Hub} {asked : List Request} {id : Int32}
  {selection : Selection} {m : Mirror}

/-- Nothing but inputs and tables matters. -/
theorem congr (hcourse : Course registry frameLimit h asked id selection m)
    (htables : g.tables = h.tables) (hinputs : g.inputs = h.inputs) :
    Course registry frameLimit g asked id selection m := by
  cases hcourse with
  | asked mem type sub wants => exact .asked mem type sub wants
  | served output sub wants limit follows =>
      exact .served output sub wants limit (follows.congr htables (by rw [hinputs]))
  | refused failed vacant settled =>
      refine .refused failed (fun i => ?_) settled
      rw [hinputs]
      exact vacant i

/-- Nothing of a registry but its outputs matters. -/
theorem of_outputs (hcourse : Course registry frameLimit h asked id selection m)
    {registry' : Registry} (houtputs : registry'.outputs = registry.outputs) :
    Course registry' frameLimit h asked id selection m := by
  cases hcourse with
  | asked mem type sub wants => exact .asked mem type sub wants
  | served output sub wants limit follows =>
      exact .served (houtputs.symm ▸ output) sub wants limit follows
  | refused failed vacant settled => exact .refused failed vacant settled

/-- Another request is on the way. -/
theorem append_request (hcourse : Course registry frameLimit h asked id selection m) {a : Request}
    (ha : a.type = .subscribe → a.subscription ≠ id) :
    Course registry frameLimit h (asked ++ [a]) id selection m := by
  cases hcourse with
  | asked mem type sub wants => exact .asked (List.mem_append_left _ mem) type sub wants
  | served output sub wants limit follows => exact .served output sub wants limit follows
  | refused failed vacant settled =>
      refine .refused failed vacant fun b hb => ?_
      rcases List.mem_append.mp hb with hb | hb
      · exact settled b hb
      · exact List.mem_singleton.mp hb ▸ ha

/-- Another request has been answered. -/
theorem of_cons {a : Request} (hcourse : Course registry frameLimit h (a :: asked) id selection m)
    (ha : a.type = .subscribe → a.subscription ≠ id) :
    Course registry frameLimit h asked id selection m := by
  cases hcourse with
  | asked mem type sub wants =>
      rcases List.mem_cons.mp mem with rfl | mem
      · exact absurd sub (ha type)
      · exact .asked mem type sub wants
  | served output sub wants limit follows => exact .served output sub wants limit follows
  | refused failed vacant settled =>
      exact .refused failed vacant fun b hb => settled b (List.mem_cons_of_mem a hb)

theorem act (hcourse : Course registry frameLimit h asked id selection m)
    (hs : h.Stage 0 frameLimit) (k : Nat) (a : Act) :
    Course registry frameLimit (h.deed k (.act a)) asked id selection m := by
  cases hcourse with
  | asked mem type sub wants => exact .asked mem type sub wants
  | served output sub wants limit follows =>
      exact .served output sub wants limit (follows.act hs k a)
  | refused failed vacant settled =>
      exact .refused failed (vacant.of_sameInputs ⟨(Hub.SameInputs.refl h).input⟩) settled

theorem fire (hcourse : Course registry frameLimit h asked id selection m)
    (hs : h.Stage 0 frameLimit) (k : Nat)
    (hfits : ∀ t, h.tables[k]? = some t → t.table.Fits defaultRowLimit frameLimit)
    (hasked : ∀ a ∈ asked, a.type = .subscribe → h.Vacant 0 a.subscription) :
    ∃ m', h.Leads (h.fire k) 0 id m m' ∧
      Course registry frameLimit (h.fire k) asked id selection m' := by
  have hsilent : h.Vacant 0 id → (h.fire k).sentFor 0 id = h.sentFor 0 id := fun hv =>
    hv.sentFor_eq (Hub.Stage.sends_fire hs.isOpen k)
  cases hcourse with
  | asked mem type sub wants =>
      exact ⟨{}, Hub.leads_nowhere (hsilent (sub ▸ hasked _ mem type)) {},
        .asked mem type sub wants⟩
  | served output sub wants limit follows =>
      obtain ⟨m', hleads, hafter⟩ := follows.fire hs limit k hfits
      exact ⟨m', sub ▸ hleads, .served output sub wants limit hafter⟩
  | refused failed vacant settled =>
      exact ⟨m, Hub.leads_nowhere (hsilent vacant) m,
        .refused failed (vacant.of_sameInputs (Hub.Stage.sameInputs_fire h k)) settled⟩

/-- A sink for another subscription is taken in and attached to a table. -/
theorem engaged (hcourse : Course registry frameLimit h asked id selection m)
    (hs : h.Stage 0 frameLimit)
    (hasked : ∀ a ∈ asked, a.type = .subscribe → h.Vacant 0 a.subscription) {e : Encoder}
    (he : e.limit = frameLimit) (hvacant : h.Vacant 0 e.subscription) (hne : e.subscription ≠ id)
    {k : Nat} {t : AnyTable} (ht : h.tables[k]? = some t) :
    (h.engaged 0 k e).sentFor 0 id = h.sentFor 0 id ∧
      Course registry frameLimit (h.engaged 0 k e) asked id selection m := by
  obtain ⟨hired, hhired⟩ : ∃ hired, hired =
    (h.addInput (.sink { sink := { encoder := e }, outlet := 0 })).1 := ⟨_, rfl⟩
  have hengaged : h.engaged 0 k e = hired.attach (.table k) h.inputs.length := by
    rw [hhired, Hub.engaged]
  have hstage : hired.Stage 0 frameLimit := hhired ▸ hs.addInput rfl he hvacant
  have htable : hired.tables[k]? = some t := hhired ▸ ht
  have hsent : hired.sentFor 0 id = h.sentFor 0 id := by
    rw [hhired]
    rfl
  have hsilent : h.Vacant 0 id → (h.engaged 0 k e).sentFor 0 id = h.sentFor 0 id := by
    intro hv
    have hstill : hired.Vacant 0 id := hhired ▸ hv.addInput hne
    rw [hengaged]
    exact (hstill.sentFor_eq (Hub.Stage.sends_attach hstage.isOpen htable _)).trans hsent
  cases hcourse with
  | asked mem type sub wants =>
      exact ⟨hsilent (sub ▸ hasked _ mem type), .asked mem type sub wants⟩
  | @served _ i _ _ output sub wants limit follows =>
      have hother : h.inputs.length ≠ i := by
        obtain ⟨s, hi, -⟩ := follows.exists_employs
        obtain ⟨hlt, -⟩ := List.getElem?_eq_some_iff.mp hi
        exact (Nat.ne_of_lt hlt).symm
      have hf : hired.Follows _ i 0 _ _ := hhired ▸ follows.addInput _
      obtain ⟨hquiet, hfollows⟩ := hf.attach hstage htable hother
      rw [hengaged]
      exact ⟨(sub ▸ hquiet).trans hsent, .served output sub wants limit hfollows⟩
  | refused failed vacant settled =>
      exact ⟨hsilent vacant, .refused failed (vacant.engaged ht hne) settled⟩

/-- The sink of another subscription is taken off a table. -/
theorem detach (hcourse : Course registry frameLimit h asked id selection m) {k : Nat}
    {t : AnyTable} (ht : h.tables[k]? = some t) {i' : InputId} {s : SinkInput}
    (hi' : h.inputs[i']? = some (.sink s)) (hne : s.sink.subscription ≠ id) :
    Course registry frameLimit (h.detach (.table k) i').1 asked id selection m := by
  cases hcourse with
  | asked mem type sub wants => exact .asked mem type sub wants
  | @served _ i e _ output sub wants limit follows =>
      have hother : i' ≠ i := by
        rintro rfl
        obtain ⟨s', hs', -, hsame⟩ := follows.exists_employs
        cases hi'.symm.trans hs'
        exact hne (hsame.1.trans sub)
      exact .served output sub wants limit (follows.detach ht hother)
  | refused failed vacant settled =>
      exact .refused failed (vacant.of_sameInputs (Hub.Stage.sameInputs_detach ht i')) settled

end Course

end TableFeed
