import Mathlib
import TableFeed.Proofs.Hub.OutputsAlone
import TableFeed.Proofs.Session.SubscriptionCourse
/-!
Which inputs are attached to which outputs, whatever the outputs are: tables, replicas of their own,
replicas of a client's subscriptions, and those of subscriptions that have ended.
-/

namespace TableFeed

theorem AscMap.find?_modify {κ α : Type} [Ord κ] [DecidableEq κ] [Std.TransOrd κ]
    [Std.LawfulEqOrd κ] (m : AscMap κ α) (k j : κ) (f : α → α) :
    (m.modify k f).find? j = if k = j then (m.find? j).map f else m.find? j := by
  rw [modify]
  split
  next a ha =>
    rw [find?_insert]
    split
    next hkj => rw [← hkj, ha, Option.map_some]
    next => rfl
  next ha =>
    split
    next hkj => rw [← hkj, ha, Option.map_none]
    next => rfl

namespace Hub

variable {h g : Hub} {o o' : OutputId} {i j : InputId} {k : Nat} {t : AnyTable}

/-! ### What is attached -/

theorem SameOutputs.attached (hg : h.SameOutputs g) (out : OutputId) :
    g.attached out = h.attached out := by
  rw [Hub.attached, Hub.attached, hg.display? out]

/-- What is done to the tables leaves the inputs attached. -/
theorem attached_modify {f : AnyTable → AnyTable}
    (hf : ∀ t, (f t).table.publisher.inputs = t.table.publisher.inputs)
    (hg : g.tables = h.tables.modify k f) (j : Nat) :
    g.attached (.table j) = h.attached (.table j) := by
  rw [attached_table, attached_table, hg, List.getElem?_modify]
  cases h.tables[j]? with
  | none => rfl
  | some t => by_cases hkj : k = j <;> simp [hkj, hf]

theorem attached_act (h : Hub) (k : Nat) (a : Act) (j : Nat) :
    (h.deed k (.act a)).attached (.table j) = h.attached (.table j) :=
  attached_modify (fun t => t.inputs_act a) rfl j

theorem attached_fire (h : Hub) (k j : Nat) :
    (h.fire k).attached (.table j) = h.attached (.table j) := by
  refine attached_modify (fun t => ?_) (tables_fire h k) j
  rw [AnyTable.table_mapTable]
  exact inputs_publish t.table

/-! ### Publishers -/

def Display.map (f : Publisher → Publisher) (d : Display) : Display :=
  { d with publisher := f d.publisher }

theorem replica?_setReplica {c : Client} {id : Int32} {r : Replica} (hr : c.replica? id = some r)
    (r' : Replica) (id' : Int32) :
    (c.setReplica id r').replica? id' = if id = id' then some r' else c.replica? id' := by
  rw [Client.replica?, Client.setReplica, AscMap.find?_modify]
  split
  next hid =>
    subst hid
    rw [Client.replica?] at hr
    obtain ⟨sub, hsub, -⟩ := Option.map_eq_some_iff.mp hr
    rw [hsub]
    rfl
  next => rfl

theorem lookIn_ended (key o : OutputId) (f : Publisher → Publisher)
    (ended : List (OutputId × Replica)) :
    AscMap.lookIn o (ended.map fun e =>
      if e.1 = key then (e.1, { e.2 with publisher := f e.2.publisher }) else e) =
        (AscMap.lookIn o ended).map fun r =>
          if key = o then { r with publisher := f r.publisher } else r := by
  induction ended with
  | nil => rfl
  | cons e ended ih =>
      rw [List.map_cons]
      by_cases hkey : e.1 = key <;> by_cases ho : e.1 = o
      · simp [AscMap.lookIn, ← ho, ← hkey]
      · simp [AscMap.lookIn, hkey, hkey ▸ ho, ih]
      · have hne : o ≠ key := fun heq => hkey (ho.trans heq)
        simp [AscMap.lookIn, ho, hne, Ne.symm hne]
      · simp [AscMap.lookIn, hkey, ho, ih]

/-- Changing the publisher of a subscription that its client still has. -/
theorem display?_mapPublisher_held {f : Publisher → Publisher} {c : Nat} {id : Int32} {r : Replica}
    (hr : (h.clients[c]?.bind fun client => client.replica? id) = some r) (c' : Nat) (id' : Int32) :
    (h.mapPublisher f (.subscription c id)).display? (.subscription c' id') =
      if OutputId.subscription c id = .subscription c' id' then
        (h.display? (.subscription c' id')).map (Display.map f)
      else h.display? (.subscription c' id') := by
  rw [mapPublisher, hr]
  obtain ⟨client, hclient, hreplica⟩ := Option.bind_eq_some_iff.mp hr
  by_cases hc : c = c'
  · subst hc
    have hset := replica?_setReplica hreplica { r with publisher := f r.publisher } id'
    simp only [display?, List.getElem?_modify_eq, hclient, Option.map_eq_map, Option.map_some,
      Option.bind_some, hset, OutputId.subscription.injEq, true_and]
    by_cases hid : id = id'
    · subst hid
      simp [hreplica, Display.map, Replica.display]
    · simp [hid]
  · simp [display?, hc]

/-- Changing the publisher of a subscription that has ended, or was never there. -/
theorem display?_mapPublisher_ended {f : Publisher → Publisher} {c : Nat} {id : Int32}
    (hr : (h.clients[c]?.bind fun client => client.replica? id) = none) (c' : Nat) (id' : Int32) :
    (h.mapPublisher f (.subscription c id)).display? (.subscription c' id') =
      if OutputId.subscription c id = .subscription c' id' then
        (h.display? (.subscription c' id')).map (Display.map f)
      else h.display? (.subscription c' id') := by
  rw [mapPublisher, hr]
  have hended := lookIn_ended (.subscription c id) (.subscription c' id') f h.ended
  simp only [display?, hended]
  by_cases hsame : OutputId.subscription c id = .subscription c' id'
  · cases hsame
    simp only [hr, if_true]
    cases AscMap.lookIn (OutputId.subscription c id) h.ended <;> rfl
  · simp only [if_neg hsame]
    cases AscMap.lookIn (OutputId.subscription c' id') h.ended <;> rfl

/-- Changing the publisher of one output changes what that output shows. -/
theorem display?_mapPublisher (h : Hub) (f : Publisher → Publisher) (o o' : OutputId) :
    (h.mapPublisher f o).display? o' =
      if o = o' then (h.display? o').map (Display.map f) else h.display? o' := by
  cases o with
  | table k =>
      cases o' with
      | table l =>
          simp only [mapPublisher, display?, List.getElem?_modify, OutputId.table.injEq]
          cases h.tables[l]? with
          | none => simp
          | some t =>
              split
              · simp [Display.map, Table.display, AnyTable.table_mapTable, Table.shown]
              · simp
      | replica l => rfl
      | subscription c id => rfl
  | replica k =>
      cases o' with
      | table l => rfl
      | replica l =>
          simp only [mapPublisher, display?, List.getElem?_modify, OutputId.replica.injEq]
          cases h.replicas[l]? with
          | none => simp
          | some r =>
              split
              · simp [Display.map, Replica.display]
              · simp
      | subscription c id => rfl
  | subscription c id =>
      cases hr : h.clients[c]?.bind fun client => client.replica? id with
      | some r =>
          cases o' with
          | table l | replica l => simp [mapPublisher, hr, display?]
          | subscription c' id' => exact display?_mapPublisher_held hr c' id'
      | none =>
          cases o' with
          | table l | replica l => simp [mapPublisher, hr, display?]
          | subscription c' id' => exact display?_mapPublisher_ended hr c' id'

theorem isSome_mapPublisher (h : Hub) (f : Publisher → Publisher) (o o' : OutputId) :
    ((h.mapPublisher f o).display? o').isSome = (h.display? o').isSome := by
  rw [display?_mapPublisher]
  split <;> simp

theorem attached_mapPublisher (h : Hub) (f : Publisher → Publisher) (o o' : OutputId) :
    (h.mapPublisher f o).attached o' =
      if o = o' then ((h.display? o').map fun d => (f d.publisher).inputs).getD []
      else h.attached o' := by
  rw [attached, display?_mapPublisher]
  split
  · rw [Option.map_map]
    rfl
  · rfl

/-- Only outputs have publishers. -/
theorem ends_mapPublisher (h : Hub) (f : Publisher → Publisher) (o : OutputId) :
    (h.mapPublisher f o).inputs = h.inputs ∧ (h.mapPublisher f o).outlets = h.outlets := by
  cases o with
  | table k | replica k => exact ⟨rfl, rfl⟩
  | subscription c id =>
      rw [mapPublisher]
      split <;> exact ⟨rfl, rfl⟩

theorem sameInputs_mapPublisher (h : Hub) (f : Publisher → Publisher) (o : OutputId) :
    h.SameInputs (h.mapPublisher f o) := by
  refine ⟨fun n => ?_⟩
  rw [(ends_mapPublisher h f o).1]
  exact (SameInputs.refl h).input n

/-! ### Attaching and detaching -/

/-- Nothing but what is attached has changed: the inputs have heard something at most, and the
outputs are still there. -/
structure Rewired (h g : Hub) : Prop where
  inputs : h.SameInputs g
  outputs : ∀ o, (g.display? o).isSome = (h.display? o).isSome

theorem Rewired.refl (h : Hub) : h.Rewired h := ⟨.refl h, fun _ => rfl⟩

theorem Rewired.trans {l : Hub} (hg : h.Rewired g) (hl : g.Rewired l) : h.Rewired l :=
  ⟨hg.inputs.trans hl.inputs, fun o => (hl.outputs o).trans (hg.outputs o)⟩

/-- Outlets have nothing to do with what is attached. -/
theorem rewired_outlets (h : Hub) (outlets : List Outlet) :
    h.Rewired { h with outlets := outlets } ∧
      ∀ o, ({ h with outlets := outlets } : Hub).attached o = h.attached o :=
  ⟨⟨⟨(SameInputs.refl h).input⟩, fun _ => rfl⟩, fun _ => rfl⟩

theorem rewired_attach (h : Hub) (o : OutputId) (i : InputId) : h.Rewired (h.attach o i) := by
  rw [attach]
  split
  · exact .refl h
  next d hd =>
    split
    · exact .refl h
    · refine ⟨(h.sameInputs_mapPublisher _ o).trans (sameInputs_tellAll ..), fun o' => ?_⟩
      rw [(sameOutputs_tellAll ..).display?, isSome_mapPublisher]

theorem rewired_detach (h : Hub) (o : OutputId) (i : InputId) : h.Rewired (h.detach o i).1 := by
  rw [detach]
  split
  · refine ⟨(h.sameInputs_mapPublisher _ o).trans (sameInputs_tellAll ..), fun o' => ?_⟩
    rw [(sameOutputs_tellAll ..).display?, isSome_mapPublisher]
  · exact .refl h

/-- What is attached after an input has been attached to an output that is there. -/
theorem attached_joined (hd : (h.display? o).isSome) (i : InputId) (o' : OutputId) :
    (∀ j, j ∈ (h.attach o i).attached o' ↔ j ∈ h.attached o' ∨ o = o' ∧ j = i) ∧
      ((h.attached o').Nodup → ((h.attach o i).attached o').Nodup) := by
  obtain ⟨d, hd⟩ := Option.isSome_iff_exists.mp hd
  have hattached : h.attached o = d.publisher.inputs := by rw [attached, hd]; rfl
  rw [attach, hd]
  dsimp only
  split
  next hi =>
    rw [Publisher.isAttached, List.contains_iff_mem, ← hattached] at hi
    refine ⟨fun j => ⟨.inl, ?_⟩, id⟩
    rintro (hj | ⟨rfl, rfl⟩)
    · exact hj
    · exact hi
  next hi =>
    rw [(sameOutputs_tellAll ..).attached, attached_mapPublisher]
    by_cases ho : o = o'
    · subst ho
      rw [if_pos rfl, hattached, hd]
      refine ⟨fun j => ?_, fun hnodup => Publisher.nodup_attach hnodup i⟩
      simpa using Publisher.mem_attach
    · simp [ho]

theorem attached_detach (h : Hub) (o : OutputId) (i : InputId) (o' : OutputId) :
    (h.detach o i).1.attached o' = if o = o' then (h.attached o').erase i else h.attached o' := by
  rw [detach]
  split
  · rw [(sameOutputs_tellAll ..).attached, attached_mapPublisher]
    split
    · rw [attached]
      cases h.display? o' <;> rfl
    · rfl
  next hi =>
    rw [List.contains_iff_mem] at hi
    split
    next ho => rw [List.erase_of_not_mem (ho ▸ hi)]
    next => rfl

/-- What is attached after an input has been detached. -/
theorem attached_left (hnodup : (h.attached o').Nodup) (i : InputId) :
    (∀ j, j ∈ (h.detach o i).1.attached o' ↔ j ∈ h.attached o' ∧ ¬(o = o' ∧ j = i)) ∧
      ((h.detach o i).1.attached o').Nodup := by
  rw [attached_detach]
  split
  next ho => exact ⟨fun j => by simp [hnodup.mem_erase_iff, ho, and_comm], hnodup.erase i⟩
  next ho => exact ⟨by simp [ho], hnodup⟩

def detachAll (h : Hub) (us : List (OutputId × InputId)) : Hub :=
  us.foldl (fun h u => (h.detach u.1 u.2).1) h

theorem rewired_detachAll (h : Hub) (us : List (OutputId × InputId)) :
    h.Rewired (h.detachAll us) := by
  induction us generalizing h with
  | nil => exact .refl h
  | cons u us ih => exact (h.rewired_detach u.1 u.2).trans (ih _)

theorem attached_detachAll (hnodup : ∀ o, (h.attached o).Nodup) (us : List (OutputId × InputId)) :
    (∀ o, ((h.detachAll us).attached o).Nodup) ∧
      ∀ o i, i ∈ (h.detachAll us).attached o ↔ i ∈ h.attached o ∧ (o, i) ∉ us := by
  induction us generalizing h with
  | nil => exact ⟨hnodup, by simp [detachAll]⟩
  | cons u us ih =>
      have hleft := fun o => attached_left (o := u.1) (hnodup o) u.2
      obtain ⟨hnodup', hmem⟩ := ih fun o => (hleft o).2
      refine ⟨hnodup', fun o i => (hmem o i).trans ?_⟩
      rw [(hleft o).1, List.mem_cons, not_or, Prod.ext_iff, eq_comm (a := o), and_assoc]

/-! ### Tables -/

/-- Whatever is done to tables, the other outputs show what they showed. -/
theorem display?_of_tables (hreplicas : g.replicas = h.replicas) (hclients : g.clients = h.clients)
    (hended : g.ended = h.ended) (ho : ∀ k, o ≠ .table k) : g.display? o = h.display? o := by
  cases o with
  | table k => exact absurd rfl (ho k)
  | replica k => rw [display?, display?, hreplicas]
  | subscription c id => rw [display?, display?, hclients, hended]

theorem isSome_display?_table (h : Hub) (k : Nat) :
    (h.display? (.table k)).isSome = decide (k < h.tables.length) := by
  rw [display?, Option.isSome_map, Bool.eq_iff_iff]
  simp

theorem rewired_act (h : Hub) (k : Nat) (a : Act) :
    h.Rewired (h.deed k (.act a)) ∧ ∀ o, (h.deed k (.act a)).attached o = h.attached o := by
  refine ⟨⟨⟨(SameInputs.refl h).input⟩, fun o => ?_⟩, fun o => ?_⟩
  all_goals cases o with
  | table l => first | exact attached_act h k a l | simp [isSome_display?_table, deed]
  | replica l => rfl
  | subscription c id => rfl

theorem rewired_fire (h : Hub) (k : Nat) :
    h.Rewired (h.fire k) ∧ ∀ o, (h.fire k).attached o = h.attached o := by
  have hrest : (h.fire k).replicas = h.replicas ∧ (h.fire k).clients = h.clients ∧
      (h.fire k).ended = h.ended := by
    cases ht : h.tables[k]? with
    | none => simp [fire, ht]
    | some t =>
        have hsame := sameOutputs_tellEach (h.published k t) (.output (.table k))
          t.table.publisher.inputs t.table.publish.2
        rw [fire_eq ht]
        exact ⟨hsame.replicas, hsame.clients, hsame.ended⟩
  have hdisplay : ∀ o, (∀ l, o ≠ .table l) → (h.fire k).display? o = h.display? o :=
    fun o ho => display?_of_tables hrest.1 hrest.2.1 hrest.2.2 ho
  refine ⟨⟨Stage.sameInputs_fire h k, fun o => ?_⟩, fun o => ?_⟩
  · by_cases ho : ∀ l, o ≠ .table l
    · rw [hdisplay o ho]
    · push Not at ho
      obtain ⟨l, rfl⟩ := ho
      rw [isSome_display?_table, isSome_display?_table, (Steady.fire h k).tables]
  · by_cases ho : ∀ l, o ≠ .table l
    · rw [attached, attached, hdisplay o ho]
    · push Not at ho
      obtain ⟨l, rfl⟩ := ho
      exact attached_fire h k l

end Hub

end TableFeed
