import Mathlib
import TableFeed.Proofs.Session.Requests
import TableFeed.Proofs.Session.SinkOfSubscription
/-!
What a session does about a request: it replies and no more, or it grants a subscription, or it
releases one. Which of these it is goes by the request, the subscription that it is for, and the
outputs; whatever it is, no other subscription hears of it.
-/

namespace TableFeed

def Registry.OfTables (registry : Registry) (h : Hub) : Prop :=
  ∀ name out, registry.outputs.find? name = some out → ∃ k, out = .table k ∧ k < h.tables.length

theorem Registry.OfTables.of_keeps {registry : Registry} {h g : Hub} (hr : registry.OfTables h)
    (hg : h.Keeps g) : registry.OfTables g := by
  intro name out hout
  obtain ⟨k, hk, hlt⟩ := hr name out hout
  exact ⟨k, hk, hg.tables.symm ▸ hlt⟩

namespace Session

def seat (s : Session) (sub : Int32) : Option (OutputId × InputId) :=
  (s.subscriptions.find? sub).map fun u => (u.output, u.input)

def Holds (s : Session) (h : Hub) : Prop :=
  ∀ id u, s.subscriptions.find? id = some u →
    (∃ k t, u.output = .table k ∧ h.tables[k]? = some t) ∧ h.Reaches s.outlet id u.input

variable {s s' : Session} {h h' g : Hub} {o : OutletId} {sub : Int32}
  {seat : Option (OutputId × InputId)} {r : Request} {registry : Registry} {u : Subscription}

theorem Holds.of_keeps (hs : s.Holds h) (hg : h.Keeps g) : s.Holds g := by
  intro id u hu
  obtain ⟨⟨k, t, hk, ht⟩, hr⟩ := hs id u hu
  obtain ⟨t', ht'⟩ := hg.table ht
  exact ⟨⟨k, t', hk, ht'⟩, hg.reaches _ _ _ hr⟩

theorem seat_of_find? (hu : s.subscriptions.find? sub = some u) :
    s.seat sub = some (u.output, u.input) := by
  rw [Session.seat, hu]
  rfl

theorem seat_insert (s : Session) (sub : Int32) (u : Subscription) :
    ({ s with subscriptions := s.subscriptions.insert sub u } : Session).seat sub =
      some (u.output, u.input) :=
  seat_of_find? (by rw [AscMap.find?_insert, if_pos rfl])

theorem seat_erase (s : Session) (sub : Int32) :
    ({ s with subscriptions := s.subscriptions.erase sub } : Session).seat sub = none := by
  rw [Session.seat, AscMap.find?_erase, if_pos rfl]
  rfl

/-- The sink of another subscription is not in the seat. -/
theorem Holds.ne_seat (hs : s.Holds h) (hh : h.Seats o sub seat) {id : Int32}
    (hu : s.subscriptions.find? id = some u) (hother : ¬(s.outlet = o ∧ id = sub)) :
    seat ≠ some (u.output, u.input) :=
  fun hseat => hother ((hh.seated _ _ hseat).1.unique (hs id u hu).2)

theorem Holds.quiet_detach (hs : s.Holds h) (hh : h.Seats o sub seat) {id : Int32}
    (hu : s.subscriptions.find? id = some u) :
    Hub.Quiet o sub h seat (h.detach u.output u.input).1 (Hub.unseat seat (u.output, u.input)) := by
  obtain ⟨⟨k, t, hk, ht⟩, -⟩ := hs id u hu
  rw [hk]
  exact hh.quiet_detach ht u.input

/-- A session releases one of its subscriptions. -/
theorem Holds.quiet_release (hs : s.Holds h) (hh : h.Seats o sub (s.seat sub))
    (hu : s.subscriptions.find? sub = some u) :
    Hub.Quiet o sub h (s.seat sub) (h.detach u.output u.input).1 none := by
  have hleft := hs.quiet_detach hh hu
  have hnone : Hub.unseat (s.seat sub) (u.output, u.input) = none := by
    rw [seat_of_find? hu, Hub.unseat_self]
  rwa [hnone] at hleft

/-! ### Verdicts -/

inductive Verdict
  | reply (success : Bool) (text : String)
  | grant (name : String) (table : Nat) (e : Encoder) (text : String)
  | release (text : String)

/-- A session and its hub after a request. -/
inductive Does (s : Session) (h : Hub) (r : Request) : Verdict → Session × Hub → Prop
  | reply (success : Bool) (text : String) :
    Does s h r (.reply success text) (s, s.reply h r success text)
  | grant {name : String} {k : Nat} {t : AnyTable} {e : Encoder} {text : String}
      (new : s.subscriptions.find? r.subscription = none) (table : h.tables[k]? = some t)
      (subscription : e.subscription = r.subscription) :
    Does s h r (.grant name k e text)
      ({ s with
          subscriptions := s.subscriptions.insert r.subscription ⟨name, .table k, h.inputs.length⟩ },
        (s.reply h r true text).engaged s.outlet k e)
  | release {u : Subscription} {text : String}
      (there : s.subscriptions.find? r.subscription = some u) :
    Does s h r (.release text)
      ({ s with subscriptions := s.subscriptions.erase r.subscription },
        s.reply (h.detach u.output u.input).1 r true text)

structure Like (s : Session) (h : Hub) (s' : Session) (h' : Hub) (sub : Int32) : Prop where
  limit : s'.limit = s.limit
  name : (s'.subscriptions.find? sub).map (·.name) = (s.subscriptions.find? sub).map (·.name)
  outputs : h'.unplugged = h.unplugged

theorem Like.refl (s : Session) (h : Hub) (sub : Int32) : s.Like h s h sub := ⟨rfl, rfl, rfl⟩

/-- Both have the subscription, of one output, or neither has. -/
theorem Like.find?_cases (hlike : s.Like h s' h' sub) :
    s.subscriptions.find? sub = none ∧ s'.subscriptions.find? sub = none ∨
      ∃ u u', s.subscriptions.find? sub = some u ∧ s'.subscriptions.find? sub = some u' ∧
        u'.name = u.name := by
  cases hu : s.subscriptions.find? sub with
  | none => exact .inl ⟨rfl, Option.map_eq_none_iff.mp (hlike.name.trans (by rw [hu]; rfl))⟩
  | some u =>
      obtain ⟨u', hu', hname⟩ := Option.map_eq_some_iff.mp (hlike.name.trans (by rw [hu]; rfl))
      exact .inr ⟨u, u', rfl, hu', hname⟩

theorem Like.isSome_eq (hlike : s.Like h s' h' sub) :
    (s'.subscriptions.find? sub).isSome = (s.subscriptions.find? sub).isSome := by
  rw [← Option.isSome_map, hlike.name, Option.isSome_map]

theorem check_congr (hlike : s.Like h s' h' r.subscription) :
    s'.check registry h' r = s.check registry h r := by
  have hschema : ∀ out, (h'.display? out).bind (·.publisher.schema) =
      (h.display? out).bind (·.publisher.schema) := fun out => by
    rw [← Hub.schema_unplugged, hlike.outputs, Hub.schema_unplugged]
  have hcontains : s'.subscriptions.contains r.subscription =
      s.subscriptions.contains r.subscription := hlike.isSome_eq
  simp only [check, hlike.limit, hcontains, hschema]

theorem find?_of_check {x : Selection × OutputId × Sink} (h : s.check registry g r = .ok x) :
    s.subscriptions.find? r.subscription = none := by
  by_contra hne
  have hcontains : s.subscriptions.contains r.subscription = true :=
    Option.isSome_iff_ne_none.mpr hne
  rw [check] at h
  cases hselection : r.selection with
  | none =>
      rw [hselection] at h
      cases h
  | some selection =>
      simp only [hselection, hcontains, if_true] at h
      cases h

/-- Sessions that are alike do the same about a request. -/
theorem does_handle (hlike : s.Like h s' h' r.subscription) (hr : registry.OfTables h)
    (hr' : registry.OfTables h') :
    ∃ v, Does s h r v (s.handle registry h r) ∧ Does s' h' r v (s'.handle registry h' r) := by
  cases htype : r.type with
  | subscribe =>
      simp only [handle, htype, subscribe, check_congr hlike]
      cases hcheck : s.check registry h r with
      | error fault => exact ⟨_, .reply false _, .reply false _⟩
      | ok x =>
          obtain ⟨selection, output, sink⟩ := x
          obtain ⟨-, houtput, rfl⟩ := check_ok hcheck
          -- the registry leads both sessions to one table
          obtain ⟨k, rfl, hlt⟩ := hr _ _ houtput
          obtain ⟨k', hk, hlt'⟩ := hr' _ _ houtput
          cases hk
          exact ⟨_, .grant (find?_of_check hcheck) (List.getElem?_eq_getElem hlt) rfl,
            .grant (find?_of_check ((check_congr hlike).trans hcheck))
              (List.getElem?_eq_getElem hlt') rfl⟩
  | modify =>
      simp only [handle, htype, modify]
      rcases hlike.find?_cases with ⟨hu, hu'⟩ | ⟨u, u', hu, hu', hname⟩
      · rw [hu, hu']
        exact ⟨_, .reply false _, .reply false _⟩
      · simp only [hu, hu', hname]
        cases (r.selection.map (·.modifications)).getD [] with
        | nil => exact ⟨_, .reply false _, .reply false _⟩
        | cons m ms => exact ⟨_, .reply _ _, .reply _ _⟩
  | unsubscribe =>
      simp only [handle, htype, unsubscribe]
      rcases hlike.find?_cases with ⟨hu, hu'⟩ | ⟨u, u', hu, hu', hname⟩
      · rw [hu, hu']
        exact ⟨_, .reply false _, .reply false _⟩
      · simp only [hu, hu', hname]
        exact ⟨_, .release hu, .release hu'⟩
  | unknown code =>
      simp only [handle, htype]
      exact ⟨_, .reply false _, .reply false _⟩

namespace Does

variable {v : Verdict} {x x' : Session × Hub}

/-- Only the subscription that the request is for may have changed. -/
theorem find?_of_ne (hd : s.Does h r v x) : x.1.outlet = s.outlet ∧ x.1.limit = s.limit ∧
    ∀ id, r.subscription ≠ id → x.1.subscriptions.find? id = s.subscriptions.find? id := by
  cases hd with
  | reply => exact ⟨rfl, rfl, fun _ _ => rfl⟩
  | grant =>
      refine ⟨rfl, rfl, fun id hid => ?_⟩
      rw [AscMap.find?_insert, if_neg hid]
  | release =>
      refine ⟨rfl, rfl, fun id hid => ?_⟩
      rw [AscMap.find?_erase, if_neg hid]

theorem seat_of_ne (hd : s.Does h r v x) (hsub : r.subscription ≠ sub) :
    x.1.seat sub = s.seat sub := by
  rw [Session.seat, Session.seat, hd.find?_of_ne.2.2 sub hsub]

theorem keeps_hub (hd : s.Does h r v x) (hs : s.Holds h) : h.Keeps x.2 := by
  cases hd with
  | reply => exact h.keeps_emit _ _
  | @grant name k t e text new table subscription =>
      have htold : (s.reply h r true text).tables[k]? = some t := table
      exact (h.keeps_emit _ _).trans (Hub.keeps_engaged htold _ _)
  | @release u text there =>
      obtain ⟨⟨k, t, hk, ht⟩, -⟩ := hs _ u there
      rw [hk]
      exact (Hub.keeps_detach ht u.input).trans (Hub.keeps_emit _ _ _)

theorem holds (hd : s.Does h r v x) (hs : s.Holds h) : x.1.Holds x.2 := by
  have hkept := hs.of_keeps (hd.keeps_hub hs)
  cases hd with
  | reply => exact hkept
  | @grant name k t e text new table subscription =>
      have htold : (s.reply h r true text).tables[k]? = some t := table
      intro id u hu
      rw [AscMap.find?_insert] at hu
      split at hu
      next hid =>
        cases hu
        have hengaged := Hub.reaches_engaged htold s.outlet e
        rw [subscription, hid] at hengaged
        obtain ⟨t', ht'⟩ := (Hub.keeps_engaged htold s.outlet e).table htold
        exact ⟨⟨k, t', rfl, ht'⟩, hengaged⟩
      next => exact hkept id u hu
  | release there =>
      intro id u hu
      rw [AscMap.find?_erase] at hu
      split at hu
      · cases hu
      · exact hkept id u hu

/-- A request for another subscription. -/
theorem quiet_of_other (hd : s.Does h r v x) (hs : s.Holds h) (hh : h.Seats o sub seat)
    (hother : ¬(s.outlet = o ∧ r.subscription = sub)) : Hub.Quiet o sub h seat x.2 seat := by
  cases hd with
  | reply => exact hh.quiet_emit hother
  | @grant name k t e text new table subscription =>
      have hreply : Hub.Quiet o sub h seat (s.reply h r true text) seat := hh.quiet_emit hother
      exact hreply.trans (hreply.seats.quiet_engage table (subscription ▸ hother))
  | release there =>
      have hleft := hs.quiet_detach hh there
      -- the input that is let go is another one than that of the seat
      rw [Hub.unseat_of_ne (hs.ne_seat hh there hother)] at hleft
      exact hleft.trans (hleft.seats.quiet_emit hother)

/-- A request for the subscription itself. -/
theorem seats_addressed (hd : s.Does h r v x) (hs : s.Holds h) (hh : h.Seats s.outlet r.subscription
    (s.seat r.subscription)) : x.2.Seats s.outlet r.subscription (x.1.seat r.subscription) := by
  cases hd with
  | reply => exact hh.emit _ _
  | @grant name k t e text new table subscription =>
      have htold : (s.reply h r true text).tables[k]? = some t := table
      have hnone : s.seat r.subscription = none := by
        rw [Session.seat, new]
        rfl
      rw [seat_insert]
      rw [hnone] at hh
      exact ((hh.emit _ _).engaged htold subscription rfl).1
  | release there =>
      rw [seat_erase]
      exact (hs.quiet_release hh there).seats.emit _ _

/-- What there is to see after the same verdict on a request for the subscription. -/
theorem congr (hd : s.Does h r v x) (hd' : s'.Does h' r v x') (hs : s.Holds h) (hs' : s'.Holds h')
    (hh : h.Seats s.outlet r.subscription (s.seat r.subscription))
    (hh' : h'.Seats s.outlet r.subscription (s'.seat r.subscription)) (ho : s'.outlet = s.outlet)
    (heq : h'.aspect s.outlet r.subscription (s'.seat r.subscription) =
      h.aspect s.outlet r.subscription (s.seat r.subscription)) :
    x'.2.aspect s.outlet r.subscription (x'.1.seat r.subscription) =
      x.2.aspect s.outlet r.subscription (x.1.seat r.subscription) := by
  cases hd with
  | reply success text =>
      cases hd'
      rw [Session.reply, Session.reply, ho]
      exact Hub.aspect_emit_congr hh hh' heq _ _
  | @grant name k t e text new table subscription =>
      cases hd' with
      | @grant _ _ t' _ _ new' table' _ =>
          have hnone : s.seat r.subscription = none := by rw [Session.seat, new]; rfl
          have hnone' : s'.seat r.subscription = none := by rw [Session.seat, new']; rfl
          have htold : (s.reply h r true text).tables[k]? = some t := table
          rw [hnone] at hh heq
          rw [hnone'] at hh' heq
          rw [seat_insert, seat_insert, Session.reply, Session.reply, ho]
          exact Hub.aspect_engage_congr (hh.emit _ _) (hh'.emit _ _)
            (Hub.aspect_emit_congr hh hh' heq _ _) htold subscription
  | release there =>
      cases hd' with
      | release there' =>
          have hleft := hs.quiet_release hh there
          have hleft' := hs'.quiet_release hh' there'
          have heq' := hleft'.aspect_none
          rw [heq, ← hleft.aspect_none] at heq'
          rw [seat_erase, seat_erase, Session.reply, Session.reply, ho]
          exact Hub.aspect_emit_congr hleft.seats hleft'.seats heq' _ _

theorem name_congr (hd : s.Does h r v x) (hd' : s'.Does h' r v x')
    (hname : (s'.subscriptions.find? r.subscription).map (·.name) =
      (s.subscriptions.find? r.subscription).map (·.name)) :
    (x'.1.subscriptions.find? r.subscription).map (·.name) =
      (x.1.subscriptions.find? r.subscription).map (·.name) := by
  cases hd with
  | reply =>
      cases hd'
      exact hname
  | grant =>
      cases hd'
      rw [AscMap.find?_insert, AscMap.find?_insert, if_pos rfl, if_pos rfl]
      rfl
  | release =>
      cases hd'
      rw [AscMap.find?_erase, AscMap.find?_erase, if_pos rfl, if_pos rfl]

end Does

/-! ### Closing -/

def unseatAll (seat : Option (OutputId × InputId)) (us : List Subscription) :
    Option (OutputId × InputId) :=
  us.foldl (fun seat u => Hub.unseat seat (u.output, u.input)) seat

theorem unseatAll_none (us : List Subscription) : unseatAll none us = none := by
  induction us with
  | nil => rfl
  | cons u us ih => exact ih

theorem unseatAll_of_ne {us : List Subscription}
    (hne : ∀ u ∈ us, seat ≠ some (u.output, u.input)) : unseatAll seat us = seat := by
  induction us with
  | nil => rfl
  | cons u us ih =>
      rw [unseatAll, List.foldl_cons, Hub.unseat_of_ne (hne u List.mem_cons_self)]
      exact ih fun u' hu' => hne u' (List.mem_cons_of_mem u hu')

theorem unseatAll_of_mem {us : List Subscription} (hu : u ∈ us) :
    unseatAll (some (u.output, u.input)) us = none := by
  induction us with
  | nil => cases hu
  | cons u' us ih =>
      rw [unseatAll, List.foldl_cons, Hub.unseat]
      split
      · exact unseatAll_none us
      · next hne =>
        refine ih ((List.mem_cons.mp hu).resolve_left fun heq => hne ?_)
        rw [heq]

theorem quiet_detachAll {us : List Subscription}
    (hus : ∀ u ∈ us, ∃ k t, u.output = .table k ∧ h.tables[k]? = some t)
    (hh : h.Seats o sub seat) :
    Hub.Quiet o sub h seat (us.foldl (fun h u => (h.detach u.output u.input).1) h)
      (unseatAll seat us) := by
  induction us generalizing h seat with
  | nil => exact .refl hh
  | cons u us ih =>
      obtain ⟨k, t, hk, ht⟩ := hus u List.mem_cons_self
      have hfirst := hh.quiet_detach ht u.input
      rw [← hk] at hfirst
      refine hfirst.trans (ih (fun u' hu' => ?_) hfirst.seats)
      obtain ⟨k', t', hk', ht'⟩ := hus u' (List.mem_cons_of_mem u hu')
      obtain ⟨t'', ht''⟩ := hfirst.keeps.table ht'
      exact ⟨k', t'', hk', ht''⟩

theorem find?_of_mem_values (hu : u ∈ s.subscriptions.values) :
    ∃ id, s.subscriptions.find? id = some u := by
  obtain ⟨⟨id, u'⟩, hmem, rfl⟩ := List.mem_map.mp hu
  exact ⟨id, AscMap.find?_eq_some_iff.mpr hmem⟩

theorem Holds.quiet_close (hs : s.Holds h) (hh : h.Seats o sub seat) :
    Hub.Quiet o sub h seat (s.close h).2 (unseatAll seat s.subscriptions.values) := by
  refine quiet_detachAll (fun u hu => ?_) hh
  obtain ⟨id, hid⟩ := find?_of_mem_values hu
  exact (hs id u hid).1

/-- A session that sends elsewhere is closed. -/
theorem Holds.quiet_close_other (hs : s.Holds h) (hh : h.Seats o sub seat) (ho : s.outlet ≠ o) :
    Hub.Quiet o sub h seat (s.close h).2 seat := by
  have hclosed := hs.quiet_close hh
  rwa [unseatAll_of_ne fun u hu => ?_] at hclosed
  obtain ⟨id, hid⟩ := find?_of_mem_values hu
  exact hs.ne_seat hh hid fun hsame => ho hsame.1

/-- The session of the subscription itself is closed. -/
theorem Holds.quiet_close_own (hs : s.Holds h) (hh : h.Seats o sub (s.seat sub)) :
    Hub.Quiet o sub h (s.seat sub) (s.close h).2 none := by
  have hclosed := hs.quiet_close hh
  have hnone : unseatAll (s.seat sub) s.subscriptions.values = none := by
    cases hu : s.subscriptions.find? sub with
    | none =>
        rw [Session.seat, hu]
        exact unseatAll_none _
    | some u =>
        rw [seat_of_find? hu]
        exact unseatAll_of_mem (AscMap.mem_values hu)
  rwa [hnone] at hclosed

end Session

end TableFeed
