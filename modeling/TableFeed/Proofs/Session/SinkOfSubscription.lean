import Mathlib
import TableFeed.Proofs.Hub.Attachments
/-!
The seat of a subscription: the output that its sink is attached to, and the sink. Whatever happens
to other inputs leaves alone what there is to see from a seat; and what happens at a seat goes by
what there is to see from it.
-/

namespace TableFeed.Hub

def Reaches (h : Hub) (o : OutletId) (sub : Int32) (i : InputId) : Prop :=
  ∃ x, h.inputs[i]? = some x ∧ x.Addresses o sub

variable {h g l : Hub} {o : OutletId} {sub : Int32} {i : InputId} {k : Nat} {t : AnyTable}
  {e : Encoder}

theorem Reaches.sink (hr : h.Reaches o sub i) :
    ∃ s, h.inputs[i]? = some (.sink s) ∧ s.outlet = o ∧ s.sink.subscription = sub := by
  obtain ⟨x, hx, hadr⟩ := hr
  cases x with
  | recorder r => exact hadr.elim
  | sink s => exact ⟨s, hx, hadr⟩

/-- A sink serves one subscription. -/
theorem Reaches.unique (hr : h.Reaches o sub i) {o' : OutletId} {sub' : Int32}
    (hr' : h.Reaches o' sub' i) : o' = o ∧ sub' = sub := by
  obtain ⟨s, hs, ho, hsub⟩ := hr.sink
  obtain ⟨s', hs', ho', hsub'⟩ := hr'.sink
  cases hs.symm.trans hs'
  exact ⟨ho'.symm.trans ho, hsub'.symm.trans hsub⟩

theorem Reaches.lt (hr : h.Reaches o sub i) : i < h.inputs.length := by
  obtain ⟨x, hx, -⟩ := hr
  exact (List.getElem?_eq_some_iff.mp hx).1

structure Keeps (h g : Hub) : Prop where
  tables : g.tables.length = h.tables.length
  reaches : ∀ o sub i, h.Reaches o sub i → g.Reaches o sub i

namespace Keeps

theorem of_sameInputs (hg : h.SameInputs g) (htables : g.tables.length = h.tables.length) :
    h.Keeps g :=
  ⟨htables, fun _ _ i => (hg.addresses_iff i).mpr⟩

theorem table (hg : h.Keeps g) (ht : h.tables[k]? = some t) : ∃ t', g.tables[k]? = some t' := by
  refine ⟨_, List.getElem?_eq_getElem ?_⟩
  rw [hg.tables]
  exact (List.getElem?_eq_some_iff.mp ht).1

theorem refl (h : Hub) : h.Keeps h := ⟨rfl, fun _ _ _ => id⟩

theorem trans (hg : h.Keeps g) (hl : g.Keeps l) : h.Keeps l :=
  ⟨hl.tables.trans hg.tables, fun o sub i hr => hl.reaches o sub i (hg.reaches o sub i hr)⟩

theorem addInput (h : Hub) (x : Input) : h.Keeps (h.addInput x).1 := by
  refine ⟨rfl, fun o sub i hr => ?_⟩
  obtain ⟨y, hy, hadr⟩ := hr
  exact ⟨y, (List.getElem?_append_left (List.getElem?_eq_some_iff.mp hy).1).trans hy, hadr⟩

end Keeps

/-! ### Seats -/

/-- Of all that is attached to the tables of a hub, a subscription has the sink in its seat, and no
other. -/
structure Seats (h : Hub) (o : OutletId) (sub : Int32) (seat : Option (OutputId × InputId)) :
    Prop where
  isOpen : h.IsOpen o
  nodup : ∀ k, (h.attached (.table k)).Nodup
  known : ∀ k, ∀ i ∈ h.attached (.table k), i < h.inputs.length
  only : ∀ k, ∀ i ∈ h.attached (.table k), h.Reaches o sub i → seat = some (.table k, i)
  seated : ∀ out i, seat = some (out, i) →
    h.Reaches o sub i ∧ ∃ k, out = .table k ∧ i ∈ h.attached (.table k)

variable {seat seat' : Option (OutputId × InputId)}

def Wired (h : Hub) : Prop :=
  ∀ (k : Nat) (t : AnyTable), h.tables[k]? = some t → t.table.publisher.inputs.Nodup ∧
    ∀ i ∈ t.table.publisher.inputs, i < h.inputs.length

/-- A subscription without sinks has no seat. -/
theorem Wired.seats_of_vacant (hwired : h.Wired) (hopen : h.IsOpen o) (hvacant : h.Vacant o sub) :
    h.Seats o sub none := by
  have hattached : ∀ k, (h.attached (.table k)).Nodup ∧
      ∀ i ∈ h.attached (.table k), i < h.inputs.length := by
    intro k
    rcases ht : h.tables[k]? with _ | t
    · rw [attached_table, ht]
      exact ⟨List.nodup_nil, fun i hi => by cases hi⟩
    · rw [attached_of_table ht]
      exact hwired k t ht
  exact ⟨hopen, fun k => (hattached k).1, fun k => (hattached k).2,
    fun _ i _ hr => absurd hr (hvacant i), nofun⟩

/-- Nothing has changed but the state of the inputs. -/
theorem Seats.of_sameInputs (hh : h.Seats o sub seat) (hg : h.SameInputs g) (hopen : g.IsOpen o)
    (hattached : ∀ k, g.attached (.table k) = h.attached (.table k)) : g.Seats o sub seat := by
  refine ⟨hopen, fun k => hattached k ▸ hh.nodup k, fun k i hi => ?_, fun k i hi hr => ?_,
    fun out i hseat => ?_⟩
  · rw [hg.length_eq]
    exact hh.known k i (hattached k ▸ hi)
  · exact hh.only k i (hattached k ▸ hi) ((hg.addresses_iff i).mp hr)
  · obtain ⟨hr, k, hout, hi⟩ := hh.seated out i hseat
    exact ⟨(hg.addresses_iff i).mpr hr, k, hout, (hattached k).symm ▸ hi⟩

/-- A new input is not attached to anything yet. -/
theorem Seats.addInput (hh : h.Seats o sub seat) (x : Input) :
    (h.addInput x).1.Seats o sub seat := by
  have hattached : ∀ k, (h.addInput x).1.attached (.table k) = h.attached (.table k) := fun _ => rfl
  refine ⟨hh.isOpen, hh.nodup, fun k i hi => ?_, fun k i hi hr => ?_, fun out i hseat => ?_⟩
  · rw [Hub.addInput, List.length_append]
    exact Nat.lt_add_right 1 (hh.known k i hi)
  · obtain ⟨y, hy, hadr⟩ := hr
    rcases input_addInput hy with hy | ⟨hlast, -⟩
    · exact hh.only k i hi ⟨y, hy, hadr⟩
    · exact absurd hlast (Nat.ne_of_lt (hh.known k i hi))
  · obtain ⟨hr, hk⟩ := hh.seated out i hseat
    exact ⟨(Keeps.addInput h x).reaches o sub i hr, hk⟩

theorem sink_congr (hinput : ∀ out i, seat = some (out, i) → g.inputs[i]? = h.inputs[i]?) :
    seat.map (fun x => (x.1, g.inputs[x.2]?)) = seat.map fun x => (x.1, h.inputs[x.2]?) :=
  Option.map_congr fun x hx => congrArg (Prod.mk x.1) (hinput x.1 x.2 hx)

structure Aspect where
  outputs : Hub
  sent : List Response
  sink : Option (OutputId × Option Input)

def aspect (h : Hub) (o : OutletId) (sub : Int32) (seat : Option (OutputId × InputId)) : Aspect :=
  { outputs := h.unplugged
    sent := h.sentFor o sub
    sink := seat.map fun x => (x.1, h.inputs[x.2]?) }

/-- The seat of another hub, from which there is the same to see. -/
theorem seat_of_aspect (heq : g.aspect o sub seat' = h.aspect o sub seat) {out : OutputId}
    (hseat : seat = some (out, i)) :
    ∃ i', seat' = some (out, i') ∧ g.inputs[i']? = h.inputs[i]? := by
  have hsink : seat'.map (fun x => (x.1, g.inputs[x.2]?)) = some (out, h.inputs[i]?) := by
    have heq' := congrArg Aspect.sink heq
    rw [hseat] at heq'
    exact heq'
  obtain ⟨⟨out', i'⟩, hseat', hpair⟩ := Option.map_eq_some_iff.mp hsink
  obtain ⟨hout, hinput⟩ := Prod.mk.inj hpair
  exact ⟨i', hseat'.trans (congrArg (fun out => some (out, i')) hout), hinput⟩

/-- From one hub to the next nothing is sent for a subscription and nothing is told to its sink,
unless it leaves its seat. -/
structure Quiet (o : OutletId) (sub : Int32) (h : Hub) (seat : Option (OutputId × InputId)) (g : Hub)
    (seat' : Option (OutputId × InputId)) : Prop where
  seats : g.Seats o sub seat'
  outputs : g.unplugged = h.unplugged
  sent : g.sentFor o sub = h.sentFor o sub
  input : ∀ out i, seat' = some (out, i) → seat = some (out, i) ∧ g.inputs[i]? = h.inputs[i]?
  keeps : h.Keeps g

namespace Quiet

variable {seat'' : Option (OutputId × InputId)}

theorem refl (hh : h.Seats o sub seat) : Quiet o sub h seat h seat :=
  ⟨hh, rfl, rfl, fun _ _ hseat => ⟨hseat, rfl⟩, .refl h⟩

theorem trans (hg : Quiet o sub h seat g seat') (hl : Quiet o sub g seat' l seat'') :
    Quiet o sub h seat l seat'' := by
  refine ⟨hl.seats, hl.outputs.trans hg.outputs, hl.sent.trans hg.sent, fun out i hseat => ?_,
    hg.keeps.trans hl.keeps⟩
  obtain ⟨hseat', hinput'⟩ := hl.input out i hseat
  obtain ⟨hseat'', hinput⟩ := hg.input out i hseat'
  exact ⟨hseat'', hinput'.trans hinput⟩

theorem aspect_eq (hg : Quiet o sub h seat g seat) : g.aspect o sub seat = h.aspect o sub seat := by
  rw [aspect, aspect, hg.outputs, hg.sent, sink_congr fun out i hseat => (hg.input out i hseat).2]

theorem aspect_none (hg : Quiet o sub h seat g none) :
    g.aspect o sub none = { h.aspect o sub seat with sink := none } := by
  rw [aspect, aspect, hg.outputs, hg.sent]
  rfl

end Quiet

/-! ### Sending -/

theorem Seats.emit (hh : h.Seats o sub seat) (out : OutletId) (r : Response) :
    (h.emit out r).Seats o sub seat :=
  hh.of_sameInputs ⟨(SameInputs.refl h).input⟩ (isOpen_emit hh.isOpen out r) fun _ => rfl

theorem keeps_emit (h : Hub) (out : OutletId) (r : Response) : h.Keeps (h.emit out r) :=
  .of_sameInputs ⟨(SameInputs.refl h).input⟩ rfl

theorem sentFor_emit (hopen : h.IsOpen o) (out : OutletId) (r : Response) :
    (h.emit out r).sentFor o sub =
      if out = o ∧ r.subscription = sub then h.sentFor o sub ++ [r] else h.sentFor o sub := by
  rw [sentFor, sentTo_emit hopen]
  by_cases ho : out = o
  · by_cases hsub : r.subscription = sub
    · simp [ho, hsub, sentFor]
    · simp [ho, hsub, sentFor]
  · simp [ho, sentFor]

theorem Seats.quiet_emit (hh : h.Seats o sub seat) {out : OutletId} {r : Response}
    (hother : ¬(out = o ∧ r.subscription = sub)) : Quiet o sub h seat (h.emit out r) seat :=
  ⟨hh.emit out r, h.unplugged_emit out r, by rw [sentFor_emit hh.isOpen, if_neg hother],
    fun _ _ hseat => ⟨hseat, rfl⟩, keeps_emit h out r⟩

theorem aspect_emit_congr (hh : h.Seats o sub seat) (hg : g.Seats o sub seat')
    (heq : g.aspect o sub seat' = h.aspect o sub seat) (out : OutletId) (r : Response) :
    (g.emit out r).aspect o sub seat' = (h.emit out r).aspect o sub seat := by
  obtain ⟨houtputs, hsent, hsink⟩ := Aspect.mk.inj heq
  have hsent' : (g.emit out r).sentFor o sub = (h.emit out r).sentFor o sub := by
    rw [sentFor_emit hg.isOpen, sentFor_emit hh.isOpen, hsent]
  exact Aspect.mk.injEq .. ▸ ⟨houtputs, hsent', hsink⟩

/-- Another outlet is closed. -/
theorem Seats.quiet_closeOutlet (hh : h.Seats o sub seat) {out : OutletId} (hne : out ≠ o) :
    Quiet o sub h seat (h.closeOutlet out) seat := by
  have houtlet : (h.closeOutlet out).outlets[o]? = h.outlets[o]? := List.getElem?_modify_ne _ _ hne
  have hsame : h.SameInputs (h.closeOutlet out) := ⟨(SameInputs.refl h).input⟩
  obtain ⟨outlet, hat, hclosed⟩ := hh.isOpen
  refine ⟨hh.of_sameInputs hsame ⟨outlet, houtlet.trans hat, hclosed⟩ fun _ => rfl, rfl, ?_,
    fun _ _ hseat => ⟨hseat, rfl⟩, .of_sameInputs hsame rfl⟩
  rw [sentFor, sentFor, sentTo, sentTo, houtlet]

/-! ### Attaching -/

/-- An input is attached. The seat is the same as before, or it is the one of this input now. -/
theorem Seats.attach (hh : h.Seats o sub seat) (ht : h.tables[k]? = some t)
    (hi : i < h.inputs.length) (hreach : h.Reaches o sub i → seat' = some (.table k, i))
    (hold : ∀ x, seat = some x → seat' = some x)
    (hnew : ∀ x, seat' = some x → seat = some x ∨ x = (.table k, i) ∧ h.Reaches o sub i) :
    (h.attach (.table k) i).Seats o sub seat' := by
  have hsame := Stage.sameInputs_attach ht i
  have hjoined := attached_joined (o := .table k) (by rw [display?_table ht]; rfl) i
  have hmem : ∀ {j i'}, i' ∈ (h.attach (.table k) i).attached (.table j) ↔
      i' ∈ h.attached (.table j) ∨ k = j ∧ i' = i := by
    intro j i'
    rw [(hjoined (.table j)).1, OutputId.table.injEq]
  refine ⟨Stage.isOpen_attach hh.isOpen ht i, fun j => (hjoined (.table j)).2 (hh.nodup j),
    fun j i' hi' => ?_, fun j i' hi' hr => ?_, fun out i' hseat => ?_⟩
  · rw [hsame.length_eq]
    rcases hmem.mp hi' with hi' | ⟨-, rfl⟩
    · exact hh.known j i' hi'
    · exact hi
  · have hr' : h.Reaches o sub i' := (hsame.addresses_iff i').mp hr
    rcases hmem.mp hi' with hi' | ⟨rfl, rfl⟩
    · exact hold _ (hh.only j i' hi' hr')
    · exact hreach hr'
  · rcases hnew _ hseat with hseat | ⟨heq, hr⟩
    · obtain ⟨hr, j, hout, hi'⟩ := hh.seated out i' hseat
      exact ⟨(hsame.addresses_iff i').mpr hr, j, hout, hmem.mpr (.inl hi')⟩
    · cases heq
      exact ⟨(hsame.addresses_iff i).mpr hr, k, rfl, hmem.mpr (.inr ⟨rfl, rfl⟩)⟩

theorem keeps_attach (ht : h.tables[k]? = some t) (i : InputId) :
    h.Keeps (h.attach (.table k) i) :=
  .of_sameInputs (Stage.sameInputs_attach ht i) (Steady.attach ht i).tables

/-- An input that serves another subscription is attached. -/
theorem Seats.quiet_attach (hh : h.Seats o sub seat) (ht : h.tables[k]? = some t)
    (hi : i < h.inputs.length) (hother : ¬h.Reaches o sub i) :
    Quiet o sub h seat (h.attach (.table k) i) seat := by
  refine ⟨hh.attach ht hi (fun hr => absurd hr hother) (fun _ => id) (fun _ => .inl),
    h.unplugged_attach k i, ?_, fun out j hseat => ⟨hseat, ?_⟩, keeps_attach ht i⟩
  · have hopen : (h.entered k i).IsOpen o := hh.isOpen
    rw [attach_eq ht]
    split
    · rfl
    · exact sentFor_tellAll_of_not_addresses hopen hother _
  · have hne : i ≠ j := fun heq => hother (heq ▸ (hh.seated out j hseat).1)
    rw [attach_eq ht]
    split
    · rfl
    · exact input_tellAll_of_ne (h.entered k i) _ hne _

/-! ### New sinks -/

theorem input_addInput_last (h : Hub) (x : Input) :
    (h.addInput x).1.inputs[h.inputs.length]? = some x := List.getElem?_concat_length

theorem length_addInput (h : Hub) (x : Input) :
    h.inputs.length < (h.addInput x).1.inputs.length := by
  simp [Hub.addInput]

theorem keeps_engaged (ht : h.tables[k]? = some t) (out : OutletId) (e : Encoder) :
    h.Keeps (h.engaged out k e) := by
  have hadded : (h.addInput (.sink { sink := { encoder := e }, outlet := out })).1.tables[k]? =
    some t := ht
  exact (Keeps.addInput h _).trans (keeps_attach hadded _)

/-- The new sink is for its subscription. -/
theorem reaches_engaged (ht : h.tables[k]? = some t) (out : OutletId) (e : Encoder) :
    (h.engaged out k e).Reaches out e.subscription h.inputs.length := by
  have hadded : (h.addInput (.sink { sink := { encoder := e }, outlet := out })).1.tables[k]? =
    some t := ht
  exact (keeps_attach hadded _).reaches _ _ _ ⟨_, input_addInput_last h _, rfl, rfl⟩

/-- A sink for another subscription is taken in and attached. -/
theorem Seats.quiet_engage (hh : h.Seats o sub seat) (ht : h.tables[k]? = some t) {out : OutletId}
    (hother : ¬(out = o ∧ e.subscription = sub)) :
    Quiet o sub h seat (h.engaged out k e) seat := by
  obtain ⟨x, hx⟩ : ∃ x : Input, x = .sink { sink := { encoder := e }, outlet := out } := ⟨_, rfl⟩
  have hgt : (h.addInput x).1.tables[k]? = some t := ht
  have hseats := hh.addInput x
  have hadded : Quiet o sub h seat (h.addInput x).1 seat :=
    ⟨hseats, h.unplugged_addInput x, rfl, fun out i hseat => ⟨hseat,
      List.getElem?_append_left (hh.seated out i hseat).1.lt⟩, .addInput h x⟩
  rw [engaged, ← hx]
  refine hadded.trans (hseats.quiet_attach hgt (length_addInput h x) ?_)
  rintro ⟨y, hy, hadr⟩
  cases (input_addInput_last h x).symm.trans hy
  rw [hx] at hadr
  exact hother hadr

/-- A sink for the subscription itself, which had none: it is told what the table shows. -/
theorem Seats.engaged (hh : h.Seats o sub none) (ht : h.tables[k]? = some t)
    (he : e.subscription = sub) {s : SinkInput} (hs : s = { sink := { encoder := e }, outlet := o }) :
    (h.engaged o k e).Seats o sub (some (.table k, h.inputs.length)) ∧
      (h.engaged o k e).unplugged = h.unplugged ∧
      (h.engaged o k e).sentFor o sub = h.sentFor o sub ++
        (s.answerAll h (.output (.table k)) t.table.publisher.replay).2 ∧
      (h.engaged o k e).inputs[h.inputs.length]? =
        some (.sink (s.answerAll h (.output (.table k)) t.table.publisher.replay).1) := by
  obtain ⟨g, hg⟩ : ∃ g, g = (h.addInput (.sink s)).1 := ⟨_, rfl⟩
  have hgt : g.tables[k]? = some t := hg ▸ ht
  have hlast : g.inputs[h.inputs.length]? = some (.sink s) := hg ▸ input_addInput_last h _
  have hseats : g.Seats o sub none := hg ▸ hh.addInput _
  have hlt : h.inputs.length < g.inputs.length := hg ▸ length_addInput h _
  have ho : s.outlet = o := by rw [hs]
  have hsub : s.sink.subscription = sub := by rw [hs, ← he]; rfl
  -- no table knows the new input yet, so it is told all that is shown
  have hout : h.inputs.length ∉ t.table.publisher.inputs := by
    intro hi
    rw [← attached_of_table ht] at hi
    exact Nat.lt_irrefl _ (hh.known k _ hi)
  have hunplugged : (g.entered k h.inputs.length).unplugged = h.unplugged := by
    refine (g.unplugged_mapPublisher k fun p => ?_).trans (hg ▸ h.unplugged_addInput _)
    rw [Publisher.attach]
    split <;> rfl
  have hanswers := answerAll_congr hunplugged (.output (.table k)) t.table.publisher.replay s
  have hopen : (g.entered k h.inputs.length).IsOpen o := hseats.isOpen
  have hlast' : (g.entered k h.inputs.length).inputs[h.inputs.length]? = some (.sink s) := hlast
  have hengaged : h.engaged o k e = (g.entered k h.inputs.length).tellAll (.output (.table k))
      h.inputs.length t.table.publisher.replay := by
    rw [Hub.engaged, ← hs, ← hg, attach_eq hgt, if_neg hout]
  refine ⟨?_, ?_, ?_, ?_⟩
  · rw [Hub.engaged, ← hs, ← hg]
    refine hseats.attach hgt hlt (fun _ => rfl) (fun _ hnone => by cases hnone) fun x hx => ?_
    exact .inr ⟨(Option.some.inj hx).symm, _, hlast, ho, hsub⟩
  · rw [hengaged]
    exact (sameOutputs_tellAll ..).unplugged.trans hunplugged
  · rw [hengaged, sentFor_tellAll hopen hlast' ho hsub, hanswers, hg]
    rfl
  · rw [hengaged, input_tellAll_sink hlast', hanswers]

/-- The table of another hub in the same place. -/
theorem table_of_unplugged (hg : g.unplugged = h.unplugged) (ht : h.tables[k]? = some t) :
    ∃ t', g.tables[k]? = some t' ∧ t'.unplugged = t.unplugged := by
  have htables := g.tables_unplugged k
  rw [hg, tables_unplugged, ht] at htables
  exact Option.map_eq_some_iff.mp htables.symm

theorem aspect_engage_congr (hh : h.Seats o sub none) (hg : g.Seats o sub none)
    (heq : g.aspect o sub none = h.aspect o sub none) (ht : h.tables[k]? = some t)
    (he : e.subscription = sub) :
    (g.engaged o k e).aspect o sub (some (.table k, g.inputs.length)) =
      (h.engaged o k e).aspect o sub (some (.table k, h.inputs.length)) := by
  obtain ⟨houtputs, hsent, -⟩ := Aspect.mk.inj heq
  obtain ⟨t', ht', htables⟩ := table_of_unplugged houtputs ht
  have hreplay : t'.table.publisher.replay = t.table.publisher.replay := by
    rw [← AnyTable.replay_unplugged, htables, AnyTable.replay_unplugged]
  obtain ⟨-, hunplugged, hsent₁, hinput₁⟩ := hh.engaged ht he rfl
  obtain ⟨-, hunplugged', hsent₂, hinput₂⟩ := hg.engaged ht' he rfl
  rw [hreplay, answerAll_congr houtputs] at hsent₂ hinput₂
  simp only [aspect, Option.map_some, hunplugged, hunplugged', houtputs, hsent₁, hsent₂, hsent,
    hinput₁, hinput₂]

/-! ### Detaching -/

theorem input_detach_of_ne {j : InputId} (h : Hub) (hne : i ≠ j) (k : Nat) :
    (h.detach (.table k) i).1.inputs[j]? = h.inputs[j]? := by
  rcases ht : h.tables[k]? with _ | t
  · simp [Hub.detach, attached_table, ht]
  · rw [detach_eq ht]
    split
    · exact input_tellAll_of_ne (h.left k i) _ hne _
    · rfl

theorem keeps_detach (ht : h.tables[k]? = some t) (i : InputId) :
    h.Keeps (h.detach (.table k) i).1 :=
  .of_sameInputs (Stage.sameInputs_detach ht i) (Steady.detach ht i).tables

def unseat (seat : Option (OutputId × InputId)) (x : OutputId × InputId) :
    Option (OutputId × InputId) :=
  if seat = some x then none else seat

theorem unseat_self (x : OutputId × InputId) : unseat (some x) x = none := if_pos rfl

theorem unseat_of_ne {x : OutputId × InputId} (hne : seat ≠ some x) : unseat seat x = seat :=
  if_neg hne

theorem unseat_eq_some_iff {x y : OutputId × InputId} :
    unseat seat x = some y ↔ seat = some y ∧ y ≠ x := by
  by_cases hseat : seat = some x
  · rw [hseat, unseat_self]
    exact ⟨nofun, fun ⟨hy, hne⟩ => absurd (Option.some.inj hy).symm hne⟩
  · rw [unseat_of_ne hseat]
    exact ⟨fun hy => ⟨hy, fun heq => hseat (heq ▸ hy)⟩, And.left⟩

theorem Seats.detach (hh : h.Seats o sub seat) (ht : h.tables[k]? = some t) (i : InputId) :
    (h.detach (.table k) i).1.Seats o sub (unseat seat (.table k, i)) := by
  have hsame := Stage.sameInputs_detach ht i
  have hleft := fun j => attached_left (o := .table k) (hh.nodup j) i
  have hmem : ∀ {j i'}, i' ∈ (h.detach (.table k) i).1.attached (.table j) ↔
      i' ∈ h.attached (.table j) ∧ ¬(k = j ∧ i' = i) := by
    intro j i'
    rw [(hleft j).1, OutputId.table.injEq]
  refine ⟨Stage.isOpen_detach hh.isOpen ht i, fun j => (hleft j).2, fun j i' hi' => ?_,
    fun j i' hi' hr => ?_, fun out i' hseat => ?_⟩
  · rw [hsame.length_eq]
    exact hh.known j i' (hmem.mp hi').1
  · obtain ⟨hi', hne⟩ := hmem.mp hi'
    have hseat := hh.only j i' hi' ((hsame.addresses_iff i').mp hr)
    refine unseat_eq_some_iff.mpr ⟨hseat, fun heq => hne ?_⟩
    cases heq
    exact ⟨rfl, rfl⟩
  · obtain ⟨hseat, hne⟩ := unseat_eq_some_iff.mp hseat
    obtain ⟨hr, j, rfl, hi'⟩ := hh.seated out i' hseat
    refine ⟨(hsame.addresses_iff i').mpr hr, j, rfl, hmem.mpr ⟨hi', fun heq => hne ?_⟩⟩
    rw [heq.1, heq.2]

/-- An input is detached. If it is the sink of the subscription, it leaves its seat. -/
theorem Seats.quiet_detach (hh : h.Seats o sub seat) (ht : h.tables[k]? = some t) (i : InputId) :
    Quiet o sub h seat (h.detach (.table k) i).1 (unseat seat (.table k, i)) := by
  refine ⟨hh.detach ht i, h.unplugged_detach k i, ?_, fun out i' hseat => ?_, keeps_detach ht i⟩
  · rw [sentFor, Stage.sentTo_detach hh.isOpen ht]
    rfl
  · obtain ⟨hseat, hne⟩ := unseat_eq_some_iff.mp hseat
    refine ⟨hseat, ?_⟩
    by_cases hi : i = i'
    · -- the sink in the seat is not attached to this table, so nothing is told to it
      subst hi
      have hnot : i ∉ t.table.publisher.inputs := by
        intro hi
        rw [← attached_of_table ht] at hi
        exact hne (Option.some.inj (hseat.symm.trans (hh.only k i hi (hh.seated out i hseat).1)))
      rw [detach_eq ht, if_neg hnot]
    · exact input_detach_of_ne h hi k

/-! ### Owner's operations -/

theorem Seats.act (hh : h.Seats o sub seat) (k : Nat) (a : Act) :
    (h.deed k (.act a)).Seats o sub seat :=
  hh.of_sameInputs ⟨(SameInputs.refl h).input⟩ hh.isOpen (attached_act h k a)

theorem keeps_act (h : Hub) (k : Nat) (a : Act) : h.Keeps (h.deed k (.act a)) :=
  .of_sameInputs ⟨(SameInputs.refl h).input⟩ (Steady.act h k a).tables

theorem aspect_act_congr (heq : g.aspect o sub seat' = h.aspect o sub seat) (k : Nat) (a : Act) :
    (g.deed k (.act a)).aspect o sub seat' = (h.deed k (.act a)).aspect o sub seat := by
  obtain ⟨houtputs, hsent, hsink⟩ := Aspect.mk.inj heq
  have houtputs' : (g.deed k (.act a)).unplugged = (h.deed k (.act a)).unplugged := by
    rw [unplugged_act, unplugged_act, houtputs]
  exact Aspect.mk.injEq .. ▸ ⟨houtputs', hsent, hsink⟩

/-! ### Passes -/

theorem Seats.fire (hh : h.Seats o sub seat) (k : Nat) : (h.fire k).Seats o sub seat :=
  hh.of_sameInputs (Stage.sameInputs_fire h k) (Stage.isOpen_fire hh.isOpen k) (attached_fire h k)

theorem keeps_fire (h : Hub) (k : Nat) : h.Keeps (h.fire k) :=
  .of_sameInputs (Stage.sameInputs_fire h k) (Steady.fire h k).tables

/-- A pass of the table that the sink is attached to. The sink answers as if it were alone. -/
theorem Seats.fire_here (hh : h.Seats o sub (some (.table k, i))) (ht : h.tables[k]? = some t)
    {s : SinkInput} (hs : h.inputs[i]? = some (.sink s)) :
    (h.fire k).sentFor o sub = h.sentFor o sub ++
        (s.answerAll (h.published k t) (.output (.table k)) t.table.publish.2).2 ∧
      (h.fire k).inputs[i]? = some
        (.sink (s.answerAll (h.published k t) (.output (.table k)) t.table.publish.2).1) := by
  obtain ⟨hr, j, hout, hi⟩ := hh.seated _ i rfl
  cases hout
  obtain ⟨s', hs', ho, hsub⟩ := hr.sink
  cases hs.symm.trans hs'
  rw [attached_of_table ht] at hi
  have hnodup : t.table.publisher.inputs.Nodup := attached_of_table ht ▸ hh.nodup k
  have hopen : (h.published k t).IsOpen o := hh.isOpen
  have hs'' : (h.published k t).inputs[i]? = some (.sink s) := hs
  -- whoever else hears the pass serves another subscription
  have hother : ∀ j ∈ t.table.publisher.inputs, j ≠ i → ¬h.Reaches o sub j := by
    intro j hj hne hrj
    rw [← attached_of_table ht] at hj
    cases hh.only k j hj hrj
    exact hne rfl
  refine ⟨?_, ?_⟩
  · rw [fire_eq ht]
    exact sentFor_tellEach hopen hs'' ho hsub hnodup hi hother _
  · rw [input_fire ht, input_tellEach_of_mem hnodup hi, input_tellAll_sink hs'']

/-- A pass of a table that the sink is not attached to. -/
theorem Seats.fire_elsewhere (hh : h.Seats o sub seat) (hk : ∀ i, seat ≠ some (.table k, i)) :
    (h.fire k).sentFor o sub = h.sentFor o sub ∧
      ∀ out i, seat = some (out, i) → (h.fire k).inputs[i]? = h.inputs[i]? := by
  rcases ht : h.tables[k]? with _ | t
  · rw [Hub.fire, ht]
    exact ⟨rfl, fun _ _ _ => rfl⟩
  · have hopen : (h.published k t).IsOpen o := hh.isOpen
    have hother : ∀ i ∈ t.table.publisher.inputs, ¬h.Reaches o sub i := by
      intro i hi hr
      rw [← attached_of_table ht] at hi
      exact hk i (hh.only k i hi hr)
    refine ⟨?_, fun out i hseat => ?_⟩
    · rw [fire_eq ht]
      exact sentFor_tellEach_of_not_addresses hopen hother _
    · have hi : i ∉ t.table.publisher.inputs := fun hi => hother i hi (hh.seated out i hseat).1
      rw [input_fire ht]
      exact input_tellEach_of_not_mem (h := h.published k t) hi _

theorem aspect_fire_congr (hh : h.Seats o sub seat) (hg : g.Seats o sub seat')
    (heq : g.aspect o sub seat' = h.aspect o sub seat) (k : Nat) :
    (g.fire k).aspect o sub seat' = (h.fire k).aspect o sub seat := by
  obtain ⟨houtputs, hsent, hsink⟩ := Aspect.mk.inj heq
  have houtputs' : (g.fire k).unplugged = (h.fire k).unplugged := by
    rw [unplugged_fire, unplugged_fire, houtputs]
  by_cases hk : ∃ i, seat = some (.table k, i)
  · -- both sinks are the same, hear the same notices and look things up in the same outputs
    obtain ⟨i, rfl⟩ := hk
    obtain ⟨i', rfl, hinput⟩ := seat_of_aspect heq rfl
    obtain ⟨hr, j, hout, hi⟩ := hh.seated _ i rfl
    cases hout
    obtain ⟨s, hs, -⟩ := hr.sink
    rcases ht : h.tables[k]? with _ | t
    · rw [attached_table, ht] at hi
      cases hi
    obtain ⟨t', ht', htables⟩ := table_of_unplugged houtputs ht
    have hnotices : t'.table.publish.2 = t.table.publish.2 := by
      rw [← AnyTable.publish_unplugged, htables, AnyTable.publish_unplugged]
    have hpublished : (g.published k t').unplugged = (h.published k t).unplugged := by
      rw [unplugged_published ht', unplugged_published ht, houtputs]
    obtain ⟨hsent₁, hinput₁⟩ := hh.fire_here ht hs
    obtain ⟨hsent₂, hinput₂⟩ := hg.fire_here ht' (hinput.trans hs)
    rw [hnotices, answerAll_congr hpublished] at hsent₂ hinput₂
    simp only [aspect, Option.map_some, houtputs', hsent₁, hsent₂, hsent, hinput₁, hinput₂]
  · have hk' : ¬∃ i, seat' = some (.table k, i) := by
      rintro ⟨i', hi'⟩
      obtain ⟨i, hi, -⟩ := seat_of_aspect heq.symm hi'
      exact hk ⟨i, hi⟩
    obtain ⟨hsent₁, hinput₁⟩ := hh.fire_elsewhere fun i hi => hk ⟨i, hi⟩
    obtain ⟨hsent₂, hinput₂⟩ := hg.fire_elsewhere fun i hi => hk' ⟨i, hi⟩
    rw [aspect, aspect, houtputs', hsent₁, hsent₂, hsent, sink_congr hinput₁, sink_congr hinput₂,
      hsink]

end TableFeed.Hub
