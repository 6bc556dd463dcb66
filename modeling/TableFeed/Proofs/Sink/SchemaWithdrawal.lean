import Mathlib
import TableFeed.Proofs.Sink.StreamGrammar
/-!
Withdrawing a schema. The sink of an output waits for the next schema then, and sends nothing: the
replica that is fed from it stays as it was when a schema was last shown. So while no schema is shown it
is out of service just if none has been shown before.
-/

namespace TableFeed

/-- What accepts everything is what comes of accepting it. -/
theorem Replica.eq_of_acceptAll {rs : List Response} {r r' : Replica}
    (h : r.acceptAll rs = some r') : r' = rs.foldl (fun r response => (r.accept response).1) r := by
  induction rs generalizing r with
  | nil => exact (Option.some.inj h).symm
  | cons response rs ih =>
      rw [acceptAll] at h
      split at h
      next haccept =>
        rw [List.foldl_cons, haccept]
        exact ih h
      · cases h

namespace Publisher

theorem ne_schema_of_mem_rowNotices {added changed removed : List RowId} {fields : FieldSet}
    {n : Notice} (h : n ∈ rowNotices added changed removed fields) (schema : Option Schema) :
    n ≠ .schema schema := by
  simp only [rowNotices, List.mem_append] at h
  rintro rfl
  rcases h with (h | h) | h
  all_goals
    split at h
    · cases h
    · cases List.mem_singleton.mp h

theorem replayRows_eq (p : Publisher) : p.replayRows = rowNotices p.rows.toList [] [] ∅ := by
  simp [replayRows, rowNotices, AscSet.isEmpty]

inductive Passes (p : Publisher) : Publisher → List Notice → Prop
  | rows {p' : Publisher} {ns : List Notice} (same : p'.schema = p.schema)
      (rows : ∀ n ∈ ns, ∀ schema, n ≠ .schema schema) : Passes p p' ns
  | withdrawn {p' : Publisher} (gone : p'.schema = none) : Passes p p' [.schema none]
  | shown {p' : Publisher} {schema : Schema} (there : p'.schema = some schema) :
      Passes p p' (.schema (some schema) :: rowNotices p'.rows.toList [] [] ∅)

theorem passes_publish (p : Publisher) (live : RowSet) (batch : Batch) :
    p.Passes (p.publish live batch).1 (p.publish live batch).2 := by
  rw [publish]
  split
  · cases hlatest : p.latest with
    | none => exact .withdrawn rfl
    | some schema => exact .shown rfl
  · exact .rows rfl fun _ => ne_schema_of_mem_rowNotices

end Publisher

/-! ### Sinks with and without a schema -/

namespace Sink

variable {s : Sink} {rows : Nat} {sheet : Sheet} {n : Notice} {ns : List Notice}

def Waiting (s : Sink) : Prop := s.phase = .awaitingSchema ∨ s.phase = .failed

def Serving (s : Sink) : Prop := s.phase = .live ∨ s.phase = .failed

theorem hear_of_waiting (h : s.Waiting) (hn : ∀ schema, n ≠ .schema schema) :
    s.hear rows sheet n = (s, []) := by
  obtain ⟨e, phase⟩ := s
  rcases h with hphase | hphase <;> cases hphase
  all_goals
    cases n with
    | schema schema => exact absurd rfl (hn schema)
    | source | added | changed | removed => rfl

theorem hearAll_of_waiting (h : s.Waiting) (hns : ∀ n ∈ ns, ∀ schema, n ≠ .schema schema) :
    s.hearAll rows sheet ns = (s, []) := by
  induction ns with
  | nil => rfl
  | cons n ns ih =>
      rw [List.forall_mem_cons] at hns
      rw [hearAll, hear_of_waiting h hns.1]
      dsimp only
      rw [ih hns.2]
      rfl

/-- A schema is withdrawn without a word. -/
theorem hear_withdrawn (s : Sink) (rows : Nat) (sheet : Sheet) :
    (s.hear rows sheet (.schema none)).1.Waiting ∧ (s.hear rows sheet (.schema none)).2 = [] := by
  obtain ⟨e, phase⟩ := s
  cases phase with
  | failed => exact ⟨.inr rfl, rfl⟩
  | awaitingSchema | awaitingInit | live => exact ⟨.inl rfl, rfl⟩

theorem serving_send {x : Except Error (List Response)} (h : s.phase = .live) :
    (s.send x).1.Serving := by
  cases x with
  | ok rs => exact .inl h
  | error e => exact .inr rfl

theorem serving_hear (h : s.Serving) (hn : ∀ schema, n ≠ .schema schema) :
    (s.hear rows sheet n).1.Serving := by
  obtain ⟨e, phase⟩ := s
  rcases h with hphase | hphase <;> cases hphase
  · cases n with
    | schema schema => exact absurd rfl (hn schema)
    | source => exact .inl rfl
    | added | changed | removed => exact serving_send rfl
  · rw [hear_of_failed rows sheet rfl]
    exact .inr rfl

theorem serving_hearAll (h : s.Serving) (hns : ∀ n ∈ ns, ∀ schema, n ≠ .schema schema) :
    (s.hearAll rows sheet ns).1.Serving := by
  induction ns generalizing s with
  | nil => exact h
  | cons n ns ih =>
      rw [List.forall_mem_cons] at hns
      exact ih (serving_hear h hns.1) hns.2

/-- A sink that is told a schema and all rows has sent the initial ones then: if there are none, it did
so right after the schema. -/
theorem serving_hearAll_schema (s : Sink) (schema : Schema) (live : RowSet) (sheet : Sheet) :
    (s.hearAll live.size sheet
      (.schema (some schema) :: Publisher.rowNotices live.toList [] [] ∅)).1.Serving := by
  have hrows : ∀ n ∈ Publisher.rowNotices live.toList [] [] ∅, ∀ schema, n ≠ .schema schema :=
    fun _ => Publisher.ne_schema_of_mem_rowNotices
  by_cases hfailed : s.phase = .failed
  · rw [hearAll_of_failed _ _ hfailed]
    exact .inr hfailed
  have hhear : s.hear live.size sheet (.schema (some schema)) =
      s.hearSchema live.size sheet schema := by
    obtain ⟨e, phase⟩ := s
    cases phase <;> first | rfl | exact absurd rfl hfailed
  rw [hearAll, hhear, hearSchema]
  dsimp only
  split
  · exact serving_hearAll (.inr rfl) hrows
  · split
    · exact serving_hearAll (serving_send rfl) hrows
    next hsome =>
      have hthere : live.toList.isEmpty = false := by
        rw [← Bool.not_eq_true, List.isEmpty_iff]
        exact fun hnone => hsome (congrArg List.length hnone)
      have hone : Publisher.rowNotices live.toList [] [] ∅ = [.added live.toList] := by
        simp [Publisher.rowNotices, hthere]
      rw [hone, hearAll_one]
      exact serving_send rfl

theorem hearAll_eq_takeAll (rows : Nat) (sheet : Sheet) (ns : List Notice) (s : Sink) :
    s.hearAll rows sheet ns = s.takeAll (ns.map fun n => ⟨rows, sheet, n⟩) := by
  induction ns generalizing s with
  | nil => rfl
  | cons n ns ih =>
      rw [hearAll, List.map_cons, takeAll]
      dsimp only
      rw [ih]
      rfl

end Sink

/-! ### An output with a replica fed from it -/

structure Feed where
  publisher : Publisher
  sink : Sink
  sent : List Response := []

namespace Feed

inductive Event
  /-- The owner of the output hands in a schema, or withdraws it, for the next pass. -/
  | update (schema : Option Schema)
  /-- A pass, with the rows that are live and the cells that are read. -/
  | fire (live : RowSet) (batch : Batch) (sheet : Sheet)

def tell (x : Feed) (sheet : Sheet) (ns : List Notice) : Feed :=
  { x with
    sink := (x.sink.hearAll x.publisher.rows.size sheet ns).1
    sent := x.sent ++ (x.sink.hearAll x.publisher.rows.size sheet ns).2 }

def opened (p : Publisher) (sub : Int32) (limit : Nat) (sheet : Sheet) : Feed :=
  tell { publisher := p, sink := .create sub none limit } sheet p.replay

def step (x : Feed) : Event → Feed
  | .update schema => { x with publisher := x.publisher.update schema }
  | .fire live batch sheet =>
    { x with publisher := (x.publisher.publish live batch).1 }.tell sheet
      (x.publisher.publish live batch).2

def run (x : Feed) (es : List Event) : Feed := es.foldl step x

def replica (x : Feed) : Replica :=
  x.sent.foldl (fun r response => (r.accept response).1) { subscription := x.sink.subscription }

def Accepted (x : Feed) : Prop :=
  (Replica.acceptAll x.sent { subscription := x.sink.subscription }).isSome

variable {x : Feed} {e : Event}

theorem run_append (x : Feed) (es fs : List Event) : x.run (es ++ fs) = (x.run es).run fs :=
  List.foldl_append

theorem run_concat (x : Feed) (es : List Event) (e : Event) :
    x.run (es ++ [e]) = (x.run es).step e := List.foldl_concat ..

/-- What every event leaves in place, a run does. -/
theorem run_keeps {P : Feed → Prop} (hstep : ∀ x e, P x → P (x.step e)) (h : P x)
    (es : List Event) : P (x.run es) := by
  induction es generalizing x with
  | nil => exact h
  | cons e es ih => exact ih (hstep x e h)

theorem subscription_step (x : Feed) (e : Event) :
    (x.step e).sink.subscription = x.sink.subscription := by
  cases e with
  | update schema => rfl
  | fire live batch sheet => exact Sink.subscription_hearAll ..

theorem subscription_run (x : Feed) (es : List Event) :
    (x.run es).sink.subscription = x.sink.subscription :=
  run_keeps (P := fun y => y.sink.subscription = x.sink.subscription)
    (fun y e h => (y.subscription_step e).trans h) rfl es

theorem failed_step (h : x.sink.phase = .failed) (e : Event) : (x.step e).sink.phase = .failed := by
  cases e with
  | update schema => exact h
  | fire live batch sheet =>
      rw [step, tell]
      dsimp only
      rw [Sink.hearAll_of_failed _ _ h]
      exact h

theorem failed_run (h : x.sink.phase = .failed) (es : List Event) :
    (x.run es).sink.phase = .failed :=
  run_keeps (P := fun x => x.sink.phase = .failed) (fun _ e h => failed_step h e) h es

/-- The sink serves just while a schema is shown, and what it has sent is in the grammar. -/
structure Kept (x : Feed) : Prop where
  waiting : x.publisher.schema = none → x.sink.Waiting
  serving : ∀ schema, x.publisher.schema = some schema → x.sink.Serving
  grammar : Sent x.sink.subscription x.sink.phase x.sent

theorem sent_tell (h : Sent x.sink.subscription x.sink.phase x.sent) (sheet : Sheet)
    (ns : List Notice) :
    Sent (x.tell sheet ns).sink.subscription (x.tell sheet ns).sink.phase
      (x.tell sheet ns).sent := by
  have hsent := h.takeAll (ns.map fun n => ⟨x.publisher.rows.size, sheet, n⟩)
  rw [← Sink.hearAll_eq_takeAll] at hsent
  rw [tell, Sink.subscription_hearAll]
  exact hsent

theorem kept_opened (p : Publisher) (sub : Int32) (limit : Nat) (sheet : Sheet) :
    (opened p sub limit sheet).Kept := by
  refine ⟨fun hnone => ?_, fun schema hsome => ?_, sent_tell .nothing sheet p.replay⟩
  · have hschema : p.schema = none := hnone
    rw [opened, tell, Publisher.replay, hschema]
    exact .inl rfl
  · have hschema : p.schema = some schema := hsome
    rw [opened, tell, Publisher.replay, hschema]
    dsimp only
    rw [Publisher.replayRows_eq, Sink.hearAll]
    exact Sink.serving_hearAll_schema (.create sub none limit) schema p.rows sheet

theorem Kept.step (h : x.Kept) (e : Event) : (x.step e).Kept := by
  cases e with
  | update schema => exact ⟨h.waiting, h.serving, h.grammar⟩
  | fire live batch sheet =>
      have hgrammar := sent_tell (x := { x with publisher := (x.publisher.publish live batch).1 })
        h.grammar sheet (x.publisher.publish live batch).2
      have hpasses := x.publisher.passes_publish live batch
      rw [Feed.step]
      generalize (x.publisher.publish live batch).1 = p' at hpasses hgrammar ⊢
      generalize (x.publisher.publish live batch).2 = ns at hpasses hgrammar ⊢
      refine ⟨fun hnone => ?_, fun schema hsome => ?_, hgrammar⟩
      · have hnone' : p'.schema = none := hnone
        cases hpasses with
        | rows same hrows =>
            rw [tell, Sink.hearAll_of_waiting (h.waiting (same ▸ hnone')) hrows]
            exact h.waiting (same ▸ hnone')
        | withdrawn =>
            rw [tell, Sink.hearAll_one]
            exact (Sink.hear_withdrawn ..).1
        | shown there => cases there.symm.trans hnone'
      · have hsome' : p'.schema = some schema := hsome
        cases hpasses with
        | rows same hrows => exact Sink.serving_hearAll (h.serving schema (same ▸ hsome')) hrows
        | withdrawn gone => cases gone.symm.trans hsome'
        | shown => exact Sink.serving_hearAll_schema ..

theorem Kept.run (h : x.Kept) (es : List Event) : (x.run es).Kept :=
  run_keeps (fun _ e h => h.step e) h es

/-- Nothing is sent by what leaves the output without a schema. -/
theorem Kept.sent_step (h : x.Kept) (e : Event) (hnone : (x.step e).publisher.schema = none) :
    (x.step e).sent = x.sent := by
  cases e with
  | update schema => rfl
  | fire live batch sheet =>
      have hpasses := x.publisher.passes_publish live batch
      rw [Feed.step] at hnone ⊢
      generalize (x.publisher.publish live batch).1 = p' at hpasses hnone ⊢
      generalize (x.publisher.publish live batch).2 = ns at hpasses ⊢
      have hnone' : p'.schema = none := hnone
      cases hpasses with
      | rows same hrows =>
          rw [tell, Sink.hearAll_of_waiting (h.waiting (same ▸ hnone')) hrows]
          exact List.append_nil _
      | withdrawn =>
          rw [tell, Sink.hearAll_one, (Sink.hear_withdrawn ..).2]
          exact List.append_nil _
      | shown there => cases there.symm.trans hnone'

/-! ### While no schema is shown -/

/-- No schema is shown after the first events, nor after any of those that follow them. -/
def NoneShown (x : Feed) (es : List Event) : Prop :=
  ∀ early, early <+: es → (x.run early).publisher.schema = none

/-- What has been sent when no schema is shown was sent when the last one was, if there was any. -/
theorem Kept.sent_run (h : x.Kept) (hsent : x.publisher.schema = none → x.sent = []) (es : List Event)
    (hnone : (x.run es).publisher.schema = none) :
    (x.NoneShown es ∧ (x.run es).sent = []) ∨
      ∃ before e later schema, es = before ++ e :: later ∧
        (x.run before).publisher.schema = some schema ∧
        (x.run (before ++ [e])).NoneShown later ∧ (x.run es).sent = (x.run before).sent := by
  induction es using List.reverseRecOn with
  | nil =>
      refine .inl ⟨fun early hearly => ?_, hsent hnone⟩
      rw [List.prefix_nil.mp hearly]
      exact hnone
  | append_singleton es e ih =>
      have hquiet : (x.run (es ++ [e])).sent = (x.run es).sent := by
        rw [run_concat] at hnone ⊢
        exact (h.run es).sent_step e hnone
      rcases hlast : (x.run es).publisher.schema with _ | schema
      · rcases ih hlast with ⟨hnever, hnothing⟩ | ⟨before, e', later, schema, rfl, hsome, hsince, hsame⟩
        · refine .inl ⟨fun early hearly => ?_, hquiet.trans hnothing⟩
          rcases List.prefix_concat_iff.mp hearly with rfl | hearly
          · exact hnone
          · exact hnever early hearly
        · refine .inr ⟨before, e', later ++ [e], schema, by simp, hsome, fun early hearly => ?_,
            hquiet.trans hsame⟩
          rcases List.prefix_concat_iff.mp hearly with rfl | hearly
          · rw [← run_append, ← List.append_assoc, ← List.append_cons]
            exact hnone
          · exact hsince early hearly
      · refine .inr ⟨es, e, [], schema, rfl, hlast, fun early hearly => ?_, hquiet⟩
        rw [List.prefix_nil.mp hearly]
        exact hnone

theorem subscription_opened (p : Publisher) (sub : Int32) (limit : Nat) (sheet : Sheet) :
    (opened p sub limit sheet).sink.subscription = sub := Sink.subscription_hearAll ..

theorem sent_opened {p : Publisher} {sub : Int32} {limit : Nat} {sheet : Sheet}
    (h : (opened p sub limit sheet).publisher.schema = none) :
    (opened p sub limit sheet).sent = [] := by
  have hschema : p.schema = none := h
  rw [opened, tell, Publisher.replay, hschema]
  rfl

/-- A replica that rejects nothing has come as far as the sink. -/
theorem Kept.phase_replica (h : x.Kept) (haccepted : x.Accepted)
    (hphase : x.sink.phase ≠ .awaitingSchema) : x.replica.phase = x.sink.phase := by
  obtain ⟨r, hr⟩ := Option.isSome_iff_exists.mp haccepted
  rw [replica, ← Replica.eq_of_acceptAll hr]
  exact Replica.acceptAll_phase h.grammar hr hphase

/-- While no schema is shown, a sink has nothing to send, and its replica is as it was when one was
last shown, or new if none was. -/
theorem withdrawn_in_silence (p : Publisher) (sub : Int32) (limit : Nat) (sheet : Sheet)
    (es : List Event) :
    let start := opened p sub limit sheet
    let x := start.run es
    x.publisher.schema = none →
      x.sink.Waiting ∧
      (start.NoneShown es ∧ x.replica = { subscription := sub } ∨
        ∃ before e later schema, es = before ++ e :: later ∧
          (start.run before).publisher.schema = some schema ∧
          (start.run (before ++ [e])).NoneShown later ∧ x.replica = (start.run before).replica) ∧
      (x.sink.phase ≠ .failed → x.Accepted →
        (x.replica.phase ≠ .live ∧ x.replica.liveRows = [] ↔ start.NoneShown es)) := by
  intro start x hnone
  have hstart : start.Kept := kept_opened p sub limit sheet
  have hsub : ∀ es, (start.run es).sink.subscription = sub := fun es =>
    (start.subscription_run es).trans (subscription_opened p sub limit sheet)
  have hreplica : ∀ es, (start.run es).replica = (start.run es).sent.foldl
      (fun r response => (r.accept response).1) { subscription := sub } := fun es => by
    rw [replica, hsub]
  have hsent := hstart.sent_run sent_opened es hnone
  have hfresh : x.sent = [] → x.replica = { subscription := sub } := fun hnothing => by
    rw [hreplica, hnothing]
    rfl
  refine ⟨(hstart.run es).waiting hnone, ?_, fun hfailed haccepted => ⟨fun hout => ?_, fun hnever => ?_⟩⟩
  · rcases hsent with ⟨hnever, hnothing⟩ | ⟨before, e, later, schema, hes, hsome, hsince, hsame⟩
    · exact .inl ⟨hnever, hfresh hnothing⟩
    · refine .inr ⟨before, e, later, schema, hes, hsome, hsince, ?_⟩
      rw [hreplica, hreplica, hsame]
  · rcases hsent with ⟨hnever, -⟩ | ⟨before, e, later, schema, rfl, hsome, -, hsame⟩
    · exact hnever
    -- the sink was serving then, and so the replica was live and still is
    · have hrun : x = (start.run before).run (e :: later) := start.run_append before (e :: later)
      have hlive : (start.run before).sink.phase = .live :=
        ((hstart.run before).serving schema hsome).resolve_right fun hgone =>
          hfailed (hrun ▸ failed_run hgone _)
      have haccepted' : (start.run before).Accepted := by
        rw [Accepted, hsub, ← hsame, ← hsub (before ++ e :: later)]
        exact haccepted
      have hphase := (hstart.run before).phase_replica haccepted' (by rw [hlive]; exact Phase.noConfusion)
      have hsame' : x.replica = (start.run before).replica := by
        rw [hreplica, hreplica, hsame]
      exact absurd ((congrArg Replica.phase hsame').trans (hphase.trans hlive)) hout.1
  · rcases hsent with ⟨-, hnothing⟩ | ⟨before, e, later, schema, rfl, hsome, -⟩
    · rw [hfresh hnothing]
      exact ⟨Phase.noConfusion, rfl⟩
    · cases hsome.symm.trans (hnever before (List.prefix_append ..))

/-- A schema is shown with a row and then withdrawn, and nobody tells the replica. -/
theorem withdrawn_in_silence_row :
    let schema : Schema := ⟨⟨"T", [⟨"a", .int32, {}⟩]⟩, by decide⟩
    let sheet := Sheet.ofSchema schema
    let start := opened {} 1 1000 sheet
    let shown : List Event := [.update (some schema), .fire (.ofList [0]) {} sheet]
    let es := shown ++ [.update none, .fire (.ofList [0]) {} sheet]
    (start.run es).publisher.schema = none ∧ (start.run es).sink.phase = .awaitingSchema ∧
      (start.run es).Accepted ∧ (start.run shown).publisher.schema = some schema ∧
      ¬((start.run es).replica.phase ≠ .live ∧ (start.run es).replica.liveRows = []) := by
  intro schema sheet start shown es
  have hnone : (start.run es).publisher.schema = none := by decide +kernel
  have hphase : (start.run es).sink.phase = .awaitingSchema := by decide +kernel
  have haccepted : (start.run es).Accepted := by
    unfold Accepted
    decide +kernel
  have hsome : (start.run shown).publisher.schema = some schema := by decide +kernel
  obtain ⟨-, -, hiff⟩ := withdrawn_in_silence {} 1 1000 sheet es hnone
  refine ⟨hnone, hphase, haccepted, hsome, fun hout => ?_⟩
  have hnever := (hiff (by rw [hphase]; exact Phase.noConfusion) haccepted).mp hout
  cases hsome.symm.trans (hnever shown (List.prefix_append ..))

/-- So a replica may be live, and have rows, while no schema is shown. -/
theorem stale_after_withdrawal :
    ¬∀ p sub limit sheet es, ((opened p sub limit sheet).run es).publisher.schema = none →
      ((opened p sub limit sheet).run es).sink.phase ≠ .failed →
      ((opened p sub limit sheet).run es).replica.phase ≠ .live ∧
        ((opened p sub limit sheet).run es).replica.liveRows = [] := by
  intro h
  let schema : Schema := ⟨⟨"T", [⟨"a", .int32, {}⟩]⟩, by decide⟩
  let sheet := Sheet.ofSchema schema
  have hout := h {} 1 1000 sheet [.update (some schema), .fire (.ofList [0]) {} sheet, .update none,
    .fire (.ofList [0]) {} sheet] (by decide +kernel) (by decide +kernel)
  exact absurd hout.2 (by decide +kernel)

end Feed

end TableFeed
