import Mathlib
import TableFeed.Proofs.Sink.AtTable
import TableFeed.Proofs.Table.Runs
/-!
Where a sink that is attached to a table stands: it serves the table, or it has given up. What the
table tells it, and what the owner does to the table, lead from one standing to the next, and the
machine that takes the answers goes along.
-/

namespace TableFeed

def Notice.isNews : Notice → Bool
  | .source _ => false
  | .schema none => false
  | _ => true

theorem Pass.isNews {p : Pass} : ∀ n ∈ p.notices, n.isNews = true := by
  intro n hn
  simp only [notices, List.mem_append, List.mem_map] at hn
  rcases hn with ((⟨schema, -, rfl⟩ | hn) | hn) | hn
  · rfl
  · split at hn
    · cases hn
    · rw [List.mem_singleton.mp hn]
      rfl
  · split at hn
    · cases hn
    · rw [List.mem_singleton.mp hn]
      rfl
  · split at hn
    · cases hn
    · rw [List.mem_singleton.mp hn]
      rfl

namespace SinkInput

variable {h : Hub} {s : SinkInput} {o : OutputId}

/-- A sink that reads the output it is attached to answers its news as the sink alone would. -/
theorem answerAll_news {d : Display} (hd : h.display? o = some d) {sheet : Sheet}
    (hsheet : d.sheet = some sheet) (hsource : s.source = some o) (hreads : s.reads = .output o)
    {ns : List Notice} (hns : ∀ n ∈ ns, n.isNews = true) :
    s.answerAll h (.output o) ns =
      ({ s with sink := (s.sink.hearAll d.publisher.rows.size sheet ns).1 },
        (s.sink.hearAll d.publisher.rows.size sheet ns).2) := by
  induction ns generalizing s with
  | nil => rfl
  | cons n ns ih =>
      have hfollow : Hub.SinkInput.follow s (.output o) n = s := by
        obtain ⟨sink, outlet, source, reads⟩ := s
        cases hreads
        have hnews := hns n List.mem_cons_self
        cases n with
        | source attached => cases hnews
        | schema schema =>
            cases schema with
            | none => cases hnews
            | some schema => rfl
        | added rows => rfl
        | changed rows fields => rfl
        | removed rows => rfl
      have hrows : h.rowCount s.source = d.publisher.rows.size := by
        simp [Hub.rowCount, hsource, hd]
      have hcells : h.cells s.reads = sheet := by
        simp [Hub.cells, hreads, hd, hsheet]
      have hanswer : s.answer h (.output o) n =
          ({ s with sink := (s.sink.hear d.publisher.rows.size sheet n).1 },
            (s.sink.hear d.publisher.rows.size sheet n).2) := by
        rw [answer, hfollow, hrows, hcells]
      have hrest := @ih { s with sink := (s.sink.hear d.publisher.rows.size sheet n).1 } hsource
        hreads fun n' hn' => hns n' (List.mem_cons_of_mem _ hn')
      rw [answerAll, hanswer, Sink.hearAll]
      dsimp only
      rw [hrest]

/-- A sink that has given up stays silent. -/
theorem answerAll_of_failed (h : Hub) (origin : Origin) (hs : s.sink.phase = .failed)
    (ns : List Notice) : (s.answerAll h origin ns).1.sink.phase = .failed ∧
      (s.answerAll h origin ns).2 = [] := by
  induction ns generalizing s with
  | nil => exact ⟨hs, rfl⟩
  | cons n ns ih =>
      have hsink : (Hub.SinkInput.follow s origin n).sink = s.sink := by
        unfold Hub.SinkInput.follow
        split <;> rfl
      have hanswer : s.answer h origin n = (Hub.SinkInput.follow s origin n, []) := by
        rw [answer, Sink.hear_of_failed _ _ (hsink ▸ hs)]
      obtain ⟨hphase, hnone⟩ := ih (s := (s.answer h origin n).1) (by rw [hanswer, hsink, hs])
      refine ⟨hphase, ?_⟩
      rw [answerAll]
      dsimp only
      rw [hnone, hanswer]
      rfl

/-- A sink attached to a table, and its machine, after the sink has said `n` times that it fails. -/
inductive Standing (id : Nat) (t : Table) (s : SinkInput) (m : Mirror) : Nat → Prop
  | serves {ids : List FieldId} (source : s.source = some (.table id))
      (reads : s.reads = .output (.table id)) (shows : s.sink.Serves t ids m) :
      Standing id t s m 0
  | gaveUp (sink : s.sink.phase = .failed) (machine : m.phase = .failed) : Standing id t s m 1

namespace Standing

variable {id : Nat} {t : Table} {m : Mirror} {limit : RowId} {n : Nat}

/-- What the sink and its machine make of what it sends. -/
theorem of_answered {x : Sink × List Response} {t' : Table} (h : Answered limit m x fun s' m' =>
      ∃ ids, s'.Serves t' ids m') (hsource : s.source = some (.table id))
    (hreads : s.reads = .output (.table id)) :
    ∃ m', m.Takes x.1.subscription limit x.2 m' ∧
      Standing id t' { s with sink := x.1 } m' (failures x.2) := by
  obtain ⟨m', htakes, ⟨-, hnone, ids, hserves⟩ | ⟨hphase, hmachine, hone⟩⟩ := h
  · exact ⟨m', htakes, hnone ▸ .serves hsource hreads hserves⟩
  · exact ⟨m', htakes, hone ▸ .gaveUp hphase hmachine⟩

/-- A pass of the table. -/
theorem pass (hstands : Standing id t s m n) (hc : t.Coherent)
    (hsize : t.schema.size ≤ 0x100000000 ∨ s.sink.encoder.limit ≤ 0x100000000)
    (hlive : ∀ row ∈ t.rows.live, row ≤ limit) (hshown : ∀ row ∈ t.publisher.rows, row ≤ limit)
    (hd : h.display? (.table id) = some t.publish.1.display) :
    ∃ m', m.Takes s.sink.subscription limit
        (s.answerAll h (.output (.table id)) t.pass.notices).2 m' ∧
      Standing id t.fire.1 (s.answerAll h (.output (.table id)) t.pass.notices).1 m'
        (n + failures (s.answerAll h (.output (.table id)) t.pass.notices).2) := by
  cases hstands with
  | serves source reads shows =>
      have hanswered : Answered limit m
          (s.sink.hearAll t.rows.live.size t.sheet t.pass.notices)
          fun s' m' => ∃ ids, s'.Serves t.fire.1 ids m' :=
        (shows.answered_pass hc hsize hlive hshown).mono
          fun s' m' ⟨ids, hids⟩ => ⟨ids, hids.serves_fire hc⟩
      obtain ⟨m', htakes, hafter⟩ := of_answered hanswered source reads
      rw [Sink.subscription_hearAll] at htakes
      have hrows : t.publish.1.display.publisher.rows = t.rows.live := hc.rows_publish
      have hsheet : t.publish.1.display.sheet = some t.sheet := rfl
      rw [answerAll_news hd hsheet source reads Pass.isNews, hrows, Nat.zero_add]
      exact ⟨m', htakes, hafter⟩
  | gaveUp sink machine =>
      obtain ⟨hphase, hnone⟩ := answerAll_of_failed h (.output (.table id)) sink t.pass.notices
      rw [hnone]
      exact ⟨m, .nil m, .gaveUp hphase machine⟩

/-- What is shown when the sink is attached. A sink that does not give up has its machine show just
that. -/
theorem replay (hs : s.sink.phase ≠ .failed) (hc : t.Coherent) (hserve : s.sink.CanServe t.shown.schema)
    (hshown : ∀ row ∈ t.publisher.rows, row ≤ limit)
    (hd : h.display? (.table id) = some t.display) :
    ∃ m', m.Takes s.sink.subscription limit
        (s.answerAll h (.output (.table id)) t.publisher.replay).2 m' ∧
      Standing id t (s.answerAll h (.output (.table id)) t.publisher.replay).1 m'
        (failures (s.answerAll h (.output (.table id)) t.publisher.replay).2) ∧
      (failures (s.answerAll h (.output (.table id)) t.publisher.replay).2 = 0 →
        ∃ ids, (s.answerAll h (.output (.table id)) t.publisher.replay).1.sink.Shows t.shown
          t.publisher.rows ids m') := by
  obtain ⟨told, htold⟩ : ∃ told : List Notice, told = .schema (some t.shown.schema) ::
    if t.publisher.rows.isEmpty then [] else [.added t.publisher.rows.toList] := ⟨_, rfl⟩
  have hanswered : Answered limit m (s.sink.hearAll t.publisher.rows.size t.shown told)
      fun s' m' => ∃ ids, s'.Shows t.shown t.publisher.rows ids m' := by
    rw [htold]
    exact Sink.answered_start hs hserve hshown
  have hnews : ∀ n ∈ told, n.isNews = true := by
    intro n hn
    rw [htold] at hn
    rcases List.mem_cons.mp hn with rfl | hn
    · rfl
    · split at hn
      · cases hn
      · rw [List.mem_singleton.mp hn]
        rfl
  have hreplay : t.publisher.replay = .source true :: told := by
    rw [Publisher.replay, hc.shown, htold]
    rfl
  -- the schema sets what is read, whatever that was
  have hstart : s.answerAll h (.output (.table id)) t.publisher.replay =
      ({ s with source := some (.table id), reads := .output (.table id) } : SinkInput).answerAll h
        (.output (.table id)) told := by
    rw [hreplay, htold]
    rfl
  have hsheet : t.display.sheet = some t.shown := rfl
  obtain ⟨m', htakes, hafter⟩ := hanswered
  rw [Sink.subscription_hearAll] at htakes
  rw [hstart, answerAll_news hd hsheet rfl rfl hnews]
  refine ⟨m', htakes, ?_⟩
  rcases hafter with ⟨-, hnone, ids, hshows⟩ | ⟨hphase, hmachine, hone⟩
  · exact ⟨hnone ▸ .serves rfl rfl hshows.toServes, fun _ => ⟨ids, hshows⟩⟩
  · exact ⟨hone ▸ .gaveUp hphase hmachine, fun hnone => absurd (hone.symm.trans hnone) Nat.one_ne_zero⟩

/-- What the owner does to the table. -/
theorem move (hstands : Standing id t s m n) (hc : t.Coherent) {t' : Table} (hmove : Move t t') :
    Standing id t' s m n := by
  cases hstands with
  | serves source reads shows => exact .serves source reads (shows.move hc hmove)
  | gaveUp sink machine => exact .gaveUp sink machine

/-- Inputs come and go. -/
theorem with_publisher (hstands : Standing id t s m n) {p : Publisher}
    (hrows : p.rows = t.publisher.rows) :
    Standing id { t with publisher := p } s m n := by
  cases hstands with
  | serves source reads shows =>
      refine .serves source reads ⟨shows.tracks, fun row => ?_, fun row hrow => ?_⟩
      · rw [shows.rows]
        exact iff_of_eq (congrArg (row ∈ ·) hrows.symm)
      · exact shows.cells row (hrows ▸ hrow)
  | gaveUp sink machine => exact .gaveUp sink machine

end Standing

end SinkInput

end TableFeed
