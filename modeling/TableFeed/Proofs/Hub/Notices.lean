import Mathlib
import TableFeed.Hub
import TableFeed.Proofs.Encoder.Responses
/-!
What a hub does when it tells its inputs something. Telling one input changes that input and what
was sent, and nothing that another input could read. So each input of an output hears a pass as if
it were the only one.
-/

namespace TableFeed

structure Hub.SameOutputs (h g : Hub) : Prop where
  tables : g.tables = h.tables
  replicas : g.replicas = h.replicas
  clients : g.clients = h.clients
  ended : g.ended = h.ended

/-- What an input has become after one notice, and what it sends. Where it looks things up is the
hub it belongs to. -/
def SinkInput.answer (h : Hub) (origin : Origin) (n : Notice) (s : SinkInput) :
    SinkInput × List Response :=
  let s := Hub.SinkInput.follow s origin n
  let (sink, responses) := s.sink.hear (h.rowCount s.source) (h.cells s.reads) n
  ({ s with sink := sink }, responses)

def SinkInput.answerAll (h : Hub) (origin : Origin) :
    List Notice → SinkInput → SinkInput × List Response
  | [], s => (s, [])
  | n :: ns, s =>
    let (s, first) := s.answer h origin n
    let (s, rest) := answerAll h origin ns s
    (s, first ++ rest)

def Input.Addresses (o : OutletId) (sub : Int32) : Input → Prop
  | .sink s => s.outlet = o ∧ s.sink.subscription = sub
  | .recorder _ => False

/-- Inputs of the same kind, of which sinks ask for the same and send it to the same place. -/
inductive Input.Same : Input → Input → Prop
  | recorders (r r' : Recorder) : Same (.recorder r) (.recorder r')
  | sinks {s s' : SinkInput} (outlet : s'.outlet = s.outlet)
      (encoder : s.sink.encoder.Same s'.sink.encoder) : Same (.sink s) (.sink s')

namespace Hub

structure SameInputs (h g : Hub) : Prop where
  input : ∀ j : InputId, Option.Rel Input.Same h.inputs[j]? g.inputs[j]?

def sentTo (h : Hub) (o : OutletId) : List Response := (h.outlets[o]?.map (·.sent)).getD []

def sentFor (h : Hub) (o : OutletId) (sub : Int32) : List Response :=
  (h.sentTo o).filter (·.subscription = sub)

def IsOpen (h : Hub) (o : OutletId) : Prop := ∃ out, h.outlets[o]? = some out ∧ out.closed = false

namespace SameOutputs

variable {h g k : Hub}

theorem refl (h : Hub) : h.SameOutputs h := ⟨rfl, rfl, rfl, rfl⟩

theorem trans (hg : h.SameOutputs g) (hk : g.SameOutputs k) : h.SameOutputs k :=
  ⟨hk.tables.trans hg.tables, hk.replicas.trans hg.replicas, hk.clients.trans hg.clients,
    hk.ended.trans hg.ended⟩

theorem display? (hg : h.SameOutputs g) (o : OutputId) : g.display? o = h.display? o := by
  cases o with
  | table i => rw [Hub.display?, Hub.display?, hg.tables]
  | replica i => rw [Hub.display?, Hub.display?, hg.replicas]
  | subscription c id => rw [Hub.display?, Hub.display?, hg.clients, hg.ended]

theorem rowCount (hg : h.SameOutputs g) (o : Option OutputId) : g.rowCount o = h.rowCount o := by
  have hdisplay : g.display? = h.display? := funext hg.display?
  rw [Hub.rowCount, Hub.rowCount, hdisplay]

theorem cells (hg : h.SameOutputs g) (o : Origin) : g.cells o = h.cells o := by
  cases o with
  | nowhere => rfl
  | output o => rw [Hub.cells, Hub.cells, hg.display? o]
  | given sheet => rfl

theorem answer (hg : h.SameOutputs g) (origin : Origin) (n : Notice) (s : SinkInput) :
    s.answer g origin n = s.answer h origin n := by
  simp only [SinkInput.answer, hg.rowCount, hg.cells]

theorem answerAll (hg : h.SameOutputs g) (origin : Origin) (ns : List Notice) (s : SinkInput) :
    s.answerAll g origin ns = s.answerAll h origin ns := by
  induction ns generalizing s with
  | nil => rfl
  | cons n ns ih => simp only [SinkInput.answerAll, hg.answer, ih]

end SameOutputs

namespace SameInputs

variable {h g k : Hub} {j : InputId}

theorem refl (h : Hub) : h.SameInputs h := by
  refine ⟨fun j => ?_⟩
  rcases h.inputs[j]? with _ | (r | s)
  · exact .none
  · exact .some (.recorders r r)
  · exact .some (.sinks rfl (.refl _))

theorem trans (hg : h.SameInputs g) (hk : g.SameInputs k) : h.SameInputs k := by
  refine ⟨fun j => ?_⟩
  have hgj := hg.input j
  have hkj := hk.input j
  revert hgj hkj
  generalize h.inputs[j]? = x
  generalize g.inputs[j]? = y
  generalize k.inputs[j]? = z
  rintro (@⟨_, _, ⟨r, r'⟩ | ⟨ho, hsame⟩⟩ | _) (@⟨_, _, ⟨_, r''⟩ | ⟨ho', hsame'⟩⟩ | _)
  · exact .some (.recorders r r'')
  · exact .some (.sinks (ho'.trans ho) (hsame.trans hsame'))
  · exact .none

/-- Recorders, and no other inputs, are recorders. -/
theorem recorder_iff (hg : h.SameInputs g) (j : InputId) :
    (∃ r, g.inputs[j]? = some (.recorder r)) ↔ ∃ r, h.inputs[j]? = some (.recorder r) := by
  have hgj := hg.input j
  revert hgj
  generalize h.inputs[j]? = x
  generalize g.inputs[j]? = y
  rintro (@⟨_, _, ⟨r, r'⟩ | ⟨ho, hsame⟩⟩ | _) <;> simp

theorem of_sink (hg : h.SameInputs g) {s' : SinkInput} (hs' : g.inputs[j]? = some (.sink s')) :
    ∃ s, h.inputs[j]? = some (.sink s) ∧ s'.outlet = s.outlet ∧
      s.sink.encoder.Same s'.sink.encoder := by
  have hgj := hg.input j
  rw [hs'] at hgj
  revert hgj
  generalize h.inputs[j]? = x
  rintro (@⟨_, _, _ | ⟨ho, hsame⟩⟩)
  exact ⟨_, rfl, ho, hsame⟩

theorem sink (hg : h.SameInputs g) {s : SinkInput} (hs : h.inputs[j]? = some (.sink s)) :
    ∃ s', g.inputs[j]? = some (.sink s') ∧ s'.outlet = s.outlet ∧
      s.sink.encoder.Same s'.sink.encoder := by
  have hgj := hg.input j
  rw [hs] at hgj
  revert hgj
  generalize g.inputs[j]? = y
  rintro (@⟨_, _, _ | ⟨ho, hsame⟩⟩)
  exact ⟨_, rfl, ho, hsame⟩

theorem addresses_iff (hg : h.SameInputs g) {o : OutletId} {sub : Int32} (j : InputId) :
    (∃ x, g.inputs[j]? = some x ∧ x.Addresses o sub) ↔
      ∃ x, h.inputs[j]? = some x ∧ x.Addresses o sub := by
  constructor
  · rintro ⟨x, hx, hadr⟩
    cases x with
    | recorder r => exact hadr.elim
    | sink s' =>
        obtain ⟨s, hs, ho, hsame⟩ := hg.of_sink hx
        exact ⟨_, hs, ho.symm.trans hadr.1, hsame.1.symm.trans hadr.2⟩
  · rintro ⟨x, hx, hadr⟩
    cases x with
    | recorder r => exact hadr.elim
    | sink s =>
        obtain ⟨s', hs', ho, hsame⟩ := hg.sink hx
        exact ⟨_, hs', ho.trans hadr.1, hsame.1.trans hadr.2⟩

end SameInputs

/-! ### Sending -/

section Emit

variable (h : Hub) (o : OutletId)

theorem sentTo_emit {h : Hub} {o : OutletId} (hopen : h.IsOpen o) (other : OutletId)
    (r : Response) :
    (h.emit other r).sentTo o = if other = o then h.sentTo o ++ [r] else h.sentTo o := by
  obtain ⟨out, hout, hclosed⟩ := hopen
  rw [sentTo, sentTo, emit, List.getElem?_modify]
  by_cases ho : other = o
  · simp [ho, hout, hclosed]
  · simp [ho]

theorem isOpen_emit {h : Hub} {o : OutletId} (hopen : h.IsOpen o) (other : OutletId)
    (r : Response) : (h.emit other r).IsOpen o := by
  obtain ⟨out, hout, hclosed⟩ := hopen
  by_cases ho : other = o
  · exact ⟨{ out with sent := out.sent ++ [r] }, by simp [emit, ho, hout, hclosed], hclosed⟩
  · exact ⟨out, by simp [emit, ho, hout], hclosed⟩

theorem inputs_emitAll (rs : List Response) :
    (rs.foldl (fun h r => h.emit o r) h).inputs = h.inputs := by
  induction rs generalizing h with
  | nil => rfl
  | cons r rs ih => exact ih (h.emit o r)

theorem sameOutputs_emitAll (rs : List Response) :
    h.SameOutputs (rs.foldl (fun h r => h.emit o r) h) := by
  induction rs generalizing h with
  | nil => exact .refl h
  | cons r rs ih =>
      have hemit : h.SameOutputs (h.emit o r) := ⟨rfl, rfl, rfl, rfl⟩
      exact hemit.trans (ih (h.emit o r))

variable {h o}

theorem isOpen_emitAll (hopen : h.IsOpen o) (other : OutletId) (rs : List Response) :
    (rs.foldl (fun h r => h.emit other r) h).IsOpen o := by
  induction rs generalizing h with
  | nil => exact hopen
  | cons r rs ih => exact ih (isOpen_emit hopen other r)

theorem sentTo_emitAll (hopen : h.IsOpen o) (other : OutletId) (rs : List Response) :
    (rs.foldl (fun h r => h.emit other r) h).sentTo o =
      if other = o then h.sentTo o ++ rs else h.sentTo o := by
  induction rs generalizing h with
  | nil => simp
  | cons r rs ih =>
      rw [List.foldl_cons, ih (isOpen_emit hopen other r), sentTo_emit hopen]
      split <;> simp

end Emit

end Hub

/-! ### Answers -/

namespace SinkInput

variable (h : Hub) (origin : Origin)

/-- An answer keeps the outlet and what is asked for, and goes out for that. -/
theorem answer_addresses (n : Notice) (s : SinkInput) :
    (s.answer h origin n).1.outlet = s.outlet ∧
      Sink.Speaks s.sink.encoder ((s.answer h origin n).1.sink, (s.answer h origin n).2) := by
  have hsink : ∀ n, (Hub.SinkInput.follow s origin n).sink = s.sink ∧
      (Hub.SinkInput.follow s origin n).outlet = s.outlet := by
    intro n
    unfold Hub.SinkInput.follow
    split <;> exact ⟨rfl, rfl⟩
  obtain ⟨hs, ho⟩ := hsink n
  refine ⟨ho, ?_⟩
  have hspeaks := Sink.speaks_hear (Hub.SinkInput.follow s origin n).sink
    (h.rowCount (Hub.SinkInput.follow s origin n).source)
    (h.cells (Hub.SinkInput.follow s origin n).reads) n
  rw [hs] at hspeaks
  exact hs ▸ hspeaks

theorem answerAll_addresses (ns : List Notice) (s : SinkInput) :
    (s.answerAll h origin ns).1.outlet = s.outlet ∧
      Sink.Speaks s.sink.encoder
        ((s.answerAll h origin ns).1.sink, (s.answerAll h origin ns).2) := by
  induction ns generalizing s with
  | nil => exact ⟨rfl, Sink.speaks_nothing (.refl _)⟩
  | cons n ns ih =>
      obtain ⟨ho, hsame, hrs⟩ := answer_addresses h origin n s
      obtain ⟨ho', hsame', hrs'⟩ := ih (s.answer h origin n).1
      rw [hsame.1, hsame.2.2] at hrs'
      refine ⟨ho'.trans ho, hsame.trans hsame', fun r hr => ?_⟩
      rcases List.mem_append.mp hr with hr | hr
      · exact hrs r hr
      · exact hrs' r hr

end SinkInput

namespace Hub

variable {h : Hub} {origin : Origin} {i j : InputId}

/-! ### Telling one input one thing -/

theorem tell_sink {s : SinkInput} (hs : h.inputs[i]? = some (.sink s)) (n : Notice) :
    h.tell origin i n = (s.answer h origin n).2.foldl (fun h r => h.emit s.outlet r)
      (h.setInput i (.sink (s.answer h origin n).1)) := by
  have ho : (SinkInput.follow s origin n).outlet = s.outlet := by
    unfold SinkInput.follow
    split <;> rfl
  simp only [tell, hs, SinkInput.answer, ho]

theorem tell_recorder {r : Recorder} (hr : h.inputs[i]? = some (.recorder r)) (n : Notice) :
    h.tell origin i n = h.setInput i (.recorder (r.hear n)) := by
  simp only [tell, hr]

theorem tell_none (hi : h.inputs[i]? = none) (n : Notice) : h.tell origin i n = h := by
  simp only [tell, hi]

theorem sameOutputs_tell (h : Hub) (origin : Origin) (i : InputId) (n : Notice) :
    h.SameOutputs (h.tell origin i n) := by
  rcases hi : h.inputs[i]? with _ | (r | s)
  · rw [tell_none hi]
    exact .refl h
  · rw [tell_recorder hi]
    exact ⟨rfl, rfl, rfl, rfl⟩
  · rw [tell_sink hi]
    have hset : h.SameOutputs (h.setInput i (.sink (s.answer h origin n).1)) := ⟨rfl, rfl, rfl, rfl⟩
    exact hset.trans (sameOutputs_emitAll ..)

theorem input_tell_of_ne (hne : i ≠ j) (n : Notice) :
    (h.tell origin i n).inputs[j]? = h.inputs[j]? := by
  rcases hi : h.inputs[i]? with _ | (r | s)
  · rw [tell_none hi]
  · rw [tell_recorder hi]
    exact List.getElem?_set_ne hne
  · rw [tell_sink hi, inputs_emitAll]
    exact List.getElem?_set_ne hne

theorem input_tell_recorder {r : Recorder} (hr : h.inputs[i]? = some (.recorder r)) (n : Notice) :
    (h.tell origin i n).inputs[i]? = some (.recorder (r.hear n)) := by
  obtain ⟨hlt, -⟩ := List.getElem?_eq_some_iff.mp hr
  rw [tell_recorder hr]
  exact List.getElem?_set_self hlt

theorem input_tell_sink {s : SinkInput} (hs : h.inputs[i]? = some (.sink s)) (n : Notice) :
    (h.tell origin i n).inputs[i]? = some (.sink (s.answer h origin n).1) := by
  obtain ⟨hlt, -⟩ := List.getElem?_eq_some_iff.mp hs
  rw [tell_sink hs, inputs_emitAll]
  exact List.getElem?_set_self hlt

theorem isOpen_tell {o : OutletId} (hopen : h.IsOpen o) (n : Notice) :
    (h.tell origin i n).IsOpen o := by
  rcases hi : h.inputs[i]? with _ | (r | s)
  · rwa [tell_none hi]
  · rwa [tell_recorder hi]
  · rw [tell_sink hi]
    exact isOpen_emitAll (h := h.setInput i _) hopen ..

theorem sentTo_tell_sink {o : OutletId} (hopen : h.IsOpen o) {s : SinkInput}
    (hs : h.inputs[i]? = some (.sink s)) (n : Notice) :
    (h.tell origin i n).sentTo o =
      if s.outlet = o then h.sentTo o ++ (s.answer h origin n).2 else h.sentTo o := by
  rw [tell_sink hs]
  exact sentTo_emitAll (h := h.setInput i _) hopen ..

theorem sentTo_tell_of_not_sink {o : OutletId} (hs : ∀ s, h.inputs[i]? ≠ some (.sink s))
    (n : Notice) : (h.tell origin i n).sentTo o = h.sentTo o := by
  rcases hi : h.inputs[i]? with _ | (r | s)
  · rw [tell_none hi]
  · rw [tell_recorder hi]
    rfl
  · exact absurd hi (hs s)

/-- What is sent for a subscription when another input is told something: nothing. -/
theorem sentFor_tell_of_not_addresses {o : OutletId} {sub : Int32} (hopen : h.IsOpen o)
    (hother : ∀ x, h.inputs[i]? = some x → ¬x.Addresses o sub) (n : Notice) :
    (h.tell origin i n).sentFor o sub = h.sentFor o sub := by
  by_cases hsink : ∃ s, h.inputs[i]? = some (.sink s)
  · obtain ⟨s, hs⟩ := hsink
    rw [sentFor, sentTo_tell_sink hopen hs]
    split
    · next ho =>
      have hsub : s.sink.subscription ≠ sub := fun hsub => hother _ hs ⟨ho, hsub⟩
      have hnone : (s.answer h origin n).2.filter (·.subscription = sub) = [] := by
        rw [List.filter_eq_nil_iff]
        intro r hr
        rw [((SinkInput.answer_addresses h origin n s).2.2 r hr).subscription_eq]
        exact fun h => hsub (of_decide_eq_true h)
      rw [List.filter_append, hnone, List.append_nil]
      rfl
    · rfl
  · rw [sentFor, sentTo_tell_of_not_sink fun s hs => hsink ⟨s, hs⟩]
    rfl

theorem sentFor_tell {o : OutletId} (hopen : h.IsOpen o) {s : SinkInput}
    (hs : h.inputs[i]? = some (.sink s)) (ho : s.outlet = o) (n : Notice) :
    (h.tell origin i n).sentFor o s.sink.subscription =
      h.sentFor o s.sink.subscription ++ (s.answer h origin n).2 := by
  rw [sentFor, sentTo_tell_sink hopen hs, if_pos ho, List.filter_append]
  congr 1
  rw [List.filter_eq_self]
  intro r hr
  rw [((SinkInput.answer_addresses h origin n s).2.2 r hr).subscription_eq]
  simp [Sink.subscription]

/-! ### Telling one input several things -/

theorem sameOutputs_tellAll (h : Hub) (origin : Origin) (i : InputId) (ns : List Notice) :
    h.SameOutputs (h.tellAll origin i ns) := by
  induction ns generalizing h with
  | nil => exact .refl h
  | cons n ns ih => exact (sameOutputs_tell h origin i n).trans (ih (h.tell origin i n))

theorem input_tellAll_of_ne (h : Hub) (origin : Origin) (hne : i ≠ j) (ns : List Notice) :
    (h.tellAll origin i ns).inputs[j]? = h.inputs[j]? := by
  induction ns generalizing h with
  | nil => rfl
  | cons n ns ih => exact (ih (h.tell origin i n)).trans (input_tell_of_ne hne n)

theorem tellAll_none (hi : h.inputs[i]? = none) (ns : List Notice) :
    h.tellAll origin i ns = h := by
  induction ns with
  | nil => rfl
  | cons n ns ih =>
      rw [tellAll, List.foldl_cons, tell_none hi]
      exact ih

theorem input_tellAll_recorder {r : Recorder} (hr : h.inputs[i]? = some (.recorder r))
    (ns : List Notice) :
    (h.tellAll origin i ns).inputs[i]? = some (.recorder (ns.foldl Recorder.hear r)) := by
  induction ns generalizing h r with
  | nil => exact hr
  | cons n ns ih => exact ih (input_tell_recorder hr n)

theorem input_tellAll_sink {s : SinkInput} (hs : h.inputs[i]? = some (.sink s))
    (ns : List Notice) :
    (h.tellAll origin i ns).inputs[i]? = some (.sink (s.answerAll h origin ns).1) := by
  induction ns generalizing h s with
  | nil => exact hs
  | cons n ns ih =>
      rw [tellAll, List.foldl_cons]
      refine (ih (input_tell_sink hs n)).trans ?_
      rw [(sameOutputs_tell h origin i n).answerAll]
      rfl

theorem isOpen_tellAll {o : OutletId} (hopen : h.IsOpen o) (ns : List Notice) :
    (h.tellAll origin i ns).IsOpen o := by
  induction ns generalizing h with
  | nil => exact hopen
  | cons n ns ih => exact ih (isOpen_tell hopen n)

theorem sameInputs_tell (h : Hub) (origin : Origin) (i : InputId) (n : Notice) :
    h.SameInputs (h.tell origin i n) := by
  refine ⟨fun j => ?_⟩
  by_cases hij : i = j
  · subst hij
    rcases hi : h.inputs[i]? with _ | (r | s)
    · rw [tell_none hi, hi]
      exact .none
    · rw [input_tell_recorder hi]
      exact .some (.recorders ..)
    · obtain ⟨ho, hsame, -⟩ := SinkInput.answer_addresses h origin n s
      rw [input_tell_sink hi]
      exact .some (.sinks ho hsame)
  · rw [input_tell_of_ne hij]
    exact (SameInputs.refl h).input j

theorem sameInputs_tellAll (h : Hub) (origin : Origin) (i : InputId) (ns : List Notice) :
    h.SameInputs (h.tellAll origin i ns) := by
  induction ns generalizing h with
  | nil => exact .refl h
  | cons n ns ih => exact (sameInputs_tell h origin i n).trans (ih (h.tell origin i n))

theorem sentFor_tellAll_of_not_addresses {o : OutletId} {sub : Int32} (hopen : h.IsOpen o)
    (hother : ¬∃ x, h.inputs[i]? = some x ∧ x.Addresses o sub) (ns : List Notice) :
    (h.tellAll origin i ns).sentFor o sub = h.sentFor o sub := by
  induction ns generalizing h with
  | nil => rfl
  | cons n ns ih =>
      rw [tellAll, List.foldl_cons]
      refine (ih (isOpen_tell hopen n)
        (mt ((sameInputs_tell h origin i n).addresses_iff i).mp hother)).trans ?_
      exact sentFor_tell_of_not_addresses hopen (fun x hx hadr => hother ⟨x, hx, hadr⟩) n

theorem sentFor_tellAll {o : OutletId} {sub : Int32} (hopen : h.IsOpen o) {s : SinkInput}
    (hs : h.inputs[i]? = some (.sink s)) (ho : s.outlet = o) (hsub : s.sink.subscription = sub)
    (ns : List Notice) :
    (h.tellAll origin i ns).sentFor o sub = h.sentFor o sub ++ (s.answerAll h origin ns).2 := by
  induction ns generalizing h s with
  | nil => exact (List.append_nil _).symm
  | cons n ns ih =>
      obtain ⟨ho', hsame, -⟩ := SinkInput.answer_addresses h origin n s
      rw [tellAll, List.foldl_cons]
      refine (ih (isOpen_tell hopen n) (input_tell_sink hs n) (ho'.trans ho)
        (hsame.1.trans hsub)).trans ?_
      rw [(sameOutputs_tell h origin i n).answerAll, ← hsub, sentFor_tell hopen hs ho,
        List.append_assoc]
      rfl

/-! ### Telling all inputs of an output -/

def tellEach (h : Hub) (origin : Origin) (is : List InputId) (ns : List Notice) : Hub :=
  is.foldl (fun h i => h.tellAll origin i ns) h

variable {is : List InputId}

theorem sameOutputs_tellEach (h : Hub) (origin : Origin) (is : List InputId) (ns : List Notice) :
    h.SameOutputs (h.tellEach origin is ns) := by
  induction is generalizing h with
  | nil => exact .refl h
  | cons i is ih => exact (sameOutputs_tellAll h origin i ns).trans (ih (h.tellAll origin i ns))

theorem isOpen_tellEach {o : OutletId} (hopen : h.IsOpen o) (is : List InputId)
    (ns : List Notice) : (h.tellEach origin is ns).IsOpen o := by
  induction is generalizing h with
  | nil => exact hopen
  | cons i is ih => exact ih (isOpen_tellAll hopen ns)

theorem input_tellEach_of_not_mem (hj : j ∉ is) (ns : List Notice) :
    (h.tellEach origin is ns).inputs[j]? = h.inputs[j]? := by
  induction is generalizing h with
  | nil => rfl
  | cons i is ih =>
      rw [List.mem_cons, not_or] at hj
      refine (ih (h := h.tellAll origin i ns) hj.2).trans ?_
      exact input_tellAll_of_ne h origin (Ne.symm hj.1) ns

/-- An input told among others becomes what it becomes alone. -/
theorem input_tellEach_of_mem (his : is.Nodup) (hj : j ∈ is) (ns : List Notice) :
    (h.tellEach origin is ns).inputs[j]? = (h.tellAll origin j ns).inputs[j]? := by
  induction is generalizing h with
  | nil => cases hj
  | cons i is ih =>
      rw [List.nodup_cons] at his
      rw [tellEach, List.foldl_cons]
      rcases List.mem_cons.mp hj with rfl | hj
      · exact input_tellEach_of_not_mem his.1 ns
      · have hne : i ≠ j := fun heq => his.1 (heq ▸ hj)
        refine (ih (h := h.tellAll origin i ns) his.2 hj).trans ?_
        have hsame := input_tellAll_of_ne h origin hne ns
        rcases hx : h.inputs[j]? with _ | (r | s)
        · rw [tellAll_none hx, tellAll_none (hsame.trans hx), hsame]
        · rw [input_tellAll_recorder hx, input_tellAll_recorder (hsame.trans hx)]
        · rw [input_tellAll_sink hx, input_tellAll_sink (hsame.trans hx),
            (sameOutputs_tellAll h origin i ns).answerAll]

theorem sameInputs_tellEach (h : Hub) (origin : Origin) (is : List InputId) (ns : List Notice) :
    h.SameInputs (h.tellEach origin is ns) := by
  induction is generalizing h with
  | nil => exact .refl h
  | cons i is ih => exact (sameInputs_tellAll h origin i ns).trans (ih (h.tellAll origin i ns))

theorem sentFor_tellEach_of_not_addresses {o : OutletId} {sub : Int32} (hopen : h.IsOpen o)
    (hother : ∀ i ∈ is, ¬∃ x, h.inputs[i]? = some x ∧ x.Addresses o sub) (ns : List Notice) :
    (h.tellEach origin is ns).sentFor o sub = h.sentFor o sub := by
  induction is generalizing h with
  | nil => rfl
  | cons i is ih =>
      rw [tellEach, List.foldl_cons]
      refine (ih (isOpen_tellAll hopen ns) fun k hk => ?_).trans ?_
      · exact mt ((sameInputs_tellAll h origin i ns).addresses_iff k).mp
          (hother k (List.mem_cons_of_mem _ hk))
      · exact sentFor_tellAll_of_not_addresses hopen (hother i List.mem_cons_self) ns

/-- What is sent for a subscription when its sink is told something among other inputs. -/
theorem sentFor_tellEach {o : OutletId} {sub : Int32} (hopen : h.IsOpen o) {s : SinkInput}
    (hs : h.inputs[j]? = some (.sink s)) (ho : s.outlet = o) (hsub : s.sink.subscription = sub)
    (his : is.Nodup) (hj : j ∈ is)
    (hother : ∀ i ∈ is, i ≠ j → ¬∃ x, h.inputs[i]? = some x ∧ x.Addresses o sub)
    (ns : List Notice) :
    (h.tellEach origin is ns).sentFor o sub = h.sentFor o sub ++ (s.answerAll h origin ns).2 := by
  induction is generalizing h with
  | nil => cases hj
  | cons i is ih =>
      rw [List.nodup_cons] at his
      rw [tellEach, List.foldl_cons]
      by_cases hij : i = j
      · subst hij
        refine (sentFor_tellEach_of_not_addresses (isOpen_tellAll hopen ns) (fun k hk => ?_)
          ns).trans ?_
        · have hne : k ≠ i := fun heq => his.1 (heq ▸ hk)
          exact mt ((sameInputs_tellAll h origin i ns).addresses_iff k).mp
            (hother k (List.mem_cons_of_mem _ hk) hne)
        · exact sentFor_tellAll hopen hs ho hsub ns
      · have hmem : j ∈ is := (List.mem_cons.mp hj).resolve_left (Ne.symm hij)
        have hs' := (input_tellAll_of_ne h origin hij ns).trans hs
        refine (ih (isOpen_tellAll hopen ns) hs' his.2 hmem fun k hk hne => ?_).trans ?_
        · exact mt ((sameInputs_tellAll h origin i ns).addresses_iff k).mp
            (hother k (List.mem_cons_of_mem _ hk) hne)
        · rw [(sameOutputs_tellAll h origin i ns).answerAll,
            sentFor_tellAll_of_not_addresses hopen (hother i List.mem_cons_self hij)]

/-! ### All that is sent -/

/-- What was sent to an outlet from one hub to the next: sinks may send it, and to that outlet. -/
def Sends (h g : Hub) (o : OutletId) : Prop :=
  ∃ rs, g.sentTo o = h.sentTo o ++ rs ∧ ∀ r ∈ rs, ∃ (i : InputId) (s : SinkInput),
    h.inputs[i]? = some (.sink s) ∧ s.outlet = o ∧
      r.FromSink s.sink.subscription s.sink.encoder.limit

theorem sends_nothing {g : Hub} {o : OutletId} (hg : g.sentTo o = h.sentTo o) : h.Sends g o :=
  ⟨[], by rw [hg, List.append_nil], fun r hr => by cases hr⟩

theorem Sends.trans {g k : Hub} {o : OutletId} (hg : h.Sends g o) (hk : g.Sends k o)
    (hsame : h.SameInputs g) : h.Sends k o := by
  obtain ⟨rs, hrs, hall⟩ := hg
  obtain ⟨rs', hrs', hall'⟩ := hk
  refine ⟨rs ++ rs', by rw [hrs', hrs, List.append_assoc], fun r hr => ?_⟩
  rcases List.mem_append.mp hr with hr | hr
  · exact hall r hr
  · obtain ⟨i, s', hs', ho', hfrom⟩ := hall' r hr
    obtain ⟨s, hs, ho, hencoder⟩ := hsame.of_sink hs'
    refine ⟨i, s, hs, ho.symm.trans ho', ?_⟩
    have hsub : s'.sink.subscription = s.sink.subscription := hencoder.1
    rwa [hsub, hencoder.2.2] at hfrom

theorem sends_tell {o : OutletId} (hopen : h.IsOpen o) (n : Notice) :
    h.Sends (h.tell origin i n) o := by
  by_cases hsink : ∃ s, h.inputs[i]? = some (.sink s) ∧ s.outlet = o
  · obtain ⟨s, hs, ho⟩ := hsink
    refine ⟨(s.answer h origin n).2, ?_, fun r hr => ⟨i, s, hs, ho, ?_⟩⟩
    · rw [sentTo_tell_sink hopen hs, if_pos ho]
    · exact (SinkInput.answer_addresses h origin n s).2.2 r hr
  · refine sends_nothing ?_
    rcases hi : h.inputs[i]? with _ | (r | s)
    · rw [tell_none hi]
    · rw [tell_recorder hi]
      rfl
    · rw [sentTo_tell_sink hopen hi, if_neg fun ho => hsink ⟨s, hi, ho⟩]

theorem sends_tellAll {o : OutletId} (hopen : h.IsOpen o) (ns : List Notice) :
    h.Sends (h.tellAll origin i ns) o := by
  induction ns generalizing h with
  | nil => exact sends_nothing rfl
  | cons n ns ih =>
      exact (sends_tell hopen n).trans (ih (isOpen_tell hopen n)) (sameInputs_tell h origin i n)

theorem sends_tellEach {o : OutletId} (hopen : h.IsOpen o) (is : List InputId)
    (ns : List Notice) : h.Sends (h.tellEach origin is ns) o := by
  induction is generalizing h with
  | nil => exact sends_nothing rfl
  | cons i is ih =>
      exact (sends_tellAll hopen ns).trans (ih (isOpen_tellAll hopen ns))
        (sameInputs_tellAll h origin i ns)

end Hub

end TableFeed
