import Mathlib
import TableFeed.Proofs.RowIds.Partition
import TableFeed.Proofs.Sink.Service
/-!
The grammar of what is sent. Under a schema the initial rows come once and before any change, and
schemas may follow each other; the sink may give up at any point, and that is the end of it. A
replica that has accepted all of it so far is in the phase for what comes next.
-/

namespace TableFeed

open Wire

/-! ### The grammar -/

namespace ResponseType

open RegularExpression

/-- `ADD | CHG | REM` -/
def update : RegularExpression ResponseType := char .add + (char .change + char .remove)

/-- `SCHEMA (INIT (ADD | CHG | REM)*)?` -/
def service : RegularExpression ResponseType := char .schema * (1 + char .init * star update)

/-- `(SCHEMA (INIT (ADD | CHG | REM)*)?)*` -/
def stream : RegularExpression ResponseType := star service

example : stream.rmatch [schema, schema, init, remove, add, schema] = true := by decide

example : stream.rmatch [schema, add] = false := by decide

variable {w u : List ResponseType} {type : ResponseType}

theorem mem_update (h : type.carriesRows = true) (hinit : type ≠ .init) :
    [type] ∈ update.matches' := by
  cases type with
  | add => exact .inl rfl
  | change => exact .inr (.inl rfl)
  | remove => exact .inr (.inr rfl)
  | init => exact absurd rfl hinit
  | message | schema => cases h

theorem concat_mem_star {P : RegularExpression ResponseType} (hw : w ∈ (star P).matches')
    (hu : u ∈ P.matches') : w ++ u ∈ (star P).matches' := by
  rw [matches'_star, Language.mem_kstar] at hw ⊢
  obtain ⟨ws, rfl, hws⟩ := hw
  refine ⟨ws ++ [u], by simp, fun v hv => ?_⟩
  rcases List.mem_append.mp hv with hv | hv
  · exact hws v hv
  · exact List.mem_singleton.mp hv ▸ hu

theorem schema_mem_service : [schema] ∈ service.matches' := by
  have hempty : [] ∈ (1 + char init * star update).matches' := .inl rfl
  exact Language.mem_mul.mpr ⟨[schema], rfl, [], hempty, rfl⟩

theorem live_mem_service (hu : u ∈ (star update).matches') :
    schema :: init :: u ∈ service.matches' := by
  have hrows : init :: u ∈ (1 + char init * star update).matches' :=
    .inr (Language.mem_mul.mpr ⟨[init], rfl, u, hu, rfl⟩)
  exact Language.mem_mul.mpr ⟨[schema], rfl, init :: u, hrows, rfl⟩

def Written : Phase → List ResponseType → Prop
  | .awaitingSchema, w => w ∈ stream.matches'
  | .awaitingInit, w => ∃ v ∈ stream.matches', w = v ++ [.schema]
  | .live, w => ∃ v ∈ stream.matches', ∃ u ∈ (star update).matches', w = v ++ .schema :: .init :: u
  | .failed, w => ∃ v ∈ stream.matches', w = v ++ [.message]

theorem Written.mem_stream {p : Phase} (h : Written p w) (hp : p ≠ .failed) :
    w ∈ stream.matches' := by
  cases p with
  | awaitingSchema => exact h
  | awaitingInit =>
      obtain ⟨v, hv, rfl⟩ := h
      exact concat_mem_star hv schema_mem_service
  | live =>
      obtain ⟨v, hv, u, hu, rfl⟩ := h
      exact concat_mem_star hv (live_mem_service hu)
  | failed => exact absurd rfl hp

end ResponseType

/-! ### What has been sent -/

/-- What a sink may have sent by the time it is in a phase. -/
inductive Sent (sub : Int32) : Phase → List Response → Prop
  | nothing : Sent sub .awaitingSchema []
  | withdrawn {p : Phase} {rs : List Response} : Sent sub p rs → p ≠ .failed →
      Sent sub .awaitingSchema rs
  | schema {p : Phase} {rs : List Response} (layout : Layout) : Sent sub p rs → p ≠ .failed →
      Sent sub .awaitingInit (rs ++ [.ofSchema sub layout])
  | rows {type : ResponseType} {rs : List Response} (data : RowData)
      (carries : type.carriesRows = true) : Sent sub (Replica.phaseFor type) rs →
      Sent sub .live (rs ++ [.ofData sub type data])
  | failure {p : Phase} {rs : List Response} (text : String) : Sent sub p rs → p ≠ .failed →
      Sent sub .failed (rs ++ [.message sub 0 false text])

namespace Sent

variable {sub : Int32} {p : Phase} {rs sent : List Response}

theorem subscription_eq (h : Sent sub p rs) : ∀ r ∈ rs, r.subscription = sub := by
  induction h with
  | nothing => exact fun r hr => absurd hr List.not_mem_nil
  | withdrawn _ _ ih => exact ih
  | schema _ _ _ ih | rows _ _ _ ih | failure _ _ _ ih =>
      exact List.forall_mem_append.mpr ⟨ih, List.forall_mem_singleton.mpr rfl⟩

theorem type_ne_message (h : Sent sub p rs) (hp : p ≠ .failed) : ∀ r ∈ rs, r.type ≠ .message := by
  induction h with
  | nothing => exact fun r hr => absurd hr List.not_mem_nil
  | withdrawn _ hne ih => exact ih hne
  | schema layout _ hne ih =>
      exact List.forall_mem_append.mpr
        ⟨ih hne, List.forall_mem_singleton.mpr ResponseType.noConfusion⟩
  | @rows type _ data hcarries _ ih =>
      have hbefore := ih (by cases type <;> exact Phase.noConfusion)
      refine List.forall_mem_append.mpr ⟨hbefore, List.forall_mem_singleton.mpr ?_⟩
      rintro (rfl : type = .message)
      cases hcarries
  | failure => exact absurd rfl hp

theorem written (h : Sent sub p rs) : ResponseType.Written p (rs.map (·.type)) := by
  induction h with
  | nothing => exact Language.nil_mem_kstar _
  | withdrawn _ hp ih => exact ih.mem_stream hp
  | schema layout _ hp ih => exact ⟨_, ih.mem_stream hp, List.map_append⟩
  | @rows type rs data hcarries _ ih =>
      by_cases hinit : type = .init
      · subst hinit
        obtain ⟨v, hv, hw⟩ := ih
        refine ⟨v, hv, [], Language.nil_mem_kstar _, ?_⟩
        rw [List.map_append, hw, List.append_assoc]
        rfl
      · have hphase : Replica.phaseFor type = .live := by cases type <;> first | rfl | exact absurd rfl hinit
        rw [hphase] at ih
        obtain ⟨v, hv, u, hu, hw⟩ := ih
        refine ⟨v, hv, u ++ [type],
          ResponseType.concat_mem_star hu (ResponseType.mem_update hcarries hinit), ?_⟩
        rw [List.map_append, hw, List.append_assoc]
        rfl
  | failure text _ hp ih => exact ⟨_, ih.mem_stream hp, List.map_append⟩

theorem grammatical (h : Sent sub p rs) : ∃ served stop, rs = served ++ stop ∧
    served.map (·.type) ∈ ResponseType.stream.matches' ∧
    (stop = [] ∨ ∃ text, stop = [.message sub 0 false text]) := by
  by_cases hp : p = .failed
  · subst hp
    cases h with
    | failure text hbefore hne =>
        exact ⟨_, _, rfl, hbefore.written.mem_stream hne, .inr ⟨text, rfl⟩⟩
  · exact ⟨rs, [], (List.append_nil rs).symm, h.written.mem_stream hp, .inl rfl⟩

/-! ### Sending -/

theorem append_parts {e : Encoder} {encode : List RowId → Except Error RowData}
    {type : ResponseType}
    {rows : List RowId} (h : Parts e encode type rows rs) (htype : type.carriesRows = true)
    (hsent : Sent e.subscription (Replica.phaseFor type) sent) :
    Sent e.subscription .live (sent ++ rs) := by
  induction h generalizing sent with
  | whole hdata hfits => exact .rows _ htype hsent
  | @halves type rows head tail hhead htail ihhead ihtail =>
      -- whatever the first half is sent as, the other one goes on as what is sent to live replicas
      have hcontinued : (Encoder.continuation type).carriesRows = true ∧
          Replica.phaseFor (Encoder.continuation type) = .live := by
        cases type <;> first | exact ⟨rfl, rfl⟩ | cases htype
      rw [← List.append_assoc]
      refine ihtail hcontinued.1 ?_
      rw [hcontinued.2]
      exact ihhead htype hsent

theorem encodeRows {e : Encoder} {sheet : Sheet} {type : ResponseType} {rows : List RowId}
    (h : e.encodeRows sheet type rows = .ok rs) (htype : type.carriesRows = true)
    (hsent : Sent e.subscription (Replica.phaseFor type) sent) :
    Sent e.subscription .live (sent ++ rs) := by
  rw [Encoder.encodeRows] at h
  split at h
  · cases h
  · exact append_parts (Encoder.parts_of_split h) htype hsent

theorem encodeChange {e : Encoder} {sheet : Sheet} {rows : List RowId} {changed : FieldSet}
    (h : e.encodeChange sheet rows changed = .ok rs) (hsent : Sent e.subscription .live sent) :
    Sent e.subscription .live (sent ++ rs) := by
  have hnone : Sent e.subscription .live (sent ++ []) := by rwa [List.append_nil]
  rw [Encoder.encodeChange] at h
  split at h
  · cases h
    exact hnone
  · dsimp only at h
    split at h
    · cases h
      exact hnone
    · exact append_parts (Encoder.parts_of_split h) rfl hsent

/-- Sending what was encoded, or giving up. -/
theorem send {s : Sink} {x : Except Error (List Response)}
    (hx : ∀ rs, x = .ok rs → Sent s.subscription s.phase (sent ++ rs))
    (hsent : Sent s.subscription p sent) (hp : p ≠ .failed) :
    Sent s.subscription (s.send x).1.phase (sent ++ (s.send x).2) := by
  cases x with
  | error e => exact .failure _ hsent hp
  | ok rs => exact hx rs rfl

theorem hearSchema {s : Sink} (hsent : Sent s.subscription s.phase sent) (hp : s.phase ≠ .failed)
    (rows : Nat) (sheet : Sheet) (schema : Schema) :
    Sent s.subscription (s.hearSchema rows sheet schema).1.phase
      (sent ++ (s.hearSchema rows sheet schema).2) := by
  rw [Sink.hearSchema]
  split
  · exact .failure _ hsent hp
  next e response hadopt =>
    obtain ⟨ids, -, rfl, rfl⟩ := Encoder.adopt_eq hadopt
    have hschema := Sent.schema ⟨schema.name, ids.filterMap schema.field?⟩ hsent hp
    split
    · rw [List.append_cons]
      refine Sent.send (s := { s with encoder := { s.encoder with projection := some ids },
                                      phase := .live })
        (fun rs hrs => ?_) hschema Phase.noConfusion
      exact Sent.encodeRows hrs rfl hschema
    · exact hschema

theorem hear {s : Sink} (hsent : Sent s.subscription s.phase sent) (rows : Nat) (sheet : Sheet)
    (n : Notice) :
    Sent s.subscription (s.hear rows sheet n).1.phase (sent ++ (s.hear rows sheet n).2) := by
  have hnone : Sent s.subscription s.phase (sent ++ []) := by rwa [List.append_nil]
  unfold Sink.hear
  split
  · exact hnone
  · exact hnone
  next hfailed =>
    rw [List.append_nil]
    exact .withdrawn hsent hfailed
  next hfailed => exact hsent.hearSchema hfailed rows sheet _
  next added hphase =>
    rw [hphase] at hsent
    exact send (s := { s with phase := .live }) (fun rs hrs => encodeRows hrs rfl hsent) hsent
      Phase.noConfusion
  next added hphase =>
    refine send (fun rs hrs => ?_) (hphase ▸ hsent) Phase.noConfusion
    rw [hphase] at hsent ⊢
    exact encodeRows hrs rfl hsent
  next changed fields hphase =>
    refine send (fun rs hrs => ?_) (hphase ▸ hsent) Phase.noConfusion
    rw [hphase] at hsent ⊢
    exact encodeChange hrs hsent
  next removed hphase =>
    refine send (fun rs hrs => ?_) (hphase ▸ hsent) Phase.noConfusion
    rw [hphase] at hsent ⊢
    exact append_parts (Encoder.parts_of_split hrs) rfl hsent
  · exact hnone

/-! ### Prefixes -/

theorem of_append {rest : List Response} (h : Sent sub p (rs ++ rest)) : ∃ q, Sent sub q rs := by
  -- the prefix is all that was sent, or it is one of what was sent before the last response
  have hconcat : ∀ {l : List Response} {x : Response} {q : Phase}, Sent sub q (l ++ [x]) →
      (∀ rest, rs ++ rest = l → ∃ q, Sent sub q rs) →
      ∀ rest, rs ++ rest = l ++ [x] → ∃ q, Sent sub q rs := by
    intro l x q hl ih rest heq
    rcases List.eq_nil_or_concat rest with rfl | ⟨rest, y, rfl⟩
    · rw [List.append_nil] at heq
      exact ⟨q, heq ▸ hl⟩
    · rw [List.concat_eq_append, ← List.append_assoc] at heq
      exact ih rest (List.append_inj_left' heq rfl)
  generalize hl : rs ++ rest = l at h
  induction h generalizing rest with
  | nothing =>
      obtain ⟨rfl, -⟩ := List.append_eq_nil_iff.mp hl
      exact ⟨_, .nothing⟩
  | withdrawn _ _ ih => exact ih hl
  | schema layout hbefore hp ih => exact hconcat (.schema layout hbefore hp) (fun _ => ih) _ hl
  | rows data hcarries hbefore ih => exact hconcat (.rows data hcarries hbefore) (fun _ => ih) _ hl
  | failure text hbefore hp ih => exact hconcat (.failure text hbefore hp) (fun _ => ih) _ hl

/-- Rows are sent in the phase that they are for. -/
theorem of_rows {x : Response} (h : Sent sub p (rs ++ [x])) (hx : x.type.carriesRows = true) :
    (∃ data, x = .ofData sub x.type data) ∧ Sent sub (Replica.phaseFor x.type) rs := by
  generalize hl : rs ++ [x] = l at h
  induction h with
  | nothing => cases (List.append_eq_nil_iff.mp hl).2
  | withdrawn _ _ ih => exact ih hl
  | schema =>
      obtain ⟨-, hsame⟩ := List.append_inj' hl rfl
      cases hsame
      cases hx
  | rows data _ hbefore =>
      obtain ⟨rfl, hsame⟩ := List.append_inj' hl rfl
      cases hsame
      exact ⟨⟨data, rfl⟩, hbefore⟩
  | failure =>
      obtain ⟨-, hsame⟩ := List.append_inj' hl rfl
      cases hsame
      cases hx

end Sent

/-! ### Accepting -/

namespace Replica

variable {sub : Int32} {p : Phase} {rs : List Response} {r r' : Replica}

def acceptAll : List Response → Replica → Option Replica
  | [], r => some r
  | response :: rs, r =>
    match r.accept response with
    | (r, _, .ok ()) => r.acceptAll rs
    | (_, _, .error _) => none

theorem acceptAll_concat {response : Response} (h : r.acceptAll (rs ++ [response]) = some r') :
    ∃ before, r.acceptAll rs = some before ∧ (before.accept response).2.2 = .ok () ∧
      (before.accept response).1 = r' := by
  induction rs generalizing r with
  | nil =>
      rw [List.nil_append, acceptAll] at h
      split at h
      next haccept =>
        cases h
        exact ⟨r, rfl, by rw [haccept], by rw [haccept]⟩
      · cases h
  | cons first rs ih =>
      rw [List.cons_append, acceptAll] at h
      rw [acceptAll]
      split at h
      next haccept => exact ih h
      · cases h

theorem accept_other {response : Response} (hsub : r.subscription ≠ response.subscription) :
    r.accept response = r.refuse (.unknownSubscription response.subscription) :=
  if_pos hsub.symm

theorem subscription_of_accept {response : Response} (h : (r.accept response).2.2 = .ok ()) :
    r.subscription = response.subscription := by
  by_contra hsub
  rw [accept_other hsub] at h
  cases h

theorem accept_ofSchema (hsub : r.subscription = sub) (layout : Layout) :
    r.accept (.ofSchema sub layout) = r.acceptSchema (some layout) :=
  if_neg (not_not_intro hsub.symm)

theorem accept_failure (hsub : r.subscription = sub) (token : Int64) (text : String) :
    r.accept (.message sub token false text) = ({ r with phase := .failed }, [], .ok ()) :=
  if_neg (not_not_intro hsub.symm)

theorem accept_ofData (hsub : r.subscription = sub) {type : ResponseType}
    (hcarries : type.carriesRows = true) (data : RowData) :
    r.accept (.ofData sub type data) = r.acceptData type (some data) := by
  cases type <;> first | exact if_neg (not_not_intro hsub.symm) | cases hcarries

theorem phase_acceptSchema {layout : Layout} (h : (r.acceptSchema (some layout)).2.2 = .ok ()) :
    (r.acceptSchema (some layout)).1.phase = .awaitingInit := by
  rw [acceptSchema] at h ⊢
  dsimp only at h ⊢
  split at h
  · cases h
  · rfl

theorem phase_acceptRows {type : ResponseType} {sheet : Sheet} {d : RowData}
    (h : (r.acceptRows type sheet d).2.2 = .ok ()) :
    (r.acceptRows type sheet d).1.phase = .live := by
  rw [acceptRows] at h ⊢
  split at h
  · cases h
  · split at h
    · cases h
    · dsimp only at h ⊢
      split at h
      · cases h
      · rfl

theorem phase_acceptData {type : ResponseType} {data : Option RowData}
    (hphase : r.phase = phaseFor type) (h : (r.acceptData type data).2.2 = .ok ()) :
    (r.acceptData type data).1.phase = .live := by
  have hfailed : r.phase ≠ .failed := by
    rw [hphase]
    cases type <;> exact Phase.noConfusion
  rw [acceptData.eq_def, if_neg hfailed, if_neg (not_not_intro hphase)] at h ⊢
  split at h
  · cases h
  · cases h
  · exact phase_acceptRows h

theorem isViolation_applyRows {type : ResponseType} {rows : List RowId} {sheet : Sheet}
    {batch : Batch} {e : Error} (h : (applyRows type rows r sheet batch).2.2 = .error e) :
    e.isViolation = false := by
  induction rows generalizing r sheet batch with
  | nil => cases h
  | cons row rows ih =>
      rw [applyRows.eq_def] at h
      dsimp only at h
      split at h
      · split at h
        next herr =>
          cases h
          obtain ⟨-, rfl⟩ := RowIds.release_eq_error.mp herr
          rfl
        · exact ih h
      · split at h
        next herr =>
          cases h
          obtain ⟨-, -, rfl⟩ := RowIds.claim_eq_error.mp herr
          rfl
        · exact ih h
      · split at h
        next herr =>
          cases h
          obtain ⟨-, -, rfl⟩ := RowIds.claim_eq_error.mp herr
          rfl
        · exact ih h
      · exact ih h

/-- Rows that come in their phase are not rejected for it. -/
theorem acceptRows_inPhase {type t : ResponseType} {sheet : Sheet} {d : RowData} {id : Int32} :
    (r.acceptRows type sheet d).2.2 ≠ .error (.protocolViolation id (.outOfPhase t p)) := by
  intro h
  rw [acceptRows] at h
  split at h
  next e hshape =>
    cases h
    rcases r.settles_checkShape type sheet d with ⟨-, hok⟩ | ⟨-, e, herr, he⟩
    · cases hok.symm.trans hshape
    · cases herr.symm.trans hshape
      cases he
  · split at h
    next fault hfault =>
      cases h
      rw [conflict, Option.map_eq_some_iff] at hfault
      obtain ⟨row, -, heq⟩ := hfault
      split at heq <;> cases heq
    · dsimp only at h
      split at h
      next e happly =>
        cases h
        rw [apply] at happly
        dsimp only at happly
        split at happly
        next herr =>
          cases happly
          cases isViolation_applyRows herr
        · cases happly
      · cases h

theorem acceptData_inPhase {type t : ResponseType} {data : Option RowData} {id : Int32}
    (hphase : r.phase = phaseFor type) :
    (r.acceptData type data).2.2 ≠ .error (.protocolViolation id (.outOfPhase t p)) := by
  intro h
  rw [acceptData.eq_def, if_neg (not_not_intro hphase)] at h
  split at h
  · cases h
  · split at h
    · cases h
    · cases h
    · exact acceptRows_inPhase h

theorem acceptAll_phase (h : Sent sub p rs) (hr : r.acceptAll rs = some r')
    (hp : p ≠ .awaitingSchema) : r'.phase = p := by
  induction h generalizing r' with
  | nothing | withdrawn => exact absurd rfl hp
  | schema layout _ _ _ =>
      obtain ⟨before, -, hok, rfl⟩ := acceptAll_concat hr
      have hsub : before.subscription = sub := subscription_of_accept hok
      rw [accept_ofSchema hsub] at hok ⊢
      exact phase_acceptSchema hok
  | @rows type _ data hcarries _ ih =>
      obtain ⟨before, hbefore, hok, rfl⟩ := acceptAll_concat hr
      have hsub : before.subscription = sub := subscription_of_accept hok
      have hdue := ih hbefore (by cases type <;> exact Phase.noConfusion)
      rw [accept_ofData hsub hcarries] at hok ⊢
      exact phase_acceptData hdue hok
  | failure text _ _ _ =>
      obtain ⟨before, -, hok, rfl⟩ := acceptAll_concat hr
      have hsub : before.subscription = sub := subscription_of_accept hok
      rw [accept_failure hsub]

/-- What is accepted up to rows is followed by rows that come in their phase. -/
theorem accept_inPhase {x : Response} {rest : List Response} (h : Sent sub p (rs ++ x :: rest))
    (hx : x.type.carriesRows = true) (hr : r.acceptAll rs = some r') (id : Int32)
    (t : ResponseType) (q : Phase) :
    (r'.accept x).2.2 ≠ .error (.protocolViolation id (.outOfPhase t q)) := by
  rw [List.append_cons] at h
  obtain ⟨_, hprefix⟩ := h.of_append
  obtain ⟨⟨data, heq⟩, hbefore⟩ := hprefix.of_rows hx
  have hdue : r'.phase = phaseFor x.type :=
    acceptAll_phase hbefore hr (by cases x.type <;> exact Phase.noConfusion)
  by_cases hsub : r'.subscription = sub
  · rw [heq, accept_ofData hsub hx]
    exact acceptData_inPhase hdue
  · have hother : r'.subscription ≠ x.subscription := by
      rw [heq]
      exact hsub
    rw [accept_other hother]
    rintro ⟨⟩

end Replica

/-! ### Callbacks -/

structure Callback where
  sourceRows : Nat
  sheet : Sheet
  notice : Notice

namespace Sink

variable {s : Sink} {c : Callback} {rs : List Response} {e : Error}

def take (s : Sink) (c : Callback) : Sink × List Response :=
  s.hear c.sourceRows c.sheet c.notice

def takeAll : List Callback → Sink → Sink × List Response
  | [], s => (s, [])
  | c :: cs, s =>
    let (s, first) := s.take c
    let (s, rest) := takeAll cs s
    (s, first ++ rest)

/-- The encoding of the rows that a callback has to be answered with. A schema is resolved for it
even if it has none. -/
def encoding (s : Sink) (c : Callback) : Except Error (List Response) :=
  match c.notice, s.phase with
  | .schema (some _), .failed => .ok []
  | .schema (some schema), _ => do
    let (encoder, _) ← s.encoder.adopt schema
    if c.sourceRows = 0 then encoder.encodeRows c.sheet .init [] else .ok []
  | .added rows, .awaitingInit => s.encoder.encodeRows c.sheet .init rows
  | .added rows, .live => s.encoder.encodeRows c.sheet .add rows
  | .changed rows fields, .live => s.encoder.encodeChange c.sheet rows fields
  | .removed rows, .live => s.encoder.encodeRemove rows
  | _, _ => .ok []

/-- What an encoding leads to: all of it is sent, or none of it and the reason. -/
structure AllOrNothing (x : Except Error (List Response)) (y : Sink × List Response) : Prop where
  all : ∀ rs, x = .ok rs → y.2.filter (·.type.carriesRows) = rs
  nothing : ∀ e, x = .error e → y.1.phase = .failed ∧
    y.2.getLast? = some (.message y.1.subscription 0 false e.message) ∧
    y.2.filter (·.type.carriesRows) = []

def Carries (x : Except Error (List Response)) : Prop :=
  ∀ rs, x = .ok rs → ∀ r ∈ rs, r.type.carriesRows = true

theorem carries_nothing : Carries (.ok []) := by
  rintro _ ⟨⟩ r hr
  cases hr

theorem carries_split {enc : Encoder} {encode : List RowId → Except Error RowData}
    {type : ResponseType} (htype : type.carriesRows = true) (rows : List RowId) :
    Carries (enc.split encode type rows) := by
  intro rs hrs
  replace hrs := Encoder.parts_of_split hrs
  induction hrs with
  | whole => exact fun r hr => List.mem_singleton.mp hr ▸ htype
  | @halves type _ _ _ _ _ ihhead ihtail =>
      have hcontinued : (Encoder.continuation type).carriesRows = true := by
        cases type <;> first | rfl | cases htype
      intro r hr
      rcases List.mem_append.mp hr with hr | hr
      · exact ihhead htype r hr
      · exact ihtail hcontinued r hr

theorem carries_encodeRows (enc : Encoder) (sheet : Sheet) {type : ResponseType}
    (htype : type.carriesRows = true) (rows : List RowId) :
    Carries (enc.encodeRows sheet type rows) := by
  rw [Encoder.encodeRows]
  split
  · rintro _ ⟨⟩
  · exact carries_split htype rows

theorem carries_encodeChange (enc : Encoder) (sheet : Sheet) (rows : List RowId)
    (changed : FieldSet) : Carries (enc.encodeChange sheet rows changed) := by
  rw [Encoder.encodeChange]
  split
  · exact carries_nothing
  · dsimp only
    split
    · exact carries_nothing
    · exact carries_split rfl rows

theorem allOrNothing_fail (s : Sink) (e : Error) : AllOrNothing (.error e) (s.fail e) := by
  refine ⟨by rintro _ ⟨⟩, ?_⟩
  rintro _ ⟨⟩
  exact ⟨rfl, rfl, rfl⟩

theorem allOrNothing_send (s : Sink) {x : Except Error (List Response)} (hx : Carries x) :
    AllOrNothing x (s.send x) := by
  cases x with
  | error e => exact s.allOrNothing_fail e
  | ok rs =>
      refine ⟨?_, by rintro _ ⟨⟩⟩
      rintro _ ⟨⟩
      exact List.filter_eq_self.mpr (hx rs rfl)

theorem allOrNothing_none (s : Sink) : AllOrNothing (.ok []) (s, []) :=
  s.allOrNothing_send carries_nothing

/-- A response without rows ahead of an answer. -/
theorem AllOrNothing.cons {x : Except Error (List Response)} {y : Sink × List Response}
    {r : Response} (h : AllOrNothing x y) (hr : r.type.carriesRows = false) :
    AllOrNothing x (y.1, r :: y.2) := by
  have hfilter : (r :: y.2).filter (·.type.carriesRows) = y.2.filter (·.type.carriesRows) :=
    List.filter_cons_of_neg (by simp [hr])
  refine ⟨fun rs hrs => hfilter.trans (h.all rs hrs), fun e he => ?_⟩
  obtain ⟨hfailed, hlast, hnone⟩ := h.nothing e he
  exact ⟨hfailed, by rw [List.getLast?_cons, hlast]; rfl, hfilter.trans hnone⟩

theorem allOrNothing_hearSchema (s : Sink) (hs : s.phase ≠ .failed) (rows : Nat) (sheet : Sheet)
    (schema : Schema) : AllOrNothing (s.encoding ⟨rows, sheet, .schema (some schema)⟩)
      (s.hearSchema rows sheet schema) := by
  have hencoding : s.encoding ⟨rows, sheet, .schema (some schema)⟩ = (do
      let (encoder, _) ← s.encoder.adopt schema
      if rows = 0 then encoder.encodeRows sheet .init [] else .ok []) := by
    obtain ⟨encoder, phase⟩ := s
    cases phase <;> first | rfl | exact absurd rfl hs
  rw [hencoding, hearSchema]
  cases hadopt : s.encoder.adopt schema with
  | error e => exact s.allOrNothing_fail e
  | ok adopted =>
      obtain ⟨encoder, response⟩ := adopted
      obtain ⟨ids, -, rfl, rfl⟩ := Encoder.adopt_eq hadopt
      show AllOrNothing (if rows = 0 then _ else _) _
      dsimp only
      split
      · exact (allOrNothing_send _ (carries_encodeRows _ sheet rfl [])).cons rfl
      · exact (allOrNothing_none _).cons rfl

theorem allOrNothing_take (s : Sink) (c : Callback) : AllOrNothing (s.encoding c) (s.take c) := by
  obtain ⟨rows, sheet, n⟩ := c
  obtain ⟨encoder, phase⟩ := s
  cases n with
  | source attached => exact allOrNothing_none _
  | schema schema =>
      cases schema with
      | none => cases phase <;> exact allOrNothing_none _
      | some schema =>
          by_cases hs : phase = .failed
          · subst hs
            exact allOrNothing_none _
          · have htake : take ⟨encoder, phase⟩ ⟨rows, sheet, .schema (some schema)⟩ =
                hearSchema ⟨encoder, phase⟩ rows sheet schema := by
              cases phase <;> first | rfl | exact absurd rfl hs
            rw [htake]
            exact allOrNothing_hearSchema _ hs rows sheet schema
  | added added =>
      cases phase with
      | awaitingInit => exact allOrNothing_send _ (carries_encodeRows _ sheet rfl added)
      | live => exact allOrNothing_send _ (carries_encodeRows _ sheet rfl added)
      | awaitingSchema | failed => exact allOrNothing_none _
  | changed changed fields =>
      cases phase with
      | live => exact allOrNothing_send _ (carries_encodeChange _ sheet changed fields)
      | awaitingSchema | awaitingInit | failed => exact allOrNothing_none _
  | removed removed =>
      cases phase with
      | live => exact allOrNothing_send _ (carries_split rfl removed)
      | awaitingSchema | awaitingInit | failed => exact allOrNothing_none _

/-! ### Runs -/

theorem takeAll_append (cs cs' : List Callback) (s : Sink) :
    s.takeAll (cs ++ cs') =
      let first := s.takeAll cs
      let rest := first.1.takeAll cs'
      (rest.1, first.2 ++ rest.2) := by
  induction cs generalizing s with
  | nil => rfl
  | cons c cs ih =>
      rw [List.cons_append, takeAll, takeAll]
      dsimp only
      rw [ih, List.append_assoc]

theorem takeAll_of_failed (hs : s.phase = .failed) (cs : List Callback) :
    s.takeAll cs = (s, []) := by
  induction cs with
  | nil => rfl
  | cons c cs ih =>
      rw [takeAll, take, hear_of_failed _ _ hs]
      dsimp only
      rw [ih]
      rfl

end Sink

theorem Sent.takeAll {s : Sink} {sent : List Response} (hsent : Sent s.subscription s.phase sent)
    (cs : List Callback) :
    Sent s.subscription (s.takeAll cs).1.phase (sent ++ (s.takeAll cs).2) := by
  induction cs generalizing s sent with
  | nil =>
      rw [Sink.takeAll, List.append_nil]
      exact hsent
  | cons c cs ih =>
      have hfirst := hsent.hear c.sourceRows c.sheet c.notice
      rw [← Sink.subscription_hear s c.sourceRows c.sheet c.notice] at hfirst ⊢
      rw [Sink.takeAll]
      dsimp only
      rw [← List.append_assoc]
      exact ih hfirst

/-- What a sink sends is for its subscription and in the grammar, up to one failure at the end. A
callback is answered with all rows that it calls for or with none. -/
theorem Sink.sends_stream (sub : Int32) (requested : Option (List String)) (limit : Nat)
    (cs : List Callback) :
    let s := create sub requested limit
    let sent := (s.takeAll cs).2
    (∀ r ∈ sent, r.subscription = sub) ∧
      (∃ served stop, sent = served ++ stop ∧
        served.map (·.type) ∈ ResponseType.stream.matches' ∧
        (stop = [] ∨ ∃ text, stop = [.message sub 0 false text])) ∧
      (∀ before later, cs = before ++ later → (∃ r ∈ (s.takeAll before).2, r.type = .message) →
        sent = (s.takeAll before).2) ∧
      (∀ before c later, cs = before ++ c :: later →
        AllOrNothing ((s.takeAll before).1.encoding c) ((s.takeAll before).1.take c)) ∧
      ∀ (r r' : Replica) before x later, sent = before ++ x :: later →
        x.type.carriesRows = true → r.acceptAll before = some r' →
        ∀ id t p, (r'.accept x).2.2 ≠ .error (.protocolViolation id (.outOfPhase t p)) := by
  intro s sent
  have hall : ∀ cs, Sent sub (s.takeAll cs).1.phase (s.takeAll cs).2 := fun cs =>
    Sent.takeAll (s := s) .nothing cs
  refine ⟨(hall cs).subscription_eq, (hall cs).grammatical, ?_,
    fun before c later _ => allOrNothing_take .., ?_⟩
  · rintro before later rfl ⟨r, hr, hmessage⟩
    have hfailed : (s.takeAll before).1.phase = .failed := by
      by_contra hne
      exact (hall before).type_ne_message hne r hr hmessage
    show (s.takeAll (before ++ later)).2 = _
    rw [takeAll_append]
    dsimp only
    rw [takeAll_of_failed hfailed, List.append_nil]
  · intro r r' before x later hsent hx hr
    have hstream := hall cs
    rw [show (s.takeAll cs).2 = before ++ x :: later from hsent] at hstream
    exact Replica.accept_inPhase hstream hx hr

end TableFeed
