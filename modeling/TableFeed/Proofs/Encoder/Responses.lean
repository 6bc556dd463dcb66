import Mathlib
import TableFeed.Proofs.Replica.MessageShape
import TableFeed.Sink

/-!
What encoders and sinks send. A batch is sent whole or as the parts of its halves, and everything
that a sink sends is for its own subscription: a schema, rows that fit a frame, or why it gives up.
-/

namespace TableFeed

open Wire

/-- How a batch of rows may be spread over responses. The first response has the type of the batch,
the others continue it. -/
inductive Parts (e : Encoder) (encode : List RowId → Except Error RowData) :
    ResponseType → List RowId → List Response → Prop
  | whole {type : ResponseType} {rows : List RowId} {data : RowData} :
      encode rows = .ok data → responseLength (.ofData e.subscription type data) ≤ e.limit →
      Parts e encode type rows [.ofData e.subscription type data]
  | halves {type : ResponseType} {rows : List RowId} {head tail : List Response} :
      Parts e encode type (rows.take (rows.length / 2)) head →
      Parts e encode (Encoder.continuation type) (rows.drop (rows.length / 2)) tail →
      Parts e encode type rows (head ++ tail)

namespace Encoder

theorem parts_of_split {e : Encoder} {encode : List RowId → Except Error RowData}
    {type : ResponseType} {rows : List RowId} {rs : List Response}
    (h : e.split encode type rows = .ok rs) : Parts e encode type rows rs := by
  induction hn : rows.length using Nat.strong_induction_on generalizing type rows rs with
  | _ n ih =>
      subst hn
      rw [split] at h
      split at h
      · cases h
      next data hdata =>
        dsimp only at h
        split at h
        · next hfits =>
          cases h
          exact .whole hdata hfits
        · split at h
          · cases h
          next hlong =>
            cases hhead : e.split encode type (rows.take (rows.length / 2)) with
            | error err =>
                rw [hhead] at h
                cases h
            | ok head =>
                cases htail : e.split encode (continuation type) (rows.drop (rows.length / 2)) with
                | error err =>
                    rw [hhead, htail] at h
                    cases h
                | ok tail =>
                    rw [hhead, htail] at h
                    cases h
                    refine .halves (ih _ ?_ hhead rfl) (ih _ ?_ htail rfl)
                    · rw [List.length_take]
                      omega
                    · rw [List.length_drop]
                      omega

end Encoder

inductive Response.FromSink (sub : Int32) (limit : Nat) : Response → Prop
  | schema (layout : Layout) : FromSink sub limit (.ofSchema sub layout)
  | rows {type : ResponseType} {data : RowData} (carries : type.carriesRows = true)
      (fits : responseLength (.ofData sub type data) ≤ limit) :
      FromSink sub limit (.ofData sub type data)
  | failure {e : Error} (he : e.isViolation = false) :
      FromSink sub limit (.message sub 0 false e.message)

theorem Response.FromSink.subscription_eq {sub : Int32} {limit : Nat} {r : Response}
    (h : r.FromSink sub limit) : r.subscription = sub := by
  cases h <;> rfl

theorem Parts.fromSink {e : Encoder} {encode : List RowId → Except Error RowData}
    {type : ResponseType} {rows : List RowId} {rs : List Response} (h : Parts e encode type rows rs)
    (htype : type.carriesRows = true) : ∀ r ∈ rs, r.FromSink e.subscription e.limit := by
  induction h with
  | whole hdata hfits =>
      intro r hr
      rw [List.mem_singleton.mp hr]
      exact .rows htype hfits
  | @halves type rows head tail hhead htail ihhead ihtail =>
      have hcontinued : (Encoder.continuation type).carriesRows = true := by
        cases type <;> first | rfl | exact htype
      intro r hr
      rcases List.mem_append.mp hr with hr | hr
      · exact ihhead htype r hr
      · exact ihtail hcontinued r hr

namespace Encoder

theorem adopt_eq {e e' : Encoder} {schema : Schema} {r : Response}
    (h : e.adopt schema = .ok (e', r)) : ∃ ids, e.resolve schema = .ok ids ∧
      e' = { e with projection := some ids } ∧
      r = .ofSchema e.subscription ⟨schema.name, ids.filterMap schema.field?⟩ := by
  rw [adopt] at h
  cases hids : e.resolve schema with
  | error err =>
      rw [hids] at h
      cases h
  | ok ids =>
      rw [hids] at h
      cases h
      exact ⟨ids, rfl, rfl, rfl⟩

/-! ### Failing -/

def Blameless {α : Type} (x : Except Error α) : Prop := ∀ e, x = .error e → e.isViolation = false

theorem blameless_ok {α : Type} (a : α) : Blameless (.ok a) := fun _ h => by cases h

theorem blameless_error {α : Type} {e : Error} (he : e.isViolation = false) :
    Blameless (.error e : Except Error α) := fun err h => by
  cases h
  exact he

theorem Blameless.bind {α β : Type} {x : Except Error α} {f : α → Except Error β}
    (hx : Blameless x) (hf : ∀ a, Blameless (f a)) : Blameless (x >>= f) := by
  cases x with
  | error e => exact blameless_error (hx e rfl)
  | ok a => exact hf a

theorem blameless_resolve (e : Encoder) (schema : Schema) : Blameless (e.resolve schema) := by
  have hrequire : ∀ name, Blameless (schema.require name) := by
    intro name
    rw [Schema.require]
    split
    · exact blameless_ok _
    · exact blameless_error rfl
  rw [resolve]
  split
  · exact blameless_ok _
  next names hnames =>
    clear hnames
    induction names with
    | nil => exact blameless_ok []
    | cons name names ih =>
        rw [List.mapM_cons]
        exact (hrequire name).bind fun id => ih.bind fun ids => blameless_ok _

theorem blameless_adopt (e : Encoder) (schema : Schema) : Blameless (e.adopt schema) :=
  (e.blameless_resolve schema).bind fun _ => blameless_ok _

theorem blameless_gather (sheet : Sheet) (rows : List RowId) (fields : List (FieldId × Nat)) :
    Blameless (gather sheet rows fields) := by
  rw [gather]
  generalize ({ rows := rows } : RowData) = d
  induction fields generalizing d with
  | nil => exact blameless_ok d
  | cons f fields ih =>
      rw [List.foldlM_cons]
      refine Blameless.bind ?_ fun d => ih d
      dsimp only
      split
      · exact blameless_error rfl
      · exact blameless_ok _

theorem blameless_split {e : Encoder} {encode : List RowId → Except Error RowData}
    (hencode : ∀ rows, Blameless (encode rows)) (type : ResponseType) (rows : List RowId) :
    Blameless (e.split encode type rows) := by
  induction hn : rows.length using Nat.strong_induction_on generalizing type rows with
  | _ n ih =>
      subst hn
      rw [split]
      split
      next err herr => exact blameless_error (hencode rows err herr)
      next data hdata =>
        dsimp only
        split
        · exact blameless_ok _
        · split
          · exact blameless_error rfl
          next hlong =>
            refine Blameless.bind (ih _ ?_ type _ rfl) fun head =>
              Blameless.bind (ih _ ?_ _ _ rfl) fun tail => blameless_ok _
            · rw [List.length_take]
              omega
            · rw [List.length_drop]
              omega

/-! ### Encoding -/

/-- What an encoder gives: responses that a sink may send, or a blameless failure. -/
def Gives (e : Encoder) (x : Except Error (List Response)) : Prop :=
  (∀ rs, x = .ok rs → ∀ r ∈ rs, r.FromSink e.subscription e.limit) ∧ Blameless x

theorem gives_nothing (e : Encoder) : e.Gives (.ok []) := by
  refine ⟨fun rs h r hr => ?_, blameless_ok []⟩
  cases h
  cases hr

theorem gives_split {e : Encoder} {encode : List RowId → Except Error RowData}
    (hencode : ∀ rows, Blameless (encode rows)) {type : ResponseType}
    (htype : type.carriesRows = true) (rows : List RowId) : e.Gives (e.split encode type rows) :=
  ⟨fun _ h => (parts_of_split h).fromSink htype, blameless_split hencode type rows⟩

theorem gives_encodeRows (e : Encoder) (sheet : Sheet) {type : ResponseType}
    (htype : type.carriesRows = true) (rows : List RowId) :
    e.Gives (e.encodeRows sheet type rows) := by
  rw [encodeRows]
  split
  · refine ⟨fun rs h => ?_, blameless_error rfl⟩
    cases h
  · exact gives_split (fun rows => blameless_gather sheet rows _) htype rows

theorem gives_encodeChange (e : Encoder) (sheet : Sheet) (rows : List RowId) (changed : FieldSet) :
    e.Gives (e.encodeChange sheet rows changed) := by
  rw [encodeChange]
  split
  · exact e.gives_nothing
  · dsimp only
    split
    · exact e.gives_nothing
    · exact gives_split (fun rows => blameless_gather sheet rows _) rfl rows

theorem gives_encodeRemove (e : Encoder) (rows : List RowId) : e.Gives (e.encodeRemove rows) :=
  gives_split (fun _ => blameless_ok _) rfl rows

/-- Encoders that differ at most in the schema they have adopted. -/
def Same (e e' : Encoder) : Prop :=
  e'.subscription = e.subscription ∧ e'.requested = e.requested ∧ e'.limit = e.limit

theorem Same.refl (e : Encoder) : e.Same e := ⟨rfl, rfl, rfl⟩

theorem Same.trans {e e' e'' : Encoder} (h : e.Same e') (h' : e'.Same e'') : e.Same e'' :=
  ⟨h'.1.trans h.1, h'.2.1.trans h.2.1, h'.2.2.trans h.2.2⟩

end Encoder

/-! ### Sinks -/

namespace Sink

/-- A sink that goes on asking for what encoder `e` asks for, and responses that it may send. -/
def Speaks (e : Encoder) (x : Sink × List Response) : Prop :=
  e.Same x.1.encoder ∧ ∀ r ∈ x.2, r.FromSink e.subscription e.limit

theorem speaks_nothing {e : Encoder} {s : Sink} (h : e.Same s.encoder) : Speaks e (s, []) :=
  ⟨h, fun _ hr => by cases hr⟩

theorem speaks_fail (s : Sink) {err : Error} (herr : err.isViolation = false) :
    Speaks s.encoder (s.fail err) := by
  refine ⟨.refl _, fun r hr => ?_⟩
  rw [List.mem_singleton.mp hr]
  exact .failure herr

theorem speaks_send (s : Sink) {x : Except Error (List Response)} (h : s.encoder.Gives x) :
    Speaks s.encoder (s.send x) := by
  cases x with
  | error err => exact s.speaks_fail (h.2 err rfl)
  | ok rs => exact ⟨.refl _, h.1 rs rfl⟩

theorem speaks_hearSchema (s : Sink) (rows : Nat) (sheet : Sheet) (schema : Schema) :
    Speaks s.encoder (s.hearSchema rows sheet schema) := by
  rw [hearSchema]
  split
  next err hadopt => exact s.speaks_fail (s.encoder.blameless_adopt schema err hadopt)
  next e' r hadopt =>
    obtain ⟨ids, -, rfl, rfl⟩ := Encoder.adopt_eq hadopt
    split
    · obtain ⟨e, he⟩ : ∃ e, e = { s.encoder with projection := some ids } := ⟨_, rfl⟩
      have hgives : e.Gives (e.encodeRows sheet .init []) := e.gives_encodeRows sheet rfl []
      obtain ⟨hsame, hsent⟩ := speaks_send ⟨e, .live⟩ hgives
      rw [he] at hsame hsent
      refine ⟨hsame, fun r hr => ?_⟩
      rcases List.mem_cons.mp hr with rfl | hr
      · exact .schema _
      · exact hsent r hr
    · refine ⟨⟨rfl, rfl, rfl⟩, fun r hr => ?_⟩
      rw [List.mem_singleton.mp hr]
      exact .schema _

theorem speaks_hear (s : Sink) (rows : Nat) (sheet : Sheet) (n : Notice) :
    Speaks s.encoder (s.hear rows sheet n) := by
  unfold hear
  split
  · exact speaks_nothing (.refl _)
  · exact speaks_nothing (.refl _)
  · exact speaks_nothing ⟨rfl, rfl, rfl⟩
  · exact s.speaks_hearSchema ..
  · exact speaks_send { s with phase := .live } (s.encoder.gives_encodeRows sheet rfl _)
  · exact s.speaks_send (s.encoder.gives_encodeRows sheet rfl _)
  · exact s.speaks_send (s.encoder.gives_encodeChange ..)
  · exact s.speaks_send (s.encoder.gives_encodeRemove _)
  · exact speaks_nothing (.refl _)

end Sink

end TableFeed
