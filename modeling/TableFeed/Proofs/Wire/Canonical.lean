import Mathlib
import TableFeed.Proofs.Wire.FieldSpelling
import TableFeed.Proofs.Wire.Frames
/-!
What the bytes of a message are like. A reader looks at every byte that it takes, so what it gives
tells them: they are the ones written for it, but for the order of tags and attributes.
-/

namespace TableFeed.Wire

open TableFeed

/-- Whatever a reader gives is in relation `P` to the bytes it has taken, after `done` that were
taken before. -/
def Yields {α : Type} (done : Bytes) (r : Reader α) (P : α → Bytes → Prop) : Prop :=
  ∀ ⦃c : Cursor⦄ ⦃a : α⦄ ⦃c' : Cursor⦄, r.run c = .ok (a, c') →
    ∃ taken, c.rest = taken ++ c'.rest ∧ P a (done ++ taken)

def WrittenBy {α : Type} (put : α → Bytes) (a : α) (bs : Bytes) : Prop := put a = bs

def SpelledBy {β α : Type} (put : β → Bytes) (meaning : β → α) (a : α) (bs : Bytes) : Prop :=
  ∃ b, meaning b = a ∧ put b = bs

namespace Yields

variable {α β : Type} {r : Reader α} {done : Bytes} {P P' : α → Bytes → Prop}

theorem imp (h : Yields done r P) (himp : ∀ a bs, P a bs → P' a bs) : Yields done r P' := by
  intro c a c' hrun
  obtain ⟨taken, hrest, hP⟩ := h hrun
  exact ⟨taken, hrest, himp a _ hP⟩

theorem pure {a : α} (h : P a done) : Yields done (Pure.pure a) P := by
  intro c a' c' hrun
  cases hrun
  exact ⟨[], rfl, by rwa [List.append_nil]⟩

theorem throw (e : MessageFault) : Yields done (throw e) P := by
  intro c a c' hrun
  cases hrun

theorem throw_bind {f : α → Reader β} {Q : β → Bytes → Prop} (e : MessageFault) :
    Yields done (MonadExcept.throw e >>= f) Q := by
  intro c b c' hrun
  cases hrun

/-- A check at the end of a record. -/
theorem pure_if {there : Bool} {e : MessageFault} {a : α} (h : there = true → P a done) :
    Yields done (if (!there) = true then do
      MonadExcept.throw e
      Pure.pure a
    else Pure.pure a) P := by
  cases there with
  | false => exact .throw_bind e
  | true => exact .pure (h rfl)

theorem bind {f : α → Reader β} {Q : β → Bytes → Prop} (h : Yields [] r P)
    (h' : ∀ a bs, P a bs → Yields (done ++ bs) (f a) Q) : Yields done (r >>= f) Q := by
  intro c b c' hrun
  rw [StateT.run_bind] at hrun
  cases hr : r.run c with
  | error e =>
      rw [hr] at hrun
      cases hrun
  | ok result =>
      obtain ⟨a, middle⟩ := result
      rw [hr] at hrun
      obtain ⟨taken, hrest, hP⟩ := h hr
      obtain ⟨more, hmore, hQ⟩ := h' a taken hP hrun
      refine ⟨taken ++ more, ?_, ?_⟩
      · rw [hrest, hmore, List.append_assoc]
      · rwa [← List.append_assoc]

/-- The last item of a record. -/
theorem bind_pure {Q : β → Bytes → Prop} (h : Yields [] r P) {g : α → β}
    (h' : ∀ a bs, P a bs → Q (g a) (done ++ bs)) : Yields done (r >>= fun a => Pure.pure (g a)) Q :=
  h.bind fun a bs hP => .pure (h' a bs hP)

theorem of_whole {body : Bytes} {a : α} (h : Yields [] r P) (hread : r.whole body = .ok a) :
    P a body := by
  rw [Reader.whole] at hread
  cases hrun : r.run ⟨0, body⟩ with
  | error e =>
      rw [hrun] at hread
      cases hread
  | ok result =>
      obtain ⟨b, c⟩ := result
      rw [hrun] at hread
      obtain ⟨taken, hrest, hP⟩ := h hrun
      change (if c.rest.isEmpty then Pure.pure b else _ : Except MessageFault α) = _ at hread
      split at hread
      · next hempty =>
        cases hread
        rw [List.isEmpty_iff.mp hempty, List.append_nil] at hrest
        change body = taken at hrest
        rw [hrest]
        exact hP
      · cases hread

theorem of_decoded {g : α → Frame} {body : Bytes} {frame : Frame} (h : Yields [] r P)
    (hread : ((r.whole body).map g).mapError Error.malformedMessage = .ok frame) :
    ∃ a, g a = frame ∧ P a body := by
  cases hwhole : r.whole body with
  | error e =>
      rw [hwhole] at hread
      cases hread
  | ok a =>
      rw [hwhole] at hread
      cases hread
      exact ⟨a, rfl, h.of_whole hwhole⟩

end Yields

namespace Reader

/-! ### Words -/

theorem yields_take (n : Nat) : Yields [] (take n) fun a bs => a = bs ∧ bs.length = n := by
  intro c a c' hrun
  change (if c.has n then _ else _ : Except MessageFault _) = _ at hrun
  split at hrun
  · next hhas =>
    cases hrun
    refine ⟨c.rest.take n, (List.take_append_drop n c.rest).symm, rfl, ?_⟩
    rw [List.nil_append, List.length_take, Nat.min_eq_left (Cursor.has_iff.mp hhas)]
  · cases hrun

theorem yields_number (k : Nat) :
    Yields [] (number k) fun n bs => n = ofLittleEndian bs ∧ bs.length = k := by
  refine (yields_take k).bind_pure ?_
  rintro _ bs ⟨rfl, hlen⟩
  exact ⟨rfl, hlen⟩

theorem ofLittleEndian_lt (bs : Bytes) : ofLittleEndian bs < 256 ^ bs.length := by
  induction bs with
  | nil => exact Nat.one_pos
  | cons b bs ih =>
      have hb := b.toNat_lt
      rw [ofLittleEndian, List.length_cons, Nat.pow_succ]
      omega

theorem yields_uint8 : Yields [] uint8 (WrittenBy fun b => [b]) := by
  refine (yields_number 1).bind_pure ?_
  rintro _ bs ⟨rfl, hlen⟩
  obtain ⟨b, rfl⟩ := List.length_eq_one_iff.mp hlen
  simp [WrittenBy, ofLittleEndian]

theorem yields_bool : Yields [] bool (WrittenBy putBool) := by
  refine yields_uint8.bind ?_
  rintro b _ rfl
  split
  · exact .pure rfl
  · exact .pure rfl
  · exact .throw _

theorem yields_int8 : Yields [] int8 (WrittenBy putInt8) := by
  refine yields_uint8.bind_pure ?_
  rintro b _ rfl
  rfl

theorem yields_uint32 : Yields [] uint32 (WrittenBy putUInt32) := by
  refine (yields_number 4).bind_pure ?_
  rintro _ bs ⟨rfl, hlen⟩
  have hlt : ofLittleEndian bs < 2 ^ 32 := by simpa [hlen] using ofLittleEndian_lt bs
  rw [WrittenBy, putUInt32, UInt32.toNat_ofNat', Nat.mod_eq_of_lt hlt, ← hlen]
  exact littleEndian_ofLittleEndian bs

theorem yields_uint64 : Yields [] uint64 (WrittenBy putUInt64) := by
  refine (yields_number 8).bind_pure ?_
  rintro _ bs ⟨rfl, hlen⟩
  have hlt : ofLittleEndian bs < 2 ^ 64 := by simpa [hlen] using ofLittleEndian_lt bs
  rw [WrittenBy, putUInt64, UInt64.toNat_ofNat', Nat.mod_eq_of_lt hlt, ← hlen]
  exact littleEndian_ofLittleEndian bs

theorem yields_int32 : Yields [] int32 (WrittenBy putInt32) := by
  refine yields_uint32.bind_pure ?_
  rintro v _ rfl
  rfl

theorem yields_int64 : Yields [] int64 (WrittenBy putInt64) := by
  refine yields_uint64.bind_pure ?_
  rintro v _ rfl
  rfl

/-! ### Counted items -/

theorem yields_length (least : Nat) : Yields [] (length least) (WrittenBy putLength) := by
  refine (yields_number 4).bind ?_
  rintro _ bs ⟨rfl, hlen⟩
  have hget : Yields [] (get : Reader Cursor) fun _ bs => bs = [] := by
    intro c a c' hrun
    cases hrun
    exact ⟨[], rfl, rfl⟩
  refine hget.bind ?_
  rintro c _ rfl
  split
  · refine .pure ?_
    rw [WrittenBy, putLength, ← hlen, List.append_nil]
    exact littleEndian_ofLittleEndian bs
  · exact .throw _

theorem yields_bytes : Yields [] bytes (WrittenBy putBytes) := by
  refine (yields_length 1).bind ?_
  rintro n _ rfl
  intro c a c' hrun
  obtain ⟨_, hrest, rfl, rfl⟩ := yields_take n hrun
  exact ⟨_, hrest, rfl⟩

theorem yields_replicate {α β : Type} {item : Reader α} {put : β → Bytes} {meaning : β → α}
    (h : Yields [] item (SpelledBy put meaning)) (n : Nat) :
    Yields [] (replicate item n) fun items bs =>
      ∃ spelled : List β, spelled.length = n ∧ spelled.map meaning = items ∧
        spelled.flatMap put = bs := by
  induction n with
  | zero => exact .pure ⟨[], rfl, rfl, rfl⟩
  | succ n ih =>
      refine h.bind ?_
      rintro _ _ ⟨b, rfl, rfl⟩
      refine ih.bind_pure ?_
      rintro _ _ ⟨rest, rfl, rfl, rfl⟩
      exact ⟨b :: rest, rfl, rfl, rfl⟩

theorem yields_list {α β : Type} {item : Reader α} {put : β → Bytes} {meaning : β → α} {least : Nat}
    (h : Yields [] item (SpelledBy put meaning)) :
    Yields [] (list least item) (SpelledBy (putList put) (List.map meaning)) := by
  refine (yields_length least).bind ?_
  rintro n _ rfl
  intro c items c' hrun
  obtain ⟨_, hrest, spelled, rfl, rfl, rfl⟩ := yields_replicate h n hrun
  exact ⟨_, hrest, spelled, rfl, rfl⟩

/-- Items that are written in one way only. -/
theorem yields_list_written {α : Type} {item : Reader α} {put : α → Bytes} {least : Nat}
    (h : Yields [] item (WrittenBy put)) :
    Yields [] (list least item) (WrittenBy (putList put)) := by
  have hitem : Yields [] item (SpelledBy put id) := h.imp fun a _ hput => ⟨a, rfl, hput⟩
  refine (yields_list hitem).imp ?_
  rintro _ _ ⟨items, rfl, rfl⟩
  rw [List.map_id]
  rfl

/-! ### Text -/

theorem toUTF8_of_fromUTF8? {b : ByteArray} {s : String} (h : String.fromUTF8? b = some s) :
    s.toUTF8 = b := by
  rw [String.fromUTF8?] at h
  split at h
  · cases h
    rfl
  · cases h

theorem yields_string : Yields [] string (WrittenBy putString) := by
  refine yields_bytes.bind ?_
  rintro bs _ rfl
  split
  · next s hs =>
    refine .pure ?_
    have hbytes : s.toUTF8.toList = bs := by
      rw [toUTF8_of_fromUTF8? hs]
      exact toList_loop _ 0 []
    rw [WrittenBy, putString, hbytes]
    rfl
  · exact .throw _

/-! ### Schemas -/

theorem code_of_ofCode? {b : UInt8} {t : DataType} (h : DataType.ofCode? b = some t) :
    t.code = b := by
  rw [DataType.ofCode?.eq_def] at h
  split at h <;> cases h <;> rfl

theorem yields_dataType : Yields [] dataType (WrittenBy fun t => [t.code]) := by
  refine yields_uint8.bind ?_
  rintro b _ rfl
  split
  · next t ht =>
    refine .pure ?_
    rw [WrittenBy, code_of_ofCode? ht]
    rfl
  · exact .throw _

theorem yields_short : Yields [] (payload .short) (WrittenBy fun v => putInt32 v.toInt32) := by
  refine yields_int32.bind ?_
  rintro v _ rfl
  split
  · next hv => exact .pure (congrArg putInt32 hv)
  · exact .throw _

theorem yields_char : Yields [] (payload .char) (WrittenBy fun c => putUInt32 c.val) := by
  refine yields_uint32.bind ?_
  rintro v _ rfl
  split
  · exact .pure rfl
  · exact .throw _

/-- What a value has after the code of its type. -/
theorem yields_payload (t : DataType) :
    Yields [] (payload t) fun a bs => putValue ⟨t, a⟩ = t.code :: bs := by
  have hcode : ∀ {t : DataType} {a : t.Carrier} {bs bs' : Bytes},
      putValue ⟨t, a⟩ = t.code :: bs → bs = bs' → putValue ⟨t, a⟩ = t.code :: bs' := by
    rintro t a bs _ h rfl
    exact h
  cases t with
  | bool => exact yields_bool.imp fun _ _ => hcode rfl
  | byte => exact yields_int8.imp fun _ _ => hcode rfl
  | short => exact yields_short.imp fun _ _ => hcode rfl
  | char => exact yields_char.imp fun _ _ => hcode rfl
  | int32 => exact yields_int32.imp fun _ _ => hcode rfl
  | int64 => exact yields_int64.imp fun _ _ => hcode rfl
  | float32 => exact yields_uint32.imp fun _ _ => hcode rfl
  | float64 => exact yields_uint64.imp fun _ _ => hcode rfl
  | string => exact yields_string.imp fun _ _ => hcode rfl
  | generic => exact yields_bytes.imp fun _ _ => hcode rfl

theorem yields_value : Yields [] value (WrittenBy putValue) := by
  refine yields_dataType.bind ?_
  rintro t _ rfl
  exact (yields_payload t).bind_pure fun a bs h => h

theorem yields_attributeEntry : Yields [] attributeEntry (WrittenBy putAttribute) := by
  refine yields_string.bind ?_
  rintro name _ rfl
  refine yields_value.bind_pure ?_
  rintro v _ rfl
  rfl

/-- Here alone bytes are given up: the order of tags and attributes and those that come again. -/
theorem yields_fieldInfo : Yields [] fieldInfo (SpelledBy putFieldText FieldText.info) := by
  refine yields_string.bind ?_
  rintro name _ rfl
  refine yields_dataType.bind ?_
  rintro type _ rfl
  have hmetadata : Yields [] metadata fun m bs => ∃ tags attributes,
      m = { tags := .ofList tags, attributes := .ofList attributes } ∧
        bs = putList putString tags ++ putList putAttribute attributes := by
    refine (yields_list_written yields_string).bind ?_
    rintro tags _ rfl
    refine (yields_list_written yields_attributeEntry).bind_pure ?_
    rintro attributes _ rfl
    exact ⟨tags, attributes, rfl, rfl⟩
  refine hmetadata.bind_pure ?_
  rintro _ _ ⟨tags, attributes, rfl, rfl⟩
  refine ⟨⟨name, type, tags, attributes⟩, rfl, ?_⟩
  simp [putFieldText]

/-- A layout with the spelling of its fields. -/
theorem yields_layout : Yields [] layout fun l bs => ∃ texts : List FieldText,
    texts.map FieldText.info = l.fields ∧ putString l.name ++ putList putFieldText texts = bs := by
  refine yields_string.bind ?_
  rintro name _ rfl
  refine (yields_list yields_fieldInfo).bind_pure ?_
  rintro _ _ ⟨texts, rfl, rfl⟩
  exact ⟨texts, rfl, rfl⟩

/-! ### Rows -/

theorem yields_columns {α : Type} {item : Reader α} {put : α → Bytes} {least : Nat}
    (h : Yields [] item (WrittenBy put)) :
    Yields [] (columns least item) (WrittenBy (putList (putColumn put))) := by
  refine yields_list_written ?_
  refine yields_uint32.bind ?_
  rintro field _ rfl
  refine (yields_list_written h).bind_pure ?_
  rintro values _ rfl
  rfl

theorem yields_rowData : Yields [] rowData (WrittenBy putData) := by
  refine (yields_list_written yields_uint32).bind ?_
  rintro rows _ rfl
  refine (yields_columns yields_bool).bind ?_
  rintro bools _ rfl
  refine (yields_columns yields_int8).bind ?_
  rintro bytes _ rfl
  refine (yields_columns yields_int32).bind ?_
  rintro int32s _ rfl
  refine (yields_columns yields_int64).bind ?_
  rintro int64s _ rfl
  refine (yields_columns yields_uint32).bind ?_
  rintro floats _ rfl
  refine (yields_columns yields_uint64).bind ?_
  rintro doubles _ rfl
  refine (yields_columns yields_string).bind ?_
  rintro strings _ rfl
  refine (yields_columns yields_bytes).bind_pure ?_
  rintro generics _ rfl
  rfl

/-! ### Messages -/

theorem yields_acknowledgement : Yields [] acknowledgement (WrittenBy putAcknowledgement) := by
  refine yields_bool.bind ?_
  rintro success _ rfl
  refine yields_string.bind_pure ?_
  rintro message _ rfl
  rfl

theorem yields_modification : Yields [] modification (WrittenBy putModification) := by
  refine yields_string.bind ?_
  rintro target _ rfl
  refine yields_string.bind ?_
  rintro action _ rfl
  refine (yields_list_written yields_bytes).bind_pure ?_
  rintro arguments _ rfl
  rfl

theorem yields_selection : Yields [] selection (WrittenBy putSelection) := by
  refine yields_string.bind ?_
  rintro output _ rfl
  refine (yields_list_written yields_string).bind ?_
  rintro fields _ rfl
  refine yields_bool.bind ?_
  rintro all _ rfl
  refine (yields_list_written yields_modification).bind_pure ?_
  rintro modifications _ rfl
  rfl

/-- A code that stands for a kind of request is not read as an unknown one. -/
theorem ofCode_unknown {b c : UInt8} (h : RequestType.ofCode b = .unknown c) :
    c ≠ 1 ∧ c ≠ 2 ∧ c ≠ 3 := by
  rw [RequestType.ofCode.eq_def] at h
  split at h <;> cases h
  next h₁ h₂ h₃ => exact ⟨h₁, h₂, h₃⟩

theorem code_ofCode (b : UInt8) : (RequestType.ofCode b).code = b := by
  rw [RequestType.ofCode.eq_def]
  split <;> rfl

theorem yields_request : Yields [] request fun r bs =>
    (∀ c, r.type = .unknown c → c ≠ 1 ∧ c ≠ 2 ∧ c ≠ 3) ∧ requestBody r = bs := by
  refine yields_int64.bind ?_
  rintro token _ rfl
  refine yields_int32.bind ?_
  rintro sub _ rfl
  have htype : Yields [] (RequestType.ofCode <$> uint8) fun t bs =>
      (∀ c, t = .unknown c → c ≠ 1 ∧ c ≠ 2 ∧ c ≠ 3) ∧ [t.code] = bs := by
    rw [← bind_pure_comp]
    refine yields_uint8.bind_pure ?_
    rintro b _ rfl
    exact ⟨fun c => ofCode_unknown, by rw [code_ofCode]; rfl⟩
  refine htype.bind ?_
  rintro type _ ⟨hknown, rfl⟩
  refine yields_uint8.bind ?_
  rintro marker _ rfl
  split
  · exact .pure ⟨hknown, by simp [requestBody]⟩
  · refine yields_selection.bind_pure ?_
    rintro s _ rfl
    exact ⟨hknown, by simp [requestBody]⟩
  · exact .throw _

def PartOf {α : Type} (P : α → Bytes → Prop) : Option α → Bytes → Prop
  | none, bs => bs = []
  | some a, bs => P a bs

theorem yields_sectionIf {α : Type} {item : Reader α} {P : α → Bytes → Prop} {there : Bool}
    (h : Yields [] item P) : Yields [] (sectionIf there item) fun o bs =>
      o.isSome = there ∧ PartOf P o bs := by
  rw [sectionIf]
  split
  · next hthere =>
    rw [← bind_pure_comp]
    exact h.bind_pure fun a bs hP => ⟨hthere.symm, hP⟩
  · next hnot => exact .pure ⟨(Bool.eq_false_of_not_eq_true hnot).symm, rfl⟩

theorem code_of_ofCode?_response {b : UInt8} {t : ResponseType}
    (h : ResponseType.ofCode? b = some t) : t.code = b := by
  rw [ResponseType.ofCode?.eq_def] at h
  split at h <;> cases h <;> rfl

/-- Three bits say which sections there are. -/
theorem sectionBits_of_isSome {r : Response} {bits : UInt8} (hbits : ¬bits > 7)
    (hschema : r.schema.isSome = (bits &&& 1 != 0)) (hdata : r.data.isSome = (bits &&& 2 != 0))
    (hack : r.acknowledgement.isSome = (bits &&& 4 != 0)) : sectionBits r = bits := by
  have hall : ∀ n < 8, (if UInt8.ofNat n &&& 1 != 0 then 1 else 0) +
      (if UInt8.ofNat n &&& 2 != 0 then 2 else 0) +
      (if UInt8.ofNat n &&& 4 != 0 then 4 else 0) = UInt8.ofNat n := by decide
  have hlt : bits.toNat < 8 := by
    have := UInt8.lt_iff_toNat_lt.not.mp hbits
    have hseven : (7 : UInt8).toNat = 7 := rfl
    omega
  have h := hall bits.toNat hlt
  rw [UInt8.ofNat_toNat] at h
  rw [sectionBits, hschema, hdata, hack]
  exact h

theorem putOption_of_partOf {α : Type} {put : α → Bytes} {o : Option α} {bs : Bytes}
    (h : PartOf (WrittenBy put) o bs) : putOption put o = bs := by
  cases o with
  | none => exact h.symm
  | some a => exact h

theorem yields_response : Yields [] response fun r bs =>
    r.Complete ∧ ∃ texts : List FieldText, texts.map FieldText.info = r.fields ∧
      spelledBody r texts = bs := by
  refine yields_int32.bind ?_
  rintro sub _ rfl
  refine yields_int64.bind ?_
  rintro token _ rfl
  refine yields_uint8.bind ?_
  rintro code _ rfl
  split
  swap
  · exact .throw _
  next type htype =>
  refine yields_uint8.bind ?_
  rintro bits _ rfl
  by_cases hbits : bits > 7
  · rw [if_pos hbits]
    exact .throw_bind _
  rw [if_neg hbits]
  refine (yields_sectionIf yields_layout).bind ?_
  rintro schema schemaBytes ⟨hschema, hschemaBytes⟩
  refine (yields_sectionIf yields_rowData).bind ?_
  rintro data _ ⟨hdata, hdataBytes⟩
  refine (yields_sectionIf yields_acknowledgement).bind ?_
  rintro ack _ ⟨hack, hackBytes⟩
  refine .pure_if fun hcomplete => ⟨?_, ?_⟩
  · rw [Response.Complete.eq_def]
    revert hcomplete
    cases type <;> exact fun h => h
  · have hbytes := sectionBits_of_isSome (r := ⟨sub, token, type, schema, data, ack⟩)
      hbits hschema hdata hack
    obtain ⟨texts, htexts, hput⟩ : ∃ texts : List FieldText,
        texts.map FieldText.info = (schema.map (·.fields)).getD [] ∧
          putOption (fun l => putString l.name ++ putList putFieldText texts) schema =
            schemaBytes := by
      cases schema with
      | none => exact ⟨[], rfl, hschemaBytes.symm⟩
      | some l => exact hschemaBytes
    refine ⟨texts, htexts, ?_⟩
    rw [spelledBody, spelledHead, hbytes, code_of_ofCode?_response htype]
    simp only [hput, putOption_of_partOf hdataBytes, putOption_of_partOf hackBytes]
    simp

end Reader

/-! ### Bodies -/

theorem enclose_inj {kind : FrameKind} {a b : Bytes} (h : enclose kind a = enclose kind b) :
    a = b := by
  have hsame := (List.append_inj h (by simp only [putLength, length_littleEndian])).2
  exact List.tail_eq_of_cons_eq hsame

theorem requestBody_of_decode {body : Bytes} {r : Request}
    (h : decodeBody .request body = .ok (.request r)) :
    (∀ c, r.type = .unknown c → c ≠ 1 ∧ c ≠ 2 ∧ c ≠ 3) ∧ requestBody r = body := by
  obtain ⟨_, hsame, hbody⟩ := Reader.yields_request.of_decoded h
  cases hsame
  exact hbody

theorem spelledBody_of_decode {body : Bytes} {r : Response}
    (h : decodeBody .response body = .ok (.response r)) :
    r.Complete ∧ ∃ texts : List FieldText, texts.map FieldText.info = r.fields ∧
      spelledBody r texts = body := by
  obtain ⟨_, hsame, hbody⟩ := Reader.yields_response.of_decoded h
  cases hsame
  exact hbody

/-- A body is the one written for the response if its fields are spelled as they are written. -/
theorem responseBody_eq_iff {r : Response} {texts : List FieldText}
    (h : texts.map FieldText.info = r.fields)
    (hlen : (spelledBody r texts).length < 0x100000000) :
    responseBody r = spelledBody r texts ↔ ∀ f ∈ texts, f.Ascending := by
  constructor
  · intro hsame
    have hwritten : (r.fields.map FieldInfo.text).map FieldText.info = r.fields := by
      rw [List.map_map]
      exact List.map_id'' FieldText.info_text _
    rw [responseBody_eq_spelled] at hsame
    have htexts : texts = r.fields.map FieldInfo.text := by
      rw [← fieldTexts_spelledBody h hlen, ← hsame,
        fieldTexts_spelledBody hwritten (hsame ▸ hlen)]
    rw [htexts]
    intro f hf
    obtain ⟨g, -, rfl⟩ := List.mem_map.mp hf
    exact FieldText.ascending_text g
  · intro hascending
    have htexts : r.fields.map FieldInfo.text = texts := by
      rw [← h, List.map_map]
      exact (List.map_congr_left fun f hf => FieldText.text_info (hascending f hf)).trans
        (List.map_id texts)
    rw [responseBody_eq_spelled, htexts]

/-- A request has one body. A response is written as it was read just if tags and attributes go up
in every field of its schema, and what is written is read as the same response in any case. -/
theorem decode_canonical {body : Bytes} (hlen : body.length + 1 < 0x100000000) :
    (∀ r, decodeBody .request body = .ok (.request r) →
      encodeRequest r = enclose .request body ∧
        decodeFrame (encodeRequest r) = .ok (.request r) ∧
        ∀ other, decodeBody .request other = .ok (.request r) → other = body) ∧
    (∀ r, decodeBody .response body = .ok (.response r) →
      (fieldTexts body).map FieldText.info = r.fields ∧ spelledBody r (fieldTexts body) = body ∧
        (encodeResponse r = enclose .response body ↔ ∀ f ∈ fieldTexts body, f.Ascending) ∧
        decodeFrame (encodeResponse r) = .ok (.response r)) := by
  constructor
  · intro r h
    obtain ⟨hknown, rfl⟩ := requestBody_of_decode h
    refine ⟨rfl, ?_, fun other hother => (requestBody_of_decode hother).2.symm⟩
    rw [encodeRequest, decodeFrame_enclose hlen, h]
  · intro r h
    obtain ⟨hcomplete, texts, hinfo, rfl⟩ := spelledBody_of_decode h
    have htexts : fieldTexts (spelledBody r texts) = texts :=
      fieldTexts_spelledBody hinfo (by omega)
    have hshorter := length_responseBody_le hinfo
    rw [htexts]
    refine ⟨hinfo, rfl, ?_, ?_⟩
    · rw [← responseBody_eq_iff hinfo (by omega), encodeResponse]
      exact ⟨enclose_inj, congrArg _⟩
    · rw [encodeResponse, decodeFrame_enclose (by omega),
        decodeBody_response hcomplete (by omega)]

/-- A field with its tags out of order and an attribute that comes twice is read and written anew
in fewer bytes; a request that is read has no other body. -/
theorem decode_canonical_reordered :
    let said : Response :=
      { subscription := 1, type := .schema,
        schema := some { name := "T", fields := [
          { name := "a", type := .int32,
            metadata := { tags := .ofList ["k", "u"],
                          attributes := .ofList [("w", ⟨.byte, 3⟩)] } }] } }
    let texts : List FieldText :=
      [⟨"a", .int32, ["u", "k"], [("w", ⟨.byte, 2⟩), ("w", ⟨.byte, 3⟩)]⟩]
    let asked : Request := { token := 5, subscription := -1, type := .unknown 9 }
    encodeResponse said ≠ enclose .response (spelledBody said texts) ∧
      decodeFrame (encodeResponse said) = .ok (.response said) ∧
      encodeRequest asked = enclose .request (requestBody asked) ∧
      ∀ other, decodeBody .request other = .ok (.request asked) → other = requestBody asked := by
  intro said texts asked
  have hsaid : decodeBody .response (spelledBody said texts) = .ok (.response said) := by
    decide +kernel
  have hasked : decodeBody .request (requestBody asked) = .ok (.request asked) := by
    decide +kernel
  have hsaidLen : (spelledBody said texts).length + 1 < 0x100000000 := by decide +kernel
  have haskedLen : (requestBody asked).length + 1 < 0x100000000 := by decide +kernel
  obtain ⟨-, -, hwritten, hagain⟩ := (decode_canonical hsaidLen).2 said hsaid
  obtain ⟨hencoded, -, honly⟩ := (decode_canonical haskedLen).1 asked hasked
  have hfields : ¬∀ f ∈ fieldTexts (spelledBody said texts), f.Ascending := by decide +kernel
  exact ⟨fun hsame => hfields (hwritten.mp hsame), hagain, hencoded, honly⟩

end TableFeed.Wire
