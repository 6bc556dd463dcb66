import Mathlib
import TableFeed.Proofs.Fields.SheetCells
import TableFeed.Proofs.Wire.Readers
import TableFeed.Wire.Decode
import TableFeed.Wire.Encode
import TableFeed.Wire.Size

/-!
What is written of a message is read back as that message.
-/

namespace TableFeed

theorem AscSet.ofList_toList {α : Type} [Ord α] [Std.TransOrd α] [Std.LawfulEqOrd α]
    (s : AscSet α) : ofList s.toList = s := by
  refine ext_mem fun a => ?_
  rw [mem_ofList, mem_toList]

theorem AscMap.ofList_toList {κ α : Type} [Ord κ] [DecidableEq κ] [Std.TransOrd κ]
    [Std.LawfulEqOrd κ] (m : AscMap κ α) : ofList m.toList = m := by
  have hkeys : (m.toList.map (·.1)).Nodup :=
    m.keys.ascending.imp fun h => AscSet.ne_of_compare_lt h
  refine ext_find? fun k => ?_
  have hfind := find?_insertAll (m := ∅) hkeys (k := k)
  rw [find?_empty, Option.or_none] at hfind
  exact hfind

namespace Wire.Reader

/-! ### Schemas -/

theorem length_putString (s : String) : 4 ≤ (putString s).length := by
  simp [putString, putBytes, putLength]

theorem restores_dataType (t : DataType) : Restores dataType [t.code] t := by
  refine (restores_uint8 t.code).bind_cons ?_
  rw [DataType.ofCode?_code]
  exact .pure t

theorem restores_short (v : Int16) : Restores (payload .short) (putInt32 v.toInt32) v := by
  have hread : Restores (if v.toInt32.toInt16.toInt32 = v.toInt32 then return v.toInt32.toInt16
      else throw (.shortOutOfRange v.toInt32) : Reader Int16) [] v := by
    rw [Int16.toInt16_toInt32, if_pos rfl]
    exact .pure v
  exact ((restores_int32 v.toInt32).bind hread).congr (List.append_nil _)

theorem restores_char (c : Char) : Restores (payload .char) (putUInt32 c.val) c := by
  have hread : Restores (if h : c.val.isValidChar then return ⟨c.val, h⟩
      else throw (.invalidChar c.val) : Reader Char) [] c := by
    rw [dif_pos c.valid]
    exact .pure c
  exact ((restores_uint32 c.val).bind hread).congr (List.append_nil _)

theorem restores_value (v : Value) : Restores value (putValue v) v := by
  obtain ⟨t, a⟩ := v
  refine (restores_dataType t).bind_cons ?_
  cases t with
  | bool => exact (restores_bool a).bind_pure (Value.mk .bool)
  | byte => exact (restores_int8 a).bind_pure (Value.mk .byte)
  | short => exact (restores_short a).bind_pure (Value.mk .short)
  | char => exact (restores_char a).bind_pure (Value.mk .char)
  | int32 => exact (restores_int32 a).bind_pure (Value.mk .int32)
  | int64 => exact (restores_int64 a).bind_pure (Value.mk .int64)
  | float32 => exact (restores_uint32 a).bind_pure (Value.mk .float32)
  | float64 => exact (restores_uint64 a).bind_pure (Value.mk .float64)
  | string => exact (restores_string a).bind_pure (Value.mk .string)
  | generic => exact (restores_bytes a).bind_pure (Value.mk .generic)

theorem length_putValue (v : Value) : 2 ≤ (putValue v).length := by
  obtain ⟨t, a⟩ := v
  cases t <;> simp [putValue, putBool, putInt8, putInt32, putUInt32, putInt64, putUInt64, putString,
    putBytes, putLength] <;> omega

theorem restores_metadata (m : Metadata) : Restores metadata (putMetadata m) m := by
  have htags : Restores (list 4 string) (putList putString m.tags.toList) m.tags.toList :=
    restores_list (by decide) fun s _ => ⟨restores_string s, length_putString s⟩
  have hattributes : Restores (list 6 attributeEntry)
      (putList (fun a => putString a.1 ++ putValue a.2) m.attributes.toList)
      m.attributes.toList := by
    refine restores_list (by decide) fun a _ => ⟨?_, ?_⟩
    · exact (restores_string a.1).bind ((restores_value a.2).bind_pure (Prod.mk a.1))
    · have hname := length_putString a.1
      have hvalue := length_putValue a.2
      rw [List.length_append]
      omega
  have h : Restores metadata (putMetadata m)
      { tags := .ofList m.tags.toList, attributes := .ofList m.attributes.toList } :=
    htags.bind (hattributes.bind_pure _)
  rw [AscSet.ofList_toList, AscMap.ofList_toList] at h
  exact h

theorem restores_fieldInfo (f : FieldInfo) : Restores fieldInfo (putFieldInfo f) f :=
  (restores_string f.name).bind ((restores_dataType f.type).bind_cons
    ((restores_metadata f.metadata).bind_pure (FieldInfo.mk f.name f.type)))

theorem length_putList {α : Type} (put : α → Bytes) (items : List α) :
    4 ≤ (putList put items).length := by
  simp [putList, putLength]

theorem restores_layout (l : Layout) : Restores layout (putLayout l) l := by
  have hfields : Restores (list 13 fieldInfo) (putList putFieldInfo l.fields) l.fields := by
    refine restores_list (by decide) fun f _ => ⟨restores_fieldInfo f, ?_⟩
    have hname := length_putString f.name
    have htags := length_putList putString f.metadata.tags.toList
    have hattributes := length_putList (fun a => putString a.1 ++ putValue a.2)
      f.metadata.attributes.toList
    simp only [putFieldInfo, putMetadata, List.length_append, List.length_cons]
    omega
  exact (restores_string l.name).bind (hfields.bind_pure (Layout.mk l.name))

/-! ### Rows -/

/-- The columns of one section. -/
theorem restores_columns {α : Type} {item : Reader α} {put : α → Bytes} {least : Nat}
    (hleast : 1 ≤ least) (h : ∀ a, Restores item (put a) a ∧ least ≤ (put a).length)
    (cols : List (WireColumn α)) : Restores (columns least item) (putList (putColumn put) cols) cols := by
  refine restores_list (by decide) fun c _ => ⟨?_, ?_⟩
  · have hvalues : Restores (list least item) (putList put c.values) c.values :=
      restores_list hleast fun a _ => h a
    exact (restores_uint32 c.field).bind (hvalues.bind_pure (WireColumn.mk c.field))
  · have hvalues := length_putList put c.values
    simp only [putColumn, List.length_append, putUInt32, length_littleEndian]
    omega

/-- The sections of the columns, one for each way in which values travel. -/
theorem restores_rowData (d : RowData) : Restores rowData (putData d) d := by
  have hrows : Restores (list 4 uint32) (putList putUInt32 d.rows) d.rows :=
    restores_list (by decide) fun row _ => ⟨restores_uint32 row, by simp [putUInt32]⟩
  have hbools : Restores (columns 1 bool) (putList (putColumn putBool) d.bools) d.bools :=
    restores_columns (by decide) (fun b => ⟨restores_bool b, by simp [putBool]⟩) _
  have hbytes : Restores (columns 1 int8) (putList (putColumn putInt8) d.bytes) d.bytes :=
    restores_columns (by decide) (fun v => ⟨restores_int8 v, by simp [putInt8]⟩) _
  have hint32s : Restores (columns 4 int32) (putList (putColumn putInt32) d.int32s) d.int32s :=
    restores_columns (by decide) (fun v => ⟨restores_int32 v, by simp [putInt32, putUInt32]⟩) _
  have hint64s : Restores (columns 8 int64) (putList (putColumn putInt64) d.int64s) d.int64s :=
    restores_columns (by decide) (fun v => ⟨restores_int64 v, by simp [putInt64, putUInt64]⟩) _
  have hfloats : Restores (columns 4 uint32) (putList (putColumn putUInt32) d.floats) d.floats :=
    restores_columns (by decide) (fun v => ⟨restores_uint32 v, by simp [putUInt32]⟩) _
  have hdoubles : Restores (columns 8 uint64) (putList (putColumn putUInt64) d.doubles)
      d.doubles :=
    restores_columns (by decide) (fun v => ⟨restores_uint64 v, by simp [putUInt64]⟩) _
  have hstrings : Restores (columns 4 string) (putList (putColumn putString) d.strings)
      d.strings :=
    restores_columns (by decide) (fun s => ⟨restores_string s, length_putString s⟩) _
  have hgenerics : Restores (columns 4 bytes) (putList (putColumn putBytes) d.generics)
      d.generics :=
    restores_columns (by decide) (fun bs => ⟨restores_bytes bs, by simp [putBytes, putLength]⟩) _
  rw [putData]
  simp only [List.append_assoc]
  refine hrows.bind ?_
  refine hbools.bind ?_
  refine hbytes.bind ?_
  refine hint32s.bind ?_
  refine hint64s.bind ?_
  refine hfloats.bind ?_
  refine hdoubles.bind ?_
  refine hstrings.bind ?_
  exact hgenerics.bind_pure _

/-! ### Messages -/

theorem restores_acknowledgement (a : Acknowledgement) :
    Restores acknowledgement (putAcknowledgement a) a :=
  (restores_bool a.success).bind ((restores_string a.message).bind_pure
    (Acknowledgement.mk a.success))

theorem restores_modification (m : Modification) :
    Restores modification (putModification m) m := by
  have harguments : Restores (list 4 bytes) (putList putBytes m.arguments) m.arguments :=
    restores_list (by decide) fun bs _ => ⟨restores_bytes bs, by simp [putBytes, putLength]⟩
  rw [putModification, List.append_assoc]
  refine (restores_string m.target).bind ?_
  refine (restores_string m.action).bind ?_
  exact harguments.bind_pure _

theorem restores_selection (s : Selection) : Restores selection (putSelection s) s := by
  have hfields : Restores (list 4 string) (putList putString s.fields) s.fields :=
    restores_list (by decide) fun name _ => ⟨restores_string name, length_putString name⟩
  have hmodifications : Restores (list 12 modification) (putList putModification s.modifications)
      s.modifications := by
    refine restores_list (by decide) fun m _ => ⟨restores_modification m, ?_⟩
    have htarget := length_putString m.target
    have haction := length_putString m.action
    have harguments := length_putList putBytes m.arguments
    simp only [putModification, List.length_append]
    omega
  simp only [putSelection, List.append_assoc]
  refine (restores_string s.output).bind ?_
  refine hfields.bind ?_
  refine (restores_bool s.all).bind ?_
  exact hmodifications.bind_pure _

/-- A kind of request that is kept apart from those that are understood. -/
theorem ofCode_code {t : RequestType} (ht : ∀ c, t = .unknown c → c ≠ 1 ∧ c ≠ 2 ∧ c ≠ 3) :
    RequestType.ofCode t.code = t := by
  cases t with
  | subscribe => rfl
  | modify => rfl
  | unsubscribe => rfl
  | unknown c =>
      obtain ⟨h₁, h₂, h₃⟩ := ht c rfl
      rw [RequestType.code, RequestType.ofCode]
      · exact h₁
      · exact h₂
      · exact h₃

theorem restores_request {r : Request}
    (hr : ∀ c, r.type = .unknown c → c ≠ 1 ∧ c ≠ 2 ∧ c ≠ 3) :
    Restores request (requestBody r) r := by
  obtain ⟨token, sub, type, selection⟩ := r
  have htype : Restores (RequestType.ofCode <$> uint8) [type.code] type := by
    have h := (restores_uint8 type.code).bind_pure RequestType.ofCode
    rw [ofCode_code hr] at h
    exact h
  rw [requestBody, List.append_assoc]
  refine (restores_int64 token).bind ?_
  refine (restores_int32 sub).bind ?_
  refine htype.bind_cons ?_
  cases selection with
  | none => exact (restores_uint8 0).bind_cons (.pure _)
  | some s =>
      refine (restores_uint8 1).bind_cons ?_
      exact (restores_selection s).bind_pure _

end Wire.Reader

def Response.Complete (r : Response) : Prop :=
  match r.type with
  | .schema => r.schema.isSome
  | .message => r.acknowledgement.isSome
  | _ => r.data.isSome

namespace Wire.Reader

theorem ofCode?_code (t : ResponseType) : ResponseType.ofCode? t.code = some t := by
  cases t <;> rfl

theorem restores_sectionIf {α : Type} {item : Reader α} {put : α → Bytes} {there : Bool}
    (h : ∀ a, Restores item (put a) a) (o : Option α) (hthere : there = o.isSome) :
    Restores (sectionIf there item) (putOption put o) o := by
  cases o with
  | none =>
      rw [hthere]
      exact .pure none
  | some a =>
      rw [hthere]
      exact (h a).bind_pure some

/-- Each part has a bit of its own. -/
theorem sectionBits_eq (r : Response) :
    ¬sectionBits r > 7 ∧ (sectionBits r &&& 1 != 0) = r.schema.isSome ∧
      (sectionBits r &&& 2 != 0) = r.data.isSome ∧
      (sectionBits r &&& 4 != 0) = r.acknowledgement.isSome := by
  rw [sectionBits]
  cases r.schema.isSome <;> cases r.data.isSome <;> cases r.acknowledgement.isSome <;> decide

theorem restores_response {r : Response} (hr : r.Complete) :
    Restores response (responseBody r) r := by
  obtain ⟨hbits, hschema, hdata, hack⟩ := sectionBits_eq r
  rw [responseBody, List.append_assoc]
  refine (restores_int32 r.subscription).bind ?_
  refine (restores_int64 r.token).bind ?_
  refine (restores_uint8 r.type.code).bind_cons ?_
  rw [ofCode?_code]
  refine (restores_uint8 (sectionBits r)).bind_cons ?_
  rw [if_neg hbits, List.append_assoc]
  refine (restores_sectionIf restores_layout r.schema hschema).bind ?_
  refine (restores_sectionIf restores_rowData r.data hdata).bind ?_
  refine ((restores_sectionIf restores_acknowledgement r.acknowledgement hack).bind ?_).congr
    (List.append_nil _)
  dsimp only
  rw [if_neg]
  · exact .pure r
  · rw [Bool.not_eq_true', Bool.not_eq_false]
    rw [Response.Complete.eq_def] at hr
    revert hr
    cases r.type <;> exact fun hr => hr

/-- A body is read to its end. -/
theorem whole_of_restores {α : Type} {r : Reader α} {bs : Bytes} {a : α} (h : Restores r bs a)
    (hlen : bs.length < 0x100000000) : r.whole bs = .ok a := by
  have hrun := h hlen 0 []
  rw [List.append_nil] at hrun
  rw [whole, hrun]
  rfl

end Wire.Reader

namespace Wire

theorem decodeBody_request {r : Request}
    (hr : ∀ c, r.type = .unknown c → c ≠ 1 ∧ c ≠ 2 ∧ c ≠ 3)
    (hlen : (requestBody r).length < 0x100000000) :
    decodeBody .request (requestBody r) = .ok (.request r) := by
  rw [decodeBody, Reader.whole_of_restores (Reader.restores_request hr) hlen]
  rfl

theorem decodeBody_response {r : Response} (hr : r.Complete)
    (hlen : (responseBody r).length < 0x100000000) :
    decodeBody .response (responseBody r) = .ok (.response r) := by
  rw [decodeBody, Reader.whole_of_restores (Reader.restores_response hr) hlen]
  rfl

/-! ### Lengths -/

theorem length_putBytes (bs : Bytes) : (putBytes bs).length = bytesSize bs := by
  simp [putBytes, putLength, bytesSize]

theorem length_putString (s : String) : (putString s).length = stringSize s := by
  have hloop : s.toUTF8.toList = s.toUTF8.data.toList := Reader.toList_loop s.toUTF8 0 []
  rw [putString, length_putBytes, bytesSize, stringSize, hloop, Array.length_toList]
  rfl

theorem length_putList {α : Type} {put : α → Bytes} {size : α → Nat}
    (h : ∀ a, (put a).length = size a) (items : List α) :
    (putList put items).length = listSize size items := by
  rw [putList, listSize, List.length_append, putLength, length_littleEndian]
  congr 1
  induction items with
  | nil => rfl
  | cons a items ih => rw [List.flatMap_cons, List.length_append, h, List.foldr_cons, ih]

theorem length_putUInt32 (v : UInt32) : (putUInt32 v).length = 4 := length_littleEndian ..

theorem length_putUInt64 (v : UInt64) : (putUInt64 v).length = 8 := length_littleEndian ..

theorem length_putValue (v : Value) : (putValue v).length = valueSize v := by
  obtain ⟨t, a⟩ := v
  rw [valueSize.eq_def, putValue.eq_def, List.length_cons, Nat.add_comm]
  congr 1
  cases t with
  | bool => rfl
  | byte => rfl
  | short => exact length_putUInt32 _
  | char => exact length_putUInt32 _
  | int32 => exact length_putUInt32 _
  | int64 => exact length_putUInt64 _
  | float32 => exact length_putUInt32 _
  | float64 => exact length_putUInt64 _
  | string => exact length_putString _
  | generic => exact length_putBytes _

theorem length_putLayout (l : Layout) : (putLayout l).length = layoutSize l := by
  have hmetadata : ∀ m, (putMetadata m).length = metadataSize m := by
    intro m
    rw [putMetadata, List.length_append, metadataSize, length_putList length_putString]
    congr 1
    refine length_putList (fun a => ?_) _
    rw [List.length_append, length_putString, length_putValue]
  have hfield : ∀ f, (putFieldInfo f).length = fieldInfoSize f := by
    intro f
    rw [putFieldInfo, List.length_append, List.length_cons, length_putString, hmetadata,
      fieldInfoSize]
    omega
  rw [putLayout, List.length_append, length_putString, length_putList hfield, layoutSize]

theorem length_putColumns {α : Type} {put : α → Bytes} {size : α → Nat}
    (h : ∀ a, (put a).length = size a) (cols : List (WireColumn α)) :
    (putList (putColumn put) cols).length = columnsSize size cols := by
  refine length_putList (fun c => ?_) cols
  rw [putColumn, List.length_append, length_putUInt32, length_putList h]

theorem length_putData (d : RowData) : (putData d).length = dataSize d := by
  have hbools : ∀ b, (putBool b).length = 1 := fun _ => rfl
  have hbytes : ∀ v, (putInt8 v).length = 1 := fun _ => rfl
  have hint32s : ∀ v, (putInt32 v).length = 4 := fun v => length_putUInt32 v.toUInt32
  have hint64s : ∀ v, (putInt64 v).length = 8 := fun v => length_putUInt64 v.toUInt64
  simp only [putData, dataSize, List.length_append]
  rw [length_putList length_putUInt32, length_putColumns hbools, length_putColumns hbytes,
    length_putColumns hint32s, length_putColumns hint64s, length_putColumns length_putUInt32,
    length_putColumns length_putUInt64, length_putColumns length_putString,
    length_putColumns length_putBytes]

/-- The length that is told without writing the frame. -/
theorem length_responseBody (r : Response) : (responseBody r).length + 1 = responseLength r := by
  have hpart : ∀ {α : Type} {put : α → Bytes} {size : α → Nat} (o : Option α),
      (∀ a, (put a).length = size a) → (putOption put o).length = (o.map size).getD 0 := by
    intro α put size o h
    cases o with
    | none => rfl
    | some a => exact h a
  have hack : ∀ a, (putAcknowledgement a).length = 1 + stringSize a.message := by
    intro a
    rw [putAcknowledgement, List.length_append, length_putString]
    rfl
  have hid : (putInt32 r.subscription).length = 4 := length_putUInt32 _
  have htoken : (putInt64 r.token).length = 8 := length_putUInt64 _
  rw [responseBody, responseLength]
  simp only [List.length_append, List.length_cons]
  rw [hpart r.schema length_putLayout, hpart r.data length_putData,
    hpart r.acknowledgement hack, hid, htoken]
  omega

end Wire

end TableFeed
