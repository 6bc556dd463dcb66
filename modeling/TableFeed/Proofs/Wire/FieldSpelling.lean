import Mathlib
import TableFeed.Proofs.Wire.RoundTrip
import TableFeed.Proofs.Wire.StringOrder
/-!
Fields as a message spells them. A field has a set of tags and a map of attributes, while a message
may list these in any order and as often as it likes. What is written for a field is its shortest
spelling and the only one that goes up. Reading gives the field; the spelling can be read as well.
-/

namespace TableFeed

/-! ### What a set or a map keeps of a list -/

namespace AscSet

variable {α : Type} [Ord α] {w : α → Nat}

theorem sum_place_le (x : α) (l : List α) :
    ((place x l).map w).sum ≤ w x + (l.map w).sum := by
  induction l with
  | nil => simp [place]
  | cons y ys ih =>
      unfold place
      split
      · simp
      · exact Nat.le_add_left ..
      · simp only [List.map_cons, List.sum_cons]
        omega

variable [Std.TransOrd α] [Std.LawfulEqOrd α]

theorem sum_insertAll_le (s : AscSet α) (xs : List α) :
    ((s.insertAll xs).toList.map w).sum ≤ (s.toList.map w).sum + (xs.map w).sum := by
  induction xs generalizing s with
  | nil => exact Nat.le_refl _
  | cons x xs ih =>
      have hplace : ((s.insert x).toList.map w).sum ≤ w x + (s.toList.map w).sum :=
        sum_place_le x s.toList
      have hrest := ih (s.insert x)
      rw [insertAll, List.foldl_cons, ← insertAll, List.map_cons, List.sum_cons]
      omega

theorem sum_ofList_le (xs : List α) : ((ofList xs).toList.map w).sum ≤ (xs.map w).sum := by
  have h := sum_insertAll_le (w := w) empty xs
  rw [empty, List.map_nil, List.sum_nil, Nat.zero_add] at h
  exact h

theorem toList_ofList_of_ascending {xs : List α}
    (h : xs.Pairwise (fun a b => compare a b = .lt)) : (ofList xs).toList = xs :=
  congrArg toList (ofList_toList ⟨xs, h⟩)

end AscSet

namespace AscMap

variable {κ α : Type} [Ord κ] {w : κ × α → Nat}

theorem sum_place_le (k : κ) (v : α) (l : List (κ × α)) :
    ((place k v l).map w).sum ≤ w (k, v) + (l.map w).sum := by
  induction l with
  | nil => simp [place]
  | cons e es ih =>
      unfold place
      split
      · simp
      · simp only [List.map_cons, List.sum_cons]
        omega
      · simp only [List.map_cons, List.sum_cons]
        omega

variable [Std.TransOrd κ] [Std.LawfulEqOrd κ]

theorem sum_insertAll_le (m : AscMap κ α) (es : List (κ × α)) :
    ((es.foldl (fun m e => m.insert e.1 e.2) m).toList.map w).sum ≤
      (m.toList.map w).sum + (es.map w).sum := by
  induction es generalizing m with
  | nil => exact Nat.le_refl _
  | cons e es ih =>
      have hplace : ((m.insert e.1 e.2).toList.map w).sum ≤
          w e + (m.toList.map w).sum := sum_place_le e.1 e.2 m.toList
      have hrest := ih (m.insert e.1 e.2)
      rw [List.foldl_cons, List.map_cons, List.sum_cons]
      omega

theorem sum_ofList_le (es : List (κ × α)) :
    ((ofList es).toList.map w).sum ≤ (es.map w).sum := by
  have h := sum_insertAll_le (w := w) empty es
  rw [empty, List.map_nil, List.sum_nil, Nat.zero_add] at h
  exact h

theorem toList_ofList_of_ascending [DecidableEq κ] {es : List (κ × α)}
    (h : es.Pairwise (fun a b => compare a.1 b.1 = .lt)) : (ofList es).toList = es :=
  congrArg toList (ofList_toList ⟨es, h⟩)

end AscMap

/-! ### Spellings -/

def BytesBefore (s t : String) : Prop := s.toUTF8.toList < t.toUTF8.toList

instance (s t : String) : Decidable (BytesBefore s t) :=
  inferInstanceAs (Decidable (s.toUTF8.toList < t.toUTF8.toList))

/-- A field as it is described in a message: its tags and attributes as they come, with those that
come again. -/
structure FieldText where
  name : String
  type : DataType
  tags : List String
  attributes : List (String × Value)
  deriving DecidableEq

namespace FieldText

def info (f : FieldText) : FieldInfo :=
  { name := f.name, type := f.type,
    metadata := { tags := .ofList f.tags, attributes := .ofList f.attributes } }

/-- Tags and names of attributes go up, each before the next by its bytes. -/
structure Ascending (f : FieldText) : Prop where
  tags : f.tags.Pairwise BytesBefore
  attributes : (f.attributes.map (·.1)).Pairwise BytesBefore

instance (f : FieldText) : Decidable f.Ascending :=
  decidable_of_iff (f.tags.Pairwise BytesBefore ∧ (f.attributes.map (·.1)).Pairwise BytesBefore)
    ⟨fun h => ⟨h.1, h.2⟩, fun h => ⟨h.tags, h.attributes⟩⟩

end FieldText

def FieldInfo.text (f : FieldInfo) : FieldText :=
  ⟨f.name, f.type, f.metadata.tags.toList, f.metadata.attributes.toList⟩

namespace FieldText

@[simp] theorem info_text (f : FieldInfo) : f.text.info = f := by
  rw [info, FieldInfo.text, AscSet.ofList_toList, AscMap.ofList_toList]

theorem ascending_text (f : FieldInfo) : f.text.Ascending :=
  ⟨f.metadata.tags.ascending.imp compare_eq_lt_iff_bytes.mp,
    List.pairwise_map.mpr (f.metadata.attributes.ascending.imp compare_eq_lt_iff_bytes.mp)⟩

/-- A spelling that goes up is the one that is written for the field. -/
theorem text_info {f : FieldText} (h : f.Ascending) : f.info.text = f := by
  have htags := AscSet.toList_ofList_of_ascending (h.tags.imp compare_eq_lt_iff_bytes.mpr)
  have hattributes := AscMap.toList_ofList_of_ascending
    ((List.pairwise_map.mp h.attributes).imp compare_eq_lt_iff_bytes.mpr)
  rw [info, FieldInfo.text, htags, hattributes]

end FieldText

def Response.fields (r : Response) : List FieldInfo := (r.schema.map (·.fields)).getD []

namespace Wire

def putAttribute (a : String × Value) : Bytes := putString a.1 ++ putValue a.2

def putFieldText (f : FieldText) : Bytes :=
  putString f.name ++ f.type.code :: (putList putString f.tags ++ putList putAttribute f.attributes)

def spelledHead (r : Response) (texts : List FieldText) : Bytes :=
  putInt32 r.subscription ++ (putInt64 r.token ++ r.type.code :: sectionBits r ::
    putOption (fun l => putString l.name ++ putList putFieldText texts) r.schema)

def spelledBody (r : Response) (texts : List FieldText) : Bytes :=
  spelledHead r texts ++
    (putOption putData r.data ++ putOption putAcknowledgement r.acknowledgement)

theorem responseBody_eq_spelled (r : Response) :
    responseBody r = spelledBody r (r.fields.map FieldInfo.text) := by
  have hschema : putOption putLayout r.schema =
      putOption (fun l => putString l.name ++ putList putFieldText (r.fields.map FieldInfo.text))
        r.schema := by
    rw [Response.fields]
    cases r.schema with
    | none => rfl
    | some l =>
        simp only [putOption, putLayout, putList, Option.map_some, Option.getD_some,
          List.length_map, List.flatMap_map]
        rfl
  rw [responseBody, spelledBody, spelledHead, hschema]
  simp only [List.append_assoc, List.cons_append]

/-! ### Lengths -/

theorem length_putList_eq_sum {α : Type} (put : α → Bytes) (items : List α) :
    (putList put items).length = 4 + (items.map fun a => (put a).length).sum := by
  rw [putList, List.length_append, putLength, length_littleEndian, List.length_flatMap]

theorem length_putFieldText_le (f : FieldText) :
    (putFieldText f.info.text).length ≤ (putFieldText f).length := by
  have htags := AscSet.sum_ofList_le (w := fun s => (putString s).length) f.tags
  have hattributes := AscMap.sum_ofList_le (w := fun a => (putAttribute a).length) f.attributes
  simp only [putFieldText, FieldInfo.text, FieldText.info, List.length_append, List.length_cons,
    length_putList_eq_sum]
  omega

/-- No spelling is shorter than the one that is written. -/
theorem length_responseBody_le {r : Response} {texts : List FieldText}
    (h : texts.map FieldText.info = r.fields) :
    (responseBody r).length ≤ (spelledBody r texts).length := by
  have hfields : ((r.fields.map FieldInfo.text).map fun f => (putFieldText f).length).sum ≤
      (texts.map fun f => (putFieldText f).length).sum := by
    rw [← h, List.map_map, List.map_map]
    exact List.sum_le_sum fun f _ => length_putFieldText_le f
  rw [responseBody_eq_spelled, spelledBody, spelledBody, spelledHead, spelledHead]
  cases r.schema with
  | none => exact Nat.le_refl _
  | some l =>
      simp only [putOption, List.length_append, List.length_cons, length_putList_eq_sum]
      omega

/-! ### Reading the spelling -/

namespace Reader

def fieldText : Reader FieldText := do
  let name ← string
  let type ← dataType
  let tags ← list 4 string
  return { name := name, type := type, tags := tags, attributes := ← list 6 attributeEntry }

/-- The fields of a response as they are spelled. What comes after them is not looked at. -/
def fieldTexts : Reader (List FieldText) := do
  let _ ← int32
  let _ ← int64
  let _ ← uint8
  let bits ← uint8
  if bits &&& 1 != 0 then
    let _ ← string
    list 13 fieldText
  else return []

theorem restores_fieldText (f : FieldText) : Restores fieldText (putFieldText f) f := by
  have htags : Restores (list 4 string) (putList putString f.tags) f.tags :=
    restores_list (by decide) fun s _ => ⟨restores_string s, length_putString s⟩
  have hattributes : Restores (list 6 attributeEntry) (putList putAttribute f.attributes)
      f.attributes := by
    refine restores_list (by decide) fun a _ => ⟨?_, ?_⟩
    · exact (restores_string a.1).bind ((restores_value a.2).bind_pure (Prod.mk a.1))
    · have hname := length_putString a.1
      have hvalue := length_putValue a.2
      rw [putAttribute, List.length_append]
      omega
  refine (restores_string f.name).bind ?_
  refine (restores_dataType f.type).bind_cons ?_
  refine htags.bind ?_
  exact hattributes.bind_pure _

theorem length_putFieldText (f : FieldText) : 13 ≤ (putFieldText f).length := by
  have hname := length_putString f.name
  have htags := length_putList putString f.tags
  have hattributes := length_putList putAttribute f.attributes
  simp only [putFieldText, List.length_append, List.length_cons]
  omega

end Reader

def fieldTexts (body : Bytes) : List FieldText :=
  match Reader.fieldTexts.run ⟨0, body⟩ with
  | .ok (texts, _) => texts
  | .error _ => []

open Reader in
theorem fieldTexts_spelledBody {r : Response} {texts : List FieldText}
    (h : texts.map FieldText.info = r.fields) (hlen : (spelledBody r texts).length < 0x100000000) :
    fieldTexts (spelledBody r texts) = texts := by
  have hlayout : Restores (list 13 Reader.fieldText) (putList putFieldText texts) texts :=
    restores_list (by decide) fun f _ => ⟨restores_fieldText f, length_putFieldText f⟩
  obtain ⟨-, hbits, -⟩ := sectionBits_eq r
  have hsection : Restores (if sectionBits r &&& 1 != 0 then do
        let _ ← string
        list 13 Reader.fieldText
      else return [])
      (putOption (fun l => putString l.name ++ putList putFieldText texts) r.schema) texts := by
    rw [hbits]
    rw [Response.fields] at h
    cases hschema : r.schema with
    | none =>
        rw [hschema] at h
        rw [List.map_eq_nil_iff.mp h]
        exact .pure []
    | some l => exact (restores_string l.name).bind hlayout
  have hhead : Restores Reader.fieldTexts (spelledHead r texts) texts := by
    refine (restores_int32 r.subscription).bind ?_
    refine (restores_int64 r.token).bind ?_
    refine (restores_uint8 r.type.code).bind_cons ?_
    exact (restores_uint8 (sectionBits r)).bind_cons hsection
  rw [spelledBody, List.length_append] at hlen
  rw [fieldTexts, spelledBody, hhead (by omega)]

end Wire

end TableFeed
