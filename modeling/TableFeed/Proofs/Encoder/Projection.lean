import Mathlib
import TableFeed.Proofs.Encoder.RowData
/-!
The fields a subscription asks for. Under a schema they are resolved to positions; the schema that
is announced has just these fields, so a name stands for the same cells on both ends.
-/

namespace TableFeed

/-- A list that is worked through without an error has a result for each of its members. -/
theorem forall₂_of_mapM {α β : Type} {f : α → Except Error β} {xs : List α} {ys : List β}
    (h : xs.mapM f = .ok ys) : List.Forall₂ (fun x y => f x = .ok y) xs ys := by
  induction xs generalizing ys with
  | nil =>
      cases h
      exact .nil
  | cons x xs ih =>
      rw [List.mapM_cons] at h
      cases hx : f x with
      | error e =>
          rw [hx] at h
          cases h
      | ok y =>
          cases hrest : xs.mapM f with
          | error e =>
              rw [hx, hrest] at h
              cases h
          | ok rest =>
              rw [hx, hrest] at h
              cases h
              exact .cons hx (ih hrest)

/-- Positions of fields that can be announced under a schema: each names one of its fields, no two
the same one. -/
structure Selects (schema : Schema) (ids : List FieldId) : Prop where
  known : ∀ id ∈ ids, id < schema.size
  named : WellNamed (ids.filterMap schema.field?)
  few : ids.length ≤ schema.size

/-- Positions of fields that can be sent: there are numbers for all of them on the wire. -/
structure Projects (schema : Schema) (ids : List FieldId) : Prop extends Selects schema ids where
  numbered : ids.length ≤ 0x100000000

def Selects.announced {schema : Schema} {ids : List FieldId} (h : Selects schema ids) : Schema :=
  ⟨⟨schema.name, ids.filterMap schema.field?⟩, h.named⟩

namespace Schema

theorem mem_names {s : Schema} {id : FieldId} {f : FieldInfo} (h : s.field? id = some f) :
    f ∈ s.fields := List.mem_of_getElem? h

/-- Names are unique, so a name is found wherever a field has it. -/
theorem fieldId?_eq_some_iff {s : Schema} {name : String} {id : FieldId} :
    s.fieldId? name = some id ↔ ∃ f, s.field? id = some f ∧ f.name = name := by
  rw [fieldId?, List.findIdx?_eq_some_iff_getElem]
  constructor
  · rintro ⟨hlt, hname, -⟩
    exact ⟨s.fields[id], List.getElem?_eq_getElem hlt, by simpa using hname⟩
  · rintro ⟨f, hf, hname⟩
    obtain ⟨hlt, hget⟩ := List.getElem?_eq_some_iff.mp hf
    refine ⟨hlt, by simp [hget, hname], fun j hj hsame => ?_⟩
    have hjlt : j < s.fields.length := by omega
    have hnd := s.wellNamed.2
    have hmap : (s.fields.map (·.name))[j]? = (s.fields.map (·.name))[id]? := by
      simpa [hjlt, hlt, hget, hname] using hsame
    have hjid := (List.getElem?_inj (by simpa using hjlt) hnd).mp hmap
    omega

end Schema

namespace Selects

variable {schema : Schema} {ids : List FieldId}

/-- The fields of a list of positions that are all in a schema. -/
theorem getElem?_fields (h : ∀ id ∈ ids, id < schema.size) (n : Nat) :
    (ids.filterMap schema.field?)[n]? = ids[n]?.bind schema.field? := by
  induction ids generalizing n with
  | nil => simp
  | cons id ids ih =>
      have hid : id < schema.fields.length := h id List.mem_cons_self
      have hfield : schema.field? id = some schema.fields[id] := List.getElem?_eq_getElem hid
      rw [List.filterMap_cons_some hfield]
      cases n with
      | zero => exact hfield.symm
      | succ n =>
          rw [List.getElem?_cons_succ, List.getElem?_cons_succ]
          exact ih (fun other hother => h other (List.mem_cons_of_mem _ hother)) n

theorem length_fields (h : ∀ id ∈ ids, id < schema.size) :
    (ids.filterMap schema.field?).length = ids.length := by
  induction ids with
  | nil => rfl
  | cons id ids ih =>
      have hid : id < schema.fields.length := h id List.mem_cons_self
      have hfield : schema.field? id = some schema.fields[id] := List.getElem?_eq_getElem hid
      rw [List.filterMap_cons_some hfield, List.length_cons, List.length_cons,
        ih fun other hother => h other (List.mem_cons_of_mem _ hother)]

theorem field?_announced (h : Selects schema ids) (n : Nat) :
    h.announced.field? n = ids[n]?.bind schema.field? := getElem?_fields h.known n

/-- A name that is announced stands for the position that was resolved. -/
theorem fieldId?_announced (h : Selects schema ids) {name : String} {n : FieldId}
    (hn : h.announced.fieldId? name = some n) :
    ∃ id, ids[n]? = some id ∧ schema.fieldId? name = some id := by
  obtain ⟨f, hf, hname⟩ := Schema.fieldId?_eq_some_iff.mp hn
  rw [h.field?_announced] at hf
  obtain ⟨id, hid, hfield⟩ := Option.bind_eq_some_iff.mp hf
  exact ⟨id, hid, Schema.fieldId?_eq_some_iff.mpr ⟨f, hfield, hname⟩⟩

end Selects

theorem Schema.filterMap_range (schema : Schema) :
    (List.range schema.size).filterMap schema.field? = schema.fields := by
  refine List.ext_getElem? fun n => ?_
  rw [Selects.getElem?_fields fun id => List.mem_range.mp]
  by_cases hn : n < schema.size
  · rw [List.getElem?_range hn]
    rfl
  · have hlen : (List.range schema.size).length ≤ n := by simpa using hn
    rw [List.getElem?_eq_none hlen, List.getElem?_eq_none (Nat.le_of_not_lt hn)]
    rfl

namespace Encoder

variable {e : Encoder} {schema : Schema} {ids : List FieldId}

theorem resolve_names {names : List String} (h : names.mapM schema.require = .ok ids) :
    (∀ id ∈ ids, id < schema.size) ∧ (ids.filterMap schema.field?).map (·.name) = names := by
  have hall := forall₂_of_mapM h
  clear h
  induction hall with
  | nil => exact ⟨by simp, rfl⟩
  | @cons name id names ids hid _ ih =>
      obtain ⟨hknown, hnames⟩ := ih
      have hfound : schema.fieldId? name = some id := by
        rw [Schema.require] at hid
        split at hid
        · next found hfound => rw [hfound, Except.ok.inj hid]
        · cases hid
      obtain ⟨f, hf, hname⟩ := Schema.fieldId?_eq_some_iff.mp hfound
      refine ⟨?_, ?_⟩
      · intro other hother
        rcases List.mem_cons.mp hother with rfl | hother
        · exact (List.getElem?_eq_some_iff.mp hf).1
        · exact hknown other hother
      · rw [List.filterMap_cons_some hf, List.map_cons, hname, hnames]

/-- What an encoder resolves can be announced, if no field is asked for twice. -/
theorem selects_of_resolve (h : e.resolve schema = .ok ids)
    (hdistinct : ∀ names, e.requested = some names → names.Nodup) : Selects schema ids := by
  rw [resolve] at h
  split at h
  · cases h
    refine ⟨fun id => List.mem_range.mp, ?_, by simp⟩
    rw [schema.filterMap_range]
    exact schema.wellNamed
  · next names hnames =>
    obtain ⟨hknown, hsame⟩ := resolve_names h
    refine ⟨hknown, ⟨fun f hf => ?_, ?_⟩, ?_⟩
    · obtain ⟨id, -, hid⟩ := List.mem_filterMap.mp hf
      exact schema.wellNamed.1 f (Schema.mem_names hid)
    · rw [hsame]
      exact hdistinct names hnames
    · have hsub : names ⊆ schema.fields.map (·.name) := by
        rw [← hsame]
        intro name hname
        obtain ⟨f, hf, rfl⟩ := List.mem_map.mp hname
        obtain ⟨id, -, hid⟩ := List.mem_filterMap.mp hf
        exact List.mem_map_of_mem (Schema.mem_names hid)
      calc
        ids.length = names.length := by
          rw [← hsame, List.length_map, Selects.length_fields hknown]
        _ ≤ (schema.fields.map (·.name)).length :=
          (List.subperm_of_subset (hdistinct names hnames) hsub).length_le
        _ = schema.size := List.length_map ..

/-- A name that was asked for and is not announced is not in the schema. -/
theorem fieldId?_eq_none (h : e.resolve schema = .ok ids) (hs : Selects schema ids) {name : String}
    (hname : ∀ names, e.requested = some names → name ∈ names)
    (hnone : hs.announced.fieldId? name = none) : schema.fieldId? name = none := by
  rw [resolve] at h
  split at h
  · cases h
    have hfields : hs.announced.fields = schema.fields := schema.filterMap_range
    rw [Schema.fieldId?, hfields] at hnone
    exact hnone
  · next names hnames =>
    obtain ⟨-, hsame⟩ := resolve_names h
    have hmem := hname names hnames
    rw [← hsame] at hmem
    obtain ⟨f, hf, rfl⟩ := List.mem_map.mp hmem
    obtain ⟨n, hn⟩ := List.mem_iff_getElem?.mp hf
    have hfound : hs.announced.fieldId? f.name = some n :=
      Schema.fieldId?_eq_some_iff.mpr ⟨f, hn, rfl⟩
    rw [hnone] at hfound
    cases hfound

/-- A name that is announced was asked for. -/
theorem mem_requested (h : e.resolve schema = .ok ids) (hs : Selects schema ids) {name : String}
    {n : FieldId} (hn : hs.announced.fieldId? name = some n) {names : List String}
    (hnames : e.requested = some names) : name ∈ names := by
  rw [resolve, hnames] at h
  obtain ⟨-, hsame⟩ := resolve_names h
  obtain ⟨f, hf, rfl⟩ := Schema.fieldId?_eq_some_iff.mp hn
  rw [← hsame]
  exact List.mem_map_of_mem (Schema.mem_names (s := hs.announced) hf)

end Encoder

end TableFeed
