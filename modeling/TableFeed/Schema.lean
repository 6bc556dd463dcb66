import TableFeed.Error
import TableFeed.Ordered.Map
import TableFeed.Value

/-!
Schemas. A layout is any list of field descriptions, as a message may carry it. A schema is a
layout whose field names are not empty and all different, so that a name stands for one field.
-/

namespace TableFeed

/-- Tags and named attributes of a field. They travel with the schema and decide nothing. -/
structure Metadata where
  tags : AscSet String := ∅
  attributes : AscMap String Value := ∅
  deriving DecidableEq

namespace Metadata

def hasTag (m : Metadata) (t : String) : Bool := m.tags.contains t

def isEmpty (m : Metadata) : Bool := m.tags.isEmpty && m.attributes.isEmpty

end Metadata

structure FieldInfo where
  name : String
  type : DataType
  metadata : Metadata := {}
  deriving DecidableEq

structure Layout where
  name : String
  fields : List FieldInfo
  deriving DecidableEq

/-- Field names are not empty and differ from each other. -/
def WellNamed (fields : List FieldInfo) : Prop :=
  (∀ f ∈ fields, f.name ≠ "") ∧ (fields.map (·.name)).Nodup

structure Schema extends Layout where
  wellNamed : WellNamed fields

namespace Schema

theorem toLayout_injective {s t : Schema} (h : s.toLayout = t.toLayout) : s = t := by
  cases s
  cases t
  cases h
  rfl

instance : DecidableEq Schema := fun s t =>
  if h : s.toLayout = t.toLayout then isTrue (toLayout_injective h)
  else isFalse fun e => h (e ▸ rfl)

/-- The schema of that name without fields. -/
def empty (name : String) : Schema := ⟨⟨name, []⟩, by simp [WellNamed]⟩

instance : Inhabited Schema := ⟨empty ""⟩

def size (s : Schema) : Nat := s.fields.length

/-- The position of the field called `name`. -/
def fieldId? (s : Schema) (name : String) : Option FieldId :=
  s.fields.findIdx? fun f => f.name == name

def field? (s : Schema) (id : FieldId) : Option FieldInfo := s.fields[id]?

/-- The position of the field called `name`, which has to exist. -/
def require (s : Schema) (name : String) : Except Error FieldId :=
  match s.fieldId? name with
  | some id => .ok id
  | none => .error (.fieldNotFound (.name name))

theorem wellNamed_append {fields : List FieldInfo} {f : FieldInfo} (h : WellNamed fields)
    (hname : f.name ≠ "") (hnew : ∀ g ∈ fields, g.name ≠ f.name) :
    WellNamed (fields ++ [f]) := by
  refine ⟨fun g hg => ?_, ?_⟩
  · rcases List.mem_append.1 hg with hg | hg
    · exact h.1 g hg
    · rw [List.mem_singleton.1 hg]
      exact hname
  · rw [List.map_append, List.nodup_append]
    refine ⟨h.2, by simp, fun a ha b hb => ?_⟩
    obtain ⟨g, hg, rfl⟩ := List.mem_map.1 ha
    rw [List.map_singleton, List.mem_singleton] at hb
    rw [hb]
    exact hnew g hg

/-- Appends a field. Its name must be new and not empty. -/
def addField (s : Schema) (f : FieldInfo) : Except SchemaFault Schema :=
  if hname : f.name = "" then .error .emptyName
  else if hnew : ∀ g ∈ s.fields, g.name ≠ f.name then
    .ok ⟨⟨s.name, s.fields ++ [f]⟩, wellNamed_append s.wellNamed hname hnew⟩
  else .error (.duplicateName f.name)

end Schema

/-- The schema of a layout, or the fault of the first field that cannot be added. -/
def Layout.toSchema (l : Layout) : Except SchemaFault Schema :=
  l.fields.foldlM Schema.addField (Schema.empty l.name)

end TableFeed
