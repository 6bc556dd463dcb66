import Mathlib
import TableFeed.Proofs.Encoder.Projection
import TableFeed.Proofs.Replica.Runs
import TableFeed.Proofs.Sink.StreamGrammar
/-!
What becomes of a schema that is announced. The serving end checks the names asked for against its
own schema; the receiving end builds a schema of what it is sent, by the rules every schema is built
by. Both say yes to the same names, but for a name that is asked for twice.
-/

namespace TableFeed

namespace Schema

/-- A schema that has fields of another one: those of the given names, in their order, just as they
are there. -/
structure Lists (source : Schema) (names : List String) (s : Schema) : Prop where
  name : s.name = source.name
  size : s.size = names.length
  field : ∀ n name, names[n]? = some name → s.fieldId? name = some n ∧
    ∃ id f, source.fieldId? name = some id ∧ source.field? id = some f ∧ s.field? n = some f

theorem addField_eq_error {s : Schema} {f : FieldInfo} {fault : SchemaFault}
    (h : s.addField f = .error fault) (hname : f.name ≠ "") :
    fault = .duplicateName f.name ∧ f.name ∈ s.fields.map (·.name) := by
  rw [addField, dif_neg hname] at h
  split at h
  · cases h
  · next hnew =>
    cases h
    push Not at hnew
    exact ⟨rfl, List.mem_map.mpr hnew⟩

theorem fields_addField {s s' : Schema} {f : FieldInfo} (h : s.addField f = .ok s') :
    s'.fields = s.fields ++ [f] := by
  rw [addField] at h
  split at h
  · cases h
  · split at h
    · cases h
      rfl
    · cases h

/-- Fields that have names fail to be a schema over a name that more than one of them has. -/
theorem foldlM_addField_eq_error {s : Schema} {fields : List FieldInfo} {fault : SchemaFault}
    (h : fields.foldlM addField s = .error fault) (hnames : ∀ f ∈ fields, f.name ≠ "") :
    ∃ name, fault = .duplicateName name ∧
      2 ≤ ((s.fields ++ fields).map (·.name)).count name := by
  induction fields generalizing s with
  | nil => cases h
  | cons f fields ih =>
      rw [List.foldlM_cons] at h
      cases hadd : s.addField f with
      | error fault' =>
          rw [hadd] at h
          cases h
          obtain ⟨rfl, hmem⟩ := addField_eq_error hadd (hnames f List.mem_cons_self)
          refine ⟨f.name, rfl, ?_⟩
          have hbefore := List.count_pos_iff.mpr hmem
          rw [List.map_append, List.count_append, List.map_cons, List.count_cons_self]
          omega
      | ok s' =>
          rw [hadd] at h
          obtain ⟨name, hfault, htwice⟩ := ih h fun g hg => hnames g (List.mem_cons_of_mem f hg)
          rw [fields_addField hadd, List.append_assoc] at htwice
          exact ⟨name, hfault, htwice⟩

end Schema

namespace Encoder

variable {e : Encoder} {schema : Schema} {ids : List FieldId}

def asked (e : Encoder) (schema : Schema) : List String :=
  e.requested.getD (schema.fields.map (·.name))

/-- What is resolved has the names asked for, in their order. -/
theorem names_of_resolve (h : e.resolve schema = .ok ids) :
    (ids.filterMap schema.field?).map (·.name) = e.asked schema := by
  rw [resolve] at h
  split at h
  · next hnone =>
    cases h
    rw [asked, hnone, schema.filterMap_range]
    rfl
  · next names hnames =>
    rw [asked, hnames]
    exact (resolve_names h).2

/-- What is resolved can be a schema just if no field is asked for twice. -/
theorem wellNamed_iff_distinct (h : e.resolve schema = .ok ids) :
    WellNamed (ids.filterMap schema.field?) ↔ ∀ names ∈ e.requested, names.Nodup := by
  refine ⟨fun hnamed names hsome => ?_, fun hdistinct => (selects_of_resolve h hdistinct).named⟩
  have hnodup := hnamed.2
  rw [names_of_resolve h, asked, Option.mem_def.mp hsome] at hnodup
  exact hnodup

theorem lists_announced (h : e.resolve schema = .ok ids) (hs : Selects schema ids) :
    schema.Lists (e.asked schema) hs.announced := by
  have hnames := names_of_resolve h
  refine ⟨rfl, ?_, fun n name hn => ?_⟩
  · rw [← hnames, List.length_map]
    rfl
  · rw [← hnames, List.getElem?_map, Option.map_eq_some_iff] at hn
    obtain ⟨f, hf, hname⟩ := hn
    have hfield := hf
    rw [Selects.getElem?_fields hs.known] at hfield
    obtain ⟨id, -, hid⟩ := Option.bind_eq_some_iff.mp hfield
    exact ⟨Schema.fieldId?_eq_some_iff.mpr ⟨f, hf, hname⟩, id, f,
      Schema.fieldId?_eq_some_iff.mpr ⟨f, hid, hname⟩, hid, hf⟩

end Encoder

namespace Replica

variable {r : Replica} {l : Layout}

theorem acceptSchema_of_wellNamed (h : WellNamed l.fields) :
    (r.acceptSchema (some l)).2.2 = .ok () ∧
      (r.acceptSchema (some l)).1.schema = some ⟨l, h⟩ := by
  have hschema := l.toSchema_eq
  rw [dif_pos h] at hschema
  rw [acceptSchema, hschema]
  exact ⟨rfl, congrArg some (Sheet.schema_ofSchema _)⟩

/-- A layout whose fields all have names is only refused over one that comes twice. -/
theorem acceptSchema_of_not_wellNamed (h : ¬WellNamed l.fields)
    (hnames : ∀ f ∈ l.fields, f.name ≠ "") :
    ∃ name, 2 ≤ (l.fields.map (·.name)).count name ∧ r.acceptSchema (some l) =
      r.refuse (.malformedMessage (.badSchema (.duplicateName name))) := by
  have hschema := l.toSchema_eq
  rw [dif_neg h] at hschema
  obtain ⟨fault, hfault⟩ := hschema
  obtain ⟨name, rfl, htwice⟩ := Schema.foldlM_addField_eq_error hfault hnames
  refine ⟨name, htwice, ?_⟩
  rw [acceptSchema, hfault]

end Replica

namespace Encoder

/-- A schema that passes the check is adopted; a receiving end takes what is announced, with just
the fields asked for, exactly if none was asked for twice. -/
theorem announced_iff_distinct {e : Encoder} {schema : Schema} (h : e.validate schema = .ok ()) :
    ∃ e' response, e.adopt schema = .ok (e', response) ∧
      ∀ r : Replica, r.subscription = e.subscription →
        ((∀ names ∈ e.requested, names.Nodup) →
          (r.accept response).2.2 = .ok () ∧ (r.accept response).1.phase = .awaitingInit ∧
            ∃ s, (r.accept response).1.schema = some s ∧ schema.Lists (e.asked schema) s) ∧
        ((¬∀ names ∈ e.requested, names.Nodup) →
          ∃ name, 2 ≤ (e.asked schema).count name ∧ r.accept response =
            r.refuse (.malformedMessage (.badSchema (.duplicateName name)))) := by
  obtain ⟨ids, hids⟩ : ∃ ids, e.resolve schema = .ok ids := by
    cases hids : e.resolve schema with
    | error err =>
        rw [validate, hids] at h
        cases h
    | ok ids => exact ⟨ids, rfl⟩
  have hadopt : e.adopt schema = .ok ({ e with projection := some ids },
      .ofSchema e.subscription ⟨schema.name, ids.filterMap schema.field?⟩) := by
    rw [adopt, hids]
    rfl
  refine ⟨_, _, hadopt, fun r hsub => ?_⟩
  rw [Replica.accept_ofSchema hsub]
  constructor
  · intro hdistinct
    have hs : Selects schema ids := selects_of_resolve hids hdistinct
    obtain ⟨hok, hschema⟩ := Replica.acceptSchema_of_wellNamed (r := r)
      (l := ⟨schema.name, ids.filterMap schema.field?⟩) hs.named
    exact ⟨hok, Replica.phase_acceptSchema hok, hs.announced, hschema, lists_announced hids hs⟩
  · intro hrepeated
    have hnames : ∀ f ∈ ids.filterMap schema.field?, f.name ≠ "" := by
      intro f hf
      obtain ⟨id, -, hid⟩ := List.mem_filterMap.mp hf
      exact schema.wellNamed.1 f (Schema.mem_names hid)
    obtain ⟨name, htwice, hrefused⟩ := Replica.acceptSchema_of_not_wellNamed (r := r)
      (l := ⟨schema.name, ids.filterMap schema.field?⟩)
      (mt (wellNamed_iff_distinct hids).mp hrepeated) hnames
    rw [names_of_resolve hids] at htwice
    exact ⟨name, htwice, hrefused⟩

/-- Two of three fields, the other way round: every receiving end then finds them under the numbers
0 and 1. -/
theorem announced_swapped :
    let schema : Schema := ⟨⟨"T", [⟨"a", .int32, {}⟩, ⟨"b", .char, { tags := .ofList ["key"] }⟩,
      ⟨"c", .string, {}⟩]⟩, by decide⟩
    let e : Encoder := { subscription := 1, requested := some ["c", "a"] }
    e.validate schema = .ok () ∧ (∀ names ∈ e.requested, names.Nodup) ∧
      ∃ e' response, e.adopt schema = .ok (e', response) ∧ ∀ r : Replica, r.subscription = 1 →
        ∃ s, (r.accept response).1.schema = some s ∧ s.fieldId? "c" = some 0 ∧
          s.fieldId? "a" = some 1 ∧ s.size = 2 := by
  intro schema e
  have h : e.validate schema = .ok () := by decide
  have hdistinct : ∀ names ∈ e.requested, names.Nodup := by decide
  obtain ⟨e', response, hadopt, haccept⟩ := announced_iff_distinct h
  refine ⟨h, hdistinct, e', response, hadopt, fun r hsub => ?_⟩
  obtain ⟨-, -, s, hs, hlists⟩ := (haccept r hsub).1 hdistinct
  exact ⟨s, hs, (hlists.field 0 "c" rfl).1, (hlists.field 1 "a" rfl).1, hlists.size⟩

/-- A field asked for twice passes the check of the serving end and is refused by the other one. -/
theorem repeated_name_refused :
    ¬∀ (e : Encoder) (schema : Schema), e.validate schema = .ok () →
      ∃ e' response, e.adopt schema = .ok (e', response) ∧
        ∀ r : Replica, r.subscription = e.subscription → (r.accept response).2.2 = .ok () := by
  intro h
  obtain ⟨e', response, hadopt, haccept⟩ :=
    h { subscription := 1, requested := some ["a", "a"] } ⟨⟨"T", [⟨"a", .int32, {}⟩]⟩, by decide⟩
      (by decide)
  cases hadopt
  exact absurd (haccept { subscription := 1 } rfl) (by decide)

end Encoder

end TableFeed
