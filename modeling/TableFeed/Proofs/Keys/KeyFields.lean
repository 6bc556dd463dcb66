import Mathlib
import TableFeed.Proofs.Encoder.Projection
import TableFeed.Proofs.Keys.Bijection
import TableFeed.Proofs.Table.CellHistory
/-!
The key in its fields. A key field reads the value that the key has for it, the last one if it was named
as a key field more than once. So the key fields tell any two keys apart if they are different fields.
-/

namespace TableFeed

namespace Sheet

variable {s t : Sheet} {row : RowId} {cells : List (FieldId × Value)}

/-- A row has these cells. Of the cells for one field the last one counts. -/
def Shows (s : Sheet) (row : RowId) (cells : List (FieldId × Value)) : Prop :=
  ∀ before id v later, cells = before ++ (id, v) :: later → id ∉ later.map (·.1) →
    s.value? row id = some v

theorem Shows.congr (h : s.Shows row cells)
    (hsame : ∀ id ∈ cells.map (·.1), t.value? row id = s.value? row id) : t.Shows row cells := by
  rintro before id v later rfl hlast
  rw [hsame id (List.mem_map_of_mem (List.mem_append_right before List.mem_cons_self))]
  exact h before id v later rfl hlast

end Sheet

namespace KeyedTable

variable {t t' : KeyedTable} {key other : Key} {row : RowId} {cells : List (FieldId × Value)}

/-- A key that has been written is in its fields. -/
theorem shows_writeKey (row : RowId) (cells : List (FieldId × Value)) (s : Sheet)
    (h : (writeKey row cells s).2 = .ok ()) : (writeKey row cells s).1.Shows row cells := by
  induction cells generalizing s with
  | nil => rintro (_ | _) _ _ _ ⟨⟩
  | cons cell cells ih =>
      rw [writeKey] at h ⊢
      split at h
      next u hset =>
        rintro before id v later heq hlast
        cases before with
        | nil =>
            obtain ⟨rfl, rfl⟩ := List.cons.inj heq
            -- what follows leaves this field alone
            exact ((rewrites_writeKey row cells u).kept row id fun hin => hlast hin.2).trans
              (Sheet.value?_set_self hset)
        | cons _ before =>
            obtain ⟨-, rfl⟩ := List.cons.inj heq
            exact ih _ h before id v later rfl hlast
      · cases h

theorem map_fst_zip_subset (ids : List FieldId) (key : Key) :
    (ids.zip key).map (·.1) ⊆ ids := by
  intro id hid
  obtain ⟨⟨id, v⟩, hmem, rfl⟩ := List.mem_map.mp hid
  exact (List.of_mem_zip hmem).1

/-- A row that is written for a new key shows it: the writer cannot touch the key fields. -/
theorem shows_writeNew (t : KeyedTable) (row : RowId) (key : Key) (writes : List Write)
    (h : (t.writeNew row key writes).2 = .ok ()) :
    (t.writeNew row key writes).1.Shows row (t.keyFields.zip key) := by
  have hkey := shows_writeKey row (t.keyFields.zip key) t.table.sheet
  rw [writeNew] at h ⊢
  generalize writeKey row (t.keyFields.zip key) t.table.sheet = out at hkey h ⊢
  obtain ⟨sheet, result⟩ := out
  cases result with
  | error e => cases h
  | ok u =>
      refine (hkey rfl).congr fun id hid => ?_
      exact (Sheet.rewrites_unlocked t.keyFields row writes sheet ∅).kept row id fun hin =>
        hin.2 (map_fst_zip_subset _ _ hid)

/-! ### Tables whose rows show their keys -/

/-- An upsert leaves the keys as they are, or it puts in one more, whose row shows it. -/
theorem keys_upsert (t : KeyedTable) (key : Key) (writes : List Write) :
    (t.upsert key writes).1.keys = t.keys ∨
      t.lookup key = none ∧ key.length = t.keyFields.length ∧ ∃ row,
        (t.upsert key writes).1.keys = ⟨(key, row) :: t.keys.entries⟩ ∧
        (t.upsert key writes).1.table.sheet.Shows row (t.keyFields.zip key) := by
  rw [upsert]
  split
  · exact .inl rfl
  next hnone =>
    split
    · exact .inl rfl
    next hlength =>
      have hlook : t.keys.lookup key = none := hnone
      have hshows := t.shows_writeNew t.table.rows.allocate.2 key writes
      rw [KeyIndex.intern, hlook]
      dsimp only
      generalize t.writeNew t.table.rows.allocate.2 key writes = out at hshows ⊢
      obtain ⟨sheet, result⟩ := out
      cases result with
      | ok u => exact .inr ⟨hnone, not_not.mp hlength, _, rfl, hshows rfl⟩
      | error e => exact .inl (KeyIndex.forget_cons hlook)

theorem keyFields_upsert (t : KeyedTable) (key : Key) (writes : List Write) :
    (t.upsert key writes).1.keyFields = t.keyFields := by
  rw [upsert]
  split
  · rfl
  · split
    · rfl
    · dsimp only
      split <;> rfl

/-- Removing a key brings in no other. -/
theorem Matched.lookup_remove (h : t.Matched) (hrow : (t.remove other).1.lookup key = some row) :
    key ≠ other ∧ t.lookup key = some row := by
  cases hother : t.lookup other with
  | none =>
      rw [KeyedTable.remove, hother] at hrow
      refine ⟨?_, hrow⟩
      rintro rfl
      cases hother.symm.trans hrow
  | some row' =>
      obtain ⟨ids, batch, heq, -, -⟩ := h.remove_eq hother
      rw [heq] at hrow
      have hlook : (t.keys.forget other).lookup key = some row := hrow
      rw [KeyIndex.lookup_forget] at hlook
      split at hlook
      · cases hlook
      next hne => exact ⟨Ne.symm hne, hlook⟩

def Spells (t : KeyedTable) : Prop :=
  ∀ key row, t.lookup key = some row →
    key.length = t.keyFields.length ∧ t.table.sheet.Shows row (t.keyFields.zip key)

namespace Spells

theorem of_keeps (h : t.Spells) (hrow : t.lookup key = some row) (hkeeps : t.Keeps t' key row) :
    key.length = t'.keyFields.length ∧ t'.table.sheet.Shows row (t'.keyFields.zip key) := by
  obtain ⟨hlength, hshows⟩ := h key row hrow
  rw [hkeeps.keyFields]
  exact ⟨hlength, hshows.congr fun id hid => hkeeps.kept id (map_fst_zip_subset _ _ hid)⟩

theorem upsert (h : t.Spells) (hm : t.Matched)
    (hroom : t.lookup other = none → other.length = t.keyFields.length → t.table.rows.HasRoom)
    (writes : List Write) : (t.upsert other writes).1.Spells := by
  intro key row hrow
  rcases t.keys_upsert other writes with hsame | ⟨hnew, hlength, row', hkeys, hshows⟩
  · have hold : t.lookup key = some row := (congrArg (·.lookup key) hsame).symm.trans hrow
    exact h.of_keeps hold (hm.keeps_upserts hold (upserts_upsert hm.sound hroom writes))
  · have hlook : KeyIndex.lookup ⟨(other, row') :: t.keys.entries⟩ key = some row :=
      (congrArg (·.lookup key) hkeys).symm.trans hrow
    rw [KeyIndex.lookup_cons] at hlook
    split at hlook
    next heq =>
      cases heq
      cases hlook
      rw [keyFields_upsert]
      exact ⟨hlength, hshows⟩
    · exact h.of_keeps hlook (hm.keeps_upserts hlook (upserts_upsert hm.sound hroom writes))

theorem call (h : t.Spells) (hm : t.Matched) {c : Call}
    (hroom : c.Takes t → t.table.rows.HasRoom) : (t.call c).Spells := by
  cases c with
  | upsert key writes => exact h.upsert hm (fun hnone hlength => hroom ⟨hnone, hlength⟩) writes
  | remove other =>
      intro key row hrow
      obtain ⟨hne, hold⟩ := hm.lookup_remove hrow
      exact h.of_keeps hold (hm.keeps_call hold hroom fun heq => hne (Call.remove.inj heq).symm)
  | fire =>
      intro key row hrow
      exact h.of_keeps hrow (hm.keeps_call hrow hroom nofun)

theorem run (h : t.Spells) (hm : t.Matched) {cs : List Call} (hroom : HasRoomFor cs t) :
    (t.run cs).Spells := by
  induction cs generalizing t with
  | nil => exact h
  | cons c cs ih => exact ih (h.call hm hroom.1) (hm.call hroom.1) hroom.2

end Spells

/-! ### Key fields -/

theorem keyFields_call (t : KeyedTable) (c : Call) : (t.call c).keyFields = t.keyFields := by
  cases c with
  | upsert key writes => exact t.keyFields_upsert key writes
  | remove key =>
      rw [call, remove]
      split
      · rfl
      · dsimp only
        split <;> rfl
  | fire => rfl

theorem keyFields_run (t : KeyedTable) (cs : List Call) : (t.run cs).keyFields = t.keyFields := by
  induction cs generalizing t with
  | nil => rfl
  | cons c cs ih => exact (ih (t.call c)).trans (t.keyFields_call c)

/-- The key fields are those with the names that were given, in their order. -/
theorem fieldIds_of_create {schema : Schema} {names : List String} (h : create schema names = .ok t) :
    names.map schema.fieldId? = t.keyFields.map some := by
  rw [create] at h
  split at h
  · cases h
  generalize hids : List.mapM (m := Except Error) _ names = ids at h
  cases ids with
  | error e => cases h
  | ok ids =>
      cases h
      rw [← List.forall₂_eq_eq_eq, List.forall₂_map_left_iff, List.forall₂_map_right_iff]
      refine (forall₂_of_mapM hids).imp fun name id hid => ?_
      split at hid
      next found hfound => rw [hfound, Except.ok.inj hid]
      · cases hid

/-- Different names are those of different fields. -/
theorem nodup_keyFields {schema : Schema} {names : List String} (h : create schema names = .ok t)
    (hnames : names.Nodup) : t.keyFields.Nodup := by
  have hids := fieldIds_of_create h
  refine List.Nodup.of_map some (hids ▸ List.Nodup.map_on (fun a ha b hb hsame => ?_) hnames)
  obtain ⟨id, -, hid⟩ := List.mem_map.mp (hids ▸ List.mem_map_of_mem ha)
  obtain ⟨f, hf, hname⟩ := Schema.fieldId?_eq_some_iff.mp hid.symm
  obtain ⟨g, hg, hother⟩ := Schema.fieldId?_eq_some_iff.mp (hsame.symm.trans hid.symm)
  cases hf.symm.trans hg
  exact hname.symm.trans hother

/-! ### What the key fields tell -/

/-- Of the cells for a field one is the last. -/
theorem exists_last {id : FieldId} {v : Value} (h : (id, v) ∈ cells) :
    ∃ before w later, cells = before ++ (id, w) :: later ∧ id ∉ later.map (·.1) := by
  induction cells generalizing v with
  | nil => cases h
  | cons cell cells ih =>
      by_cases hagain : id ∈ cells.map (·.1)
      · obtain ⟨⟨_, w⟩, hw, rfl⟩ := List.mem_map.mp hagain
        obtain ⟨before, w, later, rfl, hlast⟩ := ih hw
        exact ⟨cell :: before, w, later, rfl, hlast⟩
      · rcases List.mem_cons.mp h with rfl | hmem
        · exact ⟨[], v, cells, rfl, hagain⟩
        · exact absurd (List.mem_map_of_mem hmem) hagain

theorem map_eq_map_ok_iff {ids : List FieldId} (read : FieldId → Except Error Value)
    (hlength : key.length = ids.length) :
    ids.map read = key.map .ok ↔ ∀ id v, (id, v) ∈ ids.zip key → read id = .ok v := by
  rw [← List.forall₂_eq_eq_eq, List.forall₂_map_left_iff, List.forall₂_map_right_iff,
    List.forall₂_iff_zip]
  exact ⟨fun h id v hmem => h.2 hmem, fun h => ⟨hlength.symm, fun hmem => h _ _ hmem⟩⟩

/-- A key field reads the last value that the key has for it. So a row reads its key, and no two
rows the same one, if no key field was named twice. -/
theorem key_fields_read_key {schema : Schema} {names : List String} {t₀ : KeyedTable}
    (hcreate : create schema names = .ok t₀) (cs : List Call) (hroom : HasRoomFor cs t₀) :
    let t := t₀.run cs
    let read (row : RowId) (id : FieldId) := t.table.get row (.id id)
    (∀ key row, t.lookup key = some row →
        key.length = t.keyFields.length ∧
        (∀ before id v later, t.keyFields.zip key = before ++ (id, v) :: later →
          id ∉ later.map (·.1) → read row id = .ok v) ∧
        (t.keyFields.map (read row) = key.map .ok ↔
          ∀ id v w, (id, v) ∈ t.keyFields.zip key → (id, w) ∈ t.keyFields.zip key → v = w)) ∧
      (names.Nodup →
        (∀ key row, t.lookup key = some row → t.keyFields.map (read row) = key.map .ok) ∧
        ∀ row other, t.table.isLive row = true → t.table.isLive other = true →
          t.keyFields.map (read row) = t.keyFields.map (read other) → row = other) := by
  intro t read
  have hstart : t₀.Matched := matched_create hcreate
  have hspells : t.Spells := by
    obtain ⟨ids, rfl⟩ := create_eq hcreate
    exact Spells.run (fun key row hrow => by cases hrow) hstart hroom
  have hend : t.Matched := hstart.run hroom
  have hread : ∀ key row, t.lookup key = some row →
      ∀ before id v later, t.keyFields.zip key = before ++ (id, v) :: later →
        id ∉ later.map (·.1) → read row id = .ok v := by
    intro key row hrow before id v later hcells hlast
    show t.table.get row (.id id) = .ok v
    rw [Table.get_of_live (hend.live hrow), (hspells key row hrow).2 before id v later hcells hlast]
    rfl
  have hiff : ∀ key row, t.lookup key = some row →
      (t.keyFields.map (read row) = key.map .ok ↔
        ∀ id v w, (id, v) ∈ t.keyFields.zip key → (id, w) ∈ t.keyFields.zip key → v = w) := by
    intro key row hrow
    rw [map_eq_map_ok_iff (read row) (hspells key row hrow).1]
    constructor
    · intro hall id v w hv hw
      exact Except.ok.inj ((hall id v hv).symm.trans (hall id w hw))
    · intro hone id v hv
      obtain ⟨before, w, later, hcells, hlast⟩ := exists_last hv
      have hw : (id, w) ∈ t.keyFields.zip key :=
        hcells ▸ List.mem_append_right before List.mem_cons_self
      rw [hread key row hrow before id w later hcells hlast, hone id v w hv hw]
  refine ⟨fun key row hrow => ⟨(hspells key row hrow).1, hread key row hrow, hiff key row hrow⟩,
    fun hnames => ?_⟩
  have hdistinct : t.keyFields.Nodup := t₀.keyFields_run cs ▸ nodup_keyFields hcreate hnames
  have hspelled : ∀ key row, t.lookup key = some row →
      t.keyFields.map (read row) = key.map .ok := by
    intro key row hrow
    have hnodup : ((t.keyFields.zip key).map (·.1)).Nodup := by
      rw [List.map_fst_zip (Nat.le_of_eq (hspells key row hrow).1.symm)]
      exact hdistinct
    refine (hiff key row hrow).mpr fun id v w hv hw => ?_
    exact (Prod.mk.inj (List.inj_on_of_nodup_map hnodup hv hw rfl)).2
  refine ⟨hspelled, fun row other hrow hother hsame => ?_⟩
  obtain ⟨key, hkey⟩ := hend.live_iff.mp (RowIds.isLive_iff.mp hrow)
  obtain ⟨key', hkey'⟩ := hend.live_iff.mp (RowIds.isLive_iff.mp hother)
  have hkeys : key.map (Except.ok (ε := Error)) = key'.map .ok :=
    (hspelled key row hkey).symm.trans (hsame.trans (hspelled key' other hkey'))
  have heq : key = key' := List.map_injective_iff.mpr (fun _ _ h => Except.ok.inj h) hkeys
  exact Option.some.inj (hkey.symm.trans (heq ▸ hkey'))

/-- Two key fields in another order than those of the schema, and a row that is written to twice. -/
theorem key_fields_read_key_pair :
    let schema : Schema := ⟨⟨"A", [⟨"k", .int32, {}⟩, ⟨"x", .bool, {}⟩, ⟨"s", .string, {}⟩]⟩, by decide⟩
    let t₀ : KeyedTable := { table := .create schema, keyFields := [2, 0] }
    let key (s : String) : Key := [⟨.string, s⟩, ⟨.int32, 7⟩]
    let cs : List Call := [.upsert (key "a") [], .upsert (key "b") [], .fire,
      .upsert (key "b") [⟨.name "x", ⟨.bool, true⟩⟩]]
    create schema ["s", "k"] = .ok t₀ ∧ HasRoomFor cs t₀ ∧ (t₀.run cs).lookup (key "b") = some 1 ∧
      [2, 0].map (fun id => (t₀.run cs).table.get 1 (.id id)) =
        [.ok ⟨.string, "b"⟩, .ok ⟨.int32, 7⟩] := by
  intro schema t₀ key cs
  have hcreate : create schema ["s", "k"] = .ok t₀ := rfl
  have hroom : HasRoomFor cs t₀ :=
    ⟨fun _ => ⟨0, by decide, by decide⟩, fun _ => ⟨1, by decide, by decide⟩, False.elim,
      fun _ => ⟨2, by decide, by decide⟩, trivial⟩
  have hlook : (t₀.run cs).lookup (key "b") = some 1 := by decide
  exact ⟨hcreate, hroom, hlook,
    ((key_fields_read_key hcreate cs hroom).2 (by decide)).1 (key "b") 1 hlook⟩

/-- If a field is named twice, the row of a key reads another one, and two rows read the same. -/
theorem repeated_key_field :
    (¬∀ schema names t₀, create schema names = .ok t₀ → ∀ cs, HasRoomFor cs t₀ →
      ∀ key row, (t₀.run cs).lookup key = some row →
        (t₀.run cs).keyFields.map (fun id => (t₀.run cs).table.get row (.id id)) =
          key.map .ok) ∧
    ¬∀ schema names t₀, create schema names = .ok t₀ → ∀ cs, HasRoomFor cs t₀ →
      ∀ row other, (t₀.run cs).table.isLive row = true → (t₀.run cs).table.isLive other = true →
        (t₀.run cs).keyFields.map (fun id => (t₀.run cs).table.get row (.id id)) =
          (t₀.run cs).keyFields.map (fun id => (t₀.run cs).table.get other (.id id)) →
        row = other := by
  let schema : Schema := ⟨⟨"T", [⟨"a", .int32, {}⟩]⟩, by decide⟩
  let t₀ : KeyedTable := { table := .create schema, keyFields := [0, 0] }
  let key (n : Int32) : Key := [⟨.int32, n⟩, ⟨.int32, 2⟩]
  let cs : List Call := [.upsert (key 1) [], .upsert (key 2) []]
  have hcreate : create schema ["a", "a"] = .ok t₀ := rfl
  have hroom : HasRoomFor cs t₀ :=
    ⟨fun _ => ⟨0, by decide, by decide⟩, fun _ => ⟨1, by decide, by decide⟩, trivial⟩
  have hreads : ∀ row, row = 0 ∨ row = 1 →
      [0, 0].map (fun id => (t₀.run cs).table.get row (.id id)) = [.ok ⟨.int32, 2⟩, .ok ⟨.int32, 2⟩] := by
    rintro row (rfl | rfl) <;> rfl
  refine ⟨fun h => ?_, fun h => ?_⟩
  · have hsame := h schema ["a", "a"] t₀ hcreate cs hroom (key 1) 0 (by decide)
    have hkey := (hreads 0 (.inl rfl)).symm.trans hsame
    exact absurd (Except.ok.inj (List.cons.inj hkey).1) (by decide)
  · have hsame : (0 : RowId) = 1 := h schema ["a", "a"] t₀ hcreate cs hroom 0 1 (by decide) (by decide)
      ((hreads 0 (.inl rfl)).trans (hreads 1 (.inr rfl)).symm)
    exact absurd hsame (by decide)

end KeyedTable

end TableFeed
