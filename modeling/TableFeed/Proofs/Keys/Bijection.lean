import Mathlib
import TableFeed.Proofs.Table.Operations
/-!
Keys and rows. The keys of a table and its live rows stand for each other, whatever is upserted and
removed, and the key of a row stays in its fields for as long as the row is there.
-/

namespace TableFeed

namespace KeyIndex

variable {κ : Type} [DecidableEq κ] {ix : KeyIndex κ} {key other : κ} {row : RowId}

theorem lookup_cons (entries : List (κ × RowId)) :
    (⟨(key, row) :: entries⟩ : KeyIndex κ).lookup other =
      if key = other then some row else (⟨entries⟩ : KeyIndex κ).lookup other := rfl

theorem lookup_forget :
    (ix.forget key).lookup other = if key = other then none else ix.lookup other := by
  obtain ⟨entries⟩ := ix
  induction entries with
  | nil => simp [forget, lookup, AscMap.lookIn]
  | cons e es ih =>
      simp only [forget, lookup] at ih ⊢
      by_cases he : e.1 = key
      · rw [List.filter_cons_of_neg (by simp [he]), ih, AscMap.lookIn, he]
        split <;> rfl
      · rw [List.filter_cons_of_pos (by simp [he]), AscMap.lookIn, AscMap.lookIn, ih]
        by_cases hother : key = other
        · simp [hother, hother ▸ he]
        · simp [hother]

theorem forget_cons (h : ix.lookup key = none) :
    (⟨(key, row) :: ix.entries⟩ : KeyIndex κ).forget key = ix := by
  have hrest : ix.entries.filter (fun e => decide (e.1 ≠ key)) = ix.entries := by
    refine List.filter_eq_self.mpr fun e he => decide_eq_true fun heq => ?_
    exact AscMap.lookIn_eq_none_iff.mp h (heq ▸ List.mem_map_of_mem he)
  rw [forget, List.filter_cons_of_neg (by simp), hrest]

theorem perm_forget (hdistinct : (ix.entries.map (·.1)).Nodup) (h : ix.lookup key = some row) :
    ix.entries.Perm ((key, row) :: (ix.forget key).entries) := by
  have hmem : (key, row) ∈ ix.entries := AscMap.mem_of_lookIn h
  have hnot : (key, row) ∉ (ix.forget key).entries := fun hin =>
    of_decide_eq_true (List.mem_filter.mp hin).2 rfl
  have hnodup : ((key, row) :: (ix.forget key).entries).Nodup :=
    List.nodup_cons.mpr ⟨hnot, (List.Nodup.of_map _ hdistinct).filter _⟩
  refine (List.perm_ext_iff_of_nodup (List.Nodup.of_map _ hdistinct) hnodup).mpr fun e => ?_
  rw [List.mem_cons, forget, List.mem_filter, decide_eq_true_iff]
  constructor
  · intro he
    by_cases heq : e.1 = key
    · exact .inl (List.inj_on_of_nodup_map hdistinct he hmem heq)
    · exact .inr ⟨he, heq⟩
  · rintro (rfl | ⟨he, -⟩)
    · exact hmem
    · exact he

end KeyIndex

/-! ### Locked fields -/

namespace Sheet

/-- A writer leaves the locked fields of its row alone. -/
theorem rewrites_unlocked (locked : List FieldId) (row : RowId) (writes : List Write) (s : Sheet)
    (written : FieldSet) : s.Rewrites (writeRow locked row writes s written).1 row (· ∉ locked) := by
  induction writes generalizing s written with
  | nil => exact .refl ..
  | cons w writes ih =>
      rw [writeRow]
      split
      · exact .refl ..
      · next t id hput =>
        have hfirst : s.Rewrites t row (· ∉ locked) :=
          (rewrites_put hput).mono fun _ heq => heq ▸ (put_eq_ok hput).1
        exact hfirst.trans (ih t _)

end Sheet

/-- Reading a cell of a live row. -/
theorem Table.get_of_live {t : Table} {row : RowId} (hrow : row ∈ t.rows.live) (id : FieldId) :
    t.get row (.id id) =
      (t.sheet.value? row id).elim (.error (.fieldNotFound (.id id))) .ok := by
  have hlive : t.isLive row = true := RowIds.isLive_iff.mpr hrow
  rw [Table.get, Sheet.resolve, Sheet.value?]
  dsimp only [bind, Except.bind]
  cases t.sheet.field? id with
  | none => rfl
  | some f =>
      dsimp only [Option.map_some]
      rw [if_pos hlive]
      rfl

/-- Reading a cell of a row that is live in both of two tables. -/
theorem Table.get_congr {t t' : Table} {row : RowId} {id : FieldId} (hrow : row ∈ t.rows.live)
    (hrow' : row ∈ t'.rows.live) (h : t'.sheet.value? row id = t.sheet.value? row id) :
    t'.get row (.id id) = t.get row (.id id) := by
  rw [get_of_live hrow, get_of_live hrow', h]

namespace KeyedTable

variable {t t' : KeyedTable} {key other : Key} {row : RowId} {result : Except Error (RowId × Bool)}

/-! ### What an upsert does -/

inductive Upserts (t : KeyedTable) (key : Key) :
    KeyedTable → Except Error (RowId × Bool) → Prop
  /-- The row of the key was written to, up to its key fields. -/
  | known {row : RowId} {sheet : Sheet} {batch : Batch} {result : Except Error (RowId × Bool)}
      (there : t.lookup key = some row) (rewrites : t.table.sheet.Rewrites sheet row (· ∉ t.keyFields))
      (gives : ∀ out, result = .ok out → out = (row, false)) :
      Upserts t key { t with table := { t.table with sheet := sheet, batch := batch } } result
  /-- A key that does not go with the key fields. -/
  | misfit {e : Error} : Upserts t key t (.error e)
  | added {row : RowId} {sheet : Sheet} {ids : RowIds} {batch : Batch}
      (new : t.lookup key = none) (sound : ids.Sound) (unused : row ∉ t.table.rows.live)
      (live : ids.live = t.table.rows.live.insert row)
      (rewrites : t.table.sheet.Rewrites sheet row fun _ => True) :
      Upserts t key { t with table := { t.table with rows := ids, sheet := sheet, batch := batch },
                             keys := ⟨(key, row) :: t.keys.entries⟩ } (.ok (row, true))
  /-- The row that was taken has been discarded. -/
  | failed {sheet : Sheet} {ids : RowIds} {e : Error} (sound : ids.Sound)
      (live : ids.live = t.table.rows.live)
      (kept : ∀ row ∈ t.table.rows.live, ∀ id,
        sheet.value? row id = t.table.sheet.value? row id) :
      Upserts t key { t with table := { t.table with rows := ids, sheet := sheet } } (.error e)

theorem upserts_known (hrow : t.lookup key = some row) (writes : List Write) :
    t.Upserts key (t.upsert key writes).1 (t.upsert key writes).2 := by
  rw [upsert, hrow]
  dsimp only
  rw [Table.updateLocked]
  split
  · refine .known hrow (Sheet.rewrites_unlocked t.keyFields row writes t.table.sheet ∅) ?_
    intro out hout
    dsimp only at hout
    generalize (Sheet.writeRow t.keyFields row writes t.table.sheet ∅).2.2 = written at hout
    cases written with
    | error e => cases hout
    | ok u => exact (Except.ok.inj hout).symm
  · exact .known hrow (.refl ..) (by rintro _ ⟨⟩)

theorem upserts_new (hsound : t.table.rows.Sound) (hroom : t.table.rows.HasRoom)
    (hnone : t.lookup key = none) (hlength : key.length = t.keyFields.length)
    (writes : List Write) :
    t.Upserts key (t.upsert key writes).1 (t.upsert key writes).2 := by
  have hlook : t.keys.lookup key = none := hnone
  have hsheet := t.rewrites_writeNew t.table.rows.allocate.2 key writes
  obtain ⟨hunused, -, hlive, -, hafter⟩ := hsound.allocate hroom
  rw [upsert, hnone]
  dsimp only
  rw [if_neg (not_not_intro hlength), KeyIndex.intern, hlook]
  dsimp only
  generalize t.writeNew t.table.rows.allocate.2 key writes = out at hsheet ⊢
  obtain ⟨sheet, result⟩ := out
  cases result with
  | ok u => exact .added hnone hafter hunused hlive hsheet
  | error e =>
      -- both the row and the key are given back
      obtain ⟨ids, sheet', hdiscard, hfreed, hback, -, -, hkept⟩ :=
        Table.discard_allocated hsound hroom hsheet
      dsimp only
      rw [hdiscard, KeyIndex.forget_cons hlook]
      exact .failed hfreed hback hkept

theorem upserts_upsert (hsound : t.table.rows.Sound)
    (hroom : t.lookup key = none → key.length = t.keyFields.length → t.table.rows.HasRoom)
    (writes : List Write) : t.Upserts key (t.upsert key writes).1 (t.upsert key writes).2 := by
  cases hlook : t.lookup key with
  | some row => exact upserts_known hlook writes
  | none =>
      by_cases hlength : key.length = t.keyFields.length
      · exact upserts_new hsound (hroom hlook hlength) hlook hlength writes
      · rw [upsert, hlook]
        dsimp only
        rw [if_pos hlength]
        exact .misfit

theorem Upserts.of_ok {added : Bool} (hu : t.Upserts key t' (.ok (row, added))) :
    (added = true ↔ t.lookup key = none) ∧ t'.lookup key = some row := by
  cases hu with
  | known hthere _ hgives =>
      cases hgives _ rfl
      exact ⟨by simp [hthere], hthere⟩
  | added hnew => exact ⟨by simp [hnew], if_pos rfl⟩

theorem Upserts.of_error {e : Error} (hu : t.Upserts key t' (.error e)) : t'.keys = t.keys := by
  cases hu <;> rfl

/-! ### Keys and rows -/

/-- The keys are distinct and stand for the live rows, each for one. -/
structure Matched (t : KeyedTable) : Prop where
  sound : t.table.rows.Sound
  distinct : (t.keys.entries.map (·.1)).Nodup
  rows : (t.keys.entries.map (·.2)).Perm t.table.rows.liveRows

theorem create_eq {schema : Schema} {names : List String} (h : create schema names = .ok t) :
    ∃ ids, t = { table := .create schema, keyFields := ids } := by
  rw [create] at h
  split at h
  · cases h
  · generalize List.mapM (m := Except Error) _ names = ids at h
    cases ids with
    | error e => cases h
    | ok ids => exact ⟨ids, (Except.ok.inj h).symm⟩

theorem matched_create {schema : Schema} {names : List String} (h : create schema names = .ok t) :
    t.Matched := by
  obtain ⟨ids, rfl⟩ := create_eq h
  exact ⟨RowIds.sound_empty, List.nodup_nil, .nil⟩

namespace Matched

theorem lookup_eq_some (h : t.Matched) : t.lookup key = some row ↔ (key, row) ∈ t.keys.entries :=
  ⟨AscMap.mem_of_lookIn, AscMap.lookIn_of_mem h.distinct⟩

theorem live_iff (h : t.Matched) : row ∈ t.table.rows.live ↔ ∃ key, t.lookup key = some row := by
  rw [← AscSet.mem_toList, ← RowIds.liveRows, ← h.rows.mem_iff, List.mem_map]
  constructor
  · rintro ⟨⟨key, _⟩, he, rfl⟩
    exact ⟨key, h.lookup_eq_some.mpr he⟩
  · rintro ⟨key, hkey⟩
    exact ⟨(key, row), h.lookup_eq_some.mp hkey, rfl⟩

theorem live (h : t.Matched) (hrow : t.lookup key = some row) : row ∈ t.table.rows.live :=
  h.live_iff.mpr ⟨key, hrow⟩

theorem key_unique (h : t.Matched) (hkey : t.lookup key = some row)
    (hother : t.lookup other = some row) : key = other := by
  have hnodup : (t.keys.entries.map (·.2)).Nodup :=
    h.rows.nodup_iff.mpr (AscSet.nodup_toList t.table.rows.live)
  exact (Prod.mk.inj (List.inj_on_of_nodup_map hnodup (h.lookup_eq_some.mp hkey)
    (h.lookup_eq_some.mp hother) rfl)).1

theorem size_eq (h : t.Matched) : t.size = t.table.size := by
  have hlength := h.rows.length_eq
  rwa [List.length_map] at hlength

theorem of_upserts (h : t.Matched) (hu : t.Upserts key t' result) : t'.Matched := by
  cases hu with
  | known => exact ⟨h.sound, h.distinct, h.rows⟩
  | misfit => exact h
  | @added row sheet ids _ hnew hsound hunused hlive =>
      refine ⟨hsound, ?_, ?_⟩
      · rw [List.map_cons, List.nodup_cons]
        exact ⟨AscMap.lookIn_eq_none_iff.mp hnew, h.distinct⟩
      · rw [List.map_cons, RowIds.liveRows, hlive]
        exact (h.rows.cons row).trans (perm_insert_rows hunused)
  | failed hsound hlive =>
      refine ⟨hsound, h.distinct, ?_⟩
      rw [RowIds.liveRows, hlive]
      exact h.rows

theorem remove_eq (h : t.Matched) (hrow : t.lookup key = some row) :
    ∃ ids batch, t.remove key = ({ t with table := { t.table with rows := ids, batch := batch },
                                          keys := t.keys.forget key }, .ok (some row)) ∧
      ids.Sound ∧ ids.live = t.table.rows.live.erase row := by
  obtain ⟨ids, hids⟩ : ∃ ids, t.table.rows.retire row = .ok ids :=
    ⟨_, RowIds.retire_eq_ok.mpr ⟨h.live hrow, rfl⟩⟩
  obtain ⟨-, hlive, -, hsound⟩ := h.sound.retire hids
  refine ⟨ids, t.table.batch.remove row, ?_, hsound, hlive⟩
  rw [remove, hrow]
  dsimp only
  rw [Table.remove, hids]
  rfl

theorem remove (h : t.Matched) (key : Key) : (t.remove key).1.Matched := by
  cases hrow : t.lookup key with
  | none =>
      rw [KeyedTable.remove, hrow]
      exact h
  | some row =>
      obtain ⟨ids, batch, heq, hsound, hlive⟩ := h.remove_eq hrow
      have hperm := KeyIndex.perm_forget h.distinct hrow
      rw [heq]
      refine ⟨hsound, ?_, ?_⟩
      · exact h.distinct.sublist (List.filter_sublist.map _)
      · have hrows : (t.keys.entries.map (·.2)).Perm
            (row :: (t.keys.forget key).entries.map (·.2)) := hperm.map Prod.snd
        rw [RowIds.liveRows, hlive]
        exact ((hrows.symm.trans h.rows).trans (perm_erase_rows (h.live hrow)).symm).cons_inv

theorem fire (h : t.Matched) : Matched { t with table := t.table.fire.1 } :=
  ⟨h.sound.recycle, h.distinct, h.rows⟩

end Matched

/-! ### Runs -/

inductive Call
  | upsert (key : Key) (writes : List Write)
  | remove (key : Key)
  | fire

def call (t : KeyedTable) : Call → KeyedTable
  | .upsert key writes => (t.upsert key writes).1
  | .remove key => (t.remove key).1
  | .fire => { t with table := t.table.fire.1 }

def run (t : KeyedTable) (cs : List Call) : KeyedTable := cs.foldl call t

/-- Whether a call takes an id for a row. -/
def Call.Takes (t : KeyedTable) : Call → Prop
  | .upsert key _ => t.lookup key = none ∧ key.length = t.keyFields.length
  | _ => False

/-- Whether an id is left whenever one is taken: not all 2³² of them are live or wait for the next
pass. -/
def HasRoomFor : List Call → KeyedTable → Prop
  | [], _ => True
  | c :: cs, t => (c.Takes t → t.table.rows.HasRoom) ∧ HasRoomFor cs (t.call c)

theorem hasRoomFor_append {cs cs' : List Call} (h : HasRoomFor (cs ++ cs') t) :
    HasRoomFor cs t ∧ HasRoomFor cs' (t.run cs) := by
  induction cs generalizing t with
  | nil => exact ⟨trivial, h⟩
  | cons c cs ih =>
      obtain ⟨hfirst, hrest⟩ := h
      obtain ⟨hcs, hcs'⟩ := ih hrest
      exact ⟨⟨hfirst, hcs⟩, hcs'⟩

/-- What a key stands for in the one table it stands for in the other, with the same key fields. -/
structure Keeps (t t' : KeyedTable) (key : Key) (row : RowId) : Prop where
  stands : t'.lookup key = some row
  keyFields : t'.keyFields = t.keyFields
  kept : ∀ id ∈ t.keyFields, t'.table.sheet.value? row id = t.table.sheet.value? row id

namespace Matched

theorem call (h : t.Matched) {c : Call} (hroom : c.Takes t → t.table.rows.HasRoom) :
    (t.call c).Matched := by
  cases c with
  | upsert key writes =>
      exact h.of_upserts
        (KeyedTable.upserts_upsert h.sound (fun hnone hlength => hroom ⟨hnone, hlength⟩) writes)
  | remove key => exact h.remove key
  | fire => exact h.fire

theorem keeps_upserts (h : t.Matched) (hrow : t.lookup key = some row)
    (hu : t.Upserts other t' result) : t.Keeps t' key row := by
  cases hu with
  | @known row' _ _ _ hthere hrewrites =>
      refine ⟨hrow, rfl, fun id hid => hrewrites.kept row id fun hin => hin.2 hid⟩
  | misfit => exact ⟨hrow, rfl, fun _ _ => rfl⟩
  | @added row' _ _ _ hnew _ hunused _ hrewrites =>
      have hne : other ≠ key := by
        rintro rfl
        cases hnew.symm.trans hrow
      refine ⟨?_, rfl, fun id _ => hrewrites.kept row id fun hin => hunused (hin.1 ▸ h.live hrow)⟩
      show KeyIndex.lookup _ key = some row
      rw [KeyIndex.lookup_cons, if_neg hne]
      exact hrow
  | failed _ _ hkept => exact ⟨hrow, rfl, fun id _ => hkept row (h.live hrow) id⟩

theorem keeps_call (h : t.Matched) (hrow : t.lookup key = some row) {c : Call}
    (hroom : c.Takes t → t.table.rows.HasRoom) (hc : c ≠ .remove key) :
    t.Keeps (t.call c) key row := by
  cases c with
  | upsert other writes =>
      exact h.keeps_upserts hrow
        (KeyedTable.upserts_upsert h.sound (fun hnone hlength => hroom ⟨hnone, hlength⟩) writes)
  | remove other =>
      have hne : other ≠ key := fun heq => hc (heq ▸ rfl)
      cases hother : t.lookup other with
      | none =>
          rw [KeyedTable.call, KeyedTable.remove, hother]
          exact ⟨hrow, rfl, fun _ _ => rfl⟩
      | some row' =>
          obtain ⟨ids, batch, heq, -, -⟩ := h.remove_eq hother
          rw [KeyedTable.call, heq]
          refine ⟨?_, rfl, fun _ _ => rfl⟩
          show KeyIndex.lookup _ key = some row
          rw [KeyIndex.lookup_forget, if_neg hne]
          exact hrow
  | fire =>
      refine ⟨hrow, rfl, fun id _ => ?_⟩
      have hretired : row ∉ t.table.rows.retired := h.sound.notRetired row (h.live hrow)
      show (t.table.rows.retired.foldl Sheet.resetRow t.table.sheet).value? row id = _
      rw [Sheet.value?_foldl_resetRow]
      simp [hretired]

theorem run (h : t.Matched) {cs : List Call} (hroom : HasRoomFor cs t) : (t.run cs).Matched := by
  induction cs generalizing t with
  | nil => exact h
  | cons c cs ih => exact ih (h.call hroom.1) hroom.2

theorem keeps_run (h : t.Matched) (hrow : t.lookup key = some row) {cs : List Call}
    (hroom : HasRoomFor cs t) (hcs : .remove key ∉ cs) : t.Keeps (t.run cs) key row := by
  induction cs generalizing t with
  | nil => exact ⟨hrow, rfl, fun _ _ => rfl⟩
  | cons c cs ih =>
      rw [List.mem_cons, not_or] at hcs
      have hfirst := h.keeps_call hrow hroom.1 (Ne.symm hcs.1)
      have hrest := ih (h.call hroom.1) hfirst.stands hroom.2 hcs.2
      refine ⟨hrest.stands, hrest.keyFields.trans hfirst.keyFields, fun id hid => ?_⟩
      exact (hrest.kept id (hfirst.keyFields ▸ hid)).trans (hfirst.kept id hid)

end Matched

/-- Each key stands for one live row and each live row for one key, and a key keeps its row until it
is removed, whatever is upserted and removed as long as ids are left. -/
theorem keys_match_rows {schema : Schema} {names : List String} {t₀ : KeyedTable}
    (hcreate : create schema names = .ok t₀) (cs : List Call) (hroom : HasRoomFor cs t₀) :
    let t := t₀.run cs
    ((∀ row, t.table.isLive row = true ↔ ∃ key, t.lookup key = some row) ∧
        (∀ key other row, t.lookup key = some row → t.lookup other = some row → key = other) ∧
        t.size = t.table.size) ∧
      (∀ before later key row, cs = before ++ later →
        (t₀.run before).lookup key = some row → .remove key ∉ later →
        t.lookup key = some row ∧ ∀ id ∈ t.keyFields,
          t.table.get row (.id id) = (t₀.run before).table.get row (.id id)) ∧
      (∀ before key writes later, cs = before ++ .upsert key writes :: later →
        let s := t₀.run before
        let s' := t₀.run (before ++ [.upsert key writes])
        (∀ row added, (s.upsert key writes).2 = .ok (row, added) →
          (added = true ↔ s.lookup key = none) ∧ s'.lookup key = some row) ∧
        ∀ e, (s.upsert key writes).2 = .error e → ∀ other, s'.lookup other = s.lookup other) ∧
      ∀ before key later, cs = before ++ .remove key :: later →
        ((t₀.run before).remove key).2 = .ok ((t₀.run before).lookup key) ∧
          (t₀.run (before ++ [.remove key])).lookup key = none := by
  intro t
  have hstart : t₀.Matched := matched_create hcreate
  have hend : t.Matched := hstart.run hroom
  refine ⟨⟨fun row => RowIds.isLive_iff.trans hend.live_iff, fun key other row => hend.key_unique,
    hend.size_eq⟩, ?_, ?_, ?_⟩
  · rintro before later key row rfl hrow hlater
    obtain ⟨hbefore, hafter⟩ := hasRoomFor_append hroom
    have hmatched := hstart.run hbefore
    have hkeeps := hmatched.keeps_run hrow hafter hlater
    have hrun : t = (t₀.run before).run later := List.foldl_append
    rw [← hrun] at hkeeps
    refine ⟨hkeeps.stands, fun id hid => ?_⟩
    exact Table.get_congr (hmatched.live hrow) (hend.live hkeeps.stands)
      (hkeeps.kept id (hkeeps.keyFields ▸ hid))
  · rintro before key writes later rfl s s'
    obtain ⟨hbefore, hnext, -⟩ := hasRoomFor_append hroom
    have hu := upserts_upsert (hstart.run hbefore).sound
      (fun hnone hlength => hnext ⟨hnone, hlength⟩) writes
    have hs' : s' = (s.upsert key writes).1 := List.foldl_concat ..
    rw [hs']
    refine ⟨fun row added hok => ?_, fun e herr other => ?_⟩
    · rw [hok] at hu
      exact hu.of_ok
    · rw [herr] at hu
      exact congrArg (KeyIndex.lookup · other) hu.of_error
  · rintro before key later rfl
    obtain ⟨hbefore, -⟩ := hasRoomFor_append hroom
    have hrun : t₀.run (before ++ [.remove key]) = ((t₀.run before).remove key).1 :=
      List.foldl_concat ..
    rw [hrun]
    cases hrow : (t₀.run before).lookup key with
    | none =>
        rw [remove, hrow]
        exact ⟨rfl, hrow⟩
    | some row =>
        obtain ⟨ids, batch, heq, -, -⟩ := (hstart.run hbefore).remove_eq hrow
        rw [heq]
        refine ⟨rfl, ?_⟩
        show KeyIndex.lookup _ key = none
        rw [KeyIndex.lookup_forget, if_pos rfl]

/-- A key goes and another one comes, which gets another row as long as the table has not fired;
the third key keeps its row and its field. -/
theorem keys_match_rows_replaces :
    let schema : Schema := ⟨⟨"A", [⟨"k", .int32, {}⟩]⟩, by simp [WellNamed]⟩
    let t₀ : KeyedTable := { table := .create schema, keyFields := [0] }
    let key (n : Int32) : Key := [⟨.int32, n⟩]
    let before : List Call := [.upsert (key 1) [], .upsert (key 2) []]
    let later : List Call := [.remove (key 1), .upsert (key 3) [], .fire]
    create schema ["k"] = .ok t₀ ∧ HasRoomFor (before ++ later) t₀ ∧
      (t₀.run (before ++ later)).lookup (key 2) = some 1 ∧
      (t₀.run (before ++ later)).table.get 1 (.id 0) = (t₀.run before).table.get 1 (.id 0) ∧
      (t₀.run (before ++ later)).lookup (key 3) = some 2 := by
  intro schema t₀ key before later
  have hcreate : create schema ["k"] = .ok t₀ := rfl
  have hroom : HasRoomFor (before ++ later) t₀ := by
    refine ⟨fun _ => ⟨0, by decide, by decide⟩, fun _ => ⟨1, by decide, by decide⟩, False.elim,
      fun _ => ⟨2, by decide, by decide⟩, False.elim, trivial⟩
  have hmatch := keys_match_rows hcreate (before ++ later) hroom
  obtain ⟨hkeeps, hfield⟩ := hmatch.2.1 before later (key 2) 1 rfl (by decide)
    (by simp [later, key])
  exact ⟨hcreate, hroom, hkeeps, hfield 0 (by decide), by decide⟩

end KeyedTable

end TableFeed
