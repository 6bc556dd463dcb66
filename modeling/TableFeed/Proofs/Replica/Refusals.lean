import Mathlib
import TableFeed.Hub
import TableFeed.Proofs.Replica.Runs
import TableFeed.Proofs.RowIds.Partition
/-!
What a response leaves behind that a replica refuses. Everything is checked before anything is
written, so the writes that follow are not refused and a refusal leaves no trace. One row escapes
the check: the highest row id of all passes it where the limit allows it and cannot be claimed. The
rows listed before it have come by then, and nobody is told.
-/

namespace TableFeed

/-! ### Writes that are checked one by one -/

namespace Sheet

theorem mapField_same (s : Sheet) (id : FieldId) : s.mapField id (fun _ c => c) = s := by
  have hmodify : s.fields.modify id (·.map fun _ c => c) = s.fields := List.modify_id id s.fields
  cases s
  simp only [mapField, hmodify]

theorem mapField_mapField (s : Sheet) (id : FieldId) (g g' : (t : DataType) → Column t → Column t) :
    (s.mapField id g).mapField id g' = s.mapField id fun t c => g' t (g t c) := by
  have hmodify : (s.fields.modify id (·.map g)).modify id (·.map g') =
      s.fields.modify id (·.map fun t c => g' t (g t c)) := List.modify_modify_eq ..
  simp only [mapField, hmodify]

/-- Cells of a field are all written if they have its type. -/
theorem foldlM_set {s : Sheet} {id : FieldId} {info : FieldInfo}
    (hinfo : s.schema.field? id = some info) (cells : List (RowId × Value))
    (htyped : ∀ cell ∈ cells, cell.2.type = info.type) :
    cells.foldlM (fun s cell => s.set cell.1 id cell.2) s =
      .ok (s.mapField id fun _ c => cells.foldl (fun c cell => c.write cell.1 cell.2) c) := by
  induction cells generalizing s with
  | nil => exact congrArg Except.ok (s.mapField_same id).symm
  | cons cell cells ih =>
      have hset : s.set cell.1 id cell.2 =
          .ok (s.mapField id fun _ c => c.write cell.1 cell.2) := by
        have hfield : (s.field? id).map (·.info) = some info := by
          rw [← hinfo, Schema.field?, schema, List.getElem?_map]
          rfl
        obtain ⟨f, hf, rfl⟩ := Option.map_eq_some_iff.mp hfield
        rw [set, hf]
        exact if_pos (htyped cell List.mem_cons_self)
      rw [List.foldlM_cons, hset]
      refine (ih (by rw [schema_mapField, hinfo])
        fun other hother => htyped other (List.mem_cons_of_mem _ hother)).trans ?_
      rw [mapField_mapField]
      rfl

end Sheet

namespace Replica

/-- Writes the columns of a message cell by cell, up to a write that is refused. A column for a
field that is not there is passed over. -/
def writeChecked (rows : List RowId) (writes : List ColumnWrite) (sheet : Sheet) :
    Except Error Sheet :=
  writes.foldlM (fun sheet w =>
    match sheet.field? w.field with
    | none => .ok sheet
    | some _ => (rows.zip w.values).foldlM (fun s cell => s.set cell.1 w.field cell.2) sheet) sheet

def TypedFor (schema : Schema) (writes : List ColumnWrite) : Prop :=
  ∀ w ∈ writes, ∃ info, schema.field? w.field = some info ∧ ∀ v ∈ w.values, v.type = info.type

theorem writeChecked_eq {rows : List RowId} {writes : List ColumnWrite} {sheet : Sheet}
    (h : TypedFor sheet.schema writes) :
    writeChecked rows writes sheet = .ok (applyColumns rows writes sheet) := by
  induction writes generalizing sheet with
  | nil => rfl
  | cons w writes ih =>
      obtain ⟨info, hinfo, htyped⟩ := h w List.mem_cons_self
      obtain ⟨f, hf⟩ : ∃ f, sheet.field? w.field = some f := by
        have hlt : w.field < (sheet.fields.map (·.info)).length :=
          (List.getElem?_eq_some_iff.mp hinfo).1
        rw [List.length_map] at hlt
        exact ⟨_, List.getElem?_eq_getElem hlt⟩
      have hcells := Sheet.foldlM_set hinfo (rows.zip w.values) fun cell hcell =>
        htyped cell.2 (List.of_mem_zip hcell).2
      rw [writeChecked, List.foldlM_cons, hf]
      dsimp only
      rw [hcells]
      refine ih fun w' hw' => ?_
      rw [Sheet.schema_mapField]
      exact h w' (List.mem_cons_of_mem _ hw')

/-- What a replica plans to write is not refused. -/
theorem typedFor_of_checkShape {r : Replica} {type : ResponseType} {sheet : Sheet} {d : RowData}
    {writes : List ColumnWrite} (h : r.checkShape type sheet d = .ok writes) :
    TypedFor sheet.schema writes := by
  rcases r.settles_checkShape type sheet d with ⟨hd, hok⟩ | ⟨-, e, herr, -⟩
  · obtain rfl : writes = d.columns.map (writeOf sheet.schema.fields) :=
      Except.ok.inj (h.symm.trans hok)
    intro w hw
    obtain ⟨c, hc, rfl⟩ := List.mem_map.mp hw
    have hlt := hd.known c hc
    refine ⟨sheet.schema.fields[c.1], List.getElem?_eq_getElem hlt, fun v hv => ?_⟩
    obtain ⟨sent, hsent, rfl⟩ := List.mem_map.mp hv
    have htyped := hd.typed c hc sent hsent
    obtain ⟨v, hv⟩ := Option.isSome_iff_exists.mp htyped
    rw [hv, Option.getD_some]
    rw [List.getElem?_eq_getElem hlt] at hv
    exact type_of_unwiden hv
  · rw [h] at herr
    cases herr

/-! ### Rows that come one by one -/

theorem applyRows_append {type : ResponseType} {rows rest : List RowId} {r r' : Replica}
    {sheet sheet' : Sheet} {batch batch' : Batch}
    (h : applyRows type rows r sheet batch = (r', sheet', .ok batch')) :
    applyRows type (rows ++ rest) r sheet batch = applyRows type rest r' sheet' batch' := by
  induction rows generalizing r sheet batch with
  | nil =>
      cases h
      rfl
  | cons row rows ih =>
      rw [List.cons_append]
      cases type with
      | message | schema | change =>
          rw [applyRows] at h ⊢ <;> first | exact ih h | (intro htype; cases htype)
      | remove =>
          rw [applyRows] at h ⊢
          split at h
          · cases h
          · exact ih h
      | init | add =>
          rw [applyRows] at h ⊢
          split at h
          · cases h
          · exact ih h

theorem lt_highest {row : RowId} (h : row ≠ 0xffffffff) : row < 0xffffffff :=
  UInt32.lt_of_le_of_ne (UInt32.le_iff_toNat_le.mpr (Nat.le_of_lt_succ row.toNat_lt)) h

/-- A refusal that comes too late. The message is in order, but the highest row id cannot be
claimed: the rows listed before it are live already, and nothing else has changed. -/
def HalfTaken (r : Replica) (response : Response) (e : Error) (r' : Replica) : Prop :=
  r.rowLimit = 0xffffffff ∧ (response.type = .init ∨ response.type = .add) ∧
    e = .invalidRow 0xffffffff ∧ ∃ sheet d before after, r.sheet = some sheet ∧
      response.data = some d ∧ d.rows = before ++ 0xffffffff :: after ∧
      r'.rows.live = r.rows.live.insertAll before ∧
      r' = { r with rows := r'.rows, sheet := some (before.foldl Sheet.resetRow sheet) }

/-- What is left of a replica that has refused a response: everything, but for its phase after
responses out of order. -/
def Intact (r : Replica) (e : Error) (r' : Replica) : Prop :=
  r' = if e.isViolation then { r with phase := .failed } else r

variable {r r' : Replica} {ns : List Notice} {e : Error}

/-- A refused message with the rows of an insertion. -/
theorem apply_insert_error {type : ResponseType} (htype : type = .init ∨ type = .add)
    {rows : List RowId} (hrows : rows.Nodup) (hnew : ∀ row ∈ rows, row ∉ r.rows.live)
    {sheet : Sheet} {writes : List ColumnWrite}
    (h : r.apply type sheet rows writes = (r', .error e)) :
    e = .invalidRow 0xffffffff ∧ ∃ before after, rows = before ++ 0xffffffff :: after ∧
      r'.rows.live = r.rows.live.insertAll before ∧
      r' = { r with rows := r'.rows, sheet := some (before.foldl Sheet.resetRow sheet) } := by
  by_cases hhigh : 0xffffffff ∈ rows
  · obtain ⟨before, after, rfl⟩ := List.append_of_mem hhigh
    obtain ⟨hbefore, -, hapart⟩ := List.nodup_append.mp hrows
    have hother : ∀ row ∈ before, row < 0xffffffff := fun row hrow =>
      lt_highest (hapart row hrow _ List.mem_cons_self)
    obtain ⟨ids, happly, hids⟩ := applyRows_insert htype hbefore hother r
      (fun row hrow => hnew row (List.mem_append_left _ hrow)) sheet {}
    have hdead : (0xffffffff : RowId) ∉ ids.live := by
      rw [hids, AscSet.mem_insertAll, not_or]
      exact ⟨hnew _ hhigh, fun hin => hapart _ hin _ List.mem_cons_self rfl⟩
    have hclaim : ids.claim 0xffffffff = .error (.invalidRow 0xffffffff) :=
      RowIds.claim_eq_error.mpr ⟨hdead, rfl, rfl⟩
    rw [apply, applyRows_append happly] at h
    rcases htype with rfl | rfl
    all_goals
      simp only [applyRows, hclaim] at h
      cases h
      exact ⟨rfl, before, after, rfl, hids, rfl⟩
  · have hother : ∀ row ∈ rows, row < 0xffffffff := fun row hrow =>
      lt_highest fun heq => hhigh (heq ▸ hrow)
    obtain ⟨ids, happly, -⟩ := applyRows_insert htype hrows hother r hnew sheet {}
    rw [apply, happly] at h
    cases h

/-- All that can go wrong with the rows of a checked message is an insertion of the highest one. -/
theorem apply_error {type : ResponseType} (htype : type.carriesRows = true) {rows : List RowId}
    (hrows : rows.Nodup) (hconflict : r.conflict type rows = none) {sheet : Sheet}
    {writes : List ColumnWrite} (h : r.apply type sheet rows writes = (r', .error e)) :
    (type = .init ∨ type = .add) ∧ e = .invalidRow 0xffffffff ∧ ∃ before after,
      rows = before ++ 0xffffffff :: after ∧ r'.rows.live = r.rows.live.insertAll before ∧
      r' = { r with rows := r'.rows, sheet := some (before.foldl Sheet.resetRow sheet) } := by
  rw [conflict_eq_none_iff] at hconflict
  have hlive : ∀ row ∈ rows, row ∈ r.rows.live ↔ needsLive type = true := by
    intro row hrow
    rw [← hconflict row hrow]
    exact decide_eq_true_iff.symm
  cases type with
  | message | schema => cases htype
  | init =>
      exact ⟨.inl rfl, apply_insert_error (.inl rfl) hrows
        (fun row hrow hin => Bool.false_ne_true ((hlive row hrow).mp hin)) h⟩
  | add =>
      exact ⟨.inr rfl, apply_insert_error (.inr rfl) hrows
        (fun row hrow hin => Bool.false_ne_true ((hlive row hrow).mp hin)) h⟩
  | change =>
      simp only [apply, applyRows_change] at h
      cases h
  | remove =>
      obtain ⟨ids, hremove, -⟩ :=
        applyRows_remove hrows r (fun row hrow => (hlive row hrow).mpr rfl) sheet {}
      simp only [apply, hremove] at h
      cases h

theorem acceptRows_error {response : Response} {sheet : Sheet} (hsheet : r.sheet = some sheet)
    (htype : response.type.carriesRows = true) {d : RowData} (hdata : response.data = some d)
    (h : r.acceptRows response.type sheet d = (r', ns, .error e)) :
    ns = [] ∧ (r.Intact e r' ∨ r.HalfTaken response e r') := by
  rw [acceptRows] at h
  rcases r.settles_checkShape response.type sheet d with ⟨hd, hok⟩ | ⟨-, err, herr, hharmless⟩
  · rw [hok] at h
    dsimp only at h
    cases hconflict : r.conflict response.type d.rows with
    | some fault =>
        rw [hconflict] at h
        cases h
        exact ⟨rfl, .inl rfl⟩
    | none =>
        rw [hconflict] at h
        dsimp only at h
        obtain ⟨r₁, result, happly⟩ : ∃ r₁ result, r.apply response.type sheet d.rows
            (d.columns.map (writeOf sheet.schema.fields)) = (r₁, result) := ⟨_, _, rfl⟩
        rw [happly] at h
        cases result with
        | ok batch => cases h
        | error err =>
            cases h
            obtain ⟨hkind, he, before, after, hrows, hleft⟩ :=
              apply_error htype hd.distinct hconflict happly
            -- such a row is within the limit only if there is none
            have hlimit : r.rowLimit = 0xffffffff := by
              by_contra hne
              exact UInt32.not_le.mpr (lt_highest hne) (hd.within 0xffffffff (by simp [hrows]))
            exact ⟨rfl, .inr ⟨hlimit, hkind, he, sheet, d, before, after, hsheet, hdata, hrows,
              hleft⟩⟩
  · rw [herr] at h
    cases h
    refine ⟨rfl, .inl ?_⟩
    rw [Intact, hharmless]
    rfl

theorem acceptData_error {response : Response} (htype : response.type.carriesRows = true)
    (h : r.acceptData response.type response.data = (r', ns, .error e)) :
    ns = [] ∧ (r.Intact e r' ∨ r.HalfTaken response e r') := by
  rw [acceptData.eq_def] at h
  split at h
  · cases h
  · split at h
    · cases h
      exact ⟨rfl, .inl rfl⟩
    · split at h
      · cases h
        exact ⟨rfl, .inl rfl⟩
      · cases h
        exact ⟨rfl, .inl rfl⟩
      next d sheet hdata hsheet => exact acceptRows_error hsheet htype hdata h

/-- Nobody is told of a response that is refused, and it leaves the replica intact or half taken. -/
theorem accept_error {response : Response} (h : r.accept response = (r', ns, .error e)) :
    ns = [] ∧ (r.Intact e r' ∨ r.HalfTaken response e r') := by
  rw [accept] at h
  split at h
  · cases h
    exact ⟨rfl, .inl rfl⟩
  · cases htype : response.type with
    | message =>
        rw [htype] at h
        dsimp only at h
        split at h
        · cases h
          exact ⟨rfl, .inl rfl⟩
        · cases h
    | schema =>
        rw [htype] at h
        simp only [acceptSchema] at h
        split at h
        · cases h
          exact ⟨rfl, .inl rfl⟩
        · split at h
          · cases h
            exact ⟨rfl, .inl rfl⟩
          · cases h
    | init | add | change | remove =>
        refine acceptData_error (by rw [htype]; rfl) ?_
        rw [htype] at h ⊢
        exact h

end Replica

theorem Hub.setReplica_same {h : Hub} {k : Nat} {r : Replica} (hr : h.replicas[k]? = some r) :
    h.setReplica k r = h := by
  obtain ⟨hlt, hget⟩ := List.getElem?_eq_some_iff.mp hr
  rw [setReplica, ← hget, List.set_getElem_self]

/-- A response that a replica refuses changes nothing but its phase, unless the highest row id of
all is refused after rows listed before it have come. -/
theorem Hub.refusal_all_or_nothing {h h' : Hub} {k : Nat} {r : Replica} {response : Response}
    {e : Error} (hr : h.replicas[k]? = some r) (herr : h.accept k response = (h', .error e)) :
    (h' = (if e.isViolation then h.setReplica k { r with phase := .failed } else h) ∨
      ∃ r', h' = h.setReplica k r' ∧ r.HalfTaken response e r') ∧
    ∀ type sheet d writes, r.checkShape type sheet d = .ok writes →
      ∀ sheet', sheet'.schema = sheet.schema →
        Replica.writeChecked d.rows writes sheet' =
          .ok (Replica.applyColumns d.rows writes sheet') := by
  refine ⟨?_, fun type sheet d writes hcheck sheet' hsame => ?_⟩
  · obtain ⟨r', ns, result, haccept⟩ : ∃ r' ns result, r.accept response = (r', ns, result) :=
      ⟨_, _, _, rfl⟩
    rw [accept, hr] at herr
    dsimp only at herr
    rw [haccept] at herr
    obtain ⟨hset, rfl⟩ := Prod.mk.inj herr
    obtain ⟨rfl, hleft⟩ := Replica.accept_error haccept
    have hquiet : h' = h.setReplica k r' := by
      rw [← hset, broadcast]
      exact List.foldl_fixed _
    rcases hleft with hintact | hhalf
    · refine .inl ?_
      rw [hquiet, hintact]
      split
      · rfl
      · exact setReplica_same hr
    · exact .inr ⟨r', hquiet, hhalf⟩
  · exact Replica.writeChecked_eq (hsame ▸ Replica.typedFor_of_checkShape hcheck)

/-- A row that is listed twice is refused, and nothing has come of it. -/
theorem Hub.refusal_all_or_nothing_listedTwice :
    let schema : Schema := ⟨⟨"T", [⟨"a", .int32, {}⟩]⟩, by decide⟩
    let r : Replica := { subscription := 1, phase := .live, sheet := some (.ofSchema schema) }
    let h : Hub := { replicas := [r] }
    let response : Response := .ofData 1 .add { rows := [3, 3] }
    (h.accept 0 response).2 = .error (.malformedMessage (.rowTwice 3)) ∧
      (h.accept 0 response).1 = h := by
  intro schema r h response
  have hresult : (h.accept 0 response).2 = .error (.malformedMessage (.rowTwice 3)) := by
    decide +kernel
  refine ⟨hresult, ?_⟩
  rcases (refusal_all_or_nothing (h := h) (k := 0) rfl (Prod.ext rfl hresult)).1 with
    hintact | ⟨r', -, hlimit, -⟩
  · exact hintact
  · exact absurd hlimit (by decide)

/-- The highest row id is refused after the row before it has come: that row is live, and the output
does not show it. -/
theorem Hub.refusal_too_late :
    let schema : Schema := ⟨⟨"T", [⟨"a", .int32, {}⟩]⟩, by decide⟩
    let h : Hub := { replicas := [{ subscription := 1, rowLimit := 0xffffffff }] }
    let before := (h.accept 0 (.ofSchema 1 schema.toLayout)).1
    let after := before.accept 0 (.ofData 1 .init { rows := [0, 0xffffffff] })
    after.2 = .error (.invalidRow 0xffffffff) ∧
      before.replicas.map Replica.liveRows = [[]] ∧
      after.1.replicas.map Replica.liveRows = [[0]] ∧
      after.1.replicas.map (·.publisher.rows.toList) = [[]] := by
  decide +kernel

end TableFeed
