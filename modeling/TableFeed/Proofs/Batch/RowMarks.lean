import Mathlib
import TableFeed.Proofs.Sink.AtTable
/-!
A batch row by row. What is recorded of one row leaves a mark on that row alone, so the order in
which different rows are touched does not show, and a row is never told twice.
-/

namespace TableFeed.Batch

inductive Entry
  | add (row : RowId)
  | changeField (row : RowId) (field : FieldId)
  | changeFields (row : RowId) (fields : FieldSet)
  | remove (row : RowId)
  deriving DecidableEq

def Entry.row : Entry → RowId
  | add row | changeField row _ | changeFields row _ | remove row => row

def record (b : Batch) : Entry → Batch
  | .add row => b.add row
  | .changeField row field => b.changeField row field
  | .changeFields row fields => b.changeFields row fields
  | .remove row => b.remove row

inductive Call
  | record (e : Entry)
  | clear
  | take
  deriving DecidableEq

def call (b : Batch) : Call → Batch
  | .record e => b.record e
  | .clear => b.clear
  | .take => b.take.1

def run (calls : List Call) : Batch := calls.foldl call {}

namespace Call

def concerns (row : RowId) : Call → Bool
  | record e => e.row == row
  | clear | take => true

def changes? (row : RowId) : Call → Option FieldSet
  | record (.changeField r field) => if r = row then some (.ofList [field]) else none
  | record (.changeFields r fields) =>
    if r = row ∧ fields.isEmpty = false then some fields else none
  | _ => none

def resets (row : RowId) : Call → Bool
  | record (.add r) | record (.remove r) => r == row
  | record _ => false
  | clear | take => true

end Call

/-- A change of a row that still counts: when it was made the row was neither added nor removed in
the batch, and nothing has reset the row since. -/
def Stands (calls : List Call) (row : RowId) (fields : FieldSet) : Prop :=
  ∃ before c after, calls = before ++ c :: after ∧ c.changes? row = some fields ∧
    (run before).touches row = false ∧ ∀ d ∈ after, d.resets row = false

/-! ### Marks -/

/-- What a batch has to tell of one row. -/
@[ext] structure Mark where
  added : Bool := false
  changed : Option FieldSet := none
  removed : Bool := false
  deriving DecidableEq

def mark (b : Batch) (row : RowId) : Mark :=
  ⟨b.added.contains row, b.changed.find? row, b.removed.contains row⟩

namespace Mark

def change (m : Mark) (fields : FieldSet) : Mark :=
  if fields.isEmpty || (m.added || m.removed) then m
  else { m with changed := some ((m.changed.getD ∅).union fields) }

def record (m : Mark) : Entry → Mark
  | .add _ => { added := true }
  | .changeField _ field => m.change (.ofList [field])
  | .changeFields _ fields => m.change fields
  | .remove _ => if m.added then { m with added := false } else { removed := true }

def call (m : Mark) : Call → Mark
  | .record e => m.record e
  | .clear | .take => {}

end Mark

variable {b b' : Batch} {row : RowId}

@[simp] theorem added_mark : (b.mark row).added = true ↔ row ∈ b.added := decide_eq_true_iff

@[simp] theorem changed_mark : (b.mark row).changed = b.changed.find? row := rfl

@[simp] theorem removed_mark : (b.mark row).removed = true ↔ row ∈ b.removed := decide_eq_true_iff

theorem ext_marks {m m' : Mark} (hadded : m.added = true ↔ m'.added = true)
    (hchanged : m.changed = m'.changed) (hremoved : m.removed = true ↔ m'.removed = true) :
    m = m' :=
  Mark.ext (Bool.eq_iff_iff.mpr hadded) hchanged (Bool.eq_iff_iff.mpr hremoved)

/-- A batch is determined by the marks of the rows. -/
theorem ext_mark (h : ∀ row, b.mark row = b'.mark row) : b = b' := by
  have hadded : b.added = b'.added := AscSet.ext_mem fun row => by
    rw [← added_mark, h row, added_mark]
  have hchanged : b.changed = b'.changed :=
    AscMap.ext_find? fun row => congrArg Mark.changed (h row)
  have hremoved : b.removed = b'.removed := AscSet.ext_mem fun row => by
    rw [← removed_mark, h row, removed_mark]
  cases b
  cases b'
  cases hadded
  cases hchanged
  cases hremoved
  rfl

theorem touches_eq (b : Batch) (row : RowId) :
    b.touches row = ((b.mark row).added || (b.mark row).removed) := rfl

theorem mark_add (b : Batch) (other row : RowId) :
    (b.add other).mark row = if other = row then { added := true } else b.mark row := by
  refine ext_marks ?_ ?_ ?_
  · rw [added_mark, mem_added_add]
    split
    next h => simp [h]
    next h => simp [Ne.symm h]
  · rw [changed_mark, find?_changed_add]
    split <;> rfl
  · rw [removed_mark, mem_removed_add]
    split
    next h => simp [h]
    next h => simp [Ne.symm h]

theorem mark_changeFields (b : Batch) (other row : RowId) (fields : FieldSet) :
    (b.changeFields other fields).mark row =
      if other = row then (b.mark row).change fields else b.mark row := by
  refine ext_marks ?_ ?_ ?_
  · rw [added_mark, added_changeFields]
    split
    · rw [Mark.change]
      split <;> exact added_mark.symm
    · exact added_mark.symm
  · rw [changed_mark, find?_changed_changeFields]
    by_cases h : other = row
    · subst h
      rw [if_pos rfl, Mark.change, touches_eq]
      cases fields.isEmpty <;> cases (b.mark other).added || (b.mark other).removed <;> simp
    · rw [if_neg h, if_neg fun hand => h hand.1]
      rfl
  · rw [removed_mark, removed_changeFields]
    split
    · rw [Mark.change]
      split <;> exact removed_mark.symm
    · exact removed_mark.symm

theorem mark_remove (b : Batch) (other row : RowId) :
    (b.remove other).mark row =
      if other = row then (b.mark row).record (.remove other) else b.mark row := by
  by_cases h : other = row
  · subst h
    rw [if_pos rfl, Mark.record]
    by_cases hadded : other ∈ b.added
    · rw [remove_of_added _ _ hadded, if_pos (added_mark.mpr hadded)]
      exact ext_marks (by simp) rfl Iff.rfl
    · rw [remove_of_not_added _ _ hadded, if_neg (mt added_mark.mp hadded)]
      exact ext_marks (by simp [hadded]) (by simp [AscMap.find?_erase]) (by simp)
  · rw [if_neg h]
    by_cases hadded : other ∈ b.added
    · rw [remove_of_added _ _ hadded]
      exact ext_marks (by simp [Ne.symm h]) rfl Iff.rfl
    · rw [remove_of_not_added _ _ hadded]
      exact ext_marks Iff.rfl (by simp [AscMap.find?_erase, h]) (by simp [Ne.symm h])

/-- Recording something of a row marks that row and no other. -/
theorem mark_record (b : Batch) (e : Entry) (row : RowId) :
    (b.record e).mark row = if e.row = row then (b.mark row).record e else b.mark row := by
  cases e with
  | add other => exact mark_add b other row
  | changeField other field => exact mark_changeFields b other row (.ofList [field])
  | changeFields other fields => exact mark_changeFields b other row fields
  | remove other => exact mark_remove b other row

theorem mark_call (b : Batch) (c : Call) (row : RowId) :
    (b.call c).mark row = if c.concerns row = true then (b.mark row).call c else b.mark row := by
  cases c with
  | record e =>
      simp only [call, Call.concerns, beq_iff_eq]
      exact mark_record b e row
  | clear => rfl
  | take => rfl

/-! ### Runs -/

theorem run_concat (calls : List Call) (c : Call) : run (calls ++ [c]) = (run calls).call c := by
  rw [run, List.foldl_append]
  rfl

/-- The mark of a row comes from the calls that concern it. -/
theorem mark_run (calls : List Call) (row : RowId) :
    (run calls).mark row = (calls.filter (·.concerns row)).foldl Mark.call {} := by
  induction calls using List.reverseRecOn with
  | nil => rfl
  | append_singleton calls c ih =>
      rw [run_concat, mark_call, ih, List.filter_append]
      split
      next h => rw [List.filter_cons_of_pos h, List.foldl_append]; rfl
      next h => rw [List.filter_cons_of_neg h, List.filter_nil, List.append_nil]

structure Mark.Single (m : Mark) : Prop where
  added : m.added = true → m.changed = none ∧ m.removed = false
  removed : m.removed = true → m.changed = none

theorem Mark.single_empty : Single {} := ⟨nofun, nofun⟩

theorem Mark.Single.change {m : Mark} (h : m.Single) (fields : FieldSet) :
    (m.change fields).Single := by
  rw [Mark.change]
  split
  · exact h
  next hfree =>
    simp only [Bool.or_eq_true, not_or, Bool.not_eq_true] at hfree
    exact ⟨fun hadded => by simp [hfree.2.1] at hadded,
      fun hremoved => by simp [hfree.2.2] at hremoved⟩

theorem Mark.Single.call {m : Mark} (h : m.Single) (c : Call) : (m.call c).Single := by
  cases c with
  | record e =>
      cases e with
      | add row => exact ⟨fun _ => ⟨rfl, rfl⟩, nofun⟩
      | changeField row field => exact h.change _
      | changeFields row fields => exact h.change fields
      | remove row =>
          show Single (if m.added = true then { m with added := false } else { removed := true })
          split
          · exact ⟨nofun, h.removed⟩
          · exact ⟨nofun, fun _ => rfl⟩
  | clear => exact single_empty
  | take => exact single_empty

theorem single_run (calls : List Call) (row : RowId) : ((run calls).mark row).Single := by
  induction calls using List.reverseRecOn with
  | nil => exact Mark.single_empty
  | append_singleton calls c ih =>
      rw [run_concat, mark_call]
      split
      · exact ih.call c
      · exact ih

/-- Things recorded of different rows do not depend on their order. -/
theorem record_comm (b : Batch) {e e' : Entry} (h : e.row ≠ e'.row) :
    (b.record e).record e' = (b.record e').record e := by
  refine ext_mark fun row => ?_
  simp only [mark_record]
  split
  next he =>
    split
    next he' => exact absurd (he'.trans he.symm) h
    next he' => rfl
  next he => rfl

/-! ### Changes that still count -/

/-- A call that changes fields of a row. -/
theorem mark_call_of_changes (b : Batch) {c : Call} {row : RowId} {fields : FieldSet}
    (h : c.changes? row = some fields) :
    (b.call c).mark row = (b.mark row).change fields ∧ fields.isEmpty = false ∧
      c.resets row = false := by
  rw [mark_call]
  rcases c with (other | ⟨other, field⟩ | ⟨other, sent⟩ | other) | _ | _
  all_goals
    simp only [Call.changes?, reduceCtorEq, Option.ite_none_right_eq_some, Option.some.injEq] at h
  · obtain ⟨rfl, rfl⟩ := h
    exact ⟨if_pos (beq_self_eq_true other), rfl, rfl⟩
  · obtain ⟨⟨rfl, hfields⟩, rfl⟩ := h
    exact ⟨if_pos (beq_self_eq_true other), hfields, rfl⟩

/-- A call that neither changes nor resets a row. -/
theorem mark_call_of_idle (b : Batch) {c : Call} {row : RowId} (h : c.changes? row = none)
    (hresets : c.resets row = false) : (b.call c).mark row = b.mark row := by
  rw [mark_call]
  rcases c with (other | ⟨other, field⟩ | ⟨other, sent⟩ | other) | _ | _
  · exact if_neg fun hrow => Bool.false_ne_true (hresets.symm.trans hrow)
  · refine if_neg fun hrow => ?_
    cases h.symm.trans (if_pos (eq_of_beq hrow))
  · -- changing no fields at all is no change
    split
    next hrow =>
      rw [Call.changes?, ite_eq_right_iff] at h
      have hempty : sent.isEmpty = true := by
        by_contra hsent
        cases h ⟨eq_of_beq hrow, Bool.eq_false_iff.mpr hsent⟩
      show (b.mark row).change sent = b.mark row
      rw [Mark.change, hempty]
      rfl
    next => rfl
  · exact if_neg fun hrow => Bool.false_ne_true (hresets.symm.trans hrow)
  · cases hresets
  · cases hresets

theorem Call.concerns_of_resets {c : Call} {row : RowId} (h : c.resets row = true) :
    c.concerns row = true := by
  rcases c with (other | ⟨other, field⟩ | ⟨other, sent⟩ | other) | _ | _
  · exact h
  · cases h
  · cases h
  · exact h
  · rfl
  · rfl

/-- A call that resets a row leaves no changes of it. -/
theorem changed_call_of_resets {b : Batch} {c : Call} {row : RowId} (h : (b.mark row).Single)
    (hresets : c.resets row = true) : ((b.call c).mark row).changed = none := by
  rw [mark_call, if_pos (Call.concerns_of_resets hresets)]
  rcases c with (other | ⟨other, field⟩ | ⟨other, sent⟩ | other) | _ | _
  · rfl
  · cases hresets
  · cases hresets
  · show (if (b.mark row).added = true then _ else _ : Mark).changed = none
    split
    next hadded => exact (h.added hadded).1
    next => rfl
  · rfl
  · rfl

theorem stands_concat {calls : List Call} {c : Call} {row : RowId} {fields : FieldSet} :
    Stands (calls ++ [c]) row fields ↔
      (c.changes? row = some fields ∧ (run calls).touches row = false) ∨
        (c.resets row = false ∧ Stands calls row fields) := by
  constructor
  · rintro ⟨before, d, after, heq, hchanges, hfree, hafter⟩
    rcases List.eq_nil_or_concat after with rfl | ⟨after, last, rfl⟩
    · obtain ⟨rfl, hlast⟩ := List.append_inj' heq rfl
      cases hlast
      exact .inl ⟨hchanges, hfree⟩
    · rw [List.concat_eq_append, ← List.cons_append, ← List.append_assoc] at heq
      obtain ⟨rfl, hlast⟩ := List.append_inj' heq rfl
      cases hlast
      rw [List.concat_eq_append, List.forall_mem_append] at hafter
      exact .inr ⟨hafter.2 c (List.mem_singleton.mpr rfl), before, d, after, rfl, hchanges, hfree,
        hafter.1⟩
  · rintro (⟨hchanges, hfree⟩ | ⟨hresets, before, d, after, rfl, hchanges, hfree, hafter⟩)
    · exact ⟨calls, c, [], rfl, hchanges, hfree, nofun⟩
    · refine ⟨before, d, after ++ [c], by simp, hchanges, hfree, ?_⟩
      rw [List.forall_mem_append, List.forall_mem_singleton]
      exact ⟨hafter, hresets⟩

/-- The changes told of a row are those that still count. -/
theorem changed_run (calls : List Call) (row : RowId) :
    ((run calls).changed.contains row = true ↔ ∃ fields, Stands calls row fields) ∧
      ∀ id, id ∈ ((run calls).changed.find? row).getD ∅ ↔
        ∃ fields, Stands calls row fields ∧ id ∈ fields := by
  simp only [AscMap.contains, ← changed_mark]
  induction calls using List.reverseRecOn with
  | nil =>
      have hnone : ∀ fields, ¬Stands [] row fields := by
        rintro fields ⟨before, c, after, heq, -⟩
        simp at heq
      simp [hnone, run]
  | append_singleton calls c ih =>
      obtain ⟨hcontains, hfields⟩ := ih
      rw [run_concat]
      simp only [stands_concat, touches_eq]
      cases hchanges : c.changes? row with
      | some sent =>
          obtain ⟨hmark, hsent, hresets⟩ := mark_call_of_changes (run calls) hchanges
          rw [hmark, Mark.change, hsent, hresets]
          cases hfree : (mark (run calls) row).added || (mark (run calls) row).removed with
          | false =>
              simp only [Bool.or_false, Bool.false_eq_true, if_false, Option.isSome_some,
                Option.getD_some, AscSet.mem_union, hfields, Option.some.injEq, and_true, true_and,
                true_iff]
              refine ⟨⟨sent, .inl rfl⟩, fun id => ⟨?_, ?_⟩⟩
              · rintro (⟨old, hold, hid⟩ | hid)
                · exact ⟨old, .inr hold, hid⟩
                · exact ⟨sent, .inl rfl, hid⟩
              · rintro ⟨old, rfl | hold, hid⟩
                · exact .inr hid
                · exact .inl ⟨old, hold, hid⟩
          | true =>
              simp only [Bool.or_true, if_true, reduceCtorEq, and_false, false_or, true_and]
              exact ⟨hcontains, hfields⟩
      | none =>
          cases hresets : c.resets row with
          | false =>
              rw [mark_call_of_idle _ hchanges hresets]
              simp only [reduceCtorEq, false_and, false_or, true_and]
              exact ⟨hcontains, hfields⟩
          | true =>
              rw [changed_call_of_resets (single_run calls row) hresets]
              simp

theorem isEmpty_iff_size (b : Batch) : b.isEmpty = true ↔ b.size = 0 := by
  simp only [isEmpty, size, AscSet.isEmpty, AscMap.isEmpty, AscSet.size, AscMap.size,
    Bool.and_eq_true, List.isEmpty_iff_length_eq_zero, Nat.add_eq_zero_iff]

/-- However a batch is used, it tells a row at most one thing, and what it tells of a row comes from
the calls that concern this row. A change is told while it counts, with all its fields. -/
theorem told_row_by_row (calls : List Call) :
    let b := run calls
    (∀ row, ¬(row ∈ b.added ∧ row ∈ b.removed) ∧ ¬(row ∈ b.added ∧ row ∈ b.changed.keys) ∧
        ¬(row ∈ b.removed ∧ row ∈ b.changed.keys)) ∧
      (∀ row, b.mark row = (run (calls.filter (·.concerns row))).mark row) ∧
      (∀ calls', (∀ row, calls'.filter (·.concerns row) = calls.filter (·.concerns row)) →
        run calls' = b) ∧
      (∀ e e' : Entry, e.row ≠ e'.row → (b.record e).record e' = (b.record e').record e) ∧
      (∀ row, row ∈ b.changed.keys ↔ ∃ fields, Stands calls row fields) ∧
      (∀ row id, b.Changes row id ↔ ∃ fields, Stands calls row fields ∧ id ∈ fields) ∧
      (∀ id, id ∈ b.changedFields ↔ ∃ row, b.Changes row id) ∧
      (b.isEmpty = true ↔ b.size = 0) := by
  intro b
  refine ⟨fun row => ?_, fun row => ?_, fun calls' hsame => ext_mark fun row => ?_,
    fun e e' hne => record_comm b hne, fun row => ?_, fun row id => ?_, fun id => mem_changedFields,
    b.isEmpty_iff_size⟩
  · obtain ⟨hadded, hremoved⟩ := single_run calls row
    rw [added_mark, changed_mark] at hadded
    rw [removed_mark, changed_mark] at hremoved
    rw [AscMap.mem_keys_iff, AscMap.contains_iff]
    refine ⟨fun ⟨ha, hr⟩ => ?_, fun ⟨ha, fields, hc⟩ => ?_, fun ⟨hr, fields, hc⟩ => ?_⟩
    · have hnot := (hadded ha).2
      rw [← Bool.not_eq_true, removed_mark] at hnot
      exact hnot hr
    · cases (hadded ha).1.symm.trans hc
    · cases (hremoved hr).symm.trans hc
  · rw [mark_run, mark_run, List.filter_filter]
    simp only [Bool.and_self]
  · rw [mark_run, mark_run, hsame]
  · rw [AscMap.mem_keys_iff]
    exact (changed_run calls row).1
  · rw [← (changed_run calls row).2 id, Changes]
    cases (run calls).changed.find? row with
    | none => simp
    | some fields => simp

/-- Row 2 is changed twice after its addition was taken, and the removal of row 3 may come before
or after. -/
theorem told_row_by_row_swapped :
    let calls : List Call := [.record (.changeField 1 0), .record (.add 2), .take,
      .record (.changeField 2 4), .record (.remove 3), .record (.changeFields 2 (.ofList [9, 4]))]
    let calls' : List Call := [.record (.changeField 1 0), .record (.add 2), .take,
      .record (.remove 3), .record (.changeField 2 4), .record (.changeFields 2 (.ofList [9, 4]))]
    (∀ row, calls'.filter (·.concerns row) = calls.filter (·.concerns row)) ∧
      (Entry.remove 3).row ≠ (Entry.changeField 2 4).row ∧ run calls' = run calls ∧
      ((run calls).record (.remove 3)).record (.changeField 2 4) =
        ((run calls).record (.changeField 2 4)).record (.remove 3) ∧
      run calls = { changed := .ofList [(2, .ofList [4, 9])], removed := .ofList [3] } := by
  intro calls calls'
  have hsame : ∀ row, calls'.filter (·.concerns row) = calls.filter (·.concerns row) := by
    intro row
    by_cases hrow : (2 : RowId) = row
    · subst hrow
      rfl
    · have htwo : Call.concerns row (.record (.changeField 2 4)) = false := by
        simp [Call.concerns, Entry.row, hrow]
      simp only [calls, calls', List.filter_cons, htwo]
      rfl
  have hne : (Entry.remove 3).row ≠ (Entry.changeField 2 4).row := by decide
  have h := told_row_by_row calls
  exact ⟨hsame, hne, h.2.2.1 calls' hsame, h.2.2.2.1 _ _ hne, by decide⟩

end TableFeed.Batch
