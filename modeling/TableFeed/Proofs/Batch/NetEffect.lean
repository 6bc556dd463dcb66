import Mathlib
import TableFeed.Proofs.Batch.RowMarks
/-!
The net effect of a batch. What is recorded while rows come and go is meant to lead from the rows
that were live before to those that are live after. It does, but for rows that were live before,
were removed, came back and were removed again: nothing is left of their removal.
-/

namespace TableFeed.Batch

def applied (b : Batch) (rows : RowSet) : RowSet := (rows.eraseAll b.removed.toList).union b.added

def recorded (entries : List Entry) : Batch := run (entries.map .record)

/-- The rows live after an entry. A row is added only while it is not live, and changed or removed
only while it is. -/
def Entry.follow (live : RowSet) : Entry → Option RowSet
  | .add row => if row ∈ live then none else some (live.insert row)
  | .changeField row _ | .changeFields row _ => if row ∈ live then some live else none
  | .remove row => if row ∈ live then some (live.erase row) else none

def follow (live : RowSet) (entries : List Entry) : Option RowSet :=
  entries.foldlM Entry.follow live

theorem mem_applied {b : Batch} {rows : RowSet} {row : RowId} :
    row ∈ b.applied rows ↔ (row ∈ rows ∧ row ∉ b.removed) ∨ row ∈ b.added := by
  rw [applied, AscSet.mem_union, AscSet.mem_eraseAll, AscSet.mem_toList]

theorem recorded_concat (entries : List Entry) (e : Entry) :
    recorded (entries ++ [e]) = (recorded entries).record e := by
  rw [recorded, List.map_append]
  exact run_concat _ (.record e)

theorem follow_concat {live after : RowSet} {entries : List Entry} {e : Entry} :
    follow live (entries ++ [e]) = some after ↔
      ∃ mid, follow live entries = some mid ∧ e.follow mid = some after := by
  rw [follow, List.foldlM_append, Option.bind_eq_bind, Option.bind_eq_some_iff]
  simp only [List.foldlM_cons, List.foldlM_nil, bind_pure]
  rfl

/-- What one entry does to the row it is about, and that it leaves the others as they are. -/
theorem follow_eq_some {live after : RowSet} {e : Entry} (h : e.follow live = some after) :
    (∀ row, row ≠ e.row → (row ∈ after ↔ row ∈ live)) ∧
      (e = .add e.row ∧ e.row ∉ live ∧ e.row ∈ after ∨
        e = .remove e.row ∧ e.row ∈ live ∧ e.row ∉ after ∨
        (∃ fields, ∀ m : Mark, m.record e = m.change fields) ∧ e ≠ .add e.row ∧ e.row ∈ live ∧
          e.row ∈ after) := by
  cases e with
  | add row =>
      rw [Entry.follow, Option.ite_none_left_eq_some, Option.some.injEq] at h
      obtain ⟨hlive, rfl⟩ := h
      exact ⟨fun other hother => AscSet.mem_insert.trans (or_iff_right hother),
        .inl ⟨rfl, hlive, AscSet.mem_insert.mpr (.inl rfl)⟩⟩
  | changeField row field =>
      rw [Entry.follow, Option.ite_none_right_eq_some, Option.some.injEq] at h
      obtain ⟨hlive, rfl⟩ := h
      exact ⟨fun _ _ => Iff.rfl, .inr (.inr ⟨⟨_, fun _ => rfl⟩, nofun, hlive, hlive⟩)⟩
  | changeFields row fields =>
      rw [Entry.follow, Option.ite_none_right_eq_some, Option.some.injEq] at h
      obtain ⟨hlive, rfl⟩ := h
      exact ⟨fun _ _ => Iff.rfl, .inr (.inr ⟨⟨_, fun _ => rfl⟩, nofun, hlive, hlive⟩)⟩
  | remove row =>
      rw [Entry.follow, Option.ite_none_right_eq_some, Option.some.injEq] at h
      obtain ⟨hlive, rfl⟩ := h
      exact ⟨fun other hother => AscSet.mem_erase.trans (and_iff_right hother),
        .inr (.inl ⟨rfl, hlive, fun hmem => (AscSet.mem_erase.mp hmem).1 rfl⟩)⟩

/-- What the mark of a row has to do with the row: whether it was live before, whether it is live
now, and whether it was added meanwhile. -/
structure Accounts (m : Mark) (before now added : Prop) : Prop where
  of_added : m.added = true → now ∧ added
  of_removed : m.removed = true → ¬now ∧ ¬added
  /-- A row that is live without being told as added was live all the time. -/
  kept : m.added = false → now → before ∧ ¬added
  /-- Of a row that has gone there is nothing to tell if it came during the batch. -/
  lost : m.added = false → m.removed = false → before → ¬now → added

namespace Accounts

variable {m : Mark} {before now now' added added' : Prop}

theorem congr (h : Accounts m before now added) (hnow : now' ↔ now) (hadded : added' ↔ added) :
    Accounts m before now' added' := by
  rw [propext hnow, propext hadded]
  exact h

theorem add (m : Mark) (before : Prop) (row : RowId) :
    Accounts (m.record (.add row)) before True True :=
  ⟨fun _ => ⟨trivial, trivial⟩, nofun, nofun, nofun⟩

theorem change (h : Accounts m before now added) (fields : FieldSet) :
    Accounts (m.change fields) before now added := by
  rw [Mark.change]
  split
  · exact h
  · exact ⟨h.of_added, h.of_removed, h.kept, h.lost⟩

theorem remove (h : Accounts m before now added) (hnow : now) (hm : m.Single) (row : RowId) :
    Accounts (m.record (.remove row)) before False added := by
  rw [Mark.record]
  split
  next hadded =>
    refine ⟨fun hfalse => Bool.noConfusion hfalse, fun hremoved => ?_, fun _ => False.elim,
      fun _ _ _ _ => (h.of_added hadded).2⟩
    exact absurd hremoved (Bool.eq_false_iff.mp (hm.added hadded).2)
  next hadded =>
    have hkept := h.kept (Bool.eq_false_iff.mpr hadded) hnow
    exact ⟨fun hfalse => Bool.noConfusion hfalse, fun _ => ⟨id, hkept.2⟩, fun _ => False.elim,
      fun _ hfalse => Bool.noConfusion hfalse⟩

theorem shown_iff (h : Accounts m before now added) :
    (before ∧ ¬m.removed = true) ∨ m.added = true ↔ now ∨ (before ∧ added) := by
  constructor
  · rintro (⟨hbefore, hremoved⟩ | hadded)
    · by_cases hnow : now
      · exact .inl hnow
      · refine .inr ⟨hbefore, ?_⟩
        cases hadded : m.added with
        | false => exact h.lost hadded (Bool.eq_false_iff.mpr hremoved) hbefore hnow
        | true => exact (h.of_added hadded).2
    · exact .inl (h.of_added hadded).1
  · rintro (hnow | ⟨hbefore, hadded⟩)
    · cases hmark : m.added with
      | false => exact .inl ⟨(h.kept hmark hnow).1, fun hremoved => (h.of_removed hremoved).1 hnow⟩
      | true => exact .inr rfl
    · exact .inl ⟨hbefore, fun hremoved => (h.of_removed hremoved).2 hadded⟩

end Accounts

theorem accounts_recorded {live after : RowSet} {entries : List Entry}
    (h : follow live entries = some after) (row : RowId) :
    Accounts ((recorded entries).mark row) (row ∈ live) (row ∈ after) (.add row ∈ entries) := by
  induction entries using List.reverseRecOn generalizing after with
  | nil =>
      cases h
      exact ⟨nofun, nofun, fun _ hlive => ⟨hlive, List.not_mem_nil⟩,
        fun _ _ hlive hgone => absurd hlive hgone⟩
  | append_singleton entries e ih =>
      obtain ⟨mid, hmid, he⟩ := follow_concat.mp h
      obtain ⟨hothers, hself⟩ := follow_eq_some he
      have hrow := ih hmid
      have hsingle : ((recorded entries).mark e.row).Single := single_run _ e.row
      rw [recorded_concat, mark_record]
      by_cases hsame : e.row = row
      · subst hsame
        rw [if_pos rfl]
        have hmem : .add e.row ∈ entries ++ [e] ↔ .add e.row ∈ entries ∨ .add e.row = e := by
          rw [List.mem_append, List.mem_singleton]
        rcases hself with ⟨hadd, -, hafter⟩ | ⟨hremove, hlive, hafter⟩ |
          ⟨⟨fields, hchange⟩, hother, hlive, hafter⟩
        · have hnew := Accounts.add ((recorded entries).mark e.row) (e.row ∈ live) e.row
          rw [← hadd] at hnew
          exact hnew.congr (iff_true_intro hafter) (iff_true_intro (hmem.mpr (.inr hadd.symm)))
        · have hgone := hrow.remove hlive hsingle e.row
          rw [← hremove] at hgone
          refine hgone.congr (iff_false_intro hafter) (hmem.trans (or_iff_left fun hadd => ?_))
          cases hadd.trans hremove
        · rw [hchange]
          exact (hrow.change fields).congr (iff_of_true hafter hlive)
            (hmem.trans (or_iff_left fun hadd => hother hadd.symm))
      · rw [if_neg hsame]
        refine hrow.congr (hothers row (Ne.symm hsame)) ?_
        rw [List.mem_append, List.mem_singleton, or_iff_left]
        rintro rfl
        exact hsame rfl

/-- A batch leads from the rows live before to those live after, and to rows that were live before,
went, came back and went again: their removal is not told. -/
theorem applied_recorded {live after : RowSet} {entries : List Entry}
    (h : follow live entries = some after) :
    (∀ row, row ∈ (recorded entries).applied live ↔
        row ∈ after ∨ (row ∈ live ∧ .add row ∈ entries)) ∧
      ((recorded entries).applied live = after ↔
        ∀ row ∈ live, .add row ∈ entries → row ∈ after) := by
  have hshown : ∀ row, row ∈ (recorded entries).applied live ↔
      row ∈ after ∨ (row ∈ live ∧ .add row ∈ entries) := by
    intro row
    have hrow := (accounts_recorded h row).shown_iff
    rw [removed_mark, added_mark] at hrow
    exact mem_applied.trans hrow
  refine ⟨hshown, fun heq row hlive hback => ?_, fun hstays => AscSet.ext_mem fun row => ?_⟩
  · rw [← heq]
    exact (hshown row).mpr (.inr ⟨hlive, hback⟩)
  · exact (hshown row).trans (or_iff_left_of_imp fun hback => hstays row hback.1 hback.2)

/-- Row 1 comes back and stays, row 2 goes, row 4 only passes through, and row 5 is new. -/
theorem applied_recorded_stays :
    let live : RowSet := .ofList [1, 2, 3]
    let entries : List Entry := [.changeField 1 0, .remove 1, .add 4, .remove 2, .add 1, .remove 4,
      .changeFields 3 (.ofList [0, 7]), .add 5, .changeField 5 1]
    follow live entries = some (.ofList [1, 3, 5]) ∧
      (∀ row ∈ live, .add row ∈ entries → row ∈ (.ofList [1, 3, 5] : RowSet)) ∧
      (recorded entries).applied live = .ofList [1, 3, 5] := by
  intro live entries
  have h : follow live entries = some (.ofList [1, 3, 5]) := by decide
  have hstays : ∀ row ∈ live, .add row ∈ entries → row ∈ (.ofList [1, 3, 5] : RowSet) := by
    intro row hrow hback
    obtain rfl | rfl | rfl : row = 4 ∨ row = 1 ∨ row = 5 := by simpa [entries] using hback
    all_goals revert hrow; decide
  exact ⟨h, hstays, (applied_recorded h).2.mpr hstays⟩

/-- A row that goes, comes back and goes again is told as if nothing had happened to it. -/
theorem removal_lost :
    ¬∀ (live after : RowSet) (entries : List Entry), follow live entries = some after →
      (recorded entries).applied live = after := by
  intro h
  have hlost := h (.ofList [1]) ∅ [.remove 1, .add 1, .remove 1] (by decide)
  exact absurd hlost (by decide)

end TableFeed.Batch
