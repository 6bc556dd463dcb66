import Mathlib
import TableFeed.RowIds

/-!
Row ids in use. An id is live, free or retired, or it was never handed out. The counter of ids may
run over once all of them have been handed out; from then on only free ones are left to use.
-/

namespace TableFeed

/-! ### Lists of rows -/

theorem pairwise_rows (s : RowSet) : s.toList.Pairwise (· < ·) :=
  s.ascending.imp Std.compare_eq_lt.mp

theorem AscSet.nodup_toList (s : RowSet) : s.toList.Nodup :=
  s.ascending.imp fun h => AscSet.ne_of_compare_lt h

theorem perm_insert_rows {rows : RowSet} {row : RowId} (h : row ∉ rows) :
    (row :: rows.toList).Perm (rows.insert row).toList := by
  have hnodup : (row :: rows.toList).Nodup :=
    List.nodup_cons.mpr ⟨h, AscSet.nodup_toList rows⟩
  refine (List.perm_ext_iff_of_nodup hnodup (AscSet.nodup_toList _)).mpr fun other => ?_
  exact List.mem_cons.trans AscSet.mem_insert.symm

theorem perm_erase_rows {rows : RowSet} {row : RowId} (h : row ∈ rows) :
    (row :: (rows.erase row).toList).Perm rows.toList := by
  have hnot : row ∉ rows.erase row := fun hmem => (AscSet.mem_erase.mp hmem).1 rfl
  refine (perm_insert_rows hnot).trans (.of_eq (congrArg AscSet.toList ?_))
  refine AscSet.ext_mem fun other => ?_
  rw [AscSet.mem_insert, AscSet.mem_erase]
  by_cases heq : other = row
  · simp [heq, h]
  · simp [heq]

namespace RowIds

variable {s t : RowIds} {row other : RowId}

/-! ### Calls that can be refused -/

theorem isLive_iff : s.isLive row = true ↔ row ∈ s.live := by
  simp [isLive, AscSet.contains]

theorem release_eq_ok : s.release row = .ok t ↔
    row ∈ s.live ∧ { s with free := row :: s.free, live := s.live.erase row } = t := by
  rw [release, ← isLive_iff]
  split <;> simp_all

theorem retire_eq_ok : s.retire row = .ok t ↔
    row ∈ s.live ∧ { s with retired := s.retired ++ [row], live := s.live.erase row } = t := by
  rw [retire, ← isLive_iff]
  split <;> simp_all

/-! ### Ids in use -/

def Taken (s : RowIds) (row : RowId) : Prop := row ∈ s.live ∨ row ∈ s.free ∨ row ∈ s.retired

theorem taken_allocate : s.allocate.1.Taken other ↔ other = s.allocate.2 ∨ s.Taken other := by
  obtain ⟨next, _ | ⟨row, rest⟩, retired, live⟩ := s
  · simp only [Taken, allocate, AscSet.mem_insert, List.not_mem_nil]
    tauto
  · simp only [Taken, allocate, AscSet.mem_insert, List.mem_cons]
    tauto

theorem taken_release (h : s.release row = .ok t) : t.Taken other ↔ s.Taken other := by
  obtain ⟨hlive, rfl⟩ := release_eq_ok.mp h
  simp only [Taken, AscSet.mem_erase, List.mem_cons]
  by_cases hrow : other = row
  · simp [hrow, hlive]
  · simp [hrow]

theorem taken_retire (h : s.retire row = .ok t) : t.Taken other ↔ s.Taken other := by
  obtain ⟨hlive, rfl⟩ := retire_eq_ok.mp h
  simp only [Taken, AscSet.mem_erase, List.mem_append, List.mem_singleton]
  by_cases hrow : other = row
  · simp [hrow, hlive]
  · simp [hrow]

theorem taken_recycle : s.recycle.Taken other ↔ s.Taken other := by
  simp only [Taken, recycle, List.mem_append, List.mem_reverse, List.not_mem_nil]
  tauto

theorem le_iff_lt_succ (h : row ≠ 0xffffffff) : other ≤ row ↔ other < row + 1 := by
  have hlt := row.toNat_lt
  have hsucc : (row + 1).toNat = row.toNat + 1 := by
    rw [ne_eq, ← UInt32.toNat_inj] at h
    rw [UInt32.toNat_add]
    simp only [UInt32.reduceToNat] at h ⊢
    omega
  rw [UInt32.le_iff_toNat_le, UInt32.lt_iff_toNat_lt, hsucc]
  omega

/-- No id is in two places, and the counter stands above the ids handed out as long as there are
any others. -/
structure Sound (s : RowIds) : Prop where
  spare : (s.free ++ s.retired).Nodup
  notFree : ∀ row ∈ s.live, row ∉ s.free
  notRetired : ∀ row ∈ s.live, row ∉ s.retired
  counted : (∀ row, s.Taken row ↔ row < s.next) ∨ ∀ row, s.Taken row

def HasRoom (s : RowIds) : Prop := ∃ row, row ∉ s.live ∧ row ∉ s.retired

theorem sound_empty : ({} : RowIds).Sound := by
  refine ⟨List.nodup_nil, fun _ h => absurd h AscSet.not_mem_empty,
    fun _ h => absurd h AscSet.not_mem_empty, .inl fun row => ?_⟩
  simp [Taken]

/-- Once no id is free for use again, the counter tells which ids are taken. -/
theorem Sound.taken_iff_lt (h : s.Sound) (hroom : s.HasRoom) (hfree : s.free = []) (row : RowId) :
    s.Taken row ↔ row < s.next := by
  rcases h.counted with hcount | hall
  · exact hcount row
  · obtain ⟨spare, hlive, hretired⟩ := hroom
    rcases hall spare with hspare | hspare | hspare
    · exact absurd hspare hlive
    · rw [hfree] at hspare
      cases hspare
    · exact absurd hspare hretired

/-- The counter moves past the id it stood at, unless that was the highest of all. -/
theorem counted_succ {taken : RowId → Prop} {next : RowId}
    (h : ∀ row, taken row ↔ row = next ∨ row < next) :
    (∀ row, taken row ↔ row < next + 1) ∨ ∀ row, taken row := by
  have hupto : ∀ row, taken row ↔ row ≤ next := by
    intro row
    rw [h, UInt32.le_iff_toNat_le, UInt32.lt_iff_toNat_lt, ← UInt32.toNat_inj]
    omega
  by_cases hlast : next = 0xffffffff
  · refine .inr fun row => (hupto row).mpr ?_
    rw [hlast, UInt32.le_iff_toNat_le]
    exact Nat.le_of_lt_succ row.toNat_lt
  · exact .inl fun row => (hupto row).trans (le_iff_lt_succ hlast)

/-- What `allocate` hands out was neither live nor retired. -/
theorem Sound.allocate {s : RowIds} (h : s.Sound) (hroom : s.HasRoom) :
    s.allocate.2 ∉ s.live ∧ s.allocate.2 ∉ s.retired ∧
      s.allocate.1.live = s.live.insert s.allocate.2 ∧ s.allocate.1.retired = s.retired ∧
      s.allocate.1.Sound := by
  have htaken : ∀ other, s.allocate.1.Taken other ↔ other = s.allocate.2 ∨ s.Taken other :=
    fun _ => taken_allocate
  obtain ⟨next, free, retired, live⟩ := s
  cases free with
  | cons row rest =>
      have hnd := h.spare
      rw [List.cons_append, List.nodup_cons, List.mem_append, not_or] at hnd
      obtain ⟨⟨hrest, hretired⟩, hspare⟩ := hnd
      refine ⟨fun hlive => h.notFree row hlive List.mem_cons_self, hretired, rfl, rfl, ?_⟩
      refine ⟨hspare, fun other hother => ?_, fun other hother => ?_, ?_⟩
      · rcases AscSet.mem_insert.mp hother with rfl | hother
        · exact hrest
        · exact fun hmem => h.notFree other hother (List.mem_cons_of_mem _ hmem)
      · rcases AscSet.mem_insert.mp hother with rfl | hother
        · exact hretired
        · exact h.notRetired other hother
      · have hsame : ∀ other, (RowIds.allocate ⟨next, row :: rest, retired, live⟩).1.Taken other ↔
            Taken ⟨next, row :: rest, retired, live⟩ other := by
          refine fun other => (htaken other).trans (or_iff_right_of_imp ?_)
          rintro rfl
          exact .inr (.inl List.mem_cons_self)
        simp only [hsame]
        exact h.counted
  | nil =>
      have hcount := h.taken_iff_lt hroom rfl
      have hfresh : ¬Taken ⟨next, [], retired, live⟩ next :=
        fun hnext => UInt32.lt_irrefl next ((hcount next).mp hnext)
      have hretired : next ∉ retired := fun hmem => hfresh (.inr (.inr hmem))
      refine ⟨fun hmem => hfresh (.inl hmem), hretired, rfl, rfl, h.spare,
        fun other _ => List.not_mem_nil, fun other hother => ?_, counted_succ fun row => ?_⟩
      · rcases AscSet.mem_insert.mp hother with rfl | hother
        · exact hretired
        · exact h.notRetired other hother
      · rw [htaken, hcount]
        rfl

/-- Freeing a live id, when nothing was told of its row. -/
theorem Sound.release {s t : RowIds} (h : s.Sound) {row : RowId} (ht : s.release row = .ok t) :
    row ∈ s.live ∧ t.live = s.live.erase row ∧ t.retired = s.retired ∧ t.Sound := by
  have htaken : ∀ other, t.Taken other ↔ s.Taken other := fun _ => taken_release ht
  obtain ⟨hlive, rfl⟩ := release_eq_ok.mp ht
  refine ⟨hlive, rfl, rfl, ⟨?_, fun other hother => ?_, fun other hother => ?_, ?_⟩⟩
  · rw [List.cons_append, List.nodup_cons, List.mem_append, not_or]
    exact ⟨⟨h.notFree row hlive, h.notRetired row hlive⟩, h.spare⟩
  · obtain ⟨hne, hother⟩ := AscSet.mem_erase.mp hother
    exact List.not_mem_cons_of_ne_of_not_mem hne (h.notFree other hother)
  · exact h.notRetired other (AscSet.mem_erase.mp hother).2
  · simp only [htaken]
    exact h.counted

/-- Retiring a live id. -/
theorem Sound.retire {s t : RowIds} (h : s.Sound) {row : RowId} (ht : s.retire row = .ok t) :
    row ∈ s.live ∧ t.live = s.live.erase row ∧ t.retired = s.retired ++ [row] ∧ t.Sound := by
  have htaken : ∀ other, t.Taken other ↔ s.Taken other := fun _ => taken_retire ht
  obtain ⟨hlive, rfl⟩ := retire_eq_ok.mp ht
  refine ⟨hlive, rfl, rfl, ⟨?_, fun other hother => ?_, fun other hother => ?_, ?_⟩⟩
  · rw [← List.append_assoc, List.nodup_append]
    refine ⟨h.spare, List.nodup_singleton row, fun a ha b hb => ?_⟩
    rw [List.mem_singleton.mp hb]
    rintro rfl
    rcases List.mem_append.mp ha with ha | ha
    · exact h.notFree a hlive ha
    · exact h.notRetired a hlive ha
  · exact h.notFree other (AscSet.mem_erase.mp hother).2
  · obtain ⟨hne, hother⟩ := AscSet.mem_erase.mp hother
    simp [hne, h.notRetired other hother]
  · simp only [htaken]
    exact h.counted

theorem Sound.recycle {s : RowIds} (h : s.Sound) : s.recycle.Sound := by
  refine ⟨?_, fun row hrow => ?_, fun _ _ => List.not_mem_nil, ?_⟩
  · have hperm : (s.retired.reverse ++ s.free ++ []).Perm (s.free ++ s.retired) := by
      rw [List.append_nil]
      exact ((List.reverse_perm s.retired).append_right s.free).trans List.perm_append_comm
    exact hperm.nodup_iff.mpr h.spare
  · simp [RowIds.recycle, h.notFree row hrow, h.notRetired row hrow]
  · simp only [taken_recycle]
    exact h.counted

end RowIds

end TableFeed
