import Mathlib
import TableFeed.Proofs.RowIds.Allocation
/-!
Runs of a store of row ids. Whatever is called, the ids below the counter are shared out among the
live, the free and the retired ones, as long as the counter does not come round; and it does not
before nearly all ids have been handed out.
-/

namespace TableFeed

namespace RowIds

variable {s t : RowIds} {row other : RowId}

/-! ### Spans -/

theorem mem_span {low high : RowId} : row ∈ span low high ↔ low ≤ row ∧ row < high := by
  have hhigh : high.toNat < UInt32.size := high.toNat_lt_size
  simp only [span, List.mem_map, List.mem_range'_1, UInt32.le_iff_toNat_le, UInt32.lt_iff_toNat_lt]
  constructor
  · rintro ⟨n, hn, rfl⟩
    rw [UInt32.toNat_ofNat_of_lt' (by omega)]
    omega
  · intro h
    exact ⟨row.toNat, by omega, UInt32.ofNat_toNat⟩

theorem nodup_span (low high : RowId) : (span low high).Nodup := by
  have hhigh : high.toNat < UInt32.size := high.toNat_lt_size
  refine List.Nodup.map_on (fun a ha b hb heq => ?_) List.nodup_range'
  rw [List.mem_range'_1] at ha hb
  rwa [← UInt32.toNat_inj, UInt32.toNat_ofNat_of_lt' (by omega),
    UInt32.toNat_ofNat_of_lt' (by omega)] at heq

theorem length_span (low high : RowId) : (span low high).length = high.toNat - low.toNat := by
  rw [span, List.length_map, List.length_range']

/-! ### Claims -/

inductive Claims (s : RowIds) (row : RowId) : RowIds → Bool → Prop
  | already (live : row ∈ s.live) : Claims s row s false
  | beyond (dead : row ∉ s.live) (high : s.next ≤ row) (last : row ≠ 0xffffffff) :
      Claims s row { s with next := row + 1, free := span s.next row ++ s.free,
                            live := s.live.insert row } true
  | freed (dead : row ∉ s.live) (low : row < s.next) (free : row ∈ s.free) :
      Claims s row { s with free := s.free.erase row, live := s.live.insert row } true
  | retired (dead : row ∉ s.live) (low : row < s.next) (used : row ∉ s.free) :
      Claims s row { s with retired := s.retired.erase row, live := s.live.insert row } true

theorem claims_of_ok {new : Bool} (h : s.claim row = .ok (t, new)) : s.Claims row t new := by
  rw [claim] at h
  split at h
  · next hlive =>
    cases h
    exact .already (isLive_iff.mp hlive)
  next hdead =>
    rw [isLive_iff] at hdead
    split at h
    · next hhigh =>
      split at h
      · cases h
      · next hlast =>
        cases h
        exact .beyond hdead hhigh hlast
    next hlow =>
      rw [UInt32.not_le] at hlow
      split at h
      · next hfree =>
        cases h
        exact .freed hdead hlow hfree
      · next hused =>
        cases h
        exact .retired hdead hlow hused

/-! ### The partition -/

/-- A store whose counter has not come round: the ids in use are those below it. -/
structure Partitioned (s : RowIds) : Prop extends s.Sound where
  below : ∀ row, s.Taken row ↔ row < s.next

namespace Partitioned

theorem empty : ({} : RowIds).Partitioned := by
  refine ⟨sound_empty, fun row => ?_⟩
  simp [Taken]

theorem nodup (h : s.Partitioned) : (s.liveRows ++ s.free ++ s.retired).Nodup := by
  rw [List.append_assoc, List.nodup_append]
  refine ⟨AscSet.nodup_toList s.live, h.spare, fun a ha b hb => ?_⟩
  rintro rfl
  rcases List.mem_append.mp hb with hb | hb
  · exact h.notFree a ha hb
  · exact h.notRetired a ha hb

theorem nodup_free (h : s.Partitioned) : s.free.Nodup := h.spare.of_append_left

theorem nodup_retired (h : s.Partitioned) : s.retired.Nodup := h.spare.of_append_right

/-- A claim puts the ids up to the one claimed to use. -/
theorem taken_claim (h : s.Partitioned) {new : Bool} (ht : s.Claims row t new) :
    t.Taken other ↔ s.Taken other ∨ s.next ≤ other ∧ other ≤ row := by
  have hrow := h.below row
  have hnone : row < s.next → ¬(s.next ≤ other ∧ other ≤ row) := fun hlow hspan =>
    absurd (UInt32.lt_of_le_of_lt hspan.2 hlow) (UInt32.not_lt.mpr hspan.1)
  cases ht with
  | already live => exact (or_iff_left (hnone (hrow.mp (.inl live)))).symm
  | beyond dead high last =>
      simp only [Taken, AscSet.mem_insert, List.mem_append, mem_span]
      rw [UInt32.le_iff_toNat_le] at high
      rw [UInt32.le_iff_toNat_le, UInt32.le_iff_toNat_le, UInt32.lt_iff_toNat_lt,
        ← UInt32.toNat_inj]
      grind
  | freed dead low free =>
      rw [or_iff_left (hnone low)]
      simp only [Taken, AscSet.mem_insert, h.nodup_free.mem_erase_iff]
      by_cases heq : other = row
      · simp [heq, free]
      · simp [heq]
  | retired dead low used =>
      have hretired : row ∈ s.retired := ((hrow.mpr low).resolve_left dead).resolve_left used
      rw [or_iff_left (hnone low)]
      simp only [Taken, AscSet.mem_insert, h.nodup_retired.mem_erase_iff]
      by_cases heq : other = row
      · simp [heq, hretired]
      · simp [heq]

theorem below_claim (h : s.Partitioned) {new : Bool} (ht : s.Claims row t new) :
    t.Taken other ↔ other < t.next := by
  rw [h.taken_claim ht, h.below]
  cases ht with
  | already live =>
      have hlow := (h.below row).mp (.inl live)
      exact or_iff_left fun hspan =>
        absurd (UInt32.lt_of_le_of_lt hspan.2 hlow) (UInt32.not_lt.mpr hspan.1)
  | beyond dead high last =>
      show _ ↔ other < row + 1
      rw [← le_iff_lt_succ last]
      rw [UInt32.le_iff_toNat_le] at high
      rw [UInt32.le_iff_toNat_le, UInt32.le_iff_toNat_le, UInt32.lt_iff_toNat_lt]
      omega
  | freed dead low free =>
      exact or_iff_left fun hspan =>
        absurd (UInt32.lt_of_le_of_lt hspan.2 low) (UInt32.not_lt.mpr hspan.1)
  | retired dead low used =>
      exact or_iff_left fun hspan =>
        absurd (UInt32.lt_of_le_of_lt hspan.2 low) (UInt32.not_lt.mpr hspan.1)

/-- Some id can be handed out: the counter, if none is free. -/
theorem hasRoom (h : s.Partitioned) : s.HasRoom := by
  rcases hfree : s.free with _ | ⟨row, rest⟩
  · have hout : ¬s.Taken s.next := fun htaken =>
      UInt32.lt_irrefl s.next ((h.below s.next).mp htaken)
    exact ⟨s.next, fun hlive => hout (.inl hlive), fun hretired => hout (.inr (.inr hretired))⟩
  · have hmem : row ∈ s.free := hfree ▸ List.mem_cons_self
    exact ⟨row, fun hlive => h.notFree row hlive hmem,
      fun hretired => (List.nodup_append.mp h.spare).2.2 row hmem row hretired rfl⟩

theorem allocate (h : s.Partitioned) (hnext : s.free = [] → s.next ≠ 0xffffffff) :
    s.allocate.1.Partitioned := by
  refine ⟨(h.toSound.allocate h.hasRoom).2.2.2.2, fun row => taken_allocate.trans ?_⟩
  rw [h.below]
  obtain ⟨next, free, retired, live⟩ := s
  cases free with
  | cons first rest =>
      have hfirst := (h.below first).mp (.inr (.inl List.mem_cons_self))
      exact or_iff_right_of_imp fun heq => heq ▸ hfirst
  | nil =>
      have hlast : next ≠ 0xffffffff := hnext rfl
      show row = next ∨ row < next ↔ row < next + 1
      rw [← le_iff_lt_succ hlast, UInt32.le_iff_toNat_le, UInt32.lt_iff_toNat_lt,
        ← UInt32.toNat_inj]
      omega

/-- An id that was skipped over, or that is in one of the lists, is taken out of there. -/
theorem claim (h : s.Partitioned) {new : Bool} (ht : s.Claims row t new) : t.Partitioned := by
  have hbelow : ∀ other, t.Taken other ↔ other < t.next := fun _ => h.below_claim ht
  cases ht with
  | already live => exact h
  | beyond dead high last =>
      have hunused : ∀ other, s.next ≤ other → ¬s.Taken other := fun other hother htaken =>
        absurd ((h.below other).mp htaken) (UInt32.not_lt.mpr hother)
      refine ⟨⟨?_, fun other hother => ?_, fun other hother => ?_, .inl hbelow⟩, hbelow⟩
      · rw [List.append_assoc, List.nodup_append]
        refine ⟨nodup_span .., h.spare, fun a ha b hb => ?_⟩
        rintro rfl
        exact hunused a (mem_span.mp ha).1 (.inr (List.mem_append.mp hb))
      · rw [List.mem_append, mem_span, not_or]
        rcases AscSet.mem_insert.mp hother with rfl | hother
        · exact ⟨fun hspan => UInt32.lt_irrefl _ hspan.2, fun hmem => hunused _ high (.inr (.inl hmem))⟩
        · exact ⟨fun hspan => hunused other hspan.1 (.inl hother), h.notFree other hother⟩
      · rcases AscSet.mem_insert.mp hother with rfl | hother
        · exact fun hmem => hunused _ high (.inr (.inr hmem))
        · exact h.notRetired other hother
  | freed dead low free =>
      have hretired : row ∉ s.retired := fun hmem =>
        (List.nodup_append.mp h.spare).2.2 row free row hmem rfl
      refine ⟨⟨?_, fun other hother => ?_, fun other hother => ?_, .inl hbelow⟩, hbelow⟩
      · exact h.spare.sublist (List.erase_sublist.append_right _)
      · rw [h.nodup_free.mem_erase_iff, not_and]
        rcases AscSet.mem_insert.mp hother with rfl | hother
        · exact fun hne => absurd rfl hne
        · exact fun _ => h.notFree other hother
      · rcases AscSet.mem_insert.mp hother with rfl | hother
        · exact hretired
        · exact h.notRetired other hother
  | retired dead low used =>
      refine ⟨⟨?_, fun other hother => ?_, fun other hother => ?_, .inl hbelow⟩, hbelow⟩
      · exact h.spare.sublist (List.erase_sublist.append_left _)
      · rcases AscSet.mem_insert.mp hother with rfl | hother
        · exact used
        · exact h.notFree other hother
      · rw [h.nodup_retired.mem_erase_iff, not_and]
        rcases AscSet.mem_insert.mp hother with rfl | hother
        · exact fun hne => absurd rfl hne
        · exact fun _ => h.notRetired other hother

theorem release (h : s.Partitioned) (ht : s.release row = .ok t) : t.Partitioned := by
  refine ⟨(h.toSound.release ht).2.2.2, fun other => (taken_release ht).trans ?_⟩
  obtain ⟨-, rfl⟩ := release_eq_ok.mp ht
  exact h.below other

theorem retire (h : s.Partitioned) (ht : s.retire row = .ok t) : t.Partitioned := by
  refine ⟨(h.toSound.retire ht).2.2.2, fun other => (taken_retire ht).trans ?_⟩
  obtain ⟨-, rfl⟩ := retire_eq_ok.mp ht
  exact h.below other

theorem recycle (h : s.Partitioned) : s.recycle.Partitioned :=
  ⟨h.toSound.recycle, fun other => taken_recycle.trans (h.below other)⟩

end Partitioned

/-! ### Calls -/

inductive Call
  | allocate
  | release (row : RowId)
  | retire (row : RowId)
  | recycle
  | claim (row : RowId)
  | clear
  deriving DecidableEq

inductive Reply
  | handed (row : RowId)
  | claimed (new : Bool)
  | done
  | refused (e : Error)
  deriving DecidableEq

def granted (s : RowIds) : Except Error RowIds → RowIds × Reply
  | .ok t => (t, .done)
  | .error e => (s, .refused e)

def call (s : RowIds) : Call → RowIds × Reply
  | .allocate => (s.allocate.1, .handed s.allocate.2)
  | .release row => s.granted (s.release row)
  | .retire row => s.granted (s.retire row)
  | .recycle => (s.recycle, .done)
  | .claim row =>
    match s.claim row with
    | .ok (t, new) => (t, .claimed new)
    | .error e => (s, .refused e)
  | .clear => (s.clear, .done)

/-- A call that only live ids are meant for is refused for any other one. -/
theorem unless_live_eq_error {u : RowIds} {e : Error} :
    (if s.isLive row then .ok u else .error (.invalidRow row) : Except Error RowIds) = .error e ↔
      row ∉ s.live ∧ e = .invalidRow row := by
  split
  next hlive => simp [isLive_iff.mp hlive]
  next hdead =>
    rw [isLive_iff] at hdead
    exact ⟨fun h => ⟨hdead, (Except.error.inj h).symm⟩, fun h => h.2 ▸ rfl⟩

theorem release_eq_error {e : Error} :
    s.release row = .error e ↔ row ∉ s.live ∧ e = .invalidRow row := unless_live_eq_error

theorem retire_eq_error {e : Error} :
    s.retire row = .error e ↔ row ∉ s.live ∧ e = .invalidRow row := unless_live_eq_error

theorem claim_eq_error {e : Error} :
    s.claim row = .error e ↔ row ∉ s.live ∧ row = 0xffffffff ∧ e = .invalidRow row := by
  have hhigh : row = 0xffffffff → s.next ≤ row := by
    rintro rfl
    exact UInt32.le_iff_toNat_le.mpr (Nat.le_of_lt_succ s.next.toNat_lt)
  rw [claim, ← isLive_iff]
  grind

/-- What is refused, and why. -/
theorem refused_iff {c : Call} {e : Error} :
    (s.call c).2 = .refused e ↔ ∃ row, e = .invalidRow row ∧ row ∉ s.live ∧
      (c = .release row ∨ c = .retire row ∨ c = .claim row ∧ row = 0xffffffff) := by
  have hgranted : ∀ x, (s.granted x).2 = .refused e ↔ x = .error e := by
    rintro (e' | t) <;> simp [granted]
  have hclaim : ∀ row, (s.call (.claim row)).2 = .refused e ↔ s.claim row = .error e := by
    intro row
    rw [call]
    split <;> simp_all
  cases c with
  | allocate => simp [call]
  | recycle => simp [call]
  | clear => simp [call]
  | release row =>
      rw [call, hgranted, release_eq_error]
      grind
  | retire row =>
      rw [call, hgranted, retire_eq_error]
      grind
  | claim row =>
      rw [hclaim, claim_eq_error]
      grind

/-! ### Runs -/

def handedBy (handed : RowSet) : Call → Reply → RowSet
  | .allocate, .handed row => handed.insert row
  | .claim row, .claimed _ => handed.insert row
  | .clear, _ => ∅
  | _, _ => handed

structure Tally where
  ids : RowIds := {}
  handed : RowSet := ∅

def Tally.call (x : Tally) (c : Call) : Tally :=
  { ids := (x.ids.call c).1, handed := handedBy x.handed c (x.ids.call c).2 }

def run (cs : List Call) : Tally := cs.foldl Tally.call {}

/-- There is an id left that was not handed out since the store was last cleared, besides the
highest, which cannot be claimed; and so it was all along. -/
def Spares (cs : List Call) : Prop := ∀ early, early <+: cs → (run early).handed.size < 0xffffffff

structure Tally.Kept (x : Tally) : Prop extends x.ids.Partitioned where
  spent : ∀ row, row < x.ids.next → row ∈ x.ids.free ∨ row ∈ x.handed

namespace Tally.Kept

variable {x : Tally}

/-- If no id is free, all those below the counter have been handed out. -/
theorem next_ne (h : x.Kept) (hfew : x.handed.size < 0xffffffff) (hfree : x.ids.free = []) :
    x.ids.next ≠ 0xffffffff := by
  -- there are as many ids below the counter as its value, and too few have been handed out
  have hsub : span 0 x.ids.next ⊆ x.handed.toList := fun row hrow =>
    (h.spent row (mem_span.mp hrow).2).resolve_left (hfree ▸ List.not_mem_nil)
  have hle := (List.subperm_of_subset (nodup_span 0 x.ids.next) hsub).length_le
  rw [length_span] at hle
  rintro heq
  rw [heq] at hle
  exact absurd (Nat.lt_of_le_of_lt hle hfew) (Nat.lt_irrefl _)

/-- What is handed out next has been handed out then, and nothing else is lost from the free ids. -/
theorem allocate (h : x.Kept) (hfew : x.handed.size < 0xffffffff) : (x.call .allocate).Kept := by
  refine ⟨h.toPartitioned.allocate (h.next_ne hfew), fun row hrow => ?_⟩
  obtain ⟨⟨next, free, retired, live⟩, handed⟩ := x
  show row ∈ (RowIds.allocate ⟨next, free, retired, live⟩).1.free ∨
    row ∈ handed.insert (RowIds.allocate ⟨next, free, retired, live⟩).2
  rw [AscSet.mem_insert]
  cases free with
  | cons first rest =>
      rcases h.spent row hrow with hfree | hhanded
      · rcases List.mem_cons.mp hfree with rfl | hrest
        · exact .inr (.inl rfl)
        · exact .inl hrest
      · exact .inr (.inr hhanded)
  | nil =>
      rcases UInt32.lt_or_eq_of_le ((le_iff_lt_succ (h.next_ne hfew rfl)).mpr hrow) with hlt | heq
      · exact .inr (.inr ((h.spent row hlt).resolve_left List.not_mem_nil))
      · exact .inr (.inl heq)

theorem claim (h : x.Kept) {row : RowId} {new : Bool} {t : RowIds}
    (ht : x.ids.Claims row t new) : Kept ⟨t, x.handed.insert row⟩ := by
  refine ⟨h.toPartitioned.claim ht, fun other hother => ?_⟩
  show other ∈ t.free ∨ other ∈ x.handed.insert row
  have hbelow := (h.toPartitioned.below_claim ht).mpr hother
  rw [h.toPartitioned.taken_claim ht, h.below] at hbelow
  rw [AscSet.mem_insert]
  by_cases heq : other = row
  · exact .inr (.inl heq)
  have hkept : other ∈ x.ids.free → other ∈ t.free := by
    intro hfree
    cases ht with
    | already | retired => exact hfree
    | beyond => exact List.mem_append_right _ hfree
    | freed => exact (List.mem_erase_of_ne heq).mpr hfree
  rcases hbelow with hlow | ⟨hhigh, hle⟩
  · exact (h.spent other hlow).imp hkept .inr
  -- only a claim beyond the counter skips ids, and those it skips are free then
  · cases ht with
    | already live =>
        exact absurd (UInt32.lt_of_le_of_lt hle ((h.below row).mp (.inl live))) (UInt32.not_lt.mpr hhigh)
    | beyond => exact .inl (List.mem_append_left _ (mem_span.mpr ⟨hhigh, UInt32.lt_of_le_of_ne hle heq⟩))
    | freed _ low => exact absurd (UInt32.lt_of_le_of_lt hle low) (UInt32.not_lt.mpr hhigh)
    | retired _ low => exact absurd (UInt32.lt_of_le_of_lt hle low) (UInt32.not_lt.mpr hhigh)

theorem call (h : x.Kept) (hfew : x.handed.size < 0xffffffff) (c : Call) : (x.call c).Kept := by
  cases c with
  | allocate => exact h.allocate hfew
  | release row =>
      show Kept ⟨(x.ids.granted (x.ids.release row)).1, x.handed⟩
      rcases ht : x.ids.release row with e | t
      · exact h
      · obtain ⟨-, rfl⟩ := release_eq_ok.mp ht
        exact ⟨h.release ht, fun other hother => (h.spent other hother).imp_left (List.mem_cons_of_mem _)⟩
  | retire row =>
      show Kept ⟨(x.ids.granted (x.ids.retire row)).1, x.handed⟩
      rcases ht : x.ids.retire row with e | t
      · exact h
      · obtain ⟨-, rfl⟩ := retire_eq_ok.mp ht
        exact ⟨h.retire ht, h.spent⟩
  | recycle =>
      exact ⟨h.recycle, fun row hrow => (h.spent row hrow).imp_left (List.mem_append_right _)⟩
  | claim row =>
      rcases ht : x.ids.claim row with e | ⟨t, new⟩
      · have hcall : x.call (.claim row) = x := by simp only [Tally.call, RowIds.call, handedBy, ht]
        rw [hcall]
        exact h
      · have hcall : x.call (.claim row) = ⟨t, x.handed.insert row⟩ := by
          simp only [Tally.call, RowIds.call, handedBy, ht]
        rw [hcall]
        exact h.claim (claims_of_ok ht)
  | clear => exact ⟨.empty, fun row hrow => absurd hrow UInt32.not_lt_zero⟩

end Tally.Kept

theorem run_concat (cs : List Call) (c : Call) : run (cs ++ [c]) = (run cs).call c := by
  rw [run, List.foldl_concat]
  rfl

theorem kept_run {cs : List Call} (h : Spares cs) : (run cs).Kept := by
  induction cs using List.reverseRecOn with
  | nil => exact ⟨.empty, fun row hrow => absurd hrow UInt32.not_lt_zero⟩
  | append_singleton cs c ih =>
      have hbefore : Spares cs := fun early hearly => h early (hearly.trans (List.prefix_append _ _))
      rw [run_concat]
      exact (ih hbefore).call (h cs (List.prefix_append _ _)) c

theorem size_insert_le (rows : RowSet) (row : RowId) :
    (rows.insert row).size ≤ rows.size + 1 := by
  have hsub : (rows.insert row).toList ⊆ row :: rows.toList := fun other hother =>
    List.mem_cons.mpr (AscSet.mem_insert.mp hother)
  exact (List.subperm_of_subset (AscSet.nodup_toList _) hsub).length_le

theorem size_call_le (x : Tally) (c : Call) : (x.call c).handed.size ≤ x.handed.size + 1 := by
  rw [Tally.call]
  dsimp only
  unfold handedBy
  split
  · exact size_insert_le ..
  · exact size_insert_le ..
  · exact Nat.zero_le _
  · exact Nat.le_succ _

theorem size_run_le (cs : List Call) : (run cs).handed.size ≤ cs.length := by
  induction cs using List.reverseRecOn with
  | nil => exact Nat.le_refl 0
  | append_singleton cs c ih =>
      rw [run_concat, List.length_append]
      exact (size_call_le _ c).trans (Nat.succ_le_succ ih)

/-- Ids do not run out within few calls. -/
theorem spares_of_length {cs : List Call} (h : cs.length < 0xffffffff) : Spares cs :=
  fun early hearly => Nat.lt_of_le_of_lt ((size_run_le early).trans hearly.length_le) h

/-! ### Quarantine -/

/-- A retired id stays so until it is claimed or all are made usable. -/
theorem retired_call (hretired : row ∈ s.retired) {c : Call} (hrecycle : c ≠ .recycle)
    (hclear : c ≠ .clear) (hclaim : c ≠ .claim row) : row ∈ (s.call c).1.retired := by
  have hgranted : ∀ x : Except Error RowIds, (∀ t, x = .ok t → row ∈ t.retired) →
      row ∈ (s.granted x).1.retired := by
    rintro (e | t) hx
    · exact hretired
    · exact hx t rfl
  cases c with
  | allocate =>
      obtain ⟨next, _ | ⟨first, rest⟩, retired, live⟩ := s <;> exact hretired
  | release other =>
      refine hgranted _ fun t ht => ?_
      obtain ⟨-, rfl⟩ := release_eq_ok.mp ht
      exact hretired
  | retire other =>
      refine hgranted _ fun t ht => ?_
      obtain ⟨-, rfl⟩ := retire_eq_ok.mp ht
      exact List.mem_append_left _ hretired
  | recycle => exact absurd rfl hrecycle
  | claim other =>
      have hne : row ≠ other := fun heq => hclaim (heq ▸ rfl)
      rw [call]
      split
      next t new ht =>
        cases claims_of_ok ht with
        | already | beyond | freed => exact hretired
        | retired => exact (List.mem_erase_of_ne hne).mpr hretired
      · exact hretired
  | clear => exact absurd rfl hclear

theorem retired_run {x : Tally} (hretired : row ∈ x.ids.retired) {cs : List Call}
    (hrecycle : .recycle ∉ cs) (hclear : .clear ∉ cs) (hclaim : .claim row ∉ cs) :
    row ∈ (cs.foldl Tally.call x).ids.retired := by
  induction cs generalizing x with
  | nil => exact hretired
  | cons c cs ih =>
      rw [List.mem_cons, not_or] at hrecycle hclear hclaim
      exact ih (retired_call hretired (Ne.symm hrecycle.1) (Ne.symm hclear.1) (Ne.symm hclaim.1))
        hrecycle.2 hclear.2 hclaim.2

/-- A retired id is not handed out again before it is claimed or all are made usable. -/
theorem allocate_ne_retired {cs before later : List Call} (hspares : Spares cs)
    (hcs : cs = before ++ .retire row :: later) (hlive : row ∈ (run before).ids.live)
    (hrecycle : .recycle ∉ later) (hclear : .clear ∉ later) (hclaim : .claim row ∉ later) :
    (run cs).ids.allocate.2 ≠ row := by
  have hkept := kept_run hspares
  obtain ⟨-, hunretired, -⟩ := hkept.toSound.allocate hkept.hasRoom
  have hretired : row ∈ ((run before).call (.retire row)).ids.retired := by
    show row ∈ ((run before).ids.call (.retire row)).1.retired
    rw [call, retire_eq_ok.mpr ⟨hlive, rfl⟩]
    exact List.mem_append_right _ (List.mem_singleton_self row)
  have hrun : (run cs).ids = (later.foldl Tally.call ((run before).call (.retire row))).ids := by
    rw [hcs, run, List.foldl_append]
    rfl
  refine fun heq => hunretired ?_
  rw [heq, hrun]
  exact retired_run hretired hrecycle hclear hclaim

end RowIds

end TableFeed
