import Mathlib
import TableFeed.Proofs.Fields.LastWrites
import TableFeed.Proofs.RowIds.Partition
import TableFeed.RowStore

/-!
The store of row ids as it is kept. Its marks stand for the set of live ids, and every call does to
them what it does to the set. The count goes up with every id that comes and down with every id that
goes, so it is the number of marks only because no id comes twice: the calls keep the ids that can
be handed out apart from those that are live.
-/

namespace TableFeed

/-! ### The marks -/

namespace LiveMarks

variable {m m' : LiveMarks} {row other : RowId}

theorem isLive_mark : (m.mark row).isLive other = true ↔ other = row ∨ m.isLive other = true := by
  rw [isLive, mark, Slots.get_set, isLive]
  split
  next hrow => simp [hrow]
  next hrow => exact (or_iff_right (Ne.symm hrow)).symm

theorem isLive_unmark (h : m.unmark row = .ok m') :
    m'.isLive other = true ↔ other ≠ row ∧ m.isLive other = true := by
  rw [unmark] at h
  split at h
  next =>
    cases h
    rw [isLive, Slots.get_reset, isLive]
    split
    next hrow => simp [hrow, DataType.absent]
    next hrow => exact (and_iff_right (Ne.symm hrow)).symm
  next => cases h

theorem isLive_of_unmark (h : m.unmark row = .ok m') : m.isLive row = true := by
  rw [unmark] at h
  split at h
  · assumption
  · cases h

theorem unmark_eq_error {e : Error} :
    m.unmark row = .error e ↔ m.isLive row = false ∧ e = .invalidRow row := by
  rw [unmark]
  split
  next hlive => simp [hlive]
  next hdead =>
    exact ⟨fun h => ⟨Bool.eq_false_iff.mpr hdead, (Except.error.inj h).symm⟩, fun h => h.2 ▸ rfl⟩

theorem mem_rows : row ∈ m.rows ↔ m.isLive row = true := by
  have hsize : m.marks.values.size ≤ UInt32.size := m.bounded
  rw [isLive, Slots.get, Array.getD_eq_getD_getElem?, rows, List.mem_filterMap]
  constructor
  · rintro ⟨⟨live, i⟩, hi, hrow⟩
    obtain ⟨hlive, hsome⟩ := Option.ite_none_right_eq_some.mp hrow
    obtain rfl := Option.some.inj hsome
    rw [List.mk_mem_zipIdx_iff_getElem?, Array.getElem?_toList] at hi
    obtain ⟨hlt, -⟩ := Array.getElem?_eq_some_iff.mp hi
    rw [UInt32.toNat_ofNat_of_lt' (by omega), hi]
    exact hlive
  · intro hlive
    refine ⟨(true, row.toNat), ?_, ?_⟩
    · rw [List.mk_mem_zipIdx_iff_getElem?, Array.getElem?_toList]
      cases hmark : m.marks.values[row.toNat]? with
      | none =>
          rw [hmark] at hlive
          cases hlive
      | some live =>
          rw [hmark] at hlive
          exact congrArg some hlive
    · exact congrArg some UInt32.ofNat_toNat

theorem ascending_rows (m : LiveMarks) : m.rows.Pairwise (· < ·) := by
  have hsize : m.marks.values.size ≤ UInt32.size := m.bounded
  have hplaces : (m.marks.values.toList.zipIdx.map (·.2)).Pairwise (· < ·) := by
    rw [List.zipIdx_map_snd]
    exact List.pairwise_lt_range'
  rw [rows, List.pairwise_filterMap]
  refine (List.pairwise_map.mp hplaces).imp_of_mem fun {a b} ha hb hab i hi j hj => ?_
  have hbound : ∀ x ∈ m.marks.values.toList.zipIdx, x.2 < UInt32.size := by
    intro x hx
    have hlt := List.snd_lt_of_mem_zipIdx hx
    simp only [Array.length_toList] at hlt
    omega
  rw [Option.ite_none_right_eq_some, Option.some.injEq] at hi hj
  rw [← hi.2, ← hj.2, UInt32.lt_iff_toNat_lt, UInt32.toNat_ofNat_of_lt' (hbound a ha),
    UInt32.toNat_ofNat_of_lt' (hbound b hb)]
  exact hab

/-- The set that the marks stand for. -/
def members (m : LiveMarks) : RowSet := ⟨m.rows, m.ascending_rows.imp Std.compare_eq_lt.mpr⟩

theorem mem_members : row ∈ m.members ↔ m.isLive row = true := mem_rows

theorem members_mark : (m.mark row).members = m.members.insert row :=
  AscSet.ext_mem fun other => by
    rw [mem_members, isLive_mark, AscSet.mem_insert, mem_members]

theorem members_unmark (h : m.unmark row = .ok m') : m'.members = m.members.erase row :=
  AscSet.ext_mem fun other => by
    rw [mem_members, isLive_unmark h, AscSet.mem_erase, mem_members]

def Counted (m : LiveMarks) : Prop := m.count = m.rows.length

/-- The count stays right as long as no id is marked again. -/
theorem Counted.mark (h : m.Counted) (hrow : m.isLive row = false) : (m.mark row).Counted := by
  have hnew : row ∉ m.members := by
    rw [mem_members, hrow]
    exact Bool.false_ne_true
  have hlength := (perm_insert_rows hnew).length_eq
  rw [← members_mark, List.length_cons] at hlength
  exact (congrArg (· + 1) h).trans hlength

theorem Counted.unmark (h : m.Counted) (hm : m.unmark row = .ok m') : m'.Counted := by
  have hrow : row ∈ m.members := mem_members.mpr (isLive_of_unmark hm)
  have hcount : m'.count = m.count - 1 := by
    rw [LiveMarks.unmark, if_pos (mem_members.mp hrow)] at hm
    cases hm
    rfl
  have hlength := (perm_erase_rows hrow).length_eq
  rw [← members_unmark hm, List.length_cons] at hlength
  have hrows : m'.rows.length + 1 = m.rows.length := hlength
  rw [Counted, hcount, h, ← hrows, Nat.add_sub_cancel]

end LiveMarks

/-! ### The store and its ids -/

namespace RowStore

open RowIds (Call Reply)

variable {s : RowStore} {row : RowId}

def ids (s : RowStore) : RowIds := ⟨s.next, s.free, s.retired, s.live.members⟩

theorem isLive_ids (s : RowStore) (row : RowId) : s.ids.isLive row = s.isLive row := by
  rw [Bool.eq_iff_iff, RowIds.isLive_iff]
  exact LiveMarks.mem_members

theorem ids_allocate (s : RowStore) :
    s.allocate.1.ids = s.ids.allocate.1 ∧ s.allocate.2 = s.ids.allocate.2 := by
  obtain ⟨next, _ | ⟨row, rest⟩, retired, live⟩ := s
  · exact ⟨congrArg (RowIds.mk _ _ _) LiveMarks.members_mark, rfl⟩
  · exact ⟨congrArg (RowIds.mk _ _ _) LiveMarks.members_mark, rfl⟩

/-- Calls that are meant for live ids only. -/
theorem ids_unmark (s : RowStore) (row : RowId) {f : LiveMarks → RowStore} {g : RowSet → RowIds}
    (hids : ∀ live, (f live).ids = g live.members) :
    ((s.live.unmark row).map f).map ids =
      if s.ids.isLive row then .ok (g (s.ids.live.erase row)) else .error (.invalidRow row) := by
  rw [isLive_ids, isLive]
  cases hlive : s.live.unmark row with
  | ok live =>
      rw [if_pos (LiveMarks.isLive_of_unmark hlive), Except.map, Except.map, hids,
        LiveMarks.members_unmark hlive]
      rfl
  | error e =>
      obtain ⟨hdead, rfl⟩ := LiveMarks.unmark_eq_error.mp hlive
      rw [hdead]
      rfl

theorem ids_release (s : RowStore) (row : RowId) : (s.release row).map ids = s.ids.release row :=
  s.ids_unmark row fun _ => rfl

theorem ids_retire (s : RowStore) (row : RowId) : (s.retire row).map ids = s.ids.retire row :=
  s.ids_unmark row fun _ => rfl

theorem ids_claim (s : RowStore) (row : RowId) :
    (s.claim row).map (Prod.map ids id) = s.ids.claim row := by
  have hmark : ∀ next free retired, (RowStore.mk next free retired (s.live.mark row)).ids =
      ⟨next, free, retired, s.ids.live.insert row⟩ := fun _ _ _ =>
    congrArg (RowIds.mk _ _ _) LiveMarks.members_mark
  rw [RowIds.claim, isLive_ids, claim]
  split
  · rfl
  · show Except.map _ (if s.next ≤ row then _ else _) = if s.next ≤ row then _ else _
    split
    · split
      · rfl
      · exact congrArg (fun t => Except.ok (t, true)) (hmark ..)
    · show Except.map _ (if row ∈ s.free then _ else _) = if row ∈ s.free then _ else _
      split
      · exact congrArg (fun t => Except.ok (t, true)) (hmark ..)
      · exact congrArg (fun t => Except.ok (t, true)) (hmark ..)

/-! ### Calls -/

def granted (s : RowStore) : Except Error RowStore → RowStore × Reply
  | .ok t => (t, .done)
  | .error e => (s, .refused e)

def call (s : RowStore) : Call → RowStore × Reply
  | .allocate => (s.allocate.1, .handed s.allocate.2)
  | .release row => s.granted (s.release row)
  | .retire row => s.granted (s.retire row)
  | .recycle => (s.recycle, .done)
  | .claim row =>
    match s.claim row with
    | .ok (t, new) => (t, .claimed new)
    | .error e => (s, .refused e)
  | .clear => (s.clear, .done)

/-- A call does to the ids what it does to the store, and replies the same. -/
theorem call_ids (s : RowStore) (c : Call) :
    (s.call c).1.ids = (s.ids.call c).1 ∧ (s.call c).2 = (s.ids.call c).2 := by
  have hgranted : ∀ x : Except Error RowStore, (s.granted x).1.ids = (s.ids.granted (x.map ids)).1 ∧
      (s.granted x).2 = (s.ids.granted (x.map ids)).2 := by
    rintro (e | t) <;> exact ⟨rfl, rfl⟩
  cases c with
  | allocate =>
      obtain ⟨hids, hrow⟩ := s.ids_allocate
      exact ⟨hids, congrArg Reply.handed hrow⟩
  | release row =>
      rw [call, RowIds.call, ← ids_release]
      exact hgranted _
  | retire row =>
      rw [call, RowIds.call, ← ids_retire]
      exact hgranted _
  | recycle => exact ⟨rfl, rfl⟩
  | claim row =>
      rw [call, RowIds.call, ← ids_claim]
      rcases s.claim row with e | ⟨t, new⟩ <;> exact ⟨rfl, rfl⟩
  | clear => exact ⟨rfl, rfl⟩

theorem call_of_refused {c : Call} {e : Error} (h : (s.call c).2 = .refused e) :
    (s.call c).1 = s := by
  have hgranted : ∀ x, (s.granted x).2 = .refused e → (s.granted x).1 = s := by
    rintro (e' | t) hx
    · rfl
    · cases hx
  cases c with
  | allocate | recycle | clear => cases h
  | release row | retire row => exact hgranted _ h
  | claim row =>
      rw [call] at h ⊢
      split at h
      · cases h
      · rfl

/-- A claim marks an id only if it is not live. -/
theorem counted_claim (h : s.live.Counted) {t : RowStore} {new : Bool}
    (ht : s.claim row = .ok (t, new)) : t.live.Counted := by
  rw [claim] at ht
  split at ht
  · cases ht
    exact h
  next hdead =>
    have hmark := h.mark (Bool.eq_false_iff.mpr hdead)
    split at ht
    · split at ht <;> cases ht
      exact hmark
    · split at ht <;> cases ht <;> exact hmark

/-- No call marks an id that is marked already, as long as those to hand out are not. -/
theorem counted_call (h : s.live.Counted) (hsound : s.ids.Sound) (hroom : s.ids.HasRoom) (c : Call) :
    (s.call c).1.live.Counted := by
  have hgranted : ∀ x : Except Error RowStore, (∀ t, x = .ok t → t.live.Counted) →
      (s.granted x).1.live.Counted := by
    rintro (e | t) hx
    · exact h
    · exact hx t rfl
  cases c with
  | allocate =>
      obtain ⟨hdead, -⟩ := hsound.allocate hroom
      have hrow : s.isLive s.allocate.2 = false := by
        rw [s.ids_allocate.2, ← isLive_ids, ← Bool.not_eq_true, RowIds.isLive_iff]
        exact hdead
      show s.allocate.1.live.Counted
      obtain ⟨next, _ | ⟨row, rest⟩, retired, live⟩ := s
      · exact h.mark hrow
      · exact h.mark hrow
  | release row | retire row =>
      refine hgranted _ fun t ht => ?_
      cases hlive : s.live.unmark row with
      | ok live =>
          simp only [release, retire, hlive] at ht
          cases ht
          exact h.unmark hlive
      | error e =>
          simp only [release, retire, hlive] at ht
          cases ht
  | recycle => exact h
  | claim row =>
      rw [call]
      split
      next t new hclaim => exact counted_claim h hclaim
      next => exact h
  | clear => rfl

/-! ### Runs -/

structure Tally where
  store : RowStore := default
  handed : RowSet := ∅

def Tally.call (x : Tally) (c : Call) : Tally :=
  { store := (x.store.call c).1, handed := RowIds.handedBy x.handed c (x.store.call c).2 }

def run (cs : List Call) : Tally := cs.foldl Tally.call {}

/-- There is an id left that was not handed out since the store was last cleared, besides the
highest, which cannot be claimed; and so it was all along. -/
def Spares (cs : List Call) : Prop := ∀ early, early <+: cs → (run early).handed.size < 0xffffffff

theorem run_concat (cs : List Call) (c : Call) : run (cs ++ [c]) = (run cs).call c := by
  rw [run, List.foldl_concat]
  rfl

theorem run_ids (cs : List Call) :
    (run cs).store.ids = (RowIds.run cs).ids ∧ (run cs).handed = (RowIds.run cs).handed := by
  induction cs using List.reverseRecOn with
  | nil => exact ⟨rfl, rfl⟩
  | append_singleton cs c ih =>
      obtain ⟨hids, hreply⟩ := (run cs).store.call_ids c
      rw [ih.1] at hids hreply
      rw [run_concat, RowIds.run_concat]
      refine ⟨hids, ?_⟩
      rw [Tally.call, RowIds.Tally.call, hreply, ih.2]

theorem spares_iff {cs : List Call} : Spares cs ↔ RowIds.Spares cs := by
  simp only [Spares, RowIds.Spares, run_ids]

theorem spares_of_length {cs : List Call} (h : cs.length < 0xffffffff) : Spares cs :=
  spares_iff.mpr (RowIds.spares_of_length h)

theorem counted_run {cs : List Call} (h : Spares cs) : (run cs).store.live.Counted := by
  induction cs using List.reverseRecOn with
  | nil => rfl
  | append_singleton cs c ih =>
      have hbefore : Spares cs := fun early hearly => h early (hearly.trans (List.prefix_append _ _))
      have hkept := RowIds.kept_run (spares_iff.mp hbefore)
      have hids := (run_ids cs).1
      rw [run_concat]
      exact counted_call (ih hbefore) (hids ▸ hkept.toSound) (hids ▸ hkept.hasRoom) c

/-- The ids below the counter are live, free or retired, each in one way only. -/
theorem ids_partitioned (cs : List Call) (hspares : Spares cs) :
    let s := (run cs).store
    ((s.liveRows ++ s.free ++ s.retired).Nodup ∧
        ∀ row, row ∈ s.liveRows ++ s.free ++ s.retired ↔ row < s.next) ∧
      (s.liveRows.Pairwise (· < ·) ∧ (∀ row, row ∈ s.liveRows ↔ s.isLive row = true) ∧
        s.size = s.liveRows.length) ∧
      (s.isLive s.allocate.2 = false ∧ s.allocate.2 ∉ s.retired ∧
        ∀ before row later, cs = before ++ .retire row :: later →
          (run before).store.isLive row = true →
          .recycle ∉ later → .clear ∉ later → .claim row ∉ later → s.allocate.2 ≠ row) ∧
      ∀ c e, ((s.call c).2 = .refused e ↔ ∃ row, e = .invalidRow row ∧ s.isLive row = false ∧
          (c = .release row ∨ c = .retire row ∨ c = .claim row ∧ row = 0xffffffff)) ∧
        ((s.call c).2 = .refused e → (s.call c).1 = s) := by
  intro s
  have hids : s.ids = (RowIds.run cs).ids := (run_ids cs).1
  have hkept : s.ids.Partitioned := hids ▸ (RowIds.kept_run (spares_iff.mp hspares)).toPartitioned
  obtain ⟨hdead, hunretired, -⟩ := hkept.toSound.allocate hkept.hasRoom
  have hlive : ∀ row, s.isLive row = false ↔ row ∉ s.ids.live := fun row => by
    rw [← isLive_ids, ← RowIds.isLive_iff, Bool.not_eq_true]
  rw [← s.ids_allocate.2] at hdead hunretired
  refine ⟨⟨hkept.nodup, fun row => ?_⟩,
    ⟨s.live.ascending_rows, fun row => LiveMarks.mem_rows, counted_run hspares⟩,
    ⟨(hlive _).mpr hdead, hunretired, ?_⟩, fun c e => ⟨?_, call_of_refused⟩⟩
  · rw [List.append_assoc, List.mem_append, List.mem_append]
    exact hkept.below row
  · intro before row later hcs hwas hrecycle hclear hclaim
    rw [← isLive_ids, (run_ids before).1, RowIds.isLive_iff] at hwas
    rw [s.ids_allocate.2, hids]
    exact RowIds.allocate_ne_retired (spares_iff.mp hspares) hcs hwas hrecycle hclear hclaim
  · simp only [hlive, (s.call_ids c).2]
    exact RowIds.refused_iff

/-- Every id below 4 has been handed out and one of them is retired, so 4 is next. -/
theorem ids_partitioned_retires :
    let cs := [.allocate, .allocate, .claim 3, .allocate, .retire 1]
    Spares cs ∧ (run cs).store.ids = ⟨4, [], [1], .ofList [0, 2, 3]⟩ ∧ (run cs).store.size = 3 ∧
      (run cs).store.allocate.2 = 4 ∧ (run cs).store.allocate.2 ≠ 1 := by
  intro cs
  have hspares : Spares cs := spares_of_length (by decide)
  obtain ⟨-, -, ⟨-, -, hquarantine⟩, -⟩ := ids_partitioned cs hspares
  exact ⟨hspares, by decide, by decide, by decide,
    hquarantine [.allocate, .allocate, .claim 3, .allocate] 1 [] rfl (by decide) (by decide)
      (by decide) (by decide)⟩

/-- A claim takes an id out of quarantine, and so does clearing the store. -/
theorem handed_out_in_quarantine :
    (¬∀ cs, Spares cs → ∀ before row later, cs = before ++ .retire row :: later →
      (run before).store.isLive row = true → .recycle ∉ later → .clear ∉ later →
      (run cs).store.allocate.2 ≠ row) ∧
    ¬∀ cs, Spares cs → ∀ before row later, cs = before ++ .retire row :: later →
      (run before).store.isLive row = true → .recycle ∉ later → .claim row ∉ later →
      (run cs).store.allocate.2 ≠ row := by
  refine ⟨fun h => ?_, fun h => ?_⟩
  · have hspares : Spares [.allocate, .retire 0, .claim 0, .release 0] :=
      spares_of_length (by decide)
    exact h _ hspares [.allocate] 0 [.claim 0, .release 0] rfl (by decide) (by decide) (by decide)
      (by decide)
  · have hspares : Spares [.allocate, .retire 0, .clear] := spares_of_length (by decide)
    exact h _ hspares [.allocate] 0 [.clear] rfl (by decide) (by decide) (by decide) (by decide)

end RowStore

end TableFeed
