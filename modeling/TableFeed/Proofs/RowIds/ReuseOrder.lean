import Mathlib
import TableFeed.Proofs.RowIds.Partition
/-!
The order in which row ids are used again. A record of the ids that became usable, put beside a run of
calls, tells for every id that can be handed out when it became so last. The free list has them in that
order, although a claim takes ids out of the middle of it.
-/

namespace TableFeed

namespace RowIds

variable {row : RowId}

/-! ### Lists in the order of a log -/

/-- The rows of a list are logged, and stand in the order in which each was logged last. A log has its
last entry in front. -/
structure Follows (log rows : List RowId) : Prop where
  logged : ∀ row ∈ rows, row ∈ log
  ordered : rows.Pairwise fun a b => log.idxOf a < log.idxOf b

namespace Follows

variable {log rows new : List RowId}

theorem nil (log : List RowId) : Follows log [] :=
  ⟨fun _ h => absurd h List.not_mem_nil, .nil⟩

theorem sublist (h : Follows log rows) {some : List RowId} (hsome : some.Sublist rows) :
    Follows log some :=
  ⟨fun row hrow => h.logged row (hsome.subset hrow), h.ordered.sublist hsome⟩

/-- Rows that are put in front of both are the last ones logged, whatever was logged before. -/
theorem push (h : Follows log rows) (hnodup : new.Nodup) (hnew : ∀ row ∈ new, row ∉ rows) :
    Follows (new ++ log) (new ++ rows) := by
  have hat : ∀ row ∈ rows, (new ++ log).idxOf row = new.length + log.idxOf row := fun row hrow =>
    List.idxOf_append_of_notMem fun hmem => hnew row hmem hrow
  refine ⟨fun row hrow => ?_, List.pairwise_append.mpr ⟨?_, ?_, fun a ha b hb => ?_⟩⟩
  · exact (List.mem_append.mp hrow).elim (List.mem_append_left _)
      fun hold => List.mem_append_right _ (h.logged row hold)
  · rw [List.pairwise_iff_getElem]
    intro i j hi hj hij
    rw [List.idxOf_append_of_mem (List.getElem_mem hi), List.idxOf_append_of_mem (List.getElem_mem hj),
      hnodup.idxOf_getElem, hnodup.idxOf_getElem]
    exact hij
  · refine h.ordered.imp_of_mem fun {a b} ha hb hab => ?_
    rw [hat a ha, hat b hb]
    exact Nat.add_lt_add_left hab _
  · rw [List.idxOf_append_of_mem ha, hat b hb]
    exact Nat.lt_add_right _ (List.idxOf_lt_length_of_mem ha)

/-- What was logged after the first row of the list is none of its rows. -/
theorem head {first : RowId} {rest : List RowId} (h : Follows log (first :: rest)) :
    ∃ later earlier, log = later ++ first :: earlier ∧ ∀ row ∈ first :: rest, row ∉ later := by
  obtain ⟨later, earlier, hlog, hfirst⟩ :=
    List.eq_append_cons_of_mem (h.logged first List.mem_cons_self)
  have hat : log.idxOf first = later.length := by
    rw [hlog, List.idxOf_append_of_notMem hfirst, List.idxOf_cons_self, Nat.add_zero]
  refine ⟨later, earlier, hlog, fun row hrow hlater => ?_⟩
  rcases List.mem_cons.mp hrow with rfl | hrest
  · exact hfirst hlater
  · have hlt := (List.pairwise_cons.mp h.ordered).1 row hrest
    rw [hat, hlog, List.idxOf_append_of_mem hlater] at hlt
    exact Nat.lt_asymm hlt (List.idxOf_lt_length_of_mem hlater)

end Follows

/-! ### What became usable when -/

structure History where
  ids : RowIds := {}
  /-- Rows retired and neither made usable nor claimed since, in the order of their removal. -/
  kept : List RowId := []
  /-- Rows that became usable, the last one first. A row is here once for every time it did. -/
  usable : List RowId := []

namespace History

def keeps (x : History) (c : Call) : List RowId :=
  match c, (x.ids.call c).2 with
  | .retire row, .done => x.kept ++ [row]
  | .claim row, .claimed _ => x.kept.erase row
  | .recycle, _ | .clear, _ => []
  | _, _ => x.kept

/-- The rows that a call makes usable, the last one first. Of the retired rows the one retired last
counts as the last, and the lowest of those that a claim passes over. -/
def frees (x : History) (c : Call) : List RowId :=
  match c, (x.ids.call c).2 with
  | .release row, .done => [row]
  | .recycle, _ => x.kept.reverse
  | .claim row, .claimed true => span x.ids.next row
  | _, _ => []

def call (x : History) (c : Call) : History :=
  { ids := (x.ids.call c).1, kept := x.keeps c, usable := x.frees c ++ x.usable }

end History

def history (cs : List Call) : History := cs.foldl History.call {}

theorem history_concat (cs : List Call) (c : Call) : history (cs ++ [c]) = (history cs).call c := by
  rw [history, List.foldl_concat]
  rfl

theorem ids_history (cs : List Call) : (history cs).ids = (run cs).ids := by
  induction cs using List.reverseRecOn with
  | nil => rfl
  | append_singleton cs c ih =>
      rw [history_concat, run_concat]
      show ((history cs).ids.call c).1 = ((run cs).ids.call c).1
      rw [ih]

/-! ### The free list follows the log -/

structure History.Sorted (x : History) : Prop where
  kept : x.kept = x.ids.retired
  follows : Follows x.usable x.ids.free

namespace History.Sorted

variable {x : History}

theorem allocate (h : x.Sorted) : (x.call .allocate).Sorted := by
  obtain ⟨⟨next, free, retired, live⟩, kept, usable⟩ := x
  cases free with
  | nil => exact ⟨h.kept, .nil _⟩
  | cons first rest => exact ⟨h.kept, h.follows.sublist (List.sublist_cons_self first rest)⟩

theorem release (h : x.Sorted) (hp : x.ids.Partitioned) (row : RowId) :
    (x.call (.release row)).Sorted := by
  rcases ht : x.ids.release row with e | t
  · simpa [call, keeps, frees, RowIds.call, granted, ht] using h
  · obtain ⟨hlive, rfl⟩ := release_eq_ok.mp ht
    simp only [call, keeps, frees, RowIds.call, granted, ht]
    refine ⟨h.kept, h.follows.push (List.nodup_singleton row) fun other hother => ?_⟩
    rw [List.mem_singleton.mp hother]
    exact hp.notFree row hlive

theorem retire (h : x.Sorted) (row : RowId) : (x.call (.retire row)).Sorted := by
  rcases ht : x.ids.retire row with e | t
  · simpa [call, keeps, frees, RowIds.call, granted, ht] using h
  · obtain ⟨-, rfl⟩ := retire_eq_ok.mp ht
    simp only [call, keeps, frees, RowIds.call, granted, ht]
    exact ⟨congrArg (· ++ [row]) h.kept, h.follows⟩

theorem recycle (h : x.Sorted) (hp : x.ids.Partitioned) : (x.call .recycle).Sorted := by
  refine ⟨rfl, ?_⟩
  show Follows (x.kept.reverse ++ x.usable) (x.ids.retired.reverse ++ x.ids.free)
  rw [h.kept]
  refine h.follows.push (List.nodup_reverse.mpr hp.nodup_retired) fun row hrow hfree => ?_
  exact (List.nodup_append.mp hp.spare).2.2 row hfree row (List.mem_reverse.mp hrow) rfl

/-- Only a claim beyond the counter passes ids over. -/
theorem span_of_lt {next : RowId} (h : row < next) : span next row = [] := by
  rw [← List.length_eq_zero_iff, length_span]
  exact Nat.sub_eq_zero_of_le (Nat.le_of_lt (UInt32.lt_iff_toNat_lt.mp h))

theorem claim (h : x.Sorted) (hp : x.ids.Partitioned) (row : RowId) :
    (x.call (.claim row)).Sorted := by
  have herase : row ∉ x.ids.retired → x.kept.erase row = x.ids.retired := fun hunretired => by
    rw [h.kept, List.erase_of_not_mem hunretired]
  rcases ht : x.ids.claim row with e | ⟨t, new⟩
  · simpa [call, keeps, frees, RowIds.call, ht] using h
  cases claims_of_ok ht with
  | already live =>
      simp only [call, keeps, frees, RowIds.call, ht]
      exact ⟨herase (hp.notRetired row live), h.follows⟩
  | beyond dead high last =>
      have hunused : ∀ other, x.ids.next ≤ other → ¬x.ids.Taken other := fun other hother htaken =>
        absurd ((hp.below other).mp htaken) (UInt32.not_lt.mpr hother)
      simp only [call, keeps, frees, RowIds.call, ht]
      refine ⟨herase fun hmem => hunused row high (.inr (.inr hmem)),
        h.follows.push (nodup_span ..) fun other hother hfree => ?_⟩
      exact hunused other (mem_span.mp hother).1 (.inr (.inl hfree))
  | freed dead low free =>
      have hunretired : row ∉ x.ids.retired := fun hmem =>
        (List.nodup_append.mp hp.spare).2.2 row free row hmem rfl
      simp only [call, keeps, frees, RowIds.call, ht, span_of_lt low]
      exact ⟨herase hunretired, h.follows.sublist List.erase_sublist⟩
  | retired dead low used =>
      simp only [call, keeps, frees, RowIds.call, ht, span_of_lt low]
      exact ⟨congrArg (·.erase row) h.kept, h.follows⟩

theorem call (h : x.Sorted) (hp : x.ids.Partitioned) (c : Call) : (x.call c).Sorted := by
  cases c with
  | allocate => exact h.allocate
  | release row => exact h.release hp row
  | retire row => exact h.retire row
  | recycle => exact h.recycle hp
  | claim row => exact h.claim hp row
  | clear => exact ⟨rfl, .nil _⟩

end History.Sorted

theorem sorted_history {cs : List Call} (h : Spares cs) : (history cs).Sorted := by
  induction cs using List.reverseRecOn with
  | nil => exact ⟨rfl, .nil _⟩
  | append_singleton cs c ih =>
      have hbefore : Spares cs := fun early hearly => h early (hearly.trans (List.prefix_append _ _))
      have hkept : (history cs).ids.Partitioned := ids_history cs ▸ (kept_run hbefore).toPartitioned
      rw [history_concat]
      exact (ih hbefore).call hkept c

/-! ### What is handed out next -/

/-- An id below the counter that is neither live nor in quarantine. -/
def History.Reusable (x : History) (row : RowId) : Prop :=
  row < x.ids.next ∧ x.ids.isLive row = false ∧ row ∉ x.kept

theorem History.Sorted.reusable_iff {x : History} (h : x.Sorted) (hp : x.ids.Partitioned) :
    x.Reusable row ↔ row ∈ x.ids.free := by
  rw [Reusable, ← hp.below, h.kept, ← Bool.not_eq_true, isLive_iff]
  constructor
  · rintro ⟨htaken, hdead, hunretired⟩
    exact (htaken.resolve_left hdead).resolve_right hunretired
  · intro hfree
    refine ⟨.inr (.inl hfree), fun hlive => hp.notFree row hlive hfree, fun hretired => ?_⟩
    exact (List.nodup_append.mp hp.spare).2.2 row hfree row hretired rfl

/-- The next id handed out is the one that became usable last, and the counter stays; if there is
none, it is the counter, which goes up by one. -/
theorem reused_last_first (cs : List Call) (hspares : Spares cs) :
    let x := history cs
    let s := (run cs).ids
    x.ids = s ∧ (∀ row, x.Reusable row → row ∈ x.usable) ∧
      (x.Reusable s.allocate.2 ∧ s.allocate.1.next = s.next ∧
          (∃ later earlier, x.usable = later ++ s.allocate.2 :: earlier ∧
            ∀ row, x.Reusable row → row ∉ later) ∨
        (∀ row, ¬x.Reusable row) ∧ s.allocate.2 = s.next ∧
          s.allocate.1.next.toNat = s.next.toNat + 1) := by
  intro x s
  have hids : x.ids = s := ids_history cs
  have hkept := kept_run hspares
  have hsorted := sorted_history hspares
  have hfree : ∀ row, x.Reusable row ↔ row ∈ s.free := fun row => by
    rw [hsorted.reusable_iff (hids ▸ hkept.toPartitioned), hids]
  have hfollows : Follows x.usable s.free := hids ▸ hsorted.follows
  refine ⟨hids, fun row hrow => hfollows.logged row ((hfree row).mp hrow), ?_⟩
  simp only [hfree]
  rcases hs : s.free with _ | ⟨first, rest⟩
  · have hlast : s.next.toNat ≠ 0xffffffff := fun heq =>
      hkept.next_ne (hspares cs (List.prefix_refl cs)) hs (UInt32.toNat_inj.mp heq)
    have hnext := s.next.toNat_lt
    simp only [allocate, hs]
    refine .inr ⟨fun _ => List.not_mem_nil, trivial, ?_⟩
    show (s.next.toNat + 1) % 4294967296 = s.next.toNat + 1
    omega
  · rw [hs] at hfollows
    simp only [allocate, hs]
    exact .inl ⟨List.mem_cons_self, trivial, hfollows.head⟩

/-- The ids 0 to 4 are passed over and 3 is claimed out of the middle of them. Then 1 is freed after 0 is
retired and before 3 is; recycling puts these two in front of it. -/
theorem reused_last_first_mixed :
    let cs := [.claim 5, .claim 3, .allocate, .allocate, .retire 0, .release 1, .retire 3, .recycle]
    Spares cs ∧ (history cs).usable = [3, 0, 1, 0, 1, 2, 3, 4] ∧
      (run cs).ids.free = [3, 0, 1, 2, 4] ∧ (history cs).Reusable 3 ∧
      ∃ later earlier, (history cs).usable = later ++ 3 :: earlier ∧
        ∀ row, (history cs).Reusable row → row ∉ later := by
  intro cs
  have hspares : Spares cs := spares_of_length (by decide)
  obtain ⟨-, -, hnext⟩ := reused_last_first cs hspares
  have hfirst : (run cs).ids.allocate.2 = 3 := by decide
  rw [hfirst] at hnext
  rcases hnext with ⟨hreusable, -, hlast⟩ | ⟨-, hcounter, -⟩
  · exact ⟨hspares, by decide, by decide, hreusable, hlast⟩
  · exact absurd hcounter (by decide)

end RowIds

end TableFeed
