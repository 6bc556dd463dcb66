import Mathlib
import TableFeed.Proofs.Keys.Bijection
import TableFeed.Proofs.RowIds.Partition
/-!
Runs of an index of keys over a store of rows. The index and the store know nothing of each other:
what keeps them in step is that a key enters the index with a row just allocated and leaves it with
that row freed, or leaves its row behind. A record of the calls and their replies tells for every
key which row it stands for, and for every row that was left behind that nobody else gets it.
-/

namespace TableFeed

structure Interner (κ : Type) where
  index : KeyIndex κ := {}
  ids : RowIds := {}

namespace Interner

/-- One call. Whoever else uses the store only allocates. -/
inductive Call (κ : Type)
  | intern (key : κ)
  | remove (key : κ)
  | forget (key : κ)
  | clear
  | allocate
  deriving DecidableEq

inductive Reply
  | interned (row : RowId) (new : Bool)
  | dropped (row : Option RowId)
  | cleared
  | handed (row : RowId)
  deriving DecidableEq

variable {κ : Type} [DecidableEq κ] {x : Interner κ} {key other : κ} {row : RowId}

def call (x : Interner κ) : Call κ → Interner κ × Reply
  | .intern key =>
    let (index, ids, row, new) := x.index.intern x.ids key
    (⟨index, ids⟩, .interned row new)
  | .remove key =>
    let (index, ids, row) := x.index.remove x.ids key
    (⟨index, ids⟩, .dropped row)
  | .forget key => (⟨x.index.forget key, x.ids⟩, .dropped (x.index.lookup key))
  | .clear => (⟨x.index.clear, x.ids⟩, .cleared)
  | .allocate => (⟨x.index, x.ids.allocate.1⟩, .handed x.ids.allocate.2)

/-! ### The record -/

abbrev Record (κ : Type) := List (Call κ × Reply)

namespace Record

/-- The row that a key was given when it was last interned as a new one, unless the key was removed,
forgotten or cleared since. -/
def holder (key : κ) : Record κ → Option RowId
  | [] => none
  | (.intern k, .interned row true) :: past => if k = key then some row else holder key past
  | (.remove k, _) :: past => if k = key then none else holder key past
  | (.forget k, _) :: past => if k = key then none else holder key past
  | (.clear, _) :: _ => none
  | _ :: past => holder key past

/-- Whether a row was some key's when the key was forgotten or cleared. -/
def LeftBehind (row : RowId) : Record κ → Prop
  | [] => False
  | (.forget key, _) :: past => holder key past = some row ∨ LeftBehind row past
  | (.clear, _) :: past => (∃ key, holder key past = some row) ∨ LeftBehind row past
  | _ :: past => LeftBehind row past

omit [DecidableEq κ] in
def handed : Record κ → RowSet
  | [] => ∅
  | (_, .interned row true) :: past => (handed past).insert row
  | (_, .handed row) :: past => (handed past).insert row
  | _ :: past => handed past

end Record

open Record

def run (cs : List (Call κ)) : Interner κ × Record κ :=
  cs.foldl (fun (x, past) c => ((x.call c).1, (c, (x.call c).2) :: past)) ({}, [])

theorem run_concat (cs : List (Call κ)) (c : Call κ) :
    run (cs ++ [c]) =
      (((run cs).1.call c).1, (c, ((run cs).1.call c).2) :: (run cs).2) := by
  rw [run, List.foldl_concat]
  rfl

omit [DecidableEq κ] in
theorem size_handed_le (e : Call κ × Reply) (past : Record κ) :
    (handed past).size ≤ (handed (e :: past)).size := by
  have hinsert : ∀ row, (handed past).size ≤ ((handed past).insert row).size := fun row =>
    (List.subperm_of_subset (AscSet.nodup_toList _) fun other hother =>
      AscSet.mem_insert.mpr (.inr hother)).length_le
  obtain ⟨c, reply⟩ := e
  rcases reply with ⟨row, _ | _⟩ | _ | _ | row
  · exact le_rfl
  · exact hinsert row
  · exact le_rfl
  · exact le_rfl
  · exact hinsert row

/-! ### What every call keeps -/

/-- The index and the store agree with each other and with the record. -/
structure Sound (x : Interner κ) (past : Record κ) : Prop where
  kept : RowIds.Tally.Kept ⟨x.ids, handed past⟩
  recalls : ∀ key, x.index.lookup key = holder key past
  live : ∀ key row, holder key past = some row → row ∈ x.ids.live
  apart : ∀ key other row, holder key past = some row → holder other past = some row → key = other
  left : ∀ row, LeftBehind row past → row ∈ x.ids.live ∧ ∀ key, holder key past ≠ some row

theorem Sound.empty : ({} : Interner κ).Sound [] :=
  ⟨⟨.empty, fun _ h => absurd h UInt32.not_lt_zero⟩, fun _ => rfl, nofun, nofun, nofun⟩

namespace Sound

variable {past : Record κ}

/-- What is allocated next is no key's row and was not left behind by one. -/
theorem allocate_new (h : x.Sound past) :
    x.ids.allocate.2 ∉ x.ids.live ∧
      x.ids.allocate.1.live = x.ids.live.insert x.ids.allocate.2 := by
  obtain ⟨hdead, -, hlive, -⟩ := h.kept.toSound.allocate h.kept.hasRoom
  exact ⟨hdead, hlive⟩

theorem intern_known (h : x.Sound past) (hkey : holder key past = some row) :
    x.call (.intern key) = (x, .interned row false) := by
  simp only [call, KeyIndex.intern, h.recalls, hkey]

theorem intern_unknown (h : x.Sound past) (hkey : holder key past = none) :
    x.call (.intern key) =
      (⟨⟨(key, x.ids.allocate.2) :: x.index.entries⟩, x.ids.allocate.1⟩,
        .interned x.ids.allocate.2 true) := by
  simp only [call, KeyIndex.intern, h.recalls, hkey]

theorem remove_known (h : x.Sound past) (hkey : holder key past = some row) :
    x.call (.remove key) =
      (⟨x.index.forget key,
        { x.ids with free := row :: x.ids.free, live := x.ids.live.erase row }⟩,
        .dropped (some row)) := by
  have hrelease := RowIds.release_eq_ok.mpr ⟨h.live key row hkey, rfl⟩
  simp only [call, KeyIndex.remove, h.recalls, hkey, hrelease]

theorem remove_unknown (h : x.Sound past) (hkey : holder key past = none) :
    x.call (.remove key) = (x, .dropped none) := by
  simp only [call, KeyIndex.remove, h.recalls, hkey]

theorem intern (h : x.Sound past) (hfew : (handed past).size < 0xffffffff) (key : κ) :
    (x.call (.intern key)).1.Sound ((.intern key, (x.call (.intern key)).2) :: past) := by
  rcases hkey : holder key past with _ | row
  · rw [h.intern_unknown hkey]
    obtain ⟨hdead, hlive⟩ := h.allocate_new
    -- the new row was not live, so it is neither another key's row nor one left behind
    have hold : ∀ other, holder other past ≠ some x.ids.allocate.2 := fun other hother =>
      hdead (h.live other _ hother)
    refine ⟨h.kept.allocate hfew, fun other => ?_, fun other row hrow => ?_,
      fun one other row hone hother => ?_, fun row hleft => ?_⟩
    · rw [KeyIndex.lookup_cons, holder]
      split
      · rfl
      · exact h.recalls other
    · show row ∈ x.ids.allocate.1.live
      rw [hlive, AscSet.mem_insert]
      rw [holder] at hrow
      split at hrow
      · exact .inl (Option.some.inj hrow).symm
      · exact .inr (h.live other row hrow)
    · rw [holder] at hone hother
      split at hone <;> split at hother
      · next hkey hkey' => exact hkey.symm.trans hkey'
      · exact absurd (hother.trans hone.symm) (hold other)
      · exact absurd (hone.trans hother.symm) (hold one)
      · exact h.apart one other row hone hother
    · obtain ⟨hmem, hnone⟩ := h.left row hleft
      refine ⟨?_, fun other => ?_⟩
      · show row ∈ x.ids.allocate.1.live
        rw [hlive]
        exact AscSet.mem_insert.mpr (.inr hmem)
      · rw [holder]
        split
        · exact fun heq => hdead (Option.some.inj heq ▸ hmem)
        · exact hnone other
  · rw [h.intern_known hkey]
    exact ⟨h.kept, h.recalls, h.live, h.apart, h.left⟩

theorem remove (h : x.Sound past) (hfew : (handed past).size < 0xffffffff) (key : κ) :
    (x.call (.remove key)).1.Sound ((.remove key, (x.call (.remove key)).2) :: past) := by
  have hholder : ∀ other reply, holder other ((.remove key, reply) :: past) =
      if key = other then none else holder other past := fun _ _ => rfl
  rcases hkey : holder key past with _ | row
  · rw [h.remove_unknown hkey]
    have hsame : ∀ other,
        holder other ((.remove key, .dropped none) :: past) = holder other past := by
      intro other
      rw [hholder]
      split
      · next heq => rw [← heq, hkey]
      · rfl
    exact ⟨h.kept, fun other => (h.recalls other).trans (hsame other).symm,
      fun other row => (hsame other).symm ▸ h.live other row,
      fun one other row => (hsame one).symm ▸ (hsame other).symm ▸ h.apart one other row,
      fun row hleft => ⟨(h.left row hleft).1,
        fun other => (hsame other).symm ▸ (h.left row hleft).2 other⟩⟩
  · rw [h.remove_known hkey]
    have hkept : RowIds.Tally.Kept ⟨(x.ids.granted (x.ids.release row)).1, handed past⟩ :=
      h.kept.call hfew (.release row)
    rw [RowIds.release_eq_ok.mpr ⟨h.live key row hkey, rfl⟩] at hkept
    have hother : ∀ other one,
        holder other ((.remove key, .dropped (some row)) :: past) = some one →
          key ≠ other ∧ holder other past = some one := by
      intro other one hone
      rw [hholder] at hone
      split at hone
      · cases hone
      · next hne => exact ⟨hne, hone⟩
    refine ⟨hkept, fun other => ?_, fun other one hone => ?_, fun one other row hone hother' => ?_,
      fun one hleft => ?_⟩
    · rw [KeyIndex.lookup_forget, hholder, h.recalls]
    · obtain ⟨hne, hheld⟩ := hother other one hone
      refine AscSet.mem_erase.mpr ⟨?_, h.live other one hheld⟩
      rintro rfl
      exact hne (h.apart key other one hkey hheld)
    · exact h.apart one other row (hother one row hone).2 (hother other row hother').2
    · obtain ⟨hmem, hnone⟩ := h.left one hleft
      refine ⟨AscSet.mem_erase.mpr ⟨?_, hmem⟩,
        fun other hone => hnone other (hother other one hone).2⟩
      rintro rfl
      exact hnone key hkey

theorem forget (h : x.Sound past) (key : κ) :
    (x.call (.forget key)).1.Sound ((.forget key, (x.call (.forget key)).2) :: past) := by
  have hother : ∀ other row reply, holder other ((.forget key, reply) :: past) = some row →
      key ≠ other ∧ holder other past = some row := by
    intro other row reply hrow
    rw [holder] at hrow
    split at hrow
    · cases hrow
    · next hne => exact ⟨hne, hrow⟩
  refine ⟨h.kept, fun other => ?_,
    fun other row hrow => h.live other row (hother other row _ hrow).2,
    fun one other row hone hother' => h.apart one other row (hother one row _ hone).2
      (hother other row _ hother').2, fun row hleft => ?_⟩
  · show (x.index.forget key).lookup other = _
    rw [KeyIndex.lookup_forget, holder, h.recalls]
  · rcases hleft with hrow | hleft
    -- the row of the key itself: no other key has it
    · refine ⟨h.live key row hrow, fun other hother' => ?_⟩
      obtain ⟨hne, hsame⟩ := hother other row _ hother'
      exact hne (h.apart key other row hrow hsame)
    · obtain ⟨hmem, hnone⟩ := h.left row hleft
      exact ⟨hmem, fun other hother' => hnone other (hother other row _ hother').2⟩

theorem clear (h : x.Sound past) :
    (x.call .clear).1.Sound ((.clear, (x.call .clear).2) :: past) := by
  refine ⟨h.kept, fun _ => rfl, nofun, nofun, fun row hleft => ⟨?_, nofun⟩⟩
  rcases hleft with ⟨key, hrow⟩ | hleft
  · exact h.live key row hrow
  · exact (h.left row hleft).1

theorem allocate (h : x.Sound past) (hfew : (handed past).size < 0xffffffff) :
    (x.call .allocate).1.Sound ((.allocate, (x.call .allocate).2) :: past) := by
  obtain ⟨-, hlive⟩ := h.allocate_new
  have hmem : ∀ row, row ∈ x.ids.live → row ∈ x.ids.allocate.1.live := fun row hrow => by
    rw [hlive]
    exact AscSet.mem_insert.mpr (.inr hrow)
  exact ⟨h.kept.allocate hfew, h.recalls, fun key row hrow => hmem row (h.live key row hrow),
    h.apart, fun row hleft => ⟨hmem row (h.left row hleft).1, (h.left row hleft).2⟩⟩

theorem call (h : x.Sound past) (hfew : (handed past).size < 0xffffffff) (c : Call κ) :
    (x.call c).1.Sound ((c, (x.call c).2) :: past) := by
  cases c with
  | intern key => exact h.intern hfew key
  | remove key => exact h.remove hfew key
  | forget key => exact h.forget key
  | clear => exact h.clear
  | allocate => exact h.allocate hfew

end Sound

theorem sound_run {cs : List (Call κ)} (hfew : (handed (run cs).2).size < 0xffffffff) :
    (run cs).1.Sound (run cs).2 := by
  induction cs using List.reverseRecOn with
  | nil => exact Sound.empty
  | append_singleton cs c ih =>
      rw [run_concat] at hfew ⊢
      have hbefore := (size_handed_le _ (run cs).2).trans_lt hfew
      exact (ih hbefore).call hbefore c

/-- Every key stands for a live row that is no other key's, and the row of a key that was forgotten
or cleared is never given to a key again, as long as ids are left. -/
theorem rows_never_shared (cs : List (Call κ)) (hfew : (handed (run cs).2).size < 0xffffffff) :
    let x := (run cs).1
    let past := (run cs).2
    (∀ key, x.index.lookup key = holder key past) ∧
      (∀ key row, holder key past = some row →
        x.ids.isLive row = true ∧ ∀ other, holder other past = some row → other = key) ∧
      (∀ key row, holder key past = some row → x.call (.intern key) = (x, .interned row false)) ∧
      (∀ key, holder key past = none → ∃ row, (x.call (.intern key)).2 = .interned row true ∧
        x.ids.isLive row = false ∧ ∀ other, (x.call (.intern key)).1.ids.isLive other = true ↔
          other = row ∨ x.ids.isLive other = true) ∧
      (∀ key row, holder key past = some row → (x.call (.remove key)).2 = .dropped (some row) ∧
        x.ids.release row = .ok (x.call (.remove key)).1.ids ∧
        ∀ other, (x.call (.remove key)).1.ids.isLive other = true ↔
          other ≠ row ∧ x.ids.isLive other = true) ∧
      (∀ key, holder key past = none → x.call (.remove key) = (x, .dropped none)) ∧
      ∀ row, LeftBehind row past → x.ids.isLive row = true ∧ ∀ key, holder key past ≠ some row ∧
        ∀ new, (x.call (.intern key)).2 ≠ .interned row new := by
  intro x past
  have h : x.Sound past := sound_run hfew
  obtain ⟨hdead, hlive⟩ := h.allocate_new
  simp only [RowIds.isLive_iff, ← Bool.not_eq_true]
  refine ⟨h.recalls, fun key row hrow => ⟨h.live key row hrow, fun other hother =>
    h.apart other key row hother hrow⟩, fun key row hrow => h.intern_known hrow,
    fun key hnone => ⟨x.ids.allocate.2, ?_, hdead, fun other => ?_⟩,
    fun key row hrow => ⟨?_, ?_, fun other => ?_⟩, fun key hnone => h.remove_unknown hnone,
    fun row hleft => ⟨(h.left row hleft).1,
      fun key => ⟨(h.left row hleft).2 key, fun new hgiven => ?_⟩⟩⟩
  · rw [h.intern_unknown hnone]
  · rw [h.intern_unknown hnone]
    show other ∈ x.ids.allocate.1.live ↔ _
    rw [hlive, AscSet.mem_insert]
  · rw [h.remove_known hrow]
  · rw [h.remove_known hrow]
    exact RowIds.release_eq_ok.mpr ⟨h.live key row hrow, rfl⟩
  · rw [h.remove_known hrow]
    exact AscSet.mem_erase
  · obtain ⟨hmem, hnone⟩ := h.left row hleft
    rcases hkey : holder key past with _ | held
    · rw [h.intern_unknown hkey] at hgiven
      exact hdead ((Reply.interned.inj hgiven).1 ▸ hmem)
    · rw [h.intern_known hkey] at hgiven
      exact hnone key ((Reply.interned.inj hgiven).1 ▸ hkey)

/-- The row of a key that is removed goes to the next key, that of a key that is forgotten does not,
not even when the same key is interned again. -/
theorem rows_never_shared_again :
    let cs : List (Call Nat) := [.intern 7, .allocate, .intern 8, .remove 7, .intern 9, .forget 8]
    let x := (run cs).1
    (handed (run cs).2).size < 0xffffffff ∧ holder 9 (run cs).2 = some 0 ∧
      x.call (.intern 9) = (x, .interned 0 false) ∧ LeftBehind 2 (run cs).2 ∧
      x.ids.isLive 2 = true ∧ (x.call (.intern 8)).2 = .interned 3 true ∧
      (x.call (.intern 8)).2 ≠ .interned 2 true := by
  intro cs x
  have hfew : (handed (run cs).2).size < 0xffffffff := by decide
  obtain ⟨-, -, hknown, -, -, -, hleft⟩ := rows_never_shared cs hfew
  have hheld : holder 9 (run cs).2 = some 0 := by decide
  have hbehind : LeftBehind 2 (run cs).2 := .inl (by decide)
  obtain ⟨hlive, hnever⟩ := hleft 2 hbehind
  exact ⟨hfew, hheld, hknown 9 0 hheld, hbehind, hlive, by decide, (hnever 8).2 true⟩

end Interner

end TableFeed
