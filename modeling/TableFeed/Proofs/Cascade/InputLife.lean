import Mathlib
import TableFeed.Proofs.Cascade.InputState
/-!
The life of one input at an output whose inputs act from inside what they are told: what it is told
and when it is detached, in one sequence. Once it is detached it is told so and nothing more until
it is attached again; the two exceptions are a notice that was under way when it was detached.
-/

namespace TableFeed

inductive Incident
  | told (notice : Notice)
  | parted
  deriving DecidableEq

namespace Incident

def notices (es : List Incident) : List Notice :=
  es.filterMap fun
    | told n => some n
    | parted => none

/-- What an input is told before it hears, the next time, that it is attached. -/
def untilAttached : List Incident → List Notice
  | [] => []
  | told (.source true) :: _ => []
  | told n :: es => n :: untilAttached es
  | parted :: es => untilAttached es

/-- An input that has been told of all its detachments. -/
def CaughtUp (es : List Incident) : Prop := es.count (told (.source false)) = es.count parted

def Aware (es : List Incident) : Prop := CaughtUp es ∧ (sources (notices es)).getLast? = some true

instance (es : List Incident) : Decidable (CaughtUp es) := inferInstanceAs (Decidable (_ = _))

instance (es : List Incident) : Decidable (Aware es) := inferInstanceAs (Decidable (_ ∧ _))

theorem untilAttached_told {n : Notice} (hn : n ≠ .source true) (es : List Incident) :
    untilAttached (told n :: es) = n :: untilAttached es := by
  cases n with
  | source attached =>
      cases attached with
      | false => rfl
      | true => exact absurd rfl hn
  | schema | added | changed | removed => rfl

@[simp] theorem notices_nil : notices [] = [] := rfl

@[simp] theorem notices_told (n : Notice) (es : List Incident) :
    notices (told n :: es) = n :: notices es := rfl

@[simp] theorem notices_parted (es : List Incident) : notices (parted :: es) = notices es := rfl

@[simp] theorem notices_append (es es' : List Incident) :
    notices (es ++ es') = notices es ++ notices es' := List.filterMap_append ..

/-- One that is never attached hears all it is told until then. -/
theorem untilAttached_of_not_mem {es : List Incident} (h : told (.source true) ∉ es) :
    untilAttached es = notices es := by
  induction es with
  | nil => rfl
  | cons e es ih =>
      have hrest := ih fun hmem => h (List.mem_cons_of_mem _ hmem)
      cases e with
      | parted => exact hrest
      | told n =>
          rw [untilAttached_told fun heq => h (heq ▸ List.mem_cons_self), hrest]
          rfl

end Incident

open Incident (told parted)

/-- The lives of an input, from one bearing to another: news while it is attached, and farewells
once it no longer is. It may still hear the schema if it was detached when it had just been told
that it is attached, and it may be detached between two farewells that it was owed. -/
inductive Life : Bearing → List Incident → Bearing → Prop
  | stay (b : Bearing) : Life b [] b
  | enter {owed : Nat} {es : List Incident} {b : Bearing} (rest : Life ⟨true, owed⟩ es b) :
      Life ⟨false, owed⟩ (told (.source true) :: es) b
  | enterAndPart {owed : Nat} {es : List Incident} {b : Bearing} (s : Schema)
      (rest : Life ⟨false, owed + 1⟩ es b) :
      Life ⟨false, owed⟩ (told (.source true) :: parted :: told (.schema (some s)) :: es) b
  | news {owed : Nat} {es : List Incident} {b : Bearing} {n : Notice} (hn : sources [n] = [])
      (rest : Life ⟨true, owed⟩ es b) : Life ⟨true, owed⟩ (told n :: es) b
  | part {owed : Nat} {es : List Incident} {b : Bearing} (rest : Life ⟨false, owed + 1⟩ es b) :
      Life ⟨true, owed⟩ (parted :: es) b
  | farewell {attached : Bool} {owed : Nat} {es : List Incident} {b : Bearing}
      (rest : Life ⟨attached, owed⟩ es b) :
      Life ⟨attached, owed + 1⟩ (told (.schema none) :: told (.source false) :: es) b
  | partInFarewell {owed : Nat} {es : List Incident} {b : Bearing}
      (rest : Life ⟨false, owed + 1⟩ es b) :
      Life ⟨true, owed + 1⟩ (told (.schema none) :: parted :: told (.source false) :: es) b

namespace Life

variable {b b' b'' : Bearing} {es es' : List Incident}

theorem trans (h : Life b es b') (h' : Life b' es' b'') : Life b (es ++ es') b'' := by
  induction h with
  | stay => exact h'
  | enter _ ih => exact .enter (ih h')
  | enterAndPart s _ ih => exact .enterAndPart s (ih h')
  | news hn _ ih => exact .news hn (ih h')
  | part _ ih => exact .part (ih h')
  | farewell _ ih => exact .farewell (ih h')
  | partInFarewell _ ih => exact .partInFarewell (ih h')

/-- The same for an input that is owed more. -/
theorem owe (h : Life b es b') (n : Nat) : Life (b.owe n) es (b'.owe n) := by
  have hsucc : ∀ owed, owed + 1 + n = owed + n + 1 := fun owed => Nat.succ_add owed n
  induction h with
  | stay => exact .stay _
  | enter _ ih => exact .enter ih
  | enterAndPart s _ ih =>
      simp only [Bearing.owe, hsucc] at ih
      exact .enterAndPart s ih
  | news hn _ ih => exact .news hn ih
  | part _ ih =>
      simp only [Bearing.owe, hsucc] at ih
      exact .part ih
  | farewell _ ih =>
      simp only [Bearing.owe, hsucc]
      exact .farewell ih
  | partInFarewell _ ih =>
      simp only [Bearing.owe, hsucc] at ih ⊢
      exact .partInFarewell ih

/-- Every detachment is told once, or owed. -/
theorem count_farewell_add_owed (h : Life b es b') :
    es.count (told (.source false)) + b'.owed = es.count parted + b.owed := by
  induction h with
  | stay => rfl
  | enter _ ih => simpa [List.count_cons] using ih
  | enterAndPart s _ ih => simp at ih ⊢; omega
  | @news _ _ _ n hn _ ih =>
      have hne : n ≠ .source false := by
        rintro rfl
        cases hn
      simpa [List.count_cons, hne] using ih
  | part _ ih => simp at ih ⊢; omega
  | farewell _ ih => simp at ih ⊢; omega
  | partInFarewell _ ih => simp at ih ⊢; omega

/-! ### After a detachment -/

/-- What comes after the detachment of an input that was still owed the notices of `owed` others: at
most one notice that was under way, and then the life of an input that is not attached. -/
inductive Aftermath (owed : Nat) (before : List Incident) (b : Bearing) : List Incident → Prop
  | clean {es : List Incident} (rest : Life ⟨false, owed + 1⟩ es b) : Aftermath owed before b es
  | schema (s : Schema) {es : List Incident} (last : before.getLast? = some (told (.source true)))
      (rest : Life ⟨false, owed + 1⟩ es b) : Aftermath owed before b (told (.schema (some s)) :: es)
  | source {es : List Incident} (late : 0 < owed) (rest : Life ⟨false, owed⟩ es b) :
      Aftermath owed before b (told (.source false) :: es)

theorem Aftermath.cons {owed : Nat} {before : List Incident} (e : Incident)
    (h : Aftermath owed before b es) : Aftermath owed (e :: before) b es := by
  cases h with
  | clean rest => exact .clean rest
  | schema s last rest => exact .schema s (by rw [List.getLast?_cons, last]; rfl) rest
  | source late rest => exact .source late rest

theorem told_cons_eq {n : Notice} {before after : List Incident}
    (h : told n :: es = before ++ parted :: after) :
    ∃ before', before = told n :: before' ∧ es = before' ++ parted :: after := by
  rcases List.cons_eq_append_iff.mp h with ⟨-, h⟩ | h
  · cases h
  · exact h

theorem parted_cons_eq {before after : List Incident}
    (h : parted :: es = before ++ parted :: after) :
    before = [] ∧ es = after ∨ ∃ before', before = parted :: before' ∧ es = before' ++ parted :: after := by
  rcases List.cons_eq_append_iff.mp h with ⟨hnil, h⟩ | h
  · exact .inl ⟨hnil, (List.cons.inj h).2.symm⟩
  · exact .inr h

/-- An input is detached only while it is attached. -/
theorem split_at_parted (h : Life b es b') {before after : List Incident}
    (hes : es = before ++ parted :: after) :
    ∃ owed, Life b before ⟨true, owed⟩ ∧ Aftermath owed before b' after := by
  induction h generalizing before with
  | stay => simp at hes
  | enter _ ih =>
      obtain ⟨before, rfl, hrest⟩ := told_cons_eq hes
      obtain ⟨owed, hbefore, hafter⟩ := ih hrest
      exact ⟨owed, .enter hbefore, hafter.cons _⟩
  | enterAndPart s rest ih =>
      obtain ⟨before, rfl, hparted⟩ := told_cons_eq hes
      rcases parted_cons_eq hparted with ⟨rfl, rfl⟩ | ⟨before, rfl, htold⟩
      · exact ⟨_, .enter (.stay _), .schema s rfl rest⟩
      · obtain ⟨before, rfl, hrest⟩ := told_cons_eq htold
        obtain ⟨owed, hbefore, hafter⟩ := ih hrest
        exact ⟨owed, .enterAndPart s hbefore, ((hafter.cons _).cons _).cons _⟩
  | news hn _ ih =>
      obtain ⟨before, rfl, hrest⟩ := told_cons_eq hes
      obtain ⟨owed, hbefore, hafter⟩ := ih hrest
      exact ⟨owed, .news hn hbefore, hafter.cons _⟩
  | part rest ih =>
      rcases parted_cons_eq hes with ⟨rfl, rfl⟩ | ⟨before, rfl, hrest⟩
      · exact ⟨_, .stay _, .clean rest⟩
      · obtain ⟨owed, hbefore, hafter⟩ := ih hrest
        exact ⟨owed, .part hbefore, hafter.cons _⟩
  | farewell _ ih =>
      obtain ⟨before, rfl, htold⟩ := told_cons_eq hes
      obtain ⟨before, rfl, hrest⟩ := told_cons_eq htold
      obtain ⟨owed, hbefore, hafter⟩ := ih hrest
      exact ⟨owed, .farewell hbefore, (hafter.cons _).cons _⟩
  | partInFarewell rest ih =>
      obtain ⟨before, rfl, hparted⟩ := told_cons_eq hes
      rcases parted_cons_eq hparted with ⟨rfl, rfl⟩ | ⟨before, rfl, htold⟩
      · exact ⟨_, .news rfl (.stay _), .source (Nat.succ_pos _) rest⟩
      · obtain ⟨before, rfl, hrest⟩ := told_cons_eq htold
        obtain ⟨owed, hbefore, hafter⟩ := ih hrest
        exact ⟨owed, .partInFarewell hbefore, ((hafter.cons _).cons _).cons _⟩

/-- An input that is not attached is told of its detachments and of nothing else, until it is. -/
theorem untilAttached_eq {owed : Nat} (h : Life ⟨false, owed⟩ es b) :
    ∃ n ≤ owed, Incident.untilAttached es = farewells n ∧
      (told (.source true) ∉ es → n + b.owed = owed) := by
  generalize hb : (⟨false, owed⟩ : Bearing) = start at h
  induction h generalizing owed with
  | stay =>
      cases hb
      exact ⟨0, Nat.zero_le _, rfl, fun _ => Nat.zero_add owed⟩
  | enter => exact ⟨0, Nat.zero_le _, rfl, fun hnot => absurd List.mem_cons_self hnot⟩
  | enterAndPart => exact ⟨0, Nat.zero_le _, rfl, fun hnot => absurd List.mem_cons_self hnot⟩
  | news => cases hb
  | part => cases hb
  | farewell _ ih =>
      cases hb
      obtain ⟨n, hn, heq, hall⟩ := ih rfl
      refine ⟨n + 1, Nat.succ_le_succ hn, ?_, fun hnot => ?_⟩
      · rw [Incident.untilAttached_told (by simp), Incident.untilAttached_told (by simp), heq]
        rfl
      · have hrest := hall fun hmem => hnot (List.mem_cons_of_mem _ (List.mem_cons_of_mem _ hmem))
        omega
  | partInFarewell => cases hb

/-- Whenever an input is detached, it is told the notices of detachments until it is attached again.
Only a notice that was under way may come before. An input that had been told of all its earlier
detachments is told of this one only, unless it is still owed that. -/
theorem untilAttached_after_parted (h : Life ⟨false, 0⟩ es b) {before after : List Incident}
    (hes : es = before ++ parted :: after) :
    ∃ late n, Incident.untilAttached after = late ++ farewells n ∧
      (late = [] ∨
        (∃ s, late = [.schema (some s)] ∧ before.getLast? = some (told (.source true))) ∨
        late = [.source false] ∧ ¬Incident.CaughtUp before) ∧
      (Incident.CaughtUp before → n ≤ 1 ∧ (told (.source true) ∉ after → n + b.owed = 1)) := by
  obtain ⟨owed, hbefore, hafter⟩ := h.split_at_parted hes
  -- one that has caught up was owed nothing before
  have hcaught : Incident.CaughtUp before → owed = 0 := by
    intro hcaught
    have hbalance := hbefore.count_farewell_add_owed
    rw [Incident.CaughtUp] at hcaught
    dsimp only at hbalance
    omega
  cases hafter with
  | clean rest =>
      obtain ⟨n, hn, heq, hall⟩ := rest.untilAttached_eq
      refine ⟨[], n, heq, .inl rfl, fun h => ?_⟩
      obtain rfl := hcaught h
      exact ⟨hn, hall⟩
  | schema s last rest =>
      obtain ⟨n, hn, heq, hall⟩ := rest.untilAttached_eq
      refine ⟨[.schema (some s)], n, ?_, .inr (.inl ⟨s, rfl, last⟩), fun h => ?_⟩
      · rw [Incident.untilAttached_told (by simp), heq, List.singleton_append]
      · obtain rfl := hcaught h
        exact ⟨hn, fun hnot => hall fun hmem => hnot (List.mem_cons_of_mem _ hmem)⟩
  | source late rest =>
      obtain ⟨n, hn, heq, -⟩ := rest.untilAttached_eq
      have hnot : ¬Incident.CaughtUp before := fun h => absurd (hcaught h) (Nat.ne_of_gt late)
      refine ⟨[.source false], n, ?_, .inr (.inr ⟨rfl, hnot⟩), fun h => absurd h hnot⟩
      rw [Incident.untilAttached_told (by simp), heq, List.singleton_append]

end Life

end TableFeed
