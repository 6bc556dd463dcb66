/-!
Finite sets kept as strictly ascending lists. A set has one representation only, so two sets
with the same members are equal, and listing a set always gives ascending order.
-/

namespace TableFeed

/-- A finite set whose members are listed in strictly ascending order. -/
@[ext] structure AscSet (α : Type) [Ord α] where
  toList : List α
  ascending : toList.Pairwise (fun a b => compare a b = .lt)

namespace AscSet

variable {α : Type} [Ord α]

instance [DecidableEq α] : DecidableEq (AscSet α) := fun a b =>
  if h : a.toList = b.toList then isTrue (AscSet.ext h) else isFalse fun e => h (e ▸ rfl)

def empty : AscSet α := ⟨[], .nil⟩

instance : EmptyCollection (AscSet α) := ⟨empty⟩

instance : Inhabited (AscSet α) := ⟨empty⟩

instance : Membership α (AscSet α) := ⟨fun s a => a ∈ s.toList⟩

instance [DecidableEq α] (a : α) (s : AscSet α) : Decidable (a ∈ s) :=
  inferInstanceAs (Decidable (a ∈ s.toList))

def contains [DecidableEq α] (s : AscSet α) (a : α) : Bool := decide (a ∈ s)

def size (s : AscSet α) : Nat := s.toList.length

def isEmpty (s : AscSet α) : Bool := s.toList.isEmpty

/-- Puts `x` at its place in an ascending list that may already hold it. -/
def place (x : α) : List α → List α
  | [] => [x]
  | y :: ys =>
    match compare x y with
    | .lt => x :: y :: ys
    | .eq => y :: ys
    | .gt => y :: place x ys

theorem mem_place [Std.LawfulEqOrd α] {x a : α} {l : List α} :
    a ∈ place x l ↔ a = x ∨ a ∈ l := by
  induction l with
  | nil => simp [place]
  | cons y ys ih =>
    unfold place
    split
    · simp
    · next h =>
      obtain rfl := Std.LawfulEqCmp.eq_of_compare h
      simp
    · simp only [List.mem_cons, ih]
      exact or_left_comm

theorem pairwise_place [Std.TransOrd α] [Std.LawfulEqOrd α] {x : α} {l : List α}
    (h : l.Pairwise (fun a b => compare a b = .lt)) :
    (place x l).Pairwise (fun a b => compare a b = .lt) := by
  induction l with
  | nil => simp [place]
  | cons y ys ih =>
    unfold place
    split
    · next hxy =>
      refine List.pairwise_cons.2 ⟨fun a ha => ?_, h⟩
      rcases List.mem_cons.1 ha with rfl | ha
      · exact hxy
      · exact Std.TransCmp.lt_trans hxy (List.rel_of_pairwise_cons h ha)
    · exact h
    · next hxy =>
      refine List.pairwise_cons.2 ⟨fun a ha => ?_, ih h.of_cons⟩
      rcases mem_place.1 ha with rfl | ha
      · exact Std.OrientedCmp.lt_of_gt hxy
      · exact List.rel_of_pairwise_cons h ha

@[simp] theorem mem_toList {s : AscSet α} {a : α} : a ∈ s.toList ↔ a ∈ s := Iff.rfl

@[simp] theorem not_mem_empty {a : α} : ¬ a ∈ (∅ : AscSet α) := List.not_mem_nil

def erase [DecidableEq α] (s : AscSet α) (x : α) : AscSet α :=
  ⟨s.toList.filter (fun y => decide (y ≠ x)), s.ascending.filter _⟩

def eraseAll [DecidableEq α] (s : AscSet α) (xs : List α) : AscSet α := xs.foldl erase s

@[simp] theorem mem_erase [DecidableEq α] {s : AscSet α} {x a : α} :
    a ∈ s.erase x ↔ a ≠ x ∧ a ∈ s := by
  show a ∈ s.toList.filter _ ↔ a ≠ x ∧ a ∈ s.toList
  simp [and_comm]

@[simp] theorem mem_eraseAll [DecidableEq α] {s : AscSet α} {xs : List α} {a : α} :
    a ∈ s.eraseAll xs ↔ a ∈ s ∧ ¬ a ∈ xs := by
  induction xs generalizing s with
  | nil => simp [eraseAll]
  | cons x xs ih =>
    have := ih (s := s.erase x)
    simp only [eraseAll, List.foldl_cons] at this ⊢
    rw [this]
    simp only [mem_erase, List.mem_cons, not_or]
    exact ⟨fun h => ⟨h.1.2, h.1.1, h.2⟩, fun h => ⟨⟨h.2.1, h.1⟩, h.2.2⟩⟩

variable [Std.TransOrd α] [Std.LawfulEqOrd α]

def insert (s : AscSet α) (x : α) : AscSet α := ⟨place x s.toList, pairwise_place s.ascending⟩

def insertAll (s : AscSet α) (xs : List α) : AscSet α := xs.foldl insert s

def union (s t : AscSet α) : AscSet α := s.insertAll t.toList

def ofList (xs : List α) : AscSet α := empty.insertAll xs

@[simp] theorem mem_insert {s : AscSet α} {x a : α} : a ∈ s.insert x ↔ a = x ∨ a ∈ s := mem_place

@[simp] theorem mem_insertAll {s : AscSet α} {xs : List α} {a : α} :
    a ∈ s.insertAll xs ↔ a ∈ s ∨ a ∈ xs := by
  induction xs generalizing s with
  | nil => simp [insertAll]
  | cons x xs ih =>
    have := ih (s := s.insert x)
    simp only [insertAll, List.foldl_cons] at this ⊢
    rw [this]
    simp only [mem_insert, List.mem_cons]
    exact ⟨fun h => by rcases h with (h | h) | h <;> simp [h],
      fun h => by rcases h with h | h | h <;> simp [h]⟩

@[simp] theorem mem_union {s t : AscSet α} {a : α} : a ∈ s.union t ↔ a ∈ s ∨ a ∈ t := by
  simp [union]

@[simp] theorem mem_ofList {xs : List α} {a : α} : a ∈ ofList xs ↔ a ∈ xs := by
  rw [ofList, mem_insertAll]
  exact or_iff_right List.not_mem_nil

/-- The numbers below `n`. -/
def upTo (n : Nat) : AscSet Nat :=
  ⟨List.range n, (List.pairwise_lt_range).imp Nat.compare_eq_lt.2⟩

omit [Std.LawfulEqOrd α] in
theorem ne_of_compare_lt {a b : α} (h : compare a b = .lt) : a ≠ b := by
  rintro rfl
  have := h.symm.trans (Std.ReflOrd.compare_self : compare a a = .eq)
  cases this

omit [Std.LawfulEqOrd α] in
theorem eq_of_mem_iff {l m : List α} (hl : l.Pairwise (fun a b => compare a b = .lt))
    (hm : m.Pairwise (fun a b => compare a b = .lt)) (h : ∀ a, a ∈ l ↔ a ∈ m) : l = m := by
  induction l generalizing m with
  | nil => exact (List.eq_nil_iff_forall_not_mem.2 fun a ha => List.not_mem_nil ((h a).2 ha)).symm
  | cons x l ih =>
    cases m with
    | nil => exact absurd ((h x).1 List.mem_cons_self) List.not_mem_nil
    | cons y m =>
      have hxy : x = y := by
        rcases List.mem_cons.1 ((h x).1 List.mem_cons_self) with hx | hx
        · exact hx
        · rcases List.mem_cons.1 ((h y).2 List.mem_cons_self) with hy | hy
          · exact hy.symm
          · have h1 := List.rel_of_pairwise_cons hm hx
            have h2 := List.rel_of_pairwise_cons hl hy
            exact absurd rfl (ne_of_compare_lt (Std.TransCmp.lt_trans h1 h2))
      subst hxy
      have htail : ∀ a, a ∈ l ↔ a ∈ m := by
        intro a
        constructor
        · intro ha
          rcases List.mem_cons.1 ((h a).1 (List.mem_cons_of_mem _ ha)) with hax | hax
          · exact absurd hax.symm (ne_of_compare_lt (List.rel_of_pairwise_cons hl ha))
          · exact hax
        · intro ha
          rcases List.mem_cons.1 ((h a).2 (List.mem_cons_of_mem _ ha)) with hax | hax
          · exact absurd hax.symm (ne_of_compare_lt (List.rel_of_pairwise_cons hm ha))
          · exact hax
      rw [ih hl.of_cons hm.of_cons htail]

omit [Std.LawfulEqOrd α] in
/-- A set is determined by its members. -/
theorem ext_mem {s t : AscSet α} (h : ∀ a, a ∈ s ↔ a ∈ t) : s = t :=
  AscSet.ext (eq_of_mem_iff s.ascending t.ascending h)

end AscSet

end TableFeed
