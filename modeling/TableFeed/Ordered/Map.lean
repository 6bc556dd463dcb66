import TableFeed.Ordered.Set

/-!
Finite maps kept as association lists with strictly ascending keys. As with sets, a map has one
representation only: maps that look up alike are equal, and listing one goes up by key.
-/

namespace TableFeed

/-- A finite map whose entries are listed by strictly ascending key. -/
@[ext] structure AscMap (κ α : Type) [Ord κ] where
  toList : List (κ × α)
  ascending : toList.Pairwise (fun a b => compare a.1 b.1 = .lt)

namespace AscMap

variable {κ α β : Type} [Ord κ]

instance [DecidableEq κ] [DecidableEq α] : DecidableEq (AscMap κ α) := fun a b =>
  if h : a.toList = b.toList then isTrue (AscMap.ext h) else isFalse fun e => h (e ▸ rfl)

def empty : AscMap κ α := ⟨[], .nil⟩

instance : EmptyCollection (AscMap κ α) := ⟨empty⟩

instance : Inhabited (AscMap κ α) := ⟨empty⟩

def size (m : AscMap κ α) : Nat := m.toList.length

def isEmpty (m : AscMap κ α) : Bool := m.toList.isEmpty

def values (m : AscMap κ α) : List α := m.toList.map (·.2)

/-- The keys, lowest first. -/
def keys (m : AscMap κ α) : AscSet κ :=
  ⟨m.toList.map (·.1), List.pairwise_map.2 m.ascending⟩

/-- The value of `k` in an association list. -/
def lookIn [DecidableEq κ] (k : κ) : List (κ × α) → Option α
  | [] => none
  | e :: es => if e.1 = k then some e.2 else lookIn k es

def find? [DecidableEq κ] (m : AscMap κ α) (k : κ) : Option α := lookIn k m.toList

def contains [DecidableEq κ] (m : AscMap κ α) (k : κ) : Bool := (m.find? k).isSome

def mapValues (f : α → β) (m : AscMap κ α) : AscMap κ β :=
  ⟨m.toList.map fun e => (e.1, f e.2), List.pairwise_map.2 m.ascending⟩

def erase [DecidableEq κ] (m : AscMap κ α) (k : κ) : AscMap κ α :=
  ⟨m.toList.filter fun e => decide (e.1 ≠ k), m.ascending.filter _⟩

/-- Puts an entry at its place in an ascending list, over the entry of the same key if there is
one. -/
def place (k : κ) (v : α) : List (κ × α) → List (κ × α)
  | [] => [(k, v)]
  | e :: es =>
    match compare k e.1 with
    | .lt => (k, v) :: e :: es
    | .eq => (k, v) :: es
    | .gt => e :: place k v es

theorem mem_keys_place [Std.LawfulEqOrd κ] {k a : κ} {v : α} {l : List (κ × α)} :
    a ∈ (place k v l).map (·.1) ↔ a = k ∨ a ∈ l.map (·.1) := by
  induction l with
  | nil => simp [place]
  | cons e es ih =>
    unfold place
    split
    · simp
    · next h =>
      obtain rfl := Std.LawfulEqCmp.eq_of_compare h
      simp
    · simp only [List.map_cons, List.mem_cons, ih]
      exact or_left_comm

theorem pairwise_place [Std.TransOrd κ] [Std.LawfulEqOrd κ] {k : κ} {v : α} {l : List (κ × α)}
    (h : l.Pairwise (fun a b => compare a.1 b.1 = .lt)) :
    (place k v l).Pairwise (fun a b => compare a.1 b.1 = .lt) := by
  induction l with
  | nil => simp [place]
  | cons e es ih =>
    unfold place
    split
    · next hk =>
      refine List.pairwise_cons.2 ⟨fun a ha => ?_, h⟩
      rcases List.mem_cons.1 ha with rfl | ha
      · exact hk
      · exact Std.TransCmp.lt_trans hk (List.rel_of_pairwise_cons h ha)
    · next hk =>
      obtain rfl := Std.LawfulEqCmp.eq_of_compare hk
      exact List.pairwise_cons.2 ⟨fun a ha => List.rel_of_pairwise_cons h ha, h.of_cons⟩
    · next hk =>
      refine List.pairwise_cons.2 ⟨fun a ha => ?_, ih h.of_cons⟩
      rcases mem_keys_place.1 (List.mem_map_of_mem ha) with he | he
      · rw [he]
        exact Std.OrientedCmp.lt_of_gt hk
      · obtain ⟨b, hb, hba⟩ := List.mem_map.1 he
        rw [← hba]
        exact List.rel_of_pairwise_cons h hb

theorem lookIn_place_self [DecidableEq κ] [Std.LawfulEqOrd κ] {k : κ} {v : α}
    {l : List (κ × α)} : lookIn k (place k v l) = some v := by
  induction l with
  | nil => simp [place, lookIn]
  | cons e es ih =>
    unfold place
    split
    · simp [lookIn]
    · simp [lookIn]
    · next h =>
      have hne : e.1 ≠ k := by
        rintro rfl
        cases h.symm.trans (Std.ReflOrd.compare_self : compare e.1 e.1 = .eq)
      simp [lookIn, hne, ih]

theorem lookIn_place_of_ne [DecidableEq κ] [Std.LawfulEqOrd κ] {k j : κ} {v : α}
    {l : List (κ × α)} (hne : k ≠ j) : lookIn j (place k v l) = lookIn j l := by
  induction l with
  | nil => simp [place, lookIn, hne]
  | cons e es ih =>
    unfold place
    split
    · simp [lookIn, hne]
    · next h =>
      obtain rfl := Std.LawfulEqCmp.eq_of_compare h
      simp [lookIn, hne]
    · simp [lookIn, ih]

theorem lookIn_eq_some_iff [DecidableEq κ] [Std.TransOrd κ] {k : κ} {v : α} {l : List (κ × α)}
    (h : l.Pairwise (fun a b => compare a.1 b.1 = .lt)) : lookIn k l = some v ↔ (k, v) ∈ l := by
  induction l with
  | nil => simp [lookIn]
  | cons e es ih =>
    obtain ⟨j, w⟩ := e
    by_cases hj : j = k
    · subst hj
      have hnot : ∀ u, ¬ (j, u) ∈ es := fun u hu =>
        AscSet.ne_of_compare_lt (List.rel_of_pairwise_cons h hu) rfl
      simp [lookIn, hnot, eq_comm]
    · simp [lookIn, hj, ih h.of_cons, Ne.symm hj]

@[simp] theorem find?_empty [DecidableEq κ] {k : κ} : (∅ : AscMap κ α).find? k = none := rfl

theorem find?_erase [DecidableEq κ] {m : AscMap κ α} {k j : κ} :
    (m.erase k).find? j = if k = j then none else m.find? j := by
  obtain ⟨l, hl⟩ := m
  show lookIn j (l.filter _) = if k = j then none else lookIn j l
  clear hl
  induction l with
  | nil => simp [lookIn]
  | cons e es ih =>
    by_cases he : e.1 = k <;> by_cases hj : e.1 = j <;> by_cases hk : k = j <;>
      simp_all [lookIn]

theorem find?_eq_some_iff [DecidableEq κ] [Std.TransOrd κ] {m : AscMap κ α} {k : κ} {v : α} :
    m.find? k = some v ↔ (k, v) ∈ m.toList := lookIn_eq_some_iff m.ascending

section Writes

variable [DecidableEq κ] [Std.TransOrd κ] [Std.LawfulEqOrd κ]

omit [DecidableEq κ] in
def insert (m : AscMap κ α) (k : κ) (v : α) : AscMap κ α :=
  ⟨place k v m.toList, pairwise_place m.ascending⟩

/-- Applies `f` to the value of `k`, if there is one. -/
def modify (m : AscMap κ α) (k : κ) (f : α → α) : AscMap κ α :=
  match m.find? k with
  | some v => m.insert k (f v)
  | none => m

def ofList (es : List (κ × α)) : AscMap κ α := es.foldl (fun m e => m.insert e.1 e.2) empty

theorem find?_insert {m : AscMap κ α} {k j : κ} {v : α} :
    (m.insert k v).find? j = if k = j then some v else m.find? j := by
  split
  · next h => subst h; exact lookIn_place_self
  · next h => exact lookIn_place_of_ne h

omit [Std.LawfulEqOrd κ] in
/-- A map is determined by what it looks up. -/
theorem ext_find? {m n : AscMap κ α} (h : ∀ k, m.find? k = n.find? k) : m = n := by
  have hmem : ∀ e, e ∈ m.toList ↔ e ∈ n.toList := by
    rintro ⟨k, v⟩
    rw [← find?_eq_some_iff, ← find?_eq_some_iff, h k]
  obtain ⟨l, hl⟩ := m
  obtain ⟨r, hr⟩ := n
  have hkeys : l.map (·.1) = r.map (·.1) :=
    AscSet.eq_of_mem_iff (List.pairwise_map.2 hl) (List.pairwise_map.2 hr) fun a => by
      simp only [List.mem_map]
      exact ⟨fun ⟨e, he, ha⟩ => ⟨e, (hmem e).1 he, ha⟩, fun ⟨e, he, ha⟩ => ⟨e, (hmem e).2 he, ha⟩⟩
  refine AscMap.ext ?_
  show l = r
  clear h
  induction l generalizing r with
  | nil => exact (List.map_eq_nil_iff.1 hkeys.symm).symm
  | cons e es ih =>
    cases r with
    | nil => cases hkeys
    | cons f fs =>
      obtain ⟨j, v⟩ := e
      obtain ⟨k, w⟩ := f
      simp only [List.map_cons, List.cons.injEq] at hkeys
      obtain ⟨rfl, hrest⟩ := hkeys
      have hv : v = w := by
        rcases List.mem_cons.1 ((hmem (j, v)).1 List.mem_cons_self) with h | h
        · exact (Prod.mk.inj h).2
        · have hlt : compare j j = .lt := List.rel_of_pairwise_cons hr h
          exact absurd rfl (AscSet.ne_of_compare_lt hlt)
      subst hv
      have hes : ∀ e, e ∈ es ↔ e ∈ fs := by
        intro e
        constructor
        · intro he
          rcases List.mem_cons.1 ((hmem e).1 (List.mem_cons_of_mem _ he)) with h | h
          · subst h
            exact absurd rfl (AscSet.ne_of_compare_lt (List.rel_of_pairwise_cons hl he))
          · exact h
        · intro he
          rcases List.mem_cons.1 ((hmem e).2 (List.mem_cons_of_mem _ he)) with h | h
          · subst h
            exact absurd rfl (AscSet.ne_of_compare_lt (List.rel_of_pairwise_cons hr he))
          · exact h
      rw [ih hl.of_cons fs hr.of_cons hes hrest]

end Writes

end AscMap

end TableFeed
