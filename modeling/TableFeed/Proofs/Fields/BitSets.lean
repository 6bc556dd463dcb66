import Mathlib
import TableFeed.FieldBits
import TableFeed.Sheet

/-!
Sets of field positions kept as bits are finite sets of numbers. A set is described by its words,
of which there are endlessly many, all but those it has allocated being zero: what an operation
does to them does not depend on how many there are, and neither does equality.
-/

namespace TableFeed

namespace FieldBits

/-! ### The bits of a word -/

section Word

variable {v w : UInt64} {i j : Nat}

theorem toNat_bit (hi : i < 64) : (bit i).toNat = 2 ^ i := by
  have hlt : 2 ^ i < 2 ^ 64 := Nat.pow_lt_pow_right Nat.one_lt_two hi
  have hmod : (UInt64.ofNat i).toNat % 64 = i := by
    rw [UInt64.toNat_ofNat_of_lt' (hi.trans (by decide)), Nat.mod_eq_of_lt hi]
  rw [bit, UInt64.toNat_shiftLeft, hmod, UInt64.toNat_one, Nat.one_shiftLeft, Nat.mod_eq_of_lt hlt]

theorem hasBit_eq_testBit (hi : i < 64) : hasBit w i = w.toNat.testBit i := by
  have hand : (w &&& bit i).toNat = (w.toNat.testBit i).toNat * 2 ^ i := by
    rw [UInt64.toNat_and, toNat_bit hi, Nat.and_two_pow]
  rw [hasBit, Bool.eq_iff_iff, bne_iff_ne, ne_eq, ← UInt64.toNat_inj, hand]
  cases w.toNat.testBit i <;> simp

@[simp] theorem hasBit_zero (i : Nat) : hasBit 0 i = false := by
  simp [hasBit]

theorem hasBit_or (hi : i < 64) : hasBit (v ||| w) i = (hasBit v i || hasBit w i) := by
  rw [hasBit_eq_testBit hi, hasBit_eq_testBit hi, hasBit_eq_testBit hi, UInt64.toNat_or,
    Nat.testBit_or]

theorem hasBit_bit (hi : i < 64) (hj : j < 64) : hasBit (bit i) j = decide (i = j) := by
  rw [hasBit_eq_testBit hj, toNat_bit hi, Nat.testBit_two_pow]

/-- A word is determined by its bits. -/
theorem eq_of_hasBit (h : ∀ i < 64, hasBit v i = hasBit w i) : v = w := by
  refine UInt64.toNat_inj.mp (Nat.eq_of_testBit_eq fun i => ?_)
  by_cases hi : i < 64
  · rw [← hasBit_eq_testBit hi, ← hasBit_eq_testBit hi, h i hi]
  · have hpow : 2 ^ 64 ≤ 2 ^ i := Nat.pow_le_pow_right Nat.two_pos (Nat.le_of_not_lt hi)
    rw [Nat.testBit_lt_two_pow (v.toNat_lt.trans_le hpow),
      Nat.testBit_lt_two_pow (w.toNat_lt.trans_le hpow)]

end Word

/-! ### The words of a set -/

variable (s t : FieldBits) (id other : FieldId) (i : Nat)

def word (s : FieldBits) (i : Nat) : UInt64 := s.words.getD i 0

theorem contains_eq : s.contains id = hasBit (s.word (id / 64)) (id % 64) := by
  rw [contains, word, List.getD_eq_getElem?_getD]
  cases s.words[id / 64]? <;> simp

theorem contains_place {j : Nat} (hj : j < 64) :
    s.contains (i * 64 + j) = hasBit (s.word i) j := by
  rw [contains_eq, show (i * 64 + j) / 64 = i by omega, show (i * 64 + j) % 64 = j by omega]

/-- The same words, read as far as one likes, are the same positions. -/
theorem word_eq_iff :
    (∀ i, s.word i = t.word i) ↔ ∀ id, s.contains id = t.contains id := by
  constructor
  · intro h id
    rw [contains_eq, contains_eq, h]
  · refine fun h i => eq_of_hasBit fun j hj => ?_
    rw [← contains_place s i hj, ← contains_place t i hj, h]

theorem getD_grow (words : List UInt64) (n i : Nat) :
    (grow words n).getD i 0 = words.getD i 0 := by
  simp only [List.getD_eq_getElem?_getD, grow, List.getElem?_append, List.getElem?_replicate]
  split
  · rfl
  · next hi =>
    rw [List.getElem?_eq_none (Nat.le_of_not_lt hi)]
    split <;> rfl

theorem length_grow (words : List UInt64) (n : Nat) :
    (grow words n).length = max words.length n := by
  rw [grow, List.length_append, List.length_replicate]
  omega

theorem word_insert :
    (s.insert id).1.word i = if id / 64 = i then s.word i ||| bit (id % 64) else s.word i := by
  have hlong : id / 64 < (grow s.words (id / 64 + 1)).length := by
    rw [length_grow]
    exact (Nat.lt_succ_self _).trans_le (Nat.le_max_right ..)
  rw [word, word, ← getD_grow s.words (id / 64 + 1), insert]
  simp only [List.getD_eq_getElem?_getD, List.getElem?_modify]
  split
  · next hi =>
    rw [← hi, List.getElem?_eq_getElem hlong]
    rfl
  · rw [Option.map_eq_map, Option.map_id']

theorem word_union : (s.union t).word i = s.word i ||| t.word i := by
  have hlong : t.words.length ≤ (grow s.words t.words.length).length := by
    rw [length_grow]
    exact Nat.le_max_right ..
  have hzip : (List.zipWith (· ||| ·) (grow s.words t.words.length) t.words).length =
      t.words.length := by
    rw [List.length_zipWith, Nat.min_eq_right hlong]
  rw [word, word, word, ← getD_grow s.words t.words.length, union, List.getD_eq_getElem?_getD,
    List.getElem?_append, hzip]
  -- a word that both have after growing, or one past the words of `t`
  split
  · next hi =>
    have hi' := hi.trans_le hlong
    rw [List.getElem?_zipWith, List.getElem?_eq_getElem hi, List.getElem?_eq_getElem hi',
      List.getD_eq_getElem _ _ hi, List.getD_eq_getElem _ _ hi']
    rfl
  · next hi =>
    have hi := Nat.le_of_not_lt hi
    rw [List.getElem?_drop, Nat.add_sub_cancel' hi, List.getD_eq_default _ _ hi, UInt64.or_zero,
      List.getD_eq_getElem?_getD]

@[simp] theorem contains_empty : ({} : FieldBits).contains id = false := rfl

/-- Two positions are the same if they have the same word and the same bit. -/
theorem contains_insert :
    (s.insert id).1.contains other = (decide (id = other) || s.contains other) := by
  have hlt : ∀ n : Nat, n % 64 < 64 := fun n => Nat.mod_lt n (by decide)
  rw [contains_eq, contains_eq, word_insert]
  split
  · next hword =>
    rw [hasBit_or (hlt other), hasBit_bit (hlt id) (hlt other), Bool.or_comm]
    congr 1
    refine decide_eq_decide.mpr ⟨fun hbit => ?_, fun h => h ▸ rfl⟩
    rw [← Nat.div_add_mod id 64, hword, hbit, Nat.div_add_mod]
  · next hword =>
    have hne : id ≠ other := fun h => hword (h ▸ rfl)
    rw [decide_eq_false hne, Bool.false_or]

theorem insert_snd : (s.insert id).2 = !s.contains id := by
  rw [contains_eq, word, ← getD_grow s.words (id / 64 + 1)]
  rfl

theorem contains_union : (s.union t).contains id = (s.contains id || t.contains id) := by
  rw [contains_eq, contains_eq, contains_eq, word_union, hasBit_or (Nat.mod_lt _ (by decide))]

theorem contains_foldl_insert (ids : List FieldId) :
    (ids.foldl (fun s id => (s.insert id).1) s).contains other =
      (decide (other ∈ ids) || s.contains other) := by
  induction ids generalizing s with
  | nil => simp
  | cons id ids ih =>
      rw [List.foldl_cons, ih, contains_insert, Bool.eq_iff_iff]
      simp only [Bool.or_eq_true, decide_eq_true_eq, List.mem_cons]
      tauto

theorem contains_ofList (ids : List FieldId) : (ofList ids).contains id = decide (id ∈ ids) := by
  rw [ofList, contains_foldl_insert, contains_empty, Bool.or_false]

theorem contains_all (count : Nat) : (all count).contains id = decide (id < count) := by
  rw [all, contains_ofList, decide_eq_decide, List.mem_range]

/-! ### The positions in order -/

theorem mem_positions {w : UInt64} : id ∈ positions w i ↔ id / 64 = i ∧ hasBit w (id % 64) := by
  rw [positions, List.mem_filterMap]
  constructor
  · rintro ⟨j, hj, hid⟩
    rw [Option.ite_none_right_eq_some, Option.some.injEq] at hid
    obtain ⟨hbit, rfl⟩ := hid
    rw [List.mem_range] at hj
    rw [show (i * 64 + j) / 64 = i by omega, show (i * 64 + j) % 64 = j by omega]
    exact ⟨rfl, hbit⟩
  · rintro ⟨rfl, hbit⟩
    exact ⟨id % 64, List.mem_range.mpr (Nat.mod_lt _ (by decide)),
      by rw [if_pos hbit, Nat.mul_comm, Nat.div_add_mod]⟩

theorem mem_toList : id ∈ s.toList ↔ s.contains id = true := by
  rw [toList, List.mem_flatMap]
  constructor
  · rintro ⟨⟨w, i⟩, hw, hid⟩
    obtain ⟨rfl, hbit⟩ := (mem_positions id i).mp hid
    rw [List.mem_zipIdx_iff_getElem?] at hw
    rw [contains, hw]
    exact hbit
  · intro hid
    rw [contains] at hid
    split at hid
    · next w hw =>
      exact ⟨(w, id / 64), List.mem_zipIdx_iff_getElem?.mpr hw, (mem_positions id _).mpr ⟨rfl, hid⟩⟩
    · cases hid

theorem pairwise_positions (w : UInt64) : (positions w i).Pairwise (· < ·) := by
  rw [positions, List.pairwise_filterMap]
  refine List.pairwise_lt_range.imp fun {j k} hjk a ha b hb => ?_
  rw [Option.ite_none_right_eq_some, Option.some.injEq] at ha hb
  rw [← ha.2, ← hb.2]
  exact Nat.add_lt_add_left hjk _

/-- Positions ascend within a word, and those of a word are below those of the words after it. -/
theorem pairwise_toList : s.toList.Pairwise (· < ·) := by
  rw [toList, List.pairwise_flatMap]
  refine ⟨fun e _ => pairwise_positions e.2 e.1, ?_⟩
  have hplaces : (s.words.zipIdx.map (·.2)).Pairwise (· < ·) := by
    rw [List.zipIdx_map_snd]
    exact List.pairwise_lt_range'
  refine (List.pairwise_map.mp hplaces).imp fun {e f} hef a ha b hb => ?_
  obtain ⟨hae, -⟩ := (mem_positions a e.2).mp ha
  obtain ⟨hbf, -⟩ := (mem_positions b f.2).mp hb
  refine Nat.lt_of_not_le fun hba => ?_
  have hle : b / 64 ≤ a / 64 := Nat.div_le_div_right hba
  rw [hae, hbf] at hle
  exact Nat.not_lt.mpr hle hef

theorem length_positions (w : UInt64) : (positions w i).length = ones w := by
  rw [positions, List.length_filterMap_eq_countP, ones]
  refine List.countP_congr fun j _ => ?_
  split <;> simp_all

theorem foldl_ones (words : List UInt64) (n : Nat) :
    words.foldl (fun n w => n + ones w) n =
      n + ((words.zipIdx i).flatMap fun (w, i) => positions w i).length := by
  induction words generalizing i n with
  | nil => rfl
  | cons w words ih =>
      rw [List.foldl_cons, ih (i + 1), List.zipIdx_cons, List.flatMap_cons, List.length_append,
        length_positions, Nat.add_assoc]

theorem size_eq : s.size = s.toList.length := by
  rw [size, foldl_ones 0, Nat.zero_add, toList]

/-! ### Equality -/

/-- Zero words at the end make no difference to what is read. -/
theorem getD_rdropWhile (words : List UInt64) :
    (words.rdropWhile (· == 0)).getD i 0 = words.getD i 0 := by
  -- from the end of the list, where words are dropped
  induction words using List.reverseRecOn with
  | nil => rfl
  | append_singleton words w ih =>
      rw [List.rdropWhile_concat]
      split
      · next hw =>
        have hgrow : grow words (words.length + 1) = words ++ [w] := by
          simp [grow, eq_of_beq hw]
        rw [ih, ← hgrow, getD_grow]
      · rfl

theorem getD_significant : s.significant.getD i 0 = s.word i := getD_rdropWhile i s.words

theorem getLast_significant (h : s.significant ≠ []) : s.significant.getLast h ≠ 0 := fun hzero =>
  List.rdropWhile_last_not (· == 0) s.words h (beq_iff_eq.mpr hzero)

/-- The last significant word of a set is read from every set with the same words. -/
theorem length_significant_le (h : ∀ i, s.word i = t.word i) :
    s.significant.length ≤ t.significant.length := by
  by_contra hlt
  have hne : s.significant ≠ [] := List.ne_nil_of_length_pos (by omega)
  refine s.getLast_significant hne ?_
  rw [List.getLast_eq_getElem, ← List.getD_eq_getElem _ 0, getD_significant, h, ← getD_significant,
    List.getD_eq_default _ _ (by omega)]

theorem significant_eq_iff : s.significant = t.significant ↔ ∀ i, s.word i = t.word i := by
  refine ⟨fun h i => by rw [← getD_significant, h, getD_significant], fun h => ?_⟩
  have hlen : s.significant.length = t.significant.length :=
    (length_significant_le s t h).antisymm (length_significant_le t s fun i => (h i).symm)
  refine List.ext_getElem hlen fun i hs ht => ?_
  rw [← List.getD_eq_getElem _ 0 hs, ← List.getD_eq_getElem _ 0 ht, getD_significant,
    getD_significant, h]

theorem beq_iff : (s == t) = true ↔ ∀ id, s.contains id = t.contains id := by
  show (s.significant == t.significant) = true ↔ _
  rw [beq_iff_eq, significant_eq_iff, word_eq_iff]

example : (({} : FieldBits).union ⟨[0, 0, 0, 0]⟩ == {}) = true := by decide

theorem isEmpty_iff : s.isEmpty = true ↔ ∀ id, s.contains id = false := by
  refine Iff.trans ?_ (word_eq_iff s {})
  rw [isEmpty, List.all_eq_true]
  constructor
  · intro hzero i
    show s.words.getD i 0 = 0
    rw [List.getD_eq_getElem?_getD]
    rcases hw : s.words[i]? with _ | w
    · rfl
    · exact eq_of_beq (hzero w (List.mem_of_getElem? hw))
  · intro hzero w hw
    obtain ⟨i, hi⟩ := List.getElem?_of_mem hw
    have hword : s.word i = w := by
      rw [word, List.getD_eq_getElem?_getD, hi, Option.getD_some]
    exact beq_iff_eq.mpr (hword.symm.trans (hzero i))

/-! ### The members as an ascending list

The sets that batches and notices carry are kept as the ascending list of their members. What is
done to the bits is done to that list.
-/

def members (s : FieldBits) : FieldSet :=
  ⟨s.toList, s.pairwise_toList.imp Nat.compare_eq_lt.mpr⟩

theorem mem_members : id ∈ s.members ↔ s.contains id = true := s.mem_toList id

theorem contains_members : s.members.contains id = s.contains id := by
  rw [AscSet.contains, Bool.eq_iff_iff, decide_eq_true_eq, mem_members]

theorem members_eq_iff : s.members = t.members ↔ (s == t) = true := by
  rw [beq_iff]
  constructor
  · intro h id
    rw [← contains_members, h, contains_members]
  · refine fun h => AscSet.ext_mem fun id => ?_
    rw [mem_members, mem_members, h]

theorem members_insert : (s.insert id).1.members = s.members.insert id := by
  refine AscSet.ext_mem fun other => ?_
  rw [mem_members, contains_insert, AscSet.mem_insert, mem_members, Bool.or_eq_true,
    decide_eq_true_eq, eq_comm]

theorem members_union : (s.union t).members = s.members.union t.members := by
  refine AscSet.ext_mem fun id => ?_
  rw [mem_members, contains_union, AscSet.mem_union, mem_members, mem_members, Bool.or_eq_true]

theorem members_ofList (ids : List FieldId) : (ofList ids).members = .ofList ids := by
  refine AscSet.ext_mem fun id => ?_
  rw [mem_members, contains_ofList, AscSet.mem_ofList, decide_eq_true_eq]

theorem members_all (count : Nat) : (all count).members = .upTo count := by
  refine AscSet.ext_mem fun id => ?_
  rw [mem_members, contains_all, decide_eq_true_eq]
  exact List.mem_range.symm

theorem size_members : s.members.size = s.size := s.size_eq.symm

theorem isEmpty_members : s.members.isEmpty = s.isEmpty := by
  rw [AscSet.isEmpty, Bool.eq_iff_iff, List.isEmpty_iff, isEmpty_iff,
    List.eq_nil_iff_forall_not_mem]
  exact forall_congr' fun id => (not_congr (s.mem_toList id)).trans (by rw [Bool.not_eq_true])

/-! ### Sets built by calls -/

/-- One call; the sets go by names. -/
inductive Call (ν : Type)
  | new (name : ν)
  | all (name : ν) (count : Nat)
  | ofList (name : ν) (ids : List FieldId)
  | insert (name : ν) (id : FieldId)
  | union (name other : ν)
  | clear (name : ν)

variable {ν : Type} {m : Set FieldId}

def Call.name : Call ν → ν
  | .new a | .all a _ | .ofList a _ | .insert a _ | .union a _ | .clear a => a

def Call.result (sets : ν → FieldBits) : Call ν → FieldBits
  | .new _ => {}
  | .all _ count => FieldBits.all count
  | .ofList _ ids => FieldBits.ofList ids
  | .insert a id => ((sets a).insert id).1
  | .union a b => (sets a).union (sets b)
  | .clear a => (sets a).clear

/-- What the set has been given since it was last made or cleared. -/
def Call.given (sets : ν → Set FieldId) : Call ν → Set FieldId
  | .new _ | .clear _ => ∅
  | .all _ count => {id | id < count}
  | .ofList _ ids => {id | id ∈ ids}
  | .insert a id => {id} ∪ sets a
  | .union a b => sets a ∪ sets b

section Named

variable [DecidableEq ν]

def built : List (Call ν) → ν → FieldBits
  | [] => fun _ => {}
  | c :: past => Function.update (built past) c.name (c.result (built past))

def given : List (Call ν) → ν → Set FieldId
  | [] => fun _ => ∅
  | c :: past => Function.update (given past) c.name (c.given (given past))

end Named

/-- The set answers as the finite set `m`. -/
structure Represents (s : FieldBits) (m : Set FieldId) : Prop where
  finite : m.Finite
  contains_iff : ∀ id, s.contains id = true ↔ id ∈ m
  new_iff : ∀ id, (s.insert id).2 = true ↔ id ∉ m
  ascending : s.toList.Pairwise (· < ·)
  lists : ∀ id, id ∈ s.toList ↔ id ∈ m
  size_eq : s.size = m.ncard
  isEmpty_iff : s.isEmpty = true ↔ m = ∅

/-- Whether a position is in the set decides everything else. -/
theorem represents_of_contains (h : ∀ id, s.contains id = true ↔ id ∈ m) : s.Represents m := by
  have hlist : ∀ id, id ∈ s.toList ↔ id ∈ m := fun id => (s.mem_toList id).trans (h id)
  have hset : (s.toList.toFinset : Set FieldId) = m := by
    ext id
    rw [List.coe_toFinset]
    exact hlist id
  refine
    { finite := hset ▸ Finset.finite_toSet _
      contains_iff := h
      new_iff := fun id => ?_
      ascending := s.pairwise_toList
      lists := hlist
      size_eq := ?_
      isEmpty_iff := ?_ }
  · rw [insert_snd, Bool.not_eq_true', ← Bool.not_eq_true, h]
  · have hnodup : s.toList.Nodup := s.pairwise_toList.imp ne_of_lt
    rw [← hset, Set.ncard_coe_finset, List.toFinset_card_of_nodup hnodup, size_eq]
  · rw [isEmpty_iff, Set.eq_empty_iff_forall_notMem]
    exact forall_congr' fun id => by rw [← Bool.not_eq_true, h]

/-- A call turns sets that represent what was given into one that does. -/
theorem contains_result {sets : ν → FieldBits} {givens : ν → Set FieldId}
    (h : ∀ name id, (sets name).contains id = true ↔ id ∈ givens name) (c : Call ν) :
    (c.result sets).contains id = true ↔ id ∈ c.given givens := by
  cases c with
  | new a => exact iff_of_false Bool.false_ne_true (Set.notMem_empty id)
  | all a count =>
      rw [Call.result, contains_all, decide_eq_true_eq]
      exact Iff.rfl
  | ofList a ids =>
      rw [Call.result, contains_ofList, decide_eq_true_eq]
      exact Iff.rfl
  | insert a new =>
      rw [Call.result, contains_insert, Bool.or_eq_true, decide_eq_true_eq, h, Call.given,
        Set.mem_union, Set.mem_singleton_iff, eq_comm]
  | union a b => rw [Call.result, contains_union, Bool.or_eq_true, h, h, Call.given, Set.mem_union]
  | clear a => exact iff_of_false Bool.false_ne_true (Set.notMem_empty id)

theorem contains_built [DecidableEq ν] (past : List (Call ν)) (name : ν) :
    (built past name).contains id = true ↔ id ∈ given past name := by
  induction past generalizing name id with
  | nil => exact iff_of_false Bool.false_ne_true (Set.notMem_empty id)
  | cons c past ih =>
      rw [built, given]
      by_cases hname : name = c.name
      · subst hname
        rw [Function.update_self, Function.update_self]
        exact contains_result id (fun name id => ih id name) c
      · rw [Function.update_of_ne hname, Function.update_of_ne hname]
        exact ih id name

/-- A set is the finite set of what it was given since it was last made or cleared. Sets are equal
just if they have the same members, whatever words they end in. -/
theorem built_is_given [DecidableEq ν] (past : List (Call ν)) (name : ν) :
    (built past name).Represents (given past name) ∧
      (∀ other, (built (.union name other :: past) name).Represents
          (given past name ∪ given past other) ∧
        ∀ x ≠ name, built (.union name other :: past) x = built past x) ∧
      (∀ (past' : List (Call ν)) (name' : ν), (built past name == built past' name') = true ↔
        given past name = given past' name') ∧
      ∀ words words' : List UInt64, ((⟨words⟩ : FieldBits) == ⟨words'⟩) = true ↔
        ∀ id, (⟨words⟩ : FieldBits).contains id = (⟨words'⟩ : FieldBits).contains id := by
  refine ⟨represents_of_contains _ fun id => contains_built id past name,
    fun other => ⟨represents_of_contains _ fun id => ?_, fun x hx => ?_⟩, fun past' name' => ?_,
    fun words words' => beq_iff ⟨words⟩ ⟨words'⟩⟩
  · rw [contains_built, given, Call.name, Call.given, Function.update_self]
  · rw [built]
    exact Function.update_of_ne hx ..
  · rw [beq_iff, Set.ext_iff]
    refine forall_congr' fun id => ?_
    rw [Bool.eq_iff_iff, contains_built, contains_built]

end FieldBits

end TableFeed
