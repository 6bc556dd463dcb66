import Mathlib
import TableFeed.Proofs.Replica.Machine
/-!
A replica finds a message in order exactly when the message is well shaped, and then plans to
write what was sent. The check goes section by section with a set of fields seen so far; the
lemmas here read it as one statement about all columns.
-/

namespace TableFeed

def Error.isViolation : Error → Bool
  | .protocolViolation _ _ => true
  | _ => false

/-- A check that gives `a` if `p` holds and otherwise an error that is no violation. -/
def Settles {α : Type} (p : Prop) (x : Except Error α) (a : α) : Prop :=
  (p ∧ x = .ok a) ∨ (¬p ∧ ∃ e, x = .error e ∧ e.isViolation = false)

namespace Settles

variable {α β : Type} {p q : Prop} {x : Except Error α} {a : α}

theorem pure (hp : p) : Settles p (.ok a) a := .inl ⟨hp, rfl⟩

theorem congr (h : Settles p x a) (hpq : p ↔ q) : Settles q x a := by
  rwa [Settles, ← hpq]

/-- A check followed by one that looks at its result. -/
theorem bind {f : α → Except Error β} {b : β} (h : Settles p x a)
    (hf : p → Settles q (f a) b) : Settles (p ∧ q) (x >>= f) b := by
  rcases h with ⟨hp, rfl⟩ | ⟨hp, e, rfl, he⟩
  · rcases hf hp with ⟨hq, hok⟩ | ⟨hq, e, herr, he⟩
    · exact .inl ⟨⟨hp, hq⟩, hok⟩
    · exact .inr ⟨fun hpq => hq hpq.2, e, herr, he⟩
  · exact .inr ⟨fun hpq => hp hpq.1, e, rfl, he⟩

/-- A check whose result is worked on. -/
theorem bind_ok {f : α → Except Error β} {b : β} (h : Settles p x a) (hf : f a = .ok b) :
    Settles p (x >>= f) b :=
  (h.bind fun _ => (hf ▸ .pure trivial : Settles True (f a) b)).congr (iff_of_eq (and_true p))

/-- A condition under which the check fails at once. -/
theorem ite_error {c : Prop} [Decidable c] {e : Error} (he : e.isViolation = false)
    (h : ¬c → Settles p x a) : Settles (¬c ∧ p) (if c then .error e else x) a := by
  by_cases hc : c
  · rw [if_pos hc]
    exact .inr ⟨fun hp => hp.1 hc, e, rfl, he⟩
  · rw [if_neg hc]
    exact (h hc).congr (and_iff_right hc).symm

end Settles

/-! ### One value -/

theorem toInt_eq_toNat (n : Int32) :
    n.toInt = if n.toUInt32.toNat < 2147483648 then (n.toUInt32.toNat : Int)
      else (n.toUInt32.toNat : Int) - 4294967296 := by
  show n.toBitVec.toInt = if n.toBitVec.toNat < 2147483648 then (n.toBitVec.toNat : Int)
      else (n.toBitVec.toNat : Int) - 4294967296
  rw [BitVec.toInt_eq_toNat_cond]
  split <;> split <;> omega

theorem narrow_iff (n : Int32) :
    n.toInt16.toInt32 = n ↔ -32768 ≤ n.toInt ∧ n.toInt ≤ 32767 := by
  rw [← Int32.toInt_inj, Int16.toInt_toInt32, Int32.toInt_toInt16]
  constructor
  · intro h
    have hlow := Int.le_bmod (x := n.toInt) (m := 65536) (by decide)
    have hhigh := Int.bmod_lt (x := n.toInt) (m := 65536) (by decide)
    norm_num at h hlow hhigh
    omega
  · rintro ⟨hlow, hhigh⟩
    exact Int.bmod_eq_of_le (by norm_num; omega) (by norm_num; omega)

theorem isValidChar_iff (n : Int32) :
    n.toUInt32.isValidChar ↔ 0 ≤ n.toInt ∧ n.toInt.toNat.isValidChar := by
  have hn := toInt_eq_toNat n
  have hlt := n.toUInt32.toNat_lt
  constructor
  · intro h
    have hsmall : n.toUInt32.toNat < 2147483648 := by
      rcases h with h | h <;> omega
    rw [if_pos hsmall] at hn
    refine ⟨by omega, ?_⟩
    rwa [hn, Int.toNat_natCast]
  · rintro ⟨h0, h⟩
    split at hn
    · rwa [hn, Int.toNat_natCast] at h
    · omega

theorem char_eq_ofNat (n : Int32) (h : n.toUInt32.isValidChar) :
    (⟨n.toUInt32, h⟩ : Char) = Char.ofNat n.toInt.toNat := by
  obtain ⟨h0, hv⟩ := (isValidChar_iff n).mp h
  have hnat : n.toInt.toNat = n.toUInt32.toNat := by
    have hn := toInt_eq_toNat n
    have hlt := n.toUInt32.toNat_lt
    split at hn <;> omega
  have hvalid : n.toUInt32.toNat.isValidChar := h
  rw [hnat]
  simp only [Char.ofNat, hvalid, dif_pos]
  apply Char.ext
  apply UInt32.toNat.inj
  simp [Char.ofNatAux]

namespace Replica

/-- Bringing a value to its type either gives the value that travels so, or refuses it. -/
theorem settles_fit (t : DataType) (w : Value) :
    Settles ((unwiden t w).isSome = true) (fit t w) ((unwiden t w).getD w) := by
  unfold unwiden
  split
  · next n =>
    rw [fit]
    by_cases h : n.toInt16.toInt32 = n
    · rw [if_pos h, if_pos ((narrow_iff n).mp h), Int16.ofInt_int32ToInt]
      exact .pure rfl
    · rw [if_neg h, if_neg (mt (narrow_iff n).mpr h)]
      exact .inr ⟨by simp, _, rfl, rfl⟩
  · next n =>
    rw [fit]
    by_cases h : n.toUInt32.isValidChar
    · rw [dif_pos h, if_pos ((isValidChar_iff n).mp h), char_eq_ofNat n h]
      exact .pure rfl
    · rw [dif_neg h, if_neg (mt (isValidChar_iff n).mpr h)]
      exact .inr ⟨by simp, _, rfl, rfl⟩
  · next hshort hchar =>
    rw [fit.eq_3 t w hshort hchar]
    by_cases h : w.type = t
    · rw [if_pos h, if_pos h]
      exact .pure rfl
    · rw [if_neg h, if_neg h]
      exact .inr ⟨by simp, _, rfl, rfl⟩

theorem type_of_unwiden {t : DataType} {w v : Value} (h : unwiden t w = some v) : v.type = t := by
  unfold unwiden at h
  split at h
  · split at h
    · rw [← Option.some.inj h]
    · cases h
  · split at h
    · rw [← Option.some.inj h]
    · cases h
  · split at h
    · next ht => rw [← Option.some.inj h, ht]
    · cases h

theorem settles_mapM_fit (t : DataType) (ws : List Value) :
    Settles (∀ w ∈ ws, (unwiden t w).isSome = true) (ws.mapM (fit t))
      (ws.map fun w => (unwiden t w).getD w) := by
  induction ws with
  | nil => exact .pure (by simp)
  | cons w ws ih =>
      rw [List.mapM_cons, List.forall_mem_cons]
      refine (settles_fit t w).bind fun _ => ?_
      exact ih.bind_ok rfl

/-! ### One section of columns -/

/-- A column that can be written under a schema: it is for one of the fields and has a value of the
field's type for each of `n` rows. -/
def ColumnFits (fields : List FieldInfo) (n : Nat) (c : FieldId × List Value) : Prop :=
  ∃ f, fields[c.1]? = some f ∧ c.2.length = n ∧ ∀ w ∈ c.2, (unwiden f.type w).isSome = true

def writeOf (fields : List FieldInfo) (c : FieldId × List Value) : ColumnWrite :=
  ⟨c.1, c.2.map fun w => (fields[c.1]?.bind fun f => unwiden f.type w).getD w⟩

/-- Columns that can be written after columns for the fields in `seen`. -/
def Plannable (fields : List FieldInfo) (n : Nat) (seen : FieldSet)
    (cols : List (FieldId × List Value)) : Prop :=
  (∀ c ∈ cols, ColumnFits fields n c) ∧ (cols.map (·.1)).Nodup ∧ ∀ c ∈ cols, c.1 ∉ seen

theorem insertAll_append (seen : FieldSet) (ids more : List FieldId) :
    seen.insertAll (ids ++ more) = (seen.insertAll ids).insertAll more := List.foldl_append

theorem plannable_append {fields : List FieldInfo} {n : Nat} {seen : FieldSet}
    {cols more : List (FieldId × List Value)} :
    Plannable fields n seen (cols ++ more) ↔
      Plannable fields n seen cols ∧
        Plannable fields n (seen.insertAll (cols.map (·.1))) more := by
  simp only [Plannable, List.forall_mem_append, List.map_append, List.nodup_append,
    AscSet.mem_insertAll, List.mem_map, not_or, not_exists, not_and]
  constructor
  · rintro ⟨⟨hfit, hfit'⟩, ⟨hnd, hnd', hdis⟩, hseen, hseen'⟩
    exact ⟨⟨hfit, hnd, hseen⟩, hfit', hnd', fun c hc =>
      ⟨hseen' c hc, fun d hd heq => hdis d.1 ⟨d, hd, rfl⟩ c.1 ⟨c, hc, rfl⟩ heq⟩⟩
  · rintro ⟨⟨hfit, hnd, hseen⟩, hfit', hnd', hseen'⟩
    refine ⟨⟨hfit, hfit'⟩, ⟨hnd, hnd', ?_⟩, hseen, fun c hc => (hseen' c hc).1⟩
    rintro _ ⟨d, hd, rfl⟩ _ ⟨c, hc, rfl⟩ heq
    exact (hseen' c hc).2 d hd heq

theorem planColumns_cons (sheet : Sheet) (n : Nat) (t : DataType) (c : WireColumn t.Carrier)
    (cs : List (WireColumn t.Carrier)) (seen : FieldSet) :
    planColumns sheet n t (c :: cs) seen =
      match sheet.field? c.field.toNat with
      | none => .error (.malformedMessage (.unknownField c.field))
      | some f =>
        if seen.contains c.field.toNat then .error (.malformedMessage (.fieldTwice f.info.name))
        else if c.values.length ≠ n then
          .error (.malformedMessage (.valueCount f.info.name c.values.length n))
        else (c.values.map (Value.mk t)).mapM (fit f.info.type) >>= fun values =>
          planColumns sheet n t cs (seen.insert c.field.toNat) >>= fun rest =>
            .ok (⟨c.field.toNat, values⟩ :: rest.1, rest.2) := by
  rw [planColumns]
  cases sheet.field? c.field.toNat with
  | none => rfl
  | some f =>
      dsimp only
      split
      · rfl
      · split
        · rfl
        · rw [List.mapM_map]
          rfl

theorem settles_planColumns (sheet : Sheet) (n : Nat) (t : DataType)
    (cs : List (WireColumn t.Carrier)) (seen : FieldSet) :
    Settles (Plannable sheet.schema.fields n seen (RowData.sectionColumns t cs))
      (planColumns sheet n t cs seen)
      ((RowData.sectionColumns t cs).map (writeOf sheet.schema.fields),
        seen.insertAll ((RowData.sectionColumns t cs).map (·.1))) := by
  induction cs generalizing seen with
  | nil => exact .pure ⟨by simp [RowData.sectionColumns], by simp [RowData.sectionColumns],
      by simp [RowData.sectionColumns]⟩
  | cons c cs ih =>
      rw [planColumns_cons]
      have hfields : sheet.schema.fields[c.field.toNat]? =
          (sheet.field? c.field.toNat).map (·.info) := by
        simp [Sheet.schema, Sheet.field?]
      -- the first column on its own, then the others after it
      have hsplit : RowData.sectionColumns t (c :: cs) =
          [(c.field.toNat, c.values.map (Value.mk t))] ++ RowData.sectionColumns t cs := rfl
      rw [hsplit]
      cases hf : sheet.field? c.field.toNat with
      | none =>
          refine .inr ⟨fun h => ?_, _, rfl, rfl⟩
          obtain ⟨f, hsome, -⟩ := (plannable_append.mp h).1.1 _ List.mem_cons_self
          rw [hfields, hf] at hsome
          cases hsome
      | some f =>
          rw [hf, Option.map_some] at hfields
          have hwrite : writeOf sheet.schema.fields (c.field.toNat, c.values.map (Value.mk t)) =
              ⟨c.field.toNat,
                (c.values.map (Value.mk t)).map fun w => (unwiden f.info.type w).getD w⟩ := by
            simp only [writeOf, hfields, Option.bind_some]
          have hplan : Plannable sheet.schema.fields n seen
                [(c.field.toNat, c.values.map (Value.mk t))] ↔
              ¬seen.contains c.field.toNat = true ∧ ¬c.values.length ≠ n ∧
                ∀ w ∈ c.values.map (Value.mk t), (unwiden f.info.type w).isSome = true := by
            simp only [Plannable, ColumnFits, List.mem_singleton, forall_eq, hfields,
              Option.some.injEq, exists_eq_left', List.length_map, List.map_cons, List.map_nil,
              List.nodup_cons, List.not_mem_nil, not_false_eq_true, List.nodup_nil, and_true,
              true_and, AscSet.contains, decide_eq_true_eq, not_not]
            tauto
          rw [plannable_append, hplan, and_assoc, and_assoc]
          refine Settles.ite_error rfl fun _ => Settles.ite_error rfl fun _ =>
            (settles_mapM_fit f.info.type _).bind fun _ =>
              (ih (seen.insert c.field.toNat)).bind_ok ?_
          rw [List.map_append, List.map_singleton, hwrite]
          rfl

/-! ### A whole message -/

theorem settles_plan (sheet : Sheet) (d : RowData) :
    Settles (Plannable sheet.schema.fields d.rows.length ∅ d.columns) (plan sheet d)
      (d.columns.map (writeOf sheet.schema.fields)) := by
  unfold plan RowData.columns
  simp only [plannable_append, List.map_append, insertAll_append, and_assoc]
  exact (settles_planColumns ..).bind fun _ => (settles_planColumns ..).bind fun _ =>
    (settles_planColumns ..).bind fun _ => (settles_planColumns ..).bind fun _ =>
    (settles_planColumns ..).bind fun _ => (settles_planColumns ..).bind fun _ =>
    (settles_planColumns ..).bind fun _ => (settles_planColumns ..).bind_ok rfl

theorem settles_checkRows (limit : RowId) (rows : List RowId) (seen : RowSet) :
    Settles ((∀ row ∈ rows, row ≤ limit) ∧ rows.Nodup ∧ ∀ row ∈ rows, row ∉ seen)
      (checkRows limit rows seen) () := by
  induction rows generalizing seen with
  | nil => exact .pure (by simp)
  | cons row rows ih =>
      rw [checkRows]
      refine (Settles.ite_error rfl fun _ =>
        Settles.ite_error rfl fun _ => ih (seen.insert row)).congr ?_
      simp only [List.forall_mem_cons, List.nodup_cons, AscSet.contains, decide_eq_true_eq,
        AscSet.mem_insert, not_or, UInt32.not_lt]
      constructor
      · rintro ⟨hle, hseen, hrest, hnd, hnew⟩
        exact ⟨⟨hle, hrest⟩, ⟨fun hmem => (hnew row hmem).1 rfl, hnd⟩, hseen,
          fun r hr => (hnew r hr).2⟩
      · rintro ⟨⟨hle, hrest⟩, ⟨hmem, hnd⟩, hseen, hnew⟩
        exact ⟨hle, hseen, hrest, hnd, fun r hr => ⟨fun heq => hmem (heq ▸ hr), hnew r hr⟩⟩

theorem columnCount_eq (d : RowData) : d.columnCount = d.columns.length := by
  simp [RowData.columnCount, RowData.columns, RowData.sectionColumns, Nat.add_assoc]

theorem wellShaped_iff {limit : RowId} {fields : List FieldInfo} {type : ResponseType}
    {d : RowData} :
    d.WellShaped limit fields type ↔
      ((∀ row ∈ d.rows, row ≤ limit) ∧ d.rows.Nodup ∧ ∀ row ∈ d.rows, row ∉ (∅ : RowSet)) ∧
        (type = .remove → d.columns = []) ∧ Plannable fields d.rows.length ∅ d.columns := by
  simp only [Plannable, AscSet.not_mem_empty, not_false_eq_true, implies_true, and_true]
  constructor
  · intro h
    refine ⟨⟨h.within, h.distinct⟩, h.bare, fun c hc => ?_, h.once⟩
    refine ⟨fields.get ⟨c.1, h.known c hc⟩, List.getElem?_eq_getElem _, h.full c hc, fun w hw => ?_⟩
    simpa [List.getElem?_eq_getElem (h.known c hc)] using h.typed c hc w hw
  · rintro ⟨⟨hwithin, hnd⟩, hbare, hfit, honce⟩
    refine ⟨hwithin, hnd, hbare, fun c hc => ?_, honce, fun c hc => ?_, fun c hc w hw => ?_⟩
    · obtain ⟨f, hf, -⟩ := hfit c hc
      exact (List.getElem?_eq_some_iff.mp hf).1
    · obtain ⟨f, -, hlen, -⟩ := hfit c hc
      exact hlen
    · obtain ⟨f, hf, -, htyped⟩ := hfit c hc
      rw [hf, Option.bind_some]
      exact htyped w hw

/-- The check of a replica passes the well shaped messages and plans to write all their columns. -/
theorem settles_checkShape (r : Replica) (type : ResponseType) (sheet : Sheet) (d : RowData) :
    Settles (d.WellShaped r.rowLimit sheet.schema.fields type) (r.checkShape type sheet d)
      (d.columns.map (writeOf sheet.schema.fields)) := by
  refine Settles.congr ?_ wellShaped_iff.symm
  unfold checkShape
  refine (settles_checkRows r.rowLimit d.rows ∅).bind fun _ => ?_
  split
  · next htype =>
    rw [columnCount_eq]
    by_cases hbare : d.columns = []
    · rw [hbare]
      exact .pure ⟨fun _ => rfl, by simp [Plannable]⟩
    · have hlen : d.columns.length ≠ 0 := mt List.length_eq_zero_iff.mp hbare
      rw [if_pos hlen]
      exact .inr ⟨fun h => hbare (h.1 htype), _, rfl, rfl⟩
  · next htype =>
    refine (settles_plan sheet d).congr ⟨fun h => ⟨fun heq => absurd heq htype, h⟩, And.right⟩

end Replica

end TableFeed
