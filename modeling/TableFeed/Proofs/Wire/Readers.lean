import Mathlib
import TableFeed.Wire.Bytes

/-!
Readers that take back what was put. A reader restores an item from some bytes if it takes just
these bytes off the front of a cursor, whatever follows, and gives the item. Counts have four bytes,
so this is asked of less than 2³² bytes only.
-/

namespace TableFeed.Wire

open TableFeed

/-- A reader gives `a` for the bytes `bs`, whatever follows. -/
def Restores {α : Type} (r : Reader α) (bs : Bytes) (a : α) : Prop :=
  bs.length < 0x100000000 → ∀ offset rest,
    r.run ⟨offset, bs ++ rest⟩ = .ok (a, ⟨offset + bs.length, rest⟩)

namespace Restores

variable {α β : Type} {r : Reader α} {bs bs' : Bytes} {a : α} {b : β}

theorem pure (a : α) : Restores (pure a) [] a := fun _ _ _ => rfl

theorem congr (h : Restores r bs a) (hbs : bs = bs') : Restores r bs' a := hbs ▸ h

theorem bind {f : α → Reader β} (h : Restores r bs a) (h' : Restores (f a) bs' b) :
    Restores (r >>= f) (bs ++ bs') b := by
  intro hlen offset rest
  rw [List.length_append] at hlen
  have hfirst := h (by omega) offset (bs' ++ rest)
  have hrest := h' (by omega) (offset + bs.length) rest
  rw [StateT.run_bind, List.append_assoc, hfirst, List.length_append, ← Nat.add_assoc]
  exact hrest

/-- The last item of a record. -/
theorem bind_pure (h : Restores r bs a) (g : α → β) :
    Restores (r >>= fun a => Pure.pure (g a)) bs (g a) :=
  (h.bind (.pure (g a))).congr (List.append_nil bs)

/-- An item at the front of the bytes, read on with what is left of them. -/
theorem bind_cons {f : α → Reader β} {c : UInt8} (h : Restores r [c] a) (h' : Restores (f a) bs b) :
    Restores (r >>= f) (c :: bs) b := h.bind h'

end Restores

namespace Reader

/-! ### Words -/

theorem run_take {n : Nat} {c : Cursor} (h : n ≤ c.rest.length) :
    (take n).run c = .ok (c.rest.take n, ⟨c.offset + n, c.rest.drop n⟩) := by
  have htake : (take n).run c = take n c := rfl
  rw [htake, take, if_pos (Cursor.has_iff.mpr h)]

theorem restores_take (bs : Bytes) : Restores (take bs.length) bs bs := by
  intro _ offset rest
  rw [run_take (by simp)]
  simp

theorem restores_number (bs : Bytes) : Restores (number bs.length) bs (ofLittleEndian bs) :=
  (restores_take bs).bind_pure ofLittleEndian

theorem restores_uint8 (b : UInt8) : Restores uint8 [b] b := by
  have h := (restores_number [b]).bind_pure UInt8.ofNat
  have hb : UInt8.ofNat (ofLittleEndian [b]) = b := by simp [ofLittleEndian]
  rw [hb] at h
  exact h

theorem restores_bool (b : Bool) : Restores bool (putBool b) b := by
  cases b with
  | false => exact (restores_uint8 0).bind_cons (.pure false)
  | true => exact (restores_uint8 1).bind_cons (.pure true)

theorem restores_int8 (v : Int8) : Restores int8 (putInt8 v) v :=
  (restores_uint8 v.toUInt8).bind_pure UInt8.toInt8

theorem restores_uint32 (v : UInt32) : Restores uint32 (putUInt32 v) v := by
  have h := (restores_number (littleEndian 4 v.toNat)).bind_pure UInt32.ofNat
  have hv : UInt32.ofNat (ofLittleEndian (littleEndian 4 v.toNat)) = v := by
    rw [ofLittleEndian_littleEndian_four, Nat.mod_eq_of_lt v.toNat_lt, UInt32.ofNat_toNat]
  rw [hv, length_littleEndian] at h
  exact h

theorem restores_uint64 (v : UInt64) : Restores uint64 (putUInt64 v) v := by
  have h := (restores_number (littleEndian 8 v.toNat)).bind_pure UInt64.ofNat
  have hv : UInt64.ofNat (ofLittleEndian (littleEndian 8 v.toNat)) = v := by
    rw [ofLittleEndian_littleEndian_eight, Nat.mod_eq_of_lt v.toNat_lt, UInt64.ofNat_toNat]
  rw [hv, length_littleEndian] at h
  exact h

theorem restores_int32 (v : Int32) : Restores int32 (putInt32 v) v :=
  (restores_uint32 v.toUInt32).bind_pure UInt32.toInt32

theorem restores_int64 (v : Int64) : Restores int64 (putInt64 v) v :=
  (restores_uint64 v.toUInt64).bind_pure UInt64.toInt64

/-! ### Counted items -/

/-- A count is accepted if what follows is long enough for the items. -/
theorem run_length {least n : Nat} (hn : n < 0x100000000) {offset : Nat} {rest : Bytes}
    (hrest : n * max least 1 ≤ rest.length) :
    (length least).run ⟨offset, putLength n ++ rest⟩ = .ok (n, ⟨offset + 4, rest⟩) := by
  have hnumber := restores_number (putLength n) (by simp [putLength]) offset rest
  rw [putLength, length_littleEndian, ofLittleEndian_littleEndian_four, Nat.mod_eq_of_lt hn] at hnumber
  have hhas : Cursor.has ⟨offset + 4, rest⟩ (n * max least 1) = true := Cursor.has_iff.mpr hrest
  rw [length, StateT.run_bind, putLength, hnumber]
  show (if Cursor.has ⟨offset + 4, rest⟩ (n * max least 1) = true then Pure.pure n
    else throw _ : Reader Nat).run ⟨offset + 4, rest⟩ = _
  rw [if_pos hhas]
  rfl

theorem restores_bytes (bs : Bytes) : Restores bytes (putBytes bs) bs := by
  intro hlen offset rest
  simp only [putBytes, List.length_append, putLength, length_littleEndian] at hlen ⊢
  have hcount : (length 1).run ⟨offset, littleEndian 4 bs.length ++ (bs ++ rest)⟩ =
      .ok (bs.length, ⟨offset + 4, bs ++ rest⟩) := run_length (by omega) (by simp)
  have hbytes := restores_take bs (by omega) (offset + 4) rest
  rw [bytes, StateT.run_bind, List.append_assoc, hcount, ← Nat.add_assoc]
  exact hbytes

theorem restores_replicate {α : Type} {item : Reader α} {put : α → Bytes} {items : List α}
    (h : ∀ a ∈ items, Restores item (put a) a) :
    Restores (replicate item items.length) (items.flatMap put) items := by
  induction items with
  | nil => exact .pure []
  | cons a items ih =>
      have hrest := ih fun b hb => h b (List.mem_cons_of_mem _ hb)
      exact (h a List.mem_cons_self).bind (hrest.bind_pure (a :: ·))

/-- The items of a list, each of at least `least` bytes. -/
theorem restores_list {α : Type} {item : Reader α} {put : α → Bytes} {least : Nat}
    (hleast : 1 ≤ least) {items : List α}
    (h : ∀ a ∈ items, Restores item (put a) a ∧ least ≤ (put a).length) :
    Restores (list least item) (putList put items) items := by
  intro hlen offset rest
  have hcount : items.length * least ≤ (items.flatMap put).length := by
    clear hlen
    induction items with
    | nil => simp
    | cons a items ih =>
        have ha := (h a List.mem_cons_self).2
        have hrest := ih fun b hb => h b (List.mem_cons_of_mem _ hb)
        simp only [List.length_cons, List.flatMap_cons, List.length_append, Nat.add_mul]
        omega
  have hitems : items.length ≤ items.length * least := Nat.le_mul_of_pos_right _ hleast
  simp only [putList, List.length_append, putLength, length_littleEndian] at hlen ⊢
  have hlength : (length least).run ⟨offset, littleEndian 4 items.length ++ (items.flatMap put ++ rest)⟩ =
      .ok (items.length, ⟨offset + 4, items.flatMap put ++ rest⟩) := by
    refine run_length (by omega) ?_
    rw [Nat.max_eq_left hleast, List.length_append]
    omega
  have hall := restores_replicate (fun a ha => (h a ha).1) (by omega) (offset + 4) rest
  rw [list, StateT.run_bind, List.append_assoc, hlength, ← Nat.add_assoc]
  exact hall

/-! ### Text -/

theorem toList_loop (b : ByteArray) (i : Nat) (done : List UInt8) :
    ByteArray.toList.loop b i done = done.reverse ++ b.data.toList.drop i := by
  fun_induction ByteArray.toList.loop b i done with
  | case1 i done hi ih =>
      have hlt : i < b.data.toList.length := by
        rw [Array.length_toList]
        exact hi
      have hget : b.get! i = b.data.toList[i] := by
        rw [ByteArray.get!, Array.getElem_toList]
        exact getElem!_pos b.data i hi
      rw [ih, List.drop_eq_getElem_cons hlt, List.reverse_cons, hget]
      simp
  | case2 i done hi =>
      have hlen : b.data.toList.length ≤ i := by
        rw [Array.length_toList]
        exact Nat.le_of_not_lt hi
      rw [List.drop_eq_nil_of_le hlen, List.append_nil]

theorem toByteArray_toList (b : ByteArray) : (⟨b.toList.toArray⟩ : ByteArray) = b := by
  have h : b.toList = b.data.toList := toList_loop b 0 []
  rw [h]

theorem restores_string (s : String) : Restores string (putString s) s := by
  have hs : String.fromUTF8? ⟨s.toUTF8.toList.toArray⟩ = some s := by
    have hvalid : s.toUTF8.IsValidUTF8 := s.isValidUTF8
    rw [toByteArray_toList, String.fromUTF8?, dif_pos hvalid]
    rfl
  refine ((restores_bytes s.toUTF8.toList).bind ?_).congr (List.append_nil _)
  rw [hs]
  exact .pure s

end Reader

end TableFeed.Wire
