import Mathlib
import TableFeed.Proofs.Wire.RoundTrip
import TableFeed.Wire.Stream

/-!
Whole frames, and streams that carry them. What is written as a frame is read back from it. However
the bytes of a stream are cut, reading gives the frames from the first one on, and what is left over
is the beginning of the first frame that has not arrived as a whole.
-/

namespace TableFeed.Wire

open TableFeed

def Carries (limit : Nat) (bs : Bytes) (f : Frame) : Prop :=
  ∃ kind body, bs = enclose kind body ∧ decodeBody kind body = .ok f ∧
    body.length + 1 ≤ limit ∧ body.length + 1 < 0x100000000

theorem carries_request {r : Request} {limit : Nat}
    (hr : ∀ c, r.type = .unknown c → c ≠ 1 ∧ c ≠ 2 ∧ c ≠ 3)
    (hlimit : (requestBody r).length + 1 ≤ limit)
    (hlen : (requestBody r).length + 1 < 0x100000000) :
    Carries limit (encodeRequest r) (.request r) :=
  ⟨.request, requestBody r, rfl, decodeBody_request hr (by omega), hlimit, hlen⟩

theorem carries_response {r : Response} {limit : Nat} (hr : r.Complete)
    (hlimit : responseLength r ≤ limit) (hlen : responseLength r < 0x100000000) :
    Carries limit (encodeResponse r) (.response r) := by
  rw [← length_responseBody] at hlimit hlen
  exact ⟨.response, responseBody r, rfl, decodeBody_response hr (by omega), hlimit, hlen⟩

/-- The four bytes of a count, read back. -/
theorem putLength_eq {n : Nat} (hn : n < 0x100000000) :
    ∃ a b c d, putLength n = [a, b, c, d] ∧ ofLittleEndian [a, b, c, d] = n := by
  have hread := ofLittleEndian_littleEndian_four n
  rw [Nat.mod_eq_of_lt hn] at hread
  exact ⟨_, _, _, _, rfl, hread⟩

theorem ofCode?_code (kind : FrameKind) : FrameKind.ofCode? kind.code = some kind := by
  cases kind <;> rfl

/-- One whole frame of a body. -/
theorem decodeFrame_enclose {kind : FrameKind} {body : Bytes}
    (hlen : body.length + 1 < 0x100000000) :
    decodeFrame (enclose kind body) = decodeBody kind body := by
  obtain ⟨a, b, c, d, hput, hread⟩ := putLength_eq hlen
  rw [enclose, hput]
  show decodeFrame (a :: b :: c :: d :: kind.code :: body) = decodeBody kind body
  rw [decodeFrame, hread, ofCode?_code, if_neg (by simp)]

theorem decodeFrame_of_carries {limit : Nat} {bs : Bytes} {f : Frame} (h : Carries limit bs f) :
    decodeFrame bs = .ok f := by
  obtain ⟨kind, body, rfl, hbody, -, hlen⟩ := h
  rw [decodeFrame_enclose hlen, hbody]

theorem length_enclose (kind : FrameKind) (body : Bytes) :
    (enclose kind body).length = body.length + 5 := by
  rw [enclose, List.length_append, putLength, length_littleEndian, List.length_cons]
  omega

/-- What is written as a frame is read back from it: every request whose kind is not a code that
stands for another kind, and every response that has the part it cannot do without. -/
theorem decodeFrame_encode :
    (∀ r : Request, (∀ c, r.type = .unknown c → c ≠ 1 ∧ c ≠ 2 ∧ c ≠ 3) →
      (encodeRequest r).length < 0x100000000 → decodeFrame (encodeRequest r) = .ok (.request r)) ∧
    (∀ r : Response, r.Complete → (encodeResponse r).length < 0x100000000 →
      decodeFrame (encodeResponse r) = .ok (.response r)) := by
  constructor
  · intro r hr hlen
    rw [encodeRequest, length_enclose] at hlen
    exact decodeFrame_of_carries (carries_request hr le_rfl (by omega))
  · intro r hr hlen
    rw [encodeResponse, length_enclose, ← Nat.add_assoc _ 1 4, length_responseBody] at hlen
    exact decodeFrame_of_carries (carries_response hr le_rfl (by omega))

/-- A request of a kind that is not understood, and the first rows of a field with a schema and an
acknowledgement along with them. Not every value is like itself as a number. -/
theorem decodeFrame_encode_unusual :
    let asked : Request :=
      { token := -1, subscription := 7, type := .unknown 200,
        selection := some { output := "prices", fields := ["id", ""], all := true,
                            modifications := [⟨"key", "sort", [[], [255, 0]]⟩] } }
    let said : Response :=
      { subscription := -2, type := .init,
        schema := some { name := "prices", fields := [
          { name := "id", type := .float64,
            metadata := { tags := .ofList ["key", ""],
                          attributes := .ofList [("nan", ⟨.float64, 0x7ff8000000000001⟩),
                            ("unit", ⟨.char, '€'⟩), ("low", ⟨.short, -32768⟩)] } }] },
        data := some { rows := [3, 3], doubles := [⟨0, [0x7ff8000000000001, 0]⟩, ⟨9, []⟩],
                       strings := [⟨1, ["", "é"]⟩] },
        acknowledgement := some ⟨true, "also"⟩ }
    ((encodeRequest asked).length < 0x100000000 ∧ said.Complete ∧
        (encodeResponse said).length < 0x100000000) ∧
      decodeFrame (encodeRequest asked) = .ok (.request asked) ∧
      decodeFrame (encodeResponse said) = .ok (.response said) := by
  intro asked said
  have hkind : ∀ c, asked.type = .unknown c → c ≠ 1 ∧ c ≠ 2 ∧ c ≠ 3 := by
    intro c hc
    cases hc
    decide
  have hasked : (encodeRequest asked).length < 0x100000000 := by decide +kernel
  have hcomplete : said.Complete := rfl
  have hsaid : (encodeResponse said).length < 0x100000000 := by decide +kernel
  exact ⟨⟨hasked, hcomplete, hsaid⟩, decodeFrame_encode.1 asked hkind hasked,
    decodeFrame_encode.2 said hcomplete hsaid⟩

namespace Stream

variable {s : Stream} {bs rest : Bytes} {f : Frame}

/-! ### The next frame -/

theorem next_of_carries (hs : s.poisoned = false) (h : Carries s.limit bs f)
    (hbuffer : s.buffer = bs ++ rest) :
    s.next = ({ s with buffer := rest }, .ok (some f)) := by
  obtain ⟨kind, body, rfl, hbody, hlimit, hlen⟩ := h
  obtain ⟨a, b, c, d, hput, hread⟩ := putLength_eq hlen
  have hcons : s.buffer = a :: b :: c :: d :: kind.code :: (body ++ rest) := by
    rw [hbuffer, enclose, hput]
    rfl
  have hinside : ¬(body.length + 1 = 0 ∨ s.limit < body.length + 1) := by omega
  have henough : ¬(kind.code :: (body ++ rest)).length < body.length + 1 := by
    rw [List.length_cons, List.length_append]
    omega
  rw [next, if_neg (by rw [hs]; exact Bool.false_ne_true), hcons]
  dsimp only
  rw [hread, if_neg hinside, if_neg henough, ofCode?_code]
  dsimp only
  rw [Nat.add_sub_cancel, List.take_left, List.drop_left, hbody]
  rfl

/-- A frame of which not everything has arrived. -/
theorem next_of_short (hs : s.poisoned = false) (h : Carries s.limit bs f) {later : Bytes}
    (hbuffer : s.buffer ++ later = bs ++ rest) (hshort : s.buffer.length < bs.length) :
    s.next = (s, .ok none) := by
  obtain ⟨kind, body, rfl, hbody, hlimit, hlen⟩ := h
  obtain ⟨a, b, c, d, hput, hread⟩ := putLength_eq hlen
  rw [enclose, hput] at hbuffer hshort
  rw [next, if_neg (by rw [hs]; exact Bool.false_ne_true)]
  split
  next a' b' c' d' tail htail =>
    -- the length is there, so the rest is too short for it
    rw [htail] at hbuffer hshort
    simp only [List.cons_append, List.cons.injEq] at hbuffer
    obtain ⟨rfl, rfl, rfl, rfl, -⟩ := hbuffer
    have hinside : ¬(body.length + 1 = 0 ∨ s.limit < body.length + 1) := by omega
    have htoo : tail.length < body.length + 1 := by
      simp only [List.length_append, List.length_cons, List.length_nil] at hshort
      omega
    dsimp only
    rw [hread, if_neg hinside, if_pos htoo]
  next => rfl

theorem next_of_empty (hs : s.poisoned = false) (hbuffer : s.buffer = []) :
    s.next = (s, .ok none) := by
  rw [next, if_neg (by rw [hs]; exact Bool.false_ne_true), hbuffer]

/-! ### All frames -/

theorem drain_of_none {s' : Stream} (h : s.next = (s', .ok none)) : s.drain = (s', []) := by
  rw [drain]
  split
  next heq =>
    rw [heq] at h
    cases h
    rfl
  next heq =>
    rw [heq] at h
    cases h
  next heq =>
    rw [heq] at h
    cases h

theorem drain_of_some {s' : Stream} (h : s.next = (s', .ok (some f))) :
    s.drain = (s'.drain.1, .ok f :: s'.drain.2) := by
  rw [drain]
  split
  next heq =>
    rw [heq] at h
    cases h
  next heq =>
    rw [heq] at h
    cases h
    rfl
  next heq =>
    rw [heq] at h
    cases h

/-- What has arrived and what is still to come are whole frames, and the first of them has not
arrived as a whole. -/
structure Holds {α : Type} (s : Stream) (put : α → Bytes) (frame : α → Frame) (later : Bytes)
    (items : List α) : Prop where
  sound : s.poisoned = false
  carries : ∀ a ∈ items, Carries s.limit (put a) (frame a)
  bytes : s.buffer ++ later = items.flatMap put
  short : ∀ a ∈ items.head?, s.buffer.length < (put a).length

variable {α : Type} {put : α → Bytes} {frame : α → Frame} {items : List α} {later : Bytes}

/-- Reading all frames that have arrived. -/
theorem drain_frames (hs : s.poisoned = false)
    (hcarries : ∀ a ∈ items, Carries s.limit (put a) (frame a))
    (hbytes : s.buffer ++ later = items.flatMap put) :
    ∃ done left, items = done ++ left ∧ s.drain.2 = done.map (fun a => .ok (frame a)) ∧
      s.drain.1.limit = s.limit ∧ s.drain.1.Holds put frame later left := by
  induction items generalizing s with
  | nil =>
      have hbuffer : s.buffer = [] := (List.append_eq_nil_iff.mp hbytes).1
      rw [drain_of_none (next_of_empty hs hbuffer)]
      exact ⟨[], [], rfl, rfl, rfl, hs, hcarries, hbytes, fun a ha => by cases ha⟩
  | cons a items ih =>
      have ha := hcarries a List.mem_cons_self
      rw [List.flatMap_cons] at hbytes
      by_cases hshort : s.buffer.length < (put a).length
      · rw [drain_of_none (next_of_short hs ha hbytes hshort)]
        refine ⟨[], a :: items, rfl, rfl, rfl, hs, hcarries, hbytes, fun b hb => ?_⟩
        cases hb
        exact hshort
      · -- the frame is there as a whole
        obtain ⟨tail, hbuffer, hrest⟩ : ∃ tail, s.buffer = put a ++ tail ∧
            tail ++ later = items.flatMap put := by
          obtain ⟨tail, htail⟩ := List.prefix_of_prefix_length_le
            (List.prefix_append (put a) (items.flatMap put)) (hbytes ▸ List.prefix_append ..)
            (Nat.le_of_not_lt hshort)
          refine ⟨tail, htail.symm, ?_⟩
          rw [← htail, List.append_assoc] at hbytes
          exact List.append_cancel_left hbytes
        have htaken : ({ s with buffer := tail } : Stream).poisoned = false := hs
        obtain ⟨done, left, rfl, hdone, hlimit, hleft⟩ := ih htaken
          (fun b hb => hcarries b (List.mem_cons_of_mem _ hb)) hrest
        rw [drain_of_some (next_of_carries hs ha hbuffer)]
        exact ⟨a :: done, left, rfl, congrArg (.ok (frame a) :: ·) hdone, hlimit, hleft⟩

namespace Holds

/-- Nothing was sent yet. -/
theorem fresh (limit : Nat) (put : α → Bytes) (frame : α → Frame) :
    ({ limit := limit } : Stream).Holds put frame [] [] :=
  ⟨rfl, fun _ ha => absurd ha List.not_mem_nil, rfl, fun _ ha => by cases ha⟩

/-- More items are sent. -/
theorem append (h : s.Holds put frame later items) {more : List α}
    (hmore : ∀ a ∈ more, Carries s.limit (put a) (frame a)) :
    s.Holds put frame (later ++ more.flatMap put) (items ++ more) := by
  refine ⟨h.sound, fun a ha => ?_, ?_, fun a ha => ?_⟩
  · rcases List.mem_append.mp ha with ha | ha
    · exact h.carries a ha
    · exact hmore a ha
  · rw [List.flatMap_append, ← h.bytes, List.append_assoc]
  · cases items with
    | nil =>
        -- a frame has at least a header, and nothing of it has arrived
        have hbuffer : s.buffer = [] := (List.append_eq_nil_iff.mp h.bytes).1
        rw [List.nil_append] at ha
        obtain ⟨kind, body, hput, -⟩ := hmore a (List.mem_of_mem_head? ha)
        rw [hbuffer, hput, enclose, List.length_append]
        simp
    | cons b items => exact h.short a ha

/-- A piece of what is still to come arrives. -/
theorem push_drain {piece : Bytes} (h : s.Holds put frame (piece ++ later) items) :
    ∃ done left, items = done ++ left ∧
      (s.push piece).drain.2 = done.map (fun a => .ok (frame a)) ∧
      (s.push piece).drain.1.limit = s.limit ∧
      (s.push piece).drain.1.Holds put frame later left := by
  have hpush : s.push piece = { s with buffer := s.buffer ++ piece } := by
    rw [push, if_neg (by rw [h.sound]; exact Bool.false_ne_true)]
  have hbytes : (s.push piece).buffer ++ later = items.flatMap put := by
    rw [hpush, List.append_assoc]
    exact h.bytes
  have hsound : (s.push piece).poisoned = false := by
    rw [hpush]
    exact h.sound
  have hlimit : (s.push piece).limit = s.limit := by rw [hpush]
  have hcarries := h.carries
  rw [← hlimit] at hcarries ⊢
  exact drain_frames hsound hcarries hbytes

/-- Once everything has arrived, everything has been read. -/
theorem all_read (h : s.Holds put frame [] items) : items = [] := by
  cases items with
  | nil => rfl
  | cons a items =>
      have hshort := h.short a rfl
      have hbytes := congrArg List.length h.bytes
      rw [List.append_nil, List.flatMap_cons, List.length_append] at hbytes
      omega

end Holds

end Stream

end TableFeed.Wire
