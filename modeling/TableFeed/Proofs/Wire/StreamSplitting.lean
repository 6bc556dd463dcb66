import Mathlib
import TableFeed.Proofs.Wire.Frames
/-!
What a stream of bytes says, whether it holds whole frames or not. The bytes are cut by their length
prefixes and each piece is read by itself. However they arrive, and whenever the next frame is asked
for, the results are those of the pieces, from the first one on.
-/

namespace TableFeed.Wire

open TableFeed

/-- The results of the pieces that bytes are cut into. Nothing follows a length that is zero or above
the limit, nor a piece that is not a frame; what is too short for its length is not cut off. -/
def cutFrames (limit : Nat) : Bytes → List (Except Error Frame)
  | a :: b :: c :: d :: rest =>
    let length := ofLittleEndian [a, b, c, d]
    if length = 0 ∨ limit < length then [.error (.malformedFrame (.lengthOutside length limit))]
    else if rest.length < length then []
    else
      match decodeFrame (a :: b :: c :: d :: rest.take length) with
      | .error (.malformedFrame fault) => [.error (.malformedFrame fault)]
      | result => result :: cutFrames limit (rest.drop length)
  | _ => []
termination_by bs => bs.length
decreasing_by simp only [List.length_drop, List.length_cons]; omega

def GivenUp (results : List (Except Error Frame)) : Prop :=
  ∃ fault, results.getLast? = some (.error (.malformedFrame fault))

def lost : Except Error Frame := .error (.malformedFrame .unsynchronized)

namespace Stream

inductive Call
  | push (bytes : Bytes)
  | next

def Call.bytes : Call → Bytes
  | .push bytes => bytes
  | .next => []

def Call.isNext : Call → Bool
  | .push _ => false
  | .next => true

def told : Except Error (Option Frame) → List (Except Error Frame)
  | .ok none => []
  | .ok (some f) => [.ok f]
  | .error e => [.error e]

def call (s : Stream) : Call → Stream × List (Except Error Frame)
  | .push bytes => (s.push bytes, [])
  | .next => (s.next.1, told s.next.2)

def calls (s : Stream) : List Call → Stream × List (Except Error Frame)
  | [] => (s, [])
  | c :: cs => (((s.call c).1.calls cs).1, (s.call c).2 ++ ((s.call c).1.calls cs).2)

theorem calls_append (s : Stream) (cs cs' : List Call) :
    s.calls (cs ++ cs') =
      (((s.calls cs).1.calls cs').1, (s.calls cs).2 ++ ((s.calls cs).1.calls cs').2) := by
  induction cs generalizing s with
  | nil => rfl
  | cons c cs ih => simp only [List.cons_append, calls, ih, List.append_assoc]

/-! ### One piece -/

structure Takes (s s' : Stream) (result : Except Error Frame) (piece : Bytes) : Prop where
  buffer : s.buffer = piece ++ s'.buffer
  least : 5 ≤ piece.length
  length : piece.length = ofLittleEndian (piece.take 4) + 4
  read : decodeFrame piece = result
  same : s' = { s with buffer := s'.buffer }

/-- Why a stream is given up at the front of its buffer. -/
inductive Stuck (s : Stream) : FrameFault → Prop
  | length {a b c d : UInt8} {rest : Bytes} (buffer : s.buffer = a :: b :: c :: d :: rest)
      (outside : ofLittleEndian [a, b, c, d] = 0 ∨ s.limit < ofLittleEndian [a, b, c, d]) :
      Stuck s (.lengthOutside (ofLittleEndian [a, b, c, d]) s.limit)
  | kind {a b c d code : UInt8} {rest : Bytes} (buffer : s.buffer = a :: b :: c :: d :: code :: rest)
      (inside : 0 < ofLittleEndian [a, b, c, d] ∧ ofLittleEndian [a, b, c, d] ≤ s.limit)
      (whole : ofLittleEndian [a, b, c, d] ≤ rest.length + 1)
      (unknown : FrameKind.ofCode? code = none) : Stuck s (.unknownKind code)

inductive Reads (s : Stream) : Stream → Except Error (Option Frame) → Prop
  /-- The first piece has not arrived as a whole. -/
  | short (cut : cutFrames s.limit s.buffer = []) : Reads s s (.ok none)
  | frame {s' : Stream} {f : Frame} {piece : Bytes} (takes : Takes s s' (.ok f) piece)
      (inside : piece.length ≤ s.limit + 4) : Reads s s' (.ok (some f))
  | fault {s' : Stream} {fault : MessageFault} {piece : Bytes}
      (takes : Takes s s' (.error (.malformedMessage fault)) piece)
      (inside : piece.length ≤ s.limit + 4) : Reads s s' (.error (.malformedMessage fault))
  | stuck {fault : FrameFault} (stuck : Stuck s fault) :
      Reads s { s with buffer := [], poisoned := true } (.error (.malformedFrame fault))

theorem decodeFrame_piece {a b c d : UInt8} (code : UInt8) {body : Bytes}
    (hlen : ofLittleEndian [a, b, c, d] = body.length + 1) :
    decodeFrame (a :: b :: c :: d :: code :: body) =
      match FrameKind.ofCode? code with
      | none => .error (.malformedFrame (.unknownKind code))
      | some kind => decodeBody kind body := by
  rw [decodeFrame]
  exact if_neg (by rw [hlen]; simp)

/-- A body is read, or it is a fault of that message. -/
theorem decodeBody_cases (kind : FrameKind) (body : Bytes) :
    (∃ f, decodeBody kind body = .ok f) ∨
      ∃ fault, decodeBody kind body = .error (.malformedMessage fault) := by
  cases kind with
  | request =>
      rw [decodeBody]
      cases Reader.request.whole body with
      | ok r => exact .inl ⟨_, rfl⟩
      | error fault => exact .inr ⟨fault, rfl⟩
  | response =>
      rw [decodeBody]
      cases Reader.response.whole body with
      | ok r => exact .inl ⟨_, rfl⟩
      | error fault => exact .inr ⟨fault, rfl⟩

/-- A piece that has arrived as a whole, of a kind that is known. -/
theorem reads_piece {s : Stream} {a b c d code : UInt8} {rest : Bytes} {n : Nat}
    (hbuffer : s.buffer = a :: b :: c :: d :: code :: rest)
    (hn : ofLittleEndian [a, b, c, d] = n + 1) (hlimit : n + 1 ≤ s.limit) (hwhole : n ≤ rest.length)
    {kind : FrameKind} (hkind : FrameKind.ofCode? code = some kind) :
    Reads s { s with buffer := rest.drop n }
      (match decodeBody kind (rest.take n) with
      | .ok f => .ok (some f)
      | .error e => .error e) := by
  have hbody : (rest.take n).length = n := List.length_take_of_le hwhole
  have hread := decodeFrame_piece code (hn.trans (by rw [hbody]))
  rw [hkind] at hread
  have htakes : ∀ result, decodeBody kind (rest.take n) = result →
      Takes s { s with buffer := rest.drop n } result
        (a :: b :: c :: d :: code :: rest.take n) := by
    intro result hresult
    refine ⟨?_, ?_, ?_, hread.trans hresult, rfl⟩
    · rw [hbuffer]
      simp
    · simp
    · simp only [List.length_cons, hbody, List.take_succ_cons, List.take_zero, hn]
  have hinside : (a :: b :: c :: d :: code :: rest.take n).length ≤ s.limit + 4 := by
    simp only [List.length_cons, hbody]
    omega
  rcases decodeBody_cases kind (rest.take n) with ⟨f, hf⟩ | ⟨fault, hfault⟩
  · rw [hf]
    exact .frame (htakes _ hf) hinside
  · rw [hfault]
    exact .fault (htakes _ hfault) hinside

theorem reads_next {s : Stream} (hs : s.poisoned = false) : Reads s s.next.1 s.next.2 := by
  rw [next, if_neg (by rw [hs]; exact Bool.false_ne_true)]
  split
  next a b c d rest hbuffer =>
    dsimp only
    split
    next houtside => exact .stuck (.length hbuffer houtside)
    next hinside =>
      split
      next hshort =>
        refine .short ?_
        rw [hbuffer, cutFrames, if_neg hinside, if_pos hshort]
      next hwhole =>
        cases rest with
        | nil =>
            simp only [List.length_nil] at hwhole
            omega
        | cons code rest =>
            rw [List.length_cons] at hwhole
            dsimp only
            split
            next hkind => exact .stuck (.kind hbuffer (by omega) (by omega) hkind)
            next kind hkind =>
              obtain ⟨n, hn⟩ : ∃ n, ofLittleEndian [a, b, c, d] = n + 1 :=
                ⟨ofLittleEndian [a, b, c, d] - 1, by omega⟩
              rw [hn, Nat.add_sub_cancel]
              have hpiece := reads_piece hbuffer hn (by omega) (by omega) hkind
              cases hread : decodeBody kind (rest.take n) <;> rwa [hread] at hpiece
  next hbuffer =>
    refine .short ?_
    rw [cutFrames.eq_def]
    split
    next heq => exact absurd heq (hbuffer _ _ _ _ _)
    next => rfl

theorem cutFrames_of_takes {s s' : Stream} {result : Except Error Frame} {piece : Bytes}
    (h : Takes s s' result piece) (hinside : piece.length ≤ s.limit + 4)
    (hresult : ∀ fault, result ≠ .error (.malformedFrame fault)) (more : Bytes) :
    cutFrames s.limit (s.buffer ++ more) = result :: cutFrames s.limit (s'.buffer ++ more) := by
  obtain ⟨hbuffer, hleast, hlength, hread, -⟩ := h
  obtain ⟨a, b, c, d, body, rfl⟩ : ∃ a b c d body, piece = a :: b :: c :: d :: body := by
    rcases piece with _ | ⟨a, _ | ⟨b, _ | ⟨c, _ | ⟨d, body⟩⟩⟩⟩
    case cons.cons.cons.cons => exact ⟨a, b, c, d, body, rfl⟩
    all_goals simp at hleast
  simp only [List.take_succ_cons, List.take_zero, List.length_cons] at hlength hleast hinside
  have hn : ofLittleEndian [a, b, c, d] = body.length := by omega
  have hrest : s.buffer ++ more = a :: b :: c :: d :: (body ++ (s'.buffer ++ more)) := by
    rw [hbuffer]
    simp
  rw [hrest, cutFrames, hn, if_neg (by omega), if_neg (by simp), List.take_left, List.drop_left,
    hread]
  split
  next fault => exact absurd rfl (hresult fault)
  next => rfl

theorem cutFrames_of_stuck {s : Stream} {fault : FrameFault} (h : Stuck s fault) (more : Bytes) :
    cutFrames s.limit (s.buffer ++ more) = [.error (.malformedFrame fault)] := by
  cases h with
  | length hbuffer houtside =>
      rw [hbuffer]
      show cutFrames s.limit (_ :: _ :: _ :: _ :: _) = _
      rw [cutFrames, if_pos houtside]
  | @kind a b c d code rest hbuffer hinside hwhole hunknown =>
      obtain ⟨n, hn⟩ : ∃ n, ofLittleEndian [a, b, c, d] = n + 1 :=
        ⟨ofLittleEndian [a, b, c, d] - 1, by omega⟩
      have hbody : ((rest ++ more).take n).length = n := by
        rw [List.length_take, List.length_append]
        omega
      have hread := decodeFrame_piece code (hn.trans (by rw [hbody]))
      rw [hunknown] at hread
      rw [hbuffer]
      show cutFrames s.limit (a :: b :: c :: d :: code :: (rest ++ more)) = _
      rw [cutFrames, hn, if_neg (by omega), if_neg, List.take_succ_cons, hread]
      rw [List.length_cons, List.length_append]
      omega

/-! ### All calls -/

variable {s : Stream}

theorem push_of_poisoned (hs : s.poisoned = true) (bytes : Bytes) : s.push bytes = s := if_pos hs

theorem next_of_poisoned (hs : s.poisoned = true) :
    s.next = (s, .error (.malformedFrame .unsynchronized)) := if_pos hs

/-- Nothing is read of a stream that is given up. -/
theorem calls_of_poisoned (hs : s.poisoned = true) (cs : List Call) :
    s.calls cs = (s, List.replicate (cs.countP Call.isNext) lost) := by
  induction cs with
  | nil => rfl
  | cons c cs ih =>
      cases c with
      | push bytes =>
          rw [List.countP_cons_of_neg Bool.false_ne_true]
          simp only [calls, call, push_of_poisoned hs, ih, List.nil_append]
      | next =>
          rw [List.countP_cons_of_pos rfl, List.replicate_succ]
          simp only [calls, call, next_of_poisoned hs, ih, told]
          rfl

theorem push_of_sound (hs : s.poisoned = false) (bytes : Bytes) :
    s.push bytes = { s with buffer := s.buffer ++ bytes } := by
  rw [push, if_neg (by rw [hs]; exact Bool.false_ne_true)]

/-- A stream that is not given up has told what the bytes so far say, but for what its buffer says,
and no more. -/
structure Keeps (s s' : Stream) (bytes : Bytes) (results : List (Except Error Frame)) : Prop where
  sound : s'.poisoned = false
  limit : s'.limit = s.limit
  cut : ∀ more, cutFrames s.limit (s.buffer ++ (bytes ++ more)) =
    results ++ cutFrames s.limit (s'.buffer ++ more)

/-- A stream that is given up has told all that the bytes say, whatever follows. -/
structure Loses (s s' : Stream) (bytes : Bytes) (results : List (Except Error Frame)) : Prop where
  poisoned : s'.poisoned = true
  cut : ∃ all again, GivenUp all ∧ results = all ++ List.replicate again lost ∧
    ∀ more, cutFrames s.limit (s.buffer ++ (bytes ++ more)) = all

theorem Keeps.trans {s s' s'' : Stream} {bytes bytes' : Bytes}
    {results results' : List (Except Error Frame)} (h : Keeps s s' bytes results)
    (h' : Keeps s' s'' bytes' results') : Keeps s s'' (bytes ++ bytes') (results ++ results') := by
  refine ⟨h'.sound, h'.limit.trans h.limit, fun more => ?_⟩
  have hrest := h'.cut more
  rw [h.limit] at hrest
  rw [List.append_assoc, h.cut, hrest, List.append_assoc]

theorem Keeps.trans_loses {s s' s'' : Stream} {bytes bytes' : Bytes}
    {results results' : List (Except Error Frame)} (h : Keeps s s' bytes results)
    (h' : Loses s' s'' bytes' results') : Loses s s'' (bytes ++ bytes') (results ++ results') := by
  obtain ⟨hpoisoned, all, again, ⟨fault, hlast⟩, hresults, hcut⟩ := h'
  refine ⟨hpoisoned, results ++ all, again, ⟨fault, ?_⟩, ?_, fun more => ?_⟩
  · rw [List.getLast?_append, hlast]
    rfl
  · rw [hresults, List.append_assoc]
  · have hrest := hcut more
    rw [h.limit] at hrest
    rw [List.append_assoc, h.cut, hrest]

/-- One call on a stream that is not given up. -/
theorem keeps_or_loses_call (hs : s.poisoned = false) (c : Call) :
    Keeps s (s.call c).1 c.bytes (s.call c).2 ∨ Loses s (s.call c).1 c.bytes (s.call c).2 := by
  cases c with
  | push bytes =>
      refine .inl ⟨?_, ?_, fun more => ?_⟩
      all_goals simp only [call, push_of_sound hs]
      · exact hs
      · rw [Call.bytes, List.nil_append, List.append_assoc]
  | next =>
      have h := reads_next hs
      rw [call, Call.bytes]
      generalize s.next.1 = s', s.next.2 = result at h ⊢
      cases h with
      | short => exact .inl ⟨hs, rfl, fun more => rfl⟩
      | frame htakes hinside =>
          have hsame := htakes.same
          refine .inl ⟨by rw [hsame]; exact hs, by rw [hsame], fun more => ?_⟩
          exact cutFrames_of_takes htakes hinside (fun fault h => by cases h) more
      | fault htakes hinside =>
          have hsame := htakes.same
          refine .inl ⟨by rw [hsame]; exact hs, by rw [hsame], fun more => ?_⟩
          exact cutFrames_of_takes htakes hinside (fun fault h => by cases h) more
      | stuck hstuck =>
          refine .inr ⟨rfl, _, 0, ⟨_, rfl⟩, (List.append_nil _).symm, fun more => ?_⟩
          exact cutFrames_of_stuck hstuck more

theorem keeps_or_loses (hs : s.poisoned = false) (cs : List Call) :
    Keeps s (s.calls cs).1 (cs.flatMap Call.bytes) (s.calls cs).2 ∨
      Loses s (s.calls cs).1 (cs.flatMap Call.bytes) (s.calls cs).2 := by
  induction cs generalizing s with
  | nil => exact .inl ⟨hs, rfl, fun more => rfl⟩
  | cons c cs ih =>
      rw [List.flatMap_cons]
      rcases keeps_or_loses_call hs c with h | ⟨hpoisoned, all, again, hgiven, hresults, hcut⟩
      · rcases ih h.sound with h' | h'
        · exact .inl (h.trans h')
        · exact .inr (h.trans_loses h')
      · simp only [calls, calls_of_poisoned hpoisoned]
        refine .inr ⟨hpoisoned, all, again + cs.countP Call.isNext, hgiven, ?_, fun more => ?_⟩
        · rw [hresults, List.append_assoc, List.replicate_append_replicate]
        · rw [List.append_assoc, hcut]

/-- Reading a stream on and on ends, as every call that goes on takes bytes. -/
theorem reading_ends {P : Stream → Prop} (stops : ∀ s, goesOn s.next.2 = false → P s)
    (on : ∀ s, goesOn s.next.2 = true → P s.next.1 → P s) (s : Stream) : P s := by
  obtain ⟨size, hsize⟩ : ∃ size, s.buffer.length = size := ⟨_, rfl⟩
  induction size using Nat.strong_induction_on generalizing s with
  | _ size ih =>
      cases hgoes : goesOn s.next.2 with
      | false => exact stops s hgoes
      | true => exact on s hgoes (ih _ (hsize ▸ length_next_lt hgoes) s.next.1 rfl)

/-- Asked again and again, a stream ends up with nothing to tell or is given up. -/
theorem exists_stops (s : Stream) :
    ∃ n, goesOn (s.calls (List.replicate n .next)).1.next.2 = false := by
  induction s using reading_ends with
  | stops s hstops => exact ⟨0, hstops⟩
  | on s hgoes ih =>
      obtain ⟨n, hn⟩ := ih
      exact ⟨n + 1, hn⟩

/-- A call that gives no frame and no fault of a message gives the last of what the buffer says. -/
theorem cutFrames_of_stops (hs : s.poisoned = false) (hstops : goesOn s.next.2 = false) :
    cutFrames s.limit s.buffer = told s.next.2 := by
  have h := reads_next hs
  generalize s.next.1 = s', s.next.2 = result at h hstops
  cases h with
  | short hcut => exact hcut
  | frame => cases hstops
  | fault => cases hstops
  | stuck hstuck =>
      have hcut := cutFrames_of_stuck hstuck []
      rw [List.append_nil] at hcut
      exact hcut

/-- Whatever is done with a stream, its results are those of the pieces that all its bytes are cut
into. A call takes one whole piece off the buffer or nothing. -/
theorem results_are_cutFrames (limit : Nat) (cs : List Call) :
    let start : Stream := { limit := limit }
    let s := (start.calls cs).1
    let results := (start.calls cs).2
    let all := cutFrames limit (cs.flatMap Call.bytes)
    (results <+: all ∨ GivenUp all ∧ ∃ again, results = all ++ List.replicate again lost) ∧
      (∃ n, goesOn (start.calls (cs ++ List.replicate n .next)).1.next.2 = false) ∧
      (goesOn s.next.2 = false → all <+: results ++ told s.next.2) ∧
      (s.poisoned = false → Reads s s.next.1 s.next.2) ∧
      (s.poisoned = true → ∀ later,
        s.calls later = (s, List.replicate (later.countP Call.isNext) lost)) := by
  intro start s results all
  have harrived : start.buffer ++ (cs.flatMap Call.bytes ++ []) = cs.flatMap Call.bytes :=
    List.append_nil _
  have hstops : ∃ n, goesOn (start.calls (cs ++ List.replicate n .next)).1.next.2 = false := by
    obtain ⟨n, hn⟩ := exists_stops s
    refine ⟨n, ?_⟩
    rw [calls_append]
    exact hn
  rcases keeps_or_loses (s := start) rfl cs with h | ⟨hpoisoned, done, again, hgiven, hresults, hcut⟩
  · have hcut := h.cut []
    rw [harrived, List.append_nil] at hcut
    have hall : all = results ++ cutFrames s.limit s.buffer := by
      rw [h.limit]
      exact hcut
    refine ⟨.inl (hall ▸ List.prefix_append ..), hstops, fun hlast => ?_, fun hs => reads_next hs,
      fun hs => ?_⟩
    · rw [hall, cutFrames_of_stops h.sound hlast]
    · exact absurd (h.sound.symm.trans hs) Bool.false_ne_true
  · have hall := hcut []
    rw [harrived] at hall
    rw [← hall] at hgiven hresults
    refine ⟨.inr ⟨hgiven, again, hresults⟩, hstops, fun _ => ?_, fun hs => ?_,
      fun hs => calls_of_poisoned hs⟩
    · exact List.IsPrefix.trans ⟨_, hresults.symm⟩ (List.prefix_append ..)
    · exact absurd (hs.symm.trans hpoisoned) Bool.false_ne_true

/-- A request that comes in two pieces, a frame whose body is no request, and a frame of no kind with
a byte after it. -/
theorem results_are_cutFrames_broken :
    let start : Stream := { limit := 40 }
    let asked : Request := { token := 5, subscription := 2, type := .unsubscribe }
    let early := [.push ((encodeRequest asked).take 3), .next,
      .push ((encodeRequest asked).drop 3 ++ [2, 0, 0, 0, 1, 9, 1, 0, 0, 0, 7]), .next]
    let late := early ++ [.next, .next, .push [0], .next]
    let read := [.ok (.request asked), .error (.malformedMessage (.truncated 8 0 1)),
      .error (.malformedFrame (.unknownKind 7))]
    ((start.calls early).1.poisoned = false ∧ (start.calls early).2 = read.take 1 ∧
        Reads (start.calls early).1 (start.calls early).1.next.1 (start.calls early).1.next.2) ∧
      (goesOn (start.calls late).1.next.2 = false ∧ (start.calls late).1.poisoned = true ∧
        (start.calls late).2 = read ++ [lost] ∧
        cutFrames 40 (late.flatMap Call.bytes) <+: (read ++ [lost]) ++ [lost] ∧
        (start.calls late).1.calls [.push [1], .next] = ((start.calls late).1, [lost])) := by
  intro start asked early late read
  have hearly : (start.calls early).1.poisoned = false := by decide +kernel
  have hfirst : (start.calls early).2 = read.take 1 := by decide +kernel
  have hstops : goesOn (start.calls late).1.next.2 = false := by decide +kernel
  have hlate : (start.calls late).1.poisoned = true := by decide +kernel
  have hread : (start.calls late).2 = read ++ [lost] := by decide +kernel
  have hlost : told (start.calls late).1.next.2 = [lost] := by decide +kernel
  have hcut := (results_are_cutFrames 40 late).2.2.1 hstops
  have hafter := (results_are_cutFrames 40 late).2.2.2.2 hlate [.push [1], .next]
  rw [hread, hlost] at hcut
  exact ⟨⟨hearly, hfirst, (results_are_cutFrames 40 early).2.2.2.1 hearly⟩, hstops, hlate, hread,
    hcut, hafter⟩

end Stream

end TableFeed.Wire
