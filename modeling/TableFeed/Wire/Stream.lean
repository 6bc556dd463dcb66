import TableFeed.Wire.Decode

/-!
Splitting a stream of bytes into frames. Bytes may arrive in any pieces. A frame without a message
costs that frame only; after a length or a kind that cannot be, nothing more is read.
-/

namespace TableFeed.Wire

open TableFeed

/-- The limit on a frame's length unless another one is set. -/
def defaultFrameLimit : Nat := 16 * 1024 * 1024

/-- Bytes that arrived and are not yet read. -/
structure Stream where
  buffer : Bytes := []
  limit : Nat := defaultFrameLimit
  poisoned : Bool := false
  deriving DecidableEq

namespace Stream

instance : Inhabited Stream := ⟨{}⟩

def push (s : Stream) (bytes : Bytes) : Stream :=
  if s.poisoned then s else { s with buffer := s.buffer ++ bytes }

/-- Gives up on the stream. -/
def poison (s : Stream) (fault : FrameFault) : Stream × Except Error (Option Frame) :=
  ({ s with buffer := [], poisoned := true }, .error (.malformedFrame fault))

/-- Reads the next frame; `none` if it has not arrived as a whole. -/
def next (s : Stream) : Stream × Except Error (Option Frame) :=
  if s.poisoned then (s, .error (.malformedFrame .unsynchronized))
  else
    match s.buffer with
    | a :: b :: c :: d :: rest =>
      let length := ofLittleEndian [a, b, c, d]
      if length = 0 ∨ s.limit < length then s.poison (.lengthOutside length s.limit)
      else if rest.length < length then (s, .ok none)
      else
        match rest with
        | [] => (s, .ok none)
        | code :: rest =>
          match FrameKind.ofCode? code with
          | none => s.poison (.unknownKind code)
          | some kind =>
            ({ s with buffer := rest.drop (length - 1) },
              (decodeBody kind (rest.take (length - 1))).map some)
    | _ => (s, .ok none)

/-- Whether reading goes on after a result. -/
def goesOn : Except Error (Option Frame) → Bool
  | .ok none => false
  | .ok (some _) => true
  | .error e => !e.isFatal

/-- Each frame that is read takes bytes off the stream. -/
theorem length_next_lt {s : Stream} (h : goesOn s.next.2 = true) :
    s.next.1.buffer.length < s.buffer.length := by
  unfold next at h ⊢
  split at h
  · simp [goesOn, Error.isFatal] at h
  next hp =>
    rw [if_neg hp]
    split at h
    next a b c d rest hb =>
      rw [hb]
      dsimp only at h ⊢
      split at h
      · simp [poison, goesOn, Error.isFatal] at h
      next hlen =>
        rw [if_neg hlen]
        split at h
        · simp [goesOn] at h
        next hrest =>
          rw [if_neg hrest]
          cases rest with
          | nil => simp [goesOn] at h
          | cons code rest =>
            dsimp only at h ⊢
            split at h
            · simp [poison, goesOn, Error.isFatal] at h
            next kind hk =>
              simp only [List.length_drop, List.length_cons]
              omega
    · simp [goesOn] at h

/-- Reads every frame that has arrived. Nothing but the last result can be fatal. -/
def drain (s : Stream) : Stream × List (Except Error Frame) :=
  match _h : s.next with
  | (s', .ok none) => (s', [])
  | (s', .ok (some f)) =>
    let (last, rest) := s'.drain
    (last, .ok f :: rest)
  | (s', .error e) =>
    if _hf : e.isFatal then (s', [.error e])
    else
      let (last, rest) := s'.drain
      (last, .error e :: rest)
termination_by s.buffer.length
decreasing_by
  · have := length_next_lt (s := s) (by rw [_h]; rfl)
    rwa [_h] at this
  · have := length_next_lt (s := s) (by rw [_h]; simp [goesOn, _hf])
    rwa [_h] at this

end Stream

end TableFeed.Wire
