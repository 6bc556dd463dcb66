import Mathlib
import TableFeed.Cascade
import TableFeed.Proofs.Table.Publication
/-!
How one input stands with an output whose inputs act from inside what they are told. It is attached
or not, and it may be owed the notices of detachments from inside a notice. Everything that goes on
around it comes to it as a drift of a few kinds of moves, and what it is told by them decides what
its recorder knows.
-/

namespace TableFeed

structure Bearing where
  attached : Bool
  /-- How often it is owed the notices of a detachment. -/
  owed : Nat

def Bearing.owe (b : Bearing) (n : Nat) : Bearing := { b with owed := b.owed + n }

/-- What happens to an input that is inside a notice: nothing is told it, but it may be detached. -/
inductive Held : Bearing → Nat → Bearing → Prop
  | stay (b : Bearing) : Held b 0 b
  | leave (owed : Nat) : Held ⟨true, owed⟩ 1 ⟨false, owed + 1⟩

def farewells (n : Nat) : List Notice := (List.replicate n Publisher.farewell).flatten

theorem farewells_append (n n' : Nat) : farewells n ++ farewells n' = farewells (n + n') := by
  rw [farewells, farewells, farewells, ← List.flatten_append, List.replicate_append_replicate]

/-- What happens to an input between two moments at which it is inside no notice: what it is told,
and how often it is detached. It is told the replay when it is attached. -/
inductive Drift (replay : List Notice) : Bearing → List Notice → Nat → Bearing → Prop
  | stay (b : Bearing) : Drift replay b [] 0 b
  | attach (owed : Nat) : Drift replay ⟨false, owed⟩ replay 0 ⟨true, owed⟩
  /-- It is detached from inside its replay. -/
  | attachAndLeave (owed : Nat) {ns : List Notice} (told : .source true :: ns <+: replay) :
      Drift replay ⟨false, owed⟩ (.source true :: ns) 1 ⟨false, owed + 1⟩
  | detach (owed : Nat) : Drift replay ⟨true, owed⟩ Publisher.farewell 1 ⟨false, owed⟩
  /-- It is told what it is owed. -/
  | settle (attached : Bool) (owed : Nat) :
      Drift replay ⟨attached, owed + 1⟩ Publisher.farewell 0 ⟨attached, owed⟩
  /-- It is told what it is owed, though attached again, and is detached from inside that. -/
  | settleAndLeave (owed : Nat) :
      Drift replay ⟨true, owed + 1⟩ Publisher.farewell 1 ⟨false, owed + 1⟩
  | trans {b b' b'' : Bearing} {ns ns' : List Notice} {d d' : Nat} (first : Drift replay b ns d b')
      (next : Drift replay b' ns' d' b'') : Drift replay b (ns ++ ns') (d + d') b''

namespace Held

variable {b b' b'' : Bearing} {d d' : Nat}

theorem trans (h : Held b d b') (h' : Held b' d' b'') : Held b (d + d') b'' := by
  cases h with
  | stay => rwa [Nat.zero_add]
  | leave owed =>
      cases h' with
      | stay => exact .leave owed

theorem owe (h : Held b d b') (n : Nat) : Held (b.owe n) d (b'.owe n) := by
  cases h with
  | stay => exact .stay _
  | leave owed =>
      have hsum : owed + 1 + n = owed + n + 1 := by omega
      simp only [Bearing.owe, hsum]
      exact .leave (owed + n)

/-- An input inside a notice is not attached. -/
theorem not_attached (h : Held b d b') (hb : b.attached = false) : b' = b ∧ d = 0 := by
  cases h with
  | stay => exact ⟨rfl, rfl⟩
  | leave => cases hb

/-- An input is not attached while it is owed something, if it was not before. -/
theorem detached (h : Held b d b') (hbefore : 0 < b.owed → b.attached = false)
    (howed : 0 < b'.owed) : b'.attached = false := by
  cases h with
  | stay => exact hbefore howed
  | leave => rfl

end Held

namespace Drift

variable {replay : List Notice} {b b' : Bearing} {ns : List Notice} {d : Nat}

theorem owe (h : Drift replay b ns d b') (n : Nat) : Drift replay (b.owe n) ns d (b'.owe n) := by
  induction h with
  | stay => exact .stay _
  | attach owed => exact .attach (owed + n)
  | attachAndLeave owed told =>
      have hsum : owed + 1 + n = owed + n + 1 := by omega
      simp only [Bearing.owe, hsum]
      exact .attachAndLeave (owed + n) told
  | detach owed => exact .detach (owed + n)
  | settle attached owed =>
      have hsum : owed + 1 + n = owed + n + 1 := by omega
      simp only [Bearing.owe, hsum]
      exact .settle attached (owed + n)
  | settleAndLeave owed =>
      have hsum : owed + 1 + n = owed + n + 1 := by omega
      simp only [Bearing.owe, hsum]
      exact .settleAndLeave (owed + n)
  | trans _ _ ih ih' => exact .trans ih ih'

/-- An input is told one detachment that it is owed. -/
theorem of_held (h : Held b d b') :
    Drift replay ⟨b.attached, b.owed + 1⟩ Publisher.farewell d b' := by
  cases h with
  | stay => exact .settle b.attached b.owed
  | leave owed => exact .settleAndLeave owed

/-- An input that nobody detaches is told what it is owed and, if it is attached meanwhile, the
replay; nothing else. -/
theorem cases_of_undetached (h : Drift replay b ns d b') (hd : d = 0) :
    (b'.attached = b.attached ∧ ∃ n, b'.owed + n = b.owed ∧ ns = farewells n) ∨
      (b.attached = false ∧ b'.attached = true ∧
        ∃ n n', b'.owed + n + n' = b.owed ∧ ns = farewells n ++ replay ++ farewells n') := by
  induction h with
  | stay => exact .inl ⟨rfl, 0, rfl, rfl⟩
  | attach => exact .inr ⟨rfl, rfl, 0, 0, rfl, (List.append_nil _).symm⟩
  | attachAndLeave => cases hd
  | detach => cases hd
  | settle => exact .inl ⟨rfl, 1, rfl, rfl⟩
  | settleAndLeave => cases hd
  | trans _ _ ih ih' =>
      rcases ih (by omega) with ⟨hsame, n, howed, rfl⟩ | ⟨hout, hin, n, n', howed, rfl⟩
      · rcases ih' (by omega) with ⟨hsame', m, howed', rfl⟩ | ⟨hout', hin', m, m', howed', rfl⟩
        · exact .inl ⟨hsame'.trans hsame, n + m, by omega, farewells_append n m⟩
        · refine .inr ⟨hsame ▸ hout', hin', n + m, m', by omega, ?_⟩
          rw [← farewells_append, List.append_assoc, List.append_assoc, List.append_assoc]
      · rcases ih' (by omega) with ⟨hsame', m, howed', rfl⟩ | ⟨hout', -, -⟩
        · refine .inr ⟨hout, hsame'.trans hin, n, n' + m, by omega, ?_⟩
          rw [← farewells_append, List.append_assoc]
        · rw [hin] at hout'
          cases hout'

/-- An attached input that is owed nothing and that nobody detaches is told nothing. -/
theorem eq_nil_of_undetached (h : Drift replay ⟨true, 0⟩ ns d b') (hd : d = 0) :
    ns = [] ∧ b' = ⟨true, 0⟩ := by
  rcases h.cases_of_undetached hd with ⟨hatt, n, howed, rfl⟩ | ⟨hout, -, -⟩
  · obtain ⟨attached, owed⟩ := b'
    obtain ⟨rfl, rfl⟩ : owed = 0 ∧ n = 0 := by
      dsimp only at howed
      omega
    exact ⟨rfl, by rw [show attached = true from hatt]⟩
  · cases hout

end Drift

/-! ### What the input makes of it -/

def sources (ns : List Notice) : List Bool :=
  ns.filterMap fun
    | .source attached => some attached
    | _ => none

theorem sources_append (ns ns' : List Notice) : sources (ns ++ ns') = sources ns ++ sources ns' :=
  List.filterMap_append ..

def Recorder.lastSource (r : Recorder) : Option Bool := (sources r.events).getLast?

def Recorder.Alternates (r : Recorder) : Prop :=
  (sources r.events).IsChain fun a b => ¬(a = true ∧ b = true)

def Recorder.Shows (r : Recorder) (p : Publisher) : Prop :=
  ∀ s, p.schema = some s → r.schema = some s ∧ r.live = p.rows

theorem sources_of_prefix_replay {p : Publisher} {ns : List Notice}
    (h : .source true :: ns <+: p.replay) : sources (.source true :: ns) = [true] := by
  obtain ⟨rest, hrest⟩ := h
  have htail : ns ++ rest = p.replay.tail := by
    rw [← hrest]
    rfl
  have hnone : sources (ns ++ rest) = [] := by
    rw [htail, Publisher.replay]
    cases p.schema with
    | none => rfl
    | some s =>
        simp only [List.tail_cons, Publisher.replayRows]
        split <;> rfl
  rw [sources_append, List.append_eq_nil_iff] at hnone
  show true :: sources ns = [true]
  rw [hnone.1]

theorem sources_replay (p : Publisher) : sources p.replay = [true] :=
  sources_of_prefix_replay (List.prefix_refl p.replay)

theorem sources_farewell : sources Publisher.farewell = [false] := rfl

namespace Recorder

theorem sources_hear (r : Recorder) (ns : List Notice) :
    sources (ns.foldl hear r).events = sources r.events ++ sources ns := by
  rw [events_foldl_hear, sources_append]

variable {r : Recorder} {ns : List Notice}

theorem lastSource_hear {told : Bool} (h : sources ns = [told]) :
    (ns.foldl hear r).lastSource = some told := by
  rw [lastSource, sources_hear, h, List.getLast?_append]
  rfl

theorem lastSource_hear_of_none (h : sources ns = []) :
    (ns.foldl hear r).lastSource = r.lastSource := by
  rw [lastSource, sources_hear, h, List.append_nil, lastSource]

theorem alternates_of_hear (h : (ns.foldl hear r).Alternates) : r.Alternates := by
  rw [Alternates, sources_hear] at h
  exact h.left_of_append

theorem lastSource_of_alternates (h : (ns.foldl hear r).Alternates) (hns : sources ns = [true]) :
    r.lastSource ≠ some true := by
  rw [Alternates, sources_hear, hns, List.isChain_append] at h
  intro hlast
  exact h.2.2 true hlast true rfl ⟨rfl, rfl⟩

/-- An input that was told the replay knows what is shown. -/
theorem shows_replay (r : Recorder) (p : Publisher) : (p.replay.foldl hear r).Shows p := by
  intro s hs
  refine ⟨?_, r.live_replay hs⟩
  simp only [Publisher.replay, hs, Publisher.replayRows]
  split <;> rfl

end Recorder

/-- What an input was told last fits where it stands, unless it was attached while it was still owed
the notices of a detachment; and in no case does it think it is attached when it is not. -/
structure Bearing.Fits (b : Bearing) (r : Recorder) : Prop where
  told : r.lastSource = some true → b.attached = true ∨ 0 < b.owed
  knows : r.Alternates → (b.attached = true ∨ 0 < b.owed → r.lastSource = some true) ∧
    (b.attached = true → b.owed = 0) ∧ b.owed ≤ 1

def Bearing.InStep (b : Bearing) (p : Publisher) (r : Recorder) : Prop :=
  b.attached = true → r.lastSource = some true → r.Shows p

/-- An input that was just told that it is attached. -/
theorem Bearing.Fits.hear_attach {b' : Bearing} {owed : Nat} {r : Recorder} {ns : List Notice}
    (hr : Fits ⟨false, owed⟩ r) (hns : sources ns = [true]) (hb : b'.attached = true ∨ 0 < b'.owed)
    (hzero : owed = 0 → (b'.attached = true → b'.owed = 0) ∧ b'.owed ≤ 1) :
    b'.Fits (ns.foldl Recorder.hear r) := by
  refine ⟨fun _ => hb, fun halt => ⟨fun _ => Recorder.lastSource_hear hns, hzero ?_⟩⟩
  -- told in turn, it cannot have been owed anything
  have hnot := Recorder.lastSource_of_alternates halt hns
  obtain ⟨hknows, -, -⟩ := hr.knows (Recorder.alternates_of_hear halt)
  exact Nat.eq_zero_of_not_pos fun howed => hnot (hknows (.inr howed))

/-- An input that was just told that it is detached. -/
theorem Bearing.Fits.hear_farewell {b b' : Bearing} {r : Recorder} (hr : b.Fits r)
    (h : (b.attached = true → b.owed = 0) → b.owed ≤ 1 → b' = ⟨false, 0⟩) :
    b'.Fits (Publisher.farewell.foldl Recorder.hear r) := by
  have hlast : (Publisher.farewell.foldl Recorder.hear r).lastSource = some false :=
    Recorder.lastSource_hear sources_farewell
  refine ⟨fun htrue => absurd (hlast.symm.trans htrue) (by decide), fun halt => ?_⟩
  obtain ⟨-, hzero, hle⟩ := hr.knows (Recorder.alternates_of_hear halt)
  rw [h hzero hle]
  exact ⟨fun hnone => absurd hnone (by decide), fun _ => rfl, Nat.zero_le 1⟩

namespace Drift

variable {p : Publisher} {b b' : Bearing} {ns : List Notice} {d : Nat} {r : Recorder}

theorem fits_heard (h : Drift p.replay b ns d b') (hr : b.Fits r) :
    b'.Fits (ns.foldl Recorder.hear r) := by
  induction h generalizing r with
  | stay => exact hr
  | attach owed =>
      exact hr.hear_attach (sources_replay p) (.inl rfl) fun h => ⟨fun _ => h, by dsimp only; omega⟩
  | attachAndLeave owed told =>
      exact hr.hear_attach (sources_of_prefix_replay told) (.inr (Nat.succ_pos owed)) fun h =>
        ⟨fun hfalse => absurd hfalse Bool.false_ne_true, by dsimp only; omega⟩
  | detach owed => exact hr.hear_farewell fun hzero _ => by rw [show owed = 0 from hzero rfl]
  | settle attached owed =>
      refine hr.hear_farewell fun hzero hle => ?_
      cases attached with
      | false => rw [show owed = 0 from Nat.le_zero.mp (Nat.le_of_succ_le_succ hle)]
      | true => exact absurd (hzero rfl) (Nat.succ_ne_zero owed)
  | settleAndLeave owed =>
      exact hr.hear_farewell fun hzero _ => absurd (hzero rfl) (Nat.succ_ne_zero owed)
  | trans _ _ ih ih' =>
      rw [List.foldl_append]
      exact ih' (ih hr)

/-- An input is in step after a drift if it was before, or if it was detached meanwhile. -/
theorem inStep_heard (h : Drift p.replay b ns d b') (hr : 0 < d ∨ b.InStep p r) :
    b'.InStep p (ns.foldl Recorder.hear r) := by
  induction h generalizing r with
  | stay => exact hr.resolve_left (Nat.lt_irrefl 0)
  | attach owed => exact fun _ _ => r.shows_replay p
  | attachAndLeave owed told => exact fun hfalse => absurd hfalse Bool.false_ne_true
  | detach owed => exact fun hfalse => absurd hfalse Bool.false_ne_true
  | settle attached owed =>
      intro _ htrue
      have hlast : (Publisher.farewell.foldl Recorder.hear r).lastSource = some false :=
        Recorder.lastSource_hear sources_farewell
      exact absurd (hlast.symm.trans htrue) (by decide)
  | settleAndLeave owed => exact fun hfalse => absurd hfalse Bool.false_ne_true
  | @trans _ _ _ _ _ d d' _ _ ih ih' =>
      rw [List.foldl_append]
      by_cases hd' : 0 < d'
      · exact ih' (.inl hd')
      · exact ih' (.inr (ih (hr.imp_left fun hd => by omega)))

end Drift

end TableFeed
