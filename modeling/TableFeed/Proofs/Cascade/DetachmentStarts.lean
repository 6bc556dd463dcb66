import Mathlib
import TableFeed.Proofs.Cascade.PassShares
/-!
Runs in which the beginning of every detachment is noted as well. What is noted of an action comes
after all that it set going, so it does not say from when on an input is no longer attached. Nothing
else is different, and without these lines the account is the usual one.
-/

namespace TableFeed

/-- The line that says that a detachment begins. It has no answer yet. -/
def Entry.beginsParting : Entry → Bool
  | .did _ (.detach _) none => true
  | _ => false

namespace Stage

def noteParting (k i : InputId) (st : Stage) : Stage :=
  if st.publisher.isAttached i then st.note (.did k (.detach i) none) else st

def actNoting (tell : Tell) (k : InputId) (a : Action) (st : Stage) : Stage :=
  match a with
  | .detach i => act tell k a (noteParting k i st)
  | _ => act tell k a st

def performNoting : (depth : Nat) → Tell
  | 0, i, n, st => (hear i n st).1
  | depth + 1, i, n, st =>
    let (st, acts) := hear i n st
    acts.foldl (fun st a => actNoting (performNoting depth) i a st) st

def tellNoting (st : Stage) : Tell := performNoting st.actionsLeft

def turnNoting (st : Stage) : Turn → Stage
  | .attach i => st.attach st.tellNoting i
  | .detach i => ((noteParting i i st).detach st.tellNoting i).1
  | .update schema => { st with publisher := st.publisher.update schema }
  | .fire live batch => st.fire st.tellNoting live batch

def turnsNoting (st : Stage) (xs : List Turn) : Stage := xs.foldl turnNoting st

theorem turnsNoting_concat (st : Stage) (xs : List Turn) (x : Turn) :
    st.turnsNoting (xs ++ [x]) = (st.turnsNoting xs).turnNoting x := List.foldl_append ..

def plain (st : Stage) : Stage := { st with log := st.log.filter fun e => !e.beginsParting }

/-! ### The same but for those lines -/

/-- Two ways to tell that differ in those lines only. -/
def Erases (noting tell : Tell) : Prop := ∀ i n st, (noting i n st).plain = tell i n st.plain

variable {noting tell : Tell} {i : InputId} {st : Stage}

theorem plain_note {e : Entry} (he : e.beginsParting = false) :
    (st.note e).plain = st.plain.note e := by
  simp [plain, note, List.filter_append, he]

theorem plain_noteParting (k i : InputId) (st : Stage) : (noteParting k i st).plain = st.plain := by
  rw [noteParting]
  split
  · simp [plain, note, List.filter_append, Entry.beginsParting]
  · rfl

theorem plain_tells (h : Erases noting tell) (i : InputId) (ns : List Notice) (st : Stage) :
    (tells noting i ns st).plain = tells tell i ns st.plain := by
  induction ns generalizing st with
  | nil => rfl
  | cons n ns ih =>
      refine (ih (noting i n st)).trans ?_
      rw [h]
      rfl

theorem plain_tellAll (h : Erases noting tell) (i : InputId) (ns : List Notice) (st : Stage) :
    (tellAll noting i ns st).plain = tellAll tell i ns st.plain := by
  have htold := plain_tells h i ns { st with busy := i :: st.busy }
  exact congrArg (fun after : Stage => { after with busy := st.busy }) htold

theorem plain_settleAll (h : Erases noting tell) (due : List InputId) (acc : Stage × List InputId) :
    ((due.foldl (settleOne noting) acc).1.plain, (due.foldl (settleOne noting) acc).2) =
      due.foldl (settleOne tell) (acc.1.plain, acc.2) := by
  induction due generalizing acc with
  | nil => rfl
  | cons i due ih =>
      rw [List.foldl_cons, List.foldl_cons, ih]
      congr 1
      rw [settleOne, settleOne]
      by_cases hi : i ∈ acc.1.busy
      · rw [if_pos hi, if_pos (show i ∈ acc.1.plain.busy from hi)]
      · rw [if_neg hi, if_neg (show i ∉ acc.1.plain.busy from hi), plain_tellAll h]

theorem plain_settle (h : Erases noting tell) (st : Stage) :
    (settle noting st).plain = settle tell st.plain := by
  have hall := plain_settleAll h st.owed ({ st with owed := [] }, [])
  rw [settle_eq, settle_eq]
  exact congrArg (fun after : Stage × List InputId =>
    ({ after.1 with owed := after.1.owed ++ after.2 } : Stage)) hall

theorem plain_settleUnlessFiring (h : Erases noting tell) (st : Stage) :
    (settleUnlessFiring noting st).plain = settleUnlessFiring tell st.plain := by
  rw [settleUnlessFiring, settleUnlessFiring]
  by_cases hf : st.firing = true
  · rw [if_pos hf, if_pos (show st.plain.firing = true from hf)]
  · rw [if_neg hf, if_neg (show ¬st.plain.firing = true from hf), plain_settle h]

theorem plain_replayTo (h : Erases noting tell) (i : InputId) (st : Stage) :
    (replayTo noting i st).plain = replayTo tell i st.plain := by
  have hsource := h i (.source true) st
  cases hschema : (noting i (.source true) st).publisher.schema with
  | none =>
      rw [replayTo_of_none hschema, replayTo_of_none (hsource ▸ hschema), hsource]
  | some s =>
      have hnamed := h i (.schema (some s)) (noting i (.source true) st)
      rw [hsource] at hnamed
      rw [replayTo_of_some hschema rfl, replayTo_of_some (hsource ▸ hschema) hnamed.symm]
      generalize noting i (.schema (some s)) (noting i (.source true) st) = named
      show (if _ then _ else _ : Stage).plain = if named.publisher.isAttached i = true then _ else _
      split
      · exact plain_tells h ..
      · rfl

theorem plain_attach (h : Erases noting tell) (i : InputId) (st : Stage) :
    (attach noting i st).plain = attach tell i st.plain := by
  rw [attach_eq, attach_eq]
  show (if _ then _ else _ : Stage).plain =
    if (st.publisher.isAttached i || st.busy.contains i) = true then _ else _
  split
  · rfl
  · rw [plain_settleUnlessFiring h]
    have hreplayed := plain_replayTo h i (enroll i st)
    exact congrArg (fun after : Stage => settleUnlessFiring tell { after with busy := st.busy })
      hreplayed

theorem plain_leave (h : Erases noting tell) (i : InputId) (st : Stage) :
    (leave noting i st).plain = leave tell i st.plain := by
  rw [leave, leave]
  show (if _ then _ else _ : Stage).plain = if i ∈ st.busy then _ else _
  split
  · rfl
  · exact plain_tellAll h ..

theorem plain_detach (h : Erases noting tell) (i : InputId) (st : Stage) :
    ((detach noting i st).1.plain, (detach noting i st).2) = detach tell i st.plain := by
  rw [detach_eq, detach_eq]
  show _ = if st.publisher.isAttached i = true then _ else _
  split
  · rw [plain_settleUnlessFiring h, plain_leave h]
  · rfl

theorem plain_act (h : Erases noting tell) (k : InputId) (a : Action) (st : Stage) :
    (act noting k a st).plain = act tell k a st.plain := by
  cases a with
  | attach i =>
      show ((attach noting i st).note _).plain = (attach tell i st.plain).note _
      rw [plain_note (by rfl), plain_attach h]
  | detach i =>
      have hdetach := plain_detach h i st
      show ((detach noting i st).1.note (.did k (.detach i) (some (detach noting i st).2))).plain =
        (detach tell i st.plain).1.note (.did k (.detach i) (some (detach tell i st.plain).2))
      rw [plain_note (by rfl), ← hdetach]
  | isAttached i => exact plain_note (by rfl)

theorem plain_actNoting (h : Erases noting tell) (k : InputId) (a : Action) (st : Stage) :
    (actNoting noting k a st).plain = act tell k a st.plain := by
  cases a with
  | detach i => exact (plain_act h ..).trans (by rw [plain_noteParting])
  | attach i => exact plain_act h ..
  | isAttached i => exact plain_act h ..

theorem plain_hear (i : InputId) (n : Notice) (st : Stage) :
    ((hear i n st).1.plain, (hear i n st).2) = hear i n st.plain := by
  refine Prod.ext ?_ rfl
  exact plain_note rfl

theorem erases_performNoting (depth : Nat) : Erases (performNoting depth) (perform depth) := by
  induction depth with
  | zero => exact fun i n st => plain_note rfl
  | succ depth ih =>
      intro i n st
      have hacts : ∀ (acts : List Action) (st : Stage),
          (acts.foldl (fun st a => actNoting (performNoting depth) i a st) st).plain =
            acts.foldl (fun st a => act (perform depth) i a st) st.plain := by
        intro acts
        induction acts with
        | nil => exact fun st => rfl
        | cons a acts iha => exact fun st => (iha _).trans (by rw [plain_actNoting ih]; rfl)
      have hheard := plain_hear i n st
      show (List.foldl _ _ _ : Stage).plain =
        (hear i n st.plain).2.foldl (fun st a => act (perform depth) i a st) (hear i n st.plain).1
      rw [← hheard]
      exact hacts _ _

theorem erases_tellNoting (st : Stage) : Erases st.tellNoting st.plain.tell :=
  erases_performNoting st.actionsLeft

theorem plain_passTo (h : Erases noting tell) (ns : List Notice) (i : InputId) (st : Stage) :
    (passTo noting ns st i).plain = passTo tell ns st.plain i := by
  induction ns generalizing st with
  | nil => rfl
  | cons n ns ih =>
      refine (ih _).trans ?_
      show passTo tell ns (if i ∈ st.skipped then st else tellAll noting i [n] st).plain i =
        passTo tell ns (if i ∈ st.skipped then st.plain else tellAll tell i [n] st.plain) i
      split
      · rfl
      · rw [plain_tellAll h]

theorem plain_fire (h : Erases noting tell) (live : RowSet) (batch : Batch) (st : Stage) :
    (fire noting live batch st).plain = fire tell live batch st.plain := by
  have hpasses : ∀ (ns : List Notice) (is : List InputId) (st : Stage),
      (is.foldl (passTo noting ns) st).plain = is.foldl (passTo tell ns) st.plain := by
    intro ns is
    induction is with
    | nil => exact fun st => rfl
    | cons i is ih => exact fun st => (ih _).trans (by rw [plain_passTo h]; rfl)
  rw [fire_eq, fire_eq]
  show (if _ then _ else _ : Stage).plain =
    if (st.publisher.publish live batch).2.isEmpty = true then _ else _
  split
  · rfl
  · rw [plain_settle h]
    exact congrArg (fun passed : Stage => settle tell passed.fireEnd) (hpasses ..)

/-- Without the lines that say that a detachment begins, a run is the usual one. -/
theorem plain_turnsNoting (st : Stage) (xs : List Turn) :
    (st.turnsNoting xs).plain = st.plain.turns xs := by
  induction xs generalizing st with
  | nil => rfl
  | cons x xs ih =>
      refine (ih (st.turnNoting x)).trans ?_
      have hturn : (st.turnNoting x).plain = st.plain.turn x := by
        have h := erases_tellNoting st
        cases x with
        | attach i => exact plain_attach h i st
        | detach i =>
            have hdetach := plain_detach h i (noteParting i i st)
            rw [plain_noteParting] at hdetach
            exact congrArg Prod.fst hdetach
        | update schema => rfl
        | fire live batch => exact plain_fire h live batch st
      rw [hturn]
      rfl

end Stage

end TableFeed
