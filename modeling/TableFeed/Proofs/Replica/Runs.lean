import Mathlib
import TableFeed.Proofs.Replica.Refinement
/-!
Calls of a replica and of its machine. One call keeps the relation between the two and comes to
the same verdict; so do any number of calls.
-/

namespace TableFeed

def Verdict.ofResult : Except Error Unit → Verdict
  | .ok () => .accepted
  | .error e => if e.isViolation then .violated else .refused

def Replica.call (r : Replica) : Call → Replica × Verdict
  | .accept response =>
    let (r, _, result) := r.accept response
    (r, .ofResult result)
  | .reset => (r.reset.1, .accepted)

def Replica.run : Replica → List Call → Replica × List Verdict
  | r, [] => (r, [])
  | r, c :: cs =>
    let (r, v) := r.call c
    let (r, vs) := r.run cs
    (r, v :: vs)

theorem Layout.foldlM_addField (s : Schema) (fields : List FieldInfo) :
    if h : WellNamed (s.fields ++ fields) then
      fields.foldlM Schema.addField s = .ok ⟨⟨s.name, s.fields ++ fields⟩, h⟩
    else ∃ fault, fields.foldlM Schema.addField s = .error fault := by
  induction fields generalizing s with
  | nil =>
      have h : WellNamed (s.fields ++ []) := by simpa using s.wellNamed
      rw [dif_pos h]
      exact congrArg Except.ok (Schema.toLayout_injective (by simp))
  | cons f fields ih =>
      rw [List.foldlM_cons, Schema.addField]
      by_cases hname : f.name = ""
      · have hbad : ¬WellNamed (s.fields ++ f :: fields) := fun h => h.1 f (by simp) hname
        rw [dif_neg hbad, dif_pos hname]
        exact ⟨_, rfl⟩
      by_cases hnew : ∀ g ∈ s.fields, g.name ≠ f.name
      · rw [dif_neg hname, dif_pos hnew]
        have hrest := ih ⟨⟨s.name, s.fields ++ [f]⟩, Schema.wellNamed_append s.wellNamed hname hnew⟩
        simp only [List.append_assoc, List.singleton_append] at hrest
        exact hrest
      · have hbad : ¬WellNamed (s.fields ++ f :: fields) := by
          intro h
          obtain ⟨g, hg, heq⟩ : ∃ g ∈ s.fields, g.name = f.name := by
            by_contra hno
            exact hnew fun g hg heq => hno ⟨g, hg, heq⟩
          have hnd := h.2
          rw [List.map_append, List.nodup_append] at hnd
          exact hnd.2.2 g.name (List.mem_map_of_mem hg) f.name (by simp) heq
        rw [dif_neg hbad, dif_neg hname, dif_neg hnew]
        exact ⟨_, rfl⟩

/-- A layout is a schema exactly when its names are different and not empty. -/
theorem Layout.toSchema_eq (l : Layout) :
    if h : WellNamed l.fields then l.toSchema = .ok ⟨l, h⟩
    else ∃ fault, l.toSchema = .error fault :=
  Layout.foldlM_addField (Schema.empty l.name) l.fields

namespace Reflects

open Replica (writeOf)

variable {sub : Int32} {limit : RowId} {r : Replica} {m : Mirror}

/-! ### Applying a message -/

theorem apply_insert (h : Reflects sub limit r m) (hlimit : limit < 0xffffffff) {sheet : Sheet}
    (hsheet : r.sheet = some sheet) {type : ResponseType} (htype : type = .init ∨ type = .add)
    {d : RowData} (hd : d.WellShaped limit sheet.schema.fields type)
    (hrows : ∀ row ∈ d.rows, m.rows.contains row = false) :
    ∃ r' batch, r.apply type sheet d.rows (d.columns.map (writeOf sheet.schema.fields)) =
        (r', .ok batch) ∧
      Reflects sub limit { r' with phase := .live } (m.absorb type sheet.schema.fields d) := by
  have hdead : ∀ row ∈ d.rows, row ∉ r.rows.live := by
    intro row hrow hlive
    have := (h.live row).mp hlive
    rw [hrows row hrow] at this
    cases this
  have hmax : ∀ row ∈ d.rows, row < 0xffffffff := fun row hrow =>
    UInt32.lt_of_le_of_lt (hd.within row hrow) hlimit
  obtain ⟨ids, happly, hids⟩ :=
    Replica.applyRows_insert htype hd.distinct hmax r hdead sheet {}
  have hchange : type ≠ .change := by
    rintro rfl
    simp at htype
  refine ⟨_, _, by simp only [Replica.apply, happly, if_neg hchange]; rfl, ?_⟩
  have habsorb : m.absorb type sheet.schema.fields d =
      { m with phase := .live, rows := m.rows.insertAll (Mirror.freshRecords sheet.schema.fields d) } := by
    rcases htype with rfl | rfl <;> rfl
  rw [habsorb]
  refine ⟨h.subscription, h.rowLimit, rfl, ?_, ?_, ?_⟩
  · rw [← h.schema]
    show some _ = r.sheet.map Sheet.schema
    rw [Replica.schema_applyColumns, Sheet.schema_foldl_resetRow, hsheet]
    rfl
  · intro row
    show row ∈ ids.live ↔ _
    rw [hids, AscSet.mem_insertAll, h.live]
    by_cases hrow : row ∈ d.rows
    · obtain ⟨k, hk⟩ := List.mem_iff_getElem?.mp hrow
      simp only [hrow, or_true, AscMap.contains, Mirror.find?_fresh hd.distinct m.rows hk,
        Option.isSome_some]
    · simp only [hrow, or_false, AscMap.contains,
        Mirror.find?_fresh_of_not_mem hd.distinct m.rows hrow]
  · intro row record hrecord
    refine ⟨_, rfl, ?_⟩
    by_cases hrow : row ∈ d.rows
    · obtain ⟨k, hk⟩ := List.mem_iff_getElem?.mp hrow
      rw [Mirror.find?_fresh hd.distinct m.rows hk, Option.some.injEq] at hrecord
      rw [← hrecord, Replica.record_applyColumns_fresh sheet hd hk]
    · rw [Mirror.find?_fresh_of_not_mem hd.distinct m.rows hrow] at hrecord
      obtain ⟨other, hother, rfl⟩ := h.records row record hrecord
      obtain rfl : other = sheet := Option.some.inj (hother.symm.trans hsheet)
      rw [← other.schema_foldl_resetRow d.rows] at hd ⊢
      rw [Replica.record_applyColumns_of_not_mem _ hd hrow,
        Replica.record_foldl_resetRow_of_not_mem other hrow]

theorem apply_change (h : Reflects sub limit r m) {sheet : Sheet} (hsheet : r.sheet = some sheet)
    {d : RowData} (hd : d.WellShaped limit sheet.schema.fields .change)
    (hrows : ∀ row ∈ d.rows, m.rows.contains row = true) :
    ∃ r' batch, r.apply .change sheet d.rows (d.columns.map (writeOf sheet.schema.fields)) =
        (r', .ok batch) ∧
      Reflects sub limit { r' with phase := .live } (m.absorb .change sheet.schema.fields d) := by
  refine ⟨_, _, by simp only [Replica.apply, Replica.applyRows_change, if_true]; rfl, ?_⟩
  refine ⟨h.subscription, h.rowLimit, rfl, ?_, ?_, ?_⟩
  · show some _ = m.schema
    rw [← h.schema, Replica.schema_applyColumns, Replica.schema, hsheet, Option.map_some]
  · intro row
    show row ∈ r.rows.live ↔ (m.rows.insertAll (m.overwritten sheet.schema.fields d)).contains row
    rw [h.live]
    by_cases hrow : row ∈ d.rows
    · obtain ⟨k, hk⟩ := List.mem_iff_getElem?.mp hrow
      rw [hrows row hrow, AscMap.contains, Mirror.find?_overwritten hd.distinct m hk]
      rfl
    · simp only [AscMap.contains, Mirror.find?_overwritten_of_not_mem hd.distinct m hrow]
  · intro row record hrecord
    refine ⟨_, rfl, ?_⟩
    change (m.rows.insertAll (m.overwritten sheet.schema.fields d)).find? row = some record
      at hrecord
    by_cases hrow : row ∈ d.rows
    · obtain ⟨k, hk⟩ := List.mem_iff_getElem?.mp hrow
      obtain ⟨old, hold⟩ := AscMap.contains_iff.mp (hrows row hrow)
      obtain ⟨other, hother, rfl⟩ := h.records row old hold
      obtain rfl : other = sheet := Option.some.inj (hother.symm.trans hsheet)
      rw [Mirror.find?_overwritten hd.distinct m hk, Option.some.injEq, hold] at hrecord
      rw [← hrecord, Replica.record_applyColumns other hd hk]
      simp only [Option.bind_some, Sheet.getElem?_record]
    · rw [Mirror.find?_overwritten_of_not_mem hd.distinct m hrow] at hrecord
      obtain ⟨other, hother, rfl⟩ := h.records row record hrecord
      obtain rfl : other = sheet := Option.some.inj (hother.symm.trans hsheet)
      rw [Replica.record_applyColumns_of_not_mem other hd hrow]

theorem apply_remove (h : Reflects sub limit r m) {sheet : Sheet} (hsheet : r.sheet = some sheet)
    {d : RowData} (hd : d.WellShaped limit sheet.schema.fields .remove)
    (hrows : ∀ row ∈ d.rows, m.rows.contains row = true) :
    ∃ r' batch, r.apply .remove sheet d.rows (d.columns.map (writeOf sheet.schema.fields)) =
        (r', .ok batch) ∧
      Reflects sub limit { r' with phase := .live } (m.absorb .remove sheet.schema.fields d) := by
  obtain ⟨ids, happly, hids⟩ := Replica.applyRows_remove hd.distinct r
    (fun row hrow => (h.live row).mpr (hrows row hrow)) sheet {}
  refine ⟨_, _, by simp only [Replica.apply, happly]; rfl, ?_⟩
  rw [hd.bare rfl]
  refine ⟨h.subscription, h.rowLimit, rfl, ?_, ?_, ?_⟩
  · show some sheet.schema = m.schema
    rw [← h.schema, Replica.schema, hsheet, Option.map_some]
  · intro row
    show row ∈ ids.live ↔ (d.rows.foldl AscMap.erase m.rows).contains row = true
    rw [hids, AscSet.mem_eraseAll, h.live, AscMap.contains, AscMap.contains,
      Mirror.find?_foldl_erase]
    by_cases hrow : row ∈ d.rows <;> simp [hrow]
  · intro row record hrecord
    change (d.rows.foldl AscMap.erase m.rows).find? row = some record at hrecord
    rw [Mirror.find?_foldl_erase] at hrecord
    split at hrecord
    · cases hrecord
    · obtain ⟨other, hother, rfl⟩ := h.records row record hrecord
      obtain rfl : other = sheet := Option.some.inj (hother.symm.trans hsheet)
      exact ⟨other, rfl, rfl⟩

theorem apply (h : Reflects sub limit r m) (hlimit : limit < 0xffffffff) {sheet : Sheet}
    (hsheet : r.sheet = some sheet) {type : ResponseType} (htype : type.carriesRows = true)
    {d : RowData} (hd : d.WellShaped limit sheet.schema.fields type)
    (hrows : ∀ row ∈ d.rows, m.rows.contains row = Mirror.expectsLive type) :
    ∃ r' batch, r.apply type sheet d.rows (d.columns.map (writeOf sheet.schema.fields)) =
        (r', .ok batch) ∧
      Reflects sub limit { r' with phase := .live } (m.absorb type sheet.schema.fields d) := by
  cases type with
  | message => cases htype
  | schema => cases htype
  | init => exact h.apply_insert hlimit hsheet (.inl rfl) hd hrows
  | add => exact h.apply_insert hlimit hsheet (.inr rfl) hd hrows
  | change => exact h.apply_change hsheet hd hrows
  | remove => exact h.apply_remove hsheet hd hrows

/-! ### One call -/

theorem conflict_eq_none_iff (h : Reflects sub limit r m) (type : ResponseType)
    (rows : List RowId) :
    r.conflict type rows = none ↔ ∀ row ∈ rows, m.rows.contains row = Mirror.expectsLive type := by
  have hneeds : Replica.needsLive type = Mirror.expectsLive type := by cases type <;> rfl
  rw [Replica.conflict_eq_none_iff, hneeds]
  simp only [h.isLive_eq]

/-- A replica that gives up reflects a machine that gives up. -/
theorem fail (h : Reflects sub limit r m) :
    Reflects sub limit { r with phase := .failed } { m with phase := .failed } :=
  ⟨h.subscription, h.rowLimit, rfl, h.schema, h.live, h.records⟩

def StepsWith (sub : Int32) (limit : RowId) (x : Replica × List Notice × Except Error Unit)
    (y : Mirror × Verdict) : Prop :=
  Reflects sub limit x.1 y.1 ∧ Verdict.ofResult x.2.2 = y.2

theorem violate (h : Reflects sub limit r m) (fault : OrderFault) :
    StepsWith sub limit (r.violate fault) m.giveUp := ⟨h.fail, rfl⟩

theorem refuse (h : Reflects sub limit r m) {e : Error} (he : e.isViolation = false) :
    StepsWith sub limit (r.refuse e) (m, .refused) :=
  ⟨h, by rw [Replica.refuse, Verdict.ofResult, he]; rfl⟩

theorem acceptRows (h : Reflects sub limit r m) (hlimit : limit < 0xffffffff) {sheet : Sheet}
    (hsheet : r.sheet = some sheet) {type : ResponseType} (htype : type.carriesRows = true)
    (d : RowData) :
    StepsWith sub limit (r.acceptRows type sheet d)
      (if d.WellShaped limit sheet.schema.fields type then
        if ∀ row ∈ d.rows, m.rows.contains row = Mirror.expectsLive type then
          (m.absorb type sheet.schema.fields d, .accepted)
        else m.giveUp
      else (m, .refused)) := by
  have hcheck := r.settles_checkShape type sheet d
  rw [h.rowLimit] at hcheck
  rw [Replica.acceptRows]
  rcases hcheck with ⟨hd, hok⟩ | ⟨hd, e, herr, he⟩
  · rw [if_pos hd, hok]
    by_cases hrows : ∀ row ∈ d.rows, m.rows.contains row = Mirror.expectsLive type
    · obtain ⟨r', batch, happly, hafter⟩ := h.apply hlimit hsheet htype hd hrows
      rw [if_pos hrows]
      simp only [(h.conflict_eq_none_iff type d.rows).mpr hrows, happly]
      exact ⟨⟨hafter.subscription, hafter.rowLimit, hafter.phase, hafter.schema, hafter.live,
        hafter.records⟩, rfl⟩
    · obtain ⟨fault, hfault⟩ :=
        Option.ne_none_iff_exists'.mp (mt (h.conflict_eq_none_iff type d.rows).mp hrows)
      rw [if_neg hrows]
      simp only [hfault]
      exact h.violate fault
  · rw [if_neg hd, herr]
    exact h.refuse he

theorem acceptData (h : Reflects sub limit r m) (hlimit : limit < 0xffffffff)
    {type : ResponseType} (htype : type.carriesRows = true) (data : Option RowData) :
    StepsWith sub limit (r.acceptData type data) (m.acceptData limit type data) := by
  have hdue : Replica.phaseFor type = Mirror.due type := by cases type <;> rfl
  rw [Replica.acceptData.eq_def, Mirror.acceptData.eq_def, h.phase, hdue]
  split
  · exact ⟨h, rfl⟩
  · split
    · exact h.violate _
    · have hschema := h.schema
      cases data with
      | none => exact h.refuse rfl
      | some d =>
          rw [← hschema, Replica.schema]
          cases hsheet : r.sheet with
          | none => exact h.refuse rfl
          | some sheet => exact h.acceptRows hlimit hsheet htype d

theorem acceptSchema (h : Reflects sub limit r m) (layout : Option Layout) :
    StepsWith sub limit (r.acceptSchema layout) (m.acceptSchema layout) := by
  cases layout with
  | none => exact h.refuse rfl
  | some l =>
      rw [Replica.acceptSchema, Mirror.acceptSchema]
      have hl := l.toSchema_eq
      by_cases hnamed : WellNamed l.fields
      · rw [dif_pos hnamed] at hl ⊢
        rw [hl]
        refine ⟨⟨h.subscription, h.rowLimit, rfl, ?_, ?_, ?_⟩, rfl⟩
        · exact congrArg some (Sheet.schema_ofSchema _)
        · intro row
          exact iff_of_false List.not_mem_nil (by simp [AscMap.contains])
        · intro row record hrecord
          cases hrecord
      · rw [dif_neg hnamed] at hl ⊢
        obtain ⟨fault, hfault⟩ := hl
        rw [hfault]
        exact h.refuse rfl

theorem accept (h : Reflects sub limit r m) (hlimit : limit < 0xffffffff) (response : Response) :
    StepsWith sub limit (r.accept response) (m.accept sub limit response) := by
  have hsub : response.subscription ≠ r.subscription ↔ response.subscription ≠ sub := by
    rw [h.subscription]
  rw [Replica.accept, Mirror.accept]
  simp only [hsub]
  split
  · exact h.refuse rfl
  · cases response.type with
    | message =>
        cases response.acknowledgement with
        | none => exact h.refuse rfl
        | some ack =>
            dsimp only
            cases ack.success with
            | true => exact ⟨h, rfl⟩
            | false =>
                simp only [Bool.false_eq_true, if_false]
                exact ⟨h.fail, rfl⟩
    | schema => exact h.acceptSchema response.schema
    | init => exact h.acceptData hlimit rfl response.data
    | add => exact h.acceptData hlimit rfl response.data
    | change => exact h.acceptData hlimit rfl response.data
    | remove => exact h.acceptData hlimit rfl response.data

theorem reset (h : Reflects sub limit r m) : Reflects sub limit r.reset.1 {} :=
  ⟨h.subscription, h.rowLimit, rfl, rfl,
    fun _ => iff_of_false List.not_mem_nil (by simp [AscMap.contains]), fun _ _ h => by cases h⟩

theorem call (h : Reflects sub limit r m) (hlimit : limit < 0xffffffff) (c : Call) :
    Reflects sub limit (r.call c).1 (m.call sub limit c).1 ∧
      (r.call c).2 = (m.call sub limit c).2 := by
  cases c with
  | accept response => exact h.accept hlimit response
  | reset => exact ⟨h.reset, rfl⟩

/-! ### Runs -/

theorem run (h : Reflects sub limit r m) (hlimit : limit < 0xffffffff) (calls : List Call) :
    Reflects sub limit (r.run calls).1 (m.run sub limit calls).1 ∧
      (r.run calls).2 = (m.run sub limit calls).2 := by
  induction calls generalizing r m with
  | nil => exact ⟨h, rfl⟩
  | cons c calls ih =>
      obtain ⟨hcall, hverdict⟩ := h.call hlimit c
      obtain ⟨hrest, hverdicts⟩ := ih hcall
      refine ⟨hrest, ?_⟩
      show (r.call c).2 :: ((r.call c).1.run calls).2 =
        (m.call sub limit c).2 :: ((m.call sub limit c).1.run sub limit calls).2
      rw [hverdict, hverdicts]

theorem fresh (sub : Int32) (limit : RowId) :
    Reflects sub limit { subscription := sub, rowLimit := limit } {} :=
  ⟨rfl, rfl, rfl, rfl, fun _ => iff_of_false List.not_mem_nil (by simp [AscMap.contains]),
    fun _ _ h => by cases h⟩

end Reflects

/-! ### Rows that come back -/

/-- After new rows were accepted, a field for which nothing was sent reads as absent. -/
theorem Mirror.get_unsent {sub : Int32} {limit : RowId} {m : Mirror} {response : Response}
    (htype : response.type = .init ∨ response.type = .add) {d : RowData}
    (hdata : response.data = some d) (haccepted : (m.accept sub limit response).2 = .accepted)
    (hlive : (m.accept sub limit response).1.phase = .live) {row : RowId} (hrow : row ∈ d.rows)
    {s : Schema} (hschema : (m.accept sub limit response).1.schema = some s) {name : String}
    {id : FieldId} (hid : s.fieldId? name = some id) (hunsent : id ∉ d.columns.map (·.1)) :
    ∃ t, (m.accept sub limit response).1.get row name = .ok (.absent t) := by
  have hbranch : m.accept sub limit response = (m, .refused) ∨
      m.accept sub limit response = m.acceptData limit response.type response.data := by
    rw [Mirror.accept]
    split
    · exact .inl rfl
    · rcases htype with h | h <;> rw [h] <;> exact .inr rfl
  rcases hbranch with heq | heq
  · rw [heq] at haccepted
    cases haccepted
  rw [heq] at haccepted hlive hschema ⊢
  rcases acceptData_accepted haccepted with ⟨hfailed, hsame⟩ | ⟨d', s', hd', hs', -, hd, -, habsorb⟩
  · rw [hsame, hfailed] at hlive
    cases hlive
  obtain rfl : d = d' := Option.some.inj (hdata.symm.trans hd')
  have hafter : m.absorb response.type s'.fields d =
      { m with phase := .live, rows := m.rows.insertAll (freshRecords s'.fields d) } := by
    rcases htype with h | h <;> rw [h] <;> rfl
  rw [habsorb, hafter] at hschema ⊢
  obtain rfl : s = s' := Option.some.inj (hschema.symm.trans hs')
  obtain ⟨k, hk⟩ := List.mem_iff_getElem?.mp hrow
  have hsent : ∀ t, d.sent? k id t = none := fun t => by
    rw [RowData.sent?, AscMap.lookIn_eq_none_iff.mpr hunsent]
    rfl
  obtain ⟨hlt, -⟩ := List.findIdx?_eq_some_iff_getElem.mp hid
  refine ⟨s.fields[id].type, ?_⟩
  have hid' : s.fields.findIdx? (·.name == name) = some id := hid
  simp only [Mirror.get, hs', hid', find?_fresh hd.distinct m.rows hk, Option.bind_some,
    getElem?_compose, List.getElem?_eq_getElem hlt, Option.map_some, hsent, Option.getD_none,
    Option.getD_some]

/-- After any calls a replica shows what its machine shows, and every call came to the same. A row
that comes back shows nothing of an earlier life. -/
theorem replica_refines_mirror (sub : Int32) (limit : RowId) (hlimit : limit < 0xffffffff)
    (calls : List Call) :
    let r := ({ subscription := sub, rowLimit := limit } : Replica).run calls
    let m := ({} : Mirror).run sub limit calls
    r.1.phase = m.1.phase ∧ r.1.liveRows = m.1.rows.keys.toList ∧
      (∀ row name, r.1.get row name = m.1.get row name) ∧ r.2 = m.2 ∧
      ∀ response d row s name id, response.type = .init ∨ response.type = .add →
        response.data = some d → row ∈ d.rows →
        (r.1.call (.accept response)).2 = .accepted →
        (r.1.call (.accept response)).1.phase = .live →
        (r.1.call (.accept response)).1.schema = some s → s.fieldId? name = some id →
        id ∉ d.columns.map (·.1) →
        ∃ t, (r.1.call (.accept response)).1.get row name = .ok (.absent t) := by
  intro r m
  obtain ⟨h, hverdicts⟩ : Reflects sub limit r.1 m.1 ∧ r.2 = m.2 :=
    (Reflects.fresh sub limit).run hlimit calls
  refine ⟨h.phase, h.liveRows_eq, h.get_eq, hverdicts, ?_⟩
  intro response d row s name id htype hdata hrow haccepted hlive hschema hid hunsent
  obtain ⟨hnext, hverdict⟩ := h.call hlimit (.accept response)
  rw [hnext.get_eq]
  exact Mirror.get_unsent htype hdata (hverdict ▸ haccepted) (hnext.phase ▸ hlive) hrow
    (hnext.schema ▸ hschema) hid hunsent

def comesAndGoes : List Call :=
  [.accept (.ofSchema 1 ⟨"T", [⟨"a", .int32, {}⟩]⟩),
    .accept (.ofData 1 .init { rows := [4], int32s := [⟨0, [7]⟩] }),
    .accept (.ofData 1 .remove { rows := [4] })]

theorem replica_refines_mirror_comesAndGoes :
    (9 : RowId) < 0xffffffff ∧
      (({ subscription := 1, rowLimit := 9 } : Replica).run comesAndGoes).2 =
        [.accepted, .accepted, .accepted] ∧
      ∃ t, ((({ subscription := 1, rowLimit := 9 } : Replica).run comesAndGoes).1.call
        (.accept (.ofData 1 .add { rows := [4] }))).1.get 4 "a" = .ok (.absent t) := by
  obtain ⟨-, -, -, -, hback⟩ := replica_refines_mirror 1 9 (by decide) comesAndGoes
  refine ⟨by decide, by cbv, ?_⟩
  exact hback _ { rows := [4] } 4 ⟨⟨"T", [⟨"a", .int32, {}⟩]⟩, by decide⟩ "a" 0 (.inr rfl) rfl
    (by decide) (by cbv) (by cbv) (by cbv) (by cbv) (by decide)

end TableFeed
