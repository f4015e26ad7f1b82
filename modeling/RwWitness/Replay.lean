import RwWitness.CheckValue
import RwWitness.Builder

/-! # The value check against a memory

    The RW table is a log of accesses to a memory whose cells are the keys of
    `Rw.key`. Replayed in the order the accesses happened, by `rw_counter`, each read
    must see the value its cell holds: the last value written to it, or on the cell's
    first access the initial value the oracle gives. `check_value` never replays that
    memory; it walks the table sorted by key and compares neighbours.

    This file states the memory as a replay (`Mem.replay`) and proves that the check
    decides it: on a map with a `Start` record and distinct counters off `Start`,
    `check_value` reports nothing iff the replay of the records in counter order
    succeeds (`checkValue_eq_nil_iff_replay`). The proof goes through the law of
    `CheckValue`: the replay succeeds iff no row breaks the law (`replay_ne_none_iff`),
    the law is decided key by key (`allLaw_iff_forall_key`), and the sorted table and
    the counter order have the same rows at each key (`filter_key_eq`).
-/

namespace RwWitness

/-! ## Section 1: The memory -/

/-- The memory the trace runs against: the value each accessed cell holds. -/
abbrev Mem := Key → Option Word

/-- The memory before the first access: no cell has been touched. -/
def Mem.fresh : Mem := fun _ => none

/-- One access. A write stores its value. A read must see the value its cell holds,
    or on the cell's first access the oracle's initial value, which the cell then
    holds; a read of any other value fails. `Start` rows touch nothing. -/
def Mem.access (init : Rw → Word) (σ : Mem) (r : Rw) : Option Mem :=
  if r.isStart then some σ
  else if r.isWrite || r.valueAssignment == (σ r.key).getD (init r) then
    some (Function.update σ r.key (some r.valueAssignment))
  else none

/-- The accesses one after another from `σ`; `none` once a read fails. -/
def Mem.replay (init : Rw → Word) : Mem → List Rw → Option Mem
  | σ, [] => some σ
  | σ, r :: rs => (Mem.access init σ r).bind fun σ' => Mem.replay init σ' rs

/-! ## Section 2: The law, row after row -/

/-- No row of `rows`, coming after `pre` and the rows of `rows` before it, breaks
    the law. -/
def AllLaw (init : Rw → Word) : List Rw → List Rw → Prop
  | _, [] => True
  | pre, r :: rs => ¬ BreaksLaw init pre r ∧ AllLaw init (pre ++ [r]) rs

instance decAllLaw (init : Rw → Word) : (pre rows : List Rw) → Decidable (AllLaw init pre rows)
  | _, [] => isTrue trivial
  | pre, r :: rs =>
    haveI := decAllLaw init (pre ++ [r]) rs
    inferInstanceAs (Decidable (¬ _ ∧ _))

theorem forall_not_breaksLaw_iff (init : Rw → Word) (pre rows : List Rw) :
    (∀ j r, rows[j]? = some r → ¬ BreaksLaw init (pre ++ rows.take j) r) ↔
      AllLaw init pre rows := by
  induction rows generalizing pre with
  | nil => simp [AllLaw]
  | cons r rs ih =>
    rw [AllLaw, ← ih]
    constructor
    · intro h
      exact ⟨by simpa using h 0 r (by simp), fun j q hq => by simpa using h (j + 1) q (by simpa)⟩
    · rintro ⟨h0, h⟩ (_ | j) q hq
      · obtain rfl : r = q := by simpa using hq
        simpa using h0
      · simpa using h j q (by simpa using hq)

/-- No row of a table is inconsistent iff the table keeps the law row after row. -/
theorem not_exists_inconsistent_iff (init : Rw → Word) (rows : List Rw) :
    (¬ ∃ j, Inconsistent init rows j) ↔ AllLaw init [] rows := by
  rw [← forall_not_breaksLaw_iff]
  simp [Inconsistent]

theorem lawValue_append_of_key_ne {init : Rw → Word} (pre : List Rw) {p r : Rw}
    (hk : p.key ≠ r.key) : lawValue init (pre ++ [p]) r = lawValue init pre r := by
  simp [lawValue, List.filter_append, hk]

/-- The law at a row reads only the rows of its key. -/
theorem breaksLaw_filter_key (init : Rw → Word) (pre : List Rw) (r : Rw) :
    BreaksLaw init (pre.filter fun q => q.key = r.key) r ↔ BreaksLaw init pre r := by
  simp [BreaksLaw, lawValue, List.filter_filter]

/-- The law is kept row after row iff it is kept on the rows of each key alone. -/
theorem allLaw_iff_forall_key (init : Rw → Word) (pre rows : List Rw) :
    AllLaw init pre rows ↔
      ∀ k, AllLaw init (pre.filter fun q => q.key = k) (rows.filter fun q => q.key = k) := by
  induction rows generalizing pre with
  | nil => simp [AllLaw]
  | cons r rs ih =>
    rw [AllLaw, ih, ← breaksLaw_filter_key]
    constructor
    · rintro ⟨hr, h⟩ k
      by_cases hk : r.key = k
      · subst hk; simpa [AllLaw, hr, List.filter_append] using h r.key
      · simpa [hk, List.filter_append] using h k
    · intro h
      have hr : ¬ BreaksLaw init (pre.filter fun q => q.key = r.key) r ∧
          AllLaw init ((pre.filter fun q => q.key = r.key) ++ [r])
            (rs.filter fun q => q.key = r.key) := by
        simpa [AllLaw] using h r.key
      refine ⟨hr.1, fun k => ?_⟩
      by_cases hk : r.key = k
      · subst hk; simpa [List.filter_append] using hr.2
      · simpa [hk, List.filter_append] using h k

/-! ## Section 3: The replay keeps the law -/

/-- The memory `σ` gives every non-`Start` row the value the law demands of it after
    the rows `pre`. -/
def Tracks (init : Rw → Word) (σ : Mem) (pre : List Rw) : Prop :=
  ∀ r, r.isStart = false → (σ r.key).getD (init r) = lawValue init pre r

section step

variable {init : Rw → Word} {σ σ' : Mem} {pre : List Rw} {r : Rw}

theorem access_eq_none_iff :
    Mem.access init σ r = none ↔
      r.isStart = false ∧ r.isWrite = false ∧ r.valueAssignment ≠ (σ r.key).getD (init r) := by
  unfold Mem.access
  cases r.isStart <;> cases r.isWrite <;> simp

theorem access_eq_some_iff :
    Mem.access init σ r = some σ' ↔
      (r.isStart = true ∧ σ = σ') ∨
      (r.isStart = false ∧ (r.isWrite = true ∨ r.valueAssignment = (σ r.key).getD (init r)) ∧
        Function.update σ r.key (some r.valueAssignment) = σ') := by
  unfold Mem.access
  cases r.isStart <;> cases r.isWrite <;> simp

theorem tracks_fresh (init : Rw → Word) : Tracks init Mem.fresh [] := fun r _ => by
  simp [Mem.fresh, lawValue]

/-- Against a memory that tracks the law, an access fails iff its row breaks it. -/
theorem access_eq_none_iff_breaksLaw (h : Tracks init σ pre) :
    Mem.access init σ r = none ↔ BreaksLaw init pre r := by
  rw [access_eq_none_iff, BreaksLaw]
  constructor
  · rintro ⟨hs, hw, hv⟩; exact ⟨hs, hw, h r hs ▸ hv⟩
  · rintro ⟨hs, hw, hv⟩; exact ⟨hs, hw, (h r hs).symm ▸ hv⟩

/-- An access that succeeds keeps the memory tracking the law. -/
theorem tracks_access (h : Tracks init σ pre) (ha : Mem.access init σ r = some σ') :
    Tracks init σ' (pre ++ [r]) := by
  intro q hq
  rcases access_eq_some_iff.mp ha with ⟨hs, rfl⟩ | ⟨hs, hv, rfl⟩
  · have hk : r.key ≠ q.key := fun hk => by simp [Rw.isStart_eq_of_key_eq hk, hq] at hs
    rw [lawValue_append_of_key_ne pre hk, h q hq]
  · by_cases hk : r.key = q.key
    · rw [lawValue_of_key_eq init pre hk, ← hk, Function.update_same, Option.getD_some]
      split_ifs with hw
      · rfl
      · exact (hv.resolve_left hw).trans (h r hs)
    · rw [lawValue_append_of_key_ne pre hk, Function.update_noteq (Ne.symm hk), h q hq]

end step

/-- From a memory that tracks the law, the replay succeeds iff no row breaks it. -/
theorem replay_ne_none_iff {init : Rw → Word} {σ : Mem} {pre : List Rw}
    (h : Tracks init σ pre) (rows : List Rw) :
    Mem.replay init σ rows ≠ none ↔ AllLaw init pre rows := by
  induction rows generalizing σ pre with
  | nil => simp [Mem.replay, AllLaw]
  | cons r rs ih =>
    simp only [Mem.replay, AllLaw]
    cases ha : Mem.access init σ r with
    | none => simp [(access_eq_none_iff_breaksLaw h).mp ha]
    | some σ' =>
      have hr : ¬ BreaksLaw init pre r := fun hb => by
        simp [(access_eq_none_iff_breaksLaw h).mpr hb] at ha
      simpa [hr] using ih (tracks_access h ha)

/-! ## Section 4: The sorted table and the counter order -/

/-- The sorted table and any counter order of the same records, with distinct
    counters off `Start`, have the same rows at each key. -/
theorem filter_key_eq (m : RwMap)
    (hc : ((m.records.filter fun r => !r.isStart).map Rw.rwCounter).Nodup)
    {chrono : List Rw} (hp : chrono.Perm m.records)
    (ho : chrono.Pairwise fun a b => a.rwCounter ≤ b.rwCounter) (k : Key) :
    m.tableAssignments.filter (fun r => r.key = k) = chrono.filter fun r => r.key = k := by
  have hsorted : (m.tableAssignments.filter fun r => r.key = k).Pairwise
      fun a b => a.rwCounter ≤ b.rwCounter := by
    refine ((m.tableAssignments_sorted.imp Rw.rwCounter_le_of_sortKey_le).filter _).imp_of_mem
      fun ha hb h => h ?_
    simp only [List.mem_filter, decide_eq_true_eq] at ha hb
    rw [ha.2, hb.2]
  refine List.Perm.eq_of_sorted ?_ hsorted (ho.filter _)
    ((m.tableAssignments_perm.trans hp.symm).filter _)
  intro a b ha hb hab hba
  simp only [List.mem_filter, decide_eq_true_eq] at ha hb
  refine RwMap.sortKey_injOn hc a (m.tableAssignments_perm.subset ha.1) b (hp.subset hb.1) ?_
  simp [Rw.sortKey, ha.2, hb.2, Nat.le_antisymm hab hba]

/-- The check reports nothing iff the table keeps the law, on a map with a `Start`
    record. -/
theorem checkValue_eq_nil_iff_allLaw (init : Rw → Word) (m : RwMap)
    (hs : ∃ r ∈ m.records, r.isStart = true) :
    m.checkValue init = [] ↔ AllLaw init [] m.tableAssignments := by
  rw [← not_exists_inconsistent_iff, ← exists_checkAt_iff m.tableAssignments_key_sorted
    (not_inconsistent_zero_of_start hs), ← checkValue_ne_nil_iff_checkAt, not_not]

/-- The sorted table keeps the law iff replaying its records in any counter order
    succeeds, when the counters off `Start` are distinct. -/
theorem allLaw_tableAssignments_iff_replay (init : Rw → Word) (m : RwMap)
    (hc : ((m.records.filter fun r => !r.isStart).map Rw.rwCounter).Nodup)
    {chrono : List Rw} (hp : chrono.Perm m.records)
    (ho : chrono.Pairwise fun a b => a.rwCounter ≤ b.rwCounter) :
    AllLaw init [] m.tableAssignments ↔ Mem.replay init Mem.fresh chrono ≠ none := by
  rw [replay_ne_none_iff (tracks_fresh init), allLaw_iff_forall_key, allLaw_iff_forall_key]
  simp only [filter_key_eq m hc hp ho]

/-- `check_value` decides the memory: on a map with a `Start` record and distinct
    counters off `Start`, it reports nothing iff replaying the records in counter
    order, from the memory the oracle feeds, has every read see what its cell holds. -/
theorem checkValue_eq_nil_iff_replay (init : Rw → Word) (m : RwMap)
    (hs : ∃ r ∈ m.records, r.isStart = true)
    (hc : ((m.records.filter fun r => !r.isStart).map Rw.rwCounter).Nodup)
    {chrono : List Rw} (hp : chrono.Perm m.records)
    (ho : chrono.Pairwise fun a b => a.rwCounter ≤ b.rwCounter) :
    m.checkValue init = [] ↔ Mem.replay init Mem.fresh chrono ≠ none :=
  (checkValue_eq_nil_iff_allLaw init m hs).trans
    (allLaw_tableAssignments_iff_replay init m hc hp ho)

theorem checkValue_eq_nil_iff_replay_startWriteRead :
    (∃ r ∈ startWriteRead.records, r.isStart = true) ∧
    ((startWriteRead.records.filter fun r => !r.isStart).map Rw.rwCounter).Nodup ∧
    startWriteRead.records.Perm startWriteRead.records ∧
    (startWriteRead.records.Pairwise fun a b => a.rwCounter ≤ b.rwCounter) ∧
    (startWriteRead.checkValue (fun _ => 0) = [] ↔
      Mem.replay (fun _ => 0) Mem.fresh startWriteRead.records ≠ none) :=
  have hs : ∃ r ∈ startWriteRead.records, r.isStart = true := ⟨.start 1, by decide, rfl⟩
  have hc : ((startWriteRead.records.filter fun r => !r.isStart).map Rw.rwCounter).Nodup := by
    decide
  have ho : startWriteRead.records.Pairwise fun a b => a.rwCounter ≤ b.rwCounter := by decide
  ⟨hs, hc, .refl _, ho, checkValue_eq_nil_iff_replay _ _ hs hc (.refl _) ho⟩

/-! ## Section 5: From the operations -/

/-- The whole pipeline against the memory: for a container with a `Start` operation
    whose counters pass the debug check, `check_value` on the map built from it, in
    any iteration order, reports nothing iff replaying the built records in counter
    order has every read see what its cell holds. -/
theorem checkValue_ofContainer_eq_nil_iff_replay (init : Rw → Word) (c : OperationContainer)
    {m : RwMap} (hm : m.BuiltFrom c) (hs : c.start ≠ []) (hsan : m.checkRwCounterSanity = .ok ())
    {chrono : List Rw} (hp : chrono.Perm (insertOrder.flatMap fun t => (c.ops t).map (buildRw t)))
    (ho : chrono.Pairwise fun a b => a.rwCounter ≤ b.rwCounter) :
    m.checkValue init = [] ↔ Mem.replay init Mem.fresh chrono ≠ none := by
  rw [← records_ofContainer] at hp
  have hsr : ∃ r ∈ m.records, r.isStart = true := by
    obtain ⟨op, ops, hop⟩ := List.exists_cons_of_ne_nil hs
    refine ⟨buildRw .start op, (records_perm_of_builtFrom hm).mem_iff.mpr ?_, rfl⟩
    simp [records_ofContainer, insertOrder, OperationContainer.ops, hop]
  have hc : ((m.records.filter fun r => !r.isStart).map Rw.rwCounter).Nodup :=
    (nonStart_records_perm_of_builtFrom hm).nodup_iff.mpr
      ((nonStartCounters_perm_of_builtFrom hm).nodup_iff.mp
        (((checkCounters_mergeSort_eq_ok_iff _).mp hsan).nodup_iff.mpr (List.nodup_range' _ _)))
  exact (checkValue_eq_nil_iff_allLaw init _ hsr).trans
    (allLaw_tableAssignments_iff_replay init _ hc (hp.trans (records_perm_of_builtFrom hm).symm) ho)

/-- A `Start` operation, then a stack write of 5 and its read. -/
def startWriteReadOps : OperationContainer :=
  ⟨[⟨1, .read, ⟨⟩⟩], [], [], [], [], [], [], [⟨1, .write, ⟨1, 0, 5⟩⟩, ⟨2, .read, ⟨1, 0, 5⟩⟩],
    [], [], []⟩

theorem checkValue_ofContainer_eq_nil_iff_replay_startWriteReadOps :
    (RwMap.ofContainer startWriteReadOps).reverse.BuiltFrom startWriteReadOps ∧
    startWriteReadOps.start ≠ [] ∧
    (RwMap.ofContainer startWriteReadOps).reverse.checkRwCounterSanity = .ok () ∧
    (insertOrder.flatMap fun t => (startWriteReadOps.ops t).map (buildRw t)).Perm
      (insertOrder.flatMap fun t => (startWriteReadOps.ops t).map (buildRw t)) ∧
    ((insertOrder.flatMap fun t => (startWriteReadOps.ops t).map (buildRw t)).Pairwise
      fun a b => a.rwCounter ≤ b.rwCounter) ∧
    ((RwMap.ofContainer startWriteReadOps).reverse.checkValue (fun _ => 0) = [] ↔
      Mem.replay (fun _ => 0) Mem.fresh
        (insertOrder.flatMap fun t => (startWriteReadOps.ops t).map (buildRw t)) ≠ none) :=
  have hs : startWriteReadOps.start ≠ [] := List.cons_ne_nil _ _
  have hsan : (RwMap.ofContainer startWriteReadOps).reverse.checkRwCounterSanity = .ok () :=
    (checkCounters_mergeSort_eq_ok_iff _).mpr (by decide)
  have ho : (insertOrder.flatMap fun t => (startWriteReadOps.ops t).map (buildRw t)).Pairwise
      fun a b => a.rwCounter ≤ b.rwCounter := by decide
  ⟨builtFrom_reverse _, hs, hsan, .refl _, ho,
    checkValue_ofContainer_eq_nil_iff_replay _ _ (builtFrom_reverse _) hs hsan (.refl _) ho⟩

end RwWitness
