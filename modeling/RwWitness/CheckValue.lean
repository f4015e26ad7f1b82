import RwWitness.Order

/-! # The value check

    `RwMap::check_value` walks the canonical table in adjacent pairs from `idx = 1`.
    A read whose key differs from the previous row's must carry the initial value
    (`MptUpdates::mock_from(&rows).get(row)`, here an arbitrary oracle `init`); any
    other read must repeat the previous row's value. The violations are collected
    and logged, never raised.

    The law the check stands for (`lawValue`, `BreaksLaw`) is global: a read sees
    the last write to its key before it, or the initial value at the head of the
    key's block. Comparing with the previous row is enough because the table is
    sorted, so a key's rows are contiguous (`breaksLaw_of_checkPair`,
    `checkPair_of_breaksLaw`). Row 0 has no previous row and is never checked
    (`checkValue_misses_first_row`); with row 0 within the law, the check reports
    exactly when some read breaks it (`checkValue_ne_nil_iff`). Each report blames its
    row or the row before it, and the first report is at the first row that breaks the
    law (`checkValue_reports_blame`); a later one can fall on a row within it, one past
    a break.
-/

namespace RwWitness

/-! ## Section 1: The read/write law -/

/-- The value the law demands of row `r` after the rows `pre`: the value of the
    last write to `r`'s key among them, or with none the initial value of the first
    row of the key's block. -/
def lawValue (init : Rw → Word) (pre : List Rw) (r : Rw) : Word :=
  match ((pre.filter fun q => q.key = r.key).filter Rw.isWrite).getLast? with
  | some w => w.valueAssignment
  | none => init ((pre.filter fun q => q.key = r.key).headD r)

/-- `r`, coming after `pre`, is a non-`Start` read that breaks the law. -/
def BreaksLaw (init : Rw → Word) (pre : List Rw) (r : Rw) : Prop :=
  r.isStart = false ∧ r.isWrite = false ∧ r.valueAssignment ≠ lawValue init pre r

/-- Row `j` of `rows` is inconsistent. -/
def Inconsistent (init : Rw → Word) (rows : List Rw) (j : Nat) : Prop :=
  ∃ r, rows[j]? = some r ∧ BreaksLaw init (rows.take j) r

instance (init : Rw → Word) (pre : List Rw) (r : Rw) : Decidable (BreaksLaw init pre r) :=
  inferInstanceAs (Decidable (_ ∧ _ ∧ _))

instance (init : Rw → Word) (rows : List Rw) (j : Nat) : Decidable (Inconsistent init rows j) :=
  decidable_of_iff (∃ r ∈ rows[j]?, BreaksLaw init (rows.take j) r) (by simp [Inconsistent])

/-- After a row of another key, in sorted order, a row starts its block afresh. -/
theorem lawValue_of_key_ne {init : Rw → Word} {pre : List Rw} {p r : Rw}
    (hs : (pre ++ [p, r]).Pairwise fun a b => a.key ≤ b.key) (hk : p.key ≠ r.key) :
    lawValue init (pre ++ [p]) r = init r := by
  rw [List.pairwise_append] at hs
  have hpr : p.key ≤ r.key := by simpa using hs.2.1
  have hnil : (pre ++ [p]).filter (fun q => q.key = r.key) = [] := by
    refine List.filter_eq_nil_iff.mpr fun q hq => ?_
    rcases List.mem_append.mp hq with hq | hq
    · have hqp := hs.2.2 q hq p (by simp)
      simp only [decide_eq_true_eq]
      exact fun h => hk (le_antisymm hpr (h ▸ hqp))
    · simpa [List.mem_singleton.mp hq] using hk
  simp [lawValue, hnil]

/-- After a row of the same key, the law continues from that row: its value if it
    is a write, what it had to read otherwise. -/
theorem lawValue_of_key_eq (init : Rw → Word) (pre : List Rw) {p r : Rw} (hk : p.key = r.key) :
    lawValue init (pre ++ [p]) r =
      if p.isWrite then p.valueAssignment else lawValue init pre p := by
  have hb : (pre ++ [p]).filter (fun q => q.key = r.key) =
      pre.filter (fun q => q.key = p.key) ++ [p] := by
    simp [List.filter_append, hk]
  unfold lawValue
  rw [hb, List.filter_append]
  generalize pre.filter (fun q => q.key = p.key) = B
  cases hw : p.isWrite
  · have hh : (B ++ [p]).headD r = B.headD p := by cases B <;> rfl
    have hf : [p].filter Rw.isWrite = [] := by simp [hw]
    rw [hf, List.append_nil, hh]
    rfl
  · simp [hw]

/-! ## Section 2: `check_value` -/

/-- A logged violation `(idx, reason, row, prev_row)`. -/
abbrev Violation := Nat × String × Rw × Rw

/-- `err_msg_first`. -/
def errMsgFirst : String := "first access reads don't change value"

/-- `err_msg_non_first`. -/
def errMsgNonFirst : String := "non-first access reads don't change value"

/-- The body of `check_value`'s loop on `prev_row` and `row` at `idx`. -/
def checkPair (init : Rw → Word) (idx : Nat) (prev row : Rw) : Option Violation :=
  let isFirst := prev.key ≠ row.key
  if !row.isWrite then
    let value := row.valueAssignment
    if isFirst then
      if value ≠ init row then some (idx, errMsgFirst, row, prev) else none
    else
      if value ≠ prev.valueAssignment then some (idx, errMsgNonFirst, row, prev) else none
  else none

/-- The loop body reports a read that differs from the value it is checked against:
    the initial value for the first row of a key, the previous row's value otherwise. -/
theorem checkPair_eq_some_iff {init : Rw → Word} {idx : Nat} {prev row : Rw} {v : Violation} :
    checkPair init idx prev row = some v ↔
      row.isWrite = false ∧
      row.valueAssignment ≠ (if prev.key = row.key then prev.valueAssignment else init row) ∧
      v = (idx, (if prev.key = row.key then errMsgNonFirst else errMsgFirst), row, prev) := by
  unfold checkPair
  cases hw : row.isWrite <;> by_cases hk : prev.key = row.key <;> simp [hw, hk, eq_comm]

theorem checkPair_ne_none_iff {init : Rw → Word} {idx : Nat} {prev row : Rw} :
    checkPair init idx prev row ≠ none ↔
      row.isWrite = false ∧
      row.valueAssignment ≠ (if prev.key = row.key then prev.valueAssignment else init row) := by
  simp [Option.ne_none_iff_exists', checkPair_eq_some_iff]

/-- One iteration: `row = &rows[idx]`, `prev_row = &rows[idx - 1]`. -/
def checkAt (init : Rw → Word) (rows : List Rw) (idx : Nat) : Option Violation :=
  match rows[idx - 1]?, rows[idx]? with
  | some prev, some row => checkPair init idx prev row
  | _, _ => none

/-- `RwMap::check_value`: the violations it logs, in order, for the initial-value
    oracle `init` that `MptUpdates::mock_from(&rows)` provides. -/
def RwMap.checkValue (m : RwMap) (init : Rw → Word) : List Violation :=
  let rows := m.tableAssignments
  (List.range' 1 (rows.length - 1)).filterMap (checkAt init rows)

theorem checkValue_ne_nil_iff_checkAt (m : RwMap) (init : Rw → Word) :
    m.checkValue init ≠ [] ↔ ∃ i, checkAt init m.tableAssignments (i + 1) ≠ none := by
  simp only [RwMap.checkValue, ne_eq, List.filterMap_eq_nil_iff, List.mem_range', not_forall]
  constructor
  · rintro ⟨idx, ⟨k, -, rfl⟩, h⟩
    exact ⟨k, by simpa [Nat.add_comm] using h⟩
  · rintro ⟨i, h⟩
    have hi : i + 1 < m.tableAssignments.length := by
      by_contra hi
      simp [checkAt, List.getElem?_eq_none (Nat.le_of_not_lt hi)] at h
    exact ⟨i + 1, ⟨i, by omega, by omega⟩, by simpa using h⟩

/-! ## Section 3: The check against the law -/

section local_check

variable {init : Rw → Word} {pre : List Rw} {p r : Rw} {idx : Nat}

theorem key_eq_of_isStart (hp : p.isStart = true) (hr : r.isStart = true) : p.key = r.key := by
  obtain ⟨c, rfl⟩ := Rw.eq_start_iff.mp hp
  obtain ⟨d, rfl⟩ := Rw.eq_start_iff.mp hr
  rfl

/-- A `Start` row, sorted after its predecessor, is never reported. -/
theorem isStart_eq_false_of_checkPair (hpr : p.key ≤ r.key)
    (hf : checkPair init idx p r ≠ none) : r.isStart = false :=
  Bool.eq_false_iff.mpr fun hr => by
    obtain ⟨d, rfl⟩ := Rw.eq_start_iff.mp hr
    obtain ⟨c, rfl⟩ := Rw.eq_start_iff.mp (Rw.isStart_of_key_le hpr hr)
    obtain ⟨-, hv⟩ := checkPair_ne_none_iff.mp hf
    rw [if_pos (key_eq_of_isStart (Rw.isStart_start c) (Rw.isStart_start d))] at hv
    exact hv rfl

/-- A reported pair holds a read breaking the law: the row, or the previous row of
    its block. -/
theorem breaksLaw_of_checkPair (hs : (pre ++ [p, r]).Pairwise fun a b => a.key ≤ b.key)
    (hf : checkPair init idx p r ≠ none) :
    BreaksLaw init (pre ++ [p]) r ∨ BreaksLaw init pre p := by
  obtain ⟨hw, hv⟩ := checkPair_ne_none_iff.mp hf
  have hsr : r.isStart = false :=
    isStart_eq_false_of_checkPair (by simp [List.pairwise_append] at hs; exact hs.2.1) hf
  by_cases hk : p.key = r.key
  case neg =>
    rw [if_neg hk] at hv
    exact .inl ⟨hsr, hw, by rwa [lawValue_of_key_ne hs hk]⟩
  rw [if_pos hk] at hv
  unfold BreaksLaw
  rw [lawValue_of_key_eq init pre hk]
  cases hpw : p.isWrite with
  | true => exact .inl ⟨hsr, hw, by simpa using hv⟩
  | false =>
    by_cases hp : p.valueAssignment = lawValue init pre p
    · exact .inl ⟨hsr, hw, by simpa [hp] using hv⟩
    · exact .inr ⟨(Rw.isStart_eq_of_key_eq hk).trans hsr, rfl, hp⟩

/-- A read breaking the law after a row within it is reported. -/
theorem checkPair_of_breaksLaw (hs : (pre ++ [p, r]).Pairwise fun a b => a.key ≤ b.key)
    (hr : BreaksLaw init (pre ++ [p]) r) (hp : ¬ BreaksLaw init pre p) :
    checkPair init idx p r ≠ none := by
  obtain ⟨hsr, hw, hv⟩ := hr
  refine checkPair_ne_none_iff.mpr ⟨hw, ?_⟩
  by_cases hk : p.key = r.key
  case neg =>
    rw [if_neg hk]
    rwa [lawValue_of_key_ne hs hk] at hv
  rw [if_pos hk]
  rw [lawValue_of_key_eq init pre hk] at hv
  cases hpw : p.isWrite with
  | true => simpa [hpw] using hv
  | false =>
    have : p.valueAssignment = lawValue init pre p :=
      not_not.mp fun h => hp ⟨(Rw.isStart_eq_of_key_eq hk).trans hsr, hpw, h⟩
    simpa [hpw, ← this] using hv

end local_check

/-! ## Section 4: The whole table -/

section table

variable {init : Rw → Word} {rows : List Rw}

theorem take_succ_of_getElem? {i : Nat} {p : Rw} (h : rows[i]? = some p) :
    rows.take (i + 1) = rows.take i ++ [p] := by
  simp [List.take_succ, h]

theorem pairwise_take_append (hs : rows.Pairwise fun a b => a.key ≤ b.key) {i : Nat} {p r : Rw}
    (hp : rows[i]? = some p) (hr : rows[i + 1]? = some r) :
    (rows.take i ++ [p, r]).Pairwise fun a b => a.key ≤ b.key := by
  have : rows.take (i + 2) = rows.take i ++ [p, r] := by
    rw [take_succ_of_getElem? hr, take_succ_of_getElem? hp]; simp
  exact this ▸ hs.sublist (List.take_sublist _ _)

/-- A report at `i + 1` blames row `i + 1` or row `i`. -/
theorem inconsistent_of_checkAt (hs : rows.Pairwise fun a b => a.key ≤ b.key) {i : Nat}
    (h : checkAt init rows (i + 1) ≠ none) :
    Inconsistent init rows (i + 1) ∨ Inconsistent init rows i := by
  simp only [checkAt, Nat.add_sub_cancel] at h
  split at h
  case h_2 => exact absurd rfl h
  rename_i p r hp hr
  rcases breaksLaw_of_checkPair (pairwise_take_append hs hp hr) h with hb | hb
  · exact .inl ⟨r, hr, by rwa [take_succ_of_getElem? hp]⟩
  · exact .inr ⟨p, hp, hb⟩

/-- The first row past row 0 that breaks the law is reported. -/
theorem checkAt_of_first_inconsistent (hs : rows.Pairwise fun a b => a.key ≤ b.key) {i : Nat}
    (hi : Inconsistent init rows (i + 1)) (hmin : ∀ k ≤ i, ¬ Inconsistent init rows k) :
    checkAt init rows (i + 1) ≠ none := by
  obtain ⟨r, hr, hb⟩ := hi
  obtain ⟨p, hp⟩ : ∃ p, rows[i]? = some p :=
    ⟨_, List.getElem?_eq_getElem (by have := (List.getElem?_eq_some_iff.mp hr).1; omega)⟩
  have hnp : ¬ BreaksLaw init (rows.take i) p := fun h => hmin i le_rfl ⟨p, hp, h⟩
  simp only [checkAt, Nat.add_sub_cancel, hp, hr]
  exact checkPair_of_breaksLaw (pairwise_take_append hs hp hr)
    (by rwa [← take_succ_of_getElem? hp]) hnp

/-- On a sorted table whose row 0 is within the law, some iteration reports iff
    some row breaks the law. -/
theorem exists_checkAt_iff (hs : rows.Pairwise fun a b => a.key ≤ b.key)
    (h0 : ¬ Inconsistent init rows 0) :
    (∃ i, checkAt init rows (i + 1) ≠ none) ↔ ∃ j, Inconsistent init rows j := by
  constructor
  · rintro ⟨i, h⟩
    rcases inconsistent_of_checkAt hs h with h | h
    exacts [⟨_, h⟩, ⟨_, h⟩]
  · intro hex
    classical
    obtain ⟨i, hi⟩ : ∃ i, Nat.find hex = i + 1 :=
      Nat.exists_eq_succ_of_ne_zero fun h => h0 (h ▸ Nat.find_spec hex)
    exact ⟨i, checkAt_of_first_inconsistent hs (hi ▸ Nat.find_spec hex)
      fun k hk => Nat.find_min hex (by omega)⟩

end table

/-- Provided row 0 of the canonical table is within the law, `check_value` reports
    a violation iff some non-`Start` read of the table breaks the law. -/
theorem checkValue_ne_nil_iff (init : Rw → Word) (m : RwMap)
    (h0 : ¬ Inconsistent init m.tableAssignments 0) :
    m.checkValue init ≠ [] ↔ ∃ j, Inconsistent init m.tableAssignments j :=
  (checkValue_ne_nil_iff_checkAt m init).trans
    (exists_checkAt_iff m.tableAssignments_key_sorted h0)

/-- A write of 5 and a read of 5 to one stack slot, after a `Start` row. -/
def startWriteRead : RwMap :=
  ⟨[(.start, [.start 1]), (.stack, [.stack 2 true 1 0 5, .stack 3 false 1 0 5])], by decide⟩

theorem checkValue_ne_nil_iff_startWriteRead :
    ¬ Inconsistent (fun _ => 0) startWriteRead.tableAssignments 0 ∧
    (startWriteRead.checkValue (fun _ => 0) ≠ [] ↔
      ∃ j, Inconsistent (fun _ => 0) startWriteRead.tableAssignments j) :=
  have h0 : ¬ Inconsistent (fun _ => 0) startWriteRead.tableAssignments 0 := by
    rw [RwMap.tableAssignments_of_sorted (by decide)]
    decide
  ⟨h0, checkValue_ne_nil_iff _ _ h0⟩

/-- Row 0 of a table holding a `Start` row is a `Start` row, within the law. -/
theorem not_inconsistent_zero_of_start {init : Rw → Word} {m : RwMap}
    (hs : ∃ r ∈ m.records, r.isStart = true) : ¬ Inconsistent init m.tableAssignments 0 := by
  obtain ⟨r, hr, hrs⟩ := hs
  have hmem : r ∈ m.tableAssignments := m.tableAssignments_perm.symm.subset hr
  have hfirst := m.tableAssignments_key_sorted.imp Rw.isStart_of_key_le
  rintro ⟨a, ha, hb, -⟩
  cases h : m.tableAssignments with
  | nil => simp [h] at hmem
  | cons b t =>
    rw [h] at ha hmem hfirst
    obtain rfl : b = a := by simpa using ha
    rw [List.pairwise_cons] at hfirst
    rcases List.mem_cons.mp hmem with rfl | hmem
    · simp [hrs] at hb
    · simp [hfirst.1 r hmem hrs] at hb

/-- On a map holding a `Start` record, as every map built from a trace with its
    `Start` operation does, `check_value` reports iff some read breaks the law. -/
theorem checkValue_ne_nil_iff_of_start (init : Rw → Word) (m : RwMap)
    (hs : ∃ r ∈ m.records, r.isStart = true) :
    m.checkValue init ≠ [] ↔ ∃ j, Inconsistent init m.tableAssignments j :=
  (checkValue_ne_nil_iff_checkAt m init).trans
    (exists_checkAt_iff m.tableAssignments_key_sorted (not_inconsistent_zero_of_start hs))

theorem checkValue_ne_nil_iff_of_start_startWriteRead :
    (∃ r ∈ startWriteRead.records, r.isStart = true) ∧
    (startWriteRead.checkValue (fun _ => 0) ≠ [] ↔
      ∃ j, Inconsistent (fun _ => 0) startWriteRead.tableAssignments j) :=
  have hs : ∃ r ∈ startWriteRead.records, r.isStart = true := ⟨.start 1, by decide, rfl⟩
  ⟨hs, checkValue_ne_nil_iff_of_start _ _ hs⟩

/-- Every violation `check_value` logs is a read at some `idx ≥ 1` of the table, logged
    with the row before it and the reason of the comparison that failed. -/
theorem checkValue_violation (init : Rw → Word) (m : RwMap) {v : Violation}
    (hv : v ∈ m.checkValue init) :
    ∃ idx row prev, 0 < idx ∧ m.tableAssignments[idx]? = some row ∧
      m.tableAssignments[idx - 1]? = some prev ∧ row.isWrite = false ∧
      row.valueAssignment ≠ (if prev.key = row.key then prev.valueAssignment else init row) ∧
      v = (idx, (if prev.key = row.key then errMsgNonFirst else errMsgFirst), row, prev) := by
  simp only [RwMap.checkValue, List.mem_filterMap, List.mem_range'_1] at hv
  obtain ⟨idx, hidx, h⟩ := hv
  unfold checkAt at h
  split at h
  case h_2 => cases h
  rename_i prev row hp hr
  exact ⟨idx, row, prev, hidx.1, hr, hp, checkPair_eq_some_iff.mp h⟩

/-- A write of 5 and a read of 6 to one stack slot, after a `Start` row. -/
def startWriteBadRead : RwMap :=
  ⟨[(.start, [.start 1]), (.stack, [.stack 2 true 1 0 5, .stack 3 false 1 0 6])], by decide⟩

/-- The write of 5 then the read of 6: one violation, at the read, against the write. -/
example : startWriteBadRead.checkValue (fun _ => 0) =
    [(2, errMsgNonFirst, .stack 3 false 1 0 6, .stack 2 true 1 0 5)] := by
  simp only [RwMap.checkValue]
  rw [RwMap.tableAssignments_of_sorted (by decide)]
  decide

/-- A map holding one stack read of 5 and no `Start` record. -/
def singleStackRead : RwMap := ⟨[(.stack, [.stack 1 false 1 0 5])], by decide⟩

/-- Row 0 is never checked: with initial value 0, the lone read of 5 breaks the law
    and `check_value` reports nothing. -/
theorem checkValue_misses_first_row :
    ¬ (singleStackRead.checkValue (fun _ => 0) ≠ [] ↔
      ∃ j, Inconsistent (fun _ => 0) singleStackRead.tableAssignments j) := by
  have ht : singleStackRead.tableAssignments = [.stack 1 false 1 0 5] := by
    simp [RwMap.tableAssignments, RwMap.records, singleStackRead]
  simp only [RwMap.checkValue, ht]
  exact fun h => absurd (h.mpr ⟨0, by decide⟩) (by simp)

/-! ## Section 5: Where the reports point -/

section blame

variable {init : Rw → Word} {m : RwMap}

theorem checkAt_eq_some_fst {rows : List Rw} {idx : Nat} {v : Violation}
    (h : checkAt init rows idx = some v) : v.1 = idx := by
  unfold checkAt at h
  split at h
  · rw [(checkPair_eq_some_iff.mp h).2.2]
  · cases h

theorem lt_length_of_checkAt {rows : List Rw} {idx : Nat} (h : checkAt init rows idx ≠ none) :
    idx < rows.length := by
  by_contra hi
  simp [checkAt, List.getElem?_eq_none (Nat.le_of_not_lt hi)] at h

/-- The violations are the reports of the iterations `idx = i + 1`. -/
theorem mem_checkValue_iff {v : Violation} :
    v ∈ m.checkValue init ↔ ∃ i, checkAt init m.tableAssignments (i + 1) = some v := by
  simp only [RwMap.checkValue, List.mem_filterMap, List.mem_range'_1]
  constructor
  · rintro ⟨idx, hidx, h⟩
    exact ⟨idx - 1, by rwa [Nat.sub_add_cancel hidx.1]⟩
  · rintro ⟨i, h⟩
    have := lt_length_of_checkAt (h.symm ▸ Option.some_ne_none v)
    exact ⟨i + 1, by omega, h⟩

/-- The violations come in the order of their rows, one row at most once. -/
theorem checkValue_idx_lt (init : Rw → Word) (m : RwMap) :
    (m.checkValue init).Pairwise fun v w => v.1 < w.1 :=
  List.Pairwise.filterMap _ (fun _ _ hab _ hv _ hw => by
    rw [checkAt_eq_some_fst hv, checkAt_eq_some_fst hw]; exact hab) (List.pairwise_lt_range' _ _)

/-- Every report blames its row or the row before it. -/
theorem inconsistent_of_mem_checkValue {v : Violation} (hv : v ∈ m.checkValue init) :
    Inconsistent init m.tableAssignments v.1 ∨ Inconsistent init m.tableAssignments (v.1 - 1) := by
  obtain ⟨i, h⟩ := mem_checkValue_iff.mp hv
  rw [checkAt_eq_some_fst h, Nat.add_sub_cancel]
  exact inconsistent_of_checkAt m.tableAssignments_key_sorted (by simp [h])

/-- With row 0 within the law, the first report is at the first row that breaks it. -/
theorem first_inconsistent_of_head_checkValue (h0 : ¬ Inconsistent init m.tableAssignments 0)
    {v : Violation} (hv : (m.checkValue init).head? = some v) :
    Inconsistent init m.tableAssignments v.1 ∧
      ∀ j < v.1, ¬ Inconsistent init m.tableAssignments j := by
  classical
  obtain ⟨rest, hl⟩ := List.head?_eq_some_iff.mp hv
  have hblame := inconsistent_of_mem_checkValue (hl ▸ List.mem_cons_self v rest)
  have hex : ∃ j, Inconsistent init m.tableAssignments j := hblame.elim (⟨_, ·⟩) (⟨_, ·⟩)
  -- the first row breaking the law is reported, so no earlier than `v`
  obtain ⟨i, hi⟩ : ∃ i, Nat.find hex = i + 1 :=
    Nat.exists_eq_succ_of_ne_zero fun h => h0 (h ▸ Nat.find_spec hex)
  obtain ⟨w, hw⟩ := Option.ne_none_iff_exists'.mp <|
    checkAt_of_first_inconsistent m.tableAssignments_key_sorted (hi ▸ Nat.find_spec hex)
      fun k hk => Nat.find_min hex (by omega)
  have hvw : v.1 ≤ i + 1 := by
    have hp := checkValue_idx_lt init m
    rw [hl, List.pairwise_cons] at hp
    rcases List.mem_cons.mp (hl ▸ mem_checkValue_iff.mpr ⟨i, hw⟩) with rfl | hw'
    · exact (checkAt_eq_some_fst hw).le
    · exact ((hp.1 w hw').trans_eq (checkAt_eq_some_fst hw)).le
  -- and `v` blames a row at or before its own, so no later than the first
  have hfv : Nat.find hex ≤ v.1 :=
    hblame.elim (Nat.find_min' hex) fun h => (Nat.find_min' hex h).trans (Nat.sub_le _ _)
  have hv1 : v.1 = Nat.find hex := by omega
  exact ⟨hv1 ▸ Nat.find_spec hex, fun j hj => Nat.find_min hex (hv1 ▸ hj)⟩

end blame

/-- Where `check_value`'s reports point: each blames its row or the row before it, and
    with row 0 within the law the first one is at the first row that breaks it. -/
theorem checkValue_reports_blame (init : Rw → Word) (m : RwMap) :
    (∀ v ∈ m.checkValue init,
      Inconsistent init m.tableAssignments v.1 ∨ Inconsistent init m.tableAssignments (v.1 - 1)) ∧
    (¬ Inconsistent init m.tableAssignments 0 → ∀ v, (m.checkValue init).head? = some v →
      Inconsistent init m.tableAssignments v.1 ∧
        ∀ j < v.1, ¬ Inconsistent init m.tableAssignments j) :=
  ⟨fun _ => inconsistent_of_mem_checkValue, fun h0 _ => first_inconsistent_of_head_checkValue h0⟩

/-- A write of 5, a read of 6, then a read of 5: the law blames the read of 6 alone, but
    the check compares the read of 5 with the row before it and reports it too. -/
def startWriteBadGoodRead : RwMap :=
  ⟨[(.start, [.start 1]),
    (.stack, [.stack 2 true 1 0 5, .stack 3 false 1 0 6, .stack 4 false 1 0 5])], by decide⟩

/-- A report can point at a row within the law, one past the row that breaks it: the
    blame of `checkValue_reports_blame` needs its second disjunct. -/
theorem checkValue_reports_lawful_row :
    (startWriteBadGoodRead.checkValue (fun _ => 0)).map Prod.fst = [2, 3] ∧
    Inconsistent (fun _ => 0) startWriteBadGoodRead.tableAssignments 2 ∧
    ¬ Inconsistent (fun _ => 0) startWriteBadGoodRead.tableAssignments 3 := by
  simp only [RwMap.checkValue]
  rw [RwMap.tableAssignments_of_sorted (by decide)]
  decide

end RwWitness
