import RwWitness.Order
import Mathlib.Data.List.DropRight

/-! # Padding with `Start` rows

    `RwMap::table_assignments_prepad` drops the leading `Start` rows of a table and
    prepends `padding_len` fresh ones numbered from 1. `padding_len` fills the table
    up to `target_len`, asks for one row in the auto mode `target_len = 0`, and panics
    when a positive `target_len` cannot hold the rows; the panic is `.error` with the
    source's message.

    Padded after sorting, the table the state circuit lays out is the fresh `Start`
    rows and then every other record once, still in canonical order
    (`prepad_tableAssignments`).
-/

namespace RwWitness

namespace RwMap

/-- `RwMap::padding_len`. -/
def paddingLen (rowsLen targetLen : Nat) : Except String Nat :=
  if targetLen > rowsLen then
    .ok (targetLen - rowsLen)
  else if targetLen ≠ 0 then
    .error s!"RwMap::padding_len overflow, target_len: {targetLen}, rows_len: {rowsLen}"
  else
    .ok 1

/-- `RwMap::table_assignments_prepad`: the padded rows and the padding length. -/
def tableAssignmentsPrepad (rows : List Rw) (targetLen : Nat) : Except String (List Rw × Nat) := do
  let rows := rows.dropWhile Rw.isStart
  let paddingLength ← paddingLen rows.length targetLen
  let padding := (List.range' 1 paddingLength).map Rw.start
  pure (padding ++ rows, paddingLength)

/-- `padding_len` returns `target_len - rows_len` when the rows fit, and `1` in auto
    mode. -/
theorem paddingLen_eq_ok_iff {n t p : Nat} :
    paddingLen n t = .ok p ↔ (n < t ∧ p = t - n) ∨ (t = 0 ∧ p = 1) := by
  unfold paddingLen
  split_ifs <;> simp <;> omega

/-- `padding_len` panics exactly when a positive `target_len` cannot hold the rows. -/
theorem paddingLen_eq_error_iff {n t : Nat} :
    (∃ msg, paddingLen n t = .error msg) ↔ 0 < t ∧ t ≤ n := by
  unfold paddingLen
  split_ifs <;> simp <;> omega

theorem tableAssignmentsPrepad_eq (rows : List Rw) (t : Nat) :
    tableAssignmentsPrepad rows t =
      (paddingLen (rows.dropWhile Rw.isStart).length t).map
        fun p => ((List.range' 1 p).map Rw.start ++ rows.dropWhile Rw.isStart, p) := by
  simp only [tableAssignmentsPrepad, bind, Except.bind, pure, Except.pure]
  cases paddingLen (rows.dropWhile Rw.isStart).length t <;> rfl

theorem tableAssignmentsPrepad_eq_ok_iff {rows : List Rw} {t p : Nat} {out : List Rw} :
    tableAssignmentsPrepad rows t = .ok (out, p) ↔
      paddingLen (rows.dropWhile Rw.isStart).length t = .ok p ∧
      out = (List.range' 1 p).map Rw.start ++ rows.dropWhile Rw.isStart := by
  rw [tableAssignmentsPrepad_eq]
  cases paddingLen (rows.dropWhile Rw.isStart).length t with
  | error _ => simp [Except.map]
  | ok q =>
    simp only [Except.map, Except.ok.injEq, Prod.mk.injEq]
    constructor <;> rintro ⟨rfl, rfl⟩ <;> exact ⟨rfl, rfl⟩

theorem tableAssignmentsPrepad_eq_error_iff {rows : List Rw} {t : Nat} :
    (∃ msg, tableAssignmentsPrepad rows t = .error msg) ↔
      ∃ msg, paddingLen (rows.dropWhile Rw.isStart).length t = .error msg := by
  rw [tableAssignmentsPrepad_eq]
  cases paddingLen (rows.dropWhile Rw.isStart).length t <;> simp [Except.map]

/-- The `Start` rows numbered `1..=p`, then `rest`: row `i < p` is `Start { i + 1 }`. -/
theorem getElem?_padding {p i : Nat} (rest : List Rw) (hi : i < p) :
    ((List.range' 1 p).map Rw.start ++ rest)[i]? = some (.start (i + 1)) := by
  rw [List.getElem?_append_left (by simpa using hi)]
  simp [List.getElem?_range', hi, Nat.add_comm]

/-- Padding: the call panics exactly when a positive `target_len` is at most the
    number of rows left after dropping the leading `Start` rows. Otherwise it returns
    `p ≥ 1` rows `Start { 1 }, …, Start { p }` followed by those rows unchanged, with
    `p = target_len - n` filling the table to `target_len`, or `p = 1` in auto mode. -/
theorem tableAssignmentsPrepad_spec (rows : List Rw) (t : Nat) :
    let n := (rows.dropWhile Rw.isStart).length
    ((∃ msg, tableAssignmentsPrepad rows t = .error msg) ↔ 0 < t ∧ t ≤ n) ∧
    ∀ out p, tableAssignmentsPrepad rows t = .ok (out, p) →
      p = (if n < t then t - n else 1) ∧ 1 ≤ p ∧
      (∀ i < p, out[i]? = some (.start (i + 1))) ∧
      out.drop p = rows.dropWhile Rw.isStart ∧
      (0 < t → out.length = t) := by
  intro n
  refine ⟨?_, fun out p h => ?_⟩
  · exact tableAssignmentsPrepad_eq_error_iff.trans paddingLen_eq_error_iff
  · obtain ⟨hp, rfl⟩ := tableAssignmentsPrepad_eq_ok_iff.mp h
    have hp := paddingLen_eq_ok_iff.mp hp
    refine ⟨by split_ifs <;> omega, by omega, fun i hi => getElem?_padding _ hi,
      List.drop_left' (by simp), fun _ => by simp; omega⟩

/-! ## Section 2: Padding the canonical table -/

/-- Padding is idempotent: a padded table padded again to the same length comes back
    unchanged. -/
theorem tableAssignmentsPrepad_idem {rows : List Rw} {t p : Nat} {out : List Rw}
    (h : tableAssignmentsPrepad rows t = .ok (out, p)) :
    tableAssignmentsPrepad out t = .ok (out, p) := by
  have hdrop : out.dropWhile Rw.isStart = rows.dropWhile Rw.isStart := by
    rw [(tableAssignmentsPrepad_eq_ok_iff.mp h).2,
      List.dropWhile_append_of_pos (by simp only [List.mem_map]; rintro _ ⟨c, -, rfl⟩; rfl),
      List.dropWhile_idempotent]
  rw [tableAssignmentsPrepad_eq] at h ⊢
  rwa [hdrop]

theorem tableAssignmentsPrepad_idem_stackWrite :
    tableAssignmentsPrepad [.start 1, .stack 2 true 1 0 5] 4 =
      .ok ([.start 1, .start 2, .start 3, .stack 2 true 1 0 5], 3) ∧
    tableAssignmentsPrepad [.start 1, .start 2, .start 3, .stack 2 true 1 0 5] 4 =
      .ok ([.start 1, .start 2, .start 3, .stack 2 true 1 0 5], 3) :=
  have h : tableAssignmentsPrepad [.start 1, .stack 2 true 1 0 5] 4 =
      .ok ([.start 1, .start 2, .start 3, .stack 2 true 1 0 5], 3) := rfl
  ⟨h, tableAssignmentsPrepad_idem h⟩

/-- Where the `Start` rows lead, dropping them keeps the others in order. -/
theorem dropWhile_isStart_eq_filter {l : List Rw}
    (h : l.Pairwise fun a b => b.isStart = true → a.isStart = true) :
    l.dropWhile Rw.isStart = l.filter fun r => !r.isStart := by
  induction l with
  | nil => rfl
  | cons a t ih =>
    rw [List.pairwise_cons] at h
    cases ha : a.isStart
    · have : t.filter (fun r => !r.isStart) = t := List.filter_eq_self.mpr fun b hb => by
        cases hb' : b.isStart
        · rfl
        · simp [h.1 b hb hb'] at ha
      simp [List.dropWhile_cons, ha, this]
    · simp [List.dropWhile_cons, ha, ih h.2]

/-- A `Start` row sorts before every other row. -/
theorem sortKey_start_lt (c : Nat) {r : Rw} (hr : r.isStart = false) :
    (Rw.start c).sortKey < r.sortKey := by
  have hlt : Target.start.toU64 < r.tag.toU64 :=
    Target.toU64_start_lt fun h => by simp [Rw.isStart_iff_tag.mpr h] at hr
  exact (Prod.Lex.lt_iff _ _).mpr (.inl ((Prod.Lex.lt_iff _ _).mpr (.inl hlt)))

theorem sortKey_start_le_start {c d : Nat} (h : c ≤ d) :
    (Rw.start c).sortKey ≤ (Rw.start d).sortKey :=
  (Prod.Lex.le_iff _ _).mpr (.inr ⟨rfl, h⟩)

/-- Padding the canonical table gives the table the state circuit lays out: after
    the `p` fresh `Start` rows comes every non-`Start` record of the map once, and
    the whole is sorted by the composite key. -/
theorem prepad_tableAssignments (m : RwMap) (t : Nat) {out : List Rw} {p : Nat}
    (h : tableAssignmentsPrepad m.tableAssignments t = .ok (out, p)) :
    out.Pairwise (fun a b => a.sortKey ≤ b.sortKey) ∧
    (out.drop p).Perm (m.records.filter fun r => !r.isStart) := by
  have hS := dropWhile_isStart_eq_filter (m.tableAssignments_key_sorted.imp Rw.isStart_of_key_le)
  rw [(tableAssignmentsPrepad_eq_ok_iff.mp h).2, hS]
  refine ⟨List.pairwise_append.mpr ⟨?_, ?_, ?_⟩, ?_⟩
  · exact List.pairwise_map.mpr ((List.pairwise_le_range' 1 p).imp sortKey_start_le_start)
  · exact m.tableAssignments_sorted.sublist (List.filter_sublist _)
  · intro a ha b hb
    obtain ⟨c, -, rfl⟩ := List.mem_map.mp ha
    exact le_of_lt (sortKey_start_lt c (by simpa using (List.mem_filter.mp hb).2))
  · rw [List.drop_left' (by simp)]
    exact m.tableAssignments_perm.filter _

/-- A `Start` row and a stack write, padded to four rows. -/
def startStackWrite : RwMap :=
  ⟨[(.start, [.start 1]), (.stack, [.stack 2 true 1 0 5])], by decide⟩

theorem prepad_tableAssignments_startStackWrite :
    tableAssignmentsPrepad startStackWrite.tableAssignments 4 =
      .ok ([.start 1, .start 2, .start 3, .stack 2 true 1 0 5], 3) ∧
    [Rw.start 1, .start 2, .start 3, .stack 2 true 1 0 5].Pairwise
      (fun a b => a.sortKey ≤ b.sortKey) ∧
    ([Rw.start 1, .start 2, .start 3, .stack 2 true 1 0 5].drop 3).Perm
      (startStackWrite.records.filter fun r => !r.isStart) :=
  have h : tableAssignmentsPrepad startStackWrite.tableAssignments 4 =
      .ok ([.start 1, .start 2, .start 3, .stack 2 true 1 0 5], 3) := by
    rw [tableAssignments_of_sorted (by decide)]
    rfl
  ⟨h, prepad_tableAssignments _ _ h⟩

end RwMap

end RwWitness
