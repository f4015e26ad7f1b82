import RwWitness.RwMap
import Mathlib.Data.List.Sort

/-! # The canonical table

    `RwMap::table_assignments` flattens the groups and sorts the records by
    `(tag as u64, id, address, field_tag, storage_key, rw_counter)`, each missing
    field at its default 0. Rust's `sort_by_key` is a stable merge sort, as is
    `List.mergeSort`.

    The table holds every record once and is sorted by that key; `Start` rows come
    first and each resource's rows form one block in counter order
    (`tableAssignments_canonical`). Under distinct counters the sort key tells the
    records apart, so the table depends on the multiset of records alone, never on
    the map's iteration order or grouping (`tableAssignments_eq_of_perm`).
-/

namespace RwWitness

/-- The resource key `(tag as u64, id, address, field_tag, storage_key)`, compared
    lexicographically like the Rust tuple. -/
abbrev Key := ℕ ×ₗ ℕ ×ₗ ℕ ×ₗ ℕ ×ₗ ℕ

namespace Rw

/-- The `key` closure of `check_value`, the first five components of the sort key. -/
def key (r : Rw) : Key :=
  toLex (r.tag.toU64, toLex (r.id.getD 0, toLex ((r.address.getD 0).toNat,
    toLex (r.fieldTag.getD 0, (r.storageKey.getD 0).toNat))))

/-- The sort key of `table_assignments`; the order of the Rust 6-tuple is the
    lexicographic order of the key and then `rw_counter`. -/
def sortKey (r : Rw) : Key ×ₗ ℕ := toLex (r.key, r.rwCounter)

theorem tag_eq_of_key_eq {a b : Rw} (h : a.key = b.key) : a.tag = b.tag :=
  Target.toU64_injective (by simpa [key] using congrArg (fun k => (ofLex k).1) h)

theorem isStart_eq_of_key_eq {a b : Rw} (h : a.key = b.key) : a.isStart = b.isStart := by
  rw [Bool.eq_iff_iff, isStart_iff_tag, isStart_iff_tag, tag_eq_of_key_eq h]

theorem key_le_of_sortKey_le {a b : Rw} (h : a.sortKey ≤ b.sortKey) : a.key ≤ b.key := by
  rcases (Prod.Lex.le_iff _ _).mp h with h | ⟨h, -⟩
  · exact le_of_lt h
  · exact le_of_eq h

theorem rwCounter_le_of_sortKey_le {a b : Rw} (h : a.sortKey ≤ b.sortKey)
    (hk : a.key = b.key) : a.rwCounter ≤ b.rwCounter := by
  rcases (Prod.Lex.le_iff _ _).mp h with h | ⟨-, h⟩
  · exact absurd hk (ne_of_lt h)
  · exact h

/-- A row sorting at or before a `Start` row is a `Start` row. -/
theorem isStart_of_key_le {a b : Rw} (h : a.key ≤ b.key) (hb : b.isStart = true) :
    a.isStart = true := by
  rw [isStart_iff_tag] at hb ⊢
  by_contra ha
  have hlt := Target.toU64_start_lt ha
  rcases (Prod.Lex.le_iff _ _).mp h with h | ⟨h, -⟩ <;>
    simp only [key, hb] at h <;> omega

end Rw

/-! ## Section 1: Sorted lists of records -/

section sorted

variable {α β : Type} [LinearOrder β] (f : α → β)

/-- In a list sorted by `f`, the elements with `f = k` after one with `f ≥ k` lead it. -/
theorem filter_eq_prefix {l : List α} (h : l.Pairwise (fun a b => f a ≤ f b)) {k : β}
    (hk : ∀ b ∈ l, k ≤ f b) : l.filter (fun a => f a = k) <+: l := by
  induction l with
  | nil => simp
  | cons b t ih =>
    rw [List.pairwise_cons] at h
    by_cases hb : f b = k
    · simpa [hb] using ih h.2 (fun c hc => hk c (List.mem_cons_of_mem _ hc))
    · have hlt : k < f b := lt_of_le_of_ne (hk b (List.mem_cons_self _ _)) (Ne.symm hb)
      have : t.filter (fun a => f a = k) = [] :=
        List.filter_eq_nil_iff.mpr fun c hc => by
          have := h.1 c hc
          simp only [decide_eq_true_eq]; exact ne_of_gt (lt_of_lt_of_le hlt this)
      simp [hb, this]

/-- In a list sorted by `f`, the elements with one value of `f` are contiguous. -/
theorem filter_eq_infix {l : List α} (h : l.Pairwise (fun a b => f a ≤ f b)) (k : β) :
    l.filter (fun a => f a = k) <:+: l := by
  induction l with
  | nil => simp
  | cons b t ih =>
    rw [List.pairwise_cons] at h
    by_cases hb : f b = k
    · have hp := filter_eq_prefix f h.2 (fun c hc => hb ▸ h.1 c hc)
      simpa [hb] using (List.prefix_cons_inj b).mpr hp |>.isInfix
    · simpa [hb] using List.infix_cons (a := b) (ih h.2)

end sorted

/-- Two lists with the same image under `f`, where `f` separates their elements,
    are equal. -/
theorem eq_of_map_eq_of_injOn {α β : Type} (f : α → β) {l₁ l₂ : List α}
    (h : l₁.map f = l₂.map f) (hinj : ∀ a ∈ l₁, ∀ b ∈ l₂, f a = f b → a = b) : l₁ = l₂ := by
  induction l₁ generalizing l₂ with
  | nil => simpa using h.symm
  | cons a t ih =>
    cases l₂ with
    | nil => simp at h
    | cons b u =>
      simp only [List.map_cons, List.cons.injEq] at h
      rw [hinj a (List.mem_cons_self _ _) b (List.mem_cons_self _ _) h.1, ih h.2 fun x hx y hy =>
        hinj x (List.mem_cons_of_mem _ hx) y (List.mem_cons_of_mem _ hy)]

namespace RwMap

/-! ## Section 2: `table_assignments` -/

/-- `RwMap::table_assignments`: every record, stably sorted by the sort key. -/
def tableAssignments (m : RwMap) : List Rw :=
  m.records.mergeSort fun a b => a.sortKey ≤ b.sortKey

theorem tableAssignments_perm (m : RwMap) : m.tableAssignments.Perm m.records :=
  List.mergeSort_perm _ _

theorem tableAssignments_sorted (m : RwMap) :
    m.tableAssignments.Pairwise (fun a b => a.sortKey ≤ b.sortKey) := by
  have := @List.sorted_mergeSort _ (fun a b => decide (a.sortKey ≤ b.sortKey))
    (fun _ _ _ hab hbc => by simp only [decide_eq_true_eq] at *; exact le_trans hab hbc)
    (fun a b => by simpa using le_total a.sortKey b.sortKey) m.records
  exact this.imp fun h => by simpa using h

/-- A map whose records are already in order keeps them as its table. -/
theorem tableAssignments_of_sorted {m : RwMap}
    (h : m.records.Pairwise fun a b => a.sortKey ≤ b.sortKey) : m.tableAssignments = m.records :=
  List.mergeSort_of_sorted (h.imp fun h => by simpa using h)

theorem tableAssignments_key_sorted (m : RwMap) :
    m.tableAssignments.Pairwise (fun a b => a.key ≤ b.key) :=
  m.tableAssignments_sorted.imp Rw.key_le_of_sortKey_le

/-- The canonical table: every record once, sorted by the composite key, `Start`
    rows first, and the rows of each key one block in counter order. -/
theorem tableAssignments_canonical (m : RwMap) :
    m.tableAssignments.Perm m.records ∧
    m.tableAssignments.Pairwise (fun a b => a.sortKey ≤ b.sortKey) ∧
    m.tableAssignments.Pairwise (fun a b => b.isStart = true → a.isStart = true) ∧
    (∀ k : Key, m.tableAssignments.filter (fun r => r.key = k) <:+: m.tableAssignments) ∧
    m.tableAssignments.Pairwise (fun a b => a.key = b.key → a.rwCounter ≤ b.rwCounter) :=
  ⟨m.tableAssignments_perm, m.tableAssignments_sorted,
    m.tableAssignments_key_sorted.imp Rw.isStart_of_key_le,
    filter_eq_infix Rw.key m.tableAssignments_key_sorted,
    m.tableAssignments_sorted.imp Rw.rwCounter_le_of_sortKey_le⟩

/-! ## Section 3: Independence from the map's order -/

/-- With distinct counters on the non-`Start` records, the sort key tells records
    apart: a `Start` row is its counter, and no other row has `Start`'s tag. -/
theorem sortKey_injOn {l : List Rw}
    (hc : ((l.filter fun r => !r.isStart).map Rw.rwCounter).Nodup) :
    ∀ a ∈ l, ∀ b ∈ l, a.sortKey = b.sortKey → a = b := by
  intro a ha b hb h
  simp only [Rw.sortKey, toLex_inj, Prod.mk.injEq] at h
  have hsb : b.isStart = a.isStart := (Rw.isStart_eq_of_key_eq h.1).symm
  cases hs : a.isStart
  · exact List.inj_on_of_nodup_map hc (List.mem_filter.mpr ⟨ha, by simp [hs]⟩)
      (List.mem_filter.mpr ⟨hb, by simp [hsb, hs]⟩) h.2
  · obtain ⟨c, rfl⟩ := Rw.eq_start_iff.mp hs
    obtain ⟨d, rfl⟩ := Rw.eq_start_iff.mp (hsb.trans hs)
    simpa using h.2

/-- Two maps holding the same records, with distinct non-`Start` counters, have the
    same table, whatever their iteration order and grouping. -/
theorem tableAssignments_eq_of_perm {m₁ m₂ : RwMap} (h : m₁.records.Perm m₂.records)
    (hc : ((m₁.records.filter fun r => !r.isStart).map Rw.rwCounter).Nodup) :
    m₁.tableAssignments = m₂.tableAssignments := by
  have hp : m₁.tableAssignments.Perm m₂.tableAssignments :=
    (m₁.tableAssignments_perm.trans h).trans m₂.tableAssignments_perm.symm
  have hkeys : m₁.tableAssignments.map Rw.sortKey = m₂.tableAssignments.map Rw.sortKey :=
    List.eq_of_perm_of_sorted (r := (· ≤ ·)) (hp.map _)
      (List.pairwise_map.mpr m₁.tableAssignments_sorted)
      (List.pairwise_map.mpr m₂.tableAssignments_sorted)
  refine eq_of_map_eq_of_injOn Rw.sortKey hkeys fun a ha b hb => sortKey_injOn hc a ?_ b ?_
  · exact m₁.tableAssignments_perm.subset ha
  · exact h.symm.subset (m₂.tableAssignments_perm.subset hb)

/-- The same three records, grouped and ordered differently. -/
def stackMemory₁ : RwMap :=
  ⟨[(.stack, [.stack 1 true 1 0 5, .stack 2 false 1 0 5]), (.memory, [.memory 3 true 1 0 7])],
    by decide⟩

/-- See `stackMemory₁`. -/
def stackMemory₂ : RwMap :=
  ⟨[(.memory, [.memory 3 true 1 0 7]), (.stack, [.stack 2 false 1 0 5, .stack 1 true 1 0 5])],
    by decide⟩

theorem tableAssignments_eq_of_perm_stackMemory :
    stackMemory₁.records.Perm stackMemory₂.records ∧
    ((stackMemory₁.records.filter fun r => !r.isStart).map Rw.rwCounter).Nodup ∧
    stackMemory₁.tableAssignments = stackMemory₂.tableAssignments :=
  have h : stackMemory₁.records.Perm stackMemory₂.records := by decide
  have hc : ((stackMemory₁.records.filter fun r => !r.isStart).map Rw.rwCounter).Nodup := by
    decide
  ⟨h, hc, tableAssignments_eq_of_perm h hc⟩

end RwMap

end RwWitness
