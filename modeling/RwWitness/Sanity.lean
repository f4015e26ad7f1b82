import RwWitness.RwMap
import Mathlib.Data.List.Sort

/-! # Counter continuity

    `RwMap::check_rw_counter_sanity` sorts the counters of the records stored under
    keys other than `Start` and asserts `idx == rw_counter - 1` at each position. It
    runs in debug builds only, where `rw_counter - 1` panics at 0; this file models
    that build, with the two panics as `.error`.

    The check passes iff the counters are `1, …, N` in some order
    (`checkRwCounterSanity_ok_iff`), and a counter 0 sorts first and fails at the
    subtraction.
-/

namespace RwWitness

/-- The panics of `check_rw_counter_sanity` in a debug build. -/
inductive SanityPanic where
  /-- `rw_counter - 1` at `rw_counter = 0`. -/
  | subtractOverflow
  /-- `debug_assert_eq!(idx, rw_counter - 1)` with these two sides. -/
  | assertEq (left right : Nat)
  deriving DecidableEq, Repr

/-- `rw_counter - 1` with overflow checks. -/
def counterPred (c : Nat) : Except SanityPanic Nat :=
  if c = 0 then .error .subtractOverflow else .ok (c - 1)

/-- The loop of `check_rw_counter_sanity` from position `idx` on. -/
def checkCounters : Nat → List Nat → Except SanityPanic Unit
  | _, [] => .ok ()
  | idx, c :: cs => do
    let prev ← counterPred c
    if idx = prev then checkCounters (idx + 1) cs else .error (.assertEq idx prev)

namespace RwMap

/-- The counters of the records stored under the keys other than `Start`. -/
def nonStartCounters (m : RwMap) : List Nat :=
  ((m.groups.filter fun g => g.1 ≠ .start).flatMap Prod.snd).map Rw.rwCounter

/-- `RwMap::check_rw_counter_sanity` in a build with debug assertions. -/
def checkRwCounterSanity (m : RwMap) : Except SanityPanic Unit :=
  checkCounters 0 m.nonStartCounters.mergeSort

end RwMap

/-- The loop passes on a list iff it counts up from `idx + 1`. -/
theorem checkCounters_eq_ok_iff (idx : Nat) (l : List Nat) :
    checkCounters idx l = .ok () ↔ l = List.range' (idx + 1) l.length := by
  induction l generalizing idx with
  | nil => simp [checkCounters]
  | cons c cs ih =>
    simp only [checkCounters, List.length_cons, List.range'_succ, List.cons.injEq]
    by_cases hc : c = 0
    · simp [counterPred, hc, bind, Except.bind]
    by_cases hi : idx = c - 1
    · simp [counterPred, hc, hi, bind, Except.bind, ih]; omega
    · simp [counterPred, hc, hi, bind, Except.bind]; omega

theorem sorted_mergeSort_nat (l : List Nat) : (l.mergeSort).Pairwise (· ≤ ·) := by
  have := @List.sorted_mergeSort _ (fun a b : Nat => decide (a ≤ b))
    (fun _ _ _ hab hbc => by simp only [decide_eq_true_eq] at *; omega)
    (fun a b => by simpa using Nat.le_total a b) l
  exact this.imp fun h => by simpa using h

/-- Sorting then running the loop from 0 passes iff the list is `1, …, N` in some
    order. -/
theorem checkCounters_mergeSort_eq_ok_iff (l : List Nat) :
    checkCounters 0 l.mergeSort = .ok () ↔ l.Perm (List.range' 1 l.length) := by
  have hperm := List.mergeSort_perm l (fun a b => decide (a ≤ b))
  rw [checkCounters_eq_ok_iff, List.length_mergeSort]
  constructor
  · intro h; exact hperm.symm.trans (h ▸ List.Perm.refl _)
  · intro h
    exact List.eq_of_perm_of_sorted (hperm.trans h) (sorted_mergeSort_nat l)
      (List.pairwise_le_range' 1 _)

/-- A counter 0 sorts first and panics at the subtraction. -/
theorem checkCounters_mergeSort_of_zero_mem {l : List Nat} (h0 : 0 ∈ l) :
    checkCounters 0 l.mergeSort = .error .subtractOverflow := by
  have hperm := List.mergeSort_perm l (fun a b => decide (a ≤ b))
  have hsorted := sorted_mergeSort_nat l
  obtain ⟨c, cs, hcs⟩ : ∃ c cs, l.mergeSort = c :: cs := by
    cases hl : l.mergeSort with
    | nil => simp [← hperm.mem_iff, hl] at h0
    | cons c cs => exact ⟨c, cs, rfl⟩
  have hc : c = 0 := by
    rw [hcs, List.pairwise_cons] at hsorted
    rcases List.mem_cons.mp (hcs ▸ hperm.mem_iff.mpr h0) with h | h
    · exact h.symm
    · exact Nat.le_zero.mp (hsorted.1 0 h)
  simp [hcs, hc, checkCounters, counterPred, bind, Except.bind]

/-- Continuity: the debug check passes iff the non-`Start` counters are exactly
    `1, …, N` for `N` records, and a counter 0 panics at `rw_counter - 1`. -/
theorem checkRwCounterSanity_ok_iff (m : RwMap) :
    (m.checkRwCounterSanity = .ok () ↔
      m.nonStartCounters.Perm (List.range' 1 m.nonStartCounters.length)) ∧
    (0 ∈ m.nonStartCounters → m.checkRwCounterSanity = .error .subtractOverflow) :=
  ⟨checkCounters_mergeSort_eq_ok_iff _, checkCounters_mergeSort_of_zero_mem⟩

end RwWitness
