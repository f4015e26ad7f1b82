import RwWitness.Order
import Mathlib

/-! # Row encoding

    `Rw::table_assignment` projects a record onto the fourteen field elements of an
    `RwRow`, each 256-bit quantity as a low and a high 128-bit limb, and
    `RwRow::rlc` folds the row with a randomness `r` as
    `acc * r + value`, from the last element to the first. Over the fields the
    circuits use, of characteristic above `2 ^ 160`, the row binds the record
    (`tableAssignment_injective`), as long as a log index stays below bit 32, where
    `build_tx_log_address` packs the field tag (`txLog_rows_collide`).

    The fold is Horner's rule for the polynomial whose coefficients are the row, so
    two different rows share a digest at no more than 13 randomness values
    (`rlc_eq_encard_le`).
-/

namespace RwWitness

/-- Modelled from the spec: `util::word::Word<F>`, declared outside this file, a
    256-bit quantity as its low and high 128-bit limbs. -/
structure WordLimbs (F : Type) where
  lo : F
  hi : F

/-- Modelled from the spec: the limbs `util::word` splits a word into, as numbers:
    `value mod 2^128` and `value / 2^128`. -/
def wordLimbs (w : Word) : Nat × Nat := (w.toNat % 2 ^ 128, w.toNat / 2 ^ 128)

/-- Modelled from the spec: `word::Word::from(U256)`, each limb in the field. -/
def WordLimbs.ofWord {F : Type} [NatCast F] (w : Word) : WordLimbs F :=
  ⟨((wordLimbs w).1 : F), ((wordLimbs w).2 : F)⟩

/-- The limbs of a word are below `2^128` and recombine to the word. -/
theorem wordLimbs_recombine (w : Word) :
    (wordLimbs w).1 < 2 ^ 128 ∧ (wordLimbs w).2 < 2 ^ 128 ∧
    (wordLimbs w).2 * 2 ^ 128 + (wordLimbs w).1 = w.toNat := by
  have hw := w.isLt
  refine ⟨Nat.mod_lt _ (by norm_num), ?_, ?_⟩
  · simp only [wordLimbs]; omega
  · simp only [wordLimbs]; omega

/-- `RwRow<F>`, the assigned row of the RW table. -/
structure RwRow (F : Type) where
  rwCounter : F
  isWrite : F
  tag : F
  id : F
  address : F
  fieldTag : F
  storageKey : WordLimbs F
  value : WordLimbs F
  valuePrev : WordLimbs F
  initVal : WordLimbs F

namespace RwRow

variable {F : Type}

/-- `RwRow::values`. -/
def values (row : RwRow F) : List F :=
  [row.rwCounter, row.isWrite, row.tag, row.id, row.address, row.fieldTag,
    row.storageKey.lo, row.storageKey.hi, row.value.lo, row.value.hi,
    row.valuePrev.lo, row.valuePrev.hi, row.initVal.lo, row.initVal.hi]

@[simp] theorem length_values (row : RwRow F) : row.values.length = 14 := rfl

/-- `RwRow::rlc`. -/
def rlc [Field F] (row : RwRow F) (randomness : F) : F :=
  row.values.reverse.foldl (fun acc value => acc * randomness + value) 0

end RwRow

/-- `Rw::table_assignment`, with `Value::known` and `RwRow::unwrap` dropped; the
    address is its number in the field, as `to_scalar` gives it for the moduli
    above `2^160` the circuits use. -/
def Rw.tableAssignment {F : Type} [NatCast F] (r : Rw) : RwRow F where
  rwCounter := (r.rwCounter : F)
  isWrite := (r.isWrite.toNat : F)
  tag := (r.tag.toU64 : F)
  id := (r.id.getD 0 : F)
  address := ((r.address.getD 0).toNat : F)
  fieldTag := (r.fieldTag.getD 0 : F)
  storageKey := .ofWord (r.storageKey.getD 0)
  value := .ofWord r.valueAssignment
  valuePrev := .ofWord (r.valuePrevAssignment.getD 0)
  initVal := .ofWord (r.committedValueAssignment.getD 0)

/-! ## Section 1: The digest as a polynomial -/

section horner

open Polynomial

variable {F : Type} [Field F]

/-- Folding the reversed list is Horner's rule on the list, as a polynomial with
    the list's elements as coefficients, lowest first. -/
theorem foldl_reverse_eq_eval (l : List F) (r : F) :
    l.reverse.foldl (fun acc v => acc * r + v) 0 =
      (l.foldr (fun a p => C a + X * p) 0).eval r := by
  rw [List.foldl_reverse]
  induction l with
  | nil => simp
  | cons a l ih => simp [ih]; ring

theorem coeff_foldr_horner (l : List F) (i : ℕ) :
    (l.foldr (fun a p => C a + X * p) 0).coeff i = l.getD i 0 := by
  induction l generalizing i with
  | nil => simp
  | cons a l ih => cases i <;> simp [coeff_C, ih]

/-- Lists of one length that agree at every index are equal. -/
theorem eq_of_getD_eq {l l' : List F} (hl : l.length = l'.length)
    (h : ∀ i, l.getD i 0 = l'.getD i 0) : l = l' :=
  List.ext_getElem hl fun i h₁ h₂ => by
    simpa [List.getElem?_eq_getElem h₁, List.getElem?_eq_getElem h₂] using h i

/-- Two rows with different values agree in digest at no more than 13 randomness
    values: the difference of their digests is a nonzero polynomial of degree at
    most 13. -/
theorem rlc_eq_encard_le (a b : RwRow F) (h : a.values ≠ b.values) :
    {r : F | a.rlc r = b.rlc r}.encard ≤ 13 := by
  classical
  set P : F[X] := a.values.foldr (fun x p => C x + X * p) 0 -
    b.values.foldr (fun x p => C x + X * p) 0
  have hcoeff : ∀ i, P.coeff i = a.values.getD i 0 - b.values.getD i 0 := fun i => by
    simp [P, coeff_foldr_horner]
  have hP : P ≠ 0 := fun h0 => h <| eq_of_getD_eq rfl fun i => by
    rw [← sub_eq_zero, ← hcoeff, h0, coeff_zero]
  have hdeg : P.natDegree ≤ 13 := natDegree_le_iff_coeff_eq_zero.mpr fun N hN => by
    have : 14 ≤ N := by exact_mod_cast hN
    have ha : a.values[N]? = none := List.getElem?_eq_none (by simpa using this)
    have hb : b.values[N]? = none := List.getElem?_eq_none (by simpa using this)
    simp [hcoeff, ha, hb]
  have hsub : {r : F | a.rlc r = b.rlc r} ⊆ ↑P.roots.toFinset := fun r hr => by
    simp only [Set.mem_setOf_eq, RwRow.rlc, foldl_reverse_eq_eval] at hr
    simp [mem_roots hP, P, hr]
  calc {r : F | a.rlc r = b.rlc r}.encard
      ≤ (↑P.roots.toFinset : Set F).encard := Set.encard_le_card hsub
    _ = P.roots.toFinset.card := Set.encard_coe_eq_coe_finsetCard _
    _ ≤ Multiset.card P.roots := by exact_mod_cast Multiset.toFinset_card_le _
    _ ≤ P.natDegree := by exact_mod_cast card_roots' P
    _ ≤ 13 := by exact_mod_cast hdeg

/-- Two stack reads that differ in their value only. -/
theorem rlc_eq_encard_le_stack :
    ((Rw.stack 1 false 1 0 5).tableAssignment : RwRow ℚ).values ≠
      (Rw.stack 1 false 1 0 6).tableAssignment.values ∧
    {r : ℚ | (Rw.stack 1 false 1 0 5).tableAssignment.rlc r =
      (Rw.stack 1 false 1 0 6).tableAssignment.rlc r}.encard ≤ 13 :=
  have h : ((Rw.stack 1 false 1 0 5).tableAssignment : RwRow ℚ).values ≠
      (Rw.stack 1 false 1 0 6).tableAssignment.values := by
    simp [Rw.tableAssignment, RwRow.values, WordLimbs.ofWord, wordLimbs, Rw.valueAssignment]
  ⟨h, rlc_eq_encard_le _ _ h⟩

end horner

/-! ## Section 2: The row determines the record -/

/-- The record's numbers fit their columns: every `usize` field below `2 ^ 64`, as on
    the 64-bit targets the circuits run on, and a log index below bit 32, where
    `build_tx_log_address` puts the field tag. -/
def Rw.Fits : Rw → Prop
  | .start c | .account c .. => c < 2 ^ 64
  | .txAccessListAccount c _ t .. | .txAccessListAccountStorage c _ t .. | .txRefund c _ t ..
  | .txReceipt c _ t .. | .accountStorage c _ _ _ _ _ t _ | .callContext c _ t ..
  | .memory c _ t .. => c < 2 ^ 64 ∧ t < 2 ^ 64
  | .stack c _ i p _ => c < 2 ^ 64 ∧ i < 2 ^ 64 ∧ p < 2 ^ 64
  | .txLog c _ t _ _ i _ => c < 2 ^ 64 ∧ t < 2 ^ 64 ∧ i < 2 ^ 32

instance : (r : Rw) → Decidable r.Fits
  | .start c | .account c .. => inferInstanceAs (Decidable (c < 2 ^ 64))
  | .txAccessListAccount c _ t .. | .txAccessListAccountStorage c _ t .. | .txRefund c _ t ..
  | .txReceipt c _ t .. | .accountStorage c _ _ _ _ _ t _ | .callContext c _ t ..
  | .memory c _ t .. => inferInstanceAs (Decidable (c < 2 ^ 64 ∧ t < 2 ^ 64))
  | .stack c _ i p _ => inferInstanceAs (Decidable (c < 2 ^ 64 ∧ i < 2 ^ 64 ∧ p < 2 ^ 64))
  | .txLog c _ t _ _ i _ => inferInstanceAs (Decidable (c < 2 ^ 64 ∧ t < 2 ^ 64 ∧ i < 2 ^ 32))

theorem TxLogFieldTag.toU64_lt (t : TxLogFieldTag) : t.toU64 < 2 ^ 16 := by
  cases t <;> decide

theorem toAddress_inj {m n : Nat} (hm : m < 2 ^ 160) (hn : n < 2 ^ 160)
    (h : toAddress m = toAddress n) : m = n := by
  have := congrArg BitVec.toNat h
  rwa [toAddress, toAddress, BitVec.toNat_ofNat, BitVec.toNat_ofNat, Nat.mod_eq_of_lt hm,
    Nat.mod_eq_of_lt hn] at this

/-- With the index below bit 32, `build_tx_log_address` is one to one. -/
theorem buildTxLogAddress_inj {i j : Nat} {f g : TxLogFieldTag} {l k : UInt64}
    (hi : i < 2 ^ 32) (hj : j < 2 ^ 32) (h : buildTxLogAddress i f l = buildTxLogAddress j g k) :
    i = j ∧ f = g ∧ l = k := by
  have hf := f.toU64_lt
  have hg := g.toU64_lt
  have hl := l.toNat_lt
  have hk := k.toNat_lt
  have := toAddress_inj (by rw [Nat.shiftLeft_eq, Nat.shiftLeft_eq]; omega)
    (by rw [Nat.shiftLeft_eq, Nat.shiftLeft_eq]; omega) h
  rw [Nat.shiftLeft_eq, Nat.shiftLeft_eq, Nat.shiftLeft_eq, Nat.shiftLeft_eq] at this
  exact ⟨by omega, TxLogFieldTag.toU64_inj.mp (by omega), UInt64.toNat.inj (by omega)⟩

theorem bool_eq_of_toNat_eq {x y : Bool} (h : x.toNat = y.toNat) : x = y := by
  cases x <;> cases y <;> simp_all

/-- A number of at most 256 bits comes back from its word. -/
theorem word_ofNat_inj {m n : Nat} (hm : m < 2 ^ 256) (hn : n < 2 ^ 256)
    (h : (BitVec.ofNat 256 m : Word) = BitVec.ofNat 256 n) : m = n := by
  have := congrArg BitVec.toNat h
  rwa [BitVec.toNat_ofNat, BitVec.toNat_ofNat, Nat.mod_eq_of_lt hm, Nat.mod_eq_of_lt hn] at this

theorem word_ofNat_toNat_inj {α : Type} (toNat : α → Nat)
    (hinj : ∀ x y, toNat x = toNat y → x = y) (hlt : ∀ x, toNat x < 2 ^ 256) {x y : α} :
    (BitVec.ofNat 256 (toNat x) : Word) = BitVec.ofNat 256 (toNat y) ↔ x = y :=
  ⟨fun h => hinj x y (word_ofNat_inj (hlt x) (hlt y) h), fun h => h ▸ rfl⟩

@[simp] theorem word_ofNat_bool_inj {x y : Bool} :
    (BitVec.ofNat 256 x.toNat : Word) = BitVec.ofNat 256 y.toNat ↔ x = y :=
  word_ofNat_toNat_inj _ (fun _ _ => bool_eq_of_toNat_eq)
    fun x => (Bool.toNat_le x).trans_lt (by norm_num)

@[simp] theorem word_ofNat_uint8_inj {x y : UInt8} :
    (BitVec.ofNat 256 x.toNat : Word) = BitVec.ofNat 256 y.toNat ↔ x = y :=
  word_ofNat_toNat_inj _ (fun _ _ => UInt8.toNat.inj) fun x => x.toNat_lt.trans (by norm_num)

@[simp] theorem word_ofNat_uint64_inj {x y : UInt64} :
    (BitVec.ofNat 256 x.toNat : Word) = BitVec.ofNat 256 y.toNat ↔ x = y :=
  word_ofNat_toNat_inj _ (fun _ _ => UInt64.toNat.inj) fun x => x.toNat_lt.trans (by norm_num)

/-- The limbs of a word over `ℕ` give back the word. -/
theorem eq_of_ofWord_eq {w w' : Word}
    (h : (WordLimbs.ofWord w : WordLimbs ℕ) = WordLimbs.ofWord w') : w = w' := by
  have hlo := congrArg WordLimbs.lo h
  have hhi := congrArg WordLimbs.hi h
  simp only [WordLimbs.ofWord, Nat.cast_id] at hlo hhi
  exact BitVec.eq_of_toNat_eq (by
    rw [← (wordLimbs_recombine w).2.2, ← (wordLimbs_recombine w').2.2, hlo, hhi])

/-- A row over `ℕ` gives back each column of the record. -/
theorem columns_of_tableAssignment_eq {a b : Rw}
    (h : (a.tableAssignment : RwRow ℕ) = b.tableAssignment) :
    a.rwCounter = b.rwCounter ∧ a.isWrite = b.isWrite ∧ a.tag = b.tag ∧
    a.id.getD 0 = b.id.getD 0 ∧ a.address.getD 0 = b.address.getD 0 ∧
    a.fieldTag.getD 0 = b.fieldTag.getD 0 ∧ a.storageKey.getD 0 = b.storageKey.getD 0 ∧
    a.valueAssignment = b.valueAssignment ∧
    a.valuePrevAssignment.getD 0 = b.valuePrevAssignment.getD 0 ∧
    a.committedValueAssignment.getD 0 = b.committedValueAssignment.getD 0 := by
  simp only [Rw.tableAssignment, RwRow.mk.injEq, Nat.cast_id] at h
  obtain ⟨hc, hw, ht, hi, ha, hf, hk, hv, hp, hin⟩ := h
  exact ⟨hc, bool_eq_of_toNat_eq hw, Target.toU64_injective ht, hi, BitVec.eq_of_toNat_eq ha,
    hf, eq_of_ofWord_eq hk, eq_of_ofWord_eq hv, eq_of_ofWord_eq hp, eq_of_ofWord_eq hin⟩

/-- Records whose numbers fit and whose columns agree are the same record: the kind
    is the tag, and each field is a column or, for stack and log rows, packed into the
    address. -/
theorem eq_of_columns {a b : Rw} (ha : a.Fits) (hb : b.Fits)
    (hcol : a.rwCounter = b.rwCounter ∧ a.isWrite = b.isWrite ∧ a.tag = b.tag ∧
      a.id.getD 0 = b.id.getD 0 ∧ a.address.getD 0 = b.address.getD 0 ∧
      a.fieldTag.getD 0 = b.fieldTag.getD 0 ∧ a.storageKey.getD 0 = b.storageKey.getD 0 ∧
      a.valueAssignment = b.valueAssignment ∧
      a.valuePrevAssignment.getD 0 = b.valuePrevAssignment.getD 0 ∧
      a.committedValueAssignment.getD 0 = b.committedValueAssignment.getD 0) : a = b := by
  obtain ⟨hc, hw, ht, hi, hd, hf, hk, hv, hp, hn⟩ := hcol
  cases a <;> cases b <;> simp only [Rw.tag, reduceCtorEq] at ht <;>
    simp only [Rw.rwCounter, Rw.isWrite, Rw.id, Rw.address, Rw.fieldTag, Rw.storageKey,
      Rw.valueAssignment, Rw.valuePrevAssignment, Rw.committedValueAssignment, Rw.Fits,
      Option.getD_some, Option.getD_none] at *
  case stack.stack c w i p v c' w' i' p' v' =>
    obtain rfl := toAddress_inj (ha.2.2.trans (by norm_num)) (hb.2.2.trans (by norm_num)) hd
    simp_all
  case memory.memory c w i d y c' w' i' d' y' =>
    obtain rfl := UInt64.toNat.inj <|
      toAddress_inj (d.toNat_lt.trans (by norm_num)) (d'.toNat_lt.trans (by norm_num)) hd
    simp_all
  case txLog.txLog c w i l f x v c' w' i' l' f' x' v' =>
    obtain ⟨rfl, rfl, rfl⟩ := buildTxLogAddress_inj ha.2.2 hb.2.2 hd
    simp_all
  all_goals simp_all [AccountFieldTag.toU64_inj, CallContextFieldTag.toU64_inj,
    TxReceiptFieldTag.toU64_inj]

theorem RwRow.eq_of_values_eq {F : Type} {a b : RwRow F} (h : a.values = b.values) : a = b := by
  obtain ⟨_, _, _, _, _, _, ⟨_, _⟩, ⟨_, _⟩, ⟨_, _⟩, ⟨_, _⟩⟩ := a
  obtain ⟨_, _, _, _, _, _, ⟨_, _⟩, ⟨_, _⟩, ⟨_, _⟩, ⟨_, _⟩⟩ := b
  simp_all [RwRow.values]

/-- Every number of the row over `ℕ` of a record that fits is below `2 ^ 160`. -/
theorem tableAssignment_values_lt {r : Rw} (hr : r.Fits) :
    ∀ x ∈ (r.tableAssignment : RwRow ℕ).values, x < 2 ^ 160 := by
  have hc : r.rwCounter < 2 ^ 64 ∧ r.id.getD 0 < 2 ^ 64 := by
    cases r <;> simp_all [Rw.Fits, Rw.rwCounter, Rw.id]
  have ht : r.tag.toU64 < 2 ^ 160 := by cases r.tag <;> decide
  have hf : r.fieldTag.getD 0 < 2 ^ 160 := by
    cases r with
    | account _ _ _ f => exact (show f.toU64 < 4 by cases f <;> decide).trans (by norm_num)
    | callContext _ _ _ f => exact (show f.toU64 < 26 by cases f <;> decide).trans (by norm_num)
    | txReceipt _ _ _ f => exact (show f.toU64 < 4 by cases f <;> decide).trans (by norm_num)
    | _ => simp [Rw.fieldTag]
  have hd := (r.address.getD 0).isLt
  have hw := Bool.toNat_le r.isWrite
  have hk := wordLimbs_recombine (r.storageKey.getD 0)
  have hv := wordLimbs_recombine r.valueAssignment
  have hp := wordLimbs_recombine (r.valuePrevAssignment.getD 0)
  have hn := wordLimbs_recombine (r.committedValueAssignment.getD 0)
  simp only [RwRow.values, Rw.tableAssignment, WordLimbs.ofWord, Nat.cast_id, List.mem_cons,
    List.mem_singleton, List.not_mem_nil, or_false]
  rintro x (rfl | rfl | rfl | rfl | rfl | rfl | rfl | rfl | rfl | rfl | rfl | rfl | rfl | rfl) <;>
    omega

/-- Below the characteristic, a number comes back from its field element. -/
theorem natCast_inj_of_lt {F : Type} [Field F] (hF : ringChar F = 0 ∨ 2 ^ 160 < ringChar F)
    {m n : ℕ} (hm : m < 2 ^ 160) (hn : n < 2 ^ 160) (h : (m : F) = n) : m = n := by
  have := (CharP.natCast_eq_natCast F (ringChar F)).mp h
  rcases hF with h0 | hp
  · rw [h0] at this
    simpa [Nat.ModEq] using this
  · exact this.eq_of_lt_of_lt (hm.trans hp) (hn.trans hp)

/-- The row binds the record: over a field of characteristic 0 or above `2 ^ 160`, two
    records whose numbers fit their columns and whose rows agree are the same record. -/
theorem tableAssignment_injective {F : Type} [Field F]
    (hF : ringChar F = 0 ∨ 2 ^ 160 < ringChar F) {a b : Rw} (ha : a.Fits) (hb : b.Fits)
    (h : (a.tableAssignment : RwRow F) = b.tableAssignment) : a = b := by
  have hmap : (a.tableAssignment : RwRow ℕ).values.map (Nat.cast : ℕ → F) =
      (b.tableAssignment : RwRow ℕ).values.map Nat.cast := congrArg RwRow.values h
  have hrow : (a.tableAssignment : RwRow ℕ) = b.tableAssignment :=
    RwRow.eq_of_values_eq <| eq_of_map_eq_of_injOn _ hmap fun x hx y hy =>
      natCast_inj_of_lt hF (tableAssignment_values_lt ha x hx) (tableAssignment_values_lt hb y hy)
  exact eq_of_columns ha hb (columns_of_tableAssignment_eq hrow)

theorem tableAssignment_injective_stack :
    (ringChar ℚ = 0 ∨ 2 ^ 160 < ringChar ℚ) ∧ (Rw.stack 1 false 1 0 5).Fits ∧
    (Rw.stack 1 false 1 0 5).Fits ∧
    ((Rw.stack 1 false 1 0 5).tableAssignment : RwRow ℚ) =
      (Rw.stack 1 false 1 0 5).tableAssignment ∧
    Rw.stack 1 false 1 0 5 = .stack 1 false 1 0 5 :=
  have hF : ringChar ℚ = 0 ∨ 2 ^ 160 < ringChar ℚ := .inl ringChar.eq_zero
  have hs : (Rw.stack 1 false 1 0 5).Fits := by decide
  ⟨hF, hs, hs, rfl, tableAssignment_injective hF hs hs rfl⟩

/-- Past bit 32 a log index runs into the log id, so `tableAssignment_injective` needs
    the index bound of `Rw.Fits`: two logs, the index `2 ^ 48` with log id 0 and the
    index 0 with log id 1, within every other bound, have one row over every field. -/
theorem txLog_rows_collide :
    Rw.txLog 1 false 1 0 .data (2 ^ 48) 5 ≠ .txLog 1 false 1 1 .data 0 5 ∧
    ¬ (Rw.txLog 1 false 1 0 .data (2 ^ 48) 5).Fits ∧ (Rw.txLog 1 false 1 1 .data 0 5).Fits ∧
    ∀ (F : Type) [Field F], ((Rw.txLog 1 false 1 0 .data (2 ^ 48) 5).tableAssignment : RwRow F) =
      (Rw.txLog 1 false 1 1 .data 0 5).tableAssignment := by
  have h : buildTxLogAddress (2 ^ 48) .data 0 = buildTxLogAddress 0 .data 1 := by decide
  exact ⟨by decide, by decide, by decide,
    fun F _ => by simp only [Rw.tableAssignment, Rw.address, h]; rfl⟩

end RwWitness
