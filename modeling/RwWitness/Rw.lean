import Mathlib.Data.Prod.Lex

/-! # Read-write records

    `Rw` of `witness/rw.rs`: one constructor per resource kind, each with its
    `rw_counter`, the fields naming the resource and the value fields, and the
    projections that the canonical table, the value check and the row encoder read.

    Machine types: `usize` is `Nat` (its values stay below `2^64`, so the `as u64`
    casts are the identity); `u64` and `u8` are `UInt64` and `UInt8`; `Address`
    (H160) and `Word` (U256) are bit vectors of their widths. A Rust
    `unreachable!()` or a failed `debug_assert_eq!` is `none`.
-/

namespace RwWitness

/-- Modelled from the spec: `eth_types::Address` (H160), declared outside this file. -/
abbrev Address := BitVec 160

/-- Modelled from the spec: `eth_types::Word` (U256), declared outside this file. -/
abbrev Word := BitVec 256

/-- Modelled from the spec: `U256::from(n).to_address()` of `eth_types`, the low
    160 bits of `n`. -/
def toAddress (n : Nat) : Address := BitVec.ofNat 160 n

/-! ## Section 1: Tags -/

/-- Modelled from the spec: `bus_mapping::operation::Target`, declared outside this
    file, the resource a row belongs to. -/
inductive Target where
  | start
  | memory
  | stack
  | storage
  | txAccessListAccount
  | txAccessListAccountStorage
  | txRefund
  | account
  | callContext
  | txReceipt
  | txLog
  deriving DecidableEq, Repr

/-- Modelled from the spec: `Target as u64`. `Target` is declared in `bus_mapping`,
    outside this file; the spec makes its ordinal the primary sort key, with
    `Start` first. The discriminants follow the declaration order from `Start = 1`. -/
def Target.toU64 (t : Target) : Nat := t.toCtorIdx + 1

/-- A discriminant `toCtorIdx + 1` is one to one, the enumeration's `ofNat` inverting
    `toCtorIdx`. -/
theorem discriminant_inj {α : Type} {idx : α → Nat} {ofNat : Nat → α}
    (h : Function.LeftInverse ofNat idx) {a b : α} : idx a + 1 = idx b + 1 ↔ a = b :=
  ⟨fun hab => h.injective (Nat.add_right_cancel hab), fun hab => hab ▸ rfl⟩

theorem Target.toU64_injective : Function.Injective Target.toU64 := fun _ _ h =>
  (discriminant_inj Target.ofNat_toCtorIdx).mp h

/-- `Start` has the least ordinal, so `Start` rows sort before all others. -/
theorem Target.toU64_start_lt {t : Target} (h : t ≠ .start) :
    Target.start.toU64 < t.toU64 := by
  cases t <;> first | exact absurd rfl h | decide

/-- Modelled from the spec: `table::AccountFieldTag`, declared outside this file,
    with the variants the builder produces. -/
inductive AccountFieldTag where
  | nonce
  | balance
  | codeHash
  deriving DecidableEq, Repr

/-- Modelled from the spec: `table::CallContextFieldTag`, declared outside this file. -/
inductive CallContextFieldTag where
  | rwCounterEndOfReversion
  | callerId
  | txId
  | depth
  | callerAddress
  | calleeAddress
  | callDataOffset
  | callDataLength
  | returnDataOffset
  | returnDataLength
  | value
  | isSuccess
  | isPersistent
  | isStatic
  | lastCalleeId
  | lastCalleeReturnDataOffset
  | lastCalleeReturnDataLength
  | isRoot
  | isCreate
  | codeHash
  | programCounter
  | stackPointer
  | gasLeft
  | memorySize
  | reversibleWriteCounter
  deriving DecidableEq, Repr

/-- Modelled from the spec: `table::TxLogFieldTag`, declared outside this file. -/
inductive TxLogFieldTag where
  | address
  | topic
  | data
  deriving DecidableEq, Repr

/-- Modelled from the spec: `table::TxReceiptFieldTag`, declared outside this file. -/
inductive TxReceiptFieldTag where
  | postStateOrStatus
  | logLength
  | cumulativeGasUsed
  deriving DecidableEq, Repr

/-- Modelled from the spec: the `as u64` discriminants of the field tags, declared in
    `crate::table` outside this file, numbered in declaration order from 1. -/
def AccountFieldTag.toU64 (t : AccountFieldTag) : Nat := t.toCtorIdx + 1

/-- Modelled from the spec: see `AccountFieldTag.toU64`. -/
def CallContextFieldTag.toU64 (t : CallContextFieldTag) : Nat := t.toCtorIdx + 1

/-- Modelled from the spec: see `AccountFieldTag.toU64`. -/
def TxLogFieldTag.toU64 (t : TxLogFieldTag) : Nat := t.toCtorIdx + 1

/-- Modelled from the spec: see `AccountFieldTag.toU64`. -/
def TxReceiptFieldTag.toU64 (t : TxReceiptFieldTag) : Nat := t.toCtorIdx + 1

/-- Modelled from the spec: `util::build_tx_log_address`, outside this file, packs
    `(index, field_tag, log_id)` into one address, `field_tag` in one 16-bit limb. -/
def buildTxLogAddress (index : Nat) (fieldTag : TxLogFieldTag) (logId : UInt64) : Address :=
  toAddress (index + (fieldTag.toU64 <<< 32) + (logId.toNat <<< 48))

theorem AccountFieldTag.toU64_inj {a b : AccountFieldTag} : a.toU64 = b.toU64 ↔ a = b :=
  discriminant_inj AccountFieldTag.ofNat_toCtorIdx

theorem CallContextFieldTag.toU64_inj {a b : CallContextFieldTag} :
    a.toU64 = b.toU64 ↔ a = b :=
  discriminant_inj CallContextFieldTag.ofNat_toCtorIdx

theorem TxLogFieldTag.toU64_inj {a b : TxLogFieldTag} : a.toU64 = b.toU64 ↔ a = b :=
  discriminant_inj TxLogFieldTag.ofNat_toCtorIdx

theorem TxReceiptFieldTag.toU64_inj {a b : TxReceiptFieldTag} : a.toU64 = b.toU64 ↔ a = b :=
  discriminant_inj TxReceiptFieldTag.ofNat_toCtorIdx

/-! ## Section 2: Records -/

/-- `Rw`: one read or write of one resource, in the field order of the source. -/
inductive Rw where
  | start (rwCounter : Nat)
  | txAccessListAccount (rwCounter : Nat) (isWrite : Bool) (txId : Nat)
      (accountAddress : Address) (isWarm isWarmPrev : Bool)
  | txAccessListAccountStorage (rwCounter : Nat) (isWrite : Bool) (txId : Nat)
      (accountAddress : Address) (storageKey : Word) (isWarm isWarmPrev : Bool)
  | txRefund (rwCounter : Nat) (isWrite : Bool) (txId : Nat) (value valuePrev : UInt64)
  | account (rwCounter : Nat) (isWrite : Bool) (accountAddress : Address)
      (fieldTag : AccountFieldTag) (value valuePrev : Word)
  | accountStorage (rwCounter : Nat) (isWrite : Bool) (accountAddress : Address)
      (storageKey value valuePrev : Word) (txId : Nat) (committedValue : Word)
  | callContext (rwCounter : Nat) (isWrite : Bool) (callId : Nat)
      (fieldTag : CallContextFieldTag) (value : Word)
  | stack (rwCounter : Nat) (isWrite : Bool) (callId stackPointer : Nat) (value : Word)
  | memory (rwCounter : Nat) (isWrite : Bool) (callId : Nat) (memoryAddress : UInt64)
      (byte : UInt8)
  | txLog (rwCounter : Nat) (isWrite : Bool) (txId : Nat) (logId : UInt64)
      (fieldTag : TxLogFieldTag) (index : Nat) (value : Word)
  | txReceipt (rwCounter : Nat) (isWrite : Bool) (txId : Nat) (fieldTag : TxReceiptFieldTag)
      (value : UInt64)
  deriving DecidableEq, Repr

namespace Rw

/-- `matches!(rw, Rw::Start { .. })`. -/
def isStart : Rw → Bool
  | start _ => true
  | _ => false

/-- `Rw::rw_counter`. -/
def rwCounter : Rw → Nat
  | start c | memory c .. | stack c .. | accountStorage c .. | txAccessListAccount c ..
  | txAccessListAccountStorage c .. | txRefund c .. | account c .. | callContext c ..
  | txLog c .. | txReceipt c .. => c

/-- `Rw::is_write`. -/
def isWrite : Rw → Bool
  | start _ => false
  | memory _ w .. | stack _ w .. | accountStorage _ w .. | txAccessListAccount _ w ..
  | txAccessListAccountStorage _ w .. | txRefund _ w .. | account _ w .. | callContext _ w ..
  | txLog _ w .. | txReceipt _ w .. => w

/-- `Rw::tag`. -/
def tag : Rw → Target
  | start .. => .start
  | memory .. => .memory
  | stack .. => .stack
  | accountStorage .. => .storage
  | txAccessListAccount .. => .txAccessListAccount
  | txAccessListAccountStorage .. => .txAccessListAccountStorage
  | txRefund .. => .txRefund
  | account .. => .account
  | callContext .. => .callContext
  | txLog .. => .txLog
  | txReceipt .. => .txReceipt

/-- `Rw::id`: the transaction id or the call id. -/
def id : Rw → Option Nat
  | accountStorage _ _ _ _ _ _ i _ | txAccessListAccount _ _ i ..
  | txAccessListAccountStorage _ _ i .. | txRefund _ _ i .. | txLog _ _ i ..
  | txReceipt _ _ i .. => some i
  | callContext _ _ i .. | stack _ _ i .. | memory _ _ i .. => some i
  | start .. | account .. => none

/-- `Rw::address`: an account address, or one synthesized from a memory offset,
    a stack pointer or a log position. -/
def address : Rw → Option Address
  | txAccessListAccount _ _ _ a .. | txAccessListAccountStorage _ _ _ a ..
  | account _ _ a .. | accountStorage _ _ a .. => some a
  | memory _ _ _ a _ => some (toAddress a.toNat)
  | stack _ _ _ p _ => some (toAddress p)
  | txLog _ _ _ logId f index _ => some (buildTxLogAddress index f logId)
  | start .. | callContext .. | txRefund .. | txReceipt .. => none

/-- `Rw::field_tag`. -/
def fieldTag : Rw → Option Nat
  | account _ _ _ f .. => some f.toU64
  | callContext _ _ _ f _ => some f.toU64
  | txReceipt _ _ _ f _ => some f.toU64
  | start .. | memory .. | stack .. | accountStorage .. | txAccessListAccount ..
  | txAccessListAccountStorage .. | txRefund .. | txLog .. => none

/-- `Rw::storage_key`. -/
def storageKey : Rw → Option Word
  | accountStorage _ _ _ k .. | txAccessListAccountStorage _ _ _ _ k .. => some k
  | start .. | callContext .. | stack .. | memory .. | txRefund .. | account ..
  | txAccessListAccount .. | txLog .. | txReceipt .. => none

/-- `Rw::value_assignment`: the value column as a word. -/
def valueAssignment : Rw → Word
  | start .. => 0
  | callContext _ _ _ _ v | account _ _ _ _ v _ | accountStorage _ _ _ _ v .. | stack _ _ _ _ v
  | txLog _ _ _ _ _ _ v => v
  | txAccessListAccount _ _ _ _ w _ | txAccessListAccountStorage _ _ _ _ _ w _ =>
      BitVec.ofNat 256 w.toNat
  | memory _ _ _ _ b => BitVec.ofNat 256 b.toNat
  | txRefund _ _ _ v _ | txReceipt _ _ _ _ v => BitVec.ofNat 256 v.toNat

/-- `Rw::value_prev_assignment`. -/
def valuePrevAssignment : Rw → Option Word
  | account _ _ _ _ _ p | accountStorage _ _ _ _ _ p .. => some p
  | txAccessListAccount _ _ _ _ _ p | txAccessListAccountStorage _ _ _ _ _ _ p =>
      some (BitVec.ofNat 256 p.toNat)
  | txRefund _ _ _ _ p => some (BitVec.ofNat 256 p.toNat)
  | start .. | stack .. | memory .. | callContext .. | txLog .. | txReceipt .. => none

/-- `Rw::committed_value_assignment`. -/
def committedValueAssignment : Rw → Option Word
  | accountStorage _ _ _ _ _ _ _ c => some c
  | _ => none

@[simp] theorem isStart_start (c : Nat) : (start c).isStart = true := rfl
@[simp] theorem rwCounter_start (c : Nat) : (start c).rwCounter = c := rfl
@[simp] theorem isWrite_start (c : Nat) : (start c).isWrite = false := rfl
@[simp] theorem tag_start (c : Nat) : (start c).tag = .start := rfl
@[simp] theorem valueAssignment_start (c : Nat) : (start c).valueAssignment = 0 := rfl

theorem isStart_iff_tag {r : Rw} : r.isStart = true ↔ r.tag = .start := by
  cases r <;> simp [isStart, tag]

/-- The `Start` rows are the records `Start { rw_counter }`. -/
theorem eq_start_iff {r : Rw} : r.isStart = true ↔ ∃ c, r = start c := by
  cases r <;> simp [isStart]

/-! ## Section 3: Typed accessors

    The accessors the circuits call on a row of a known kind. Each is
    `unreachable!()` on the other kinds. -/

/-- `Rw::tx_access_list_value_pair`. -/
def txAccessListValuePair : Rw → Option (Bool × Bool)
  | txAccessListAccount _ _ _ _ w p | txAccessListAccountStorage _ _ _ _ _ w p => some (w, p)
  | _ => none

/-- `Rw::tx_refund_value_pair`. -/
def txRefundValuePair : Rw → Option (UInt64 × UInt64)
  | txRefund _ _ _ v p => some (v, p)
  | _ => none

/-- The body of `account_balance_pair`, `account_nonce_pair` and
    `account_codehash_pair`: the value pair of an `Account` row, whose `field_tag`
    each `debug_assert_eq!`s against its own. -/
def accountPair (expected : AccountFieldTag) : Rw → Option (Word × Word)
  | account _ _ _ f v p => if f = expected then some (v, p) else none
  | _ => none

/-- `Rw::account_balance_pair`. -/
def accountBalancePair : Rw → Option (Word × Word) := accountPair .balance

/-- `Rw::account_nonce_pair`. -/
def accountNoncePair : Rw → Option (Word × Word) := accountPair .nonce

/-- `Rw::account_codehash_pair`. -/
def accountCodehashPair : Rw → Option (Word × Word) := accountPair .codeHash

/-- `Rw::aux_pair`: the transaction id and the committed value of a storage row. -/
def auxPair : Rw → Option (Nat × Word)
  | accountStorage _ _ _ _ _ _ t c => some (t, c)
  | _ => none

/-- `Rw::storage_value_aux`. -/
def storageValueAux : Rw → Option (Word × Word × Nat × Word)
  | accountStorage _ _ _ _ v p t c => some (v, p, t, c)
  | _ => none

/-- `Rw::call_context_value`. -/
def callContextValue : Rw → Option Word
  | callContext _ _ _ _ v => some v
  | _ => none

/-- `Rw::stack_value`. -/
def stackValue : Rw → Option Word
  | stack _ _ _ _ v => some v
  | _ => none

/-- `Rw::receipt_value`. -/
def receiptValue : Rw → Option UInt64
  | txReceipt _ _ _ _ v => some v
  | _ => none

/-- `Rw::memory_value`. -/
def memoryValue : Rw → Option UInt8
  | memory _ _ _ _ b => some b
  | _ => none

/-- The typed accessors agree with the table columns: what an accessor returns is
    the row's value column, with its previous value, committed value, transaction id
    or field tag where the kind has one, each at its width in a word. -/
theorem accessors_agree_with_columns (r : Rw) :
    (∀ w p, r.txAccessListValuePair = some (w, p) →
      r.valueAssignment = BitVec.ofNat 256 w.toNat ∧
      r.valuePrevAssignment = some (BitVec.ofNat 256 p.toNat)) ∧
    (∀ v p, r.txRefundValuePair = some (v, p) →
      r.valueAssignment = BitVec.ofNat 256 v.toNat ∧
      r.valuePrevAssignment = some (BitVec.ofNat 256 p.toNat)) ∧
    (∀ f v p, r.accountPair f = some (v, p) →
      r.fieldTag = some f.toU64 ∧ r.valueAssignment = v ∧ r.valuePrevAssignment = some p) ∧
    (∀ v p t c, r.storageValueAux = some (v, p, t, c) →
      r.auxPair = some (t, c) ∧ r.valueAssignment = v ∧ r.valuePrevAssignment = some p ∧
      r.id = some t ∧ r.committedValueAssignment = some c) ∧
    (∀ v, r.callContextValue = some v ∨ r.stackValue = some v → r.valueAssignment = v) ∧
    (∀ v, r.receiptValue = some v → r.valueAssignment = BitVec.ofNat 256 v.toNat) ∧
    (∀ b, r.memoryValue = some b → r.valueAssignment = BitVec.ofNat 256 b.toNat) := by
  cases r <;> simp [txAccessListValuePair, txRefundValuePair, accountPair,
    storageValueAux, auxPair, callContextValue, stackValue, receiptValue, memoryValue,
    valueAssignment, valuePrevAssignment, fieldTag, id, committedValueAssignment]
  case accountStorage => rintro _ _ _ _ rfl rfl rfl rfl; simp

end Rw

end RwWitness
