import RwWitness.Order
import RwWitness.Sanity

/-! # Building the RW container

    `impl From<&OperationContainer> for RwMap` turns the per-target operation lists
    of `bus_mapping` into `Rw` records: each operation keeps its `rwc` as
    `rw_counter` and its `rw()` as `is_write`, and each external field kind is
    mapped to its table tag (`AccountField.toTag` and its siblings). The eleven
    lists go into the `HashMap` under eleven distinct targets, so no group
    overwrites another and indexing the map by `(target, i)` finds the record of
    the `i`-th operation of that target (`index_ofContainer`). A `HashMap` has no
    fixed iteration order, so the results about the built map hold for every map
    whose groups are those of `RwMap.ofContainer c` in any order
    (`RwMap.BuiltFrom`). Downstream, the debug counter check on the built map is a
    check on the container: its operations off `Start` must carry the counters
    `1, …, N` (`checkRwCounterSanity_ofContainer`).

    The operation types live in `bus_mapping`, outside this file; they carry here
    the fields the builder reads.
-/

namespace RwWitness

/-! ## Section 1: Operations -/

/-- Modelled from the spec: `bus_mapping::operation::RW`, declared outside this file. -/
inductive RW where
  | read
  | write
  deriving DecidableEq, Repr

/-- Modelled from the spec: `RW::is_write`. -/
def RW.isWrite : RW → Bool
  | .read => false
  | .write => true

/-- Modelled from the spec: `bus_mapping::operation::Operation<T>`: the counter
    `rwc`, the direction `rw` and the payload `op`. -/
structure Operation (T : Type) where
  rwc : Nat
  rw : RW
  op : T

/-- Modelled from the spec: `StartOp`, the padding operation. -/
structure StartOp where
  deriving DecidableEq, Repr

/-- Modelled from the spec: `TxAccessListAccountOp`, the fields the builder reads. -/
structure TxAccessListAccountOp where
  txId : Nat
  address : Address
  isWarm : Bool
  isWarmPrev : Bool

/-- Modelled from the spec: `TxAccessListAccountStorageOp`, the fields the builder
    reads. -/
structure TxAccessListAccountStorageOp where
  txId : Nat
  address : Address
  key : Word
  isWarm : Bool
  isWarmPrev : Bool

/-- Modelled from the spec: `TxRefundOp`, the fields the builder reads. -/
structure TxRefundOp where
  txId : Nat
  value : UInt64
  valuePrev : UInt64

/-- Modelled from the spec: `operation::AccountField`. -/
inductive AccountField where
  | nonce
  | balance
  | codeHash
  deriving DecidableEq, Repr

/-- Modelled from the spec: `AccountOp`, the fields the builder reads. -/
structure AccountOp where
  address : Address
  field : AccountField
  value : Word
  valuePrev : Word

/-- Modelled from the spec: `StorageOp`, the fields the builder reads. -/
structure StorageOp where
  address : Address
  key : Word
  value : Word
  valuePrev : Word
  txId : Nat
  committedValue : Word

/-- Modelled from the spec: `operation::CallContextField`. -/
inductive CallContextField where
  | rwCounterEndOfReversion
  | callerId
  | txId
  | depth
  | callerAddress
  | calleeAddress
  | callDataOffset
  | callDataLength
  | returnDataOffset
  | returnDataLength
  | value
  | isSuccess
  | isPersistent
  | isStatic
  | lastCalleeId
  | lastCalleeReturnDataOffset
  | lastCalleeReturnDataLength
  | isRoot
  | isCreate
  | codeHash
  | programCounter
  | stackPointer
  | gasLeft
  | memorySize
  | reversibleWriteCounter
  deriving DecidableEq, Repr

/-- Modelled from the spec: `CallContextOp`, the fields the builder reads. -/
structure CallContextOp where
  callId : Nat
  field : CallContextField
  value : Word

/-- Modelled from the spec: `StackOp`, its `StackAddress` as the `usize` it wraps. -/
structure StackOp where
  callId : Nat
  address : Nat
  value : Word

/-- Modelled from the spec: `MemoryOp`, its `MemoryAddress` as the `usize` it wraps. -/
structure MemoryOp where
  callId : Nat
  address : Nat
  value : UInt8

/-- Modelled from the spec: `operation::TxLogField`. -/
inductive TxLogField where
  | address
  | topic
  | data
  deriving DecidableEq, Repr

/-- Modelled from the spec: `TxLogOp`, the fields the builder reads. -/
structure TxLogOp where
  txId : Nat
  logId : Nat
  field : TxLogField
  index : Nat
  value : Word

/-- Modelled from the spec: `operation::TxReceiptField`. -/
inductive TxReceiptField where
  | postStateOrStatus
  | logLength
  | cumulativeGasUsed
  deriving DecidableEq, Repr

/-- Modelled from the spec: `TxReceiptOp`, the fields the builder reads. -/
structure TxReceiptOp where
  txId : Nat
  field : TxReceiptField
  value : UInt64

/-- Modelled from the spec: the payload type `bus_mapping` gives each target's
    operations. -/
def Target.OpType : Target → Type
  | .start => StartOp
  | .memory => MemoryOp
  | .stack => StackOp
  | .storage => StorageOp
  | .txAccessListAccount => TxAccessListAccountOp
  | .txAccessListAccountStorage => TxAccessListAccountStorageOp
  | .txRefund => TxRefundOp
  | .account => AccountOp
  | .callContext => CallContextOp
  | .txReceipt => TxReceiptOp
  | .txLog => TxLogOp

/-- Modelled from the spec: `operation::OperationContainer`, declared outside this
    file: one operation list per target. -/
structure OperationContainer where
  start : List (Operation StartOp)
  txAccessListAccount : List (Operation TxAccessListAccountOp)
  txAccessListAccountStorage : List (Operation TxAccessListAccountStorageOp)
  txRefund : List (Operation TxRefundOp)
  account : List (Operation AccountOp)
  storage : List (Operation StorageOp)
  callContext : List (Operation CallContextOp)
  stack : List (Operation StackOp)
  memory : List (Operation MemoryOp)
  txLog : List (Operation TxLogOp)
  txReceipt : List (Operation TxReceiptOp)

/-- Modelled from the spec: the container's list for target `t`. -/
def OperationContainer.ops (c : OperationContainer) : (t : Target) → List (Operation t.OpType)
  | .start => c.start
  | .memory => c.memory
  | .stack => c.stack
  | .storage => c.storage
  | .txAccessListAccount => c.txAccessListAccount
  | .txAccessListAccountStorage => c.txAccessListAccountStorage
  | .txRefund => c.txRefund
  | .account => c.account
  | .callContext => c.callContext
  | .txReceipt => c.txReceipt
  | .txLog => c.txLog

/-! ## Section 2: The conversion -/

/-- The `match op.op().field` of the `Account` arm. -/
def AccountField.toTag : AccountField → AccountFieldTag
  | .nonce => .nonce
  | .balance => .balance
  | .codeHash => .codeHash

/-- The `match op.op().field` of the `CallContext` arm. -/
def CallContextField.toTag : CallContextField → CallContextFieldTag
  | .rwCounterEndOfReversion => .rwCounterEndOfReversion
  | .callerId => .callerId
  | .txId => .txId
  | .depth => .depth
  | .callerAddress => .callerAddress
  | .calleeAddress => .calleeAddress
  | .callDataOffset => .callDataOffset
  | .callDataLength => .callDataLength
  | .returnDataOffset => .returnDataOffset
  | .returnDataLength => .returnDataLength
  | .value => .value
  | .isSuccess => .isSuccess
  | .isPersistent => .isPersistent
  | .isStatic => .isStatic
  | .lastCalleeId => .lastCalleeId
  | .lastCalleeReturnDataOffset => .lastCalleeReturnDataOffset
  | .lastCalleeReturnDataLength => .lastCalleeReturnDataLength
  | .isRoot => .isRoot
  | .isCreate => .isCreate
  | .codeHash => .codeHash
  | .programCounter => .programCounter
  | .stackPointer => .stackPointer
  | .gasLeft => .gasLeft
  | .memorySize => .memorySize
  | .reversibleWriteCounter => .reversibleWriteCounter

/-- The `match op.op().field` of the `TxLog` arm. -/
def TxLogField.toTag : TxLogField → TxLogFieldTag
  | .address => .address
  | .topic => .topic
  | .data => .data

/-- The `match op.op().field` of the `TxReceipt` arm. -/
def TxReceiptField.toTag : TxReceiptField → TxReceiptFieldTag
  | .postStateOrStatus => .postStateOrStatus
  | .logLength => .logLength
  | .cumulativeGasUsed => .cumulativeGasUsed

/-- The closure each `rws.insert` maps over its target's operations. -/
def buildRw : (t : Target) → Operation t.OpType → Rw
  | .start, op => .start op.rwc
  | .txAccessListAccount, op =>
      .txAccessListAccount op.rwc op.rw.isWrite op.op.txId op.op.address op.op.isWarm
        op.op.isWarmPrev
  | .txAccessListAccountStorage, op =>
      .txAccessListAccountStorage op.rwc op.rw.isWrite op.op.txId op.op.address op.op.key
        op.op.isWarm op.op.isWarmPrev
  | .txRefund, op => .txRefund op.rwc op.rw.isWrite op.op.txId op.op.value op.op.valuePrev
  | .account, op =>
      .account op.rwc op.rw.isWrite op.op.address op.op.field.toTag op.op.value op.op.valuePrev
  | .storage, op =>
      .accountStorage op.rwc op.rw.isWrite op.op.address op.op.key op.op.value op.op.valuePrev
        op.op.txId op.op.committedValue
  | .callContext, op =>
      .callContext op.rwc op.rw.isWrite op.op.callId op.op.field.toTag op.op.value
  | .stack, op => .stack op.rwc op.rw.isWrite op.op.callId op.op.address op.op.value
  | .memory, op =>
      .memory op.rwc op.rw.isWrite op.op.callId (UInt64.ofNat op.op.address) op.op.value
  | .txLog, op =>
      .txLog op.rwc op.rw.isWrite op.op.txId (UInt64.ofNat op.op.logId) op.op.field.toTag
        op.op.index op.op.value
  | .txReceipt, op => .txReceipt op.rwc op.rw.isWrite op.op.txId op.op.field.toTag op.op.value

/-- The targets in the order of the `rws.insert` calls. -/
def insertOrder : List Target :=
  [.start, .txAccessListAccount, .txAccessListAccountStorage, .txRefund, .account, .storage,
    .callContext, .stack, .memory, .txLog, .txReceipt]

/-- `RwMap::from(&OperationContainer)`: one `rws.insert` per target, in source order. -/
def RwMap.ofContainer (c : OperationContainer) : RwMap :=
  insertOrder.foldl (fun rws t => rws.insert t ((c.ops t).map (buildRw t))) .empty

/-! ## Section 3: No group is lost -/

theorem buildRw_tag (t : Target) (op : Operation t.OpType) : (buildRw t op).tag = t := by
  cases t <;> rfl

theorem buildRw_rwCounter (t : Target) (op : Operation t.OpType) :
    (buildRw t op).rwCounter = op.rwc := by
  cases t <;> rfl

theorem buildRw_isWrite {t : Target} (op : Operation t.OpType) (h : t ≠ .start) :
    (buildRw t op).isWrite = op.rw.isWrite := by
  cases t <;> first | exact absurd rfl h | rfl

theorem mem_insertOrder (t : Target) : t ∈ insertOrder := by
  cases t <;> decide

/-- Inserting under distinct keys: each key ends with its own group. -/
theorem get_foldl_insert (f : Target → List Rw) {ts : List Target} (hts : ts.Nodup)
    (m : RwMap) (t : Target) :
    (ts.foldl (fun rws t => rws.insert t (f t)) m).get t =
      if t ∈ ts then some (f t) else m.get t := by
  induction ts generalizing m with
  | nil => simp
  | cons s ts ih =>
    rw [List.nodup_cons] at hts
    simp only [List.foldl_cons, ih hts.2, List.mem_cons]
    by_cases ht : t = s
    · subst ht; simp [hts.1]
    · by_cases hmem : t ∈ ts <;> simp [ht, hmem]

/-- The map built from `c` holds under each target exactly that target's records. -/
theorem get_ofContainer (c : OperationContainer) (t : Target) :
    (RwMap.ofContainer c).get t = some ((c.ops t).map (buildRw t)) := by
  rw [RwMap.ofContainer, get_foldl_insert _ (by decide)]
  simp [mem_insertOrder]

/-- Indexing the built map by `(t, i)` or by `OperationRef(t, i)` finds the record of
    the `i`-th operation of `t`, with tag `t`, the operation's counter, and for
    `t ≠ Start` its direction; each target's group is its own. -/
theorem index_ofContainer (c : OperationContainer) (t : Target) (i : Nat)
    (hi : i < (c.ops t).length) :
    (RwMap.ofContainer c).index (t, i) = some (buildRw t (c.ops t)[i]) ∧
    (RwMap.ofContainer c).indexRef ⟨t, i⟩ = some (buildRw t (c.ops t)[i]) ∧
    (buildRw t (c.ops t)[i]).tag = t ∧
    (buildRw t (c.ops t)[i]).rwCounter = (c.ops t)[i].rwc ∧
    (t ≠ .start → (buildRw t (c.ops t)[i]).isWrite = (c.ops t)[i].rw.isWrite) ∧
    ∀ s, (RwMap.ofContainer c).get s = some ((c.ops s).map (buildRw s)) := by
  have hidx : (RwMap.ofContainer c).index (t, i) = some (buildRw t (c.ops t)[i]) := by
    simp [RwMap.index_of_get (get_ofContainer c t), hi]
  exact ⟨hidx, hidx, buildRw_tag _ _, buildRw_rwCounter _ _, buildRw_isWrite _,
    get_ofContainer c⟩

/-- A container holding one stack write and nothing else. -/
def oneStackWrite : OperationContainer :=
  ⟨[], [], [], [], [], [], [], [⟨1, .write, ⟨1, 0, 5⟩⟩], [], [], []⟩

theorem index_ofContainer_oneStackWrite :
    0 < (oneStackWrite.ops .stack).length ∧
    (RwMap.ofContainer oneStackWrite).index (.stack, 0) = some (.stack 1 true 1 0 5) :=
  have h : 0 < (oneStackWrite.ops .stack).length := by decide
  ⟨h, (index_ofContainer oneStackWrite .stack 0 h).1⟩

/-- `m` is the map `RwMap::from(c)` builds under one of the iteration orders of the
    `HashMap`: the entries of `RwMap.ofContainer c`, in any order. -/
def RwMap.BuiltFrom (m : RwMap) (c : OperationContainer) : Prop :=
  m.groups.Perm (RwMap.ofContainer c).groups

instance (m : RwMap) (c : OperationContainer) : Decidable (m.BuiltFrom c) :=
  inferInstanceAs (Decidable (List.Perm _ _))

/-- The entries of a map, iterated the other way round. -/
def RwMap.reverse (m : RwMap) : RwMap :=
  ⟨m.groups.reverse, by rw [List.map_reverse]; exact List.nodup_reverse.mpr m.nodup⟩

theorem builtFrom_reverse (c : OperationContainer) :
    (RwMap.ofContainer c).reverse.BuiltFrom c :=
  List.reverse_perm _

theorem get_of_builtFrom {m : RwMap} {c : OperationContainer} (hm : m.BuiltFrom c)
    (t : Target) : m.get t = some ((c.ops t).map (buildRw t)) :=
  (RwMap.get_eq_of_perm hm t).trans (get_ofContainer c t)

/-- The only failure of indexing the built map, in any iteration order, is an index
    past the end of the target's operations: every target has a group, empty when it
    has none. -/
theorem index_ofContainer_eq_none_iff (c : OperationContainer) {m : RwMap}
    (hm : m.BuiltFrom c) (t : Target) (i : Nat) :
    m.get t ≠ none ∧ (m.index (t, i) = none ↔ (c.ops t).length ≤ i) := by
  simp [get_of_builtFrom hm, RwMap.index_of_get (get_of_builtFrom hm t)]

theorem index_ofContainer_eq_none_iff_oneStackWrite :
    (RwMap.ofContainer oneStackWrite).reverse.BuiltFrom oneStackWrite ∧
    (RwMap.ofContainer oneStackWrite).reverse.get .stack ≠ none ∧
    ((RwMap.ofContainer oneStackWrite).reverse.index (.stack, 1) = none ↔
      (oneStackWrite.ops .stack).length ≤ 1) :=
  ⟨builtFrom_reverse _, index_ofContainer_eq_none_iff _ (builtFrom_reverse _) _ _⟩

/-! ## Section 4: The built map downstream -/

/-- The counters of the container's operations on every target but `Start`, target
    after target in insertion order. -/
def OperationContainer.nonStartRwcs (c : OperationContainer) : List Nat :=
  (insertOrder.filter fun t => t ≠ .start).flatMap fun t => (c.ops t).map Operation.rwc

/-- Inserting under keys new to the map appends their entries in order. -/
theorem groups_foldl_insert (f : Target → List Rw) {ts : List Target} (m : RwMap)
    (hts : (m.groups.map Prod.fst ++ ts).Nodup) :
    (ts.foldl (fun rws t => rws.insert t (f t)) m).groups =
      m.groups ++ ts.map fun t => (t, f t) := by
  induction ts generalizing m with
  | nil => simp
  | cons s ts ih =>
    have hs : s ∉ m.groups.map Prod.fst := fun h =>
      (List.nodup_append.mp hts).2.2 h (List.mem_cons_self s ts)
    have hins : (m.insert s (f s)).groups = m.groups ++ [(s, f s)] :=
      RwMap.insertGroup_of_not_mem _ hs
    rw [List.foldl_cons, ih _ (by simpa [hins] using hts), hins]
    simp

theorem groups_ofContainer (c : OperationContainer) :
    (RwMap.ofContainer c).groups = insertOrder.map fun t => (t, (c.ops t).map (buildRw t)) :=
  groups_foldl_insert _ RwMap.empty (by decide)

theorem records_ofContainer (c : OperationContainer) :
    (RwMap.ofContainer c).records = insertOrder.flatMap fun t => (c.ops t).map (buildRw t) := by
  rw [RwMap.records, groups_ofContainer, List.flatMap_map]

theorem buildRw_isStart (t : Target) (op : Operation t.OpType) :
    (buildRw t op).isStart = decide (t = .start) := by
  cases t <;> rfl

/-- The counters of the built records off `Start` are the container's counters off
    `Start`. -/
theorem nonStart_records_ofContainer (c : OperationContainer) :
    ((RwMap.ofContainer c).records.filter fun r => !r.isStart).map Rw.rwCounter =
      c.nonStartRwcs := by
  simp [records_ofContainer, OperationContainer.nonStartRwcs, insertOrder, List.filter_map,
    Function.comp_def, buildRw_isStart, buildRw_rwCounter]

theorem nonStartCounters_ofContainer (c : OperationContainer) :
    (RwMap.ofContainer c).nonStartCounters = c.nonStartRwcs := by
  simp [RwMap.nonStartCounters, groups_ofContainer, OperationContainer.nonStartRwcs,
    List.filter_map, List.map_flatMap, List.flatMap_map, Function.comp_def, buildRw_rwCounter]

theorem records_perm_of_builtFrom {m : RwMap} {c : OperationContainer} (hm : m.BuiltFrom c) :
    m.records.Perm (RwMap.ofContainer c).records :=
  hm.flatMap_right _

/-- Whatever the iteration order, the counters off `Start` are the container's. -/
theorem nonStartCounters_perm_of_builtFrom {m : RwMap} {c : OperationContainer}
    (hm : m.BuiltFrom c) : m.nonStartCounters.Perm c.nonStartRwcs :=
  nonStartCounters_ofContainer c ▸ ((hm.filter _).flatMap_right _).map _

theorem nonStart_records_perm_of_builtFrom {m : RwMap} {c : OperationContainer}
    (hm : m.BuiltFrom c) :
    ((m.records.filter fun r => !r.isStart).map Rw.rwCounter).Perm c.nonStartRwcs :=
  nonStart_records_ofContainer c ▸ ((records_perm_of_builtFrom hm).filter _).map _

/-- On the map built from a container, in any iteration order, the debug counter
    check passes iff the container's operations on targets other than `Start` carry
    the counters `1, …, N`, and an operation there with counter 0 panics. -/
theorem checkRwCounterSanity_ofContainer (c : OperationContainer) {m : RwMap}
    (hm : m.BuiltFrom c) :
    (m.checkRwCounterSanity = .ok () ↔
      c.nonStartRwcs.Perm (List.range' 1 c.nonStartRwcs.length)) ∧
    (0 ∈ c.nonStartRwcs → m.checkRwCounterSanity = .error .subtractOverflow) := by
  have hp := nonStartCounters_perm_of_builtFrom hm
  rw [RwMap.checkRwCounterSanity, checkCounters_mergeSort_eq_ok_iff, hp.length_eq]
  exact ⟨⟨hp.symm.trans, hp.trans⟩,
    fun h0 => checkCounters_mergeSort_of_zero_mem (hp.mem_iff.mpr h0)⟩

theorem checkRwCounterSanity_ofContainer_oneStackWrite :
    (RwMap.ofContainer oneStackWrite).reverse.BuiltFrom oneStackWrite ∧
    ((RwMap.ofContainer oneStackWrite).reverse.checkRwCounterSanity = .ok () ↔
      oneStackWrite.nonStartRwcs.Perm (List.range' 1 oneStackWrite.nonStartRwcs.length)) ∧
    (0 ∈ oneStackWrite.nonStartRwcs →
      (RwMap.ofContainer oneStackWrite).reverse.checkRwCounterSanity = .error .subtractOverflow) :=
  ⟨builtFrom_reverse _, checkRwCounterSanity_ofContainer _ (builtFrom_reverse _)⟩

end RwWitness
