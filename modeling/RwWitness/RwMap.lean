import RwWitness.Rw

/-! # The RW container

    `RwMap(HashMap<Target, Vec<Rw>>)`. A `HashMap` iterates in an order the source
    never fixes, so the model keeps the groups as a list in some iteration order,
    one entry per key; every statement about `RwMap` holds for every such order, and
    two orders of the same entries agree on `get` (`get_eq_of_perm`).

    The container is read through `get` (`HashMap::get`), through the two `Index`
    impls, which `unwrap` the group and index into it (`none` is the panic), and
    through `records` (`self.0.values().flatten()`).
-/

namespace RwWitness

/-- `RwMap`: the entries of the `HashMap` in iteration order, with unique keys. -/
structure RwMap where
  /-- The `(tag, group)` entries, in the map's iteration order. -/
  groups : List (Target × List Rw)
  /-- A `HashMap` holds one entry per key. -/
  nodup : (groups.map Prod.fst).Nodup

/-- Modelled from the spec: `bus_mapping::exec_trace::OperationRef(Target, usize)`,
    declared outside this file. -/
structure OperationRef where
  target : Target
  index : Nat
  deriving DecidableEq, Repr

namespace RwMap

/-! ## Section 1: The map operations -/

/-- `HashMap::default()`. -/
def empty : RwMap := ⟨[], List.nodup_nil⟩

/-- `HashMap::get`. -/
def get (m : RwMap) (tag : Target) : Option (List Rw) := m.groups.lookup tag

/-- `HashMap::insert` on the entries: the entry of `tag` is replaced where it
    stands, or a new entry is added. -/
def insertGroup (tag : Target) (rs : List Rw) :
    List (Target × List Rw) → List (Target × List Rw)
  | [] => [(tag, rs)]
  | (t, v) :: gs => if t = tag then (tag, rs) :: gs else (t, v) :: insertGroup tag rs gs

theorem mem_keys_insertGroup {tag k : Target} {rs : List Rw} {gs : List (Target × List Rw)}
    (h : k ∈ (insertGroup tag rs gs).map Prod.fst) : k = tag ∨ k ∈ gs.map Prod.fst := by
  induction gs with
  | nil => simpa [insertGroup] using h
  | cons g gs ih =>
    obtain ⟨t, v⟩ := g
    by_cases ht : t = tag
    · subst ht; simpa [insertGroup] using h
    · simp only [insertGroup, ht, if_false, List.map_cons, List.mem_cons] at h ⊢
      rcases h with h | h
      · exact .inr (.inl h)
      · rcases ih h with h | h <;> simp [h]

theorem nodup_insertGroup (tag : Target) (rs : List Rw) {gs : List (Target × List Rw)}
    (h : (gs.map Prod.fst).Nodup) : ((insertGroup tag rs gs).map Prod.fst).Nodup := by
  induction gs with
  | nil => simp [insertGroup]
  | cons g gs ih =>
    obtain ⟨t, v⟩ := g
    rw [List.map_cons, List.nodup_cons] at h
    by_cases ht : t = tag
    · simpa [insertGroup, ht] using h
    · simp only [insertGroup, ht, if_false, List.map_cons, List.nodup_cons]
      refine ⟨fun hmem => ?_, ih h.2⟩
      rcases mem_keys_insertGroup hmem with h' | h'
      · exact ht h'
      · exact h.1 h'

/-- Inserting under a new key appends its entry. -/
theorem insertGroup_of_not_mem {tag : Target} (rs : List Rw) {gs : List (Target × List Rw)}
    (h : tag ∉ gs.map Prod.fst) : insertGroup tag rs gs = gs ++ [(tag, rs)] := by
  induction gs with
  | nil => rfl
  | cons g gs ih =>
    simp only [List.map_cons, List.mem_cons, not_or] at h
    simp [insertGroup, Ne.symm h.1, ih h.2]

theorem lookup_cons_of_ne {k t : Target} {v : List Rw} {gs : List (Target × List Rw)}
    (h : k ≠ t) : ((t, v) :: gs).lookup k = gs.lookup k := by
  simp [List.lookup_cons, beq_false_of_ne h]

@[simp] theorem lookup_insertGroup_self (tag : Target) (rs : List Rw)
    (gs : List (Target × List Rw)) : (insertGroup tag rs gs).lookup tag = some rs := by
  induction gs with
  | nil => simp [insertGroup]
  | cons g gs ih =>
    obtain ⟨t, v⟩ := g
    by_cases ht : t = tag
    · simp [insertGroup, ht]
    · simp [insertGroup, ht, lookup_cons_of_ne (Ne.symm ht), ih]

theorem lookup_insertGroup_ne {tag t : Target} (rs : List Rw) (gs : List (Target × List Rw))
    (h : t ≠ tag) : (insertGroup tag rs gs).lookup t = gs.lookup t := by
  induction gs with
  | nil => simp [insertGroup, lookup_cons_of_ne h]
  | cons g gs ih =>
    obtain ⟨t', v⟩ := g
    by_cases ht : t' = tag
    · subst ht; simp [insertGroup, lookup_cons_of_ne h]
    · by_cases htt : t = t'
      · subst htt; simp [insertGroup, ht]
      · simp [insertGroup, ht, lookup_cons_of_ne htt, ih]

/-- `HashMap::insert`, its returned old value dropped as the builder drops it. -/
def insert (m : RwMap) (tag : Target) (rs : List Rw) : RwMap :=
  ⟨insertGroup tag rs m.groups, nodup_insertGroup tag rs m.nodup⟩

@[simp] theorem get_insert_self (m : RwMap) (tag : Target) (rs : List Rw) :
    (m.insert tag rs).get tag = some rs :=
  lookup_insertGroup_self tag rs m.groups

@[simp] theorem get_insert_ne (m : RwMap) {tag t : Target} (rs : List Rw) (h : t ≠ tag) :
    (m.insert tag rs).get t = m.get t :=
  lookup_insertGroup_ne rs m.groups h

/-- With one entry per key, `lookup` finds exactly the entries. -/
theorem lookup_eq_some_iff {gs : List (Target × List Rw)} (h : (gs.map Prod.fst).Nodup)
    {tag : Target} {rs : List Rw} : gs.lookup tag = some rs ↔ (tag, rs) ∈ gs := by
  induction gs with
  | nil => simp
  | cons g gs ih =>
    obtain ⟨t, v⟩ := g
    rw [List.map_cons, List.nodup_cons] at h
    by_cases ht : tag = t
    · subst ht
      have hnot : (tag, rs) ∉ gs := fun hmem => h.1 (List.mem_map.mpr ⟨_, hmem, rfl⟩)
      simp [List.lookup_cons, hnot, eq_comm]
    · simp [lookup_cons_of_ne ht, ih h.2, ht]

/-- Two maps holding the same entries, iterated in any orders, agree on `get`. -/
theorem get_eq_of_perm {m m' : RwMap} (h : m.groups.Perm m'.groups) (tag : Target) :
    m.get tag = m'.get tag :=
  Option.ext fun _ =>
    (lookup_eq_some_iff m.nodup).trans (h.mem_iff.trans (lookup_eq_some_iff m'.nodup).symm)

/-! ## Section 2: Indexing and flattening -/

/-- `impl Index<(Target, usize)> for RwMap`: `&self.0.get(&tag).unwrap()[idx]`. -/
def index (m : RwMap) : Target × Nat → Option Rw
  | (tag, idx) => (m.get tag).bind fun rs => rs[idx]?

/-- `impl Index<OperationRef> for RwMap`: the same body on the reference's pair. -/
def indexRef (m : RwMap) : OperationRef → Option Rw
  | ⟨tag, idx⟩ => m.index (tag, idx)

/-- `self.0.values().flatten()`: every record, group after group in iteration order. -/
def records (m : RwMap) : List Rw := m.groups.flatMap Prod.snd

theorem index_of_get {m : RwMap} {tag : Target} {rs : List Rw} (h : m.get tag = some rs)
    (idx : Nat) : m.index (tag, idx) = rs[idx]? := by
  simp [index, h]

end RwMap

end RwWitness
