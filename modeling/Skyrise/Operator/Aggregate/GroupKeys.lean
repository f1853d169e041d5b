/-
Equal keys mean equal values.

The numbers of the cells of a column are equal if and only if the cells are, and so are
the keys of rows and the indexes of their results.
-/
import Skyrise.Operator.Aggregate.AggregateHash
import Skyrise.Utils.Numbering

namespace Skyrise

variable {R : Type}

/-! ### Strings of fewer than five characters -/

/-- The strings in the order of their lengths, those of one length by their bytes from the last one
on. -/
def stringIndex : List UInt8 → ℕ
  | [] => 1
  | a :: s => 256 * (stringIndex s - 1) + a.toNat + 2

lemma one_le_stringIndex (s : List UInt8) : 1 ≤ stringIndex s := by
  cases s <;> simp [stringIndex]

lemma stringIndex_injective : Function.Injective stringIndex := by
  intro s
  induction s with
  | nil =>
    rintro (_ | ⟨b, s'⟩) h
    · rfl
    · simp only [stringIndex] at h
      omega
  | cons a s ih =>
    rintro (_ | ⟨b, s'⟩) h
    · simp only [stringIndex] at h
      omega
    · simp only [stringIndex] at h
      have ha := a.toNat_lt
      have hb := b.toNat_lt
      have hs := one_le_stringIndex s
      have hs' := one_le_stringIndex s'
      rw [ih (show stringIndex s = stringIndex s' by omega),
        UInt8.toNat_inj.mp (show a.toNat = b.toNat by omega)]

lemma shortStringId_eq_some {s : List UInt8} {n : ℕ} (h : shortStringId s = some n) :
    n = stringIndex s ∧ n < kShortStringIdCounter := by
  rw [shortStringId.eq_def] at h
  rw [kShortStringIdCounter]
  split at h
  · obtain rfl := Option.some.inj h
    simp [stringIndex]
  · next a =>
    obtain rfl := Option.some.inj h
    have ha := a.toNat_lt
    simp only [stringIndex]
    omega
  · next a b =>
    obtain rfl := Option.some.inj h
    have ha := a.toNat_lt
    have hb := b.toNat_lt
    simp only [stringIndex]
    omega
  · next a b c =>
    obtain rfl := Option.some.inj h
    have ha := a.toNat_lt
    have hb := b.toNat_lt
    have hc := c.toNat_lt
    simp only [stringIndex]
    omega
  · next a b c d =>
    obtain rfl := Option.some.inj h
    have ha := a.toNat_lt
    have hb := b.toNat_lt
    have hc := c.toNat_lt
    have hd := d.toNat_lt
    simp only [stringIndex]
    omega
  · cases h

lemma intToUint_injective : Function.Injective intToUint := by
  intro v w h
  rw [intToUint, intToUint] at h
  have hv := v.le_toInt
  have hw := w.le_toInt
  exact Int32.toInt_inj.mp (by omega)

/-! ### The cells of a column -/

section

variable [FloatingPoint R]

/-- The number of a cell, with what has been numbered in the end. -/
def IdMap.idOf (m : IdMap R) : AllTypeVariant R → ℕ
  | none => 0
  | some value => (immediateId value).getD ((m.ids.lookup value).getD 0)

/-- Whether a cell has a number. -/
def IdMap.HasId (m : IdMap R) (cell : AllTypeVariant R) : Prop :=
  ∀ value, cell = some value → immediateId value = none → (m.ids.lookup value).isSome

variable {m m' : IdMap R} {base : ℕ}

lemma cellId_spec (h : Numbered base m.idCounter m.ids) (cell : AllTypeVariant R) :
    Numbered base (cellId m cell).2.idCounter (cellId m cell).2.ids ∧
      Keeps m.ids (cellId m cell).2.ids ∧ ∀ m' : IdMap R, Keeps (cellId m cell).2.ids m'.ids →
        m'.HasId cell ∧ (cellId m cell).1 = m'.idOf cell := by
  cases cell with
  | none =>
    exact ⟨h, .refl _, fun m' _ => ⟨fun value hv => (by cases hv), rfl⟩⟩
  | some value =>
    rw [cellId, partitionId]
    cases himmediate : immediateId value with
    | some number =>
      refine ⟨h, .refl _, fun m' _ => ⟨fun value' hv hnone => ?_, ?_⟩⟩
      · obtain rfl := Option.some.inj hv
        rw [himmediate] at hnone
        cases hnone
      · rw [IdMap.idOf, himmediate, Option.getD_some]
    | none =>
      dsimp only
      rw [IdMap.tryEmplace]
      -- the number that is found in the end
      have hfound : ∀ (m' : IdMap R) (n : ℕ), m'.ids.lookup value = some n →
          m'.HasId (some value) ∧ n = m'.idOf (some value) := by
        intro m' n hn
        refine ⟨fun value' hv _ => ?_, ?_⟩
        · obtain rfl := Option.some.inj hv
          rw [hn]
          rfl
        · rw [IdMap.idOf, himmediate, hn]
          rfl
      cases hlookup : m.ids.lookup value with
      | some number => exact ⟨h, .refl _, fun m' hkeeps => hfound m' _ (hkeeps value _ hlookup)⟩
      | none =>
        refine ⟨h.cons, .cons hlookup, fun m' hkeeps => hfound m' _ (hkeeps value _ ?_)⟩
        rw [List.lookup_cons, beq_self_eq_true]

lemma columnIds_spec (h : Numbered base m.idCounter m.ids) (cells : List (AllTypeVariant R)) :
    Numbered base (columnIds m cells).2.idCounter (columnIds m cells).2.ids ∧
      Keeps m.ids (columnIds m cells).2.ids ∧ ∀ m' : IdMap R,
        Keeps (columnIds m cells).2.ids m'.ids →
          (∀ cell ∈ cells, m'.HasId cell) ∧ (columnIds m cells).1 = cells.map m'.idOf := by
  induction cells generalizing m with
  | nil => exact ⟨h, .refl _, fun m' _ => ⟨by simp, rfl⟩⟩
  | cons cell cells ih =>
    obtain ⟨hnumbered, hkeeps, hcell⟩ := cellId_spec h cell
    obtain ⟨hnumbered', hkeeps', hcells⟩ := ih hnumbered
    refine ⟨hnumbered', hkeeps.trans hkeeps', fun m' hm' => ?_⟩
    obtain ⟨hid, hnumber⟩ := hcell m' (hkeeps'.trans hm')
    obtain ⟨hids, hnumbers⟩ := hcells m' hm'
    refine ⟨List.forall_mem_cons.mpr ⟨hid, hids⟩, ?_⟩
    rw [List.map_cons, ← hnumber, ← hnumbers]
    rfl

lemma columnNumbers_spec (columnId : ℕ) (h : Numbered base m.idCounter m.ids)
    (chunks : List (Chunk R)) :
    Numbered base (columnNumbers columnId m chunks).2.idCounter
        (columnNumbers columnId m chunks).2.ids ∧
      Keeps m.ids (columnNumbers columnId m chunks).2.ids ∧ ∀ m' : IdMap R,
        Keeps (columnNumbers columnId m chunks).2.ids m'.ids →
          (∀ chunk ∈ chunks, ∀ cell ∈ (chunk.getSegment columnId).cells, m'.HasId cell) ∧
            (columnNumbers columnId m chunks).1 =
              chunks.map fun chunk => (chunk.getSegment columnId).cells.map m'.idOf := by
  induction chunks generalizing m with
  | nil => exact ⟨h, .refl _, fun m' _ => ⟨by simp, rfl⟩⟩
  | cons chunk chunks ih =>
    obtain ⟨hnumbered, hkeeps, hcells⟩ := columnIds_spec h (chunk.getSegment columnId).cells
    obtain ⟨hnumbered', hkeeps', hrest⟩ := ih hnumbered
    refine ⟨hnumbered', hkeeps.trans hkeeps', fun m' hm' => ?_⟩
    obtain ⟨hids, hnumbers⟩ := hcells m' (hkeeps'.trans hm')
    obtain ⟨hids', hnumbers'⟩ := hrest m' hm'
    refine ⟨List.forall_mem_cons.mpr ⟨hids, hids'⟩, ?_⟩
    rw [List.map_cons, ← hnumbers, ← hnumbers']
    rfl

/-- The numbers of the values of one type are different, and that of NULL is different from all. -/
lemma idOf_inj {t : DataType} (h : Numbered (IdMap.start (R := R) t).idCounter m.idCounter m.ids)
    {a b : AllTypeVariant R} (ha : ∀ v, a = some v → v.dataType = t)
    (hb : ∀ v, b = some v → v.dataType = t) (hida : m.HasId a) (hidb : m.HasId b)
    (heq : m.idOf a = m.idOf b) : a = b := by
  -- the number of a value: an immediate one, or one that has been looked up
  have hcases : ∀ v : Value R, v.dataType = t → m.HasId (some v) →
      1 ≤ m.idOf (some v) ∧ ((∃ i, v = .int i ∧ m.idOf (some v) = intToUint i + 1) ∨
        (∃ s, v = .string s ∧ m.idOf (some v) = stringIndex s ∧
          m.idOf (some v) < kShortStringIdCounter) ∨
        (m.ids.lookup v = some (m.idOf (some v)) ∧ t ≠ .int ∧
          (t = .string → kShortStringIdCounter ≤ m.idOf (some v)))) := by
    intro v hv hid
    rw [IdMap.idOf]
    cases himmediate : immediateId v with
    | some n =>
      rw [Option.getD_some]
      cases v with
      | int i =>
        obtain rfl := Option.some.inj himmediate
        exact ⟨Nat.le_add_left 1 _, .inl ⟨i, rfl, rfl⟩⟩
      | string s =>
        obtain ⟨rfl, hlt⟩ := shortStringId_eq_some himmediate
        exact ⟨one_le_stringIndex s, .inr (.inl ⟨s, rfl, rfl, hlt⟩)⟩
      | _ => cases himmediate
    | none =>
      obtain ⟨n, hn⟩ := Option.isSome_iff_exists.mp (hid v rfl himmediate)
      rw [Option.getD_none, hn, Option.getD_some]
      have hge := h.ge v n hn
      have hint : t ≠ .int := by
        rintro rfl
        cases v <;> simp_all [Value.dataType, immediateId]
      refine ⟨?_, .inr (.inr ⟨rfl, hint, fun ht => ?_⟩)⟩
      · rw [IdMap.start] at hge
        dsimp only at hge
        split at hge
        · exact le_trans (by decide) hge
        · exact hge
      · rw [ht] at hge
        exact hge
  cases a with
  | none =>
    cases b with
    | none => rfl
    | some w =>
      have hle := (hcases w (hb w rfl) hidb).1
      rw [← heq] at hle
      exact absurd hle (by simp [IdMap.idOf])
  | some v =>
    cases b with
    | none =>
      have hle := (hcases v (ha v rfl) hida).1
      rw [heq] at hle
      exact absurd hle (by simp [IdMap.idOf])
    | some w =>
      obtain ⟨-, hv⟩ := hcases v (ha v rfl) hida
      obtain ⟨-, hw⟩ := hcases w (hb w rfl) hidb
      rw [← heq] at hw
      have hvt := ha v rfl
      have hwt := hb w rfl
      rcases hv with ⟨i, rfl, hi⟩ | ⟨s, rfl, hs, hlt⟩ | ⟨hlookup, hint, hstring⟩
      · rcases hw with ⟨j, rfl, hj⟩ | ⟨s', rfl, -, -⟩ | ⟨-, hint, -⟩
        · rw [intToUint_injective (show intToUint i = intToUint j by omega)]
        · exact absurd (hvt.trans hwt.symm) (by simp [Value.dataType])
        · exact absurd hvt.symm hint
      · rcases hw with ⟨j, rfl, -⟩ | ⟨s', rfl, hs', -⟩ | ⟨-, -, hstring⟩
        · exact absurd (hvt.trans hwt.symm) (by simp [Value.dataType])
        · rw [stringIndex_injective (hs.symm.trans hs')]
        · exact absurd (hstring hvt.symm) (Nat.not_le.mpr hlt)
      · rcases hw with ⟨j, rfl, -⟩ | ⟨s', rfl, -, hlt⟩ | ⟨hlookup', -, -⟩
        · exact absurd hwt.symm hint
        · exact absurd (hstring hwt.symm) (Nat.not_le.mpr hlt)
        · rw [h.injective v w _ hlookup hlookup']

/-! ### The keys of rows -/

variable {table : Table R} {groupByColumnIds : List ℕ} {id₁ id₂ : RowId}

/-- The values of a row in the GROUP BY columns. -/
def groupValues (table : Table R) (groupByColumnIds : List ℕ) (rowId : RowId) :
    List (AllTypeVariant R) :=
  groupByColumnIds.map fun columnId => table.cellAt columnId rowId

/-- The number of a row in a column. -/
def columnNumber (table : Table R) (columnId : ℕ) (rowId : RowId) : ℕ :=
  numberAt (columnNumbers columnId (IdMap.start (table.columnDataType columnId)) table.chunks).1
    rowId.chunkId rowId.chunkOffset

/-- Rows have the same number in a column if and only if they have the same value. -/
lemma columnNumber_eq_iff (ht : table.WellFormed) {columnId : ℕ}
    (hcol : columnId < table.getColumnCount) (h₁ : id₁ ∈ table.rowIds) (h₂ : id₂ ∈ table.rowIds) :
    columnNumber table columnId id₁ = columnNumber table columnId id₂ ↔
      table.cellAt columnId id₁ = table.cellAt columnId id₂ := by
  have hstart : Numbered (IdMap.start (R := R) (table.columnDataType columnId)).idCounter
      (IdMap.start (R := R) (table.columnDataType columnId)).idCounter
      (IdMap.start (R := R) (table.columnDataType columnId)).ids := .nil _
  obtain ⟨hnumbered, -, hspec⟩ := columnNumbers_spec columnId hstart table.chunks
  obtain ⟨hids, hnumbers⟩ := hspec _ (.refl _)
  have hat : ∀ id ∈ table.rowIds, (columnNumbers columnId
        (IdMap.start (table.columnDataType columnId)) table.chunks).2.HasId (table.cellAt columnId id) ∧
      columnNumber table columnId id = (columnNumbers columnId
        (IdMap.start (table.columnDataType columnId)) table.chunks).2.idOf
          (table.cellAt columnId id) := by
    intro id hid
    obtain ⟨hchunk, -⟩ := Table.mem_rowIds.mp hid
    have hlt : id.chunkOffset < ((table.getChunk id.chunkId).getSegment columnId).size :=
      ht.offset_lt_length hid hcol
    have hget : table.chunks[id.chunkId]? = some (table.getChunk id.chunkId) := by
      rw [Table.getChunk, List.getD_eq_getElem?_getD,
        List.getElem?_eq_getElem (show id.chunkId < table.chunks.length from hchunk)]
      rfl
    have hcell : ((table.getChunk id.chunkId).getSegment columnId).cells[id.chunkOffset]? =
        some (table.cellAt columnId id) := by
      rw [ValueSegment.cells, List.getElem?_map, List.getElem?_range hlt]
      rfl
    refine ⟨hids _ (List.mem_of_getElem? hget) _ (List.mem_of_getElem? hcell), ?_⟩
    rw [columnNumber, hnumbers, numberAt, List.getD_eq_getElem?_getD, List.getD_eq_getElem?_getD,
      List.getElem?_map, hget, Option.map_some, Option.getD_some, List.getElem?_map, hcell]
    rfl
  obtain ⟨hid₁, hnumber₁⟩ := hat id₁ h₁
  obtain ⟨hid₂, hnumber₂⟩ := hat id₂ h₂
  refine ⟨fun h => ?_, fun h => by rw [hnumber₁, hnumber₂, h]⟩
  exact idOf_inj hnumbered (fun v hv => ht.dataType_of_cellAt h₁ hcol hv)
    (fun v hv => ht.dataType_of_cellAt h₂ hcol hv) hid₁ hid₂ (by rw [← hnumber₁, h, hnumber₂])

omit [FloatingPoint R] in
lemma ofNumbers_injective {ns ns' : List ℕ} (hlength : ns.length = ns'.length)
    (h : AggregateKey.ofNumbers ns = AggregateKey.ofNumbers ns') : ns = ns' := by
  match ns, ns' with
  | [], [] => rfl
  | [n], [n'] =>
    simp only [AggregateKey.ofNumbers, AggregateKey.entry.injEq, AggregateKeyEntry.id.injEq] at h
    rw [h]
  | n :: m :: ns, n' :: m' :: ns' =>
    simp only [AggregateKey.ofNumbers, AggregateKey.entries.injEq, AggregateKeyEntry.id.injEq] at h
    obtain ⟨rfl, hrest⟩ := h
    rw [List.map_injective_iff.mpr (fun _ _ h => AggregateKeyEntry.id.inj h) hrest]

/-- The keys of numbers are equal if and only if the values of all columns are. -/
lemma ofNumbers_eq_iff (ht : table.WellFormed)
    (hcols : ∀ c ∈ groupByColumnIds, c < table.getColumnCount) (h₁ : id₁ ∈ table.rowIds)
    (h₂ : id₂ ∈ table.rowIds) :
    AggregateKey.ofNumbers (groupByColumnIds.map fun c => columnNumber table c id₁) =
        .ofNumbers (groupByColumnIds.map fun c => columnNumber table c id₂) ↔
      groupValues table groupByColumnIds id₁ = groupValues table groupByColumnIds id₂ := by
  rw [groupValues, groupValues, List.map_inj_left]
  refine ⟨fun h c hc => ?_, fun h => ?_⟩
  · have hnumbers := List.map_inj_left.mp (ofNumbers_injective (by simp) h) c hc
    exact (columnNumber_eq_iff ht (hcols c hc) h₁ h₂).mp hnumbers
  · rw [List.map_congr_left fun c hc => (columnNumber_eq_iff ht (hcols c hc) h₁ h₂).mpr (h c hc)]

omit [FloatingPoint R] in
lemma immediateKey_eq_iff {minKey n n' : ℕ} (hn : n ≠ 0 → minKey ≤ n) (hn' : n' ≠ 0 → minKey ≤ n') :
    immediateKey minKey n = immediateKey minKey n' ↔ n = n' := by
  rw [immediateKey, immediateKey, AggregateKey.entry.injEq, AggregateKeyEntry.cached.injEq]
  split <;> split <;> omega

omit [FloatingPoint R] in
lemma mem_flatten_of_numberAt {numbers : List (List ℕ)} {chunkId offset : ℕ}
    (h : numberAt numbers chunkId offset ≠ 0) :
    numberAt numbers chunkId offset ∈ numbers.flatten := by
  rw [numberAt, List.getD_eq_getElem?_getD] at h ⊢
  cases hoffset : (numbers.getD chunkId [])[offset]? with
  | none => exact absurd (by rw [hoffset]; rfl) h
  | some n =>
    rw [Option.getD_some]
    cases hchunk : numbers[chunkId]? with
    | none => rw [List.getD_eq_getElem?_getD, hchunk] at hoffset; cases hoffset
    | some row =>
      rw [List.getD_eq_getElem?_getD, hchunk, Option.getD_some] at hoffset
      exact List.mem_flatten_of_mem (List.mem_of_getElem? hchunk) (List.mem_of_getElem? hoffset)

/-- **Partitioning.**  Rows have the same key if and only if they have the same values in the GROUP
BY columns. -/
lemma partitionByGroupByKeys_keys (ht : table.WellFormed)
    (hcols : ∀ c ∈ groupByColumnIds, c < table.getColumnCount) : ∃ keyOf : ℕ → ℕ → AggregateKey,
    (partitionByGroupByKeys table groupByColumnIds).rows = keyedRows table keyOf ∧
      (∀ id₁ ∈ table.rowIds, ∀ id₂ ∈ table.rowIds,
        (keyOf id₁.chunkId id₁.chunkOffset = keyOf id₂.chunkId id₂.chunkOffset ↔
          groupValues table groupByColumnIds id₁ = groupValues table groupByColumnIds id₂)) ∧
      ((partitionByGroupByKeys table groupByColumnIds).kind groupByColumnIds = .cached →
        ∀ chunkId offset, ∃ resultId, keyOf chunkId offset = .entry (.cached resultId)) := by
  have hgeneral : ∀ id₁ ∈ table.rowIds, ∀ id₂ ∈ table.rowIds,
      (AggregateKey.ofNumbers ((groupByColumnIds.map fun columnId => columnNumbers columnId
          (IdMap.start (table.columnDataType columnId)) table.chunks).map fun column =>
            numberAt column.1 id₁.chunkId id₁.chunkOffset) =
        .ofNumbers ((groupByColumnIds.map fun columnId => columnNumbers columnId
          (IdMap.start (table.columnDataType columnId)) table.chunks).map fun column =>
            numberAt column.1 id₂.chunkId id₂.chunkOffset) ↔
        groupValues table groupByColumnIds id₁ = groupValues table groupByColumnIds id₂) := by
    intro id₁ h₁ id₂ h₂
    rw [List.map_map, List.map_map]
    exact ofNumbers_eq_iff ht hcols h₁ h₂
  have hkind : ∀ {rows : List (List (AggregateKey × RowId))} {size : ℕ},
      (⟨rows, size, false⟩ : Partitioning).kind groupByColumnIds ≠ .cached := by
    intro rows size
    rw [Partitioning.kind]
    split <;> simp
  unfold partitionByGroupByKeys
  dsimp only
  split
  · next columnId numbers ids hcolumns =>
    split
    · next maxKey minKey hmax hmin =>
      split
      · dsimp only
        refine ⟨_, rfl, fun id₁ h₁ id₂ h₂ => ?_, fun _ chunkId offset => ⟨_, rfl⟩⟩
        rw [List.map_cons, List.map_nil, List.cons.injEq] at hcolumns
        have hcol := hcols columnId List.mem_cons_self
        have hnumbers : ∀ id : RowId, numberAt numbers id.chunkId id.chunkOffset =
            columnNumber table columnId id := fun id => by rw [columnNumber, hcolumns.1]
        have hle : ∀ id : RowId, numberAt numbers id.chunkId id.chunkOffset ≠ 0 →
            minKey ≤ numberAt numbers id.chunkId id.chunkOffset := by
          intro id hne
          refine (List.min?_eq_some_iff.mp hmin).2 _ (List.mem_filter.mpr ⟨?_, by simpa using hne⟩)
          exact mem_flatten_of_numberAt hne
        rw [immediateKey_eq_iff (hle id₁) (hle id₂), hnumbers, hnumbers,
          columnNumber_eq_iff ht hcol h₁ h₂]
        simp [groupValues]
      · dsimp only
        exact ⟨_, rfl, hgeneral, fun h => absurd h hkind⟩
    · dsimp only
      exact ⟨_, rfl, hgeneral, fun h => absurd h hkind⟩
  · dsimp only
    exact ⟨_, rfl, hgeneral, fun h => absurd h hkind⟩

/-! ### The indexes of the results -/

omit [FloatingPoint R] in
/-- Keys that are looked up have the same index if and only if they are the same. -/
lemma numberRows_of_hashed {size : ℕ} {ids : List (AggregateKey × ℕ)}
    (h : Numbered size (size + ids.length) ids) {rows : List (AggregateKey × RowId)}
    (hkind : ∀ row ∈ rows, row.1.kind = .hashed) :
    Numbered size (size + (numberRows size ids rows).2.length) (numberRows size ids rows).2 ∧
      Keeps ids (numberRows size ids rows).2 ∧ ∀ ids', Keeps (numberRows size ids rows).2 ids' →
        (∀ row ∈ rows, (ids'.lookup row.1).isSome) ∧ (numberRows size ids rows).1 =
          rows.map fun row => ((ids'.lookup row.1).getD 0, row.2) := by
  induction rows generalizing ids with
  | nil => exact ⟨h, .refl _, fun ids' _ => ⟨by simp, rfl⟩⟩
  | cons row rows ih =>
    obtain ⟨key, rowId⟩ := row
    rw [List.forall_mem_cons] at hkind
    obtain ⟨n, hn⟩ : ∃ n, key.firstKeyEntry = some (.id n) := by
      have hkey := hkind.1
      rw [AggregateKey.kind] at hkey
      split at hkey
      · cases hkey
      · next n hn => exact ⟨n, hn⟩
      · cases hkey
    -- the index of the first key, which is kept from then on
    have hid : Numbered size (size + (resultIdOf size ids key).2.length) (resultIdOf size ids key).2 ∧
        Keeps ids (resultIdOf size ids key).2 ∧
        (resultIdOf size ids key).2.lookup key = some (resultIdOf size ids key).1 := by
      rw [resultIdOf, hn]
      dsimp only
      cases hlookup : ids.lookup key with
      | some resultId => exact ⟨h, .refl _, hlookup⟩
      | none =>
        refine ⟨?_, .cons hlookup, ?_⟩
        · exact h.cons
        · rw [List.lookup_cons, beq_self_eq_true]
    obtain ⟨hnumbered, hkeeps, hrest⟩ := ih hid.1 hkind.2
    refine ⟨hnumbered, hid.2.1.trans hkeeps, fun ids' hkeeps' => ?_⟩
    obtain ⟨hsome, hmap⟩ := hrest ids' hkeeps'
    have hlookup := hkeeps' key _ (hkeeps key _ hid.2.2)
    refine ⟨List.forall_mem_cons.mpr ⟨by rw [hlookup]; rfl, hsome⟩, ?_⟩
    rw [List.map_cons, hlookup, ← hmap]
    rfl

omit [FloatingPoint R] in
lemma numberRows_eq_map {size : ℕ} {ids : List (AggregateKey × ℕ)}
    {rows : List (AggregateKey × RowId)}
    (h : ∀ row ∈ rows, ∃ resultId, row.1 = .entry (.cached resultId)) :
    (numberRows size ids rows).1 = rows.map fun row => ((resultIdOf 0 [] row.1).1, row.2) := by
  induction rows with
  | nil => rfl
  | cons row rows ih =>
    rw [List.forall_mem_cons] at h
    obtain ⟨⟨resultId, hkey⟩, hrest⟩ := h
    obtain ⟨key, rowId⟩ := row
    obtain rfl : key = .entry (.cached resultId) := hkey
    rw [List.map_cons, ← ih hrest]
    rfl

omit [FloatingPoint R] in
lemma numberRows_eq_map_zero {size : ℕ} {ids : List (AggregateKey × ℕ)}
    {rows : List (AggregateKey × RowId)} (h : ∀ row ∈ rows, row.1 = .empty) :
    (numberRows size ids rows).1 = rows.map fun row => (0, row.2) := by
  induction rows with
  | nil => rfl
  | cons row rows ih =>
    rw [List.forall_mem_cons] at h
    obtain ⟨key, rowId⟩ := row
    obtain rfl : key = .empty := h.1
    rw [List.map_cons, ← ih h.2]
    rfl

omit [FloatingPoint R] in
/-- The rows of all chunks with their keys. -/
lemma flatten_keyedRows (table : Table R) (keyOf : ℕ → ℕ → AggregateKey) : (keyedRows table keyOf).flatten =
    table.rowIds.map fun rowId => (keyOf rowId.chunkId rowId.chunkOffset, rowId) := by
  rw [keyedRows, Table.rowIds, List.map_flatMap, List.flatMap_def]
  congr 1
  refine List.map_congr_left fun _ _ => ?_
  rw [List.map_map]
  rfl

/-- The index of the result of every row: rows have the same index if and only if they have the same
values in the GROUP BY columns. -/
lemma numberedRows_spec (ht : table.WellFormed)
    (hcols : ∀ c ∈ groupByColumnIds, c < table.getColumnCount) : ∃ indexOf : RowId → ℕ,
    numberedRows table groupByColumnIds = table.rowIds.map (fun rowId => (indexOf rowId, rowId)) ∧
      ∀ id₁ ∈ table.rowIds, ∀ id₂ ∈ table.rowIds, (indexOf id₁ = indexOf id₂ ↔
        groupValues table groupByColumnIds id₁ = groupValues table groupByColumnIds id₂) := by
  obtain ⟨keyOf, hrows, hkeys, hcached⟩ := partitionByGroupByKeys_keys ht hcols
  have hkinds : ∀ row ∈ (partitionByGroupByKeys table groupByColumnIds).rows.flatten,
      row.1.kind = (partitionByGroupByKeys table groupByColumnIds).kind groupByColumnIds := by
    intro row hrow
    obtain ⟨rows, hmem, hrow⟩ := List.mem_flatten.mp hrow
    exact (partitioned_rows rows hmem row hrow).1
  -- an index for every key
  have hindex : ∃ f : AggregateKey → ℕ, numberedRows table groupByColumnIds =
        (partitionByGroupByKeys table groupByColumnIds).rows.flatten.map
          (fun row => (f row.1, row.2)) ∧
      ∀ row ∈ (partitionByGroupByKeys table groupByColumnIds).rows.flatten,
        ∀ row' ∈ (partitionByGroupByKeys table groupByColumnIds).rows.flatten,
          f row.1 = f row'.1 → row.1 = row'.1 := by
    rw [numberedRows]
    cases hkind : (partitionByGroupByKeys table groupByColumnIds).kind groupByColumnIds with
    | hashed =>
      rw [hkind] at hkinds
      have hstart : ∀ size : ℕ, Numbered size (size + ([] : List (AggregateKey × ℕ)).length)
          ([] : List (AggregateKey × ℕ)) := .nil
      obtain ⟨hnumbered, -, hspec⟩ := numberRows_of_hashed (hstart
        (partitionByGroupByKeys table groupByColumnIds).expectedResultSize) hkinds
      obtain ⟨hsome, hmap⟩ := hspec _ (.refl _)
      refine ⟨fun key => ((numberRows (partitionByGroupByKeys table
        groupByColumnIds).expectedResultSize [] (partitionByGroupByKeys table
          groupByColumnIds).rows.flatten).2.lookup key).getD 0, hmap, fun row hrow row' hrow' heq => ?_⟩
      obtain ⟨n, hn⟩ := Option.isSome_iff_exists.mp (hsome row hrow)
      obtain ⟨n', hn'⟩ := Option.isSome_iff_exists.mp (hsome row' hrow')
      dsimp only at heq
      rw [hn, hn', Option.getD_some, Option.getD_some] at heq
      exact hnumbered.injective _ _ n hn (heq ▸ hn')
    | cached =>
      have hcases : ∀ row ∈ (partitionByGroupByKeys table groupByColumnIds).rows.flatten,
          ∃ resultId, row.1 = .entry (.cached resultId) := by
        intro row hrow
        rw [hrows, flatten_keyedRows table] at hrow
        obtain ⟨rowId, -, rfl⟩ := List.mem_map.mp hrow
        exact hcached hkind _ _
      refine ⟨fun key => (resultIdOf 0 [] key).1, ?_, fun row hrow row' hrow' heq => ?_⟩
      · exact numberRows_eq_map hcases
      · obtain ⟨n, hn⟩ := hcases row hrow
        obtain ⟨n', hn'⟩ := hcases row' hrow'
        rw [hn, hn'] at heq ⊢
        exact congrArg (fun n => AggregateKey.entry (.cached n)) heq
    | empty =>
      rw [hkind] at hkinds
      have hcases : ∀ row ∈ (partitionByGroupByKeys table groupByColumnIds).rows.flatten,
          row.1 = .empty := by
        intro row hrow
        have hkey := hkinds row hrow
        rw [AggregateKey.kind] at hkey
        cases hfirst : row.1 with
        | empty => rfl
        | entry e =>
          rw [hfirst] at hkey
          cases e <;> simp [AggregateKey.firstKeyEntry] at hkey
        | entries e es =>
          rw [hfirst] at hkey
          cases e <;> simp [AggregateKey.firstKeyEntry] at hkey
      refine ⟨fun _ => 0, numberRows_eq_map_zero hcases, fun row hrow row' hrow' _ => ?_⟩
      rw [hcases row hrow, hcases row' hrow']
  obtain ⟨f, hmap, hinj⟩ := hindex
  have hflatten := flatten_keyedRows table keyOf
  rw [← hrows] at hflatten
  refine ⟨fun rowId => f (keyOf rowId.chunkId rowId.chunkOffset), ?_, fun id₁ h₁ id₂ h₂ => ?_⟩
  · rw [hmap, hflatten, List.map_map]
    rfl
  · rw [← hkeys id₁ h₁ id₂ h₂]
    refine ⟨fun h => ?_, fun h => congrArg f h⟩
    rw [hflatten] at hinj
    exact hinj _ (List.mem_map_of_mem h₁) _ (List.mem_map_of_mem h₂) h

end

end Skyrise
