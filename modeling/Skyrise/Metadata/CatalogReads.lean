/-
What a catalog returns.

The catalog has stored of a table what the service held when the table was read for
the first time since it was last deleted.  Of what is read of a table only the
manifest changes while the table exists, so all other reads return what the service
holds.
-/
import Skyrise.Metadata.GlueCatalog

namespace Skyrise

namespace GlueCatalog

variable {texts : GlueTexts} {glue glue' : GlueService} {s : GlueCatalog} {history : History}
  {name n : Bytes} {m m' : TableMetadata} {t : GlueTable} {cache : Bytes → Option TableMetadata}

/-! ### What the service holds -/

lemma toTableMetadata_tableName (h : toTableMetadata texts t = .ok m) : m.tableName = t.name := by
  obtain ⟨tableSchema, -, h₁⟩ := exists_of_bind_eq_ok h
  obtain ⟨location, -, h₂⟩ := exists_of_bind_eq_ok h₁
  split at h₂
  · exact Except.ok.inj h₂ ▸ rfl
  · obtain ⟨manifest, -, h₃⟩ := exists_of_bind_eq_ok h₂
    exact Except.ok.inj h₃ ▸ rfl

/-- Nothing can be read of a table that does not exist. -/
lemma getTable_of_held (h : held texts glue name = .ok m) :
    ∃ t, glue.getTable name = some t ∧ toTableMetadata texts t = .ok m := by
  rw [held, glueTableSchema] at h
  cases hget : glue.getTable name with
  | some t =>
    rw [hget] at h
    exact ⟨t, rfl, h⟩
  | none =>
    rw [hget] at h
    have hempty : toTableMetadata texts ⟨[], [], [], []⟩ = .ok m := h
    rw [toTableMetadata] at hempty
    obtain ⟨tableSchema, -, h₁⟩ := exists_of_bind_eq_ok hempty
    obtain ⟨location, hlocation, -⟩ := exists_of_bind_eq_ok h₁
    cases hlocation

lemma held_of_getTable (h : glue.getTable name = some t) :
    held texts glue name = toTableMetadata texts t := by
  rw [held, glueTableSchema, h]
  rfl

lemma held_tableName (h : held texts glue name = .ok m) : m.tableName = toLowerCase name := by
  obtain ⟨t, ht, hm⟩ := getTable_of_held h
  rw [toTableMetadata_tableName hm, (GlueService.getTable_eq_some_iff.mp ht).2]

/-- The metadata of two versions of a table. -/
structure SameTable (m m' : TableMetadata) : Prop where
  tableSchema : m.tableSchema = m'.tableSchema
  location : m.location = m'.location

lemma lookup_addParameter_of_ne {parameters : List (String × Bytes)} {key key' : String}
    {value : Bytes} (h : key' ≠ key) :
    (addParameter parameters key value).lookup key' = parameters.lookup key' := by
  rw [addParameter]
  split
  · rfl
  · rw [List.lookup_append]
    have hnone : List.lookup key' [(key, value)] = none := by
      rw [List.lookup_cons, beq_eq_false_iff_ne.mpr h]
      rfl
    rw [hnone, Option.or_none]

lemma lookup_addParameter_self (parameters : List (String × Bytes)) (key : String)
    (value : Bytes) : (addParameter parameters key value).lookup key = parameters.lookup key ∨
      (addParameter parameters key value).lookup key = some value := by
  rw [addParameter]
  split
  · exact .inl rfl
  · next h =>
    right
    rw [List.lookup_append, Option.not_isSome_iff_eq_none.mp h]
    rw [List.lookup_cons_self]
    rfl

/-- A manifest changes nothing else of a table. -/
lemma toTableMetadata_addParameter {manifest : ObjectReference}
    (htexts : texts.readReference (texts.writeReference manifest) = .ok manifest)
    (h : toTableMetadata texts t = .ok m) :
    ∃ m', toTableMetadata texts ⟨t.name, t.columns, t.location,
        addParameter t.parameters kManifestRootKey (texts.writeReference manifest)⟩ = .ok m' ∧
      SameTable m m' := by
  have hkey : kKeyConstraintRootKey ≠ kManifestRootKey := by decide
  obtain ⟨tableSchema, hschema, h₁⟩ := exists_of_bind_eq_ok h
  obtain ⟨location, hlocation, h₂⟩ := exists_of_bind_eq_ok h₁
  have hsame : SameTable m ⟨t.name, tableSchema, location, m.manifest⟩ := by
    split at h₂
    · exact Except.ok.inj h₂ ▸ ⟨rfl, rfl⟩
    · obtain ⟨r, -, h₃⟩ := exists_of_bind_eq_ok h₂
      exact Except.ok.inj h₃ ▸ ⟨rfl, rfl⟩
  simp only [toTableMetadata, lookup_addParameter_of_ne hkey, hschema, hlocation, bind, Except.bind]
  rcases lookup_addParameter_self t.parameters kManifestRootKey (texts.writeReference manifest)
    with hold | hnew
  · rw [hold]
    split at h₂
    · exact ⟨_, rfl, hsame.tableSchema, hsame.location⟩
    · obtain ⟨r, hr, -⟩ := exists_of_bind_eq_ok h₂
      simp only [hr]
      exact ⟨_, rfl, hsame.tableSchema, hsame.location⟩
  · rw [hnew]
    simp only [htexts]
    exact ⟨_, rfl, hsame.tableSchema, hsame.location⟩

/-! ### The cache -/

lemma emplace_apply (cache : Bytes → Option TableMetadata) (name n : Bytes) (m : TableMetadata) :
    emplace cache name m n = (cache n).or (if n = name then some m else none) := by
  rw [emplace]
  by_cases hn : n = name
  · subst hn
    cases h : cache n with
    | some m' => simp [h]
    | none => simp
  · split <;> simp [hn]

variable (texts cache) in
/-- After the loop of `Tables`, the tables are stored that were read. -/
lemma cacheTables_eq {ts : List GlueTable} (hts : ∀ t ∈ ts, t ∈ glue.tables) :
    (cacheTables texts ts cache).1 =
        (ts.mapM (toTableMetadata texts)).map (List.map TableMetadata.tableName) ∧
      ∀ n, (cacheTables texts ts cache).2 n = (cache n).or
        (if n ∈ (ts.takeWhile fun t => (toTableMetadata texts t).isOk).map GlueTable.name then
          (held texts glue n).toOption else none) := by
  induction ts generalizing cache with
  | nil => exact ⟨rfl, fun n => by simp [cacheTables]⟩
  | cons t ts ih =>
    have ht := hts t List.mem_cons_self
    cases hm : toTableMetadata texts t with
    | error e =>
      simp only [cacheTables, hm, List.mapM_cons, bind, Except.bind, List.takeWhile_cons,
        Except.isOk, Except.toBool]
      exact ⟨rfl, fun n => by simp⟩
    | ok m =>
      obtain ⟨hnames, hcache⟩ := ih (emplace cache m.tableName m)
        fun t' ht' => hts t' (List.mem_cons_of_mem _ ht')
      have hname := toTableMetadata_tableName hm
      have hheld : held texts glue t.name = .ok m := by
        have hget : glue.getTable t.name = some t :=
          GlueService.getTable_eq_some_iff.mpr ⟨ht, (glue.lowerCase t ht).symm⟩
        rw [held_of_getTable hget, hm]
      constructor
      · simp only [cacheTables, hm, List.mapM_cons, bind, Except.bind, hnames]
        cases ts.mapM (toTableMetadata texts) <;> rfl
      · intro n
        have hok : (Except.ok m : Except Exception TableMetadata).isOk = true := rfl
        simp only [cacheTables, hm, List.takeWhile_cons, hok, if_true, List.map_cons,
          List.mem_cons]
        rw [hcache, emplace_apply, hname, Option.or_assoc]
        congr 1
        by_cases hn : n = t.name
        · simp [hn, hheld, Except.toOption]
        · simp [hn]

/-! ### The invariant -/

variable (texts) in
/-- What a catalog has stored is what was read first, and a version of what the service holds. -/
structure Inv (s : GlueCatalog) (history : History) : Prop where
  cached : ∀ n, s.cache n = firstRead texts n history
  current : ∀ n m, s.cache n = some m →
    toLowerCase n = n ∧ ∃ m', held texts s.glue n = .ok m' ∧ SameTable m m'

lemma Inv.getTable_of_cached (h : Inv texts s history) (hm : s.cache n = some m) :
    ∃ t, s.glue.getTable n = some t := by
  obtain ⟨-, m', hm', -⟩ := h.current n m hm
  obtain ⟨t, ht, -⟩ := getTable_of_held hm'
  exact ⟨t, ht⟩

lemma Inv.tableExists (h : Inv texts s history) (name : Bytes) :
    s.tableExists name = (s.glue.getTable name).isSome := by
  rw [GlueCatalog.tableExists, GlueService.getTable_toLowerCase]
  cases hcache : s.cache (toLowerCase name) with
  | none => simp
  | some m =>
    obtain ⟨t, ht⟩ := h.getTable_of_cached hcache
    rw [GlueService.getTable_toLowerCase] at ht
    simp [ht]

variable (texts) in
/-- What is loaded, and what is stored then. -/
lemma loadTableMetadata_spec (s : GlueCatalog) (name : Bytes) :
    (s.loadTableMetadata texts name).1 =
        (s.cache (toLowerCase name)).elim (held texts s.glue (toLowerCase name)) .ok ∧
      (s.loadTableMetadata texts name).2.glue = s.glue ∧
      ∀ n, (s.loadTableMetadata texts name).2.cache n = (s.cache n).or
        (if toLowerCase name = n then (held texts s.glue n).toOption else none) := by
  rw [GlueCatalog.loadTableMetadata]
  cases hcache : s.cache (toLowerCase name) with
  | some m =>
    refine ⟨rfl, rfl, fun n => ?_⟩
    by_cases hn : toLowerCase name = n
    · rw [← hn, hcache]
      rfl
    · simp [hn]
  | none =>
    dsimp only
    cases hm : toTableMetadata texts (glueTableSchema s.glue (toLowerCase name)) with
    | error e =>
      refine ⟨hm.symm, rfl, fun n => ?_⟩
      by_cases hn : toLowerCase name = n
      · rw [← hn, held, hm]
        simp [Except.toOption]
      · simp [hn]
    | ok m =>
      have hname : m.tableName = toLowerCase name := by
        have hheld : held texts s.glue (toLowerCase name) = .ok m := hm
        rw [held_tableName hheld, toLowerCase_toLowerCase]
      refine ⟨?_, rfl, fun n => ?_⟩
      · show Except.ok ((s.cache m.tableName).getD m) = held texts s.glue (toLowerCase name)
        rw [hname, hcache]
        exact hm.symm
      · show emplace s.cache m.tableName m n = _
        rw [emplace_apply, hname]
        by_cases hn : toLowerCase name = n
        · rw [← hn, held, hm]
          simp [Except.toOption]
        · rw [if_neg hn, if_neg fun h => hn h.symm]

/-- Tables that are read are stored, and nothing else changes. -/
lemma Inv.read {s' : GlueCatalog} {operation : Operation} (h : Inv texts s history)
    (hglue : s'.glue = s.glue) (hdeletes : ∀ n, deletes n operation = false)
    (hlower : ∀ n, reads texts s.glue n operation → toLowerCase n = n)
    (hcache : ∀ n, s'.cache n = (s.cache n).or
      (if reads texts s.glue n operation then (held texts s.glue n).toOption else none)) :
    Inv texts s' ((operation, s.glue) :: history) := by
  constructor
  · intro n
    rw [firstRead, hdeletes n, if_neg Bool.false_ne_true, hcache, h.cached]
  · intro n m hm
    rw [hcache] at hm
    rw [hglue]
    cases hold : s.cache n with
    | some m' =>
      rw [hold] at hm
      obtain rfl : m' = m := Option.some.inj hm
      exact h.current n m' hold
    | none =>
      rw [hold, Option.none_or] at hm
      split at hm
      · next hreads =>
        cases hheld : held texts s.glue n with
        | error e => rw [hheld] at hm; cases hm
        | ok m' =>
          rw [hheld] at hm
          obtain rfl : m' = m := Option.some.inj hm
          exact ⟨hlower n hreads, m', rfl, rfl, rfl⟩
      · cases hm

/-- If nothing is read, what is stored stays a version of what the service holds. -/
lemma Inv.write {operation : Operation} (h : Inv texts s history)
    (hdeletes : ∀ n, deletes n operation = false)
    (hreads : ∀ n, reads texts s.glue n operation = false)
    (hheld : ∀ n m', held texts s.glue n = .ok m' →
      ∃ m'', held texts glue' n = .ok m'' ∧ SameTable m' m'') :
    Inv texts ⟨glue', s.cache⟩ ((operation, s.glue) :: history) := by
  constructor
  · intro n
    rw [firstRead, hdeletes n, hreads n, if_neg Bool.false_ne_true, if_neg Bool.false_ne_true,
      Option.or_none]
    exact h.cached n
  · intro n m hm
    obtain ⟨hlower, m', hm', hsame⟩ := h.current n m hm
    obtain ⟨m'', hm'', hsame'⟩ := hheld n m' hm'
    exact ⟨hlower, m'', hm'', hsame.tableSchema.trans hsame'.tableSchema,
      hsame.location.trans hsame'.location⟩

/-- A request that fails changes nothing. -/
lemma Inv.fail {operation : Operation} (h : Inv texts s history)
    (hdeletes : ∀ n, deletes n operation = false)
    (hreads : ∀ n, reads texts s.glue n operation = false) :
    Inv texts s ((operation, s.glue) :: history) :=
  h.write hdeletes hreads fun _ m' hm' => ⟨m', hm', rfl, rfl⟩

lemma Inv.addTableMetadata (h : Inv texts s history) (tableName : Bytes)
    (tableSchema : TableSchema) (metadata : ObjectReference) :
    Inv texts (s.step texts (.addTableMetadata tableName tableSchema metadata)).2
      ((.addTableMetadata tableName tableSchema metadata, s.glue) :: history) := by
  rw [step]
  cases newTable texts tableName tableSchema metadata with
  | error e => exact h.fail (fun _ => rfl) fun _ => rfl
  | ok t =>
    cases hcreate : s.glue.createTable t with
    | none => simpa only [hcreate] using h.fail (fun _ => rfl) fun _ => rfl
    | some glue' =>
      simp only [hcreate]
      refine h.write (fun _ => rfl) (fun _ => rfl) fun n m' hm' => ⟨m', ?_, rfl, rfl⟩
      obtain ⟨t', ht', hread⟩ := getTable_of_held hm'
      -- the new table is none that is there
      have hne : toLowerCase n ≠ toLowerCase t.name := by
        intro heq
        have hnone := GlueService.getTable_eq_none_of_createTable hcreate
        rw [← GlueService.getTable_toLowerCase, ← heq, GlueService.getTable_toLowerCase, ht']
          at hnone
        cases hnone
      rw [held_of_getTable (t := t'), hread]
      rw [GlueService.getTable_createTable hcreate, if_neg hne, ht']

lemma Inv.deleteTableMetadata (h : Inv texts s history) (tableName : Bytes) :
    Inv texts (s.step texts (.deleteTableMetadata tableName)).2
      ((.deleteTableMetadata tableName, s.glue) :: history) := by
  have hdeletes : ∀ n, deletes n (.deleteTableMetadata tableName) =
      decide (toLowerCase tableName = n) := fun _ => rfl
  have hreads : ∀ n, reads texts s.glue n (.deleteTableMetadata tableName) = false := fun _ => rfl
  rw [step]
  cases hdelete : s.glue.deleteTable (toLowerCase tableName) with
  | none =>
    have hnone := GlueService.getTable_eq_none_of_deleteTable hdelete
    refine ⟨fun n => ?_, h.current⟩
    rw [firstRead, hdeletes, hreads, if_neg Bool.false_ne_true, Option.or_none, ← h.cached]
    by_cases hn : toLowerCase tableName = n
    · rw [if_pos (by simpa using hn), ← hn]
      cases hcache : s.cache (toLowerCase tableName) with
      | none => rfl
      | some m =>
        obtain ⟨t, ht⟩ := h.getTable_of_cached hcache
        rw [hnone] at ht
        cases ht
    · rw [if_neg (by simpa using hn)]
  | some glue' =>
    constructor
    · intro n
      rw [firstRead, hdeletes, hreads, if_neg Bool.false_ne_true, Option.or_none, ← h.cached]
      by_cases hn : toLowerCase tableName = n
      · rw [if_pos (by simpa using hn), ← hn]
        exact Function.update_self ..
      · rw [if_neg (by simpa using hn)]
        exact Function.update_of_ne (fun heq => hn heq.symm) ..
    · intro n m hm
      by_cases hn : n = toLowerCase tableName
      · rw [hn] at hm
        simp at hm
      · have hm' : s.cache n = some m := by simpa [Function.update_of_ne hn] using hm
        obtain ⟨hlower, m', hheld, hsame⟩ := h.current n m hm'
        refine ⟨hlower, m', ?_, hsame⟩
        obtain ⟨t, ht, hread⟩ := getTable_of_held hheld
        show held texts glue' n = .ok m'
        rw [held_of_getTable (t := t), hread]
        rw [GlueService.getTable_deleteTable hdelete, if_neg, ht]
        rwa [hlower, toLowerCase_toLowerCase]

lemma Inv.addTableManifest (h : Inv texts s history) (tableName : Bytes)
    {manifest : ObjectReference}
    (htexts : texts.readReference (texts.writeReference manifest) = .ok manifest) :
    Inv texts (s.step texts (.addTableManifest tableName manifest)).2
      ((.addTableManifest tableName manifest, s.glue) :: history) := by
  rw [step]
  split
  · next hexists =>
    rw [h.tableExists] at hexists
    obtain ⟨t, ht⟩ := Option.isSome_iff_exists.mp hexists
    have hschema : glueTableSchema s.glue tableName = t := by rw [glueTableSchema, ht]; rfl
    refine h.write (fun _ => rfl) (fun _ => rfl) fun n m' hm' => ?_
    obtain ⟨t', ht', hread⟩ := getTable_of_held hm'
    have hget := GlueService.getTable_updateParameters s.glue t.name n
      (addParameter t.parameters kManifestRootKey (texts.writeReference manifest))
    rw [hschema, held_of_getTable (hget.trans (congrArg _ ht')), GlueService.setParameters]
    split
    · next hname =>
      -- there is only one table of the name
      obtain ⟨hmem, hlower⟩ := GlueService.getTable_eq_some_iff.mp ht
      obtain ⟨hmem', hlower'⟩ := GlueService.getTable_eq_some_iff.mp ht'
      have hself : s.glue.getTable tableName = some t' :=
        GlueService.getTable_eq_some_iff.mpr ⟨hmem', hname.trans hlower⟩
      obtain rfl : t = t' := Option.some.inj (ht.symm.trans hself)
      exact toTableMetadata_addParameter htexts hread
    · exact ⟨m', hread, rfl, rfl⟩
  · exact h.fail (fun _ => rfl) fun _ => rfl

lemma Inv.readTable {operation : Operation} (h : Inv texts s history) (tableName : Bytes)
    (response : TableMetadata → Response)
    (hdeletes : ∀ n, deletes n operation = false)
    (hreads : ∀ n, reads texts s.glue n operation = decide (toLowerCase tableName = n)) :
    Inv texts (s.readTable texts tableName response).2 ((operation, s.glue) :: history) := by
  obtain ⟨-, hglue, hcache⟩ := loadTableMetadata_spec texts s tableName
  refine h.read hglue hdeletes (fun n hn => ?_) fun n => ?_
  · rw [hreads, decide_eq_true_eq] at hn
    rw [← hn, toLowerCase_toLowerCase]
  · rw [hreads]
    exact (hcache n).trans (by simp)

variable (texts) in
/-- An operation whose manifest, if it adds one, is read back from its text. -/
def Operation.Readable (operation : Operation) : Prop :=
  ∀ tableName manifest, operation = .addTableManifest tableName manifest →
    texts.readReference (texts.writeReference manifest) = .ok manifest

/-- Every operation keeps the invariant. -/
lemma Inv.step {operation : Operation} (h : Inv texts s history)
    (htexts : operation.Readable texts) :
    Inv texts (s.step texts operation).2 ((operation, s.glue) :: history) := by
  cases operation with
  | addTableMetadata tableName tableSchema metadata =>
    exact h.addTableMetadata tableName tableSchema metadata
  | deleteTableMetadata tableName => exact h.deleteTableMetadata tableName
  | addTableManifest tableName manifest =>
    exact h.addTableManifest tableName (htexts _ _ rfl)
  | tableExists tableName => exact h.fail (fun _ => rfl) fun _ => rfl
  | getTableSchema tableName => exact h.readTable _ _ (fun _ => rfl) fun _ => rfl
  | tableManifest tableName => exact h.readTable _ _ (fun _ => rfl) fun _ => rfl
  | tableBucketName tableName => exact h.readTable _ _ (fun _ => rfl) fun _ => rfl
  | tables =>
    obtain ⟨-, hcache⟩ := cacheTables_eq texts s.cache
      fun t (ht : t ∈ s.glue.tables) => ht
    refine h.read rfl (fun _ => rfl) (fun n hn => ?_) fun n => ?_
    · obtain ⟨t, ht, rfl⟩ := List.mem_map.mp (of_decide_eq_true hn)
      exact s.glue.lowerCase t ((List.takeWhile_sublist _).subset ht)
    · exact (hcache n).trans (by simp [reads])

/-- Every read returns what is expected. -/
lemma Inv.response (h : Inv texts s history) (operation : Operation)
    {r : Except Exception Response} (hr : expected texts s.glue history operation = some r) :
    (s.step texts operation).1 = r := by
  have hread : ∀ (tableName : Bytes) (response : TableMetadata → Response),
      (∀ m m', SameTable m m' → response m = response m') →
      (s.readTable texts tableName response).1 =
        (held texts s.glue (toLowerCase tableName)).map response := by
    intro tableName response hsame
    obtain ⟨hload, -, -⟩ := loadTableMetadata_spec texts s tableName
    show (s.loadTableMetadata texts tableName).1.map response = _
    rw [hload]
    cases hcache : s.cache (toLowerCase tableName) with
    | none => rfl
    | some m =>
      obtain ⟨-, m', hm', hs⟩ := h.current _ m hcache
      rw [hm']
      exact congrArg Except.ok (hsame m m' hs)
  cases operation with
  | addTableMetadata tableName tableSchema metadata => cases hr
  | deleteTableMetadata tableName => cases hr
  | addTableManifest tableName manifest => cases hr
  | tableExists tableName =>
    obtain rfl := Option.some.inj hr
    show Except.ok (Response.exists (s.tableExists tableName)) = _
    rw [h.tableExists]
  | getTableSchema tableName =>
    obtain rfl := Option.some.inj hr
    exact hread tableName _ fun m m' hs => congrArg Response.schema hs.tableSchema
  | tableBucketName tableName =>
    obtain rfl := Option.some.inj hr
    exact hread tableName _ fun m m' hs =>
      congrArg (fun location => Response.bucketName location.bucketName) hs.location
  | tableManifest tableName =>
    obtain rfl := Option.some.inj hr
    obtain ⟨hload, -, -⟩ := loadTableMetadata_spec texts s tableName
    show (s.loadTableMetadata texts tableName).1.map _ = _
    rw [hload, h.cached]
  | tables =>
    obtain rfl := Option.some.inj hr
    obtain ⟨hnames, -⟩ := cacheTables_eq texts s.cache
      fun t (ht : t ∈ s.glue.tables) => ht
    show (cacheTables texts s.glue.tables s.cache).1.map Response.names = _
    rw [hnames]
    cases s.glue.tables.mapM (toTableMetadata texts) <;> rfl

/-- Every run keeps the invariant. -/
lemma Inv.foldl (operations : List Operation) (s : GlueCatalog) (history : History)
    (htexts : ∀ operation ∈ operations, operation.Readable texts) (h : Inv texts s history) :
    Inv texts (operations.foldl (fun (s, history) operation =>
        ((GlueCatalog.step texts s operation).2, (operation, s.glue) :: history)) (s, history)).1
      (operations.foldl (fun (s, history) operation =>
        ((GlueCatalog.step texts s operation).2, (operation, s.glue) :: history))
          (s, history)).2 := by
  induction operations generalizing s history with
  | nil => exact h
  | cons operation operations ih =>
    exact ih _ _ (fun o ho => htexts o (List.mem_cons_of_mem _ ho))
      (h.step (htexts operation List.mem_cons_self))

lemma inv_run {operations : List Operation}
    (htexts : ∀ operation ∈ operations, operation.Readable texts) (glue : GlueService) :
    Inv texts (run texts operations glue).1 (run texts operations glue).2 :=
  Inv.foldl operations _ _ htexts ⟨fun _ => rfl, fun _ _ h => nomatch h⟩

/-- Texts of references with a bucket, an object and a tag of one letter each. -/
def shortTexts : GlueTexts where
  writeConstraints _ := []
  readConstraints _ := .ok []
  writeReference r := r.bucketName ++ r.identifier ++ r.etag
  readReference text :=
    match text with
    | [b, i, e] => .ok ⟨[b], [i], [e], none⟩
    | _ => .error .outOfRange
  alreadyExists := "Table already exists."
  entityNotFound := "Table not found."

/-- A database without tables. -/
def noTables : GlueService := ⟨[], by simp, List.nodup_nil⟩

/-- A table `t` gets a manifest. -/
def addManifest : Operation := .addTableManifest [116] ⟨[98], [105], [101], none⟩

/-- A table `T`, whose name the service folds to `t`, is registered. -/
def addTable : Operation :=
  .addTableMetadata [84] ⟨[⟨"a", .int, false⟩], []⟩ ⟨[98], [100], [], none⟩

lemma readable_addManifest : ∀ operation ∈ [addTable, addManifest],
    operation.Readable shortTexts := by
  intro operation hmem tableName manifest heq
  simp only [List.mem_cons, List.not_mem_nil, or_false] at hmem
  rcases hmem with rfl | rfl <;> cases heq
  rfl

end GlueCatalog

end Skyrise
