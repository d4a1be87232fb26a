import Ducklake.Catalog.Reads
import Ducklake.Interleaving.Counters

/-!
# Coherence of cached catalogs

The catalog cache has one entry for each schema version.  All committed snapshots of a version
have the same catalog: a commit that may change the catalog takes the next version, and no commit
changes what older snapshots see.
-/

set_option autoImplicit false

namespace Ducklake

open Lib Caches Spec Maintenance Transaction

/-! ## Catalogs of older snapshots -/

theorem Spec.Database.CatalogUpdates.readsAs
    {snapshot creates : Int}
    {before after : Database}
    (updates : before.CatalogUpdates creates after)
    (older : snapshot < creates)
    (partitionColumns : ∀ info ∈ Versioned.entitiesAt snapshot before.partitionInfo,
      after.partitionColumns.filter (fun column => column.partitionId = info.partitionId) =
        before.partitionColumns.filter fun column => column.partitionId = info.partitionId)
    (sortExpressions : ∀ info ∈ Versioned.entitiesAt snapshot before.sortInfo,
      after.sortExpressions.filter (fun expression => expression.sortId = info.sortId) =
        before.sortExpressions.filter fun expression => expression.sortId = info.sortId)
    (macroImpls : ∀ entity ∈ Versioned.entitiesAt snapshot before.macros,
      after.macroImpls.filter (fun row => row.macroId = entity.macroId) =
        before.macroImpls.filter fun row => row.macroId = entity.macroId)
    (macroParameters : ∀ entity ∈ Versioned.entitiesAt snapshot before.macros,
      after.macroParameters.filter (fun row => row.macroId = entity.macroId) =
        before.macroParameters.filter fun row => row.macroId = entity.macroId) :
    Catalog.ReadsAs before snapshot after snapshot where
  schemas := (updates.schemas.sameAt older).entitiesAt_eq
  tables := (updates.tables.sameAt older).entitiesAt_eq
  views := (updates.views.sameAt older).entitiesAt_eq
  macros := (updates.macros.sameAt older).entitiesAt_eq
  columns := (updates.columns.sameAt older).entitiesAt_eq
  tags := (updates.tags.sameAt older).entitiesAt_eq
  columnTags := (updates.columnTags.sameAt older).entitiesAt_eq
  partitionInfo := (updates.partitionInfo.sameAt older).entitiesAt_eq
  sortInfo := (updates.sortInfo.sameAt older).entitiesAt_eq
  partitionColumns := partitionColumns
  sortExpressions := sortExpressions
  macroImpls := macroImpls
  macroParameters := macroParameters

theorem filter_append_of_given
    {α : Type}
    (rows added : List α)
    (idOf : α → Int)
    (first limit id : Int)
    (new : ∀ row ∈ added, Given first limit (idOf row))
    (old : id < first) :
    (rows ++ added).filter (fun row => idOf row = id) = rows.filter fun row => idOf row = id := by
  have none_ : added.filter (fun row => idOf row = id) = [] := by
    rw [List.filter_eq_nil_iff]
    intro row member
    have above := (new row member).1
    simp only [decide_eq_true_eq]
    omega
  rw [List.filter_append, none_, List.append_nil]

theorem load_of_persistCommit
    (env : Environment)
    (now : Int)
    (prepared : PreparedCommit)
    (before after : Database)
    (first snapshot : Int)
    (ids : before.IdsBelow first)
    (new : prepared.changes.NewIds first prepared.state.nextCatalogId)
    (fresh : prepared.changes.FreshAt prepared.state.snapshotId)
    (older : snapshot < prepared.state.snapshotId)
    (success : persistCommit env now prepared before = .ok after) :
    Catalog.load env after snapshot = Catalog.load env before snapshot := by
  have updates := persistCommit_catalogUpdates env now prepared before after fresh success
  obtain ⟨rows, persisted, _, rfl⟩ := persistCommit_eq_ok env now prepared before after success
  have same := persist_same env _ _ _ _ persisted
  unfold SameExceptInlined at same
  refine (updates.readsAs older ?_ ?_ ?_ ?_).load env
  · intro info visible
    rw [same]
    exact filter_append_of_given _ _ DucklakePartitionColumn.partitionId first _ _
      new.partitionColumns (ids.partitionInfo.entitiesAt snapshot info visible).1
  · intro info visible
    rw [same]
    exact filter_append_of_given _ _ DucklakeSortExpression.sortId first _ _
      new.sortExpressions (ids.sortInfo.entitiesAt snapshot info visible).1
  · intro entity visible
    rw [same]
    exact filter_append_of_given _ _ DucklakeMacroImpl.macroId first _ _
      new.macroImpls (ids.macros.entitiesAt snapshot entity visible)
  · intro entity visible
    rw [same]
    exact filter_append_of_given _ _ DucklakeMacroParameters.macroId first _ _
      new.macroParameters (ids.macros.entitiesAt snapshot entity visible)

/-! ## Commits of data -/

/-- The two databases have the same rows in the tables that a catalog is loaded from. -/
def SameCatalogRows (before after : Database) : Prop :=
  after = { before with
    snapshots := after.snapshots
    snapshotChanges := after.snapshotChanges
    schemaVersions := after.schemaVersions
    dataFiles := after.dataFiles
    deleteFiles := after.deleteFiles
    fileColumnStats := after.fileColumnStats
    filePartitionValues := after.filePartitionValues
    inlinedDeletes := after.inlinedDeletes
    inlinedDataTables := after.inlinedDataTables
    inlinedData := after.inlinedData
    tableStats := after.tableStats
    tableColumnStats := after.tableColumnStats }

theorem persistTableRenames_empty
    (snapshot : Int)
    (tables : List (Versioned DucklakeTable)) :
    persistTableRenames snapshot .empty tables = tables := by
  have none_ : tables.filterMap (fun row : Versioned DucklakeTable =>
      if row.endSnapshot = some snapshot then
        ((IndexMap.empty : IndexMap Int Text).get? row.entity.tableId).map fun name =>
          Versioned.new snapshot { row.entity with tableName := name }
      else none) = [] := by
    rw [List.filterMap_eq_nil_iff]
    intro row _
    simp
  rw [persistTableRenames, none_, List.append_nil]

theorem persistCommit_sameCatalogRows
    (env : Environment)
    (now : Int)
    (prepared : PreparedCommit)
    (before after : Database)
    (dataOnly : SameExceptData .empty prepared.changes)
    (success : persistCommit env now prepared before = .ok after) :
    SameCatalogRows before after := by
  obtain ⟨rows, persisted, _, rfl⟩ := persistCommit_eq_ok env now prepared before after success
  have same := persist_same env _ _ _ _ persisted
  unfold SameExceptInlined at same
  unfold SameExceptData at dataOnly
  have noRows : ∀ {α : Type} (rows : List (Versioned α)),
      Versioned.retire prepared.state.snapshotId (fun _ => false) rows = rows :=
    fun rows => Versioned.retire_of_not _ _ rows fun _ _ => rfl
  unfold SameCatalogRows
  rw [same, dataOnly]
  simp [written, persistStatistics, retireRows, detachTables, TransactionChanges.empty, insertNew,
    persistTableRenames_empty, persistTags, IndexMap.contains, noRows]

theorem load_of_sameCatalogRows
    (env : Environment)
    (before after : Database)
    (snapshot later : Int)
    (bounded : before.Until snapshot)
    (older : snapshot ≤ later)
    (same : SameCatalogRows before after) :
    Catalog.load env after later = Catalog.load env before snapshot := by
  unfold SameCatalogRows at same
  have reads : Catalog.ReadsAs before snapshot after later := by
    rw [same]
    exact {
      schemas := bounded.schemas.entitiesAt_eq older
      tables := bounded.tables.entitiesAt_eq older
      views := bounded.views.entitiesAt_eq older
      macros := bounded.macros.entitiesAt_eq older
      columns := bounded.columns.entitiesAt_eq older
      tags := bounded.tags.entitiesAt_eq older
      columnTags := bounded.columnTags.entitiesAt_eq older
      partitionInfo := bounded.partitionInfo.entitiesAt_eq older
      sortInfo := bounded.sortInfo.entitiesAt_eq older
      partitionColumns := fun _ _ => rfl
      sortExpressions := fun _ _ => rfl
      macroImpls := fun _ _ => rfl
      macroParameters := fun _ _ => rfl }
  exact reads.load env

/-! ## The invariant -/

namespace System

/-- Snapshots of one schema version have one catalog, which is also the one in every cache
entry made for the version. -/
structure Coherent (env : Environment) (sys : System) : Prop where
  snapshots : ∀ first ∈ sys.known, ∀ second ∈ sys.known,
    first.schemaVersion = second.schemaVersion →
      Catalog.load env sys.db first.id = Catalog.load env sys.db second.id
  entries : ∀ entry ∈ sys.catalogs, ∀ info ∈ sys.known, entry.1 = info.schemaVersion →
    Catalog.load env sys.db info.id = .ok entry.2

/-- No two commits write different catalogs under one schema version. -/
structure CacheCoherent (env : Environment) (sys : System) : Prop extends sys.Coherent env where
  commits : ∀ first ∈ sys.history, ∀ second ∈ sys.history,
    first.prepared.state.schemaVersion = second.prepared.state.schemaVersion →
      Catalog.load env sys.db first.snapshotId = Catalog.load env sys.db second.snapshotId

section

variable {env : Environment} {sys next : System} {latest : SnapshotInfo}

theorem Coherent.catalogAt
    (coherent : sys.Coherent env)
    (info : SnapshotInfo)
    (source : Source)
    (catalog : Catalog)
    (read : sys.catalogAt env info source = some (.ok catalog)) :
    ∀ other ∈ sys.known, info.schemaVersion = other.schemaVersion →
      Catalog.load env sys.db other.id = .ok catalog := by
  intro other known version
  unfold System.catalogAt at read
  split at read
  · split at read
    · rename_i made entry found
      split at read
      · rename_i same
        cases read
        exact coherent.entries _ (List.mem_of_getElem? found) other known (same.trans version)
      · cases read
    · cases read
  · rename_i snapshot
    split at read
    · rename_i made
      rw [coherent.snapshots other known snapshot made.1 (version.symm.trans made.2.symm)]
      exact Option.some.inj read
    · cases read

theorem Coherent.rememberCatalog
    (coherent : sys.Coherent env)
    (info : SnapshotInfo)
    (source : Source)
    (catalog : Catalog)
    (read : sys.catalogAt env info source = some (.ok catalog)) :
    (sys.rememberCatalog info catalog).Coherent env := by
  refine { coherent with entries := ?_ }
  intro entry member other known version
  rcases List.mem_append.mp member with old | new
  · exact coherent.entries entry old other known version
  · rw [List.mem_singleton.mp new] at version ⊢
    exact coherent.catalogAt info source catalog read other known version

theorem Coherent.of_same
    (coherent : sys.Coherent env)
    (parties : List Party)
    (statistics : List ((Int × Int) × TableStatsMap)) :
    { sys with parties := parties, statistics := statistics }.Coherent env :=
  { coherent with }

theorem Coherent.gathers
    (coherent : sys.Coherent env)
    (gathers : Gathers env sys next) :
    next.Coherent env := by
  cases gathers with
  | nothing => exact coherent
  | catalog read => exact coherent.rememberCatalog _ _ _ read
  | stats reads =>
      cases reads with
      | skipped => exact coherent
      | read catalogRead statsRead =>
          exact (coherent.rememberCatalog _ _ _ catalogRead).of_same _ _

/-- A commit gives its version the catalog of the base, or takes a version that is new. -/
theorem Coherent.recordCommit
    (coherent : sys.Coherent env)
    (counted : sys.Counted latest)
    (commit : Commit)
    (now : Int)
    (committing : Committing env sys latest commit now) :
    (sys.recordCommit commit now).Coherent env := by
  have rows := committing.rows counted
  have base := committing.base
  have last : commit.prepared.state.snapshotId = latest.id + 1 := base ▸ rows.snapshotId
  have unchanged : ∀ info ∈ sys.known, Catalog.load env commit.after info.id =
      Catalog.load env sys.db info.id := by
    intro info known
    refine load_of_persistCommit env now commit.prepared sys.db commit.after latest.nextCatalogId
      info.id counted.idsBelow (base ▸ rows.newIds) rows.fresh ?_ committing.persisted
    rcases counted.older info known with rfl | ⟨below, _⟩ <;> omega
  -- The new snapshot shares its version with the latest one or with none.
  have shared : ∀ info ∈ sys.known, info.schemaVersion = commit.prepared.state.schemaVersion →
      Catalog.load env commit.after commit.prepared.state.snapshotId =
        Catalog.load env sys.db info.id := by
    intro info known version
    cases changed : (ChangeSet.new commit.tx.changes).changesSchema with
    | true =>
        have taken := rows.schemaVersion
        rw [changed, base] at taken
        simp only [if_true] at taken
        rcases counted.older info known with rfl | ⟨_, bound, _⟩ <;> omega
    | false =>
        have kept := rows.schemaVersion
        rw [changed, base] at kept
        obtain ⟨stats, success⟩ := committing.sound.prepared
        obtain ⟨applied, executed, _, _⟩ := prepareCommit_eq_ok env _ _ _ success
        have dataOnly := ChangeSet.apply_same env _ _ _ committing.sound.tx.present changed executed
        have same := persistCommit_sameCatalogRows env now commit.prepared sys.db commit.after
          dataOnly committing.persisted
        rw [load_of_sameCatalogRows env sys.db commit.after latest.id _ counted.until_ (by omega) same]
        refine coherent.snapshots latest counted.newest info known ?_
        rw [version, kept]
        simp
  have cases_ : ∀ info ∈ (sys.recordCommit commit now).known, info ∈ sys.known ∨
      info = .ofSnapshot (commit.prepared.state.snapshot now) := fun info member =>
    (List.mem_append.mp member).imp_right List.mem_singleton.mp
  constructor
  case snapshots =>
    intro first firstKnown second secondKnown version
    change Catalog.load env commit.after first.id = Catalog.load env commit.after second.id
    rcases cases_ first firstKnown with old | rfl <;> rcases cases_ second secondKnown with oldSecond | rfl
    · rw [unchanged first old, unchanged second oldSecond]
      exact coherent.snapshots first old second oldSecond version
    · rw [unchanged first old]
      exact (shared first old version).symm
    · rw [unchanged second oldSecond]
      exact shared second oldSecond version.symm
    · rfl
  case entries =>
    intro entry member info known version
    change Catalog.load env commit.after info.id = .ok entry.2
    rcases cases_ info known with old | rfl
    · rw [unchanged info old]
      exact coherent.entries entry member info old version
    · obtain ⟨made, madeKnown, same⟩ := (counted.catalogs entry member).version
      have loaded := shared made madeKnown (same.trans version)
      refine Eq.trans loaded ?_
      exact coherent.entries entry member made madeKnown same.symm

theorem Coherent.advances
    (coherent : sys.Coherent env)
    (counted : sys.Counted latest)
    (numbered : sys.Numbered)
    (sound : sys.Sound env)
    (pending : sys.Transactions Ducklake.Transaction.PartitionsPending)
    (index : Nat)
    (party : Party)
    (member : party ∈ sys.parties)
    (move : Move)
    (advances : Advances env sys index party move next) :
    next.Coherent env := by
  cases advances with
  | loaded phase read => exact (coherent.rememberCatalog _ _ _ read).of_same _ _
  | operated phase read executed =>
      rw [rememberStats_same]
      exact coherent.of_same _ _
  | submitted | refused | refreshed | checked => exact coherent.of_same _ _
  | prepared phase reads success => exact (coherent.gathers (.stats reads)).of_same _ _
  | committed phase success =>
      have committing := committing_of_success counted numbered sound pending index party member
        _ _ _ _ _ _ phase success
      exact (coherent.recordCommit counted _ _ committing).of_same _ _
  | ended unfinished gathers => exact (coherent.gathers gathers).of_same _ _

end

theorem reachable_coherent
    (env : Environment)
    (now : Int)
    (sys : System)
    (run : Reachable env WithoutExpiration now sys) :
    sys.Coherent env := by
  refine run.invariant_of_reached (Coherent env) ?_ ?_
  · constructor
    · intro first firstKnown second secondKnown _
      rw [List.mem_singleton.mp firstKnown, List.mem_singleton.mp secondKnown]
    · simp [init]
  · intro sys label next run coherent transactional stepped
    obtain ⟨latest, counted⟩ := reachable_counted env now sys run
    cases step_outcome env sys next label stepped with
    | began read => exact coherent.of_same _ _
    | unchanged => exact coherent
    | moved found advances =>
        exact coherent.advances counted (numbered_of_withoutExpiration run)
          (reachable_sound env _ now sys run) (reachable_partitionsPending env _ now sys run) _ _
          (List.mem_of_getElem? found) _ advances
    | expired | kept => cases transactional

/-- In every run of transactions, a schema version stands for one catalog. -/
theorem cacheCoherent_of_reachable
    (env : Environment)
    (now : Int)
    (sys : System)
    (run : Reachable env WithoutExpiration now sys) :
    sys.CacheCoherent env := by
  have coherent := reachable_coherent env now sys run
  obtain ⟨latest, counted⟩ := reachable_counted env now sys run
  refine { coherent with commits := ?_ }
  intro first firstMember second secondMember version
  obtain ⟨_, info, known, id, made⟩ := counted.recorded first firstMember
  obtain ⟨_, other, otherKnown, otherId, otherMade⟩ := counted.recorded second secondMember
  rw [← id, ← otherId]
  exact coherent.snapshots info known other otherKnown (made.trans (version.trans otherMade.symm))

/-- A table is created, and a transaction of the new version registers no files with it. -/
def sharedVersion : List Label :=
  .begin :: working 0 ⟨0, 0, 1, 0⟩ [.createTable ⟨"main".toList, "t".toList⟩
    [.mk "a".toList (.primitive .int32) true default none (.literal none) none]
    none none none none .fail] ++ committing 0 ⟨0, 0, 1, 0⟩ ++
  .begin :: working 1 ⟨1, 1, 2, 0⟩ [.writeTableDataFiles ⟨"main".toList, "t".toList⟩ []] ++
    committing 1 ⟨1, 1, 2, 0⟩

theorem cacheCoherent_sharedVersion :
    ∃ sys, sharedVersion.foldlM (step .plain) (init 0) = some sys ∧
      sys.known.map SnapshotInfo.schemaVersion = [0, 1, 1] ∧ sys.CacheCoherent .plain := by
  obtain ⟨sys, taken, versions⟩ : ∃ sys,
      sharedVersion.foldlM (step .plain) (init 0) = some sys ∧
        sys.known.map SnapshotInfo.schemaVersion = [0, 1, 1] :=
    Option.map_eq_some_iff.mp (by decide +kernel)
  have permitted : ∀ label ∈ sharedVersion, label.isExpiration = false := by decide
  exact ⟨sys, taken, versions, cacheCoherent_of_reachable .plain 0 sys
    (Reaches.of_foldlM sharedVersion (fun _ => permitted) taken)⟩

end System

end Ducklake
