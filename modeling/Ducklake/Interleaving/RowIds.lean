import Ducklake.Interleaving.StatsCoherence

/-!
# Row ids

The ids that commits give to the rows of a table, and the statistics from which they take them.
-/

set_option autoImplicit false

namespace Ducklake

open Lib Caches Spec Maintenance Transaction

/-! ## Ranges -/

namespace Commit

/-- First id and number of the ids that a commit gives to the rows of each file and each batch. -/
def rowIdRanges (commit : Commit) (tableId : Int) : List (Int × Nat) :=
  ((fileRanges commit.prepared.changes tableId).filterMap fun range =>
      range.1.map fun start => (start, range.2.1)) ++
    (batchRanges commit.prepared.changes tableId).map fun range => (range.1, range.2.numRows)

theorem AllocatesRowIds.within
    {commit : Commit}
    (allocates : commit.AllocatesRowIds)
    (tableId : Int) :
    ∀ range ∈ commit.rowIdRanges tableId, commit.before.nextRowId tableId ≤ range.1 ∧
      range.1 + range.2 ≤ commit.after.nextRowId tableId := by
  have bounds := allocate_within Write.numRows (commit.before.nextRowId tableId)
    (commit.writesTo tableId)
  rw [allocates.nextRowId tableId]
  unfold rowIdRanges
  rw [allocates.files tableId, allocates.batches tableId]
  refine List.forall_mem_append.mpr ⟨fun range member => ?_, fun range member => ?_⟩
  · obtain ⟨file, inside, shape⟩ := List.mem_filterMap.mp member
    obtain ⟨⟨start, write⟩, allocated, made⟩ := List.mem_filterMap.mp inside
    cases write with
    | batch => cases made
    | file dataFile =>
        cases made
        cases shape
        exact bounds _ allocated
  · obtain ⟨batch, inside, rfl⟩ := List.mem_map.mp member
    obtain ⟨⟨start, write⟩, allocated, made⟩ := List.mem_filterMap.mp inside
    cases write with
    | file => cases made
    | batch data =>
        cases made
        exact bounds _ allocated

end Commit

namespace System

/-! ## Runs with files and batches -/

def writtenTable : QualifiedName := ⟨"main".toList, "t".toList⟩

def nullBatch (numRows : Nat) : Io.RecordBatch :=
  ⟨numRows, [("a".toList, .leaf .int32 (List.replicate numRows none))]⟩

def fileOf (path : String) (numRows : Nat) : WriteDataFile :=
  ⟨path.toList, none, some ⟨numRows, some 100, some 10, .empty⟩, none⟩

def creatingTable : List Label :=
  .begin :: working 0 ⟨0, 0, 1, 0⟩ [.createTable writtenTable
    [.mk "a".toList (.primitive .int32) true default none (.literal none) none]
    none none none none .fail] ++ committing 0 ⟨0, 0, 1, 0⟩

/-- Two transactions write files and batches, the second one behind the first. -/
def mixedWrites : List Label :=
  creatingTable ++
  .begin :: working 1 ⟨1, 1, 2, 0⟩ [.writeTableDataFiles writtenTable [fileOf "x" 3, fileOf "y" 2],
    .writeTableInlineData writtenTable [nullBatch 1]] ++ committing 1 ⟨1, 1, 2, 0⟩ ++
  .begin :: working 2 ⟨2, 1, 2, 2⟩ [.writeTableInlineData writtenTable [nullBatch 2, nullBatch 1],
    .writeTableDataFiles writtenTable [fileOf "z" 4]] ++ committing 2 ⟨2, 1, 2, 2⟩

/-- The check of `CountsEveryWrite` by the changes alone. -/
def takesKey (sys : System) : Label → Bool
  | .move index (.persist _) =>
      match sys.parties[index]? with
      | some { phase := .prepared tx _ _ _, .. } =>
          (ChangeSet.new tx.changes).changesSchema || (ChangeSet.new tx.changes).takesFileId
      | _ => true
  | label => !label.isExpiration

theorem countsEveryWrite_of_takesKey
    (sys : System)
    (label : Label)
    (takes : sys.takesKey label = true) :
    CountsEveryWrite sys label := by
  refine ⟨?_, ?_⟩
  · cases label with
    | expire => cases takes
    | begin | move => rfl
  · rintro index time rfl party found tx attempt base prepared prepares
    have partyAt : sys.parties[index]? = some party := found
    obtain ⟨start, phase, checked⟩ := party
    cases prepares
    unfold takesKey at takes
    dsimp only at takes
    rw [partyAt] at takes
    rcases Bool.or_eq_true_iff.mp takes with changed | taken
    · exact Or.inl changed
    · exact Or.inr (Or.inl taken)

/-- While a transaction keeps the first version of the table open, another one writes a batch and
no files, and so does a third one with the statistics that the second one read. -/
def staleStatistics : List Label :=
  creatingTable ++ .begin :: working 1 ⟨1, 1, 2, 0⟩ [] ++
  .begin :: working 2 ⟨1, 1, 2, 0⟩
    [.writeTableDataFiles writtenTable [], .writeTableInlineData writtenTable [nullBatch 1]] ++
  committing 2 ⟨1, 1, 2, 0⟩ ++
  [.begin, .move 3 (.loadCatalog (.load ⟨2, 1, 2, 0⟩)),
    .move 3 (.operate (.writeTableInlineData writtenTable [nullBatch 1]) (.cached 3)),
    .move 3 .submit, .move 3 (.prepare (.load ⟨2, 1, 2, 0⟩) (.cached 3)), .move 3 (.persist 0)]

theorem staleStatistics_permitted : ∀ label ∈ staleStatistics, label.isExpiration = false := by
  decide

/-! ## Allocation -/

/-- In runs whose commits give their statistics a cache entry of their own, every commit gives
consecutive ids to the rows that it writes to a table, and counts them. -/
theorem rowIds_allocated
    (env : Environment)
    (now : Int)
    (sys : System)
    (run : Reachable env CountsEveryWrite now sys) :
    ∀ commit ∈ sys.history, commit.AllocatesRowIds := by
  obtain ⟨_, _, coherent⟩ := reachable_statsCoherent env now sys run
  exact coherent.allocated

theorem rowIds_allocated_mixedWrites :
    ∃ sys first second, Reachable .plain CountsEveryWrite 0 sys ∧
      first ∈ sys.history ∧ first.rowIdRanges 1 = [(0, 3), (3, 2), (5, 1)] ∧
      second ∈ sys.history ∧ second.rowIdRanges 1 = [(9, 4), (6, 2), (8, 1)] ∧
      second.after.nextRowId 1 = 13 ∧ first.AllocatesRowIds ∧ second.AllocatesRowIds := by
  obtain ⟨sys, taken, ranges⟩ : ∃ sys, mixedWrites.foldlM (fun sys label =>
      if takesKey sys label = true then step .plain sys label else none) (init 0) = some sys ∧
      (sys.history.map fun commit => (commit.rowIdRanges 1, commit.after.nextRowId 1)) =
        [([], 0), ([(0, 3), (3, 2), (5, 1)], 6), ([(9, 4), (6, 2), (8, 1)], 13)] :=
    Option.map_eq_some_iff.mp (by decide +kernel)
  have run : Reachable .plain CountsEveryWrite 0 sys :=
    Reaches.of_checked takesKey countsEveryWrite_of_takesKey mixedWrites taken
  have allocated := rowIds_allocated .plain 0 sys run
  match listed : sys.history with
  | [_, first, second] =>
      rw [listed] at ranges allocated
      simp only [List.map_cons, List.map_nil, List.cons.injEq, Prod.mk.injEq] at ranges
      exact ⟨sys, first, second, run, by simp [listed], ranges.2.1.1, by simp [listed],
        ranges.2.2.1.1, ranges.2.2.1.2, allocated first (by simp), allocated second (by simp)⟩
  | [] | [_] | [_, _] | _ :: _ :: _ :: _ :: _ =>
      rw [listed] at ranges
      simp at ranges

theorem not_allocatesRowIds_staleStatistics :
    ∃ sys commit, Reachable .plain WithoutExpiration 0 sys ∧ commit ∈ sys.history ∧
      commit.before.nextRowId 1 = 1 ∧ commit.rowIdRanges 1 = [(0, 1)] ∧
      ¬ commit.AllocatesRowIds := by
  obtain ⟨sys, taken, ranges⟩ : ∃ sys, staleStatistics.foldlM (step .plain) (init 0) = some sys ∧
      (sys.history.map fun commit => (commit.before.nextRowId 1, commit.rowIdRanges 1)) =
        [(0, []), (0, [(0, 1)]), (1, [(0, 1)])] :=
    Option.map_eq_some_iff.mp (by decide +kernel)
  have run : Reachable .plain WithoutExpiration 0 sys :=
    Reaches.of_foldlM staleStatistics (fun _ => staleStatistics_permitted) taken
  obtain ⟨commit, member, shape⟩ := List.mem_map.mp
    (show (1, [(0, 1)]) ∈ sys.history.map fun commit =>
      (commit.before.nextRowId 1, commit.rowIdRanges 1) by simp [ranges])
  obtain ⟨next, ranges⟩ := Prod.mk.inj shape
  refine ⟨sys, commit, run, member, next, ranges, fun allocates => ?_⟩
  have above := (allocates.within 1 (0, 1) (by simp [ranges])).1
  omega

/-! ## Coherence -/

/-- The contents of the statistics with which snapshots were committed, by the pair under which
they are cached. -/
def committedStats (sys : System) :
    List ((Int × Int) × List DucklakeTableStats × List DucklakeTableColumnStats) :=
  ((0, 0), [], []) :: sys.history.map fun commit =>
    (commit.statsKey, commit.after.tableStats, commit.after.tableColumnStats)

/-- The statistics that are cached by the pair of a snapshot stand for those in the database. -/
structure StatisticsCoherent (env : Environment) (sys : System) : Prop where
  committed : ∀ first ∈ sys.committedStats, ∀ second ∈ sys.committedStats,
    first.1 = second.1 → first.2 = second.2
  /-- What is stored belongs to the latest snapshot, so that only its pair can be loaded again. -/
  served : ∀ latest, latestSnapshot sys.db = .ok latest → ∀ info ∈ sys.known,
    info.statsKey = latest.statsKey → ∀ catalog, Catalog.load env sys.db info.id = .ok catalog →
      ∀ index result, sys.statsAt env info catalog (.cached index) = some result →
        Caches.load env catalog sys.db info.id = result
  rowIds : sys.history.Pairwise fun earlier later => ∀ tableId,
    ∀ first ∈ earlier.rowIdRanges tableId, ∀ second ∈ later.rowIdRanges tableId,
      first.1 + (first.2 : Int) ≤ second.1

section

variable {env : Environment} {sys : System} {latest : SnapshotInfo}

theorem StatsCoherent.committedStats
    (coherent : sys.StatsCoherent env latest) :
    ∀ first ∈ sys.committedStats, ∀ second ∈ sys.committedStats,
      first.1 = second.1 → first.2 = second.2 := by
  have empty : ∀ commit ∈ sys.history, commit.statsKey = (0, 0) →
      (commit.after.tableStats, commit.after.tableColumnStats) = ([], []) := by
    intro commit member key
    obtain ⟨tableStats, columnStats⟩ := coherent.fromInitial commit member key
    exact Prod.ext tableStats columnStats
  intro first firstMember second secondMember key
  rcases List.mem_cons.mp firstMember with rfl | firstMember <;>
    rcases List.mem_cons.mp secondMember with rfl | secondMember
  · rfl
  · obtain ⟨commit, member, rfl⟩ := List.mem_map.mp secondMember
    exact (empty commit member key.symm).symm
  · obtain ⟨commit, member, rfl⟩ := List.mem_map.mp firstMember
    exact empty commit member key
  · obtain ⟨commit, member, rfl⟩ := List.mem_map.mp firstMember
    obtain ⟨other, otherMember, rfl⟩ := List.mem_map.mp secondMember
    obtain ⟨tableStats, columnStats⟩ := coherent.pairs commit member other otherMember key
    exact Prod.ext tableStats columnStats

theorem StatsCoherent.served
    (counted : sys.Counted latest)
    (catalogs : sys.Coherent env)
    (coherent : sys.StatsCoherent env latest)
    (info : SnapshotInfo)
    (known : info ∈ sys.known)
    (current : info.statsKey = latest.statsKey)
    (catalog : Catalog)
    (loaded : Catalog.load env sys.db info.id = .ok catalog)
    (index : Nat)
    (result : DucklakeResult TableStatsMap)
    (read : sys.statsAt env info catalog (.cached index) = some result) :
    Caches.load env catalog sys.db info.id = result := by
  have version : info.schemaVersion = latest.schemaVersion := congrArg Prod.fst current
  have sees := coherent.seen info known version
  have atLatest : Catalog.load env sys.db latest.id = .ok catalog :=
    (catalogs.snapshots latest counted.newest info known version.symm).trans loaded
  cases result with
  | error err =>
      unfold System.statsAt at read
      dsimp only at read
      split at read
      · split at read <;> cases read
      · cases read
  | ok stats =>
      obtain ⟨own, ownLoaded, fresh⟩ :=
        coherent.statsAt info catalog (.cached index) read current atLatest
      obtain rfl := Except.ok.inj (ownLoaded.symm.trans atLatest)
      rw [load_congr env own rfl rfl sees.1 sees.2]
      exact fresh

theorem Counted.latestSnapshot_eq
    (counted : sys.Counted latest)
    (info : SnapshotInfo)
    (read : Transaction.latestSnapshot sys.db = .ok info) :
    info = latest := by
  obtain ⟨⟨row, member, rfl⟩, bounded⟩ := latestSnapshot_eq_ok sys.db info read
  have known : SnapshotInfo.ofSnapshot row ∈ sys.known := by
    rw [← counted.snapshots]
    exact List.mem_map_of_mem member
  obtain ⟨newest, inside, newestIs⟩ := List.mem_map.mp
    ((congrArg (latest ∈ ·) counted.snapshots).mpr counted.newest)
  rcases counted.older _ known with same | ⟨below, _⟩
  · exact same
  · have above := bounded newest inside
    rw [← newestIs] at below
    exact absurd above (Int.not_le.mpr below)

theorem StatsCoherent.rowIds
    (coherent : sys.StatsCoherent env latest) :
    sys.history.Pairwise fun earlier later => ∀ tableId,
      ∀ first ∈ earlier.rowIdRanges tableId, ∀ second ∈ later.rowIdRanges tableId,
        first.1 + (first.2 : Int) ≤ second.1 := by
  refine coherent.ordered.imp_of_mem ?_
  intro earlier later earlierMember laterMember ordered tableId first firstMember second secondMember
  have above := ((coherent.allocated earlier earlierMember).within tableId first firstMember).2
  have below := ((coherent.allocated later laterMember).within tableId second secondMember).1
  have between := ordered tableId
  omega

end

/-- In runs whose commits give their statistics a cache entry of their own, the pair of a snapshot
stands for its statistics, and no row id is given twice. -/
theorem statisticsCoherent_of_reachable
    (env : Environment)
    (now : Int)
    (sys : System)
    (run : Reachable env CountsEveryWrite now sys) :
    sys.StatisticsCoherent env := by
  obtain ⟨latest, counted, coherent⟩ := reachable_statsCoherent env now sys run
  have catalogs := reachable_coherent env now sys (run.mono fun _ _ allowed => allowed.1)
  constructor
  case committed => exact coherent.committedStats
  case rowIds => exact coherent.rowIds
  case served =>
    intro newest read info known current catalog loaded index result
    obtain rfl := counted.latestSnapshot_eq newest read
    exact coherent.served counted catalogs info known current catalog loaded index result

theorem statisticsCoherent_mixedWrites :
    ∃ sys, Reachable .plain CountsEveryWrite 0 sys ∧
      (sys.committedStats.map fun stats => (stats.1, stats.2.1.map DucklakeTableStats.nextRowId)) =
        [((0, 0), []), ((1, 0), []), ((1, 2), [6]), ((1, 3), [13])] ∧
      sys.StatisticsCoherent .plain := by
  obtain ⟨sys, taken, stats⟩ : ∃ sys, mixedWrites.foldlM (fun sys label =>
      if takesKey sys label = true then step .plain sys label else none) (init 0) = some sys ∧
      (sys.committedStats.map fun stats => (stats.1, stats.2.1.map DucklakeTableStats.nextRowId)) =
        [((0, 0), []), ((1, 0), []), ((1, 2), [6]), ((1, 3), [13])] :=
    Option.map_eq_some_iff.mp (by decide +kernel)
  have run : Reachable .plain CountsEveryWrite 0 sys :=
    Reaches.of_checked takesKey countsEveryWrite_of_takesKey mixedWrites taken
  exact ⟨sys, run, stats, statisticsCoherent_of_reachable .plain 0 sys run⟩

theorem not_statisticsCoherent_staleStatistics :
    ∃ sys first second, Reachable .plain WithoutExpiration 0 sys ∧
      first ∈ sys.history ∧ second ∈ sys.history ∧ first.statsKey = second.statsKey ∧
      first.after.nextRowId 1 = 0 ∧ second.after.nextRowId 1 = 1 ∧
      ¬ sys.StatisticsCoherent .plain := by
  obtain ⟨sys, taken, stats⟩ : ∃ sys, staleStatistics.foldlM (step .plain) (init 0) = some sys ∧
      (sys.history.map fun commit => (commit.statsKey, commit.after.nextRowId 1)) =
        [((1, 0), 0), ((1, 0), 1), ((1, 1), 1)] :=
    Option.map_eq_some_iff.mp (by decide +kernel)
  have run : Reachable .plain WithoutExpiration 0 sys :=
    Reaches.of_foldlM staleStatistics (fun _ => staleStatistics_permitted) taken
  have recorded : ∀ entry ∈ [((1, 0), 0), ((1, 0), 1), ((1, 1), 1)], ∃ commit ∈ sys.history,
      (commit.statsKey, commit.after.nextRowId 1) = entry := fun entry member =>
    List.mem_map.mp ((congrArg (entry ∈ ·) stats).mpr member)
  obtain ⟨first, firstMember, firstShape⟩ := recorded ((1, 0), 0) (by simp)
  obtain ⟨second, secondMember, secondShape⟩ := recorded ((1, 0), 1) (by simp)
  obtain ⟨firstKey, firstNext⟩ := Prod.mk.inj firstShape
  obtain ⟨secondKey, secondNext⟩ := Prod.mk.inj secondShape
  refine ⟨sys, first, second, run, firstMember, secondMember, firstKey.trans secondKey.symm,
    firstNext, secondNext, fun coherent => ?_⟩
  have same := coherent.committed _ (List.mem_cons_of_mem _ (List.mem_map_of_mem firstMember)) _
    (List.mem_cons_of_mem _ (List.mem_map_of_mem secondMember)) (firstKey.trans secondKey.symm)
  have tableStats : first.after.tableStats = second.after.tableStats := congrArg Prod.fst same
  unfold Database.nextRowId at firstNext secondNext
  rw [tableStats, secondNext] at firstNext
  cases firstNext

end System

end Ducklake
