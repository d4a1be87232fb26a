import Ducklake.Caches.TableStats
import Ducklake.Lib.Except

/-!
# Stored statistics

The statistics that are loaded for a table are those of its row, if a snapshot sees the table.
-/

set_option autoImplicit false

namespace Ducklake.Caches

open Lib Spec

def statsRow (rows : List DucklakeTableStats) (tableId : Int) : Option DucklakeTableStats :=
  rows.find? fun row => row.tableId = tableId

theorem statsRow_isSome_iff (rows : List DucklakeTableStats) (tableId : Int) :
    (statsRow rows tableId).isSome = true ↔ tableId ∈ rows.map DucklakeTableStats.tableId := by
  simp [statsRow, List.find?_isSome]

theorem statsRow_eq_some_iff (rows : List DucklakeTableStats) (tableId : Int)
    (row : DucklakeTableStats) (unique : (rows.map DucklakeTableStats.tableId).Nodup) :
    statsRow rows tableId = some row ↔ row ∈ rows ∧ row.tableId = tableId := by
  constructor
  · intro found
    exact ⟨List.mem_of_find?_eq_some found, by simpa using List.find?_some found⟩
  · rintro ⟨member, rfl⟩
    cases found : statsRow rows row.tableId with
    | none =>
        have stored := (statsRow_isSome_iff rows row.tableId).mpr (List.mem_map_of_mem member)
        rw [found] at stored
        cases stored
    | some other =>
        have own : other.tableId = row.tableId := by simpa using List.find?_some found
        exact congrArg some (List.inj_on_of_nodup_map unique (List.mem_of_find?_eq_some found)
          member own)

/-- Next row id, number of rows, size of the files and whether they are stored. -/
def TableStats.counts (stats : TableStats) : Int × Option Int × Option Int × Bool :=
  (stats.nextRowId, stats.recordCount, stats.fileSizeBytes, stats.isPersisted)

/-- Statistics in memory agree with the stored ones of all tables that a snapshot sees. -/
structure MatchesRows (stats : TableStatsMap) (db : Database) (snapshotId : Int) : Prop where
  seen : ∀ tableId ∈ (Versioned.entitiesAt snapshotId db.tables).map DucklakeTable.tableId,
    (stats.get? tableId).map TableStats.counts =
      (statsRow db.tableStats tableId).map fun row => (loadTable row).counts
  unseen : ∀ tableId ∉ (Versioned.entitiesAt snapshotId db.tables).map DucklakeTable.tableId,
    stats.get? tableId = none

theorem mem_tableStatsRows (db : Database) (snapshotId : Int) (row : DucklakeTableStats) :
    row ∈ tableStatsRows db snapshotId ↔ row ∈ db.tableStats ∧
      row.tableId ∈ (Versioned.entitiesAt snapshotId db.tables).map DucklakeTable.tableId := by
  simp only [tableStatsRows, List.mem_flatMap, List.mem_map, List.mem_filter, decide_eq_true_eq]
  constructor
  · rintro ⟨stat, stored, table, ⟨visible, same⟩, rfl⟩
    exact ⟨stored, table, visible, same⟩
  · rintro ⟨stored, table, visible, same⟩
    exact ⟨row, stored, table, ⟨visible, same⟩, rfl⟩

theorem load_congr
    (env : Environment)
    (catalog : Catalog)
    {first second : Database}
    {snapshotId other : Int}
    (tableStats : first.tableStats = second.tableStats)
    (columnStats : first.tableColumnStats = second.tableColumnStats)
    (tables : Versioned.entitiesAt snapshotId first.tables =
      Versioned.entitiesAt other second.tables)
    (columns : Versioned.entitiesAt snapshotId first.columns =
      Versioned.entitiesAt other second.columns) :
    load env catalog first snapshotId = load env catalog second other := by
  unfold load tableStatsRows columnStatsRows
  rw [tableStats, columnStats, tables, columns]

theorem loadColumn_counts
    (env : Environment)
    (catalog : Catalog)
    (stats next : TableStatsMap)
    (stat : DucklakeTableColumnStats)
    (success : loadColumn env catalog stats stat = .ok next)
    (tableId : Int) :
    (next.get? tableId).map TableStats.counts = (stats.get? tableId).map TableStats.counts := by
  unfold loadColumn at success
  dsimp only at success
  split at success
  · rename_i table ref found _
    split at success
    · obtain ⟨minValue, _, success⟩ := bind_eq_ok.mp success
      obtain ⟨maxValue, _, success⟩ := bind_eq_ok.mp success
      obtain rfl := Except.ok.inj success
      rw [IndexMap.get?_insert]
      split
      · rename_i own
        rw [own, found]
        rfl
      · rfl
    · cases success
  · cases success

theorem load_matchesRows
    (env : Environment)
    (catalog : Catalog)
    (db : Database)
    (snapshotId : Int)
    (stats : TableStatsMap)
    (unique : (db.tableStats.map DucklakeTableStats.tableId).Nodup)
    (success : load env catalog db snapshotId = .ok stats) :
    MatchesRows stats db snapshotId := by
  obtain ⟨_, _, success⟩ := bind_eq_ok.mp success
  have kept := foldlM_invariant (fun next : TableStatsMap => ∀ tableId,
      (next.get? tableId).map TableStats.counts =
        ((IndexMap.ofList ((tableStatsRows db snapshotId).map fun stat =>
          (stat.tableId, loadTable stat))).get? tableId).map TableStats.counts)
    (fun _ => rfl)
    (fun before stat next _ same stepped tableId =>
      (loadColumn_counts env catalog before next stat stepped tableId).trans (same tableId)) success
  have tables : ∀ tableId table, (IndexMap.ofList ((tableStatsRows db snapshotId).map fun stat =>
      (stat.tableId, loadTable stat))).get? tableId = some table ↔
        ∃ row, statsRow db.tableStats tableId = some row ∧
          tableId ∈ (Versioned.entitiesAt snapshotId db.tables).map DucklakeTable.tableId ∧
            loadTable row = table := by
    intro tableId table
    rw [IndexMap.get?_ofList_of_functional]
    · simp only [List.mem_map, mem_tableStatsRows, statsRow_eq_some_iff _ _ _ unique, Prod.mk.injEq]
      constructor
      · rintro ⟨row, ⟨stored, visible⟩, rfl, rfl⟩
        exact ⟨row, ⟨stored, rfl⟩, visible, rfl⟩
      · rintro ⟨row, ⟨stored, rfl⟩, visible, rfl⟩
        exact ⟨row, ⟨stored, visible⟩, rfl, rfl⟩
    · intro entry member other memberOther same
      obtain ⟨row, inside, rfl⟩ := List.mem_map.mp member
      obtain ⟨second, insideSecond, rfl⟩ := List.mem_map.mp memberOther
      have rows := List.inj_on_of_nodup_map unique ((mem_tableStatsRows db snapshotId row).mp inside).1
        ((mem_tableStatsRows db snapshotId second).mp insideSecond).1 same
      rw [rows]
  constructor
  · intro tableId visible
    rw [kept tableId]
    cases found : statsRow db.tableStats tableId with
    | none =>
        cases loaded : (IndexMap.ofList ((tableStatsRows db snapshotId).map fun stat =>
            (stat.tableId, loadTable stat))).get? tableId with
        | none => rfl
        | some table =>
            obtain ⟨row, foundRow, _⟩ := (tables tableId table).mp loaded
            rw [found] at foundRow
            cases foundRow
    | some row =>
        rw [(tables tableId (loadTable row)).mpr ⟨row, found, visible, rfl⟩]
        rfl
  · intro tableId hidden
    have none_ := kept tableId
    cases loaded : (IndexMap.ofList ((tableStatsRows db snapshotId).map fun stat =>
        (stat.tableId, loadTable stat))).get? tableId with
    | none =>
        rw [loaded] at none_
        exact Option.map_eq_none_iff.mp none_
    | some table =>
        obtain ⟨_, _, visible, _⟩ := (tables tableId table).mp loaded
        exact absurd visible hidden

end Ducklake.Caches
