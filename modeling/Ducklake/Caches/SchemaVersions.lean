import Mathlib.Algebra.Ring.Int.Defs
import Ducklake.Caches.Snapshot
import Ducklake.Interleaving.SnapshotOrder
import Ducklake.Lib.Intervals
import Ducklake.Maintenance.ExpireSnapshots
import Ducklake.Spec.Upgrades

/-!
# Schema versions after an upgrade

Commits of a 0.3 catalog number its schema versions.  The upgrade to 0.4 finds the versions of a
table by the rows of `ducklake_table`, so it keeps those that begin together with such a row.
-/

set_option autoImplicit false

namespace Ducklake.Spec.Upgrades

open Lib Caches Maintenance

/-! ## Rows of a commit -/

/-- The table of a row and the snapshot that it begins with. -/
def placement (row : Versioned DucklakeTable) : Int × Int :=
  (row.entity.tableId, row.beginSnapshot)

theorem placement_retire
    (snapshotId : Int)
    (selects : DucklakeTable → Bool)
    (rows : List (Versioned DucklakeTable)) :
    (Versioned.retire snapshotId selects rows).map placement = rows.map placement := by
  rw [Versioned.retire, List.map_map]
  refine List.map_congr_left fun row _ => ?_
  simp [placement]

def TableEffect.Applies (effect : TableEffect) (rows : List (Versioned DucklakeTable)) : Prop :=
  match effect with
  | .create table _ => table.tableId ∉ (Versioned.live rows).map DucklakeTable.tableId
  | .alter tableId _ _ _ => tableId ∈ (Versioned.live rows).map DucklakeTable.tableId
  | .drop _ => True

/-- One effect writes at most one row, and changes the live rows of its table only. -/
theorem applyTables_effect
    (snapshotId : Int)
    (effect : TableEffect)
    (rows : List (Versioned DucklakeTable))
    (unique : ((Versioned.live rows).map DucklakeTable.tableId).Nodup)
    (applies : effect.Applies rows) :
    (effect.applyTables snapshotId rows).map placement =
        rows.map placement ++ (if effect.writesTable then [(effect.tableId, snapshotId)] else []) ∧
      ((Versioned.live (effect.applyTables snapshotId rows)).map DucklakeTable.tableId).Nodup ∧
      ∀ tableId, tableId ≠ effect.tableId →
        (tableId ∈ (Versioned.live (effect.applyTables snapshotId rows)).map
          DucklakeTable.tableId ↔ tableId ∈ (Versioned.live rows).map DucklakeTable.tableId) := by
  have kept : ∀ id, ((Versioned.live (Versioned.retire snapshotId
      (fun table : DucklakeTable => decide (table.tableId = id)) rows)).map
        DucklakeTable.tableId).Nodup ∧ ∀ tableId,
      tableId ∈ (Versioned.live (Versioned.retire snapshotId
        (fun table : DucklakeTable => decide (table.tableId = id)) rows)).map
          DucklakeTable.tableId ↔
        tableId ∈ (Versioned.live rows).map DucklakeTable.tableId ∧ tableId ≠ id := by
    intro id
    rw [Versioned.live_retire]
    refine ⟨unique.sublist (List.filter_sublist.map _), fun tableId => ?_⟩
    simp only [List.mem_map, List.mem_filter, Bool.not_eq_true', decide_eq_false_iff_not]
    constructor
    · rintro ⟨table, ⟨member, distinct⟩, rfl⟩
      exact ⟨⟨table, member, rfl⟩, distinct⟩
    · rintro ⟨⟨table, member, rfl⟩, distinct⟩
      exact ⟨table, ⟨member, distinct⟩, rfl⟩
  cases effect with
  | create table columns =>
      have live : Versioned.live (rows ++ [.new snapshotId table]) =
          Versioned.live rows ++ [table] := by
        rw [Versioned.live_append]
        exact congrArg (Versioned.live rows ++ ·) (Versioned.live_map_new snapshotId [table])
      refine ⟨?_, ?_, fun tableId distinct => ?_⟩
      · simp [TableEffect.applyTables, TableEffect.writesTable, TableEffect.tableId, placement,
          Versioned.new]
      · rw [TableEffect.applyTables, live, List.map_append, List.nodup_append]
        refine ⟨unique, by simp, fun known member new added => ?_⟩
        rw [List.map_singleton, List.mem_singleton] at added
        rintro rfl
        exact applies (added ▸ member)
      · rw [TableEffect.applyTables, live, List.map_append, List.mem_append]
        have other : tableId ≠ table.tableId := distinct
        simp [other]
  | alter id newName dropped added =>
      cases newName with
      | none => exact ⟨by simp [TableEffect.applyTables, TableEffect.writesTable], unique,
          fun _ _ => Iff.rfl⟩
      | some newName =>
          obtain ⟨table, member, rfl⟩ := List.mem_map.mp applies
          have renamed : ((Versioned.live rows).filterMap fun other =>
              if other.tableId = table.tableId then
                some (Versioned.new snapshotId { other with tableName := newName }) else none) =
              [.new snapshotId { table with tableName := newName }] :=
            filterMap_of_unique (Versioned.live rows) DucklakeTable.tableId
              (fun other => Versioned.new snapshotId { other with tableName := newName })
              unique table member
          have live : Versioned.live (TableEffect.applyTables snapshotId rows
              (.alter table.tableId (some newName) dropped added)) =
              Versioned.live (Versioned.retire snapshotId
                (fun other => decide (other.tableId = table.tableId)) rows) ++
                  [{ table with tableName := newName }] := by
            have one := Versioned.live_map_new snapshotId [({ table with tableName := newName } : DucklakeTable)]
            rw [TableEffect.applyTables, renamed, Versioned.live_append]
            exact congrArg (_ ++ ·) one
          obtain ⟨keptUnique, keptIds⟩ := kept table.tableId
          refine ⟨?_, ?_, fun tableId distinct => ?_⟩
          · rw [TableEffect.applyTables, renamed, List.map_append, placement_retire]
            rfl
          · rw [live, List.map_append, List.nodup_append]
            refine ⟨keptUnique, by simp, fun known isKept new isNew => ?_⟩
            rw [List.map_singleton, List.mem_singleton] at isNew
            rw [isNew]
            exact ((keptIds known).mp isKept).2
          · have other : tableId ≠ table.tableId := distinct
            rw [live, List.map_append, List.mem_append, keptIds]
            simp [other]
  | drop id =>
      obtain ⟨keptUnique, keptIds⟩ := kept id
      refine ⟨?_, keptUnique, fun tableId distinct => ?_⟩
      · rw [TableEffect.applyTables, placement_retire]
        simp [TableEffect.writesTable]
      · have other : tableId ≠ id := distinct
        rw [TableEffect.applyTables, keptIds]
        simp [other]

/-- The effects of a commit are on different tables, so each applies as it did at the start. -/
theorem applyTables_effects
    (snapshotId : Int)
    (effects : List TableEffect)
    (rows : List (Versioned DucklakeTable))
    (unique : ((Versioned.live rows).map DucklakeTable.tableId).Nodup)
    (distinct : (effects.map TableEffect.tableId).Nodup)
    (applies : ∀ effect ∈ effects, effect.Applies rows) :
    (effects.foldl (fun rows effect => effect.applyTables snapshotId rows) rows).map placement =
        rows.map placement ++ ((effects.filter TableEffect.writesTable).map TableEffect.tableId).map
          (fun tableId => (tableId, snapshotId)) ∧
      ((Versioned.live (effects.foldl (fun rows effect =>
        effect.applyTables snapshotId rows) rows)).map DucklakeTable.tableId).Nodup := by
  induction effects generalizing rows with
  | nil => exact ⟨by simp, unique⟩
  | cons effect rest ih =>
      rw [List.map_cons, List.nodup_cons] at distinct
      obtain ⟨placed, uniqueAfter, others⟩ := applyTables_effect snapshotId effect rows unique
        (applies effect List.mem_cons_self)
      have appliesAfter : ∀ later ∈ rest, later.Applies (effect.applyTables snapshotId rows) := by
        intro later member
        have before := applies later (List.mem_cons_of_mem _ member)
        have other : later.tableId ≠ effect.tableId := fun same =>
          distinct.1 (same ▸ List.mem_map_of_mem member)
        cases later with
        | create table columns => exact fun inside => before ((others table.tableId other).mp inside)
        | alter id newName dropped added => exact (others id other).mpr before
        | drop id => trivial
      obtain ⟨placedRest, uniqueRest⟩ := ih _ uniqueAfter distinct.2 appliesAfter
      refine ⟨?_, uniqueRest⟩
      rw [List.foldl_cons, placedRest, placed, List.filter_cons, List.append_assoc]
      cases effect.writesTable <;> simp

/-! ## Bounds of rows -/

theorem applyTables_bounded
    (bounds : List Int)
    (snapshotId : Int)
    (known : snapshotId ∈ bounds)
    (effects : List TableEffect)
    (rows : List (Versioned DucklakeTable))
    (bounded : Versioned.Bounded bounds rows) :
    Versioned.Bounded bounds (effects.foldl (fun rows effect => effect.applyTables snapshotId rows) rows) := by
  induction effects generalizing rows with
  | nil => exact bounded
  | cons effect rest ih =>
      refine ih _ ?_
      cases effect with
      | create table columns => exact bounded.append known [table]
      | alter id newName dropped added =>
          cases newName with
          | none => exact bounded
          | some newName =>
              refine List.forall_mem_append.mpr ⟨bounded.retire known _, fun row member => ?_⟩
              obtain ⟨table, _, written⟩ := List.mem_filterMap.mp member
              split at written
              · cases written
                exact ⟨known, fun finish impossible => by cases impossible⟩
              · cases written
      | drop id => exact bounded.retire known _

theorem applyColumns_bounded
    (bounds : List Int)
    (snapshotId : Int)
    (known : snapshotId ∈ bounds)
    (effects : List TableEffect)
    (rows : List (Versioned DucklakeColumn))
    (bounded : Versioned.Bounded bounds rows) :
    Versioned.Bounded bounds (effects.foldl (fun rows effect => effect.applyColumns snapshotId rows) rows) := by
  induction effects generalizing rows with
  | nil => exact bounded
  | cons effect rest ih =>
      refine ih _ ?_
      cases effect with
      | create table columns => exact bounded.append known columns
      | alter id newName dropped added => exact (bounded.retire known _).append known added
      | drop id => exact bounded.retire known _

/-! ## The invariant -/

/-- The first commit creates the schema `main`. -/
def firstCommit : SchemaCommit where
  snapshotId := 0
  schemaVersion := 0
  createdSchemas := [⟨0, "main".toList, "main/".toList, true⟩]
  droppedSchemas := []
  effects := []

def commits (history : List SchemaCommit) : List SchemaCommit :=
  firstCommit :: history

/-- A later commit has a later version if it changes the schema. -/
def SchemaCommit.Before (earlier later : SchemaCommit) : Prop :=
  earlier.snapshotId < later.snapshotId ∧ earlier.schemaVersion ≤ later.schemaVersion ∧
    (later.changesSchema = true → earlier.schemaVersion < later.schemaVersion)

def changing (history : List SchemaCommit) : List SchemaCommit :=
  (commits history).filter SchemaCommit.changesSchema

/-- How the rows of a produced catalog follow from its commits. -/
structure Layout (history : List SchemaCommit) (db : Database) : Prop where
  snapshots : db.snapshots.map (fun row => (row.snapshotId, row.schemaVersion)) =
    (commits history).map fun commit => (commit.snapshotId, commit.schemaVersion)
  ordered : (commits history).Pairwise SchemaCommit.Before
  distinct : ∀ commit ∈ commits history, (commit.effects.map TableEffect.tableId).Nodup
  schemaVersions : db.schemaVersions = (changing history).map SchemaCommit.versionRow
  placed : db.tables.map placement = (commits history).flatMap fun commit =>
    commit.placed.map fun tableId => (tableId, commit.snapshotId)
  unique : ((Versioned.live db.tables).map DucklakeTable.tableId).Nodup
  tables : Versioned.Bounded ((changing history).map SchemaCommit.snapshotId) db.tables
  columns : Versioned.Bounded ((changing history).map SchemaCommit.snapshotId) db.columns

theorem changing_append
    (history : List SchemaCommit)
    (commit : SchemaCommit) :
    changing (history ++ [commit]) =
      changing history ++ if commit.changesSchema then [commit] else [] := by
  unfold changing commits
  rw [← List.cons_append, List.filter_append]
  refine congrArg ((firstCommit :: history).filter SchemaCommit.changesSchema ++ ·) ?_
  cases kind : commit.changesSchema <;> simp [kind]

theorem effects_eq_nil
    (commit : SchemaCommit)
    (unchanged : commit.changesSchema = false) :
    commit.effects = [] := by
  simp only [SchemaCommit.changesSchema, Bool.not_eq_false', Bool.and_eq_true] at unchanged
  exact List.isEmpty_iff.mp unchanged.2

theorem Layout.le_latest
    {history : List SchemaCommit}
    {db : Database}
    (layout : Layout history db)
    (latest : DucklakeSnapshot)
    (last : db.snapshots.getLast? = some latest)
    (commit : SchemaCommit)
    (member : commit ∈ commits history) :
    commit.snapshotId ≤ latest.snapshotId ∧ commit.schemaVersion ≤ latest.schemaVersion := by
  have pairs := congrArg List.getLast? layout.snapshots
  rw [List.getLast?_map, last, List.getLast?_map] at pairs
  obtain ⟨newest, isLast, same⟩ := Option.map_eq_some_iff.mp pairs.symm
  obtain ⟨sameId, sameVersion⟩ := Prod.mk.inj same
  obtain ⟨earlier, split⟩ := List.getLast?_eq_some_iff.mp isLast
  have ordered := layout.ordered
  rw [split] at ordered member
  rcases List.mem_append.mp member with before | isNewest
  · have order := (List.pairwise_append.mp ordered).2.2 commit before newest
      (List.mem_singleton.mpr rfl)
    rw [← sameId, ← sameVersion]
    exact ⟨Int.le_of_lt order.1, order.2.1⟩
  · rw [List.mem_singleton.mp isNewest, sameId, sameVersion]
    exact ⟨Int.le_refl _, Int.le_refl _⟩

theorem produced_layout
    (history : List SchemaCommit)
    (db : Database)
    (produced : Produced history db) :
    Layout history db := by
  induction produced with
  | init now =>
      exact {
        snapshots := rfl
        ordered := by simp [commits]
        distinct := by simp [commits, firstCommit]
        schemaVersions := rfl
        placed := rfl
        unique := List.nodup_nil
        tables := by intro row member; cases member
        columns := by intro row member; cases member }
  | @commit history commit before after produced valid writes layout =>
      obtain ⟨latest, row, last, snapshots, rowId, rowVersion, nextId, nextVersion⟩ :=
        writes.snapshots
      have applies : ∀ effect ∈ commit.effects, effect.Applies before.tables := by
        intro effect member
        cases effect with
        | create table columns =>
            intro inside
            obtain ⟨known, isLive, same⟩ := List.mem_map.mp inside
            obtain ⟨row, isRow, rfl⟩ := List.mem_map.mp isLive
            exact valid.fresh table columns member row (List.mem_of_mem_filter isRow) same
        | alter tableId newName dropped added =>
            obtain ⟨table, isLive, same⟩ := valid.live tableId newName dropped added member
            exact List.mem_map.mpr ⟨table, isLive, same⟩
        | drop tableId => trivial
      obtain ⟨placed, unique⟩ := applyTables_effects commit.snapshotId commit.effects before.tables
        layout.unique valid.distinct applies
      have grown : ∀ bound ∈ (changing history).map SchemaCommit.snapshotId,
          bound ∈ (changing (history ++ [commit])).map SchemaCommit.snapshotId := by
        intro bound inside
        rw [changing_append, List.map_append]
        exact List.mem_append_left _ inside
      have known : commit.changesSchema = true → commit.snapshotId ∈
          (changing (history ++ [commit])).map SchemaCommit.snapshotId := by
        intro changes
        rw [changing_append, if_pos changes, List.map_append]
        exact List.mem_append_right _ (List.mem_singleton.mpr rfl)
      refine {
        snapshots := ?_
        ordered := ?_
        distinct := ?_
        schemaVersions := ?_
        placed := ?_
        unique := ?_
        tables := ?_
        columns := ?_ }
      · rw [snapshots, List.map_append, layout.snapshots]
        unfold commits
        rw [← List.cons_append, List.map_append]
        simp [rowId, rowVersion]
      · unfold commits
        rw [← List.cons_append]
        refine List.pairwise_append.mpr ⟨layout.ordered, by simp, ?_⟩
        intro earlier member later isLast
        rw [List.mem_singleton.mp isLast]
        obtain ⟨idBelow, versionBelow⟩ := layout.le_latest latest last earlier member
        refine ⟨by omega, ?_, fun changes => ?_⟩
        · rw [nextVersion]
          split <;> omega
        · rw [nextVersion, if_pos changes]
          omega
      · unfold commits
        rw [← List.cons_append]
        exact List.forall_mem_append.mpr ⟨layout.distinct, by simpa using valid.distinct⟩
      · rw [writes.schemaVersions, layout.schemaVersions, changing_append, List.map_append]
        refine congrArg ((changing history).map SchemaCommit.versionRow ++ ·) ?_
        cases commit.changesSchema <;> rfl
      · rw [writes.tables, placed, layout.placed]
        unfold commits
        rw [← List.cons_append, List.flatMap_append]
        simp [SchemaCommit.placed]
      · rw [writes.tables]
        exact unique
      · rw [writes.tables]
        have bounded := layout.tables.mono _ grown
        cases changes : commit.changesSchema with
        | true => exact applyTables_bounded _ _ (known changes) _ _ bounded
        | false =>
            rw [effects_eq_nil commit changes]
            exact bounded
      · rw [writes.columns]
        have bounded := layout.columns.mono _ grown
        cases changes : commit.changesSchema with
        | true => exact applyColumns_bounded _ _ (known changes) _ _ bounded
        | false =>
            rw [effects_eq_nil commit changes]
            exact bounded

/-! ## The upgrade to 0.3 -/

theorem eraseDups_schemaVersions
    (history : List SchemaCommit)
    (db : Database)
    (produced : Produced history db) :
    ((commits history).map SchemaCommit.schemaVersion).eraseDups =
      (changing history).map SchemaCommit.schemaVersion := by
  induction produced with
  | init now => rfl
  | @commit history commit before after produced valid writes ih =>
      have layout := produced_layout history before produced
      obtain ⟨latest, _, last, _, _, _, _, nextVersion⟩ := writes.snapshots
      unfold commits
      rw [← List.cons_append, List.map_append, List.eraseDups_append, changing_append,
        List.map_append]
      change ((commits history).map SchemaCommit.schemaVersion).eraseDups ++ _ = _
      rw [ih]
      refine congrArg ((changing history).map SchemaCommit.schemaVersion ++ ·) ?_
      cases changes : commit.changesSchema with
      | true =>
          have fresh : commit.schemaVersion ∉ (commits history).map SchemaCommit.schemaVersion := by
            intro inside
            obtain ⟨earlier, member, same⟩ := List.mem_map.mp inside
            have below := (layout.le_latest latest last earlier member).2
            rw [changes, if_pos rfl] at nextVersion
            omega
          have kept : [commit.schemaVersion].removeAll
              ((commits history).map SchemaCommit.schemaVersion) = [commit.schemaVersion] := by
            simpa [List.removeAll] using fresh
          change ([commit.schemaVersion].removeAll
            ((commits history).map SchemaCommit.schemaVersion)).eraseDups = _
          rw [kept]
          rfl
      | false =>
          have known : commit.schemaVersion ∈ (commits history).map SchemaCommit.schemaVersion := by
            have pair : (latest.snapshotId, latest.schemaVersion) ∈ (commits history).map
                fun commit => (commit.snapshotId, commit.schemaVersion) := by
              rw [← layout.snapshots]
              exact List.mem_map_of_mem (List.mem_of_getLast? last)
            obtain ⟨newest, member, same⟩ := List.mem_map.mp pair
            rw [nextVersion, changes, if_neg (by decide), Int.add_zero, ← (Prod.mk.inj same).2]
            exact List.mem_map_of_mem member
          have removed : [commit.schemaVersion].removeAll
              ((commits history).map SchemaCommit.schemaVersion) = [] := by
            simpa [List.removeAll] using known
          change ([commit.schemaVersion].removeAll
            ((commits history).map SchemaCommit.schemaVersion)).eraseDups = _
          rw [removed]
          rfl

/-! ## The rows of an upgraded catalog -/

section

variable {history : List SchemaCommit} {db : Database}

theorem Layout.ids_nodup (layout : Layout history db) :
    ((commits history).map SchemaCommit.snapshotId).Nodup := by
  rw [List.Nodup, List.pairwise_map]
  exact layout.ordered.imp fun order => ne_of_lt order.1

theorem Layout.versions_nodup (layout : Layout history db) :
    ((changing history).map SchemaCommit.schemaVersion).Nodup := by
  rw [List.Nodup, List.pairwise_map]
  refine List.Pairwise.imp_of_mem ?_ (layout.ordered.sublist List.filter_sublist)
  intro earlier later _ member order
  exact ne_of_lt (order.2.2 (List.of_mem_filter member))

def SchemaCommit.upgraded (commit : SchemaCommit) : List DucklakeSchemaVersions :=
  commit.placed.map fun tableId => {
    beginSnapshot := commit.snapshotId
    schemaVersion := commit.schemaVersion
    tableId := some tableId }

theorem Layout.joinTables_eq (layout : Layout history db) :
    joinTables db = (changing history).flatMap SchemaCommit.upgraded := by
  have versions : (db.schemaVersions.filter fun version => version.tableId.isNone) =
      (changing history).map SchemaCommit.versionRow := by
    rw [layout.schemaVersions]
    refine List.filter_eq_self.mpr fun version member => ?_
    obtain ⟨commit, _, rfl⟩ := List.mem_map.mp member
    rfl
  unfold joinTables
  rw [versions, List.flatMap_map]
  refine List.flatMap_congr fun commit member => ?_
  have rows : (db.tables.filter fun row => between commit.snapshotId row.beginSnapshot
      row.beginSnapshot).map placement =
        commit.placed.map fun tableId => (tableId, commit.snapshotId) := by
    have found := filter_flatMap_of_unique (commits history) SchemaCommit.snapshotId
      (fun commit => commit.placed.map fun tableId => (tableId, commit.snapshotId)) Prod.snd
      (by simp) layout.ids_nodup commit (List.mem_of_mem_filter member)
    rw [← layout.placed, List.filter_map] at found
    rw [← found]
    refine congrArg (List.map placement) (List.filter_congr fun row _ => ?_)
    simp only [between, placement, Function.comp_apply, ← Bool.decide_and]
    exact decide_eq_decide.mpr (by omega)
  have written := congrArg (List.map fun pair : Int × Int =>
    (⟨pair.2, commit.schemaVersion, some pair.1⟩ : DucklakeSchemaVersions)) rows
  rw [List.map_map, List.map_map] at written
  exact written

theorem Layout.upgraded_schemaVersions (layout : Layout history db) :
    (upgradeDataV04 db).schemaVersions = (changing history).flatMap SchemaCommit.upgraded := by
  have old : db.schemaVersions.filter (fun row => row.tableId.isSome) = [] := by
    rw [layout.schemaVersions]
    refine List.filter_eq_nil_iff.mpr fun version member => ?_
    obtain ⟨commit, _, rfl⟩ := List.mem_map.mp member
    simp [SchemaCommit.versionRow]
  have new : (joinTables db).filter (fun row => row.tableId.isSome) = joinTables db := by
    rw [layout.joinTables_eq]
    refine List.filter_eq_self.mpr fun version member => ?_
    obtain ⟨commit, _, inside⟩ := List.mem_flatMap.mp member
    obtain ⟨tableId, _, rfl⟩ := List.mem_map.mp inside
    rfl
  rw [upgradeDataV04, List.filter_append, old, new, List.nil_append, layout.joinTables_eq]

theorem Layout.upgraded_version
    (layout : Layout history db)
    (commit : SchemaCommit)
    (member : commit ∈ changing history) :
    (upgradeDataV04 db).schemaVersions.filter
      (fun row => row.schemaVersion = commit.schemaVersion) = commit.upgraded := by
  rw [layout.upgraded_schemaVersions]
  refine filter_flatMap_of_unique (changing history) SchemaCommit.schemaVersion
    SchemaCommit.upgraded DucklakeSchemaVersions.schemaVersion ?_ layout.versions_nodup commit member
  intro other _ row inside
  obtain ⟨tableId, _, rfl⟩ := List.mem_map.mp inside
  rfl

theorem mem_changing_of_mem_defined
    (commit : SchemaCommit)
    (member : commit ∈ history)
    (tableId : Int)
    (defined : tableId ∈ commit.defined) :
    commit ∈ changing history := by
  refine List.mem_filter.mpr ⟨List.mem_cons_of_mem _ member, ?_⟩
  obtain ⟨effect, inside, _⟩ := List.mem_map.mp defined
  have some := List.mem_of_mem_filter inside
  cases effects : commit.effects with
  | nil =>
      rw [effects] at some
      cases some
  | cons first rest => simp [SchemaCommit.changesSchema, effects]

/-- A table has one row for a version, or none if its commit writes no row of the table. -/
theorem Layout.filter_upgraded
    (layout : Layout history db)
    (commit : SchemaCommit)
    (member : commit ∈ changing history)
    (tableId : Int) :
    (upgradeDataV04 db).schemaVersions.filter
      (fun row => row.tableId = some tableId && row.schemaVersion = commit.schemaVersion) =
        if tableId ∈ commit.placed then [{
          beginSnapshot := commit.snapshotId
          schemaVersion := commit.schemaVersion
          tableId := some tableId }]
        else [] := by
  have unique : commit.placed.Nodup :=
    (layout.distinct commit (List.mem_of_mem_filter member)).sublist (List.filter_sublist.map _)
  have own : commit.placed.filter (fun other => other = tableId) =
      if tableId ∈ commit.placed then [tableId] else [] := by
    split
    · rename_i inside
      rw [List.filter_eq, List.count_eq_one_of_mem unique inside]
      rfl
    · rename_i outside
      refine List.filter_eq_nil_iff.mpr fun other inside => ?_
      rw [decide_eq_true_eq]
      rintro rfl
      exact outside inside
  have split : (fun row : DucklakeSchemaVersions =>
      decide (row.tableId = some tableId) && decide (row.schemaVersion = commit.schemaVersion)) =
      fun row => decide (row.tableId = some tableId) &&
        (fun row : DucklakeSchemaVersions =>
          decide (row.schemaVersion = commit.schemaVersion)) row := rfl
  rw [split, ← List.filter_filter, layout.upgraded_version commit member, SchemaCommit.upgraded,
    List.filter_map]
  have same : ((fun row : DucklakeSchemaVersions => decide (row.tableId = some tableId)) ∘
      fun tableId => (⟨commit.snapshotId, commit.schemaVersion, some tableId⟩ :
        DucklakeSchemaVersions)) = fun other => decide (other = tableId) := by
    funext other
    simp
  rw [same, own]
  split <;> rfl

/-! ## Catalogs of a version -/

/-- Between the commit of a version and its other snapshots nothing begins or ends. -/
theorem Layout.together
    (layout : Layout history db)
    (commit : SchemaCommit)
    (member : commit ∈ changing history)
    (row : DucklakeSnapshot)
    (stored : row ∈ db.snapshots)
    (sameVersion : row.schemaVersion = commit.schemaVersion) :
    ∀ bound ∈ (changing history).map SchemaCommit.snapshotId,
      bound ≤ row.snapshotId ↔ bound ≤ commit.snapshotId := by
  intro bound inside
  obtain ⟨other, changes, rfl⟩ := List.mem_map.mp inside
  have pair : (row.snapshotId, row.schemaVersion) ∈
      (commits history).map fun commit => (commit.snapshotId, commit.schemaVersion) := by
    rw [← layout.snapshots]
    exact List.mem_map_of_mem stored
  obtain ⟨carrier, isCommit, same⟩ := List.mem_map.mp pair
  obtain ⟨carrierId, carrierVersion⟩ := Prod.mk.inj same
  have order := pairwise_trichotomy _ _ layout.ordered
  obtain ⟨otherMember, otherChanges⟩ := List.mem_filter.mp changes
  obtain ⟨commitMember, commitChanges⟩ := List.mem_filter.mp member
  rw [← carrierId]
  constructor
  · intro reached
    rcases order other commit otherMember commitMember with rfl | before | after
    · exact Int.le_refl _
    · exact Int.le_of_lt before.1
    · have later := after.2.2 otherChanges
      rcases order other carrier otherMember isCommit with rfl | before | behind
      · omega
      · have above := before.2.1
        omega
      · have contradiction := behind.1
        omega
  · intro reached
    rcases order commit carrier commitMember isCommit with rfl | before | after
    · exact reached
    · exact Int.le_trans reached (Int.le_of_lt before.1)
    · have earlier := after.2.2 commitChanges
      omega

/-- A version with a row is found, also when its snapshots are deleted. -/
theorem Layout.getForSchemaVersion
    (layout : Layout history db)
    (commit : SchemaCommit)
    (member : commit ∈ changing history)
    (tableId : Int)
    (placed : tableId ∈ commit.placed)
    (expired : List Int)
    (head : DucklakeSnapshot)
    (stored : head ∈ db.snapshots) :
    ∃ info, Caches.getForSchemaVersion (.ofSnapshot head)
        (deleteSnapshots expired (upgradeDataV04 db)) commit.schemaVersion = .ok info ∧
      ∀ bound ∈ (changing history).map SchemaCommit.snapshotId,
        bound ≤ info.id ↔ bound ≤ commit.snapshotId := by
  unfold Caches.getForSchemaVersion
  by_cases isHead : (Transaction.SnapshotInfo.ofSnapshot head).schemaVersion = commit.schemaVersion
  · rw [if_pos isHead]
    exact ⟨_, rfl, layout.together commit member head stored isHead⟩
  · rw [if_neg isHead]
    cases loaded : loadForSchemaVersion (deleteSnapshots expired (upgradeDataV04 db))
        commit.schemaVersion with
    | some info =>
        obtain ⟨⟨row, inside, rfl⟩, _⟩ :=
          Transaction.latestSnapshot_eq_ok _ info (toOption_eq_some.mp loaded)
        obtain ⟨kept, sameVersion⟩ := List.mem_filter.mp inside
        exact ⟨_, rfl, layout.together commit member row (List.mem_of_mem_filter kept)
          (of_decide_eq_true sameVersion)⟩
    | none =>
        have versions : ((deleteSnapshots expired (upgradeDataV04 db)).schemaVersions.filter
            fun row => row.schemaVersion = commit.schemaVersion) = commit.upgraded :=
          layout.upgraded_version commit member
        have least : (commit.upgraded.map DucklakeSchemaVersions.beginSnapshot).min? =
            some commit.snapshotId := by
          refine List.min?_eq_some_iff.mpr ⟨?_, ?_⟩
          · exact List.mem_map.mpr ⟨_, List.mem_map_of_mem placed, rfl⟩
          · intro begin inside
            obtain ⟨row, isRow, rfl⟩ := List.mem_map.mp inside
            obtain ⟨_, _, rfl⟩ := List.mem_map.mp isRow
            exact Int.le_refl _
        refine ⟨⟨commit.snapshotId, commit.schemaVersion, -1, -1⟩, ?_, fun _ _ => Iff.rfl⟩
        rw [synthesizeForSchemaVersion]
        dsimp only
        rw [versions, least]

/-- A 0.2 catalog of the same commits, which has no rows for versions, gets the same rows. -/
theorem upgradeDataV03_schemaVersions
    (history : List SchemaCommit)
    (db : Database)
    (produced : Produced history db) :
    (upgradeDataV03 { db with schemaVersions := [] }).schemaVersions = db.schemaVersions := by
  have layout := produced_layout history db produced
  have versions : db.snapshots.map DucklakeSnapshot.schemaVersion =
      (commits history).map SchemaCommit.schemaVersion := by
    have pairs := congrArg (List.map Prod.snd) layout.snapshots
    rwa [List.map_map, List.map_map] at pairs
  unfold upgradeDataV03
  dsimp only
  rw [List.nil_append, versions, eraseDups_schemaVersions history db produced,
    List.filterMap_map, layout.schemaVersions]
  refine Eq.trans (b := (changing history).filterMap fun commit => some commit.versionRow)
    (List.filterMap_congr fun commit member => ?_) (congrFun List.filterMap_eq_map _)
  have least : ((db.snapshots.filter fun row => row.schemaVersion = commit.schemaVersion).map
      DucklakeSnapshot.snapshotId).min? = some commit.snapshotId := by
    refine List.min?_eq_some_iff.mpr ⟨?_, ?_⟩
    · have pair : (commit.snapshotId, commit.schemaVersion) ∈
          db.snapshots.map fun row => (row.snapshotId, row.schemaVersion) := by
        rw [layout.snapshots]
        exact List.mem_map.mpr ⟨commit, List.mem_of_mem_filter member, rfl⟩
      obtain ⟨row, stored, same⟩ := List.mem_map.mp pair
      obtain ⟨sameId, sameVersion⟩ := Prod.mk.inj same
      exact List.mem_map.mpr ⟨row, List.mem_filter.mpr
        ⟨stored, decide_eq_true sameVersion⟩, sameId⟩
    · intro id inside
      obtain ⟨row, carries, rfl⟩ := List.mem_map.mp inside
      obtain ⟨stored, sameVersion⟩ := List.mem_filter.mp carries
      exact (layout.together commit member row stored (of_decide_eq_true sameVersion)
        commit.snapshotId (List.mem_map_of_mem member)).mpr (Int.le_refl _)
  dsimp only [Function.comp_apply]
  rw [least]
  rfl

/-! ## The upgrade -/

/-- Every version with which the definition of a table begins or changes has one row, and a
catalog of the version is found whatever snapshots are deleted. -/
structure VersionsKept (history : List SchemaCommit) (db : Database) : Prop where
  rows : ∀ commit ∈ history, ∀ tableId ∈ commit.defined,
    db.schemaVersions.filter (fun row => row.tableId = some tableId &&
      row.schemaVersion = commit.schemaVersion) = [{
        beginSnapshot := commit.snapshotId
        schemaVersion := commit.schemaVersion
        tableId := some tableId }]
  resolved : ∀ commit ∈ history, ∀ tableId ∈ commit.defined, ∀ expired, ∀ head ∈ db.snapshots,
    ∃ info, Caches.getForSchemaVersion (.ofSnapshot head) (deleteSnapshots expired db)
        commit.schemaVersion = .ok info ∧
      (Versioned.entitiesAt info.id db.tables).filter (fun table => table.tableId = tableId) =
        (Versioned.entitiesAt commit.snapshotId db.tables).filter
          (fun table => table.tableId = tableId) ∧
      (Versioned.entitiesAt info.id db.columns).filter (fun column => column.tableId = tableId) =
        (Versioned.entitiesAt commit.snapshotId db.columns).filter
          (fun column => column.tableId = tableId)

/-- The upgrade keeps the versions exactly if tables are altered only together with their name. -/
theorem upgradeDataV04_versionsKept_iff
    (history : List SchemaCommit)
    (db : Database)
    (produced : Produced history db) :
    VersionsKept history (upgradeDataV04 db) ↔
      ∀ commit ∈ history, ∀ effect ∈ commit.effects,
        effect.defines = true → effect.writesTable = true := by
  have layout := produced_layout history db produced
  constructor
  · intro kept commit member effect inside defines
    have defined : effect.tableId ∈ commit.defined :=
      List.mem_map_of_mem (List.mem_filter.mpr ⟨inside, defines⟩)
    have rows := kept.rows commit member effect.tableId defined
    rw [layout.filter_upgraded commit
      (mem_changing_of_mem_defined commit member effect.tableId defined)] at rows
    split at rows
    · rename_i placed
      obtain ⟨other, otherInside, same⟩ := List.mem_map.mp placed
      obtain ⟨otherMember, writes⟩ := List.mem_filter.mp otherInside
      rwa [List.inj_on_of_nodup_map (layout.distinct commit (List.mem_cons_of_mem _ member))
        otherMember inside same] at writes
    · cases rows
  · intro condition
    have placed : ∀ commit ∈ history, ∀ tableId ∈ commit.defined, tableId ∈ commit.placed := by
      intro commit member tableId defined
      obtain ⟨effect, inside, rfl⟩ := List.mem_map.mp defined
      obtain ⟨effectMember, defines⟩ := List.mem_filter.mp inside
      exact List.mem_map_of_mem (List.mem_filter.mpr
        ⟨effectMember, condition commit member effect effectMember defines⟩)
    constructor
    · intro commit member tableId defined
      rw [layout.filter_upgraded commit
        (mem_changing_of_mem_defined commit member tableId defined) tableId,
        if_pos (placed commit member tableId defined)]
    · intro commit member tableId defined expired head stored
      obtain ⟨info, found, together⟩ := layout.getForSchemaVersion commit
        (mem_changing_of_mem_defined commit member tableId defined) tableId
        (placed commit member tableId defined) expired head stored
      refine ⟨info, found, ?_, ?_⟩
      · exact congrArg _ (layout.tables.entitiesAt_eq info.id commit.snapshotId together)
      · exact congrArg _ (layout.columns.entitiesAt_eq info.id commit.snapshotId together)

end

/-- A table is created, changed in the given way, and followed by another schema. -/
def changedTable (newName : Option Text) : List SchemaCommit :=
  let column (id : Int) : DucklakeColumn :=
    ⟨id, 1, some id, "c".toList, "int32".toList, none, none, true, none, none, none⟩
  [⟨1, 1, [], [], [.create ⟨1, 0, "t".toList, "t/".toList, true⟩ [column 1]]⟩,
    ⟨2, 2, [], [], [.alter 1 newName [] [column 2]]⟩,
    ⟨3, 3, [⟨2, "s".toList, "s/".toList, true⟩], [], []⟩]

def changedCatalog (newName : Option Text) : Database :=
  (changedTable newName).foldl SchemaCommit.write (initCatalogV03 0)

theorem changedTable_produced (newName : Option Text) :
    Produced (changedTable newName) (changedCatalog newName) := by
  refine (((Produced.init 0).write _ _ ⟨by simp, ?_, ?_⟩ rfl rfl rfl).write _ _
    ⟨by simp, ?_, ?_⟩ rfl rfl rfl).write _ _ ⟨by simp, ?_, ?_⟩ rfl rfl rfl
  · intro table columns _ row member
    cases member
  · intro tableId newName dropped added member
    simp at member
  · intro table columns member
    simp at member
  · intro tableId other dropped added member
    obtain ⟨rfl, _⟩ := TableEffect.alter.inj (List.mem_singleton.mp member)
    exact ⟨_, List.mem_singleton.mpr rfl, rfl⟩
  · intro table columns member
    cases member
  · intro tableId other dropped added member
    cases member

theorem upgradeDataV04_renamedTable :
    VersionsKept (changedTable (some "u".toList))
      (upgradeDataV04 (changedCatalog (some "u".toList))) :=
  (upgradeDataV04_versionsKept_iff _ _ (changedTable_produced _)).mpr (by decide +kernel)

/-- The version with which a column was added is lost, and after its snapshot is deleted no
catalog of it is found. -/
theorem upgradeDataV04_alteredTable :
    Produced (changedTable none) (changedCatalog none) ∧
      ¬VersionsKept (changedTable none) (upgradeDataV04 (changedCatalog none)) ∧
      Caches.getForSchemaVersion ⟨3, 3, 0, 0⟩
        (deleteSnapshots [2] (upgradeDataV04 (changedCatalog none))) 2 =
          .error .rowNotFound := by
  refine ⟨changedTable_produced none, fun kept => ?_, by decide +kernel⟩
  have lost := kept.rows ⟨2, 2, [], [], [.alter 1 none [] [
    ⟨2, 1, some 2, "c".toList, "int32".toList, none, none, true, none, none, none⟩]]⟩
    (by simp [changedTable]) 1 (by decide +kernel)
  revert lost
  decide +kernel

end Ducklake.Spec.Upgrades
