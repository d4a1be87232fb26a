import Ducklake.Transaction.Commit
import Ducklake.Typedefs.ScalarOrder

/-!
# Snapshots of schema versions

`caches/snapshot.rs`: the snapshot whose catalog describes the rows of an inlined data table.
-/

set_option autoImplicit false

namespace Ducklake.Caches

open Lib Spec Transaction

/-- `SnapshotInfo::load_for_schema_version`: the latest stored snapshot of the version. -/
def loadForSchemaVersion (db : Database) (schemaVersion : Int) : Option SnapshotInfo :=
  (latestSnapshot { db with
    snapshots := db.snapshots.filter fun row => row.schemaVersion = schemaVersion }).toOption

/-- `SnapshotInfo::synthesize_for_schema_version`: the version is known to have begun at some
snapshot; the counters are placeholders. -/
def synthesizeForSchemaVersion (db : Database) (schemaVersion : Int) :
    DucklakeResult SnapshotInfo :=
  let begins := (db.schemaVersions.filter fun row => row.schemaVersion = schemaVersion).map
    DucklakeSchemaVersions.beginSnapshot
  match begins.min? with
  | some begin => .ok ⟨begin, schemaVersion, -1, -1⟩
  | none => .error .rowNotFound

def getForSchemaVersion (current : SnapshotInfo) (db : Database) (schemaVersion : Int) :
    DucklakeResult SnapshotInfo :=
  if current.schemaVersion = schemaVersion then .ok current
  else match loadForSchemaVersion db schemaVersion with
    | some info => .ok info
    | none => synthesizeForSchemaVersion db schemaVersion

/-! ## Time travel -/

/-- The first of several rows in an order that a query leaves open. -/
structure Choice (Row : Type) where
  first : List Row → Option Row
  mem : ∀ rows row, first rows = some row → row ∈ rows
  isSome : ∀ rows, rows ≠ [] → (first rows).isSome = true

/-- `<=` of a database on times as it stores them.  SQLite stores and compares texts, those of RFC
3339. -/
def storedAtMost (texts : Int → Text) (dialect : Dialect) (time other : Int) : Bool :=
  match dialect with
  | .sqlite => compareText (texts time) (texts other) != .gt
  | .postgres | .mySql => time ≤ other

section

variable (texts : Int → Text) (dialect : Dialect)

def snapshotsUntil (db : Database) (timestamp : Int) : List DucklakeSnapshot :=
  db.snapshots.filter fun row => storedAtMost texts dialect row.snapshotTime timestamp

/-- The rows that a descending order by time can begin with. -/
def newestRows (rows : List DucklakeSnapshot) : List DucklakeSnapshot :=
  rows.filter fun row =>
    rows.all fun other => storedAtMost texts dialect other.snapshotTime row.snapshotTime

/-- `SnapshotInfo::load_for_timestamp`: the query orders by nothing but the time. -/
def loadForTimestamp (choice : Choice DucklakeSnapshot) (db : Database) (timestamp : Int) :
    DucklakeResult SnapshotInfo :=
  match choice.first (newestRows texts dialect (snapshotsUntil texts dialect db timestamp)) with
  | some row => .ok (.ofSnapshot row)
  | none => .error .rowNotFound

/-! ## The order of stored times -/

theorem storedAtMost_trans (a b c : Int) (first : storedAtMost texts dialect a b = true)
    (second : storedAtMost texts dialect b c = true) : storedAtMost texts dialect a c = true := by
  have lawful := transCmp_compareText
  cases dialect with
  | sqlite =>
      simp only [storedAtMost, bne_iff_ne] at first second ⊢
      exact Ordering.isLE_iff_ne_gt.mp (Std.TransCmp.isLE_trans
        (Ordering.isLE_iff_ne_gt.mpr first) (Ordering.isLE_iff_ne_gt.mpr second))
  | postgres | mySql =>
      simp only [storedAtMost, decide_eq_true_eq] at first second ⊢
      exact Int.le_trans first second

theorem storedAtMost_total (a b : Int) :
    storedAtMost texts dialect a b = true ∨ storedAtMost texts dialect b a = true := by
  have lawful := transCmp_compareText
  cases dialect with
  | sqlite =>
      have swapped : compareText (texts b) (texts a) = (compareText (texts a) (texts b)).swap :=
        Std.OrientedCmp.eq_swap
      simp only [storedAtMost, swapped, bne_iff_ne]
      cases compareText (texts a) (texts b) <;> simp
  | postgres | mySql =>
      simp only [storedAtMost, decide_eq_true_eq]
      exact Int.le_total a b

theorem mem_newestRows (rows : List DucklakeSnapshot) (row : DucklakeSnapshot) :
    row ∈ newestRows texts dialect rows ↔ row ∈ rows ∧ ∀ other ∈ rows,
      storedAtMost texts dialect other.snapshotTime row.snapshotTime = true := by
  simp [newestRows, List.mem_filter, List.all_eq_true]

theorem mem_snapshotsUntil (db : Database) (timestamp : Int) (row : DucklakeSnapshot) :
    row ∈ snapshotsUntil texts dialect db timestamp ↔ row ∈ db.snapshots ∧
      storedAtMost texts dialect row.snapshotTime timestamp = true := by
  simp [snapshotsUntil, List.mem_filter]

theorem newestRows_ne_nil (rows : List DucklakeSnapshot) (nonempty : rows ≠ []) :
    newestRows texts dialect rows ≠ [] := by
  have reflexive : ∀ time, storedAtMost texts dialect time time = true := fun time =>
    (storedAtMost_total texts dialect time time).elim id id
  obtain ⟨row, member, greatest⟩ : ∃ row ∈ rows, ∀ other ∈ rows,
      storedAtMost texts dialect other.snapshotTime row.snapshotTime = true := by
    induction rows with
    | nil => exact absurd rfl nonempty
    | cons head rest ih =>
        by_cases empty : rest = []
        · exact ⟨head, by simp, by simp [empty, reflexive]⟩
        · obtain ⟨row, member, greatest⟩ := ih empty
          rcases storedAtMost_total texts dialect head.snapshotTime row.snapshotTime with
            below | above
          · exact ⟨row, List.mem_cons_of_mem _ member, List.forall_mem_cons.mpr ⟨below, greatest⟩⟩
          · refine ⟨head, by simp, List.forall_mem_cons.mpr ⟨reflexive _, ?_⟩⟩
            intro other inside
            exact storedAtMost_trans texts dialect _ _ _ (greatest other inside) above
  exact List.ne_nil_of_mem ((mem_newestRows texts dialect rows row).mpr ⟨member, greatest⟩)

theorem loadForTimestamp_ok
    (choice : Choice DucklakeSnapshot)
    (db : Database)
    (timestamp : Int)
    (some_ : snapshotsUntil texts dialect db timestamp ≠ []) :
    ∃ row ∈ newestRows texts dialect (snapshotsUntil texts dialect db timestamp),
      loadForTimestamp texts dialect choice db timestamp = .ok (.ofSnapshot row) := by
  obtain ⟨row, found⟩ := Option.isSome_iff_exists.mp
    (choice.isSome _ (newestRows_ne_nil texts dialect _ some_))
  refine ⟨row, choice.mem _ row found, ?_⟩
  rw [loadForTimestamp, found]

end

def Choice.preferring {Row : Type} [DecidableEq Row] (preferred : Row) : Choice Row where
  first rows := if preferred ∈ rows then some preferred else rows.head?
  mem rows row found := by
    split at found
    · obtain rfl := Option.some.inj found
      assumption
    · exact List.mem_of_head? found
  isSome rows nonempty := by
    split
    · rfl
    · cases rows with
      | nil => exact absurd rfl nonempty
      | cons => rfl

theorem Choice.first_preferring {Row : Type} [DecidableEq Row] (preferred : Row) (rows : List Row)
    (member : preferred ∈ rows) : (Choice.preferring preferred).first rows = some preferred :=
  if_pos member

end Ducklake.Caches
