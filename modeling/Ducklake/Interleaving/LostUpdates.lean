import Ducklake.Interleaving.ColumnNumbers
import Ducklake.Interleaving.RenamedTables
import Ducklake.Transaction.AlteredTables

/-!
# Lost updates

A commit ends no row that began after its transaction started, unless it drops what the row
belongs to.  The one exception is the name of a table: a new name is recorded as a new table, so
two transactions can rename the same table, and the later name replaces the other one.
-/

set_option autoImplicit false

namespace Ducklake

open Lib Caches Spec Maintenance Transaction

/-! ## What a commit leaves -/

namespace Commit

/-- The commit is recorded to alter the table, or the table got its id from it. -/
def Begins (commit : Commit) (id : Int) : Prop :=
  .alteredTable id ∈ commit.prepared.appliedChanges.changes ∨ commit.base.nextCatalogId ≤ id

/-- The rows that began after the start of the commit's transaction and that the base still shows
are shown by the commit's snapshot, unless they are excused. -/
def Keeps {α : Type} (commit : Commit) (excused : α → Prop) (before after : List (Versioned α)) :
    Prop :=
  ∀ row ∈ before, commit.start.id < row.beginSnapshot → row.visibleAt commit.base.id = true →
    row ∈ after ∧ row.visibleAt commit.snapshotId = true ∨ excused row.entity

def DropsTable (commit : Commit) (id : Int) : Prop :=
  id ∈ commit.prepared.changes.droppedTables

/-- Rows of all kinds are kept, except for what the commit drops and for tables that it renames. -/
structure KeepsInterim (commit : Commit) : Prop where
  schemas : commit.Keeps (fun row => row.schemaId ∈ commit.prepared.changes.droppedSchemas)
    commit.before.schemas commit.after.schemas
  tables : commit.Keeps (fun row => commit.DropsTable row.tableId ∨
    commit.prepared.changes.renamedTables.contains row.tableId = true)
    commit.before.tables commit.after.tables
  views : commit.Keeps (fun row => row.viewId ∈ commit.prepared.changes.droppedViews)
    commit.before.views commit.after.views
  macros : commit.Keeps (fun row => row.macroId ∈ commit.prepared.changes.droppedMacros)
    commit.before.macros commit.after.macros
  columns : commit.Keeps (fun row => commit.DropsTable row.tableId)
    commit.before.columns commit.after.columns
  columnTags : commit.Keeps (fun row => commit.DropsTable row.tableId)
    commit.before.columnTags commit.after.columnTags
  tags : commit.Keeps (fun row => commit.DropsTable row.objectId ∨
      row.objectId ∈ commit.prepared.changes.droppedSchemas ∨
        row.objectId ∈ commit.prepared.changes.droppedViews)
    commit.before.tags commit.after.tags
  partitionInfo : commit.Keeps (fun row => commit.DropsTable row.tableId)
    commit.before.partitionInfo commit.after.partitionInfo
  sortInfo : commit.Keeps (fun row => commit.DropsTable row.tableId)
    commit.before.sortInfo commit.after.sortInfo
  dataFiles : commit.Keeps (fun row => commit.DropsTable row.tableId)
    commit.before.dataFiles commit.after.dataFiles
  deleteFiles : commit.Keeps (fun row => commit.DropsTable row.tableId)
    commit.before.deleteFiles commit.after.deleteFiles
  inlined : ∀ table ∈ commit.before.inlinedData, ∃ later ∈ commit.after.inlinedData,
    later.name = table.name ∧ table.batches <+: later.batches

end Commit

/-! ## Inline data -/

namespace Transaction

def KeepsInlined (before after : Database) : Prop :=
  ∀ table ∈ before.inlinedData, ∃ later ∈ after.inlinedData,
    later.name = table.name ∧ table.batches <+: later.batches

theorem KeepsInlined.trans
    {first second third : Database}
    (earlier : KeepsInlined first second)
    (later : KeepsInlined second third) :
    KeepsInlined first third := by
  intro table member
  obtain ⟨middle, inside, name, front⟩ := earlier table member
  obtain ⟨last, listed, nameLast, frontLast⟩ := later middle inside
  exact ⟨last, listed, nameLast.trans name, front.trans frontLast⟩

theorem createInlinedDataTable_keepsInlined
    (schemaVersion : Int)
    (before after : Database)
    (table : Int × Schema)
    (success : createInlinedDataTable schemaVersion before table = .ok after) :
    KeepsInlined before after := by
  unfold createInlinedDataTable at success
  dsimp only at success
  split at success
  · cases success
  · obtain rfl := Except.ok.inj success
    exact fun old member => ⟨old, List.mem_append_left _ member, rfl, List.prefix_refl _⟩

theorem persistInlineBatch_keepsInlined
    (before after : Database)
    (entry : Int × InlinedBatch)
    (success : persistInlineBatch before entry = .ok after) :
    KeepsInlined before after := by
  unfold persistInlineBatch at success
  split at success
  · cases success
  · rename_i name _
    obtain rfl := Except.ok.inj success
    intro old member
    refine ⟨_, List.mem_map_of_mem member, ?_⟩
    split
    · exact ⟨rfl, List.prefix_append _ _⟩
    · exact ⟨rfl, List.prefix_refl _⟩

theorem persistInlineData_keepsInlined
    (dialect : Dialect)
    (schemaVersion : Int)
    (changes : TransactionChanges)
    (before after : Database)
    (success : persistInlineData dialect schemaVersion changes before = .ok after) :
    KeepsInlined before after := by
  have same : KeepsInlined before before := fun table member =>
    ⟨table, member, rfl, List.prefix_refl _⟩
  unfold persistInlineData at success
  split at success
  · split at success
    · obtain rfl := Except.ok.inj success
      exact same
    · cases success
  · obtain ⟨between, created, appended⟩ := bind_eq_ok.mp success
    have first := foldlM_invariant (KeepsInlined before) same
      (fun state entry next _ keeps stepped =>
        keeps.trans (createInlinedDataTable_keepsInlined schemaVersion state next entry stepped))
      created
    exact foldlM_invariant (KeepsInlined before) first
      (fun state entry next _ keeps stepped =>
        keeps.trans (persistInlineBatch_keepsInlined state next entry stepped)) appended

theorem persistCommit_keepsInlined
    (env : Environment)
    (now : Int)
    (prepared : PreparedCommit)
    (before after : Database)
    (success : persistCommit env now prepared before = .ok after) :
    KeepsInlined before after := by
  obtain ⟨rows, persisted, _, rfl⟩ := persistCommit_eq_ok env now prepared before after success
  obtain ⟨catalogRows, inserted, persisted⟩ := bind_eq_ok.mp persisted
  obtain ⟨files, filesOk, persisted⟩ := bind_eq_ok.mp persisted
  obtain ⟨inlined, inlinedOk, finished⟩ := bind_eq_ok.mp persisted
  obtain ⟨schemas, _, inserted⟩ := bind_eq_ok.mp inserted
  obtain ⟨dataFiles, _, filesOk⟩ := bind_eq_ok.mp filesOk
  obtain ⟨deleteFiles, _, filesOk⟩ := bind_eq_ok.mp filesOk
  obtain rfl := Except.ok.inj inserted
  obtain rfl := Except.ok.inj filesOk
  have keeps := persistInlineData_keepsInlined _ _ _ _ _ inlinedOk
  obtain rfl := Except.ok.inj finished
  exact keeps

theorem Change.worksOn_of_altered
    (change : Change)
    (ref : TableRef)
    (recorded : change.recordedTable = some (ref, .alteredTable)) :
    change.worksOn = some ref := by
  unfold worksOn
  split
  · rename_i deleted
    cases change with
    | deleteTable tableRef detachFiles =>
        obtain ⟨_, kinds⟩ := Prod.mk.inj (Option.some.inj recorded)
        have impossible := congrFun kinds 0
        cases impossible
    | addTableColumn parent refs column => cases deleted
    | _ => cases deleted
  · rw [recorded]
    rfl

end Transaction

/-! ## Where rows come from -/

namespace System

/-- The commit with which a row of a table began altered the table or created it. -/
def BegunBy {α : Type} (sys : System) (owner : α → Int) (rows : List (Versioned α)) : Prop :=
  ∀ row ∈ rows, ∃ commit ∈ sys.history, commit.snapshotId = row.beginSnapshot ∧
    commit.Begins (owner row.entity)

structure BegunRecorded (sys : System) : Prop where
  tags : sys.BegunBy DucklakeTag.objectId sys.db.tags
  columns : sys.BegunBy DucklakeColumn.tableId sys.db.columns
  columnTags : sys.BegunBy DucklakeColumnTag.tableId sys.db.columnTags
  partitionInfo : sys.BegunBy DucklakePartitionInfo.tableId sys.db.partitionInfo
  sortInfo : sys.BegunBy DucklakeSortInfo.tableId sys.db.sortInfo

section

variable {env : Environment} {sys next : System} {latest : SnapshotInfo} {commit : Commit}
variable {time : Int}

theorem Committing.rewrites
    (counted : sys.Counted latest)
    (committing : Committing env sys latest commit time) :
    Database.Rewrites commit.prepared.state commit.prepared.changes
      (Alters (ChangeSet.new commit.tx.changes).changes commit.prepared.state)
      (Creates (ChangeSet.new commit.tx.changes).changes commit.prepared.state)
      sys.db commit.after := by
  obtain ⟨stats, success⟩ := committing.sound.prepared
  exact persistCommit_rewrites env time _ _ _ _ _
    (prepareCommit_ownedBy env _ _ _ committing.sound.tx.present success)
    (committing.rows counted).fresh committing.persisted

/-- What a commit alters is recorded, and what it creates gets an id above its base. -/
theorem Committing.begins
    (committing : Committing env sys latest commit time)
    (id : Int)
    (owned : Alters (ChangeSet.new commit.tx.changes).changes commit.prepared.state id ∨
      Creates (ChangeSet.new commit.tx.changes).changes commit.prepared.state id) :
    commit.Begins id := by
  have sound := committing.sound
  rcases owned with ⟨change, member, ref, recorded, found⟩ | ⟨change, member, key, made, found⟩
  · exact Or.inl (Prepared.recorded_mem env commit.tx commit.base commit.prepared sound.tx
      sound.prepared change ref .alteredTable id member recorded found)
  · obtain ⟨start, catalog, nextId, extends_⟩ := sound.state
    have missing := sound.tx.idOf_created change (ChangeSet.mem_of_mem_new _ _ member) key made
    rcases extends_.fresh key id found with old | given
    · rw [catalog, missing] at old
      cases old
    · exact Or.inr (nextId ▸ given.1)

theorem BegunBy.recordCommit
    {α : Type}
    {owner : α → Int}
    {before after : List (Versioned α)}
    {ends begins : α → Prop}
    (begun : sys.BegunBy owner before)
    (rewrites : Versioned.Rewrites commit.prepared.state.snapshotId ends begins before after)
    (explained : ∀ entity, begins entity → commit.Begins (owner entity)) :
    (sys.recordCommit commit time).BegunBy owner after := by
  intro row member
  rcases rewrites.origin row member with ⟨old, stored, kept⟩ | ⟨began, allowed⟩
  · obtain ⟨earlier, listed, created, begins⟩ := begun old stored
    refine ⟨earlier, List.mem_append_left _ listed, created.trans kept.beginSnapshot.symm, ?_⟩
    rwa [kept.entity]
  · exact ⟨commit, List.mem_append_right _ (List.mem_singleton_self _), began.symm,
      explained row.entity allowed⟩

end

theorem reachable_begunRecorded
    (env : Environment)
    (now : Int)
    (sys : System)
    (run : Reachable env WithoutExpiration now sys) :
    sys.BegunRecorded := by
  refine reachable_committed env now sys BegunRecorded ?_ ?_ ?_ run
  · constructor <;> simp [init, initCatalog, BegunBy]
  · intro sys next db known history begun
    constructor <;> unfold BegunBy <;> rw [db, history]
    · exact begun.tags
    · exact begun.columns
    · exact begun.columnTags
    · exact begun.partitionInfo
    · exact begun.sortInfo
  · intro sys latest commit time _ begun counted committing _
    have rewrites := committing.rewrites counted
    constructor
    · exact begun.tags.recordCommit rewrites.tags fun _ => committing.begins _
    · exact begun.columns.recordCommit rewrites.columns fun _ => committing.begins _
    · exact begun.columnTags.recordCommit rewrites.columnTags fun _ => committing.begins _
    · exact begun.partitionInfo.recordCommit rewrites.partitionInfo fun _ => committing.begins _
    · exact begun.sortInfo.recordCommit rewrites.sortInfo fun _ => committing.begins _

/-! ## What happened since the start -/

section

variable {env : Environment} {now : Int} {sys next : System} {latest : SnapshotInfo}
variable {commit : Commit} {time : Int}

/-- A table that a commit alters was there at its start, and nobody altered it since. -/
theorem not_begins_of_alters
    (run : Reachable env WithoutExpiration now next)
    (history : next.history = sys.history ++ [commit])
    (committing : Committing env sys latest commit time)
    (id : Int)
    (alters : Alters (ChangeSet.new commit.tx.changes).changes commit.prepared.state id)
    (below : id < latest.nextCatalogId)
    (earlier : Commit)
    (listed : earlier ∈ sys.history)
    (interim : commit.start.id < earlier.snapshotId) :
    ¬earlier.Begins id := by
  obtain ⟨change, member, ref, recorded, found⟩ := alters
  have sound := committing.sound
  have listedNext : earlier ∈ next.history := history ▸ List.mem_append_left _ listed
  have memberNext : commit ∈ next.history :=
    history ▸ List.mem_append_right _ (List.mem_singleton_self _)
  obtain ⟨start, catalog, nextId, extends_⟩ := sound.state
  rcases extends_.fresh _ _ found with known | given
  · rw [catalog] at known
    rintro (altered | created)
    · have inOrder := (numbered_of_withoutExpiration run).inOrder
      have follows : Follows earlier commit := by
        have ordered := inOrder.1
        rw [history] at ordered
        exact (List.pairwise_append.mp ordered).2.2 earlier listed commit (List.mem_singleton_self _)
      exact (follows.untouched env earlier commit change ref id sound interim member
        (change.worksOn_of_altered ref recorded) known).1 altered
    · -- A snapshot before the interim shows the table, so its id is older.
      have visible := ((reachable_idsVisible env now next run).commits commit memberNext).holds _ _
        known
      obtain ⟨entity, seenAt, rfl⟩ := List.mem_map.mp visible
      obtain ⟨row, filtered, rfl⟩ := List.mem_map.mp seenAt
      obtain ⟨stored, seen⟩ := List.mem_filter.mp filtered
      simp only [Versioned.visibleAt, Bool.and_eq_true, decide_eq_true_eq] at seen
      have bound := (reachable_recorded env now next run).tables earlier listedNext row stored (by
        rw [sound.snapshot] at seen
        omega)
      omega
  · rw [nextId, committing.base] at given
    have above := given.1
    omega

theorem Committing.visibleAt_snapshotId
    {α : Type}
    {rows : List (Versioned α)}
    (counted : sys.Counted latest)
    (committing : Committing env sys latest commit time)
    (bounded : Versioned.Until latest.id rows)
    (row : Versioned α)
    (member : row ∈ rows)
    (seen : row.visibleAt commit.base.id = true) :
    row.visibleAt commit.snapshotId = true := by
  have created : commit.snapshotId = commit.base.id + 1 := (committing.rows counted).snapshotId
  have base : commit.base.id = latest.id := congrArg SnapshotInfo.id committing.base
  unfold Versioned.visibleAt at seen ⊢
  cases ended : row.endSnapshot with
  | none =>
      simp only [ended, Bool.and_true, decide_eq_true_eq] at seen ⊢
      omega
  | some finish =>
      have bound := (bounded row member).2 finish ended
      simp only [ended, Bool.and_eq_true, decide_eq_true_eq] at seen
      omega

theorem Committing.keeps
    {α : Type}
    {before after : List (Versioned α)}
    {ends begins excused : α → Prop}
    (counted : sys.Counted latest)
    (committing : Committing env sys latest commit time)
    (bounded : Versioned.Until latest.id before)
    (rewrites : Versioned.Rewrites commit.prepared.state.snapshotId ends begins before after)
    (allowed : ∀ row ∈ before, commit.start.id < row.beginSnapshot → ends row.entity →
      excused row.entity) :
    commit.Keeps excused before after := by
  intro row member interim seen
  rcases rewrites.kept row member with stays | ended
  · exact Or.inl ⟨stays, committing.visibleAt_snapshotId counted bounded row member seen⟩
  · exact Or.inr (allowed row member interim ended)

/-- Rows that an alteration of their table ends as well: those are older than the start. -/
theorem Committing.keepsOwned
    {α : Type}
    {before after : List (Versioned α)}
    {owner : α → Int}
    {begins dropped : α → Prop}
    (run : Reachable env WithoutExpiration now next)
    (history : next.history = sys.history ++ [commit])
    (counted : sys.Counted latest)
    (committing : Committing env sys latest commit time)
    (bounded : Versioned.Until latest.id before)
    (below : Versioned.Entities (fun entity => owner entity < latest.nextCatalogId) before)
    (begun : sys.BegunBy owner before)
    (rewrites : Versioned.Rewrites commit.prepared.state.snapshotId (fun row => dropped row ∨
      Alters (ChangeSet.new commit.tx.changes).changes commit.prepared.state (owner row)) begins
      before after) :
    commit.Keeps dropped before after := by
  refine committing.keeps counted bounded rewrites fun row member interim ended => ?_
  refine ended.resolve_right fun alters => ?_
  obtain ⟨earlier, listed, created, begins⟩ := begun row member
  exact not_begins_of_alters run history committing _ alters (below row member) earlier listed
    (created ▸ interim) begins

end

/-- In every run, no commit takes away what was committed since its start, unless it drops it or
renames a table that was renamed since. -/
theorem keepsInterim_of_reachable
    (env : Environment)
    (now : Int)
    (sys : System)
    (run : Reachable env WithoutExpiration now sys) :
    ∀ commit ∈ sys.history, commit.KeepsInterim := by
  refine run.invariant_of_reached (fun sys => ∀ commit ∈ sys.history, commit.KeepsInterim)
    (fun _ member => absurd member List.not_mem_nil) ?_
  intro sys label next run held transactional stepped
  have reached : Reachable env WithoutExpiration now next := run.tail transactional stepped
  cases stepCommits_of_reachable env now sys next label run transactional stepped with
  | nothing db known history => rwa [history]
  | @one latest commit time counted committing db known history =>
      rw [history]
      refine List.forall_mem_append.mpr ⟨held, ?_⟩
      rw [List.forall_mem_singleton]
      have rewrites := committing.rewrites counted
      have bounded := counted.until_
      have below := counted.idsBelow
      have begun := reachable_begunRecorded env now sys run
      constructor <;> rw [committing.before]
      · exact committing.keeps counted bounded.schemas rewrites.schemas fun _ _ _ ended => ended
      · exact committing.keeps counted bounded.tables rewrites.tables fun _ _ _ ended => ended
      · exact committing.keeps counted bounded.views rewrites.views fun _ _ _ ended => ended
      · exact committing.keeps counted bounded.macros rewrites.macros fun _ _ _ ended => ended
      · exact committing.keepsOwned reached history counted bounded.columns below.columns
          begun.columns rewrites.columns
      · exact committing.keepsOwned reached history counted bounded.columnTags below.columnTags
          begun.columnTags rewrites.columnTags
      · exact committing.keepsOwned reached history counted bounded.tags below.tags begun.tags
          rewrites.tags
      · exact committing.keepsOwned reached history counted bounded.partitionInfo
          (below.partitionInfo.mono fun _ bounds => bounds.2) begun.partitionInfo
          rewrites.partitionInfo
      · exact committing.keepsOwned reached history counted bounded.sortInfo
          (below.sortInfo.mono fun _ bounds => bounds.2) begun.sortInfo rewrites.sortInfo
      · exact committing.keeps counted bounded.dataFiles rewrites.dataFiles fun _ _ _ ended => ended
      · exact committing.keeps counted bounded.deleteFiles rewrites.deleteFiles
          fun _ _ _ ended => ended
      · exact persistCommit_keepsInlined env time _ _ _ committing.persisted

/-- A table is tagged while another transaction renames it: the tag stays. -/
theorem keepsInterim_of_reachable_tagged :
    ∃ sys, Reachable .plain WithoutExpiration 0 sys ∧
      sys.history.map (fun commit => (commit.snapshotId, commit.start.id)) = [(1, 0), (2, 1), (3, 1)] ∧
      sys.db.tags.map (fun row => (row.beginSnapshot, row.endSnapshot)) = [(2, none)] ∧
      ∀ commit ∈ sys.history, commit.KeepsInterim := by
  obtain ⟨sys, taken, shape⟩ : ∃ sys, (changedMeanwhile
      (.addTableTag droppedTableName "k".toList "x".toList)
      (.renameTable droppedTableName "u".toList)).foldlM (step .plain) (init 0) = some sys ∧
      (sys.history.map (fun commit => (commit.snapshotId, commit.start.id)),
        sys.db.tags.map fun row => (row.beginSnapshot, row.endSnapshot)) =
          ([(1, 0), (2, 1), (3, 1)], [(2, none)]) :=
    Option.map_eq_some_iff.mp (by decide +kernel)
  have transactional : ∀ label ∈ changedMeanwhile
      (.addTableTag droppedTableName "k".toList "x".toList)
      (.renameTable droppedTableName "u".toList), label.isExpiration = false := by decide
  have run : Reachable .plain WithoutExpiration 0 sys :=
    Reaches.of_foldlM _ (fun _ => transactional) taken
  exact ⟨sys, run, congrArg Prod.fst shape, congrArg Prod.snd shape,
    keepsInterim_of_reachable .plain 0 sys run⟩

/-- Two transactions rename one table, and the first name is gone. -/
example :
    ((changedMeanwhile (.renameTable droppedTableName "u".toList)
      (.renameTable droppedTableName "v".toList)).foldlM (step .plain) (init 0)).map (fun sys =>
        sys.db.tables.map fun row => (row.entity.tableName, row.beginSnapshot, row.endSnapshot)) =
      some [("t".toList, 1, some 2), ("u".toList, 2, some 3), ("v".toList, 3, none)] := by
  decide +kernel

end System

end Ducklake
