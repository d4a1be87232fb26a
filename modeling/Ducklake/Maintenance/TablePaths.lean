import Ducklake.Catalog.LoadedPaths
import Ducklake.Lib.History
import Ducklake.Lib.Runs
import Ducklake.Maintenance.ExpireSnapshots
import Ducklake.Maintenance.ScheduledFiles
import Ducklake.Transaction.Persistence

/-!
# The data path of a table

Scans and writes take the data path of a table from the catalog of a snapshot, an expiration takes
it from the latest catalog or from the rows.  Along renames, drops and expirations, they agree as
long as the paths are stored on which the change of a name has an effect.
-/

set_option autoImplicit false

namespace Ducklake.Maintenance

open Lib Spec Io Transaction

/-! ## Data paths -/

section

variable {U : Type} (urls : Urls U)

def ofStored (path : Ducklake.DucklakePath) : DucklakeResult (Io.DucklakePath U) :=
  Io.DucklakePath.new urls path.display path.isRelative

def dataPath (base : Io.DucklakePath U) (catalog : Catalog) (ref : TableRef) :
    DucklakeResult (Io.DucklakePath U) := do
  let schema ← catalog.parentSchema (catalog.table ref).name
  let schemaPath ← ofStored urls (catalog.schema schema).path
  let tablePath ← ofStored urls (catalog.table ref).path
  tableDataPath urls base schemaPath tablePath

/-- `query_table_data_path`, for one of the rows that the query finds. -/
def queryTableDataPath (base : Io.DucklakePath U) (schema : DucklakeSchema)
    (table : DucklakeTable) : DucklakeResult (Io.DucklakePath U) := do
  let schemaPath ← Io.DucklakePath.new urls schema.path schema.pathIsRelative
  let tablePath ← Io.DucklakePath.new urls table.path table.pathIsRelative
  tableDataPath urls base schemaPath tablePath

variable (env : Environment) (base : Io.DucklakePath U) (db : Database) (tableId : Int)

/-- Scans at the snapshot and writes that start there resolve files at the location. -/
def LoadedAt (snapshot : Int) (location : Io.DucklakePath U) : Prop :=
  ∃ catalog ref, Catalog.load env db snapshot = .ok catalog ∧
    catalog.tableRefById tableId = .ok ref ∧ dataPath urls base catalog ref = .ok location

/-- An expiration resolves files at the location, with the catalog that it has read. -/
def ExpiresAt (catalog : Catalog) (location : Io.DucklakePath U) : Prop :=
  match catalog.tableRefById tableId with
  | .ok ref => dataPath urls base catalog ref = .ok location
  | .error _ => ∃ table ∈ db.tables, ∃ schema ∈ db.schemas, table.entity.tableId = tableId ∧
      schema.entity.schemaId = table.entity.schemaId ∧
        queryTableDataPath urls base schema.entity table.entity = .ok location

def latestId (db : Database) : Option Int :=
  (db.snapshots.map DucklakeSnapshot.snapshotId).max?

/-- The locations that relative paths of the table's files are resolved against. -/
def Location (location : Io.DucklakePath U) : Prop :=
  (∃ snapshot, LoadedAt urls env base db tableId snapshot location) ∨
    ∃ latest catalog, latestId db = some latest ∧ Catalog.load env db latest = .ok catalog ∧
      ExpiresAt urls base db tableId catalog location

end

/-! ## Histories -/

inductive PathLabel where
  | commit (now : Int) (prepared : PreparedCommit)
  | expire (catalog : Catalog) (filter : SnapshotFilter)

def pathStep (env : Environment) (db : Database) : PathLabel → Option Database
  | .commit now prepared => (persistCommit env now prepared db).toOption
  | .expire catalog filter => (expireSnapshots catalog filter db).toOption

/-- All versions of the table have one path and one schema, and no snapshot sees another schema of
that name. -/
structure Placed (tableId : Int) (place : DucklakeTable) (schema : DucklakeSchema)
    (db : Database) : Prop where
  tables : Versioned.Entities (fun row => row.tableId = tableId →
    row = { place with tableName := row.tableName }) db.tables
  schemas : Versioned.Entities (fun row => row.schemaId = place.schemaId → row = schema) db.schemas
  named : ∀ snapshot, schema ∈ Versioned.entitiesAt snapshot db.schemas →
    ∀ other ∈ Versioned.entitiesAt snapshot db.schemas,
      other.schemaName = schema.schemaName → other = schema

/-- No default takes the place of a path that the table's location depends on. -/
def HasPaths (place : DucklakeTable) (schema : DucklakeSchema) : Prop :=
  place.path ≠ [] ∧ (schema.path ≠ [] ∨ place.pathIsRelative = false)

def Unchanged (tableId : Int) (name : Text) (db : Database) : Prop :=
  ∀ row ∈ db.tables, row.entity.tableId = tableId →
    row.entity.tableName = name ∧ row.endSnapshot = none ∧
      ∃ snapshot ∈ db.snapshots, row.beginSnapshot ≤ snapshot.snapshotId

/-- If the table is stored at all, the latest snapshot sees it. -/
def Live (tableId : Int) (db : Database) : Prop :=
  ∀ row ∈ db.tables, row.entity.tableId = tableId →
    ∃ live ∈ db.tables, live.entity.tableId = tableId ∧ live.endSnapshot = none ∧
      ∃ snapshot ∈ db.snapshots, live.beginSnapshot ≤ snapshot.snapshotId

/-- The names and rows that the location of the table depends on stay as they are. -/
def KeptInPlace (tableId : Int) (place : DucklakeTable) (schema : DucklakeSchema) (name : Text)
    (db : Database) : Prop :=
  HasPaths place schema ∨ (place.path ≠ [] ∧ Live tableId db) ∨ Unchanged tableId name db

def Spares (tableId : Int) (changes : TransactionChanges) : Prop :=
  tableId ∉ changes.droppedTables ∧ changes.renamedTables.contains tableId = false

/-- A step of a history of renames, drops and expirations.  It renames the table only if its own
path is stored, and drops it only if that of its schema is, too. -/
def KeepsPlace (tableId : Int) (place : DucklakeTable) (schema : DucklakeSchema) (_ : Database) :
    PathLabel → Prop
  | .commit _ prepared => prepared.changes.newTables = [] ∧ prepared.changes.newSchemas = [] ∧
      (HasPaths place schema ∨ (place.path ≠ [] ∧ tableId ∉ prepared.changes.droppedTables) ∨
        Spares tableId prepared.changes)
  | .expire _ _ => True

/-! ## One step -/

theorem mem_entitiesAt_retire
    {α : Type}
    (snapshot at_ : Int)
    (selects : α → Bool)
    (rows : List (Versioned α))
    (entity : α)
    (seen : entity ∈ Versioned.entitiesAt at_ (Versioned.retire snapshot selects rows)) :
    entity ∈ Versioned.entitiesAt at_ rows := by
  obtain ⟨row, inside, rfl⟩ := List.mem_map.mp seen
  obtain ⟨listed, visible⟩ := List.mem_filter.mp inside
  obtain ⟨before, member, rfl⟩ := List.mem_map.mp listed
  rw [Versioned.retireRow_entity]
  refine List.mem_map_of_mem (List.mem_filter.mpr ⟨member, ?_⟩)
  unfold Versioned.retireRow at visible
  split at visible
  · rename_i retired
    rw [Bool.and_eq_true] at retired
    have live : before.endSnapshot = none := Option.isNone_iff_eq_none.mp retired.1
    unfold Versioned.visibleAt at visible ⊢
    rw [Bool.and_eq_true] at visible ⊢
    exact ⟨visible.1, by rw [live]⟩
  · exact visible

theorem mem_entitiesAt_filter
    {α : Type}
    (at_ : Int)
    (keeps : Versioned α → Bool)
    (rows : List (Versioned α))
    (entity : α)
    (seen : entity ∈ Versioned.entitiesAt at_ (rows.filter keeps)) :
    entity ∈ Versioned.entitiesAt at_ rows := by
  obtain ⟨row, inside, rfl⟩ := List.mem_map.mp seen
  obtain ⟨listed, visible⟩ := List.mem_filter.mp inside
  exact List.mem_map_of_mem (List.mem_filter.mpr ⟨List.mem_of_mem_filter listed, visible⟩)

section

variable {tableId : Int} {place : DucklakeTable} {schema : DucklakeSchema} {name : Text}
variable {db next : Database}

theorem persistCommit_tables
    (env : Environment)
    (now : Int)
    (prepared : PreparedCommit)
    (success : persistCommit env now prepared db = .ok next)
    (tables : prepared.changes.newTables = [])
    (schemas : prepared.changes.newSchemas = []) :
    next.tables = persistTableRenames prepared.state.snapshotId prepared.changes.renamedTables
        (retireRows prepared.state.snapshotId prepared.changes db).tables ∧
      next.schemas = (retireRows prepared.state.snapshotId prepared.changes db).schemas := by
  have same := persistCommit_same env now prepared db next success
  unfold SameExceptSnapshots at same
  rw [same]
  change insertNew _ (persistTableRenames _ _ _) prepared.changes.newTables = _ ∧
    insertNew _ _ prepared.changes.newSchemas = _
  rw [tables, schemas]
  exact ⟨List.append_nil _, List.append_nil _⟩

theorem Placed.commit
    (placed : Placed tableId place schema db)
    (env : Environment)
    (now : Int)
    (prepared : PreparedCommit)
    (success : persistCommit env now prepared db = .ok next)
    (tables : prepared.changes.newTables = [])
    (schemas : prepared.changes.newSchemas = []) :
    Placed tableId place schema next := by
  obtain ⟨sameTables, sameSchemas⟩ := persistCommit_tables env now prepared success tables schemas
  have retired := placed.tables.retire prepared.state.snapshotId (fun row =>
    row.tableId ∈ prepared.changes.droppedTables ||
      prepared.changes.renamedTables.contains row.tableId)
  constructor
  · rw [sameTables]
    refine retired.append fun row member own => ?_
    obtain ⟨source, inside, copied⟩ := List.mem_filterMap.mp member
    split at copied
    · obtain ⟨newName, _, rfl⟩ := Option.map_eq_some_iff.mp copied
      rw [Versioned.entity_new]
      exact congrArg (fun row : DucklakeTable => { row with tableName := newName })
        (retired source inside own)
    · cases copied
  · rw [sameSchemas]
    exact placed.schemas.retire _ _
  · rw [sameSchemas]
    intro snapshot seen other otherSeen named
    exact placed.named snapshot (mem_entitiesAt_retire _ _ _ _ _ seen) other
      (mem_entitiesAt_retire _ _ _ _ _ otherSeen) named

theorem Unchanged.commit
    (unchanged : Unchanged tableId name db)
    (env : Environment)
    (now : Int)
    (prepared : PreparedCommit)
    (success : persistCommit env now prepared db = .ok next)
    (tables : prepared.changes.newTables = [])
    (schemas : prepared.changes.newSchemas = [])
    (spares : Spares tableId prepared.changes) :
    Unchanged tableId name next := by
  obtain ⟨sameTables, _⟩ := persistCommit_tables env now prepared success tables schemas
  obtain ⟨snapshots, _⟩ := persistCommit_snapshots env now prepared db next success
  have kept : ∀ row ∈ (retireRows prepared.state.snapshotId prepared.changes db).tables,
      row.entity.tableId = tableId → row ∈ db.tables := by
    intro row member own
    obtain ⟨before, inside, rfl⟩ := List.mem_map.mp member
    rw [Versioned.retireRow_entity] at own
    rw [Versioned.retireRow_of_not]
    · exact inside
    · unfold Spares at spares
      simpa [own] using spares
  intro row member own
  rw [sameTables] at member
  obtain old | copied := List.mem_append.mp member
  · obtain ⟨named, live, snapshot, known, begun⟩ := unchanged row (kept row old own) own
    refine ⟨named, live, snapshot, ?_, begun⟩
    rw [snapshots]
    exact List.mem_append_left _ known
  · obtain ⟨source, inside, copied⟩ := List.mem_filterMap.mp copied
    split at copied
    · obtain ⟨newName, renamed, rfl⟩ := Option.map_eq_some_iff.mp copied
      rw [Versioned.entity_new] at own
      have absent := spares.2
      rw [← own, IndexMap.contains, renamed] at absent
      cases absent
    · cases copied

theorem Unchanged.live (unchanged : Unchanged tableId name db) : Live tableId db := by
  intro row stored own
  obtain ⟨_, live, begun⟩ := unchanged row stored own
  exact ⟨row, stored, own, live, begun⟩

/-- A commit that does not drop a table leaves its row, or puts a renamed one in its place. -/
theorem Live.commit
    (live : Live tableId db)
    (env : Environment)
    (now : Int)
    (prepared : PreparedCommit)
    (success : persistCommit env now prepared db = .ok next)
    (tables : prepared.changes.newTables = [])
    (schemas : prepared.changes.newSchemas = [])
    (undropped : tableId ∉ prepared.changes.droppedTables) :
    Live tableId next := by
  obtain ⟨sameTables, _⟩ := persistCommit_tables env now prepared success tables schemas
  obtain ⟨snapshots, _⟩ := persistCommit_snapshots env now prepared db next success
  have ofRetired : ∀ row ∈ (retireRows prepared.state.snapshotId prepared.changes db).tables,
      row.entity.tableId = tableId → ∃ old ∈ db.tables, old.entity.tableId = tableId := by
    intro row member own
    obtain ⟨before, inside, rfl⟩ := List.mem_map.mp member
    exact ⟨before, inside, by rwa [Versioned.retireRow_entity] at own⟩
  intro row member own
  obtain ⟨old, stored, ownOld⟩ : ∃ old ∈ db.tables, old.entity.tableId = tableId := by
    rw [sameTables] at member
    obtain retired | copied := List.mem_append.mp member
    · exact ofRetired row retired own
    · obtain ⟨source, inside, copied⟩ := List.mem_filterMap.mp copied
      split at copied
      · obtain ⟨_, _, rfl⟩ := Option.map_eq_some_iff.mp copied
        exact ofRetired source inside own
      · cases copied
  obtain ⟨shown, shownStored, ownShown, open_, snapshot, known, begun⟩ := live old stored ownOld
  have retired : Versioned.retireRow prepared.state.snapshotId (fun row : DucklakeTable =>
      row.tableId ∈ prepared.changes.droppedTables ||
        prepared.changes.renamedTables.contains row.tableId) shown ∈
      (retireRows prepared.state.snapshotId prepared.changes db).tables :=
    List.mem_map_of_mem shownStored
  rw [sameTables, snapshots]
  cases renamed : prepared.changes.renamedTables.get? tableId with
  | none =>
      refine ⟨shown, List.mem_append_left _ ?_, ownShown, open_, snapshot,
        List.mem_append_left _ known, begun⟩
      rwa [Versioned.retireRow_of_not] at retired
      simp [ownShown, undropped, IndexMap.contains, renamed]
  | some newName =>
      refine ⟨.new prepared.state.snapshotId { shown.entity with tableName := newName },
        List.mem_append_right _ (List.mem_filterMap.mpr ⟨_, retired, ?_⟩), ownShown, rfl, _,
        List.mem_append_right _ (List.mem_singleton_self _), ?_⟩
      · have selected : (shown.isLive && (decide (shown.entity.tableId ∈
            prepared.changes.droppedTables) ||
              prepared.changes.renamedTables.contains shown.entity.tableId)) = true := by
          simp [ownShown, open_, Versioned.isLive, IndexMap.contains, renamed]
        rw [Versioned.retireRow, if_pos selected]
        dsimp only
        rw [if_pos rfl, ownShown, renamed]
        rfl
      · exact le_rfl

theorem expireSnapshots_rows
    (catalog : Catalog)
    (filter : SnapshotFilter)
    (success : expireSnapshots catalog filter db = .ok next) :
    (∃ keeps, next.tables = db.tables.filter keeps ∧
        ∀ row ∈ db.tables, row.endSnapshot = none → keeps row = true) ∧
      (∃ keeps, next.schemas = db.schemas.filter keeps) ∧
      ∀ snapshot ∈ db.snapshots, ∃ other ∈ next.snapshots,
        snapshot.snapshotId ≤ other.snapshotId := by
  have snapshots := (expireSnapshots_snapshots catalog filter db next success).1
  obtain ⟨marked, markedOk, finished⟩ := bind_eq_ok.mp success
  have same : marked.tables = db.tables ∧ marked.schemas = db.schemas := by
    unfold markDataFilesForDeletion at markedOk
    dsimp only at markedOk
    split at markedOk
    · obtain rfl := Except.ok.inj markedOk
      exact ⟨rfl, rfl⟩
    · cases markedOk
  obtain rfl := Except.ok.inj finished
  refine ⟨⟨_, congrArg (List.filter _) same.1, fun row stored live => ?_⟩,
    ⟨_, congrArg (List.filter _) same.2⟩, ?_⟩
  · -- The row of a live table is active, whatever else is expired.
    rw [decide_eq_true_eq]
    intro expired
    have unseen := (List.mem_filter.mp expired).2
    rw [Bool.not_eq_true', List.any_eq_false] at unseen
    exact unseen row stored (by simp [inactive, live])
  intro snapshot listed
  rw [snapshots]
  obtain ⟨latest, newest⟩ : ∃ latest,
      (db.snapshots.map DucklakeSnapshot.snapshotId).max? = some latest :=
    Option.isSome_iff_exists.mp (List.isSome_max?_of_mem (List.mem_map_of_mem listed))
  obtain ⟨member, greatest⟩ := List.max?_eq_some_iff.mp newest
  obtain ⟨last, lastListed, rfl⟩ := List.mem_map.mp member
  refine ⟨last, List.mem_filter.mpr ⟨lastListed, ?_⟩, greatest _ (List.mem_map_of_mem listed)⟩
  simpa using max_notMem_findExpiredSnapshots filter db _ newest

theorem Placed.expire
    (placed : Placed tableId place schema db)
    (catalog : Catalog)
    (filter : SnapshotFilter)
    (success : expireSnapshots catalog filter db = .ok next) :
    Placed tableId place schema next := by
  obtain ⟨⟨_, tables, _⟩, ⟨_, schemas⟩, _⟩ := expireSnapshots_rows catalog filter success
  constructor
  · rw [tables]
    exact placed.tables.filter _
  · rw [schemas]
    exact placed.schemas.filter _
  · rw [schemas]
    intro snapshot seen other otherSeen named
    exact placed.named snapshot (mem_entitiesAt_filter _ _ _ _ seen) other
      (mem_entitiesAt_filter _ _ _ _ otherSeen) named

theorem Unchanged.expire
    (unchanged : Unchanged tableId name db)
    (catalog : Catalog)
    (filter : SnapshotFilter)
    (success : expireSnapshots catalog filter db = .ok next) :
    Unchanged tableId name next := by
  obtain ⟨⟨_, tables, _⟩, _, snapshots⟩ := expireSnapshots_rows catalog filter success
  intro row member own
  rw [tables] at member
  obtain ⟨named, live, snapshot, known, begun⟩ :=
    unchanged row (List.mem_of_mem_filter member) own
  obtain ⟨other, kept, later⟩ := snapshots snapshot known
  exact ⟨named, live, other, kept, begun.trans later⟩

theorem Live.expire
    (live : Live tableId db)
    (catalog : Catalog)
    (filter : SnapshotFilter)
    (success : expireSnapshots catalog filter db = .ok next) :
    Live tableId next := by
  obtain ⟨⟨_, tables, keeps⟩, _, snapshots⟩ := expireSnapshots_rows catalog filter success
  intro row member own
  rw [tables] at member
  obtain ⟨shown, stored, ownShown, open_, snapshot, known, begun⟩ :=
    live row (List.mem_of_mem_filter member) own
  obtain ⟨other, kept, later⟩ := snapshots snapshot known
  rw [tables]
  exact ⟨shown, List.mem_filter.mpr ⟨stored, keeps shown stored open_⟩, ownShown, open_, other, kept,
    begun.trans later⟩

theorem KeptInPlace.commit
    (settled : KeptInPlace tableId place schema name db)
    (env : Environment)
    (now : Int)
    (prepared : PreparedCommit)
    (success : persistCommit env now prepared db = .ok next)
    (permitted : KeepsPlace tableId place schema db (.commit now prepared)) :
    KeptInPlace tableId place schema name next := by
  obtain ⟨tables, schemas, spares⟩ := permitted
  have kept : Live tableId db → tableId ∉ prepared.changes.droppedTables → Live tableId next :=
    fun live => live.commit env now prepared success tables schemas
  obtain paths | ⟨stored, live⟩ | unchanged := settled
  · exact Or.inl paths
  · exact spares.imp id fun spares => Or.inl ⟨stored, kept live (spares.elim And.right And.left)⟩
  · obtain paths | ⟨stored, undropped⟩ | spares := spares
    · exact Or.inl paths
    · exact Or.inr (Or.inl ⟨stored, kept unchanged.live undropped⟩)
    · exact Or.inr (Or.inr (unchanged.commit env now prepared success tables schemas spares))

/-- What a table's location depends on stays the same in every state of the history. -/
theorem placed_of_reaches
    (env : Environment)
    (placed : Placed tableId place schema db)
    (settled : KeptInPlace tableId place schema name db)
    (run : Reaches (pathStep env) (KeepsPlace tableId place schema) db next) :
    Placed tableId place schema next ∧ KeptInPlace tableId place schema name next := by
  refine run.invariant (fun db => Placed tableId place schema db ∧
    KeptInPlace tableId place schema name db) ⟨placed, settled⟩ ?_
  rintro db label next ⟨placed, settled⟩ permitted stepped
  cases label with
  | commit now prepared =>
      have success := toOption_eq_some.mp stepped
      exact ⟨placed.commit env now prepared success permitted.1 permitted.2.1,
        settled.commit env now prepared success permitted⟩
  | expire catalog filter =>
      have success := toOption_eq_some.mp stepped
      refine ⟨placed.expire catalog filter success, settled.imp id (Or.imp ?_ ?_)⟩
      · exact fun ⟨stored, live⟩ => ⟨stored, live.expire catalog filter success⟩
      · exact fun unchanged => unchanged.expire catalog filter success

end

/-! ## Locations -/

section

variable {U : Type} {urls : Urls U}

def locate (urls : Urls U) (base : Io.DucklakePath U) (schemaPath : Text) (schemaRelative : Bool)
    (tablePath : Text) (tableRelative : Bool) : DucklakeResult (Io.DucklakePath U) := do
  let schema ← Io.DucklakePath.new urls schemaPath schemaRelative
  let table ← Io.DucklakePath.new urls tablePath tableRelative
  tableDataPath urls base schema table

theorem display_new (path : Text) (isRelative : Bool) :
    (Ducklake.DucklakePath.new path isRelative).display = path := by
  cases isRelative <;> rfl

theorem isRelative_new (path : Text) (isRelative : Bool) :
    (Ducklake.DucklakePath.new path isRelative).isRelative = isRelative := by
  cases isRelative <;> rfl

theorem pathOrDefault_of_ne (path name : Text) (stored : path ≠ []) :
    pathOrDefault path name = path := by
  unfold pathOrDefault
  rw [if_neg (by simpa using stored)]

theorem locate_absolute
    (base location other : Io.DucklakePath U)
    (schemaPath schemaPath' tablePath : Text)
    (schemaRelative : Bool)
    (first : locate urls base schemaPath schemaRelative tablePath false = .ok location)
    (second : locate urls base schemaPath' schemaRelative tablePath false = .ok other) :
    location = other := by
  obtain ⟨schema, _, first⟩ := bind_eq_ok.mp first
  obtain ⟨table, read, first⟩ := bind_eq_ok.mp first
  obtain ⟨data, _, first⟩ := bind_eq_ok.mp first
  obtain ⟨schema', _, second⟩ := bind_eq_ok.mp second
  obtain ⟨table', read', second⟩ := bind_eq_ok.mp second
  obtain ⟨data', _, second⟩ := bind_eq_ok.mp second
  obtain rfl := Except.ok.inj (read.symm.trans read')
  obtain ⟨url, rfl⟩ : ∃ url, table = .absolute url := by
    unfold Io.DucklakePath.new at read
    rw [if_neg Bool.false_ne_true] at read
    split at read
    · obtain ⟨url, _, rfl⟩ := map_eq_ok.mp read
      exact ⟨url, rfl⟩
    · obtain ⟨url, _, rfl⟩ := map_eq_ok.mp read
      exact ⟨url, rfl⟩
  have joined : ∀ data : Io.DucklakePath U, data.join urls (.absolute url) = .ok (.absolute url) := by
    intro data
    cases data <;> rfl
  rw [joined] at first second
  exact (Except.ok.inj first).symm.trans (Except.ok.inj second)

variable {env : Environment} {base : Io.DucklakePath U} {db : Database} {tableId : Int}
variable {place : DucklakeTable} {schema : DucklakeSchema} {location : Io.DucklakePath U}

/-- The catalog of a snapshot fills in the name of the table that it sees. -/
theorem Placed.loadedAt
    (placed : Placed tableId place schema db)
    (snapshot : Int)
    (catalog : Catalog)
    (ref : TableRef)
    (loaded : Catalog.load env db snapshot = .ok catalog)
    (found : catalog.tableRefById tableId = .ok ref)
    (located : dataPath urls base catalog ref = .ok location) :
    ∃ row ∈ db.tables, row.entity.tableId = tableId ∧
      locate urls base (pathOrDefault schema.path schema.schemaName) schema.pathIsRelative
        (pathOrDefault place.path row.entity.tableName) place.pathIsRelative =
          .ok location := by
  obtain ⟨schemaRef, parent, located⟩ := bind_eq_ok.mp located
  obtain ⟨seen, tableSeen, owner, ownerSeen, shown, schemaSeen, own, refers, named, tablePath,
    schemaPath⟩ := Catalog.load_paths env db snapshot catalog loaded tableId ref found schemaRef parent
  have ownerIs : owner = schema := by
    refine placed.schemas.entitiesAt snapshot owner ownerSeen ?_
    rw [← refers, placed.tables.entitiesAt snapshot seen tableSeen own]
  subst ownerIs
  have shownIs : shown = owner := placed.named snapshot ownerSeen shown schemaSeen named
  subst shownIs
  have placeOf := placed.tables.entitiesAt snapshot seen tableSeen own
  obtain ⟨row, inside, rfl⟩ := List.mem_map.mp tableSeen
  refine ⟨row, List.mem_of_mem_filter inside, own, ?_⟩
  rw [schemaPath, tablePath, placeOf] at located
  unfold ofStored at located
  rw [display_new, isRelative_new, display_new, isRelative_new] at located
  exact located

theorem Placed.queried
    (placed : Placed tableId place schema db)
    (tableRow : Versioned DucklakeTable)
    (schemaRow : Versioned DucklakeSchema)
    (tableListed : tableRow ∈ db.tables)
    (schemaListed : schemaRow ∈ db.schemas)
    (own : tableRow.entity.tableId = tableId)
    (joined : schemaRow.entity.schemaId = tableRow.entity.schemaId)
    (located : queryTableDataPath urls base schemaRow.entity tableRow.entity = .ok location) :
    locate urls base schema.path schema.pathIsRelative place.path place.pathIsRelative =
      .ok location := by
  have placeOf := placed.tables tableRow tableListed own
  rw [placeOf] at joined
  have schemaOf := placed.schemas schemaRow schemaListed joined
  rw [placeOf, schemaOf] at located
  exact located

theorem eq_of_hasPaths
    (paths : HasPaths place schema)
    (first second : Io.DucklakePath U)
    (schemaPath schemaPath' : Text)
    (filled : schemaPath = schema.path ∨ schemaPath = pathOrDefault schema.path schema.schemaName)
    (filled' : schemaPath' = schema.path ∨
      schemaPath' = pathOrDefault schema.path schema.schemaName)
    (locatedFirst : locate urls base schemaPath schema.pathIsRelative place.path
      place.pathIsRelative = .ok first)
    (locatedSecond : locate urls base schemaPath' schema.pathIsRelative place.path
      place.pathIsRelative = .ok second) :
    first = second := by
  obtain stored | absolute := paths.2
  · have kept : pathOrDefault schema.path schema.schemaName = schema.path :=
      pathOrDefault_of_ne _ _ stored
    rw [kept, or_self] at filled filled'
    rw [filled] at locatedFirst
    rw [filled'] at locatedSecond
    exact Except.ok.inj (locatedFirst.symm.trans locatedSecond)
  · rw [absolute] at locatedFirst locatedSecond
    exact locate_absolute base first second _ _ _ _ locatedFirst locatedSecond

theorem Placed.location_of_hasPaths
    (placed : Placed tableId place schema db)
    (paths : HasPaths place schema)
    (located : Location urls env base db tableId location) :
    ∃ schemaPath, (schemaPath = schema.path ∨
        schemaPath = pathOrDefault schema.path schema.schemaName) ∧
      locate urls base schemaPath schema.pathIsRelative place.path place.pathIsRelative =
        .ok location := by
  have ofCatalog : ∀ snapshot catalog ref, Catalog.load env db snapshot = .ok catalog →
      catalog.tableRefById tableId = .ok ref → dataPath urls base catalog ref = .ok location →
        ∃ schemaPath, (schemaPath = schema.path ∨
            schemaPath = pathOrDefault schema.path schema.schemaName) ∧
          locate urls base schemaPath schema.pathIsRelative place.path place.pathIsRelative =
            .ok location := by
    intro snapshot catalog ref loaded found path
    obtain ⟨row, _, _, below⟩ := placed.loadedAt snapshot catalog ref loaded found path
    rw [pathOrDefault_of_ne place.path _ paths.1] at below
    exact ⟨_, Or.inr rfl, below⟩
  obtain ⟨snapshot, catalog, ref, loaded, found, path⟩ | ⟨latest, catalog, _, loaded, expires⟩ :=
    located
  · exact ofCatalog snapshot catalog ref loaded found path
  · unfold ExpiresAt at expires
    cases found : catalog.tableRefById tableId with
    | ok ref =>
        rw [found] at expires
        exact ofCatalog latest catalog ref loaded found expires
    | error err =>
        rw [found] at expires
        obtain ⟨table, tableListed, schemaRow, schemaListed, own, joined, path⟩ := expires
        exact ⟨schema.path, Or.inl rfl,
          placed.queried table schemaRow tableListed schemaListed own joined path⟩

/-- A table that the latest snapshot sees is looked for in its catalog, not among the rows. -/
theorem Live.loadedAt
    (live : Live tableId db)
    (located : Location urls env base db tableId location) :
    ∃ snapshot, LoadedAt urls env base db tableId snapshot location := by
  obtain shown | ⟨latest, catalog, newest, loaded, expires⟩ := located
  · exact shown
  · unfold ExpiresAt at expires
    cases found : catalog.tableRefById tableId with
    | ok ref =>
        rw [found] at expires
        exact ⟨latest, catalog, ref, loaded, found, expires⟩
    | error err =>
        rw [found] at expires
        obtain ⟨table, listed, _, _, own, _, _⟩ := expires
        obtain ⟨row, stored, ownRow, open_, snapshot, known, begun⟩ := live table listed own
        have last : snapshot.snapshotId ≤ latest :=
          (List.max?_eq_some_iff.mp newest).2 _ (List.mem_map_of_mem known)
        have seen : row.entity ∈ Versioned.entitiesAt latest db.tables := by
          refine List.mem_map_of_mem (List.mem_filter.mpr ⟨stored, ?_⟩)
          simp [Versioned.visibleAt, open_, begun.trans last]
        obtain ⟨ref, present⟩ := Catalog.load_finds env db latest catalog loaded _ seen
        rw [ownRow, found] at present
        cases present

/-- A table with a stored path has one location as long as it is live, whatever its name. -/
theorem Placed.location_of_live
    (placed : Placed tableId place schema db)
    (stored : place.path ≠ [])
    (live : Live tableId db)
    (located : Location urls env base db tableId location) :
    locate urls base (pathOrDefault schema.path schema.schemaName) schema.pathIsRelative place.path
      place.pathIsRelative = .ok location := by
  obtain ⟨snapshot, catalog, ref, loaded, found, path⟩ := live.loadedAt located
  obtain ⟨row, _, _, below⟩ := placed.loadedAt snapshot catalog ref loaded found path
  rwa [pathOrDefault_of_ne place.path _ stored] at below

theorem Placed.location_of_unchanged
    (placed : Placed tableId place schema db)
    (name : Text)
    (unchanged : Unchanged tableId name db)
    (located : Location urls env base db tableId location) :
    locate urls base (pathOrDefault schema.path schema.schemaName) schema.pathIsRelative
      (pathOrDefault place.path name) place.pathIsRelative = .ok location := by
  obtain ⟨snapshot, catalog, ref, loaded, found, path⟩ := unchanged.live.loadedAt located
  obtain ⟨row, listed, own, below⟩ := placed.loadedAt snapshot catalog ref loaded found path
  rwa [(unchanged row listed own).1] at below

theorem Placed.location_of_settled
    (placed : Placed tableId place schema db)
    (name : Text)
    (settled : KeptInPlace tableId place schema name db)
    (unstored : ¬ HasPaths place schema)
    (located : Location urls env base db tableId location) :
    locate urls base (pathOrDefault schema.path schema.schemaName) schema.pathIsRelative
      (pathOrDefault place.path name) place.pathIsRelative = .ok location := by
  obtain paths | ⟨stored, live⟩ | unchanged := settled
  · exact absurd paths unstored
  · rw [pathOrDefault_of_ne place.path name stored]
    exact placed.location_of_live stored live located
  · exact placed.location_of_unchanged name unchanged located

/-- A table keeps its location along renames, drops and expirations: scans and writes at every
snapshot and every expiration find its files there, if its paths are stored, or its own is and it is
never dropped, or it is never renamed or dropped. -/
theorem location_unique
    (urls : Urls U)
    (env : Environment)
    (base : Io.DucklakePath U)
    (tableId : Int)
    (place : DucklakeTable)
    (schema : DucklakeSchema)
    (name : Text)
    (start earlier later : Database)
    (placed : Placed tableId place schema start)
    (settled : KeptInPlace tableId place schema name start)
    (first : Reaches (pathStep env) (KeepsPlace tableId place schema) start earlier)
    (second : Reaches (pathStep env) (KeepsPlace tableId place schema) earlier later)
    (written found : Io.DucklakePath U)
    (writtenAt : Location urls env base earlier tableId written)
    (foundAt : Location urls env base later tableId found) :
    written = found := by
  obtain ⟨placedEarlier, settledEarlier⟩ := placed_of_reaches env placed settled first
  obtain ⟨placedLater, settledLater⟩ := placed_of_reaches env placedEarlier settledEarlier second
  by_cases paths : HasPaths place schema
  · obtain ⟨_, filled, locatedWritten⟩ := placedEarlier.location_of_hasPaths paths writtenAt
    obtain ⟨_, filled', locatedFound⟩ := placedLater.location_of_hasPaths paths foundAt
    exact eq_of_hasPaths paths written found _ _ filled filled' locatedWritten locatedFound
  · have locatedWritten := placedEarlier.location_of_settled name settledEarlier paths writtenAt
    have locatedFound := placedLater.location_of_settled name settledLater paths foundAt
    exact Except.ok.inj (locatedWritten.symm.trans locatedFound)

end

/-! ## A renamed table -/

/-- A catalog with one table, whose path is empty after an upgrade. -/
def storedTable (path : Text) : Database :=
  { initCatalog 0 with tables := [.new 0 {
      tableId := 1
      schemaId := 0
      tableName := "t".toList
      path := path
      pathIsRelative := true }] }

def changing (snapshot : Int) (changes : TransactionChanges) : PathLabel :=
  .commit 0 {
    changes := changes
    state := .new ⟨snapshot, 0, 2, 0⟩ .new true .empty
    appliedChanges := .new []
    tableIdsWithSchemaChanges := [] }

def renames : PathLabel :=
  changing 0 { TransactionChanges.empty with
    renamedTables := .ofList [(1, "u".toList)] }

def drops : PathLabel :=
  changing 1 { TransactionChanges.empty with droppedTables := [1] }

def loadedDataPath (db : Database) (snapshot : Int) :
    DucklakeResult (Io.DucklakePath { url : UrlParts // url.WellFormed }) := do
  let catalog ← Catalog.load .plain db snapshot
  let ref ← catalog.tableRefById 1
  dataPath Urls.plain (.absolute dataUrl) catalog ref

theorem loadedAt_of_loadedDataPath
    (db : Database)
    (snapshot : Int)
    (location : Io.DucklakePath { url : UrlParts // url.WellFormed })
    (found : loadedDataPath db snapshot = .ok location) :
    LoadedAt Urls.plain .plain (.absolute dataUrl) db 1 snapshot location := by
  obtain ⟨catalog, loaded, found⟩ := bind_eq_ok.mp found
  obtain ⟨ref, present, located⟩ := bind_eq_ok.mp found
  exact ⟨catalog, ref, loaded, present, located⟩

theorem placed_storedTable (path : Text) :
    Placed 1 ⟨1, 0, "t".toList, path, true⟩ ⟨0, "main".toList, "main/".toList, true⟩
      (storedTable path) where
  tables row member _ := by
    obtain rfl := List.mem_singleton.mp member
    rfl
  schemas row member _ := by
    obtain rfl := List.mem_singleton.mp member
    rfl
  named snapshot _ other seen _ := by
    obtain ⟨row, inside, rfl⟩ := List.mem_map.mp seen
    obtain rfl := List.mem_singleton.mp (List.mem_of_mem_filter inside)
    rfl

theorem location_unique_renamed :
    ∃ later, [renames, drops, .expire .new (.versions [0])].foldlM (pathStep .plain)
        (storedTable "t/".toList) = some later ∧
      Location Urls.plain .plain (.absolute dataUrl) (storedTable "t/".toList) 1
        (.absolute (bucketUrl "/data/main/t/".toList (by decide))) ∧
      ∀ found, Location Urls.plain .plain (.absolute dataUrl) later 1 found →
        .absolute (bucketUrl "/data/main/t/".toList (by decide)) = found := by
  obtain ⟨later, taken⟩ : ∃ later, [renames, drops, .expire .new (.versions [0])].foldlM
      (pathStep .plain) (storedTable "t/".toList) = some later :=
    Option.isSome_iff_exists.mp (by decide +kernel)
  have written : Location Urls.plain .plain (.absolute dataUrl) (storedTable "t/".toList) 1
      (.absolute (bucketUrl "/data/main/t/".toList (by decide))) :=
    Or.inl ⟨0, loadedAt_of_loadedDataPath _ 0 _ (by decide +kernel)⟩
  have paths : HasPaths ⟨1, 0, "t".toList, "t/".toList, true⟩
      ⟨0, "main".toList, "main/".toList, true⟩ := ⟨by decide, Or.inl (by decide)⟩
  refine ⟨later, taken, written, fun found foundAt => ?_⟩
  refine location_unique Urls.plain .plain (.absolute dataUrl) 1 _ _ [] _ _ later
    (placed_storedTable "t/".toList) (Or.inl paths) .refl
    (.of_foldlM _ (fun state label member => ?_) taken) _ found written foundAt
  simp only [List.mem_cons, List.not_mem_nil, or_false] at member
  obtain rfl | rfl | rfl := member
  · exact ⟨rfl, rfl, Or.inl paths⟩
  · exact ⟨rfl, rfl, Or.inl paths⟩
  · exact trivial

/-- A renamed table with an empty path is looked for under each of its names, and below the schema
once it is dropped. -/
theorem location_moves :
    ∃ dropped, [renames, drops].foldlM (pathStep .plain) (storedTable []) = some dropped ∧
      Location Urls.plain .plain (.absolute dataUrl) dropped 1
        (.absolute (bucketUrl "/data/main/t/".toList (by decide))) ∧
      Location Urls.plain .plain (.absolute dataUrl) dropped 1
        (.absolute (bucketUrl "/data/main/u/".toList (by decide))) ∧
      Location Urls.plain .plain (.absolute dataUrl) dropped 1
        (.absolute (bucketUrl "/data/main/".toList (by decide))) := by
  obtain ⟨dropped, taken⟩ : ∃ dropped,
      [renames, drops].foldlM (pathStep .plain) (storedTable []) = some dropped :=
    Option.isSome_iff_exists.mp (by decide +kernel)
  have reads : ∀ {α : Type} (read : Database → α) (value : α),
      ([renames, drops].foldlM (pathStep .plain) (storedTable [])).map read = some value →
        read dropped = value := by
    intro α read value known
    rw [taken] at known
    exact Option.some.inj known
  have first := reads (loadedDataPath · 0)
    (.ok (.absolute (bucketUrl "/data/main/t/".toList (by decide)))) (by decide +kernel)
  have second := reads (loadedDataPath · 1)
    (.ok (.absolute (bucketUrl "/data/main/u/".toList (by decide)))) (by decide +kernel)
  have newest := reads latestId (some 2) (by decide +kernel)
  have missing := reads (fun db => (Catalog.load .plain db 2).map fun catalog =>
    (catalog.tableRefById 1).isOk) (.ok false) (by decide +kernel)
  have tableFirst := reads (·.tables.head?)
    (some ⟨0, some 1, ⟨1, 0, "t".toList, [], true⟩⟩) (by decide +kernel)
  have schemaFirst := reads (·.schemas.head?)
    (some (.new 0 ⟨0, "main".toList, "main/".toList, true⟩)) (by decide +kernel)
  obtain ⟨catalog, loaded, absent⟩ := map_eq_ok.mp missing
  refine ⟨dropped, taken, Or.inl ⟨0, loadedAt_of_loadedDataPath _ 0 _ first⟩,
    Or.inl ⟨1, loadedAt_of_loadedDataPath _ 1 _ second⟩, Or.inr ⟨2, catalog, newest, loaded, ?_⟩⟩
  unfold ExpiresAt
  cases found : catalog.tableRefById 1 with
  | ok ref =>
      rw [found] at absent
      cases absent
  | error err =>
      exact ⟨_, List.mem_of_head? tableFirst, _, List.mem_of_head? schemaFirst, rfl, rfl,
        by decide +kernel⟩

end Ducklake.Maintenance
