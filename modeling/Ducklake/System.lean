import Ducklake.Lib.Runs
import Ducklake.Maintenance.ExpireSnapshots
import Ducklake.Transaction.Commit
import Ducklake.Transaction.Operations

/-!
# Interleaved transactions

Any number of transactions and runs of `expire_snapshots` against one metadata database.  A step
is a piece of `begin`, `commit` or an operation that nothing else can interrupt: a query, a
database transaction, or work on the transaction's own data.

The caches of catalogs and statistics are shared within a process and forget what is not in use.
Whether a read is served from a cache is not known here: every value that was ever read is kept,
and a read picks one of them with the right key or goes to the database.
-/

set_option autoImplicit false

namespace Ducklake

open Lib Caches Spec Maintenance Transaction

/-! ## States -/

/-- How far a transaction has come.  `attempt` counts the failed attempts to commit. -/
inductive Phase where
  /-- The latest snapshot was read, the catalog was not. -/
  | starting
  | active (tx : Ducklake.Transaction)
  | attempting (tx : Ducklake.Transaction) (attempt : Nat) (base : SnapshotInfo)
  | prepared (tx : Ducklake.Transaction) (attempt : Nat) (base : SnapshotInfo)
      (prepared : PreparedCommit)
  /-- The database refused the rows with an error that allows another attempt. -/
  | failed (tx : Ducklake.Transaction) (attempt : Nat) (prepared : PreparedCommit)
  | checking (tx : Ducklake.Transaction) (attempt : Nat) (prepared : PreparedCommit)
      (latest : SnapshotInfo)
  /-- The id of the created snapshot, if the transaction had any change. -/
  | finished (result : DucklakeResult (Option Int))

structure Party where
  /-- The snapshot at which the transaction was started. -/
  start : SnapshotInfo
  phase : Phase
  /-- The rows that the transaction's changes were checked against without a conflict. -/
  checked : List DucklakeSnapshotChanges

/-- A commit that returned `Ok` with a snapshot. -/
structure Commit where
  party : Nat
  start : SnapshotInfo
  tx : Ducklake.Transaction
  base : SnapshotInfo
  prepared : PreparedCommit
  checked : List DucklakeSnapshotChanges
  before : Database
  after : Database

structure System where
  db : Database
  /-- Every snapshot ever committed, the oldest first. -/
  known : List SnapshotInfo
  parties : List Party
  /-- Every catalog ever read, with its schema version. -/
  catalogs : List (Int × Catalog)
  /-- All statistics ever read, with their schema version and next file id. -/
  statistics : List ((Int × Int) × TableStatsMap)
  history : List Commit

def Phase.isFinished : Phase → Bool
  | finished _ => true
  | _ => false

namespace Commit

def snapshotId (commit : Commit) : Int :=
  commit.prepared.state.snapshotId

/-- The row that the commit wrote for the conflict checks of others. -/
def changesRow (commit : Commit) : DucklakeSnapshotChanges where
  snapshotId := commit.snapshotId
  changesMade := commit.prepared.appliedChanges.display

end Commit

namespace System

/-- A database right after `init_catalog`. -/
def init (now : Int) : System where
  db := initCatalog now
  known := [{ id := 0, schemaVersion := 0, nextCatalogId := 1, nextFileId := 0 }]
  parties := []
  catalogs := []
  statistics := []
  history := []

/-! ## Reads through the caches -/

inductive Source where
  | cached (index : Nat)
  | load (snapshot : SnapshotInfo)

/-- The catalog of a snapshot.  A load uses the snapshot for which the cache entry was made. -/
def catalogAt (env : Environment) (sys : System) (info : SnapshotInfo) :
    Source → Option (DucklakeResult Catalog)
  | .cached index =>
      match sys.catalogs[index]? with
      | some (version, catalog) =>
          if version = info.schemaVersion then some (.ok catalog) else none
      | none => none
  | .load snapshot =>
      if snapshot ∈ sys.known ∧ snapshot.schemaVersion = info.schemaVersion then
        some (Catalog.load env sys.db snapshot.id)
      else none

def statsAt (env : Environment) (sys : System) (info : SnapshotInfo) (catalog : Catalog) :
    Source → Option (DucklakeResult TableStatsMap)
  | .cached index =>
      match sys.statistics[index]? with
      | some (key, stats) =>
          if key = (info.schemaVersion, info.nextFileId) then some (.ok stats) else none
      | none => none
  | .load snapshot =>
      if snapshot ∈ sys.known ∧ snapshot.schemaVersion = info.schemaVersion ∧
          snapshot.nextFileId = info.nextFileId then
        some (Caches.load env catalog sys.db snapshot.id)
      else none

def rememberCatalog (sys : System) (info : SnapshotInfo) (catalog : Catalog) : System :=
  { sys with catalogs := sys.catalogs ++ [(info.schemaVersion, catalog)] }

def rememberStats (sys : System) (info : SnapshotInfo) (stats : DucklakeResult TableStatsMap) :
    System :=
  match stats with
  | .ok stats => { sys with
      statistics := sys.statistics ++ [((info.schemaVersion, info.nextFileId), stats)] }
  | .error _ => sys

/-! ## Steps -/

def setParty (sys : System) (index : Nat) (party : Party) : System :=
  { sys with parties := sys.parties.set index party }

def setPhase (sys : System) (index : Nat) (party : Party) (phase : Phase) : System :=
  sys.setParty index { party with phase := phase }

/-- The first part of `begin`. -/
def begin (sys : System) : System :=
  match latestSnapshot sys.db with
  | .ok info => { sys with
      parties := sys.parties ++ [{ start := info, phase := .starting, checked := [] }] }
  | .error _ => sys

/-- The second part of `begin`. -/
def loadCatalog (env : Environment) (sys : System) (index : Nat) (party : Party)
    (source : Source) : Option System :=
  match party.phase with
  | .starting =>
      (sys.catalogAt env party.start source).map fun result =>
        match result with
        | .ok catalog => (sys.rememberCatalog party.start catalog).setPhase index party
            (.active (.new party.start catalog))
        | .error err => sys.setPhase index party (.finished (.error err))
  | _ => none

def operate (env : Environment) (sys : System) (index : Nat) (party : Party)
    (operation : Operation) (source : Source) : Option System :=
  match party.phase with
  | .active tx =>
      (sys.statsAt env party.start tx.startCatalog source).map fun stats =>
        (sys.rememberStats party.start stats).setPhase index party (.active
          (match operation.execute env sys.db stats tx with
          | .ok tx => tx
          | .error _ => operation.afterError sys.db tx))
  | _ => none

/-- Enter `commit`. -/
def submit (sys : System) (index : Nat) (party : Party) : Option System :=
  match party.phase with
  | .active tx =>
      if (ChangeSet.new tx.changes).isEmpty then
        some (sys.setPhase index party (.finished (.ok none)))
      else some (sys.setPhase index party (.attempting tx 0 party.start))
  | _ => none

def prepareWith (env : Environment) (sys : System) (index : Nat) (party : Party)
    (tx : Ducklake.Transaction) (attempt : Nat) (base : SnapshotInfo) (stats : TableStatsMap) :
    System :=
  let set := ChangeSet.new tx.changes
  match prepareCommit env set (.new base tx.catalog set.changesSchema stats) with
  | .ok prepared => sys.setPhase index party (.prepared tx attempt base prepared)
  | .error err => sys.setPhase index party (.finished (.error err))

def prepare (env : Environment) (sys : System) (index : Nat) (party : Party)
    (catalogSource statsSource : Source) : Option System :=
  match party.phase with
  | .attempting tx attempt base =>
      if (ChangeSet.new tx.changes).requiresTableStats then
        match sys.catalogAt env base catalogSource with
        | none => none
        | some (.error err) => some (sys.setPhase index party (.finished (.error err)))
        | some (.ok catalog) =>
            let sys := sys.rememberCatalog base catalog
            match sys.statsAt env base catalog statsSource with
            | none => none
            | some (.error err) => some (sys.setPhase index party (.finished (.error err)))
            | some (.ok stats) =>
                some ((sys.rememberStats base (.ok stats)).prepareWith env index party tx attempt
                  base stats)
      else some (sys.prepareWith env index party tx attempt base .empty)
  | _ => none

def recordCommit (sys : System) (commit : Commit) (now : Int) : System :=
  { sys with
    db := commit.after
    known := sys.known ++ [.ofSnapshot (commit.prepared.state.snapshot now)]
    history := sys.history ++ [commit] }

def persist (env : Environment) (sys : System) (index : Nat) (party : Party) (now : Int) :
    Option System :=
  match party.phase with
  | .prepared tx attempt base prepared =>
      match persistCommit env now prepared sys.db with
      | .ok db => some ((sys.recordCommit {
          party := index
          start := party.start
          tx := tx
          base := base
          prepared := prepared
          checked := party.checked
          before := sys.db
          after := db } now).setPhase index party
            (.finished (.ok (some prepared.state.snapshotId))))
      | .error err =>
          if isRetryable (attempt = maxRetryCount) err then
            some (sys.setPhase index party (.failed tx attempt prepared))
          else some (sys.setPhase index party (.finished (.error err)))
  | _ => none

def refresh (sys : System) (index : Nat) (party : Party) : Option System :=
  match party.phase with
  | .failed tx attempt prepared =>
      match latestSnapshot sys.db with
      | .ok latest => some (sys.setPhase index party (.checking tx attempt prepared latest))
      | .error err => some (sys.setPhase index party (.finished (.error err)))
  | _ => none

/-- Read the changes since the start and look for conflicts. -/
def check (sys : System) (index : Nat) (party : Party) : Option System :=
  match party.phase with
  | .checking tx attempt prepared latest =>
      let applied := ((ChangeSet.new tx.changes).appliedChangeSet prepared.state).1
      match getSnapshotChanges sys.db party.start.id latest.id >>=
          checkInterimChanges tx.catalog applied with
      | .error err => some (sys.setPhase index party (.finished (.error err)))
      | .ok () =>
          let party := { party with
            checked := party.checked ++ snapshotChangesBetween sys.db party.start.id latest.id }
          if attempt < maxRetryCount then
            some (sys.setPhase index party (.attempting tx (attempt + 1) latest))
          else some (sys.setPhase index party (.finished (.error .retriesExceeded)))
  | _ => none

/-- `expire_snapshots` with a catalog that was read at any time before. -/
def expire (env : Environment) (sys : System) (filter : SnapshotFilter) (info : SnapshotInfo)
    (source : Source) : Option System :=
  match sys.catalogAt env info source with
  | none => none
  | some (.error _) => some sys
  | some (.ok catalog) =>
      let sys := sys.rememberCatalog info catalog
      match expireSnapshots catalog filter sys.db with
      | .ok db => some { sys with db := db }
      | .error _ => some sys

inductive Move where
  | loadCatalog (source : Source)
  | operate (operation : Operation) (source : Source)
  | submit
  | prepare (catalogSource statsSource : Source)
  | persist (now : Int)
  | refresh
  | check
  /-- The transaction is dropped. -/
  | abandon

inductive Label where
  | begin
  | move (index : Nat) (move : Move)
  | expire (filter : SnapshotFilter) (info : SnapshotInfo) (source : Source)

def Label.isExpiration : Label → Bool
  | .expire .. => true
  | _ => false

def moveParty (env : Environment) (sys : System) (index : Nat) (party : Party) :
    Move → Option System
  | .loadCatalog source => sys.loadCatalog env index party source
  | .operate operation source => sys.operate env index party operation source
  | .submit => sys.submit index party
  | .prepare catalogSource statsSource => sys.prepare env index party catalogSource statsSource
  | .persist now => sys.persist env index party now
  | .refresh => sys.refresh index party
  | .check => sys.check index party
  | .abandon =>
      if party.phase.isFinished then none
      else some (sys.setPhase index party (.finished (.ok none)))

def step (env : Environment) (sys : System) : Label → Option System
  | .begin => some sys.begin
  | .move index move => sys.parties[index]?.bind fun party => sys.moveParty env index party move
  | .expire filter info source => sys.expire env filter info source

abbrev Reachable (env : Environment) (allowed : System → Label → Prop) (now : Int)
    (sys : System) : Prop :=
  Reaches (step env) allowed (init now) sys

def WithoutExpiration (_ : System) (label : Label) : Prop :=
  label.isExpiration = false

/-! ## Pieces of runs -/

def working (index : Nat) (info : SnapshotInfo) (operations : List Operation) : List Label :=
  .move index (.loadCatalog (.load info)) ::
    operations.map fun operation => .move index (.operate operation (.load info))

def attempt (index : Nat) (info : SnapshotInfo) : List Label :=
  [.move index (.prepare (.load info) (.load info)), .move index (.persist 0)]

def retrying (index : Nat) : List Label :=
  [.move index .refresh, .move index .check]

def committing (index : Nat) (info : SnapshotInfo) : List Label :=
  .move index .submit :: attempt index info

end System

end Ducklake
