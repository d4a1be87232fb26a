import Ducklake.Interleaving.ColumnNumbers
import Ducklake.Transaction.LiveVersions
import Ducklake.Transaction.Separate

/-!
# The tables of a run

No snapshot sees two rows of one table, so the tables of a transaction have different ids.
-/

set_option autoImplicit false

namespace Ducklake

open Lib Caches Spec Maintenance Transaction

namespace System

theorem reachable_createdFirst
    (env : Environment)
    (allowed : System → Label → Prop)
    (now : Int)
    (sys : System)
    (run : Reachable env allowed now sys) :
    sys.Transactions Ducklake.Transaction.CreatedFirst := by
  refine reachable_edited env allowed now sys (fun _ _ _ => List.Pairwise.nil) ?_ run
  intro db stats method tx changes catalog sound first edit
  refine List.pairwise_append.mpr ⟨first, createdFirst_of_edit edit, ?_⟩
  intro earlier member later new key made object
  exact (edit.recorded sound.catalog later new).absent key made
    ((sound.recorded earlier member).present key object)

section

variable {env : Environment} {sys : System} {latest : SnapshotInfo} {commit : Commit} {time : Int}

theorem Committing.attempted
    (counted : sys.Counted latest)
    (committing : Committing env sys latest commit time)
    (first : commit.tx.CreatedFirst) :
    ∃ start : CommitState, start.catalog = commit.tx.catalog ∧
      start.nextCatalogId = latest.nextCatalogId ∧
      Attempted start commit.prepared.state (ChangeSet.new commit.tx.changes).changes := by
  obtain ⟨stats, success⟩ := committing.sound.prepared
  have sound := committing.sound.tx
  refine ⟨.new commit.base commit.tx.catalog (ChangeSet.new commit.tx.changes).changesSchema stats,
    rfl, congrArg SnapshotInfo.nextCatalogId committing.base, ?_⟩
  constructor
  case extends_ => exact prepareCommit_extends env _ _ _ success
  case bounded =>
    have bounded := counted.idOf_lt commit.tx sound committing.starts
    rw [← committing.base] at bounded
    exact bounded
  case unresolved =>
    exact fun change member key made =>
      sound.idOf_created change (ChangeSet.mem_of_mem_new _ change member) key made
  case resolved => exact prepareCommit_resolves _ _ _ sound.present success
  case order =>
    exact first.sublist ((deduplicate_sublist_keepLast _).trans (keepLast_sublist _))

theorem Committing.keepsUnique
    {κ : Type}
    [DecidableEq κ]
    {live : List κ}
    (committing : Committing env sys latest commit time)
    (fits : ∀ change ∈ commit.tx.changes, change.Fits)
    (kind : Renewals → Renewal κ)
    (nothing : kind .nothing = .nothing)
    (andThen : ∀ earlier later : Renewals,
      kind (earlier.andThen later) = (kind earlier).andThen (kind later))
    (separate : Renewal.Separate live ((ChangeSet.new commit.tx.changes).changes.map fun change =>
      kind (change.renewals commit.prepared.state))) :
    Renewal.KeepsUnique live (kind commit.prepared.changes.renewals) := by
  obtain ⟨stats, success⟩ := committing.sound.prepared
  rw [prepareCommit_renewals env _ _ _ committing.sound.tx.present
    (fun change member => fits change (ChangeSet.mem_of_mem_new _ change member)) success,
    foldl_andThen_kind kind andThen, nothing, List.map_map]
  exact separate.keepsUnique

end

/-! ## Runs -/

/-- The rule for stored rows: every commit of the run keeps what holds of them. -/
theorem reachable_stored
    (env : Environment)
    (allowed : System → Label → Prop)
    (now : Int)
    (sys : System)
    (holds : Database → Prop)
    (transactional : ∀ sys label, allowed sys label → WithoutExpiration sys label)
    (initial : holds (init now).db)
    (committed : ∀ (sys next : System) latest commit time, Reachable env allowed now sys →
      Reachable env allowed now next → commit ∈ next.history → next.db = commit.after →
        holds sys.db → sys.Counted latest → Committing env sys latest commit time →
          holds commit.after)
    (run : Reachable env allowed now sys) :
    holds sys.db := by
  refine run.invariant_of_reached (fun sys => holds sys.db) initial ?_
  intro sys label next run held permitted stepped
  cases stepCommits_of_reachable env now sys next label (run.mono transactional)
      (transactional _ _ permitted) stepped with
  | nothing db => rwa [db]
  | @one latest commit time counted committing db known history =>
      rw [db]
      refine committed sys next latest commit time run (run.tail permitted stepped) ?_ db held counted
        committing
      rw [history]
      exact List.mem_append_right _ (List.mem_singleton_self _)

theorem reachable_tablesDisjoint
    (env : Environment)
    (now : Int)
    (sys : System)
    (run : Reachable env WithoutExpiration now sys) :
    Versioned.DisjointBy DucklakeTable.tableId sys.db.tables := by
  refine reachable_stored env _ now sys (fun db => Versioned.DisjointBy DucklakeTable.tableId
    db.tables) (fun _ _ permitted => permitted) .nil ?_ run
  intro sys next latest commit time _ reached member _ disjoint counted committing
  have first := (reachable_createdFirst env _ now next reached).commits commit member
  have fits := (reachable_fits env now next reached).commits commit member
  obtain ⟨start, catalog, next, attempted⟩ := committing.attempted counted first
  have below : ∀ id ∈ Versioned.liveKeys DucklakeTable.tableId sys.db.tables,
      id < start.nextCatalogId := by
    intro id live
    obtain ⟨row, stored, _, rfl⟩ := (Versioned.mem_liveKeys id).mp live
    rw [next]
    exact counted.idsBelow.tables row stored
  have keeps := committing.keepsUnique fits Renewals.tables rfl (fun _ _ => rfl) <|
    attempted.separate (fun change => (change.renewals commit.prepared.state).tables)
      (fun change _ => owned_renewals_tables commit.prepared.state change) below
  have rows := committing.rows counted
  have older : latest.id < commit.prepared.state.snapshotId :=
    counted.start_lt committing latest counted.newest
  have updates := persistCommit_catalogUpdates env time _ _ _ rows.fresh committing.persisted
  refine disjoint.updates counted.until_.tables older updates.tables ?_
  rw [persistCommit_same env time _ _ _ committing.persisted]
  exact written_liveTables env _ _ _ latest.id disjoint.nodup_liveKeys counted.until_.tables older
    keeps

def TablesApart (tx : Ducklake.Transaction) : Prop :=
  ∀ ref other id, tx.catalog.idOf (.table ref) = some id →
    tx.catalog.idOf (.table other) = some id → ref = other

theorem tablesApart_new
    (env : Environment)
    (info : SnapshotInfo)
    (db : Database)
    (catalog : Catalog)
    (disjoint : Versioned.DisjointBy DucklakeTable.tableId db.tables)
    (success : Catalog.load env db info.id = .ok catalog) :
    TablesApart (.new info catalog) := by
  have tables := Catalog.load_tables env db info.id catalog success
  have unique := disjoint.nodup_entitiesAt info.id
  -- A table stands where its row stands.
  have place : ∀ (ref : TableRef) id, catalog.idOf (.table ref) = some id →
      ((Versioned.entitiesAt info.id db.tables).map DucklakeTable.tableId)[ref.idx]? = some id := by
    intro ref id found
    have present : ref.idx < catalog.tableArena.arena.length := by
      by_contra absent
      rw [Catalog.idOf_of_absent catalog (.table ref) absent] at found
      cases found
    have bound : ref.idx < (Versioned.entitiesAt info.id db.tables).length :=
      tables.length_eq ▸ present
    have own := (tables.get bound present).id
    have same : catalog.table ref = catalog.tableArena.arena[ref.idx] := by
      simp [Catalog.table, Arena.get, List.getD_eq_getElem?_getD, List.getElem?_eq_getElem present]
    change (catalog.table ref).id = some id at found
    rw [same] at found
    rw [List.getElem?_map, List.getElem?_eq_getElem bound]
    exact own.symm.trans found
  intro ref other id found foundOther
  have first := place ref id found
  have second := place other id foundOther
  have bound := (List.getElem?_eq_some_iff.mp first).1
  have same := (List.getElem?_inj bound unique).mp (first.trans second.symm)
  cases ref
  cases other
  exact congrArg TableRef.mk same

theorem reachable_tablesApart
    (env : Environment)
    (now : Int)
    (sys : System)
    (run : Reachable env WithoutExpiration now sys) :
    sys.Transactions TablesApart := by
  have grounded : sys.Transactions (sys.Grounded fun _ => TablesApart) := by
    refine reachable_grounded env _ now sys _ (fun _ _ permitted => permitted) ?_ ?_ ?_ run
    · intro sys run info _ catalog _ loaded
      exact tablesApart_new env info sys.db catalog (reachable_tablesDisjoint env now sys run) loaded
    · intro sys index operation source stats _ _ tx changes catalog grounded edit ref other id
      have same : ∀ ref, catalog.idOf (.table ref) = tx.catalog.idOf (.table ref) :=
        fun ref => edit.grows.idOf _ rfl
      rw [same, same]
      exact grounded.holds ref other id
    · exact fun sys latest commit time _ _ _ tx grounded => grounded.holds
  exact grounded.mono fun tx grounded => grounded.holds

end System

end Ducklake
