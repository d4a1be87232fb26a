import Ducklake.Interleaving.LiveTables
import Ducklake.Transaction.InlineStatements

/-!
# Inline writes of a run

When the database can execute the statements for the inline data of a transaction, on the snapshot
that no other commit has left behind.
-/

set_option autoImplicit false

namespace Ducklake

open Lib Caches Spec Maintenance Transaction

namespace System

section

variable {env : Environment} {sys : System} {latest : SnapshotInfo}

theorem Counted.latestSnapshot
    (counted : sys.Counted latest)
    (info : SnapshotInfo)
    (read : latestSnapshot sys.db = .ok info) :
    info = latest := by
  obtain ⟨⟨row, inside, rfl⟩, bounded⟩ := latestSnapshot_eq_ok sys.db info read
  have known : SnapshotInfo.ofSnapshot row ∈ sys.known := by
    rw [← counted.snapshots]
    exact List.mem_map_of_mem inside
  have newest := counted.newest
  rw [← counted.snapshots] at newest
  obtain ⟨last, stored, rfl⟩ := List.mem_map.mp newest
  rcases counted.older _ known with same | ⟨below, _⟩
  · exact same
  · have above := bounded last stored
    change row.snapshotId < last.snapshotId at below
    change last.snapshotId ≤ row.snapshotId at above
    omega

theorem Counted.attempted
    (counted : sys.Counted latest)
    (tx : Ducklake.Transaction)
    (sound : tx.Sound)
    (starts : sys.StartsFrom tx)
    (first : tx.CreatedFirst)
    (stats : TableStatsMap)
    (prepared : PreparedCommit)
    (success : prepareCommit env (ChangeSet.new tx.changes)
      (.new latest tx.catalog (ChangeSet.new tx.changes).changesSchema stats) = .ok prepared) :
    Attempted (.new latest tx.catalog (ChangeSet.new tx.changes).changesSchema stats)
      prepared.state (ChangeSet.new tx.changes).changes where
  extends_ := prepareCommit_extends env _ _ _ success
  bounded := counted.idOf_lt tx sound starts
  unresolved change member key made :=
    sound.idOf_created change (ChangeSet.mem_of_mem_new _ change member) key made
  resolved := prepareCommit_resolves _ _ _ sound.present success
  order := first.sublist ((deduplicate_sublist_keepLast _).trans (keepLast_sublist _))

end

/-- Without a concurrent commit, the statements of a prepared transaction can be executed if and
only if the names and the batches that its operations accepted fit. -/
theorem inlineStatements_executable_iff
    (env : Environment)
    (naming : Naming)
    (now : Int)
    (sys : System)
    (run : Reachable env WithoutExpiration now sys)
    (party : Party)
    (member : party ∈ sys.parties)
    (tx : Ducklake.Transaction)
    (attempt : Nat)
    (base : SnapshotInfo)
    (prepared : PreparedCommit)
    (phase : party.phase = .prepared tx attempt base prepared)
    (alone : latestSnapshot sys.db = .ok base) :
    (inlineStatements env.dialect prepared.changes).Executable env.dialect naming ↔
      InlinesFit env.dialect naming tx.catalog (ChangeSet.new tx.changes) := by
  have working : party.phase.transaction = some tx := by rw [phase]; rfl
  obtain ⟨latest, counted⟩ := reachable_counted env now sys run
  obtain rfl := counted.latestSnapshot base alone
  have partySound := (reachable_sound env _ now sys run).parties party member
  unfold Party.Sound at partySound
  rw [phase] at partySound
  obtain ⟨submitted, stats, success⟩ := partySound
  have first := (reachable_createdFirst env _ now sys run).parties party member tx working
  have tables := (reachable_tablesApart env now sys run).parties party member tx working
  have attempted := counted.attempted tx submitted.sound
    (counted.transactions.parties party member tx working) first stats prepared success
  refine prepareCommit_executable_iff env _ _ prepared naming submitted.sound.present success ?_
  intro ref changed other changedOther id found foundOther
  obtain ⟨change, inside, changes⟩ := (mem_tableRefsWithSchemaChanges _ ref).mp changed
  obtain ⟨later, insideLater, changesLater⟩ := (mem_tableRefsWithSchemaChanges _ other).mp changedOther
  refine attempted.table_injective tables change later inside insideLater ref other
    (change.mem_objects_of_schemaChange ref changes)
    (later.mem_objects_of_schemaChange other changesLater) ?_
  rw [CommitState.knownId_of_some _ _ id found, CommitState.knownId_of_some _ _ id foundOther]

/-! ## Transactions on a new table -/

def inlinedTable : QualifiedName := ⟨"main".toList, "t".toList⟩

/-- Create a table with one column and write a batch of nulls to it, up to the database
transaction. -/
def writingInline (column : Text) (numRows : Nat) : List Label :=
  .begin :: working 0 ⟨0, 0, 1, 0⟩ [
    .createTable inlinedTable [.mk column (.primitive .int32) true default none (.literal none) none]
      none none none none .fail,
    .writeTableInlineData inlinedTable
      [⟨numRows, [(column, .leaf .int32 (List.replicate numRows none))]⟩]] ++
  [.move 0 .submit, .move 0 (.prepare (.load ⟨0, 0, 1, 0⟩) (.load ⟨0, 0, 1, 0⟩))]

theorem writingInline_permitted
    (column : Text)
    (numRows : Nat) :
    ∀ label ∈ writingInline column numRows, label.isExpiration = false := by
  simp [writingInline, working, Label.isExpiration]

/-- The number of changes that the first party queued, the snapshot that it builds on and the
statements that it is going to execute. -/
def firstStatements (dialect : Dialect) (sys : System) :
    Option (Nat × SnapshotInfo × InlineStatements) :=
  match sys.parties.map Party.phase with
  | .prepared tx _ base attempted :: _ =>
      some (tx.changes.length, base, inlineStatements dialect attempted.changes)
  | _ => none

theorem firstStatements_eq_some
    (dialect : Dialect)
    (sys : System)
    (queued : Nat)
    (base : SnapshotInfo)
    (statements : InlineStatements)
    (found : sys.firstStatements dialect = some (queued, base, statements)) :
    ∃ party ∈ sys.parties, ∃ tx attempt prepared,
      party.phase = .prepared tx attempt base prepared ∧ tx.changes.length = queued ∧
      inlineStatements dialect prepared.changes = statements := by
  unfold firstStatements at found
  split at found
  · rename_i tx attempt base prepared rest phases
    obtain ⟨party, others, parties, phase, _⟩ := List.map_eq_cons_iff.mp phases
    simp only [Option.some.injEq, Prod.mk.injEq] at found
    obtain ⟨rfl, rfl, rfl⟩ := found
    exact ⟨party, by simp [parties], tx, attempt, prepared, phase, rfl, rfl⟩
  · cases found

theorem writingInline_prepares
    (column : Text)
    (numRows queued : Nat)
    (base : SnapshotInfo)
    (statements : InlineStatements)
    (runs : ((writingInline column numRows).foldlM (step .plain) (init 0)).map (fun sys =>
      (sys.firstStatements .sqlite, (latestSnapshot sys.db).toOption)) =
        some (some (queued, base, statements), some base)) :
    ∃ sys, Reachable .plain WithoutExpiration 0 sys ∧ latestSnapshot sys.db = .ok base ∧
      ∃ party ∈ sys.parties, ∃ tx attempt prepared,
        party.phase = .prepared tx attempt base prepared ∧ tx.changes.length = queued ∧
        inlineStatements .sqlite prepared.changes = statements := by
  obtain ⟨sys, taken, read⟩ := Option.map_eq_some_iff.mp runs
  obtain ⟨found, latest⟩ := Prod.mk.inj read
  exact ⟨sys, Reaches.of_foldlM _ (fun _ => writingInline_permitted column numRows) taken,
    toOption_eq_some.mp latest, firstStatements_eq_some .sqlite sys queued base statements found⟩

theorem inlineStatements_executable_iff_twoRows :
    ∃ sys, Reachable .plain WithoutExpiration 0 sys ∧ ∃ party ∈ sys.parties,
      ∃ tx attempt base prepared, party.phase = .prepared tx attempt base prepared ∧
        latestSnapshot sys.db = .ok base ∧
        (inlineStatements .sqlite prepared.changes).inserts.map ArrowInsert.binds = [8] ∧
        InlinesFit .sqlite .exact tx.catalog (ChangeSet.new tx.changes) := by
  obtain ⟨sys, run, latest, party, member, tx, attempt, prepared, phase, _, statements⟩ :=
    writingInline_prepares "a".toList 2 2 ⟨0, 0, 1, 0⟩ {
      created := [inlinedDataColumns ++ ["a".toList]]
      inserts := [⟨"a".toList :: inlinedDataColumns, 2⟩] } (by decide +kernel)
  refine ⟨sys, run, party, member, tx, attempt, _, prepared, phase, latest, ?_, ?_⟩
  · rw [statements]
    decide
  · refine (inlineStatements_executable_iff .plain .exact 0 sys run party member tx attempt _ prepared
      phase latest).mp ?_
    change (inlineStatements .sqlite prepared.changes).Executable .sqlite .exact
    rw [statements]
    exact ⟨by decide, by decide, by decide⟩

/-- A column of the table has the name of one that is added. -/
theorem not_executable_reservedName :
    ∃ sys, Reachable .plain WithoutExpiration 0 sys ∧ ∃ party ∈ sys.parties,
      ∃ tx attempt base prepared, party.phase = .prepared tx attempt base prepared ∧
        latestSnapshot sys.db = .ok base ∧ tx.changes.length = 2 ∧
        ∀ naming, ¬ (inlineStatements .sqlite prepared.changes).Executable .sqlite naming := by
  obtain ⟨sys, run, latest, party, member, tx, attempt, prepared, phase, queued, statements⟩ :=
    writingInline_prepares "row_id".toList 2 2 ⟨0, 0, 1, 0⟩ {
      created := [inlinedDataColumns ++ ["row_id".toList]]
      inserts := [⟨"row_id".toList :: inlinedDataColumns, 2⟩] } (by decide +kernel)
  refine ⟨sys, run, party, member, tx, attempt, _, prepared, phase, latest, queued, ?_⟩
  rw [statements]
  intro naming executable
  have distinct := executable.distinct _ (List.mem_singleton_self _)
  simp [inlinedDataColumns] at distinct

end System

end Ducklake
