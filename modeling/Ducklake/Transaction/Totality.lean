import Ducklake.Transaction.RetypeSteps

/-!
# Which calls on columns panic

Every method that takes a column path returns or refuses, apart from four kinds of calls: adding
a struct without fields or below a column that is no struct, renaming a child of a list or map, and
forbidding nulls in a table that has no id yet.
-/

set_option autoImplicit false

namespace Ducklake

open Lib Caches Spec Transaction

namespace Operation

/-- Whether the method works on a column at a path that is not empty. -/
def worksOnColumn : Operation → Bool
  | addTableColumn .. => true
  | removeTableColumn _ column => !column.isEmpty
  | renameTableColumn _ column _ => !column.isEmpty
  | updateTableColumnDtype _ column _ => !column.isEmpty
  | updateTableColumnDefault _ column _ => !column.isEmpty
  | updateTableColumnNullability _ column _ => !column.isEmpty
  | addTableColumnTag _ column _ _ => !column.isEmpty
  | removeTableColumnTag _ column _ => !column.isEmpty
  | _ => false

/-- The calls that reach a panic: those that find their table and column, and then add below a
column without fields or add a struct without fields, rename the child of a list or map, or
forbid nulls in a table without an id. -/
def reachesPanic (db : Database) (stats : DucklakeResult TableStatsMap) (tx : Transaction) :
    Operation → Bool
  | addTableColumn name column parentPath =>
      (tx.catalog.tableRef name).toOption.any fun ref =>
        (tx.catalog.ensureNextColumnId db ref).isOk &&
          (tx.catalog.parentAt ref parentPath).toOption.any fun parent =>
            (tx.catalog.table ref).columns.addPanics (parent.map ColumnRef.columnIdx) column
  | renameTableColumn name column newName =>
      decide (column.getLast? ≠ some newName) &&
        (columnByPath tx.catalog name column).toOption.any fun ref =>
          !((tx.catalog.table ref.tableRef).columns.siblings
            (tx.catalog.column ref).parentColumn).isOk
  | updateTableColumnNullability name column nullable =>
      (columnByPath tx.catalog name column).toOption.any fun ref =>
        (tx.catalog.column ref).nullable && !nullable &&
          (panics stats || stats.isOk && (tx.catalog.table ref.tableRef).id.isNone)
  | updateTableColumnDtype name column dtype =>
      (columnByPath tx.catalog name column).toOption.any fun ref =>
        let existing := tx.catalog.columnInfo ref
        reachesEmptyStruct db tx.catalog ref.tableRef []
          (retypeSteps existing.flatten.length column existing.dtype dtype)
  | _ => false

end Operation

namespace Transaction

section

variable {db : Database} {stats : DucklakeResult TableStatsMap} {tx : Transaction}

theorem panics_columnByPath
    (catalog : Catalog)
    (name : QualifiedName)
    (column : List Text)
    (filled : column ≠ []) :
    panics (columnByPath catalog name column) = false := by
  unfold columnByPath
  rw [panics_bind_of_total _ _ (catalog.panics_tableRef name)]
  cases catalog.tableRef name with
  | error err => rfl
  | ok ref => exact catalog.panics_columnRef ref column filled

theorem columnByPath_eq_ok
    (catalog : Catalog)
    (sound : catalog.WellFormed)
    (name : QualifiedName)
    (column : List Text)
    (ref : ColumnRef)
    (found : columnByPath catalog name column = .ok ref) :
    catalog.tableRef name = .ok ref.tableRef ∧ catalog.Has (.table ref.tableRef) ∧
      (catalog.table ref.tableRef).columns.arenaIdxByPath column = .ok ref.columnIdx := by
  obtain ⟨table, located, found⟩ := bind_eq_ok.mp found
  obtain ⟨idx, reached, found⟩ := bind_eq_ok.mp found
  obtain rfl := Except.ok.inj found
  exact ⟨located, sound.tableRef name table located, reached⟩

theorem ensureNextColumnId_eq_ok
    (catalog counted : Catalog)
    (ref : TableRef)
    (present : catalog.Has (.table ref))
    (success : catalog.ensureNextColumnId db ref = .ok counted) :
    ∃ next, (counted.table ref).columns =
      { (catalog.table ref).columns with nextColumnId := some next } := by
  unfold Catalog.ensureNextColumnId at success
  dsimp only at success
  split at success
  · rename_i next set
    obtain rfl := Except.ok.inj success
    exact ⟨next, by rw [← set]⟩
  · cases success
  · obtain ⟨next, _, success⟩ := bind_eq_ok.mp success
    obtain rfl := Except.ok.inj success
    exact ⟨next, by rw [Catalog.table_modifyTable present]⟩

theorem panics_ensureNextColumnId
    (catalog : Catalog)
    (ref : TableRef)
    (ready : (catalog.table ref).ColumnsReady) :
    panics (catalog.ensureNextColumnId db ref) = false := by
  unfold Catalog.ensureNextColumnId
  dsimp only
  split
  · rfl
  · rename_i unset id
    rcases ready.counted with set | id'
    · rw [unset] at set
      cases set
    · rw [id] at id'
      cases id'
  · rw [panics_bind_return]
    unfold Catalog.loadNextColumnId
    split <;> rfl

theorem panics_addTableColumn
    (sound : tx.catalog.WellFormed)
    (ready : tx.catalog.ColumnsReady)
    (name : QualifiedName)
    (column : Column)
    (parentPath : List Text) :
    panics (tx.addTableColumn db name column parentPath) =
      (Operation.addTableColumn name column parentPath).reachesPanic db stats tx := by
  unfold addTableColumn Operation.reachesPanic
  dsimp only
  rw [panics_bind_of_total _ _ (tx.catalog.panics_tableRef name)]
  cases found : tx.catalog.tableRef name with
  | error err => rfl
  | ok ref =>
      have present := sound.tableRef name ref found
      rw [any_toOption_ok, any_toOption_ok,
        panics_bind_of_total _ _ (panics_ensureNextColumnId tx.catalog ref (ready ref present))]
      cases ensured : tx.catalog.ensureNextColumnId db ref with
      | error err => rfl
      | ok counted =>
          obtain ⟨next, columns⟩ := ensureNextColumnId_eq_ok tx.catalog counted ref present ensured
          have parents : counted.parentAt ref parentPath = tx.catalog.parentAt ref parentPath := by
            unfold Catalog.parentAt Catalog.columnRef
            rw [columns]
            rfl
          have total : panics (tx.catalog.parentAt ref parentPath) = false := by
            unfold Catalog.parentAt
            split
            · rfl
            · rename_i filled
              rw [panics_map]
              exact tx.catalog.panics_columnRef ref parentPath (by simpa using filled)
          rw [any_toOption_ok, panics_bind_return]
          unfold Catalog.addColumn
          rw [parents, panics_bind_of_total _ _ total]
          cases tx.catalog.parentAt ref parentPath with
          | error err => rfl
          | ok parent =>
              rw [any_toOption_ok, any_toOption_ok, panics_bind_return, columns,
                CatalogColumns.panics_addColumn column rfl]
              rfl

theorem panics_renameTableColumn
    (sound : tx.catalog.WellFormed)
    (ready : tx.catalog.ColumnsReady)
    (name : QualifiedName)
    (column : List Text)
    (newName : Text)
    (filled : column ≠ []) :
    panics (tx.renameTableColumn name column newName) =
      (Operation.renameTableColumn name column newName).reachesPanic db stats tx := by
  unfold renameTableColumn Operation.reachesPanic
  cases last : column.getLast? with
  | none => exact absurd (List.getLast?_eq_none_iff.mp last) filled
  | some part =>
      dsimp only
      by_cases same : part = newName
      · rw [if_pos same, last, same, decide_eq_false (by simp)]
        rfl
      · have distinct : decide (column.getLast? ≠ some newName) = true := by
          rw [last]
          simpa using same
        rw [if_neg same, panics_bind_of_total _ _ (panics_columnByPath _ name column filled),
          distinct, Bool.true_and]
        cases found : columnByPath tx.catalog name column with
        | error err => rfl
        | ok ref =>
            obtain ⟨_, present, reached⟩ := columnByPath_eq_ok tx.catalog sound name column ref found
            have renamed := CatalogColumns.panics_renameColumn (ready ref.tableRef present).linked
              column ref.columnIdx reached newName
            rw [any_toOption_ok, any_toOption_ok]
            refine Eq.trans ?_ renamed
            unfold Catalog.renameColumn
            cases (tx.catalog.table ref.tableRef).columns.renameColumn ref.columnIdx newName with
            | error err => rfl
            | ok columns =>
                simp only [bind, Except.bind]
                split <;> rfl

theorem panics_updateTableColumnNullability
    (name : QualifiedName)
    (column : List Text)
    (nullable : Bool)
    (filled : column ≠ []) :
    panics (tx.updateTableColumnNullability stats name column nullable) =
      (Operation.updateTableColumnNullability name column nullable).reachesPanic db stats tx := by
  unfold updateTableColumnNullability Operation.reachesPanic
  dsimp only
  rw [panics_bind_of_total _ _ (panics_columnByPath _ name column filled)]
  cases columnByPath tx.catalog name column with
  | error err => rfl
  | ok ref =>
      rw [any_toOption_ok, any_toOption_ok]
      cases current : (tx.catalog.column ref).nullable <;> cases nullable
      · rfl
      · rfl
      · rw [if_neg (by simp), if_neg (by simp)]
        cases stats with
        | error err => simp [panics_bind_error _ _ err rfl, Except.isOk, Except.toBool]
        | ok loaded =>
            rw [panics_bind_ok _ _ loaded rfl]
            cases (tx.catalog.table ref.tableRef).id with
            | none => rfl
            | some tableId =>
                dsimp only
                split <;> rfl
      · rfl

theorem panics_updateTableColumnDtype
    (sound : tx.catalog.WellFormed)
    (ready : tx.catalog.ColumnsReady)
    (name : QualifiedName)
    (column : List Text)
    (dtype : DataType)
    (filled : column ≠ []) :
    panics (tx.updateTableColumnDtype db name column dtype) =
      (Operation.updateTableColumnDtype name column dtype).reachesPanic db stats tx := by
  unfold updateTableColumnDtype Operation.reachesPanic
  dsimp only
  rw [panics_bind_of_total _ _ (panics_columnByPath _ name column filled)]
  cases found : columnByPath tx.catalog name column with
  | error err => rfl
  | ok ref =>
      obtain ⟨located, present, reached⟩ := columnByPath_eq_ok tx.catalog sound name column ref found
      have columnsReady := ready ref.tableRef present
      have shown : (tx.catalog.table ref.tableRef).columns.ShownAt column
          (tx.catalog.columnInfo ref).dtype :=
        ⟨ref.columnIdx, _, reached, rfl, Nat.le_add_left _ _⟩
      have enough : Column.sizeBelow (tx.catalog.columnInfo ref).dtype <
          (tx.catalog.columnInfo ref).flatten.length := by
        rw [Column.length_flatten]
        exact sizeBelow_lt_size _
      rw [any_toOption_ok, any_toOption_ok, updateDtypeRecursive_eq _ _ _ _ _ _ _ enough]
      exact (Retyping.initial located present columnsReady).panics columnsReady.linked _
        (fits_of_mem_retypeSteps _ columnsReady.linked _ column _ dtype shown)

theorem panics_removeTableColumn
    (name : QualifiedName)
    (column : List Text)
    (filled : column ≠ []) :
    panics (tx.removeTableColumn name column) = false := by
  unfold removeTableColumn
  rw [panics_bind_of_total _ _ (panics_columnByPath _ name column filled)]
  cases columnByPath tx.catalog name column with
  | error err => rfl
  | ok ref =>
      rw [any_toOption_ok, panics_bind_return]
      unfold Catalog.removeColumn
      dsimp only
      split
      · rfl
      · split <;> rfl

theorem panics_removeTag (tags : Tags) (key : Text) : panics (Catalog.removeTag tags key) = false := by
  unfold Catalog.removeTag
  split <;> rfl

end

end Transaction

theorem Operation.panics_execute
    (env : Environment)
    (db : Database)
    (stats : DucklakeResult TableStatsMap)
    (tx : Transaction)
    (sound : tx.catalog.WellFormed)
    (ready : tx.catalog.ColumnsReady)
    (operation : Operation)
    (column : operation.worksOnColumn = true) :
    panics (operation.execute env db stats tx) = operation.reachesPanic db stats tx := by
  have given : ∀ path : List Text, (!path.isEmpty) = true → path ≠ [] := by
    rintro path filled rfl
    cases filled
  cases operation with
  | addTableColumn name definition parentPath =>
      exact panics_addTableColumn sound ready name definition parentPath
  | removeTableColumn name path => exact panics_removeTableColumn name path (given path column)
  | renameTableColumn name path newName =>
      exact panics_renameTableColumn sound ready name path newName (given path column)
  | updateTableColumnDtype name path dtype =>
      exact panics_updateTableColumnDtype sound ready name path dtype (given path column)
  | updateTableColumnDefault name path defaultValue =>
      exact (panics_bind_return _ _).trans (panics_columnByPath _ name path (given path column))
  | updateTableColumnNullability name path nullable =>
      exact panics_updateTableColumnNullability name path nullable (given path column)
  | addTableColumnTag name path key value =>
      exact (panics_bind_return _ _).trans (panics_columnByPath _ name path (given path column))
  | removeTableColumnTag name path key =>
      change panics (columnByPath tx.catalog name path >>= _) = _
      rw [panics_bind_of_total _ _ (panics_columnByPath _ name path (given path column))]
      cases columnByPath tx.catalog name path with
      | error err => rfl
      | ok ref =>
          rw [any_toOption_ok, panics_bind_return, panics_removeTag]
          rfl
  | _ => cases column

end Ducklake
