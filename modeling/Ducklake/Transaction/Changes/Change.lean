import Ducklake.Spec.Entities
import Ducklake.Transaction.Changes.AppliedChange
import Ducklake.Typedefs.Data

/-!
# Changes

The changes that a transaction collects (`Change` of `change.rs`) and the set that `commit`
makes of them: of several changes of one kind to one object the last one is kept, and objects
created and deleted in the same transaction leave no change behind.
-/

set_option autoImplicit false

namespace Ducklake.Transaction

open Spec

inductive Change where
  | createSchema (schemaRef : SchemaRef) (name : Text) (path : DucklakePath)
  | deleteSchema (schemaRef : SchemaRef)
  | createTable (schemaRef : SchemaRef) (tableRef : TableRef) (columnRefs : List (List ColumnRef))
      (partitionColumnRefs : Option (List ColumnRef)) (name : QualifiedName)
      (columns : List Column) (retiredColumns : List DucklakeColumn)
      (partitionColumns : Option Partition) (sortInfo : Option SortInfo) (path : DucklakePath)
      (tags : Tags)
  | writeTableDataFiles (tableRef : TableRef) (dataFiles : List CommitDataFile)
  | writeTableInlineData (tableRef : TableRef) (data : List CommitInlineData)
  | renameTable (tableRef : TableRef) (name : QualifiedName)
  | updateTablePartitioning (tableRef : TableRef) (partitionColumnRefs : Option (List ColumnRef))
      (partitionColumns : Option Partition)
  | updateTableSortInfo (tableRef : TableRef) (expressions : Option SortInfo)
  | deleteTable (tableRef : TableRef) (detachFiles : Bool)
  | addTableTag (tableRef : TableRef) (tag : Tag)
  | removeTableTag (tableRef : TableRef) (key : Text)
  | createView (schemaRef : SchemaRef) (viewRef : ViewRef) (name : QualifiedName) (sql : Text)
      (dialect : Text) (columnAliases : Option (List Text)) (tags : Tags)
  | deleteView (viewRef : ViewRef)
  | createMacro (schemaRef : SchemaRef) (macroRef : MacroRef) (name : QualifiedName)
      (macroType : MacroType) (implementations : List MacroImplementation)
  | deleteMacro (macroRef : MacroRef) (macroType : MacroType)
  | addTableColumn (parentColumnRef : Option ColumnRef) (columnRefs : List ColumnRef)
      (column : Column)
  | updateTableColumn (parentColumnRef : Option ColumnRef) (columnRef : ColumnRef)
      (column : Column)
  | removeTableColumn (columnRef : ColumnRef)
  | addTableColumnTag (columnRef : ColumnRef) (tag : Tag)
  | removeTableColumnTag (columnRef : ColumnRef) (key : Text)
  deriving DecidableEq

namespace Change

/-- Whether this change affects the schema of the DuckLake. -/
def changesSchema : Change → Bool
  | writeTableDataFiles .. => false
  | writeTableInlineData .. => false
  | _ => true

def affectedTableRef : Change → Option TableRef
  | createTable _ tableRef .. => some tableRef
  | renameTable tableRef _ => some tableRef
  | updateTablePartitioning tableRef .. => some tableRef
  | updateTableSortInfo tableRef _ => some tableRef
  | deleteTable tableRef _ => some tableRef
  | addTableTag tableRef _ => some tableRef
  | removeTableTag tableRef _ => some tableRef
  | writeTableDataFiles tableRef _ => some tableRef
  | writeTableInlineData tableRef _ => some tableRef
  | updateTableColumn _ columnRef _ => some columnRef.tableRef
  | removeTableColumn columnRef => some columnRef.tableRef
  | addTableColumnTag columnRef _ => some columnRef.tableRef
  | removeTableColumnTag columnRef _ => some columnRef.tableRef
  | addTableColumn _ columnRefs _ => columnRefs.head?.map ColumnRef.tableRef
  | createSchema .. | deleteSchema _ | createView .. | deleteView _ | createMacro ..
  | deleteMacro .. => none

def tableRefWithSchemaChange : Change → Option TableRef
  | createTable _ tableRef .. => some tableRef
  | renameTable tableRef _ => some tableRef
  | updateTablePartitioning tableRef .. => some tableRef
  | updateTableColumn _ columnRef _ => some columnRef.tableRef
  | removeTableColumn columnRef => some columnRef.tableRef
  | addTableColumn _ columnRefs _ => columnRefs.head?.map ColumnRef.tableRef
  | _ => none

def requiresTableStats : Change → Bool
  | writeTableDataFiles .. => true
  | writeTableInlineData .. => true
  | _ => false

def isTableDataFileWrite : Change → Bool
  | writeTableDataFiles .. => true
  | _ => false

def isTableInlineDataWrite : Change → Bool
  | writeTableInlineData .. => true
  | _ => false

def createdTable : Change → Option TableRef
  | createTable _ tableRef .. => some tableRef
  | _ => none

def deletedTable : Change → Option TableRef
  | deleteTable tableRef _ => some tableRef
  | _ => none

def createdView : Change → Option ViewRef
  | createView _ viewRef .. => some viewRef
  | _ => none

def deletedView : Change → Option ViewRef
  | deleteView viewRef => some viewRef
  | _ => none

def createdMacro : Change → Option MacroRef
  | createMacro _ macroRef .. => some macroRef
  | _ => none

def deletedMacro : Change → Option MacroRef
  | deleteMacro macroRef _ => some macroRef
  | _ => none

def createdSchema : Change → Option SchemaRef
  | createSchema schemaRef .. => some schemaRef
  | _ => none

def deletedSchema : Change → Option SchemaRef
  | deleteSchema schemaRef => some schemaRef
  | _ => none

end Change

/-! ## Deduplication -/

/-- What two changes of one transaction must share for the later one to replace the earlier. -/
inductive HashableChange where
  | createSchema (schemaRef : SchemaRef)
  | deleteSchema (schemaRef : SchemaRef)
  | createTable (tableRef : TableRef)
  | renameTable (tableRef : TableRef)
  | updateTablePartitioning (tableRef : TableRef)
  | updateTableSortInfo (tableRef : TableRef)
  | deleteTable (tableRef : TableRef)
  | addTableTag (tableRef : TableRef) (key : Text)
  | removeTableTag (tableRef : TableRef) (key : Text)
  | createView (viewRef : ViewRef)
  | deleteView (viewRef : ViewRef)
  | createMacro (macroRef : MacroRef)
  | deleteMacro (macroRef : MacroRef)
  | addTableColumn (columnRefs : List ColumnRef)
  | updateTableColumn (columnRef : ColumnRef)
  | removeTableColumn (columnRef : ColumnRef)
  | addTableColumnTag (columnRef : ColumnRef) (key : Text)
  | removeTableColumnTag (columnRef : ColumnRef) (key : Text)
  | writeTableDataFiles (tableRef : TableRef) (paths : List DucklakePath)
  | writeTableInlineData (tableRef : TableRef)
  deriving DecidableEq

def Change.hashable : Change → HashableChange
  | createSchema schemaRef _ _ => .createSchema schemaRef
  | deleteSchema schemaRef => .deleteSchema schemaRef
  | createTable _ tableRef .. => .createTable tableRef
  | renameTable tableRef _ => .renameTable tableRef
  | updateTablePartitioning tableRef _ _ => .updateTablePartitioning tableRef
  | updateTableSortInfo tableRef _ => .updateTableSortInfo tableRef
  | deleteTable tableRef _ => .deleteTable tableRef
  | addTableTag tableRef tag => .addTableTag tableRef tag.key
  | removeTableTag tableRef key => .removeTableTag tableRef key
  | createView _ viewRef .. => .createView viewRef
  | deleteView viewRef => .deleteView viewRef
  | createMacro _ macroRef .. => .createMacro macroRef
  | deleteMacro macroRef _ => .deleteMacro macroRef
  | addTableColumn _ columnRefs _ => .addTableColumn columnRefs
  | updateTableColumn _ columnRef _ => .updateTableColumn columnRef
  | removeTableColumn columnRef => .removeTableColumn columnRef
  | addTableColumnTag columnRef tag => .addTableColumnTag columnRef tag.key
  | removeTableColumnTag columnRef key => .removeTableColumnTag columnRef key
  | writeTableDataFiles tableRef dataFiles =>
      .writeTableDataFiles tableRef (dataFiles.map CommitDataFile.path)
  | writeTableInlineData tableRef _ => .writeTableInlineData tableRef

def keepLast : List Change → List Change
  | [] => []
  | change :: rest =>
      if change.hashable ∈ rest.map Change.hashable then keepLast rest
      else change :: keepLast rest

/-- Changes to deleted tables are dropped; the deletion itself stays unless the table was
created in the same transaction. -/
def cancelTables (changes : List Change) : List Change :=
  let created := changes.filterMap Change.createdTable
  let deleted := changes.filterMap Change.deletedTable
  changes.filter fun change =>
    match change.deletedTable with
    | some tableRef => tableRef ∉ created
    | none => change.affectedTableRef.all fun tableRef => tableRef ∉ deleted

/-- An object created and deleted in one transaction leaves neither change behind. -/
def cancelPairs {ρ : Type} [DecidableEq ρ] (created deleted : Change → Option ρ)
    (changes : List Change) : List Change :=
  let createdRefs := changes.filterMap created
  let deletedRefs := changes.filterMap deleted
  changes.filter fun change =>
    (deleted change).all (fun ref => ref ∉ createdRefs) &&
      (created change).all fun ref => ref ∉ deletedRefs

theorem keepLast_sublist (changes : List Change) : (keepLast changes).Sublist changes := by
  induction changes with
  | nil => exact List.Sublist.refl _
  | cons change rest ih =>
      unfold keepLast
      split
      · exact ih.cons change
      · exact ih.cons_cons change

theorem mem_map_keepLast
    (changes : List Change)
    (key : HashableChange) :
    key ∈ (keepLast changes).map Change.hashable ↔ key ∈ changes.map Change.hashable := by
  induction changes with
  | nil => rfl
  | cons change rest ih =>
      unfold keepLast
      split
      · rename_i repeated
        rw [ih, List.map_cons, List.mem_cons]
        constructor
        · exact Or.inr
        · rintro (same | later)
          · exact same ▸ repeated
          · exact later
      · rw [List.map_cons, List.map_cons, List.mem_cons, List.mem_cons, ih]

theorem keepLast_nodup (changes : List Change) :
    ((keepLast changes).map Change.hashable).Nodup := by
  induction changes with
  | nil => exact List.nodup_nil
  | cons change rest ih =>
      unfold keepLast
      split
      · exact ih
      · rename_i last
        rw [List.map_cons, List.nodup_cons, mem_map_keepLast]
        exact ⟨last, ih⟩

theorem cancelTables_sublist (changes : List Change) :
    (cancelTables changes).Sublist changes :=
  List.filter_sublist

theorem cancelPairs_sublist
    {ρ : Type}
    [DecidableEq ρ]
    (created deleted : Change → Option ρ)
    (changes : List Change) :
    (cancelPairs created deleted changes).Sublist changes :=
  List.filter_sublist

/-- Deduplicate changes and cancel what is created and deleted again. -/
def deduplicate (changes : List Change) : List Change :=
  cancelPairs Change.createdSchema Change.deletedSchema <|
    cancelPairs Change.createdView Change.deletedView <|
      cancelPairs Change.createdMacro Change.deletedMacro <| cancelTables <| keepLast changes

theorem deduplicate_sublist_keepLast (changes : List Change) :
    (deduplicate changes).Sublist (keepLast changes) :=
  (cancelPairs_sublist _ _ _).trans <| (cancelPairs_sublist _ _ _).trans <|
    (cancelPairs_sublist _ _ _).trans <| cancelTables_sublist _

/-- A set of changes that ought to be applied within a transaction. -/
structure ChangeSet where
  changes : List Change
  unique : (changes.map Change.hashable).Nodup
  deriving DecidableEq

namespace ChangeSet

def new (changes : List Change) : ChangeSet :=
  ⟨deduplicate changes, (keepLast_nodup changes).sublist
    ((deduplicate_sublist_keepLast changes).map Change.hashable)⟩

theorem mem_of_mem_new
    (changes : List Change)
    (change : Change)
    (member : change ∈ (new changes).changes) :
    change ∈ changes :=
  ((deduplicate_sublist_keepLast changes).trans (keepLast_sublist changes)).subset member

theorem mem_new_of_mem_cancelTables
    (changes : List Change)
    (change : Change)
    (tableRef : TableRef)
    (left : change ∈ cancelTables (keepLast changes))
    (affected : change.affectedTableRef = some tableRef) :
    change ∈ (new changes).changes := by
  have plain : ∀ {ρ : Type} [DecidableEq ρ] (created deleted : Change → Option ρ)
      (changes : List Change), created change = none → deleted change = none → change ∈ changes →
        change ∈ cancelPairs created deleted changes := by
    intro ρ _ created deleted changes notCreated notDeleted member
    exact List.mem_filter.mpr ⟨member, by simp [notCreated, notDeleted]⟩
  have unpaired : change.createdSchema = none ∧ change.deletedSchema = none ∧
      change.createdView = none ∧ change.deletedView = none ∧
        change.createdMacro = none ∧ change.deletedMacro = none := by
    cases change <;> first | exact ⟨rfl, rfl, rfl, rfl, rfl, rfl⟩ | cases affected
  obtain ⟨schema, noSchema, view, noView, macro_, noMacro⟩ := unpaired
  exact plain _ _ _ schema noSchema <| plain _ _ _ view noView <| plain _ _ _ macro_ noMacro left

theorem mem_new_of_table
    (changes : List Change)
    (change other : Change)
    (tableRef : TableRef)
    (last : change ∈ keepLast changes)
    (affected : change.affectedTableRef = some tableRef)
    (kept : change.deletedTable = none)
    (survivor : other ∈ (new changes).changes)
    (same : other.affectedTableRef = some tableRef)
    (keptOther : other.deletedTable = none) :
    change ∈ (new changes).changes := by
  refine mem_new_of_mem_cancelTables changes change tableRef ?_ affected
  have inside := ((cancelPairs_sublist _ _ _).trans ((cancelPairs_sublist _ _ _).trans
    (cancelPairs_sublist _ _ _))).subset survivor
  have alive := (List.mem_filter.mp inside).2
  rw [keptOther, same] at alive
  exact List.mem_filter.mpr ⟨last, by rwa [kept, affected]⟩

theorem notMem_deleted_of_mem_new
    (changes : List Change)
    (change : Change)
    (tableRef : TableRef)
    (detachFiles : Bool)
    (member : change ∈ (new changes).changes)
    (affected : change.affectedTableRef = some tableRef)
    (kept : change.deletedTable = none) :
    .deleteTable tableRef detachFiles ∉ (new changes).changes := by
  have left : ∀ other ∈ (new changes).changes, other ∈ cancelTables (keepLast changes) :=
    fun other inside => ((cancelPairs_sublist _ _ _).trans ((cancelPairs_sublist _ _ _).trans
      (cancelPairs_sublist _ _ _))).subset inside
  intro deletion
  have alive := (List.mem_filter.mp (left change member)).2
  have deleted := List.mem_of_mem_filter (left _ deletion)
  rw [kept, affected] at alive
  refine of_decide_eq_true alive (List.mem_filterMap.mpr ⟨_, deleted, rfl⟩)

def isEmpty (set : ChangeSet) : Bool :=
  set.changes.isEmpty

def changesSchema (set : ChangeSet) : Bool :=
  set.changes.any Change.changesSchema

def requiresTableStats (set : ChangeSet) : Bool :=
  set.changes.any Change.requiresTableStats

def tableRefsWithSchemaChanges (set : ChangeSet) : List TableRef :=
  (set.changes.filterMap Change.tableRefWithSchemaChange).eraseDups

def containsInlineDataWritesAndNoFileWrites (set : ChangeSet) : Bool :=
  set.changes.any Change.isTableInlineDataWrite && !set.changes.any Change.isTableDataFileWrite

end ChangeSet

end Ducklake.Transaction
