import Ducklake.Catalog.Paths

/-!
# Which changes of columns panic

The mutators of the columns return or refuse, except below lists and maps, which have no columns
by name, and for structs without fields, which have no children in the arena.
-/

set_option autoImplicit false

namespace Ducklake

open Lib Spec

/-! ## Calls -/

section

variable {α β : Type}

@[simp] theorem panics_ok (value : α) : panics (.ok value : DucklakeResult α) = false := rfl

@[simp] theorem panics_error (err : DucklakeError) :
    panics (.error err : DucklakeResult α) = err.isPanic := rfl

theorem panics_bind_ok
    (call : DucklakeResult α)
    (next : α → DucklakeResult β)
    (value : α)
    (success : call = .ok value) :
    panics (call >>= next) = panics (next value) := by
  rw [success]
  rfl

theorem panics_bind_error
    (call : DucklakeResult α)
    (next : α → DucklakeResult β)
    (err : DucklakeError)
    (failure : call = .error err) :
    panics (call >>= next) = err.isPanic := by
  rw [failure]
  rfl

@[simp] theorem any_toOption_ok (value : α) (test : α → Bool) :
    (Except.ok value : DucklakeResult α).toOption.any test = test value := rfl

@[simp] theorem any_toOption_error (err : DucklakeError) (test : α → Bool) :
    (Except.error err : DucklakeResult α).toOption.any test = false := rfl

theorem panics_bind_of_total
    (call : DucklakeResult α)
    (next : α → DucklakeResult β)
    (total : panics call = false) :
    panics (call >>= next) = (call.toOption.any fun value => panics (next value)) := by
  cases call with
  | ok value => rfl
  | error err => exact total

@[simp] theorem panics_bind_return
    (call : DucklakeResult α)
    (next : α → β) :
    panics (call >>= fun value => .ok (next value)) = panics call := by
  cases call <;> rfl

@[simp] theorem panics_map
    (call : DucklakeResult α)
    (next : α → β) :
    panics (call.map next) = panics call := by
  cases call <;> rfl

theorem panics_of_succeedsIf
    (call : DucklakeResult α)
    (condition : Bool)
    (decided : SucceedsIf condition (fun err => err.isPanic = true) call) :
    panics call = !condition := by
  cases call with
  | ok value =>
      obtain rfl : condition = true := decided
      rfl
  | error err =>
      obtain ⟨rfl, panicked⟩ := decided
      exact panicked

end

/-! ## Added trees -/

/-- Whether a struct without fields is among the columns of a tree. -/
def Column.hasEmptyStruct (column : Column) : Bool :=
  column.flatten.any fun flat => flat.column.dtype = .struct []

namespace CatalogColumns

/-- Whether an added column reaches a panic: its parent has no columns by name, or the column has
a name that is free and a struct without fields. -/
def addPanics (columns : CatalogColumns) (parent : Option ArenaIdx) (column : Column) : Bool :=
  match columns.siblings parent with
  | .ok named => !named.contains column.name && column.hasEmptyStruct
  | .error _ => true

section

variable {columns after : CatalogColumns} {parent : Option ArenaIdx}

theorem flatDataType_succeedsIf
    (dtype : DataType)
    (childIdxs : List ArenaIdx)
    (all : childIdxs.length = dtype.children.length) :
    SucceedsIf (decide (dtype ≠ .struct [])) (fun err => err.isPanic = true)
      (flatDataType dtype childIdxs) := by
  cases dtype with
  | primitive type =>
      rw [decide_eq_true (by simp)]
      exact .ok _
  | list inner =>
      rw [decide_eq_true (by simp)]
      match childIdxs, all with
      | item :: _, _ => exact .ok _
  | struct fields =>
      match fields, childIdxs, all with
      | [], [], _ => exact .error _ rfl
      | field :: fields, child :: rest, _ =>
          rw [decide_eq_true (by simp)]
          exact .ok _
  | map key value =>
      rw [decide_eq_true (by simp)]
      match childIdxs, all with
      | keyIdx :: valueIdx :: _, _ => exact .ok _

/-- A tree is added unless a struct of it has no fields. -/
theorem addColumnToArena_succeedsIf
    (parent : Option ArenaIdx)
    (column : Column)
    (counted : columns.nextColumnId.isSome) :
    SucceedsIf (!column.hasEmptyStruct) (fun err => err.isPanic = true)
      (columns.addColumnToArena column parent false) := by
  have conditions : (!column.hasEmptyStruct) = (column.flatten.zipIdx.map Prod.swap).all
      fun position => decide (position.2.column.dtype ≠ .struct []) := by
    unfold Column.hasEmptyStruct
    conv_lhs => rw [← List.zipIdx_map_fst 0 column.flatten]
    rw [List.any_map, List.all_map, List.not_any_eq_all_not]
    simp [Function.comp_def]
  rw [conditions]
  refine SucceedsIf.bind_ok (SucceedsIf.foldlM _ _ _
    (fun columns => columns.nextColumnId.isSome = true) counted ?_)
  rintro state ⟨position, flat⟩ member filled
  obtain ⟨entry, listed, swapped⟩ := List.mem_map.mp member
  cases swapped
  have place : column.flatten[entry.2]? = some entry.1 := by
    simpa using List.mem_zipIdx_iff_getElem?.mp listed
  have inside : entry.2 < column.size := by
    rw [← Column.length_flatten]
    exact (List.getElem?_eq_some_iff.mp place).1
  obtain ⟨above, sub, piece, _⟩ := (Column.pieceOf_flatten column).of_position entry.2
    (Nat.zero_le _) (by rwa [Nat.zero_add])
  have same : entry.1 = ⟨sub, above⟩ := Option.some.inj (place.symm.trans piece.root)
  obtain ⟨id, taken⟩ := Option.isSome_iff_exists.mp filled
  have typed := flatDataType_succeedsIf sub.dtype
    ((Column.positionsBelow entry.2 0 column.flatten).map (columns.arena.length + ·)) (by
      rw [List.length_map, piece.positions, Column.length_starts])
  unfold addFlattenedColumn takeColumnId
  dsimp only
  rw [childIdxs_eq, same, taken]
  dsimp only
  refine ⟨typed.bind_ok, fun next success => ?_⟩
  obtain ⟨dtype, _, success⟩ := bind_eq_ok.mp success
  obtain rfl := Except.ok.inj success
  rfl

theorem siblings_continues
    (named : IndexMap Text ArenaIdx)
    (continues : columns.Continues after)
    (roots : after.rootColumns = columns.rootColumns)
    (found : columns.siblings parent = .ok named) :
    after.siblings parent = .ok named := by
  cases parent with
  | none =>
      cases found
      exact congrArg Except.ok roots
  | some above =>
      obtain ⟨inside, typed⟩ := siblings_lt named above found
      unfold siblings
      dsimp only
      rw [continues.column above inside, typed]

theorem siblings_error
    (err : DucklakeError)
    (failure : columns.siblings parent = .error err) :
    err.isPanic = true := by
  unfold siblings at failure
  split at failure
  · cases failure
  · split at failure
    · cases failure
    · obtain rfl := Except.error.inj failure
      rfl

theorem ensureColumnUniqueAtParent_error
    (name : Text)
    (err : DucklakeError)
    (failure : columns.siblings parent = .error err) :
    columns.ensureColumnUniqueAtParent parent name = .error err := by
  unfold ensureColumnUniqueAtParent
  rw [failure]
  rfl

theorem ensureColumnUniqueAtParent_ok
    (name : Text)
    (named : IndexMap Text ArenaIdx)
    (found : columns.siblings parent = .ok named) :
    columns.ensureColumnUniqueAtParent parent name =
      if named.contains name then .error (columnAlreadyExists name) else .ok named := by
  unfold ensureColumnUniqueAtParent
  rw [found]
  rfl

theorem addColumn_taken
    (column : Column)
    (named : IndexMap Text ArenaIdx)
    (found : columns.siblings parent = .ok named)
    (taken : named.contains column.name = true) :
    columns.addColumn parent column = .error (columnAlreadyExists column.name) := by
  unfold addColumn
  rw [ensureColumnUniqueAtParent_ok column.name named found, if_pos taken]
  rfl

/-- A column with a free name is added unless a struct of it has no fields. -/
theorem addColumn_succeedsIf
    (column : Column)
    (counted : columns.nextColumnId.isSome)
    (named : IndexMap Text ArenaIdx)
    (found : columns.siblings parent = .ok named)
    (fresh : named.contains column.name = false) :
    SucceedsIf (!column.hasEmptyStruct) (fun err => err.isPanic = true)
      (columns.addColumn parent column) := by
  have unique := ensureColumnUniqueAtParent_ok column.name named found
  rw [if_neg (Bool.eq_false_iff.mp fresh)] at unique
  have added := addColumnToArena_succeedsIf parent column counted
  unfold addColumn
  rw [unique, ← Bool.and_true (!column.hasEmptyStruct)]
  refine added.bind fun result placed => ?_
  obtain ⟨_, continues, _, roots, _⟩ :=
    addColumnToArena_eq_ok columns result.2 column parent false result.1 placed
  have still := siblings_continues named continues roots found
  dsimp only
  rw [still]
  exact .ok _

theorem panics_addColumn
    (column : Column)
    (counted : columns.nextColumnId.isSome) :
    panics (columns.addColumn parent column) = columns.addPanics parent column := by
  unfold addPanics
  cases found : columns.siblings parent with
  | error err =>
      unfold addColumn
      rw [panics_bind_error _ _ err (ensureColumnUniqueAtParent_error column.name err found)]
      exact siblings_error err found
  | ok named =>
      dsimp only
      by_cases taken : named.contains column.name = true
      · rw [addColumn_taken column named found taken, taken]
        rfl
      · have fresh := Bool.eq_false_iff.mpr taken
        rw [panics_of_succeedsIf _ _ (addColumn_succeedsIf column counted named found fresh), fresh,
          Bool.not_not, Bool.not_false, Bool.true_and]

/-! ## Renamed columns -/

/-- A column at a path can be renamed unless it is the child of a list or a map. -/
theorem panics_renameColumn
    (linked : columns.Linked)
    (path : List Text)
    (idx : ArenaIdx)
    (reached : columns.arenaIdxByPath path = .ok idx)
    (newName : Text) :
    panics (columns.renameColumn idx newName) =
      !(columns.siblings (columns.column idx).parentColumn).isOk := by
  unfold renameColumn
  dsimp only
  cases found : columns.siblings (columns.column idx).parentColumn with
  | error err =>
      rw [panics_bind_error _ _ err (ensureColumnUniqueAtParent_error newName err found)]
      exact siblings_error err found
  | ok named =>
      have unique := ensureColumnUniqueAtParent_ok newName named found
      split at unique
      · rw [panics_bind_error _ _ _ unique]
        rfl
      · have own := linked.get?_siblings path idx reached named found
        have present : named.contains (columns.column idx).name = true := by
          unfold IndexMap.contains
          rw [own]
          rfl
        rw [panics_bind_ok _ _ _ unique, if_pos present]
        rfl

/-! ## Paths -/

theorem panics_arenaIdxByPath
    (path : List Text)
    (filled : path ≠ []) :
    panics (columns.arenaIdxByPath path) = false := by
  unfold arenaIdxByPath
  split
  · exact absurd rfl filled
  · split <;> rfl

end

end CatalogColumns

namespace Catalog

section

variable (catalog : Catalog)

theorem panics_schemaRef (name : Text) : panics (catalog.schemaRef name) = false := by
  unfold schemaRef
  split <;> rfl

theorem panics_tableRef (name : QualifiedName) : panics (catalog.tableRef name) = false := by
  unfold tableRef
  rw [panics_bind_of_total _ _ (catalog.panics_schemaRef _)]
  cases catalog.schemaRef name.schema with
  | error err => rfl
  | ok schema =>
      rw [any_toOption_ok]
      split <;> rfl

theorem panics_columnRef
    (ref : TableRef)
    (path : List Text)
    (filled : path ≠ []) :
    panics (catalog.columnRef ref path) = false := by
  unfold columnRef
  rw [panics_bind_of_total _ _ (CatalogColumns.panics_arenaIdxByPath path filled)]
  cases (catalog.table ref).columns.arenaIdxByPath path <;> rfl

end

end Catalog

end Ducklake
