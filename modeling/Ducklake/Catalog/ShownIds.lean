import Ducklake.Catalog.ShownRoots
import Ducklake.Transfer

/-!
# The ids of shown columns

The columns that a table shows are columns of its arena, and none is shown twice.
-/

set_option autoImplicit false

namespace Ducklake

open Lib Spec

/-! ## Ids of a tree -/

def Column.treeIds (column : Column) : List Int :=
  column.flatten.filterMap fun flat => flat.column.fieldId

theorem Column.ids_nodesOfAll
    (columns : List Column)
    (start parent : Nat)
    (each : ∀ column ∈ columns, ∀ start parent,
      (column.nodes start parent).filterMap (fun flat => flat.column.fieldId) = column.treeIds) :
    (nodesOfAll start parent columns).filterMap (fun flat => flat.column.fieldId) =
      columns.flatMap treeIds := by
  induction columns generalizing start with
  | nil => rfl
  | cons first rest ih =>
      rw [nodesOfAll, List.filterMap_append, each first (by simp), List.flatMap_cons,
        ih _ fun column member => each column (List.mem_cons_of_mem _ member)]

theorem Column.ids_nodes (column : Column) (start : Nat) (parent : Option Nat) :
    (column.nodes start parent).filterMap (fun flat => flat.column.fieldId) = column.treeIds := by
  induction column using Column.induct generalizing start parent with
  | step column ih =>
      rw [treeIds, flatten_eq, nodes_eq, nodes_eq, List.filterMap_cons, List.filterMap_cons,
        ids_nodesOfAll _ _ _ ih, ids_nodesOfAll _ _ _ ih]

theorem Column.treeIds_eq (column : Column) :
    column.treeIds = column.fieldId.toList ++ column.dtype.children.flatMap treeIds := by
  rw [treeIds, flatten_eq, nodes_eq, List.filterMap_cons,
    ids_nodesOfAll _ _ _ fun child _ => child.ids_nodes]
  cases column.fieldId <;> rfl

theorem CatalogDataType.children_shownWith
    (dtype : CatalogDataType)
    (child : ArenaIdx → Column) :
    (dtype.shownWith child).children = (CatalogColumns.children dtype).map child := by
  cases dtype <;> rfl

namespace CatalogColumns

section

variable {columns : CatalogColumns}

theorem Linked.treeIds_schemaColumn
    (linked : columns.Linked)
    (fuel : Nat)
    (path : List Text)
    (idx : ArenaIdx)
    (found : columns.arenaIdxByPath path = .ok idx)
    (lasts : columns.LastsBelow path fuel) :
    (columns.schemaColumn fuel idx).treeIds =
      (columns.aggregateColumnIndices fuel idx).map fun place => (columns.column place).id := by
  induction fuel generalizing path idx with
  | zero =>
      obtain ⟨child, shape, below⟩ := linked.schemaColumn_below path idx 0 found lasts
      have childless : children (columns.column idx).dtype = [] := by
        refine List.eq_nil_iff_forall_not_mem.mpr fun place member => ?_
        obtain ⟨part, stepped⟩ := childByName_of_mem idx place member
        obtain ⟨rest, impossible, _⟩ := below part place stepped
        cases impossible
      rw [shape, Column.treeIds_eq, CatalogColumn.dtype_shownWith,
        CatalogDataType.children_shownWith, childless]
      rfl
  | succ fuel ih =>
      obtain ⟨child, shape, below⟩ := linked.schemaColumn_below path idx (fuel + 1) found lasts
      rw [shape, Column.treeIds_eq, CatalogColumn.dtype_shownWith,
        CatalogDataType.children_shownWith, aggregateColumnIndices, List.map_cons, List.map_flatMap,
        List.flatMap_map]
      refine congrArg ((columns.column idx).id :: ·) (List.flatMap_congr fun place member => ?_)
      obtain ⟨part, stepped⟩ := childByName_of_mem idx place member
      obtain ⟨rest, same, shown, lasts⟩ := below part place stepped
      obtain rfl := Nat.succ_injective same
      rw [shown]
      exact ih (path ++ [part]) place (arenaIdxByPath_append path part idx place found stepped) lasts

/-! ## Every column once -/

theorem Treelike.nodup_children
    (tree : columns.Treelike)
    (idx : ArenaIdx) :
    (children (columns.column idx).dtype).Nodup := by
  cases typed : (columns.column idx).dtype with
  | primitive => exact List.nodup_nil
  | list item => exact List.nodup_singleton item
  | struct fields => exact tree.linked.nodup_values idx fields typed
  | map key value =>
      have apart := tree.maps idx key value typed
      simp [children, apart]

theorem Treelike.nodup_aggregate
    (tree : columns.Treelike)
    (fuel : Nat)
    (path : List Text)
    (idx : ArenaIdx)
    (found : columns.arenaIdxByPath path = .ok idx) :
    (columns.aggregateColumnIndices fuel idx).Nodup := by
  induction fuel generalizing path idx with
  | zero => exact List.nodup_singleton idx
  | succ fuel ih =>
      have reached : ∀ child ∈ children (columns.column idx).dtype, ∃ part,
          columns.childByName idx part = some child ∧
            columns.arenaIdxByPath (path ++ [part]) = .ok child := by
        intro child member
        obtain ⟨part, stepped⟩ := childByName_of_mem idx child member
        exact ⟨part, stepped, arenaIdxByPath_append path part idx child found stepped⟩
      refine List.nodup_cons.mpr ⟨fun below => ?_, List.nodup_flatMap.mpr ⟨?_, ?_⟩⟩
      · obtain ⟨child, member, inside⟩ := List.mem_flatMap.mp below
        obtain ⟨part, _, childFound⟩ := reached child member
        obtain ⟨rest, again⟩ := exists_path_of_mem_aggregate fuel _ child idx childFound inside
        have same := congrArg List.length (tree.path_unique _ _ idx found again)
        simp at same
      · intro child member
        obtain ⟨part, _, childFound⟩ := reached child member
        exact ih _ child childFound
      · refine (tree.nodup_children idx).pairwise_of_forall_ne fun child member other otherMember
          different => ?_
        intro place inside insideOther
        obtain ⟨part, stepped, childFound⟩ := reached child member
        obtain ⟨part', stepped', otherFound⟩ := reached other otherMember
        obtain ⟨rest, down⟩ := exists_path_of_mem_aggregate fuel _ child place childFound inside
        obtain ⟨rest', down'⟩ :=
          exists_path_of_mem_aggregate fuel _ other place otherFound insideOther
        -- both paths lead to the place, so they begin with the same part
        have same := tree.path_unique _ _ place down down'
        simp only [List.append_assoc, List.append_cancel_left_eq, List.cons_append,
          List.nil_append, List.cons.injEq] at same
        obtain ⟨rfl, -⟩ := same
        exact different (Option.some.inj (stepped.symm.trans stepped'))

def shownRoots (columns : CatalogColumns) : List ArenaIdx :=
  columns.rootColumns.values.filter fun idx => columns.byId.contains (columns.column idx).id

theorem Linked.values_schema
    (linked : columns.Linked) :
    columns.schema.columns.values =
      columns.shownRoots.map columns.schemaColumnFromArenaIndex := by
  have names : columns.rootColumns.values.map (fun idx => (columns.column idx).name) =
      columns.rootColumns.keys := by
    rw [IndexMap.values, IndexMap.keys, List.map_map]
    refine List.map_congr_left fun entry member => ?_
    exact (linked.roots entry.1 entry.2 ((IndexMap.get?_eq_some_iff _ _ _).mpr member)).1
  have unique : ((columns.shownRoots.map fun idx =>
      ((columns.column idx).name, columns.schemaColumnFromArenaIndex idx)).map Prod.fst).Nodup := by
    rw [List.map_map]
    refine List.Nodup.sublist (List.filter_sublist.map _) ?_
    change (columns.rootColumns.values.map fun idx => (columns.column idx).name).Nodup
    rw [names]
    exact columns.rootColumns.unique
  change (IndexMap.ofList (columns.shownRoots.map fun idx =>
    ((columns.column idx).name, columns.schemaColumnFromArenaIndex idx))).values = _
  rw [IndexMap.values, IndexMap.ofList_entries_of_nodup _ unique, List.map_map]
  rfl

theorem Treelike.nodup_shown
    (tree : columns.Treelike) :
    (columns.shownRoots.flatMap
      (columns.aggregateColumnIndices columns.arena.length)).Nodup := by
  have rooted : ∀ idx ∈ columns.rootColumns.values, ∃ name,
      columns.arenaIdxByPath [name] = .ok idx := by
    intro idx member
    obtain ⟨name, found⟩ := (IndexMap.mem_values_iff _ _).mp member
    exact ⟨name, (arenaIdxByPath_root name idx).mpr found⟩
  have values : columns.rootColumns.values.Nodup := by
    refine List.Nodup.map_on (fun entry inside other insideOther same => ?_)
      (List.Nodup.of_map _ columns.rootColumns.unique)
    have first := (tree.linked.roots _ _ ((IndexMap.get?_eq_some_iff _ _ _).mpr inside)).1
    have second := (tree.linked.roots _ _ ((IndexMap.get?_eq_some_iff _ _ _).mpr insideOther)).1
    exact Prod.ext (first.symm.trans ((congrArg (fun idx => (columns.column idx).name) same).trans
      second)) same
  refine List.nodup_flatMap.mpr ⟨fun idx member => ?_, ?_⟩
  · obtain ⟨name, found⟩ := rooted idx (List.mem_of_mem_filter member)
    exact tree.nodup_aggregate _ [name] idx found
  · refine (values.filter _).pairwise_of_forall_ne fun idx member other otherMember different => ?_
    intro place inside insideOther
    obtain ⟨name, found⟩ := rooted idx (List.mem_of_mem_filter member)
    obtain ⟨name', found'⟩ := rooted other (List.mem_of_mem_filter otherMember)
    obtain ⟨rest, down⟩ := exists_path_of_mem_aggregate _ _ idx place found inside
    obtain ⟨rest', down'⟩ := exists_path_of_mem_aggregate _ _ other place found' insideOther
    have same := tree.path_unique _ _ place down down'
    simp only [List.cons_append, List.nil_append, List.cons.injEq] at same
    obtain ⟨rfl, -⟩ := same
    exact different (Except.ok.inj (found.symm.trans found'))

theorem Linked.activeColumnIds_eq
    (linked : columns.Linked) :
    Transfer.activeColumnIds columns.schema = (columns.shownRoots.flatMap
      (columns.aggregateColumnIndices columns.arena.length)).map
        fun place => (columns.column place).id := by
  rw [Transfer.activeColumnIds, linked.values_schema, List.flatMap_map, List.filterMap_flatMap,
    List.map_flatMap]
  refine List.flatMap_congr fun idx member => ?_
  obtain ⟨name, found⟩ := (IndexMap.mem_values_iff _ _).mp (List.mem_of_mem_filter member)
  exact linked.treeIds_schemaColumn _ [name] idx ((arenaIdxByPath_root name idx).mpr found)
    (Nat.le_add_left _ _)

theorem Linked.shown_lt
    (linked : columns.Linked)
    (place : ArenaIdx)
    (inside : place ∈ columns.shownRoots.flatMap
      (columns.aggregateColumnIndices columns.arena.length)) :
    place < columns.arena.length := by
  obtain ⟨idx, member, below⟩ := List.mem_flatMap.mp inside
  obtain ⟨name, found⟩ := (IndexMap.mem_values_iff _ _).mp (List.mem_of_mem_filter member)
  exact linked.closed.aggregateColumnIndices _ idx
    (linked.closed.arenaIdxByPath _ _ ((arenaIdxByPath_root name idx).mpr found)) place below

theorem Linked.activeColumnIds_subset
    (linked : columns.Linked) :
    Transfer.activeColumnIds columns.schema ⊆ columns.ids := by
  intro id member
  rw [linked.activeColumnIds_eq] at member
  obtain ⟨place, inside, rfl⟩ := List.mem_map.mp member
  exact List.mem_of_getElem? (getElem?_ids columns place (linked.shown_lt place inside))

theorem Treelike.nodup_activeColumnIds
    (tree : columns.Treelike)
    (unique : columns.ids.Nodup) :
    (Transfer.activeColumnIds columns.schema).Nodup := by
  rw [tree.linked.activeColumnIds_eq]
  refine List.Nodup.map_on (fun place inside other insideOther same => ?_) tree.nodup_shown
  have bounded := tree.linked.shown_lt place inside
  exact (List.getElem?_inj (by rw [length_ids]; exact bounded) unique).mp
    ((getElem?_ids columns place bounded).trans ((congrArg some same).trans
      (getElem?_ids columns other (tree.linked.shown_lt other insideOther)).symm))

end

end CatalogColumns

end Ducklake
