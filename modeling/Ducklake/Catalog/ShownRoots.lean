import Ducklake.Catalog.TreeLinks

/-!
# The shown columns of a table

A table is shown as its root columns by name, without the removed ones.  An edit concerns the root
that its path begins with, and leaves the others as they were.
-/

set_option autoImplicit false

namespace Ducklake

open Lib Spec

namespace CatalogColumns

section

variable {columns before after : CatalogColumns}

/-! ## Roots by name -/

theorem Linked.get?_schema
    (linked : columns.Linked)
    (name : Text) :
    columns.schema.columns.get? name = (columns.rootColumns.get? name).bind fun idx =>
      if columns.byId.contains (columns.column idx).id then
        some (columns.schemaColumnFromArenaIndex idx)
      else none := by
  have root : ∀ idx ∈ columns.rootColumns.values,
      columns.rootColumns.get? (columns.column idx).name = some idx := by
    intro idx member
    obtain ⟨key, found⟩ := (IndexMap.mem_values_iff _ _).mp member
    rwa [(linked.roots key idx found).1]
  refine Option.ext fun column => ?_
  unfold schema
  rw [IndexMap.get?_ofList_of_functional]
  · rw [Option.bind_eq_some_iff, List.mem_map]
    constructor
    · rintro ⟨idx, member, same⟩
      obtain ⟨listed, visible⟩ := List.mem_filter.mp member
      obtain ⟨rfl, rfl⟩ := Prod.mk.inj same
      exact ⟨idx, root idx listed, if_pos visible⟩
    · rintro ⟨idx, found, same⟩
      split at same
      · rename_i visible
        refine ⟨idx, List.mem_filter.mpr ⟨(IndexMap.mem_values_iff _ _).mpr ⟨name, found⟩, visible⟩, ?_⟩
        rw [(linked.roots name idx found).1, Option.some.inj same]
      · cases same
  · intro entry member other memberOther same
    obtain ⟨idx, listed, rfl⟩ := List.mem_map.mp member
    obtain ⟨place, listedOther, rfl⟩ := List.mem_map.mp memberOther
    have found := root idx (List.mem_of_mem_filter listed)
    change (columns.column idx).name = (columns.column place).name at same
    rw [same, root place (List.mem_of_mem_filter listedOther)] at found
    rw [Option.some.inj found]

theorem name_of_get?_schema
    (linked : columns.Linked)
    (name : Text)
    (column : Column)
    (found : columns.schema.columns.get? name = some column) :
    column.name = name := by
  rw [linked.get?_schema] at found
  obtain ⟨idx, rooted, found⟩ := Option.bind_eq_some_iff.mp found
  split at found
  · rw [← Option.some.inj found]
    exact (name_schemaColumn _ _).trans (linked.roots name idx rooted).1
  · cases found

theorem arenaIdxByPath_root
    (name : Text)
    (idx : ArenaIdx) :
    columns.arenaIdxByPath [name] = .ok idx ↔ columns.rootColumns.get? name = some idx := by
  rw [arenaIdxByPath_eq_ok]
  constructor
  · rintro ⟨root, parts, start, same, rooted, walked⟩
    obtain ⟨rfl, rfl⟩ := List.cons.inj same
    obtain rfl : start = idx := Option.some.inj walked
    exact rooted
  · intro rooted
    exact ⟨name, [], idx, rfl, rooted, rfl⟩

theorem lastsBelow_root (columns : CatalogColumns) (name : Text) :
    columns.LastsBelow [name] columns.arena.length :=
  Nat.le_add_left _ _

/-! ## Edits -/

theorem ChangesAt.get?_schema
    {root : Text}
    {rest : List Text}
    {idx : ArenaIdx}
    (changes : ChangesAt before after (root :: rest) idx)
    (tree : before.Treelike)
    (linked : after.Linked)
    (roots : after.rootColumns = before.rootColumns)
    (visible : ∀ name place, before.rootColumns.get? name = some place →
      after.byId.contains (after.column place).id = before.byId.contains (before.column place).id)
    (edit : Column → Column → Prop)
    (edited : ∀ fuel fuel', before.LastsBelow (root :: rest) fuel →
      after.LastsBelow (root :: rest) fuel' →
        edit (before.schemaColumn fuel idx) (after.schemaColumn fuel' idx)) :
    (∀ other, other ≠ root →
      after.schema.columns.get? other = before.schema.columns.get? other) ∧
      ∀ column, before.schema.columns.get? root = some column →
        ∃ column', after.schema.columns.get? root = some column' ∧
          Column.EditAt edit rest column column' := by
  constructor
  · intro other distinct
    rw [linked.get?_schema, tree.linked.get?_schema, roots]
    cases found : before.rootColumns.get? other with
    | none => rfl
    | some place =>
        have reached := (arenaIdxByPath_root other place).mpr found
        have same := changes.apart tree linked [other] place _ _ reached
          (before.lastsBelow_root other) (after.lastsBelow_root other) (by
            rw [List.cons_prefix_cons]
            exact fun within => distinct within.1)
        unfold schemaColumnFromArenaIndex
        rw [Option.bind_some, Option.bind_some, visible other place found, same]
  · intro column shown
    rw [tree.linked.get?_schema] at shown
    obtain ⟨place, found, shown⟩ := Option.bind_eq_some_iff.mp shown
    split at shown
    · rename_i seen
      obtain rfl := Option.some.inj shown
      refine ⟨after.schemaColumnFromArenaIndex place, ?_, ?_⟩
      · rw [linked.get?_schema, roots, found, Option.bind_some, visible root place found, if_pos seen]
      · exact changes.editAt tree linked edit edited rest [root] place _ _ rfl
          ((arenaIdxByPath_root root place).mpr found) (before.lastsBelow_root root)
          (after.lastsBelow_root root)
    · cases shown

/-! ## Ids -/

def IdsAdded (before after : CatalogColumns) : Prop :=
  ∃ added, after.ids = before.ids ++ added ∧
    ∀ id, after.byId.contains id = true ↔ before.byId.contains id = true ∨ id ∈ added

theorem IdsAdded.of_same
    (ids : after.ids = before.ids)
    (byId : after.byId = before.byId) :
    before.IdsAdded after :=
  ⟨[], by rw [ids, List.append_nil], fun id => by simp [byId]⟩

theorem IdsAdded.trans
    {middle : CatalogColumns}
    (first : before.IdsAdded middle)
    (second : middle.IdsAdded after) :
    before.IdsAdded after := by
  obtain ⟨some_, ids, byId⟩ := first
  obtain ⟨more, idsLater, byIdLater⟩ := second
  refine ⟨some_ ++ more, by rw [idsLater, ids, List.append_assoc], fun id => ?_⟩
  rw [byIdLater, byId, List.mem_append, or_assoc]

theorem addColumnToArena_idsAdded
    (column : Column)
    (parent : Option ArenaIdx)
    (preserve : Bool)
    (idxs : List ArenaIdx)
    (success : columns.addColumnToArena column parent preserve = .ok (idxs, after)) :
    columns.IdsAdded after := by
  obtain ⟨grown, steps, success⟩ := bind_eq_ok.mp success
  obtain ⟨_, rfl⟩ := Prod.mk.inj (Except.ok.inj success)
  refine foldlM_invariant columns.IdsAdded (.of_same rfl rfl) ?_ steps
  intro before position later _ held stepped
  refine held.trans ?_
  obtain ⟨dtype, id, taken, _, ⟨arena, _, byId⟩, rfl⟩ :=
    addFlattenedColumn_pushes _ _ _ _ before later position.1 position.2 stepped
  refine ⟨[id], ?_, fun other => ?_⟩
  · simp [pushColumn, ids, arena]
  · change (taken.byId.insert id taken.arena.length).contains other = true ↔ _
    unfold IndexMap.contains
    rw [IndexMap.get?_insert, byId, List.mem_singleton]
    split
    · rename_i same
      simp [same]
    · rename_i different
      simp [different]

theorem Adding.idsAdded
    {parent : Option ArenaIdx}
    {column : Column}
    {grown : CatalogColumns}
    {named : IndexMap Text ArenaIdx}
    (adding : columns.Adding parent column after grown named) :
    columns.IdsAdded after := by
  rw [adding.added]
  exact (addColumnToArena_idsAdded column parent false _ adding.placed).trans
    (.of_same (ids_setSiblings _ _ _).1 (byId_setSiblings _ _ _))

theorem IdsAdded.contains
    (added : before.IdsAdded after)
    (unique : after.ids.Nodup)
    (idx : ArenaIdx)
    (inside : idx < before.arena.length) :
    after.byId.contains (before.column idx).id = before.byId.contains (before.column idx).id := by
  obtain ⟨more, ids, byId⟩ := added
  rw [ids] at unique
  have old : (before.column idx).id ∈ before.ids :=
    List.mem_of_getElem? (getElem?_ids before idx inside)
  have fresh : (before.column idx).id ∉ more := fun new =>
    List.disjoint_of_nodup_append unique old new
  rw [Bool.eq_iff_iff, byId]
  exact or_iff_left fresh

/-! ## Removals -/

theorem contains_foldl_erase
    (deletions : List ArenaIdx)
    (idOf : ArenaIdx → Int)
    (byId : IndexMap Int ArenaIdx)
    (id : Int) :
    (deletions.foldl (fun byId idx => byId.erase (idOf idx)) byId).contains id = true ↔
      byId.contains id = true ∧ id ∉ deletions.map idOf := by
  induction deletions generalizing byId with
  | nil => simp
  | cons first rest ih =>
      rw [List.foldl_cons, ih, List.map_cons, List.mem_cons, not_or]
      unfold IndexMap.contains
      rw [IndexMap.get?_erase]
      by_cases same : id = idOf first
      · simp [same]
      · simp [same]

theorem exists_path_of_mem_aggregate
    (fuel : Nat)
    (path : List Text)
    (idx place : ArenaIdx)
    (found : columns.arenaIdxByPath path = .ok idx)
    (member : place ∈ columns.aggregateColumnIndices fuel idx) :
    ∃ rest, columns.arenaIdxByPath (path ++ rest) = .ok place := by
  induction fuel generalizing path idx with
  | zero =>
      rw [List.mem_singleton.mp member]
      exact ⟨[], by rw [List.append_nil]; exact found⟩
  | succ fuel ih =>
      rcases List.mem_cons.mp member with rfl | below
      · exact ⟨[], by rw [List.append_nil]; exact found⟩
      · obtain ⟨child, listed, inside⟩ := List.mem_flatMap.mp below
        obtain ⟨part, stepped⟩ := childByName_of_mem idx child listed
        obtain ⟨rest, reached⟩ := ih (path ++ [part]) child
          (arenaIdxByPath_append path part idx child found stepped) inside
        exact ⟨part :: rest, by rwa [List.append_assoc] at reached⟩

theorem schemaColumn_of_arena
    (before after : CatalogColumns)
    (arena : after.arena = before.arena)
    (fuel : Nat)
    (idx : ArenaIdx) :
    after.schemaColumn fuel idx = before.schemaColumn fuel idx := by
  have column : after.column = before.column := by
    funext idx
    unfold CatalogColumns.column
    rw [arena]
  induction fuel generalizing idx with
  | zero =>
      unfold schemaColumn
      rw [column]
  | succ fuel ih =>
      rw [schemaColumn_succ, schemaColumn_succ, column]
      exact shownWith_congr _ _ _ fun place _ => ih place

theorem Treelike.get?_schema_removeColumn
    (tree : columns.Treelike)
    (unique : columns.ids.Nodup)
    (path : List Text)
    (idx : ArenaIdx)
    (found : columns.arenaIdxByPath path = .ok idx)
    (name : Text) :
    (columns.removeColumn idx).2.schema.columns.get? name =
      if path = [name] then none else columns.schema.columns.get? name := by
  have linked := removeColumn_linked tree.linked idx
  rw [linked.get?_schema, tree.linked.get?_schema]
  have trees : (columns.removeColumn idx).2.schemaColumnFromArenaIndex =
      columns.schemaColumnFromArenaIndex := by
    funext place
    exact schemaColumn_of_arena columns (columns.removeColumn idx).2 rfl _ place
  rw [trees]
  change (columns.rootColumns.get? name).bind (fun place =>
    if (columns.removeColumn idx).2.byId.contains (columns.column place).id then
      some (columns.schemaColumnFromArenaIndex place) else none) = _
  cases rooted : columns.rootColumns.get? name with
  | none => simp
  | some place =>
      have reached := (arenaIdxByPath_root name place).mpr rooted
      have deleted : (columns.column place).id ∈ (columns.aggregateColumnIndices
          columns.arena.length idx).map (fun idx => (columns.column idx).id) ↔ path = [name] := by
        constructor
        · intro member
          obtain ⟨other, listed, same⟩ := List.mem_map.mp member
          obtain ⟨rest, reachedOther⟩ := exists_path_of_mem_aggregate _ path idx other found listed
          have inside := tree.linked.closed.arenaIdxByPath _ _ reachedOther
          have positions := (List.getElem?_inj (by rwa [length_ids]) unique).mp
            ((getElem?_ids columns other inside).trans ((congrArg some same).trans
              (getElem?_ids columns place (tree.linked.root_lt name place rooted)).symm))
          subst positions
          have paths := tree.path_unique _ _ _ reachedOther reached
          cases path with
          | nil => cases found
          | cons root parts =>
              obtain ⟨rfl, more⟩ := List.cons.inj paths
              rw [(List.append_eq_nil_iff.mp more).1]
        · rintro rfl
          obtain rfl := Except.ok.inj (found.symm.trans reached)
          refine List.mem_map_of_mem ?_
          unfold aggregateColumnIndices
          split <;> simp
      have visible := contains_foldl_erase (columns.aggregateColumnIndices columns.arena.length idx)
        (fun idx => (columns.column idx).id) columns.byId (columns.column place).id
      rw [deleted] at visible
      rw [Option.bind_some, Option.bind_some]
      by_cases removed : path = [name]
      · rw [if_pos removed, if_neg]
        exact fun seen => (visible.mp seen).2 removed
      · rw [if_neg removed]
        congr 1
        exact propext (visible.trans (and_iff_left removed))

/-! ## New roots -/

theorem Adding.get?_schema
    {column : Column}
    {grown : CatalogColumns}
    {named : IndexMap Text ArenaIdx}
    (adding : columns.Adding none column after grown named)
    (tree : columns.Treelike)
    (linked : after.Linked)
    (unique : after.ids.Nodup) :
    (∀ other, other ≠ column.name →
      after.schema.columns.get? other = columns.schema.columns.get? other) ∧
      ∃ copy, after.schema.columns.get? column.name = some copy ∧ DataType.Copies column copy := by
  have roots : after.rootColumns =
      columns.rootColumns.insert column.name columns.arena.length := by
    have siblings := Except.ok.inj adding.found
    rw [adding.added, rootColumns_setSiblings, if_pos rfl, ← siblings]
  have old : ∀ path place, columns.arenaIdxByPath path = .ok place →
      after.column place = columns.column place := fun path place reached =>
    adding.column_of_lt place (tree.linked.closed.arenaIdxByPath path place reached) nofun
  constructor
  · intro other distinct
    rw [linked.get?_schema, tree.linked.get?_schema, roots,
      IndexMap.get?_insert_of_ne _ _ _ _ distinct]
    cases found : columns.rootColumns.get? other with
    | none => rfl
    | some place =>
        have reached := (arenaIdxByPath_root other place).mpr found
        have reachedAfter : after.arenaIdxByPath [other] = .ok place := by
          rw [arenaIdxByPath_root, roots, IndexMap.get?_insert_of_ne _ _ _ _ distinct, found]
        have same := schemaColumn_congr tree.linked linked [other] place _ _ reached reachedAfter
          (columns.lastsBelow_root other) (after.lastsBelow_root other) fun rest => old _
        rw [Option.bind_some, Option.bind_some, old _ _ reached, adding.idsAdded.contains unique place
          (tree.linked.root_lt other place found)]
        unfold schemaColumnFromArenaIndex
        rw [same]
  · have inside : columns.arena.length < after.arena.length := by
      have positive := column.size_pos
      rw [adding.length]
      omega
    obtain ⟨more, ids, byId⟩ := adding.idsAdded
    have new : (after.column columns.arena.length).id ∈ more := by
      have entry := getElem?_ids after columns.arena.length inside
      rw [ids, List.getElem?_append_right (Nat.le_of_eq (length_ids columns))] at entry
      exact List.mem_of_getElem? entry
    refine ⟨after.schemaColumnFromArenaIndex columns.arena.length, ?_, ?_⟩
    · rw [linked.get?_schema, roots, IndexMap.get?_insert_self, Option.bind_some,
        if_pos ((byId _).mpr (Or.inr new))]
    · refine adding.copies _ ?_
      rw [adding.length]
      omega

/-! ## Modified roots -/

/-- A change of what a root says about itself is seen there, and nowhere else. -/
theorem Treelike.get?_schema_modifyColumn
    (tree : columns.Treelike)
    (root : Text)
    (idx : ArenaIdx)
    (update : CatalogColumn → CatalogColumn)
    (found : columns.arenaIdxByPath [root] = .ok idx)
    (linked : (columns.modifyColumn idx update).Linked)
    (same : ∀ column, (update column).name = column.name ∧ (update column).dtype = column.dtype ∧
      (update column).id = column.id) :
    (∀ other, other ≠ root → (columns.modifyColumn idx update).schema.columns.get? other =
      columns.schema.columns.get? other) ∧
      ∀ column, columns.schema.columns.get? root = some column → ∃ column',
        (columns.modifyColumn idx update).schema.columns.get? root = some column' ∧
          column'.dtype = column.dtype ∧
          column'.nullable = (update (columns.column idx)).nullable ∧
          column'.defaultValue = (update (columns.column idx)).defaultValue := by
  have inside := tree.linked.closed.arenaIdxByPath [root] idx found
  have self := column_modifyColumn_self columns idx update inside
  have dtypes : ∀ place, ((columns.modifyColumn idx update).column place).dtype =
      (columns.column place).dtype := fun place =>
    map_column_modifyColumn _ _ _ _ CatalogColumn.dtype (same _).2.1
  have steps : (columns.modifyColumn idx update).childByName = columns.childByName := by
    funext place part
    unfold childByName
    rw [dtypes]
  have changes : ChangesAt columns (columns.modifyColumn idx update) [root] idx := {
    found := found
    paths := fun path place reached => by
      rw [arenaIdxByPath_eq_ok] at reached ⊢
      rwa [steps]
    others := fun _ place _ distinct => column_modifyColumn_of_ne _ _ _ _ distinct }
  obtain ⟨others, edits⟩ := changes.get?_schema tree linked rfl (fun _ place _ => by
      rw [map_column_modifyColumn _ _ _ _ CatalogColumn.id (same _).2.2]
      rfl) (fun column column' => column'.dtype = column.dtype ∧
        column'.nullable = (update (columns.column idx)).nullable ∧
        column'.defaultValue = (update (columns.column idx)).defaultValue)
    fun fuel fuel' lasts lasts' => by
      obtain ⟨shown, shape, below⟩ := tree.linked.schemaColumn_below [root] idx fuel found lasts
      obtain ⟨shown', shape', below'⟩ := linked.schemaColumn_below [root] idx fuel'
        (changes.paths _ _ found) lasts'
      have kept : ∀ place ∈ children (columns.column idx).dtype, shown' place = shown place := by
        intro place member
        obtain ⟨part, stepped⟩ := childByName_of_mem idx place member
        obtain ⟨rest, _, is, lasts⟩ := below part place stepped
        obtain ⟨rest', _, is', lasts'⟩ := below' part place (by rw [steps]; exact stepped)
        rw [is, is']
        refine changes.apart tree linked ([root] ++ [part]) place rest rest'
          (arenaIdxByPath_append _ _ _ _ found stepped) lasts lasts' fun within => ?_
        exact absurd within.length_le (by simp)
      have whole := shownWith_congr (columns.column idx) shown' shown kept
      rw [shape, shape', self, CatalogColumn.dtype_shownWith, CatalogColumn.dtype_shownWith,
        (same _).2.1]
      exact ⟨congrArg Column.dtype whole, rfl, rfl⟩
  refine ⟨others, fun column shown => ?_⟩
  obtain ⟨column', shown', edit⟩ := edits column shown
  cases edit with
  | here facts => exact ⟨column', shown', facts⟩

theorem described_schemaColumn (fuel : Nat) (idx : ArenaIdx) :
    (columns.schemaColumn fuel idx).nullable = (columns.column idx).nullable ∧
      (columns.schemaColumn fuel idx).defaultValue = (columns.column idx).defaultValue := by
  obtain ⟨child, shape, _⟩ := @schemaColumn_eq columns fuel idx
  rw [shape]
  exact ⟨rfl, rfl⟩

theorem Linked.eq_of_get?_schema
    (linked : columns.Linked)
    (root : Text)
    (idx : ArenaIdx)
    (column : Column)
    (found : columns.arenaIdxByPath [root] = .ok idx)
    (shown : columns.schema.columns.get? root = some column) :
    column = columns.schemaColumnFromArenaIndex idx := by
  rw [linked.get?_schema, (arenaIdxByPath_root root idx).mp found, Option.bind_some] at shown
  split at shown
  · exact (Option.some.inj shown).symm
  · cases shown

end

end CatalogColumns

end Ducklake
