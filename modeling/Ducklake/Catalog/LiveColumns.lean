import Ducklake.Catalog.ColumnViews
import Ducklake.Catalog.LoadedTables

/-!
# Live columns

All columns of new and of loaded tables are live.  They stay so when columns are added, renamed
and given wider types, unless the fields of an added column hide each other.
-/

set_option autoImplicit false

namespace Ducklake

open Lib Spec

namespace CatalogColumns

section

variable {columns after : CatalogColumns} {next : Int}

/-! ## The id index -/

theorem Indexed.of_same
    (indexed : columns.Indexed)
    (ids : after.ids = columns.ids)
    (byId : after.byId = columns.byId) :
    after.Indexed := by
  unfold Indexed
  rw [ids, byId]
  exact indexed

theorem Numbered.of_same
    (numbered : columns.Numbered next)
    (ids : after.ids = columns.ids)
    (byId : after.byId = columns.byId)
    (counter : after.nextColumnId.getD next = columns.nextColumnId.getD next) :
    after.Numbered next where
  unique := ids ▸ numbered.unique
  indexed := numbered.indexed.of_same ids byId
  counter := by
    rw [ids, counter]
    exact numbered.counter

theorem new_indexed (nextColumnId : Option Int) : (new nextColumnId).Indexed := by
  intro _ id idx
  simp [new, CatalogColumns.ids]

theorem Indexed.push
    (indexed : columns.Indexed)
    (column : CatalogColumn)
    (arena : after.arena = columns.arena ++ [column])
    (byId : after.byId = columns.byId.insert column.id columns.arena.length) :
    after.Indexed := by
  intro unique id idx
  have ids : after.ids = columns.ids ++ [column.id] := by
    simp [CatalogColumns.ids, arena]
  rw [ids, List.nodup_append] at unique
  have known := indexed unique.1
  have fresh : column.id ∉ columns.ids := fun member =>
    unique.2.2 _ member _ (List.mem_singleton.mpr rfl) rfl
  rw [ids, byId, IndexMap.get?_insert]
  by_cases inside : idx < columns.arena.length
  · rw [List.getElem?_append_left (by rwa [length_ids])]
    by_cases same : id = column.id
    · rw [if_pos same]
      constructor
      · intro last
        exact absurd (Option.some.inj last) (Nat.ne_of_gt inside)
      · intro found
        exact absurd (same ▸ List.mem_of_getElem? found) fresh
    · rw [if_neg same]
      exact known id idx
  · have outside := Nat.le_of_not_lt inside
    have missing : ¬columns.byId.get? id = some idx := by
      rw [known, List.getElem?_eq_none (by rwa [length_ids])]
      simp
    rw [List.getElem?_append_right (by rwa [length_ids]), length_ids]
    by_cases same : id = column.id
    · rw [if_pos same, same, List.getElem?_singleton, Option.some_inj]
      constructor
      · rintro rfl
        simp
      · intro found
        split at found
        · rename_i start
          exact Nat.le_antisymm outside (Nat.le_of_sub_eq_zero start)
        · cases found
    · rw [if_neg same, List.getElem?_singleton]
      constructor
      · intro found
        exact absurd found missing
      · intro found
        split at found
        · exact absurd (Option.some.inj found).symm same
        · cases found

theorem addFlattenedColumn_indexed
    (first : ArenaIdx)
    (whole : List FlattenedColumn)
    (parent : Option ArenaIdx)
    (preserve : Bool)
    (position : Nat × FlattenedColumn)
    (indexed : columns.Indexed)
    (success : addFlattenedColumn first whole parent preserve columns position = .ok after) :
    after.Indexed := by
  obtain ⟨dtype, id, taken, _, ⟨arena, _, byId⟩, rfl⟩ :=
    addFlattenedColumn_pushes first whole parent preserve columns after position.1 position.2 success
  refine indexed.push _ (congrArg (· ++ _) arena) ?_
  rw [← arena, ← byId]
  rfl

theorem addColumnToArena_indexed
    (column : Column)
    (parent : Option ArenaIdx)
    (preserve : Bool)
    (idxs : List ArenaIdx)
    (indexed : columns.Indexed)
    (success : columns.addColumnToArena column parent preserve = .ok (idxs, after)) :
    after.Indexed := by
  obtain ⟨grown, steps, success⟩ := bind_eq_ok.mp success
  obtain ⟨_, rfl⟩ := Prod.mk.inj (Except.ok.inj success)
  exact foldlM_invariant Indexed indexed (fun _ position _ _ held stepped =>
    addFlattenedColumn_indexed _ _ _ _ position held stepped) steps

theorem byId_setSiblings
    (columns : CatalogColumns)
    (parent : Option ArenaIdx)
    (named : IndexMap Text ArenaIdx) :
    (columns.setSiblings parent named).byId = columns.byId := by
  unfold setSiblings
  split <;> rfl

theorem setSiblings_indexed
    (parent : Option ArenaIdx)
    (named : IndexMap Text ArenaIdx)
    (indexed : columns.Indexed) :
    (columns.setSiblings parent named).Indexed :=
  indexed.of_same (ids_setSiblings columns parent named).1 (byId_setSiblings columns parent named)

theorem addColumn_numbered
    (parent : Option ArenaIdx)
    (column : Column)
    (idxs : List ArenaIdx)
    (closed : columns.Closed)
    (numbered : columns.Numbered next)
    (success : columns.addColumn parent column = .ok (idxs, after)) :
    after.Numbered next := by
  obtain ⟨_, _, counter, counted, countedLater, ids⟩ :=
    addColumn_ids parent column idxs closed success
  obtain ⟨grown, named, adding⟩ := addColumn_eq_ok column idxs success
  have below : ∀ id ∈ columns.ids, id < counter := by
    have known := numbered.counter
    rwa [counted, Option.getD_some] at known
  refine ⟨?_, ?_, ?_⟩
  · rw [ids, List.nodup_append]
    refine ⟨numbered.unique, ?_, ?_⟩
    · refine List.Nodup.map (fun a b same => ?_) List.nodup_range
      omega
    · intro old member new added
      obtain ⟨offset, _, rfl⟩ := List.mem_map.mp added
      have bound := below old member
      omega
  · rw [adding.added]
    exact setSiblings_indexed _ _
      (addColumnToArena_indexed column parent false _ numbered.indexed adding.placed)
  · rw [countedLater, ids]
    intro id member
    rw [Option.getD_some]
    rcases List.mem_append.mp member with old | new
    · have bound := below id old
      omega
    · obtain ⟨offset, inside, rfl⟩ := List.mem_map.mp new
      have bound := List.mem_range.mp inside
      omega

theorem name_setSiblings
    (columns : CatalogColumns)
    (parent : Option ArenaIdx)
    (named : IndexMap Text ArenaIdx)
    (idx : ArenaIdx) :
    ((columns.setSiblings parent named).column idx).name = (columns.column idx).name := by
  unfold setSiblings
  split
  · rfl
  · exact map_column_modifyColumn _ _ _ _ CatalogColumn.name rfl

theorem parentColumn_setSiblings
    (columns : CatalogColumns)
    (parent : Option ArenaIdx)
    (named : IndexMap Text ArenaIdx)
    (idx : ArenaIdx) :
    ((columns.setSiblings parent named).column idx).parentColumn =
      (columns.column idx).parentColumn := by
  unfold setSiblings
  split
  · rfl
  · exact map_column_modifyColumn _ _ _ _ CatalogColumn.parentColumn rfl

theorem dtype_setSiblings_self
    (columns : CatalogColumns)
    (above : ArenaIdx)
    (named : IndexMap Text ArenaIdx)
    (inside : above < columns.arena.length) :
    ((columns.setSiblings (some above) named).column above).dtype = .struct named :=
  congrArg CatalogColumn.dtype (column_modifyColumn_self columns above _ inside)

theorem dtype_setSiblings_of_ne
    (columns : CatalogColumns)
    (parent : Option ArenaIdx)
    (named : IndexMap Text ArenaIdx)
    (idx : ArenaIdx)
    (distinct : parent ≠ some idx) :
    ((columns.setSiblings parent named).column idx).dtype = (columns.column idx).dtype := by
  unfold setSiblings
  split
  · rfl
  · rename_i above
    rw [column_modifyColumn_of_ne]
    rintro rfl
    exact distinct rfl

theorem rootColumns_setSiblings
    (columns : CatalogColumns)
    (parent : Option ArenaIdx)
    (named : IndexMap Text ArenaIdx) :
    (columns.setSiblings parent named).rootColumns =
      if parent = none then named else columns.rootColumns := by
  cases parent with
  | none => rfl
  | some above => rfl

theorem length_setSiblings
    (columns : CatalogColumns)
    (parent : Option ArenaIdx)
    (named : IndexMap Text ArenaIdx) :
    (columns.setSiblings parent named).arena.length = columns.arena.length := by
  cases parent with
  | none => rfl
  | some above => exact length_modifyColumn _ _ _

/-! ## Rename -/

theorem Renaming.live
    {idx : ArenaIdx}
    {newName : Text}
    {named : IndexMap Text ArenaIdx}
    (renames : columns.Renaming idx newName after named)
    (success : columns.renameColumn idx newName = .ok after)
    (live : columns.Live next)
    (inside : idx < columns.arena.length) :
    after.Live next := by
  have linked := live.rooted.linked
  obtain ⟨_, ids, counter⟩ := renameColumn_ids idx newName linked.closed inside success
  have size : after.arena.length = columns.arena.length := by
    rw [← length_ids, ids, length_ids]
  have byId : after.byId = columns.byId := by
    rw [renames.renamed]
    exact byId_setSiblings _ _ _
  have self : ∀ above, (columns.column idx).parentColumn = some above →
      idx ∈ CatalogColumns.children (columns.column above).dtype := by
    intro above parent
    rcases live.rooted.reached idx inside with ⟨root, _⟩ | ⟨other, parentOther, child⟩
    · rw [root] at parent
      cases parent
    · rw [parentOther] at parent
      cases parent
      exact child
  refine ⟨live.numbered.of_same ids byId (by rw [counter]),
    renameColumn_linked idx newName linked inside success, ?_, ?_⟩
  · intro other bound
    rw [size] at bound
    rw [renames.parentColumn other]
    rcases live.rooted.reached other bound with ⟨root, rooted⟩ | ⟨above, parent, child⟩
    · refine Or.inl ⟨root, ?_⟩
      rw [renames.rootColumns]
      by_cases same : other = idx
      · subst same
        rw [if_pos root, renames.name_self inside, renames.get?, if_pos rfl]
      · rw [renames.name_of_ne other same]
        split
        · rename_i rootIdx
          have found := renames.found
          rw [rootIdx] at found
          cases found
          have notNew : (columns.column other).name ≠ newName := fun taken =>
            renames.fresh (List.mem_map_of_mem (taken ▸
              (IndexMap.get?_eq_some_iff _ _ _).mp rooted))
          have notOld : (columns.column other).name ≠ (columns.column idx).name := by
            intro taken
            rcases live.rooted.reached idx inside with ⟨_, rootedIdx⟩ | ⟨_, parent, _⟩
            · rw [← taken, rooted] at rootedIdx
              exact same (Option.some.inj rootedIdx)
            · rw [rootIdx] at parent
              cases parent
          rw [renames.get?, if_neg notNew, if_neg notOld]
          exact rooted
        · exact rooted
    · refine Or.inr ⟨above, parent, ?_⟩
      by_cases affected : (columns.column idx).parentColumn = some above
      · obtain ⟨typed, typedLater⟩ := renames.dtype_parent above affected
        rw [typedLater]
        rw [typed] at child
        obtain ⟨key, found⟩ := (IndexMap.mem_values_iff _ _).mp child
        by_cases same : other = idx
        · exact (IndexMap.mem_values_iff _ _).mpr
            ⟨newName, by rw [renames.get?, if_pos rfl, same]⟩
        · have notNew : key ≠ newName := fun taken =>
            renames.fresh (List.mem_map_of_mem (taken ▸
              (IndexMap.get?_eq_some_iff _ _ _).mp found))
          have notOld : key ≠ (columns.column idx).name := by
            intro taken
            have child := self above affected
            rw [typed] at child
            obtain ⟨keyIdx, foundIdx⟩ := (IndexMap.mem_values_iff _ _).mp child
            have nameIdx := linked.fields above named typed keyIdx idx foundIdx
            rw [taken, nameIdx, foundIdx] at found
            exact same (Option.some.inj found).symm
          exact (IndexMap.mem_values_iff _ _).mpr
            ⟨key, by rw [renames.get?, if_neg notNew, if_neg notOld, found]⟩
      · rw [renames.dtype_of_ne above affected]
        exact child
  · intro above child member
    refine live.rooted.below above child ?_
    by_cases affected : (columns.column idx).parentColumn = some above
    · obtain ⟨typed, typedLater⟩ := renames.dtype_parent above affected
      rw [typedLater] at member
      obtain ⟨key, found⟩ := (IndexMap.mem_values_iff _ _).mp member
      rw [renames.get?] at found
      split at found
      · cases found
        exact self above affected
      · split at found
        · cases found
        · rw [typed]
          exact (IndexMap.mem_values_iff _ _).mpr ⟨key, found⟩
    · rw [renames.dtype_of_ne above affected] at member
      exact member

/-! ## Retype -/

theorem Live.retype
    (live : columns.Live next)
    (idx : ArenaIdx)
    (source type : PrimitiveType)
    (typed : (columns.column idx).dtype = .primitive source) :
    (columns.modifyColumn idx fun column => { column with dtype := .primitive type }).Live next := by
  have children := fun other => map_column_modifyColumn columns idx other
    (fun column => { column with dtype := .primitive type })
    (fun column => CatalogColumns.children column.dtype) (by simp [typed, CatalogColumns.children])
  have name := fun other => map_column_modifyColumn columns idx other
    (fun column => { column with dtype := .primitive type }) CatalogColumn.name rfl
  have parent := fun other => map_column_modifyColumn columns idx other
    (fun column => { column with dtype := .primitive type }) CatalogColumn.parentColumn rfl
  refine ⟨live.numbered.of_same (ids_modifyColumn _ _ _ fun _ => rfl) rfl rfl,
    live.rooted.linked.modifyColumn idx _ rfl rfl ?_ ?_, ?_, ?_⟩
  · intro child impossible
    cases impossible
  · intro fields impossible
    cases impossible
  · intro other inside
    rw [length_modifyColumn] at inside
    rw [parent, name]
    rcases live.rooted.reached other inside with root | ⟨above, isParent, child⟩
    · exact Or.inl root
    · exact Or.inr ⟨above, isParent, by rw [children above]; exact child⟩
  · intro above child member
    rw [children above] at member
    exact live.rooted.below above child member

/-! ## Add -/

section

variable {first : ArenaIdx} {parent : Option ArenaIdx} {root : Column}

theorem Laid.child_below
    (laid : columns.Laid first parent root)
    (last : first + root.size = columns.arena.length)
    (above child : ArenaIdx)
    (low : first ≤ above)
    (member : child ∈ CatalogColumns.children (columns.column above).dtype) :
    above < child := by
  have inside : above < columns.arena.length := by
    by_contra outside
    rw [column_of_length_le _ _ (Nat.le_of_not_lt outside)] at member
    cases member
  have split : first + (above - first) = above := Nat.add_sub_cancel' low
  obtain ⟨_, column, piece, _, _, entry⟩ := laid.entry_of_position (above - first)
    (Nat.sub_lt_left_of_lt_add low (last ▸ inside))
  rw [← split] at member
  have listed := mem_children_flatDataType _ _ _ entry.dtype child member
  rw [piece.positions] at listed
  obtain ⟨start, inStarts, rfl⟩ := List.mem_map.mp listed
  obtain ⟨front, _, _, _, rfl⟩ := (Column.mem_starts_iff _ _ _).mp inStarts
  refine Nat.lt_of_le_of_lt (Nat.le_of_eq split.symm) (Nat.add_lt_add_left ?_ first)
  omega

/-- Without fields of one name, every entry of a tree but its root is a child of another. -/
theorem Laid.child_of_distinct
    (laid : columns.Laid first parent root)
    (distinct : root.distinctFields = true)
    (position : Nat)
    (inside : position < root.size)
    (nested : position ≠ 0) :
    ∃ above, first ≤ above ∧ (columns.column (first + position)).parentColumn = some above ∧
      first + position ∈ CatalogColumns.children (columns.column above).dtype := by
  obtain ⟨parentIndex, column, piece, place, _, entry⟩ := laid.entry_of_position position inside
  rcases place with ⟨start, _⟩ | ⟨index, rfl⟩
  · exact absurd start nested
  · have parentColumn : (columns.column (first + position)).parentColumn = some (first + index) :=
      entry.parentColumn
    have before := piece.above index rfl
    obtain ⟨_, above, pieceAbove, _, distinctAbove, entryAbove⟩ :=
      laid.entry_of_position index (Nat.lt_trans before inside)
    refine ⟨first + index, Nat.le_add_right _ _, parentColumn, ?_⟩
    have listed : position ∈ Column.positionsBelow index 0 root.flatten := by
      rw [Column.positionsBelow, List.mem_filterMap]
      refine ⟨(⟨column, some index⟩, position), ?_, if_pos rfl⟩
      rw [List.mem_iff_getElem?]
      exact ⟨position, by simp [piece.root]⟩
    have full : ((Column.positionsBelow index 0 root.flatten).map (first + ·)).length =
        above.dtype.children.length := by
      rw [List.length_map, pieceAbove.positions, Column.length_starts]
    rw [children_of_distinct above.dtype _ _ full
      ((Column.distinctFields_iff above).mp (distinctAbove distinct)).1 entryAbove.dtype]
    exact List.mem_map_of_mem listed

end

theorem Rooted.add
    {parent : Option ArenaIdx}
    {grown : CatalogColumns}
    {named : IndexMap Text ArenaIdx}
    {idxs : List ArenaIdx}
    (rooted : columns.Rooted)
    (column : Column)
    (preserve : Bool)
    (found : columns.siblings parent = .ok named)
    (fresh : column.name ∉ named.keys)
    (placed : columns.addColumnToArena column parent preserve = .ok (idxs, grown))
    (siblings : grown.siblings parent = .ok named)
    (distinct : column.distinctFields = true) :
    (grown.setSiblings parent (named.insert column.name columns.arena.length)).Rooted := by
  obtain ⟨_, continues, size, roots, _⟩ := addColumnToArena_eq_ok _ _ _ _ _ _ placed
  have laid := addColumnToArena_laid _ _ _ _ _ _ placed
  have old : ∀ idx, idx < columns.arena.length → grown.column idx = columns.column idx :=
    continues.column
  have inserted : ∀ key idx, named.get? key = some idx →
      (named.insert column.name columns.arena.length).get? key = some idx := by
    intro key idx found
    rw [IndexMap.get?_insert_of_ne _ _ _ _ ?_]
    · exact found
    · rintro rfl
      exact fresh (List.mem_map_of_mem ((IndexMap.get?_eq_some_iff _ _ _).mp found))
  have own : column.name = column.name ∧
      (named.insert column.name columns.arena.length).get? column.name =
        some columns.arena.length := ⟨rfl, IndexMap.get?_insert_self _ _ _⟩
  have above_lt : ∀ above, parent = some above → above < columns.arena.length ∧
      (columns.column above).dtype = .struct named := by
    rintro above rfl
    exact siblings_lt named above found
  have root := laid.entries 0 ⟨column, none⟩ (Column.pieceOf_flatten column).root
  refine ⟨rooted.linked.add column preserve placed siblings, ?_, ?_⟩
  · intro idx inside
    rw [length_setSiblings, size] at inside
    rw [parentColumn_setSiblings, name_setSiblings, rootColumns_setSiblings]
    by_cases before : idx < columns.arena.length
    · rw [old idx before]
      rcases rooted.reached idx before with ⟨isRoot, top⟩ | ⟨above, isParent, child⟩
      · refine Or.inl ⟨isRoot, ?_⟩
        split
        · rename_i atTop
          subst atTop
          cases found
          exact inserted _ idx top
        · rw [roots]
          exact top
      · refine Or.inr ⟨above, isParent, ?_⟩
        by_cases affected : parent = some above
        · obtain ⟨bound, typed⟩ := above_lt above affected
          rw [affected, dtype_setSiblings_self _ _ _ (Nat.lt_of_lt_of_le bound continues.length_le)]
          rw [typed] at child
          obtain ⟨key, found⟩ := (IndexMap.mem_values_iff _ _).mp child
          exact (IndexMap.mem_values_iff _ _).mpr ⟨key, inserted key idx found⟩
        · rw [dtype_setSiblings_of_ne _ _ _ _ affected,
            old above (Nat.lt_trans (rooted.below above idx child) before)]
          exact child
    · have split : columns.arena.length + (idx - columns.arena.length) = idx :=
        Nat.add_sub_cancel' (Nat.le_of_not_lt before)
      by_cases start : idx - columns.arena.length = 0
      · rw [start] at split
        subst split
        rw [root.parentColumn, root.name]
        cases parent with
        | none => exact Or.inl ⟨rfl, own.2⟩
        | some above =>
            obtain ⟨bound, _⟩ := above_lt above rfl
            refine Or.inr ⟨above, rfl, ?_⟩
            rw [dtype_setSiblings_self _ _ _ (Nat.lt_of_lt_of_le bound continues.length_le)]
            exact (IndexMap.mem_values_iff _ _).mpr ⟨column.name, own.2⟩
      · obtain ⟨above, low, isParent, child⟩ := laid.child_of_distinct distinct
          (idx - columns.arena.length)
          (Nat.sub_lt_left_of_lt_add (Nat.le_of_not_lt before) inside) start
        rw [split] at isParent child
        refine Or.inr ⟨above, isParent, ?_⟩
        rw [dtype_setSiblings_of_ne]
        · exact child
        · intro affected
          exact absurd (above_lt above affected).1 (Nat.not_lt.mpr low)
  · intro above child member
    by_cases affected : parent = some above
    · obtain ⟨bound, typed⟩ := above_lt above affected
      rw [affected, dtype_setSiblings_self _ _ _
        (Nat.lt_of_lt_of_le bound continues.length_le)] at member
      rcases mem_values_insert _ _ _ _ member with rfl | known
      · exact bound
      · refine rooted.below above child ?_
        rw [typed]
        exact known
    · rw [dtype_setSiblings_of_ne _ _ _ _ affected] at member
      by_cases before : above < columns.arena.length
      · rw [old above before] at member
        exact rooted.below above child member
      · exact laid.child_below size.symm above child (Nat.le_of_not_lt before) member

/-! ## New tables -/

theorem new_rooted (nextColumnId : Option Int) : (new nextColumnId).Rooted where
  linked := new_linked nextColumnId
  reached idx inside := absurd inside (Nat.not_lt_zero idx)
  below parent child member := by
    rw [column_of_length_le _ _ (Nat.zero_le _)] at member
    cases member

theorem fromSchema_rooted
    (schema : Schema)
    (nextColumnId : Option Int)
    (unique : (schema.columns.values.map Column.name).Nodup)
    (distinct : ∀ column ∈ schema.columns.values, column.distinctFields = true)
    (success : fromSchema schema nextColumnId = .ok columns) :
    columns.Rooted := by
  refine And.left (b := columns.rootColumns.keys = schema.columns.values.map Column.name) ?_
  refine foldlM_prefix (fun done (columns : CatalogColumns) => columns.Rooted ∧
    columns.rootColumns.keys = done.map Column.name) ⟨new_rooted _, rfl⟩ ?_ success
  rintro done column rest before after split ⟨rooted, keys⟩ stepped
  obtain ⟨⟨idxs, grown⟩, placed, stepped⟩ := bind_eq_ok.mp stepped
  obtain rfl := Except.ok.inj stepped
  obtain ⟨_, _, _, roots, _⟩ := addColumnToArena_eq_ok before grown column none _ idxs placed
  have fresh : column.name ∉ before.rootColumns.keys := by
    rw [keys]
    intro member
    rw [split, List.map_append, List.nodup_append] at unique
    exact unique.2.2 _ member column.name (List.mem_map_of_mem List.mem_cons_self) rfl
  constructor
  · have added := rooted.add column nextColumnId.isSome rfl fresh placed
      (congrArg Except.ok roots) (distinct column (split ▸ by simp))
    rw [← roots] at added
    exact added
  · rw [List.map_append, ← keys]
    change (grown.rootColumns.insert column.name before.arena.length).entries.map Prod.fst = _
    rw [roots]
    exact (congrArg (List.map Prod.fst)
      (IndexMap.insertEntries_of_notMem _ _ _ fresh)).trans (List.map_append ..)

theorem fromSchema_indexed
    (schema : Schema)
    (nextColumnId : Option Int)
    (success : fromSchema schema nextColumnId = .ok columns) :
    columns.Indexed := by
  refine foldlM_invariant Indexed (new_indexed _) ?_ success
  intro before column after _ indexed stepped
  obtain ⟨⟨idxs, grown⟩, placed, stepped⟩ := bind_eq_ok.mp stepped
  obtain rfl := Except.ok.inj stepped
  exact (addColumnToArena_indexed column none _ idxs indexed placed).of_same rfl rfl

theorem fromSchema_live
    (schema : Schema)
    (next : Int)
    (unique : (schema.columns.values.map Column.name).Nodup)
    (distinct : ∀ column ∈ schema.columns.values, column.distinctFields = true)
    (success : fromSchema schema none = .ok columns) :
    columns.Live next := by
  obtain ⟨_, _, counts⟩ := fromSchema_ids schema none success
  obtain ⟨counter, ids⟩ := counts rfl
  refine ⟨⟨?_, fromSchema_indexed schema none success, ?_⟩,
    fromSchema_rooted schema none unique distinct success⟩
  · rw [ids]
    refine List.Nodup.map (fun a b same => ?_) List.nodup_range
    omega
  · rw [counter, ids]
    intro id member
    obtain ⟨offset, inside, rfl⟩ := List.mem_map.mp member
    have bound := List.mem_range.mp inside
    change (offset : Int) + 1 < ((columns.arena.length + 1 : Nat) : Int)
    omega

theorem fromSchema_transfer_live
    (schema : Schema)
    (next nextColumnId : Int)
    (unique : (schema.columns.values.map Column.name).Nodup)
    (distinct : ∀ column ∈ schema.columns.values, column.distinctFields = true)
    (ids : (((schema.columns.values.flatMap Column.flatten).filterMap
      fun flat => flat.column.fieldId)).Nodup)
    (below : ∀ id ∈ (schema.columns.values.flatMap Column.flatten).filterMap
      (fun flat => flat.column.fieldId), id < nextColumnId)
    (success : fromSchema schema (some nextColumnId) = .ok columns) :
    columns.Live next := by
  obtain ⟨_, keeps, _⟩ := fromSchema_ids schema _ success
  obtain ⟨counter, kept⟩ := keeps nextColumnId rfl
  refine ⟨⟨kept ▸ ids, fromSchema_indexed schema _ success, ?_⟩,
    fromSchema_rooted schema _ unique distinct success⟩
  rw [counter, kept]
  exact below

end

end CatalogColumns

end Ducklake
