import Ducklake.Catalog.ColumnIds

/-!
# Links between columns

The names and the parents of columns are stored in the columns and once more in the links that
lead to them.  Every mutator changes both: a link leads to a column that has the link's name, and
the column that the link starts from as its parent.
-/

set_option autoImplicit false

namespace Ducklake

open Lib Spec

namespace CatalogColumns

/-! ## Entries -/

section

variable {columns after : CatalogColumns}

theorem column_of_length_le
    (columns : CatalogColumns)
    (idx : ArenaIdx)
    (outside : columns.arena.length ≤ idx) :
    columns.column idx = default := by
  simp [column, List.getD_eq_getElem?_getD, List.getElem?_eq_none outside]

theorem column_modifyColumn_self
    (columns : CatalogColumns)
    (idx : ArenaIdx)
    (update : CatalogColumn → CatalogColumn)
    (inside : idx < columns.arena.length) :
    (columns.modifyColumn idx update).column idx = update (columns.column idx) := by
  simp [column, modifyColumn, List.getD_eq_getElem?_getD, List.getElem?_eq_getElem inside]

theorem column_modifyColumn_of_ne
    (columns : CatalogColumns)
    (idx other : ArenaIdx)
    (update : CatalogColumn → CatalogColumn)
    (distinct : other ≠ idx) :
    (columns.modifyColumn idx update).column other = columns.column other := by
  simp only [column, modifyColumn, List.getD_eq_getElem?_getD]
  rw [List.getElem?_modify]
  simp [Ne.symm distinct]

theorem map_column_modifyColumn
    {α : Type}
    (columns : CatalogColumns)
    (idx other : ArenaIdx)
    (update : CatalogColumn → CatalogColumn)
    (project : CatalogColumn → α)
    (kept : project (update (columns.column idx)) = project (columns.column idx)) :
    project ((columns.modifyColumn idx update).column other) = project (columns.column other) := by
  by_cases same : other = idx
  · subst same
    by_cases inside : other < columns.arena.length
    · rw [column_modifyColumn_self _ _ _ inside, kept]
    · have outside := Nat.le_of_not_lt inside
      rw [column_of_length_le _ _ outside, column_of_length_le]
      simpa [modifyColumn] using outside
  · rw [column_modifyColumn_of_ne _ _ _ _ same]

theorem length_modifyColumn
    (columns : CatalogColumns)
    (idx : ArenaIdx)
    (update : CatalogColumn → CatalogColumn) :
    (columns.modifyColumn idx update).arena.length = columns.arena.length := by
  simp [modifyColumn]

/-! ## Links -/

structure Linked (columns : CatalogColumns) : Prop where
  closed : columns.Closed
  roots : ∀ name idx, columns.rootColumns.get? name = some idx →
    (columns.column idx).name = name ∧ (columns.column idx).parentColumn = none
  parents : ∀ parent child, child ∈ CatalogColumns.children (columns.column parent).dtype →
    (columns.column child).parentColumn = some parent
  fields : ∀ parent fields, (columns.column parent).dtype = .struct fields →
    ∀ name child, fields.get? name = some child → (columns.column child).name = name

theorem Linked.root_lt
    (linked : columns.Linked)
    (name : Text)
    (idx : ArenaIdx)
    (found : columns.rootColumns.get? name = some idx) :
    idx < columns.arena.length :=
  linked.closed.roots idx ((IndexMap.mem_values_iff _ _).mpr ⟨name, found⟩)

theorem new_linked (nextColumnId : Option Int) : (new nextColumnId).Linked where
  closed := new_linksBelow nextColumnId _
  roots name idx found := by cases found
  parents parent child member := by
    rw [column_of_length_le _ _ (Nat.zero_le _)] at member
    cases member
  fields parent fields typed := by
    rw [column_of_length_le _ _ (Nat.zero_le _)] at typed
    cases typed

/-- A column is changed without its name and its parent, and gets no new links. -/
theorem Linked.modifyColumn
    (linked : columns.Linked)
    (idx : ArenaIdx)
    (update : CatalogColumn → CatalogColumn)
    (sameName : (update (columns.column idx)).name = (columns.column idx).name)
    (sameParent : (update (columns.column idx)).parentColumn = (columns.column idx).parentColumn)
    (fewer : ∀ child ∈ CatalogColumns.children (update (columns.column idx)).dtype,
      child ∈ CatalogColumns.children (columns.column idx).dtype)
    (sameFields : ∀ fields, (update (columns.column idx)).dtype = .struct fields →
      (columns.column idx).dtype = .struct fields) :
    (columns.modifyColumn idx update).Linked := by
  have name := fun other => map_column_modifyColumn columns idx other update CatalogColumn.name
    sameName
  have parent := fun other => map_column_modifyColumn columns idx other update
    CatalogColumn.parentColumn sameParent
  have children : ∀ other child,
      child ∈ CatalogColumns.children ((columns.modifyColumn idx update).column other).dtype →
        child ∈ CatalogColumns.children (columns.column other).dtype := by
    intro other child below
    by_cases same : other = idx
    · subst same
      by_cases inside : other < columns.arena.length
      · rw [column_modifyColumn_self _ _ _ inside] at below
        exact fewer child below
      · rw [column_of_length_le _ _ (by
          rw [length_modifyColumn]
          exact Nat.le_of_not_lt inside)] at below
        cases below
    · rwa [column_modifyColumn_of_ne _ _ _ _ same] at below
  refine ⟨⟨?_, ?_⟩, ?_, ?_, ?_⟩
  · rw [length_modifyColumn]
    exact linked.closed.roots
  · rw [length_modifyColumn]
    intro column member child below
    obtain ⟨position, inside, rfl⟩ := List.mem_iff_getElem.mp member
    have entry : (columns.modifyColumn idx update).column position =
        (columns.modifyColumn idx update).arena[position] := by
      simp [CatalogColumns.column, List.getD_eq_getElem?_getD, List.getElem?_eq_getElem inside]
    rw [← entry] at below
    exact linked.closed.children_column position child (children position child below)
  · intro key other found
    rw [name, parent]
    exact linked.roots key other found
  · intro above child below
    rw [parent]
    exact linked.parents above child (children above child below)
  · intro above fields typed key child found
    rw [name]
    by_cases same : above = idx
    · subst same
      by_cases inside : above < columns.arena.length
      · rw [column_modifyColumn_self _ _ _ inside] at typed
        exact linked.fields above fields (sameFields fields typed) key child found
      · have outside := Nat.le_of_not_lt inside
        rw [column_of_length_le _ _ (by rwa [length_modifyColumn])] at typed
        cases typed
    · rw [column_modifyColumn_of_ne _ _ _ _ same] at typed
      exact linked.fields above fields typed key child found

theorem Linked.of_same
    (linked : columns.Linked)
    (arena : after.arena = columns.arena)
    (roots : after.rootColumns = columns.rootColumns) :
    after.Linked := by
  have column : after.column = columns.column := by
    funext idx
    unfold CatalogColumns.column
    rw [arena]
  refine ⟨⟨?_, ?_⟩, ?_, ?_, ?_⟩
  · rw [arena, roots]
    exact linked.closed.roots
  · rw [arena]
    exact linked.closed.children
  · rw [roots, column]
    exact linked.roots
  · rw [column]
    exact linked.parents
  · rw [column]
    exact linked.fields

theorem removeColumn_linked
    (linked : columns.Linked)
    (idx : ArenaIdx) :
    (columns.removeColumn idx).2.Linked :=
  linked.of_same rfl rfl

/-! ## Siblings -/

theorem Linked.siblings
    (linked : columns.Linked)
    (parent : Option ArenaIdx)
    (named : IndexMap Text ArenaIdx)
    (found : columns.siblings parent = .ok named)
    (name : Text)
    (idx : ArenaIdx)
    (entry : named.get? name = some idx) :
    (columns.column idx).name = name ∧ (columns.column idx).parentColumn = parent := by
  unfold CatalogColumns.siblings at found
  split at found
  · cases found
    exact linked.roots name idx entry
  · rename_i above
    split at found
    · rename_i fields typed
      cases found
      refine ⟨linked.fields above named typed name idx entry, linked.parents above idx ?_⟩
      rw [typed]
      exact (IndexMap.mem_values_iff _ _).mpr ⟨name, entry⟩
    · cases found

/-- The siblings of a column are replaced by others with their names and the same parent. -/
theorem Linked.setSiblings
    (linked : columns.Linked)
    (parent : Option ArenaIdx)
    (old named : IndexMap Text ArenaIdx)
    (found : columns.siblings parent = .ok old)
    (entries : ∀ name idx, named.get? name = some idx → idx < columns.arena.length ∧
      (columns.column idx).name = name ∧ (columns.column idx).parentColumn = parent) :
    (columns.setSiblings parent named).Linked := by
  cases parent with
  | none =>
      exact { linked with
        closed := ⟨fun idx member => by
          obtain ⟨name, entry⟩ := (IndexMap.mem_values_iff _ _).mp member
          exact (entries name idx entry).1, linked.closed.children⟩
        roots := fun name idx entry => (entries name idx entry).2 }
  | some above =>
      have inside : above < columns.arena.length := by
        by_contra outside
        unfold CatalogColumns.siblings at found
        dsimp only at found
        rw [column_of_length_le _ _ (Nat.le_of_not_lt outside)] at found
        cases found
      have self : (columns.setSiblings (some above) named).column above =
          { columns.column above with dtype := .struct named } :=
        column_modifyColumn_self columns above _ inside
      have name : ∀ idx, ((columns.setSiblings (some above) named).column idx).name =
          (columns.column idx).name := fun idx =>
        map_column_modifyColumn columns above idx _ CatalogColumn.name rfl
      have parentOf : ∀ idx, ((columns.setSiblings (some above) named).column idx).parentColumn =
          (columns.column idx).parentColumn := fun idx =>
        map_column_modifyColumn columns above idx _ CatalogColumn.parentColumn rfl
      have other : ∀ idx, idx ≠ above → (columns.setSiblings (some above) named).column idx =
          columns.column idx := fun idx distinct =>
        column_modifyColumn_of_ne columns above idx _ distinct
      refine ⟨?_, ?_, ?_, ?_⟩
      · unfold Closed
        rw [show (columns.setSiblings (some above) named).arena.length = columns.arena.length from
          length_modifyColumn _ _ _]
        refine linked.closed.setSiblings (some above) named fun idx member => ?_
        obtain ⟨key, entry⟩ := (IndexMap.mem_values_iff _ _).mp member
        exact (entries key idx entry).1
      · intro key idx entry
        rw [name, parentOf]
        exact linked.roots key idx entry
      · intro parent child below
        rw [parentOf]
        by_cases same : parent = above
        · subst same
          rw [self] at below
          obtain ⟨key, entry⟩ := (IndexMap.mem_values_iff _ _).mp below
          exact (entries key child entry).2.2
        · rw [other parent same] at below
          exact linked.parents parent child below
      · intro parent fields typed key child entry
        rw [name]
        by_cases same : parent = above
        · subst same
          rw [self] at typed
          cases typed
          exact (entries key child entry).2.1
        · rw [other parent same] at typed
          exact linked.fields parent fields typed key child entry

/-! ## Rename -/

/-- The siblings of a column, under the name that it gets. -/
structure Renaming (columns : CatalogColumns) (idx : ArenaIdx) (newName : Text)
    (after : CatalogColumns) (named : IndexMap Text ArenaIdx) : Prop where
  found : columns.siblings (columns.column idx).parentColumn = .ok named
  fresh : newName ∉ named.keys
  present : (columns.column idx).name ∈ named.keys
  renamed : after = (columns.setSiblings (columns.column idx).parentColumn
    (named.replaceKey (columns.column idx).name newName idx)).modifyColumn idx
      fun column => { column with name := newName }

theorem renameColumn_eq_ok
    (idx : ArenaIdx)
    (newName : Text)
    (success : columns.renameColumn idx newName = .ok after) :
    ∃ named, columns.Renaming idx newName after named := by
  obtain ⟨named, unique, success⟩ := bind_eq_ok.mp success
  obtain ⟨siblings, found, unique⟩ := bind_eq_ok.mp unique
  split at unique
  · cases unique
  · rename_i fresh
    obtain rfl := Except.ok.inj unique
    split at success
    · rename_i present
      obtain rfl := Except.ok.inj success
      exact ⟨siblings, found, fun member => fresh ((IndexMap.contains_iff _ _).mpr member),
        (IndexMap.contains_iff _ _).mp present, rfl⟩
    · cases success

section

variable {idx : ArenaIdx} {newName : Text} {named : IndexMap Text ArenaIdx}

theorem Renaming.get?
    (renames : columns.Renaming idx newName after named)
    (key : Text) :
    (named.replaceKey (columns.column idx).name newName idx).get? key =
      if key = newName then some idx
      else if key = (columns.column idx).name then none else named.get? key :=
  IndexMap.get?_replaceKey named _ newName idx key renames.present renames.fresh

theorem Renaming.parentColumn
    (renames : columns.Renaming idx newName after named)
    (other : ArenaIdx) :
    (after.column other).parentColumn = (columns.column other).parentColumn := by
  rw [renames.renamed]
  refine (map_column_modifyColumn _ _ _ _ CatalogColumn.parentColumn ?_).trans ?_
  · rfl
  · unfold setSiblings
    split
    · rfl
    · exact map_column_modifyColumn _ _ _ _ CatalogColumn.parentColumn rfl

theorem Renaming.name_self
    (renames : columns.Renaming idx newName after named)
    (inside : idx < columns.arena.length) :
    (after.column idx).name = newName := by
  rw [renames.renamed, column_modifyColumn_self]
  unfold setSiblings
  split
  · exact inside
  · rw [length_modifyColumn]
    exact inside

theorem Renaming.name_of_ne
    (renames : columns.Renaming idx newName after named)
    (other : ArenaIdx)
    (distinct : other ≠ idx) :
    (after.column other).name = (columns.column other).name := by
  rw [renames.renamed, column_modifyColumn_of_ne _ _ _ _ distinct]
  unfold setSiblings
  split
  · rfl
  · exact map_column_modifyColumn _ _ _ _ CatalogColumn.name rfl

theorem Renaming.dtype_of_ne
    (renames : columns.Renaming idx newName after named)
    (other : ArenaIdx)
    (distinct : (columns.column idx).parentColumn ≠ some other) :
    (after.column other).dtype = (columns.column other).dtype := by
  rw [renames.renamed]
  refine (map_column_modifyColumn _ _ _ _ CatalogColumn.dtype rfl).trans ?_
  unfold setSiblings
  split
  · rfl
  · rename_i above shape
    rw [column_modifyColumn_of_ne _ _ _ _ fun same => distinct (by rw [shape, same])]

theorem Renaming.dtype_parent
    (renames : columns.Renaming idx newName after named)
    (above : ArenaIdx)
    (parent : (columns.column idx).parentColumn = some above) :
    (columns.column above).dtype = .struct named ∧ (after.column above).dtype =
      .struct (named.replaceKey (columns.column idx).name newName idx) := by
  have found := renames.found
  rw [parent] at found
  unfold siblings at found
  dsimp only at found
  split at found
  · rename_i fields typed
    cases found
    refine ⟨typed, ?_⟩
    rw [renames.renamed]
    refine (map_column_modifyColumn _ _ _ _ CatalogColumn.dtype rfl).trans ?_
    rw [parent]
    have inside : above < columns.arena.length := by
      by_contra outside
      rw [column_of_length_le _ _ (Nat.le_of_not_lt outside)] at typed
      cases typed
    exact congrArg CatalogColumn.dtype (column_modifyColumn_self columns above _ inside)
  · cases found

theorem Renaming.rootColumns
    (renames : columns.Renaming idx newName after named) :
    after.rootColumns = if (columns.column idx).parentColumn = none then
      named.replaceKey (columns.column idx).name newName idx else columns.rootColumns := by
  rw [renames.renamed]
  unfold setSiblings
  split
  · rename_i root
    rw [if_pos root]
    rfl
  · rename_i above shape
    rw [if_neg (by simp [shape])]
    rfl

theorem Renaming.entry
    (renames : columns.Renaming idx newName after named)
    (linked : columns.Linked)
    (inside : idx < columns.arena.length)
    (key : Text)
    (child : ArenaIdx)
    (found : (named.replaceKey (columns.column idx).name newName idx).get? key = some child) :
    (after.column child).name = key ∧
      (after.column child).parentColumn = (columns.column idx).parentColumn := by
  rw [renames.get? key] at found
  split at found
  · rename_i same
    cases found
    exact ⟨same ▸ renames.name_self inside, renames.parentColumn idx⟩
  · split at found
    · cases found
    · rename_i distinct
      obtain ⟨name, parent⟩ := linked.siblings _ _ renames.found key child found
      rw [renames.parentColumn child]
      refine ⟨(renames.name_of_ne child ?_).trans name, parent⟩
      rintro rfl
      exact distinct name.symm

theorem renameColumn_linked
    (idx : ArenaIdx)
    (newName : Text)
    (linked : columns.Linked)
    (inside : idx < columns.arena.length)
    (success : columns.renameColumn idx newName = .ok after) :
    after.Linked := by
  obtain ⟨closed, _, _⟩ := renameColumn_ids idx newName linked.closed inside success
  obtain ⟨named, renames⟩ := renameColumn_eq_ok idx newName success
  refine ⟨closed, ?_, ?_, ?_⟩
  · intro key child found
    rw [renames.rootColumns] at found
    split at found
    · rename_i root
      rw [← root]
      exact renames.entry linked inside key child found
    · rename_i nested
      obtain ⟨name, parent⟩ := linked.roots key child found
      rw [renames.parentColumn child]
      refine ⟨(renames.name_of_ne child ?_).trans name, parent⟩
      rintro rfl
      exact nested parent
  · intro above child below
    rw [renames.parentColumn child]
    by_cases parent : (columns.column idx).parentColumn = some above
    · rw [(renames.dtype_parent above parent).2] at below
      obtain ⟨key, found⟩ := (IndexMap.mem_values_iff _ _).mp below
      have entry := (renames.entry linked inside key child found).2
      rw [renames.parentColumn child] at entry
      exact entry.trans parent
    · rw [renames.dtype_of_ne above parent] at below
      exact linked.parents above child below
  · intro above fields typed key child found
    by_cases parent : (columns.column idx).parentColumn = some above
    · rw [(renames.dtype_parent above parent).2] at typed
      cases typed
      exact (renames.entry linked inside key child found).1
    · rw [renames.dtype_of_ne above parent] at typed
      refine (renames.name_of_ne child ?_).trans
        (linked.fields above fields typed key child found)
      rintro rfl
      refine parent (linked.parents above child ?_)
      rw [typed]
      exact (IndexMap.mem_values_iff _ _).mpr ⟨key, found⟩

end

/-! ## Add -/

structure LinkedFrom (columns : CatalogColumns) (first : ArenaIdx) : Prop where
  parents : ∀ parent child, first ≤ parent →
    child ∈ CatalogColumns.children (columns.column parent).dtype →
      (columns.column child).parentColumn = some parent
  fields : ∀ parent fields, first ≤ parent → (columns.column parent).dtype = .struct fields →
    ∀ name child, fields.get? name = some child → (columns.column child).name = name

section

variable {first : ArenaIdx} {parent : Option ArenaIdx} {root : Column}

theorem Laid.entry_of_position
    (laid : columns.Laid first parent root)
    (position : Nat)
    (inside : position < root.size) :
    ∃ above column, Column.PieceOf root.flatten position above column ∧
      (position = 0 ∧ above = none ∨ ∃ index, above = some index) ∧
      (root.distinctFields = true → column.distinctFields = true) ∧
      columns.EntryOf first parent root.flatten position ⟨column, above⟩ := by
  obtain ⟨above, column, piece, place, distinct⟩ :=
    (Column.pieceOf_flatten root).of_position position (Nat.zero_le _) (by rwa [Nat.zero_add])
  refine ⟨above, column, piece, ?_, distinct, laid.entries position _ piece.root⟩
  rcases place with start | ⟨index, found, _⟩
  · exact Or.inl start
  · exact Or.inr ⟨index, found⟩

theorem Laid.child_entry
    (laid : columns.Laid first parent root)
    (position : Nat)
    (above : Option Nat)
    (column : Column)
    (piece : Column.PieceOf root.flatten position above column)
    (front back : List Column)
    (child : Column)
    (split : column.dtype.children = front ++ child :: back) :
    (columns.column (first + (position + 1 + Column.sizeOfAll front))).parentColumn =
        some (first + position) ∧
      (columns.column (first + (position + 1 + Column.sizeOfAll front))).name = child.name := by
  have entry := laid.entries _ _ (piece.child front back child split).root
  exact ⟨entry.parentColumn, entry.name⟩

theorem getElem_starts
    (columns : List Column)
    (start index : Nat)
    (position : Nat)
    (found : (Column.starts start columns)[index]? = some position) :
    ∃ front child back, columns = front ++ child :: back ∧ front.length = index ∧
      position = start + Column.sizeOfAll front := by
  induction columns generalizing start index with
  | nil => cases found
  | cons first rest ih =>
      cases index with
      | zero =>
          obtain rfl := Option.some.inj found
          exact ⟨[], first, rest, rfl, rfl, rfl⟩
      | succ index =>
          obtain ⟨front, child, back, rfl, rfl, rfl⟩ := ih (start + first.size) index found
          exact ⟨first :: front, child, back, rfl, rfl, by rw [Column.sizeOfAll, Nat.add_assoc]⟩

theorem Laid.linkedFrom
    (laid : columns.Laid first parent root)
    (last : first + root.size = columns.arena.length) :
    columns.LinkedFrom first := by
  have located : ∀ above : ArenaIdx, first ≤ above → above < columns.arena.length →
      ∃ position parentIndex column, above = first + position ∧
        Column.PieceOf root.flatten position parentIndex column ∧
        columns.EntryOf first parent root.flatten position ⟨column, parentIndex⟩ := by
    intro above low inside
    have split : above = first + (above - first) := (Nat.add_sub_cancel' low).symm
    obtain ⟨parentIndex, column, piece, _, _, entry⟩ :=
      laid.entry_of_position (above - first)
        (Nat.sub_lt_left_of_lt_add low (last ▸ inside))
    exact ⟨above - first, parentIndex, column, split, piece, entry⟩
  constructor
  · intro above child low below
    by_cases inside : above < columns.arena.length
    · obtain ⟨position, parentIndex, column, rfl, piece, entry⟩ := located above low inside
      have listed := mem_children_flatDataType _ _ _ entry.dtype child below
      rw [piece.positions] at listed
      obtain ⟨start, member, rfl⟩ := List.mem_map.mp listed
      obtain ⟨front, sub, back, split, rfl⟩ := (Column.mem_starts_iff _ _ _).mp member
      exact (laid.child_entry position parentIndex column piece front back sub split).1
    · rw [column_of_length_le _ _ (Nat.le_of_not_lt inside)] at below
      cases below
  · intro above fields low typed name child found
    by_cases inside : above < columns.arena.length
    · obtain ⟨position, parentIndex, column, rfl, piece, entry⟩ := located above low inside
      have dtype := entry.dtype
      rw [piece.positions, typed] at dtype
      unfold flatDataType at dtype
      split at dtype
      · cases dtype
      · cases dtype
      · cases dtype
      · rename_i struct firstChild rest shape starts
        obtain rfl := CatalogDataType.struct.inj (Except.ok.inj dtype)
        have entryMember := (IndexMap.get?_eq_some_iff _ _ _).mp found
        rcases IndexMap.mem_foldl_insert _ _ _ entryMember with zipped | impossible
        · rw [← starts] at zipped
          obtain ⟨index, at_⟩ := List.mem_iff_getElem?.mp zipped
          rw [List.getElem?_zip_eq_some] at at_
          obtain ⟨nameAt, childAt⟩ := at_
          dsimp only at nameAt childAt
          rw [List.getElem?_map] at nameAt childAt
          obtain ⟨start, startAt, rfl⟩ := Option.map_eq_some_iff.mp childAt
          obtain ⟨front, sub, back, split, rfl, rfl⟩ := getElem_starts _ _ _ _ startAt
          have named := (laid.child_entry position parentIndex column piece front back sub split).2
          change column.dtype = _ at shape
          rw [shape] at split
          change struct = _ at split
          rw [split, List.getElem?_append_right (Nat.le_refl _), Nat.sub_self] at nameAt
          rw [named]
          exact Option.some.inj nameAt
        · cases impossible
      · cases dtype
    · rw [column_of_length_le _ _ (Nat.le_of_not_lt inside)] at typed
      cases typed

theorem addColumnToArena_linked
    (column : Column)
    (preserve : Bool)
    (idxs : List ArenaIdx)
    (linked : columns.Linked)
    (success : columns.addColumnToArena column parent preserve = .ok (idxs, after)) :
    after.Linked ∧ (after.column columns.arena.length).name = column.name ∧
      (after.column columns.arena.length).parentColumn = parent := by
  obtain ⟨_, continues, size, roots, entries⟩ :=
    addColumnToArena_eq_ok columns after column parent preserve idxs success
  have closed := (addColumnToArena_ids column parent preserve idxs linked.closed success).1
  have laid := addColumnToArena_laid columns after column parent preserve idxs success
  have new := laid.linkedFrom size.symm
  have old : ∀ idx, idx < columns.arena.length → after.column idx = columns.column idx :=
    continues.column
  have root := entries 0 ⟨column, none⟩ (Column.pieceOf_flatten column).root
  refine ⟨⟨closed, ?_, ?_, ?_⟩, root.name, root.parentColumn⟩
  · intro name idx found
    rw [roots] at found
    rw [old idx (linked.root_lt name idx found)]
    exact linked.roots name idx found
  · intro above child below
    by_cases inside : above < columns.arena.length
    · rw [old above inside] at below
      rw [old child (linked.closed.children_column above child below)]
      exact linked.parents above child below
    · exact new.parents above child (Nat.le_of_not_lt inside) below
  · intro above fields typed name child found
    by_cases inside : above < columns.arena.length
    · rw [old above inside] at typed
      have below : child ∈ CatalogColumns.children (columns.column above).dtype := by
        rw [typed]
        exact (IndexMap.mem_values_iff _ _).mpr ⟨name, found⟩
      rw [old child (linked.closed.children_column above child below)]
      exact linked.fields above fields typed name child found
    · exact new.fields above fields (Nat.le_of_not_lt inside) typed name child found

/-- What `add_column` does: a tree is added, and its root becomes a sibling. -/
structure Adding (columns : CatalogColumns) (parent : Option ArenaIdx) (column : Column)
    (after grown : CatalogColumns) (named : IndexMap Text ArenaIdx) : Prop where
  found : columns.siblings parent = .ok named
  fresh : column.name ∉ named.keys
  placed : columns.addColumnToArena column parent false =
    .ok (List.range' columns.arena.length column.size, grown)
  siblings : grown.siblings parent = .ok named
  added : after = grown.setSiblings parent (named.insert column.name columns.arena.length)

theorem siblings_lt
    (named : IndexMap Text ArenaIdx)
    (above : ArenaIdx)
    (found : columns.siblings (some above) = .ok named) :
    above < columns.arena.length ∧ (columns.column above).dtype = .struct named := by
  unfold CatalogColumns.siblings at found
  dsimp only at found
  split at found
  · rename_i fields typed
    cases found
    refine ⟨?_, typed⟩
    by_contra outside
    rw [column_of_length_le _ _ (Nat.le_of_not_lt outside)] at typed
    cases typed
  · cases found

theorem addColumn_eq_ok
    (column : Column)
    (idxs : List ArenaIdx)
    (success : columns.addColumn parent column = .ok (idxs, after)) :
    ∃ grown named, columns.Adding parent column after grown named := by
  obtain ⟨unused, unique, success⟩ := bind_eq_ok.mp success
  obtain ⟨named, found, unique⟩ := bind_eq_ok.mp unique
  obtain ⟨⟨placed, grown⟩, added, success⟩ := bind_eq_ok.mp success
  obtain ⟨later, siblings, success⟩ := bind_eq_ok.mp success
  obtain ⟨rfl, rfl⟩ := Prod.mk.inj (Except.ok.inj success)
  obtain ⟨places, continues, _, roots, _⟩ :=
    addColumnToArena_eq_ok columns grown column parent false _ added
  have same : later = named := by
    cases parent with
    | none =>
        cases found
        cases siblings
        exact roots
    | some above =>
        obtain ⟨inside, typed⟩ := siblings_lt named above found
        obtain ⟨_, typedLater⟩ := siblings_lt later above siblings
        rw [continues.column above inside, typed] at typedLater
        exact (CatalogDataType.struct.inj typedLater).symm
  subst same
  refine ⟨grown, later, found, ?_, places ▸ added, siblings, rfl⟩
  split at unique
  · cases unique
  · rename_i fresh
    exact fun member => fresh ((IndexMap.contains_iff _ _).mpr member)

theorem Linked.add
    {grown : CatalogColumns}
    {named : IndexMap Text ArenaIdx}
    {idxs : List ArenaIdx}
    (linked : columns.Linked)
    (column : Column)
    (preserve : Bool)
    (placed : columns.addColumnToArena column parent preserve = .ok (idxs, grown))
    (siblings : grown.siblings parent = .ok named) :
    (grown.setSiblings parent (named.insert column.name columns.arena.length)).Linked := by
  obtain ⟨linkedGrown, rootName, rootParent⟩ :=
    addColumnToArena_linked column preserve idxs linked placed
  obtain ⟨_, _, size, _, _⟩ := addColumnToArena_eq_ok _ _ _ _ _ _ placed
  refine linkedGrown.setSiblings parent named _ siblings fun name idx entry => ?_
  rw [IndexMap.get?_insert] at entry
  split at entry
  · rename_i same
    cases entry
    have filled := column.size_pos
    have inside : columns.arena.length < grown.arena.length := by omega
    exact ⟨inside, rootName.trans same.symm, rootParent⟩
  · have old := linkedGrown.siblings parent named siblings name idx entry
    have below := linkedGrown.closed.siblings parent named siblings idx
      ((IndexMap.mem_values_iff _ _).mpr ⟨name, entry⟩)
    exact ⟨below, old⟩

theorem addColumn_linked
    (column : Column)
    (idxs : List ArenaIdx)
    (linked : columns.Linked)
    (success : columns.addColumn parent column = .ok (idxs, after)) :
    after.Linked := by
  obtain ⟨grown, named, adding⟩ := addColumn_eq_ok column idxs success
  rw [adding.added]
  exact linked.add column false adding.placed adding.siblings

/-! ## New tables -/

theorem fromSchema_linked
    (schema : Schema)
    (nextColumnId : Option Int)
    (success : fromSchema schema nextColumnId = .ok columns) :
    columns.Linked := by
  refine foldlM_invariant Linked (new_linked _) ?_ success
  intro before column result _ linked stepped
  obtain ⟨⟨idxs, grown⟩, added, stepped⟩ := bind_eq_ok.mp stepped
  obtain rfl := Except.ok.inj stepped
  exact linked.add column _ added rfl

end

end

end CatalogColumns

end Ducklake
