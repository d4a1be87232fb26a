import Ducklake.Catalog.LoadedTables
import Ducklake.Catalog.Trees

/-!
# Ids and links of columns

The arena of a table only grows, the id of an entry never changes, and new entries take their ids
from a counter.  All links between columns lead into the arena.
-/

set_option autoImplicit false

namespace Ducklake

open Lib Spec

theorem Lib.mem_modify
    {α : Type}
    (items : List α)
    (idx : Nat)
    (update : α → α)
    (item : α)
    (member : item ∈ items.modify idx update) :
    item ∈ items ∨ ∃ old ∈ items, item = update old := by
  obtain ⟨position, found⟩ := List.mem_iff_getElem?.mp member
  rw [List.getElem?_modify] at found
  obtain ⟨old, inside, rfl⟩ := Option.map_eq_some_iff.mp found
  have oldMember := List.mem_of_getElem? inside
  by_cases same : idx = position
  · rw [if_pos same]
    exact Or.inr ⟨old, oldMember, rfl⟩
  · rw [if_neg same]
    exact Or.inl oldMember

namespace CatalogColumns

/-! ## Links -/

structure LinksBelow (columns : CatalogColumns) (bound : Nat) : Prop where
  roots : ∀ idx ∈ columns.rootColumns.values, idx < bound
  children : ∀ column ∈ columns.arena, ∀ idx ∈ CatalogColumns.children column.dtype, idx < bound

abbrev Closed (columns : CatalogColumns) : Prop :=
  columns.LinksBelow columns.arena.length

section

variable {columns after : CatalogColumns} {bound : Nat}

theorem LinksBelow.mono
    (links : columns.LinksBelow bound)
    (limit : Nat)
    (grows : bound ≤ limit) :
    columns.LinksBelow limit where
  roots idx member := Nat.lt_of_lt_of_le (links.roots idx member) grows
  children column member idx child :=
    Nat.lt_of_lt_of_le (links.children column member idx child) grows

theorem LinksBelow.children_column
    (links : columns.LinksBelow bound)
    (idx child : ArenaIdx)
    (member : child ∈ CatalogColumns.children (columns.column idx).dtype) :
    child < bound := by
  by_cases inside : idx < columns.arena.length
  · refine links.children (columns.column idx) ?_ child member
    simp [column, List.getD_eq_getElem?_getD, List.getElem?_eq_getElem inside]
  · have absent : columns.column idx = default := by
      simp [column, List.getD_eq_getElem?_getD, List.getElem?_eq_none (Nat.le_of_not_lt inside)]
    rw [absent] at member
    cases member

theorem mem_children_of_childByName
    (idx child : ArenaIdx)
    (part : Text)
    (found : columns.childByName idx part = some child) :
    child ∈ CatalogColumns.children (columns.column idx).dtype := by
  unfold CatalogColumns.childByName at found
  split at found
  · rename_i fields typed
    rw [typed]
    exact (IndexMap.mem_values_iff _ _).mpr ⟨part, found⟩
  · rename_i item typed
    rw [typed]
    split at found
    · cases found
      simp [CatalogColumns.children]
    · cases found
  · rename_i key value typed
    rw [typed]
    split at found
    · cases found
      simp [CatalogColumns.children]
    · split at found
      · cases found
        simp [CatalogColumns.children]
      · cases found
  · cases found

theorem LinksBelow.childByName
    (links : columns.LinksBelow bound)
    (idx child : ArenaIdx)
    (part : Text)
    (found : columns.childByName idx part = some child) :
    child < bound :=
  links.children_column idx child (mem_children_of_childByName idx child part found)

theorem Closed.arenaIdxByPath
    (closed : columns.Closed)
    (path : List Text)
    (idx : ArenaIdx)
    (found : columns.arenaIdxByPath path = .ok idx) :
    idx < columns.arena.length := by
  unfold CatalogColumns.arenaIdxByPath at found
  split at found
  · cases found
  · rename_i root parts
    split at found
    · rename_i reached located
      obtain rfl := Except.ok.inj found
      obtain ⟨start, rooted, walked⟩ := Option.bind_eq_some_iff.mp located
      have inside := closed.roots start ((IndexMap.mem_values_iff _ _).mpr ⟨root, rooted⟩)
      clear found located rooted
      induction parts generalizing start with
      | nil =>
          cases walked
          exact inside
      | cons part rest ih =>
          rw [List.foldlM_cons] at walked
          obtain ⟨next, stepped, walked⟩ := Option.bind_eq_some_iff.mp walked
          exact ih next walked (closed.childByName start next part stepped)
    · cases found

theorem Closed.aggregateColumnIndices
    (closed : columns.Closed)
    (fuel : Nat)
    (idx : ArenaIdx)
    (inside : idx < columns.arena.length) :
    ∀ reached ∈ columns.aggregateColumnIndices fuel idx, reached < columns.arena.length := by
  induction fuel generalizing idx with
  | zero =>
      intro reached member
      rw [List.mem_singleton.mp member]
      exact inside
  | succ fuel ih =>
      intro reached member
      rcases List.mem_cons.mp member with rfl | below
      · exact inside
      · obtain ⟨child, childMember, reachedMember⟩ := List.mem_flatMap.mp below
        exact ih child (closed.children_column idx child childMember) reached reachedMember

theorem new_linksBelow (nextColumnId : Option Int) (bound : Nat) :
    (new nextColumnId).LinksBelow bound where
  roots idx member := by cases member
  children column member := by cases member

theorem LinksBelow.modifyColumn
    (links : columns.LinksBelow bound)
    (idx : ArenaIdx)
    (update : CatalogColumn → CatalogColumn)
    (below : ∀ column ∈ columns.arena, ∀ child ∈ CatalogColumns.children (update column).dtype,
      child < bound) :
    (columns.modifyColumn idx update).LinksBelow bound where
  roots := links.roots
  children column member := by
    rcases mem_modify _ _ _ _ member with old | ⟨before, inside, rfl⟩
    · exact links.children column old
    · exact below before inside

theorem LinksBelow.pushColumn
    (links : columns.LinksBelow bound)
    (column : CatalogColumn)
    (below : ∀ child ∈ CatalogColumns.children column.dtype, child < bound) :
    (columns.pushColumn column).LinksBelow bound where
  roots := links.roots
  children other member := by
    rcases List.mem_append.mp member with old | new
    · exact links.children other old
    · rw [List.mem_singleton.mp new]
      exact below

theorem mem_children_flatDataType
    (dtype : DataType)
    (idxs : List ArenaIdx)
    (result : CatalogDataType)
    (success : flatDataType dtype idxs = .ok result) :
    ∀ child ∈ CatalogColumns.children result, child ∈ idxs := by
  intro child member
  unfold flatDataType at success
  split at success
  · obtain rfl := Except.ok.inj success
    cases member
  · obtain rfl := Except.ok.inj success
    rw [List.mem_singleton.mp member]
    exact List.mem_cons_self
  · obtain rfl := Except.ok.inj success
    simp only [CatalogColumns.children, List.mem_cons, List.not_mem_nil, or_false] at member
    rcases member with rfl | rfl <;> simp
  · obtain rfl := Except.ok.inj success
    obtain ⟨entry, inside, rfl⟩ := List.mem_map.mp member
    rcases IndexMap.mem_foldl_insert _ _ entry inside with listed | impossible
    · exact (List.of_mem_zip listed).2
    · cases impossible
  · cases success

/-! ## Ids of added columns -/

theorem addFlattenedColumn_ids
    (first : ArenaIdx)
    (whole : List FlattenedColumn)
    (parent : Option ArenaIdx)
    (preserve : Bool)
    (position : Nat × FlattenedColumn)
    (success : addFlattenedColumn first whole parent preserve columns position = .ok after) :
    (∀ bound, columns.LinksBelow bound → first + whole.length ≤ bound → after.LinksBelow bound) ∧
      ∃ id, after.ids = columns.ids ++ [id] ∧
        if preserve then position.2.column.fieldId = some id ∧
          after.nextColumnId = columns.nextColumnId
        else columns.nextColumnId = some id ∧ after.nextColumnId = some (id + 1) := by
  obtain ⟨dtype, typed, success⟩ := bind_eq_ok.mp success
  have children : ∀ bound, first + whole.length ≤ bound →
      ∀ child ∈ CatalogColumns.children dtype, child < bound := by
    intro bound fits child member
    have listed := mem_children_flatDataType _ _ _ typed child member
    obtain ⟨entry, inside, found⟩ := List.mem_filterMap.mp listed
    split at found
    · cases found
      have place := List.snd_lt_of_mem_zipIdx inside
      rw [Nat.add_zero] at place
      exact Nat.lt_of_lt_of_le (Nat.add_lt_add_left place first) fits
    · cases found
  cases preserve with
  | true =>
      dsimp only at success
      simp only [if_true] at success
      cases fieldId : position.2.column.fieldId with
      | none =>
          simp only [fieldId] at success
          cases success
      | some id =>
          simp only [fieldId] at success
          obtain rfl := Except.ok.inj success
          refine ⟨fun bound links fits => links.pushColumn _ ?_, id, by simp [pushColumn, ids],
            rfl, rfl⟩
          exact children bound fits
  | false =>
      dsimp only at success
      simp only [Bool.false_eq_true, if_false] at success
      obtain ⟨⟨id, taken⟩, counted, success⟩ := bind_eq_ok.mp success
      unfold takeColumnId at counted
      split at counted
      · rename_i next found
        cases counted
        obtain rfl := Except.ok.inj success
        refine ⟨fun bound links fits => ?_, id, by simp [pushColumn, ids], found, rfl⟩
        have same : CatalogColumns.LinksBelow
            { columns with nextColumnId := some (id + 1) } bound := { links with }
        refine same.pushColumn _ ?_
        exact children bound fits
      · cases counted

theorem foldlM_addFlattenedColumn_counted
    (first : ArenaIdx)
    (whole : List FlattenedColumn)
    (parent : Option ArenaIdx)
    (rest : List (Nat × FlattenedColumn))
    (next : Int)
    (counted : columns.nextColumnId = some next)
    (success : rest.foldlM (addFlattenedColumn first whole parent false) columns = .ok after) :
    after.nextColumnId = some (next + rest.length) ∧
      after.ids = columns.ids ++ (List.range rest.length).map fun (offset : Nat) =>
        next + (offset : Int) := by
  induction rest generalizing columns next with
  | nil =>
      obtain rfl := Except.ok.inj success
      simp [counted]
  | cons head tail ih =>
      rw [List.foldlM_cons] at success
      obtain ⟨middle, added, success⟩ := bind_eq_ok.mp success
      obtain ⟨_, id, appended, taken, later⟩ := addFlattenedColumn_ids first whole parent false head
        added
      rw [counted] at taken
      cases taken
      obtain ⟨nextLater, appendedLater⟩ := ih (next + 1) later success
      constructor
      · rw [nextLater, List.length_cons]
        congr 1
        omega
      · rw [appendedLater, appended, List.length_cons, List.range_succ_eq_map, List.map_cons,
          List.map_map, List.append_assoc]
        simp only [List.singleton_append, Int.natCast_zero, Int.add_zero]
        congr 2
        refine List.map_congr_left fun offset _ => ?_
        simp only [Function.comp_apply, Nat.succ_eq_add_one]
        omega

theorem foldlM_addFlattenedColumn_preserved
    (first : ArenaIdx)
    (whole : List FlattenedColumn)
    (parent : Option ArenaIdx)
    (rest : List (Nat × FlattenedColumn))
    (success : rest.foldlM (addFlattenedColumn first whole parent true) columns = .ok after) :
    after.nextColumnId = columns.nextColumnId ∧
      after.ids = columns.ids ++ rest.filterMap fun entry => entry.2.column.fieldId := by
  induction rest generalizing columns with
  | nil =>
      obtain rfl := Except.ok.inj success
      simp
  | cons head tail ih =>
      rw [List.foldlM_cons] at success
      obtain ⟨middle, added, success⟩ := bind_eq_ok.mp success
      obtain ⟨_, id, appended, given, same⟩ := addFlattenedColumn_ids first whole parent true head
        added
      obtain ⟨sameLater, appendedLater⟩ := ih success
      refine ⟨sameLater.trans same, ?_⟩
      rw [appendedLater, appended]
      simp [given]

theorem foldlM_addFlattenedColumn_links
    (first : ArenaIdx)
    (whole : List FlattenedColumn)
    (parent : Option ArenaIdx)
    (preserve : Bool)
    (rest : List (Nat × FlattenedColumn))
    (links : columns.LinksBelow bound)
    (fits : first + whole.length ≤ bound)
    (success : rest.foldlM (addFlattenedColumn first whole parent preserve) columns = .ok after) :
    after.LinksBelow bound :=
  foldlM_invariant (fun columns => columns.LinksBelow bound) links
    (fun _ head _ _ links added =>
      (addFlattenedColumn_ids first whole parent preserve head added).1 bound links fits) success

theorem addColumnToArena_ids
    (column : Column)
    (parent : Option ArenaIdx)
    (preserve : Bool)
    (idxs : List ArenaIdx)
    (closed : columns.Closed)
    (success : columns.addColumnToArena column parent preserve = .ok (idxs, after)) :
    after.Closed ∧
      (preserve = true → after.nextColumnId = columns.nextColumnId ∧
        after.ids = columns.ids ++ column.flatten.filterMap fun flat => flat.column.fieldId) ∧
      (preserve = false → ∀ next, columns.nextColumnId = some next →
        after.nextColumnId = some (next + column.size) ∧
          after.ids = columns.ids ++ (List.range column.size).map fun (offset : Nat) =>
            next + (offset : Int)) := by
  obtain ⟨_, _, grown, _⟩ :=
    addColumnToArena_eq_ok columns after column parent preserve idxs success
  obtain ⟨result, added, success⟩ := bind_eq_ok.mp success
  obtain ⟨_, rfl⟩ := Prod.mk.inj (Except.ok.inj success)
  have size : (column.flatten.zipIdx.map Prod.swap).length = column.size := by
    rw [List.length_map, List.length_zipIdx, Column.length_flatten]
  refine ⟨?_, ?_, ?_⟩
  · refine foldlM_addFlattenedColumn_links _ _ _ _ _ (closed.mono _ ?_) ?_ added
    · omega
    · rw [Column.length_flatten, grown]
  · rintro rfl
    obtain ⟨same, appended⟩ := foldlM_addFlattenedColumn_preserved _ _ _ _ added
    refine ⟨same, appended.trans (congrArg (columns.ids ++ ·) ?_)⟩
    have values : (column.flatten.zipIdx.map Prod.swap).map Prod.snd = column.flatten := by
      rw [List.map_map]
      exact List.zipIdx_map_fst _ _
    conv_rhs => rw [← values, List.filterMap_map]
    rfl
  · rintro rfl next counted
    have result := foldlM_addFlattenedColumn_counted _ _ _ _ next counted added
    rwa [size] at result

/-! ## Edits of a table -/

structure IdsGrow (before after : CatalogColumns) : Prop where
  ids : ∃ added, after.ids = before.ids ++ added
  next : ∀ next, before.nextColumnId = some next →
    ∃ later, after.nextColumnId = some later ∧ next ≤ later

theorem IdsGrow.of_same
    (ids : after.ids = columns.ids)
    (next : after.nextColumnId = columns.nextColumnId) :
    columns.IdsGrow after where
  ids := ⟨[], by simp [ids]⟩
  next id counted := ⟨id, next.trans counted, Int.le_refl _⟩

theorem IdsGrow.refl (columns : CatalogColumns) : columns.IdsGrow columns :=
  .of_same rfl rfl

theorem IdsGrow.length_le (grows : columns.IdsGrow after) :
    columns.arena.length ≤ after.arena.length := by
  obtain ⟨added, grown⟩ := grows.ids
  rw [← length_ids, ← length_ids, grown, List.length_append]
  omega

theorem IdsGrow.column_id
    (grows : columns.IdsGrow after)
    (idx : ArenaIdx)
    (inside : idx < columns.arena.length) :
    (after.column idx).id = (columns.column idx).id := by
  obtain ⟨added, grown⟩ := grows.ids
  have before := getElem?_ids columns idx inside
  have later := getElem?_ids after idx (Nat.lt_of_lt_of_le inside grows.length_le)
  rw [grown, List.getElem?_append_left (by rwa [length_ids]), before] at later
  exact (Option.some.inj later).symm

theorem ids_modifyColumn
    (columns : CatalogColumns)
    (idx : ArenaIdx)
    (update : CatalogColumn → CatalogColumn)
    (kept : ∀ column, (update column).id = column.id) :
    (columns.modifyColumn idx update).ids = columns.ids := by
  refine List.ext_getElem? fun position => ?_
  simp only [ids, modifyColumn, List.getElem?_map, List.getElem?_modify]
  cases columns.arena[position]? with
  | none => rfl
  | some column =>
      by_cases same : idx = position
      · simp [same, kept]
      · simp [same]

theorem ids_setSiblings
    (columns : CatalogColumns)
    (parent : Option ArenaIdx)
    (named : IndexMap Text ArenaIdx) :
    (columns.setSiblings parent named).ids = columns.ids ∧
      (columns.setSiblings parent named).nextColumnId = columns.nextColumnId := by
  cases parent with
  | none => exact ⟨rfl, rfl⟩
  | some idx => exact ⟨ids_modifyColumn _ _ _ fun _ => rfl, rfl⟩

theorem LinksBelow.siblings
    (links : columns.LinksBelow bound)
    (parent : Option ArenaIdx)
    (named : IndexMap Text ArenaIdx)
    (found : columns.siblings parent = .ok named) :
    ∀ idx ∈ named.values, idx < bound := by
  unfold CatalogColumns.siblings at found
  split at found
  · obtain rfl := Except.ok.inj found
    exact links.roots
  · rename_i idx
    split at found
    · rename_i fields typed
      obtain rfl := Except.ok.inj found
      intro child member
      refine links.children_column idx child ?_
      rw [typed]
      exact member
    · cases found

theorem LinksBelow.setSiblings
    (links : columns.LinksBelow bound)
    (parent : Option ArenaIdx)
    (named : IndexMap Text ArenaIdx)
    (below : ∀ idx ∈ named.values, idx < bound) :
    (columns.setSiblings parent named).LinksBelow bound := by
  cases parent with
  | none => exact ⟨below, links.children⟩
  | some idx => exact links.modifyColumn idx _ fun _ _ => below

theorem mem_values_insert
    (map : IndexMap Text ArenaIdx)
    (key : Text)
    (value idx : ArenaIdx)
    (member : idx ∈ (map.insert key value).values) :
    idx = value ∨ idx ∈ map.values := by
  obtain ⟨entry, inside, rfl⟩ := List.mem_map.mp member
  rcases IndexMap.mem_insertEntries _ _ _ entry inside with rfl | old
  · exact Or.inl rfl
  · exact Or.inr (List.mem_map_of_mem old)

theorem nextColumnId_of_addColumnToArena
    (column : Column)
    (parent : Option ArenaIdx)
    (idxs : List ArenaIdx)
    (success : columns.addColumnToArena column parent false = .ok (idxs, after)) :
    ∃ next, columns.nextColumnId = some next := by
  obtain ⟨grown, steps, _⟩ := bind_eq_ok.mp success
  have filled : 0 < (column.flatten.zipIdx.map Prod.swap).length := by
    have size := column.size_pos
    rw [List.length_map, List.length_zipIdx, Column.length_flatten]
    exact size
  cases entries : column.flatten.zipIdx.map Prod.swap with
  | nil =>
      rw [entries] at filled
      cases filled
  | cons first rest =>
      rw [entries, List.foldlM_cons] at steps
      obtain ⟨middle, added, _⟩ := bind_eq_ok.mp steps
      obtain ⟨next, _, counted, _⟩ :=
        (addFlattenedColumn_ids _ _ parent false first added).2
      exact ⟨next, counted⟩

theorem addColumn_ids
    (parent : Option ArenaIdx)
    (column : Column)
    (idxs : List ArenaIdx)
    (closed : columns.Closed)
    (success : columns.addColumn parent column = .ok (idxs, after)) :
    after.Closed ∧ idxs = List.range' columns.arena.length column.size ∧
      ∃ next, columns.nextColumnId = some next ∧
        after.nextColumnId = some (next + column.size) ∧
        after.ids = columns.ids ++ (List.range column.size).map fun (offset : Nat) =>
          next + (offset : Int) := by
  obtain ⟨_, _, success⟩ := bind_eq_ok.mp success
  obtain ⟨⟨placed, grown⟩, added, success⟩ := bind_eq_ok.mp success
  obtain ⟨named, siblings, success⟩ := bind_eq_ok.mp success
  obtain ⟨rfl, rfl⟩ := Prod.mk.inj (Except.ok.inj success)
  obtain ⟨places, _, size, _⟩ := addColumnToArena_eq_ok columns grown column parent false _ added
  obtain ⟨closedLater, _, counts⟩ := addColumnToArena_ids column parent false _ closed added
  obtain ⟨next, counted⟩ := nextColumnId_of_addColumnToArena column parent _ added
  obtain ⟨nextLater, idsLater⟩ := counts rfl next counted
  obtain ⟨sameIds, sameNext⟩ :=
    ids_setSiblings grown parent (named.insert column.name columns.arena.length)
  have length : (grown.setSiblings parent
      (named.insert column.name columns.arena.length)).arena.length = grown.arena.length := by
    rw [← length_ids, sameIds, length_ids]
  refine ⟨?_, places, next, counted, sameNext.trans nextLater, sameIds.trans idsLater⟩
  unfold Closed
  rw [length]
  refine closedLater.setSiblings parent _ fun idx member => ?_
  rcases mem_values_insert _ _ _ _ member with rfl | old
  · have filled := column.size_pos
    change columns.arena.length < grown.arena.length
    omega
  · exact closedLater.siblings parent named siblings idx old

theorem map_column_id_range'
    (added : List Int)
    (grown : after.ids = columns.ids ++ added) :
    (List.range' columns.arena.length added.length).map (fun idx => (after.column idx).id) =
      added := by
  have size : after.arena.length = columns.arena.length + added.length := by
    rw [← length_ids, grown, List.length_append, length_ids]
  refine List.ext_getElem? fun position => ?_
  by_cases inside : position < added.length
  · have reached : columns.arena.length + position < after.arena.length := by omega
    rw [List.getElem?_map, List.getElem?_range' inside, Option.map_some, Nat.one_mul,
      ← getElem?_ids after _ reached, grown,
      List.getElem?_append_right (by rw [length_ids]; omega), length_ids, Nat.add_sub_cancel_left]
  · rw [List.getElem?_eq_none (by simpa using inside), List.getElem?_eq_none (by simpa using inside)]

theorem map_column_id_range (columns : CatalogColumns) :
    (List.range columns.arena.length).map (fun idx => (columns.column idx).id) = columns.ids := by
  rw [List.range_eq_range', ← length_ids]
  exact @map_column_id_range' (new none) columns columns.ids rfl

theorem renameColumn_ids
    (idx : ArenaIdx)
    (newName : Text)
    (closed : columns.Closed)
    (inside : idx < columns.arena.length)
    (success : columns.renameColumn idx newName = .ok after) :
    after.Closed ∧ after.ids = columns.ids ∧ after.nextColumnId = columns.nextColumnId := by
  obtain ⟨named, unique, success⟩ := bind_eq_ok.mp success
  obtain ⟨siblings, found, unique⟩ := bind_eq_ok.mp unique
  split at success
  · obtain rfl := Except.ok.inj success
    have same : named = siblings := by
      split at unique
      · cases unique
      · exact (Except.ok.inj unique).symm
    subst same
    obtain ⟨sameIds, sameNext⟩ := ids_setSiblings columns (columns.column idx).parentColumn
      (named.replaceKey (columns.column idx).name newName idx)
    have idsKept := (ids_modifyColumn (columns.setSiblings (columns.column idx).parentColumn
      (named.replaceKey (columns.column idx).name newName idx)) idx
        (fun column => { column with name := newName }) fun _ => rfl).trans sameIds
    refine ⟨?_, idsKept, sameNext⟩
    unfold Closed
    rw [← length_ids, idsKept, length_ids]
    have below := closed.setSiblings (columns.column idx).parentColumn
      (named.replaceKey (columns.column idx).name newName idx) fun child member => by
        obtain ⟨entry, listed, rfl⟩ := List.mem_map.mp member
        obtain ⟨old, oldMember, rfl⟩ := List.mem_map.mp listed
        split
        · exact inside
        · exact closed.siblings _ _ found _ (List.mem_map_of_mem (List.mem_of_mem_filter oldMember))
    exact below.modifyColumn idx _ below.children
  · cases success

/-! ## New and loaded tables -/

theorem fromSchema_ids
    (schema : Schema)
    (nextColumnId : Option Int)
    (success : fromSchema schema nextColumnId = .ok columns) :
    columns.Closed ∧
      (∀ next, nextColumnId = some next → columns.nextColumnId = some next ∧
        columns.ids = (schema.columns.values.flatMap Column.flatten).filterMap
          fun flat => flat.column.fieldId) ∧
      (nextColumnId = none → columns.nextColumnId = some (columns.arena.length + 1) ∧
        columns.ids = (List.range columns.arena.length).map fun (offset : Nat) =>
          (offset : Int) + 1) := by
  have steps : ∀ (rest : List Column) (before after : CatalogColumns), before.Closed →
      rest.foldlM (fun columns column => do
        let added ← columns.addColumnToArena column none nextColumnId.isSome
        .ok { added.2 with
          rootColumns := added.2.rootColumns.insert column.name columns.arena.length })
        before = Except.ok (ε := DucklakeError) after →
      after.Closed ∧
        (nextColumnId.isSome = true → after.nextColumnId = before.nextColumnId ∧
          after.ids = before.ids ++ (rest.flatMap Column.flatten).filterMap
            fun flat => flat.column.fieldId) ∧
        (nextColumnId.isSome = false → before.nextColumnId = some (before.arena.length + 1) →
          before.ids = (List.range before.arena.length).map (fun (offset : Nat) =>
            (offset : Int) + 1) →
          after.nextColumnId = some (after.arena.length + 1) ∧
            after.ids = (List.range after.arena.length).map fun (offset : Nat) =>
              (offset : Int) + 1) := by
    intro rest
    induction rest with
    | nil =>
        intro before after closed success
        obtain rfl := Except.ok.inj success
        exact ⟨closed, fun _ => by simp, fun _ counted ids => ⟨counted, ids⟩⟩
    | cons column rest ih =>
        intro before after closed success
        obtain ⟨middle, added, success⟩ := bind_eq_ok.mp success
        obtain ⟨⟨idxs, grown⟩, placed, added⟩ := bind_eq_ok.mp added
        obtain rfl := Except.ok.inj added
        obtain ⟨_, _, size, _, _⟩ := addColumnToArena_eq_ok before grown column none _ idxs placed
        obtain ⟨closedGrown, preserved, counts⟩ :=
          addColumnToArena_ids column none _ idxs closed placed
        have closedMiddle : CatalogColumns.Closed { grown with
            rootColumns := grown.rootColumns.insert column.name before.arena.length } := by
          refine ⟨fun idx member => ?_, closedGrown.children⟩
          rcases mem_values_insert _ _ _ _ member with rfl | old
          · have filled := column.size_pos
            change before.arena.length < grown.arena.length
            omega
          · exact closedGrown.roots idx old
        obtain ⟨closedAfter, preservedLater, countsLater⟩ := ih _ after closedMiddle success
        refine ⟨closedAfter, fun given => ?_, fun missing counted ids => ?_⟩
        · obtain ⟨next, appended⟩ := preserved given
          obtain ⟨nextLater, appendedLater⟩ := preservedLater given
          refine ⟨nextLater.trans next, ?_⟩
          rw [appendedLater, List.flatMap_cons, List.filterMap_append, ← List.append_assoc]
          exact congrArg (· ++ _) appended
        · obtain ⟨next, appended⟩ := counts missing _ counted
          refine countsLater missing ?_ ?_
          · refine next.trans ?_
            change some _ = some ((grown.arena.length : Int) + 1)
            rw [size]
            push_cast
            congr 1
            omega
          · refine appended.trans ?_
            change _ = (List.range grown.arena.length).map _
            rw [size, List.range_add, List.map_append, ids, List.map_map]
            refine congrArg (_ ++ ·) (List.map_congr_left fun offset _ => ?_)
            simp only [Function.comp_apply]
            push_cast
            omega
  obtain ⟨closed, preserved, counts⟩ := steps schema.columns.values
    (new (some (nextColumnId.getD 1))) columns (new_linksBelow _ _) success
  refine ⟨closed, ?_, ?_⟩
  · rintro next rfl
    obtain ⟨same, ids⟩ := preserved rfl
    exact ⟨same, ids⟩
  · rintro rfl
    exact counts rfl rfl rfl

theorem mem_columnTypeFromDucklake
    (columnType : Text)
    (children : List (DucklakeColumn × ArenaIdx))
    (dtype : CatalogDataType)
    (success : columnTypeFromDucklake columnType children = .ok dtype) :
    ∀ idx ∈ CatalogColumns.children dtype, idx ∈ children.map Prod.snd := by
  intro idx member
  unfold columnTypeFromDucklake at success
  split at success
  · split at success
    · obtain rfl := Except.ok.inj success
      rw [List.mem_singleton.mp member]
      simp
    · cases success
  · split at success
    · dsimp only at success
      obtain ⟨fields, folded, success⟩ := bind_eq_ok.mp success
      obtain rfl := Except.ok.inj success
      have inside := foldlM_invariant (fun (fields : IndexMap Text ArenaIdx) =>
          ∀ idx ∈ fields.values, idx ∈ children.map Prod.snd) (by simp [IndexMap.values,
            IndexMap.empty])
        (fun fields child next childMember old stepped => by
          split at stepped
          · cases stepped
          · obtain rfl := Except.ok.inj stepped
            intro idx member
            rcases mem_values_insert _ _ _ _ member with rfl | before
            · have listed : child ∈ children := by
                simpa [sortByKey, List.mem_insertionSort] using childMember
              exact List.mem_map_of_mem listed
            · exact old idx before) folded
      exact inside idx member
    · split at success
      · split at success
        · cases success
        · dsimp only at success
          split at success
          · cases success
          · cases success
          · rename_i key value keyFound valueFound
            obtain rfl := Except.ok.inj success
            have keyMember := List.mem_of_mem_filter (List.mem_of_getLast? keyFound)
            have valueMember := List.mem_of_mem_filter (List.mem_of_getLast? valueFound)
            simp only [CatalogColumns.children, List.mem_cons, List.not_mem_nil, or_false] at member
            rcases member with rfl | rfl
            · exact List.mem_map_of_mem keyMember
            · exact List.mem_map_of_mem valueMember
      · obtain ⟨type, _, rfl⟩ := map_eq_ok.mp success
        cases member

theorem fromDucklake_closed
    (env : Environment)
    (rows : List DucklakeColumn)
    (tags : List DucklakeColumnTag)
    (success : fromDucklake env rows tags = .ok columns) :
    columns.Closed := by
  have loaded := fromDucklake_invariant env rows tags columns (fun loaded columns =>
    columns.arena.length = loaded.length ∧ columns.LinksBelow (sortByOrder rows).length)
    ⟨rfl, new_linksBelow _ _⟩ ?_ success
  · unfold Closed
    rw [loaded.1]
    exact loaded.2
  · rintro loaded row rest before after column split ⟨size, links⟩ loads
    refine ⟨by simp [loads.arena, size], ?_, ?_⟩
    · intro idx member
      rw [loads.rootColumns] at member
      split at member
      · exact links.roots idx member
      · rcases mem_values_insert _ _ _ _ member with rfl | old
        · rw [size, split]
          simp
        · exact links.roots idx old
    · intro other member
      rw [loads.arena] at member
      rcases List.mem_append.mp member with old | new
      · exact links.children other old
      · rw [List.mem_singleton.mp new]
        intro child childMember
        have listed := mem_columnTypeFromDucklake _ _ _ loads.dtype child childMember
        obtain ⟨entry, inside, rfl⟩ := List.mem_map.mp listed
        have place := List.snd_lt_of_mem_zipIdx (List.mem_of_mem_filter inside)
        rwa [Nat.add_zero] at place

end

end CatalogColumns

end Ducklake
