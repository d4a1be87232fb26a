import Ducklake.Catalog.ColumnTrees

/-!
# Added column trees

A column tree that was added to the arena is shown as it was given: the fields of a struct that
have one name are shown as the last of them.
-/

set_option autoImplicit false

namespace Ducklake

open Lib Spec

/-! ## The last of a name -/

namespace Lib.IndexMap

variable {κ α : Type} [DecidableEq κ]

theorem get?_foldl_insert_of_notMem
    (entries : List (κ × α))
    (map : IndexMap κ α)
    (key : κ)
    (absent : key ∉ entries.map Prod.fst) :
    (entries.foldl (fun map entry => map.insert entry.1 entry.2) map).get? key = map.get? key := by
  induction entries generalizing map with
  | nil => rfl
  | cons entry rest ih =>
      rw [List.map_cons, List.mem_cons, not_or] at absent
      rw [List.foldl_cons, ih _ absent.2, get?_insert_of_ne _ _ _ _ absent.1]

theorem get?_ofList_last
    (front back : List (κ × α))
    (key : κ)
    (value : α)
    (absent : key ∉ back.map Prod.fst) :
    (ofList (front ++ (key, value) :: back)).get? key = some value := by
  unfold ofList
  rw [List.foldl_append, List.foldl_cons, get?_foldl_insert_of_notMem _ _ _ absent,
    get?_insert_self]

end Lib.IndexMap

namespace Column

theorem forall₂_starts
    (relation : Column → Nat → Prop)
    (columns : List Column)
    (start : Nat)
    (each : ∀ front column back, columns = front ++ column :: back →
      relation column (start + sizeOfAll front)) :
    List.Forall₂ relation columns (starts start columns) := by
  induction columns generalizing start with
  | nil => exact .nil
  | cons first rest ih =>
      refine .cons (each [] first rest rfl) (ih (start + first.size) fun front column back split => ?_)
      have place := each (first :: front) column back (by rw [split, List.cons_append])
      rwa [sizeOfAll, ← Nat.add_assoc] at place

theorem fieldNamed_split
    (fields : List Column)
    (name : Text)
    (field : Column)
    (found : fieldNamed fields name = some field) :
    ∃ front back, fields = front ++ field :: back ∧ name ∉ back.map Column.name := by
  unfold fieldNamed at found
  obtain ⟨_, before, after, split, none⟩ := List.find?_eq_some_iff_append.mp found
  refine ⟨after.reverse, before.reverse, ?_, fun member => ?_⟩
  · rw [← List.reverse_reverse fields, split]
    simp
  · obtain ⟨other, listed, same⟩ := List.mem_map.mp member
    simpa [same] using none other (List.mem_reverse.mp listed)

theorem fieldNamed_values
    {α : Type}
    (named : IndexMap Text α)
    (shown : α → Column)
    (names : ∀ name idx, named.get? name = some idx → (shown idx).name = name)
    (name : Text) :
    fieldNamed (named.values.map shown) name = (named.get? name).map shown := by
  have keys : (named.values.map shown).map Column.name = named.keys := by
    unfold IndexMap.values IndexMap.keys
    rw [List.map_map, List.map_map]
    exact List.map_congr_left fun entry inside =>
      names entry.1 entry.2 ((IndexMap.get?_eq_some_iff named _ _).mpr inside)
  cases found : named.get? name with
  | none =>
      refine (fieldNamed_eq_none_iff _ _).mpr ?_
      rw [keys]
      exact (IndexMap.get?_eq_none_iff named name).mp found
  | some idx =>
      have member : shown idx ∈ named.values.map shown :=
        List.mem_map_of_mem ((IndexMap.mem_values_iff named idx).mpr ⟨name, found⟩)
      have field := fieldNamed_of_mem _ (keys ▸ named.unique) _ member
      rwa [names name idx found] at field

end Column

theorem DataType.agrees_struct_of_copies
    (fields : List Column)
    (idxs : List ArenaIdx)
    (shown : ArenaIdx → Column)
    (copies : List.Forall₂ (fun field idx => Copies field (shown idx)) fields idxs) :
    Agrees (.struct ((IndexMap.ofList ((fields.map Column.name).zip idxs)).values.map shown))
      (.struct fields) := by
  have entries : ∀ entry ∈ (fields.map Column.name).zip idxs, (shown entry.2).name = entry.1 := by
    induction copies with
    | nil => exact nofun
    | cons first _ ih =>
        intro entry member
        rcases List.mem_cons.mp member with rfl | later
        · exact first.name
        · exact ih entry later
  have keys : ((fields.map Column.name).zip idxs).map Prod.fst = fields.map Column.name := by
    rw [List.map_fst_zip]
    rw [List.length_map, copies.length_eq]
  have found := Column.fieldNamed_values (IndexMap.ofList ((fields.map Column.name).zip idxs)) shown
    fun name idx found => by
      rcases IndexMap.mem_foldl_insert _ _ _ ((IndexMap.get?_eq_some_iff _ _ _).mp found) with
        inside | impossible
      · exact entries _ inside
      · cases impossible
  have each : ∀ name field, Column.fieldNamed fields name = some field → ∃ idx,
      (IndexMap.ofList ((fields.map Column.name).zip idxs)).get? name = some idx ∧
        Copies field (shown idx) := by
    intro name field foundField
    obtain ⟨_, rfl⟩ := Column.mem_of_fieldNamed _ _ _ foundField
    obtain ⟨front, back, rfl, later⟩ := Column.fieldNamed_split _ _ _ foundField
    have before := (List.forall₂_take front.length copies).length_eq
    have after := List.forall₂_drop front.length copies
    rw [List.take_left] at before
    rw [List.drop_left] at after
    obtain ⟨idx, backIdxs, here, behind, split⟩ := List.forall₂_cons_left_iff.mp after
    refine ⟨idx, ?_, here⟩
    rw [← List.take_append_drop front.length idxs, split, List.map_append,
      List.zip_append (by rw [List.length_map]; exact before), List.map_cons, List.zip_cons_cons]
    refine IndexMap.get?_ofList_last _ _ _ _ ?_
    rw [List.map_fst_zip (by rw [List.length_map, behind.length_eq])]
    exact later
  refine .struct _ fields (fun name => ?_) (fun name a b foundA foundB => ?_)
    fun name a b foundA foundB => ?_
  · cases foundField : Column.fieldNamed fields name with
    | some field =>
        obtain ⟨idx, get, _⟩ := each name field foundField
        rw [found, get]
        rfl
    | none =>
        rw [found, (IndexMap.get?_eq_none_iff _ _).mpr]
        · rfl
        · intro member
          refine (Column.fieldNamed_eq_none_iff _ _).mp foundField ?_
          rw [← keys]
          exact ((IndexMap.mem_keys_foldl_insert _ _ _).mp member).resolve_right nofun
  all_goals
    obtain ⟨idx, get, copy⟩ := each name b foundB
    rw [found, get] at foundA
    obtain rfl := Option.some.inj foundA
  · exact copy.alike
  · exact copy.dtype

namespace CatalogColumns

section

variable {columns : CatalogColumns} {first : ArenaIdx} {parent : Option ArenaIdx} {root : Column}

/-- The children of an entry stand at the positions of the column's children. -/
theorem Laid.copies
    (laid : columns.Laid first parent root)
    (column : Column)
    (fuel start : Nat)
    (above : Option Nat)
    (piece : Column.PieceOf root.flatten start above column)
    (enough : column.size ≤ fuel + 1) :
    DataType.Copies column (columns.schemaColumn fuel (first + start)) := by
  induction column using Column.induct generalizing fuel start above with
  | step column ih =>
      have entry := laid.entries start ⟨column, above⟩ piece.root
      have typed := laid.children start above column piece
      have whole := Column.size_eq column
      obtain ⟨shown, shape, continues⟩ := @schemaColumn_eq columns fuel (first + start)
      have child : ∀ front inner back, column.dtype.children = front ++ inner :: back →
          DataType.Copies inner (shown (first + (start + 1 + Column.sizeOfAll front))) := by
        intro front inner back split
        have size : Column.sizeOfAll front + inner.size + Column.sizeOfAll back + 1 = column.size := by
          rw [whole, split, Column.sizeOfAll_eq, Column.sizeOfAll_eq, Column.sizeOfAll_eq]
          simp only [List.map_append, List.map_cons, List.sum_append, List.sum_cons]
          omega
        have positive := inner.size_pos
        obtain ⟨rest, rfl⟩ : ∃ rest, fuel = rest + 1 := ⟨fuel - 1, by omega⟩
        rw [continues rest rfl]
        exact ih inner (by simp [split]) rest _ _ (piece.child front back inner split) (by omega)
      refine ⟨(name_schemaColumn _ _).trans entry.name, ?_, ?_⟩
      · rw [shape]
        exact ⟨entry.nullable, entry.defaultValue⟩
      · rw [shape]
        rw [CatalogColumn.dtype_shownWith]
        generalize (columns.column (first + start)).dtype = stored at typed
        cases kind : column.dtype with
        | primitive type =>
            rw [kind] at typed
            obtain rfl := Except.ok.inj typed
            exact .primitive type
        | list inner =>
            rw [kind] at typed child
            obtain rfl := Except.ok.inj typed
            have copies := child [] inner [] rfl
            exact .list _ inner copies.alike copies.dtype
        | map key value =>
            rw [kind] at typed child
            obtain rfl := Except.ok.inj typed
            have keyCopies := child [] key [value] rfl
            have valueCopies := child [key] value [] rfl
            exact .map _ _ key value keyCopies.alike valueCopies.alike keyCopies.dtype
              valueCopies.dtype
        | struct fields =>
            rw [kind] at typed child
            have copies := Column.forall₂_starts
              (fun field position => DataType.Copies field (shown (first + position))) fields (start + 1)
              child
            cases fields with
            | nil => cases typed
            | cons field rest =>
                obtain rfl := Except.ok.inj typed
                exact DataType.agrees_struct_of_copies (field :: rest)
                  ((Column.starts (start + 1) (field :: rest)).map (first + ·)) shown
                  (List.forall₂_map_right_iff.mpr copies)

end

/-! ## Additions -/

section

variable {columns after grown : CatalogColumns} {parent : Option ArenaIdx} {column : Column}
variable {named : IndexMap Text ArenaIdx}

theorem column_setSiblings_of_ne
    (columns : CatalogColumns)
    (parent : Option ArenaIdx)
    (named : IndexMap Text ArenaIdx)
    (idx : ArenaIdx)
    (distinct : parent ≠ some idx) :
    (columns.setSiblings parent named).column idx = columns.column idx := by
  unfold setSiblings
  split
  · rfl
  · exact column_modifyColumn_of_ne _ _ _ _ fun same => distinct (congrArg some same.symm)

theorem Adding.length (adding : columns.Adding parent column after grown named) :
    after.arena.length = columns.arena.length + column.size := by
  rw [adding.added, length_setSiblings]
  exact (addColumnToArena_eq_ok _ _ _ _ _ _ adding.placed).2.2.1

theorem Adding.column_of_lt
    (adding : columns.Adding parent column after grown named)
    (idx : ArenaIdx)
    (inside : idx < columns.arena.length)
    (distinct : parent ≠ some idx) :
    after.column idx = columns.column idx := by
  rw [adding.added, column_setSiblings_of_ne _ _ _ _ distinct]
  exact (addColumnToArena_eq_ok _ _ _ _ _ _ adding.placed).2.1.column idx inside

theorem Adding.column_parent
    {idx : ArenaIdx}
    (adding : columns.Adding (some idx) column after grown named) :
    after.column idx = { columns.column idx with
      dtype := .struct (named.insert column.name columns.arena.length) } := by
  obtain ⟨inside, _⟩ := siblings_lt named idx adding.found
  have continues := (addColumnToArena_eq_ok _ _ _ _ _ _ adding.placed).2.1
  rw [adding.added]
  unfold setSiblings
  rw [column_modifyColumn_self _ _ _ (Nat.lt_of_lt_of_le inside continues.length_le),
    continues.column idx inside]

theorem Adding.copies
    (adding : columns.Adding parent column after grown named)
    (fuel : Nat)
    (enough : column.size ≤ fuel + 1) :
    DataType.Copies column (after.schemaColumn fuel columns.arena.length) := by
  have laid := addColumnToArena_laid _ _ _ _ _ _ adding.placed
  have later : ∀ position, after.column (columns.arena.length + position) =
      grown.column (columns.arena.length + position) := by
    intro position
    rw [adding.added]
    refine column_setSiblings_of_ne _ _ _ _ ?_
    rintro rfl
    exact Nat.not_lt.mpr (Nat.le_add_right _ _) (siblings_lt named _ adding.found).1
  have laidAfter : after.Laid columns.arena.length parent column := by
    refine ⟨Nat.le_of_eq adding.length.symm, fun position flat found => ?_⟩
    have entry := laid.entries position flat found
    exact {
      dtype := by rw [later]; exact entry.dtype
      name := by rw [later]; exact entry.name
      parentColumn := by rw [later]; exact entry.parentColumn
      nullable := by rw [later]; exact entry.nullable
      tags := by rw [later]; exact entry.tags
      initialDefault := by rw [later]; exact entry.initialDefault
      defaultValue := by rw [later]; exact entry.defaultValue }
  exact laidAfter.copies column fuel 0 none (Column.pieceOf_flatten column) enough

theorem Adding.changesAt
    {idx : ArenaIdx}
    (adding : columns.Adding (some idx) column after grown named)
    (linked : columns.Linked)
    (path : List Text)
    (found : columns.arenaIdxByPath path = .ok idx) :
    ChangesAt columns after path idx where
  found := found
  paths := (Extends.add idx column adding).arenaIdxByPath
  others other place reached distinct := by
    refine adding.column_of_lt place (linked.closed.arenaIdxByPath other place reached) ?_
    rintro same
    exact distinct (Option.some.inj same).symm

theorem Adding.addsField
    {idx : ArenaIdx}
    (adding : columns.Adding (some idx) column after grown named)
    (tree : columns.Treelike)
    (linked : after.Linked)
    (path : List Text)
    (found : columns.arenaIdxByPath path = .ok idx)
    (fuel fuel' : Nat)
    (lasts : columns.LastsBelow path fuel)
    (lasts' : after.LastsBelow path fuel') :
    Column.AddsField column (columns.schemaColumn fuel idx) (after.schemaColumn fuel' idx) := by
  have changes := adding.changesAt tree.linked path found
  obtain ⟨inside, typed⟩ := siblings_lt named idx adding.found
  obtain ⟨shown, shape, below⟩ := tree.linked.schemaColumn_below path idx fuel found lasts
  obtain ⟨shown', shape', below'⟩ :=
    linked.schemaColumn_below path idx fuel' (changes.paths path idx found) lasts'
  have entries : (named.insert column.name columns.arena.length).values =
      named.values ++ [columns.arena.length] := by
    change (IndexMap.insertEntries _ _ named.entries).map Prod.snd = _
    rw [IndexMap.insertEntries_of_notMem _ _ _ adding.fresh, List.map_append]
    rfl
  have stepped : ∀ name place, named.get? name = some place →
      columns.childByName idx name = some place ∧ after.childByName idx name = some place := by
    intro name place get
    constructor
    · unfold childByName
      rw [typed]
      exact get
    · unfold childByName
      rw [adding.column_parent]
      dsimp only
      rw [IndexMap.get?_insert_of_ne]
      · exact get
      · rintro rfl
        exact adding.fresh (List.mem_map_of_mem ((IndexMap.get?_eq_some_iff _ _ _).mp get))
  have kept : named.values.map shown' = named.values.map shown := by
    refine List.map_congr_left fun place member => ?_
    obtain ⟨name, get⟩ := (IndexMap.mem_values_iff _ _).mp member
    obtain ⟨rest, _, same, lasts⟩ := below name place (stepped name place get).1
    obtain ⟨rest', _, same', lasts'⟩ := below' name place (stepped name place get).2
    rw [same, same']
    refine changes.apart tree linked (path ++ [name]) place rest rest'
      (arenaIdxByPath_append path name idx place found (stepped name place get).1) lasts lasts' ?_
    intro within
    have longer := within.length_le
    rw [List.length_append, List.length_singleton] at longer
    omega
  have names : ∀ name place, named.get? name = some place → (shown place).name = name := by
    intro name place get
    obtain ⟨rest, _, same, _⟩ := below name place (stepped name place get).1
    rw [same, name_schemaColumn]
    exact tree.linked.fields idx named typed name place get
  have copies : DataType.Copies column (shown' columns.arena.length) := by
    obtain ⟨rest, rfl, same, _⟩ := below' column.name columns.arena.length (by
      unfold childByName
      rw [adding.column_parent]
      exact IndexMap.get?_insert_self _ _ _)
    have short := tree.linked.length_path_le path idx found
    unfold LastsBelow at lasts'
    rw [adding.length] at lasts'
    rw [same]
    exact adding.copies rest (by omega)
  refine ⟨named.values.map shown, shown' columns.arena.length, ?_, ?_, copies, ?_⟩
  · rw [shape, CatalogColumn.dtype_shownWith, typed]
    rfl
  · rw [← Column.fieldNamed_eq_none_iff, Column.fieldNamed_values named shown names,
      (IndexMap.get?_eq_none_iff _ _).mpr adding.fresh]
    rfl
  · rw [shape, shape', adding.column_parent]
    simp [CatalogColumn.shownWith, CatalogDataType.shownWith, Column.withDtype, entries, kept]

end

end CatalogColumns

end Ducklake
