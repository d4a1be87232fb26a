import Ducklake.Catalog.Extensions
import Ducklake.Typedefs.TreeEdits

/-!
# Shown column trees

A column is shown with the columns below it.  A change of one column of the arena edits the trees
above it at the path that leads there, and no others.
-/

set_option autoImplicit false

namespace Ducklake

open Lib Spec

def CatalogDataType.shownWith (child : ArenaIdx → Column) : CatalogDataType → DataType
  | .primitive type => .primitive type
  | .list item => .list (child item)
  | .struct fields => .struct (fields.values.map child)
  | .map key value => .map (child key) (child value)

def CatalogColumn.shownWith (column : CatalogColumn) (child : ArenaIdx → Column) : Column :=
  .mk column.name (column.dtype.shownWith child) column.nullable column.tags column.initialDefault
    column.defaultValue (some column.id)

@[simp] theorem CatalogColumn.dtype_shownWith
    (column : CatalogColumn)
    (child : ArenaIdx → Column) :
    (column.shownWith child).dtype = column.dtype.shownWith child :=
  rfl

namespace CatalogColumns

/-- The key and the value of a map are different columns. -/
def MapsApart (columns : CatalogColumns) : Prop :=
  ∀ idx key value, (columns.column idx).dtype = .map key value → key ≠ value

/-- The links between the columns are those of trees: no column is reached in two ways. -/
structure Treelike (columns : CatalogColumns) : Prop where
  linked : columns.Linked
  maps : columns.MapsApart

def LastsBelow (columns : CatalogColumns) (path : List Text) (fuel : Nat) : Prop :=
  columns.arena.length ≤ path.length + fuel

section

variable {columns before after : CatalogColumns}

/-! ## Paths -/

theorem Treelike.part_unique
    (tree : columns.Treelike)
    (idx child : ArenaIdx)
    (part other : Text)
    (stepped : columns.childByName idx part = some child)
    (steppedOther : columns.childByName idx other = some child) :
    part = other := by
  unfold childByName at stepped steppedOther
  cases typed : (columns.column idx).dtype with
  | primitive type =>
      rw [typed] at stepped
      cases stepped
  | list item =>
      rw [typed] at stepped steppedOther
      dsimp only at stepped steppedOther
      split at stepped
      · split at steppedOther
        · simp_all
        · cases steppedOther
      · cases stepped
  | struct fields =>
      rw [typed] at stepped steppedOther
      rw [← tree.linked.fields idx fields typed part child stepped,
        ← tree.linked.fields idx fields typed other child steppedOther]
  | map key value =>
      have distinct := tree.maps idx key value typed
      rw [typed] at stepped steppedOther
      dsimp only at stepped steppedOther
      grind

theorem Treelike.path_unique
    (tree : columns.Treelike)
    (path other : List Text)
    (idx : ArenaIdx)
    (found : columns.arenaIdxByPath path = .ok idx)
    (foundOther : columns.arenaIdxByPath other = .ok idx) :
    path = other := by
  generalize size : path.length = steps
  induction steps generalizing path other idx with
  | zero =>
      obtain rfl := List.eq_nil_of_length_eq_zero size
      cases found
  | succ steps ih =>
      rcases arenaIdxByPath_last path idx found with ⟨root, rfl, rooted⟩ |
        ⟨front, part, parent, rfl, prior, stepped⟩ <;>
      rcases arenaIdxByPath_last other idx foundOther with ⟨root', rfl, rooted'⟩ |
        ⟨front', part', parent', rfl, prior', stepped'⟩
      · rw [← (tree.linked.roots root idx rooted).1, ← (tree.linked.roots root' idx rooted').1]
      · have up := tree.linked.above_of_childByName parent' idx part' stepped'
        unfold above at up
        rw [(tree.linked.roots root idx rooted).2] at up
        cases up
      · have up := tree.linked.above_of_childByName parent idx part stepped
        unfold above at up
        rw [(tree.linked.roots root' idx rooted').2] at up
        cases up
      · have up := tree.linked.above_of_childByName parent idx part stepped
        have up' := tree.linked.above_of_childByName parent' idx part' stepped'
        obtain rfl := Option.some.inj (up.symm.trans up')
        have shorter : front.length = steps := by simpa using size
        rw [ih front front' parent prior prior' shorter,
          tree.part_unique parent idx part part' stepped stepped']

theorem arenaIdxByPath_continue
    (path rest : List Text)
    (idx place : ArenaIdx)
    (found : columns.arenaIdxByPath path = .ok idx)
    (reached : columns.arenaIdxByPath (path ++ rest) = .ok place) :
    rest.foldlM columns.childByName idx = some place := by
  obtain ⟨root, parts, start, rfl, rooted, walked⟩ := (arenaIdxByPath_eq_ok _ _).mp found
  obtain ⟨root', parts', start', same, rooted', walked'⟩ := (arenaIdxByPath_eq_ok _ _).mp reached
  obtain ⟨rfl, rfl⟩ := List.cons.inj same
  obtain rfl := Option.some.inj (rooted.symm.trans rooted')
  change (parts ++ rest).foldlM columns.childByName start = some place at walked'
  rw [List.foldlM_append, walked] at walked'
  exact walked'

theorem length_lt_of_childByName
    (linked : columns.Linked)
    (path : List Text)
    (idx child : ArenaIdx)
    (part : Text)
    (found : columns.arenaIdxByPath path = .ok idx)
    (stepped : columns.childByName idx part = some child) :
    path.length < columns.arena.length := by
  have short := linked.length_path_le _ _ (arenaIdxByPath_append path part idx child found stepped)
  rw [List.length_append, List.length_singleton] at short
  exact short

/-! ## Trees -/

theorem schemaColumn_succ (fuel : Nat) (idx : ArenaIdx) :
    columns.schemaColumn (fuel + 1) idx =
      (columns.column idx).shownWith (columns.schemaColumn fuel) := by
  conv_lhs => unfold schemaColumn
  rfl

/-- Without fuel, only the children are not shown as they are. -/
theorem schemaColumn_eq (fuel : Nat) (idx : ArenaIdx) :
    ∃ child : ArenaIdx → Column,
      columns.schemaColumn fuel idx = (columns.column idx).shownWith child ∧
        ∀ rest, fuel = rest + 1 → child = columns.schemaColumn rest := by
  cases fuel with
  | zero =>
      refine ⟨fun _ => .mk [] (.struct []) true default none (.literal none) none, ?_, nofun⟩
      conv_lhs => unfold schemaColumn
      rfl
  | succ fuel =>
      refine ⟨columns.schemaColumn fuel, schemaColumn_succ fuel idx, fun rest same => ?_⟩
      rw [Nat.succ_injective same]

theorem Linked.schemaColumn_below
    (linked : columns.Linked)
    (path : List Text)
    (idx : ArenaIdx)
    (fuel : Nat)
    (found : columns.arenaIdxByPath path = .ok idx)
    (lasts : columns.LastsBelow path fuel) :
    ∃ child : ArenaIdx → Column,
      columns.schemaColumn fuel idx = (columns.column idx).shownWith child ∧
        ∀ part place, columns.childByName idx part = some place → ∃ rest, fuel = rest + 1 ∧
          child place = columns.schemaColumn rest place ∧
            columns.LastsBelow (path ++ [part]) rest := by
  obtain ⟨child, shape, continues⟩ := @schemaColumn_eq columns fuel idx
  refine ⟨child, shape, fun part place stepped => ?_⟩
  have short := length_lt_of_childByName linked path idx place part found stepped
  unfold LastsBelow at lasts ⊢
  obtain ⟨rest, rfl⟩ : ∃ rest, fuel = rest + 1 := ⟨fuel - 1, by omega⟩
  refine ⟨rest, rfl, by rw [continues rest rfl], ?_⟩
  rw [List.length_append, List.length_singleton]
  omega

theorem shownWith_congr
    (column : CatalogColumn)
    (child child' : ArenaIdx → Column)
    (same : ∀ idx ∈ children column.dtype, child idx = child' idx) :
    column.shownWith child = column.shownWith child' := by
  unfold CatalogColumn.shownWith CatalogDataType.shownWith
  cases shape : column.dtype with
  | primitive type => rfl
  | list item =>
      rw [shape] at same
      simp only [same item (by simp [children])]
  | struct fields =>
      rw [shape] at same
      have fieldsSame : fields.values.map child = fields.values.map child' :=
        List.map_congr_left same
      simp only [fieldsSame]
  | map key value =>
      rw [shape] at same
      simp only [same key (by simp [children]), same value (by simp [children])]

theorem schemaColumn_congr
    (linked : before.Linked)
    (linkedAfter : after.Linked)
    (path : List Text)
    (idx : ArenaIdx)
    (fuel fuel' : Nat)
    (found : before.arenaIdxByPath path = .ok idx)
    (foundAfter : after.arenaIdxByPath path = .ok idx)
    (lasts : before.LastsBelow path fuel)
    (lastsAfter : after.LastsBelow path fuel')
    (same : ∀ rest place, before.arenaIdxByPath (path ++ rest) = .ok place →
      after.column place = before.column place) :
    before.schemaColumn fuel idx = after.schemaColumn fuel' idx := by
  induction fuel using Nat.strong_induction_on generalizing fuel' path idx with
  | _ fuel ih =>
      have here : after.column idx = before.column idx :=
        same [] idx (by rw [List.append_nil]; exact found)
      have steps : after.childByName idx = before.childByName idx := by
        funext part
        unfold childByName
        rw [here]
      obtain ⟨child, shape, below⟩ := linked.schemaColumn_below path idx fuel found lasts
      obtain ⟨child', shape', below'⟩ :=
        linkedAfter.schemaColumn_below path idx fuel' foundAfter lastsAfter
      rw [shape, shape', here]
      refine shownWith_congr _ _ _ fun place member => ?_
      obtain ⟨part, stepped⟩ := childByName_of_mem idx place member
      have steppedAfter : after.childByName idx part = some place := by rw [steps, stepped]
      obtain ⟨rest, rfl, shown, lasts⟩ := below part place stepped
      obtain ⟨rest', rfl, shown', lasts'⟩ := below' part place steppedAfter
      rw [shown, shown']
      refine ih rest (Nat.lt_succ_self rest) (path ++ [part]) place rest'
        (arenaIdxByPath_append path part idx place found stepped)
        (arenaIdxByPath_append path part idx place foundAfter steppedAfter) lasts lasts' ?_
      intro further other reached
      rw [List.append_assoc] at reached
      exact same _ other reached

/-! ## Edits of one column -/

theorem Linked.nodup_values
    (linked : columns.Linked)
    (idx : ArenaIdx)
    (fields : IndexMap Text ArenaIdx)
    (typed : (columns.column idx).dtype = .struct fields) :
    fields.values.Nodup := by
  refine List.Nodup.map_on (fun entry inside other insideOther same => ?_)
    (List.Nodup.of_map _ fields.unique)
  have named : ∀ entry ∈ fields.entries, (columns.column entry.2).name = entry.1 :=
    fun entry inside => linked.fields idx fields typed entry.1 entry.2
      ((IndexMap.get?_eq_some_iff _ _ _).mpr inside)
  exact Prod.ext ((named entry inside).symm.trans
    ((congrArg (fun place => (columns.column place).name) same).trans (named other insideOther))) same

theorem editAt_shownWith
    {edit : Column → Column → Prop}
    {rest : List Text}
    (tree : columns.Treelike)
    (idx child : ArenaIdx)
    (part : Text)
    (shown shown' : ArenaIdx → Column)
    (stepped : columns.childByName idx part = some child)
    (names : ∀ other ∈ children (columns.column idx).dtype,
      (shown other).name = (columns.column other).name)
    (edited : Column.EditAt edit rest (shown child) (shown' child))
    (apart : ∀ other ∈ children (columns.column idx).dtype, other ≠ child →
      shown' other = shown other) :
    Column.EditAt edit (part :: rest) ((columns.column idx).shownWith shown)
      ((columns.column idx).shownWith shown') := by
  have inside := mem_children_of_childByName idx child part stepped
  unfold childByName at stepped
  cases typed : (columns.column idx).dtype with
  | primitive type =>
      rw [typed] at stepped
      cases stepped
  | list item =>
      rw [typed] at stepped
      dsimp only at stepped
      split at stepped
      · subst part
        obtain rfl := Option.some.inj stepped
        have result : (columns.column idx).shownWith shown' =
            ((columns.column idx).shownWith shown).withDtype (.list (shown' item)) := by
          simp [CatalogColumn.shownWith, CatalogDataType.shownWith, typed, Column.withDtype]
        rw [result]
        exact .element (by simp [CatalogDataType.shownWith, typed]) edited
      · cases stepped
  | struct fields =>
      have name := (names child inside).trans (tree.linked.fields idx fields typed part child (by
        rwa [typed] at stepped))
      rw [typed] at apart
      have unique := tree.linked.nodup_values idx fields typed
      have listed : child ∈ fields.values := by
        rw [typed] at inside
        exact inside
      obtain ⟨front, back, values⟩ := List.append_of_mem listed
      rw [values, List.nodup_middle, List.nodup_cons] at unique
      have kept : ∀ places : List ArenaIdx, (∀ other ∈ places, other ∈ front ++ back) →
          places.map shown' = places.map shown := by
        refine fun places within => List.map_congr_left fun other member => apart other ?_ ?_
        · simp only [children, values, List.mem_append, List.mem_cons]
          rcases List.mem_append.mp (within other member) with first | second
          · exact Or.inl first
          · exact Or.inr (Or.inr second)
        · rintro rfl
          exact unique.1 (within other member)
      have result : (columns.column idx).shownWith shown' =
          ((columns.column idx).shownWith shown).withDtype
            (.struct (front.map shown ++ shown' child :: back.map shown)) := by
        simp only [CatalogColumn.shownWith, CatalogDataType.shownWith, typed, Column.withDtype, values, List.map_append,
          List.map_cons, kept front fun _ => List.mem_append_left _,
          kept back fun _ => List.mem_append_right _]
      rw [result]
      exact .field (by simp [CatalogDataType.shownWith, typed, values]) name edited
  | map key value =>
      have different := tree.maps idx key value typed
      rw [typed] at stepped apart
      dsimp only at stepped
      split at stepped
      · subst part
        obtain rfl := Option.some.inj stepped
        have result : (columns.column idx).shownWith shown' =
            ((columns.column idx).shownWith shown).withDtype (.map (shown' key) (shown value)) := by
          simp [CatalogColumn.shownWith, CatalogDataType.shownWith, typed, Column.withDtype,
            apart value (by simp [children]) different.symm]
        rw [result]
        exact .key (by simp [CatalogDataType.shownWith, typed]) edited
      · split at stepped
        · subst part
          obtain rfl := Option.some.inj stepped
          have result : (columns.column idx).shownWith shown' =
              ((columns.column idx).shownWith shown).withDtype (.map (shown key) (shown' value)) := by
            simp [CatalogColumn.shownWith, CatalogDataType.shownWith, typed, Column.withDtype,
              apart key (by simp [children]) different]
          rw [result]
          exact .value (by simp [CatalogDataType.shownWith, typed]) edited
        · cases stepped

structure ChangesAt (before after : CatalogColumns) (target : List Text) (idx : ArenaIdx) : Prop where
  found : before.arenaIdxByPath target = .ok idx
  paths : ∀ path place, before.arenaIdxByPath path = .ok place → after.arenaIdxByPath path = .ok place
  others : ∀ path place, before.arenaIdxByPath path = .ok place → place ≠ idx →
    after.column place = before.column place

section

variable {target : List Text} {idx : ArenaIdx}

theorem ChangesAt.apart
    (changes : ChangesAt before after target idx)
    (tree : before.Treelike)
    (linked : after.Linked)
    (path : List Text)
    (place : ArenaIdx)
    (fuel fuel' : Nat)
    (found : before.arenaIdxByPath path = .ok place)
    (lasts : before.LastsBelow path fuel)
    (lasts' : after.LastsBelow path fuel')
    (apart : ¬ path <+: target) :
    after.schemaColumn fuel' place = before.schemaColumn fuel place := by
  refine (schemaColumn_congr tree.linked linked path place fuel fuel' found
    (changes.paths path place found) lasts lasts' fun rest other reached => ?_).symm
  refine changes.others _ other reached ?_
  rintro rfl
  exact apart ⟨rest, tree.path_unique _ _ _ reached changes.found⟩

theorem ChangesAt.editAt
    (changes : ChangesAt before after target idx)
    (tree : before.Treelike)
    (linked : after.Linked)
    (edit : Column → Column → Prop)
    (edited : ∀ fuel fuel', before.LastsBelow target fuel → after.LastsBelow target fuel' →
      edit (before.schemaColumn fuel idx) (after.schemaColumn fuel' idx))
    (rest path : List Text)
    (place : ArenaIdx)
    (fuel fuel' : Nat)
    (split : target = path ++ rest)
    (found : before.arenaIdxByPath path = .ok place)
    (lasts : before.LastsBelow path fuel)
    (lasts' : after.LastsBelow path fuel') :
    Column.EditAt edit rest (before.schemaColumn fuel place) (after.schemaColumn fuel' place) := by
  induction rest generalizing path place fuel fuel' with
  | nil =>
      rw [List.append_nil] at split
      subst split
      obtain rfl := Except.ok.inj (found.symm.trans changes.found)
      exact .here (edited fuel fuel' lasts lasts')
  | cons part rest ih =>
      have reached := changes.found
      rw [split] at reached
      obtain ⟨child, stepped, _⟩ := Option.bind_eq_some_iff.mp
        (arenaIdxByPath_continue path (part :: rest) place idx found reached)
      have distinct : place ≠ idx := by
        rintro rfl
        simpa using congrArg List.length (tree.path_unique _ _ _ found reached)
      have here := changes.others path place found distinct
      have steps : after.childByName place = before.childByName place := by
        funext part
        unfold childByName
        rw [here]
      obtain ⟨shown, shape, below⟩ := tree.linked.schemaColumn_below path place fuel found lasts
      obtain ⟨shown', shape', below'⟩ :=
        linked.schemaColumn_below path place fuel' (changes.paths path place found) lasts'
      have edited : Column.EditAt edit rest (shown child) (shown' child) := by
        obtain ⟨rest₁, _, same, lasts⟩ := below part child stepped
        obtain ⟨rest₂, _, same', lasts'⟩ := below' part child (by rw [steps, stepped])
        rw [same, same']
        exact ih (path ++ [part]) child rest₁ rest₂ (by rw [split, List.append_assoc]; rfl)
          (arenaIdxByPath_append path part place child found stepped) lasts lasts'
      have apart : ∀ other ∈ children (before.column place).dtype, other ≠ child →
          shown' other = shown other := by
        intro other member different
        obtain ⟨part', stepped'⟩ := childByName_of_mem place other member
        obtain ⟨rest₁, _, same, lasts⟩ := below part' other stepped'
        obtain ⟨rest₂, _, same', lasts'⟩ := below' part' other (by rw [steps, stepped'])
        rw [same, same']
        refine changes.apart tree linked (path ++ [part']) other rest₁ rest₂
          (arenaIdxByPath_append path part' place other found stepped') lasts lasts' ?_
        rw [split, List.prefix_append_right_inj, List.cons_prefix_cons]
        rintro ⟨rfl, _⟩
        exact different (Option.some.inj (stepped'.symm.trans stepped))
      rw [shape, shape', here]
      refine editAt_shownWith tree place child part shown shown' stepped ?_ edited apart
      intro other member
      obtain ⟨part', stepped'⟩ := childByName_of_mem place other member
      obtain ⟨rest₁, _, same, _⟩ := below part' other stepped'
      rw [same, name_schemaColumn]

end

theorem Treelike.distinctFields
    (tree : columns.Treelike)
    (path : List Text)
    (idx : ArenaIdx)
    (fuel : Nat)
    (found : columns.arenaIdxByPath path = .ok idx)
    (lasts : columns.LastsBelow path fuel) :
    (columns.schemaColumn fuel idx).distinctFields = true := by
  induction fuel using Nat.strong_induction_on generalizing path idx with
  | _ fuel ih =>
      obtain ⟨shown, shape, below⟩ := tree.linked.schemaColumn_below path idx fuel found lasts
      have child : ∀ place ∈ children (columns.column idx).dtype,
          (shown place).distinctFields = true ∧ (shown place).name = (columns.column place).name := by
        intro place member
        obtain ⟨part, stepped⟩ := childByName_of_mem idx place member
        obtain ⟨rest, rfl, same, lasts⟩ := below part place stepped
        rw [same]
        exact ⟨ih rest (Nat.lt_succ_self rest) _ place
          (arenaIdxByPath_append path part idx place found stepped) lasts, name_schemaColumn _ _⟩
      rw [shape, Column.distinctFields_iff, CatalogColumn.dtype_shownWith]
      cases typed : (columns.column idx).dtype with
      | primitive type =>
          refine ⟨fun _ same => ?_, fun _ member => ?_⟩
          · cases same
          · cases member
      | list item =>
          rw [typed] at child
          refine ⟨fun _ same => (by cases same), fun inner member => ?_⟩
          rw [List.mem_singleton.mp member]
          exact (child item (by simp [children])).1
      | struct fields =>
          rw [typed] at child
          refine ⟨fun shownFields same => ?_, fun field member => ?_⟩
          · obtain rfl := DataType.struct.inj same
            have names : (fields.values.map shown).map Column.name = fields.keys := by
              unfold IndexMap.values IndexMap.keys
              rw [List.map_map, List.map_map]
              refine List.map_congr_left fun entry inside => ?_
              have get := (IndexMap.get?_eq_some_iff fields entry.1 entry.2).mpr inside
              have listed : entry.2 ∈ fields.values := (IndexMap.mem_values_iff _ _).mpr ⟨_, get⟩
              exact (child entry.2 listed).2.trans
                (tree.linked.fields idx fields typed entry.1 entry.2 get)
            rw [names]
            exact fields.unique
          · obtain ⟨place, listed, rfl⟩ := List.mem_map.mp member
            exact (child place listed).1
      | map key value =>
          rw [typed] at child
          refine ⟨fun _ same => (by cases same), fun column member => ?_⟩
          simp only [CatalogDataType.shownWith, DataType.children, List.mem_cons, List.not_mem_nil,
            or_false] at member
          rcases member with rfl | rfl
          · exact (child key (by simp [children])).1
          · exact (child value (by simp [children])).1

/-! ## Casts -/

theorem changesAt_modifyColumn
    (extends_ : before.Extends after fun _ _ => false)
    (path : List Text)
    (idx : ArenaIdx)
    (update : CatalogColumn → CatalogColumn)
    (found : before.arenaIdxByPath path = .ok idx)
    (modified : after = before.modifyColumn idx update) :
    ChangesAt before after path idx where
  found := found
  paths path place reached := extends_.arenaIdxByPath path place reached
  others _ place _ different := by
    rw [modified, column_modifyColumn_of_ne _ _ _ _ different]

theorem casts_schemaColumn
    (idx : ArenaIdx)
    (source type : PrimitiveType)
    (fuel fuel' : Nat)
    (inside : idx < before.arena.length)
    (typed : (before.column idx).dtype = .primitive source)
    (modified : after = before.modifyColumn idx fun column =>
      { column with dtype := .primitive type }) :
    Column.Casts type (before.schemaColumn fuel idx) (after.schemaColumn fuel' idx) := by
  obtain ⟨child, shape, _⟩ := @schemaColumn_eq before fuel idx
  obtain ⟨child', shape', _⟩ := @schemaColumn_eq after fuel' idx
  have self : after.column idx = { before.column idx with dtype := .primitive type } := by
    rw [modified, column_modifyColumn_self _ _ _ inside]
  rw [shape, shape', self]
  refine ⟨⟨source, ?_⟩, ?_⟩
  · simp [CatalogDataType.shownWith, typed]
  · simp [CatalogColumn.shownWith, CatalogDataType.shownWith, Column.withDtype]

end

end CatalogColumns

end Ducklake
