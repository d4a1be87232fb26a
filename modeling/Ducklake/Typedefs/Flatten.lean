import Mathlib.Algebra.GroupWithZero.Nat
import Ducklake.Typedefs.Schema

/-!
# Flattened columns

The columns of a tree stand in one contiguous piece of its flattening, the tree's root first and
the trees of its children one after the other behind it.
-/

set_option autoImplicit false

namespace Ducklake

open Lib

def DataType.children : DataType → List Column
  | .primitive _ => []
  | .list inner => [inner]
  | .struct fields => fields
  | .map key value => [key, value]

namespace Column

/-! ## Trees -/

mutual

def size : Column → Nat
  | .mk _ dtype .. => sizeBelow dtype + 1

def sizeBelow : DataType → Nat
  | .primitive _ => 0
  | .list inner => size inner
  | .struct fields => sizeOfAll fields
  | .map key value => size key + size value

def sizeOfAll : List Column → Nat
  | [] => 0
  | field :: rest => size field + sizeOfAll rest

end

mutual

def distinctFields : Column → Bool
  | .mk _ dtype .. => distinctFieldsIn dtype

def distinctFieldsIn : DataType → Bool
  | .primitive _ => true
  | .list inner => distinctFields inner
  | .struct fields => decide (fields.map name).Nodup && distinctFieldsOfAll fields
  | .map key value => distinctFields key && distinctFields value

def distinctFieldsOfAll : List Column → Bool
  | [] => true
  | field :: rest => distinctFields field && distinctFieldsOfAll rest

end

theorem size_eq (column : Column) : column.size = sizeOfAll column.dtype.children + 1 := by
  obtain ⟨_, dtype, _, _, _, _, _⟩ := column
  cases dtype <;> simp [size, sizeBelow, sizeOfAll, DataType.children, dtype]

theorem size_pos (column : Column) : 0 < column.size := by
  rw [size_eq]
  omega

theorem sizeOfAll_eq (columns : List Column) : sizeOfAll columns = (columns.map size).sum := by
  induction columns with
  | nil => rfl
  | cons first rest ih => rw [sizeOfAll, ih, List.map_cons, List.sum_cons]

theorem size_le_sizeOfAll (columns : List Column) (column : Column) (member : column ∈ columns) :
    column.size ≤ sizeOfAll columns := by
  induction columns with
  | nil => cases member
  | cons first rest ih =>
      rw [sizeOfAll]
      rcases List.mem_cons.mp member with rfl | later
      · omega
      · have below := ih later
        omega

theorem distinctFieldsOfAll_iff (columns : List Column) :
    distinctFieldsOfAll columns = true ↔ ∀ column ∈ columns, column.distinctFields = true := by
  induction columns with
  | nil => simp [distinctFieldsOfAll]
  | cons first rest ih => simp [distinctFieldsOfAll, ih]

theorem distinctFields_iff (column : Column) :
    column.distinctFields = true ↔
      (∀ fields, column.dtype = .struct fields → (fields.map name).Nodup) ∧
        ∀ child ∈ column.dtype.children, child.distinctFields = true := by
  obtain ⟨_, dtype, _, _, _, _, _⟩ := column
  cases dtype <;>
    simp [distinctFields, distinctFieldsIn, distinctFieldsOfAll_iff, DataType.children, Column.dtype]

/-- What holds of a column when it holds of its children holds of every column. -/
theorem induct
    {motive : Column → Prop}
    (step : ∀ column, (∀ child ∈ column.dtype.children, motive child) → motive column)
    (column : Column) :
    motive column := by
  generalize bound : column.size = size
  induction size using Nat.strong_induction_on generalizing column with
  | _ size ih =>
      refine step column fun child member => ih child.size ?_ child rfl
      have below := size_le_sizeOfAll _ child member
      have whole := size_eq column
      omega

/-! ## Pieces of a flattening -/

mutual

/-- The flattening of a tree that starts at a position. -/
def nodes (start : Nat) (parent : Option Nat) : Column → List FlattenedColumn
  | .mk name dtype nullable tags initialDefault defaultValue fieldId =>
      ⟨.mk name dtype nullable tags initialDefault defaultValue fieldId, parent⟩ ::
        nodesBelow start dtype

def nodesBelow (start : Nat) : DataType → List FlattenedColumn
  | .primitive _ => []
  | .list inner => nodes (start + 1) (some start) inner
  | .struct fields => nodesOfAll (start + 1) start fields
  | .map key value => nodes (start + 1) (some start) key ++
      nodes (start + 1 + size key) (some start) value

def nodesOfAll (start parent : Nat) : List Column → List FlattenedColumn
  | [] => []
  | field :: rest => nodes start (some parent) field ++
      nodesOfAll (start + size field) parent rest

end

theorem nodes_eq (start : Nat) (parent : Option Nat) (column : Column) :
    column.nodes start parent =
      ⟨column, parent⟩ :: nodesOfAll (start + 1) start column.dtype.children := by
  obtain ⟨_, dtype, _, _, _, _, _⟩ := column
  cases dtype <;> simp [nodes, nodesBelow, nodesOfAll, DataType.children, Column.dtype]

theorem length_nodesOfAll
    (columns : List Column)
    (start parent : Nat)
    (lengths : ∀ column ∈ columns, ∀ start parent,
      (column.nodes start parent).length = column.size) :
    (nodesOfAll start parent columns).length = sizeOfAll columns := by
  induction columns generalizing start with
  | nil => rfl
  | cons first rest ih =>
      rw [nodesOfAll, List.length_append, lengths first (by simp),
        ih _ fun column member => lengths column (List.mem_cons_of_mem _ member), sizeOfAll]

theorem length_nodes (column : Column) (start : Nat) (parent : Option Nat) :
    (column.nodes start parent).length = column.size := by
  induction column using induct generalizing start parent with
  | step column ih =>
      rw [nodes_eq, List.length_cons, length_nodesOfAll _ _ _ ih, size_eq]

mutual

theorem flattenInto_eq : (column : Column) → (parent : Option Nat) →
    (flattened : List FlattenedColumn) →
    flattenInto parent flattened column = flattened ++ column.nodes flattened.length parent
  | .mk name dtype nullable tags initialDefault defaultValue fieldId, parent, flattened => by
      rw [flattenInto, flattenChildren_eq dtype _ _ (by simp), nodes, List.append_assoc,
        List.singleton_append]

theorem flattenChildren_eq : (dtype : DataType) → (parent : Nat) →
    (flattened : List FlattenedColumn) → flattened.length = parent + 1 →
    flattenChildren parent flattened dtype = flattened ++ nodesBelow parent dtype
  | .primitive _, parent, flattened, _ => by simp [flattenChildren, nodesBelow]
  | .list inner, parent, flattened, size => by
      rw [flattenChildren, flattenInto_eq inner, nodesBelow, size]
  | .struct fields, parent, flattened, size => by
      rw [flattenChildren, flattenFields_eq fields, nodesBelow, size]
  | .map key value, parent, flattened, size => by
      rw [flattenChildren, flattenInto_eq key, flattenInto_eq value, nodesBelow, List.append_assoc,
        List.length_append, length_nodes, size]

theorem flattenFields_eq : (fields : List Column) → (parent : Nat) →
    (flattened : List FlattenedColumn) →
    flattenFields parent flattened fields =
      flattened ++ nodesOfAll flattened.length parent fields
  | [], parent, flattened => by simp [flattenFields, nodesOfAll]
  | field :: rest, parent, flattened => by
      rw [flattenFields, flattenInto_eq field, flattenFields_eq rest, nodesOfAll, List.append_assoc,
        List.length_append, length_nodes]

end

theorem flatten_eq (column : Column) : column.flatten = column.nodes 0 none := by
  simp [flatten, flattenInto_eq]

theorem length_flatten (column : Column) : column.flatten.length = column.size := by
  rw [flatten_eq, length_nodes]

/-! ## Children by position -/

def positionsBelow (parent start : Nat) (entries : List FlattenedColumn) : List Nat :=
  (entries.zipIdx start).filterMap fun entry =>
    if entry.1.parentIndex = some parent then some entry.2 else none

def starts (start : Nat) : List Column → List Nat
  | [] => []
  | first :: rest => start :: starts (start + first.size) rest

theorem length_starts (start : Nat) (columns : List Column) :
    (starts start columns).length = columns.length := by
  induction columns generalizing start with
  | nil => rfl
  | cons first rest ih => rw [starts, List.length_cons, List.length_cons, ih]

theorem positionsBelow_append
    (parent start : Nat)
    (front back : List FlattenedColumn) :
    positionsBelow parent start (front ++ back) =
      positionsBelow parent start front ++ positionsBelow parent (start + front.length) back := by
  rw [positionsBelow, List.zipIdx_append, List.filterMap_append]
  rfl

theorem positionsBelow_of_outside
    (parent start : Nat)
    (entries : List FlattenedColumn)
    (outside : ∀ entry ∈ entries, entry.parentIndex ≠ some parent) :
    positionsBelow parent start entries = [] := by
  rw [positionsBelow, List.filterMap_eq_nil_iff]
  intro entry member
  rw [if_neg (outside entry.1 (List.fst_mem_of_mem_zipIdx member))]

/-- The parents of the entries of a tree are in the tree, apart from the root's. -/
theorem parentIndex_nodes
    (column : Column)
    (start : Nat)
    (parent : Option Nat) :
    ∀ entry ∈ column.nodes start parent, entry.parentIndex = parent ∨
      ∃ index, entry.parentIndex = some index ∧ start ≤ index ∧ index < start + column.size := by
  induction column using induct generalizing start parent with
  | step column ih =>
      have below : ∀ (columns : List Column) (position : Nat),
          (∀ child ∈ columns, child ∈ column.dtype.children) → start < position →
          ∀ entry ∈ nodesOfAll position start columns, ∃ index,
            entry.parentIndex = some index ∧ start ≤ index ∧
              index < position + sizeOfAll columns := by
        intro columns
        induction columns with
        | nil => exact fun _ _ _ entry member => nomatch member
        | cons first rest restIh =>
            intro position inside later entry member
            have firstPositive := first.size_pos
            rw [nodesOfAll] at member
            rw [sizeOfAll]
            rcases List.mem_append.mp member with member | member
            · rcases ih first (inside first (by simp)) _ _ entry member with
                same | ⟨index, found, low, high⟩
              · exact ⟨start, same, by omega, by omega⟩
              · exact ⟨index, found, by omega, by omega⟩
            · obtain ⟨index, found, low, high⟩ := restIh _
                (fun child childMember => inside child (List.mem_cons_of_mem _ childMember))
                (Nat.lt_add_right _ later) entry member
              exact ⟨index, found, low, by omega⟩
      intro entry member
      rw [nodes_eq] at member
      rcases List.mem_cons.mp member with rfl | member
      · exact Or.inl rfl
      · obtain ⟨index, found, low, high⟩ :=
          below _ (start + 1) (fun _ inside => inside) (Nat.lt_succ_self start) entry member
        have whole := size_eq column
        exact Or.inr ⟨index, found, low, by omega⟩

theorem parentIndex_nodesOfAll
    (columns : List Column)
    (start parent : Nat) :
    ∀ entry ∈ nodesOfAll start parent columns, entry.parentIndex = some parent ∨
      ∃ index, entry.parentIndex = some index ∧ start ≤ index ∧
        index < start + sizeOfAll columns := by
  induction columns generalizing start with
  | nil => exact fun entry member => nomatch member
  | cons first rest ih =>
      intro entry member
      rw [nodesOfAll] at member
      rw [sizeOfAll]
      rcases List.mem_append.mp member with member | member
      · rcases parentIndex_nodes first start (some parent) entry member with
          same | ⟨index, found, low, high⟩
        · exact Or.inl same
        · exact Or.inr ⟨index, found, low, by omega⟩
      · rcases ih (start + first.size) entry member with same | ⟨index, found, low, high⟩
        · exact Or.inl same
        · exact Or.inr ⟨index, found, by omega, by omega⟩

theorem positionsBelow_nodesOfAll
    (columns : List Column)
    (start parent : Nat)
    (below : parent < start) :
    positionsBelow parent start (nodesOfAll start parent columns) = starts start columns := by
  induction columns generalizing start with
  | nil => rfl
  | cons first rest ih =>
      have inner : positionsBelow parent start (first.nodes start (some parent)) = [start] := by
        rw [nodes_eq, ← List.singleton_append, positionsBelow_append,
          positionsBelow_of_outside parent _ (nodesOfAll _ _ _)]
        · simp [positionsBelow]
        · intro entry member found
          rcases parentIndex_nodesOfAll _ _ _ entry member with same | ⟨index, same, low, _⟩
          · rw [found] at same
            cases same
            omega
          · rw [found] at same
            cases same
            omega
      rw [nodesOfAll, positionsBelow_append, inner, length_nodes, ih _ (Nat.lt_add_right _ below),
        starts, List.singleton_append]

/-- A tree stands in one piece in a list of flattened columns. -/
structure PieceOf (whole : List FlattenedColumn) (start : Nat) (parent : Option Nat)
    (column : Column) : Prop where
  shape : ∃ before after, whole = before ++ column.nodes start parent ++ after ∧
    before.length = start ∧ ∀ entry ∈ before ++ after, ∀ index,
      entry.parentIndex = some index → ¬(start ≤ index ∧ index < start + column.size)
  above : ∀ index, parent = some index → index < start

theorem pieceOf_flatten (column : Column) : PieceOf column.flatten 0 none column where
  shape := ⟨[], [], by simp [flatten_eq], rfl, by simp⟩
  above index found := nomatch found

section

variable {whole : List FlattenedColumn} {start : Nat} {parent : Option Nat} {column : Column}

theorem PieceOf.root (piece : PieceOf whole start parent column) :
    whole[start]? = some ⟨column, parent⟩ := by
  obtain ⟨before, after, rfl, rfl, _⟩ := piece.shape
  simp [nodes_eq]

theorem PieceOf.positions (piece : PieceOf whole start parent column) :
    positionsBelow start 0 whole = starts (start + 1) column.dtype.children := by
  obtain ⟨before, after, rfl, size, outside⟩ := piece.shape
  have positive := column.size_pos
  have unrelated : ∀ entry ∈ before ++ after, entry.parentIndex ≠ some start :=
    fun entry member found => outside entry member start found (by omega)
  rw [positionsBelow_append, positionsBelow_append, Nat.zero_add, size, nodes_eq,
    ← List.singleton_append, positionsBelow_append,
    positionsBelow_of_outside start 0 before
      fun entry member => unrelated entry (List.mem_append_left _ member),
    positionsBelow_of_outside start _ after
      fun entry member => unrelated entry (List.mem_append_right _ member),
    positionsBelow_of_outside start _ [⟨column, parent⟩], List.length_singleton,
    positionsBelow_nodesOfAll _ _ _ (Nat.lt_succ_self start)]
  · simp
  · intro entry member found
    rw [List.mem_singleton.mp member] at found
    have above := piece.above start found
    omega

theorem PieceOf.child
    (piece : PieceOf whole start parent column)
    (front back : List Column)
    (child : Column)
    (split : column.dtype.children = front ++ child :: back) :
    PieceOf whole (start + 1 + sizeOfAll front) (some start) child := by
  obtain ⟨before, after, rfl, size, outside⟩ := piece.shape
  have nodesSplit : ∀ (front : List Column) (position : Nat),
      nodesOfAll position start (front ++ child :: back) =
        nodesOfAll position start front ++ child.nodes (position + sizeOfAll front) (some start) ++
          nodesOfAll (position + sizeOfAll front + child.size) start back := by
    intro front
    induction front with
    | nil => simp [nodesOfAll, sizeOfAll]
    | cons first rest ih =>
        intro position
        rw [List.cons_append, nodesOfAll, ih, nodesOfAll, sizeOfAll, Nat.add_assoc position]
        simp
  have whole := size_eq column
  have total : sizeOfAll column.dtype.children = sizeOfAll front + child.size + sizeOfAll back := by
    rw [split, sizeOfAll_eq, sizeOfAll_eq, sizeOfAll_eq]
    simp
    omega
  have lengths : (nodesOfAll (start + 1) start front).length = sizeOfAll front :=
    length_nodesOfAll _ _ _ fun column _ start parent => length_nodes column start parent
  refine ⟨⟨before ++ ⟨column, parent⟩ :: nodesOfAll (start + 1) start front,
    nodesOfAll (start + 1 + sizeOfAll front + child.size) start back ++ after, ?_, ?_, ?_⟩, ?_⟩
  · rw [nodes_eq, split, nodesSplit]
    simp
  · rw [List.length_append, List.length_cons, lengths, size]
    omega
  · intro entry member index found
    simp only [List.mem_append, List.mem_cons] at member
    have outsideOf : entry ∈ before ++ after → ¬(start ≤ index ∧ index < start + column.size) :=
      fun inside => outside entry inside index found
    rcases member with (inside | rfl | inside) | inside | inside
    · have far := outsideOf (List.mem_append_left _ inside)
      omega
    · have above := piece.above index found
      omega
    · rcases parentIndex_nodesOfAll _ _ _ entry inside with same | ⟨other, same, low, high⟩
      · rw [found] at same
        cases same
        omega
      · rw [found] at same
        cases same
        omega
    · rcases parentIndex_nodesOfAll _ _ _ entry inside with same | ⟨other, same, low, high⟩
      · rw [found] at same
        cases same
        omega
      · rw [found] at same
        cases same
        omega
    · have far := outsideOf (List.mem_append_right _ inside)
      omega
  · intro index found
    cases found
    omega

theorem mem_starts_iff
    (columns : List Column)
    (start position : Nat) :
    position ∈ starts start columns ↔
      ∃ front child back, columns = front ++ child :: back ∧
        position = start + sizeOfAll front := by
  induction columns generalizing start with
  | nil => simp [starts]
  | cons first rest ih =>
      rw [starts, List.mem_cons, ih]
      constructor
      · rintro (rfl | ⟨front, child, back, rfl, rfl⟩)
        · exact ⟨[], first, rest, rfl, rfl⟩
        · exact ⟨first :: front, child, back, rfl, by rw [sizeOfAll, Nat.add_assoc]⟩
      · rintro ⟨front, child, back, split, rfl⟩
        cases front with
        | nil => exact Or.inl rfl
        | cons other front =>
            obtain ⟨rfl, inner⟩ := List.cons.inj split
            exact Or.inr ⟨front, child, back, inner, by rw [sizeOfAll, Nat.add_assoc]⟩

theorem sibling_of_position
    (columns : List Column)
    (offset : Nat)
    (inside : offset < sizeOfAll columns) :
    ∃ front child back, columns = front ++ child :: back ∧ sizeOfAll front ≤ offset ∧
      offset < sizeOfAll front + child.size := by
  induction columns generalizing offset with
  | nil => cases inside
  | cons first rest ih =>
      rw [sizeOfAll] at inside
      by_cases early : offset < first.size
      · exact ⟨[], first, rest, rfl, Nat.zero_le _, by simpa [sizeOfAll] using early⟩
      · obtain ⟨front, child, back, rfl, low, high⟩ := ih (offset - first.size) (by omega)
        exact ⟨first :: front, child, back, rfl, by rw [sizeOfAll]; omega,
          by rw [sizeOfAll]; omega⟩

theorem PieceOf.of_position
    (piece : PieceOf whole start parent column)
    (position : Nat)
    (low : start ≤ position)
    (high : position < start + column.size) :
    ∃ above sub, PieceOf whole position above sub ∧
      (position = start ∧ above = parent ∨ ∃ index, above = some index ∧ start ≤ index) ∧
      (column.distinctFields = true → sub.distinctFields = true) := by
  induction column using induct generalizing start parent with
  | step column ih =>
      by_cases first : position = start
      · subst first
        exact ⟨parent, column, piece, Or.inl ⟨rfl, rfl⟩, id⟩
      · have whole := size_eq column
        obtain ⟨front, child, back, split, lowChild, highChild⟩ :=
          sibling_of_position column.dtype.children (position - (start + 1)) (by omega)
        have member : child ∈ column.dtype.children := by simp [split]
        obtain ⟨above, sub, found, place, distinct⟩ := ih child member
          (piece.child front back child split) (by omega) (by omega)
        refine ⟨above, sub, found, Or.inr ?_, fun names =>
          distinct (((distinctFields_iff column).mp names).2 child member)⟩
        rcases place with ⟨_, rfl⟩ | ⟨index, rfl, behind⟩
        · exact ⟨start, rfl, Nat.le_refl _⟩
        · exact ⟨index, rfl, by omega⟩

end

end Column

end Ducklake
