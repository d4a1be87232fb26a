import Ducklake.Catalog.Paths
import Ducklake.Transaction.Operations

/-!
# Updates of types

An update of a nested type casts primitive columns, removes and adds fields.  Which of these steps
it takes, and in which order, follows from the two types alone.
-/

set_option autoImplicit false

namespace Ducklake

open Lib Caches Spec Transaction

namespace Transaction

inductive RetypeStep where
  | cast (path : List Text) (type : PrimitiveType)
  | remove (path : List Text)
  | add (parentPath : List Text) (column : Column)
  | refuse (existing target : DataType)

namespace RetypeStep

def take (db : Database) (name : QualifiedName) (tx : Transaction) :
    RetypeStep → DucklakeResult Transaction
  | cast path type => do
      let ref ← columnByPath tx.catalog name path
      .ok (tx.recordColumn (tx.catalog.modifyColumn ref fun column =>
        { column with dtype := .primitive type }) ref)
  | remove path => tx.removeTableColumn name path
  | add parentPath column => tx.addTableColumn db name column parentPath
  | refuse existing target => .error (.invalidCast existing.display target.display)

def Fits (columns : CatalogColumns) : RetypeStep → Prop
  | cast path _ => ∃ idx type, columns.arenaIdxByPath path = .ok idx ∧
      (columns.column idx).dtype = .primitive type
  | remove path => ∃ idx, columns.arenaIdxByPath path = .ok idx
  | add parentPath _ => parentPath ≠ [] ∧ ∃ idx named,
      columns.arenaIdxByPath parentPath = .ok idx ∧ (columns.column idx).dtype = .struct named
  | refuse _ _ => True

end RetypeStep

/-- The steps from one type to another; the fuel bounds the depth of the types. -/
def retypeSteps : Nat → List Text → DataType → DataType → List RetypeStep
  | 0, _, _, _ => []
  | fuel + 1, path, existing, target =>
      if existing = target then []
      else
        match existing, target with
        | .primitive source, .primitive type =>
            if source.canPromoteTo type then [.cast path type] else [.refuse existing target]
        | .struct oldFields, .struct newFields =>
            (columnDiff oldFields newFields).flatMap fun item =>
              match item with
              | .both old new => retypeSteps fuel (path ++ [old.name]) old.dtype new.dtype
              | .left old => [.remove (path ++ [old.name])]
              | .right new => [.add path new]
        | .list oldInner, .list newInner =>
            retypeSteps fuel (path ++ ["element".toList]) oldInner.dtype newInner.dtype
        | .map oldKey oldValue, .map newKey newValue =>
            retypeSteps fuel (path ++ ["key".toList]) oldKey.dtype newKey.dtype ++
              retypeSteps fuel (path ++ ["value".toList]) oldValue.dtype newValue.dtype
        | _, _ => [.refuse existing target]

/-! ## The difference of two lists of fields -/

def EitherOrBoth.left? {α β : Type} : EitherOrBoth α β → Option α
  | .both item _ | .left item => some item
  | .right _ => none

theorem mem_of_mergeJoin
    {α β : Type}
    (compareKeys : α → β → Ordering)
    (fuel : Nat)
    (lefts : List α)
    (rights : List β)
    (item : EitherOrBoth α β)
    (left : α)
    (member : item ∈ mergeJoin compareKeys fuel lefts rights)
    (found : item.left? = some left) :
    left ∈ lefts := by
  induction fuel generalizing lefts rights with
  | zero => cases member
  | succ fuel ih =>
      match lefts, rights with
      | [], rights =>
          obtain ⟨right, _, rfl⟩ := List.mem_map.mp member
          cases found
      | first :: rest, [] =>
          obtain ⟨other, listed, rfl⟩ := List.mem_map.mp member
          cases found
          exact listed
      | first :: rest, right :: rights =>
          unfold mergeJoin at member
          split at member
          · rcases List.mem_cons.mp member with rfl | later
            · cases found
              exact List.mem_cons_self
            · exact List.mem_cons_of_mem _ (ih rest rights later)
          · rcases List.mem_cons.mp member with rfl | later
            · cases found
              exact List.mem_cons_self
            · exact List.mem_cons_of_mem _ (ih rest (right :: rights) later)
          · rcases List.mem_cons.mp member with rfl | later
            · cases found
            · exact ih (first :: rest) rights later

theorem mem_of_columnDiff
    (old new : List Column)
    (item : EitherOrBoth Column Column)
    (column : Column)
    (member : item ∈ columnDiff old new)
    (found : item.left? = some column) :
    column ∈ old := by
  have sorted := mem_of_mergeJoin _ _ _ _ item column member found
  simpa [sortByKey, List.mem_insertionSort] using sorted

/-! ## The steps of an update -/

theorem sizeBelow_lt_size (column : Column) :
    Column.sizeBelow column.dtype < column.size := by
  obtain ⟨_, dtype, _, _, _, _, _⟩ := column
  exact Nat.lt_succ_self _

theorem updateDtypeRecursive_eq
    (db : Database)
    (name : QualifiedName)
    (fuel : Nat)
    (path : List Text)
    (existing target : DataType)
    (tx : Transaction)
    (enough : Column.sizeBelow existing < fuel) :
    updateDtypeRecursive db name fuel path existing target tx =
      (retypeSteps fuel path existing target).foldlM (RetypeStep.take db name) tx := by
  induction fuel generalizing path existing target tx with
  | zero => cases enough
  | succ fuel ih =>
      have child : ∀ column : Column, column.size ≤ Column.sizeBelow existing →
          Column.sizeBelow column.dtype < fuel := by
        intro column within
        have smaller := sizeBelow_lt_size column
        omega
      unfold updateDtypeRecursive retypeSteps
      by_cases same : existing = target
      · rw [if_pos same, if_pos same]
        rfl
      · rw [if_neg same, if_neg same]
        cases existing with
        | primitive source =>
            cases target with
            | primitive type =>
                dsimp only
                split
                · rw [foldlM_singleton]
                  rfl
                · rfl
            | list _ | struct _ | map _ _ => rfl
        | list oldInner =>
            cases target with
            | list newInner =>
                exact ih _ _ _ _ (child oldInner (Nat.le_refl _))
            | primitive _ | struct _ | map _ _ => rfl
        | struct oldFields =>
            cases target with
            | struct newFields =>
                dsimp only
                rw [foldlM_flatMap]
                refine foldlM_congr _ _ _ _ fun state item member => ?_
                cases item with
                | both old new =>
                    have listed := mem_of_columnDiff _ _ _ old member rfl
                    exact ih _ _ _ _ (child old (Column.size_le_sizeOfAll _ old listed))
                | left old =>
                    dsimp only
                    rw [foldlM_singleton]
                    rfl
                | right new =>
                    dsimp only
                    rw [foldlM_singleton]
                    rfl
            | primitive _ | list _ | map _ _ => rfl
        | map oldKey oldValue =>
            cases target with
            | map newKey newValue =>
                dsimp only
                rw [List.foldlM_append, ih _ _ _ _ (child oldKey (Nat.le_add_right _ _))]
                exact bind_congr fun next =>
                  ih _ _ _ _ (child oldValue (Nat.le_add_left _ _))
            | primitive _ | list _ | struct _ => rfl

/-- The steps from the type that a path is shown with have what they work on. -/
theorem fits_of_mem_retypeSteps
    (columns : CatalogColumns)
    (linked : columns.Linked)
    (fuel : Nat)
    (path : List Text)
    (existing target : DataType)
    (shown : columns.ShownAt path existing)
    (step : RetypeStep)
    (member : step ∈ retypeSteps fuel path existing target) :
    step.Fits columns := by
  induction fuel generalizing path existing target with
  | zero => cases member
  | succ fuel ih =>
      obtain ⟨idx, found, below⟩ := linked.showsBelow path existing shown
      have refused : step ∈ [RetypeStep.refuse existing target] → step.Fits columns := by
        intro only
        rw [List.mem_singleton.mp only]
        trivial
      unfold retypeSteps at member
      split at member
      · cases member
      · cases existing with
        | primitive source =>
            cases target with
            | primitive type =>
                dsimp only at member
                split at member
                · rw [List.mem_singleton.mp member]
                  exact ⟨idx, source, found, below⟩
                · exact refused member
            | list _ | struct _ | map _ _ => exact refused member
        | list oldInner =>
            cases target with
            | list newInner => exact ih _ _ _ below.2 member
            | primitive _ | struct _ | map _ _ => exact refused member
        | struct oldFields =>
            cases target with
            | struct newFields =>
                obtain ⟨⟨named, typed⟩, fields⟩ := below
                obtain ⟨item, listed, member⟩ := List.mem_flatMap.mp member
                cases item with
                | both old new =>
                    have inside := mem_of_columnDiff _ _ _ old listed rfl
                    exact ih _ _ _ (fields old inside) member
                | left old =>
                    have inside := mem_of_columnDiff _ _ _ old listed rfl
                    obtain ⟨place, reached, _⟩ := linked.showsBelow _ _ (fields old inside)
                    rw [List.mem_singleton.mp member]
                    exact ⟨place, reached⟩
                | right new =>
                    rw [List.mem_singleton.mp member]
                    refine ⟨?_, idx, named, found, typed⟩
                    rintro rfl
                    cases found
            | primitive _ | list _ | map _ _ => exact refused member
        | map oldKey oldValue =>
            cases target with
            | map newKey newValue =>
                rcases List.mem_append.mp member with first | second
                · exact ih _ _ _ below.2.1 first
                · exact ih _ _ _ below.2.2 second
            | primitive _ | list _ | struct _ => exact refused member

end Transaction

end Ducklake
