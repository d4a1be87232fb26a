import Ducklake.System
import Ducklake.Utils.IdentifierLists

/-!
# Column aliases of views

The text that a commit stores for the aliases of a view, and what a load of the catalog makes of it.
-/

set_option autoImplicit false

namespace Ducklake

open Lib Caches Spec Maintenance Transaction Utils

/-- A list of aliases is there, and none of them is empty. -/
def namedAliases (columnAliases : Option (List Text)) : Prop :=
  columnAliases ≠ some [] ∧ ∀ names ∈ columnAliases, ∀ name ∈ names, name ≠ []

theorem loadColumnAliases_formatted
    (names : List Text)
    (some_name : names ≠ []) :
    Catalog.loadColumnAliases (some (formatIdentifierList names)) =
      if ∀ name ∈ names, name ≠ [] then .ok (some names)
      else .error (.panicked "column_aliases must be a list of quoted identifiers".toList) := by
  have written : (!(formatIdentifierList names).isEmpty) = true := by
    simp [formatIdentifierList_ne_nil names some_name]
  have kept : (some (formatIdentifierList names)).filter (fun aliases => !aliases.isEmpty) =
      some (formatIdentifierList names) := by
    rw [Option.filter_some, if_pos written]
  rw [Catalog.loadColumnAliases, kept]
  dsimp only
  rw [parseIdentifierList_formatIdentifierList names some_name]
  by_cases filled : ∀ name ∈ names, name ≠ []
  · rw [if_pos filled, if_pos filled]
  · rw [if_neg filled, if_neg filled]

theorem panics_loadColumnAliases
    (columnAliases : Option (List Text)) :
    panics (Catalog.loadColumnAliases (some (formatIdentifierList (columnAliases.getD [])))) =
      (columnAliases.getD []).contains [] := by
  by_cases some_name : columnAliases.getD [] = []
  · rw [some_name]
    rfl
  · rw [loadColumnAliases_formatted _ some_name]
    by_cases filled : ∀ name ∈ columnAliases.getD [], name ≠ []
    · have absent : [] ∉ columnAliases.getD [] := fun inside => filled [] inside rfl
      rw [if_pos filled, List.contains_eq_mem, decide_eq_false absent]
      rfl
    · have present : [] ∈ columnAliases.getD [] := by
        by_contra absent
        exact filled fun name member empty => absent (empty ▸ member)
      rw [if_neg filled, List.contains_eq_mem, decide_eq_true present]
      rfl

/-- The aliases of a created view are read back just when there is no list, or a list of some names
of which none is empty. -/
theorem loadColumnAliases_createView
    (changes : TransactionChanges)
    (state : CommitState)
    (schemaRef : SchemaRef)
    (viewRef : ViewRef)
    (name : QualifiedName)
    (sql dialect : Text)
    (columnAliases : Option (List Text))
    (tags : Tags) :
    ∃ view, (Executors.createView changes state schemaRef viewRef name sql dialect columnAliases
        tags).1.newViews = changes.newViews ++ [view] ∧
      (Catalog.loadColumnAliases view.columnAliases = .ok columnAliases ↔
        namedAliases columnAliases) := by
  refine ⟨_, rfl, ?_⟩
  dsimp only
  unfold namedAliases
  cases columnAliases with
  | none => exact ⟨fun _ => by simp, fun _ => rfl⟩
  | some names =>
      by_cases some_name : names = []
      · subst some_name
        exact ⟨fun read => absurd (Except.ok.inj read) (by simp), fun named => absurd rfl named.1⟩
      · rw [Option.getD_some, loadColumnAliases_formatted names some_name]
        by_cases filled : ∀ name ∈ names, name ≠ []
        · rw [if_pos filled]
          simpa [some_name] using filled
        · rw [if_neg filled]
          constructor
          · intro read
            cases read
          · intro named
            exact absurd (named.2 names rfl) filled

namespace System

def emptyAlias : List Label :=
  .begin :: working 0 ⟨0, 0, 1, 0⟩ [.createView ⟨"main".toList, "v".toList⟩ "SELECT 1".toList
    (some [[]]) none .fail] ++ committing 0 ⟨0, 0, 1, 0⟩

/-- The view is accepted and committed, and the catalog of its snapshot cannot be read. -/
theorem emptyAlias_panics :
    ∃ sys, emptyAlias.foldlM (step .plain) (init 0) = some sys ∧
      sys.known.map SnapshotInfo.id = [0, 1] ∧ panics (Catalog.load .plain sys.db 1) = true := by
  obtain ⟨sys, taken, both⟩ : ∃ sys, emptyAlias.foldlM (step .plain) (init 0) = some sys ∧
      (sys.known.map SnapshotInfo.id, panics (Catalog.load .plain sys.db 1)) = ([0, 1], true) :=
    Option.map_eq_some_iff.mp (by decide +kernel)
  exact ⟨sys, taken, congrArg Prod.fst both, congrArg Prod.snd both⟩

end System

end Ducklake
