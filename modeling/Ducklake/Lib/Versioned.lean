import Mathlib.Data.List.Basic

/-!
# Versioned rows

Tables whose rows are valid from one snapshot to another.  A row without an end is live;
retiring gives live rows an end, and a snapshot sees the rows whose interval holds it.
-/

set_option autoImplicit false

namespace Ducklake.Lib

universe u

structure Versioned (α : Type u) where
  beginSnapshot : Int
  endSnapshot : Option Int
  entity : α
  deriving DecidableEq, Repr

namespace Versioned

variable {α : Type u}

def isLive (row : Versioned α) : Bool :=
  row.endSnapshot.isNone

/-- Whether the snapshot lies in the row's half-open interval. -/
def visibleAt (snapshot : Int) (row : Versioned α) : Bool :=
  row.beginSnapshot ≤ snapshot &&
    match row.endSnapshot with
    | none => true
    | some finish => snapshot < finish

def new (snapshot : Int) (entity : α) : Versioned α :=
  { beginSnapshot := snapshot, endSnapshot := none, entity := entity }

def retireRow (snapshot : Int) (selects : α → Bool) (row : Versioned α) : Versioned α :=
  if row.isLive && selects row.entity then { row with endSnapshot := some snapshot } else row

def retire (snapshot : Int) (selects : α → Bool) (rows : List (Versioned α)) :
    List (Versioned α) :=
  rows.map (retireRow snapshot selects)

def entitiesAt (snapshot : Int) (rows : List (Versioned α)) : List α :=
  (rows.filter (visibleAt snapshot)).map entity

def live (rows : List (Versioned α)) : List α :=
  (rows.filter isLive).map entity

@[simp] theorem isLive_new (snapshot : Int) (entity : α) :
    (new snapshot entity).isLive = true :=
  rfl

@[simp] theorem entity_new (snapshot : Int) (entity : α) :
    (new snapshot entity).entity = entity :=
  rfl

@[simp] theorem retireRow_entity (snapshot : Int) (selects : α → Bool) (row : Versioned α) :
    (retireRow snapshot selects row).entity = row.entity := by
  unfold retireRow
  split <;> rfl

@[simp] theorem retireRow_begin (snapshot : Int) (selects : α → Bool) (row : Versioned α) :
    (retireRow snapshot selects row).beginSnapshot = row.beginSnapshot := by
  unfold retireRow
  split <;> rfl

theorem retireRow_of_not (snapshot : Int) (selects : α → Bool) (row : Versioned α)
    (kept : selects row.entity = false) : retireRow snapshot selects row = row := by
  simp [retireRow, kept]

theorem retire_of_not (snapshot : Int) (selects : α → Bool) (rows : List (Versioned α))
    (kept : ∀ row ∈ rows, selects row.entity = false) : retire snapshot selects rows = rows :=
  (List.map_congr_left fun row member =>
    retireRow_of_not snapshot selects row (kept row member)).trans (List.map_id rows)

theorem retireRow_isLive (snapshot : Int) (selects : α → Bool) (row : Versioned α) :
    (retireRow snapshot selects row).isLive = (row.isLive && !selects row.entity) := by
  unfold retireRow
  by_cases retired : row.isLive && selects row.entity
  · rw [if_pos retired]
    rw [Bool.and_eq_true] at retired
    simp [isLive, retired.2]
  · rw [if_neg retired]
    cases alive : row.isLive <;> simp_all

end Versioned

end Ducklake.Lib
