import Ducklake.Catalog.LiveColumns
import Ducklake.Catalog.Paths

/-!
# Columns that keep their paths

Casts, removals and additions leave every path where it led, and structs only get more fields.
-/

set_option autoImplicit false

namespace Ducklake

open Lib Spec

namespace CatalogColumns

/-- Paths lead where they led, primitive columns stay primitive, and the structs have the given
names besides the ones they had. -/
structure Extends (before after : CatalogColumns) (added : ArenaIdx → Text → Bool) : Prop where
  size : before.arena.length ≤ after.arena.length
  roots : ∀ name idx, before.rootColumns.get? name = some idx →
    after.rootColumns.get? name = some idx
  steps : ∀ idx part child, before.childByName idx part = some child →
    after.childByName idx part = some child
  primitives : ∀ idx, idx < before.arena.length → ∀ type,
    (before.column idx).dtype = .primitive type → ∃ wider, (after.column idx).dtype = .primitive wider
  structs : ∀ idx fields, (before.column idx).dtype = .struct fields →
    ∃ more, (after.column idx).dtype = .struct more ∧
      ∀ name, more.contains name = (fields.contains name || added idx name)

section

variable {before middle after : CatalogColumns} {added : ArenaIdx → Text → Bool}

theorem Extends.refl (columns : CatalogColumns) : columns.Extends columns fun _ _ => false where
  size := Nat.le_refl _
  roots _ _ found := found
  steps _ _ _ stepped := stepped
  primitives _ _ type typed := ⟨type, typed⟩
  structs _ fields typed := ⟨fields, typed, fun _ => (Bool.or_false _).symm⟩

theorem Extends.trans
    {later : ArenaIdx → Text → Bool}
    (first : before.Extends middle added)
    (second : middle.Extends after later) :
    before.Extends after fun idx name => added idx name || later idx name where
  size := Nat.le_trans first.size second.size
  roots name idx found := second.roots name idx (first.roots name idx found)
  steps idx part child stepped := second.steps idx part child (first.steps idx part child stepped)
  primitives idx inside type typed := by
    obtain ⟨wider, typedMiddle⟩ := first.primitives idx inside type typed
    exact second.primitives idx (Nat.lt_of_lt_of_le inside first.size) wider typedMiddle
  structs idx fields typed := by
    obtain ⟨some_, typedMiddle, names⟩ := first.structs idx fields typed
    obtain ⟨more, typedAfter, moreNames⟩ := second.structs idx some_ typedMiddle
    refine ⟨more, typedAfter, fun name => ?_⟩
    rw [moreNames, names, Bool.or_assoc]

theorem Extends.arenaIdxByPath
    (extends_ : before.Extends after added)
    (path : List Text)
    (idx : ArenaIdx)
    (found : before.arenaIdxByPath path = .ok idx) :
    after.arenaIdxByPath path = .ok idx := by
  obtain ⟨root, parts, start, rfl, rooted, walked⟩ := (arenaIdxByPath_eq_ok _ _).mp found
  refine (arenaIdxByPath_eq_ok _ _).mpr ⟨root, parts, start, rfl, extends_.roots _ _ rooted, ?_⟩
  clear rooted found
  induction parts generalizing start with
  | nil => exact walked
  | cons part rest ih =>
      obtain ⟨child, stepped, walked⟩ := Option.bind_eq_some_iff.mp walked
      rw [List.foldlM_cons, extends_.steps start part child stepped]
      exact ih child walked

/-! ## Changes of columns -/

theorem Extends.of_same
    (arena : after.arena = before.arena)
    (roots : after.rootColumns = before.rootColumns) :
    before.Extends after fun _ _ => false := by
  have column : after.column = before.column := by
    funext idx
    unfold CatalogColumns.column
    rw [arena]
  refine ⟨Nat.le_of_eq (congrArg List.length arena.symm), ?_, ?_, ?_, ?_⟩
  · exact fun name idx found => roots ▸ found
  · intro idx part child stepped
    unfold childByName at stepped ⊢
    rw [column]
    exact stepped
  · intro idx _ type typed
    exact ⟨type, by rw [column]; exact typed⟩
  · intro idx fields typed
    exact ⟨fields, by rw [column]; exact typed, fun _ => (Bool.or_false _).symm⟩

theorem Extends.cast
    (idx : ArenaIdx)
    (source type : PrimitiveType)
    (typed : (before.column idx).dtype = .primitive source)
    (inside : idx < before.arena.length) :
    before.Extends (before.modifyColumn idx fun column => { column with dtype := .primitive type })
      fun _ _ => false := by
  have self := column_modifyColumn_self before idx
    (fun column => { column with dtype := .primitive type }) inside
  have others := fun other => column_modifyColumn_of_ne before idx other
    fun column => { column with dtype := .primitive type }
  refine ⟨Nat.le_of_eq (length_modifyColumn _ _ _).symm, fun _ _ found => found, ?_, ?_, ?_⟩
  · intro other part child stepped
    by_cases same : other = idx
    · subst same
      unfold childByName at stepped
      rw [typed] at stepped
      cases stepped
    · unfold childByName at stepped ⊢
      rw [others other same]
      exact stepped
  · intro other _ old typedOther
    by_cases same : other = idx
    · subst same
      exact ⟨type, by rw [self]⟩
    · exact ⟨old, by rw [others other same]; exact typedOther⟩
  · intro other fields typedOther
    by_cases same : other = idx
    · subst same
      rw [typed] at typedOther
      cases typedOther
    · exact ⟨fields, by rw [others other same]; exact typedOther,
        fun _ => (Bool.or_false _).symm⟩

theorem contains_insert
    (map : IndexMap Text ArenaIdx)
    (key name : Text)
    (value : ArenaIdx) :
    (map.insert key value).contains name = (map.contains name || decide (name = key)) := by
  unfold IndexMap.contains
  rw [IndexMap.get?_insert]
  by_cases same : name = key
  · rw [if_pos same, decide_eq_true same, Bool.or_true]
    rfl
  · rw [if_neg same, decide_eq_false same, Bool.or_false]

theorem Extends.add
    {grown : CatalogColumns}
    {named : IndexMap Text ArenaIdx}
    (parent : ArenaIdx)
    (column : Column)
    (adding : before.Adding (some parent) column after grown named) :
    before.Extends after fun idx name => decide (idx = parent ∧ name = column.name) := by
  obtain ⟨inside, typed⟩ := siblings_lt named parent adding.found
  obtain ⟨_, continues, _, roots, _⟩ := addColumnToArena_eq_ok _ _ _ _ _ _ adding.placed
  have longer := continues.length_le
  have self : (after.column parent).dtype =
      .struct (named.insert column.name before.arena.length) := by
    rw [adding.added]
    exact dtype_setSiblings_self _ parent _ (Nat.lt_of_lt_of_le inside longer)
  have others : ∀ other, other ≠ parent → other < before.arena.length →
      (after.column other).dtype = (before.column other).dtype := by
    intro other distinct low
    rw [adding.added, dtype_setSiblings_of_ne _ _ _ _ (by simpa using Ne.symm distinct),
      continues.column other low]
  have filled : ∀ other, (∃ child, child ∈ children (before.column other).dtype) ∨
      (∃ fields, (before.column other).dtype = .struct fields) → other < before.arena.length := by
    intro other shape
    by_contra outside
    rw [column_of_length_le _ _ (Nat.le_of_not_lt outside)] at shape
    rcases shape with ⟨_, member⟩ | ⟨_, impossible⟩
    · cases member
    · cases impossible
  refine ⟨?_, ?_, ?_, ?_, ?_⟩
  · rw [adding.added, length_setSiblings]
    exact longer
  · intro name idx found
    rw [adding.added]
    unfold setSiblings modifyColumn
    dsimp only
    rw [roots]
    exact found
  · intro idx part child stepped
    have low := filled idx (Or.inl ⟨child, mem_children_of_childByName idx child part stepped⟩)
    by_cases same : idx = parent
    · subst same
      unfold childByName at stepped ⊢
      rw [typed] at stepped
      rw [self]
      dsimp only at stepped ⊢
      rw [IndexMap.get?_insert_of_ne]
      · exact stepped
      · rintro rfl
        refine adding.fresh (List.mem_map_of_mem ((IndexMap.get?_eq_some_iff _ _ _).mp stepped))
    · unfold childByName at stepped ⊢
      rw [others idx same low]
      exact stepped
  · intro idx low type typedIdx
    by_cases same : idx = parent
    · subst same
      rw [typed] at typedIdx
      cases typedIdx
    · exact ⟨type, by rw [others idx same low]; exact typedIdx⟩
  · intro idx fields typedIdx
    have low := filled idx (Or.inr ⟨fields, typedIdx⟩)
    by_cases same : idx = parent
    · subst same
      rw [typed] at typedIdx
      cases typedIdx
      refine ⟨_, self, fun name => ?_⟩
      rw [contains_insert]
      simp
    · refine ⟨fields, by rw [others idx same low]; exact typedIdx, fun name => ?_⟩
      simp [same]

end

end CatalogColumns

end Ducklake
