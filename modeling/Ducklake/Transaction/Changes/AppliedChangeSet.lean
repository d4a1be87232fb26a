import Ducklake.Lib.Except
import Ducklake.Lib.Lists
import Ducklake.Transaction.Changes.AppliedChange

/-!
# Sets of applied changes

`AppliedChangeSet`: the changes of one commit without repetitions, the comma-separated text
stored for them and the parser reading it back.
-/

set_option autoImplicit false

namespace Ducklake.Transaction

open Lib

@[ext] structure AppliedChangeSet where
  changes : List AppliedChange
  unique : changes.Nodup
  deriving DecidableEq

namespace AppliedChangeSet

/-- Create a new changeset from a list of applied changes, without repetitions. -/
def new (changes : List AppliedChange) : AppliedChangeSet :=
  ⟨changes.eraseDups, nodup_eraseDups changes⟩

@[simp] theorem mem_new (changes : List AppliedChange) (change : AppliedChange) :
    change ∈ (new changes).changes ↔ change ∈ changes :=
  List.mem_eraseDups

@[simp] theorem new_changes (set : AppliedChangeSet) : new set.changes = set :=
  AppliedChangeSet.ext (eraseDups_of_nodup _ set.unique)

def display (set : AppliedChangeSet) : Text :=
  [','].intercalate (set.changes.map AppliedChange.display)

def parse (s : Text) : DucklakeResult AppliedChangeSet :=
  ((s.splitOn ',').mapM AppliedChange.parse).map new

theorem mem_of_parse
    (s : Text)
    (set : AppliedChangeSet)
    (success : parse s = .ok set)
    (change : AppliedChange)
    (member : change ∈ set.changes) :
    ∃ piece ∈ s.splitOn ',', ',' ∉ piece ∧ AppliedChange.parse piece = .ok change := by
  obtain ⟨parsed, pieces, rfl⟩ := map_eq_ok.mp success
  have related := mapM_eq_ok.mp pieces
  rw [mem_new] at member
  obtain ⟨index, bound, rfl⟩ := List.getElem_of_mem member
  have pieceBound : index < (s.splitOn ',').length := related.length_eq ▸ bound
  refine ⟨(s.splitOn ',')[index], List.getElem_mem _, ?_, related.get pieceBound bound⟩
  exact notMem_of_mem_splitOn ',' s _ (List.getElem_mem _)

theorem readable_of_parse
    (s : Text)
    (set : AppliedChangeSet)
    (success : parse s = .ok set)
    (change : AppliedChange)
    (member : change ∈ set.changes) :
    change.Readable := by
  obtain ⟨piece, _, plain, read⟩ := mem_of_parse s set success change member
  exact AppliedChange.readable_of_parse piece change plain read

/-- Where the text of a set is read, each readable change of the set is read back from its
piece, whatever stands next to it. -/
theorem read_of_parse_display
    (set other : AppliedChangeSet)
    (success : parse set.display = .ok other)
    (change : AppliedChange)
    (member : change ∈ set.changes)
    (readable : change.Readable) :
    change ∈ other.changes ∧ ∀ id ∈ change.ids, FitsI64 id := by
  obtain ⟨parsed, pieces, rfl⟩ := map_eq_ok.mp success
  have whole : change.display.splitOn ',' = [change.display] :=
    List.splitOn_eq_singleton (AppliedChange.comma_notMem_display change readable)
  have piece : change.display ∈ set.display.splitOn ',' := by
    have filled : set.changes.map AppliedChange.display ≠ [] :=
      List.ne_nil_of_mem (List.mem_map_of_mem member)
    rw [display, splitOn_intercalate_eq_flatMap ',' _ filled, List.mem_flatMap]
    exact ⟨change.display, List.mem_map_of_mem member, by simp [whole]⟩
  obtain ⟨result, inside, read⟩ := mem_of_mapM_eq_ok pieces _ piece
  obtain ⟨rfl, fits⟩ := (AppliedChange.parse_display_iff change result fun name named =>
    (readable.1 name named).1).mp read
  exact ⟨(mem_new _ _).mpr inside, fits⟩

theorem splitOn_display
    (set : AppliedChangeSet)
    (filled : set.changes ≠ [])
    (readable : ∀ change ∈ set.changes, change.Readable) :
    set.display.splitOn ',' = set.changes.map AppliedChange.display := by
  refine List.splitOn_intercalate ',' ?_ (by simpa using filled)
  intro text member
  obtain ⟨change, changeMember, rfl⟩ := List.mem_map.mp member
  exact AppliedChange.comma_notMem_display change (readable change changeMember)

/-- The stored text is read back to the same set exactly when the set has a change, every name
in it is readable and every id in it fits its type. -/
theorem parse_display_eq_ok_iff (set : AppliedChangeSet) :
    parse set.display = .ok set ↔
      set.changes ≠ [] ∧
        ∀ change ∈ set.changes, change.Readable ∧ ∀ id ∈ change.ids, FitsI64 id := by
  constructor
  · intro success
    have readable := readable_of_parse _ set success
    refine ⟨?_, fun change member => ⟨readable change member, ?_⟩⟩
    · intro empty
      have blank : set.display = [] := by simp [display, empty]
      rw [blank] at success
      exact absurd success (by simp [parse, AppliedChange.parse, AppliedChange.splitKind,
        List.splitOn_nil, bind, Except.bind, Except.map])
    · exact (read_of_parse_display set set success change member (readable change member)).2
  · rintro ⟨filled, exact_⟩
    have readable : ∀ change ∈ set.changes, change.Readable := fun change member =>
      (exact_ change member).1
    have pieces : (set.display.splitOn ',').mapM AppliedChange.parse = .ok set.changes := by
      rw [splitOn_display set filled readable, mapM_eq_ok, List.forall₂_map_left_iff,
        List.forall₂_same]
      intro change member
      exact AppliedChange.parse_display change
        (fun name inside => ((readable change member).1 name inside).1) (exact_ change member).2
    simp [parse, pieces, Except.map]

/-- A comma in a schema name splits its change into two pieces. -/
theorem parse_display_comma :
    parse (new [.createdSchema ⟨"a,b".toList⟩]).display ≠
      .ok (new [.createdSchema ⟨"a,b".toList⟩]) := by
  decide

end AppliedChangeSet

end Ducklake.Transaction
