import Ducklake.Transaction.Retyping
import Ducklake.Typedefs.ValueOrder

/-!
# Differences of columns

A difference of two lists of columns pairs the columns of one name, and has every other column on
its side.
-/

set_option autoImplicit false

namespace Ducklake

open Lib Transaction

namespace Transaction

namespace EitherOrBoth

def right? {α β : Type} : EitherOrBoth α β → Option β
  | both _ item | right item => some item
  | left _ => none

/-- The name that a table has a column for after the item is applied. -/
def written : EitherOrBoth Column Column → Option Text
  | both old _ => some old.name
  | right new => some new.name
  | left _ => none

def name : EitherOrBoth Column Column → Text
  | both old _ | left old => old.name
  | right new => new.name

end EitherOrBoth

section

variable {α β : Type} (compareKeys : α → β → Ordering)

theorem filterMap_left_mergeJoin
    (fuel : Nat)
    (lefts : List α)
    (rights : List β)
    (enough : lefts.length + rights.length ≤ fuel) :
    (mergeJoin compareKeys fuel lefts rights).filterMap EitherOrBoth.left? = lefts := by
  induction fuel generalizing lefts rights with
  | zero =>
      obtain rfl : lefts = [] := List.eq_nil_of_length_eq_zero (by omega)
      rfl
  | succ fuel ih =>
      match lefts, rights with
      | [], rights => simp [mergeJoin, List.filterMap_map, Function.comp_def, EitherOrBoth.left?]
      | left :: lefts, [] =>
          simp [mergeJoin, List.filterMap_map, Function.comp_def, EitherOrBoth.left?]
      | left :: lefts, right :: rights =>
          simp only [List.length_cons] at enough
          unfold mergeJoin
          cases compareKeys left right with
          | eq => simp [EitherOrBoth.left?, ih lefts rights (by omega)]
          | lt => simp [EitherOrBoth.left?, ih lefts (right :: rights) (by simp; omega)]
          | gt => simp [List.filterMap_cons, EitherOrBoth.left?, ih (left :: lefts) rights (by simp; omega)]

theorem filterMap_right_mergeJoin
    (fuel : Nat)
    (lefts : List α)
    (rights : List β)
    (enough : lefts.length + rights.length ≤ fuel) :
    (mergeJoin compareKeys fuel lefts rights).filterMap EitherOrBoth.right? = rights := by
  induction fuel generalizing lefts rights with
  | zero =>
      obtain rfl : rights = [] := List.eq_nil_of_length_eq_zero (by omega)
      rfl
  | succ fuel ih =>
      match lefts, rights with
      | [], rights => simp [mergeJoin, List.filterMap_map, Function.comp_def, EitherOrBoth.right?]
      | left :: lefts, [] => simp [mergeJoin, EitherOrBoth.right?]
      | left :: lefts, right :: rights =>
          simp only [List.length_cons] at enough
          unfold mergeJoin
          cases compareKeys left right with
          | eq => simp [EitherOrBoth.right?, ih lefts rights (by omega)]
          | lt => simp [List.filterMap_cons, EitherOrBoth.right?, ih lefts (right :: rights) (by simp; omega)]
          | gt => simp [EitherOrBoth.right?, ih (left :: lefts) rights (by simp; omega)]

theorem compare_eq_of_both_mem
    (fuel : Nat)
    (lefts : List α)
    (rights : List β)
    (left : α)
    (right : β)
    (member : .both left right ∈ mergeJoin compareKeys fuel lefts rights) :
    compareKeys left right = .eq := by
  induction fuel generalizing lefts rights with
  | zero => cases member
  | succ fuel ih =>
      cases lefts with
      | nil => simp [mergeJoin] at member
      | cons first lefts =>
          cases rights with
          | nil => simp [mergeJoin] at member
          | cons second rights =>
              unfold mergeJoin at member
              split at member
              next same =>
                rcases List.mem_cons.mp member with pair | later
                · obtain ⟨rfl, rfl⟩ := EitherOrBoth.both.inj pair
                  exact same
                · exact ih lefts rights later
              · exact ih lefts (second :: rights) ((List.mem_cons.mp member).resolve_left (by simp))
              · exact ih (first :: lefts) rights ((List.mem_cons.mp member).resolve_left (by simp))

end

theorem filterMap_left_columnDiff (old new : List Column) :
    ((columnDiff old new).filterMap EitherOrBoth.left?).Perm old := by
  unfold columnDiff
  rw [filterMap_left_mergeJoin _ _ _ _ (by simp [sortByKey, List.length_insertionSort])]
  exact List.perm_insertionSort _ _

theorem filterMap_right_columnDiff (old new : List Column) :
    ((columnDiff old new).filterMap EitherOrBoth.right?).Perm new := by
  unfold columnDiff
  rw [filterMap_right_mergeJoin _ _ _ _ (by simp [sortByKey, List.length_insertionSort])]
  exact List.perm_insertionSort _ _

theorem name_eq_of_both_mem
    (olds news : List Column)
    (old new : Column)
    (member : .both old new ∈ columnDiff olds news) :
    old.name = new.name :=
  (Value.compareText_eq_eq _ _).mp (compare_eq_of_both_mem _ _ _ _ old new member)

theorem both_or_right_mem
    (olds news : List Column)
    (new : Column)
    (member : new ∈ news) :
    (∃ old ∈ olds, old.name = new.name ∧ .both old new ∈ columnDiff olds news) ∨
      .right new ∈ columnDiff olds news := by
  obtain ⟨item, listed, found⟩ := List.mem_filterMap.mp
    ((filterMap_right_columnDiff olds news).mem_iff.mpr member)
  cases item with
  | both old other =>
      cases found
      exact Or.inl ⟨old, mem_of_columnDiff _ _ _ old listed rfl, name_eq_of_both_mem _ _ _ _ listed,
        listed⟩
  | right other =>
      cases found
      exact Or.inr listed
  | left _ => cases found

theorem exists_of_written
    (olds news : List Column)
    (item : EitherOrBoth Column Column)
    (member : item ∈ columnDiff olds news)
    (name : Text)
    (written : item.written = some name) :
    ∃ new ∈ news, new.name = name := by
  have listed : ∀ new, item.right? = some new → new ∈ news := fun new found =>
    (filterMap_right_columnDiff olds news).mem_iff.mp (List.mem_filterMap.mpr ⟨item, member, found⟩)
  cases item with
  | both old new =>
      exact ⟨new, listed new rfl, (name_eq_of_both_mem _ _ _ _ member).symm.trans
        (Option.some.inj written)⟩
  | right new => exact ⟨new, listed new rfl, Option.some.inj written⟩
  | left _ => cases written

/-! ## One item for a name -/

def Ascending (columns : List Column) : Prop :=
  columns.Pairwise fun a b => compareText a.name b.name = .lt

theorem ascending_sortByKey
    (columns : List Column)
    (distinct : (columns.map Column.name).Nodup) :
    Ascending (sortByKey (fun (a b : Column) => compareText a.name b.name ≠ .gt) columns) := by
  have lawful := transCmp_compareText
  have total : Std.Total fun a b : Column =>
      decide (compareText a.name b.name ≠ .gt) = true := by
    refine ⟨fun a b => ?_⟩
    rw [decide_eq_true_eq, decide_eq_true_eq, lawful.eq_swap (a := b.name)]
    cases compareText a.name b.name <;> simp
  have transitive : IsTrans Column fun a b =>
      decide (compareText a.name b.name ≠ .gt) = true := by
    refine ⟨fun a b c first second => ?_⟩
    rw [decide_eq_true_eq] at first second ⊢
    have both := lawful.isLE_trans (Ordering.isLE_iff_ne_gt.mpr first)
      (Ordering.isLE_iff_ne_gt.mpr second)
    exact Ordering.isLE_iff_ne_gt.mp both
  have sorted : (sortByKey (fun (a b : Column) => compareText a.name b.name ≠ .gt) columns).Pairwise
      fun a b => decide (compareText a.name b.name ≠ .gt) = true :=
    List.pairwise_insertionSort _ columns
  have different : (sortByKey (fun (a b : Column) => compareText a.name b.name ≠ .gt)
      columns).Pairwise fun a b => a.name ≠ b.name :=
    List.pairwise_map.mp (((List.perm_insertionSort _ columns).map Column.name).nodup_iff.mpr distinct)
  refine (sorted.and different).imp fun {a b} ⟨low, apart⟩ => ?_
  have low := of_decide_eq_true low
  have apart := mt (Value.compareText_eq_eq a.name b.name).mp apart
  cases order : compareText a.name b.name with
  | lt => rfl
  | eq => exact absurd order apart
  | gt => exact absurd order low

theorem mem_names_append
    {olds olds' news news' : List Column}
    {name : Text}
    (inOlds : olds ⊆ olds')
    (inNews : news ⊆ news')
    (member : name ∈ (olds ++ news).map Column.name) :
    name ∈ (olds' ++ news').map Column.name := by
  refine List.map_subset _ (List.append_subset.mpr ⟨?_, ?_⟩) member
  · exact fun column inside => List.mem_append_left _ (inOlds inside)
  · exact fun column inside => List.mem_append_right _ (inNews inside)

theorem pairwise_mergeJoin
    (fuel : Nat)
    (olds news : List Column)
    (oldsAscend : Ascending olds)
    (newsAscend : Ascending news) :
    (∀ item ∈ mergeJoin (fun a b : Column => compareText a.name b.name) fuel olds news,
      item.name ∈ (olds ++ news).map Column.name) ∧
      (mergeJoin (fun a b : Column => compareText a.name b.name) fuel olds news).Pairwise
        fun a b => compareText a.name b.name = .lt := by
  have lawful := transCmp_compareText
  induction fuel generalizing olds news with
  | zero => exact ⟨nofun, .nil⟩
  | succ fuel ih =>
      match olds, news with
      | [], news =>
          refine ⟨fun item member => ?_, List.pairwise_map.mpr newsAscend⟩
          obtain ⟨new, listed, rfl⟩ := List.mem_map.mp member
          exact List.mem_map_of_mem listed
      | old :: olds, [] =>
          refine ⟨fun item member => ?_, List.pairwise_map.mpr oldsAscend⟩
          obtain ⟨other, listed, rfl⟩ := List.mem_map.mp member
          rw [List.append_nil]
          exact List.mem_map_of_mem listed
      | old :: olds, new :: news =>
          obtain ⟨belowOld, oldsRest⟩ := List.pairwise_cons.mp oldsAscend
          obtain ⟨belowNew, newsRest⟩ := List.pairwise_cons.mp newsAscend
          unfold mergeJoin
          cases order : compareText old.name new.name with
          | eq =>
              have same := (Value.compareText_eq_eq _ _).mp order
              obtain ⟨names, pairwise⟩ := ih olds news oldsRest newsRest
              refine ⟨fun item member => ?_, List.pairwise_cons.mpr ⟨fun item member => ?_, pairwise⟩⟩
              · rcases List.mem_cons.mp member with rfl | later
                · simp [EitherOrBoth.name]
                · exact mem_names_append (List.subset_cons_self _ _) (List.subset_cons_self _ _)
                    (names item later)
              · obtain ⟨column, listed, rest⟩ := List.mem_map.mp (names item member)
                rw [← rest]
                rcases List.mem_append.mp listed with inside | inside
                · exact belowOld column inside
                · change compareText old.name column.name = .lt
                  rw [same]
                  exact belowNew column inside
          | lt =>
              obtain ⟨names, pairwise⟩ := ih olds (new :: news) oldsRest newsAscend
              refine ⟨fun item member => ?_, List.pairwise_cons.mpr ⟨fun item member => ?_, pairwise⟩⟩
              · rcases List.mem_cons.mp member with rfl | later
                · simp [EitherOrBoth.name]
                · exact mem_names_append (List.subset_cons_self _ _) (List.Subset.refl _)
                    (names item later)
              · obtain ⟨column, listed, rest⟩ := List.mem_map.mp (names item member)
                rw [← rest]
                rcases List.mem_append.mp listed with inside | inside
                · exact belowOld column inside
                · rcases List.mem_cons.mp inside with rfl | later
                  · exact order
                  · exact Std.TransCmp.lt_trans order (belowNew column later)
          | gt =>
              obtain ⟨names, pairwise⟩ := ih (old :: olds) news oldsAscend newsRest
              have swapped : compareText new.name old.name = .lt := Std.OrientedCmp.lt_of_gt order
              refine ⟨fun item member => ?_, List.pairwise_cons.mpr ⟨fun item member => ?_, pairwise⟩⟩
              · rcases List.mem_cons.mp member with rfl | later
                · simp [EitherOrBoth.name]
                · exact mem_names_append (List.Subset.refl _) (List.subset_cons_self _ _)
                    (names item later)
              · obtain ⟨column, listed, rest⟩ := List.mem_map.mp (names item member)
                rw [← rest]
                rcases List.mem_append.mp listed with inside | inside
                · rcases List.mem_cons.mp inside with rfl | later
                  · exact swapped
                  · exact Std.TransCmp.lt_trans swapped (belowOld column later)
                · exact belowNew column inside

theorem nodup_names_columnDiff
    (olds news : List Column)
    (oldsDistinct : (olds.map Column.name).Nodup)
    (newsDistinct : (news.map Column.name).Nodup) :
    ((columnDiff olds news).map EitherOrBoth.name).Nodup := by
  have lawful := transCmp_compareText
  have ascend := (pairwise_mergeJoin (olds.length + news.length) _ _
    (ascending_sortByKey olds oldsDistinct) (ascending_sortByKey news newsDistinct)).2
  refine List.pairwise_map.mpr (ascend.imp fun {a b} low same => ?_)
  rw [same, @Std.ReflCmp.compare_self _ compareText _ _] at low
  cases low

end Transaction

end Ducklake
