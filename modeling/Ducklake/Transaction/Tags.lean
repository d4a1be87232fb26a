import Ducklake.Db.KeyedRows
import Ducklake.Transaction.TransactionChanges

/-!
# Persisting the edits of tags

`persist_tags` of `transaction_changes.rs` on the rows of a table of tags.  The edits of all objects
run in rounds, with one edit of each object in a round; the last edit of a tag wins.
-/

set_option autoImplicit false

namespace Ducklake.Transaction

open Lib Lib.Sql Db

/-- `retire_rows` -/
def retireKeys {C V : Type} {K : Nat} [DecidableEq C] (dialect : Dialect)
    (collation : Collation V) (snapshotId : V) (keys : Fin K → C) (endSnapshot : C)
    (rows : List (Fin K → Option V)) (table : List (Row C V)) : DucklakeResult (List (Row C V)) :=
  updateMatchingRows dialect collation keys rows [(endSnapshot, some snapshotId)]
    (.isNull endSnapshot) table

structure TagTable (κ C V : Type) (K : Nat) where
  collation : Collation V
  keys : Fin K → C
  endSnapshot : C
  keyValues : κ → Text → Fin K → Option V
  entity : κ → Text → Text → Row C V
  identified : 0 < K
  fits : ∀ dialect : Dialect, 1 + K ≤ dialect.maxBindParams
  keys_ne_end : ∀ index, keys index ≠ endSnapshot
  entity_keys : ∀ object key value index,
    entity object key value (keys index) = keyValues object key index
  entity_live : ∀ object key value, entity object key value endSnapshot = none
  sameKey_self : ∀ object key,
    SameKey collation (keyValues object key) (keyValues object key)
  /-- The tags of different objects are different for the database. -/
  sameObject : ∀ object other key otherKey,
    SameKey collation (keyValues object key) (keyValues other otherKey) → object = other

/-! ## Rounds -/

section

variable {κ : Type}

def nextEdits (pending : List (κ × List TagChange)) : List (κ × TagChange) :=
  pending.filterMap fun entry => entry.2.head?.map fun change => (entry.1, change)

def laterEdits (pending : List (κ × List TagChange)) : List (κ × List TagChange) :=
  pending.map fun entry => (entry.1, entry.2.tail)

def remaining (pending : List (κ × List TagChange)) : Nat :=
  (pending.map fun entry => entry.2.length).sum

theorem nextEdits_sublist (pending : List (κ × List TagChange)) :
    ((nextEdits pending).map Prod.fst).Sublist (pending.map Prod.fst) := by
  induction pending with
  | nil => exact .refl _
  | cons entry rest ih =>
      obtain ⟨object, changes⟩ := entry
      cases changes with
      | nil => exact ih.cons object
      | cons change changes => exact ih.cons_cons object

theorem mem_nextEdits (pending : List (κ × List TagChange)) (object : κ) (change : TagChange) :
    (object, change) ∈ nextEdits pending ↔ ∃ later, (object, change :: later) ∈ pending := by
  unfold nextEdits
  rw [List.mem_filterMap]
  constructor
  · rintro ⟨⟨other, changes⟩, member, found⟩
    cases changes with
    | nil => cases found
    | cons first later =>
        cases found
        exact ⟨later, member⟩
  · rintro ⟨later, member⟩
    exact ⟨_, member, rfl⟩

theorem remaining_laterEdits (pending : List (κ × List TagChange)) :
    remaining (laterEdits pending) + (nextEdits pending).length = remaining pending := by
  induction pending with
  | nil => rfl
  | cons entry rest ih =>
      obtain ⟨object, changes⟩ := entry
      cases changes with
      | nil => simpa [remaining, laterEdits, nextEdits, List.filterMap_cons] using ih
      | cons change changes =>
          simp only [remaining, laterEdits, nextEdits, List.map_cons, List.sum_cons,
            List.filterMap_cons, List.head?_cons, Option.map_some, List.length_cons,
            List.tail_cons] at ih ⊢
          omega

variable [DecidableEq κ]

def changesOf (pending : List (κ × List TagChange)) (object : κ) : List TagChange :=
  ((pending.find? fun entry => entry.1 = object).map Prod.snd).getD []

theorem changesOf_laterEdits (pending : List (κ × List TagChange)) (object : κ) :
    changesOf (laterEdits pending) object = (changesOf pending object).tail := by
  unfold changesOf laterEdits
  rw [List.find?_map, Function.comp_def]
  cases pending.find? fun entry => entry.1 = object <;> rfl

theorem changesOf_of_mem
    (pending : List (κ × List TagChange))
    (unique : (pending.map Prod.fst).Nodup)
    (object : κ)
    (changes : List TagChange)
    (member : (object, changes) ∈ pending) :
    changesOf pending object = changes := by
  have found := (IndexMap.get?_eq_some_iff ⟨pending, unique⟩ object changes).mpr member
  exact congrArg (Option.getD · []) found

theorem mem_of_changesOf
    (pending : List (κ × List TagChange))
    (object : κ)
    (first : TagChange)
    (later : List TagChange)
    (changes : changesOf pending object = first :: later) :
    (object, first :: later) ∈ pending := by
  unfold changesOf at changes
  cases found : pending.find? fun entry => entry.1 = object with
  | none =>
      rw [found] at changes
      cases changes
  | some entry =>
      rw [found] at changes
      have same := List.find?_some found
      rw [decide_eq_true_iff] at same
      rw [← same, ← changes]
      exact List.mem_of_find?_eq_some found

theorem mem_nextEdits_iff
    (pending : List (κ × List TagChange))
    (unique : (pending.map Prod.fst).Nodup)
    (object : κ)
    (change : TagChange) :
    (object, change) ∈ nextEdits pending ↔ (changesOf pending object).head? = some change := by
  rw [mem_nextEdits]
  constructor
  · rintro ⟨later, member⟩
    rw [changesOf_of_mem pending unique object _ member]
    rfl
  · intro first
    cases changes : changesOf pending object with
    | nil =>
        rw [changes] at first
        cases first
    | cons head later =>
        rw [changes] at first
        cases first
        exact ⟨later, mem_of_changesOf pending object _ _ changes⟩

/-- How the executors collect an edit: behind the earlier edits of its object. -/
def collectEdit (changes : IndexMap κ (List TagChange)) (edit : κ × TagChange) :
    IndexMap κ (List TagChange) :=
  changes.alter edit.1 fun earlier => earlier.getD [] ++ [edit.2]

def collectEdits (edits : List (κ × TagChange)) : IndexMap κ (List TagChange) :=
  edits.foldl collectEdit .empty

def editsOf (object : κ) (edits : List (κ × TagChange)) : List TagChange :=
  (edits.filter fun edit => edit.1 = object).map Prod.snd

theorem getD_foldl_collectEdit
    (edits : List (κ × TagChange))
    (changes : IndexMap κ (List TagChange))
    (object : κ) :
    ((edits.foldl collectEdit changes).get? object).getD [] =
      (changes.get? object).getD [] ++ editsOf object edits := by
  induction edits generalizing changes with
  | nil => exact (List.append_nil _).symm
  | cons edit rest ih =>
      rw [List.foldl_cons, ih, collectEdit, IndexMap.alter, IndexMap.get?_insert]
      by_cases same : object = edit.1
      · rw [if_pos same, editsOf, editsOf, List.filter_cons_of_pos (by simp [same])]
        simp [same]
      · rw [if_neg same, editsOf, editsOf, List.filter_cons_of_neg (by simpa [eq_comm] using same)]

theorem changesOf_collectEdits
    (edits : List (κ × TagChange))
    (pending : List (κ × List TagChange))
    (order : pending.Perm (collectEdits edits).entries)
    (object : κ) :
    changesOf pending object = editsOf object edits := by
  have unique : (pending.map Prod.fst).Nodup :=
    (order.map Prod.fst).nodup_iff.mpr (collectEdits edits).unique
  have same : (IndexMap.mk pending unique).get? object = (collectEdits edits).get? object := by
    refine Option.ext fun changes => ?_
    rw [IndexMap.get?_eq_some_iff, IndexMap.get?_eq_some_iff]
    exact order.mem_iff
  have collected := getD_foldl_collectEdit edits .empty object
  exact (congrArg (Option.getD · []) same).trans collected

theorem mem_edits_of_mem
    (edits : List (κ × TagChange))
    (pending : List (κ × List TagChange))
    (order : pending.Perm (collectEdits edits).entries)
    (entry : κ × List TagChange)
    (member : entry ∈ pending)
    (change : TagChange)
    (listed : change ∈ entry.2) :
    (entry.1, change) ∈ edits := by
  have unique : (pending.map Prod.fst).Nodup :=
    (order.map Prod.fst).nodup_iff.mpr (collectEdits edits).unique
  rw [← changesOf_of_mem pending unique entry.1 entry.2 member,
    changesOf_collectEdits edits pending order] at listed
  obtain ⟨edit, kept, rfl⟩ := List.mem_map.mp listed
  obtain ⟨inside, same⟩ := List.mem_filter.mp kept
  rw [← of_decide_eq_true same]
  exact inside

end

namespace TagTable

variable {κ C V : Type} {K : Nat} (table : TagTable κ C V K)

def inserted (edit : κ × TagChange) : List (Row C V) :=
  (edit.2.value.map (table.entity edit.1 edit.2.key)).toList

def EditOf (object : κ) (key : Text) (edit : κ × TagChange) : Prop :=
  SameKey table.collation (table.keyValues edit.1 edit.2.key) (table.keyValues object key)

instance (object : κ) (key : Text) (edit : κ × TagChange) :
    Decidable (table.EditOf object key edit) :=
  inferInstanceAs (Decidable (∀ _, _))

theorem EditOf.object {table : TagTable κ C V K} {object : κ} {key : Text} {edit : κ × TagChange}
    (about : table.EditOf object key edit) : edit.1 = object :=
  table.sameObject _ _ _ _ about

def live (object : κ) (key : Text) (rows : List (Row C V)) : List (Row C V) :=
  rows.filter fun row => (row table.endSnapshot).isNone &&
    decide (Selects table.collation table.keys (table.keyValues object key) row)

theorem live_inserted (object : κ) (key : Text) (edit : κ × TagChange) :
    table.live object key (table.inserted edit) =
      if table.EditOf object key edit then table.inserted edit else [] := by
  have selects : ∀ value, Selects table.collation table.keys (table.keyValues object key)
      (table.entity edit.1 edit.2.key value) ↔ table.EditOf object key edit := by
    intro value
    refine forall_congr' fun index => ?_
    rw [table.entity_keys]
  unfold live inserted
  cases edit.2.value with
  | none => simp
  | some value => simp [List.filter_cons, table.entity_live, selects]

variable [DecidableEq C]

/-- `persist_tags`: edits of different objects are independent, those of one object stay ordered. -/
def persistTags (dialect : Dialect) (snapshotId : V) (pending : List (κ × List TagChange))
    (rows : List (Row C V)) : DucklakeResult (List (Row C V)) :=
  let edits := nextEdits pending
  if _nothing : edits = [] then .ok rows
  else do
    let rows ← retireKeys dialect table.collation snapshotId table.keys table.endSnapshot
      (edits.map fun edit => table.keyValues edit.1 edit.2.key) rows
    persistTags dialect snapshotId (laterEdits pending) (rows ++ edits.flatMap table.inserted)
termination_by remaining pending
decreasing_by
  have some : 0 < (nextEdits pending).length := List.length_pos_iff.mpr _nothing
  have := remaining_laterEdits pending
  omega

/-! ## One round -/

def retired (snapshotId : V) (edits : List (κ × TagChange)) (row : Row C V) : Row C V :=
  updateMatching table.collation table.keys [(table.endSnapshot, some snapshotId)]
    (.isNull table.endSnapshot) (edits.map fun edit => table.keyValues edit.1 edit.2.key) row

def round (snapshotId : V) (edits : List (κ × TagChange)) (rows : List (Row C V)) :
    List (Row C V) :=
  rows.map (table.retired snapshotId edits) ++ edits.flatMap table.inserted

theorem retired_keys (snapshotId : V) (edits : List (κ × TagChange)) (object : κ) (key : Text)
    (row : Row C V) :
    Selects table.collation table.keys (table.keyValues object key)
        (table.retired snapshotId edits row) ↔
      Selects table.collation table.keys (table.keyValues object key) row := by
  refine selects_updateMatching _ _ _ _ (fun entry member index => ?_) _ _ _
  rw [List.mem_singleton.mp member]
  exact (table.keys_ne_end index).symm

theorem retired_eq_self
    (snapshotId : V)
    (edits : List (κ × TagChange))
    (row : Row C V)
    (other : ∀ edit ∈ edits,
      ¬ Selects table.collation table.keys (table.keyValues edit.1 edit.2.key) row) :
    table.retired snapshotId edits row = row := by
  refine if_neg fun both => ?_
  obtain ⟨key, member, selects⟩ := both.2
  obtain ⟨edit, inside, rfl⟩ := List.mem_map.mp member
  exact other edit inside selects

theorem retired_ended
    (snapshotId : V)
    (edits : List (κ × TagChange))
    (row : Row C V)
    (edit : κ × TagChange)
    (member : edit ∈ edits)
    (selects : Selects table.collation table.keys (table.keyValues edit.1 edit.2.key) row) :
    (table.retired snapshotId edits row table.endSnapshot).isNone = false := by
  unfold retired updateMatching
  by_cases ended : row table.endSnapshot = none
  · rw [if_pos ⟨(holds_isNull _ _ _).mpr ended, _, List.mem_map_of_mem member, selects⟩]
    simp [withValues]
  · rw [if_neg fun both => ended ((holds_isNull _ _ _).mp both.1)]
    exact Option.isNone_eq_false_iff.mpr (Option.isSome_iff_ne_none.mpr ended)

theorem live_retired
    (snapshotId : V)
    (edits : List (κ × TagChange))
    (object : κ)
    (key : Text)
    (rows : List (Row C V)) :
    table.live object key (rows.map (table.retired snapshotId edits)) =
      if ∃ edit ∈ edits, table.EditOf object key edit then [] else table.live object key rows := by
  -- the row of a tag is selected by the edits of the tag
  have selected : ∀ row, Selects table.collation table.keys (table.keyValues object key) row →
      ∀ edit, table.EditOf object key edit ↔
        Selects table.collation table.keys (table.keyValues edit.1 edit.2.key) row := by
    intro row own edit
    constructor
    · exact fun about index =>
        table.collation.equal_trans _ _ _ (own index) (table.collation.equal_symm _ _ (about index))
    · exact fun other => SameKey.of_selects table.collation table.keys other own
  unfold live
  rw [List.filter_map]
  split
  · rename_i found
    obtain ⟨edit, member, about⟩ := found
    rw [List.map_eq_nil_iff, List.filter_eq_nil_iff]
    intro row _ alive
    rw [Function.comp_apply, Bool.and_eq_true, decide_eq_true_iff, retired_keys] at alive
    rw [table.retired_ended snapshotId edits row edit member
      ((selected row alive.2 edit).mp about)] at alive
    exact Bool.false_ne_true alive.1
  · rename_i missing
    have same : ∀ row, Selects table.collation table.keys (table.keyValues object key) row →
        table.retired snapshotId edits row = row := by
      intro row own
      refine table.retired_eq_self snapshotId edits row fun edit member other => missing ?_
      exact ⟨edit, member, (selected row own edit).mpr other⟩
    have kept : rows.filter ((fun row => (row table.endSnapshot).isNone && decide (Selects
        table.collation table.keys (table.keyValues object key) row)) ∘
          table.retired snapshotId edits) =
        rows.filter fun row => (row table.endSnapshot).isNone &&
          decide (Selects table.collation table.keys (table.keyValues object key) row) := by
      refine List.filter_congr fun row _ => ?_
      rw [Function.comp_apply]
      by_cases own : Selects table.collation table.keys (table.keyValues object key) row
      · rw [same row own]
      · simp [retired_keys, own]
    rw [kept]
    refine (List.map_congr_left fun row member => ?_).trans (List.map_id _)
    have own := (List.mem_filter.mp member).2
    rw [Bool.and_eq_true, decide_eq_true_iff] at own
    exact same row own.2

/-- The live rows of a tag after an edit of its object. -/
def edited (object : κ) (key : Text) (rows : List (Row C V)) (change : TagChange) :
    List (Row C V) :=
  if table.EditOf object key (object, change) then table.inserted (object, change) else rows

theorem live_round
    (snapshotId : V)
    (edits : List (κ × TagChange))
    (object : κ)
    (key : Text)
    (rows : List (Row C V)) :
    table.live object key (table.round snapshotId edits rows) =
      (if ∃ edit ∈ edits, table.EditOf object key edit then [] else table.live object key rows) ++
        edits.flatMap fun edit => if table.EditOf object key edit then table.inserted edit else [] := by
  refine (List.filter_append ..).trans ?_
  rw [← table.live_retired snapshotId edits object key rows]
  refine congrArg (_ ++ ·) ((List.filter_flatMap ..).trans ?_)
  exact List.flatMap_congr fun edit _ => table.live_inserted object key edit

theorem live_round_of_notMem
    (snapshotId : V)
    (edits : List (κ × TagChange))
    (object : κ)
    (key : Text)
    (rows : List (Row C V))
    (other : ∀ edit ∈ edits, edit.1 ≠ object) :
    table.live object key (table.round snapshotId edits rows) = table.live object key rows := by
  have none : ∀ edit ∈ edits, ¬ table.EditOf object key edit := fun edit member about =>
    other edit member about.object
  rw [live_round, if_neg fun found => none _ found.choose_spec.1 found.choose_spec.2]
  have nothing : (edits.flatMap fun edit =>
      if table.EditOf object key edit then table.inserted edit else []) = [] :=
    List.flatMap_eq_nil_iff.mpr fun edit member => if_neg (none edit member)
  rw [nothing, List.append_nil]

theorem live_round_of_mem
    (snapshotId : V)
    (edits : List (κ × TagChange))
    (unique : (edits.map Prod.fst).Nodup)
    (object : κ)
    (change : TagChange)
    (member : (object, change) ∈ edits)
    (key : Text)
    (rows : List (Row C V)) :
    table.live object key (table.round snapshotId edits rows) =
      table.edited object key (table.live object key rows) change := by
  obtain ⟨front, back, rfl⟩ := List.append_of_mem member
  rw [List.map_append, List.map_cons, List.nodup_append, List.nodup_cons] at unique
  have before : ∀ edit ∈ front, ¬ table.EditOf object key edit := fun edit inside about =>
    unique.2.2 _ (List.mem_map_of_mem inside) _ List.mem_cons_self about.object
  have behind : ∀ edit ∈ back, ¬ table.EditOf object key edit := fun edit inside about =>
    unique.2.1.1 (List.mem_map.mpr ⟨edit, inside, about.object⟩)
  have one : (∃ edit ∈ front ++ (object, change) :: back, table.EditOf object key edit) ↔
      table.EditOf object key (object, change) := by
    constructor
    · rintro ⟨edit, inside, about⟩
      rcases List.mem_append.mp inside with inside | inside
      · exact absurd about (before edit inside)
      · rcases List.mem_cons.mp inside with rfl | inside
        · exact about
        · exact absurd about (behind edit inside)
    · exact fun about => ⟨_, member, about⟩
  have nothing : ∀ others : List (κ × TagChange), (∀ edit ∈ others, ¬ table.EditOf object key edit) →
      (others.flatMap fun edit =>
        if table.EditOf object key edit then table.inserted edit else []) = [] :=
    fun others none => List.flatMap_eq_nil_iff.mpr fun edit inside => if_neg (none edit inside)
  rw [live_round, List.flatMap_append, List.flatMap_cons, nothing front before,
    nothing back behind, List.nil_append, List.append_nil, if_congr one rfl rfl, edited]
  by_cases about : table.EditOf object key (object, change)
  · rw [if_pos about, if_pos about, if_pos about, List.nil_append]
  · rw [if_neg about, if_neg about, if_neg about, List.append_nil]

def outside (edits : List (κ × TagChange)) (row : Row C V) : Bool :=
  edits.all fun edit =>
    !decide (Selects table.collation table.keys (table.keyValues edit.1 edit.2.key) row)

/-- A round leaves the rows of all other tags, also those that are not live. -/
theorem filter_outside_round
    (snapshotId : V)
    (all edits : List (κ × TagChange))
    (inside : edits ⊆ all)
    (rows : List (Row C V)) :
    (table.round snapshotId edits rows).filter (table.outside all) =
      rows.filter (table.outside all) := by
  have new : (edits.flatMap table.inserted).filter (table.outside all) = [] := by
    refine List.filter_eq_nil_iff.mpr fun row member untouched => ?_
    obtain ⟨edit, listed, inserted⟩ := List.mem_flatMap.mp member
    obtain ⟨value, _, rfl⟩ := Option.map_eq_some_iff.mp (Option.mem_toList.mp inserted)
    have missed := List.all_eq_true.mp untouched edit (inside listed)
    rw [Bool.not_eq_true', decide_eq_false_iff_not] at missed
    refine missed fun index => ?_
    rw [table.entity_keys]
    exact table.sameKey_self _ _ index
  have kept : table.outside all ∘ table.retired snapshotId edits = table.outside all := by
    funext row
    simp only [Function.comp_apply, outside, retired_keys]
  rw [round, List.filter_append, new, List.append_nil, List.filter_map, kept]
  refine (List.map_congr_left fun row member => ?_).trans (List.map_id _)
  have untouched := List.all_eq_true.mp (List.mem_filter.mp member).2
  refine table.retired_eq_self snapshotId edits row fun edit listed => ?_
  simpa using untouched edit (inside listed)

/-! ## All rounds -/

theorem retireKeys_eq
    (dialect : Dialect)
    (snapshotId : V)
    (edits : List (κ × TagChange))
    (rows : List (Row C V)) :
    retireKeys dialect table.collation snapshotId table.keys table.endSnapshot
        (edits.map fun edit => table.keyValues edit.1 edit.2.key) rows =
      .ok (rows.map (table.retired snapshotId edits)) := by
  refine updateMatchingRows_eq _ _ _ _ dialect table.identified (fun entry member index => ?_)
    (by simpa [Condition.binds] using table.fits dialect) _ rows
  rw [List.mem_singleton.mp member]
  exact (table.keys_ne_end index).symm

variable [DecidableEq κ]

/-- The rounds do the edits of each object in order, whatever the order of the objects. -/
theorem persistTags_live
    (dialect : Dialect)
    (snapshotId : V)
    (all : List (κ × TagChange))
    (pending : List (κ × List TagChange))
    (unique : (pending.map Prod.fst).Nodup)
    (inside : ∀ entry ∈ pending, ∀ change ∈ entry.2, (entry.1, change) ∈ all)
    (rows : List (Row C V)) :
    ∃ result, table.persistTags dialect snapshotId pending rows = .ok result ∧
      (∀ object key, table.live object key result =
        (changesOf pending object).foldl (table.edited object key)
          (table.live object key rows)) ∧
      result.filter (table.outside all) = rows.filter (table.outside all) := by
  fun_induction table.persistTags dialect snapshotId pending rows with
  | case1 pending rows edits nothing =>
      refine ⟨rows, rfl, fun object key => ?_, rfl⟩
      cases changes : changesOf pending object with
      | nil => rfl
      | cons change later =>
          have next : (object, change) ∈ nextEdits pending := by
            rw [mem_nextEdits_iff pending unique, changes]
            rfl
          rw [show nextEdits pending = [] from nothing] at next
          cases next
  | case2 pending rows edits some ih =>
      have objects : (laterEdits pending).map Prod.fst = pending.map Prod.fst :=
        (List.map_map ..).trans rfl
      have listed : ∀ entry ∈ laterEdits pending, ∀ change ∈ entry.2, (entry.1, change) ∈ all := by
        intro entry member change later
        obtain ⟨before, inPending, rfl⟩ := List.mem_map.mp member
        exact inside before inPending change (List.mem_of_mem_tail later)
      obtain ⟨result, executed, alive, other⟩ := ih (rows.map (table.retired snapshotId edits))
        (objects ▸ unique) listed
      refine ⟨result, ?_, fun object key => ?_, ?_⟩
      · rw [retireKeys_eq]
        exact executed
      · rw [alive, changesOf_laterEdits]
        cases changes : changesOf pending object with
        | nil =>
            refine table.live_round_of_notMem snapshotId _ object key rows fun edit member same => ?_
            subst same
            rw [mem_nextEdits_iff pending unique, changes] at member
            cases member
        | cons change later =>
            have next : (object, change) ∈ nextEdits pending := by
              rw [mem_nextEdits_iff pending unique, changes]
              rfl
            rw [List.tail_cons, List.foldl_cons]
            exact congrArg (fun rows => later.foldl (table.edited object key) rows)
              (table.live_round_of_mem snapshotId _
                ((nextEdits_sublist pending).nodup unique) object change next key rows)
      · rw [other]
        refine table.filter_outside_round snapshotId all _ (fun edit member => ?_) rows
        obtain ⟨later, member⟩ := (mem_nextEdits pending edit.1 edit.2).mp member
        exact inside _ member _ List.mem_cons_self

/-! ## The last edit -/

/-- The edits one after another, each of them a round of its own. -/
def applyInOrder (snapshotId : V) (edits : List (κ × TagChange)) (rows : List (Row C V)) :
    List (Row C V) :=
  edits.foldl (fun rows edit => table.round snapshotId [edit] rows) rows

theorem live_applyInOrder
    (snapshotId : V)
    (edits : List (κ × TagChange))
    (object : κ)
    (key : Text)
    (rows : List (Row C V)) :
    table.live object key (table.applyInOrder snapshotId edits rows) =
      (editsOf object edits).foldl (table.edited object key) (table.live object key rows) := by
  unfold applyInOrder
  induction edits generalizing rows with
  | nil => rfl
  | cons edit rest ih =>
      rw [List.foldl_cons, ih]
      by_cases same : edit.1 = object
      · subst same
        rw [editsOf, editsOf, List.filter_cons_of_pos (by simp), List.map_cons, List.foldl_cons,
          table.live_round_of_mem snapshotId [edit] (List.nodup_singleton _) edit.1 edit.2
            (List.mem_singleton_self _)]
      · rw [editsOf, editsOf, List.filter_cons_of_neg (by simpa using same),
          table.live_round_of_notMem snapshotId [edit] object key rows fun other member => by
            rw [List.mem_singleton.mp member]
            exact same]

def lastEdit (object : κ) (key : Text) (edits : List (κ × TagChange)) : Option (κ × TagChange) :=
  (edits.filter fun edit => table.EditOf object key edit).getLast?

omit [DecidableEq C] in
theorem foldl_edited
    (object : κ)
    (key : Text)
    (edits : List (κ × TagChange))
    (rows : List (Row C V)) :
    (editsOf object edits).foldl (table.edited object key) rows =
      match table.lastEdit object key edits with
      | some edit => table.inserted edit
      | none => rows := by
  induction edits generalizing rows with
  | nil => rfl
  | cons edit rest ih =>
      by_cases about : table.EditOf object key edit
      · have same : edit.1 = object := about.object
        subst same
        have here : table.edited edit.1 key rows edit.2 = table.inserted edit := if_pos about
        rw [editsOf, List.filter_cons_of_pos (by simp), List.map_cons, List.foldl_cons, here,
          lastEdit, List.filter_cons_of_pos (by simpa using about), List.getLast?_cons]
        refine (ih _).trans ?_
        rw [lastEdit]
        cases (rest.filter fun edit' => table.EditOf edit.1 key edit').getLast? <;> rfl
      · rw [lastEdit, List.filter_cons_of_neg (by simpa using about)]
        by_cases same : edit.1 = object
        · subst same
          have here : table.edited edit.1 key rows edit.2 = rows := if_neg about
          rw [editsOf, List.filter_cons_of_pos (by simp), List.map_cons, List.foldl_cons, here]
          exact ih rows
        · rw [editsOf, List.filter_cons_of_neg (by simpa using same)]
          exact ih rows

/-- For any edits and any order of their objects: a tag has the value of its last edit, or none if
that one removes it; so it is after the edits one by one.  Tags that are not edited keep all their
rows. -/
theorem persistTags_lastEdit
    (dialect : Dialect)
    (snapshotId : V)
    (edits : List (κ × TagChange))
    (pending : List (κ × List TagChange))
    (order : pending.Perm (collectEdits edits).entries)
    (rows : List (Row C V)) :
    ∃ result, table.persistTags dialect snapshotId pending rows = .ok result ∧
      (∀ object key, table.live object key result =
        match table.lastEdit object key edits with
        | some edit => table.inserted edit
        | none => table.live object key rows) ∧
      (∀ object key, table.live object key result =
        table.live object key (table.applyInOrder snapshotId edits rows)) ∧
      result.filter (table.outside edits) = rows.filter (table.outside edits) := by
  have unique : (pending.map Prod.fst).Nodup :=
    (order.map Prod.fst).nodup_iff.mpr (collectEdits edits).unique
  obtain ⟨result, executed, alive, other⟩ := table.persistTags_live dialect snapshotId edits pending
    unique (mem_edits_of_mem edits pending order) rows
  refine ⟨result, executed, fun object key => ?_, fun object key => ?_, other⟩
  · rw [alive, changesOf_collectEdits edits pending order, foldl_edited]
  · rw [alive, changesOf_collectEdits edits pending order, live_applyInOrder]

end TagTable

end Ducklake.Transaction
