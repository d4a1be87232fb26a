import Ducklake.Transaction.SchemaDiff
import Ducklake.Typedefs.TreeEdits

/-!
# Trees after an update

The steps of an update of a type edit the column that is shown at its path.  After all of them the
column has the updated type.
-/

set_option autoImplicit false

namespace Ducklake

open Lib Transaction

namespace Transaction

theorem sizeBelow_eq (column : Column) :
    Column.sizeBelow column.dtype + 1 = column.size := by
  obtain ⟨_, dtype, _, _, _, _, _⟩ := column
  rfl

/-! ## Steps on a tree -/

/-- What a step does to the column shown at a path.  Removed columns are still shown. -/
def RetypeStep.On (path : List Text) : RetypeStep → Column → Column → Prop
  | cast target type, before, after =>
      ∃ rest, target = path ++ rest ∧ Column.EditAt (Column.Casts type) rest before after
  | remove _, before, after => after = before
  | add target column, before, after =>
      ∃ rest, target = path ++ rest ∧ Column.EditAt (Column.AddsField column) rest before after
  | refuse _ _, _, _ => False

def StepsOn (path : List Text) : List RetypeStep → Column → Column → Prop
  | [], before, after => after = before
  | step :: rest, before, after =>
      ∃ middle, step.On path before middle ∧ middle.distinctFields = true ∧
        StepsOn path rest middle after

theorem stepsOn_append
    (path : List Text)
    (first second : List RetypeStep)
    (before after : Column) :
    StepsOn path (first ++ second) before after ↔
      ∃ middle, StepsOn path first before middle ∧ StepsOn path second middle after := by
  induction first generalizing before with
  | nil => simp [StepsOn]
  | cons step rest ih =>
      simp only [List.cons_append, StepsOn, ih]
      constructor
      · rintro ⟨next, done, distinct, middle, front, back⟩
        exact ⟨middle, ⟨next, done, distinct, front⟩, back⟩
      · rintro ⟨middle, ⟨next, done, distinct, front⟩, back⟩
        exact ⟨next, done, distinct, middle, front, back⟩

/-- The step works at a path or below it; what it removes stands below. -/
def RetypeStep.Below (path : List Text) : RetypeStep → Prop
  | cast target _ | add target _ => ∃ rest, target = path ++ rest
  | remove target => ∃ part rest, target = path ++ part :: rest
  | refuse _ _ => True

theorem RetypeStep.Below.up
    {path : List Text}
    {part : Text}
    {step : RetypeStep}
    (below : step.Below (path ++ [part])) :
    step.Below path := by
  cases step with
  | cast target type | add target column =>
      obtain ⟨rest, rfl⟩ := below
      exact ⟨part :: rest, by rw [List.append_assoc]; rfl⟩
  | remove target =>
      obtain ⟨next, rest, rfl⟩ := below
      exact ⟨part, next :: rest, by rw [List.append_assoc]; rfl⟩
  | refuse => trivial

theorem below_of_mem_retypeSteps
    (fuel : Nat)
    (path : List Text)
    (existing target : DataType)
    (step : RetypeStep)
    (member : step ∈ retypeSteps fuel path existing target) :
    step.Below path := by
  induction fuel generalizing path existing target with
  | zero => cases member
  | succ fuel ih =>
      have refused : step ∈ [RetypeStep.refuse existing target] → step.Below path := by
        intro only
        rw [List.mem_singleton.mp only]
        trivial
      unfold retypeSteps at member
      split at member
      · cases member
      · cases existing with
        | primitive source =>
            cases target with
            | primitive type =>
                dsimp only at member
                split at member
                · rw [List.mem_singleton.mp member]
                  exact ⟨[], (List.append_nil _).symm⟩
                · exact refused member
            | list _ | struct _ | map _ _ => exact refused member
        | list oldInner =>
            cases target with
            | list newInner => exact (ih _ _ _ member).up
            | primitive _ | struct _ | map _ _ => exact refused member
        | struct oldFields =>
            cases target with
            | struct newFields =>
                obtain ⟨item, _, member⟩ := List.mem_flatMap.mp member
                cases item with
                | both old new => exact (ih _ _ _ member).up
                | left old =>
                    rw [List.mem_singleton.mp member]
                    exact ⟨old.name, [], rfl⟩
                | right new =>
                    rw [List.mem_singleton.mp member]
                    exact ⟨[], (List.append_nil _).symm⟩
            | primitive _ | list _ | map _ _ => exact refused member
        | map oldKey oldValue =>
            cases target with
            | map newKey newValue =>
                rcases List.mem_append.mp member with first | second
                · exact (ih _ _ _ first).up
                · exact (ih _ _ _ second).up
            | primitive _ | list _ | struct _ => exact refused member

theorem StepsOn.through_slot
    {part : Text}
    {fits : Column → Prop}
    {build : Column → DataType}
    (slot : Column.Slot part fits build)
    (path : List Text)
    (steps : List RetypeStep)
    (column child after : Column)
    (dtype : column.dtype = build child)
    (suits : fits child)
    (below : ∀ step ∈ steps, step.Below (path ++ [part]))
    (done : StepsOn path steps column after) :
    ∃ child', fits child' ∧ StepsOn (path ++ [part]) steps child child' ∧
      after = column.withDtype (build child') := by
  induction steps generalizing column child with
  | nil =>
      cases done
      exact ⟨child, suits, rfl, (Column.withDtype_self _ _ dtype).symm⟩
  | cons step rest ih =>
      obtain ⟨middle, first, distinct, later⟩ := done
      have edits : ∀ (edit : Column → Column → Prop) (target : List Text), Column.KeepsName edit →
          (∃ rest, target = (path ++ [part]) ++ rest) →
          (∃ rest, target = path ++ rest ∧ Column.EditAt edit rest column middle) →
            ∃ child', fits child' ∧
              (∃ rest, target = (path ++ [part]) ++ rest ∧ Column.EditAt edit rest child child') ∧
              middle = column.withDtype (build child') := by
        rintro edit _ keeps ⟨under, rfl⟩ ⟨beneath, same, edited⟩
        rw [List.append_assoc] at same
        obtain rfl := List.append_cancel_left same
        obtain ⟨child', suits', edited', rfl⟩ :=
          slot.through edit under column child middle keeps suits dtype edited
        exact ⟨child', suits', ⟨under, rfl, edited'⟩, rfl⟩
      obtain ⟨child', suits', first', rfl⟩ : ∃ child', fits child' ∧
          step.On (path ++ [part]) child child' ∧ middle = column.withDtype (build child') := by
        have place := below step List.mem_cons_self
        cases step with
        | cast target type =>
            exact edits _ target (Column.keepsName_casts type) place first
        | add target new =>
            exact edits _ target (Column.keepsName_addsField new) place first
        | remove target =>
            cases first
            exact ⟨child, suits, rfl, (Column.withDtype_self _ _ dtype).symm⟩
        | refuse => exact absurd first id
      obtain ⟨final, suitsFinal, later', rfl⟩ :=
        ih (column.withDtype (build child')) child' (Column.dtype_withDtype _ _) suits'
          (fun step member => below step (List.mem_cons_of_mem _ member)) later
      refine ⟨final, suitsFinal, ⟨child', first', ?_, later'⟩, Column.withDtype_withDtype _ _ _⟩
      exact slot.distinct _ child' (Column.dtype_withDtype _ _) distinct

theorem StepsOn.distinct
    {path : List Text}
    {steps : List RetypeStep}
    {before after : Column}
    (done : StepsOn path steps before after)
    (distinct : before.distinctFields = true) :
    after.distinctFields = true := by
  induction steps generalizing before with
  | nil =>
      cases done
      exact distinct
  | cons step rest ih =>
      obtain ⟨middle, _, distinct, later⟩ := done
      exact ih later distinct

/-! ## The updated tree -/

/-- What the items of a difference make of the fields of a struct. -/
structure Applied (items : List (EitherOrBoth Column Column)) (before after : List Column) :
    Prop where
  untouched : ∀ name, (∀ item ∈ items, item.written ≠ some name) →
    Column.fieldNamed after name = Column.fieldNamed before name
  updated : ∀ old new, .both old new ∈ items → ∃ dtype,
    Column.fieldNamed after old.name = some (old.withDtype dtype) ∧
      DataType.Updated old.dtype new.dtype dtype
  added : ∀ new, .right new ∈ items → new.name ∉ before.map Column.name ∧
    ∃ copy, Column.fieldNamed after new.name = some copy ∧ DataType.Copies new copy

def itemSteps (fuel : Nat) (path : List Text) : EitherOrBoth Column Column → List RetypeStep
  | .both old new => retypeSteps fuel (path ++ [old.name]) old.dtype new.dtype
  | .left old => [.remove (path ++ [old.name])]
  | .right new => [.add path new]

def Updates (fuel : Nat) : Prop :=
  ∀ (path : List Text) (existing target : DataType) (before after : Column),
    Column.sizeBelow existing < fuel → before.dtype = existing → before.distinctFields = true →
      StepsOn path (retypeSteps fuel path existing target) before after →
        ∃ dtype, after = before.withDtype dtype ∧ DataType.Updated existing target dtype

section

variable {items : List (EitherOrBoth Column Column)} {fields : List Column}

theorem Applied.nil (fields : List Column) : Applied [] fields fields where
  untouched _ _ := rfl
  updated _ _ member := nomatch member
  added _ member := nomatch member

theorem Applied.left
    {fields' : List Column}
    (applied : Applied items fields fields')
    (old : Column) :
    Applied (.left old :: items) fields fields' where
  untouched name others := applied.untouched name fun item member =>
    others item (List.mem_cons_of_mem _ member)
  updated o n member := applied.updated o n ((List.mem_cons.mp member).resolve_left nofun)
  added n member := applied.added n ((List.mem_cons.mp member).resolve_left nofun)

theorem Applied.both
    {front back fields' : List Column}
    (old new : Column)
    (dtype : DataType)
    (distinct : ((front ++ old :: back).map Column.name).Nodup)
    (updated : DataType.Updated old.dtype new.dtype dtype)
    (others : ∀ o n, .both o n ∈ items → o.name ≠ old.name)
    (applied : Applied items (front ++ old.withDtype dtype :: back) fields') :
    Applied (.both old new :: items) (front ++ old :: back) fields' := by
  have names : (front ++ old.withDtype dtype :: back).map Column.name =
      (front ++ old :: back).map Column.name := by
    simp
  have replaced := Column.fieldNamed_replace front back old (old.withDtype dtype)
    (Column.name_withDtype _ _) distinct
  have later : ∀ item ∈ items, item.written ≠ some old.name := by
    intro item member written
    cases item with
    | both o n => exact others o n member (Option.some.inj written)
    | left _ => cases written
    | right n =>
        refine (applied.added n member).1 ?_
        rw [Option.some.inj written, names]
        simp
  refine ⟨fun name untouched => ?_, fun o n member => ?_, fun n member => ?_⟩
  · rw [applied.untouched name fun item member => untouched item (List.mem_cons_of_mem _ member),
      replaced, if_neg fun same =>
        untouched _ List.mem_cons_self (congrArg some same)]
  · rcases List.mem_cons.mp member with pair | member
    · obtain ⟨rfl, rfl⟩ := EitherOrBoth.both.inj pair
      refine ⟨dtype, ?_, updated⟩
      rw [applied.untouched _ later, replaced, if_pos rfl]
    · exact applied.updated o n member
  · obtain ⟨fresh, copy⟩ := applied.added n ((List.mem_cons.mp member).resolve_left nofun)
    exact ⟨names ▸ fresh, copy⟩

theorem Applied.right
    {fields' : List Column}
    (new copy : Column)
    (fresh : new.name ∉ fields.map Column.name)
    (copies : DataType.Copies new copy)
    (inside : ∀ o n, .both o n ∈ items → o ∈ fields)
    (applied : Applied items (fields ++ [copy]) fields') :
    Applied (.right new :: items) fields fields' := by
  have later : ∀ item ∈ items, item.written ≠ some new.name := by
    intro item member written
    cases item with
    | both o n =>
        refine fresh ?_
        rw [← Option.some.inj written]
        exact List.mem_map_of_mem (inside o n member)
    | left _ => cases written
    | right n =>
        refine (applied.added n member).1 ?_
        rw [Option.some.inj written, ← copies.name]
        simp
  refine ⟨fun name untouched => ?_, fun o n member => ?_, fun n member => ?_⟩
  · rw [applied.untouched name fun item member => untouched item (List.mem_cons_of_mem _ member),
      Column.fieldNamed_append_singleton, if_neg fun same =>
        untouched _ List.mem_cons_self (congrArg some (copies.name.symm.trans same))]
  · exact applied.updated o n ((List.mem_cons.mp member).resolve_left nofun)
  · rcases List.mem_cons.mp member with added | member
    · obtain rfl := EitherOrBoth.right.inj added
      refine ⟨fresh, copy, ?_, copies⟩
      rw [applied.untouched _ later, Column.fieldNamed_append_singleton, if_pos copies.name]
    · obtain ⟨apart, found⟩ := applied.added n member
      exact ⟨fun inside => apart (by simp [List.mem_map.mp inside]), found⟩

end

theorem applied_of_stepsOn
    (fuel : Nat)
    (updates : Updates fuel)
    (path : List Text)
    (items : List (EitherOrBoth Column Column))
    (fields : List Column)
    (before after : Column)
    (dtype : before.dtype = .struct fields)
    (distinct : before.distinctFields = true)
    (paired : ∀ old new, .both old new ∈ items →
      old ∈ fields ∧ Column.sizeBelow old.dtype < fuel)
    (names : ((items.filterMap EitherOrBoth.left?).map Column.name).Nodup)
    (done : StepsOn path (items.flatMap (itemSteps fuel path)) before after) :
    ∃ fields', after = before.withDtype (.struct fields') ∧ Applied items fields fields' := by
  induction items generalizing fields before with
  | nil =>
      cases done
      exact ⟨fields, (Column.withDtype_self _ _ dtype).symm, .nil fields⟩
  | cons item items ih =>
      rw [List.flatMap_cons, stepsOn_append] at done
      obtain ⟨middle, first, later⟩ := done
      have distinct' := first.distinct distinct
      have fieldNames := ((Column.distinctFields_iff before).mp distinct).1 fields dtype
      cases item with
      | left old =>
          obtain ⟨next, kept, _, last⟩ := first
          rw [last, kept] at later
          obtain ⟨fields', result, applied⟩ := ih fields before dtype distinct
            (fun o n member => paired o n (List.mem_cons_of_mem _ member))
            (List.nodup_cons.mp names).2 later
          exact ⟨fields', result, applied.left old⟩
      | right new =>
          obtain ⟨_, ⟨rest, same, edited⟩, _, rfl⟩ := first
          obtain rfl := List.append_right_eq_self.mp same.symm
          cases edited with
          | here added =>
          obtain ⟨fields₀, copy, dtype₀, fresh, copies, rfl⟩ := added
          obtain rfl := DataType.struct.inj (dtype.symm.trans dtype₀)
          obtain ⟨fields', rfl, applied⟩ := ih (fields ++ [copy]) _ (Column.dtype_withDtype _ _)
            distinct' (fun o n member =>
              ⟨List.mem_append_left _ (paired o n (List.mem_cons_of_mem _ member)).1,
                (paired o n (List.mem_cons_of_mem _ member)).2⟩) names later
          exact ⟨fields', Column.withDtype_withDtype _ _ _, applied.right new copy fresh copies
            fun o n member => (paired o n (List.mem_cons_of_mem _ member)).1⟩
      | both old new =>
          obtain ⟨listed, small⟩ := paired old new List.mem_cons_self
          obtain ⟨front, back, rfl⟩ := List.append_of_mem listed
          have split := fieldNames
          rw [List.map_append, List.map_cons, List.nodup_middle, ← List.map_append,
            List.nodup_cons] at split
          obtain ⟨child, _, below, rfl⟩ := first.through_slot
            (Column.slot_field front back old.name split.1 split.2) path _ before old middle dtype rfl
            (below_of_mem_retypeSteps _ _ _ _)
          obtain ⟨type, rfl, updated⟩ := updates _ _ _ old child small rfl
            (Column.mem_children_distinct before old (by simp [dtype, DataType.children]) distinct)
            below
          have others : ∀ o n, .both o n ∈ items → o.name ≠ old.name := by
            intro o n member same
            refine (List.nodup_cons.mp names).1 ?_
            rw [← same]
            exact List.mem_map_of_mem (List.mem_filterMap.mpr ⟨_, member, rfl⟩)
          obtain ⟨fields', rfl, applied⟩ := ih _ _ (Column.dtype_withDtype _ _) distinct'
            (fun o n member => by
              obtain ⟨listed, small⟩ := paired o n (List.mem_cons_of_mem _ member)
              refine ⟨?_, small⟩
              rcases List.mem_append.mp listed with inFront | rest
              · exact List.mem_append_left _ inFront
              · rcases List.mem_cons.mp rest with rfl | inBack
                · exact absurd rfl (others o n member)
                · exact List.mem_append_right _ (List.mem_cons_of_mem _ inBack))
            (List.nodup_cons.mp names).2 later
          exact ⟨fields', Column.withDtype_withDtype _ _ _,
            applied.both old new type fieldNames updated others⟩

theorem Applied.updated_struct
    {old new after : List Column}
    (distinct : (old.map Column.name).Nodup)
    (applied : Applied (columnDiff old new) old after) :
    DataType.Updated (.struct old) (.struct new) (.struct after) := by
  have writes : ∀ name, Column.fieldNamed new name = none →
      Column.fieldNamed after name = Column.fieldNamed old name := by
    intro name missing
    refine applied.untouched name fun item member written => ?_
    obtain ⟨n, listed, rfl⟩ := exists_of_written old new item member name written
    exact (Column.fieldNamed_eq_none_iff _ _).mp missing (List.mem_map_of_mem listed)
  have pairs : ∀ name o n, Column.fieldNamed old name = some o →
      Column.fieldNamed new name = some n → .both o n ∈ columnDiff old new := by
    intro name o n foundOld foundNew
    obtain ⟨inOld, rfl⟩ := Column.mem_of_fieldNamed _ _ _ foundOld
    obtain ⟨inNew, sameName⟩ := Column.mem_of_fieldNamed _ _ _ foundNew
    rcases both_or_right_mem old new n inNew with ⟨other, inside, same, member⟩ | member
    · rwa [List.inj_on_of_nodup_map distinct inOld inside (sameName.symm.trans same.symm)]
    · exact absurd (sameName ▸ List.mem_map_of_mem inOld) (applied.added n member).1
  have dtypes : ∀ name, ∃ dtype, ∀ o n, Column.fieldNamed old name = some o →
      Column.fieldNamed new name = some n →
        Column.fieldNamed after name = some (o.withDtype dtype) ∧
          DataType.Updated o.dtype n.dtype dtype := by
    intro name
    cases foundOld : Column.fieldNamed old name with
    | none => exact ⟨.struct [], nofun⟩
    | some o =>
        cases foundNew : Column.fieldNamed new name with
        | none => exact ⟨.struct [], nofun⟩
        | some n =>
            obtain ⟨dtype, found, updated⟩ := applied.updated o n (pairs name o n foundOld foundNew)
            refine ⟨dtype, fun _ _ same same' => ?_⟩
            cases same
            cases same'
            rw [← (Column.mem_of_fieldNamed _ _ _ foundOld).2]
            exact ⟨found, updated⟩
  obtain ⟨dtypes, each⟩ := Classical.axiomOfChoice dtypes
  refine .struct old new after dtypes (fun name foundOld foundNew => ?_)
    (fun name o foundOld foundNew => ?_) (fun name n foundOld foundNew => ?_)
    (fun name o n foundOld foundNew => (each name o n foundOld foundNew).1)
    fun name o n foundOld foundNew => (each name o n foundOld foundNew).2
  · rw [writes name foundNew, foundOld]
  · rw [writes name foundNew, foundOld]
  · obtain ⟨inNew, rfl⟩ := Column.mem_of_fieldNamed _ _ _ foundNew
    rcases both_or_right_mem old new n inNew with ⟨other, inside, same, _⟩ | member
    · refine absurd ?_ ((Column.fieldNamed_eq_none_iff _ _).mp foundOld)
      rw [← same]
      exact List.mem_map_of_mem inside
    · exact (applied.added n member).2

theorem updated_of_stepsOn (fuel : Nat) : Updates fuel := by
  induction fuel with
  | zero => exact fun _ _ _ _ _ enough => absurd enough (Nat.not_lt_zero _)
  | succ fuel ih =>
      intro path existing target before after enough shape distinct done
      subst shape
      have child : ∀ column ∈ before.dtype.children, Column.sizeBelow column.dtype < fuel := by
        intro column member
        have below := Column.size_le_sizeOfAll _ column member
        have smaller := sizeBelow_lt_size column
        have whole := Column.size_eq before
        have outer := sizeBelow_eq before
        omega
      unfold retypeSteps at done
      split at done
      next same =>
        cases done
        exact ⟨before.dtype, (Column.withDtype_self _ _ rfl).symm, same ▸ .same _⟩
      next =>
        generalize shape : before.dtype = existing at done child ⊢
        cases existing with
        | primitive source =>
            cases target with
            | primitive type =>
                dsimp only at done
                split at done
                · obtain ⟨_, ⟨rest, same, edited⟩, _, rfl⟩ := done
                  obtain rfl := List.append_right_eq_self.mp same.symm
                  cases edited with
                  | here cast => exact ⟨_, cast.2, .primitive source type⟩
                · exact absurd done.choose_spec.1 id
            | list _ | struct _ | map _ _ => exact absurd done.choose_spec.1 id
        | list oldInner =>
            cases target with
            | list newInner =>
                obtain ⟨inner, _, below, rfl⟩ := done.through_slot Column.slot_element path _ before
                  oldInner after shape trivial (below_of_mem_retypeSteps _ _ _ _)
                obtain ⟨type, rfl, updated⟩ := ih _ _ _ oldInner inner
                  (child oldInner (by simp [DataType.children])) rfl
                  (Column.slot_element.distinct before oldInner shape distinct) below
                exact ⟨_, rfl, .list oldInner newInner type updated⟩
            | primitive _ | struct _ | map _ _ => exact absurd done.choose_spec.1 id
        | struct oldFields =>
            cases target with
            | struct newFields =>
                have fieldNames := ((Column.distinctFields_iff before).mp distinct).1 _ shape
                obtain ⟨fields, rfl, applied⟩ := applied_of_stepsOn fuel ih path
                  (columnDiff oldFields newFields) oldFields before after shape distinct
                  (fun old new member => by
                    have listed := mem_of_columnDiff _ _ _ old member rfl
                    exact ⟨listed, child old listed⟩)
                  (((filterMap_left_columnDiff oldFields newFields).map _).nodup_iff.mpr fieldNames)
                  done
                exact ⟨_, rfl, applied.updated_struct fieldNames⟩
            | primitive _ | list _ | map _ _ => exact absurd done.choose_spec.1 id
        | map oldKey oldValue =>
            cases target with
            | map newKey newValue =>
                obtain ⟨middle, first, second⟩ := (stepsOn_append _ _ _ _ _).mp done
                have distinct' := first.distinct distinct
                obtain ⟨key, _, below, rfl⟩ := first.through_slot (Column.slot_key oldValue) path _
                  before oldKey middle shape trivial (below_of_mem_retypeSteps _ _ _ _)
                obtain ⟨keyType, rfl, keyUpdated⟩ := ih _ _ _ oldKey key
                  (child oldKey (by simp [DataType.children])) rfl
                  ((Column.slot_key oldValue).distinct before oldKey shape distinct) below
                obtain ⟨value, _, below, rfl⟩ := second.through_slot
                  (Column.slot_value (oldKey.withDtype keyType)) path _ _ oldValue after
                  (Column.dtype_withDtype _ _) trivial (below_of_mem_retypeSteps _ _ _ _)
                obtain ⟨valueType, rfl, valueUpdated⟩ := ih _ _ _ oldValue value
                  (child oldValue (by simp [DataType.children])) rfl
                  ((Column.slot_value _).distinct _ oldValue (Column.dtype_withDtype _ _) distinct')
                  below
                exact ⟨_, Column.withDtype_withDtype _ _ _, .map oldKey oldValue newKey newValue
                  keyType valueType keyUpdated valueUpdated⟩
            | primitive _ | list _ | struct _ => exact absurd done.choose_spec.1 id

end Transaction

end Ducklake
