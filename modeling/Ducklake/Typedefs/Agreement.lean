import Mathlib.Data.List.Nodup
import Ducklake.Typedefs.Flatten

/-!
# Agreement of types

Two types agree if they have the same fields, read as maps, with the same types, nullability and
defaults at every depth.  An update of a type reaches its target if they agree afterwards.
-/

set_option autoImplicit false

namespace Ducklake

/-! ## Fields by name -/

namespace Column

/-- A list of fields read as a map: the last one of a name. -/
def fieldNamed (fields : List Column) (name : Text) : Option Column :=
  fields.reverse.find? fun field => field.name = name

def withDtype (dtype : DataType) : Column → Column
  | .mk name _ nullable tags initialDefault defaultValue fieldId =>
      .mk name dtype nullable tags initialDefault defaultValue fieldId

@[simp] theorem name_withDtype (dtype : DataType) (column : Column) :
    (column.withDtype dtype).name = column.name := by
  cases column
  rfl

@[simp] theorem dtype_withDtype (dtype : DataType) (column : Column) :
    (column.withDtype dtype).dtype = dtype := by
  cases column
  rfl

@[simp] theorem nullable_withDtype (dtype : DataType) (column : Column) :
    (column.withDtype dtype).nullable = column.nullable := by
  cases column
  rfl

@[simp] theorem defaultValue_withDtype (dtype : DataType) (column : Column) :
    (column.withDtype dtype).defaultValue = column.defaultValue := by
  cases column
  rfl

theorem withDtype_self
    (column : Column)
    (dtype : DataType)
    (same : column.dtype = dtype) :
    column.withDtype dtype = column := by
  subst same
  cases column
  rfl

@[simp] theorem withDtype_withDtype (first second : DataType) (column : Column) :
    (column.withDtype first).withDtype second = column.withDtype second := by
  cases column
  rfl

theorem mem_of_fieldNamed
    (fields : List Column)
    (name : Text)
    (field : Column)
    (found : fieldNamed fields name = some field) :
    field ∈ fields ∧ field.name = name := by
  unfold fieldNamed at found
  have same := List.find?_some found
  exact ⟨List.mem_reverse.mp (List.mem_of_find?_eq_some found), of_decide_eq_true same⟩

theorem fieldNamed_eq_none_iff (fields : List Column) (name : Text) :
    fieldNamed fields name = none ↔ name ∉ fields.map Column.name := by
  simp [fieldNamed]

theorem isSome_fieldNamed (fields : List Column) (name : Text) :
    (fieldNamed fields name).isSome = true ↔ name ∈ fields.map Column.name := by
  rw [← not_iff_not, Bool.not_eq_true, Option.isSome_eq_false_iff, Option.isNone_iff_eq_none,
    fieldNamed_eq_none_iff]

theorem fieldNamed_of_mem
    (fields : List Column)
    (distinct : (fields.map Column.name).Nodup)
    (field : Column)
    (member : field ∈ fields) :
    fieldNamed fields field.name = some field := by
  cases found : fieldNamed fields field.name with
  | none =>
      exact absurd (List.mem_map_of_mem member) ((fieldNamed_eq_none_iff _ _).mp found)
  | some other =>
      obtain ⟨inside, same⟩ := mem_of_fieldNamed _ _ _ found
      rw [List.inj_on_of_nodup_map distinct inside member same]

theorem fieldNamed_append_singleton
    (fields : List Column)
    (field : Column)
    (name : Text) :
    fieldNamed (fields ++ [field]) name =
      if field.name = name then some field else fieldNamed fields name := by
  unfold fieldNamed
  rw [List.reverse_append, List.reverse_singleton, List.singleton_append, List.find?_cons]
  by_cases same : field.name = name
  · rw [if_pos same, decide_eq_true same]
  · rw [if_neg same, decide_eq_false same]

theorem fieldNamed_replace
    (front back : List Column)
    (field other : Column)
    (sameName : other.name = field.name)
    (distinct : ((front ++ field :: back).map Column.name).Nodup)
    (name : Text) :
    fieldNamed (front ++ other :: back) name =
      if field.name = name then some other else fieldNamed (front ++ field :: back) name := by
  have names : (front ++ other :: back).map Column.name =
      (front ++ field :: back).map Column.name := by
    simp [sameName]
  by_cases same : field.name = name
  · rw [if_pos same, ← same, ← sameName]
    exact fieldNamed_of_mem _ (names ▸ distinct) other (by simp)
  · rw [if_neg same]
    unfold fieldNamed
    simp only [List.reverse_append, List.reverse_cons, List.append_assoc, List.find?_append,
      List.find?_cons, List.singleton_append]
    rw [decide_eq_false same, decide_eq_false (sameName ▸ same)]

/-- The nullability and the default value of two columns. -/
def Alike (a b : Column) : Prop :=
  a.nullable = b.nullable ∧ a.defaultValue = b.defaultValue

theorem Alike.refl (column : Column) : column.Alike column :=
  ⟨rfl, rfl⟩

theorem alike_withDtype (dtype : DataType) (a b : Column) :
    (a.withDtype dtype).Alike b ↔ a.Alike b := by
  simp [Alike]

end Column

namespace DataType

open Column

/-! ## Agreement -/

/-- The types are the same, read as maps: ids, tags and the order of fields do not matter, nor do
the names of the columns in lists and maps. -/
inductive Agrees : DataType → DataType → Prop where
  | primitive (type : PrimitiveType) : Agrees (.primitive type) (.primitive type)
  | list (a b : Column) (alike : a.Alike b) (inner : Agrees a.dtype b.dtype) :
      Agrees (.list a) (.list b)
  | struct (as bs : List Column)
      (names : ∀ name, (fieldNamed as name).isSome = (fieldNamed bs name).isSome)
      (alike : ∀ name a b, fieldNamed as name = some a → fieldNamed bs name = some b → a.Alike b)
      (fields : ∀ name a b, fieldNamed as name = some a → fieldNamed bs name = some b →
        Agrees a.dtype b.dtype) :
      Agrees (.struct as) (.struct bs)
  | map (key value key' value' : Column) (keys : key.Alike key') (values : value.Alike value')
      (keyType : Agrees key.dtype key'.dtype) (valueType : Agrees value.dtype value'.dtype) :
      Agrees (.map key value) (.map key' value')

theorem Agrees.refl (dtype : DataType) : Agrees dtype dtype := by
  have column : ∀ column : Column, Agrees column.dtype column.dtype := by
    intro column
    induction column using Column.induct with
    | step column ih =>
        cases shape : column.dtype with
        | primitive type => exact .primitive type
        | list inner => exact .list inner inner (.refl inner) (ih inner (by simp [shape, children]))
        | struct fields =>
            refine .struct fields fields (fun _ => rfl) (fun name a b found same => ?_)
              fun name a b found same => ?_
            · rw [found] at same
              cases same
              exact .refl a
            · rw [found] at same
              cases same
              exact ih a (by simp [shape, children, (mem_of_fieldNamed _ _ _ found).1])
        | map key value =>
            exact .map key value key value (.refl key) (.refl value)
              (ih key (by simp [shape, children])) (ih value (by simp [shape, children]))
  exact column (.mk [] dtype true default none (.literal none) none)

/-- What an update needs to reach its target: no field below a column is removed, and the fields
that stay have the nullability and the default of the target already. -/
inductive Reaches : DataType → DataType → Prop where
  | same (dtype : DataType) : Reaches dtype dtype
  | primitive (source type : PrimitiveType) : Reaches (.primitive source) (.primitive type)
  | list (old new : Column) (alike : old.Alike new) (inner : Reaches old.dtype new.dtype) :
      Reaches (.list old) (.list new)
  | struct (old new : List Column)
      (kept : ∀ name, (fieldNamed old name).isSome = true → (fieldNamed new name).isSome = true)
      (alike : ∀ name o n, fieldNamed old name = some o → fieldNamed new name = some n → o.Alike n)
      (fields : ∀ name o n, fieldNamed old name = some o → fieldNamed new name = some n →
        Reaches o.dtype n.dtype) :
      Reaches (.struct old) (.struct new)
  | map (oldKey oldValue newKey newValue : Column) (keys : oldKey.Alike newKey)
      (values : oldValue.Alike newValue) (keyType : Reaches oldKey.dtype newKey.dtype)
      (valueType : Reaches oldValue.dtype newValue.dtype) :
      Reaches (.map oldKey oldValue) (.map newKey newValue)

/-! ## Updated types -/

structure Copies (column copy : Column) : Prop where
  name : copy.name = column.name
  alike : copy.Alike column
  dtype : Agrees copy.dtype column.dtype

/-- What is shown of a type after it was updated to another one: fields that the target lacks are
still there. -/
inductive Updated : DataType → DataType → DataType → Prop where
  | same (dtype : DataType) : Updated dtype dtype dtype
  | primitive (source type : PrimitiveType) :
      Updated (.primitive source) (.primitive type) (.primitive type)
  | list (old new : Column) (dtype : DataType) (inner : Updated old.dtype new.dtype dtype) :
      Updated (.list old) (.list new) (.list (old.withDtype dtype))
  | struct (old new after : List Column) (dtypes : Text → DataType)
      (absent : ∀ name, fieldNamed old name = none → fieldNamed new name = none →
        fieldNamed after name = none)
      (kept : ∀ name o, fieldNamed old name = some o → fieldNamed new name = none →
        fieldNamed after name = some o)
      (added : ∀ name n, fieldNamed old name = none → fieldNamed new name = some n →
        ∃ copy, fieldNamed after name = some copy ∧ Copies n copy)
      (updated : ∀ name o n, fieldNamed old name = some o → fieldNamed new name = some n →
        fieldNamed after name = some (o.withDtype (dtypes name)))
      (fields : ∀ name o n, fieldNamed old name = some o → fieldNamed new name = some n →
        Updated o.dtype n.dtype (dtypes name)) :
      Updated (.struct old) (.struct new) (.struct after)
  | map (oldKey oldValue newKey newValue : Column) (keyType valueType : DataType)
      (key : Updated oldKey.dtype newKey.dtype keyType)
      (value : Updated oldValue.dtype newValue.dtype valueType) :
      Updated (.map oldKey oldValue) (.map newKey newValue)
        (.map (oldKey.withDtype keyType) (oldValue.withDtype valueType))

theorem Updated.agrees_iff
    (existing target after : DataType)
    (updated : Updated existing target after) :
    Agrees after target ↔ Reaches existing target := by
  induction updated with
  | same dtype => exact iff_of_true (.refl dtype) (.same dtype)
  | primitive source type => exact iff_of_true (.primitive type) (.primitive source type)
  | list old new dtype _ ih =>
      constructor
      · intro agrees
        cases agrees with
        | list _ _ alike inner =>
            rw [dtype_withDtype] at inner
            exact .list old new ((alike_withDtype _ _ _).mp alike) (ih.mp inner)
      · intro reaches
        have both : old.Alike new ∧ Agrees dtype new.dtype := by
          cases reaches with
          | same => exact ⟨.refl old, ih.mpr (.same _)⟩
          | list _ _ alike inner => exact ⟨alike, ih.mpr inner⟩
        refine .list _ _ ((alike_withDtype _ _ _).mpr both.1) ?_
        rw [dtype_withDtype]
        exact both.2
  | struct old new after dtypes absent kept added updated fields ih =>
      constructor
      · intro agrees
        cases agrees with
        | struct _ _ names alike inner =>
            refine .struct old new (fun name stays => ?_) (fun name o n found foundNew => ?_)
              fun name o n found foundNew => ?_
            · obtain ⟨o, found⟩ := Option.isSome_iff_exists.mp stays
              cases missing : fieldNamed new name with
              | some n => rfl
              | none =>
                  have same := names name
                  rw [kept name o found missing, missing] at same
                  cases same
            · exact (alike_withDtype _ _ _).mp
                (alike name _ n (updated name o n found foundNew) foundNew)
            · refine (ih name o n found foundNew).mp ?_
              have below := inner name _ n (updated name o n found foundNew) foundNew
              rwa [dtype_withDtype] at below
      · intro reaches
        obtain ⟨stays, alike, inner⟩ : (∀ name, (fieldNamed old name).isSome = true →
            (fieldNamed new name).isSome = true) ∧
            (∀ name o n, fieldNamed old name = some o → fieldNamed new name = some n →
              o.Alike n) ∧
            ∀ name o n, fieldNamed old name = some o → fieldNamed new name = some n →
              Reaches o.dtype n.dtype := by
          cases reaches with
          | same =>
              refine ⟨fun _ => id, fun name o n found foundNew => ?_, fun name o n found foundNew => ?_⟩
              · cases found.symm.trans foundNew
                exact .refl o
              · cases found.symm.trans foundNew
                exact .same _
          | struct _ _ kept alike inner => exact ⟨kept, alike, inner⟩
        have each : ∀ name a n, fieldNamed after name = some a → fieldNamed new name = some n →
            a.Alike n ∧ Agrees a.dtype n.dtype := by
          intro name a n found foundNew
          cases foundOld : fieldNamed old name with
          | some o =>
              rw [updated name o n foundOld foundNew] at found
              cases found
              rw [dtype_withDtype]
              exact ⟨(alike_withDtype _ _ _).mpr (alike name o n foundOld foundNew),
                (ih name o n foundOld foundNew).mpr (inner name o n foundOld foundNew)⟩
          | none =>
              obtain ⟨copy, foundCopy, copies⟩ := added name n foundOld foundNew
              cases foundCopy.symm.trans found
              exact ⟨copies.alike, copies.dtype⟩
        refine .struct after new (fun name => ?_) (fun name a n found foundNew =>
          (each name a n found foundNew).1) fun name a n found foundNew =>
            (each name a n found foundNew).2
        cases foundNew : fieldNamed new name with
        | some n =>
            cases foundOld : fieldNamed old name with
            | some o => rw [updated name o n foundOld foundNew]; rfl
            | none =>
                obtain ⟨copy, foundCopy, _⟩ := added name n foundOld foundNew
                rw [foundCopy]
                rfl
        | none =>
            cases foundOld : fieldNamed old name with
            | none => rw [absent name foundOld foundNew]
            | some o =>
                have impossible := stays name (by rw [foundOld]; rfl)
                rw [foundNew] at impossible
                cases impossible
  | map oldKey oldValue newKey newValue keyType valueType _ _ keyIh valueIh =>
      constructor
      · intro agrees
        cases agrees with
        | map _ _ _ _ keys values keyAgrees valueAgrees =>
            rw [dtype_withDtype] at keyAgrees valueAgrees
            exact .map _ _ _ _ ((alike_withDtype _ _ _).mp keys) ((alike_withDtype _ _ _).mp values)
              (keyIh.mp keyAgrees) (valueIh.mp valueAgrees)
      · intro reaches
        have all : oldKey.Alike newKey ∧ oldValue.Alike newValue ∧ Agrees keyType newKey.dtype ∧
            Agrees valueType newValue.dtype := by
          cases reaches with
          | same => exact ⟨.refl _, .refl _, keyIh.mpr (.same _), valueIh.mpr (.same _)⟩
          | map _ _ _ _ keys values keyReaches valueReaches =>
              exact ⟨keys, values, keyIh.mpr keyReaches, valueIh.mpr valueReaches⟩
        obtain ⟨keys, values, keyAgrees, valueAgrees⟩ := all
        refine .map _ _ _ _ ((alike_withDtype _ _ _).mpr keys) ((alike_withDtype _ _ _).mpr values)
          ?_ ?_
        · rwa [dtype_withDtype]
        · rwa [dtype_withDtype]

end DataType

end Ducklake
