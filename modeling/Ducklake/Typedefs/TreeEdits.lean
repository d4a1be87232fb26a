import Ducklake.Typedefs.Agreement

/-!
# Edits of column trees

An edit at a path changes one column of a tree.
-/

set_option autoImplicit false

namespace Ducklake

namespace Column

/-- An edit of the column at a path below the root of a tree. -/
inductive EditAt (edit : Column → Column → Prop) : List Text → Column → Column → Prop where
  | here {before after : Column} (edited : edit before after) : EditAt edit [] before after
  | element {column inner inner' : Column} {rest : List Text}
      (dtype : column.dtype = .list inner) (below : EditAt edit rest inner inner') :
      EditAt edit ("element".toList :: rest) column (column.withDtype (.list inner'))
  | field {column field field' : Column} {front back : List Column} {part : Text}
      {rest : List Text} (dtype : column.dtype = .struct (front ++ field :: back))
      (name : field.name = part) (below : EditAt edit rest field field') :
      EditAt edit (part :: rest) column (column.withDtype (.struct (front ++ field' :: back)))
  | key {column key key' value : Column} {rest : List Text}
      (dtype : column.dtype = .map key value) (below : EditAt edit rest key key') :
      EditAt edit ("key".toList :: rest) column (column.withDtype (.map key' value))
  | value {column key value value' : Column} {rest : List Text}
      (dtype : column.dtype = .map key value) (below : EditAt edit rest value value') :
      EditAt edit ("value".toList :: rest) column (column.withDtype (.map key value'))

def Casts (type : PrimitiveType) (before after : Column) : Prop :=
  (∃ source, before.dtype = .primitive source) ∧ after = before.withDtype (.primitive type)

def AddsField (column before after : Column) : Prop :=
  ∃ fields copy, before.dtype = .struct fields ∧ column.name ∉ fields.map Column.name ∧
    DataType.Copies column copy ∧ after = before.withDtype (.struct (fields ++ [copy]))

def KeepsName (edit : Column → Column → Prop) : Prop :=
  ∀ before after, edit before after → after.name = before.name

theorem keepsName_casts (type : PrimitiveType) : KeepsName (Casts type) := by
  rintro before _ ⟨_, rfl⟩
  exact name_withDtype _ _

theorem keepsName_addsField (column : Column) : KeepsName (AddsField column) := by
  rintro before _ ⟨_, _, _, _, _, rfl⟩
  exact name_withDtype _ _

theorem KeepsName.editAt
    {edit : Column → Column → Prop}
    (keeps : KeepsName edit)
    (path : List Text) :
    KeepsName (EditAt edit path) := by
  intro before after edited
  cases edited with
  | here edited => exact keeps before after edited
  | element | field | key | value => exact name_withDtype _ _

/-! ## Slots -/

/-- A place for a child in a type: an edit at a path through it edits the child. -/
structure Slot (part : Text) (fits : Column → Prop) (build : Column → DataType) : Prop where
  through : ∀ (edit : Column → Column → Prop) (rest : List Text) (column child after : Column),
    KeepsName edit → fits child → column.dtype = build child →
      EditAt edit (part :: rest) column after →
        ∃ child', fits child' ∧ EditAt edit rest child child' ∧
          after = column.withDtype (build child')
  distinct : ∀ column child : Column, column.dtype = build child → column.distinctFields = true →
    child.distinctFields = true

theorem element_ne_key : "element".toList ≠ "key".toList := by decide

theorem element_ne_value : "element".toList ≠ "value".toList := by decide

theorem key_ne_value : "key".toList ≠ "value".toList := by decide

theorem mem_children_distinct
    (column child : Column)
    (member : child ∈ column.dtype.children)
    (distinct : column.distinctFields = true) :
    child.distinctFields = true :=
  ((distinctFields_iff column).mp distinct).2 child member

theorem slot_element : Slot "element".toList (fun _ => True) .list where
  through := by
    intro edit rest column child after _ _ dtype edited
    cases edited with
    | element dtype' below =>
        obtain rfl := DataType.list.inj (dtype.symm.trans dtype')
        exact ⟨_, trivial, below, rfl⟩
    | field dtype' => cases dtype.symm.trans dtype'
  distinct column child dtype distinct :=
    mem_children_distinct column child (by simp [dtype, DataType.children]) distinct

theorem slot_key (value : Column) : Slot "key".toList (fun _ => True) fun key => .map key value where
  through := by
    intro edit rest column child after _ _ dtype edited
    generalize path : "key".toList :: rest = whole at edited
    cases edited with
    | here => cases path
    | element => exact absurd (List.cons.inj path).1.symm element_ne_key
    | field dtype' => cases dtype.symm.trans dtype'
    | key dtype' below =>
        obtain ⟨rfl, rfl⟩ := DataType.map.inj (dtype.symm.trans dtype')
        obtain rfl := (List.cons.inj path).2
        exact ⟨_, trivial, below, rfl⟩
    | value => exact absurd (List.cons.inj path).1 key_ne_value
  distinct column child dtype distinct :=
    mem_children_distinct column child (by simp [dtype, DataType.children]) distinct

theorem slot_value (key : Column) : Slot "value".toList (fun _ => True) fun value => .map key value where
  through := by
    intro edit rest column child after _ _ dtype edited
    generalize path : "value".toList :: rest = whole at edited
    cases edited with
    | here => cases path
    | element => exact absurd (List.cons.inj path).1.symm element_ne_value
    | field dtype' => cases dtype.symm.trans dtype'
    | key => exact absurd (List.cons.inj path).1.symm key_ne_value
    | value dtype' below =>
        obtain ⟨rfl, rfl⟩ := DataType.map.inj (dtype.symm.trans dtype')
        obtain rfl := (List.cons.inj path).2
        exact ⟨_, trivial, below, rfl⟩
  distinct column child dtype distinct :=
    mem_children_distinct column child (by simp [dtype, DataType.children]) distinct

theorem split_unique
    (front front' back back' : List Column)
    (field field' : Column)
    (same : front ++ field :: back = front' ++ field' :: back')
    (distinct : ((front ++ field :: back).map Column.name).Nodup)
    (name : field.name = field'.name) :
    front = front' ∧ field = field' ∧ back = back' := by
  induction front generalizing front' with
  | nil =>
      cases front' with
      | nil =>
          obtain ⟨rfl, rfl⟩ := List.cons.inj same
          exact ⟨rfl, rfl, rfl⟩
      | cons first rest =>
          obtain ⟨rfl, rfl⟩ := List.cons.inj same
          simp [name] at distinct
  | cons first rest ih =>
      cases front' with
      | nil =>
          obtain ⟨rfl, rfl⟩ := List.cons.inj same
          simp [name] at distinct
      | cons first' rest' =>
          obtain ⟨rfl, tails⟩ := List.cons.inj same
          obtain ⟨rfl, fields, backs⟩ := ih rest' tails (by simp at distinct; simp [distinct])
          exact ⟨rfl, fields, backs⟩

theorem slot_field
    (front back : List Column)
    (part : Text)
    (apart : part ∉ (front ++ back).map Column.name)
    (distinct : ((front ++ back).map Column.name).Nodup) :
    Slot part (fun field => field.name = part) fun field => .struct (front ++ field :: back) where
  through := by
    intro edit rest column child after keeps fits dtype edited
    have names : ((front ++ child :: back).map Column.name).Nodup := by
      rw [List.map_append, List.map_cons, List.nodup_middle, ← List.map_append, List.nodup_cons]
      exact ⟨fits ▸ apart, distinct⟩
    generalize path : part :: rest = whole at edited
    cases edited with
    | here => cases path
    | element dtype' => cases dtype.symm.trans dtype'
    | field dtype' name below =>
        obtain ⟨rfl, rfl⟩ := List.cons.inj path
        obtain ⟨rfl, rfl, rfl⟩ := split_unique _ _ _ _ _ _
          (DataType.struct.inj (dtype.symm.trans dtype')) names (fits.trans name.symm)
        exact ⟨_, ((keeps.editAt _) _ _ below).trans fits, below, rfl⟩
    | key dtype' => cases dtype.symm.trans dtype'
    | value dtype' => cases dtype.symm.trans dtype'
  distinct column child dtype distinct :=
    mem_children_distinct column child (by simp [dtype, DataType.children]) distinct

end Column

end Ducklake
