import Ducklake.Error

/-!
# Names

`QualifiedName` of `typedefs/name.rs` and `SchemaName` of `applied_change.rs`, with the texts
they are displayed as and parsed from.
-/

set_option autoImplicit false

namespace Ducklake

open Utils

/-- Fully-qualified name of an object, consisting of a schema and an object name. -/
structure QualifiedName where
  schema : Text
  name : Text
  deriving DecidableEq, Repr

namespace QualifiedName

def display (name : QualifiedName) : Text :=
  formatIdentifier [name.schema, name.name]

/-- An unqualified name belongs to the schema `main`. -/
def parse (s : Text) : DucklakeResult QualifiedName :=
  match parseIdentifier s with
  | some [name] => .ok { schema := "main".toList, name := name }
  | some [schema, name] => .ok { schema := schema, name := name }
  | _ => .error (.invalidQualifiedName s
      "expected format 'name' or 'schema.name' (potentially escaped via \")".toList)

theorem parse_display
    (name : QualifiedName)
    (schemaFilled : name.schema ≠ [])
    (nameFilled : name.name ≠ []) :
    parse name.display = .ok name := by
  have components : parseIdentifier name.display = some [name.schema, name.name] :=
    parseIdentifier_formatIdentifier _ (by simp) (by simp [schemaFilled, nameFilled])
  simp [parse, components]

/-- A parsed name has no empty part, and uses characters of the text or of `main`. -/
theorem parse_sound
    (s : Text)
    (name : QualifiedName)
    (success : parse s = .ok name) :
    (name.schema ≠ [] ∧ name.name ≠ []) ∧
      name.schema ⊆ "main".toList ++ s ∧ name.name ⊆ s := by
  unfold parse at success
  cases components : parseIdentifier s with
  | none => simp [components] at success
  | some parts =>
      have sound := parseIdentifier_sound s parts components
      match parts with
      | [] => simp [components] at success
      | [last] =>
          simp only [components, Except.ok.injEq] at success
          subst success
          obtain ⟨filled, subset⟩ := sound last (by simp)
          exact ⟨⟨by simp, filled⟩, List.subset_append_left _ _, subset⟩
      | [first, last] =>
          simp only [components, Except.ok.injEq] at success
          subst success
          obtain ⟨firstFilled, firstSubset⟩ := sound first (by simp)
          obtain ⟨lastFilled, lastSubset⟩ := sound last (by simp)
          exact ⟨⟨firstFilled, lastFilled⟩,
            List.subset_append_of_subset_right _ firstSubset, lastSubset⟩
      | _ :: _ :: _ :: _ => simp [components] at success

end QualifiedName

structure SchemaName where
  text : Text
  deriving DecidableEq, Repr

namespace SchemaName

def display (name : SchemaName) : Text :=
  formatIdentifier [name.text]

def parse (s : Text) : DucklakeResult SchemaName :=
  match parseIdentifier s with
  | some [component] => .ok ⟨component⟩
  | _ => .error (.invalidSchemaName s "expected format 'schema'".toList)

theorem parse_display
    (name : SchemaName)
    (filled : name.text ≠ []) :
    parse name.display = .ok name := by
  have components : parseIdentifier name.display = some [name.text] :=
    parseIdentifier_formatIdentifier _ (by simp) (by simp [filled])
  simp [parse, components]

theorem parse_sound
    (s : Text)
    (name : SchemaName)
    (success : parse s = .ok name) :
    name.text ≠ [] ∧ name.text ⊆ s := by
  unfold parse at success
  cases components : parseIdentifier s with
  | none => simp [components] at success
  | some parts =>
      have sound := parseIdentifier_sound s parts components
      match parts with
      | [] => simp [components] at success
      | [only] =>
          simp only [components, Except.ok.injEq] at success
          subst success
          exact sound only (by simp)
      | _ :: _ :: _ => simp [components] at success

end SchemaName

end Ducklake
