import Mathlib.Data.List.TakeWhile
import Ducklake.Lib.Except
import Ducklake.Typedefs.Name

/-!
# Applied changes

The changes recorded in `ducklake_snapshot_changes`: `AppliedChange` and `AppliedChangeSet`
of `applied_change.rs`, the text a set is stored as, and the parser reading it back.
-/

set_option autoImplicit false

namespace Ducklake.Transaction

open Lib Utils

inductive AppliedChange where
  | createdSchema (name : SchemaName)
  | createdTable (name : QualifiedName)
  | createdView (name : QualifiedName)
  | createdScalarMacro (name : Text)
  | createdTableMacro (name : Text)
  | insertedIntoTable (id : Int)
  | deletedFromTable (id : Int)
  | compactedTable (id : Int)
  | inlinedInsert (id : Int)
  | inlinedDelete (id : Int)
  | inlineFlush (id : Int)
  | mergeAdjacent (id : Int)
  | rewriteDelete (id : Int)
  | droppedSchema (id : Int)
  | droppedTable (id : Int)
  | droppedView (id : Int)
  | droppedScalarMacro (id : Int)
  | droppedTableMacro (id : Int)
  | alteredTable (id : Int)
  | alteredView (id : Int)
  deriving DecidableEq, Repr

/-! ## Identifiers of entities -/

def FitsI64 (id : Int) : Prop :=
  -9223372036854775808 ≤ id ∧ id ≤ 9223372036854775807

instance (id : Int) : Decidable (FitsI64 id) :=
  inferInstanceAs (Decidable (_ ∧ _))

/-- `i64::to_string`; an id is the unbounded integer it denotes. -/
def displayId : Int → Text
  | .ofNat n => Nat.toDigits 10 n
  | .negSucc n => '-' :: Nat.toDigits 10 (n + 1)

def invalidId (s err : Text) : DucklakeError :=
  .parsing ("invalid entity ID '".toList ++ s ++ "': ".toList ++ err)

/-- The digits are read until the number leaves the range or a character is no digit. -/
def parseDigits (s : Text) (sign : Int) (digits : Text) : DucklakeResult Int :=
  let value := sign * Nat.ofDigitChars 10 (digits.takeWhile Char.isDigit) 0
  if FitsI64 value then
    if digits.all Char.isDigit && !digits.isEmpty then .ok value
    else if s.isEmpty then .error (invalidId s "cannot parse integer from empty string".toList)
    else .error (invalidId s "invalid digit found in string".toList)
  else if sign < 0 then .error (invalidId s "number too small to fit in target type".toList)
  else .error (invalidId s "number too large to fit in target type".toList)

/-- `parse_id`: an optional sign and decimal digits. -/
def parseId (s : Text) : DucklakeResult Int :=
  match s with
  | '-' :: digits => parseDigits s (-1) digits
  | '+' :: digits => parseDigits s 1 digits
  | digits => parseDigits s 1 digits

theorem parseDigits_toDigits
    (s : Text)
    (sign id : Int)
    (n : Nat) :
    parseDigits s sign (Nat.toDigits 10 n) = .ok id ↔ id = sign * n ∧ FitsI64 id := by
  have isDigit : ∀ c ∈ Nat.toDigits 10 n, c.isDigit = true := fun c member =>
    Nat.isDigit_of_mem_toDigits (by decide) (by decide) member
  have digits : (Nat.toDigits 10 n).all Char.isDigit = true := List.all_eq_true.mpr isDigit
  have taken : (Nat.toDigits 10 n).takeWhile Char.isDigit = Nat.toDigits 10 n :=
    List.takeWhile_eq_self_iff.mpr isDigit
  have filled : Nat.toDigits 10 n ≠ [] := Nat.toDigits_ne_nil
  unfold parseDigits
  rw [taken, Nat.ofDigitChars_ten_toDigits]
  by_cases fits : FitsI64 (sign * n)
  · rw [if_pos fits, if_pos (by simp [digits, filled])]
    constructor
    · intro read
      cases read
      exact ⟨rfl, fits⟩
    · rintro ⟨rfl, -⟩
      rfl
  · rw [if_neg fits]
    constructor
    · intro read
      split at read
      · cases read
      · cases read
    · rintro ⟨rfl, inside⟩
      exact absurd inside fits

theorem toDigits_head_isDigit
    (n : Nat)
    (c : Char)
    (rest : Text)
    (shape : Nat.toDigits 10 n = c :: rest) :
    c.isDigit = true := by
  have member : c ∈ Nat.toDigits 10 n := by simp [shape]
  exact Nat.isDigit_of_mem_toDigits (by decide) (by decide) member

/-- An id is read back from its text exactly when it fits the type of an id. -/
theorem parseId_displayId_iff
    (id other : Int) :
    parseId (displayId id) = .ok other ↔ other = id ∧ FitsI64 other := by
  cases id with
  | ofNat n =>
      cases shape : Nat.toDigits 10 n with
      | nil => exact absurd shape Nat.toDigits_ne_nil
      | cons c rest =>
          have digit := toDigits_head_isDigit n c rest shape
          have unsigned : parseId (c :: rest) = parseDigits (c :: rest) 1 (c :: rest) := by
            rw [parseId]
            · rintro digits shape
              cases shape
              exact absurd digit (by decide)
            · rintro digits shape
              cases shape
              exact absurd digit (by decide)
          rw [displayId, shape, unsigned, ← shape, parseDigits_toDigits, Int.one_mul]
          rfl
  | negSucc n =>
      rw [displayId, parseId, parseDigits_toDigits, Int.neg_one_mul, Int.negSucc_eq]
      rfl

theorem parseId_displayId
    (id : Int)
    (fits : FitsI64 id) :
    parseId (displayId id) = .ok id :=
  (parseId_displayId_iff id id).mpr ⟨rfl, fits⟩

theorem displayId_chars
    (id : Int)
    (c : Char)
    (member : c ∈ displayId id) :
    c = '-' ∨ c.isDigit = true := by
  cases id with
  | ofNat n => exact Or.inr (Nat.isDigit_of_mem_toDigits (by decide) (by decide) member)
  | negSucc n =>
      rw [displayId, List.mem_cons] at member
      rcases member with sign | member
      · exact Or.inl sign
      · exact Or.inr (Nat.isDigit_of_mem_toDigits (by decide) (by decide) member)

namespace AppliedChange

/-! ## Text of a change -/

def display : AppliedChange → Text
  | createdSchema name => "created_schema".toList ++ ':' :: name.display
  | createdTable name => "created_table".toList ++ ':' :: name.display
  | createdView name => "created_view".toList ++ ':' :: name.display
  | createdScalarMacro name => "created_scalar_macro".toList ++ ':' :: name
  | createdTableMacro name => "created_table_macro".toList ++ ':' :: name
  | insertedIntoTable id => "inserted_into_table".toList ++ ':' :: displayId id
  | deletedFromTable id => "deleted_from_table".toList ++ ':' :: displayId id
  | inlinedInsert id => "inlined_insert".toList ++ ':' :: displayId id
  | inlinedDelete id => "inlined_delete".toList ++ ':' :: displayId id
  | inlineFlush id => "inline_flush".toList ++ ':' :: displayId id
  | mergeAdjacent id => "merge_adjacent".toList ++ ':' :: displayId id
  | rewriteDelete id => "rewrite_delete".toList ++ ':' :: displayId id
  | compactedTable id => "compacted_table".toList ++ ':' :: displayId id
  | droppedSchema id => "dropped_schema".toList ++ ':' :: displayId id
  | droppedTable id => "dropped_table".toList ++ ':' :: displayId id
  | droppedView id => "dropped_view".toList ++ ':' :: displayId id
  | droppedScalarMacro id => "dropped_scalar_macro".toList ++ ':' :: displayId id
  | droppedTableMacro id => "dropped_table_macro".toList ++ ':' :: displayId id
  | alteredTable id => "altered_table".toList ++ ':' :: displayId id
  | alteredView id => "altered_view".toList ++ ':' :: displayId id

/-- `splitn(2, ':')`: the text in front of the first colon and the text behind it, if any. -/
def splitKind (s : Text) : Text × Option Text :=
  match s.dropWhile (· != ':') with
  | [] => (s, none)
  | _ :: param => (s.takeWhile (· != ':'), some param)

/-- The kinds whose parameter is an entity id, with the change each of them makes. -/
def idKinds : List (Text × (Int → AppliedChange)) :=
  [("inserted_into_table".toList, insertedIntoTable),
    ("deleted_from_table".toList, deletedFromTable),
    ("inlined_insert".toList, inlinedInsert),
    ("inlined_delete".toList, inlinedDelete),
    ("inline_flush".toList, inlineFlush),
    ("flushed_inlined".toList, inlineFlush),
    ("merge_adjacent".toList, mergeAdjacent),
    ("rewrite_delete".toList, rewriteDelete),
    ("compacted_table".toList, compactedTable),
    ("dropped_schema".toList, droppedSchema),
    ("dropped_table".toList, droppedTable),
    ("dropped_view".toList, droppedView),
    ("dropped_scalar_macro".toList, droppedScalarMacro),
    ("dropped_table_macro".toList, droppedTableMacro),
    ("altered_table".toList, alteredTable),
    ("altered_view".toList, alteredView)]

def parseKind (kind param : Text) : DucklakeResult AppliedChange :=
  if kind = "created_schema".toList then (SchemaName.parse param).map createdSchema
  else if kind = "created_table".toList then (QualifiedName.parse param).map createdTable
  else if kind = "created_view".toList then (QualifiedName.parse param).map createdView
  else if kind = "created_scalar_macro".toList then .ok (createdScalarMacro param)
  else if kind = "created_table_macro".toList then .ok (createdTableMacro param)
  else
    match idKinds.lookup kind with
    | some change => (parseId param).map change
    | none => .error (.parsing ("unknown change type '".toList ++ kind ++ "'".toList))

def parse (s : Text) : DucklakeResult AppliedChange :=
  match splitKind s with
  | (_, none) => .error (.parsing "invalid change type format (missing ':')".toList)
  | (kind, some param) => parseKind kind param

/-- The names that the text of the change holds in quotes. -/
def identifiers : AppliedChange → List Text
  | createdSchema name => [name.text]
  | createdTable name => [name.schema, name.name]
  | createdView name => [name.schema, name.name]
  | _ => []

def rawNames : AppliedChange → List Text
  | createdScalarMacro name => [name]
  | createdTableMacro name => [name]
  | _ => []

def ids : AppliedChange → List Int
  | createdSchema _ | createdTable _ | createdView _ | createdScalarMacro _
  | createdTableMacro _ => []
  | insertedIntoTable id | deletedFromTable id | compactedTable id | inlinedInsert id
  | inlinedDelete id | inlineFlush id | mergeAdjacent id | rewriteDelete id | droppedSchema id
  | droppedTable id | droppedView id | droppedScalarMacro id | droppedTableMacro id
  | alteredTable id | alteredView id => [id]

/-- The names in the text of the change can be told from its punctuation. -/
def Readable (change : AppliedChange) : Prop :=
  (∀ name ∈ change.identifiers, name ≠ [] ∧ ',' ∉ name) ∧ ∀ name ∈ change.rawNames, ',' ∉ name

instance (change : AppliedChange) : Decidable change.Readable :=
  inferInstanceAs (Decidable (_ ∧ _))

/-! ## Reading one change back -/

theorem splitKind_append
    (kind param : Text)
    (plain : ':' ∉ kind) :
    splitKind (kind ++ ':' :: param) = (kind, some param) := by
  have passes : ∀ c ∈ kind, (c != ':') = true := by
    intro c member
    simp only [bne_iff_ne, ne_eq]
    rintro rfl
    exact plain member
  simp [splitKind, List.dropWhile_append_of_pos passes, List.takeWhile_append_of_pos passes]

theorem parse_append
    (kind param : Text)
    (plain : ':' ∉ kind) :
    parse (kind ++ ':' :: param) = parseKind kind param := by
  rw [parse, splitKind_append kind param plain]

theorem parse_idKind
    (kind : String)
    (id : Int)
    (change : Int → AppliedChange)
    (result : AppliedChange)
    (plain : ':' ∉ kind.toList)
    (uncreated : kind.toList ∉ ["created_schema".toList, "created_table".toList,
      "created_view".toList, "created_scalar_macro".toList, "created_table_macro".toList])
    (found : idKinds.lookup kind.toList = some change) :
    parse (kind.toList ++ ':' :: displayId id) = .ok result ↔
      result = change id ∧ ∀ other ∈ [id], FitsI64 other := by
  simp only [List.mem_cons, List.not_mem_nil, or_false, not_or] at uncreated
  obtain ⟨schema, table, view, scalarMacro, tableMacro⟩ := uncreated
  rw [parse_append _ _ plain, parseKind, if_neg schema, if_neg table, if_neg view,
    if_neg scalarMacro, if_neg tableMacro, found]
  dsimp only
  rw [map_eq_ok, List.forall_mem_singleton]
  constructor
  · rintro ⟨other, read, rfl⟩
    obtain ⟨rfl, fits⟩ := (parseId_displayId_iff id other).mp read
    exact ⟨rfl, fits⟩
  · rintro ⟨rfl, fits⟩
    exact ⟨id, parseId_displayId id fits, rfl⟩

/-- A change whose quoted names are not empty is read back from its text exactly when its id
fits, and nothing else is read from it. -/
theorem parse_display_iff
    (change result : AppliedChange)
    (filled : ∀ name ∈ change.identifiers, name ≠ []) :
    parse change.display = .ok result ↔ result = change ∧ ∀ id ∈ change.ids, FitsI64 id := by
  have created : ∀ text, parse text = .ok change → change.ids = [] →
      (parse text = .ok result ↔ result = change ∧ ∀ id ∈ change.ids, FitsI64 id) := by
    intro text read none_
    rw [read, none_, Except.ok.injEq, eq_comm]
    simp
  cases change with
  | createdSchema name =>
      have read : SchemaName.parse name.display = .ok name :=
        SchemaName.parse_display name (filled _ (by simp [identifiers]))
      refine created _ ?_ rfl
      refine (parse_append "created_schema".toList name.display (by decide)).trans ?_
      rw [parseKind, if_pos rfl, read]
      rfl
  | createdTable name =>
      have read : QualifiedName.parse name.display = .ok name := QualifiedName.parse_display name
        (filled _ (by simp [identifiers])) (filled _ (by simp [identifiers]))
      refine created _ ?_ rfl
      refine (parse_append "created_table".toList name.display (by decide)).trans ?_
      rw [parseKind, if_neg (by decide), if_pos rfl, read]
      rfl
  | createdView name =>
      have read : QualifiedName.parse name.display = .ok name := QualifiedName.parse_display name
        (filled _ (by simp [identifiers])) (filled _ (by simp [identifiers]))
      refine created _ ?_ rfl
      refine (parse_append "created_view".toList name.display (by decide)).trans ?_
      rw [parseKind, if_neg (by decide), if_neg (by decide), if_pos rfl, read]
      rfl
  | createdScalarMacro name =>
      refine created _ ?_ rfl
      refine (parse_append "created_scalar_macro".toList name (by decide)).trans ?_
      rw [parseKind, if_neg (by decide), if_neg (by decide), if_neg (by decide), if_pos rfl]
  | createdTableMacro name =>
      refine created _ ?_ rfl
      refine (parse_append "created_table_macro".toList name (by decide)).trans ?_
      rw [parseKind, if_neg (by decide), if_neg (by decide), if_neg (by decide),
        if_neg (by decide), if_pos rfl]
  | insertedIntoTable id =>
      exact parse_idKind "inserted_into_table" id _ result (by decide) (by decide) rfl
  | deletedFromTable id =>
      exact parse_idKind "deleted_from_table" id _ result (by decide) (by decide) rfl
  | compactedTable id =>
      exact parse_idKind "compacted_table" id _ result (by decide) (by decide) rfl
  | inlinedInsert id => exact parse_idKind "inlined_insert" id _ result (by decide) (by decide) rfl
  | inlinedDelete id => exact parse_idKind "inlined_delete" id _ result (by decide) (by decide) rfl
  | inlineFlush id => exact parse_idKind "inline_flush" id _ result (by decide) (by decide) rfl
  | mergeAdjacent id => exact parse_idKind "merge_adjacent" id _ result (by decide) (by decide) rfl
  | rewriteDelete id => exact parse_idKind "rewrite_delete" id _ result (by decide) (by decide) rfl
  | droppedSchema id => exact parse_idKind "dropped_schema" id _ result (by decide) (by decide) rfl
  | droppedTable id => exact parse_idKind "dropped_table" id _ result (by decide) (by decide) rfl
  | droppedView id => exact parse_idKind "dropped_view" id _ result (by decide) (by decide) rfl
  | droppedScalarMacro id =>
      exact parse_idKind "dropped_scalar_macro" id _ result (by decide) (by decide) rfl
  | droppedTableMacro id =>
      exact parse_idKind "dropped_table_macro" id _ result (by decide) (by decide) rfl
  | alteredTable id => exact parse_idKind "altered_table" id _ result (by decide) (by decide) rfl
  | alteredView id => exact parse_idKind "altered_view" id _ result (by decide) (by decide) rfl

theorem parse_display
    (change : AppliedChange)
    (filled : ∀ name ∈ change.identifiers, name ≠ [])
    (fits : ∀ id ∈ change.ids, FitsI64 id) :
    parse change.display = .ok change :=
  (parse_display_iff change change filled).mpr ⟨rfl, fits⟩

/-! ## What one change is read from -/

theorem idKinds_nameless :
    ∀ entry ∈ idKinds, ∀ id, (entry.2 id).identifiers = [] ∧ (entry.2 id).rawNames = [] := by
  simp [idKinds, identifiers, rawNames]

theorem mem_of_lookup
    (kind : Text)
    (change : Int → AppliedChange)
    (entries : List (Text × (Int → AppliedChange)))
    (found : entries.lookup kind = some change) :
    (kind, change) ∈ entries := by
  induction entries with
  | nil => cases found
  | cons entry rest ih =>
      obtain ⟨head, make⟩ := entry
      rw [List.lookup_cons] at found
      by_cases same : kind = head
      · subst same
        simp only [beq_self_eq_true, Option.some.injEq] at found
        simp [found]
      · simp only [beq_eq_false_iff_ne.mpr same] at found
        exact List.mem_cons_of_mem _ (ih found)

theorem parseKind_sound
    (kind param : Text)
    (change : AppliedChange)
    (success : parseKind kind param = .ok change) :
    (∀ name ∈ change.identifiers, name ≠ [] ∧ name ⊆ "main".toList ++ param) ∧
      ∀ name ∈ change.rawNames, name ⊆ param := by
  have qualified : ∀ (make : QualifiedName → AppliedChange) (result : AppliedChange),
      (∀ name, (make name).identifiers = [name.schema, name.name]) →
      (∀ name, (make name).rawNames = []) →
      (QualifiedName.parse param).map make = .ok result →
      (∀ name ∈ result.identifiers, name ≠ [] ∧ name ⊆ "main".toList ++ param) ∧
        ∀ name ∈ result.rawNames, name ⊆ param := by
    intro make result quoted raw mapped
    cases parsed : QualifiedName.parse param with
    | error _ => simp [parsed, Except.map] at mapped
    | ok name =>
        simp only [parsed, Except.map, Except.ok.injEq] at mapped
        subst mapped
        obtain ⟨⟨schemaFilled, nameFilled⟩, schemaChars, nameChars⟩ :=
          QualifiedName.parse_sound param name parsed
        rw [quoted, raw]
        refine ⟨?_, by simp⟩
        simp only [List.mem_cons, List.not_mem_nil, or_false, forall_eq_or_imp, forall_eq]
        exact ⟨⟨schemaFilled, schemaChars⟩, nameFilled,
          List.subset_append_of_subset_right _ nameChars⟩
  unfold parseKind at success
  split at success
  · cases parsed : SchemaName.parse param with
    | error _ => simp [parsed, Except.map] at success
    | ok name =>
        simp only [parsed, Except.map, Except.ok.injEq] at success
        subst success
        obtain ⟨filled, chars⟩ := SchemaName.parse_sound param name parsed
        refine ⟨?_, by simp [rawNames]⟩
        simp only [identifiers, List.mem_singleton, forall_eq]
        exact ⟨filled, List.subset_append_of_subset_right _ chars⟩
  · split at success
    · exact qualified createdTable change (fun _ => rfl) (fun _ => rfl) success
    · split at success
      · exact qualified createdView change (fun _ => rfl) (fun _ => rfl) success
      · split at success
        · cases success
          exact ⟨by simp [identifiers], by simp [rawNames]⟩
        · split at success
          · cases success
            exact ⟨by simp [identifiers], by simp [rawNames]⟩
          · cases found : idKinds.lookup kind with
            | none => simp [found] at success
            | some make =>
                simp only [found] at success
                cases parsed : parseId param with
                | error _ => simp [parsed, Except.map] at success
                | ok id =>
                    simp only [parsed, Except.map, Except.ok.injEq] at success
                    subst success
                    obtain ⟨quoted, raw⟩ :=
                      idKinds_nameless _ (mem_of_lookup kind make idKinds found) id
                    simp only at quoted raw
                    simp [quoted, raw]

theorem readable_of_parse
    (s : Text)
    (change : AppliedChange)
    (plain : ',' ∉ s)
    (success : parse s = .ok change) :
    change.Readable := by
  unfold parse splitKind at success
  cases dropped : s.dropWhile (· != ':') with
  | nil => simp [dropped] at success
  | cons colon param =>
      simp only [dropped] at success
      obtain ⟨quoted, raw⟩ := parseKind_sound _ param change success
      have paramPlain : ',' ∉ param := fun inside =>
        plain ((List.dropWhile_sublist _).subset (dropped ▸ List.mem_cons_of_mem _ inside))
      refine ⟨fun name member => ⟨(quoted name member).1, fun inside => ?_⟩,
        fun name member inside => paramPlain (raw name member inside)⟩
      rcases List.mem_append.mp ((quoted name member).2 inside) with main | later
      · exact absurd main (by decide)
      · exact paramPlain later

theorem comma_notMem_display
    (change : AppliedChange)
    (readable : change.Readable) :
    ',' ∉ change.display := by
  have component : ∀ name : Text, ',' ∉ name → ',' ∉ formatComponent name := by
    intro name plain
    simp only [formatComponent, List.mem_cons, List.mem_append, not_or]
    refine ⟨by decide, fun inside => ?_, by decide⟩
    rcases List.mem_cons.mp (quote_subset name inside) with sign | inside
    · exact absurd sign (by decide)
    · exact plain inside
  have pair : ∀ name : QualifiedName, ',' ∉ name.schema → ',' ∉ name.name →
      ',' ∉ name.display := by
    intro name schemaPlain namePlain
    simp only [QualifiedName.display, formatIdentifier]
    simp [component _ schemaPlain, component _ namePlain]
  have number : ∀ id : Int, ',' ∉ displayId id := by
    intro id inside
    rcases displayId_chars id ',' inside with sign | digit
    · exact absurd sign (by decide)
    · exact absurd digit (by decide)
  have text : ∀ (kind : String) (param : Text), ',' ∉ kind.toList → ',' ∉ param →
      ',' ∉ kind.toList ++ ':' :: param := by
    intro kind param kindPlain paramPlain
    simp only [List.mem_append, List.mem_cons, not_or]
    exact ⟨kindPlain, by decide, paramPlain⟩
  obtain ⟨quoted, raw⟩ := readable
  cases change with
  | createdSchema name =>
      refine text "created_schema" _ (by decide) ?_
      simp only [SchemaName.display, formatIdentifier_cons, if_true, List.append_nil]
      exact component _ (quoted _ (by simp [identifiers])).2
  | createdTable name =>
      exact text "created_table" _ (by decide) (pair name (quoted _ (by simp [identifiers])).2
        (quoted _ (by simp [identifiers])).2)
  | createdView name =>
      exact text "created_view" _ (by decide) (pair name (quoted _ (by simp [identifiers])).2
        (quoted _ (by simp [identifiers])).2)
  | createdScalarMacro name =>
      exact text "created_scalar_macro" _ (by decide) (raw _ (by simp [rawNames]))
  | createdTableMacro name =>
      exact text "created_table_macro" _ (by decide) (raw _ (by simp [rawNames]))
  | insertedIntoTable id => exact text "inserted_into_table" _ (by decide) (number id)
  | deletedFromTable id => exact text "deleted_from_table" _ (by decide) (number id)
  | compactedTable id => exact text "compacted_table" _ (by decide) (number id)
  | inlinedInsert id => exact text "inlined_insert" _ (by decide) (number id)
  | inlinedDelete id => exact text "inlined_delete" _ (by decide) (number id)
  | inlineFlush id => exact text "inline_flush" _ (by decide) (number id)
  | mergeAdjacent id => exact text "merge_adjacent" _ (by decide) (number id)
  | rewriteDelete id => exact text "rewrite_delete" _ (by decide) (number id)
  | droppedSchema id => exact text "dropped_schema" _ (by decide) (number id)
  | droppedTable id => exact text "dropped_table" _ (by decide) (number id)
  | droppedView id => exact text "dropped_view" _ (by decide) (number id)
  | droppedScalarMacro id => exact text "dropped_scalar_macro" _ (by decide) (number id)
  | droppedTableMacro id => exact text "dropped_table_macro" _ (by decide) (number id)
  | alteredTable id => exact text "altered_table" _ (by decide) (number id)
  | alteredView id => exact text "altered_view" _ (by decide) (number id)

end AppliedChange

end Ducklake.Transaction
