import Mathlib.Algebra.BigOperators.Group.List.Basic
import Mathlib.Algebra.GroupWithZero.Nat
import Mathlib.Data.List.Basic

/-!
# Statements on a table

The rows of one table under SQL's three-valued logic: conditions, `CASE` expressions, `UPDATE` and
`INSERT` from a `SELECT`, with the values that a statement binds.
-/

set_option autoImplicit false

namespace Ducklake.Lib.Sql

universe u v

/-! ## Truth -/

/-- A truth value; `none` is unknown. -/
abbrev Truth := Option Bool

def Truth.and : Truth → Truth → Truth
  | some true, second => second
  | some false, _ => some false
  | none, some false => some false
  | none, _ => none

def Truth.or : Truth → Truth → Truth
  | some false, second => second
  | some true, _ => some true
  | none, some true => some true
  | none, _ => none

theorem Truth.and_eq_true (first second : Truth) :
    first.and second = some true ↔ first = some true ∧ second = some true := by
  rcases first with _ | _ | _ <;> rcases second with _ | _ | _ <;> simp [Truth.and]

theorem Truth.or_eq_true (first second : Truth) :
    first.or second = some true ↔ first = some true ∨ second = some true := by
  rcases first with _ | _ | _ <;> rcases second with _ | _ | _ <;> simp [Truth.or]

/-- When a database takes two values for the same one. -/
structure Collation (V : Type v) where
  same : V → V → Bool
  refl : ∀ a, same a a = true
  symm : ∀ a b, same a b = true → same b a = true
  trans : ∀ a b c, same a b = true → same b c = true → same a c = true

namespace Collation

variable {V : Type v} (collation : Collation V)

/-- The operator `=`, which is unknown for null. -/
def equal : Option V → Option V → Truth
  | some a, some b => some (collation.same a b)
  | _, _ => none

theorem equal_symm
    (a b : Option V)
    (equal : collation.equal a b = some true) :
    collation.equal b a = some true := by
  cases a <;> cases b <;> simp only [Collation.equal] at equal ⊢ <;> try cases equal
  exact congrArg some (collation.symm _ _ (Option.some.inj equal))

theorem equal_trans
    (a b c : Option V)
    (first : collation.equal a b = some true)
    (second : collation.equal b c = some true) :
    collation.equal a c = some true := by
  cases a with
  | none => cases first
  | some a =>
      cases b with
      | none => cases first
      | some b =>
          cases c with
          | none => cases second
          | some c =>
              exact congrArg some
                (collation.trans a b c (Option.some.inj first) (Option.some.inj second))

def binary [DecidableEq V] : Collation V where
  same a b := a = b
  refl a := by simp
  symm a b same := by simpa [eq_comm] using same
  trans a b c first second := by simp_all

end Collation

/-! ## Conditions -/

section

variable {C : Type u} {V : Type v}

abbrev Row (C : Type u) (V : Type v) := C → Option V

inductive Condition (C : Type u) (V : Type v) where
  | always
  | never
  | eq (column : C) (value : Option V)
  | isIn (column : C) (values : List (Option V))
  | isNull (column : C)
  | and (first second : Condition C V)
  | or (first second : Condition C V)

namespace Condition

def binds : Condition C V → Nat
  | always | never | isNull _ => 0
  | eq _ _ => 1
  | isIn _ values => values.length
  | and first second | or first second => first.binds + second.binds

def eval (collation : Collation V) (row : Row C V) : Condition C V → Truth
  | always => some true
  | never => some false
  | eq column value => collation.equal (row column) value
  | isIn column values =>
      (values.map (collation.equal (row column))).foldl Truth.or (some false)
  | isNull column => some (row column).isNone
  | and first second => (first.eval collation row).and (second.eval collation row)
  | or first second => (first.eval collation row).or (second.eval collation row)

def holds (condition : Condition C V) (collation : Collation V) (row : Row C V) : Bool :=
  condition.eval collation row = some true

end Condition

variable (collation : Collation V) (row : Row C V)

theorem foldl_or_eq_true (truths : List Truth) (start : Truth) :
    truths.foldl Truth.or start = some true ↔ start = some true ∨ some true ∈ truths := by
  induction truths generalizing start with
  | nil => simp
  | cons first rest ih =>
      rw [List.foldl_cons, ih, Truth.or_eq_true, List.mem_cons, or_assoc]
      simp only [eq_comm]

@[simp] theorem holds_eq (column : C) (value : Option V) :
    (Condition.eq column value).holds collation row = true ↔
      collation.equal (row column) value = some true := by
  exact decide_eq_true_iff

@[simp] theorem holds_isIn (column : C) (values : List (Option V)) :
    (Condition.isIn column values).holds collation row = true ↔
      ∃ value ∈ values, collation.equal (row column) value = some true := by
  simp [Condition.holds, Condition.eval, foldl_or_eq_true, List.mem_map]

@[simp] theorem holds_and (first second : Condition C V) :
    (first.and second).holds collation row = true ↔
      first.holds collation row = true ∧ second.holds collation row = true := by
  simp [Condition.holds, Condition.eval, Truth.and_eq_true]

@[simp] theorem holds_or (first second : Condition C V) :
    (first.or second).holds collation row = true ↔
      first.holds collation row = true ∨ second.holds collation row = true := by
  simp [Condition.holds, Condition.eval, Truth.or_eq_true]

@[simp] theorem holds_always : (Condition.always : Condition C V).holds collation row = true :=
  rfl

@[simp] theorem holds_never : (Condition.never : Condition C V).holds collation row = false :=
  rfl

@[simp] theorem holds_isNull (column : C) :
    (Condition.isNull column : Condition C V).holds collation row = true ↔ row column = none := by
  simp [Condition.holds, Condition.eval]

theorem holds_foldl_and {T : Type*} (items : List T) (condition : T → Condition C V)
    (start : Condition C V) :
    (items.foldl (fun all item => all.and (condition item)) start).holds collation row = true ↔
      start.holds collation row = true ∧
        ∀ item ∈ items, (condition item).holds collation row = true := by
  induction items generalizing start with
  | nil => simp
  | cons first rest ih => simp [ih, and_assoc]

theorem holds_foldl_or {T : Type*} (items : List T) (condition : T → Condition C V)
    (start : Condition C V) :
    (items.foldl (fun any item => any.or (condition item)) start).holds collation row = true ↔
      start.holds collation row = true ∨
        ∃ item ∈ items, (condition item).holds collation row = true := by
  induction items generalizing start with
  | nil => simp
  | cons first rest ih => simp [ih, or_assoc]

theorem binds_foldl_and {T : Type*} (items : List T) (condition : T → Condition C V)
    (start : Condition C V) :
    (items.foldl (fun all item => all.and (condition item)) start).binds =
      start.binds + (items.map fun item => (condition item).binds).sum := by
  induction items generalizing start with
  | nil => simp
  | cons first rest ih => simp [ih, Condition.binds, Nat.add_assoc]

theorem binds_foldl_or {T : Type*} (items : List T) (condition : T → Condition C V)
    (start : Condition C V) :
    (items.foldl (fun any item => any.or (condition item)) start).binds =
      start.binds + (items.map fun item => (condition item).binds).sum := by
  induction items generalizing start with
  | nil => simp
  | cons first rest ih => simp [ih, Condition.binds, Nat.add_assoc]

/-! ## Expressions -/

inductive Expr (C : Type u) (V : Type v) where
  | val (value : Option V)
  | col (column : C)
  /-- The value behind the first condition that is true, else that of a column. -/
  | case (branches : List (Condition C V × Option V)) (otherwise : C)

namespace Expr

def binds : Expr C V → Nat
  | val _ => 1
  | col _ => 0
  | case branches _ => (branches.map fun branch => branch.1.binds + 1).sum

def eval (collation : Collation V) (row : Row C V) : Expr C V → Option V
  | val value => value
  | col column => row column
  | case branches otherwise =>
      match branches.find? fun branch => branch.1.holds collation row with
      | some (_, value) => value
      | none => row otherwise

end Expr

theorem eval_case {T : Type*} (items : List T) (condition : T → Condition C V)
    (value : T → Option V) (otherwise : C) :
    (Expr.case (items.map fun item => (condition item, value item)) otherwise).eval collation row =
      match items.find? fun item => (condition item).holds collation row with
      | some item => value item
      | none => row otherwise := by
  rw [Expr.eval, List.find?_map, Function.comp_def]
  cases items.find? fun item => (condition item).holds collation row <;> rfl

/-! ## Statements -/

def exprFor [DecidableEq C] (exprs : List (C × Expr C V)) (column : C) : Option (Expr C V) :=
  (exprs.find? fun entry => entry.1 = column).map Prod.snd

theorem exprFor_map [DecidableEq C] {T : Type*} (items : List T) (column : T → C)
    (expr : T → Expr C V) (wanted : C) :
    exprFor (items.map fun item => (column item, expr item)) wanted =
      (items.find? fun item => column item = wanted).map expr := by
  rw [exprFor, List.find?_map, Option.map_map]
  rfl

/-- `UPDATE`: the new values are those of the old row. -/
structure Update (C : Type u) (V : Type v) where
  assignments : List (C × Expr C V)
  filter : Condition C V

def Update.binds (update : Update C V) : Nat :=
  (update.assignments.map fun assignment => assignment.2.binds).sum + update.filter.binds

def Update.newRow [DecidableEq C] (collation : Collation V) (update : Update C V) (row : Row C V) :
    Row C V :=
  if update.filter.holds collation row = true then fun column =>
    match exprFor update.assignments column with
    | some expr => expr.eval collation row
    | none => row column
  else row

def Update.run [DecidableEq C] (collation : Collation V) (update : Update C V)
    (table : List (Row C V)) : List (Row C V) :=
  table.map (update.newRow collation)

/-- `INSERT` of the rows that a `SELECT` from the same table gives. -/
structure InsertSelect (C : Type u) (V : Type v) where
  columns : List (C × Expr C V)
  filter : Condition C V

def InsertSelect.binds (insert : InsertSelect C V) : Nat :=
  (insert.columns.map fun column => column.2.binds).sum + insert.filter.binds

def InsertSelect.newRow [DecidableEq C] (collation : Collation V) (insert : InsertSelect C V)
    (row : Row C V) : Row C V := fun column =>
  match exprFor insert.columns column with
  | some expr => expr.eval collation row
  | none => none

def InsertSelect.run [DecidableEq C] (collation : Collation V) (insert : InsertSelect C V)
    (table : List (Row C V)) : List (Row C V) :=
  table ++ (table.filter (insert.filter.holds collation)).map (insert.newRow collation)

end

end Ducklake.Lib.Sql
