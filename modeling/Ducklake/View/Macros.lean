import Ducklake.View.References

/-!
# Expansion of macros

`expand_macros` of `view/sql.rs`.  The SQL parser is a parameter; of its syntax trees the expander
sees the nodes named below, all others are visited and kept.
-/

set_option autoImplicit false

namespace Ducklake.View

open Lib Utils

/-! ## Syntax trees -/

inductive NodeKind where
  /-- `Expr::Nested` -/
  | nested
  /-- `Expr::Function`, whose arguments may be no list, with modifiers if it has a treatment of
  duplicates, a window or a filter. -/
  | function (name : ObjectName) (isList isModified : Bool)
  /-- An unnamed or a named argument that is an expression. -/
  | argument (name : Option Text)
  | otherArgument
  /-- `TableFactor::Table`, with a list of arguments or without. -/
  | table (name : ObjectName) (isCall : Bool)
  | tableAlias (name : Text)
  | tableSample
  /-- `TableFactor::Derived` -/
  | derived
  | select
  /-- `SelectItem::UnnamedExpr` and `SelectItem::ExprWithAlias` -/
  | unnamedItem
  | aliasedItem (alias_ : Text)
  /-- `Statement::Query`, and whether its body is a `SELECT`, a query or a set operation. -/
  | query (isSelect : Bool)
  | other (label : Text)
  deriving DecidableEq

/-- The leaves are the expressions `Expr::Identifier`. -/
inductive SqlTree where
  | identifier (value : Text)
  | node (kind : NodeKind) (children : List SqlTree)

namespace SqlTree

def isArgument : SqlTree → Bool
  | node (.argument _) _ | node .otherArgument _ => true
  | _ => false

def isTableAlias : SqlTree → Bool
  | node (.tableAlias _) _ => true
  | _ => false

def isTableSample : SqlTree → Bool
  | node .tableSample _ => true
  | _ => false

mutual

def kinds : SqlTree → List NodeKind
  | identifier _ => []
  | node kind children => kind :: kindsOfAll children

def kindsOfAll : List SqlTree → List NodeKind
  | [] => []
  | tree :: rest => tree.kinds ++ kindsOfAll rest

end

mutual

def decEq : (a b : SqlTree) → Decidable (a = b)
  | identifier value, identifier value' =>
      @decidable_of_iff _ (value = value') (by simp) inferInstance
  | identifier _, node _ _ => isFalse (by simp)
  | node _ _, identifier _ => isFalse (by simp)
  | node kind children, node kind' children' =>
      @decidable_of_iff _ (kind = kind' ∧ children = children') (by simp)
        (@instDecidableAnd _ _ inferInstance (decEqAll children children'))

def decEqAll : (a b : List SqlTree) → Decidable (a = b)
  | [], [] => isTrue rfl
  | [], _ :: _ => isFalse (by simp)
  | _ :: _, [] => isFalse (by simp)
  | a :: as, b :: bs =>
      @decidable_of_iff _ (a = b ∧ as = bs) (by simp)
        (@instDecidableAnd _ _ (decEq a b) (decEqAll as bs))

end

instance : DecidableEq SqlTree := decEq

end SqlTree

/-- The parser of a dialect and the printer.  A parsed expression comes with whether it is the whole
text. -/
structure SqlParser where
  hasDialect : Text → Bool
  parseExpr : Text → Text → Except Text (SqlTree × Bool)
  parseSql : Text → Text → Except Text (List SqlTree)
  display : SqlTree → Text

/-! ## Parsing -/

namespace SqlParser

variable (parser : SqlParser)

def parseSelectQuery (sql dialect : Text) : DucklakeResult SqlTree :=
  if !parser.hasDialect dialect then
    .error (.invalidView ("invalid SQL dialect '".toList ++ dialect ++ "'".toList))
  else
    match parser.parseSql dialect sql with
    | .error reason => .error (.invalidView ("failed to parse SQL: ".toList ++ reason))
    | .ok statements =>
        match statements with
        | [statement] =>
            match statement with
            | .node (.query true) children => .ok (.node (.query true) children)
            | _ => .error (.invalidView "view definition must be a SELECT query".toList)
        | _ => .error (.invalidView ("expected exactly one SQL statement but found ".toList ++
            Nat.toDigits 10 statements.length))

def parseScalarMacroExpression (sql dialect : Text) : Except Text SqlTree :=
  if !parser.hasDialect dialect then
    .error ("invalid SQL dialect '".toList ++ dialect ++ "'".toList)
  else
    match parser.parseExpr dialect sql with
    | .error reason => .error ("failed to parse SQL: ".toList ++ reason)
    | .ok (_, false) => .error "macro SQL must contain exactly one scalar expression".toList
    | .ok (expression, true) => .ok expression

/-- A macro body as a query: the last statement. -/
def parseTableMacroQuery (macroName : QualifiedName) (sql dialect : Text) : Except Text SqlTree :=
  if !parser.hasDialect dialect then
    .error ("invalid SQL dialect '".toList ++ dialect ++ "'".toList)
  else do
    let statements ← parser.parseSql dialect sql
    match statements.getLast? with
    | some (.node (.query isSelect) children) => .ok (.node (.query isSelect) children)
    | _ => .error ("table macro ".toList ++ macroName.display ++ " is not a query".toList)

end SqlParser

/-! ## Parameters -/

/-- `'` is written twice. -/
def quoteLiteral (s : Text) : Text :=
  '\'' :: (s.flatMap fun c => if c = '\'' then ['\'', '\''] else [c]) ++ ['\'']

/-- The literal of a default value; a boolean that is none has no literal. -/
def defaultLiteral (defaultValueType default : Text) : Option Text :=
  if defaultValueType = "varchar".toList then some (quoteLiteral default)
  else if default = "NULL".toList then some default
  else if defaultValueType = "boolean".toList then
    let lower := asciiLowercase default
    if lower = "true".toList ∨ lower = "1".toList then some "TRUE".toList
    else if lower = "false".toList ∨ lower = "0".toList then some "FALSE".toList
    else none
  else some (quoteLiteral default)

def defaultExpression (parser : SqlParser) (parameter : MacroParameter) (dialect : Text) :
    Option SqlTree := do
  let default ← parameter.defaultValue
  if parameter.defaultValueType = "list".toList then
    (parser.parseScalarMacroExpression default dialect).toOption
  else do
    let dataType ← (PrimitiveType.parse parameter.defaultValueType).toOption
    let sqlType := if dataType = .int8 then "TINYINT".toList else dataType.display
    let literal ← defaultLiteral parameter.defaultValueType default
    (parser.parseScalarMacroExpression
      ("CAST(".toList ++ literal ++ " AS ".toList ++ sqlType ++ ")".toList) dialect).toOption

/-- The parameter of one argument, by place as long as none was named. -/
def parameterOf (parameters : List MacroParameter) (sawNamed : Bool) (index : Nat)
    (argument : SqlTree) : Option (MacroParameter × SqlTree × Bool) :=
  match argument with
  | .node (.argument none) [expression] =>
      if sawNamed then none
      else parameters[index]?.map fun parameter => (parameter, expression, false)
  | .node (.argument (some name)) [expression] =>
      (parameters.find? fun parameter => eqIgnoreAsciiCase parameter.name name).map
        fun parameter => (parameter, expression, true)
  | _ => none

abbrev Bindings := IndexMap Text SqlTree

def bindArgument (parameters : List MacroParameter) (state : Bindings × Bool)
    (argument : Nat × SqlTree) : Option (Bindings × Bool) := do
  let (parameter, expression, named) ← parameterOf parameters state.2 argument.1 argument.2
  let name := asciiLowercase parameter.name
  if state.1.contains name then none
  else some (state.1.insert name expression, state.2 || named)

def bindDefault (parser : SqlParser) (dialect : Text) (bindings : Bindings)
    (parameter : MacroParameter) : Option Bindings :=
  let name := asciiLowercase parameter.name
  if bindings.contains name then some bindings
  else (defaultExpression parser parameter dialect).map (bindings.insert name)

def bindArguments (parser : SqlParser) (parameters : List MacroParameter)
    (arguments : List SqlTree) (dialect : Text) : Option Bindings := do
  let (bindings, _) ← (arguments.zipIdx.map Prod.swap).foldlM (bindArgument parameters)
    (IndexMap.empty, false)
  parameters.foldlM (bindDefault parser dialect) bindings

mutual

/-- Identifiers become the expressions that are bound to them, which are not searched again. -/
def substituteParameters (bindings : Bindings) : SqlTree → SqlTree
  | .identifier value =>
      match bindings.get? (asciiLowercase value) with
      | some expression => .node .nested [expression]
      | none => .identifier value
  | .node kind children => .node kind (substituteInAll bindings children)

def substituteInAll (bindings : Bindings) : List SqlTree → List SqlTree
  | [] => []
  | tree :: rest => substituteParameters bindings tree :: substituteInAll bindings rest

end

/-! ## Macros -/

structure SqlMacro where
  name : QualifiedName
  macroType : MacroType
  implementations : List MacroImplementation
  deriving DecidableEq

def SqlMacro.key (macro_ : SqlMacro) : QualifiedName × MacroType :=
  (macro_.name, macro_.macroType)

/-- The only implementation that takes the arguments. -/
def bindImplementation (parser : SqlParser) (macro_ : SqlMacro) (arguments : List SqlTree)
    (dialect : Text) : Except Text (MacroImplementation × Bindings) :=
  let candidates := (macro_.implementations.filter fun implementation =>
      eqIgnoreAsciiCase implementation.dialect dialect).filterMap fun implementation =>
    (bindArguments parser implementation.parameters arguments implementation.dialect).map
      fun bindings => (implementation, bindings)
  match candidates with
  | [] => .error ("no implementation of macro ".toList ++ macro_.name.display ++
      " accepts the supplied arguments".toList)
  | _ :: _ :: _ => .error ("client-side macro expansion cannot resolve overloaded macro ".toList ++
      macro_.name.display ++ " without SQL type binding".toList)
  | [(implementation, bindings)] =>
      if implementation.parameters.any fun parameter => parameter.dataType ≠ "unknown".toList then
        .error ("client-side macro expansion cannot enforce typed parameters for macro ".toList ++
          macro_.name.display)
      else .ok (implementation, bindings)

/-! ## The expander -/

structure MacroExpander where
  parser : SqlParser
  dialect : Text
  defaultSchema : Text
  macros : List SqlMacro

/-- Why a visit ends: the expander gives a reason; the recursion of the model may need more
steps. -/
inductive Stop where
  | outOfFuel
  | reason (reason : Text)
  deriving DecidableEq

def orStop {α : Type} : Except Text α → Except Stop α
  | .ok value => .ok value
  | .error reason => .error (.reason reason)

namespace MacroExpander

variable (expander : MacroExpander)

/-- A name that is not qualified is also looked up in the schema `main`. -/
def findMacro (name : ObjectName) (macroType : MacroType) : Option SqlMacro :=
  match fromObjectName name expander.defaultSchema with
  | none => none
  | some qualified =>
      let findInSchema (schema : Text) := expander.macros.find? fun macro_ =>
        macro_.macroType = macroType && eqIgnoreAsciiCase macro_.name.schema schema &&
          eqIgnoreAsciiCase macro_.name.name qualified.name
      (findInSchema qualified.schema).or
        (if name.length = 1 then findInSchema "main".toList else none)

def callee : NodeKind → Option SqlMacro
  | .function name _ _ => expander.findMacro name .scalar
  | .table name true => expander.findMacro name .table
  | _ => none

/-- The checks of a function call in front of its expansion. -/
def checkCall (macro_ : SqlMacro) : NodeKind → Except Text Unit
  | .function _ isList isModified =>
      if !isList then
        .error ("unsupported arguments for macro ".toList ++ macro_.name.display)
      else if isModified then
        .error ("unsupported call modifiers for macro ".toList ++ macro_.name.display)
      else .ok ()
  | _ => .ok ()

def parseBody (macro_ : SqlMacro) (implementation : MacroImplementation) : Except Text SqlTree :=
  match macro_.macroType with
  | .scalar => expander.parser.parseScalarMacroExpression implementation.sql implementation.dialect
  | .table => expander.parser.parseTableMacroQuery macro_.name implementation.sql
      implementation.dialect

/-- `active` are the macros that the body is part of, the innermost first. -/
def expandBody (visit : List (QualifiedName × MacroType) → SqlTree → Except Stop SqlTree)
    (active : List (QualifiedName × MacroType)) (macro_ : SqlMacro) (body : SqlTree)
    (bindings : Bindings) : Except Stop SqlTree :=
  if active.contains macro_.key then
    .error (.reason ("recursive macro ".toList ++ macro_.name.display))
  else visit (macro_.key :: active) (substituteParameters bindings body)

/-- `expand_scalar` and `expand_table`: what the body of the macro becomes in the place of a call. -/
def expandCall (visit : List (QualifiedName × MacroType) → SqlTree → Except Stop SqlTree)
    (active : List (QualifiedName × MacroType)) (macro_ : SqlMacro) (kind : NodeKind)
    (children : List SqlTree) : Except Stop SqlTree := do
  let _ ← orStop (checkCall macro_ kind)
  let (implementation, bindings) ← orStop (bindImplementation expander.parser macro_
    (children.filter SqlTree.isArgument) expander.dialect)
  let body ← orStop (expander.parseBody macro_ implementation)
  expandBody visit active macro_ body bindings

/-- The alias of a derived table: that of the call, or the last part of its name. -/
def derivedAlias (name : ObjectName) (children : List SqlTree) : List SqlTree :=
  match children.find? SqlTree.isTableAlias with
  | some alias_ => [alias_]
  | none =>
      match name.getLast? with
      | some (some last) => [.node (.tableAlias last) []]
      | _ => []

def replacement (kind : NodeKind) (children : List SqlTree) (expanded : SqlTree) : SqlTree :=
  match kind with
  | .table name _ => .node .derived (expanded :: derivedAlias name children ++
      children.filter SqlTree.isTableSample)
  | _ => .node .nested [expanded]

/-- An item of a `SELECT` that has no alias is visited before its select, and keeps its text as its
name if it changes. -/
def visitItem (visit : SqlTree → Except Stop SqlTree) : SqlTree → Except Stop SqlTree
  | .node .unnamedItem [original] => do
      let expression ← visit original
      if expression ≠ original then
        .ok (.node (.aliasedItem (expander.parser.display original)) [expression])
      else .ok (.node .unnamedItem [expression])
  | item => .ok item

def preVisit (visit : SqlTree → Except Stop SqlTree) (kind : NodeKind)
    (children : List SqlTree) : Except Stop (List SqlTree) :=
  match kind with
  | .select => children.mapM (expander.visitItem visit)
  | _ => .ok children

/-- `post_visit_expr` and `post_visit_table_factor` -/
def postVisit (visit : List (QualifiedName × MacroType) → SqlTree → Except Stop SqlTree)
    (active : List (QualifiedName × MacroType)) (kind : NodeKind) (children : List SqlTree) :
    Except Stop SqlTree :=
  match expander.callee kind with
  | none => .ok (.node kind children)
  | some macro_ => do
      let expanded ← expander.expandCall visit active macro_ kind children
      .ok (replacement kind children expanded)

/-- Every level of a tree and every body takes one step. -/
def visit : Nat → List (QualifiedName × MacroType) → SqlTree → Except Stop SqlTree
  | 0, _, _ => .error .outOfFuel
  | _ + 1, _, .identifier value => .ok (.identifier value)
  | fuel + 1, active, .node kind children => do
      let children ← expander.preVisit (visit fuel active) kind children
      let children ← children.mapM (visit fuel active)
      expander.postVisit (visit fuel) active kind children

end MacroExpander

/-- `expand_macros`: no result yet if the fuel does not last. -/
def expandMacros (parser : SqlParser) (sql dialect defaultSchema : Text) (macros : List SqlMacro)
    (fuel : Nat) : Option (DucklakeResult Text) :=
  match parser.parseSelectQuery sql dialect with
  | .error err => some (.error err)
  | .ok statement =>
      match (MacroExpander.mk parser dialect defaultSchema macros).visit fuel [] statement with
      | .ok expanded => some (.ok (parser.display expanded))
      | .error (.reason reason) => some (.error (.invalidMacro reason))
      | .error .outOfFuel => none

end Ducklake.View
