import Mathlib.Data.List.Basic
import Ducklake.Typedefs.Objects

/-!
# Referenced tables

`find_referenced_tables_in_schema` of `view/sql.rs` on the parsed query: the visitor that collects
the relations of a query and the common table expressions that it sees in each scope.
-/

set_option autoImplicit false

namespace Ducklake.View

/-! ## Queries -/

/-- The parts of a name; a part that is no identifier has no value. -/
abbrev ObjectName := List (Option Text)

/-- A table in a `FROM` clause; a table function has arguments. -/
structure Relation where
  name : ObjectName
  isCall : Bool
  deriving DecidableEq

mutual

/-- What a visitor sees of a query: its `WITH` clause, and behind it the relations and the nested
queries of its body and of all other clauses. -/
inductive Query where
  | mk (recursive : Bool) (ctes : Ctes) (body : Body)

inductive Ctes where
  | nil
  | cons (alias_ : Text) (query : Query) (rest : Ctes)

inductive Body where
  | nil
  | relation (relation : Relation) (rest : Body)
  | query (query : Query) (rest : Body)

end

def Ctes.names : Ctes → List Text
  | nil => []
  | cons name _ rest => name :: rest.names

def fromObjectName (name : ObjectName) (defaultSchema : Text) : Option QualifiedName :=
  match name with
  | [name] => name.map fun name => ⟨defaultSchema, name⟩
  | [schema, name] => schema.bind fun schema => name.map fun name => ⟨schema, name⟩
  | _ => none

/-! ## The visitor -/

structure QueryScope where
  visibleCtes : List Text
  pendingCtes : List Text

/-- The innermost scope is the first one. -/
structure RelationVisitor where
  relations : List ObjectName
  scopes : List QueryScope

namespace RelationVisitor

def preVisitQuery (visitor : RelationVisitor) (recursive : Bool) (pending : List Text) :
    RelationVisitor :=
  let visible := (visitor.scopes.head?.map QueryScope.visibleCtes).getD []
  { visitor with scopes := {
      visibleCtes := if recursive then pending ++ visible else visible
      pendingCtes := pending } :: visitor.scopes }

/-- The first query below a `WITH` clause that has not ended is the one of the next expression. -/
def postVisitQuery (visitor : RelationVisitor) : RelationVisitor :=
  { visitor with scopes :=
      match visitor.scopes.tail with
      | [] => []
      | parent :: outer =>
          match parent.pendingCtes with
          | [] => parent :: outer
          | cte :: later => ⟨cte :: parent.visibleCtes, later⟩ :: outer }

def preVisitRelation (visitor : RelationVisitor) (relation : ObjectName) : RelationVisitor :=
  match relation, visitor.scopes with
  | [some name], scope :: _ =>
      if scope.visibleCtes.contains name then visitor
      else { visitor with relations := visitor.relations ++ [relation] }
  | _, _ => { visitor with relations := visitor.relations ++ [relation] }

end RelationVisitor

mutual

def Query.visit : Query → RelationVisitor → RelationVisitor
  | .mk recursive ctes body, visitor =>
      (body.visit (ctes.visit (visitor.preVisitQuery recursive ctes.names))).postVisitQuery

def Ctes.visit : Ctes → RelationVisitor → RelationVisitor
  | .nil, visitor => visitor
  | .cons _ query rest, visitor => rest.visit (query.visit visitor)

def Body.visit : Body → RelationVisitor → RelationVisitor
  | .nil, visitor => visitor
  | .relation relation rest, visitor => rest.visit (visitor.preVisitRelation relation.name)
  | .query query rest, visitor => rest.visit (query.visit visitor)

end

/-- The names are a set: their order says nothing. -/
def findReferencedTables (query : Query) (defaultSchema : Text) : List QualifiedName :=
  ((query.visit ⟨[], []⟩).relations.filterMap fun relation =>
    fromObjectName relation defaultSchema).eraseDups

/-! ## Scopes -/

mutual

/-- Every relation of a query with the names that are bound where it stands. -/
def Query.occurrences (bound : List Text) : Query → List (List Text × Relation)
  | .mk recursive ctes body =>
      let outer := if recursive then ctes.names ++ bound else bound
      ctes.occurrences outer ++ body.occurrences (ctes.names.reverse ++ outer)

/-- An expression is bound behind its own query. -/
def Ctes.occurrences (bound : List Text) : Ctes → List (List Text × Relation)
  | .nil => []
  | .cons name query rest => query.occurrences bound ++ rest.occurrences (name :: bound)

def Body.occurrences (bound : List Text) : Body → List (List Text × Relation)
  | .nil => []
  | .relation relation rest => (bound, relation) :: rest.occurrences bound
  | .query query rest => query.occurrences bound ++ rest.occurrences bound

end

/-- Whether a common table expression has the name of a relation. -/
def isBound (same : Text → Text → Bool) (bound : List Text) (name : ObjectName) : Bool :=
  match name with
  | [some name] => bound.any fun cte => same cte name
  | _ => false

/-- A relation that no expression binds, and that is no table function. -/
def isFree (occurrence : List Text × Relation) : Bool :=
  !occurrence.2.isCall && !isBound eqIgnoreAsciiCase occurrence.1 occurrence.2.name

/-- The tables that a query refers to.  Names of three parts, or with parts that are no names, stand
for no table of the catalog and are left out. -/
def Query.freeTables (query : Query) (defaultSchema : Text) : List QualifiedName :=
  ((query.occurrences []).filter isFree).filterMap fun occurrence =>
    fromObjectName occurrence.2.name defaultSchema

/-! ## What the visitor collects -/

/-- Whether an expression has the name of a relation as it is written. -/
def isBoundAsWritten (occurrence : List Text × Relation) : Bool :=
  isBound (fun cte name => decide (cte = name)) occurrence.1 occurrence.2.name

/-- A table function, or a relation that an expression binds with other letters in its name, that
no expression binds as it is written. -/
def isMisread (occurrence : List Text × Relation) : Bool :=
  (occurrence.2.isCall || isBound eqIgnoreAsciiCase occurrence.1 occurrence.2.name) &&
    !isBoundAsWritten occurrence

def collected (occurrences : List (List Text × Relation)) : List ObjectName :=
  (occurrences.filter fun occurrence => !isBoundAsWritten occurrence).map fun occurrence =>
    occurrence.2.name

/-- The names that are visible in the innermost scope. -/
def visibleIn (scopes : List QueryScope) : List Text :=
  (scopes.head?.map QueryScope.visibleCtes).getD []

def behindQuery : List QueryScope → List QueryScope
  | [] => []
  | ⟨visible, []⟩ :: outer => ⟨visible, []⟩ :: outer
  | ⟨visible, cte :: later⟩ :: outer => ⟨cte :: visible, later⟩ :: outer

theorem collected_append (first second : List (List Text × Relation)) :
    collected (first ++ second) = collected first ++ collected second := by
  simp only [collected, List.filter_append, List.map_append]

theorem postVisitQuery_eq (relations : List ObjectName) (scope : QueryScope)
    (scopes : List QueryScope) :
    RelationVisitor.postVisitQuery ⟨relations, scope :: scopes⟩ =
      ⟨relations, behindQuery scopes⟩ := by
  cases scopes with
  | nil => rfl
  | cons parent outer =>
      obtain ⟨visible, pending⟩ := parent
      cases pending <;> rfl

theorem preVisitRelation_eq
    (relations : List ObjectName)
    (scope : QueryScope)
    (outer : List QueryScope)
    (relation : Relation) :
    RelationVisitor.preVisitRelation ⟨relations, scope :: outer⟩ relation.name =
      ⟨relations ++ collected [(scope.visibleCtes, relation)], scope :: outer⟩ := by
  unfold RelationVisitor.preVisitRelation
  split
  · rename_i name first rest single nested
    obtain ⟨rfl, rfl⟩ := List.cons.inj nested
    by_cases visible : name ∈ scope.visibleCtes
    · have bound : isBoundAsWritten (scope.visibleCtes, relation) = true := by
        simp [isBoundAsWritten, isBound, single, visible]
      rw [if_pos (List.contains_iff_mem.mpr visible), collected, List.filter_cons_of_neg (by simp [bound])]
      simp
    · have free : isBoundAsWritten (scope.visibleCtes, relation) = false := by
        simp only [isBoundAsWritten, isBound, single, List.any_eq_false, decide_eq_true_eq]
        exact fun cte member same => visible (same ▸ member)
      rw [if_neg (visible ∘ List.contains_iff_mem.mp), collected, List.filter_cons_of_pos (by simp [free])]
      rfl
  · rename_i other
    have free : isBoundAsWritten (scope.visibleCtes, relation) = false := by
      unfold isBoundAsWritten isBound
      split
      · rename_i name single
        exact absurd rfl (other name scope outer single)
      · rfl
    rw [collected, List.filter_cons_of_pos (by simp [free])]
    rfl

mutual

theorem Query.visit_eq (relations : List ObjectName) (scopes : List QueryScope) :
    (query : Query) → query.visit ⟨relations, scopes⟩ =
      ⟨relations ++ collected (query.occurrences (visibleIn scopes)), behindQuery scopes⟩
  | .mk recursive ctes body => by
      rw [Query.visit, RelationVisitor.preVisitQuery, Ctes.visit_eq, Body.visit_eq,
        postVisitQuery_eq, Query.occurrences, collected_append, List.append_assoc]
      rfl

theorem Ctes.visit_eq (relations : List ObjectName) (visible : List Text)
    (outer : List QueryScope) :
    (ctes : Ctes) → ctes.visit ⟨relations, ⟨visible, ctes.names⟩ :: outer⟩ =
      ⟨relations ++ collected (ctes.occurrences visible),
        ⟨ctes.names.reverse ++ visible, []⟩ :: outer⟩
  | .nil => by
      rw [Ctes.visit, Ctes.occurrences]
      exact congrArg (RelationVisitor.mk · _) (List.append_nil relations).symm
  | .cons name query rest => by
      rw [Ctes.visit, Ctes.names, Query.visit_eq, behindQuery, Ctes.visit_eq, Ctes.occurrences,
        collected_append, List.append_assoc, List.reverse_cons, List.append_assoc]
      rfl

theorem Body.visit_eq (relations : List ObjectName) (visible : List Text)
    (outer : List QueryScope) :
    (body : Body) → body.visit ⟨relations, ⟨visible, []⟩ :: outer⟩ =
      ⟨relations ++ collected (body.occurrences visible), ⟨visible, []⟩ :: outer⟩
  | .nil => by
      rw [Body.visit, Body.occurrences]
      exact congrArg (RelationVisitor.mk · _) (List.append_nil relations).symm
  | .relation relation rest => by
      rw [Body.visit, preVisitRelation_eq, Body.visit_eq, Body.occurrences, List.append_assoc,
        ← collected_append]
      rfl
  | .query query rest => by
      rw [Body.visit, Query.visit_eq, behindQuery, Body.visit_eq, Body.occurrences,
        collected_append, List.append_assoc]
      rfl

end

/-! ## Referenced tables -/

theorem mem_findReferencedTables (query : Query) (defaultSchema : Text) (name : QualifiedName) :
    name ∈ findReferencedTables query defaultSchema ↔
      ∃ occurrence ∈ query.occurrences [], isBoundAsWritten occurrence = false ∧
        fromObjectName occurrence.2.name defaultSchema = some name := by
  rw [findReferencedTables, Query.visit_eq, List.mem_eraseDups, List.nil_append]
  simp [collected, visibleIn, and_assoc]

theorem mem_freeTables (query : Query) (defaultSchema : Text) (name : QualifiedName) :
    name ∈ query.freeTables defaultSchema ↔
      ∃ occurrence ∈ query.occurrences [], isFree occurrence = true ∧
        fromObjectName occurrence.2.name defaultSchema = some name := by
  simp [Query.freeTables, and_assoc]

theorem isBound_of_asWritten
    (occurrence : List Text × Relation)
    (bound : isBoundAsWritten occurrence = true) :
    isBound eqIgnoreAsciiCase occurrence.1 occurrence.2.name = true := by
  unfold isBoundAsWritten isBound at bound
  unfold isBound
  split at bound
  · rename_i name _
    obtain ⟨cte, member, same⟩ := List.any_eq_true.mp bound
    refine List.any_eq_true.mpr ⟨cte, member, ?_⟩
    rw [of_decide_eq_true same]
    simp [eqIgnoreAsciiCase]
  · cases bound

theorem isMisread_eq (occurrence : List Text × Relation) :
    isMisread occurrence = (!isFree occurrence && !isBoundAsWritten occurrence) := by
  unfold isMisread isFree
  rw [Bool.not_and, Bool.not_not, Bool.not_not]

/-- The tables that are found are the ones that a query refers to exactly if every table function
and every relation that only differs from an expression in the case of its letters has the name of
such a table. -/
theorem findReferencedTables_iff (query : Query) (defaultSchema : Text) :
    (∀ name, name ∈ findReferencedTables query defaultSchema ↔
      name ∈ query.freeTables defaultSchema) ↔
    ∀ occurrence ∈ query.occurrences [], isMisread occurrence = true →
      ∀ name, fromObjectName occurrence.2.name defaultSchema = some name →
        name ∈ query.freeTables defaultSchema := by
  constructor
  · intro same occurrence member misread name named
    rw [isMisread_eq, Bool.and_eq_true, Bool.not_eq_true', Bool.not_eq_true'] at misread
    rw [← same, mem_findReferencedTables]
    exact ⟨occurrence, member, misread.2, named⟩
  · intro harmless name
    rw [mem_findReferencedTables]
    constructor
    · rintro ⟨occurrence, member, unbound, named⟩
      cases free : isFree occurrence with
      | true => exact (mem_freeTables query defaultSchema name).mpr ⟨_, member, free, named⟩
      | false =>
          refine harmless occurrence member ?_ name named
          rw [isMisread_eq, free, unbound]
          rfl
    · intro referenced
      obtain ⟨occurrence, member, free, named⟩ :=
        (mem_freeTables query defaultSchema name).mp referenced
      refine ⟨occurrence, member, ?_, named⟩
      cases bound : isBoundAsWritten occurrence with
      | false => rfl
      | true =>
          rw [isFree, isBound_of_asWritten occurrence bound, Bool.not_true, Bool.and_false] at free
          cases free

/-- `WITH Recent AS (SELECT * FROM events) SELECT * FROM recent` -/
def otherCase : Query :=
  .mk false
    (.cons "Recent".toList
      (.mk false .nil (.relation ⟨[some "events".toList], false⟩ .nil)) .nil)
    (.relation ⟨[some "recent".toList], false⟩ .nil)

/-- The expression is taken for a table of the catalog. -/
theorem findReferencedTables_otherCase :
    ¬ ∀ name, name ∈ findReferencedTables otherCase "main".toList ↔
      name ∈ otherCase.freeTables "main".toList := by
  intro same
  have found : (⟨"main".toList, "recent".toList⟩ : QualifiedName) ∈
      findReferencedTables otherCase "main".toList := by decide
  have unbound : (⟨"main".toList, "recent".toList⟩ : QualifiedName) ∉
      otherCase.freeTables "main".toList := by decide
  exact unbound ((same _).mp found)

end Ducklake.View
