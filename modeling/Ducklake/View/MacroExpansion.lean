import Mathlib.Data.List.Nodup
import Mathlib.Data.List.Perm.Subperm
import Ducklake.Lib.Fuel
import Ducklake.View.Macros

/-!
# The end of an expansion

The expansion of macros ends, and no call of a macro is left behind it.  It cannot succeed where the
bodies of macros call each other without an end.
-/

set_option autoImplicit false

namespace Ducklake.View

open Lib Utils

/-! ## Trees -/

namespace SqlTree

theorem kindsOfAll_eq (trees : List SqlTree) : kindsOfAll trees = trees.flatMap kinds := by
  induction trees with
  | nil => rfl
  | cons tree rest ih => rw [kindsOfAll, ih, List.flatMap_cons]

theorem mem_kinds_node (kind sought : NodeKind) (children : List SqlTree) :
    sought ∈ (node kind children).kinds ↔
      sought = kind ∨ ∃ child ∈ children, sought ∈ child.kinds := by
  rw [kinds, kindsOfAll_eq, List.mem_cons, List.mem_flatMap]

mutual

/-- What holds of a tree when it holds of its children holds of every tree. -/
theorem induct
    (holds : SqlTree → Prop)
    (leaf : ∀ value, holds (identifier value))
    (step : ∀ kind children, (∀ child ∈ children, holds child) → holds (node kind children)) :
    (tree : SqlTree) → holds tree
  | identifier value => leaf value
  | node kind children => step kind children (inductAll holds leaf step children)

theorem inductAll
    (holds : SqlTree → Prop)
    (leaf : ∀ value, holds (identifier value))
    (step : ∀ kind children, (∀ child ∈ children, holds child) → holds (node kind children)) :
    (trees : List SqlTree) → ∀ tree ∈ trees, holds tree
  | [], _, member => absurd member List.not_mem_nil
  | first :: rest, tree, member =>
      (List.mem_cons.mp member).elim
        (fun same => same ▸ induct holds leaf step first)
        (fun later => inductAll holds leaf step rest tree later)

end

end SqlTree

theorem substituteInAll_eq (bindings : Bindings) (trees : List SqlTree) :
    substituteInAll bindings trees = trees.map (substituteParameters bindings) := by
  induction trees with
  | nil => rfl
  | cons tree rest ih => rw [substituteInAll, ih, List.map_cons]

theorem mem_kinds_substituteParameters
    (bindings : Bindings)
    (tree : SqlTree)
    (kind : NodeKind)
    (member : kind ∈ tree.kinds) :
    kind ∈ (substituteParameters bindings tree).kinds := by
  induction tree using SqlTree.induct with
  | leaf value => cases member
  | step own children ih =>
      rw [substituteParameters, substituteInAll_eq, SqlTree.mem_kinds_node]
      rcases (SqlTree.mem_kinds_node own kind children).mp member with same | ⟨child, inside, below⟩
      · exact Or.inl same
      · exact Or.inr ⟨_, List.mem_map_of_mem inside, ih child inside below⟩

namespace MacroExpander

variable {expander : MacroExpander}

/-! ## No call is left -/

def IsFree (expander : MacroExpander) (tree : SqlTree) : Prop :=
  ∀ kind ∈ tree.kinds, expander.callee kind = none

theorem isFree_identifier (value : Text) : expander.IsFree (.identifier value) := by
  intro kind member
  cases member

theorem isFree_node_iff (kind : NodeKind) (children : List SqlTree) :
    expander.IsFree (.node kind children) ↔
      expander.callee kind = none ∧ ∀ child ∈ children, expander.IsFree child := by
  unfold IsFree
  simp only [SqlTree.mem_kinds_node, forall_eq_or_imp, forall_exists_index, and_imp]
  exact and_congr_right fun _ => ⟨fun all child inside kind below => all kind child inside below,
    fun all kind child inside below => all child inside kind below⟩

theorem isFree_derivedAlias
    (name : ObjectName)
    (children : List SqlTree)
    (free : ∀ child ∈ children, expander.IsFree child) :
    ∀ child ∈ derivedAlias name children, expander.IsFree child := by
  intro child member
  unfold derivedAlias at member
  split at member
  · rename_i alias_ found
    rw [List.mem_singleton.mp member]
    exact free alias_ (List.mem_of_find?_eq_some found)
  · split at member
    · rw [List.mem_singleton.mp member]
      exact (isFree_node_iff _ _).mpr ⟨rfl, by simp⟩
    · cases member

theorem isFree_replacement
    (kind : NodeKind)
    (children : List SqlTree)
    (expanded : SqlTree)
    (free : ∀ child ∈ children, expander.IsFree child)
    (body : expander.IsFree expanded) :
    expander.IsFree (replacement kind children expanded) := by
  unfold replacement
  split
  · rename_i name _
    refine (isFree_node_iff _ _).mpr ⟨rfl, fun child member => ?_⟩
    rcases List.mem_append.mp member with front | sample
    · rcases List.mem_cons.mp front with rfl | alias_
      · exact body
      · exact isFree_derivedAlias name children free child alias_
    · exact free child (List.mem_filter.mp sample).1
  · refine (isFree_node_iff _ _).mpr ⟨rfl, fun child member => ?_⟩
    rw [List.mem_singleton.mp member]
    exact body

theorem expandCall_eq_ok
    (visit : List (QualifiedName × MacroType) → SqlTree → Except Stop SqlTree)
    (active : List (QualifiedName × MacroType))
    (macro_ : SqlMacro)
    (kind : NodeKind)
    (children : List SqlTree)
    (expanded : SqlTree)
    (success : expander.expandCall visit active macro_ kind children = .ok expanded) :
    ∃ implementation bindings body,
      bindImplementation expander.parser macro_ (children.filter SqlTree.isArgument)
        expander.dialect = .ok (implementation, bindings) ∧
      expander.parseBody macro_ implementation = .ok body ∧ macro_.key ∉ active ∧
      visit (macro_.key :: active) (substituteParameters bindings body) = .ok expanded := by
  have orStop_eq_ok : ∀ {α : Type} {result : Except Text α} {value : α},
      orStop result = .ok value → result = .ok value := by
    intro α result value same
    cases result with
    | error _ => cases same
    | ok _ => exact congrArg _ (Except.ok.inj same)
  obtain ⟨_, _, success⟩ := bind_eq_ok.mp success
  obtain ⟨⟨implementation, bindings⟩, bound, success⟩ := bind_eq_ok.mp success
  obtain ⟨body, parsed, success⟩ := bind_eq_ok.mp success
  unfold expandBody at success
  split at success
  · cases success
  · rename_i inactive
    exact ⟨implementation, bindings, body, orStop_eq_ok bound, orStop_eq_ok parsed,
      fun member => inactive (List.contains_iff_mem.mpr member), success⟩

theorem visit_node_eq_ok
    (fuel : Nat)
    (active : List (QualifiedName × MacroType))
    (kind : NodeKind)
    (children : List SqlTree)
    (result : SqlTree)
    (success : expander.visit (fuel + 1) active (.node kind children) = .ok result) :
    ∃ prepared visited, expander.preVisit (expander.visit fuel active) kind children =
        .ok prepared ∧
      prepared.mapM (expander.visit fuel active) = .ok visited ∧
      expander.postVisit (expander.visit fuel) active kind visited = .ok result := by
  obtain ⟨prepared, before, success⟩ := bind_eq_ok.mp success
  obtain ⟨visited, inside, after⟩ := bind_eq_ok.mp success
  exact ⟨prepared, visited, before, inside, after⟩

theorem isFree_of_visit
    (fuel : Nat)
    (active : List (QualifiedName × MacroType))
    (tree result : SqlTree)
    (success : expander.visit fuel active tree = .ok result) :
    expander.IsFree result := by
  induction fuel generalizing active tree result with
  | zero => cases tree <;> cases success
  | succ fuel ih =>
      cases tree with
      | identifier value =>
          cases success
          exact isFree_identifier value
      | node kind children =>
          obtain ⟨prepared, visited, _, inside, after⟩ := visit_node_eq_ok _ _ _ _ _ success
          have free : ∀ child ∈ visited, expander.IsFree child := by
            intro child member
            obtain ⟨before, _, visits⟩ := exists_of_mapM_eq_ok inside child member
            exact ih active before child visits
          unfold postVisit at after
          split at after
          · rename_i uncalled
            cases after
            exact (isFree_node_iff kind visited).mpr ⟨uncalled, free⟩
          · obtain ⟨expanded, expands, shape⟩ := bind_eq_ok.mp after
            cases shape
            obtain ⟨_, _, _, _, _, _, visits⟩ := expandCall_eq_ok _ _ _ _ _ _ expands
            exact isFree_replacement kind visited expanded free (ih _ _ _ visits)

/-! ## The expansion ends -/

/-- A visit of a tree without calls changes nothing.  The items of a `SELECT` are visited twice, so
the induction is about a tree and its children. -/
theorem visit_settlesTo
    (active : List (QualifiedName × MacroType))
    (tree : SqlTree)
    (free : expander.IsFree tree) :
    SettlesTo (fun fuel => expander.visit fuel active tree) (.ok tree) := by
  suffices both : (expander.IsFree tree →
      SettlesTo (fun fuel => expander.visit fuel active tree) (.ok tree)) ∧
      ∀ kind children, tree = .node kind children → ∀ child ∈ children, expander.IsFree child →
        SettlesTo (fun fuel => expander.visit fuel active child) (.ok child) from both.1 free
  clear free
  induction tree using SqlTree.induct with
  | leaf value =>
      refine ⟨fun _ => .of_succ (.const _), fun kind children shape => ?_⟩
      cases shape
  | step kind children ih =>
      refine ⟨fun free => ?_, fun _ _ shape child member => ?_⟩
      · obtain ⟨uncalled, freeChildren⟩ := (isFree_node_iff kind children).mp free
        have items : SettlesTo (fun fuel =>
            expander.preVisit (expander.visit fuel active) kind children) (.ok children) := by
          unfold preVisit
          split
          · have each := @SettlesTo.mapM _ _ _ (fun fuel =>
              expander.visitItem (expander.visit fuel active)) children id fun item member => ?_
            · rwa [List.map_id] at each
            · unfold visitItem
              split
              · rename_i original
                have inside := (isFree_node_iff _ _).mp (freeChildren _ member)
                have settles := (ih _ member).2 _ _ rfl original (by simp) (inside.2 _ (by simp))
                refine settles.bind ?_
                simp only [ne_eq, not_true_eq_false, if_false]
                exact .const _
              · exact .const _
          · exact .const _
        have visited : SettlesTo (fun fuel => children.mapM (expander.visit fuel active))
            (.ok children) := by
          have each := @SettlesTo.mapM _ _ _ (fun fuel => expander.visit fuel active) children id
            fun child member => (ih child member).1 (freeChildren child member)
          rwa [List.map_id] at each
        have after : SettlesTo (fun fuel =>
            expander.postVisit (expander.visit fuel) active kind children)
            (.ok (.node kind children)) := by
          unfold postVisit
          rw [uncalled]
          exact .const _
        exact .of_succ (items.bind (visited.bind after))
      · cases shape
        exact (ih child member).1

/-- The macros that are active are different macros of the expander. -/
def IsActive (expander : MacroExpander) (active : List (QualifiedName × MacroType)) : Prop :=
  active.Nodup ∧ active ⊆ expander.macros.map SqlMacro.key

theorem IsActive.length_le
    (active : List (QualifiedName × MacroType))
    (isActive : expander.IsActive active) :
    active.length ≤ expander.macros.length := by
  have fewer := (isActive.1.subperm isActive.2).length_le
  rwa [List.length_map] at fewer

theorem mem_of_callee
    (kind : NodeKind)
    (macro_ : SqlMacro)
    (called : expander.callee kind = some macro_) :
    macro_ ∈ expander.macros := by
  have found : ∀ name macroType, expander.findMacro name macroType = some macro_ →
      macro_ ∈ expander.macros := by
    intro name macroType lookup
    unfold findMacro at lookup
    split at lookup
    · cases lookup
    · dsimp only at lookup
      rcases Option.or_eq_some_iff.mp lookup with first | ⟨_, second⟩
      · exact List.mem_of_find?_eq_some first
      · split at second
        · exact List.mem_of_find?_eq_some second
        · cases second
  unfold callee at called
  split at called
  · exact found _ _ called
  · exact found _ _ called
  · cases called

theorem IsActive.cons
    (active : List (QualifiedName × MacroType))
    (isActive : expander.IsActive active)
    (kind : NodeKind)
    (macro_ : SqlMacro)
    (called : expander.callee kind = some macro_)
    (inactive : macro_.key ∉ active) :
    expander.IsActive (macro_.key :: active) := by
  refine ⟨List.nodup_cons.mpr ⟨inactive, isActive.1⟩, ?_⟩
  rw [List.cons_subset]
  exact ⟨List.mem_map_of_mem (mem_of_callee kind macro_ called), isActive.2⟩

theorem settles_orStop
    {α : Type}
    (result : Except Text α) :
    Settles Stop.outOfFuel fun _ => orStop result := by
  refine .const _ fun impossible => ?_
  cases result with
  | error _ => cases impossible
  | ok _ => cases impossible

/-- Items that were visited have no call left, so that their second visit settles. -/
theorem settles_node
    (active : List (QualifiedName × MacroType))
    (kind : NodeKind)
    (children : List SqlTree)
    (each : ∀ child ∈ children,
      Settles Stop.outOfFuel (fun fuel => expander.visit fuel active child) ∧
        ∀ own below, child = .node own below → ∀ grandchild ∈ below,
          Settles Stop.outOfFuel fun fuel => expander.visit fuel active grandchild)
    (after : ∀ visited, Settles Stop.outOfFuel fun fuel =>
      expander.postVisit (expander.visit fuel) active kind visited) :
    Settles Stop.outOfFuel fun fuel => expander.visit fuel active (.node kind children) := by
  have item : ∀ child ∈ children, Settles Stop.outOfFuel fun fuel =>
      expander.visitItem (expander.visit fuel active) child := by
    intro child member
    unfold visitItem
    split
    · rename_i original
      refine ((each _ member).2 _ _ rfl original (by simp)).bind fun expression _ _ => ?_
      split
      · exact .ok _
      · exact .ok _
    · exact .ok _
  have before : Settles Stop.outOfFuel fun fuel =>
      expander.preVisit (expander.visit fuel active) kind children := by
    unfold preVisit
    split
    · exact Settles.mapM children item
    · exact .ok _
  refine Settles.of_succ (before.bind fun prepared fuel prepares => ?_)
  refine Settles.bind (Settles.mapM prepared fun child member => ?_) fun visited _ _ =>
    after visited
  have kept : child ∈ children ∨ expander.IsFree child := by
    unfold preVisit at prepares
    split at prepares
    · obtain ⟨source, inside, visits⟩ := exists_of_mapM_eq_ok prepares child member
      unfold visitItem at visits
      split at visits
      · obtain ⟨expression, visited, shape⟩ := bind_eq_ok.mp visits
        have free := isFree_of_visit fuel active _ expression visited
        split at shape
        · cases shape
          exact Or.inr ((isFree_node_iff _ _).mpr ⟨rfl, by simpa using free⟩)
        · cases shape
          exact Or.inr ((isFree_node_iff _ _).mpr ⟨rfl, by simpa using free⟩)
      · cases visits
        exact Or.inl inside
    · cases prepares
      exact Or.inl member
  rcases kept with inside | free
  · exact (each child inside).1
  · exact ⟨.ok child, fun impossible => (by cases impossible), visit_settlesTo active child free⟩

theorem visit_settles_step
    (active : List (QualifiedName × MacroType))
    (bodies : ∀ kind macro_, expander.callee kind = some macro_ → macro_.key ∉ active →
      ∀ body, Settles Stop.outOfFuel fun fuel =>
        expander.visit fuel (macro_.key :: active) body)
    (tree : SqlTree) :
    Settles Stop.outOfFuel fun fuel => expander.visit fuel active tree := by
  suffices both : Settles Stop.outOfFuel (fun fuel => expander.visit fuel active tree) ∧
      ∀ kind children, tree = .node kind children → ∀ child ∈ children,
        Settles Stop.outOfFuel fun fuel => expander.visit fuel active child from both.1
  induction tree using SqlTree.induct with
  | leaf value =>
      refine ⟨Settles.of_succ (.ok _), fun kind children shape => ?_⟩
      cases shape
  | step kind children ih =>
      refine ⟨settles_node active kind children ih fun visited => ?_, fun _ _ shape child member => ?_⟩
      · unfold postVisit
        cases called : expander.callee kind with
        | none => exact .ok _
        | some macro_ =>
            refine Settles.bind ?_ fun expanded _ _ => .ok _
            refine (settles_orStop _).bind fun _ _ _ => (settles_orStop _).bind fun bound _ _ => ?_
            refine (settles_orStop _).bind fun body _ _ => ?_
            unfold expandBody
            split
            · exact .const _ fun impossible => by cases impossible
            · rename_i fresh
              exact bodies kind macro_ called
                (fun member => fresh (List.contains_iff_mem.mpr member)) _
      · cases shape
        exact (ih child member).1

/-- The expansion ends.  The outer induction is on the number of macros that are not active, the
inner one on the tree. -/
theorem visit_settles
    (inactive : Nat)
    (active : List (QualifiedName × MacroType))
    (isActive : expander.IsActive active)
    (count : expander.macros.length ≤ active.length + inactive)
    (tree : SqlTree) :
    Settles Stop.outOfFuel fun fuel => expander.visit fuel active tree := by
  induction inactive generalizing active tree with
  | zero =>
      exact visit_settles_step active (fun kind macro_ called fresh => by
        have more := (isActive.cons active kind macro_ called fresh).length_le
        rw [List.length_cons] at more
        omega) tree
  | succ inactive ih =>
      exact visit_settles_step active (fun kind macro_ called fresh body =>
        ih _ (isActive.cons active kind macro_ called fresh)
          (by rw [List.length_cons]; omega) body) tree

/-! ## Macros that call each other -/

def Calls (expander : MacroExpander) (tree : SqlTree) (macro_ : SqlMacro) : Prop :=
  ∃ kind ∈ tree.kinds, expander.callee kind = some macro_

/-- Every body that the caller can be replaced by calls another macro. -/
def Invokes (expander : MacroExpander) (caller called : SqlMacro) : Prop :=
  ∀ implementation ∈ caller.implementations,
    eqIgnoreAsciiCase implementation.dialect expander.dialect = true →
      ∀ body, expander.parseBody caller implementation = .ok body → expander.Calls body called

theorem mem_of_bindImplementation
    (parser : SqlParser)
    (macro_ : SqlMacro)
    (arguments : List SqlTree)
    (dialect : Text)
    (implementation : MacroImplementation)
    (bindings : Bindings)
    (bound : bindImplementation parser macro_ arguments dialect = .ok (implementation, bindings)) :
    implementation ∈ macro_.implementations ∧
      eqIgnoreAsciiCase implementation.dialect dialect = true := by
  unfold bindImplementation at bound
  dsimp only at bound
  split at bound
  · cases bound
  · cases bound
  · rename_i only candidate candidateBindings shape
    split at bound
    · cases bound
    · cases bound
      have member := List.mem_singleton_self (implementation, bindings)
      rw [← shape] at member
      obtain ⟨source, listed, same⟩ := List.mem_filterMap.mp member
      obtain ⟨_, _, pair⟩ := Option.map_eq_some_iff.mp same
      obtain ⟨inside, dialects⟩ := List.mem_filter.mp listed
      cases pair
      exact ⟨inside, dialects⟩

theorem expands_of_visit
    (fuel : Nat)
    (active : List (QualifiedName × MacroType))
    (tree result : SqlTree)
    (macro_ : SqlMacro)
    (success : expander.visit fuel active tree = .ok result)
    (calls : expander.Calls tree macro_) :
    macro_.key ∉ active ∧ ∃ implementation ∈ macro_.implementations,
      eqIgnoreAsciiCase implementation.dialect expander.dialect = true ∧
      ∃ bindings body fuel' expanded, expander.parseBody macro_ implementation = .ok body ∧
        expander.visit fuel' (macro_.key :: active) (substituteParameters bindings body) =
          .ok expanded := by
  induction fuel generalizing tree result with
  | zero => cases tree <;> cases success
  | succ fuel ih =>
      obtain ⟨sought, member, called⟩ := calls
      cases tree with
      | identifier value => cases member
      | node kind children =>
          obtain ⟨prepared, visited, before, inside, after⟩ := visit_node_eq_ok _ _ _ _ _ success
          rcases (SqlTree.mem_kinds_node _ _ _).mp member with rfl | ⟨child, listed, below⟩
          · unfold postVisit at after
            rw [called] at after
            obtain ⟨expanded, expands, _⟩ := bind_eq_ok.mp after
            obtain ⟨implementation, bindings, body, bound, parsed, fresh, visits⟩ :=
              expandCall_eq_ok _ _ _ _ _ _ expands
            obtain ⟨own, dialects⟩ := mem_of_bindImplementation _ _ _ _ _ _ bound
            exact ⟨fresh, implementation, own, dialects, bindings, body, fuel, expanded, parsed,
              visits⟩
          · have direct : child ∈ prepared → ∃ visit, expander.visit fuel active child = .ok visit :=
              fun member =>
                let ⟨visit, _, visits⟩ := mem_of_mapM_eq_ok inside child member
                ⟨visit, visits⟩
            unfold preVisit at before
            split at before
            · obtain ⟨item, stays, visits⟩ := mem_of_mapM_eq_ok before child listed
              unfold visitItem at visits
              split at visits
              · rename_i original
                obtain ⟨expression, visited, _⟩ := bind_eq_ok.mp visits
                refine ih original expression visited ⟨sought, ?_, called⟩
                rcases (SqlTree.mem_kinds_node _ _ _).mp below with rfl | ⟨only, single, below⟩
                · cases called
                · rwa [List.mem_singleton.mp single] at below
              · cases visits
                obtain ⟨visit, visits⟩ := direct stays
                exact ih child visit visits ⟨sought, below, called⟩
            · cases before
              obtain ⟨visit, visits⟩ := direct listed
              exact ih child visit visits ⟨sought, below, called⟩

/-- A chain of calls without an end would make as many macros active as one likes. -/
theorem not_endless
    (fuel : Nat)
    (tree result : SqlTree)
    (success : expander.visit fuel [] tree = .ok result)
    (chain : Nat → SqlMacro)
    (first : expander.Calls tree (chain 0))
    (onward : ∀ n, expander.Invokes (chain n) (chain (n + 1))) :
    False := by
  have within : ∀ n, ∃ active fuel tree result, active.length = n ∧ expander.IsActive active ∧
      expander.visit fuel active tree = .ok result ∧ expander.Calls tree (chain n) := by
    intro n
    induction n with
    | zero => exact ⟨[], fuel, tree, result, rfl, ⟨List.nodup_nil, List.nil_subset _⟩, success, first⟩
    | succ n ih =>
        obtain ⟨active, fuel, tree, result, length, isActive, success, calls⟩ := ih
        obtain ⟨fresh, implementation, own, dialects, bindings, body, fuel', expanded, parsed,
          visits⟩ := expands_of_visit fuel active tree result (chain n) success calls
        obtain ⟨kind, inBody, called⟩ := onward n implementation own dialects body parsed
        obtain ⟨calling, _, callsIt⟩ := calls
        refine ⟨(chain n).key :: active, fuel', substituteParameters bindings body, expanded, ?_,
          isActive.cons active calling (chain n) callsIt fresh, visits, kind,
          mem_kinds_substituteParameters bindings body kind inBody, called⟩
        rw [List.length_cons, length]
  obtain ⟨active, _, _, _, length, isActive, _, _⟩ := within (expander.macros.length + 1)
  have fits := isActive.length_le
  omega

end MacroExpander

/-- The expansion of every query comes to a result.  If that is a query, no call of a macro is left
in it, and no chain of calls from the query through the bodies of macros goes on without an end. -/
theorem expandMacros_settles
    (parser : SqlParser)
    (sql dialect defaultSchema : Text)
    (macros : List SqlMacro) :
    ∃ enough result,
      (∀ fuel ≥ enough, expandMacros parser sql dialect defaultSchema macros fuel = some result) ∧
      ∀ text, result = .ok text → ∃ statement expanded,
        parser.parseSelectQuery sql dialect = .ok statement ∧ text = parser.display expanded ∧
        (MacroExpander.mk parser dialect defaultSchema macros).IsFree expanded ∧
        ∀ chain : Nat → SqlMacro,
          (MacroExpander.mk parser dialect defaultSchema macros).Calls statement (chain 0) →
          ¬ ∀ n, (MacroExpander.mk parser dialect defaultSchema macros).Invokes (chain n)
            (chain (n + 1)) := by
  unfold expandMacros
  cases parsed : parser.parseSelectQuery sql dialect with
  | error err => exact ⟨0, .error err, fun _ _ => rfl, fun text same => by cases same⟩
  | ok statement =>
      obtain ⟨visited, ends, enough, stays⟩ := @MacroExpander.visit_settles
        (MacroExpander.mk parser dialect defaultSchema macros) macros.length []
        ⟨List.nodup_nil, List.nil_subset _⟩ (by simp) statement
      dsimp only at stays ⊢
      cases visited with
      | error stop =>
          cases stop with
          | outOfFuel => exact absurd rfl ends
          | reason reason =>
              refine ⟨enough, .error (.invalidMacro reason), fun fuel above => ?_, ?_⟩
              · rw [stays fuel above]
              · intro text same
                cases same
      | ok expanded =>
          have success := stays enough (Nat.le_refl _)
          refine ⟨enough, .ok (parser.display expanded), fun fuel above => ?_, ?_⟩
          · rw [stays fuel above]
          · intro text same
            cases same
            exact ⟨statement, expanded, rfl, rfl, MacroExpander.isFree_of_visit _ _ _ _ success,
              fun chain first onward =>
                MacroExpander.not_endless enough statement expanded success chain first onward⟩

end Ducklake.View
