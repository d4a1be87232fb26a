import Mathlib.Data.List.Pairwise
import Ducklake.Catalog.WellFormed
import Ducklake.Transaction.Edits

/-!
# Recorded changes

The objects that the changes of a transaction refer to are in its catalog, and the objects that
it creates were not there before.
-/

set_option autoImplicit false

namespace Ducklake

open Lib Caches Spec Transaction

/-! ## Objects of changes -/

namespace Transaction.Change

/-- The objects of a change whose ids are needed when it is applied. -/
def objects : Change → List ObjectRef
  | createSchema schemaRef _ _ => [.schema schemaRef]
  | deleteSchema schemaRef => [.schema schemaRef]
  | createTable schemaRef tableRef .. => [.table tableRef, .schema schemaRef]
  | createView schemaRef viewRef .. => [.view viewRef, .schema schemaRef]
  | deleteView viewRef => [.view viewRef]
  | createMacro schemaRef macroRef .. => [.macro_ macroRef, .schema schemaRef]
  | deleteMacro macroRef _ => [.macro_ macroRef]
  | change => (change.affectedTableRef.map ObjectRef.table).toList

def created : Change → Option ObjectRef
  | createSchema schemaRef _ _ => some (.schema schemaRef)
  | createTable _ tableRef .. => some (.table tableRef)
  | createView _ viewRef .. => some (.view viewRef)
  | createMacro _ macroRef .. => some (.macro_ macroRef)
  | _ => none

theorem isPartition_objects
    (change : Change)
    (key : ObjectRef)
    (object : key ∈ change.objects) :
    key.isPartition = false := by
  cases change with
  | createTable schemaRef tableRef | createView schemaRef viewRef
  | createMacro schemaRef macroRef =>
      rcases List.mem_cons.mp object with rfl | inside
      · rfl
      · rw [List.mem_singleton.mp inside]
        rfl
  | addTableColumn _ columnRefs _ =>
      obtain ⟨ref, _, rfl⟩ := Option.map_eq_some_iff.mp (Option.mem_toList.mp object)
      rfl
  | _ =>
      rw [List.mem_singleton.mp object]
      rfl

theorem isPartition_created
    (change : Change)
    (key : ObjectRef)
    (made : change.created = some key) :
    key.isPartition = false := by
  cases change <;> cases made <;> rfl

theorem created_mem_objects
    (change : Change)
    (key : ObjectRef)
    (made : change.created = some key) :
    key ∈ change.objects := by
  cases change <;> cases made <;> exact List.mem_cons_self ..

structure RecordedIn (change : Change) (before after : Catalog) : Prop where
  present : ∀ key ∈ change.objects, after.Has key
  absent : ∀ key, change.created = some key → ¬before.Has key

end Transaction.Change

/-! ## Edits -/

namespace Catalog

theorem idOf_of_absent
    (catalog : Catalog)
    (key : ObjectRef)
    (absent : ¬catalog.Has key) :
    catalog.idOf key = none := by
  have outside : ∀ {α : Type} [Inhabited α] (arena : Arena α) (idx : ArenaIdx),
      ¬idx < arena.arena.length → arena.get idx = default := by
    intro α _ arena idx outside
    simp [Arena.get, List.getElem?_eq_none (Nat.le_of_not_lt outside)]
  cases key with
  | schema ref => exact congrArg CatalogSchema.id (outside catalog.schemaArena ref.idx absent)
  | table ref => exact congrArg CatalogTable.id (outside catalog.tableArena ref.idx absent)
  | view ref => exact congrArg CatalogView.id (outside catalog.viewArena ref.idx absent)
  | macro_ ref => exact congrArg CatalogMacro.id (outside catalog.macroArena ref.idx absent)
  | partition ref =>
      cases found : (catalog.table ref).partition with
      | none => simp [idOf, partitionId, found]
      | some partition =>
          have inside : ¬ref.idx < catalog.tableArena.arena.length := fun inside =>
            absent ⟨inside, by simp [found]⟩
          have empty := outside catalog.tableArena ref.idx inside
          rw [table, empty] at found
          cases found

end Catalog

section

variable {env : Environment} {db : Database} {stats : DucklakeResult TableStatsMap}
variable {method : Operation} {before after : Catalog} {changes : List Change}

theorem Edit.grows (edit : Edit env db stats method before changes after) : before.Grows after := by
  cases edit with
  | createSchema success => exact (Catalog.addSchema_creates _ _ _ _ _ success).grows
  | deleteSchema _ success => exact Catalog.deleteSchema_grows _ _ _ success
  | createTable _ _ success => exact (Catalog.addTable_creates _ _ _ _ _ _ success).1.grows
  | deleteTable _ _ success => exact Catalog.deleteTable_grows _ _ _ success
  | writeDataFiles _ _ | writeInlineData _ _ _ | restateSortInfo _ _ => exact .refl before
  | renameTable _ _ success => exact Catalog.renameTable_grows _ _ _ _ success
  | updatePartitioning _ success => exact Catalog.updatePartitioning_grows _ _ _ _ _ success
  | updateSortInfo _ success => exact Catalog.updateSortInfo_grows _ _ _ _ success
  | ensureNextColumnId _ success => exact Catalog.ensureNextColumnId_grows _ _ _ _ success
  | addColumn _ success => exact Catalog.addColumn_grows _ _ _ _ _ _ success
  | removeColumn _ success => exact Catalog.removeColumn_grows _ _ _ _ success
  | renameColumn _ success => exact Catalog.renameColumn_grows _ _ _ _ success
  | updateColumnDefault _ updated | updateColumnNullability _ _ updated
  | promoteColumn _ _ updated =>
      subst updated
      exact Catalog.modifyColumn_grows _ _ _
  | addTableTag _ | removeTableTag _ _ =>
      exact Catalog.modifyTable_grows_of_same _ _ _ (fun _ => rfl) fun _ => rfl
  | addColumnTag _ | removeColumnTag _ _ => exact Catalog.modifyColumn_grows _ _ _
  | createView success => exact (Catalog.addView_creates _ _ _ _ _ success).1.grows
  | deleteView _ success => exact Catalog.deleteView_grows _ _ _ success
  | createMacro success => exact (Catalog.addMacro_creates _ _ _ _ _ success).1.grows
  | deleteMacro _ success => exact Catalog.deleteMacro_grows _ _ _ success

theorem recordedIn_of_table
    (sound : before.WellFormed)
    (grows : before.Grows after)
    (name : QualifiedName)
    (ref : TableRef)
    (found : before.tableRef name = .ok ref)
    (change : Change)
    (objects : change.objects = [.table ref])
    (created : change.created = none) :
    change.RecordedIn before after where
  present key member := by
    rw [objects, List.mem_singleton] at member
    subst member
    exact grows.has _ rfl (sound.tableRef name ref found)
  absent key made := by
    rw [created] at made
    cases made

theorem recordedIn_of_creates
    (sound : before.WellFormed)
    (key : ObjectRef)
    (creates : Catalog.Creates before after key)
    (name : Text)
    (schemaRef : SchemaRef)
    (found : before.schemaRef name = .ok schemaRef)
    (change : Change)
    (objects : change.objects = [key, .schema schemaRef])
    (created : change.created = some key) :
    change.RecordedIn before after where
  present other member := by
    rw [objects, List.mem_cons, List.mem_singleton] at member
    rcases member with rfl | rfl
    · exact creates.present
    · exact creates.grows.has _ rfl (sound.schemaRef name schemaRef found)
  absent other made := by
    rw [created] at made
    cases made
    exact creates.absent

theorem removeColumn_refs
    (ref : ColumnRef)
    (refs : List ColumnRef)
    (success : before.removeColumn ref = .ok (refs, after)) :
    ∀ removed ∈ refs, removed.tableRef = ref.tableRef := by
  unfold Catalog.removeColumn at success
  dsimp only at success
  split at success
  · cases success
  · split at success
    · cases success
    · cases success
      intro removed member
      obtain ⟨idx, _, rfl⟩ := List.mem_map.mp member
      rfl

theorem addColumn_refs
    (ref : TableRef)
    (path : List Text)
    (column : Column)
    (parent : Option ColumnRef)
    (refs : List ColumnRef)
    (success : before.addColumn ref path column = .ok ((parent, refs), after)) :
    ∀ added ∈ refs, added.tableRef = ref := by
  obtain ⟨_, _, success⟩ := bind_eq_ok.mp success
  obtain ⟨_, _, success⟩ := bind_eq_ok.mp success
  cases success
  intro added member
  obtain ⟨idx, _, rfl⟩ := List.mem_map.mp member
  rfl

theorem Edit.recorded
    (sound : before.WellFormed)
    (edit : Edit env db stats method before changes after) :
    ∀ change ∈ changes, change.RecordedIn before after := by
  have grows := edit.grows
  have ofColumn : ∀ {name : QualifiedName} {path : List Text} {ref : ColumnRef} {change : Change},
      columnByPath before name path = .ok ref → change.objects = [.table ref.tableRef] →
      change.created = none → change.RecordedIn before after := fun found =>
    recordedIn_of_table sound grows _ _ (tableRef_of_columnByPath _ _ _ _ found) _
  cases edit with
  | createSchema success =>
      have creates := Catalog.addSchema_creates _ _ _ _ _ success
      intro change member
      rw [List.mem_singleton] at member
      subst member
      refine ⟨fun key inside => ?_, fun key made => ?_⟩
      · rw [List.mem_singleton.mp inside]
        exact creates.present
      · cases made
        exact creates.absent
  | deleteSchema found success =>
      intro change member
      rw [List.mem_singleton] at member
      subst member
      refine ⟨fun key inside => ?_, fun key made => nomatch made⟩
      rw [List.mem_singleton.mp inside]
      exact grows.has _ rfl (sound.schemaRef _ _ found)
  | createTable _ typed success =>
      obtain ⟨creates, found⟩ := Catalog.addTable_creates _ _ _ _ _ _ success
      rw [List.forall_mem_singleton]
      exact recordedIn_of_creates sound _ creates _ _ found _ rfl rfl
  | createView success =>
      obtain ⟨creates, found⟩ := Catalog.addView_creates _ _ _ _ _ success
      rw [List.forall_mem_singleton]
      exact recordedIn_of_creates sound _ creates _ _ found _ rfl rfl
  | createMacro success =>
      obtain ⟨creates, found⟩ := Catalog.addMacro_creates _ _ _ _ _ success
      rw [List.forall_mem_singleton]
      exact recordedIn_of_creates sound _ creates _ _ found _ rfl rfl
  | deleteView found success =>
      intro change member
      rw [List.mem_singleton] at member
      subst member
      refine ⟨fun key inside => ?_, fun key made => nomatch made⟩
      rw [List.mem_singleton.mp inside]
      exact grows.has _ rfl (sound.viewRef _ _ found)
  | deleteMacro found success =>
      intro change member
      rw [List.mem_singleton] at member
      subst member
      refine ⟨fun key inside => ?_, fun key made => nomatch made⟩
      rw [List.mem_singleton.mp inside]
      exact grows.has _ rfl (sound.macroRef _ _ _ found)
  | deleteTable _ found _ | writeDataFiles found _ | writeInlineData found _ _
  | renameTable _ found _ | updatePartitioning found _ | updateSortInfo found _
  | restateSortInfo found _ | addTableTag found | removeTableTag found _ =>
      rw [List.forall_mem_singleton]
      exact recordedIn_of_table sound grows _ _ found _ rfl rfl
  | ensureNextColumnId _ _ => simp
  | addColumn found success =>
      rw [List.forall_mem_singleton]
      have refs := addColumn_refs _ _ _ _ _ success
      refine ⟨fun key inside => ?_, fun key made => nomatch made⟩
      simp only [Change.objects, Change.affectedTableRef, Option.mem_toList,
        Option.map_eq_some_iff] at inside
      obtain ⟨_, ⟨first, head, rfl⟩, rfl⟩ := inside
      rw [refs first (List.mem_of_head? head)]
      exact grows.has _ rfl (sound.tableRef _ _ found)
  | removeColumn found success =>
      intro change member
      obtain ⟨removed, inside, rfl⟩ := List.mem_map.mp member
      refine ofColumn found ?_ rfl
      simp [Change.objects, Change.affectedTableRef, removeColumn_refs _ _ success removed inside]
  | renameColumn found _ | updateColumnDefault found _ | updateColumnNullability found _ _
  | promoteColumn found _ _ | addColumnTag found | removeColumnTag found _ =>
      rw [List.forall_mem_singleton]
      exact ofColumn found rfl rfl

end

/-! ## Transactions -/

namespace Transaction

structure Extends (before after : Transaction) : Prop where
  snapshot : after.snapshot = before.snapshot
  startCatalog : after.startCatalog = before.startCatalog
  catalog : before.catalog.Grows after.catalog
  changes : ∃ added, after.changes = before.changes ++ added ∧
    ∀ change ∈ added, change.RecordedIn before.catalog after.catalog

theorem Extends.refl (tx : Transaction) : tx.Extends tx where
  snapshot := rfl
  startCatalog := rfl
  catalog := .refl _
  changes := ⟨[], by simp, by simp⟩

theorem Extends.trans
    {first second third : Transaction}
    (earlier : first.Extends second)
    (later : second.Extends third) :
    first.Extends third where
  snapshot := later.snapshot.trans earlier.snapshot
  startCatalog := later.startCatalog.trans earlier.startCatalog
  catalog := earlier.catalog.trans later.catalog
  changes := by
    obtain ⟨old, oldChanges, oldRecorded⟩ := earlier.changes
    obtain ⟨new, newChanges, newRecorded⟩ := later.changes
    refine ⟨old ++ new, by rw [newChanges, oldChanges, List.append_assoc], ?_⟩
    intro change member
    rcases List.mem_append.mp member with inside | inside
    · have recorded := oldRecorded change inside
      refine ⟨fun key object => ?_, recorded.absent⟩
      have plain : key.isPartition = false := change.isPartition_objects key object
      exact later.catalog.has key plain (recorded.present key object)
    · have recorded := newRecorded change inside
      refine ⟨recorded.present, fun key made present => ?_⟩
      exact recorded.absent key made
        (earlier.catalog.has key (change.isPartition_created key made) present)

theorem Edited.extends
    {env : Environment}
    {db : Database}
    {stats : DucklakeResult TableStatsMap}
    {method : Operation}
    {tx next : Transaction}
    (sound : tx.catalog.WellFormed)
    (edited : Edited env db stats method tx next) :
    tx.Extends next := by
  induction edited with
  | refl => exact .refl tx
  | @tail middle last _ edit ih =>
      obtain ⟨changes, edit, result⟩ := edit
      refine ih.trans ?_
      rw [result]
      exact {
        snapshot := rfl
        startCatalog := rfl
        catalog := edit.grows
        changes := ⟨changes, rfl, edit.recorded (ih.catalog.wellFormed sound)⟩ }

/-- What holds of a transaction from its start to its commit. -/
structure Sound (tx : Transaction) : Prop where
  startCatalog : tx.startCatalog.WellFormed
  work : (Transaction.new tx.snapshot tx.startCatalog).Extends tx

variable {tx : Transaction}

theorem Sound.catalog (sound : tx.Sound) : tx.catalog.WellFormed :=
  sound.work.catalog.wellFormed sound.startCatalog

theorem Sound.recorded
    (sound : tx.Sound)
    (change : Change)
    (member : change ∈ tx.changes) :
    change.RecordedIn tx.startCatalog tx.catalog := by
  obtain ⟨added, changes, recorded⟩ := sound.work.changes
  rw [changes] at member
  exact recorded change (by simpa [Transaction.new] using member)

theorem Sound.idOf_created
    (sound : tx.Sound)
    (change : Change)
    (member : change ∈ tx.changes)
    (key : ObjectRef)
    (made : change.created = some key) :
    tx.catalog.idOf key = none := by
  rw [sound.work.catalog.idOf key (change.isPartition_created key made)]
  exact Catalog.idOf_of_absent _ _ ((sound.recorded change member).absent key made)

theorem Sound.extends
    (sound : tx.Sound)
    (next : Transaction)
    (extension : tx.Extends next) :
    next.Sound := by
  have start : Transaction.new next.snapshot next.startCatalog =
      Transaction.new tx.snapshot tx.startCatalog := by
    rw [extension.snapshot, extension.startCatalog]
  exact ⟨extension.startCatalog ▸ sound.startCatalog, start ▸ sound.work.trans extension⟩

theorem Edited.invariant
    {env : Environment}
    {db : Database}
    {stats : DucklakeResult TableStatsMap}
    {method : Operation}
    {next : Transaction}
    (motive : Transaction → Prop)
    (sound : tx.Sound)
    (initial : motive tx)
    (step : ∀ tx changes catalog, tx.Sound → motive tx →
      Edit env db stats method tx.catalog changes catalog →
        motive { tx with catalog := catalog, changes := tx.changes ++ changes })
    (edited : Edited env db stats method tx next) :
    motive next := by
  induction edited with
  | refl => exact initial
  | @tail middle last earlier edit ih =>
      obtain ⟨changes, edit, result⟩ := edit
      have middleSound := sound.extends middle (Edited.extends sound.catalog earlier)
      rw [result]
      exact step middle changes last.catalog middleSound ih edit

theorem sound_new
    (info : SnapshotInfo)
    (catalog : Catalog)
    (sound : catalog.WellFormed) :
    (Transaction.new info catalog).Sound :=
  ⟨sound, .refl _⟩

/-! ## Objects are created before they are used -/

def CreatedFirst (tx : Transaction) : Prop :=
  tx.changes.Pairwise fun earlier later => ∀ key, later.created = some key →
    key ∉ earlier.objects

theorem createdFirst_of_edit
    {env : Environment}
    {db : Database}
    {stats : DucklakeResult TableStatsMap}
    {method : Operation}
    {before after : Catalog}
    {changes : List Change}
    (edit : Edit env db stats method before changes after) :
    changes.Pairwise fun earlier later => ∀ key, later.created = some key →
      key ∉ earlier.objects := by
  cases edit with
  | removeColumn found success =>
      rw [List.pairwise_map]
      exact List.Pairwise.imp (fun _ _ made => by cases made) (List.pairwise_of_forall fun _ _ => trivial)
  | ensureNextColumnId => exact .nil
  | _ => exact List.pairwise_singleton _ _

theorem CreatedFirst.unique
    (first : tx.CreatedFirst)
    (change other : Change)
    (member : change ∈ tx.changes)
    (memberOther : other ∈ tx.changes)
    (key : ObjectRef)
    (made : change.created = some key)
    (madeOther : other.created = some key) :
    change = other := by
  by_contra different
  have apart : tx.changes.Pairwise fun earlier later =>
      ¬(earlier.created = some key ∧ later.created = some key) :=
    first.imp fun {earlier later} order both =>
      order key both.2 (earlier.created_mem_objects key both.1)
  have symmetric : Std.Symm fun earlier later : Change =>
      ¬(earlier.created = some key ∧ later.created = some key) :=
    ⟨fun _ _ apart both => apart both.symm⟩
  exact apart.forall member memberOther different ⟨made, madeOther⟩

end Transaction

end Ducklake
