import Ducklake.Transaction.KnownIds
import Ducklake.Transaction.NewColumns

/-!
# Versions of an attempt that do not meet

Each kind of row gets a new version of a thing only when the thing is new, or when its last version
ends.
-/

set_option autoImplicit false

namespace Ducklake.Transaction

open Lib Caches Spec CommitState

/-! ## Tables, tags and specifications -/

section

variable (state : CommitState) (change : Change)

theorem owned_nothing {κ : Type} (owner : κ → Int) :
    Attempted.Owned owner state change Renewal.nothing where
  nodup := List.nodup_nil
  owned _ added := by cases added
  replaced _ added := by cases added

theorem owned_created
    (object : ObjectRef)
    (made : change.created = some object) :
    Attempted.Owned id state change ⟨[], [state.knownId object]⟩ where
  nodup := List.nodup_singleton _
  owned _ added := ⟨object, change.created_mem_objects object made, List.mem_singleton.mp added⟩
  replaced _ added := Or.inr ⟨object, made, List.mem_singleton.mp added⟩

theorem owned_tags
    (object : ObjectRef)
    (made : change.created = some object)
    (tags : Tags) :
    Attempted.Owned Prod.fst state change
      ⟨[], tags.keys.map fun key => (state.knownId object, key)⟩ where
  nodup := tags.unique.map fun _ _ same => congrArg Prod.snd same
  owned key added := by
    obtain ⟨_, _, rfl⟩ := List.mem_map.mp added
    exact ⟨object, change.created_mem_objects object made, rfl⟩
  replaced key added := by
    obtain ⟨_, _, rfl⟩ := List.mem_map.mp added
    exact Or.inr ⟨object, made, rfl⟩

theorem Attempted.Owned.optional
    {κ : Type}
    {owner : κ → Int}
    {renewal : Renewal κ}
    (owned : Attempted.Owned owner state change renewal)
    (there : Bool) :
    Attempted.Owned owner state change ⟨renewal.retired, if there then renewal.added else []⟩ := by
  cases there with
  | true => exact owned
  | false => exact ⟨List.nodup_nil, by simp, by simp⟩

theorem owned_replaced
    (object : ObjectRef)
    (inside : object ∈ change.objects) :
    Attempted.Owned id state change ⟨[state.knownId object], [state.knownId object]⟩ where
  nodup := List.nodup_singleton _
  owned _ added := ⟨object, inside, List.mem_singleton.mp added⟩
  replaced _ added := Or.inl added

theorem owned_renewals_tables :
    Attempted.Owned id state change (change.renewals state).tables := by
  cases change with
  | createTable schemaRef tableRef => exact owned_created state _ (.table tableRef) rfl
  | addTableColumn parent refs column => cases refs <;> exact owned_nothing state _ id
  | _ => exact owned_nothing state _ id

theorem owned_renewals_tags :
    Attempted.Owned Prod.fst state change (change.renewals state).tags := by
  cases change with
  | createTable schemaRef tableRef => exact owned_tags state _ (.table tableRef) rfl _
  | createView schemaRef viewRef => exact owned_tags state _ (.view viewRef) rfl _
  | addTableColumn parent refs column => cases refs <;> exact owned_nothing state _ _
  | _ => exact owned_nothing state _ _

theorem owned_renewals_partitionInfo :
    Attempted.Owned id state change (change.renewals state).partitionInfo := by
  cases change with
  | createTable schemaRef tableRef =>
      exact (owned_created state _ (.table tableRef) rfl).optional _ _ _
  | updateTablePartitioning tableRef =>
      exact (owned_replaced state _ (.table tableRef) (by
        simp [Change.objects, Change.affectedTableRef])).optional _ _ _
  | addTableColumn parent refs column => cases refs <;> exact owned_nothing state _ id
  | _ => exact owned_nothing state _ id

theorem owned_renewals_sortInfo :
    Attempted.Owned id state change (change.renewals state).sortInfo := by
  cases change with
  | createTable schemaRef tableRef =>
      exact (owned_created state _ (.table tableRef) rfl).optional _ _ _
  | updateTableSortInfo tableRef =>
      exact (owned_replaced state _ (.table tableRef) (by
        simp [Change.objects, Change.affectedTableRef])).optional _ _ _
  | addTableColumn parent refs column => cases refs <;> exact owned_nothing state _ id
  | _ => exact owned_nothing state _ id

end

/-! ## Columns -/

def columnKeyOf (state : CommitState) (column : ColumnRef) : Int × Int :=
  (state.knownId (.table column.tableRef), state.columnId column)

/-- A column is written for one that the change refers to, in place of its last version or for the
first time. -/
theorem Change.added_columns
    (state : CommitState)
    (change : Change)
    (owns : change.OwnsColumns)
    (key : Int × Int)
    (added : key ∈ (change.renewals state).columns.added) :
    key ∈ (change.renewals state).columns.retired ∨ ∃ column ∈ change.newColumns,
      key = columnKeyOf state column ∧
        (change.created = some (.table column.tableRef) ∨ column ∈ change.addedColumns) := by
  cases change with
  | createTable schemaRef tableRef columnRefs =>
      obtain ⟨column, listed, rfl⟩ := List.mem_map.mp added
      have own := owns column listed
      obtain rfl := Option.some.inj own
      exact Or.inr ⟨column, listed, rfl, Or.inl rfl⟩
  | updateTableColumn parent columnRef column => exact Or.inl added
  | addTableColumn parent columnRefs column =>
      cases columnRefs with
      | nil => cases added
      | cons first rest =>
          obtain ⟨column, listed, rfl⟩ := List.mem_map.mp added
          have own : first.tableRef = column.tableRef := Option.some.inj (owns column listed)
          exact Or.inr ⟨column, listed, by rw [columnKeyOf, own], Or.inr listed⟩
  | _ => cases added

theorem Change.retired_columns
    (state : CommitState)
    (change : Change)
    (key : Int × Int)
    (retired : key ∈ (change.renewals state).columns.retired) :
    ∃ column ∈ change.columnRefs, key = columnKeyOf state column := by
  cases change with
  | updateTableColumn _ columnRef | removeTableColumn columnRef =>
      exact ⟨columnRef, List.mem_singleton_self _, List.mem_singleton.mp retired⟩
  | addTableColumn _ columnRefs => cases columnRefs <;> cases retired
  | _ => cases retired

theorem Change.nodup_added_columns
    (state : CommitState)
    (change : Change)
    (distinct : (change.newColumns.map state.columnId).Nodup) :
    (change.renewals state).columns.added.Nodup := by
  have pairs : ∀ (tableId : Int) (columns : List ColumnRef),
      (columns.map state.columnId).Nodup →
        (columns.map fun column => (tableId, state.columnId column)).Nodup := by
    intro tableId columns unique
    have both := unique.map fun (first second : Int) (same : (tableId, first) = (tableId, second)) =>
      congrArg Prod.snd same
    rwa [List.map_map] at both
  cases change with
  | createTable | updateTableColumn => first | exact pairs _ _ distinct | exact List.nodup_singleton _
  | addTableColumn parent columnRefs column =>
      cases columnRefs with
      | nil => exact List.nodup_nil
      | cons first rest => exact pairs _ _ distinct
  | _ => exact List.nodup_nil

namespace Attempted

variable {start final : CommitState} {changes : List Change}

structure Columns (start final : CommitState) (changes : List Change)
    (stored : List (Int × Int)) : Prop where
  owns : ∀ change ∈ changes, change.OwnsColumns
  injective : ∀ ref other id, start.catalog.idOf (.table ref) = some id →
    start.catalog.idOf (.table other) = some id → ref = other
  distinct : ∀ change ∈ changes, (change.newColumns.map final.columnId).Nodup
  ordered : changes.Pairwise fun earlier later => ∀ column ∈ later.addedColumns,
    ∀ id ∈ earlier.columnIds final.catalog column.tableRef, id < final.columnId column
  counted : ∀ key ∈ stored, key.1 < start.nextCatalogId
  added : ∀ change ∈ changes, ∀ column ∈ change.addedColumns, columnKeyOf final column ∉ stored

theorem separate_columns
    {stored : List (Int × Int)}
    (attempted : Attempted start final changes)
    (columns : Columns start final changes stored) :
    Renewal.Separate stored (changes.map fun change => (change.renewals final).columns) where
  own := by
    rw [List.forall_mem_map]
    exact fun change member => change.nodup_added_columns final (columns.distinct change member)
  apart := by
    rw [List.pairwise_map]
    refine (attempted.order.and columns.ordered).imp_of_mem ?_
    intro earlier later member memberLater order key added
    rcases later.added_columns final (columns.owns later memberLater) key added with
      retired | ⟨column, _, rfl, new⟩
    · exact Or.inl retired
    right
    intro before
    -- The earlier version is one of the same table.
    obtain ⟨other, listed, same⟩ : ∃ other ∈ earlier.columnRefs,
        columnKeyOf final column = columnKeyOf final other := by
      rcases earlier.added_columns final (columns.owns earlier member) _ before with
        retired | ⟨other, listed, same, _⟩
      · exact earlier.retired_columns final _ retired
      · exact ⟨other, earlier.newColumns_subset listed, same⟩
    have object := (columns.owns earlier member).mem_objects other listed
    rcases new with made | addedNow
    · have equal := attempted.eq_of_created later earlier memberLater member _ _ made object
        (congrArg Prod.fst same).symm
      exact order.1 _ made (equal ▸ object)
    · have objectNow := (columns.owns later memberLater).mem_objects column
        (later.addedColumns_subset addedNow)
      have tables := attempted.table_injective columns.injective later earlier memberLater member _ _
        objectNow object (congrArg Prod.fst same)
      have below := order.2 column addedNow (final.columnId other) (List.mem_append_left _
        (List.mem_map.mpr ⟨other, List.mem_filter.mpr ⟨listed, by simp [tables]⟩, rfl⟩))
      have equal := congrArg Prod.snd same
      change final.columnId column = final.columnId other at equal
      omega
  fresh := by
    rw [List.forall_mem_map]
    intro change member key added
    rcases change.added_columns final (columns.owns change member) key added with
      retired | ⟨column, _, rfl, made | addedNow⟩
    · exact Or.inl retired
    · right
      intro old
      have below := columns.counted _ old
      have above := attempted.le_knownId change member _ made
      change final.knownId (.table column.tableRef) < _ at below
      omega
    · exact Or.inr (columns.added change member column addedNow)

end Attempted

/-! ## Tags of columns -/

theorem mem_columnTagKeys
    (state : CommitState)
    (tableId : Int)
    (refs : List ColumnRef)
    (column : Column)
    (key : (Int × Int) × Text)
    (member : key ∈ columnTagKeys state tableId refs column) :
    ∃ ref ∈ refs, key.1 = (tableId, state.columnId ref) := by
  obtain ⟨entry, inside, tagged⟩ := List.mem_flatMap.mp member
  obtain ⟨name, _, rfl⟩ := List.mem_map.mp tagged
  obtain ⟨ref, listed, same⟩ := List.mem_map.mp (List.of_mem_zip inside).2
  exact ⟨ref, listed, by rw [same]⟩

theorem Change.added_columnTags
    (state : CommitState)
    (change : Change)
    (key : (Int × Int) × Text)
    (added : key ∈ (change.renewals state).columnTags.added) :
    key.1 ∈ (change.renewals state).columns.added ∧
      (change.renewals state).columns.retired = [] := by
  cases change with
  | createTable =>
      obtain ⟨entry, inside, tagged⟩ := List.mem_flatMap.mp added
      obtain ⟨ref, listed, same⟩ := mem_columnTagKeys state _ _ _ key tagged
      refine ⟨List.mem_map.mpr ⟨ref, ?_, same.symm⟩, rfl⟩
      exact List.mem_flatten.mpr ⟨entry.2, (List.of_mem_zip inside).2, listed⟩
  | addTableColumn _ columnRefs =>
      cases columnRefs with
      | nil => cases added
      | cons first rest =>
          obtain ⟨ref, listed, same⟩ := mem_columnTagKeys state _ _ _ key added
          exact ⟨List.mem_map.mpr ⟨ref, listed, same.symm⟩, rfl⟩
  | _ => cases added

theorem nodup_tagKeys
    (tableId : Int)
    (entries : List (FlattenedColumn × Int))
    (unique : (entries.map Prod.snd).Nodup) :
    (entries.flatMap fun entry =>
      entry.1.column.tags.keys.map fun key => ((tableId, entry.2), key)).Nodup := by
  refine List.nodup_flatMap.mpr ⟨fun entry _ => ?_, ?_⟩
  · exact entry.1.column.tags.unique.map fun _ _ same => congrArg Prod.snd same
  · rw [List.Nodup, List.pairwise_map] at unique
    refine unique.imp fun {entry other} apart key member memberOther => ?_
    obtain ⟨_, _, rfl⟩ := List.mem_map.mp member
    obtain ⟨_, _, same⟩ := List.mem_map.mp memberOther
    exact apart (congrArg (fun key => key.1.2) same).symm

theorem map_snd_zip_flatten
    (state : CommitState)
    (columns : List Column)
    (refs : List (List ColumnRef))
    (few : List.Forall₂ (fun (column : Column) (refs : List ColumnRef) =>
      refs.length ≤ column.size) columns refs) :
    ((columns.zip refs).flatMap fun entry =>
      entry.1.flatten.zip (entry.2.map state.columnId)).map Prod.snd =
        refs.flatten.map state.columnId := by
  induction few with
  | nil => rfl
  | @cons column first columns refs enough _ ih =>
      rw [List.zip_cons_cons, List.flatMap_cons, List.map_append, ih, List.flatten_cons,
        List.map_append]
      congr 1
      exact List.map_snd_zip (by rwa [List.length_map, Column.length_flatten])

theorem Change.nodup_added_columnTags
    (state : CommitState)
    (change : Change)
    (fits : change.Fits)
    (distinct : (change.newColumns.map state.columnId).Nodup) :
    (change.renewals state).columnTags.added.Nodup := by
  cases change with
  | createTable schemaRef tableRef columnRefs partitionRefs name columns =>
      have whole := nodup_tagKeys (state.knownId (.table tableRef)) _
        ((map_snd_zip_flatten state columns columnRefs fits).symm ▸ distinct)
      rwa [List.flatMap_assoc] at whole
  | addTableColumn parent columnRefs column =>
      cases columnRefs with
      | nil => exact List.nodup_nil
      | cons first rest =>
          refine nodup_tagKeys _ _ ?_
          rw [List.map_snd_zip (by
            rw [List.length_map, Column.length_flatten]
            exact fits.1)]
          exact distinct
  | _ => exact List.nodup_nil

theorem Attempted.separate_columnTags
    {start final : CommitState}
    {changes : List Change}
    {stored : List (Int × Int)}
    {tags : List ((Int × Int) × Text)}
    (attempted : Attempted start final changes)
    (columns : Attempted.Columns start final changes stored)
    (fits : ∀ change ∈ changes, change.Fits)
    (covered : ∀ key ∈ tags, key.1 ∈ stored) :
    Renewal.Separate tags (changes.map fun change => (change.renewals final).columnTags) := by
  obtain ⟨_, apart, fresh⟩ := attempted.separate_columns columns
  rw [List.pairwise_map] at apart
  rw [List.forall_mem_map] at fresh
  constructor
  case own =>
    rw [List.forall_mem_map]
    exact fun change member =>
      change.nodup_added_columnTags final (fits change member) (columns.distinct change member)
  case apart =>
    rw [List.pairwise_map]
    refine apart.imp fun {earlier later} apart key added => ?_
    obtain ⟨own, kept⟩ := later.added_columnTags final key added
    right
    intro before
    rcases apart key.1 own with retired | absent
    · rw [kept] at retired
      cases retired
    · exact absent (earlier.added_columnTags final key before).1
  case fresh =>
    rw [List.forall_mem_map]
    intro change member key added
    obtain ⟨own, kept⟩ := change.added_columnTags final key added
    right
    intro old
    rcases fresh change member key.1 own with retired | absent
    · rw [kept] at retired
      cases retired
    · exact absent (covered key old)

end Ducklake.Transaction
