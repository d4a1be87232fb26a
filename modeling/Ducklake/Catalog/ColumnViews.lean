import Ducklake.Catalog.Links

/-!
# The views of the columns of a table

Paths, the shown schema and the id index describe the columns of a table.  They agree as long as
columns are added, renamed and given wider types; a removed column leaves the id index only.
-/

set_option autoImplicit false

namespace Ducklake

open Lib Spec

/-! ## What is shown -/

/-- A column tree shows a column with an id at a path below its root. -/
def Column.Shows (column : Column) : List Text → Int → Prop
  | [], id => column.fieldId = some id
  | part :: rest, id =>
      match column.dtype with
      | .primitive _ => False
      | .list inner => part = "element".toList ∧ inner.Shows rest id
      | .struct fields => ∃ field ∈ fields, field.name = part ∧ field.Shows rest id
      | .map key value => (part = "key".toList ∧ key.Shows rest id) ∨
          (part = "value".toList ∧ value.Shows rest id)

theorem Column.shows_cons (column : Column) (part : Text) (rest : List Text) (id : Int) :
    column.Shows (part :: rest) id = match column.dtype with
      | .primitive _ => False
      | .list inner => part = "element".toList ∧ inner.Shows rest id
      | .struct fields => ∃ field ∈ fields, field.name = part ∧ field.Shows rest id
      | .map key value => (part = "key".toList ∧ key.Shows rest id) ∨
          (part = "value".toList ∧ value.Shows rest id) :=
  rfl

def Schema.Shows (schema : Schema) (path : List Text) (id : Int) : Prop :=
  ∃ root ∈ schema.columns.values, ∃ rest, path = root.name :: rest ∧ root.Shows rest id

namespace CatalogColumns

/-- Paths, ids and the schema describe the same columns. -/
structure ViewsAgree (columns : CatalogColumns) : Prop where
  ids : ∀ id idx, columns.byId.get? id = some idx → (columns.column idx).id = id
  byId : ∀ idx, (∃ id, columns.byId.get? id = some idx) ↔
    ∃ path, columns.arenaIdxByPath path = .ok idx
  shown : ∀ path id, columns.schema.Shows path id ↔
    ∃ idx, columns.arenaIdxByPath path = .ok idx ∧ (columns.column idx).id = id

/-! ## Live columns -/

/-- The id index holds the arena, as long as no id comes twice. -/
def Indexed (columns : CatalogColumns) : Prop :=
  columns.ids.Nodup → ∀ id idx, columns.byId.get? id = some idx ↔ columns.ids[idx]? = some id

/-- The id index holds the arena, and new ids are free; `next` is the counter of the database,
which is taken when no column has been added yet. -/
structure Numbered (next : Int) (columns : CatalogColumns) : Prop where
  unique : columns.ids.Nodup
  indexed : columns.Indexed
  counter : ∀ id ∈ columns.ids, id < columns.nextColumnId.getD next

/-- Every column is below its parent, and reached from there or from the roots. -/
structure Rooted (columns : CatalogColumns) : Prop where
  linked : columns.Linked
  reached : ∀ idx, idx < columns.arena.length →
    ((columns.column idx).parentColumn = none ∧
      columns.rootColumns.get? (columns.column idx).name = some idx) ∨
    ∃ parent, (columns.column idx).parentColumn = some parent ∧
      idx ∈ CatalogColumns.children (columns.column parent).dtype
  below : ∀ parent child, child ∈ CatalogColumns.children (columns.column parent).dtype →
    parent < child

structure Live (next : Int) (columns : CatalogColumns) : Prop where
  numbered : columns.Numbered next
  rooted : columns.Rooted

section

variable {columns : CatalogColumns} {next : Int}

theorem arenaIdxByPath_eq_ok
    (path : List Text)
    (idx : ArenaIdx) :
    columns.arenaIdxByPath path = .ok idx ↔ ∃ root parts start, path = root :: parts ∧
      columns.rootColumns.get? root = some start ∧
        parts.foldlM columns.childByName start = some idx := by
  unfold arenaIdxByPath
  cases path with
  | nil => simp
  | cons root parts =>
      dsimp only
      split
      · rename_i found located
        obtain ⟨start, rooted, walked⟩ := Option.bind_eq_some_iff.mp located
        constructor
        · intro same
          cases same
          exact ⟨root, parts, start, rfl, rooted, walked⟩
        · rintro ⟨_, _, other, same, rootedOther, walkedOther⟩
          cases same
          rw [rooted] at rootedOther
          cases rootedOther
          rw [walked] at walkedOther
          rw [Option.some.inj walkedOther]
      · rename_i missing
        constructor
        · intro impossible
          cases impossible
        · rintro ⟨_, _, start, same, rooted, walked⟩
          cases same
          have located : (columns.rootColumns.get? root >>= fun idx =>
              parts.foldlM columns.childByName idx) = some idx := by
            rw [rooted]
            exact walked
          rw [missing] at located
          cases located

theorem name_schemaColumn (fuel : Nat) (idx : ArenaIdx) :
    (columns.schemaColumn fuel idx).name = (columns.column idx).name := by
  unfold schemaColumn
  rfl

theorem dtype_schemaColumn (fuel : Nat) (idx : ArenaIdx) :
    (columns.schemaColumn (fuel + 1) idx).dtype = match (columns.column idx).dtype with
      | .primitive type => .primitive type
      | .list item => .list (columns.schemaColumn fuel item)
      | .struct fields => .struct (fields.values.map (columns.schemaColumn fuel))
      | .map key value => .map (columns.schemaColumn fuel key) (columns.schemaColumn fuel value) := by
  conv_lhs => unfold schemaColumn
  rfl

/-- Without fuel, only columns without children are shown as they are. -/
theorem dtype_schemaColumn_leaf (idx : ArenaIdx)
    (leaf : ∀ child, child ∉ CatalogColumns.children (columns.column idx).dtype) :
    (∃ type, (columns.schemaColumn 0 idx).dtype = .primitive type) ∨
      (columns.schemaColumn 0 idx).dtype = .struct [] := by
  have shape : (columns.schemaColumn 0 idx).dtype = match (columns.column idx).dtype with
      | .primitive type => .primitive type
      | .list _ => .list (.mk [] (.struct []) true default none (.literal none) none)
      | .struct fields => .struct (fields.values.map fun _ =>
          .mk [] (.struct []) true default none (.literal none) none)
      | .map _ _ => .map (.mk [] (.struct []) true default none (.literal none) none)
          (.mk [] (.struct []) true default none (.literal none) none) := by
    conv_lhs => unfold schemaColumn
    rfl
  rw [shape]
  cases typed : (columns.column idx).dtype with
  | primitive type => exact Or.inl ⟨type, rfl⟩
  | list item =>
      rw [typed] at leaf
      exact absurd (List.mem_singleton.mpr rfl) (leaf item)
  | struct fields =>
      rw [typed] at leaf
      have none : fields.values = [] := List.eq_nil_iff_forall_not_mem.mpr leaf
      exact Or.inr (by simp [none])
  | map key value =>
      rw [typed] at leaf
      exact absurd List.mem_cons_self (leaf key)

theorem arenaIdxByPath_append
    (path : List Text)
    (part : Text)
    (idx child : ArenaIdx)
    (found : columns.arenaIdxByPath path = .ok idx)
    (stepped : columns.childByName idx part = some child) :
    columns.arenaIdxByPath (path ++ [part]) = .ok child := by
  obtain ⟨root, parts, start, rfl, rooted, walked⟩ := (arenaIdxByPath_eq_ok _ _).mp found
  refine (arenaIdxByPath_eq_ok _ _).mpr ⟨root, parts ++ [part], start, rfl, rooted, ?_⟩
  rw [List.foldlM_append, walked]
  simpa using stepped

theorem childByName_of_mem
    (parent child : ArenaIdx)
    (member : child ∈ CatalogColumns.children (columns.column parent).dtype) :
    ∃ part, columns.childByName parent part = some child := by
  unfold childByName
  cases typed : (columns.column parent).dtype with
  | primitive type =>
      rw [typed] at member
      cases member
  | list item =>
      rw [typed] at member
      obtain rfl := List.mem_singleton.mp member
      exact ⟨"element".toList, by simp⟩
  | struct fields =>
      rw [typed] at member
      exact (IndexMap.mem_values_iff _ _).mp member
  | map key value =>
      rw [typed] at member
      simp only [CatalogColumns.children, List.mem_cons, List.not_mem_nil, or_false] at member
      rcases member with rfl | rfl
      · exact ⟨"key".toList, by simp⟩
      · exact ⟨"value".toList, by
          dsimp only
          rw [if_neg (by decide), if_pos rfl]⟩

namespace Live

variable (live : columns.Live next)

include live

/-- The induction is on the index: parents stand before their children. -/
theorem path
    (idx : ArenaIdx)
    (inside : idx < columns.arena.length) :
    ∃ path, columns.arenaIdxByPath path = .ok idx := by
  induction idx using Nat.strong_induction_on with
  | _ idx ih =>
      rcases live.rooted.reached idx inside with ⟨_, rooted⟩ | ⟨parent, _, child⟩
      · exact ⟨[(columns.column idx).name],
          (arenaIdxByPath_eq_ok _ _).mpr ⟨_, [], idx, rfl, rooted, rfl⟩⟩
      · have before := live.rooted.below parent idx child
        obtain ⟨path, found⟩ := ih parent before (Nat.lt_trans before inside)
        obtain ⟨part, stepped⟩ := childByName_of_mem parent idx child
        exact ⟨path ++ [part], arenaIdxByPath_append path part parent idx found stepped⟩

theorem get?_id
    (idx : ArenaIdx)
    (inside : idx < columns.arena.length) :
    columns.byId.get? (columns.column idx).id = some idx :=
  (live.numbered.indexed live.numbered.unique _ idx).mpr (getElem?_ids columns idx inside)

theorem column_id
    (id : Int)
    (idx : ArenaIdx)
    (found : columns.byId.get? id = some idx) :
    idx < columns.arena.length ∧ (columns.column idx).id = id := by
  have entry := (live.numbered.indexed live.numbered.unique id idx).mp found
  have inside : idx < columns.arena.length := by
    rw [← length_ids]
    exact (List.getElem?_eq_some_iff.mp entry).1
  rw [getElem?_ids columns idx inside] at entry
  exact ⟨inside, Option.some.inj entry⟩

theorem values_schema :
    columns.schema.columns.values =
      columns.rootColumns.values.map columns.schemaColumnFromArenaIndex := by
  have shown : columns.rootColumns.values.filter (fun idx =>
      columns.byId.contains (columns.column idx).id) = columns.rootColumns.values := by
    refine List.filter_eq_self.mpr fun idx member => ?_
    unfold IndexMap.contains
    rw [live.get?_id idx (live.rooted.linked.closed.roots idx member)]
    rfl
  have keys : (columns.rootColumns.values.map fun idx => ((columns.column idx).name,
      columns.schemaColumnFromArenaIndex idx)).map Prod.fst = columns.rootColumns.keys := by
    rw [List.map_map]
    unfold IndexMap.values IndexMap.keys
    rw [List.map_map]
    refine List.map_congr_left fun entry member => ?_
    exact (live.rooted.linked.roots entry.1 entry.2 ((IndexMap.get?_eq_some_iff _ _ _).mpr member)).1
  unfold schema
  dsimp only
  rw [shown, IndexMap.values, IndexMap.ofList_entries_of_nodup _ (keys ▸ columns.rootColumns.unique),
    List.map_map]
  rfl

/-- The tree of a column shows what paths below it reach; the fuel suffices because children
stand behind their parents. -/
theorem shows_schemaColumn
    (fuel : Nat)
    (idx : ArenaIdx)
    (inside : idx < columns.arena.length)
    (enough : columns.arena.length ≤ idx + 1 + fuel)
    (path : List Text)
    (id : Int) :
    (columns.schemaColumn fuel idx).Shows path id ↔
      ∃ found, path.foldlM columns.childByName idx = some found ∧
        (columns.column found).id = id := by
  induction fuel generalizing idx path with
  | zero =>
      have leaf : ∀ child, child ∉ CatalogColumns.children (columns.column idx).dtype := by
        intro child member
        have before := live.rooted.below idx child member
        have below := live.rooted.linked.closed.children_column idx child member
        exact absurd (Nat.lt_of_lt_of_le below enough) (Nat.not_lt.mpr before)
      cases path with
      | nil =>
          unfold schemaColumn
          simp [Column.Shows, Column.fieldId]
      | cons part rest =>
          have missing : columns.childByName idx part = none := by
            by_contra found
            obtain ⟨child, stepped⟩ := Option.ne_none_iff_exists'.mp found
            exact leaf child (mem_children_of_childByName idx child part stepped)
          have hidden : ¬(columns.schemaColumn 0 idx).Shows (part :: rest) id := by
            rw [Column.shows_cons]
            rcases dtype_schemaColumn_leaf idx leaf with ⟨type, shape⟩ | shape <;> simp [shape]
          rw [List.foldlM_cons, missing]
          simp [hidden]
  | succ fuel ih =>
      cases path with
      | nil =>
          unfold schemaColumn
          simp [Column.Shows, Column.fieldId]
      | cons part rest =>
          have child_ih : ∀ child, child ∈ CatalogColumns.children (columns.column idx).dtype →
              ((columns.schemaColumn fuel child).Shows rest id ↔
                ∃ found, rest.foldlM columns.childByName child = some found ∧
                  (columns.column found).id = id) := by
            intro child member
            have before := live.rooted.below idx child member
            refine ih child (live.rooted.linked.closed.children_column idx child member) ?_ rest
            refine Nat.le_trans enough ?_
            rw [Nat.add_comm fuel 1, ← Nat.add_assoc]
            exact Nat.add_le_add_right (Nat.succ_le_succ before) fuel
          have stepped : (columns.schemaColumn (fuel + 1) idx).Shows (part :: rest) id ↔
              ∃ child, columns.childByName idx part = some child ∧
                (columns.schemaColumn fuel child).Shows rest id := by
            rw [Column.shows_cons, dtype_schemaColumn]
            unfold childByName
            cases typed : (columns.column idx).dtype with
            | primitive type => simp
            | list item =>
                dsimp only
                constructor
                · rintro ⟨isElement, shows⟩
                  exact ⟨item, if_pos isElement, shows⟩
                · rintro ⟨child, found, shows⟩
                  split at found
                  · rename_i isElement
                    cases found
                    exact ⟨isElement, shows⟩
                  · cases found
            | struct fields =>
                have entries := live.rooted.linked.fields idx fields typed
                constructor
                · rintro ⟨field, member, name, shows⟩
                  obtain ⟨child, inside, rfl⟩ := List.mem_map.mp member
                  obtain ⟨key, found⟩ := (IndexMap.mem_values_iff _ _).mp inside
                  have same : key = part := by
                    rw [← entries key child found, ← name, name_schemaColumn]
                  exact ⟨child, same ▸ found, shows⟩
                · rintro ⟨child, found, shows⟩
                  refine ⟨_, List.mem_map_of_mem
                    ((IndexMap.mem_values_iff _ _).mpr ⟨part, found⟩), ?_, shows⟩
                  rw [name_schemaColumn, entries part child found]
            | map key value =>
                have distinct : "value".toList ≠ "key".toList := by decide
                dsimp only
                constructor
                · rintro (⟨isKey, shows⟩ | ⟨isValue, shows⟩)
                  · exact ⟨key, if_pos isKey, shows⟩
                  · have notKey : part ≠ "key".toList := isValue ▸ distinct
                    exact ⟨value, by rw [if_neg notKey, if_pos isValue], shows⟩
                · rintro ⟨child, found, shows⟩
                  split at found
                  · rename_i isKey
                    cases found
                    exact Or.inl ⟨isKey, shows⟩
                  · split at found
                    · rename_i isValue
                      cases found
                      exact Or.inr ⟨isValue, shows⟩
                    · cases found
          rw [stepped, List.foldlM_cons]
          constructor
          · rintro ⟨child, found, shows⟩
            have member := mem_children_of_childByName idx child part found
            obtain ⟨last, walked, sameId⟩ := (child_ih child member).mp shows
            exact ⟨last, by rw [found]; exact walked, sameId⟩
          · rintro ⟨last, walked, sameId⟩
            obtain ⟨child, found, walked⟩ := Option.bind_eq_some_iff.mp walked
            have member := mem_children_of_childByName idx child part found
            exact ⟨child, found, (child_ih child member).mpr ⟨last, walked, sameId⟩⟩

theorem viewsAgree : columns.ViewsAgree where
  ids id idx found := (live.column_id id idx found).2
  byId idx := by
    constructor
    · rintro ⟨id, found⟩
      exact live.path idx (live.column_id id idx found).1
    · rintro ⟨path, found⟩
      exact ⟨_, live.get?_id idx (live.rooted.linked.closed.arenaIdxByPath path idx found)⟩
  shown path id := by
    have roots : columns.schema.Shows path id ↔ ∃ root parts start, path = root :: parts ∧
        columns.rootColumns.get? root = some start ∧
          (columns.schemaColumnFromArenaIndex start).Shows parts id := by
      unfold Schema.Shows
      rw [live.values_schema]
      constructor
      · rintro ⟨column, member, rest, rfl, shows⟩
        obtain ⟨start, inside, rfl⟩ := List.mem_map.mp member
        obtain ⟨name, found⟩ := (IndexMap.mem_values_iff _ _).mp inside
        refine ⟨name, rest, start, ?_, found, shows⟩
        rw [← (live.rooted.linked.roots name start found).1]
        exact congrArg (fun name => name :: rest) (name_schemaColumn _ start)
      · rintro ⟨name, rest, start, rfl, found, shows⟩
        refine ⟨_, List.mem_map_of_mem ((IndexMap.mem_values_iff _ _).mpr ⟨name, found⟩), rest, ?_,
          shows⟩
        rw [← (live.rooted.linked.roots name start found).1]
        exact congrArg (fun name => name :: rest) (name_schemaColumn _ start).symm
    rw [roots]
    constructor
    · rintro ⟨root, parts, start, rfl, found, shows⟩
      obtain ⟨last, walked, sameId⟩ := (live.shows_schemaColumn _ start
        (live.rooted.linked.root_lt root start found) (by omega) parts id).mp shows
      exact ⟨last, (arenaIdxByPath_eq_ok _ _).mpr ⟨root, parts, start, rfl, found, walked⟩, sameId⟩
    · rintro ⟨last, located, sameId⟩
      obtain ⟨root, parts, start, rfl, found, walked⟩ := (arenaIdxByPath_eq_ok _ _).mp located
      exact ⟨root, parts, start, rfl, found, (live.shows_schemaColumn _ start
        (live.rooted.linked.root_lt root start found) (by omega) parts id).mpr ⟨last, walked, sameId⟩⟩

end Live

end

end CatalogColumns

end Ducklake
