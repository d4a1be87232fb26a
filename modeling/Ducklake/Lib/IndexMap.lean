import Mathlib.Data.List.Nodup
import Mathlib.Data.List.Perm.Subperm

/-!
# Insertion-ordered maps

Maps with a fixed iteration order: entries keep the position at which their key was first
inserted.  The entries carry the proof that no key occurs twice.
-/

set_option autoImplicit false

namespace Ducklake.Lib

universe u v w

@[ext] structure IndexMap (κ : Type u) (α : Type v) where
  entries : List (κ × α)
  unique : (entries.map Prod.fst).Nodup

instance {κ : Type u} {α : Type v} [DecidableEq κ] [DecidableEq α] :
    DecidableEq (IndexMap κ α) := fun left right =>
  decidable_of_iff (left.entries = right.entries) IndexMap.ext_iff.symm

namespace IndexMap

variable {κ : Type u} {α : Type v}

def empty : IndexMap κ α :=
  ⟨[], List.nodup_nil⟩

instance : Inhabited (IndexMap κ α) := ⟨empty⟩

def keys (map : IndexMap κ α) : List κ :=
  map.entries.map Prod.fst

def values (map : IndexMap κ α) : List α :=
  map.entries.map Prod.snd

def isEmpty (map : IndexMap κ α) : Bool :=
  map.entries.isEmpty

section Keyed

variable [DecidableEq κ]

def get? (map : IndexMap κ α) (key : κ) : Option α :=
  (map.entries.find? fun entry => entry.1 = key).map Prod.snd

def contains (map : IndexMap κ α) (key : κ) : Bool :=
  (map.get? key).isSome

/-- Entries with the value of a key replaced in place, or appended when the key is new. -/
def insertEntries (key : κ) (value : α) : List (κ × α) → List (κ × α)
  | [] => [(key, value)]
  | entry :: rest =>
      if entry.1 = key then (key, value) :: rest
      else entry :: insertEntries key value rest

theorem mem_keys_insertEntries (key : κ) (value : α) (entries : List (κ × α)) (other : κ) :
    other ∈ (insertEntries key value entries).map Prod.fst ↔
      other = key ∨ other ∈ entries.map Prod.fst := by
  induction entries with
  | nil => simp [insertEntries]
  | cons entry rest ih =>
      unfold insertEntries
      split
      · rename_i same
        simp [← same]
      · rw [List.map_cons, List.map_cons, List.mem_cons, List.mem_cons, ih]
        tauto

theorem nodup_insertEntries (key : κ) (value : α) (entries : List (κ × α))
    (unique : (entries.map Prod.fst).Nodup) :
    ((insertEntries key value entries).map Prod.fst).Nodup := by
  induction entries with
  | nil => simp [insertEntries]
  | cons entry rest ih =>
      rw [List.map_cons, List.nodup_cons] at unique
      obtain ⟨absent, restUnique⟩ := unique
      unfold insertEntries
      split
      · rename_i same
        rw [List.map_cons, List.nodup_cons]
        exact ⟨same ▸ absent, restUnique⟩
      · rename_i distinct
        rw [List.map_cons, List.nodup_cons, mem_keys_insertEntries]
        exact ⟨not_or.mpr ⟨distinct, absent⟩, ih restUnique⟩

def insert (map : IndexMap κ α) (key : κ) (value : α) : IndexMap κ α :=
  ⟨insertEntries key value map.entries, nodup_insertEntries key value _ map.unique⟩

def erase (map : IndexMap κ α) (key : κ) : IndexMap κ α :=
  ⟨map.entries.filter fun entry => entry.1 ≠ key,
    map.unique.sublist (List.filter_sublist.map Prod.fst)⟩

/-- Entries from a list; later values of a key replace earlier ones. -/
def ofList (entries : List (κ × α)) : IndexMap κ α :=
  entries.foldl (fun map entry => map.insert entry.1 entry.2) empty

/-- The value of a key after an update that sees the previous value, if any. -/
def alter (map : IndexMap κ α) (key : κ) (update : Option α → α) : IndexMap κ α :=
  map.insert key (update (map.get? key))

def replaceKey (map : IndexMap κ α) (old new : κ) (value : α) : IndexMap κ α :=
  ⟨((map.entries.filter fun entry => entry.1 = old ∨ entry.1 ≠ new).map fun entry =>
      if entry.1 = old then (new, value) else entry), by
    have mapped : ∀ entries : List (κ × α), (entries.map Prod.fst).Nodup →
        (((entries.filter fun entry => entry.1 = old ∨ entry.1 ≠ new).map fun entry =>
          if entry.1 = old then (new, value) else entry).map Prod.fst).Nodup := by
      intro entries unique
      rw [List.map_map]
      refine List.Nodup.map_on ?_ ((List.Nodup.of_map _ unique).filter _)
      intro first firstMember second secondMember same
      obtain ⟨firstIn, firstKept⟩ := List.mem_filter.mp firstMember
      obtain ⟨secondIn, secondKept⟩ := List.mem_filter.mp secondMember
      have injective := List.inj_on_of_nodup_map unique firstIn secondIn
      simp only [decide_eq_true_eq] at firstKept secondKept
      refine injective ?_
      by_cases firstOld : first.1 = old <;> by_cases secondOld : second.1 = old <;>
        simp_all
    exact mapped map.entries map.unique⟩

/-! ## Lookup -/

theorem get?_eq_some_iff (map : IndexMap κ α) (key : κ) (value : α) :
    map.get? key = some value ↔ (key, value) ∈ map.entries := by
  obtain ⟨entries, unique⟩ := map
  simp only [get?]
  induction entries with
  | nil => simp
  | cons entry rest ih =>
      rw [List.map_cons, List.nodup_cons] at unique
      obtain ⟨absent, restUnique⟩ := unique
      by_cases same : entry.1 = key
      · rw [List.find?_cons_of_pos (by simpa using same), Option.map_some, Option.some.injEq,
          List.mem_cons]
        constructor
        · rintro rfl
          exact Or.inl (by rw [← same])
        · rintro (shape | member)
          · rw [← shape]
          · exact absurd (same ▸ List.mem_map.mpr ⟨_, member, rfl⟩) absent
      · rw [List.find?_cons_of_neg (by simpa using same), ih restUnique, List.mem_cons]
        constructor
        · exact Or.inr
        · rintro (shape | member)
          · exact absurd (by rw [← shape]) same
          · exact member

theorem get?_eq_none_iff (map : IndexMap κ α) (key : κ) :
    map.get? key = none ↔ key ∉ map.keys := by
  rw [← not_iff_not, not_not, ← ne_eq, Option.ne_none_iff_exists']
  constructor
  · rintro ⟨value, found⟩
    exact List.mem_map.mpr ⟨_, (get?_eq_some_iff map key value).mp found, rfl⟩
  · intro member
    obtain ⟨entry, inside, rfl⟩ := List.mem_map.mp member
    exact ⟨entry.2, (get?_eq_some_iff map entry.1 entry.2).mpr inside⟩

theorem contains_iff (map : IndexMap κ α) (key : κ) : map.contains key = true ↔ key ∈ map.keys := by
  rw [contains, Option.isSome_iff_ne_none, ne_eq, get?_eq_none_iff, not_not]

theorem find?_insertEntries (key : κ) (value : α) (entries : List (κ × α)) (other : κ) :
    ((insertEntries key value entries).find? fun entry => entry.1 = other).map Prod.snd =
      if other = key then some value
      else (entries.find? fun entry => entry.1 = other).map Prod.snd := by
  induction entries with
  | nil =>
      by_cases same : key = other
      · simp [insertEntries, same]
      · simp [insertEntries, same, Ne.symm same]
  | cons entry rest ih =>
      unfold insertEntries
      by_cases same : entry.1 = key
      · rw [if_pos same]
        by_cases wanted : other = key
        · simp [wanted]
        · have skip : ¬ key = other := fun back => wanted back.symm
          rw [List.find?_cons_of_neg (by simpa using skip),
            List.find?_cons_of_neg (by simpa [same] using skip), if_neg wanted]
      · rw [if_neg same]
        by_cases found : entry.1 = other
        · have distinct : other ≠ key := fun back => same (found.trans back)
          simp [found, distinct]
        · rw [List.find?_cons_of_neg (by simpa using found), ih,
            List.find?_cons_of_neg (by simpa using found)]

theorem get?_insert (map : IndexMap κ α) (key : κ) (value : α) (other : κ) :
    (map.insert key value).get? other = if other = key then some value else map.get? other :=
  find?_insertEntries key value map.entries other

@[simp] theorem get?_insert_self (map : IndexMap κ α) (key : κ) (value : α) :
    (map.insert key value).get? key = some value := by
  rw [get?_insert, if_pos rfl]

theorem get?_insert_of_ne (map : IndexMap κ α) (key other : κ) (value : α)
    (distinct : other ≠ key) : (map.insert key value).get? other = map.get? other := by
  rw [get?_insert, if_neg distinct]

@[simp] theorem get?_empty (key : κ) : (empty : IndexMap κ α).get? key = none := rfl

theorem get?_erase (map : IndexMap κ α) (key other : κ) :
    (map.erase key).get? other = if other = key then none else map.get? other := by
  by_cases same : other = key
  · rw [if_pos same, get?_eq_none_iff]
    intro member
    obtain ⟨entry, inside, rfl⟩ := List.mem_map.mp member
    simp [erase, same] at inside
  · rw [if_neg same]
    cases found : map.get? other with
    | none =>
        rw [get?_eq_none_iff] at found ⊢
        intro member
        obtain ⟨entry, inside, rfl⟩ := List.mem_map.mp member
        exact found (List.mem_map_of_mem (List.mem_filter.mp inside).1)
    | some value =>
        rw [get?_eq_some_iff] at found ⊢
        exact List.mem_filter.mpr ⟨found, by simpa using same⟩

theorem length_insertEntries (key : κ) (value : α) (entries : List (κ × α)) :
    (insertEntries key value entries).length =
      if key ∈ entries.map Prod.fst then entries.length else entries.length + 1 := by
  induction entries with
  | nil => rfl
  | cons entry rest ih =>
      unfold insertEntries
      by_cases same : entry.1 = key
      · simp [same]
      · rw [if_neg same, List.length_cons, ih]
        simp only [List.map_cons, List.mem_cons, Ne.symm same, false_or, List.length_cons]
        split <;> rfl

theorem insertEntries_of_notMem (key : κ) (value : α) (entries : List (κ × α))
    (fresh : key ∉ entries.map Prod.fst) :
    insertEntries key value entries = entries ++ [(key, value)] := by
  induction entries with
  | nil => rfl
  | cons entry rest ih =>
      rw [List.map_cons, List.mem_cons, not_or] at fresh
      rw [insertEntries, if_neg (Ne.symm fresh.1), ih fresh.2, List.cons_append]

theorem foldl_insert_of_nodup (entries : List (κ × α)) (map : IndexMap κ α)
    (unique : ((map.entries ++ entries).map Prod.fst).Nodup) :
    (entries.foldl (fun map entry => map.insert entry.1 entry.2) map).entries =
      map.entries ++ entries := by
  induction entries generalizing map with
  | nil => simp
  | cons entry rest ih =>
      have fresh : entry.1 ∉ map.entries.map Prod.fst := by
        intro inside
        rw [List.map_append, List.nodup_append] at unique
        exact unique.2.2 _ inside entry.1 (by simp) rfl
      have inserted : (map.insert entry.1 entry.2).entries = map.entries ++ [entry] :=
        insertEntries_of_notMem entry.1 entry.2 _ fresh
      rw [List.foldl_cons, ih _ (by rwa [inserted, List.append_assoc, List.singleton_append]),
        inserted, List.append_assoc, List.singleton_append]

theorem ofList_entries_of_nodup (entries : List (κ × α))
    (unique : (entries.map Prod.fst).Nodup) :
    (ofList entries).entries = entries :=
  (foldl_insert_of_nodup entries empty (by simpa [empty] using unique)).trans (by simp [empty])

theorem length_foldl_insert (entries : List (κ × α)) (map : IndexMap κ α) :
    (entries.foldl (fun map entry => map.insert entry.1 entry.2) map).entries.length ≤
      map.entries.length + entries.length := by
  induction entries generalizing map with
  | nil => simp
  | cons entry rest ih =>
      have grown : (map.insert entry.1 entry.2).entries.length ≤ map.entries.length + 1 := by
        change (insertEntries entry.1 entry.2 map.entries).length ≤ _
        rw [length_insertEntries]
        split <;> omega
      have bound := ih (map.insert entry.1 entry.2)
      rw [List.foldl_cons, List.length_cons]
      omega

theorem nodup_of_length_foldl (entries : List (κ × α)) (map : IndexMap κ α)
    (full : map.entries.length + entries.length ≤
      (entries.foldl (fun map entry => map.insert entry.1 entry.2) map).entries.length) :
    ((map.entries ++ entries).map Prod.fst).Nodup := by
  induction entries generalizing map with
  | nil => simpa using map.unique
  | cons entry rest ih =>
      have bound := length_foldl_insert rest (map.insert entry.1 entry.2)
      have size : (map.insert entry.1 entry.2).entries.length =
          if entry.1 ∈ map.entries.map Prod.fst then map.entries.length
          else map.entries.length + 1 := length_insertEntries _ _ _
      rw [List.foldl_cons, List.length_cons] at full
      split at size
      · omega
      · rename_i fresh
        have later := ih (map.insert entry.1 entry.2) (by omega)
        have inserted : (map.insert entry.1 entry.2).entries = map.entries ++ [entry] :=
          insertEntries_of_notMem entry.1 entry.2 _ fresh
        rwa [inserted, List.append_assoc, List.singleton_append] at later

theorem length_ofList_eq_iff (entries : List (κ × α)) :
    (ofList entries).entries.length = entries.length ↔ (entries.map Prod.fst).Nodup := by
  constructor
  · intro full
    have whole : (empty : IndexMap κ α).entries.length + entries.length ≤
        (ofList entries).entries.length := by
      simpa [empty] using Nat.le_of_eq full.symm
    simpa [empty] using nodup_of_length_foldl entries empty whole
  · intro unique
    rw [ofList_entries_of_nodup entries unique]

theorem mem_insertEntries (key : κ) (value : α) (entries : List (κ × α)) (entry : κ × α)
    (member : entry ∈ insertEntries key value entries) :
    entry = (key, value) ∨ entry ∈ entries := by
  induction entries with
  | nil => exact Or.inl (List.mem_singleton.mp member)
  | cons head tail ih =>
      unfold insertEntries at member
      split at member
      · rcases List.mem_cons.mp member with same | later
        · exact Or.inl same
        · exact Or.inr (List.mem_cons_of_mem _ later)
      · rcases List.mem_cons.mp member with same | later
        · exact Or.inr (same ▸ List.mem_cons_self)
        · rcases ih later with same | inside
          · exact Or.inl same
          · exact Or.inr (List.mem_cons_of_mem _ inside)

theorem mem_foldl_insert (entries : List (κ × α)) (map : IndexMap κ α) (entry : κ × α)
    (member : entry ∈ (entries.foldl (fun map entry => map.insert entry.1 entry.2) map).entries) :
    entry ∈ entries ∨ entry ∈ map.entries := by
  induction entries generalizing map with
  | nil => exact Or.inr member
  | cons head tail ih =>
      rcases ih (map.insert head.1 head.2) member with later | before
      · exact Or.inl (List.mem_cons_of_mem _ later)
      · rcases mem_insertEntries head.1 head.2 _ entry before with rfl | inside
        · exact Or.inl List.mem_cons_self
        · exact Or.inr inside

theorem mem_keys_foldl_insert (entries : List (κ × α)) (map : IndexMap κ α) (key : κ) :
    key ∈ (entries.foldl (fun map entry => map.insert entry.1 entry.2) map).keys ↔
      key ∈ entries.map Prod.fst ∨ key ∈ map.keys := by
  induction entries generalizing map with
  | nil => simp
  | cons head tail ih =>
      have first : key ∈ (map.insert head.1 head.2).keys ↔ key = head.1 ∨ key ∈ map.keys :=
        mem_keys_insertEntries head.1 head.2 map.entries key
      rw [List.foldl_cons, ih, first, List.map_cons, List.mem_cons]
      exact or_left_comm.trans or_assoc.symm

/-- Where equal keys have equal values it does not matter which entry is kept. -/
theorem get?_ofList_of_functional (entries : List (κ × α))
    (functional : ∀ entry ∈ entries, ∀ other ∈ entries, entry.1 = other.1 → entry.2 = other.2)
    (key : κ) (value : α) :
    (ofList entries).get? key = some value ↔ (key, value) ∈ entries := by
  have inside : ∀ value, (ofList entries).get? key = some value → (key, value) ∈ entries := by
    intro value found
    rcases mem_foldl_insert entries empty _ ((get?_eq_some_iff _ key value).mp found) with
      member | impossible
    · exact member
    · cases impossible
  refine ⟨inside value, fun member => ?_⟩
  have present : key ∈ (ofList entries).keys :=
    (mem_keys_foldl_insert entries empty key).mpr (Or.inl (List.mem_map.mpr ⟨_, member, rfl⟩))
  cases found : (ofList entries).get? key with
  | none => exact absurd present ((get?_eq_none_iff _ key).mp found)
  | some other => exact congrArg some (functional _ (inside other found) _ member rfl)

theorem ofList_subperm (entries : List (κ × α)) : (ofList entries).entries.Subperm entries := by
  refine (List.Nodup.of_map _ (ofList entries).unique).subperm fun entry member => ?_
  rcases mem_foldl_insert entries empty entry member with inside | impossible
  · exact inside
  · cases impossible

theorem mem_entries_replaceKey (map : IndexMap κ α) (old new : κ) (value : α) (entry : κ × α)
    (fresh : new ∉ map.keys) :
    entry ∈ (map.replaceKey old new value).entries ↔
      (old ∈ map.keys ∧ entry = (new, value)) ∨ (entry.1 ≠ old ∧ entry ∈ map.entries) := by
  have kept : ∀ other ∈ map.entries, other.1 ≠ new := fun other member same =>
    fresh (List.mem_map.mpr ⟨other, member, same⟩)
  simp only [replaceKey, List.mem_map, List.mem_filter, decide_eq_true_eq]
  constructor
  · rintro ⟨other, ⟨member, _⟩, rfl⟩
    by_cases same : other.1 = old
    · exact Or.inl ⟨List.mem_map.mpr ⟨other, member, same⟩, by rw [if_pos same]⟩
    · rw [if_neg same]
      exact Or.inr ⟨same, member⟩
  · rintro (⟨member, rfl⟩ | ⟨distinct, member⟩)
    · obtain ⟨other, inside, same⟩ := List.mem_map.mp member
      exact ⟨other, ⟨inside, Or.inl same⟩, by rw [if_pos same]⟩
    · exact ⟨entry, ⟨member, Or.inr (kept entry member)⟩, by rw [if_neg distinct]⟩

theorem get?_replaceKey (map : IndexMap κ α) (old new : κ) (value : α) (key : κ)
    (present : old ∈ map.keys) (fresh : new ∉ map.keys) :
    (map.replaceKey old new value).get? key =
      if key = new then some value else if key = old then none else map.get? key := by
  refine Option.ext fun found => ?_
  rw [get?_eq_some_iff, mem_entries_replaceKey map old new value _ fresh]
  have distinct : old ≠ new := fun same => fresh (same ▸ present)
  by_cases isNew : key = new
  · subst isNew
    have absent : (key, found) ∉ map.entries := fun member =>
      fresh (List.mem_map.mpr ⟨_, member, rfl⟩)
    simp [present, absent, eq_comm]
  · by_cases isOld : key = old
    · simp [isOld, distinct]
    · simp [isNew, isOld, get?_eq_some_iff]

/-- Collecting no more entries than the map has, every entry keeps its place. -/
theorem ofList_eq_iff (entries : List (κ × α)) (map : IndexMap κ α)
    (few : entries.length ≤ map.entries.length) :
    ofList entries = map ↔ entries = map.entries := by
  constructor
  · rintro rfl
    have full : (empty : IndexMap κ α).entries.length + entries.length ≤
        (ofList entries).entries.length := by
      simpa [empty] using few
    have unique := nodup_of_length_foldl entries empty full
    exact (ofList_entries_of_nodup entries (by simpa [empty] using unique)).symm
  · rintro rfl
    exact IndexMap.ext (ofList_entries_of_nodup _ map.unique)

theorem mem_values_iff (map : IndexMap κ α) (value : α) :
    value ∈ map.values ↔ ∃ key, map.get? key = some value := by
  constructor
  · intro member
    obtain ⟨entry, inside, rfl⟩ := List.mem_map.mp member
    exact ⟨entry.1, (get?_eq_some_iff map entry.1 entry.2).mpr inside⟩
  · rintro ⟨key, found⟩
    exact List.mem_map.mpr ⟨_, (get?_eq_some_iff map key value).mp found, rfl⟩

end Keyed

end IndexMap

end Ducklake.Lib
