import Ducklake.Lib.History

/-!
# Disjoint versions

Rows with the same key are versions of one thing.  Their intervals are disjoint when no snapshot
sees two of them, and they stay so when every update leaves at most one live row for each key.
-/

set_option autoImplicit false

namespace Ducklake.Lib.Versioned

universe u v

variable {α : Type u} {κ : Type v}

def DisjointBy (key : α → κ) (rows : List (Versioned α)) : Prop :=
  rows.Pairwise fun row other => key row.entity = key other.entity →
    ∀ snapshot, ¬(row.visibleAt snapshot = true ∧ other.visibleAt snapshot = true)

def liveKeys (key : α → κ) (rows : List (Versioned α)) : List κ :=
  (live rows).map key

section

variable {key : α → κ} {rows : List (Versioned α)}

/-! ## Live rows -/

theorem live_append
    (rows added : List (Versioned α)) :
    live (rows ++ added) = live rows ++ live added := by
  simp [live]

theorem live_map_new
    (snapshot : Int)
    (entities : List α) :
    live (entities.map (new snapshot)) = entities := by
  induction entities with
  | nil => rfl
  | cons entity rest ih =>
      change entity :: live (rest.map (new snapshot)) = entity :: rest
      rw [ih]

theorem live_retire
    (snapshot : Int)
    (selects : α → Bool)
    (rows : List (Versioned α)) :
    live (retire snapshot selects rows) = (live rows).filter fun entity => !selects entity := by
  induction rows with
  | nil => rfl
  | cons row rest ih =>
      unfold live retire at *
      rw [List.map_cons, List.filter_cons, retireRow_isLive, List.filter_cons]
      cases alive : row.isLive with
      | false => simpa using ih
      | true =>
          cases selected : selects row.entity with
          | true => simpa [selected] using ih
          | false => simpa [selected] using ih

theorem liveKeys_append
    (added : List (Versioned α)) :
    liveKeys key (rows ++ added) = liveKeys key rows ++ liveKeys key added := by
  rw [liveKeys, live_append, List.map_append]
  rfl

theorem liveKeys_map_new
    (snapshot : Int)
    (entities : List α) :
    liveKeys key (entities.map (new snapshot)) = entities.map key := by
  rw [liveKeys, live_map_new]

theorem liveKeys_retire
    (snapshot : Int)
    (selects : α → Bool)
    (retired : κ → Bool)
    (same : ∀ row ∈ rows, selects row.entity = retired (key row.entity)) :
    liveKeys key (retire snapshot selects rows) =
      (liveKeys key rows).filter fun item => !retired item := by
  have inside : ∀ entity ∈ live rows, selects entity = retired (key entity) := by
    intro entity member
    obtain ⟨row, listed, rfl⟩ := List.mem_map.mp member
    exact same row (List.mem_of_mem_filter listed)
  rw [liveKeys, live_retire, liveKeys, List.filter_map]
  congr 1
  refine List.filter_congr fun entity member => ?_
  simp [inside entity member]

theorem liveKeys_filter
    (keeps : Versioned α → Bool)
    (kept : κ → Bool)
    (same : ∀ row ∈ rows, keeps row = kept (key row.entity)) :
    liveKeys key (rows.filter keeps) = (liveKeys key rows).filter kept := by
  unfold liveKeys live
  rw [List.filter_map, List.filter_map, List.filter_filter, List.filter_filter]
  congr 2
  refine List.filter_congr fun row member => ?_
  simp [same row member, Bool.and_comm]

theorem mem_liveKeys
    (item : κ) :
    item ∈ liveKeys key rows ↔ ∃ row ∈ rows, row.isLive = true ∧ key row.entity = item := by
  simp only [liveKeys, live, List.map_map, List.mem_map, List.mem_filter, Function.comp_apply]
  constructor
  · rintro ⟨row, ⟨member, alive⟩, rfl⟩
    exact ⟨row, member, alive, rfl⟩
  · rintro ⟨row, member, alive, rfl⟩
    exact ⟨row, ⟨member, alive⟩, rfl⟩

theorem nodup_liveKeys_iff :
    (liveKeys key rows).Nodup ↔ rows.Pairwise fun row other =>
      row.isLive = true → other.isLive = true → key row.entity ≠ key other.entity := by
  unfold liveKeys live List.Nodup
  rw [List.map_map, List.pairwise_map, List.pairwise_filter]
  rfl

/-! ## Disjoint intervals -/

theorem DisjointBy.nodup_liveKeys
    (disjoint : DisjointBy key rows) :
    (liveKeys key rows).Nodup := by
  rw [nodup_liveKeys_iff]
  refine List.Pairwise.imp ?_ disjoint
  intro row other apart alive aliveOther same
  refine apart same (max row.beginSnapshot other.beginSnapshot) ?_
  simp only [isLive, Option.isNone_iff_eq_none] at alive aliveOther
  simp only [visibleAt, alive, aliveOther, Bool.and_true, decide_eq_true_eq]
  omega

theorem DisjointBy.nil : DisjointBy key ([] : List (Versioned α)) :=
  List.Pairwise.nil

theorem DisjointBy.nodup_entitiesAt
    (disjoint : DisjointBy key rows)
    (snapshot : Int) :
    ((entitiesAt snapshot rows).map key).Nodup := by
  unfold entitiesAt List.Nodup
  rw [List.map_map, List.pairwise_map, List.pairwise_filter]
  exact disjoint.imp fun apart seen seenOther same => apart same snapshot ⟨seen, seenOther⟩

theorem isLive_of_visibleAt
    {snapshot creates : Int}
    {row : Versioned α}
    (bounded : ∀ finish, row.endSnapshot = some finish → finish ≤ creates)
    (later : creates ≤ snapshot)
    (seen : row.visibleAt snapshot = true) :
    row.isLive = true := by
  cases ended : row.endSnapshot with
  | none => simp [isLive, ended]
  | some finish =>
      have bound := bounded finish ended
      simp only [visibleAt, ended, Bool.and_eq_true, decide_eq_true_eq] at seen
      omega

theorem Kept.visibleAt_of
    {snapshot creates : Int}
    {row after : Versioned α}
    (kept : Kept creates row after)
    (seen : after.visibleAt snapshot = true) :
    row.visibleAt snapshot = true := by
  rcases kept with rfl | ⟨live, rfl⟩
  · exact seen
  · simp only [visibleAt, Bool.and_eq_true, decide_eq_true_eq] at seen
    simp [visibleAt, live, seen.1]

/-- Intervals stay disjoint when a new snapshot leaves one live row for each key. -/
theorem DisjointBy.updates
    {snapshot creates : Int}
    {after : List (Versioned α)}
    (disjoint : DisjointBy key rows)
    (bounded : Until snapshot rows)
    (older : snapshot < creates)
    (updates : Updates creates rows after)
    (unique : (liveKeys key after).Nodup) :
    DisjointBy key after := by
  have limit := bounded.updates (Int.le_of_lt older) updates
  obtain ⟨update, added, keeps, fresh, rfl⟩ := updates
  rw [nodup_liveKeys_iff] at unique
  obtain ⟨_, uniqueAdded, uniqueAcross⟩ := List.pairwise_append.mp unique
  -- What begins with the new snapshot meets nothing but live rows.
  have meets : ∀ row ∈ rows.map update ++ added, ∀ other ∈ added, ∀ seen,
      row.visibleAt seen = true → other.visibleAt seen = true →
        row.isLive = true ∧ other.isLive = true := by
    intro row member other listed seen visible visibleOther
    have began := (fresh other listed).1
    have later : creates ≤ seen := by
      simp only [visibleAt, Bool.and_eq_true, decide_eq_true_eq] at visibleOther
      omega
    exact ⟨isLive_of_visibleAt (limit row member).2 later visible,
      isLive_of_visibleAt (limit other (List.mem_append_right _ listed)).2 later visibleOther⟩
  refine List.pairwise_append.mpr ⟨?_, ?_, ?_⟩
  · rw [List.pairwise_map]
    refine disjoint.imp fun {row other} apart same seen both => ?_
    rw [(keeps row).entity, (keeps other).entity] at same
    exact apart same seen ⟨(keeps row).visibleAt_of both.1, (keeps other).visibleAt_of both.2⟩
  · refine uniqueAdded.imp_of_mem fun {row other} member listed apart same seen both => ?_
    obtain ⟨alive, aliveOther⟩ :=
      meets row (List.mem_append_right _ member) other listed seen both.1 both.2
    exact apart alive aliveOther same
  · intro row member other listed same seen both
    obtain ⟨alive, aliveOther⟩ :=
      meets row (List.mem_append_left _ member) other listed seen both.1 both.2
    exact uniqueAcross row member other listed alive aliveOther same

end

/-! ## Bounds of rows -/

def Bounded (bounds : List Int) (rows : List (Versioned α)) : Prop :=
  ∀ row ∈ rows, row.beginSnapshot ∈ bounds ∧
    ∀ finish, row.endSnapshot = some finish → finish ∈ bounds

section

variable {bounds : List Int} {rows : List (Versioned α)} {snapshotId : Int}

theorem Bounded.mono
    (bounded : Bounded bounds rows)
    (more : List Int)
    (inside : ∀ bound ∈ bounds, bound ∈ more) :
    Bounded more rows := by
  intro row member
  obtain ⟨begins, ends⟩ := bounded row member
  exact ⟨inside _ begins, fun finish found => inside _ (ends finish found)⟩

theorem Bounded.retire
    (bounded : Bounded bounds rows)
    (known : snapshotId ∈ bounds)
    (selects : α → Bool) :
    Bounded bounds (retire snapshotId selects rows) := by
  intro row member
  obtain ⟨old, inside, rfl⟩ := List.mem_map.mp member
  obtain ⟨begins, ends⟩ := bounded old inside
  refine ⟨by rwa [retireRow_begin], fun finish found => ?_⟩
  unfold retireRow at found
  split at found
  · cases found
    exact known
  · exact ends finish found

theorem Bounded.append
    (bounded : Bounded bounds rows)
    (known : snapshotId ∈ bounds)
    (entities : List α) :
    Bounded bounds (rows ++ entities.map (.new snapshotId)) := by
  refine List.forall_mem_append.mpr ⟨bounded, fun row member => ?_⟩
  obtain ⟨entity, _, rfl⟩ := List.mem_map.mp member
  exact ⟨known, fun finish impossible => by cases impossible⟩

theorem Bounded.entitiesAt_eq
    (bounded : Bounded bounds rows)
    (first second : Int)
    (together : ∀ bound ∈ bounds, bound ≤ first ↔ bound ≤ second) :
    entitiesAt first rows = entitiesAt second rows := by
  unfold entitiesAt
  refine congrArg (List.map entity) (List.filter_congr fun row member => ?_)
  obtain ⟨begins, ends⟩ := bounded row member
  have start := together _ begins
  unfold visibleAt
  rw [decide_eq_decide.mpr start]
  refine congrArg (decide (row.beginSnapshot ≤ second) && ·) ?_
  cases finish : row.endSnapshot with
  | none => rfl
  | some last =>
      have stop := together last (ends last finish)
      refine decide_eq_decide.mpr ?_
      omega

end

end Ducklake.Lib.Versioned
