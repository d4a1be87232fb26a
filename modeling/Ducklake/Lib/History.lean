import Ducklake.Lib.Versioned

/-!
# Histories of versioned rows

What a transaction that creates a snapshot may do to versioned rows so that no older snapshot
notices: end live rows, and append rows that begin with the new snapshot.
-/

set_option autoImplicit false

namespace Ducklake.Lib.Versioned

universe u

variable {α : Type u}

/-! ## Updates of one snapshot -/

/-- A row stays as it is, or it was live and ends with the snapshot. -/
def Kept (snapshot : Int) (row after : Versioned α) : Prop :=
  after = row ∨ row.endSnapshot = none ∧ after = { row with endSnapshot := some snapshot }

/-- A row begins with the snapshot, and may end with it. -/
def Fresh (snapshot : Int) (row : Versioned α) : Prop :=
  row.beginSnapshot = snapshot ∧ (row.endSnapshot = none ∨ row.endSnapshot = some snapshot)

def Updates (snapshot : Int) (before after : List (Versioned α)) : Prop :=
  ∃ (update : Versioned α → Versioned α) (added : List (Versioned α)),
    (∀ row, Kept snapshot row (update row)) ∧ (∀ row ∈ added, Fresh snapshot row) ∧
      after = before.map update ++ added

section

variable {snapshot : Int}

theorem Kept.refl (row : Versioned α) : Kept snapshot row row :=
  Or.inl rfl

theorem Kept.beginSnapshot
    {row after : Versioned α}
    (kept : Kept snapshot row after) :
    after.beginSnapshot = row.beginSnapshot := by
  rcases kept with rfl | ⟨_, rfl⟩ <;> rfl

theorem Kept.entity
    {row after : Versioned α}
    (kept : Kept snapshot row after) :
    after.entity = row.entity := by
  rcases kept with rfl | ⟨_, rfl⟩ <;> rfl

theorem fresh_new (entity : α) : Fresh snapshot (new snapshot entity) :=
  ⟨rfl, Or.inl rfl⟩

theorem Kept.fresh
    {row after : Versioned α}
    (kept : Kept snapshot row after)
    (fresh : Fresh snapshot row) :
    Fresh snapshot after := by
  rcases kept with rfl | ⟨_, rfl⟩
  · exact fresh
  · exact ⟨fresh.1, Or.inr rfl⟩

theorem Kept.trans
    {first second third : Versioned α}
    (earlier : Kept snapshot first second)
    (later : Kept snapshot second third) :
    Kept snapshot first third := by
  rcases earlier with rfl | ⟨live, rfl⟩
  · exact later
  · rcases later with rfl | ⟨impossible, _⟩
    · exact Or.inr ⟨live, rfl⟩
    · cases impossible

theorem kept_retireRow
    (selects : α → Bool)
    (row : Versioned α) :
    Kept snapshot row (retireRow snapshot selects row) := by
  unfold retireRow
  split
  · rename_i retired
    rw [Bool.and_eq_true] at retired
    exact Or.inr ⟨by simpa [isLive] using retired.1, rfl⟩
  · exact .refl row

theorem Updates.refl (rows : List (Versioned α)) : Updates snapshot rows rows :=
  ⟨id, [], .refl, by simp, by simp⟩

theorem Updates.trans
    {first second third : List (Versioned α)}
    (earlier : Updates snapshot first second)
    (later : Updates snapshot second third) :
    Updates snapshot first third := by
  obtain ⟨update, added, keeps, fresh, rfl⟩ := earlier
  obtain ⟨updateLater, addedLater, keepsLater, freshLater, rfl⟩ := later
  refine ⟨updateLater ∘ update, added.map updateLater ++ addedLater, ?_, ?_, ?_⟩
  · exact fun row => (keeps row).trans (keepsLater (update row))
  · intro row member
    rcases List.mem_append.mp member with inside | inside
    · obtain ⟨old, oldMember, rfl⟩ := List.mem_map.mp inside
      exact (keepsLater old).fresh (fresh old oldMember)
    · exact freshLater row inside
  · rw [List.map_append, List.map_map, List.append_assoc]

theorem updates_retire
    (selects : α → Bool)
    (rows : List (Versioned α)) :
    Updates snapshot rows (retire snapshot selects rows) :=
  ⟨retireRow snapshot selects, [], kept_retireRow selects, by simp, by simp [retire]⟩

theorem updates_append
    (rows added : List (Versioned α))
    (fresh : ∀ row ∈ added, Fresh snapshot row) :
    Updates snapshot rows (rows ++ added) :=
  ⟨id, added, .refl, fresh, by simp⟩

theorem updates_append_new
    (rows : List (Versioned α))
    (entities : List α) :
    Updates snapshot rows (rows ++ entities.map (new snapshot)) := by
  refine updates_append rows _ fun row member => ?_
  obtain ⟨entity, _, rfl⟩ := List.mem_map.mp member
  exact fresh_new entity

end

/-! ## What older snapshots see -/

/-- A row at a later time: only an end beyond the snapshot may have been set. -/
def SeenAs (snapshot : Int) (row later : Versioned α) : Prop :=
  later = row ∨ row.endSnapshot = none ∧
    ∃ finish, snapshot < finish ∧ later = { row with endSnapshot := some finish }

/-- The snapshot sees the same rows, apart from ends beyond it. -/
def SameAt (snapshot : Int) (before after : List (Versioned α)) : Prop :=
  ∃ later : Versioned α → Versioned α, (∀ row, SeenAs snapshot row (later row)) ∧
    after.filter (visibleAt snapshot) = (before.filter (visibleAt snapshot)).map later

section

variable {snapshot : Int}

theorem SeenAs.trans
    {first second third : Versioned α}
    (earlier : SeenAs snapshot first second)
    (later : SeenAs snapshot second third) :
    SeenAs snapshot first third := by
  rcases earlier with rfl | ⟨live, finish, beyond, rfl⟩
  · exact later
  · rcases later with rfl | ⟨impossible, _⟩
    · exact Or.inr ⟨live, finish, beyond, rfl⟩
    · cases impossible

theorem SeenAs.entity
    {row later : Versioned α}
    (seen : SeenAs snapshot row later) :
    later.entity = row.entity := by
  rcases seen with rfl | ⟨_, _, _, rfl⟩ <;> rfl

theorem SameAt.refl (rows : List (Versioned α)) : SameAt snapshot rows rows :=
  ⟨id, fun _ => Or.inl rfl, by simp⟩

theorem SameAt.trans
    {first second third : List (Versioned α)}
    (earlier : SameAt snapshot first second)
    (later : SameAt snapshot second third) :
    SameAt snapshot first third := by
  obtain ⟨change, seen, shape⟩ := earlier
  obtain ⟨changeLater, seenLater, shapeLater⟩ := later
  refine ⟨changeLater ∘ change, fun row => (seen row).trans (seenLater (change row)), ?_⟩
  rw [shapeLater, shape, List.map_map]

theorem Kept.visibleAt_eq
    {creates : Int}
    {row after : Versioned α}
    (kept : Kept creates row after)
    (older : snapshot < creates) :
    visibleAt snapshot after = visibleAt snapshot row := by
  rcases kept with rfl | ⟨live, rfl⟩
  · rfl
  · simp [visibleAt, live, older]

theorem Updates.sameAt
    {creates : Int}
    {before after : List (Versioned α)}
    (updates : Updates creates before after)
    (older : snapshot < creates) :
    SameAt snapshot before after := by
  obtain ⟨update, added, keeps, fresh, rfl⟩ := updates
  have unseen : added.filter (visibleAt snapshot) = [] := by
    rw [List.filter_eq_nil_iff]
    intro row member
    have start := (fresh row member).1
    simp only [visibleAt, Bool.and_eq_true, decide_eq_true_eq, not_and]
    omega
  have same : visibleAt snapshot ∘ update = visibleAt snapshot :=
    funext fun row => (keeps row).visibleAt_eq older
  refine ⟨update, fun row => ?_, ?_⟩
  · rcases keeps row with kept | ⟨live, ended⟩
    · exact Or.inl kept
    · exact Or.inr ⟨live, creates, older, ended⟩
  · rw [List.filter_append, unseen, List.append_nil, List.filter_map, same]

theorem SameAt.entitiesAt_eq
    {before after : List (Versioned α)}
    (same : SameAt snapshot before after) :
    entitiesAt snapshot after = entitiesAt snapshot before := by
  obtain ⟨later, seen, shape⟩ := same
  rw [entitiesAt, entitiesAt, shape, List.map_map]
  exact List.map_congr_left fun row _ => (seen row).entity

end

/-! ## Bounds -/

def Until (snapshot : Int) (rows : List (Versioned α)) : Prop :=
  ∀ row ∈ rows, row.beginSnapshot ≤ snapshot ∧ ∀ finish, row.endSnapshot = some finish →
    finish ≤ snapshot

section

variable {snapshot creates : Int}

theorem Until.kept
    {row after : Versioned α}
    (bounded : row.beginSnapshot ≤ creates ∧ ∀ finish, row.endSnapshot = some finish →
      finish ≤ creates)
    (kept : Kept creates row after) :
    after.beginSnapshot ≤ creates ∧ ∀ finish, after.endSnapshot = some finish →
      finish ≤ creates := by
  rcases kept with rfl | ⟨_, rfl⟩
  · exact bounded
  · refine ⟨bounded.1, fun finish ended => ?_⟩
    cases ended
    exact Int.le_refl _

theorem Fresh.until
    {row : Versioned α}
    (fresh : Fresh snapshot row) :
    row.beginSnapshot ≤ snapshot ∧ ∀ finish, row.endSnapshot = some finish →
      finish ≤ snapshot := by
  refine ⟨Int.le_of_eq fresh.1, fun finish ended => ?_⟩
  rcases fresh.2 with live | closed
  · rw [live] at ended
    cases ended
  · rw [closed] at ended
    cases ended
    exact Int.le_refl _

theorem Until.updates
    {before after : List (Versioned α)}
    (bounded : Until snapshot before)
    (older : snapshot ≤ creates)
    (updates : Updates creates before after) :
    Until creates after := by
  obtain ⟨update, added, keeps, fresh, rfl⟩ := updates
  intro row member
  rcases List.mem_append.mp member with inside | inside
  · obtain ⟨old, oldMember, rfl⟩ := List.mem_map.mp inside
    obtain ⟨start, ends⟩ := bounded old oldMember
    exact Until.kept ⟨Int.le_trans start older,
      fun finish ended => Int.le_trans (ends finish ended) older⟩ (keeps old)
  · exact (fresh row inside).until

theorem Until.filter
    {rows : List (Versioned α)}
    (bounded : Until snapshot rows)
    (selects : Versioned α → Bool) :
    Until snapshot (rows.filter selects) :=
  fun row member => bounded row (List.mem_of_mem_filter member)

/-- A later snapshot without rows of its own sees what the earlier one sees. -/
theorem Until.entitiesAt_eq
    {later : Int}
    {rows : List (Versioned α)}
    (bounded : Until snapshot rows)
    (older : snapshot ≤ later) :
    entitiesAt later rows = entitiesAt snapshot rows := by
  unfold entitiesAt
  refine congrArg (List.map entity) (List.filter_congr fun row member => ?_)
  obtain ⟨start, ends⟩ := bounded row member
  cases ended : row.endSnapshot with
  | none =>
      have startLater : row.beginSnapshot ≤ later := by omega
      simp [visibleAt, ended, start, startLater]
  | some finish =>
      have bound := ends finish ended
      have closed : ¬snapshot < finish := by omega
      have closedLater : ¬later < finish := by omega
      simp [visibleAt, ended, closed, closedLater]

end

/-! ## Entities -/

def Entities (holds : α → Prop) (rows : List (Versioned α)) : Prop :=
  ∀ row ∈ rows, holds row.entity

section

variable {holds : α → Prop} {rows added : List (Versioned α)}

theorem Entities.mono
    {weaker : α → Prop}
    (old : Entities holds rows)
    (weakens : ∀ entity, holds entity → weaker entity) :
    Entities weaker rows :=
  fun row member => weakens _ (old row member)

theorem Entities.retire
    (old : Entities holds rows)
    (snapshot : Int)
    (selects : α → Bool) :
    Entities holds (retire snapshot selects rows) := by
  intro row member
  obtain ⟨before, inside, rfl⟩ := List.mem_map.mp member
  rw [retireRow_entity]
  exact old before inside

theorem Entities.append
    (old : Entities holds rows)
    (new : Entities holds added) :
    Entities holds (rows ++ added) := by
  intro row member
  rcases List.mem_append.mp member with inside | inside
  · exact old row inside
  · exact new row inside

theorem Entities.nil : Entities holds [] := by
  simp [Entities]

theorem Entities.singleton
    {row : Versioned α}
    (own : holds row.entity) :
    Entities holds [row] := by
  simpa [Entities] using own

theorem Entities.filter
    (old : Entities holds rows)
    (selects : Versioned α → Bool) :
    Entities holds (rows.filter selects) :=
  fun row member => old row (List.mem_of_mem_filter member)

theorem Entities.map_new
    (snapshot : Int)
    (entities : List α)
    (each : ∀ entity ∈ entities, holds entity) :
    Entities holds (entities.map (new snapshot)) := by
  intro row member
  obtain ⟨entity, inside, rfl⟩ := List.mem_map.mp member
  exact each entity inside

theorem Entities.entitiesAt
    (old : Entities holds rows)
    (snapshot : Int) :
    ∀ entity ∈ entitiesAt snapshot rows, holds entity := by
  intro entity member
  obtain ⟨row, inside, rfl⟩ := List.mem_map.mp member
  exact old row (List.mem_of_mem_filter inside)

end

end Ducklake.Lib.Versioned
