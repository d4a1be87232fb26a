import Ducklake.Maintenance.FileLocations

/-!
# Cleaning up old files

`maintenance/cleanup_old_files.rs`: the objects of scheduled files are deleted in the store of the
first one, then the rows of the files are.
-/

set_option autoImplicit false

namespace Ducklake.Maintenance

open Lib Io Spec

/-! ## Stores -/

/-- What a store replies to the request to delete an object.  An object that is not found is gone;
one whose deletion failed is there or not. -/
inductive Reply where
  | gone
  | failed (message : Text) (removed : Bool)
  deriving DecidableEq

namespace Reply

def removes : Reply → Bool
  | gone => true
  | failed _ removed => removed

def result : Reply → DucklakeResult Unit
  | gone => .ok ()
  | failed message _ => .error (.objectStore message)

theorem removes_of_ok (reply : Reply) (success : reply.result = .ok ()) : reply.removes = true := by
  cases reply with
  | gone => rfl
  | failed => cases success

end Reply

section

variable {U P : Type} [DecidableEq P] (urls : Urls U) (paths : ObjectPaths P) (currentDir : Text)

/-- `delete_objects`.  Requests behind the first one that failed may still be served. -/
def deleteObjects (reply : Nat → Reply) (store : Store) (locations : List P)
    (objects : List (Store × P)) : List (Store × P) × DucklakeResult Unit :=
  let requests := locations.zipIdx
  let removed := (requests.filter fun request => (reply request.2).removes).map Prod.fst
  (objects.filter fun object => !(object.1 = store ∧ object.2 ∈ removed),
    requests.forM fun request => (reply request.2).result)

/-- The store of the first path and the objects of all of them. -/
def resolveLocations (first : Io.DucklakePath U) (files : List (Io.DucklakePath U)) :
    DucklakeResult (Store × List P) := do
  let resolved ← first.resolve urls currentDir
  let locations ← files.mapM fun path =>
    path.resolve urls currentDir >>= StorePath.object paths
  .ok (resolved.store, locations)

def deleteFiles (reply : Nat → Reply) (files : List (Io.DucklakePath U))
    (objects : List (Store × P)) : List (Store × P) × DucklakeResult Unit :=
  match files with
  | [] => (objects, .ok ())
  | first :: _ =>
      match resolveLocations urls paths currentDir first files with
      | .ok (store, locations) => deleteObjects reply store locations objects
      | .error err => (objects, .error err)

end

/-! ## Rows -/

inductive CleanupFilter where
  | all
  | olderThan (timestamp : Int)

/-- `condition` -/
def CleanupFilter.selects : CleanupFilter → DucklakeFilesScheduledForDeletion → Bool
  | all, _ => true
  | olderThan timestamp, row => row.scheduleStart < timestamp

/-- The objects of all stores and the rows of `ducklake_files_scheduled_for_deletion`. -/
structure Stored (P : Type) where
  objects : List (Store × P)
  scheduled : List DucklakeFilesScheduledForDeletion
  deriving DecidableEq

/-- Whether the catalog may be written to, how the stores reply and how the database transaction
ends. -/
structure Surroundings where
  writable : Bool
  reply : Nat → Reply
  transaction : DucklakeResult Unit

section

variable {U P : Type} [DecidableEq P] (urls : Urls U) (paths : ObjectPaths P) (currentDir : Text)

def cleanupOldFilesFiltered (surroundings : Surroundings) (dataPath : Io.DucklakePath U)
    (filter : CleanupFilter) (dryRun : Bool) (stored : Stored P) :
    Stored P × DucklakeResult (List Text) :=
  let files := stored.scheduled.filter filter.selects
  match files.mapM (resolveScheduled urls dataPath) with
  | .error err => (stored, .error err)
  | .ok locations =>
      let displayed := locations.map fun path => path.display urls
      if dryRun then (stored, .ok displayed)
      else if !surroundings.writable then (stored, .error .readonlyDucklake)
      else
        let (objects, deletion) :=
          deleteFiles urls paths currentDir surroundings.reply locations stored.objects
        match deletion >>= fun _ => surroundings.transaction with
        | .error err => ({ stored with objects := objects }, .error err)
        | .ok () =>
            let fileIds := files.map DucklakeFilesScheduledForDeletion.dataFileId
            ({ objects := objects
               scheduled := stored.scheduled.filter fun row => row.dataFileId ∉ fileIds },
              .ok displayed)

/-! ## What a cleanup is for -/

/-- The object that a row names, in the store of its own URL. -/
def namedObject (dataPath : Io.DucklakePath U) (row : DucklakeFilesScheduledForDeletion) :
    DucklakeResult (Store × P) := do
  let location ← resolveScheduled urls dataPath row
  let resolved ← location.resolve urls currentDir
  let object ← resolved.object paths
  .ok (resolved.store, object)

/-- What happened to the objects of the selected rows, and to nothing else.  A row is gone only
with its object, and a cleanup that succeeds leaves none of them. -/
structure CleansExactly (dataPath : Io.DucklakePath U) (filter : CleanupFilter)
    (before : Stored P) (outcome : Stored P × DucklakeResult (List Text)) : Prop where
  objects : outcome.1.objects ⊆ before.objects
  deleted : ∀ object ∈ before.objects, object ∉ outcome.1.objects →
    ∃ row ∈ before.scheduled, filter.selects row = true ∧
      namedObject urls paths currentDir dataPath row = .ok object
  removed : ∀ row ∈ before.scheduled, row ∉ outcome.1.scheduled → filter.selects row = true ∧
    ∃ object, namedObject urls paths currentDir dataPath row = .ok object ∧
      object ∉ outcome.1.objects
  succeeds : ∀ displayed, outcome.2 = .ok displayed →
    outcome.1.scheduled = before.scheduled.filter (fun row => !filter.selects row) ∧
      ∀ row ∈ before.scheduled, filter.selects row = true →
        ∃ object, namedObject urls paths currentDir dataPath row = .ok object ∧
          object ∉ outcome.1.objects

/-! ## Deletions -/

section

variable (reply : Nat → Reply) (store : Store) (locations : List P) (objects : List (Store × P))

theorem deleteObjects_subset : (deleteObjects reply store locations objects).1 ⊆ objects :=
  List.filter_sublist.subset

theorem requested_of_deleteObjects
    (object : Store × P)
    (stored : object ∈ objects)
    (gone : object ∉ (deleteObjects reply store locations objects).1) :
    object.1 = store ∧ object.2 ∈ locations := by
  by_contra other
  refine gone (List.mem_filter.mpr ⟨stored, ?_⟩)
  simp only [Bool.not_eq_true', decide_eq_false_iff_not]
  rintro ⟨same, removed⟩
  obtain ⟨request, served, location⟩ := List.mem_map.mp removed
  have position := List.mem_zipIdx_iff_getElem?.mp (List.mem_of_mem_filter served)
  exact other ⟨same, location ▸ List.mem_of_getElem? position⟩

theorem gone_of_deleteObjects
    (success : (deleteObjects reply store locations objects).2 = .ok ())
    (object : P)
    (requested : object ∈ locations) :
    (store, object) ∉ (deleteObjects reply store locations objects).1 := by
  obtain ⟨index, position⟩ := List.mem_iff_getElem?.mp requested
  have request : (object, index) ∈ locations.zipIdx := List.mem_zipIdx_iff_getElem?.mpr position
  have served := Reply.removes_of_ok _ (forM_eq_ok.mp success _ request)
  intro kept
  have stays := (List.mem_filter.mp kept).2
  simp only [Bool.not_eq_true', decide_eq_false_iff_not, true_and] at stays
  exact stays (List.mem_map.mpr ⟨_, List.mem_filter.mpr ⟨request, served⟩, rfl⟩)

end

/-- The store to which the requests for some objects go. -/
def requestedStore (named : List (Store × P)) : Store :=
  (named.head?.map Prod.fst).getD .local

section

variable (dataPath : Io.DucklakePath U) (files : List DucklakeFilesScheduledForDeletion)

omit [DecidableEq P] in
theorem namedObject_eq_ok
    (row : DucklakeFilesScheduledForDeletion)
    (object : Store × P) :
    namedObject urls paths currentDir dataPath row = .ok object ↔
      ∃ location, resolveScheduled urls dataPath row = .ok location ∧
        ∃ resolved, location.resolve urls currentDir = .ok resolved ∧
          resolved.object paths = .ok object.2 ∧ resolved.store = object.1 := by
  rw [namedObject]
  constructor
  · intro success
    obtain ⟨location, isLocation, success⟩ := bind_eq_ok.mp success
    obtain ⟨resolved, isResolved, success⟩ := bind_eq_ok.mp success
    obtain ⟨_, isObject, success⟩ := bind_eq_ok.mp success
    obtain rfl := Except.ok.inj success
    exact ⟨location, isLocation, resolved, isResolved, isObject, rfl⟩
  · rintro ⟨location, isLocation, resolved, isResolved, isObject, sameStore⟩
    refine bind_eq_ok.mpr ⟨location, isLocation, bind_eq_ok.mpr ⟨resolved, isResolved,
      bind_eq_ok.mpr ⟨object.2, isObject, ?_⟩⟩⟩
    rw [sameStore]

/-- Files that all name an object are requested from the store of the first one. -/
theorem deleteFiles_of_named
    (reply : Nat → Reply)
    (objects named : List (Store × P))
    (names : files.mapM (namedObject urls paths currentDir dataPath) = .ok named) :
    ∃ locations, files.mapM (resolveScheduled urls dataPath) = .ok locations ∧
      deleteFiles urls paths currentDir reply locations objects =
        deleteObjects reply (requestedStore named) (named.map Prod.snd) objects := by
  -- The locations and what they resolve to, file by file.
  obtain ⟨locations, resolved, isResolved⟩ : ∃ locations,
      List.Forall₂ (fun row location => resolveScheduled urls dataPath row = .ok location) files
        locations ∧
      List.Forall₂ (fun (location : Io.DucklakePath U) (object : Store × P) =>
        ∃ resolved, location.resolve urls currentDir = .ok resolved ∧
          resolved.object paths = .ok object.2 ∧ resolved.store = object.1) locations named := by
    have each := mapM_eq_ok.mp names
    clear names
    induction each with
    | nil => exact ⟨[], .nil, .nil⟩
    | cons first _ ih =>
        obtain ⟨location, isLocation, isObject⟩ :=
          (namedObject_eq_ok urls paths currentDir dataPath _ _).mp first
        obtain ⟨rest, resolved, isResolved⟩ := ih
        exact ⟨location :: rest, .cons isLocation resolved, .cons isObject isResolved⟩
  refine ⟨locations, mapM_eq_ok.mpr resolved, ?_⟩
  have found : locations.mapM (fun path =>
      path.resolve urls currentDir >>= StorePath.object paths) = .ok (named.map Prod.snd) := by
    refine mapM_eq_ok.mpr (List.forall₂_map_right_iff.mpr (isResolved.imp ?_))
    rintro location object ⟨resolved, isResolved, isObject, _⟩
    exact bind_eq_ok.mpr ⟨resolved, isResolved, isObject⟩
  cases isResolved with
  | nil => simp [deleteFiles, deleteObjects, pure, Except.pure]
  | @cons location object rest others first later =>
      obtain ⟨resolved, isResolved, _, sameStore⟩ := first
      rw [deleteFiles, resolveLocations, isResolved, found]
      simp [bind, Except.bind, requestedStore, sameStore]

theorem named_of_deleteFiles
    (reply : Nat → Reply)
    (objects : List (Store × P))
    (locations : List (Io.DucklakePath U))
    (resolved : files.mapM (resolveScheduled urls dataPath) = .ok locations) :
    (∃ err, deleteFiles urls paths currentDir reply locations objects = (objects, .error err)) ∨
      ∃ named, files.mapM (namedObject urls paths currentDir dataPath) = .ok named := by
  have each := mapM_eq_ok.mp resolved
  cases locations with
  | nil =>
      cases each
      exact Or.inr ⟨[], rfl⟩
  | cons first rest =>
      rw [deleteFiles]
      cases requests : resolveLocations urls paths currentDir first (first :: rest) with
      | error err => exact Or.inl ⟨err, rfl⟩
      | ok found =>
          right
          obtain ⟨_, _, success⟩ := bind_eq_ok.mp requests
          obtain ⟨objects, isObjects, same⟩ := bind_eq_ok.mp success
          have eachObject := mapM_eq_ok.mp isObjects
          clear requests success isObjects same resolved
          generalize first :: rest = locations at each eachObject
          suffices named : ∃ named, List.Forall₂ (fun row object =>
              namedObject urls paths currentDir dataPath row = .ok object) files named by
            obtain ⟨named, all⟩ := named
            exact ⟨named, mapM_eq_ok.mpr all⟩
          induction each generalizing objects with
          | nil => exact ⟨[], .nil⟩
          | cons head _ ih =>
              cases eachObject with
              | cons object later =>
                  obtain ⟨place, isPlace, isObject⟩ := bind_eq_ok.mp object
                  obtain ⟨named, all⟩ := ih _ later
                  exact ⟨_, .cons ((namedObject_eq_ok urls paths currentDir dataPath _ (_, _)).mpr
                    ⟨_, head, place, isPlace, isObject, rfl⟩) all⟩

end

/-! ## The result -/

/-- The selected rows name objects of one store, and no other row has the id of one of them. -/
structure SharesStore (dataPath : Io.DucklakePath U) (filter : CleanupFilter)
    (scheduled : List DucklakeFilesScheduledForDeletion) : Prop where
  store : ∀ row ∈ scheduled, filter.selects row = true →
    ∀ other ∈ scheduled, filter.selects other = true → ∀ object another,
      namedObject urls paths currentDir dataPath row = .ok object →
        namedObject urls paths currentDir dataPath other = .ok another → object.1 = another.1
  ids : ∀ row ∈ scheduled, filter.selects row = true →
    ∀ other ∈ scheduled, other.dataFileId = row.dataFileId → filter.selects other = true

/-- The rows whose ids were not collected are those that were not selected. -/
theorem keptRows_eq_iff
    (filter : CleanupFilter)
    (scheduled : List DucklakeFilesScheduledForDeletion) :
    (scheduled.filter fun row => row.dataFileId ∉
        (scheduled.filter filter.selects).map DucklakeFilesScheduledForDeletion.dataFileId) =
      scheduled.filter (fun row => !filter.selects row) ↔
    ∀ row ∈ scheduled, filter.selects row = true →
      ∀ other ∈ scheduled, other.dataFileId = row.dataFileId → filter.selects other = true := by
  constructor
  · intro same row member chosen other listed sameId
    by_contra unselected
    have kept : other ∈ scheduled.filter (fun row => !filter.selects row) :=
      List.mem_filter.mpr ⟨listed, by simpa using unselected⟩
    rw [← same] at kept
    have absent := of_decide_eq_true (List.mem_filter.mp kept).2
    exact absent (sameId ▸ List.mem_map_of_mem (List.mem_filter.mpr ⟨member, chosen⟩))
  · intro own
    refine List.filter_congr fun other listed => ?_
    cases chosen : filter.selects other with
    | true =>
        have collected := List.mem_map_of_mem (f := DucklakeFilesScheduledForDeletion.dataFileId)
          (List.mem_filter.mpr ⟨listed, chosen⟩)
        simpa [and_assoc] using collected
    | false =>
        refine decide_eq_true fun collected => ?_
        obtain ⟨row, inside, sameId⟩ := List.mem_map.mp collected
        obtain ⟨member, selected⟩ := List.mem_filter.mp inside
        have impossible := own row member selected other listed sameId.symm
        rw [chosen] at impossible
        cases impossible

section

variable (dataPath : Io.DucklakePath U) (filter : CleanupFilter)

omit [DecidableEq P] in
/-- Nothing is wrong with a cleanup that fails before it changes anything. -/
theorem cleansExactly_unchanged (stored : Stored P) (err : DucklakeError) :
    CleansExactly urls paths currentDir dataPath filter stored (stored, .error err) where
  objects := List.Subset.refl _
  deleted _ present gone := absurd present gone
  removed _ present gone := absurd present gone
  succeeds _ success := by cases success

theorem cleansExactly_of_sharesStore
    (scheduled : List DucklakeFilesScheduledForDeletion)
    (shares : (∀ row ∈ scheduled, filter.selects row = true → ∃ object,
      namedObject urls paths currentDir dataPath row = .ok object) →
        SharesStore urls paths currentDir dataPath filter scheduled)
    (surroundings : Surroundings)
    (objects : List (Store × P)) :
    CleansExactly urls paths currentDir dataPath filter ⟨objects, scheduled⟩
      (cleanupOldFilesFiltered urls paths currentDir surroundings dataPath filter false
        ⟨objects, scheduled⟩) := by
  have unchanged := cleansExactly_unchanged urls paths currentDir dataPath filter
    (⟨objects, scheduled⟩ : Stored P)
  rw [cleanupOldFilesFiltered]
  cases resolved : (scheduled.filter filter.selects).mapM (resolveScheduled urls dataPath) with
  | error err => exact unchanged err
  | ok locations =>
      simp only [Bool.false_eq_true, if_false]
      split
      · exact unchanged _
      rcases named_of_deleteFiles urls paths currentDir dataPath _ surroundings.reply objects
        locations resolved with ⟨err, failed⟩ | ⟨named, names⟩
      · rw [failed]
        exact unchanged err
      obtain ⟨_, isLocations, deletion⟩ :=
        deleteFiles_of_named urls paths currentDir dataPath _ surroundings.reply objects named names
      obtain rfl := Except.ok.inj (resolved.symm.trans isLocations)
      rw [deletion]
      have selected : ∀ row ∈ scheduled, filter.selects row = true →
          ∃ object ∈ named, namedObject urls paths currentDir dataPath row = .ok object :=
        fun row member chosen => mem_of_mapM_eq_ok names row (List.mem_filter.mpr ⟨member, chosen⟩)
      have shared := shares fun row member chosen => by
        obtain ⟨object, _, names⟩ := selected row member chosen
        exact ⟨object, names⟩
      have designated : ∀ object ∈ named, ∃ row ∈ scheduled, filter.selects row = true ∧
          namedObject urls paths currentDir dataPath row = .ok object := by
        intro object member
        obtain ⟨row, inside, names⟩ := exists_of_mapM_eq_ok names object member
        obtain ⟨listed, chosen⟩ := List.mem_filter.mp inside
        exact ⟨row, listed, chosen, names⟩
      -- All requests go to the store of the object.
      have stores : ∀ object ∈ named, object.1 = requestedStore named := by
        intro object member
        obtain ⟨row, listed, chosen, namesRow⟩ := designated object member
        cases named with
        | nil => cases member
        | cons first rest =>
            obtain ⟨other, listedOther, chosenOther, namesOther⟩ :=
              designated first List.mem_cons_self
            exact shared.store row listed chosen other listedOther chosenOther _ _ namesRow
              namesOther
      have subset := deleteObjects_subset surroundings.reply (requestedStore named)
        (named.map Prod.snd) objects
      have deleted : ∀ object ∈ objects, object ∉ (deleteObjects surroundings.reply
          (requestedStore named) (named.map Prod.snd) objects).1 →
            ∃ row ∈ scheduled, filter.selects row = true ∧
              namedObject urls paths currentDir dataPath row = .ok object := by
        intro object stored gone
        obtain ⟨store, requested⟩ :=
          requested_of_deleteObjects _ _ _ objects object stored gone
        obtain ⟨other, member, same⟩ := List.mem_map.mp requested
        obtain rfl : other = object := Prod.ext ((stores other member).trans store.symm) same
        exact designated other member
      cases ended : (deleteObjects surroundings.reply (requestedStore named)
          (named.map Prod.snd) objects).2 >>= fun _ => surroundings.transaction with
      | error err =>
          exact {
            objects := subset
            deleted := deleted
            removed := fun _ present gone => absurd present gone
            succeeds := fun _ success => by cases success }
      | ok _ =>
          obtain ⟨_, success, _⟩ := bind_eq_ok.mp ended
          have complete : ∀ row ∈ scheduled, filter.selects row = true →
              ∃ object, namedObject urls paths currentDir dataPath row = .ok object ∧
                object ∉ (deleteObjects surroundings.reply (requestedStore named)
                  (named.map Prod.snd) objects).1 := by
            intro row member chosen
            obtain ⟨object, inside, names⟩ := selected row member chosen
            refine ⟨object, names, ?_⟩
            rw [show object = (requestedStore named, object.2) from
              Prod.ext (stores object inside) rfl]
            exact gone_of_deleteObjects _ _ _ objects success _ (List.mem_map_of_mem inside)
          have sameRows := (keptRows_eq_iff filter scheduled).mpr shared.ids
          refine {
            objects := subset
            deleted := deleted
            removed := ?_
            succeeds := fun _ _ => ⟨sameRows, complete⟩ }
          intro row member gone
          have chosen : filter.selects row = true := by
            by_contra unselected
            refine gone ?_
            change row ∈ scheduled.filter _
            rw [sameRows]
            exact List.mem_filter.mpr ⟨member, by simpa using unselected⟩
          exact ⟨chosen, complete row member chosen⟩

/-- For a writable catalog and stores that serve every request. -/
def serving : Surroundings where
  writable := true
  reply _ := .gone
  transaction := .ok ()

theorem cleanupOldFilesFiltered_serving
    (scheduled : List DucklakeFilesScheduledForDeletion)
    (objects named : List (Store × P))
    (names : (scheduled.filter filter.selects).mapM
      (namedObject urls paths currentDir dataPath) = .ok named) :
    ∃ displayed, cleanupOldFilesFiltered urls paths currentDir serving dataPath filter false
        ⟨objects, scheduled⟩ =
      (⟨(deleteObjects serving.reply (requestedStore named) (named.map Prod.snd) objects).1,
        scheduled.filter fun row => row.dataFileId ∉
          (scheduled.filter filter.selects).map DucklakeFilesScheduledForDeletion.dataFileId⟩,
        .ok displayed) := by
  obtain ⟨locations, resolved, deletion⟩ :=
    deleteFiles_of_named urls paths currentDir dataPath _ serving.reply objects named names
  have served : (deleteObjects serving.reply (requestedStore named) (named.map Prod.snd)
      objects).2 = .ok () := forM_eq_ok.mpr fun _ _ => rfl
  refine ⟨locations.map fun path => path.display urls, ?_⟩
  rw [cleanupOldFilesFiltered, resolved]
  simp only [Bool.false_eq_true, if_false, deletion, served]
  rfl

/-- A cleanup deletes exactly what the selected rows name, whatever the stores hold and reply, if
and only if the rows name objects in one store, or some of them names nothing. -/
theorem cleansExactly_iff_sharesStore
    (scheduled : List DucklakeFilesScheduledForDeletion) :
    (∀ (surroundings : Surroundings) (objects : List (Store × P)),
      CleansExactly urls paths currentDir dataPath filter ⟨objects, scheduled⟩
        (cleanupOldFilesFiltered urls paths currentDir surroundings dataPath filter false
          ⟨objects, scheduled⟩)) ↔
      ((∀ row ∈ scheduled, filter.selects row = true → ∃ object,
        namedObject urls paths currentDir dataPath row = .ok object) →
          SharesStore urls paths currentDir dataPath filter scheduled) := by
  constructor
  · intro exact_ allNamed
    obtain ⟨named, names⟩ : ∃ named, (scheduled.filter filter.selects).mapM
        (namedObject urls paths currentDir dataPath) = .ok named := by
      refine mapM_isOk fun row member => ?_
      obtain ⟨listed, chosen⟩ := List.mem_filter.mp member
      exact allNamed row listed chosen
    have cleans : ∀ objects : List (Store × P),
        (scheduled.filter fun row => row.dataFileId ∉ (scheduled.filter filter.selects).map
          DucklakeFilesScheduledForDeletion.dataFileId) =
            scheduled.filter (fun row => !filter.selects row) ∧
        ∀ row ∈ scheduled, filter.selects row = true →
          ∃ object, namedObject urls paths currentDir dataPath row = .ok object ∧
            object ∉ (deleteObjects serving.reply (requestedStore named) (named.map Prod.snd)
              objects).1 := by
      intro objects
      obtain ⟨displayed, outcome⟩ := cleanupOldFilesFiltered_serving urls paths currentDir dataPath
        filter scheduled objects named names
      have cleaned := exact_ serving objects
      rw [outcome] at cleaned
      exact cleaned.succeeds displayed rfl
    -- Where the object is the only one there is, it has to go.
    have stores : ∀ row ∈ scheduled, filter.selects row = true → ∀ object,
        namedObject urls paths currentDir dataPath row = .ok object →
          object.1 = requestedStore named := by
      intro row member chosen object names
      obtain ⟨other, namesOther, gone⟩ := (cleans [object]).2 row member chosen
      obtain rfl := Except.ok.inj (names.symm.trans namesOther)
      exact (requested_of_deleteObjects _ _ _ _ object (List.mem_singleton_self _) gone).1
    refine ⟨?_, (keptRows_eq_iff filter scheduled).mp (cleans []).1⟩
    intro row member chosen other listed chosenOther object another names namesOther
    exact (stores row member chosen object names).trans
      (stores other listed chosenOther another namesOther).symm
  · exact fun shares surroundings objects => cleansExactly_of_sharesStore urls paths currentDir
      dataPath filter scheduled shares surroundings objects

end

end

/-! ## Files in two buckets -/

def scheduledUrl (dataFileId : Int) (path : String) : DucklakeFilesScheduledForDeletion where
  dataFileId := dataFileId
  path := path.toList
  pathIsRelative := false
  scheduleStart := 0

/-- One object in each of two buckets, both scheduled for deletion. -/
def twoBuckets : Stored (List Text) where
  objects := [(.s3 "lake".toList, ["a.parquet".toList]), (.s3 "other".toList, ["b.parquet".toList])]
  scheduled := [scheduledUrl 1 "s3://lake/a.parquet", scheduledUrl 2 "s3://other/b.parquet"]

/-- Both rows are removed, but the object in the second bucket is still there. -/
theorem not_cleansExactly_twoBuckets :
    cleanupOldFilesFiltered Urls.plain plainObjects [] serving (.absolute dataUrl) .all false
        twoBuckets =
      (⟨[(.s3 "other".toList, ["b.parquet".toList])], []⟩,
        .ok ["s3://lake/a.parquet".toList, "s3://other/b.parquet".toList]) ∧
    ¬∀ (surroundings : Surroundings) (objects : List (Store × List Text)),
      CleansExactly Urls.plain plainObjects [] (.absolute dataUrl) .all
        ⟨objects, twoBuckets.scheduled⟩ (cleanupOldFilesFiltered Urls.plain plainObjects []
          surroundings (.absolute dataUrl) .all false ⟨objects, twoBuckets.scheduled⟩) := by
  have outcome : cleanupOldFilesFiltered Urls.plain plainObjects [] serving (.absolute dataUrl) .all
      false twoBuckets = (⟨[(.s3 "other".toList, ["b.parquet".toList])], []⟩,
        .ok ["s3://lake/a.parquet".toList, "s3://other/b.parquet".toList]) := by
    decide +kernel
  refine ⟨outcome, fun cleans => ?_⟩
  have cleaned := cleans serving twoBuckets.objects
  change CleansExactly _ _ _ _ _ twoBuckets (cleanupOldFilesFiltered _ _ _ _ _ _ _ twoBuckets)
    at cleaned
  rw [outcome] at cleaned
  obtain ⟨object, names, gone⟩ := (cleaned.succeeds _ rfl).2 (scheduledUrl 2 "s3://other/b.parquet")
    (by simp [twoBuckets]) rfl
  have other : namedObject Urls.plain plainObjects [] (.absolute dataUrl)
      (scheduledUrl 2 "s3://other/b.parquet") =
        .ok (.s3 "other".toList, ["b.parquet".toList]) := by
    decide +kernel
  obtain rfl := Except.ok.inj (names.symm.trans other)
  exact gone (List.mem_singleton_self _)

end Ducklake.Maintenance
