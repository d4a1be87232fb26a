import Ducklake.Catalog.Load
import Ducklake.Io.FilepathGenerator
import Ducklake.Lib.UrlPath
import Ducklake.Maintenance.ScheduledFiles

/-!
# Default locations

The data paths of tables without a path of their own: the names of the schema and the table are
relative references below the data path of the catalog.
-/

set_option autoImplicit false

namespace Ducklake.Io

open Lib Lib.UrlPath

/-! ## References -/

/-- The rules of a scheme.  Segments of special URLs are encoded in their own way. -/
def urlRules (encode : Bool → Text → Text) (scheme : Text) : Rules where
  special := isSpecialScheme scheme
  isFile := scheme = "file".toList
  encode := encode (isSpecialScheme scheme)

/-- A reference as it is read: without blanks around it. -/
def trimmedReference (text : Text) : Text :=
  ((cleaned text).reverse.dropWhile fun c => c.toNat ≤ 32).reverse

/-- A reference that moves from directory to directory: it is no URL, and starts neither with a
separator nor with a drive. -/
def isPathReference (rules : Rules) (text : Text) : Bool :=
  !startsWithScheme (cleaned text) &&
    !((trimmedReference text).head?.any rules.isSeparator) &&
    !(rules.isFile && startsWithDrive (trimmedReference text))

/-- The last segment of the path is a drive, which a reference does not replace. -/
def endsInDrive (rules : Rules) (path : UrlPath) : Bool :=
  rules.isFile && (driveLetter path.file).isSome

/-- What the URL standard says of such references below a URL with a host. -/
structure UrlParser.ResolvesPaths {U : Type} (urls : UrlParser U) (encode : Bool → Text → Text) :
    Prop where
  separated : ∀ special segment, '/' ∉ segment → '/' ∉ encode special segment
  join : ∀ base ref, (urls.parts base).authority.isSome = true →
    endsInDrive (urlRules encode (urls.parts base).scheme)
      (UrlPath.ofText (urls.parts base).path) = false →
    isPathReference (urlRules encode (urls.parts base).scheme) ref = true →
      ∃ joined, urls.join base ref = some joined ∧
        (urls.parts joined).scheme = (urls.parts base).scheme ∧
        (urls.parts joined).authority = (urls.parts base).authority ∧
        (urls.parts joined).path = ((urlRules encode (urls.parts base).scheme).resolve
          (UrlPath.ofText (urls.parts base).path) (trimmedReference ref)).text

/-! ## Data paths -/

section

variable {U : Type} (urls : UrlParser U) (directoryUrl : U → U)

def DucklakePath.ensureDirectory : DucklakePath U → DucklakePath U
  | .absolute url => .absolute (directoryUrl url)
  | .relative path =>
      if path.getLast? = some '/' then .relative path else .relative (path ++ ['/'])

/-- The path of a schema or a table that is created without one. -/
def defaultPath (name : Text) : DucklakeResult (DucklakePath U) :=
  (DucklakePath.fromStr urls name).map (DucklakePath.ensureDirectory directoryUrl)

/-- The path of a schema or a table after its row was loaded. -/
def reloadedPath (name : Text) (path : DucklakePath U) : DucklakeResult (DucklakePath U) :=
  DucklakePath.new urls.toUrls (Ducklake.pathOrDefault (path.display urls.toUrls) name)
    path.isRelative

def createdDataPath (root : DucklakePath U) (schema table : Text) :
    DucklakeResult (DucklakePath U) := do
  let schemaPath ← defaultPath urls directoryUrl schema
  let tablePath ← defaultPath urls directoryUrl table
  Maintenance.tableDataPath urls.toUrls root schemaPath tablePath

def loadedDataPath (root : DucklakePath U) (schema table : Text) :
    DucklakeResult (DucklakePath U) := do
  let schemaPath ← defaultPath urls directoryUrl schema >>= reloadedPath urls schema
  let tablePath ← defaultPath urls directoryUrl table >>= reloadedPath urls table
  Maintenance.tableDataPath urls.toUrls root schemaPath tablePath

structure GeneratedFile where
  hiveFilePattern : Bool
  partitionValues : IndexMap Text (Option Value)
  id : FileId

structure DefaultTable where
  schema : Text
  name : Text
  files : List GeneratedFile

variable (env : Environment)

def GeneratedFile.location (file : GeneratedFile) (dataPath : DucklakePath U) :
    DucklakeResult (DucklakePath U) :=
  DataFilePathGenerator.absolutePath urls env ⟨dataPath, file.hiveFilePattern⟩ file.partitionValues
    file.id

/-- The URL is in the directory of another one, and not the directory itself. -/
def Inside (base url : UrlParts) : Prop :=
  url.scheme = base.scheme ∧ url.authority = base.authority ∧
    ∃ rest, rest ≠ [] ∧ url.path = directoryText (UrlPath.ofText base.path).folder ++ rest

/-- The directories of two URLs are equal, or one is in the other. -/
def Nested (url other : UrlParts) : Prop :=
  other.scheme = url.scheme ∧ other.authority = url.authority ∧
    (directoryText (UrlPath.ofText url.path).folder <+:
        directoryText (UrlPath.ofText other.path).folder ∨
      directoryText (UrlPath.ofText other.path).folder <+:
        directoryText (UrlPath.ofText url.path).folder)

/-- Tables have directories of their own in the data path of the catalog, and their files are in
them. -/
structure Isolated (root : U) (tables : List DefaultTable) : Prop where
  inside : ∀ table ∈ tables, ∃ url,
    createdDataPath urls directoryUrl (.absolute root) table.schema table.name =
        .ok (.absolute url) ∧
      loadedDataPath urls directoryUrl (.absolute root) table.schema table.name =
        .ok (.absolute url) ∧
      Inside (urls.parts root) (urls.parts url) ∧
      ∀ file ∈ table.files, ∃ location, file.location urls env (.absolute url) =
        .ok (.absolute location) ∧ Inside (urls.parts url) (urls.parts location)
  apart : ∀ table ∈ tables, ∀ other ∈ tables,
    (table.schema, table.name) ≠ (other.schema, other.name) → ∀ url otherUrl,
      createdDataPath urls directoryUrl (.absolute root) table.schema table.name =
        .ok (.absolute url) →
      createdDataPath urls directoryUrl (.absolute root) other.schema other.name =
        .ok (.absolute otherUrl) → ¬ Nested (urls.parts url) (urls.parts otherUrl)

end

/-! ## Places -/

def directoryName (name : Text) : Text :=
  if name.getLast? = some '/' then name else name ++ ['/']

def isPathName (rules : Rules) (name : Text) : Bool :=
  !startsWithScheme (cleaned name) && !DucklakePath.isAbsoluteFile name &&
    isPathReference rules (directoryName name)

section

variable (rules : Rules) (env : Environment)

def placeOf (root : UrlPath) (schema table : Text) : UrlPath :=
  rules.resolve (rules.resolve root (trimmedReference (directoryName schema)))
    (trimmedReference (directoryName table))

def GeneratedFile.path (file : GeneratedFile) : Text :=
  DataFilePathGenerator.generateRelative (U := Unit) env
    ⟨.relative [], file.hiveFilePattern⟩ file.partitionValues file.id

/-- All names and paths of a table move from directory to directory. -/
structure DefaultTable.Relative (root : UrlPath) (table : DefaultTable) : Prop where
  schema : isPathName rules table.schema = true
  name : isPathName rules table.name = true
  files : ∀ file ∈ table.files, isPathReference rules (file.path env) = true
  schemaPlace : endsInDrive rules
    (rules.resolve root (trimmedReference (directoryName table.schema))) = false
  place : endsInDrive rules (placeOf rules root table.schema table.name) = false

/-- The names lead to different directories below the root, and the files into them. -/
structure Separate (root : UrlPath) (tables : List DefaultTable) : Prop where
  under : ∀ table ∈ tables, Under root.folder (placeOf rules root table.schema table.name)
  files : ∀ table ∈ tables, ∀ file ∈ table.files,
    Under (placeOf rules root table.schema table.name).folder
      (rules.resolve (placeOf rules root table.schema table.name)
        (trimmedReference (file.path env)))
  apart : ∀ table ∈ tables, ∀ other ∈ tables,
    (table.schema, table.name) ≠ (other.schema, other.name) →
      ¬ (placeOf rules root table.schema table.name).folder <+:
        (placeOf rules root other.schema other.name).folder ∧
      ¬ (placeOf rules root other.schema other.name).folder <+:
        (placeOf rules root table.schema table.name).folder

end

/-! ## Paths of names -/

section

variable {U : Type} {urls : UrlParser U} (directoryUrl : U → U)

theorem defaultPath_eq (reads : urls.ReadsSchemes) (rules : Rules) (name : Text)
    (isName : isPathName rules name = true) :
    defaultPath urls directoryUrl name = .ok (.relative (directoryName name)) := by
  simp only [isPathName, Bool.and_eq_true, Bool.not_eq_true'] at isName
  obtain ⟨⟨noScheme, noFile⟩, -⟩ := isName
  obtain ⟨unread, needsBase⟩ := reads.reference name noScheme
  rw [defaultPath, DucklakePath.fromStr, noFile, unread, needsBase]
  change Except.ok (DucklakePath.ensureDirectory directoryUrl (.relative name)) = _
  rw [DucklakePath.ensureDirectory, directoryName]
  split <;> rfl

theorem directoryName_ne_nil (name : Text) : directoryName name ≠ [] := by
  rw [directoryName]
  split
  · rintro rfl
    contradiction
  · simp

theorem reloadedPath_relative (name path : Text) (filled : path ≠ []) :
    reloadedPath urls name (.relative path) = .ok (.relative path) := by
  have kept : Ducklake.pathOrDefault path name = path := by
    unfold Ducklake.pathOrDefault
    rw [if_neg (by simpa using filled)]
  rw [reloadedPath, DucklakePath.display, kept]
  rfl

theorem loadedDataPath_eq (reads : urls.ReadsSchemes) (rules : Rules) (root : DucklakePath U)
    (schema table : Text) (isSchema : isPathName rules schema = true)
    (isTable : isPathName rules table = true) :
    loadedDataPath urls directoryUrl root schema table =
      createdDataPath urls directoryUrl root schema table := by
  rw [loadedDataPath, createdDataPath, defaultPath_eq directoryUrl reads rules schema isSchema,
    defaultPath_eq directoryUrl reads rules table isTable]
  change (do
      let schemaPath ← reloadedPath urls schema (.relative (directoryName schema))
      let tablePath ← reloadedPath urls table (.relative (directoryName table))
      Maintenance.tableDataPath urls.toUrls root schemaPath tablePath) = _
  rw [reloadedPath_relative schema _ (directoryName_ne_nil schema),
    reloadedPath_relative table _ (directoryName_ne_nil table)]

/-- A URL in the store of the data path, at a place below its root directory. -/
structure Located (urls : UrlParser U) (root url : U) (place : UrlPath) : Prop where
  scheme : (urls.parts url).scheme = (urls.parts root).scheme
  authority : (urls.parts url).authority = (urls.parts root).authority
  atPlace : UrlPath.ofText (urls.parts url).path = place
  text : (urls.parts url).path = place.text

theorem Located.inside_iff {root base url : U} {directory place : UrlPath}
    (below : Located urls root base directory) (located : Located urls root url place) :
    Inside (urls.parts base) (urls.parts url) ↔ Under directory.folder place := by
  rw [← below.atPlace, ← located.atPlace, ← UrlPath.under_iff _ _ (UrlPath.ofText_plain _).folder
    (UrlPath.ofText_plain _), located.atPlace, ← located.text, Inside]
  exact ⟨fun inside => inside.2.2, fun continues => ⟨located.scheme.trans below.scheme.symm,
    located.authority.trans below.authority.symm, continues⟩⟩

theorem Located.nested_iff {root url other : U} {place otherPlace : UrlPath}
    (located : Located urls root url place) (otherLocated : Located urls root other otherPlace) :
    Nested (urls.parts url) (urls.parts other) ↔
      place.folder <+: otherPlace.folder ∨ otherPlace.folder <+: place.folder := by
  have texts : ∀ first second : Text,
      directoryText (UrlPath.ofText first).folder <+: directoryText (UrlPath.ofText second).folder ↔
        (UrlPath.ofText first).folder <+: (UrlPath.ofText second).folder := by
    intro first second
    have holds := directoryText_prefix_iff (UrlPath.ofText first).folder
      (UrlPath.ofText second).folder [] (UrlPath.ofText_plain _).folder
      (UrlPath.ofText_plain _).folder (by simp)
    rwa [List.append_nil] at holds
  rw [Nested, texts, texts, located.atPlace, otherLocated.atPlace]
  exact ⟨fun nested => nested.2.2, fun prefixes => ⟨otherLocated.scheme.trans located.scheme.symm,
    otherLocated.authority.trans located.authority.symm, prefixes⟩⟩

variable {encode : Bool → Text → Text} (resolves : urls.ResolvesPaths encode)

include resolves

/-- Joining a path reference moves through the directories of the base. -/
theorem Located.join {root base : U} {place : UrlPath} (located : Located urls root base place)
    (hosted : (urls.parts root).authority.isSome = true)
    (noDrive : endsInDrive (urlRules encode (urls.parts root).scheme) place = false)
    (ref : Text)
    (isReference : isPathReference (urlRules encode (urls.parts root).scheme) ref = true) :
    ∃ url, (DucklakePath.absolute base).join urls.toUrls (.relative ref) = .ok (.absolute url) ∧
      Located urls root url ((urlRules encode (urls.parts root).scheme).resolve place
        (trimmedReference ref)) := by
  obtain ⟨url, success, scheme, authority, path⟩ := resolves.join base ref
    (by rw [located.authority]; exact hosted)
    (by rw [located.scheme, located.atPlace]; exact noDrive)
    (by rw [located.scheme]; exact isReference)
  rw [located.scheme, located.atPlace] at path
  have separated : (urlRules encode (urls.parts root).scheme).Separated :=
    ⟨resolves.separated _⟩
  have plain : place.Plain := by
    rw [← located.atPlace]
    exact UrlPath.ofText_plain _
  refine ⟨url, ?_, scheme.trans located.scheme, authority.trans located.authority, ?_, path⟩
  · rw [DucklakePath.join, success]
    rfl
  · rw [path, UrlPath.ofText_text _ (separated.resolve place plain _)]

theorem createdDataPath_located (reads : urls.ReadsSchemes) (root : U) (place : UrlPath)
    (located : Located urls root root place)
    (hosted : (urls.parts root).authority.isSome = true)
    (noDrive : endsInDrive (urlRules encode (urls.parts root).scheme) place = false)
    (schema table : Text)
    (isSchema : isPathName (urlRules encode (urls.parts root).scheme) schema = true)
    (isTable : isPathName (urlRules encode (urls.parts root).scheme) table = true)
    (schemaPlace : endsInDrive (urlRules encode (urls.parts root).scheme)
      ((urlRules encode (urls.parts root).scheme).resolve place
        (trimmedReference (directoryName schema))) = false) :
    ∃ url, createdDataPath urls directoryUrl (.absolute root) schema table = .ok (.absolute url) ∧
      Located urls root url
        (placeOf (urlRules encode (urls.parts root).scheme) place schema table) := by
  have reference : ∀ name, isPathName (urlRules encode (urls.parts root).scheme) name = true →
      isPathReference (urlRules encode (urls.parts root).scheme) (directoryName name) = true := by
    intro name isName
    rw [isPathName, Bool.and_eq_true] at isName
    exact isName.2
  obtain ⟨below, joined, schemaLocated⟩ :=
    located.join resolves hosted noDrive (directoryName schema) (reference schema isSchema)
  obtain ⟨url, joined', tableLocated⟩ :=
    schemaLocated.join resolves hosted schemaPlace (directoryName table) (reference table isTable)
  refine ⟨url, ?_, tableLocated⟩
  rw [createdDataPath, defaultPath_eq directoryUrl reads _ schema isSchema,
    defaultPath_eq directoryUrl reads _ table isTable]
  change ((DucklakePath.absolute root).join urls.toUrls (.relative (directoryName schema)) >>=
    fun dataPath => dataPath.join urls.toUrls (.relative (directoryName table))) = _
  rw [joined]
  exact joined'

/-- A generated file is in the data path of its table if its path leads into it. -/
theorem Located.file_iff (env : Environment) {root base : U} {place : UrlPath}
    (located : Located urls root base place)
    (hosted : (urls.parts root).authority.isSome = true)
    (noDrive : endsInDrive (urlRules encode (urls.parts root).scheme) place = false)
    (file : GeneratedFile)
    (isReference : isPathReference (urlRules encode (urls.parts root).scheme) (file.path env) =
      true) :
    (∃ location, file.location urls env (.absolute base) = .ok (.absolute location) ∧
        Inside (urls.parts base) (urls.parts location)) ↔
      Under place.folder ((urlRules encode (urls.parts root).scheme).resolve place
        (trimmedReference (file.path env))) := by
  obtain ⟨url, joined, fileLocated⟩ := located.join resolves hosted noDrive (file.path env) isReference
  rw [← located.inside_iff fileLocated]
  constructor
  · rintro ⟨location, success, inside⟩
    obtain rfl := DucklakePath.absolute.inj (Except.ok.inj (joined.symm.trans success))
    exact inside
  · intro inside
    exact ⟨url, joined, inside⟩

end

/-! ## Concrete tables -/

def isPathChar (c : Char) : Bool :=
  33 ≤ c.toNat && c.toNat < 127 && c.toNat ≠ 96 &&
    !(['"', '#', '<', '>', '?', '/', '{', '}'].contains c)

def encodeSegment (_ : Bool) (segment : Text) : Text :=
  percentEncode isPathChar segment

def resolvingParser : UrlParser UrlParts where
  parts := id
  parse text := if startsWithScheme (cleaned text) then UrlParts.ofText text else none
  needsBase text := !startsWithScheme (cleaned text)
  fromFilePath path := UrlParts.ofText ("file://".toList ++ path)
  join base ref :=
    let rules := urlRules encodeSegment base.scheme
    if isPathReference rules ref then
      some { Reference.ofText (trimmedReference ref) with
        scheme := base.scheme
        authority := base.authority
        path := (rules.resolve (UrlPath.ofText base.path) (trimmedReference ref)).text }
    else none
  hostStr := UrlParts.authority
  toFilePath url := if url.scheme = "file".toList then some url.path else none

theorem resolvingParser_readsSchemes : resolvingParser.ReadsSchemes where
  reference := by
    intro text reference
    exact ⟨if_neg (by simp [reference]), by simp [resolvingParser, reference]⟩
  absolute := by
    intro text scheme
    simp [resolvingParser, scheme]

theorem resolvingParser_resolvesPaths : resolvingParser.ResolvesPaths encodeSegment where
  separated _ segment _ :=
    notMem_percentEncode isPathChar segment '/' (by decide) (by decide) (by decide)
  join base ref _ _ isReference := by
    replace isReference : isPathReference (urlRules encodeSegment base.scheme) ref = true :=
      isReference
    exact ⟨_, if_pos isReference, rfl, rfl, rfl⟩

def lakeUrl : UrlParts :=
  ⟨⟨"/lake/".toList, none, none⟩, "s3".toList, some "bucket".toList⟩

def defaultTable (name : String) : DefaultTable where
  schema := "main".toList
  name := name.toList
  files := [⟨true, oneValue "city" "a/b c", someId⟩]

theorem defaultTable_relative (names : List String)
    (paths : names.all (fun name => isPathName (urlRules encodeSegment "s3".toList) name.toList) =
      true) :
    ∀ table ∈ names.map defaultTable,
      table.Relative (urlRules encodeSegment "s3".toList) varcharEnvironment
        (UrlPath.ofText "/lake/".toList) := by
  intro table member
  obtain ⟨name, inside, rfl⟩ := List.mem_map.mp member
  have schema : isPathName (urlRules encodeSegment "s3".toList) "main".toList = true := by decide
  refine ⟨schema, List.all_eq_true.mp paths name inside, fun file inFiles => ?_, rfl, rfl⟩
  rw [List.mem_singleton.mp inFiles]
  decide +kernel

end Ducklake.Io
