import Mathlib.Data.List.TakeWhile
import Ducklake.Environment
import Ducklake.Io.Path
import Ducklake.Lib.IndexMap
import Ducklake.Lib.Percent

/-!
# Paths of new data files

`utils/filepath_generator.rs`: files below the data path of a table, in directories that are named
after the values of the partition columns, and how a path is read when a file is registered.
-/

set_option autoImplicit false

namespace Ducklake.Io

open Lib

/-! ## Reading paths -/

/-- `Url::parse`, with the one error that makes a path relative. -/
structure UrlParser (U : Type) extends Urls U where
  /-- `ParseError::RelativeUrlWithoutBase` -/
  needsBase : Text → Bool

/-- A URL is read without the control characters and spaces in front of it, and without tabs and
newlines anywhere. -/
def cleaned (text : Text) : Text :=
  (text.dropWhile fun c => c.toNat ≤ 32).filter fun c => !(c = '\t' || c = '\n' || c = '\r')

/-- A text without a scheme is no URL but a reference to one, and other texts need no base. -/
structure UrlParser.ReadsSchemes {U : Type} (urls : UrlParser U) : Prop where
  reference : ∀ text, startsWithScheme (cleaned text) = false →
    urls.parse text = none ∧ urls.needsBase text = true
  absolute : ∀ text, startsWithScheme (cleaned text) = true → urls.needsBase text = false

def isSpecialScheme (scheme : Text) : Bool :=
  ["http", "https", "ws", "wss", "ftp", "file"].any fun special => scheme = special.toList

/-- The text starts with the scheme of a special URL, and may be relative to that URL in spite
of it. -/
def sharesScheme (scheme text : Text) : Bool :=
  isSpecialScheme scheme && ((cleaned text).takeWhile fun c => c ≠ ':').map Char.toLower = scheme

/-- The base plays no part where a text with a scheme is joined to it, unless it has that scheme. -/
structure UrlParser.JoinsSchemes {U : Type} (urls : UrlParser U) : Prop where
  join : ∀ base text, startsWithScheme (cleaned text) = true →
    sharesScheme (urls.parts base).scheme text = false → urls.join base text = urls.parse text

section

variable {U : Type} (urls : UrlParser U)

def DucklakePath.fromStr (path : Text) : DucklakeResult (DucklakePath U) :=
  if DucklakePath.isAbsoluteFile path then
    (DucklakePath.unwrap "Url::from_file_path" (urls.fromFilePath path)).map .absolute
  else
    match urls.parse path with
    | some url => .ok (.absolute url)
    | none =>
        if urls.needsBase path then .ok (.relative path)
        else .error (.parsing "invalid URL".toList)

/-! ## Generated paths -/

structure DataFilePathGenerator (U : Type) where
  basePath : DucklakePath U
  hiveFilePattern : Bool

/-- `ENCODE_SET`, by the characters that are not in it. -/
def isUnencoded (c : Char) : Bool :=
  c.isAlphanum || c = '-' || c = '_' || c = '.'

abbrev FileId := { text : Text // (text.all fun c => (hexValue c).isSome || c = '-') = true }

def lastPathComponent (id : FileId) : Text :=
  "ducklake-".toList ++ id.1 ++ ".parquet".toList

variable (env : Environment)

def component (entry : Text × Option Value) : Text :=
  entry.1 ++ '=' :: percentEncode isUnencoded (env.formatValueOpt entry.2)

/-- `generate_relative`, for a file that gets the id. -/
def DataFilePathGenerator.generateRelative (generator : DataFilePathGenerator U)
    (partitionValues : IndexMap Text (Option Value)) (id : FileId) : Text :=
  if partitionValues.isEmpty || !generator.hiveFilePattern then lastPathComponent id
  else ['/'].intercalate (partitionValues.entries.map (component env) ++ [lastPathComponent id])

/-- The path whose display `generate_absolute` returns. -/
def DataFilePathGenerator.absolutePath (generator : DataFilePathGenerator U)
    (partitionValues : IndexMap Text (Option Value)) (id : FileId) :
    DucklakeResult (DucklakePath U) :=
  generator.basePath.join urls.toUrls
    (.relative (generator.generateRelative env partitionValues id))

/-- Where `write_data_files` reads the file of a path. -/
def registeredPath (basePath : DucklakePath U) (path : Text) : DucklakeResult (DucklakePath U) :=
  DucklakePath.fromStr urls path >>= basePath.join urls.toUrls

/-! ## Decoding -/

/-- A component in front of the first equality sign, and the decoded text behind it. -/
def decodeComponent (component : Text) : Option (Text × Text) :=
  (splitOnce '=' component).bind fun parts =>
    (utf8Text (percentDecode parts.2)).map fun value => (parts.1, value)

/-- A path has one component for each column, by which it is read, and the file behind them. -/
def DecodesBack (path : Text) (partitionValues : IndexMap Text (Option Value)) (id : FileId) :
    Prop :=
  ∃ components, path.splitOn '/' = components ++ [lastPathComponent id] ∧
    components.map decodeComponent =
      partitionValues.entries.map fun entry => some (entry.1, env.formatValueOpt entry.2)

def SameLocation (generator : DataFilePathGenerator U)
    (partitionValues : IndexMap Text (Option Value)) (id : FileId) : Prop :=
  ∃ location, generator.absolutePath urls env partitionValues id = .ok location ∧
    registeredPath urls generator.basePath (generator.generateRelative env partitionValues id) =
      .ok location

/-! ## Components -/

theorem isUnencoded_sign : isUnencoded '%' = false := by
  decide

theorem isUnencoded_slash : isUnencoded '/' = false := by
  decide

theorem decodeComponent_component (entry : Text × Option Value) (plain : '=' ∉ entry.1) :
    decodeComponent (component env entry) = some (entry.1, env.formatValueOpt entry.2) := by
  rw [decodeComponent, component, splitOnce_append '=' _ _ plain, Option.bind_some,
    percentDecode_percentEncode _ isUnencoded_sign, utf8Text_utf8Bytes]
  rfl

theorem notMem_of_decodeComponent (component name value : Text)
    (decoded : decodeComponent component = some (name, value)) : '=' ∉ name := by
  obtain ⟨parts, split, decoded⟩ := Option.bind_eq_some_iff.mp decoded
  obtain ⟨text, -, same⟩ := Option.map_eq_some_iff.mp decoded
  obtain ⟨rfl, -⟩ := Prod.mk.inj same
  rw [splitOnce] at split
  split at split
  · rw [← Option.some.inj split]
    intro member
    have kept := @List.mem_takeWhile_imp _ (fun item => item != '=') _ _ member
    simp at kept
  · cases split

theorem slash_mem_component (entry : Text × Option Value) :
    '/' ∈ component env entry ↔ '/' ∈ entry.1 := by
  have encoded : '/' ∉ percentEncode isUnencoded (env.formatValueOpt entry.2) :=
    notMem_percentEncode isUnencoded _ '/' isUnencoded_slash (by decide) (by decide)
  rw [component, List.mem_append, List.mem_cons]
  exact ⟨fun member => by simpa [encoded] using member, Or.inl⟩

theorem notMem_lastPathComponent (id : FileId) (c : Char) (sign : hexValue c = none)
    (noHyphen : c ≠ '-') (front : c ∉ "ducklake-".toList) (back : c ∉ ".parquet".toList) :
    c ∉ lastPathComponent id := by
  intro member
  rcases List.mem_append.mp member with member | inBack
  · rcases List.mem_append.mp member with inFront | inId
    · exact front inFront
    · have digit := List.all_eq_true.mp id.2 c inId
      simp [sign, noHyphen] at digit
  · exact back inBack

theorem slash_notMem_lastPathComponent (id : FileId) : '/' ∉ lastPathComponent id :=
  notMem_lastPathComponent id '/' rfl (by decide) (by decide) (by decide)

theorem colon_notMem_lastPathComponent (id : FileId) : ':' ∉ lastPathComponent id :=
  notMem_lastPathComponent id ':' rfl (by decide) (by decide) (by decide)

/-! ## Decoding what was generated -/

theorem notMem_of_length_splitOn (sep : Char) (parts : List Text)
    (whole : (parts.flatMap fun part => part.splitOn sep).length = parts.length) :
    ∀ part ∈ parts, sep ∉ part := by
  have positive : ∀ part : Text, 0 < (part.splitOn sep).length :=
    fun part => List.length_pos_iff.mpr (List.splitOn_ne_nil sep part)
  have atLeast : ∀ parts : List Text,
      parts.length ≤ (parts.flatMap fun part => part.splitOn sep).length := by
    intro parts
    induction parts with
    | nil => exact Nat.le_refl _
    | cons part parts ih =>
        rw [List.flatMap_cons, List.length_append, List.length_cons]
        have := positive part
        omega
  induction parts with
  | nil => simp
  | cons part parts ih =>
      rw [List.flatMap_cons, List.length_append, List.length_cons] at whole
      have one := positive part
      have rest := atLeast parts
      intro other member
      rcases List.mem_cons.mp member with rfl | later
      · obtain ⟨single, isSingle⟩ := List.length_eq_one_iff.mp (show (other.splitOn sep).length = 1 by omega)
        intro inside
        have spec := @List.intercalate_splitOn _ other _ _ sep
        rw [isSingle] at spec
        have absent := notMem_of_mem_splitOn sep other single (by simp [isSingle])
        rw [← spec] at inside
        exact absent (by simpa using inside)
      · exact ih (by omega) other later

/-- The names of the directories leave the components as they are. -/
def HasPlainNames (partitionValues : IndexMap Text (Option Value)) : Prop :=
  ∀ name ∈ partitionValues.keys, '/' ∉ name ∧ '=' ∉ name

instance (partitionValues : IndexMap Text (Option Value)) :
    Decidable (HasPlainNames partitionValues) :=
  inferInstanceAs (Decidable (∀ name ∈ partitionValues.keys, '/' ∉ name ∧ '=' ∉ name))

theorem splitOn_components (partitionValues : IndexMap Text (Option Value)) (id : FileId) :
    (['/'].intercalate
        (partitionValues.entries.map (component env) ++ [lastPathComponent id])).splitOn '/' =
      (partitionValues.entries.map (component env)).flatMap (fun part => part.splitOn '/') ++
        [lastPathComponent id] := by
  rw [splitOn_intercalate_eq_flatMap '/' _ (by simp), List.flatMap_append, List.flatMap_singleton,
    List.splitOn_eq_singleton (slash_notMem_lastPathComponent id)]

theorem DataFilePathGenerator.id_of_generateRelative_eq (generator : DataFilePathGenerator U)
    (values others : IndexMap Text (Option Value)) (id other : FileId)
    (same : generator.generateRelative env values id =
      generator.generateRelative env others other) :
    id = other := by
  have last : ∀ values id,
      ((generator.generateRelative env values id).splitOn '/').getLast? =
        some (lastPathComponent id) := by
    intro values id
    rw [DataFilePathGenerator.generateRelative]
    split
    · rw [List.splitOn_eq_singleton (slash_notMem_lastPathComponent id)]
      rfl
    · rw [splitOn_components env values id, List.getLast?_concat]
  have components : lastPathComponent id = lastPathComponent other := by
    rw [← Option.some.injEq, ← last values id, same, last others other]
  exact Subtype.ext (List.append_cancel_left (List.append_cancel_right components))

theorem flatMap_splitOn_of_plain (partitionValues : IndexMap Text (Option Value))
    (plain : HasPlainNames partitionValues) :
    (partitionValues.entries.map (component env)).flatMap (fun part => part.splitOn '/') =
      partitionValues.entries.map (component env) := by
  have single : ∀ part ∈ partitionValues.entries.map (component env), part.splitOn '/' = [part] := by
    intro part member
    obtain ⟨entry, inside, rfl⟩ := List.mem_map.mp member
    apply List.splitOn_eq_singleton
    rw [slash_mem_component]
    exact (plain entry.1 (List.mem_map_of_mem inside)).1
  rw [List.flatMap_congr single]
  simp

theorem decodes_directories_iff (partitionValues : IndexMap Text (Option Value)) :
    ((partitionValues.entries.map (component env)).flatMap fun part => part.splitOn '/').map
        decodeComponent =
      partitionValues.entries.map (fun entry => some (entry.1, env.formatValueOpt entry.2)) ↔
      HasPlainNames partitionValues := by
  constructor
  · intro decoded name inside
    obtain ⟨entry, member, rfl⟩ := List.mem_map.mp inside
    have count := congrArg List.length decoded
    rw [List.length_map, List.length_map] at count
    have whole := notMem_of_length_splitOn '/' (partitionValues.entries.map (component env))
      (by rw [count, List.length_map])
    have slash : ∀ part ∈ partitionValues.entries.map (component env),
        part.splitOn '/' = [part] := fun part inParts => List.splitOn_eq_singleton (whole part inParts)
    rw [List.flatMap_congr slash] at decoded
    constructor
    · rw [← slash_mem_component env entry]
      exact whole _ (List.mem_map_of_mem member)
    · have same : decodeComponent (component env entry) =
          some (entry.1, env.formatValueOpt entry.2) := by
        have all : ∀ other ∈ partitionValues.entries, decodeComponent (component env other) =
            some (other.1, env.formatValueOpt other.2) := by
          simpa using decoded
        exact all entry member
      exact notMem_of_decodeComponent _ _ _ same
  · intro plain
    rw [flatMap_splitOn_of_plain env partitionValues plain, List.map_map]
    apply List.map_congr_left
    intro entry member
    exact decodeComponent_component env entry (plain entry.1 (List.mem_map_of_mem member)).2

/-- A path is decoded if the names of its directories have neither slashes nor equality signs. -/
theorem decodesBack_iff (generator : DataFilePathGenerator U)
    (partitionValues : IndexMap Text (Option Value)) (id : FileId) :
    DecodesBack env (generator.generateRelative env partitionValues id) partitionValues id ↔
      partitionValues.isEmpty = true ∨
        generator.hiveFilePattern = true ∧ HasPlainNames partitionValues := by
  rw [DecodesBack, DataFilePathGenerator.generateRelative]
  by_cases flat : (partitionValues.isEmpty || !generator.hiveFilePattern) = true
  · rw [if_pos flat, List.splitOn_eq_singleton (slash_notMem_lastPathComponent id)]
    constructor
    · rintro ⟨components, split, decoded⟩
      obtain rfl : components = [] := by
        simpa using (congrArg List.length split).symm
      left
      rw [IndexMap.isEmpty, List.map_eq_nil_iff.mp decoded.symm]
      rfl
    · intro allowed
      have empty : partitionValues.isEmpty = true := by
        rcases allowed with empty | ⟨hive, -⟩
        · exact empty
        · simpa [hive] using flat
      refine ⟨[], rfl, ?_⟩
      rw [List.isEmpty_iff.mp empty]
      rfl
  · rw [if_neg flat, splitOn_components env partitionValues id]
    simp only [Bool.or_eq_true, Bool.not_eq_true', not_or, Bool.not_eq_true] at flat
    obtain ⟨filled, hive⟩ := flat
    rw [Bool.not_eq_false] at hive
    rw [filled, hive, ← decodes_directories_iff env partitionValues]
    constructor
    · rintro ⟨components, split, decoded⟩
      obtain rfl := List.append_cancel_right split
      exact Or.inr ⟨rfl, decoded⟩
    · intro allowed
      exact ⟨_, rfl, (allowed.resolve_left (by simp)).2⟩

/-! ## References and URLs -/

theorem cleaned_append_sign (name rest : Text) :
    startsWithScheme (cleaned (name ++ '=' :: rest)) = startsWithScheme (cleaned name) := by
  have sign : ∀ front back : Text,
      startsWithScheme (front ++ '=' :: back) = startsWithScheme front := by
    intro front back
    cases front with
    | nil => rfl
    | cons c front =>
        rw [List.cons_append, startsWithScheme, startsWithScheme, List.dropWhile_append]
        split
        · rename_i passed
          rw [List.isEmpty_iff.mp passed]
          rfl
        · rename_i stopped
          rw [List.head?_append_of_ne_nil]
          simpa using stopped
  rw [cleaned, cleaned, List.dropWhile_append]
  split
  · rename_i blank
    rw [List.isEmpty_iff.mp blank]
    rfl
  · rw [List.filter_append]
    exact sign _ _

theorem startsWithScheme_of_notMem (text : Text) (noColon : ':' ∉ text) :
    startsWithScheme (cleaned text) = false := by
  have absent : ':' ∉ cleaned text := by
    intro member
    exact noColon ((List.dropWhile_sublist _).subset (List.mem_of_mem_filter member))
  cases shape : cleaned text with
  | nil => rfl
  | cons c rest =>
      rw [startsWithScheme, Bool.and_eq_false_iff]
      right
      rw [decide_eq_false_iff_not]
      intro colon
      have inside := (List.dropWhile_sublist _).subset (List.mem_of_mem_head? colon)
      exact absent (by rw [shape]; exact List.mem_cons_of_mem _ inside)

/-- The first directory starts with the scheme of a URL. -/
def DataFilePathGenerator.startsLikeUrl (generator : DataFilePathGenerator U)
    (partitionValues : IndexMap Text (Option Value)) : Bool :=
  generator.hiveFilePattern &&
    partitionValues.keys.head?.any fun name => startsWithScheme (cleaned name)

theorem startsWithScheme_generateRelative (generator : DataFilePathGenerator U)
    (partitionValues : IndexMap Text (Option Value)) (id : FileId) :
    startsWithScheme (cleaned (generator.generateRelative env partitionValues id)) =
      generator.startsLikeUrl partitionValues := by
  have last := startsWithScheme_of_notMem _ (colon_notMem_lastPathComponent id)
  rw [DataFilePathGenerator.generateRelative, DataFilePathGenerator.startsLikeUrl,
    IndexMap.isEmpty, IndexMap.keys]
  cases partitionValues.entries with
  | nil => simp [last]
  | cons entry entries =>
      cases generator.hiveFilePattern with
      | false => simp [last]
      | true =>
          simp only [List.isEmpty_cons, Bool.not_true, Bool.or_self, Bool.false_eq_true, if_false,
            List.map_cons, List.cons_append, List.head?_cons, Option.any_some, Bool.true_and]
          rw [intercalate_cons_eq_append, component, List.append_assoc, List.cons_append]
          exact cleaned_append_sign _ _

/-- Without slashes in its names, a path does not start at the root of the file system. -/
theorem not_isAbsoluteFile (generator : DataFilePathGenerator U)
    (partitionValues : IndexMap Text (Option Value)) (id : FileId)
    (plain : partitionValues.isEmpty = true ∨
      generator.hiveFilePattern = true ∧ HasPlainNames partitionValues) :
    DucklakePath.isAbsoluteFile (generator.generateRelative env partitionValues id) = false := by
  apply decide_eq_false
  rw [DataFilePathGenerator.generateRelative]
  split
  · exact fun slash => slash_notMem_lastPathComponent id (List.mem_of_mem_head? slash)
  · rename_i nested
    simp only [Bool.or_eq_true, not_or] at nested
    have names := (plain.resolve_left nested.1).2
    rw [IndexMap.isEmpty] at nested
    rw [HasPlainNames, IndexMap.keys] at names
    cases shape : partitionValues.entries with
    | nil => exact absurd (by rw [shape]; rfl) nested.1
    | cons entry entries =>
        rw [List.map_cons, List.cons_append, intercalate_cons_eq_append, component]
        cases name : entry.1 with
        | nil => exact fun slash => absurd (Option.some.inj slash) (by decide)
        | cons c rest =>
            have noSlash := (names entry.1 (by simp [shape])).1
            rw [name] at noSlash
            exact fun slash => noSlash (List.mem_of_mem_head? slash)

/-- Reading a path before it is resolved makes no difference: the path is a reference, or a URL that
can be read.  Only one with the scheme of the base can be read and still be another URL. -/
def ResolvesAlike (generator : DataFilePathGenerator U)
    (partitionValues : IndexMap Text (Option Value)) (id : FileId) : Prop :=
  match generator.basePath with
  | .relative base => base.getLast? = some '/' ∧ generator.startsLikeUrl partitionValues = false
  | .absolute base =>
      let path := generator.generateRelative env partitionValues id
      (generator.startsLikeUrl partitionValues = false → (urls.join base path).isSome = true) ∧
        (generator.startsLikeUrl partitionValues = true → (urls.parse path).isSome = true ∧
          (sharesScheme (urls.parts base).scheme path = true →
            urls.join base path = urls.parse path))

variable {urls}

theorem registeredPath_of_reference
    (reads : urls.ReadsSchemes)
    (basePath : DucklakePath U)
    (path : Text)
    (notFile : DucklakePath.isAbsoluteFile path = false)
    (reference : startsWithScheme (cleaned path) = false) :
    registeredPath urls basePath path = basePath.join urls.toUrls (.relative path) := by
  obtain ⟨unread, needsBase⟩ := reads.reference path reference
  rw [registeredPath, DucklakePath.fromStr, notFile, unread, needsBase]
  rfl

theorem registeredPath_of_scheme
    (reads : urls.ReadsSchemes)
    (basePath location : DucklakePath U)
    (path : Text)
    (notFile : DucklakePath.isAbsoluteFile path = false)
    (scheme : startsWithScheme (cleaned path) = true) :
    registeredPath urls basePath path = .ok location ↔
      ∃ url, urls.parse path = some url ∧ location = .absolute url := by
  have noBase := reads.absolute path scheme
  rw [registeredPath, DucklakePath.fromStr, notFile]
  cases urls.parse path with
  | none =>
      simp only [Bool.false_eq_true, if_false, noBase]
      constructor
      · intro failed
        cases failed
      · rintro ⟨_, read, -⟩
        cases read
  | some url =>
      change Except.ok (DucklakePath.absolute url) = Except.ok location ↔ _
      constructor
      · intro same
        exact ⟨url, rfl, (Except.ok.inj same).symm⟩
      · rintro ⟨_, read, rfl⟩
        rw [Option.some.inj read]

theorem join_absolute_iff (base : U) (path : Text) (location : DucklakePath U) :
    (DucklakePath.absolute base).join urls.toUrls (.relative path) = .ok location ↔
      ∃ url, urls.join base path = some url ∧ location = .absolute url := by
  rw [DucklakePath.join]
  cases urls.join base path with
  | none =>
      constructor
      · intro failed
        cases failed
      · rintro ⟨_, resolved, -⟩
        cases resolved
  | some url =>
      change Except.ok (DucklakePath.absolute url) = Except.ok location ↔ _
      constructor
      · intro same
        exact ⟨url, rfl, (Except.ok.inj same).symm⟩
      · rintro ⟨_, resolved, rfl⟩
        rw [Option.some.inj resolved]

theorem join_relative_iff (base path : Text) (location : DucklakePath U) :
    (DucklakePath.relative base).join urls.toUrls (.relative path) = .ok location ↔
      base.getLast? = some '/' ∧ location = .relative (base ++ path) := by
  rw [DucklakePath.join]
  split_ifs with slash
  · rw [Except.ok.injEq]
    exact ⟨fun same => ⟨slash, same.symm⟩, fun same => same.2.symm⟩
  · simp [slash]

theorem sameLocation_iff
    (reads : urls.ReadsSchemes)
    (joins : urls.JoinsSchemes)
    (generator : DataFilePathGenerator U)
    (partitionValues : IndexMap Text (Option Value))
    (id : FileId)
    (plain : partitionValues.isEmpty = true ∨
      generator.hiveFilePattern = true ∧ HasPlainNames partitionValues) :
    SameLocation urls env generator partitionValues id ↔
      ResolvesAlike urls env generator partitionValues id := by
  have notFile := not_isAbsoluteFile env generator partitionValues id plain
  have scheme := startsWithScheme_generateRelative env generator partitionValues id
  rw [SameLocation, ResolvesAlike, DataFilePathGenerator.absolutePath, ← scheme]
  generalize generator.generateRelative env partitionValues id = path at notFile ⊢
  cases like : startsWithScheme (cleaned path) with
  | false =>
      simp only [registeredPath_of_reference reads _ _ notFile like, and_self]
      cases generator.basePath with
      | relative base => simp [join_relative_iff]
      | absolute base => simp [join_absolute_iff, Option.isSome_iff_exists]
  | true =>
      simp only [registeredPath_of_scheme reads _ _ _ notFile like]
      cases generator.basePath with
      | relative base => simp [join_relative_iff]
      | absolute base =>
          simp only [join_absolute_iff, Option.isSome_iff_exists]
          constructor
          · rintro ⟨_, ⟨url, resolved, rfl⟩, _, read, same⟩
            rw [DucklakePath.absolute.inj same] at resolved
            exact ⟨fun reference => absurd reference (by simp),
              fun _ => ⟨⟨_, read⟩, fun _ => resolved.trans read.symm⟩⟩
          · rintro ⟨_, accepted⟩
            obtain ⟨⟨url, read⟩, alike⟩ := accepted trivial
            have resolved : urls.join base path = urls.parse path := by
              cases shares : sharesScheme (urls.parts base).scheme path with
              | false => exact joins.join base path like shares
              | true => exact alike shares
            exact ⟨.absolute url, ⟨url, resolved.trans read, rfl⟩, url, read, rfl⟩

/-- A generated path is decoded and found again if the names of its directories are plain, and the
path is a reference, or a URL that the base does not change. -/
theorem generatedPath_roundTrip_iff
    (reads : urls.ReadsSchemes)
    (joins : urls.JoinsSchemes)
    (generator : DataFilePathGenerator U)
    (partitionValues : IndexMap Text (Option Value))
    (id : FileId) :
    DecodesBack env (generator.generateRelative env partitionValues id) partitionValues id ∧
        SameLocation urls env generator partitionValues id ↔
      (partitionValues.isEmpty = true ∨
          generator.hiveFilePattern = true ∧ HasPlainNames partitionValues) ∧
        ResolvesAlike urls env generator partitionValues id := by
  rw [decodesBack_iff env generator partitionValues id]
  apply and_congr_right
  intro plain
  exact sameLocation_iff env reads joins generator partitionValues id plain

end

/-! ## Concrete paths -/

def plainParser : UrlParser { url : UrlParts // url.WellFormed } where
  toUrls := {
    Urls.plain with
    parse := fun text => if startsWithScheme (cleaned text) then Urls.plainParse text else none
    join := fun base ref =>
      if startsWithScheme (cleaned ref) then Urls.plainParse ref else Urls.plain.join base ref }
  needsBase := fun text => !startsWithScheme (cleaned text)

theorem plainParser_readsSchemes : plainParser.ReadsSchemes where
  reference := by
    intro text reference
    exact ⟨if_neg (by simp [reference]), by simp [plainParser, reference]⟩
  absolute := by
    intro text scheme
    simp [plainParser, scheme]

theorem plainParser_joinsSchemes : plainParser.JoinsSchemes where
  join base text scheme _ := by
    change (if startsWithScheme (cleaned text) then _ else _) =
      if startsWithScheme (cleaned text) then _ else _
    rw [if_pos scheme, if_pos scheme]

def warehouse : DataFilePathGenerator { url : UrlParts // url.WellFormed } where
  basePath := .absolute
    ⟨⟨⟨"/lake/".toList, none, none⟩, "s3".toList, some "bucket".toList⟩, by decide⟩
  hiveFilePattern := true

def varcharEnvironment : Environment :=
  { Environment.plain with
    formatValue := fun value => match value with
      | .scalar (.varchar text) => text
      | _ => [] }

def oneValue (name value : String) : IndexMap Text (Option Value) :=
  .ofList [(name.toList, some (.scalar (.varchar value.toList)))]

def someId : FileId :=
  ⟨"0199-7a".toList, by decide⟩

theorem generatedPath_roundTrip_iff_city :
    DecodesBack varcharEnvironment
        (warehouse.generateRelative varcharEnvironment (oneValue "city" "a/b c") someId)
        (oneValue "city" "a/b c") someId ∧
      SameLocation plainParser varcharEnvironment warehouse (oneValue "city" "a/b c") someId :=
  (generatedPath_roundTrip_iff varcharEnvironment plainParser_readsSchemes plainParser_joinsSchemes
    warehouse (oneValue "city" "a/b c") someId).mpr
      ⟨by decide, fun _ => by decide, fun scheme => absurd scheme (by decide)⟩

/-- The name of a column with a slash becomes two directories. -/
theorem not_roundTrip_slashed :
    warehouse.generateRelative varcharEnvironment (oneValue "a/b" "x") someId =
        "a/b=x/ducklake-0199-7a.parquet".toList ∧
      ¬ (DecodesBack varcharEnvironment
          (warehouse.generateRelative varcharEnvironment (oneValue "a/b" "x") someId)
          (oneValue "a/b" "x") someId ∧
        SameLocation plainParser varcharEnvironment warehouse (oneValue "a/b" "x") someId) := by
  refine ⟨by decide, fun holds => ?_⟩
  have plain := (decodesBack_iff varcharEnvironment warehouse _ _).mp holds.1
  exact absurd plain (by decide)

end Ducklake.Io
