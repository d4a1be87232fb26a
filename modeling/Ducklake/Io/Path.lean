import Ducklake.Error
import Ducklake.Lib.Except
import Ducklake.Lib.Url

/-!
# Paths

`io/path.rs`: the paths that the catalog stores and the objects they stand for.  The URLs are those
of the `url` crate.
-/

set_option autoImplicit false

namespace Ducklake.Io

open Lib

/-! ## URLs -/

/-- The functions of the `url` crate.  `U` are its URLs. -/
structure Urls (U : Type) where
  parts : U → UrlParts
  /-- `Url::parse` -/
  parse : Text → Option U
  /-- `Url::from_file_path` -/
  fromFilePath : Text → Option U
  /-- `Url::join` -/
  join : U → Text → Option U
  /-- `Url::host_str` -/
  hostStr : U → Option Text
  /-- `Url::to_file_path` -/
  toFilePath : U → Option Text

namespace Urls

variable {U : Type} (urls : Urls U)

/-- `Url::as_str` -/
def text (url : U) : Text :=
  (urls.parts url).text

/-- What the crate documents of the texts of its URLs and of references to a directory.  A reference
that ends the text of a URL is in its normal form. -/
structure Standard : Prop where
  wellFormed : ∀ url, (urls.parts url).WellFormed
  parse_text : ∀ url, urls.parse (urls.text url) = some url
  /-- A relative path goes behind the path of the base. -/
  join_path : ∀ base url rest, (urls.parts base).IsDirectory →
    urls.text url = urls.text base ++ rest →
      isRelativePath (urls.parts base).scheme rest = true → ∃ joined, urls.join base rest = some joined ∧
        (urls.parts joined).scheme = (urls.parts base).scheme ∧
        (urls.parts joined).authority = (urls.parts base).authority ∧
        (urls.parts joined).path = (urls.parts base).path ++ (Reference.ofText rest).path ∧
        (urls.parts joined).query = (Reference.ofText rest).query ∧
        (urls.parts joined).fragment = (Reference.ofText rest).fragment
  /-- Any other reference takes the place of the base's path, or loses its own start. -/
  join_other : ∀ base url rest joined, (urls.parts base).IsDirectory →
    urls.text url = urls.text base ++ rest →
      isRelativePath (urls.parts base).scheme rest = false → urls.join base rest = some joined →
        (urls.parts joined).path.length <
          (urls.parts base).path.length + (Reference.ofText rest).path.length

variable {urls}

theorem Standard.text_injective
    (standard : urls.Standard)
    (url other : U)
    (same : urls.text url = urls.text other) :
    url = other := by
  have parsed := standard.parse_text url
  rw [same, standard.parse_text other] at parsed
  exact (Option.some.inj parsed).symm

/-- A URL whose text continues that of a directory is what the rest resolves to, if the rest is a
relative path. -/
theorem Standard.join_eq_iff
    (standard : urls.Standard)
    (base url : U)
    (directory : (urls.parts base).IsDirectory)
    (rest : Text)
    (continues : urls.text url = urls.text base ++ rest) :
    urls.join base rest = some url ↔ isRelativePath (urls.parts base).scheme rest = true := by
  have parts := UrlParts.eq_of_text_append _ _ (standard.wellFormed base) (standard.wellFormed url)
    directory rest continues
  constructor
  · intro joined
    by_contra other
    have shorter := standard.join_other base url rest url directory continues (by simpa using other)
      joined
    rw [parts, List.length_append] at shorter
    omega
  · intro relative
    obtain ⟨joined, success, scheme, authority, path, query, fragment⟩ :=
      standard.join_path base url rest directory continues relative
    have same : urls.parts joined = urls.parts url := by
      rw [parts, ← scheme, ← authority, ← path, ← query, ← fragment]
    rw [success, standard.text_injective joined url (congrArg UrlParts.text same)]

/-! ## URLs without normalisation -/

/-- For runs on concrete inputs: the texts are in their normal form, and no reference has an
authority of its own. -/
def plainParse (text : Text) : Option { url : UrlParts // url.WellFormed } :=
  (UrlParts.ofText text).bind fun url =>
    if wellFormed : url.WellFormed then some ⟨url, wellFormed⟩ else none

def directoryPath (path : Text) : Text :=
  (path.reverse.dropWhile fun c => c != '/').reverse

def plain : Urls { url : UrlParts // url.WellFormed } where
  parts := Subtype.val
  parse := plainParse
  fromFilePath path := plainParse ("file://".toList ++ path)
  join base ref :=
    if isRelativePath base.val.scheme ref = true then
      plainParse (base.val.origin ++ directoryPath base.val.path ++ ref)
    else if startsWithScheme ref = true then plainParse ref
    else if ['/', '/'] <+: ref ∨ ref.head? ≠ some '/' then none
    else plainParse (base.val.origin ++ ref)
  hostStr url := url.val.authority
  toFilePath url := if url.val.scheme = "file".toList then some url.val.path else none

theorem plainParse_eq_some
    (text : Text)
    (url : { url : UrlParts // url.WellFormed })
    (parsed : plainParse text = some url) :
    UrlParts.ofText text = some url.val := by
  obtain ⟨parts, ofText, found⟩ := Option.bind_eq_some_iff.mp parsed
  split at found
  · obtain rfl := Option.some.inj found
    exact ofText
  · cases found

theorem plainParse_text (url : { url : UrlParts // url.WellFormed }) :
    plainParse url.val.text = some url := by
  rw [plainParse, UrlParts.ofText_text _ url.property, Option.bind_some, dif_pos url.property]

theorem directoryPath_eq
    (path : Text)
    (slash : path.getLast? = some '/') :
    directoryPath path = path := by
  obtain ⟨front, rfl⟩ := List.getLast?_eq_some_iff.mp slash
  simp [directoryPath]

theorem plain_standard : plain.Standard := by
  have shape : ∀ base : { url : UrlParts // url.WellFormed }, base.val.IsDirectory →
      base.val.text = base.val.origin ++ base.val.path := by
    intro base directory
    rw [UrlParts.text, Reference.text, directory.query, directory.fragment]
    simp [behind]
  constructor
  case wellFormed => exact Subtype.property
  case parse_text => exact plainParse_text
  case join_path =>
    intro base url rest directory continues relative
    replace directory : base.val.IsDirectory := directory
    have parts := UrlParts.eq_of_text_append _ _ base.property url.property directory rest continues
    refine ⟨url, ?_, ?_⟩
    · change (if isRelativePath base.val.scheme rest = true then _ else _) = some url
      rw [if_pos (show isRelativePath base.val.scheme rest = true from relative), directoryPath_eq _ directory.slash, ← shape base directory]
      exact (congrArg plainParse continues).symm.trans (plainParse_text url)
    · change url.val.scheme = _ ∧ url.val.authority = _ ∧ url.val.path = _ ∧ url.val.query = _ ∧
        url.val.fragment = _
      rw [parts]
      exact ⟨rfl, rfl, rfl, rfl, rfl⟩
  case join_other =>
    intro base url rest joined directory _ other success
    replace directory : base.val.IsDirectory := directory
    have positive : 0 < base.val.path.length := by
      refine List.length_pos_iff.mpr fun empty => ?_
      have last := directory.slash
      rw [empty] at last
      cases last
    change (if isRelativePath base.val.scheme rest = true then _ else _) = some joined at success
    rw [if_neg (by rw [show isRelativePath base.val.scheme rest = false from other]; simp)] at success
    change joined.val.path.length < base.val.path.length + _
    split_ifs at success with scheme missing
    · have text := UrlParts.text_ofText _ _ (plainParse_eq_some rest joined success)
      have path := joined.val.reference_text joined.property
      rw [text] at path
      rw [path, List.length_append]
      omega
    · obtain ⟨_, slash⟩ := not_or.mp missing
      obtain ⟨tail, rfl⟩ := List.head?_eq_some_iff.mp (not_not.mp slash)
      obtain ⟨host, authority⟩ := Option.isSome_iff_exists.mp directory.rooted
      have parsed := plainParse_eq_some _ joined success
      have origin : base.val.origin ++ '/' :: tail =
          base.val.scheme ++ ':' :: '/' :: '/' :: (host ++ '/' :: tail) := by
        rw [UrlParts.origin, authority]
        simp
      rw [origin, UrlParts.ofText_rooted _ _ _ (base.property.notMem_scheme ':' rfl)
        (base.property.authority host authority) (Or.inr ⟨'/', tail, rfl, rfl⟩)] at parsed
      rw [← Option.some.inj parsed]
      dsimp only
      omega

end Urls

/-! ## Stored paths -/

/-- A path with its URL.  The catalog keeps the text of the URL. -/
inductive DucklakePath (U : Type) where
  | absolute (url : U)
  | relative (path : Text)
  deriving DecidableEq

namespace DucklakePath

variable {U : Type} (urls : Urls U)

/-- `std::path::Path::is_absolute` -/
def isAbsoluteFile (path : Text) : Bool :=
  path.head? = some '/'

def unwrap {α : Type} (site : String) : Option α → DucklakeResult α
  | some value => .ok value
  | none => .error (.panicked site.toList)

def new (path : Text) (isRelative : Bool) : DucklakeResult (DucklakePath U) :=
  if isRelative then .ok (.relative path)
  else if isAbsoluteFile path then
    (unwrap "Url::from_file_path" (urls.fromFilePath path)).map .absolute
  else (unwrap "Invalid URL" (urls.parse path)).map .absolute

def join : DucklakePath U → DucklakePath U → DucklakeResult (DucklakePath U)
  | _, .absolute other => .ok (.absolute other)
  | .absolute base, .relative other => (unwrap "Url::join" (urls.join base other)).map .absolute
  | .relative base, .relative other =>
      if base.getLast? = some '/' then .ok (.relative (base ++ other))
      else .error (.panicked "assertion failed: base.ends_with(\"/\")".toList)

def isRelative : DucklakePath U → Bool
  | .relative _ => true
  | .absolute _ => false

/-- `as_str`, which is also the display. -/
def display : DucklakePath U → Text
  | .absolute url => urls.text url
  | .relative path => path

variable {urls}

theorem new_display
    (standard : urls.Standard)
    (path : DucklakePath U) :
    new urls (path.display urls) path.isRelative = .ok path := by
  cases path with
  | relative path => rfl
  | absolute url =>
      have notFile : isAbsoluteFile (urls.text url) = false := by
        obtain ⟨c, rest, scheme, letter⟩ := (standard.wellFormed url).letter
        have first : (urls.text url).head? = some c := by
          rw [Urls.text, UrlParts.text, UrlParts.origin, scheme]
          rfl
        rw [isAbsoluteFile, first]
        refine decide_eq_false fun slash => ?_
        rw [Option.some.inj slash] at letter
        cases letter
      rw [display, new, isRelative, notFile, standard.parse_text url]
      rfl

end DucklakePath

end Ducklake.Io
