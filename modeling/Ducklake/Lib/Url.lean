import Ducklake.Lib.Lists

/-!
# URLs

The parts of a URL's text, and the references that stand behind a directory.
-/

set_option autoImplicit false

namespace Ducklake.Lib

/-! ## Separators -/

/-- What stands in front of the first separator, and what stands behind it. -/
def cut (sep : Char) (text : List Char) : List Char × Option (List Char) :=
  match splitOnce sep text with
  | some (front, back) => (front, some back)
  | none => (text, none)

def behind (sep : Char) : Option (List Char) → List Char
  | some part => sep :: part
  | none => []

section

variable {sep : Char}

theorem cut_of_notMem (text : List Char) (absent : sep ∉ text) : cut sep text = (text, none) := by
  rw [cut, splitOnce, if_neg (by simpa using absent)]

theorem cut_append_behind
    (front : List Char)
    (part : Option (List Char))
    (absent : sep ∉ front) :
    cut sep (front ++ behind sep part) = (front, part) := by
  cases part with
  | none =>
      rw [behind, List.append_nil]
      exact cut_of_notMem front absent
  | some back => rw [cut, behind, splitOnce_append sep front back absent]

theorem exists_behind (text : List Char) :
    ∃ front part, sep ∉ front ∧ text = front ++ behind sep part := by
  induction text with
  | nil => exact ⟨[], none, by simp, rfl⟩
  | cons c rest ih =>
      by_cases here : c = sep
      · exact ⟨[], some rest, by simp, by rw [here]; rfl⟩
      · obtain ⟨front, part, absent, rfl⟩ := ih
        refine ⟨c :: front, part, ?_, rfl⟩
        rw [List.mem_cons, not_or]
        exact ⟨fun same => here same.symm, absent⟩

theorem cut_append
    (front back : List Char)
    (absent : sep ∉ front) :
    cut sep (front ++ back) = (front ++ (cut sep back).1, (cut sep back).2) := by
  obtain ⟨middle, part, missing, rfl⟩ := @exists_behind sep back
  rw [cut_append_behind middle part missing, ← List.append_assoc]
  exact cut_append_behind _ _ (by simp [absent, missing])

theorem append_behind_cut (text : List Char) :
    (cut sep text).1 ++ behind sep (cut sep text).2 = text := by
  obtain ⟨front, part, absent, rfl⟩ := @exists_behind sep text
  rw [cut_append_behind front part absent]

end

def stripPrefix (start text : List Char) : Option (List Char) :=
  if start <+: text then some (text.drop start.length) else none

theorem stripPrefix_eq_some_iff (start text rest : List Char) :
    stripPrefix start text = some rest ↔ text = start ++ rest := by
  rw [stripPrefix]
  constructor
  · intro stripped
    split_ifs at stripped with starts
    obtain ⟨tail, rfl⟩ := starts
    rw [← Option.some.inj stripped, List.drop_left]
  · rintro rfl
    rw [if_pos (List.prefix_append start rest), List.drop_left]

/-! ## References -/

structure Reference where
  path : List Char
  query : Option (List Char)
  fragment : Option (List Char)
  deriving DecidableEq

namespace Reference

def text (ref : Reference) : List Char :=
  ref.path ++ behind '?' ref.query ++ behind '#' ref.fragment

def ofText (text : List Char) : Reference :=
  let front := cut '#' text
  let path := cut '?' front.1
  { path := path.1, query := path.2, fragment := front.2 }

structure WellFormed (ref : Reference) : Prop where
  path : '?' ∉ ref.path ∧ '#' ∉ ref.path
  query : '#' ∉ behind '?' ref.query

theorem ofText_text
    (ref : Reference)
    (wellFormed : ref.WellFormed) :
    ofText ref.text = ref := by
  have absent : '#' ∉ ref.path ++ behind '?' ref.query := by
    simp [wellFormed.path.2, wellFormed.query]
  rw [ofText, text, cut_append_behind _ ref.fragment absent]
  dsimp only
  rw [cut_append_behind ref.path ref.query wellFormed.path.1]

theorem text_ofText (text : List Char) : (ofText text).text = text := by
  rw [ofText, Reference.text]
  dsimp only
  rw [append_behind_cut, append_behind_cut]

theorem not_slashes_text
    (ref : Reference)
    (single : ¬ ['/', '/'] <+: ref.path) :
    ¬ ['/', '/'] <+: ref.text := by
  have next : (behind '?' ref.query ++ behind '#' ref.fragment).head? ≠ some '/' := by
    cases ref.query <;> cases ref.fragment <;> simp [behind]
  rw [text, List.append_assoc]
  rintro ⟨rest, slashes⟩
  cases path : ref.path with
  | nil =>
      rw [path, List.nil_append] at slashes
      exact next (by rw [← slashes]; rfl)
  | cons c tail =>
      rw [path] at slashes single
      obtain ⟨rfl, second⟩ := List.cons.inj slashes
      cases tail with
      | nil => exact next ((congrArg List.head? second).symm)
      | cons d tail =>
          obtain ⟨same, _⟩ := List.cons.inj second
          exact single ⟨tail, by rw [← same]; rfl⟩

theorem ofText_append
    (front back : List Char)
    (noQuery : '?' ∉ front)
    (noFragment : '#' ∉ front) :
    ofText (front ++ back) = { ofText back with path := front ++ (ofText back).path } := by
  rw [ofText, cut_append front back noFragment]
  dsimp only
  rw [cut_append front _ noQuery]
  rfl

end Reference

/-! ## The parts of a URL -/

structure UrlParts extends Reference where
  scheme : List Char
  /-- The user, host and port, for a URL that has two slashes behind its scheme. -/
  authority : Option (List Char)
  deriving DecidableEq

def isSchemeChar (c : Char) : Bool :=
  c.isAlphanum || c = '+' || c = '-' || c = '.'

def endsAuthority (c : Char) : Bool :=
  c = '/' || c = '?' || c = '#'

namespace UrlParts

def origin (url : UrlParts) : List Char :=
  url.scheme ++ ':' :: (match url.authority with
    | some authority => '/' :: '/' :: authority
    | none => [])

def text (url : UrlParts) : List Char :=
  url.origin ++ url.toReference.text

structure WellFormed (url : UrlParts) : Prop where
  scheme : ∀ c ∈ url.scheme, isSchemeChar c = true
  letter : ∃ c rest, url.scheme = c :: rest ∧ c.isAlpha = true
  authority : ∀ authority ∈ url.authority, ∀ c ∈ authority, endsAuthority c = false
  rooted : url.authority.isSome = true → url.path = [] ∨ url.path.head? = some '/'
  unrooted : url.authority = none → ¬ ['/', '/'] <+: url.path
  reference : url.toReference.WellFormed

theorem wellFormed_iff (url : UrlParts) :
    url.WellFormed ↔ url.scheme.all isSchemeChar = true ∧
      url.scheme.head?.any Char.isAlpha = true ∧
      (url.authority.getD []).any endsAuthority = false ∧
      (url.authority.isSome = true → url.path = [] ∨ url.path.head? = some '/') ∧
      (url.authority = none → ¬ ['/', '/'] <+: url.path) ∧
      ('?' ∉ url.path ∧ '#' ∉ url.path) ∧ '#' ∉ behind '?' url.query := by
  constructor
  · rintro ⟨scheme, ⟨c, rest, shape, letter⟩, authority, rooted, unrooted, path, query⟩
    refine ⟨List.all_eq_true.mpr scheme, by rw [shape]; exact letter, ?_, rooted, unrooted, path,
      query⟩
    cases host : url.authority with
    | none => rfl
    | some host_ => simpa [List.any_eq_false] using authority host_ host
  · rintro ⟨scheme, letter, authority, rooted, unrooted, path, query⟩
    refine ⟨List.all_eq_true.mp scheme, ?_, ?_, rooted, unrooted, path, query⟩
    · cases shape : url.scheme with
      | nil => simp [shape] at letter
      | cons c rest => exact ⟨c, rest, rfl, by simpa [shape] using letter⟩
    · intro host isHost
      rw [Option.mem_def.mp isHost] at authority
      simpa [List.any_eq_false] using authority

instance (url : UrlParts) : Decidable url.WellFormed :=
  decidable_of_iff _ (wellFormed_iff url).symm

theorem WellFormed.notMem_scheme
    {url : UrlParts}
    (wellFormed : url.WellFormed)
    (c : Char)
    (sep : isSchemeChar c = false) :
    c ∉ url.scheme := by
  intro member
  rw [wellFormed.scheme c member] at sep
  cases sep

def ofText (text : List Char) : Option UrlParts :=
  (splitOnce ':' text).map fun split =>
    if ['/', '/'] <+: split.2 then
      let rest := split.2.drop 2
      { Reference.ofText (rest.dropWhile fun c => !endsAuthority c) with
        scheme := split.1
        authority := some (rest.takeWhile fun c => !endsAuthority c) }
    else { Reference.ofText split.2 with scheme := split.1, authority := none }

def EndsAuthority (rest : List Char) : Prop :=
  rest = [] ∨ ∃ c tail, rest = c :: tail ∧ endsAuthority c = true

theorem ofText_rooted
    (scheme authority rest : List Char)
    (noColon : ':' ∉ scheme)
    (inside : ∀ c ∈ authority, endsAuthority c = false)
    (ends : EndsAuthority rest) :
    ofText (scheme ++ ':' :: '/' :: '/' :: (authority ++ rest)) =
      some { Reference.ofText rest with scheme := scheme, authority := some authority } := by
  have passed : ∀ c ∈ authority, (!endsAuthority c) = true := by
    intro c member
    rw [inside c member]
    rfl
  rw [ofText, splitOnce_append ':' scheme _ noColon]
  rw [Option.map_some, if_pos ⟨authority ++ rest, rfl⟩]
  have rest_eq : ('/' :: '/' :: (authority ++ rest)).drop 2 = authority ++ rest := rfl
  dsimp only
  rw [rest_eq, List.takeWhile_append_of_pos passed, List.dropWhile_append_of_pos passed]
  rcases ends with rfl | ⟨c, tail, rfl, stops⟩
  · simp
  · simp [stops]

theorem ofText_unrooted
    (scheme rest : List Char)
    (noColon : ':' ∉ scheme)
    (single : ¬ ['/', '/'] <+: rest) :
    ofText (scheme ++ ':' :: rest) =
      some { Reference.ofText rest with scheme := scheme, authority := none } := by
  rw [ofText, splitOnce_append ':' scheme _ noColon, Option.map_some, if_neg single]

theorem WellFormed.ends
    {url : UrlParts}
    (wellFormed : url.WellFormed)
    (rooted : url.authority.isSome = true) :
    EndsAuthority url.toReference.text := by
  rcases wellFormed.rooted rooted with empty | slash
  · cases query : url.query with
    | some part => exact Or.inr ⟨'?', _, by rw [Reference.text, empty, query]; rfl, rfl⟩
    | none =>
        cases fragment : url.fragment with
        | some part => exact Or.inr ⟨'#', _, by rw [Reference.text, empty, query, fragment]; rfl, rfl⟩
        | none => exact Or.inl (by rw [Reference.text, empty, query, fragment]; rfl)
  · obtain ⟨tail, path⟩ := List.head?_eq_some_iff.mp slash
    exact Or.inr ⟨'/', _, by rw [Reference.text, path]; rfl, rfl⟩

theorem ofText_text
    (url : UrlParts)
    (wellFormed : url.WellFormed) :
    ofText url.text = some url := by
  have reference := url.toReference.ofText_text wellFormed.reference
  cases authority : url.authority with
  | some host =>
      have ends := wellFormed.ends (by rw [authority]; rfl)
      rw [text, origin, authority]
      dsimp only
      rw [List.append_assoc, List.cons_append, List.cons_append, List.cons_append,
        ofText_rooted url.scheme host _ (wellFormed.notMem_scheme ':' rfl) (wellFormed.authority host authority) ends,
        reference, ← authority]
  | none =>
      have single := url.toReference.not_slashes_text (wellFormed.unrooted authority)
      rw [text, origin, authority]
      dsimp only
      rw [List.append_assoc, List.cons_append, List.nil_append,
        ofText_unrooted url.scheme _ (wellFormed.notMem_scheme ':' rfl) single, reference, ← authority]

theorem text_ofText
    (text : List Char)
    (url : UrlParts)
    (parsed : ofText text = some url) :
    url.text = text := by
  obtain ⟨⟨scheme, rest⟩, split, rfl⟩ := Option.map_eq_some_iff.mp parsed
  obtain ⟨front, part, absent, shape⟩ := @exists_behind ':' text
  cases part with
  | none =>
      rw [shape, behind, List.append_nil, splitOnce, if_neg (by simpa using absent)] at split
      cases split
  | some back =>
      rw [shape, behind, splitOnce_append ':' front back absent] at split
      obtain ⟨rfl, rfl⟩ := Prod.mk.inj (Option.some.inj split)
      rw [shape, behind]
      dsimp only
      split_ifs with slashes
      · obtain ⟨tail, rfl⟩ := slashes
        rw [UrlParts.text, origin]
        dsimp only
        rw [Reference.text_ofText]
        simp [List.takeWhile_append_dropWhile]
      · rw [UrlParts.text, origin]
        dsimp only
        rw [Reference.text_ofText]
        simp

theorem WellFormed.notMem_origin
    {url : UrlParts}
    (wellFormed : url.WellFormed) :
    '?' ∉ url.origin ∧ '#' ∉ url.origin := by
  have outside : ∀ c, isSchemeChar c = false → endsAuthority c = true → c ≠ ':' → c ≠ '/' →
      c ∉ url.origin := by
    intro c sep ends colon slash
    rw [origin, List.mem_append, not_or, List.mem_cons, not_or]
    refine ⟨wellFormed.notMem_scheme c sep, colon, ?_⟩
    cases authority : url.authority with
    | none => simp
    | some host =>
        intro member
        rcases List.mem_cons.mp member with same | member
        · exact slash same
        rcases List.mem_cons.mp member with same | member
        · exact slash same
        rw [wellFormed.authority host authority c member] at ends
        cases ends
  exact ⟨outside '?' rfl rfl (by decide) (by decide), outside '#' rfl rfl (by decide) (by decide)⟩

theorem reference_text
    (url : UrlParts)
    (wellFormed : url.WellFormed) :
    (Reference.ofText url.text).path = url.origin ++ url.path := by
  obtain ⟨noQuery, noFragment⟩ := wellFormed.notMem_origin
  rw [text, Reference.ofText_append _ _ noQuery noFragment,
    Reference.ofText_text _ wellFormed.reference]

/-! ## Directories -/

structure IsDirectory (url : UrlParts) : Prop where
  rooted : url.authority.isSome = true
  slash : url.path.getLast? = some '/'
  query : url.query = none
  fragment : url.fragment = none

/-- A URL whose text continues that of a directory continues its path. -/
theorem eq_of_text_append
    (base url : UrlParts)
    (baseWellFormed : base.WellFormed)
    (wellFormed : url.WellFormed)
    (directory : base.IsDirectory)
    (rest : List Char)
    (continues : url.text = base.text ++ rest) :
    url = {
      path := base.path ++ (Reference.ofText rest).path
      query := (Reference.ofText rest).query
      fragment := (Reference.ofText rest).fragment
      scheme := base.scheme
      authority := base.authority } := by
  obtain ⟨authority, isAuthority⟩ := Option.isSome_iff_exists.mp directory.rooted
  have reference : base.toReference.text = base.path := by
    rw [Reference.text, directory.query, directory.fragment]
    simp [behind]
  have baseText : base.text ++ rest =
      base.scheme ++ ':' :: '/' :: '/' :: (authority ++ (base.path ++ rest)) := by
    rw [text, reference, origin, isAuthority]
    simp
  have slash : base.path.head? = some '/' := by
    rcases baseWellFormed.rooted directory.rooted with empty | slash
    · have last := directory.slash
      rw [empty] at last
      cases last
    · exact slash
  have ends : EndsAuthority (base.path ++ rest) := by
    obtain ⟨tail, path⟩ := List.head?_eq_some_iff.mp slash
    exact Or.inr ⟨'/', tail ++ rest, by rw [path]; rfl, rfl⟩
  have parsed := ofText_text url wellFormed
  rw [continues, baseText, ofText_rooted base.scheme authority _
    (baseWellFormed.notMem_scheme ':' rfl) (baseWellFormed.authority authority isAuthority) ends, Reference.ofText_append base.path rest
      baseWellFormed.reference.path.1 baseWellFormed.reference.path.2, ← isAuthority] at parsed
  exact (Option.some.inj parsed).symm

end UrlParts

/-! ## Relative paths -/

/-- A letter, and a colon behind further letters, digits and signs. -/
def startsWithScheme (text : List Char) : Bool :=
  match text with
  | c :: rest => c.isAlpha && (rest.dropWhile isSchemeChar).head? = some ':'
  | [] => false

/-- A letter and a bar, alone or in front of a separator: in a file URL, the start of a path. -/
def startsWithDrive (text : List Char) : Bool :=
  match text with
  | c :: '|' :: rest => c.isAlpha && (match rest with
      | [] => true
      | d :: _ => endsAuthority d || d = '\\')
  | _ => false

/-- A reference that continues the path of its base. -/
def isRelativePath (scheme text : List Char) : Bool :=
  !(text.head? = some '/') && !startsWithScheme text &&
    !(scheme = "file".toList && startsWithDrive text)

end Ducklake.Lib
