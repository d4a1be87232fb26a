import Ducklake.Lib.Lists

/-!
# Paths of URLs

The path of a hierarchical URL as the directories it goes through, and how a relative reference
moves through them.
-/

set_option autoImplicit false

namespace Ducklake.Lib

/-- The directories of a path and what stands behind the last slash. -/
structure UrlPath where
  directories : List (List Char)
  file : List Char
  deriving DecidableEq

/-! ## Texts -/

def directoryText (directories : List (List Char)) : List Char :=
  (directories.flatMap fun segment => '/' :: segment) ++ ['/']

theorem directoryText_nil : directoryText [] = ['/'] :=
  rfl

theorem directoryText_cons (segment : List Char) (rest : List (List Char)) :
    directoryText (segment :: rest) = '/' :: (segment ++ directoryText rest) := by
  simp [directoryText]

theorem prefix_of_segments (sep : Char) (segment other back rest : List Char)
    (plain : sep ∉ segment) (otherPlain : sep ∉ other) :
    segment ++ sep :: back <+: other ++ sep :: rest ↔ segment = other ∧ back <+: rest := by
  induction segment generalizing other with
  | nil =>
      cases other with
      | nil => simp
      | cons c other =>
          have distinct : sep ≠ c := fun same => otherPlain (same ▸ List.mem_cons_self)
          simp [distinct]
  | cons c segment ih =>
      rw [List.mem_cons, not_or] at plain
      cases other with
      | nil => simp [Ne.symm plain.1]
      | cons d other =>
          rw [List.mem_cons, not_or] at otherPlain
          rw [List.cons_append, List.cons_append, List.cons_prefix_cons,
            ih other plain.2 otherPlain.2, List.cons.injEq, and_assoc]

/-- One directory holds another, or a file in it, if its segments come first. -/
theorem directoryText_prefix_iff (front directories : List (List Char)) (file : List Char)
    (plain : ∀ segment ∈ front, '/' ∉ segment)
    (otherPlain : ∀ segment ∈ directories, '/' ∉ segment)
    (filePlain : '/' ∉ file) :
    directoryText front <+: directoryText directories ++ file ↔ front <+: directories := by
  induction front generalizing directories with
  | nil =>
      refine iff_of_true ?_ (List.nil_prefix)
      cases directories with
      | nil => exact ⟨file, rfl⟩
      | cons segment rest =>
          rw [directoryText_cons]
          exact ⟨_, rfl⟩
  | cons segment front ih =>
      have tail : ∀ directories, ∃ back, directoryText directories = '/' :: back := by
        intro directories
        cases directories with
        | nil => exact ⟨[], rfl⟩
        | cons first rest => exact ⟨_, directoryText_cons first rest⟩
      rw [directoryText_cons]
      cases directories with
      | nil =>
          refine iff_of_false (fun holds => ?_) (by simp)
          rw [directoryText_nil, List.singleton_append, List.cons_prefix_cons] at holds
          obtain ⟨back, shape⟩ := tail front
          apply filePlain
          apply holds.2.subset
          simp [shape]
      | cons other rest =>
          have smaller := ih rest (fun part member => plain part (List.mem_cons_of_mem _ member))
            (fun part member => otherPlain part (List.mem_cons_of_mem _ member))
          obtain ⟨back, shape⟩ := tail front
          obtain ⟨back', shape'⟩ := tail rest
          rw [shape, shape', List.cons_append, List.cons_prefix_cons] at smaller
          rw [directoryText_cons, List.cons_append, List.append_assoc, List.cons_prefix_cons, shape,
            shape', List.cons_append, prefix_of_segments '/' segment other _ _
              (plain segment List.mem_cons_self) (otherPlain other List.mem_cons_self),
            List.cons_prefix_cons]
          simpa using fun _ => smaller

namespace UrlPath

def text (path : UrlPath) : List Char :=
  directoryText path.directories ++ path.file

def ofText (text : List Char) : UrlPath :=
  let segments := (text.splitOn '/').tail
  { directories := segments.dropLast, file := segments.getLast?.getD [] }

/-- The slashes of a path stand between its segments only. -/
structure Plain (path : UrlPath) : Prop where
  directories : ∀ segment ∈ path.directories, '/' ∉ segment
  file : '/' ∉ path.file

theorem ofText_plain (text : List Char) : (ofText text).Plain := by
  have segments : ∀ segment ∈ (text.splitOn '/').tail, '/' ∉ segment := fun segment member =>
    notMem_of_mem_splitOn '/' text segment (List.mem_of_mem_tail member)
  constructor
  · exact fun segment member => segments segment (List.dropLast_subset _ member)
  · rw [ofText]
    dsimp only
    cases last : (text.splitOn '/').tail.getLast? with
    | none => simp
    | some file => exact segments file (List.mem_of_getLast? last)

theorem ofText_text (path : UrlPath) (plain : path.Plain) : ofText path.text = path := by
  have shape : path.text = ['/'].intercalate ([] :: (path.directories ++ [path.file])) := by
    rw [intercalate_cons_eq_append, text, directoryText]
    simp [List.flatMap]
  have split : path.text.splitOn '/' = [] :: (path.directories ++ [path.file]) := by
    rw [shape]
    apply List.splitOn_intercalate
    · intro segment member
      rcases List.mem_cons.mp member with rfl | inside
      · simp
      · rcases List.mem_append.mp inside with directory | file
        · exact plain.directories segment directory
        · rw [List.mem_singleton.mp file]
          exact plain.file
    · simp
  rw [ofText, split]
  simp

theorem text_ofText (rest : List Char) : (ofText ('/' :: rest)).text = '/' :: rest := by
  have split : ('/' :: rest).splitOn '/' = [] :: rest.splitOn '/' :=
    List.splitOn_append_cons_self [] rest
  obtain ⟨front, file, parts⟩ : ∃ front file, rest.splitOn '/' = front ++ [file] := by
    obtain ⟨file, last⟩ := List.getLast?_isSome.mpr (List.splitOn_ne_nil '/' rest) |>
      Option.isSome_iff_exists.mp
    obtain ⟨front, shape⟩ := List.getLast?_eq_some_iff.mp last
    exact ⟨front, file, shape⟩
  have joined := @List.intercalate_splitOn _ ('/' :: rest) _ _ '/'
  rw [split, parts, intercalate_cons_eq_append] at joined
  rw [ofText, split, parts, text, directoryText, ← joined]
  simp [List.flatMap]

theorem file_ofText_of_directory (text : List Char) (directory : text.getLast? = some '/') :
    (ofText text).file = [] := by
  obtain ⟨front, rfl⟩ := List.getLast?_eq_some_iff.mp directory
  have split : (front ++ ['/']).splitOn '/' = front.splitOn '/' ++ [[]] :=
    List.splitOn_append_cons_self front []
  obtain ⟨first, rest, parts⟩ := List.exists_cons_of_ne_nil (List.splitOn_ne_nil '/' front)
  simp [ofText, split, parts]

def folder (path : UrlPath) : List (List Char) :=
  if path.file = [] then path.directories else path.directories ++ [path.file]

theorem Plain.folder {path : UrlPath} (plain : path.Plain) :
    ∀ segment ∈ path.folder, '/' ∉ segment := by
  rw [UrlPath.folder]
  split
  · exact plain.directories
  · intro segment member
    rcases List.mem_append.mp member with directory | file
    · exact plain.directories segment directory
    · rw [List.mem_singleton.mp file]
      exact plain.file

/-- The path lies in the directory and is not the directory itself. -/
def Under (directories : List (List Char)) (path : UrlPath) : Prop :=
  directories <+: path.directories ∧ path ≠ { directories := directories, file := [] }

instance (directories : List (List Char)) (path : UrlPath) : Decidable (Under directories path) :=
  inferInstanceAs (Decidable (_ ∧ _))

theorem under_iff (directories : List (List Char)) (path : UrlPath)
    (plain : ∀ segment ∈ directories, '/' ∉ segment)
    (pathPlain : path.Plain) :
    (∃ rest, rest ≠ [] ∧ path.text = directoryText directories ++ rest) ↔
      Under directories path := by
  have prefix_ := directoryText_prefix_iff directories path.directories path.file plain
    pathPlain.directories pathPlain.file
  rw [Under, ← prefix_]
  constructor
  · rintro ⟨rest, filled, shape⟩
    refine ⟨⟨rest, shape.symm⟩, fun same => filled ?_⟩
    rw [same, text, List.append_nil] at shape
    exact List.self_eq_append_right.mp shape
  · rintro ⟨⟨rest, shape⟩, different⟩
    refine ⟨rest, fun empty => different ?_, shape.symm⟩
    rw [empty] at shape
    have itself : text { directories := directories, file := [] } = path.text := shape
    rw [← ofText_text path pathPlain, ← itself]
    exact ofText_text _ ⟨plain, by simp⟩

/-! ## References -/

def isSingleDot (segment : List Char) : Bool :=
  segment = ".".toList || segment.map Char.toLower = "%2e".toList

def isDoubleDot (segment : List Char) : Bool :=
  let segment := segment.map Char.toLower
  segment = "..".toList || segment = ".%2e".toList || segment = "%2e.".toList ||
    segment = "%2e%2e".toList

structure Rules where
  /-- A backslash separates segments as a slash does. -/
  special : Bool
  /-- The first segment can be the letter of a drive. -/
  isFile : Bool
  encode : List Char → List Char

variable (rules : Rules)

def Rules.isSeparator (c : Char) : Bool :=
  c = '/' || (rules.special && c = '\\')

def driveLetter (segment : List Char) : Option (List Char) :=
  match segment with
  | [c, sign] => if c.isAlpha && (sign = ':' || sign = '|') then some [c, ':'] else none
  | _ => none

/-- The last directory is left, but not a drive. -/
def Rules.pop (directories : List (List Char)) : List (List Char) :=
  match directories with
  | [segment] => if rules.isFile && driveLetter segment = some segment then [segment] else []
  | _ => directories.dropLast

def Rules.segment (directories : List (List Char)) (segment : List Char) : List Char :=
  if rules.isFile && directories.isEmpty then (driveLetter segment).getD (rules.encode segment)
  else rules.encode segment

def Rules.enter (directories : List (List Char)) (segment : List Char) : List (List Char) :=
  if isDoubleDot segment then rules.pop directories
  else if isSingleDot segment then directories
  else directories ++ [rules.segment directories segment]

def Rules.open_ (directories : List (List Char)) (segment : List Char) : UrlPath :=
  if isDoubleDot segment then { directories := rules.pop directories, file := [] }
  else if isSingleDot segment then { directories := directories, file := [] }
  else { directories := directories, file := rules.segment directories segment }

/-- What stands in front of the query and the fragment. -/
def referencePath (reference : List Char) : List Char :=
  reference.takeWhile fun c => !(c = '?' || c = '#')

/-- The path of a reference that does not start with a separator. -/
def Rules.resolve (base : UrlPath) (reference : List Char) : UrlPath :=
  let path := referencePath reference
  if path.isEmpty then base
  else
    let segments := path.splitOnP rules.isSeparator
    rules.open_ (segments.dropLast.foldl rules.enter base.directories) (segments.getLast?.getD [])

/-- Segments are encoded without slashes. -/
structure Rules.Separated : Prop where
  encode : ∀ segment, '/' ∉ segment → '/' ∉ rules.encode segment

theorem driveLetter_plain (segment letter : List Char) (drive : driveLetter segment = some letter)
    (plain : '/' ∉ segment) : '/' ∉ letter := by
  unfold driveLetter at drive
  split at drive
  · split at drive
    · rw [← Option.some.inj drive]
      simp only [List.mem_cons, not_or] at plain ⊢
      exact ⟨plain.1, by decide, by simp⟩
    · cases drive
  · cases drive

theorem Rules.pop_plain (directories : List (List Char))
    (plain : ∀ segment ∈ directories, '/' ∉ segment) :
    ∀ segment ∈ rules.pop directories, '/' ∉ segment := by
  unfold Rules.pop
  split
  · split
    · exact plain
    · simp
  · exact fun segment member => plain segment (List.dropLast_subset _ member)

theorem of_mem_splitOnP (p : Char → Bool) (items part : List Char) (member : part ∈ items.splitOnP p)
    (c : Char) (inside : c ∈ part) : p c = false := by
  induction items generalizing part with
  | nil =>
      rw [List.splitOnP_nil, List.mem_singleton] at member
      rw [member] at inside
      cases inside
  | cons head tail ih =>
      rw [List.splitOnP_cons_eq_if_modifyHead] at member
      split at member
      · rcases List.mem_cons.mp member with rfl | later
        · cases inside
        · exact ih part later inside
      · rename_i other
        cases parts : tail.splitOnP p with
        | nil => exact absurd parts (List.splitOnP_ne_nil p tail)
        | cons first others =>
            rw [parts, List.modifyHead_cons] at member
            rcases List.mem_cons.mp member with rfl | later
            · rcases List.mem_cons.mp inside with rfl | later
              · simpa using other
              · exact ih first (by simp [parts]) later
            · exact ih part (by simp [parts, later]) inside

section

variable {rules} (separated : rules.Separated)

include separated

theorem Rules.Separated.segment (directories : List (List Char)) (segment : List Char)
    (plain : '/' ∉ segment) : '/' ∉ rules.segment directories segment := by
  unfold Rules.segment
  split
  · cases drive : driveLetter segment with
    | none => exact separated.encode segment plain
    | some letter => exact driveLetter_plain segment letter drive plain
  · exact separated.encode segment plain

theorem Rules.Separated.enter (directories : List (List Char)) (segment : List Char)
    (plain : ∀ segment ∈ directories, '/' ∉ segment) (noSlash : '/' ∉ segment) :
    ∀ other ∈ rules.enter directories segment, '/' ∉ other := by
  unfold Rules.enter
  split
  · exact rules.pop_plain directories plain
  · split
    · exact plain
    · intro other member
      rcases List.mem_append.mp member with before | new
      · exact plain other before
      · rw [List.mem_singleton.mp new]
        exact separated.segment directories segment noSlash

theorem Rules.Separated.foldl_enter (directories segments : List (List Char))
    (plain : ∀ segment ∈ directories, '/' ∉ segment) (noSlash : ∀ segment ∈ segments, '/' ∉ segment) :
    ∀ segment ∈ segments.foldl rules.enter directories, '/' ∉ segment := by
  induction segments generalizing directories with
  | nil => exact plain
  | cons first rest ih =>
      apply ih
      · exact separated.enter directories first plain (noSlash first List.mem_cons_self)
      · exact fun segment later => noSlash segment (List.mem_cons_of_mem _ later)

theorem Rules.Separated.open_ (directories : List (List Char)) (segment : List Char)
    (plain : ∀ segment ∈ directories, '/' ∉ segment) (noSlash : '/' ∉ segment) :
    (rules.open_ directories segment).Plain := by
  unfold Rules.open_
  split
  · exact ⟨rules.pop_plain directories plain, by simp⟩
  · split
    · exact ⟨plain, by simp⟩
    · exact ⟨plain, separated.segment directories segment noSlash⟩

theorem Rules.Separated.resolve (base : UrlPath) (plain : base.Plain) (reference : List Char) :
    (rules.resolve base reference).Plain := by
  have segments : ∀ segment ∈ (referencePath reference).splitOnP rules.isSeparator,
      '/' ∉ segment := by
    intro segment member slash
    have outside := of_mem_splitOnP rules.isSeparator _ segment member '/' slash
    simp [Rules.isSeparator] at outside
  unfold Rules.resolve
  dsimp only
  split
  · exact plain
  · apply separated.open_
    · exact separated.foldl_enter _ _ plain.directories
        fun segment member => segments segment (List.dropLast_subset _ member)
    · cases last : ((referencePath reference).splitOnP rules.isSeparator).getLast? with
      | none => simp
      | some segment => exact segments segment (List.mem_of_getLast? last)

end

end UrlPath

end Ducklake.Lib
