import Mathlib.Data.List.DropRight
import MsmTftp.PathResolution
import MsmTftp.ProtocolHeader

/-!
# Path names

The part of `std::filesystem::path` that the server uses, on the bytes of a
path name in the generic format, and the elements that the operating system
reads in such a name.
-/

namespace MsmTftp

open PathResolution

/-- The slash. -/
def separator : UInt8 := 47

/-- The full stop. -/
def dot : UInt8 := 46

namespace Pathname

def isAbsolute (path : Bytes) : Bool :=
  path.head? == some separator

/-- The file names between the separators. -/
def names (path : Bytes) : List Bytes :=
  (path.splitOn separator).filter (· ≠ [])

def hasRelativePath (path : Bytes) : Bool :=
  !(names path).isEmpty

/-- The elements from `begin` to `end`: the root directory, the file names,
and an empty element for a separator after the last file name. -/
def components (path : Bytes) : List Bytes :=
  (if isAbsolute path then [[separator]] else []) ++
    (names path ++
      if hasRelativePath path && path.getLast? == some separator then [[]]
      else [])

def filename (path : Bytes) : Bytes :=
  path.rtakeWhile (· ≠ separator)

/-- The path without its last element and the separators before that. -/
def parentPath (path : Bytes) : Bytes :=
  if hasRelativePath path then
    let directory := (path.rdropWhile (· ≠ separator)).rdropWhile
      (· = separator)
    if directory.isEmpty && isAbsolute path then [separator] else directory
  else path

/-- `operator/`. -/
def append (path other : Bytes) : Bytes :=
  if isAbsolute other then other
  else if (filename path).isEmpty then path ++ other
  else path ++ separator :: other

/-- `c_str`, up to its first NUL. -/
def cStr (path : Bytes) : Bytes :=
  path.takeWhile (· ≠ 0)

/-- What the operating system reads between two separators. -/
def element (piece : Bytes) : Element Bytes :=
  if piece = [] ∨ piece = [dot] then .here
  else if piece = [dot, dot] then .up
  else .child piece

def elements (path : Bytes) : List (Element Bytes) :=
  (path.splitOn separator).map element

def route (path : Bytes) : Route Bytes where
  fromTop := isAbsolute path
  elements := elements path

/-- The path name of a location. -/
def ofLocation (location : List Bytes) : Bytes :=
  if location = [] then [separator]
  else location.flatMap (separator :: ·)

/-- The name of something in a directory. -/
structure IsName (name : Bytes) : Prop where
  separator_not_mem : separator ∉ name
  zero_not_mem : 0 ∉ name
  element_eq : element name = .child name

instance (name : Bytes) : Decidable (IsName name) :=
  decidable_of_iff
    (separator ∉ name ∧ 0 ∉ name ∧ element name = .child name)
    ⟨fun ⟨separator, zero, element⟩ => ⟨separator, zero, element⟩,
      fun ⟨separator, zero, element⟩ => ⟨separator, zero, element⟩⟩

section Elements

variable {location : List Bytes} {name path other piece : Bytes}

theorem IsName.ne_nil (isName : IsName name) : name ≠ [] := by
  rintro rfl
  exact absurd isName.element_eq nofun

theorem elements_ne_nil : elements path ≠ [] := by
  simp [elements]

theorem elements_nil : elements [] = [.here] :=
  rfl

theorem elements_append_separator :
    elements (path ++ separator :: other) =
      elements path ++ elements other := by
  simp [elements, List.splitOn_append_cons_self]

theorem elements_piece (piece_eq : separator ∉ piece) :
    elements piece = [element piece] := by
  simp [elements, List.splitOn_eq_singleton piece_eq]

theorem names_append_separator :
    names (path ++ separator :: other) = names path ++ names other := by
  simp [names, List.splitOn_append_cons_self]

theorem splitOn_location (isName : ∀ name ∈ location, IsName name) :
    (location.flatMap (separator :: ·)).splitOn separator =
      [] :: location := by
  induction location using List.reverseRecOn with
  | nil => rfl
  | append_singleton location name ih =>
      rw [List.flatMap_append, List.flatMap_singleton,
        List.splitOn_append_cons_self,
        ih (fun name member => isName name (by simp [member])),
        List.splitOn_eq_singleton (isName name (by simp)).separator_not_mem]
      rfl

theorem elements_location (isName : ∀ name ∈ location, IsName name) :
    elements (location.flatMap (separator :: ·)) =
      .here :: location.map .child := by
  rw [elements, splitOn_location isName, List.map_cons]
  congr 1
  apply List.map_congr_left
  intro name member
  exact (isName name member).element_eq

theorem names_location (isName : ∀ name ∈ location, IsName name) :
    names (location.flatMap (separator :: ·)) = location := by
  rw [names, splitOn_location isName, List.filter_cons_of_neg (by simp),
    List.filter_eq_self]
  intro name member
  simpa using (isName name member).ne_nil

end Elements

section Directories

variable {location : List Bytes} {name path other piece : Bytes}

theorem filename_append_separator (isPiece : separator ∉ piece) :
    filename (path ++ separator :: piece) = piece := by
  have kept : ∀ byte ∈ piece.reverse, decide (byte ≠ separator) = true := by
    intro byte member
    rw [List.mem_reverse] at member
    rw [decide_eq_true_iff]
    rintro rfl
    exact isPiece member
  rw [filename, List.rtakeWhile, List.reverse_append, List.reverse_cons,
    List.append_assoc, List.singleton_append,
    List.takeWhile_append_of_pos kept, List.takeWhile_cons_of_neg (by simp),
    List.append_nil, List.reverse_reverse]

theorem append_ofLocation (relative : isAbsolute path = false)
    (isName : ∀ name ∈ location, IsName name) :
    append (ofLocation location) path =
      location.flatMap (separator :: ·) ++ separator :: path := by
  rw [append, relative, if_neg Bool.false_ne_true, ofLocation]
  cases location using List.reverseRecOn with
  | nil => rfl
  | append_singleton location name =>
      have named := isName name (by simp)
      have below : ¬location ++ [name] = [] := by simp
      rw [if_neg below, List.flatMap_append, List.flatMap_singleton,
        filename_append_separator named.separator_not_mem,
        if_neg (by simpa using named.ne_nil)]

theorem element_eq_child (child : element piece = .child name) :
    name = piece := by
  unfold element at child
  split at child
  · exact absurd child nofun
  · split at child
    · exact absurd child nofun
    · exact (Element.child.inj child).symm

theorem isAbsolute_ofLocation : isAbsolute (ofLocation location) = true := by
  cases location <;> simp [isAbsolute, ofLocation]

theorem isAbsolute_of_not_mem (isPiece : separator ∉ piece) :
    isAbsolute piece = false := by
  cases piece with
  | nil => rfl
  | cons first rest =>
      rw [List.mem_cons, not_or] at isPiece
      simpa [isAbsolute] using Ne.symm isPiece.1

theorem separator_not_mem_filename : separator ∉ filename path := by
  intro member
  simpa using List.mem_rtakeWhile_imp member

theorem nul_not_mem_location (isName : ∀ name ∈ location, IsName name) :
    0 ∉ location.flatMap (separator :: ·) := by
  intro member
  obtain ⟨name, inside, member⟩ := List.mem_flatMap.mp member
  rcases List.mem_cons.mp member with same | member
  · exact absurd same (by decide)
  · exact (isName name inside).zero_not_mem member

theorem cStr_of_not_mem (nulFree : 0 ∉ path) : cStr path = path := by
  rw [cStr, List.takeWhile_eq_self_iff]
  intro byte member
  rw [decide_eq_true_iff]
  rintro rfl
  exact nulFree member

theorem nul_not_mem_parentPath (nulFree : 0 ∉ path) :
    0 ∉ parentPath path := by
  rw [parentPath]
  intro member
  split at member
  · dsimp only at member
    split at member
    · exact absurd (List.mem_singleton.mp member) (by decide)
    · apply nulFree
      have shorter := List.rdropWhile_prefix (· ≠ separator) path
      have trimmed := List.rdropWhile_prefix (· = separator)
        (path.rdropWhile (· ≠ separator))
      exact shorter.subset (trimmed.subset member)
  · exact nulFree member

theorem nul_not_mem_filename (nulFree : 0 ∉ path) : 0 ∉ filename path := by
  intro member
  exact nulFree ((List.rtakeWhile_suffix _ _).subset member)

/-- The last component follows a separator or is all of the path. -/
theorem exists_directory (path : Bytes) :
    path.rdropWhile (· ≠ separator) = [] ∧ filename path = path ∨
      ∃ before, path.rdropWhile (· ≠ separator) = before ++ [separator] ∧
        path = before ++ separator :: filename path := by
  have parts : path.rdropWhile (· ≠ separator) ++ filename path = path :=
    List.rdropWhile_append_rtakeWhile
  rcases List.eq_nil_or_concat (path.rdropWhile (· ≠ separator)) with
    none | ⟨before, last, directory⟩
  · left
    rw [none] at parts
    exact ⟨none, parts⟩
  · right
    have nonempty : path.rdropWhile (· ≠ separator) ≠ [] := by
      rw [directory]
      simp
    have ends := List.rdropWhile_last_not _ _ nonempty
    simp only [directory] at ends
    have last_eq : last = separator := by
      simpa using ends
    rw [last_eq, List.concat_eq_append] at directory
    rw [directory] at parts
    exact ⟨before, directory, by simpa using parts.symm⟩

theorem hasRelativePath_of_filename (named : filename path ≠ []) :
    hasRelativePath path = true := by
  have itself : filename path ∈ names (filename path) := by
    rw [names, List.splitOn_eq_singleton separator_not_mem_filename]
    simp [named]
  have member : filename path ∈ names path := by
    rcases exists_directory path with ⟨_, same⟩ | ⟨before, _, same⟩
    · rw [same] at itself ⊢
      exact itself
    · have all := congrArg names same
      rw [names_append_separator] at all
      rw [all]
      exact List.mem_append_right _ itself
  rw [hasRelativePath]
  cases all : names path with
  | nil =>
      rw [all] at member
      exact absurd member List.not_mem_nil
  | cons => rfl

/-- Separators at the end add elements for the directory itself only. -/
theorem filter_elements_rdropWhile (path : Bytes) :
    (elements (path.rdropWhile (· = separator))).filter (· ≠ .here) =
      (elements path).filter (· ≠ .here) := by
  induction path using List.reverseRecOn with
  | nil => rfl
  | append_singleton path last ih =>
      by_cases ends : last = separator
      · subst ends
        rw [List.rdropWhile_concat_pos _ _ _ (by simp), ih,
          elements_append_separator, List.filter_append, elements_nil]
        simp
      · rw [List.rdropWhile_concat_neg _ _ _ (by simpa using ends)]

/-- The last component follows elements that lead where the parent path
leads. -/
theorem exists_elements (relative : hasRelativePath path = true) :
    ∃ before, elements path = before ++ [element (filename path)] ∧
      before.filter (· ≠ .here) =
        (elements (parentPath path)).filter (· ≠ .here) := by
  have isPiece : separator ∉ filename path := separator_not_mem_filename
  have parent : (elements (parentPath path)).filter (· ≠ .here) =
      (elements (path.rdropWhile (· ≠ separator))).filter (· ≠ .here) := by
    rw [parentPath, if_pos relative,
      ← filter_elements_rdropWhile (path.rdropWhile (· ≠ separator))]
    dsimp only
    split
    · next top =>
      simp only [Bool.and_eq_true, List.isEmpty_iff] at top
      rw [top.1]
      rfl
    · rfl
  rcases exists_directory path with ⟨none, same⟩ | ⟨before, directory, same⟩
  · refine ⟨[], ?_, ?_⟩
    · rw [List.nil_append,
        ← elements_piece isPiece, same]
    · rw [parent, none, elements_nil]
      rfl
  · refine ⟨elements before, ?_, ?_⟩
    · rw [← elements_piece isPiece, ← elements_append_separator, ← same]
    · rw [parent, directory, elements_append_separator, List.filter_append,
        elements_nil]
      simp

theorem isAbsolute_of_isPrefix (start : other <+: path) (nonempty : other ≠ []) :
    isAbsolute other = isAbsolute path := by
  obtain ⟨rest, rfl⟩ := start
  rw [isAbsolute, isAbsolute, List.head?_append_of_ne_nil _ nonempty]

theorem isAbsolute_parentPath (relative : hasRelativePath path = true) :
    isAbsolute (parentPath path) = isAbsolute path := by
  rw [parentPath, if_pos relative]
  dsimp only
  split
  · next top =>
    rw [Bool.and_eq_true] at top
    rw [top.2]
    rfl
  · next other =>
    by_cases empty : (path.rdropWhile (· ≠ separator)).rdropWhile
        (· = separator) = []
    · rw [empty] at other ⊢
      simp only [List.isEmpty_nil, Bool.true_and, Bool.not_eq_true] at other
      rw [other]
      rfl
    · have shorter := List.rdropWhile_prefix (· ≠ separator) path
      have trimmed := List.rdropWhile_prefix (· = separator)
        (path.rdropWhile (· ≠ separator))
      exact isAbsolute_of_isPrefix (trimmed.trans shorter) empty

theorem exists_piece {path : Bytes} {byte : UInt8} (member : byte ∈ path)
    (other : byte ≠ separator) :
    ∃ piece ∈ path.splitOn separator, byte ∈ piece := by
  induction path with
  | nil => exact absurd member List.not_mem_nil
  | cons first path ih =>
      rw [List.splitOn_cons_eq_if_modifyHead]
      split
      · next separates =>
        have same : first = separator := by simpa using separates
        rw [List.mem_cons, same] at member
        obtain ⟨piece, found, inside⟩ := ih (member.resolve_left other)
        exact ⟨piece, List.mem_cons_of_mem _ found, inside⟩
      · obtain ⟨head, rest, pieces⟩ :=
          List.exists_cons_of_ne_nil (List.splitOn_ne_nil separator path)
        rw [pieces] at ih ⊢
        rw [List.modifyHead_cons]
        rcases List.mem_cons.mp member with here | later
        · exact ⟨first :: head, List.mem_cons_self, by simp [here]⟩
        · obtain ⟨piece, found, inside⟩ := ih later
          rcases List.mem_cons.mp found with same | found
          · rw [same] at inside
            exact ⟨first :: head, List.mem_cons_self,
              List.mem_cons_of_mem _ inside⟩
          · exact ⟨piece, List.mem_cons_of_mem _ found, inside⟩

theorem nul_not_mem_of_elements {path : Bytes}
    (nulFree : ∀ name, .child name ∈ elements path → 0 ∉ name) :
    0 ∉ path := by
  intro member
  obtain ⟨piece, found, inside⟩ := exists_piece member (by decide)
  apply nulFree piece _ inside
  have child : element piece = .child piece := by
    have first : ¬(piece = [] ∨ piece = [dot]) := by
      rintro (rfl | rfl)
      · exact absurd inside List.not_mem_nil
      · exact absurd inside (by decide)
    have second : piece ≠ [dot, dot] := by
      rintro rfl
      exact absurd inside (by decide)
    rw [element, if_neg first, if_neg second]
  rw [← child]
  exact List.mem_map_of_mem found

end Directories

section Components

variable {location : List Bytes}

theorem names_ofLocation (isName : ∀ name ∈ location, IsName name) :
    names (ofLocation location) = location := by
  rw [ofLocation]
  split
  · next top =>
    rw [top]
    rfl
  · exact names_location isName

theorem components_ofLocation (isName : ∀ name ∈ location, IsName name) :
    components (ofLocation location) = [separator] :: location := by
  rw [components, isAbsolute_ofLocation, names_ofLocation isName, if_pos rfl,
    List.singleton_append, hasRelativePath, names_ofLocation isName]
  cases location using List.reverseRecOn with
  | nil => rfl
  | append_singleton location name =>
      have named := isName name (by simp)
      have ends : (ofLocation (location ++ [name])).getLast? ≠
          some separator := by
        intro ends
        have below : ¬location ++ [name] = [] := by simp
        rw [ofLocation, if_neg below, List.flatMap_append,
          List.flatMap_singleton, List.getLast?_append_cons,
          List.getLast?_cons_of_ne_nil named.ne_nil] at ends
        exact named.separator_not_mem (List.mem_of_getLast? ends)
      simp [ends]

theorem components_append (isName : ∀ name ∈ location, IsName name)
    {piece : Bytes} (isPiece : separator ∉ piece) :
    components (append (ofLocation location) piece) =
      [separator] :: (location ++
        if location = [] ∧ piece = [] then [] else [piece]) := by
  rw [append_ofLocation (isAbsolute_of_not_mem isPiece) isName]
  have absolute : isAbsolute
      (location.flatMap (separator :: ·) ++ separator :: piece) = true := by
    cases location <;> simp [isAbsolute]
  have all : names (location.flatMap (separator :: ·) ++ separator :: piece) =
      location ++ names piece := by
    rw [names_append_separator, names_location isName]
  rw [components, absolute, if_pos rfl, List.singleton_append,
    hasRelativePath, all, List.getLast?_append_cons]
  congr 1
  cases piece with
  | nil =>
      have nothing : names ([] : Bytes) = [] := rfl
      cases location <;> simp [nothing]
  | cons first rest =>
      have itself : names (first :: rest) = [first :: rest] := by
        rw [names, List.splitOn_eq_singleton isPiece]
        rfl
      have ends : (first :: rest).getLast? ≠ some separator := by
        intro ends
        exact isPiece (List.mem_of_getLast? ends)
      simp [itself, ends]

end Components

end Pathname

end MsmTftp
