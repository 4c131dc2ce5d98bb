import MsmTftp.Pathname
import MsmTftp.SessionData

/-!
# The paths of requested files

`FilePath` turns the file name of a request into the path of a file below the
root path of the server.  `FileSystem` models the files, directories and
symbolic links that path names lead to.
-/

namespace MsmTftp

open PathResolution Pathname

/-- The directories, files and symbolic links the server can search, and the
directory it runs in. -/
structure FileSystem extends Tree Bytes Bytes where
  isName : ∀ location name, node (location ++ [name]) ≠ none →
    Pathname.IsName name
  currentPath : List Bytes
  currentPath_directory : node currentPath = some .directory
  /-- The number of symbolic links one resolution follows at most. -/
  linkLimit : Nat

namespace FileSystem

/-- The file system of a list of entries, with the server running at its
top. -/
def ofEntries (entries : List (List Bytes × Node Bytes Bytes))
    (top : Tree.lookup entries [] = some .directory)
    (parent : ∀ entry ∈ entries, entry.1 = [] ∨
      Tree.lookup entries entry.1.dropLast = some .directory)
    (isName : ∀ entry ∈ entries, ∀ name ∈ entry.1, IsName name)
    (linkLimit : Nat) : FileSystem where
  toTree := .ofEntries entries top parent
  isName := by
    intro location name found
    obtain ⟨node, member⟩ := Tree.mem_of_lookup found
    exact isName _ member name (by simp)
  currentPath := []
  currentPath_directory := top
  linkLimit := linkLimit

variable (system : FileSystem)

/-- The location a call with a path name is about.  With `creates`, the call
creates a missing file. -/
def locate (creates : Bool) (path : Bytes) : Option (List Bytes) :=
  let path := cStr path
  if path.isEmpty then none
  else
    system.resolve creates system.linkLimit
      ((route path).start system.currentPath) (elements path)

/-- `std::filesystem::canonical`. -/
def canonical (path : Bytes) : Option Bytes :=
  (system.locate false path).map ofLocation

/-- The location that opening a path for writing creates or truncates. -/
def openedForWriting (path : Bytes) : Option (List Bytes) :=
  system.locate true path

/-- A path name that is read from a directory leads to a location. -/
def Leads (creates : Bool) (start : List Bytes) (path : Bytes)
    (location : List Bytes) : Prop :=
  ∃ links ≤ system.linkLimit,
    system.Resolves creates links ((route path).start start)
      (elements path) location

/-- A path name that is read from a directory denotes what exists there. -/
abbrev Denotes : List Bytes → Bytes → List Bytes → Prop :=
  system.Leads false

end FileSystem

/-- `std::mismatch`: what is left of two sequences from where they differ. -/
def mismatch {α : Type*} [DecidableEq α] :
    List α → List α → List α × List α
  | first :: firsts, second :: seconds =>
      if first = second then mismatch firsts seconds
      else (first :: firsts, second :: seconds)
  | firsts, seconds => (firsts, seconds)

namespace FilePath

/-- The root path goes up to where it differs from the path. -/
def isBelowRoot (filePath : FilePath) (path : Bytes) : Bool :=
  (mismatch (components filePath.rootPath) (components path)).1.isEmpty

def getReadFilePath (filePath : FilePath) (system : FileSystem)
    (fileName : Bytes) : Option Bytes :=
  match system.canonical (append filePath.rootPath fileName) with
  | some path => if filePath.isBelowRoot path then some path else none
  | none => none

def getWriteFilePath (filePath : FilePath) (system : FileSystem)
    (fileName : Bytes) : Option Bytes :=
  match system.canonical (append filePath.rootPath (parentPath fileName)) with
  | some directory =>
      let path := append directory (filename fileName)
      if filePath.isBelowRoot path then some path else none
  | none => none

/-- Without a canonical path the call throws. -/
def setServerRootPath (system : FileSystem) (rootPath : Bytes) :
    Option FilePath :=
  (system.canonical rootPath).map FilePath.mk

/-- The location of the root path. -/
def root (filePath : FilePath) : List Bytes :=
  names filePath.rootPath

end FilePath

namespace FileSystem

variable {system : FileSystem} {creates : Bool} {root location : List Bytes}
  {path : Bytes}

theorem isName_of_settled (settled : system.Settled location) :
    ∀ name ∈ location, IsName name := by
  induction location using List.reverseRecOn with
  | nil => simp
  | append_singleton location name ih =>
      intro another member
      rcases List.mem_append.mp member with member | member
      · exact ih settled.of_append another member
      · rw [List.mem_singleton] at member
        subst member
        obtain ⟨node, found, _⟩ := settled
        apply system.isName location
        simp [found]

/-- A path name below a settled location is read from there. -/
theorem locate_append (settled : system.Settled root) (nulFree : 0 ∉ path) :
    system.locate creates (append (ofLocation root) path) = some location ↔
      system.Leads creates root path location := by
  have isName := isName_of_settled settled
  rw [Leads, Route.start]
  cases absolute : isAbsolute path with
  | true =>
      have nonempty : path.isEmpty = false := by
        cases path with
        | nil => simp [isAbsolute] at absolute
        | cons => rfl
      simp only [locate, append, absolute, if_true, cStr_of_not_mem nulFree,
        nonempty, Route.start, route, Bool.false_eq_true, if_false,
        Tree.resolve_eq_some_iff]
  | false =>
      have joined := append_ofLocation absolute isName
      have joined_nulFree : 0 ∉ append (ofLocation root) path := by
        rw [joined, List.mem_append, List.mem_cons]
        rintro (member | same | member)
        · exact nul_not_mem_location isName member
        · exact absurd same (by decide)
        · exact nulFree member
      have joined_absolute :
          isAbsolute (append (ofLocation root) path) = true := by
        rw [joined]
        cases root <;> simp [isAbsolute]
      have joined_nonempty :
          (append (ofLocation root) path).isEmpty = false := by
        rw [joined]
        simp
      have joined_elements : elements (append (ofLocation root) path) =
          .here :: (root.map .child ++ elements path) := by
        rw [joined, elements_append_separator, elements_location isName,
          List.cons_append]
      simp only [locate, cStr_of_not_mem joined_nulFree, joined_nonempty,
        Route.start, route, joined_absolute, absolute, joined_elements,
        Bool.false_eq_true, if_false, if_true, Tree.resolve_eq_some_iff]
      have from_top (links : Nat) : system.Resolves creates links []
          (.here :: (root.map .child ++ elements path)) location ↔
            system.Resolves creates links root (elements path) location := by
        rw [Tree.resolves_here_iff (by simp [elements_ne_nil])]
        exact Tree.resolves_children_iff settled
      simp only [from_top]

theorem canonical_append (settled : system.Settled root) (nulFree : 0 ∉ path)
    {result : Bytes} :
    system.canonical (append (ofLocation root) path) = some result ↔
      ∃ location, system.Denotes root path location ∧
        ofLocation location = result := by
  simp only [canonical, Option.map_eq_some_iff, locate_append settled nulFree]

theorem settled_start (settled : system.Settled root)
    (route : Route Bytes) : system.Settled (route.start root) := by
  rw [Route.start]
  split
  · exact .of_directory system.top
  · exact settled

theorem Denotes.settled (denotes : system.Denotes root path location)
    (settled : system.Settled root) : system.Settled location := by
  obtain ⟨links, _, resolves⟩ := denotes
  exact resolves.settled (settled_start settled _)

theorem exists_of_canonical {result : Bytes}
    (found : system.canonical path = some result) :
    ∃ location, system.Settled location ∧ ofLocation location = result := by
  rw [canonical, Option.map_eq_some_iff] at found
  obtain ⟨location, located, same⟩ := found
  rw [locate] at located
  split at located
  · exact absurd located nofun
  · obtain ⟨links, _, resolves⟩ := Tree.resolve_eq_some_iff.mp located
    have start : system.Settled
        ((route (cStr path)).start system.currentPath) :=
      settled_start (.of_directory system.currentPath_directory) _
    exact ⟨location, resolves.settled start, same⟩

/-- Resolving commutes with the last component. -/
theorem Denotes.lastComponent {directory : List Bytes}
    {node : Node Bytes Bytes}
    (inDirectory : system.Denotes root (parentPath path) directory)
    (found : system.node (directory ++ [filename path]) = some node)
    (noLink : ∀ target, node ≠ .link target) :
    system.Denotes root path (directory ++ [filename path]) := by
  obtain ⟨links, bound, resolves⟩ := inDirectory
  have isName : IsName (filename path) := by
    apply system.isName directory
    simp [found]
  have relative := hasRelativePath_of_filename isName.ne_nil
  obtain ⟨before, elements_eq, same⟩ := exists_elements relative
  have start_eq : (route (parentPath path)).start root =
      (route path).start root := by
    rw [route, route, Route.start, Route.start,
      isAbsolute_parentPath relative]
  have last : system.Resolves false 0 directory [.child (filename path)]
      (directory ++ [filename path]) := .child found noLink .done
  have whole := resolves.append last
  rw [← Tree.resolves_filter_iff (by simp), ← same,
    Tree.resolves_filter_iff (by simp), ← isName.element_eq,
    ← elements_eq, start_eq] at whole
  exact ⟨links, bound, whole⟩

theorem Denotes.nul_not_mem (denotes : system.Denotes root path location) :
    0 ∉ path := by
  obtain ⟨links, _, resolves⟩ := denotes
  apply nul_not_mem_of_elements
  intro name member
  obtain ⟨above, found⟩ := resolves.exists_node member
  exact (system.isName above name found).zero_not_mem

theorem Denotes.unique {other : List Bytes}
    (settled : system.Settled root)
    (denotes : system.Denotes root path location)
    (denotesOther : system.Denotes root path other) : location = other := by
  have nulFree := denotes.nul_not_mem
  have located := (locate_append settled nulFree).mpr denotes
  rw [(locate_append settled nulFree).mpr denotesOther] at located
  exact (Option.some.inj located).symm

end FileSystem

theorem mismatch_eq_nil_iff {α : Type*} [DecidableEq α]
    {firsts seconds : List α} :
    (mismatch firsts seconds).1.isEmpty = true ↔ firsts <+: seconds := by
  induction firsts generalizing seconds with
  | nil => simp [mismatch]
  | cons first firsts ih =>
      cases seconds with
      | nil => simp [mismatch]
      | cons second seconds =>
          rw [mismatch, List.cons_prefix_cons]
          split
          · next same => simp [ih, same]
          · next differ => simp [differ]

namespace FilePath

variable {filePath : FilePath} {system : FileSystem} {rootPath fileName : Bytes}
  {root location : List Bytes}

theorem isBelowRoot_ofLocation (rooted : filePath.rootPath = ofLocation root)
    (rootNames : ∀ name ∈ root, IsName name)
    (isName : ∀ name ∈ location, IsName name) :
    filePath.isBelowRoot (ofLocation location) = true ↔ root <+: location := by
  rw [isBelowRoot, mismatch_eq_nil_iff, rooted,
    components_ofLocation rootNames, components_ofLocation isName,
    List.cons_prefix_cons]
  simp

theorem isBelowRoot_append (rooted : filePath.rootPath = ofLocation root)
    (rootNames : ∀ name ∈ root, IsName name)
    (isName : ∀ name ∈ location, IsName name) {piece : Bytes}
    (isPiece : separator ∉ piece) :
    filePath.isBelowRoot (append (ofLocation location) piece) = true ↔
      root <+: location ++ [piece] := by
  rw [isBelowRoot, mismatch_eq_nil_iff, rooted,
    components_ofLocation rootNames, components_append isName isPiece,
    List.cons_prefix_cons]
  split
  · next empty =>
    obtain ⟨rfl, rfl⟩ := empty
    -- No name of the root is empty.
    have nonempty (below : root <+: [[]]) : root = [] := by
      cases root with
      | nil => rfl
      | cons first rest =>
          rw [List.cons_prefix_cons] at below
          exact absurd below.1 (rootNames first (by simp)).ne_nil
    constructor
    · intro below
      exact below.2.trans (List.nil_prefix)
    · intro below
      rw [nonempty below]
      simp
  · simp

/-- The root of a server is settled, and its path is canonical. -/
theorem exists_root
    (set : setServerRootPath system rootPath = some filePath) :
    system.Settled filePath.root ∧
      filePath.rootPath = ofLocation filePath.root := by
  rw [setServerRootPath, Option.map_eq_some_iff] at set
  obtain ⟨_, found, rfl⟩ := set
  obtain ⟨location, settled, rfl⟩ := FileSystem.exists_of_canonical found
  have named := names_ofLocation (FileSystem.isName_of_settled settled)
  constructor
  · simpa [root, named] using settled
  · simp [root, named]

theorem getReadFilePath_eq_some_iff
    (set : setServerRootPath system rootPath = some filePath)
    (nulFree : 0 ∉ fileName) {path : Bytes} :
    filePath.getReadFilePath system fileName = some path ↔
      ∃ location, system.Denotes filePath.root fileName location ∧
        filePath.root <+: location ∧ ofLocation location = path := by
  obtain ⟨settled, rooted⟩ := exists_root set
  have rootNames := FileSystem.isName_of_settled settled
  have canonical (path : Bytes) :
      system.canonical (append filePath.rootPath fileName) = some path ↔
        ∃ location, system.Denotes filePath.root fileName location ∧
          ofLocation location = path := by
    rw [rooted]
    exact FileSystem.canonical_append settled nulFree
  have below (location : List Bytes)
      (denotes : system.Denotes filePath.root fileName location) :=
    isBelowRoot_ofLocation rooted rootNames
      (FileSystem.isName_of_settled (denotes.settled settled))
  rw [getReadFilePath]
  constructor
  · intro returned
    split at returned
    · next found =>
      obtain ⟨location, denotes, rfl⟩ := (canonical _).mp found
      rw [Option.ite_none_right_eq_some] at returned
      obtain ⟨inside, returned⟩ := returned
      exact ⟨location, denotes, (below location denotes).mp inside,
        Option.some.inj returned⟩
    · exact absurd returned nofun
  · rintro ⟨location, denotes, inside, rfl⟩
    rw [(canonical _).mpr ⟨location, denotes, rfl⟩]
    simp [(below location denotes).mpr inside]

theorem getWriteFilePath_eq_some_iff
    (set : setServerRootPath system rootPath = some filePath)
    (nulFree : 0 ∉ fileName) {path : Bytes} :
    filePath.getWriteFilePath system fileName = some path ↔
      ∃ directory,
        system.Denotes filePath.root (parentPath fileName) directory ∧
          filePath.root <+: directory ++ [filename fileName] ∧
            append (ofLocation directory) (filename fileName) = path := by
  obtain ⟨settled, rooted⟩ := exists_root set
  have rootNames := FileSystem.isName_of_settled settled
  have canonical (path : Bytes) :
      system.canonical (append filePath.rootPath (parentPath fileName)) =
          some path ↔
        ∃ directory,
          system.Denotes filePath.root (parentPath fileName) directory ∧
            ofLocation directory = path := by
    rw [rooted]
    exact FileSystem.canonical_append settled
      (nul_not_mem_parentPath nulFree)
  have isPiece : separator ∉ filename fileName := separator_not_mem_filename
  have below (directory : List Bytes)
      (denotes : system.Denotes filePath.root (parentPath fileName)
        directory) :=
    isBelowRoot_append rooted rootNames
      (FileSystem.isName_of_settled (denotes.settled settled)) isPiece
  rw [getWriteFilePath]
  constructor
  · intro returned
    split at returned
    · next found =>
      obtain ⟨directory, denotes, rfl⟩ := (canonical _).mp found
      rw [Option.ite_none_right_eq_some] at returned
      obtain ⟨inside, returned⟩ := returned
      exact ⟨directory, denotes, (below directory denotes).mp inside,
        Option.some.inj returned⟩
    · exact absurd returned nofun
  · rintro ⟨directory, denotes, inside, rfl⟩
    rw [(canonical _).mpr ⟨directory, denotes, rfl⟩]
    simp [(below directory denotes).mpr inside]

end FilePath

end MsmTftp
