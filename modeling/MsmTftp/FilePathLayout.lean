import MsmTftp.FilePathContainment

/-!
# Requested files while files come and go

While a server runs, files are created and removed, but directories and
symbolic links stay.  Where a path name leads that is opened for writing
depends on these only.  What is opened for a read request lies below the root
path; what is opened for a write request does unless a symbolic link leads out
of it.  Both are the file that the requested name leads to.
-/

namespace MsmTftp

open PathResolution Pathname

namespace FileSystem

variable {system layout : FileSystem} {root location : List Bytes}
  {path fileName : Bytes} {filePath : FilePath}

/-- File systems between which only files have come and gone. -/
structure SameLayout (layout system : FileSystem) : Prop where
  tree : Tree.SameLayout layout.toTree system.toTree
  currentPath : layout.currentPath = system.currentPath
  linkLimit : layout.linkLimit = system.linkLimit

/-- What opening a path for writing creates or truncates does not depend on
the files there are. -/
theorem SameLayout.openedForWriting_eq (same : layout.SameLayout system)
    (path : Bytes) :
    system.openedForWriting path = layout.openedForWriting path := by
  simp only [openedForWriting, locate]
  split
  · rfl
  · ext location
    rw [Tree.resolve_eq_some_iff, Tree.resolve_eq_some_iff,
      same.currentPath, same.linkLimit]
    exact exists_congr fun links => and_congr_right fun _ =>
      ⟨Tree.Resolves.of_sameLayout same.tree.symm,
        Tree.Resolves.of_sameLayout same.tree⟩

theorem locate_ofLocation (settled : system.Settled location)
    (creates : Bool) :
    system.locate creates (ofLocation location) = some location := by
  have isName := isName_of_settled settled
  have top : system.Settled [] := .of_directory system.top
  have nulFree : 0 ∉ ofLocation location := by
    rw [ofLocation]
    split
    · decide
    · exact nul_not_mem_location isName
  have whole : append (ofLocation []) (ofLocation location) =
      ofLocation location := by
    rw [append, if_pos isAbsolute_ofLocation]
  rw [← whole, locate_append top nulFree, Leads, Route.start]
  refine ⟨0, Nat.zero_le _, ?_⟩
  have start : (route (ofLocation location)).fromTop = true :=
    isAbsolute_ofLocation
  rw [if_pos start, ofLocation]
  split
  · rename_i same
    rw [same]
    exact .here system.top (.here system.top .done)
  · rename_i below
    rw [elements_location isName,
      Tree.resolves_here_iff (by simpa using below)]
    have children : system.Resolves creates 0 []
        (location.map .child ++ []) location :=
      (Tree.resolves_children_iff settled).mpr .done
    simpa using children

theorem canonical_ofLocation (settled : system.Settled location) :
    system.canonical (ofLocation location) = some (ofLocation location) := by
  rw [canonical, locate_ofLocation settled]
  rfl

/-- No symbolic link below a location leads to somewhere else. -/
def Sealed (system : FileSystem) (root : List Bytes) : Prop :=
  ∀ directory name target, root <+: directory →
    system.node (directory ++ [name]) = some (.link target) →
      ∀ links < system.linkLimit, ∀ location,
        system.Resolves true links (target.start directory) target.elements
          location →
            root <+: location

theorem Sealed.of_sameLayout (isSealed : layout.Sealed root)
    (same : layout.SameLayout system) : system.Sealed root := by
  intro directory name target inside found links bound location resolves
  exact isSealed directory name target inside
    ((same.tree.link _ _).mpr found) links
    (by rw [same.linkLimit]; exact bound) location
    (Tree.Resolves.of_sameLayout same.tree.symm resolves)

end FileSystem

namespace FilePath

variable {filePath : FilePath} {system layout : FileSystem}
  {rootPath fileName path : Bytes} {location : List Bytes}

theorem set_of_sameLayout
    (set : setServerRootPath layout rootPath = some filePath)
    (directory : layout.node filePath.root = some .directory)
    (same : layout.SameLayout system) :
    setServerRootPath system filePath.rootPath = some filePath := by
  have rooted := (exists_root set).2
  have settled : system.Settled filePath.root :=
    .of_directory ((same.tree.directory _).mp directory)
  have canonical := FileSystem.canonical_ofLocation settled
  rw [← rooted] at canonical
  rw [setServerRootPath, canonical]
  rfl

theorem read_below_root
    (set : setServerRootPath system rootPath = some filePath)
    (nulFree : 0 ∉ fileName)
    (found : filePath.getReadFilePath system fileName = some path) :
    ∃ location, system.openedForWriting path = some location ∧
      filePath.root <+: location := by
  obtain ⟨location, denotes, inside, rfl⟩ :=
    (getReadFilePath_eq_some_iff set nulFree).mp found
  exact ⟨location,
    FileSystem.locate_ofLocation (denotes.settled (exists_root set).1) true,
    inside⟩

/-- What is opened for a write request lies below the root when no symbolic
link leads out of it, since a directory is not opened. -/
theorem write_below_root
    (set : setServerRootPath system rootPath = some filePath)
    (nulFree : 0 ∉ fileName) (isSealed : system.Sealed filePath.root)
    (found : filePath.getWriteFilePath system fileName = some path)
    (opened : system.openedForWriting path = some location)
    (file : system.node location ≠ some .directory) :
    filePath.root <+: location := by
  have settled := (exists_root set).1
  obtain ⟨directory, inDirectory, inside, rfl⟩ :=
    (getWriteFilePath_eq_some_iff set nulFree).mp found
  have below := inDirectory.settled settled
  rw [openedForWriting_iff below nulFree] at opened
  obtain ⟨links, bound, resolves⟩ := opened
  rcases List.prefix_concat_iff.mp inside with whole | inside
  · -- The file has the path of the root itself.
    rw [whole] at settled ⊢
    have isName : IsName (filename fileName) := by
      apply FileSystem.isName_of_settled settled
      simp
    rw [isName.element_eq] at resolves
    obtain rfl := resolves.eq_of_settled settled
    exact List.prefix_refl _
  · have isDirectory := resolves.directory (List.cons_ne_nil _ _)
    generalize last : element (filename fileName) = component at resolves
    cases resolves with
    | here _ resolved =>
        cases resolved
        exact absurd isDirectory file
    | up _ resolved =>
        cases resolved
        refine absurd ?_ file
        rcases List.eq_nil_or_concat directory with rfl | ⟨above, name, rfl⟩
        · exact system.top
        · rw [List.concat_eq_append] at isDirectory ⊢
          rw [List.dropLast_concat]
          exact system.parent above name (by simp [isDirectory])
    | child _ _ resolved =>
        cases resolved
        exact inside.trans (List.prefix_append _ _)
    | link linked resolved =>
        rw [List.append_nil] at resolved
        exact isSealed directory _ _ inside linked _ bound _ resolved
    | create => exact inside.trans (List.prefix_append _ _)

theorem read_leads
    (set : setServerRootPath system rootPath = some filePath)
    (nulFree : 0 ∉ fileName)
    (found : filePath.getReadFilePath system fileName = some path)
    (opened : system.openedForWriting path = some location) :
    ∃ links, system.Resolves true links ((route fileName).start filePath.root)
      (elements fileName) location := by
  obtain ⟨read, denotes, inside, rfl⟩ :=
    (getReadFilePath_eq_some_iff set nulFree).mp found
  have settled := denotes.settled (exists_root set).1
  have same : some read = some location :=
    (FileSystem.locate_ofLocation settled true).symm.trans opened
  obtain rfl := Option.some.inj same
  obtain ⟨links, _, resolves⟩ := denotes
  have whole : system.Resolves true (links + 0)
      ((route fileName).start filePath.root) (elements fileName ++ []) read :=
    resolves.append .done
  rw [List.append_nil] at whole
  exact ⟨_, whole⟩

theorem write_leads
    (set : setServerRootPath system rootPath = some filePath)
    (nulFree : 0 ∉ fileName)
    (found : filePath.getWriteFilePath system fileName = some path)
    (opened : system.openedForWriting path = some location)
    (file : system.node location ≠ some .directory) :
    ∃ links, system.Resolves true links ((route fileName).start filePath.root)
      (elements fileName) location := by
  obtain ⟨directory, inDirectory, _, rfl⟩ :=
    (getWriteFilePath_eq_some_iff set nulFree).mp found
  have below := inDirectory.settled (exists_root set).1
  rw [openedForWriting_iff below nulFree] at opened
  obtain ⟨after, _, last⟩ := opened
  have named : filename fileName ≠ [] := by
    intro empty
    rw [empty] at last
    cases last with
    | here isDirectory resolved =>
        cases resolved
        exact file isDirectory
  have relative := hasRelativePath_of_filename named
  obtain ⟨names, elements_eq, same⟩ := exists_elements relative
  obtain ⟨before, _, resolves⟩ := inDirectory
  have whole := resolves.append last
  rw [← Tree.resolves_filter_iff (by simp), ← same,
    Tree.resolves_filter_iff (by simp), ← elements_eq] at whole
  rw [route, Route.start, ← isAbsolute_parentPath relative]
  exact ⟨_, whole⟩

/-- A file is opened for a requested name, at a time when only files have
come and gone. -/
def Opens (filePath : FilePath) (layout : FileSystem) (fileName : Bytes)
    (truncates : Bool) (location : List Bytes) : Prop :=
  ∃ system path, layout.SameLayout system ∧
    setServerRootPath system filePath.rootPath = some filePath ∧
      0 ∉ fileName ∧
        (if truncates then filePath.getWriteFilePath system fileName
          else filePath.getReadFilePath system fileName) = some path ∧
          system.openedForWriting path = some location ∧
            system.node location ≠ some .directory

/-- What is opened is below the root; for a write request no symbolic link may
lead out of it. -/
theorem Opens.below {truncates : Bool}
    (opens : filePath.Opens layout fileName truncates location)
    (allowed : truncates = false ∨ layout.Sealed filePath.root) :
    filePath.root <+: location := by
  obtain ⟨system, path, same, set, nulFree, found, opened, file⟩ := opens
  cases truncates with
  | false =>
      obtain ⟨below, leads, inside⟩ := read_below_root set nulFree found
      rw [leads] at opened
      rwa [← Option.some.inj opened]
  | true =>
      have isSealed := (allowed.resolve_left (by simp)).of_sameLayout same
      exact write_below_root set nulFree isSealed found opened file

theorem Opens.unique {truncates others : Bool} {other : List Bytes}
    (opens : filePath.Opens layout fileName truncates location)
    (opensOther : filePath.Opens layout fileName others other) :
    location = other := by
  have leads {truncates : Bool} {location : List Bytes}
      (opens : filePath.Opens layout fileName truncates location) :
      ∃ links, layout.Resolves true links
        ((route fileName).start filePath.root) (elements fileName)
          location := by
    obtain ⟨system, path, same, set, nulFree, found, opened, file⟩ := opens
    obtain ⟨links, resolves⟩ : ∃ links, system.Resolves true links
        ((route fileName).start filePath.root) (elements fileName)
          location := by
      cases truncates with
      | false => exact read_leads set nulFree found opened
      | true => exact write_leads set nulFree found opened file
    exact ⟨links, Tree.Resolves.of_sameLayout same.tree.symm resolves⟩
  obtain ⟨_, resolves⟩ := leads opens
  obtain ⟨_, resolvesOther⟩ := leads opensOther
  exact resolves.unique resolvesOther

end FilePath

end MsmTftp
