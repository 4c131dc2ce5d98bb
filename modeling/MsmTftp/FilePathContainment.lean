import MsmTftp.FilePath

/-!
# Requested files stay below the root path

The path `getReadFilePath` returns is the location the file name denotes,
which is the root or lies below it.  `getWriteFilePath` resolves the directory
of the file name only: its path names a location below the root unless the
last component is a symbolic link that leads elsewhere, or the parent of the
root.
-/

namespace MsmTftp

open PathResolution Pathname

namespace FilePath

variable {filePath : FilePath} {system : FileSystem}
  {rootPath fileName : Bytes} {root location : List Bytes}

/-- A root with a file and a symbolic link to a file outside of it: `/r`, the
file `/r/f`, and `/r/l` with the target `/o`. -/
def linkedFiles : FileSystem :=
  .ofEntries
    [([], .directory),
      ([[114]], .directory),
      ([[114], [102]], .file [1]),
      ([[114], [108]], .link (route [47, 111])),
      ([[111]], .file [2])]
    (by decide) (by decide) (by decide) 40

theorem linkedFiles_root :
    setServerRootPath linkedFiles [47, 114] = some ⟨[47, 114]⟩ := by
  rfl

/-- A file name is looked up below the root: the path returned is the location
it denotes, where something other than a link is, at the root or below it.  A
sibling of the root whose name goes on where that of the root ends is no
location below the root. -/
theorem read_path_below_root
    (set : setServerRootPath system rootPath = some filePath)
    (nulFree : 0 ∉ fileName) :
    (∀ path, filePath.getReadFilePath system fileName = some path ↔
      ∃ location, system.Denotes filePath.root fileName location ∧
        system.Settled location ∧ filePath.root <+: location ∧
          ofLocation location = path) ∧
      ∀ above last suffix below, filePath.root = above ++ [last] →
        suffix ≠ [] →
          system.Denotes filePath.root fileName
            (above ++ (last ++ suffix) :: below) →
              filePath.getReadFilePath system fileName = none := by
  have settled := (exists_root set).1
  constructor
  · intro path
    rw [getReadFilePath_eq_some_iff set nulFree]
    constructor
    · rintro ⟨location, denotes, inside, path_eq⟩
      exact ⟨location, denotes, denotes.settled settled, inside, path_eq⟩
    · rintro ⟨location, denotes, _, inside, path_eq⟩
      exact ⟨location, denotes, inside, path_eq⟩
  · intro above last suffix below root_eq longer denotes
    rw [Option.eq_none_iff_forall_ne_some]
    intro path returned
    obtain ⟨location, denotesLocation, inside, _⟩ :=
      (getReadFilePath_eq_some_iff set nulFree).mp returned
    have same := denotes.unique settled denotesLocation
    rw [root_eq, ← same, List.prefix_append_right_inj,
      List.cons_prefix_cons] at inside
    exact longer (List.self_eq_append_right.mp inside.1)

theorem file_path_returned :
    (FilePath.mk [47, 114]).getReadFilePath linkedFiles [102] =
      some [47, 114, 47, 102] := by
  apply ((read_path_below_root linkedFiles_root (by decide)).1 _).mpr
  have found : linkedFiles.node [[114], [102]] = some (.file [1]) := by
    rfl
  exact ⟨[[114], [102]], Tree.resolve_eq_some_iff.mp (by rfl),
    ⟨_, found, nofun⟩, by decide, by rfl⟩

/-- Where the last component of a file name names a regular file, reading and
writing agree on its path. -/
theorem read_write_paths_agree
    (set : setServerRootPath system rootPath = some filePath)
    {directory : List Bytes} {data : Bytes}
    (inDirectory : system.Denotes filePath.root (parentPath fileName)
      directory)
    (file : system.node (directory ++ [filename fileName]) =
      some (.file data)) :
    filePath.getReadFilePath system fileName =
      filePath.getWriteFilePath system fileName := by
  have settled := (exists_root set).1
  have denotes := inDirectory.lastComponent file nofun
  have nulFree := denotes.nul_not_mem
  have path_eq : append (ofLocation directory) (filename fileName) =
      ofLocation (directory ++ [filename fileName]) := by
    have isName :=
      FileSystem.isName_of_settled (inDirectory.settled settled)
    rw [append_ofLocation
      (isAbsolute_of_not_mem separator_not_mem_filename) isName]
    simp [ofLocation]
  ext path
  rw [getReadFilePath_eq_some_iff set nulFree,
    getWriteFilePath_eq_some_iff set nulFree]
  constructor
  · rintro ⟨location, denotesLocation, inside, rfl⟩
    have same := denotes.unique settled denotesLocation
    subst same
    exact ⟨directory, inDirectory, inside, path_eq⟩
  · rintro ⟨other, inOther, inside, rfl⟩
    have same := inDirectory.unique settled inOther
    subst same
    exact ⟨_, denotes, inside, path_eq.symm⟩

theorem file_paths_agree :
    (FilePath.mk [47, 114]).getReadFilePath linkedFiles [102] =
      (FilePath.mk [47, 114]).getWriteFilePath linkedFiles [102] := by
  have inDirectory : linkedFiles.Denotes (FilePath.root ⟨[47, 114]⟩)
      (parentPath [102]) [[114]] := Tree.resolve_eq_some_iff.mp (by rfl)
  have file : linkedFiles.node ([[114]] ++ [filename [102]]) =
      some (.file [1]) := by
    rfl
  exact read_write_paths_agree linkedFiles_root inDirectory file

/-- The last component of a file name stays inside: in a directory below the
root it is not the parent of the root, and no symbolic link that leads
elsewhere. -/
def LastComponentStays (filePath : FilePath) (system : FileSystem)
    (fileName : Bytes) : Prop :=
  ∀ directory, system.Denotes filePath.root (parentPath fileName) directory →
    system.node directory = some .directory →
      filePath.root <+: directory →
        (element (filename fileName) = .up → directory = filePath.root →
          filePath.root = []) ∧
        ∀ target, system.node (directory ++ [filename fileName]) =
            some (.link target) →
          ∀ links < system.linkLimit, ∀ location,
            system.Resolves true links (target.start directory)
                target.elements location →
              filePath.root <+: location

/-- Where opening the path of a file name in a directory leads. -/
theorem openedForWriting_iff {directory : List Bytes}
    (settled : system.Settled directory) (nulFree : 0 ∉ fileName) :
    system.openedForWriting
        (append (ofLocation directory) (filename fileName)) =
          some location ↔
      ∃ links ≤ system.linkLimit,
        system.Resolves true links directory [element (filename fileName)]
          location := by
  have relative : isAbsolute (filename fileName) = false :=
    isAbsolute_of_not_mem separator_not_mem_filename
  rw [FileSystem.openedForWriting,
    FileSystem.locate_append settled (nul_not_mem_filename nulFree),
    FileSystem.Leads, elements_piece separator_not_mem_filename]
  simp [route, Route.start, relative]

theorem prefix_dropLast {directory : List Bytes} (inside : root <+: directory)
    (below : root ≠ directory) : root <+: directory.dropLast := by
  rcases List.eq_nil_or_concat directory with rfl | ⟨above, name, rfl⟩
  · exact inside
  · rw [List.concat_eq_append] at inside below ⊢
    rw [List.prefix_concat_iff] at inside
    rw [List.dropLast_concat]
    exact inside.resolve_left below

/-- From a directory below the root, a last component that stays inside leads
below the root. -/
theorem LastComponentStays.below {directory : List Bytes} {links : Nat}
    (stays : filePath.LastComponentStays system fileName)
    (inDirectory : system.Denotes filePath.root (parentPath fileName)
      directory)
    (inside : filePath.root <+: directory)
    (bound : links ≤ system.linkLimit)
    (resolves : system.Resolves true links directory
      [element (filename fileName)] location) :
    filePath.root <+: location := by
  have isDirectory := resolves.directory (List.cons_ne_nil _ _)
  obtain ⟨above, linked⟩ := stays directory inDirectory isDirectory inside
  have childBelow (name : Bytes) : filePath.root <+: directory ++ [name] :=
    inside.trans (List.prefix_append _ _)
  generalize last : element (filename fileName) = component at resolves
  cases resolves with
  | here _ resolved =>
      cases resolved
      exact inside
  | up _ resolved =>
      cases resolved
      by_cases top : directory = filePath.root
      · rw [above last top]
        exact List.nil_prefix
      · exact prefix_dropLast inside (Ne.symm top)
  | child _ _ resolved =>
      cases resolved
      exact childBelow _
  | link found resolved =>
      rw [element_eq_child last] at found
      rw [List.append_nil] at resolved
      exact linked _ found _ bound location resolved
  | create => exact childBelow _

/-- Where writing stays below the root, the last component does. -/
theorem lastComponentStays_of_contained
    (set : setServerRootPath system rootPath = some filePath)
    (nulFree : 0 ∉ fileName)
    (contained : ∀ path,
      filePath.getWriteFilePath system fileName = some path →
        ∀ location, system.openedForWriting path = some location →
          filePath.root <+: location) :
    filePath.LastComponentStays system fileName := by
  intro directory inDirectory isDirectory inside
  have settled := inDirectory.settled (exists_root set).1
  have returned := (getWriteFilePath_eq_some_iff set nulFree).mpr
    ⟨directory, inDirectory, inside.trans (List.prefix_append _ _), rfl⟩
  have leads {links : Nat} {location : List Bytes}
      (bound : links ≤ system.linkLimit)
      (resolves : system.Resolves true links directory
        [element (filename fileName)] location) :
      filePath.root <+: location := by
    apply contained _ returned
    rw [openedForWriting_iff settled nulFree]
    exact ⟨links, bound, resolves⟩
  constructor
  · intro up same
    rw [up] at leads
    have above := leads (Nat.zero_le _) (.up isDirectory .done)
    rw [same] at above
    have length_le := above.length_le
    rw [List.length_dropLast] at length_le
    apply List.eq_nil_of_length_eq_zero
    omega
  · intro target found links bound location resolves
    have isName : IsName (filename fileName) := by
      apply system.isName directory
      simp [found]
    rw [isName.element_eq] at leads
    apply leads (Nat.succ_le_of_lt bound)
    apply Tree.Resolves.link found
    rw [List.append_nil]
    exact resolves

/-- Writing stays below the root exactly when the last component does. -/
theorem write_path_below_root_iff
    (set : setServerRootPath system rootPath = some filePath)
    (nulFree : 0 ∉ fileName) :
    (∀ path, filePath.getWriteFilePath system fileName = some path →
      ∀ location, system.openedForWriting path = some location →
        filePath.root <+: location) ↔
      filePath.LastComponentStays system fileName := by
  have settled := (exists_root set).1
  constructor
  · exact lastComponentStays_of_contained set nulFree
  · intro stays path returned location opened
    obtain ⟨directory, inDirectory, inside, rfl⟩ :=
      (getWriteFilePath_eq_some_iff set nulFree).mp returned
    rw [openedForWriting_iff (inDirectory.settled settled) nulFree] at opened
    obtain ⟨links, bound, resolves⟩ := opened
    rcases List.prefix_concat_iff.mp inside with whole | inside
    · -- The path is that of the root itself.
      rw [whole] at settled ⊢
      have isName : IsName (filename fileName) := by
        apply FileSystem.isName_of_settled settled
        simp
      rw [isName.element_eq] at resolves
      obtain rfl := resolves.eq_of_settled settled
      exact List.prefix_refl _
    · exact stays.below inDirectory inside bound resolves

theorem linked_path_stays_iff :
    (∀ path, (FilePath.mk [47, 114]).getWriteFilePath linkedFiles [108] =
        some path →
      ∀ location, linkedFiles.openedForWriting path = some location →
        FilePath.root ⟨[47, 114]⟩ <+: location) ↔
      LastComponentStays ⟨[47, 114]⟩ linkedFiles [108] :=
  write_path_below_root_iff linkedFiles_root (by decide)

/-- Through the symbolic link, an upload overwrites the file outside of the
root; a download is turned down. -/
theorem linked_path_escapes :
    setServerRootPath linkedFiles [47, 114] = some ⟨[47, 114]⟩ ∧
      (FilePath.mk [47, 114]).getReadFilePath linkedFiles [108] = none ∧
        ¬∀ path, (FilePath.mk [47, 114]).getWriteFilePath linkedFiles [108] =
            some path →
          ∀ location, linkedFiles.openedForWriting path = some location →
            FilePath.root ⟨[47, 114]⟩ <+: location := by
  refine ⟨linkedFiles_root, by rfl, ?_⟩
  intro contained
  have inside := contained [47, 114, 47, 108] (by rfl) [[111]] (by rfl)
  exact absurd inside (by decide)

end FilePath

end MsmTftp
