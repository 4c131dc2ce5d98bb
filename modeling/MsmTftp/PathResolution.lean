import Mathlib.Data.List.Basic
import Mathlib.Data.List.Induction
import Mathlib.Tactic.Common

/-!
# Path names in a tree with symbolic links

A location is the list of the names that lead to it from the top of the tree.
A path name is resolved element by element, starting at some location.  Where
an element names a symbolic link, the elements of its target take its place;
the number of links that one resolution follows is limited.
-/

namespace PathResolution

/-- An element of a path name. -/
inductive Element (Name : Type*)
  /-- The directory itself. -/
  | here
  /-- The directory above; the top is above itself. -/
  | up
  | child (name : Name)
  deriving DecidableEq

/-- What a symbolic link leads to. -/
structure Route (Name : Type*) where
  fromTop : Bool
  elements : List (Element Name)
  deriving DecidableEq

/-- Where the target of a link in a directory starts. -/
def Route.start {Name : Type*} (route : Route Name)
    (directory : List Name) : List Name :=
  if route.fromTop then [] else directory

inductive Node (Name Data : Type*)
  | directory
  | file (data : Data)
  | link (target : Route Name)
  deriving DecidableEq

/-- Everything but the top is in a directory. -/
structure Tree (Name Data : Type*) where
  node : List Name → Option (Node Name Data)
  top : node [] = some .directory
  parent : ∀ location name, node (location ++ [name]) ≠ none →
    node location = some .directory

variable {Name Data : Type*}

namespace Tree

section Entries

variable [DecidableEq Name] {entries : List (List Name × Node Name Data)}

/-- What a list of entries has at a location. -/
def lookup (entries : List (List Name × Node Name Data))
    (location : List Name) : Option (Node Name Data) :=
  entries.lookup location

theorem mem_of_lookup {location : List Name}
    (found : lookup entries location ≠ none) :
    ∃ node, (location, node) ∈ entries := by
  obtain ⟨node, found⟩ := Option.ne_none_iff_exists'.mp found
  obtain ⟨before, after, split, _⟩ := List.lookup_eq_some_iff.mp found
  refine ⟨node, ?_⟩
  simp [split]

/-- The tree of a list of entries. -/
def ofEntries (entries : List (List Name × Node Name Data))
    (top : lookup entries [] = some .directory)
    (parent : ∀ entry ∈ entries, entry.1 = [] ∨
      lookup entries entry.1.dropLast = some .directory) :
    Tree Name Data where
  node := lookup entries
  top := top
  parent := by
    intro location name found
    obtain ⟨node, member⟩ := mem_of_lookup found
    simpa using parent _ member

end Entries

section Resolution

variable (tree : Tree Name Data)

def isDirectory (location : List Name) : Bool :=
  match tree.node location with
  | some .directory => true
  | _ => false

/-- Read the elements of a path name up to a symbolic link, which is left to
`follow`.  With `creates`, the last element may name what is missing. -/
def walk (creates : Bool)
    (follow : List Name → List (Element Name) → Option (List Name)) :
    List Name → List (Element Name) → Option (List Name)
  | location, [] => some location
  | location, .here :: rest =>
      if tree.isDirectory location then walk creates follow location rest
      else none
  | location, .up :: rest =>
      if tree.isDirectory location then
        walk creates follow location.dropLast rest
      else none
  | location, .child name :: rest =>
      match tree.node (location ++ [name]) with
      | some (.link target) =>
          follow (target.start location) (target.elements ++ rest)
      | some _ => walk creates follow (location ++ [name]) rest
      | none =>
          if creates && rest.isEmpty && tree.isDirectory location then
            some (location ++ [name])
          else none

/-- Resolve a path name that leads over a limited number of links. -/
def resolve (creates : Bool) :
    Nat → List Name → List (Element Name) → Option (List Name)
  | 0 => tree.walk creates fun _ _ => none
  | limit + 1 => tree.walk creates (resolve creates limit)

/-- A path name leads from one location to another, over a number of links. -/
inductive Resolves (creates : Bool) :
    Nat → List Name → List (Element Name) → List Name → Prop
  | done {location : List Name} : Resolves creates 0 location [] location
  | here {links : Nat} {location destination : List Name}
      {rest : List (Element Name)}
      (directory : tree.node location = some .directory)
      (resolved : Resolves creates links location rest destination) :
      Resolves creates links location (.here :: rest) destination
  | up {links : Nat} {location destination : List Name}
      {rest : List (Element Name)}
      (directory : tree.node location = some .directory)
      (resolved : Resolves creates links location.dropLast rest
        destination) :
      Resolves creates links location (.up :: rest) destination
  | child {links : Nat} {location destination : List Name}
      {rest : List (Element Name)} {name : Name} {node : Node Name Data}
      (found : tree.node (location ++ [name]) = some node)
      (noLink : ∀ target, node ≠ .link target)
      (resolved : Resolves creates links (location ++ [name]) rest
        destination) :
      Resolves creates links location (.child name :: rest) destination
  | link {links : Nat} {location destination : List Name}
      {rest : List (Element Name)} {name : Name} {target : Route Name}
      (found : tree.node (location ++ [name]) = some (.link target))
      (resolved : Resolves creates links (target.start location)
        (target.elements ++ rest) destination) :
      Resolves creates (links + 1) location (.child name :: rest)
        destination
  | create {location : List Name} {name : Name}
      (allowed : creates = true)
      (directory : tree.node location = some .directory)
      (missing : tree.node (location ++ [name]) = none) :
      Resolves creates 0 location [.child name] (location ++ [name])

/-- Something is at the location, and it is no link. -/
def Settled (location : List Name) : Prop :=
  ∃ node, tree.node location = some node ∧ ∀ target, node ≠ .link target

end Resolution

section Executable

variable {tree : Tree Name Data} {creates : Bool} {limit links : Nat}
  {location destination : List Name} {elements rest : List (Element Name)}
  {name : Name}

theorem isDirectory_iff :
    tree.isDirectory location = true ↔
      tree.node location = some .directory := by
  unfold isDirectory
  split <;> simp_all

@[simp]
theorem resolve_nil :
    tree.resolve creates limit location [] = some location := by
  cases limit <;> rfl

theorem resolve_here (directory : tree.node location = some .directory) :
    tree.resolve creates limit location (.here :: rest) =
      tree.resolve creates limit location rest := by
  have isDirectory := isDirectory_iff.mpr directory
  cases limit <;> simp [resolve, walk, isDirectory]

theorem resolve_up (directory : tree.node location = some .directory) :
    tree.resolve creates limit location (.up :: rest) =
      tree.resolve creates limit location.dropLast rest := by
  have isDirectory := isDirectory_iff.mpr directory
  cases limit <;> simp [resolve, walk, isDirectory]

theorem resolve_child {node : Node Name Data}
    (found : tree.node (location ++ [name]) = some node)
    (noLink : ∀ target, node ≠ .link target) :
    tree.resolve creates limit location (.child name :: rest) =
      tree.resolve creates limit (location ++ [name]) rest := by
  cases node with
  | link target => exact absurd rfl (noLink target)
  | directory => cases limit <;> simp [resolve, walk, found]
  | file data => cases limit <;> simp [resolve, walk, found]

theorem resolve_link {target : Route Name}
    (found : tree.node (location ++ [name]) = some (.link target)) :
    tree.resolve creates (limit + 1) location (.child name :: rest) =
      tree.resolve creates limit (target.start location)
        (target.elements ++ rest) := by
  rw [resolve, walk, found]

theorem resolve_create (allowed : creates = true)
    (directory : tree.node location = some .directory)
    (missing : tree.node (location ++ [name]) = none) :
    tree.resolve creates limit location [.child name] =
      some (location ++ [name]) := by
  have isDirectory := isDirectory_iff.mpr directory
  cases limit <;> simp [resolve, walk, missing, allowed, isDirectory]

theorem Resolves.of_walk
    {follow : List Name → List (Element Name) → Option (List Name)}
    (followed : ∀ location elements destination,
      follow location elements = some destination →
        ∃ links < limit,
          tree.Resolves creates links location elements destination)
    (walked : tree.walk creates follow location elements =
      some destination) :
    ∃ links ≤ limit,
      tree.Resolves creates links location elements destination := by
  induction elements generalizing location with
  | nil =>
      rw [walk, Option.some.injEq] at walked
      subst walked
      exact ⟨0, Nat.zero_le _, .done⟩
  | cons element rest ih =>
      cases element with
      | here =>
          rw [walk] at walked
          split at walked
          · next directory =>
            obtain ⟨links, bound, resolved⟩ := ih walked
            exact ⟨links, bound,
              .here (isDirectory_iff.mp directory) resolved⟩
          · exact absurd walked nofun
      | up =>
          rw [walk] at walked
          split at walked
          · next directory =>
            obtain ⟨links, bound, resolved⟩ := ih walked
            exact ⟨links, bound,
              .up (isDirectory_iff.mp directory) resolved⟩
          · exact absurd walked nofun
      | child name =>
          rw [walk] at walked
          split at walked
          · next target found =>
            obtain ⟨links, bound, resolved⟩ := followed _ _ _ walked
            exact ⟨links + 1, bound, .link found resolved⟩
          · next node noLink found =>
            obtain ⟨links, bound, resolved⟩ := ih walked
            exact ⟨links, bound, .child found noLink resolved⟩
          · next missing =>
            split at walked
            · next allowed =>
              simp only [Bool.and_eq_true, List.isEmpty_iff] at allowed
              obtain ⟨⟨creates, rfl⟩, directory⟩ := allowed
              rw [Option.some.injEq] at walked
              subst walked
              exact ⟨0, Nat.zero_le _,
                .create creates (isDirectory_iff.mp directory) missing⟩
            · exact absurd walked nofun

theorem Resolves.of_resolve
    (resolved : tree.resolve creates limit location elements =
      some destination) :
    ∃ links ≤ limit,
      tree.Resolves creates links location elements destination := by
  induction limit generalizing location elements destination with
  | zero =>
      apply Resolves.of_walk _ resolved
      intro location elements destination followed
      exact absurd followed nofun
  | succ limit ih =>
      apply Resolves.of_walk _ resolved
      intro location elements destination followed
      obtain ⟨links, bound, resolved⟩ := ih followed
      exact ⟨links, by omega, resolved⟩

theorem Resolves.resolve
    (resolves : tree.Resolves creates links location elements destination)
    (bound : links ≤ limit) :
    tree.resolve creates limit location elements = some destination := by
  induction resolves generalizing limit with
  | done => exact resolve_nil
  | here directory _ ih =>
      rw [resolve_here directory]
      exact ih bound
  | up directory _ ih =>
      rw [resolve_up directory]
      exact ih bound
  | child found noLink _ ih =>
      rw [resolve_child found noLink]
      exact ih bound
  | link found _ ih =>
      obtain ⟨limit, rfl⟩ : ∃ smaller, limit = smaller + 1 :=
        ⟨limit - 1, by omega⟩
      rw [resolve_link found]
      exact ih (by omega)
  | create allowed directory missing =>
      exact resolve_create allowed directory missing

/-- Resolving computes the location a path name leads to over at most as many
links as the limit says. -/
theorem resolve_eq_some_iff :
    tree.resolve creates limit location elements = some destination ↔
      ∃ links ≤ limit,
        tree.Resolves creates links location elements destination := by
  constructor
  · exact Resolves.of_resolve
  · rintro ⟨links, bound, resolves⟩
    exact resolves.resolve bound

end Executable

section Settled

variable {tree : Tree Name Data} {creates : Bool} {links : Nat}
  {location destination names : List Name} {name : Name}
  {elements : List (Element Name)}

theorem Settled.of_directory
    (directory : tree.node location = some .directory) :
    tree.Settled location :=
  ⟨.directory, directory, nofun⟩

theorem Settled.directory (settled : tree.Settled (location ++ [name])) :
    tree.node location = some .directory := by
  obtain ⟨node, found, _⟩ := settled
  apply tree.parent location name
  simp [found]

theorem Settled.of_append (settled : tree.Settled (location ++ names)) :
    tree.Settled location := by
  induction names using List.reverseRecOn with
  | nil => simpa using settled
  | append_singleton names name ih =>
      rw [← List.append_assoc] at settled
      exact ih (.of_directory settled.directory)

theorem Settled.above (directory : tree.node location = some .directory) :
    tree.Settled location.dropLast := by
  cases location using List.reverseRecOn with
  | nil => exact .of_directory directory
  | append_singleton location name =>
      rw [List.dropLast_concat]
      exact .of_append (.of_directory directory)

theorem Resolves.settled
    (resolves : tree.Resolves false links location elements destination)
    (settled : tree.Settled location) : tree.Settled destination := by
  induction resolves with
  | done => exact settled
  | here _ _ ih => exact ih settled
  | up directory _ ih => exact ih (.above directory)
  | child found noLink _ ih => exact ih ⟨_, found, noLink⟩
  | @link _ location _ _ name target found _ ih =>
      apply ih
      rw [Route.start]
      split
      · exact .of_directory tree.top
      · exact settled
  | create allowed => exact absurd allowed nofun

theorem resolves_children_iff
    (settled : tree.Settled (location ++ names)) :
    tree.Resolves creates links location (names.map .child ++ elements)
        destination ↔
      tree.Resolves creates links (location ++ names) elements
        destination := by
  induction names generalizing location with
  | nil => simp
  | cons name names ih =>
      have split : location ++ name :: names =
          (location ++ [name]) ++ names := by simp
      rw [split] at settled ⊢
      obtain ⟨node, found, noLink⟩ := settled.of_append
      rw [← ih settled, List.map_cons, List.cons_append]
      generalize names.map Element.child ++ elements = rest
      constructor
      · intro resolves
        cases resolves with
        | child _ _ resolved => exact resolved
        | link linked =>
            rw [found, Option.some.injEq] at linked
            exact absurd linked (noLink _)
        | create _ _ missing =>
            rw [found] at missing
            exact absurd missing nofun
      · intro resolved
        exact .child found noLink resolved

theorem Resolves.eq_of_settled (settled : tree.Settled (location ++ [name]))
    (resolves : tree.Resolves creates links location [.child name]
      destination) :
    destination = location ++ [name] := by
  have resolved : tree.Resolves creates links (location ++ [name]) []
      destination := by
    rw [← resolves_children_iff settled]
    exact resolves
  cases resolved
  rfl

end Settled

section Splitting

variable {tree : Tree Name Data} {creates : Bool} {links : Nat}
  {location destination middle : List Name}
  {first second rest elements : List (Element Name)}

theorem Resolves.append {before after : Nat}
    (initial : tree.Resolves false before location first middle)
    (final : tree.Resolves creates after middle second destination) :
    tree.Resolves creates (before + after) location (first ++ second)
      destination := by
  induction initial with
  | done =>
      rw [Nat.zero_add]
      exact final
  | here directory _ ih => exact .here directory (ih final)
  | up directory _ ih => exact .up directory (ih final)
  | child found noLink _ ih => exact .child found noLink (ih final)
  | link found _ ih =>
      rw [Nat.add_right_comm]
      have resolved := ih final
      rw [List.append_assoc] at resolved
      exact .link found resolved
  | create allowed => exact absurd allowed nofun

/-- Before the last elements of a path name, nothing is created. -/
theorem Resolves.exists_of_append
    (resolves : tree.Resolves creates links location (first ++ second)
      destination)
    (nonempty : second ≠ []) :
    ∃ before after middle,
      tree.Resolves false before location first middle ∧
        tree.Resolves creates after middle second destination ∧
          before + after = links := by
  generalize split : first ++ second = elements at resolves
  induction resolves generalizing first with
  | done => simp_all
  | here directory resolved ih =>
      rcases List.append_eq_cons_iff.mp split with ⟨rfl, rfl⟩ |
        ⟨first, rfl, rfl⟩
      · exact ⟨0, _, _, .done, .here directory resolved, Nat.zero_add _⟩
      · obtain ⟨before, after, middle, initial, final, sum⟩ := ih rfl
        exact ⟨before, after, middle, .here directory initial, final, sum⟩
  | up directory resolved ih =>
      rcases List.append_eq_cons_iff.mp split with ⟨rfl, rfl⟩ |
        ⟨first, rfl, rfl⟩
      · exact ⟨0, _, _, .done, .up directory resolved, Nat.zero_add _⟩
      · obtain ⟨before, after, middle, initial, final, sum⟩ := ih rfl
        exact ⟨before, after, middle, .up directory initial, final, sum⟩
  | child found noLink resolved ih =>
      rcases List.append_eq_cons_iff.mp split with ⟨rfl, rfl⟩ |
        ⟨first, rfl, rfl⟩
      · exact ⟨0, _, _, .done, .child found noLink resolved,
          Nat.zero_add _⟩
      · obtain ⟨before, after, middle, initial, final, sum⟩ := ih rfl
        exact ⟨before, after, middle, .child found noLink initial, final,
          sum⟩
  | link found resolved ih =>
      rcases List.append_eq_cons_iff.mp split with ⟨rfl, rfl⟩ |
        ⟨first, rfl, rfl⟩
      · exact ⟨0, _, _, .done, .link found resolved, Nat.zero_add _⟩
      · obtain ⟨before, after, middle, initial, final, sum⟩ :=
          ih (List.append_assoc ..)
        exact ⟨before + 1, after, middle, .link found initial, final,
          by omega⟩
  | create allowed directory missing =>
      rcases List.append_eq_cons_iff.mp split with ⟨rfl, rfl⟩ |
        ⟨first, rfl, empty⟩
      · exact ⟨0, 0, _, .done, .create allowed directory missing, rfl⟩
      · exact absurd (List.append_eq_nil_iff.mp empty.symm).2 nonempty

theorem resolves_append_iff (nonempty : second ≠ []) :
    tree.Resolves creates links location (first ++ second) destination ↔
      ∃ before after middle,
        tree.Resolves false before location first middle ∧
          tree.Resolves creates after middle second destination ∧
            before + after = links := by
  constructor
  · intro resolves
    exact resolves.exists_of_append nonempty
  · rintro ⟨before, after, middle, initial, final, rfl⟩
    exact initial.append final

theorem Resolves.exists_node
    (resolves : tree.Resolves false links location elements destination)
    (member : .child name ∈ elements) :
    ∃ above, tree.node (above ++ [name]) ≠ none := by
  induction resolves with
  | done => exact absurd member List.not_mem_nil
  | here _ _ ih => exact ih (by simpa using member)
  | up _ _ ih => exact ih (by simpa using member)
  | @child _ location _ _ _ node found _ _ ih =>
      rcases List.mem_cons.mp member with same | later
      · obtain rfl := Element.child.inj same
        exact ⟨location, by simp [found]⟩
      · exact ih later
  | @link _ location _ _ _ _ found _ ih =>
      rcases List.mem_cons.mp member with same | later
      · obtain rfl := Element.child.inj same
        exact ⟨location, by simp [found]⟩
      · exact ih (List.mem_append_right _ later)
  | create allowed => exact absurd allowed nofun

theorem Resolves.directory
    (resolves : tree.Resolves creates links location elements destination)
    (nonempty : elements ≠ []) : tree.node location = some .directory := by
  cases resolves with
  | done => exact absurd rfl nonempty
  | here directory => exact directory
  | up directory => exact directory
  | child found =>
      exact tree.parent _ _ (Option.ne_none_iff_exists'.mpr ⟨_, found⟩)
  | link found =>
      exact tree.parent _ _ (Option.ne_none_iff_exists'.mpr ⟨_, found⟩)
  | create _ directory => exact directory

theorem resolves_here_iff (nonempty : rest ≠ []) :
    tree.Resolves creates links location (.here :: rest) destination ↔
      tree.Resolves creates links location rest destination := by
  constructor
  · intro resolves
    cases resolves with
    | here _ resolved => exact resolved
  · intro resolves
    exact .here (resolves.directory nonempty) resolves

/-- Path names lead to the same locations when they differ only in elements
for the directory itself that come before their last elements. -/
theorem resolves_filter_iff [DecidableEq Name] (nonempty : rest ≠ []) :
    tree.Resolves creates links location
        (elements.filter (· ≠ .here) ++ rest) destination ↔
      tree.Resolves creates links location (elements ++ rest)
        destination := by
  induction elements generalizing links location with
  | nil => rfl
  | cons element elements ih =>
      by_cases itself : element = .here
      · subst itself
        rw [List.cons_append,
          resolves_here_iff (List.append_ne_nil_of_right_ne_nil _ nonempty),
          List.filter_cons_of_neg (by simp)]
        exact ih
      · have first (second : List (Element Name)) (nonempty : second ≠ []) :
            tree.Resolves creates links location (element :: second)
                destination ↔
              ∃ before after middle,
                tree.Resolves false before location [element] middle ∧
                  tree.Resolves creates after middle second destination ∧
                    before + after = links := by
          rw [← List.singleton_append]
          exact resolves_append_iff nonempty
        have more (elements : List (Element Name)) : elements ++ rest ≠ [] :=
          List.append_ne_nil_of_right_ne_nil _ nonempty
        rw [List.filter_cons_of_pos (by simpa using itself),
          List.cons_append, List.cons_append, first _ (more _),
          first _ (more _)]
        simp only [ih]

theorem Resolves.unique {others : Nat} {other : List Name}
    (resolves : tree.Resolves creates links location elements destination)
    (resolvesOther : tree.Resolves creates others location elements other) :
    destination = other := by
  have found := resolves.resolve (Nat.le_max_left links others)
  rw [resolvesOther.resolve (Nat.le_max_right links others)] at found
  exact (Option.some.inj found).symm

end Splitting

section Layout

variable {tree other : Tree Name Data} {links : Nat}
  {location destination : List Name} {elements : List (Element Name)}

/-- Trees with the same directories and symbolic links: only files come and
go. -/
structure SameLayout (tree other : Tree Name Data) : Prop where
  directory : ∀ location, tree.node location = some .directory ↔
    other.node location = some .directory
  link : ∀ location target, tree.node location = some (.link target) ↔
    other.node location = some (.link target)

theorem SameLayout.symm (same : SameLayout tree other) :
    SameLayout other tree :=
  ⟨fun location => (same.directory location).symm,
    fun location target => (same.link location target).symm⟩

/-- Where a path name leads that may name a missing file does not depend on
the files there are. -/
theorem Resolves.of_sameLayout (same : SameLayout tree other)
    (resolves : tree.Resolves true links location elements destination) :
    other.Resolves true links location elements destination := by
  induction resolves with
  | done => exact .done
  | here directory _ ih => exact .here ((same.directory _).mp directory) ih
  | up directory _ ih => exact .up ((same.directory _).mp directory) ih
  | @child _ location _ rest name node found noLink resolved ih =>
      cases here : other.node (location ++ [name]) with
      | some another =>
          refine .child here ?_ ih
          rintro target rfl
          exact noLink target (Option.some.inj
            (found.symm.trans ((same.link _ _).mpr here)))
      | none =>
          -- A file that is missing in the other tree ends the path name.
          cases rest with
          | nil =>
              cases resolved
              have above := tree.parent location name (by simp [found])
              exact .create rfl ((same.directory _).mp above) here
          | cons =>
              have inside := (same.directory _).mp
                (resolved.directory (List.cons_ne_nil _ _))
              rw [here] at inside
              cases inside
  | link found _ ih => exact .link ((same.link _ _).mp found) ih
  | @create location name allowed directory missing =>
      cases here : other.node (location ++ [name]) with
      | none => exact .create allowed ((same.directory _).mp directory) here
      | some node =>
          refine .child here ?_ .done
          rintro target rfl
          have found := (same.link _ _).mpr here
          rw [missing] at found
          cases found

end Layout

end Tree

end PathResolution
