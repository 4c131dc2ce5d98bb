import Mathlib.Data.List.Basic
import Mathlib.Logic.Function.Basic
import Mathlib.Tactic.Common

/-!
# Files that several owners have open

Every owner has at most one file open.  What it writes stays with its handle
until the handle is drained, which overwrites the file from the position of
the handle on; a gap before that position is filled.  Opening a file for
writing empties it.  Nothing keeps two owners from opening the same file.
-/

namespace FileStore

/-- An open file. -/
structure Handle (File Byte : Type*) where
  file : File
  /-- The file was opened for writing, which emptied it. -/
  truncated : Bool
  position : Nat
  /-- The bytes that were written and are not in the file yet. -/
  pending : List Byte

structure Store (Owner File Byte : Type*) where
  content : File → List Byte
  handles : Owner → Option (Handle File Byte)

variable {Owner File Byte : Type*}

/-- Overwrite a content from a position on. -/
def splice (blank : Byte) (content : List Byte) (position : Nat)
    (bytes : List Byte) : List Byte :=
  if bytes.isEmpty then content
  else
    content.take position ++
      (List.replicate (position - content.length) blank ++
        (bytes ++ content.drop (position + bytes.length)))

theorem splice_length (blank : Byte) (content bytes : List Byte) :
    splice blank content content.length bytes = content ++ bytes := by
  cases bytes <;> simp [splice]

@[simp]
theorem splice_nil (blank : Byte) (content : List Byte) (position : Nat) :
    splice blank content position [] = content :=
  rfl

namespace Store

variable [DecidableEq Owner] [DecidableEq File]

/-- Open a file. -/
def openFile (store : Store Owner File Byte) (owner : Owner) (file : File)
    (truncates : Bool) : Store Owner File Byte where
  content :=
    if truncates then Function.update store.content file []
    else store.content
  handles :=
    Function.update store.handles owner (some ⟨file, truncates, 0, []⟩)

/-- Write to the open file. -/
def write (store : Store Owner File Byte) (owner : Owner)
    (bytes : List Byte) : Store Owner File Byte :=
  { store with
    handles := Function.update store.handles owner
      ((store.handles owner).map fun handle =>
        { handle with pending := handle.pending ++ bytes }) }

/-- Some of the bytes written reach the file. -/
def drain (store : Store Owner File Byte) (blank : Byte) (owner : Owner)
    (count : Nat) : Store Owner File Byte :=
  match store.handles owner with
  | some handle =>
      { content := Function.update store.content handle.file
          (splice blank (store.content handle.file) handle.position
            (handle.pending.take count))
        handles := Function.update store.handles owner
          (some { handle with
            position :=
              handle.position + (handle.pending.take count).length
            pending := handle.pending.drop count }) }
  | none => store

/-- Close the file; without flushing, what is left of the bytes is lost. -/
def close (store : Store Owner File Byte) (blank : Byte) (owner : Owner)
    (flushes : Bool) : Store Owner File Byte :=
  let store :=
    match flushes, store.handles owner with
    | true, some handle => store.drain blank owner handle.pending.length
    | _, _ => store
  { store with handles := Function.update store.handles owner none }

/-- The owner has the file open for writing, and its content and what is left
with the handle are what was written. -/
def Holds (store : Store Owner File Byte) (owner : Owner) (file : File)
    (written : List Byte) : Prop :=
  ∃ handle, store.handles owner = some handle ∧ handle.file = file ∧
    handle.truncated = true ∧
      handle.position = (store.content file).length ∧
        store.content file ++ handle.pending = written

/-- The owner has nothing to write to the file. -/
def Spares (store : Store Owner File Byte) (owner : Owner) (file : File) :
    Prop :=
  ∀ handle, store.handles owner = some handle → handle.file = file →
    handle.pending = []

section Own

variable {store : Store Owner File Byte} {blank : Byte} {owner : Owner}
  {file : File} {written : List Byte}

omit [DecidableEq File] in
theorem handles_write (bytes : List Byte) :
    (store.write owner bytes).handles owner =
      (store.handles owner).map fun handle =>
        { handle with pending := handle.pending ++ bytes } :=
  Function.update_self _ _ _

theorem handles_openFile (file : File) (truncates : Bool) :
    (store.openFile owner file truncates).handles owner =
      some ⟨file, truncates, 0, []⟩ :=
  Function.update_self _ _ _

theorem handles_close (flushes : Bool) :
    (store.close blank owner flushes).handles owner = none :=
  Function.update_self _ _ _

theorem holds_openFile (store : Store Owner File Byte) (owner : Owner)
    (file : File) : (store.openFile owner file true).Holds owner file [] := by
  refine ⟨⟨file, true, 0, []⟩, ?_, rfl, rfl, ?_, ?_⟩
  · simp [openFile]
  · simp [openFile]
  · simp [openFile]

omit [DecidableEq File] in
theorem Holds.write (holds : store.Holds owner file written)
    (bytes : List Byte) :
    (store.write owner bytes).Holds owner file (written ++ bytes) := by
  obtain ⟨handle, found, same, truncated, position, content⟩ := holds
  refine ⟨{ handle with pending := handle.pending ++ bytes }, ?_, same,
    truncated, position, ?_⟩
  · simp [Store.write, found]
  · rw [← content, List.append_assoc]
    rfl

theorem handles_drain {handle : Handle File Byte}
    (found : store.handles owner = some handle) (count : Nat) :
    (store.drain blank owner count).handles owner =
      some { handle with
        position := handle.position + (handle.pending.take count).length
        pending := handle.pending.drop count } := by
  simp [Store.drain, found]

theorem drain_of_closed (closed : store.handles owner = none)
    (count : Nat) : store.drain blank owner count = store := by
  simp [Store.drain, closed]

theorem Holds.drain (holds : store.Holds owner file written) (count : Nat) :
    (store.drain blank owner count).Holds owner file written := by
  obtain ⟨handle, found, rfl, truncated, position, content⟩ := holds
  have appended : (store.drain blank owner count).content handle.file =
      store.content handle.file ++ handle.pending.take count := by
    simp [Store.drain, found, position, splice_length]
  refine ⟨{ handle with
      position := handle.position + (handle.pending.take count).length
      pending := handle.pending.drop count }, handles_drain found count, rfl,
    truncated, ?_, ?_⟩
  · rw [appended, List.length_append, position]
  · rw [appended, List.append_assoc, List.take_append_drop]
    exact content

/-- Closing with a flush leaves the file with what was written. -/
theorem Holds.content_close (holds : store.Holds owner file written) :
    (store.close blank owner true).content file = written := by
  obtain ⟨handle, found, same, truncated, position, content⟩ := id holds
  have drained : (store.drain blank owner handle.pending.length).Holds owner
      file written := holds.drain handle.pending.length
  obtain ⟨after, located, _, _, _, whole⟩ := drained
  have empty : after.pending = [] := by
    rw [handles_drain found, Option.some.injEq] at located
    rw [← located]
    exact List.drop_length
  rw [empty, List.append_nil] at whole
  simpa [Store.close, found] using whole

end Own

section Others

variable {store : Store Owner File Byte} {blank : Byte}
  {owner other : Owner} {file : File} {written : List Byte}

omit [DecidableEq Owner] [DecidableEq File] in
/-- What an owner holds depends on its own handle and the file. -/
theorem Holds.of_eq {next : Store Owner File Byte}
    (holds : store.Holds owner file written)
    (handles : next.handles owner = store.handles owner)
    (content : next.content file = store.content file) :
    next.Holds owner file written := by
  unfold Holds
  rw [handles, content]
  exact holds

omit [DecidableEq File] in
theorem handles_write_other (different : owner ≠ other)
    (bytes : List Byte) :
    (store.write other bytes).handles owner = store.handles owner :=
  Function.update_of_ne different _ _

theorem handles_openFile_other (different : owner ≠ other)
    (elsewhere : File) (truncates : Bool) :
    (store.openFile other elsewhere truncates).handles owner =
      store.handles owner :=
  Function.update_of_ne different _ _

theorem Holds.openFile_other (holds : store.Holds owner file written)
    (different : owner ≠ other) {elsewhere : File} {truncates : Bool}
    (apart : truncates = true → file ≠ elsewhere) :
    (store.openFile other elsewhere truncates).Holds owner file written := by
  apply holds.of_eq (handles_openFile_other different _ _)
  cases truncates with
  | false => rfl
  | true => simp [openFile, apart rfl]

omit [DecidableEq File] in
theorem Holds.write_other (holds : store.Holds owner file written)
    (different : owner ≠ other) (bytes : List Byte) :
    (store.write other bytes).Holds owner file written :=
  holds.of_eq (handles_write_other different bytes) rfl

theorem content_drain_other (spares : store.Spares other file)
    (count : Nat) :
    (store.drain blank other count).content file = store.content file := by
  unfold Store.drain
  split
  · rename_i handle found
    by_cases same : handle.file = file
    · have nothing := spares handle found same
      simp [same, nothing]
    · exact Function.update_of_ne (Ne.symm same) _ _
  · rfl

theorem handles_drain_other (different : owner ≠ other) (count : Nat) :
    (store.drain blank other count).handles owner = store.handles owner := by
  unfold Store.drain
  split
  · exact Function.update_of_ne different _ _
  · rfl

theorem Holds.drain_other (holds : store.Holds owner file written)
    (different : owner ≠ other) (spares : store.Spares other file)
    (count : Nat) :
    (store.drain blank other count).Holds owner file written :=
  holds.of_eq (handles_drain_other different count)
    (content_drain_other spares count)

theorem handles_close_other (different : owner ≠ other) (flushes : Bool) :
    (store.close blank other flushes).handles owner =
      store.handles owner := by
  unfold Store.close
  split
  · exact (Function.update_of_ne different _ _).trans
      (handles_drain_other different _)
  · exact Function.update_of_ne different _ _

theorem content_close_other (spares : store.Spares other file)
    (flushes : Bool) :
    (store.close blank other flushes).content file = store.content file := by
  unfold Store.close
  split
  · exact content_drain_other spares _
  · rfl

theorem Holds.close_other (holds : store.Holds owner file written)
    (different : owner ≠ other) (spares : store.Spares other file)
    (flushes : Bool) :
    (store.close blank other flushes).Holds owner file written :=
  holds.of_eq (handles_close_other different flushes)
    (content_close_other spares flushes)

end Others

section Within

variable {store : Store Owner File Byte} {blank : Byte} {owner : Owner}
  {file : File} {allowed : File → Bool → Prop}

/-- Every file that is open is one that may be opened that way. -/
def Within (store : Store Owner File Byte) (allowed : File → Bool → Prop) :
    Prop :=
  ∀ owner, ∀ handle ∈ store.handles owner,
    allowed handle.file handle.truncated

omit [DecidableEq File] in
/-- It is enough to look at the owner that does something. -/
theorem Within.of_handle {next : Store Owner File Byte}
    (within : store.Within allowed)
    (others : ∀ other ≠ owner, next.handles other = store.handles other)
    (own : ∀ handle ∈ next.handles owner,
      allowed handle.file handle.truncated) :
    next.Within allowed := by
  intro other handle found
  by_cases same : other = owner
  · subst same
    exact own handle found
  · rw [others other same] at found
    exact within other handle found

theorem Within.openFile (within : store.Within allowed) {truncates : Bool}
    (opens : allowed file truncates) :
    (store.openFile owner file truncates).Within allowed := by
  apply within.of_handle fun other different =>
    handles_openFile_other different file truncates
  intro handle found
  rw [handles_openFile, Option.mem_some_iff] at found
  rw [← found]
  exact opens

omit [DecidableEq File] in
theorem Within.write (within : store.Within allowed) (bytes : List Byte) :
    (store.write owner bytes).Within allowed := by
  apply within.of_handle fun other different =>
    handles_write_other different bytes
  intro handle found
  rw [handles_write, Option.mem_def, Option.map_eq_some_iff] at found
  obtain ⟨held, here, rfl⟩ := found
  exact within owner held here

theorem Within.drain (within : store.Within allowed) (count : Nat) :
    (store.drain blank owner count).Within allowed := by
  apply within.of_handle fun other different =>
    handles_drain_other different count
  intro handle found
  cases held : store.handles owner with
  | none =>
      rw [drain_of_closed held] at found
      exact within owner handle found
  | some current =>
      rw [handles_drain held, Option.mem_some_iff] at found
      rw [← found]
      exact within owner current held

theorem Within.close (within : store.Within allowed) (flushes : Bool) :
    (store.close blank owner flushes).Within allowed := by
  apply within.of_handle fun other different =>
    handles_close_other different flushes
  intro handle found
  rw [handles_close] at found
  cases found

theorem content_openFile {other : File} {truncates : Bool}
    (different : file ≠ other) :
    (store.openFile owner other truncates).content file =
      store.content file := by
  cases truncates with
  | false => rfl
  | true => exact Function.update_of_ne different _ _

omit [DecidableEq Owner] [DecidableEq File] in
theorem Within.spares (within : store.Within allowed)
    (forbidden : ∀ truncated, ¬ allowed file truncated) (owner : Owner) :
    store.Spares owner file := by
  intro handle found same
  have opened := within owner handle found
  rw [same] at opened
  exact absurd opened (forbidden _)

end Within

end Store

end FileStore
