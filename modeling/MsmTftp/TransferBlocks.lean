import Mathlib.Data.List.Basic
import Mathlib.Data.List.Range
import Mathlib.Tactic.Common

/-!
# Content cut into numbered blocks

A transfer cuts a content into blocks of one size, the last of which is
shorter, and numbers them from one.  This file relates the blocks to the
content they make up and describes lists of blocks that arrive in sequence.
-/

namespace TransferBlocks

variable {α : Type*}

section Cutting

/-- The block with an index counted from zero. -/
def block (size : Nat) (content : List α) (index : Nat) : List α :=
  (content.drop (index * size)).take size

/-- The first `count` blocks. -/
def blocks (size : Nat) (content : List α) (count : Nat) : List (List α) :=
  (List.range count).map (block size content)

variable {size count index : Nat} {content : List α}

theorem block_length :
    (block size content index).length =
      min size (content.length - index * size) := by
  simp [block]

theorem blocks_succ :
    blocks size content (count + 1) =
      blocks size content count ++ [block size content count] := by
  simp [blocks, List.range_succ]

theorem blocks_flatten :
    (blocks size content count).flatten = content.take (count * size) := by
  induction count with
  | zero => simp [blocks]
  | succ count ih =>
      rw [blocks_succ, List.flatten_append, ih, Nat.succ_mul,
        List.take_add]
      simp [block]

theorem length_le_of_short
    (short : (block size content index).length < size) :
    content.length ≤ (index + 1) * size := by
  rw [block_length] at short
  rw [Nat.succ_mul]
  omega

/-- Blocks up to a short one make up the content. -/
theorem flatten_of_short
    (short : (block size content count).length < size) :
    (blocks size content (count + 1)).flatten = content := by
  rw [blocks_flatten, List.take_of_length_le (length_le_of_short short)]

theorem eq_nil_of_dvd (divides : size ∣ content.length)
    (short : (block size content index).length < size) :
    block size content index = [] := by
  obtain ⟨factor, length_eq⟩ := divides
  rw [block_length, length_eq] at short
  apply List.eq_nil_of_length_eq_zero
  rw [block_length, length_eq]
  have bound : factor ≤ index := by
    by_contra beyond
    have next : (index + 1) * size ≤ size * factor := by
      rw [Nat.mul_comm size factor]
      exact Nat.mul_le_mul_right size (by omega)
    rw [Nat.succ_mul] at next
    omega
  have covered : size * factor ≤ index * size := by
    rw [Nat.mul_comm size factor]
    exact Nat.mul_le_mul_right size bound
  omega

@[simp]
theorem blocks_length : (blocks size content count).length = count := by
  simp [blocks]

theorem getElem?_blocks (inside : index < count) :
    (blocks size content count)[index]? = some (block size content index) := by
  simp [blocks, inside]

end Cutting

section Whole

variable {size : Nat} {content : List α}

/-- The blocks of a content: as many of the full size as there are, and then a
short one. -/
def cut (size : Nat) (content : List α) : List (List α) :=
  blocks size content (content.length / size + 1)

theorem cut_flatten (positive : 0 < size) :
    (cut size content).flatten = content := by
  rw [cut, blocks_flatten]
  apply List.take_of_length_le
  rw [Nat.mul_comm]
  exact Nat.le_of_lt (Nat.lt_mul_div_succ content.length positive)

/-- A beginning of the blocks that contains a short block is all of them. -/
theorem eq_cut_of_short (positive : 0 < size) {held : List (List α)}
    (prefixed : held <+: cut size content) {final : List α}
    (member : final ∈ held) (short : final.length < size) :
    held = cut size content := by
  obtain ⟨index, inside, rfl⟩ := List.getElem_of_mem member
  have bound : index < content.length / size + 1 := by
    have := prefixed.length_le
    simp only [cut, blocks_length] at this
    omega
  have located : (cut size content)[index]? = some held[index] := by
    obtain ⟨rest, whole⟩ := prefixed
    rw [← whole, List.getElem?_append_left inside, List.getElem?_eq_getElem]
  rw [cut, getElem?_blocks bound, Option.some.injEq] at located
  rw [← located] at short
  have last : content.length / size ≤ index := by
    rw [block_length] at short
    apply Nat.le_of_lt_succ
    rw [Nat.div_lt_iff_lt_mul positive, Nat.succ_mul]
    omega
  apply prefixed.eq_of_length_le
  rw [cut, blocks_length]
  omega

end Whole

section Sequence

variable {Block : Type*} {number : Block → Nat} {received : List Block}

/-- The blocks carry the numbers from one on. -/
def Numbered (number : Block → Nat) (received : List Block) : Prop :=
  received.map number = List.range' 1 received.length

@[simp]
theorem numbered_nil : Numbered number [] :=
  rfl

theorem Numbered.concat (numbered : Numbered number received) {next : Block}
    (follows : number next = received.length + 1) :
    Numbered number (received ++ [next]) := by
  rw [Numbered] at numbered ⊢
  simp [numbered, follows, List.range'_concat, Nat.add_comm]

end Sequence

section Sizes

variable {size : Nat} {blocks : List (List α)} {next : List α}

/-- No block exceeds the size, and all before the last have exactly this
size. -/
structure FullBlocks (size : Nat) (blocks : List (List α)) : Prop where
  bounded : ∀ block ∈ blocks, block.length ≤ size
  full : ∀ block ∈ blocks.dropLast, block.length = size

theorem fullBlocks_nil : FullBlocks size ([] : List (List α)) :=
  ⟨by simp, by simp⟩

theorem FullBlocks.concat (whole : FullBlocks size blocks)
    (last : ∀ block, blocks.getLast? = some block → block.length = size)
    (bound : next.length ≤ size) : FullBlocks size (blocks ++ [next]) := by
  constructor
  · intro block member
    rcases List.mem_append.mp member with earlier | here
    · exact whole.bounded block earlier
    · rw [List.mem_singleton.mp here]
      exact bound
  · intro block member
    rw [List.dropLast_concat] at member
    rcases List.eq_nil_or_concat' blocks with rfl | ⟨earlier, final, rfl⟩
    · simp at member
    · rcases List.mem_append.mp member with before | here
      · exact whole.full block (by simpa using before)
      · rw [List.mem_singleton.mp here]
        exact last final (by simp)

theorem FullBlocks.getLast?_of_short (whole : FullBlocks size blocks)
    {block : List α} (member : block ∈ blocks) (short : block.length < size) :
    blocks.getLast? = some block := by
  rcases List.eq_nil_or_concat' blocks with rfl | ⟨earlier, final, rfl⟩
  · simp at member
  · rcases List.mem_append.mp member with before | here
    · have exact := whole.full block (by simpa using before)
      omega
    · rw [List.mem_singleton.mp here]
      simp

end Sizes

end TransferBlocks
