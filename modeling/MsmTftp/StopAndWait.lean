import MsmTftp.TransitionSystem

/-!
# Stop and wait over an unreliable channel

A sender offers the blocks of a list one after the other, each under its
number, and goes on once its current number was answered.  A receiver takes
the block that follows those it holds, and answers with numbers of blocks it
holds.  The channel keeps every message that was ever sent and hands over any
of them at any time, so messages may be lost, repeated and reordered at will.

Whatever the channel does, the receiver holds a beginning of the list, the two
parties are at most one block apart, and when the last number was answered the
receiver holds the whole list.
-/

namespace StopAndWait

open TransitionSystem

variable {Block : Type*}

/-- The block with a number; the numbers start from one. -/
def blockAt (blocks : List Block) : Nat → Option Block
  | 0 => none
  | number + 1 => blocks[number]?

/-- Both parties and all messages that were ever sent. -/
structure Link (Block : Type*) where
  /-- The number the sender has arrived at; zero before the first block. -/
  cursor : Nat
  offers : List (Nat × Block)
  taken : List Block
  answers : List Nat

inductive Move (Block : Type*)
  /-- The sender offers the block with a number it has arrived at. -/
  | offer (number : Nat)
  /-- The sender goes on to the next block. -/
  | advance
  /-- The receiver takes an offered block. -/
  | take (number : Nat) (block : Block)
  /-- The receiver answers with a number. -/
  | answer (number : Nat)

namespace Link

def started : Link Block where
  cursor := 0
  offers := []
  taken := []
  answers := []

variable [DecidableEq Block]

/-- The blocks the receiver takes are the outputs. -/
def step (blocks : List Block) (link : Link Block) :
    Move Block → Option (Link Block × List Block)
  | .offer number =>
      if number ≤ link.cursor then
        (blockAt blocks number).map fun block =>
          ({ link with offers := link.offers ++ [(number, block)] }, [])
      else none
  | .advance =>
      if (link.cursor = 0 ∨ link.cursor ∈ link.answers) ∧
          link.cursor < blocks.length then
        some ({ link with cursor := link.cursor + 1 }, [])
      else none
  | .take number block =>
      if (number, block) ∈ link.offers ∧ number = link.taken.length + 1 then
        some ({ link with taken := link.taken ++ [block] }, [block])
      else none
  | .answer number =>
      if number ≤ link.taken.length then
        some ({ link with answers := link.answers ++ [number] }, [])
      else none

end Link

/-- The protocol for a list of blocks. -/
def protocol [DecidableEq Block] (blocks : List Block) :
    System (Link Block) (Move Block) Block where
  step := Link.step blocks

/-- What both parties keep, whatever the channel hands over. -/
structure Link.Sound (blocks : List Block) (link : Link Block) : Prop where
  offered : ∀ offer ∈ link.offers, offer.1 ≤ link.cursor ∧
    blockAt blocks offer.1 = some offer.2
  prefixed : link.taken <+: blocks
  answered : ∀ number ∈ link.answers, number ≤ link.taken.length
  behind : link.taken.length ≤ link.cursor
  ahead : link.cursor ≤ link.taken.length + 1
  inside : link.cursor ≤ blocks.length

section Steps

variable {blocks : List Block} {link next : Link Block} {outputs : List Block}

/-- What a move does. -/
inductive MoveCases (blocks : List Block) (link : Link Block) :
    Move Block → List Block → Link Block → Prop
  | offer {number : Nat} {block : Block} (reached : number ≤ link.cursor)
      (located : blockAt blocks number = some block) :
      MoveCases blocks link (.offer number) []
        { link with offers := link.offers ++ [(number, block)] }
  | advance (answered : link.cursor = 0 ∨ link.cursor ∈ link.answers)
      (more : link.cursor < blocks.length) :
      MoveCases blocks link .advance [] { link with cursor := link.cursor + 1 }
  | take {block : Block}
      (offered : (link.taken.length + 1, block) ∈ link.offers) :
      MoveCases blocks link (.take (link.taken.length + 1) block) [block]
        { link with taken := link.taken ++ [block] }
  | answer {number : Nat} (held : number ≤ link.taken.length) :
      MoveCases blocks link (.answer number) []
        { link with answers := link.answers ++ [number] }

theorem moveCases [DecidableEq Block] {move : Move Block}
    (stepped : link.step blocks move = some (next, outputs)) :
    MoveCases blocks link move outputs next := by
  cases move with
  | offer number =>
      simp only [Link.step, Option.ite_none_right_eq_some,
        Option.map_eq_some_iff, Prod.mk.injEq] at stepped
      obtain ⟨reached, block, located, rfl, rfl⟩ := stepped
      exact .offer reached located
  | advance =>
      simp only [Link.step, Option.ite_none_right_eq_some, Option.some.injEq,
        Prod.mk.injEq] at stepped
      obtain ⟨⟨answered, more⟩, rfl, rfl⟩ := stepped
      exact .advance answered more
  | take number block =>
      simp only [Link.step, Option.ite_none_right_eq_some, Option.some.injEq,
        Prod.mk.injEq] at stepped
      obtain ⟨⟨offered, rfl⟩, rfl, rfl⟩ := stepped
      exact .take offered
  | answer number =>
      simp only [Link.step, Option.ite_none_right_eq_some, Option.some.injEq,
        Prod.mk.injEq] at stepped
      obtain ⟨held, rfl, rfl⟩ := stepped
      exact .answer held

theorem Link.started_sound (blocks : List Block) :
    (Link.started : Link Block).Sound blocks := by
  refine ⟨?_, List.nil_prefix, ?_, Nat.le_refl 0, Nat.zero_le 1,
    Nat.zero_le _⟩
  · intro offer member
    cases member
  · intro number member
    cases member

theorem Link.Sound.take (sound : link.Sound blocks) {block : Block}
    (offered : (link.taken.length + 1, block) ∈ link.offers) :
    link.taken ++ [block] <+: blocks := by
  obtain ⟨_, located⟩ := sound.offered _ offered
  obtain ⟨inside, here⟩ := List.getElem?_eq_some_iff.mp located
  obtain ⟨rest, whole⟩ := sound.prefixed
  subst whole
  rw [List.getElem_append_right (Nat.le_refl _)] at here
  cases rest with
  | nil => simp at inside
  | cons first rest =>
      simp only [Nat.sub_self, List.getElem_cons_zero] at here
      subst here
      exact ⟨rest, by simp⟩

theorem Link.Sound.step [DecidableEq Block] (sound : link.Sound blocks)
    {move : Move Block}
    (stepped : link.step blocks move = some (next, outputs)) :
    next.Sound blocks := by
  obtain ⟨offered, prefixed, answered, behind, ahead, inside⟩ := id sound
  cases moveCases stepped with
  | @offer number block reached located =>
      refine ⟨?_, prefixed, answered, behind, ahead, inside⟩
      intro offer member
      rcases List.mem_append.mp member with earlier | here
      · exact offered offer earlier
      · rw [List.mem_singleton.mp here]
        exact ⟨reached, located⟩
  | advance answers more =>
      refine ⟨?_, prefixed, answered, Nat.le_succ_of_le behind, ?_, more⟩
      · intro offer member
        obtain ⟨reached, located⟩ := offered offer member
        exact ⟨Nat.le_succ_of_le reached, located⟩
      · -- The receiver holds every block whose number it answered.
        apply Nat.succ_le_succ
        rcases answers with start | answers
        · simp [start]
        · exact answered _ answers
  | @take block offers =>
      refine ⟨offered, sound.take offers, ?_, ?_, ?_, inside⟩
      · intro number member
        rw [List.length_append]
        exact Nat.le_succ_of_le (answered number member)
      · rw [List.length_append]
        exact (offered _ offers).1
      · rw [List.length_append]
        exact Nat.le_succ_of_le ahead
  | @answer number held =>
      refine ⟨offered, prefixed, ?_, behind, ahead, inside⟩
      intro other member
      rcases List.mem_append.mp member with earlier | here
      · exact answered other earlier
      · rw [List.mem_singleton.mp here]
        exact held

end Steps

section Runs

variable {blocks : List Block} {link : Link Block}
  {history : List (Transition (Link Block) (Move Block) Block)}

/-- In every run the parties stay together. -/
theorem sound_of_run [DecidableEq Block]
    (run : (protocol blocks).Run Link.started history link) :
    link.Sound blocks :=
  run.invariant (Link.Sound blocks) (Link.started_sound blocks)
    fun _ sound admitted => sound.step admitted

/-- When the last number was answered, the receiver holds all blocks. -/
theorem Link.Sound.taken_eq (sound : link.Sound blocks)
    (answered : link.cursor ∈ link.answers)
    (last : blocks.length ≤ link.cursor) : link.taken = blocks := by
  have held := sound.answered _ answered
  exact sound.prefixed.eq_of_length_le (Nat.le_trans last held)

end Runs

end StopAndWait
