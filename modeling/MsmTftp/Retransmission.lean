import Mathlib.Data.List.Basic
import Mathlib.Tactic.Common

/-!
# Packets that are sent again

A sender that waits for an answer sends a packet, may send it again, and then
goes on to the next packet.  `Paced` says that it never returns to an earlier
packet and repeats none more often than a limit allows.
-/

namespace Retransmission

/-- A packet that is sent for the first time, or again. -/
structure Transmission (Packet : Type*) where
  packet : Packet
  repeated : Bool
  deriving DecidableEq

variable {Packet : Type*}

/-- A packet that is sent once and then repeated. -/
def burst (packet : Packet) (count : Nat) : List (Transmission Packet) :=
  ⟨packet, false⟩ :: List.replicate count ⟨packet, true⟩

/-- `sent` transmits `packets` in order, each once and then again at most
`limit` times before the next one; the last one was repeated `count` times. -/
inductive Paced (limit : Nat) :
    List (Transmission Packet) → List Packet → Nat → Prop
  | nil : Paced limit [] [] 0
  | first {sent : List (Transmission Packet)} {packets : List Packet}
      {count : Nat} (paced : Paced limit sent packets count)
      (packet : Packet) :
      Paced limit (sent ++ [⟨packet, false⟩]) (packets ++ [packet]) 0
  | again {sent : List (Transmission Packet)} {packets : List Packet}
      {packet : Packet} {count : Nat}
      (paced : Paced limit sent (packets ++ [packet]) count)
      (below : count < limit) :
      Paced limit (sent ++ [⟨packet, true⟩]) (packets ++ [packet])
        (count + 1)

section Bursts

variable {limit count : Nat} {sent : List (Transmission Packet)}
  {packets : List Packet}

theorem burst_succ (packet : Packet) (count : Nat) :
    burst packet (count + 1) = burst packet count ++ [⟨packet, true⟩] := by
  simp [burst, List.replicate_succ']

theorem Paced.mem (paced : Paced limit sent packets count)
    {transmission : Transmission Packet} (member : transmission ∈ sent) :
    transmission.packet ∈ packets := by
  induction paced with
  | nil => simp at member
  | first paced packet ih =>
      rcases List.mem_append.mp member with earlier | last
      · exact List.mem_append_left _ (ih earlier)
      · rw [List.mem_singleton.mp last]
        simp
  | again paced below ih =>
      rcases List.mem_append.mp member with earlier | last
      · exact ih earlier
      · rw [List.mem_singleton.mp last]
        simp

/-- What is sent is one burst for each packet, with `count` repetitions in the
last one. -/
theorem Paced.exists_bursts (paced : Paced limit sent packets count) :
    ∃ bursts : List (Packet × Nat), bursts.map Prod.fst = packets ∧
      (∀ entry ∈ bursts, entry.2 ≤ limit) ∧
        sent = bursts.flatMap (fun entry => burst entry.1 entry.2) ∧
          ∀ entry, bursts.getLast? = some entry → entry.2 = count := by
  induction paced with
  | nil => exact ⟨[], rfl, by simp, rfl, by simp⟩
  | @first sent packets count paced packet ih =>
      obtain ⟨bursts, same, bounded, whole, _⟩ := ih
      refine ⟨bursts ++ [(packet, 0)], by simp [same], ?_, ?_, by simp⟩
      · intro entry member
        rcases List.mem_append.mp member with earlier | last
        · exact bounded entry earlier
        · rw [List.mem_singleton.mp last]
          exact Nat.zero_le limit
      · simp [whole, burst]
  | @again sent packets packet count paced below ih =>
      obtain ⟨bursts, same, bounded, whole, ends⟩ := ih
      rcases List.eq_nil_or_concat' bursts with rfl | ⟨earlier, last, rfl⟩
      · simp at same
      · simp only [List.map_append, List.map_cons, List.map_nil,
          List.append_singleton_inj] at same
        obtain ⟨rfl, rfl⟩ := same
        have counted : last.2 = count := ends last (by simp)
        refine ⟨earlier ++ [(last.1, count + 1)], by simp, ?_, ?_, by simp⟩
        · intro entry member
          rcases List.mem_append.mp member with before | here
          · exact bounded entry (List.mem_append_left _ before)
          · rw [List.mem_singleton.mp here]
            exact below
        · simp [whole, burst_succ, counted]

end Bursts

section Counting

variable [BEq Packet] [LawfulBEq Packet] {limit count : Nat}
  {sent : List (Transmission Packet)} {packets : List Packet}

theorem Paced.count_eq_zero (paced : Paced limit sent packets count)
    {packet : Packet} (other : packet ∉ packets) :
    (sent.map Transmission.packet).count packet = 0 := by
  apply List.count_eq_zero.mpr
  intro member
  obtain ⟨transmission, inside, rfl⟩ := List.mem_map.mp member
  exact other (paced.mem inside)

/-- The last of distinct packets was sent once and repeated `count` times. -/
theorem Paced.count_last {packet : Packet}
    (paced : Paced limit sent (packets ++ [packet]) count)
    (distinct : (packets ++ [packet]).Nodup) :
    (sent.map Transmission.packet).count packet = count + 1 := by
  generalize whole : packets ++ [packet] = all at paced distinct
  induction paced with
  | nil => simp at whole
  | first paced last _ =>
      obtain ⟨rfl, rfl⟩ := List.append_singleton_inj.mp whole
      have fresh : packet ∉ packets := by
        intro member
        exact (List.nodup_append.mp distinct).2.2 packet member packet
          (by simp) rfl
      simp [paced.count_eq_zero fresh]
  | again paced below ih =>
      obtain ⟨rfl, rfl⟩ := List.append_singleton_inj.mp whole
      simp [ih whole distinct]

/-- Distinct packets are sent at most `limit + 1` times each. -/
theorem Paced.count_le (paced : Paced limit sent packets count)
    (distinct : packets.Nodup) (packet : Packet) :
    (sent.map Transmission.packet).count packet ≤ limit + 1 := by
  induction paced with
  | nil => simp
  | @first sent packets count paced last ih =>
      have earlier := ih (List.nodup_append.mp distinct).1
      by_cases same : last = packet
      · subst same
        rw [(paced.first last).count_last distinct]
        omega
      · simpa [List.count_cons, same] using earlier
  | @again sent packets last count paced below ih =>
      by_cases same : last = packet
      · subst same
        rw [(paced.again below).count_last distinct]
        omega
      · simpa [List.count_cons, same] using ih distinct

end Counting

end Retransmission
