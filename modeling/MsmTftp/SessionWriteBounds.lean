import MsmTftp.ProtocolTokens
import MsmTftp.SessionStaleBytes
import MsmTftp.SessionUploadNumbers

/-!
# How a block is taken out of the received packet

`WriteData` addresses the payload by a subscript of `received_packet_` and
computes its length as a difference of sizes.  `HasDataReceived` lets packets
through that end with their header, and these have no element behind it.
-/

namespace MsmTftp

open CellBuffer TransitionSystem

/-- A `std::span` over the cells at the front of a buffer. -/
structure Span where
  data : Buffer UInt8
  size : UInt64

/-- `operator[]` of a checked span: the cell of an element.  Without the check
an index from the size on is undefined behaviour. -/
def Span.subscript (span : Span) (index : UInt64) : Option Nat :=
  if index < span.size then some index.toNat else none

namespace SessionData

/-- `received_packet_`. -/
def receivedSpan (data : SessionData) : Span where
  data := data.receiveBuffer
  size := UInt64.ofNat data.receivedPacket

/-- `received_packet_.size() - HeaderView::Size()`, in `std::size_t`. -/
def payloadSize (data : SessionData) : UInt64 :=
  data.receivedSpan.size - UInt64.ofNat HeaderView.size

/-- `WriteData` with a checked subscript; `none` when the check fails. -/
def writeDataChecked (environment : Environment) (data : SessionData) :
    Option Outcome :=
  (data.receivedSpan.subscript (UInt64.ofNat HeaderView.size)).map
    fun first =>
      let bytes := cells data.receivedSpan.data first
        (first + data.payloadSize.toNat)
      let (stream, taken) := data.fileStream.write environment.acceptsWrite
      let effects := if taken then [.writeFile bytes] else []
      if stream.fail then
        ({ data with
            fileStream := stream
            lastErrorCode := some .diskFull }, effects)
      else
        ({ data with
            fileStream := stream
            lastBlockSize := data.payloadSize.toNat
            lastSavedBlock := data.receivedWord.toNat }, effects)

/-- The indexes `WriteData` applies to `received_packet_`. -/
def writeDataIndexes : List UInt64 :=
  [UInt64.ofNat HeaderView.size]

/-- The bytes `WriteData` passes to `write` when its subscript is a mere
address. -/
def passedBytes (data : SessionData) : Bytes :=
  cells data.receivedSpan.data HeaderView.size
    (HeaderView.size + data.payloadSize.toNat)

/-- The guards accept the received packet as new data: the row of `WriteData`
is enabled. -/
def AcceptsNewData (data : SessionData) : Prop :=
  ∃ row ∈ enabledRows .waitingForData (some .packetReceived) data,
    row.action = .writeData

/-- `WriteData` stays inside `received_packet_` and passes on its payload. -/
structure WritesInBounds (data : SessionData) : Prop where
  indexes : ∀ index ∈ writeDataIndexes, index < data.receivedSpan.size
  noUnderflow : UInt64.ofNat HeaderView.size ≤ data.receivedSpan.size
  payload : data.passedBytes = Packet.payload data.incoming

end SessionData

section Accepting

variable {data : SessionData}

theorem SessionData.AcceptsNewData.guards (accepts : data.AcceptsNewData) :
    data.fromAgreedEndpoint = true ∧ data.hasDataReceived = true ∧
      data.isOldData = false := by
  obtain ⟨row, enabled, writes⟩ := accepts
  have firing := firing_of_enabled enabled
  rw [writes] at firing
  generalize row.target = target at firing
  cases firing with
  | newData agreed received new => exact ⟨agreed, received, new⟩

theorem SessionData.AcceptsNewData.header_le (accepts : data.AcceptsNewData) :
    HeaderView.size ≤ data.receivedPacket := by
  have received := accepts.guards.2.1
  simp only [SessionData.hasDataReceived, Bool.and_eq_true,
    decide_eq_true_eq] at received
  exact received.1.1

theorem SessionData.AcceptsNewData.firing {action : Action} {target : State}
    (accepts : data.AcceptsNewData)
    (firing : Firing data .waitingForData (some .packetReceived) action
      target) :
    action = .writeData ∧ target = .dataWritten := by
  obtain ⟨agreed, received, new⟩ := accepts.guards
  cases firing with
  | notData _ other => simp [received] at other
  | oldData ignored => simp [agreed, new] at ignored
  | newData => exact ⟨rfl, rfl⟩

end Accepting

section Sizes

variable {data : SessionData}

/-- Packet sizes are far below the range of `std::size_t`. -/
theorem receivedSpan_size_toNat (small : data.receivedPacket < 2 ^ 64) :
    data.receivedSpan.size.toNat = data.receivedPacket := by
  simp only [SessionData.receivedSpan, UInt64.toNat_ofNat']
  exact Nat.mod_eq_of_lt small

theorem headerSize_toNat : (UInt64.ofNat HeaderView.size).toNat = 4 := by
  decide

theorem index_lt_iff (small : data.receivedPacket < 2 ^ 64) :
    UInt64.ofNat HeaderView.size < data.receivedSpan.size ↔
      HeaderView.size < data.receivedPacket := by
  rw [UInt64.lt_iff_toNat_lt, receivedSpan_size_toNat small,
    headerSize_toNat, HeaderView.size]

theorem header_le_iff (small : data.receivedPacket < 2 ^ 64) :
    UInt64.ofNat HeaderView.size ≤ data.receivedSpan.size ↔
      HeaderView.size ≤ data.receivedPacket := by
  rw [UInt64.le_iff_toNat_le, receivedSpan_size_toNat small,
    headerSize_toNat, HeaderView.size]

theorem payloadSize_toNat (small : data.receivedPacket < 2 ^ 64)
    (long : HeaderView.size ≤ data.receivedPacket) :
    data.payloadSize.toNat = data.receivedPacket - HeaderView.size := by
  rw [SessionData.payloadSize,
    UInt64.toNat_sub_of_le _ _ ((header_le_iff small).mpr long),
    receivedSpan_size_toNat small, headerSize_toNat, HeaderView.size]

theorem passedBytes_eq (small : data.receivedPacket < 2 ^ 64)
    (long : HeaderView.size ≤ data.receivedPacket) :
    data.passedBytes = Packet.payload data.incoming := by
  have whole : HeaderView.size + (data.receivedPacket - HeaderView.size) =
      data.receivedPacket := by omega
  rw [SessionData.passedBytes, payloadSize_toNat small long, whole,
    RequestTokenizer.cells_eq_drop_view, Packet.payload]
  rfl

/-- A packet with a payload is handled as by the unchecked action. -/
theorem writeDataChecked_eq (environment : Environment)
    (small : data.receivedPacket < 2 ^ 64)
    (long : HeaderView.size ≤ data.receivedPacket) :
    data.writeDataChecked environment =
      if HeaderView.size < data.receivedPacket then
        some (writeData environment data)
      else none := by
  have passed : cells data.receivedSpan.data HeaderView.size
      (HeaderView.size + (data.receivedPacket - HeaderView.size)) =
        Packet.payload data.incoming := by
    rw [← payloadSize_toNat small long]
    exact passedBytes_eq small long
  rw [SessionData.writeDataChecked, Span.subscript]
  by_cases longer : HeaderView.size < data.receivedPacket
  · rw [if_pos ((index_lt_iff small).mpr longer), if_pos longer,
      Option.map_some, headerSize_toNat]
    simp only [show (4 : Nat) = HeaderView.size from rfl,
      payloadSize_toNat small long, passed]
    rfl
  · rw [if_neg (mt (index_lt_iff small).mp longer), if_neg longer]
    rfl

theorem writesInBounds_iff (small : data.receivedPacket < 2 ^ 64)
    (long : HeaderView.size ≤ data.receivedPacket) :
    data.WritesInBounds ↔ HeaderView.size < data.receivedPacket := by
  constructor
  · intro inBounds
    exact (index_lt_iff small).mp
      (inBounds.indexes _ (List.mem_singleton_self _))
  · intro longer
    refine ⟨?_, (header_le_iff small).mpr long, passedBytes_eq small long⟩
    intro index member
    rw [List.mem_singleton.mp member]
    exact (index_lt_iff small).mpr longer

end Sizes

section Runs

variable {config : Config} {machine next : Machine} {sender : Endpoint}
  {datagram : Datagram}

theorem Handles.exists_write {history : List Step}
    (handles : Handles machine (.received sender datagram) history next)
    (wellFormed : machine.WellFormed config)
    (waits : machine.state = .waitingForData)
    (accepts : (machine.data.received sender datagram).AcceptsNewData) :
    ∃ write ∈ history, Step.Fires write .writeData ∧
      write.before.data = machine.data.received sender datagram := by
  obtain ⟨⟨before, input, outputs, middle⟩, rest, rfl, rfl, internal, run,
    returned⟩ := handles
  obtain ⟨rfl, stepped, continues⟩ := session_run_cons.mp run
  have formed := wellFormed.step stepped
  obtain ⟨row, enabled, acts⟩ := id accepts
  cases stepCases stepped with
  | complete settled idle started =>
      obtain ⟨row, environment, exitEffects, effects, after, later, rfl, _,
        cases, _⟩ :=
        exists_fire_of_run formed rfl
          ⟨_, _, by
            have firing := firing_of_enabled enabled
            rw [← waits] at firing
            exact firing⟩ continues internal returned
      have firing := cases.firing
      refine ⟨_, List.mem_cons_of_mem _ List.mem_cons_self,
        ⟨row, environment, rfl, ?_⟩, rfl⟩
      rw [show (_ : State) = .waitingForData from waits] at firing
      exact (accepts.firing firing).1

end Runs

/-- Where an upload waits for data and its guards accept a packet as new,
`WriteData` stays inside `received_packet_` exactly when the packet has a
payload.  The length it computes and the bytes it passes on are right for
every accepted packet, and a checked span stops it at a packet without a
payload only. -/
theorem accepted_data_in_bounds_iff (config : Config) (machine : Machine)
    (sender : Endpoint) (datagram : Datagram)
    (reachable : Reachable config machine)
    (waits : machine.state = .waitingForData)
    (accepts : (machine.data.received sender datagram).AcceptsNewData) :
    let data := machine.data.received sender datagram
    (data.WritesInBounds ↔ HeaderView.size < datagram.bytes.length) ∧
    data.payloadSize.toNat = (Packet.payload datagram.bytes).length ∧
    data.passedBytes = Packet.payload datagram.bytes ∧
    (∀ environment, data.writeDataChecked environment =
      if HeaderView.size < datagram.bytes.length then
        some (writeData environment data)
      else none) ∧
    ∀ history next,
      Handles machine (.received sender datagram) history next →
        ∃ write ∈ history, Step.Fires write .writeData ∧
          write.before.data = data := by
  intro data
  have small : data.receivedPacket < 2 ^ 64 :=
    Nat.lt_of_le_of_lt datagram.fits (by decide)
  have long : HeaderView.size ≤ data.receivedPacket := accepts.header_le
  refine ⟨writesInBounds_iff small long, ?_, ?_,
    fun environment => writeDataChecked_eq environment small long, ?_⟩
  · rw [payloadSize_toNat small long, Packet.payload, List.length_drop]
    rfl
  · rw [passedBytes_eq small long, incoming_received]
  · intro history next handles
    obtain ⟨past, run⟩ := reachable
    exact handles.exists_write run.wellFormed waits accepts

section Examples

/-- A full first block of an upload. -/
private def wholeBlock : Datagram where
  bytes := Packet.dataPacket 1 (List.replicate 512 9)
  fits := by decide +kernel

private theorem exists_waiting_for_last :
    ∃ machine, Reachable .loopback machine ∧
      machine.state = .waitingForData ∧ machine.data.lastSavedBlock = 1 ∧
        machine.data.agreedRemoteEndpoint = .client := by
  obtain ⟨history, machine, _, run, passes⟩ :=
    exists_reaches_of_converse .loopback
      [(.accepted .client (requestOf .writeRequest), {}), (.sent false, {}),
        (.received .client wholeBlock, {}), (.sent false, {})]
      (fun _ machine => decide (machine.state = .waitingForData ∧
        machine.data.lastSavedBlock = 1 ∧
          machine.data.agreedRemoteEndpoint = .client))
      (by decide +kernel)
  exact ⟨machine, ⟨history, run⟩, of_decide_eq_true passes⟩

/-- The second block is accepted, whatever it carries. -/
private theorem accepts_second {machine : Machine} {payload : Bytes}
    {datagram : Datagram}
    (saved : machine.data.lastSavedBlock = 1)
    (agreed : machine.data.agreedRemoteEndpoint = .client)
    (second : datagram.bytes = Packet.dataPacket 2 payload) :
    (machine.data.received .client datagram).AcceptsNewData := by
  have long : 4 ≤ datagram.bytes.length := by
    rw [second]
    simp [Packet.dataPacket]
  have received : (machine.data.received .client
      datagram).hasDataReceived = true :=
    (hasDataReceived_received _ datagram).mpr
      ⟨long, by rw [second, Packet.opCode_dataPacket], agreed.symm⟩
  have new : (machine.data.received .client datagram).isOldData = false := by
    rw [isOldData_received _ datagram long, second,
      Packet.word_dataPacket, saved]
    decide
  have firing : Firing (machine.data.received .client datagram)
      .waitingForData (some .packetReceived) .writeData .dataWritten :=
    .newData (by rw [fromAgreedEndpoint_received, agreed]; rfl) received new
  obtain ⟨row, enabled, acts, _⟩ := firing.exists_row
  exact ⟨row, enabled, acts⟩

/-- A last block of one byte is written in bounds. -/
theorem one_byte_block_in_bounds :
    ∃ machine, Reachable .loopback machine ∧
      machine.state = .waitingForData ∧
        (machine.data.received .client
          ⟨Packet.dataPacket 2 [9], by decide⟩).WritesInBounds := by
  obtain ⟨machine, reachable, waits, saved, agreed⟩ :=
    exists_waiting_for_last
  have accepts : (machine.data.received .client
      ⟨Packet.dataPacket 2 [9], by decide⟩).AcceptsNewData :=
    accepts_second saved agreed rfl
  exact ⟨machine, reachable, waits,
    (accepted_data_in_bounds_iff .loopback machine .client _ reachable waits
      accepts).1.mpr (by decide)⟩

/-- The empty last block of an upload of 512 bytes is accepted, and the
subscript is out of bounds. -/
theorem empty_block_out_of_bounds :
    ∃ machine, Reachable .loopback machine ∧
      machine.state = .waitingForData ∧
        (machine.data.received .client
          ⟨Packet.dataPacket 2 [], by decide⟩).AcceptsNewData ∧
        ¬ (machine.data.received .client
          ⟨Packet.dataPacket 2 [], by decide⟩).WritesInBounds := by
  obtain ⟨machine, reachable, waits, saved, agreed⟩ :=
    exists_waiting_for_last
  refine ⟨machine, reachable, waits, accepts_second saved agreed rfl, ?_⟩
  rw [writesInBounds_iff (show 4 < 2 ^ 64 by decide)
    (Nat.le_refl HeaderView.size)]
  exact Nat.lt_irrefl HeaderView.size

end Examples

end MsmTftp
