import PPBProject.Events

/- What handing packets to UDP adds to the log: the datagram, and the transport's errors.
   None of it is part of the history, so it is followed on the log itself. -/
namespace PPB

namespace Engine

section
variable {p : Output → Prop} (s : Engine)

theorem extends_log_emit {o : Output} (ho : p o) : Machine.Extends p s.log (s.emit o).log :=
  ⟨[o], rfl, by simpa using ho⟩

theorem log_handToUdp (client : UdpClient) (packet : Bytes) :
    ∃ (destination : Destination) (errors : List String), (s.handToUdp client packet).1.log =
      s.log ++ .datagramSent destination packet :: errors.map .errorOccurred :=
  ⟨_, _, List.append_assoc ..⟩

theorem extends_log_handToUdp {packet : Bytes} (client : UdpClient)
    (hsent : ∀ destination, p (.datagramSent destination packet))
    (herror : ∀ error, p (.errorOccurred error)) :
    Machine.Extends p s.log (s.handToUdp client packet).1.log := by
  have hdatagram (destination : Destination) :
      Machine.Extends p s.log (s.log ++ [.datagramSent destination packet]) :=
    ⟨[_], rfl, by simpa using hsent destination⟩
  refine (hdatagram _).trans ⟨_, rfl, ?_⟩
  intro o ho
  obtain ⟨error, -, rfl⟩ := List.mem_map.mp ho
  exact herror error

theorem extends_log_sendPacketInternal {packet : Bytes}
    (hsent : ∀ destination, p (.datagramSent destination packet))
    (herror : ∀ error, p (.errorOccurred error)) :
    Machine.Extends p s.log (s.sendPacketInternal packet).log := by
  unfold sendPacketInternal
  split
  · exact s.extends_log_emit (herror _)
  · exact s.extends_log_handToUdp _ hsent herror

/-- The packets of a test, one by one. -/
theorem extends_log_foldl_sendPacketInternal {packets : List DataPacket}
    (hsent : ∀ destination, ∀ packet ∈ packets, p (.datagramSent destination [packet.1, packet.2]))
    (herror : ∀ error, p (.errorOccurred error)) :
    Machine.Extends p s.log (packets.foldl (fun s packet =>
      s.sendPacketInternal [packet.1, packet.2]) s).log := by
  induction packets generalizing s with
  | nil => exact .refl _
  | cons packet rest ih =>
    have hfirst : Machine.Extends p s.log (s.sendPacketInternal [packet.1, packet.2]).log :=
      s.extends_log_sendPacketInternal (fun destination => hsent destination packet (by simp)) herror
    have hrest := ih (s.sendPacketInternal [packet.1, packet.2])
      fun destination other hmem => hsent destination other (by simp [hmem])
    exact hfirst.trans hrest

theorem extends_log_sendDataPackets {packets : List DataPacket}
    (hsent : ∀ destination, ∀ packet ∈ packets, p (.datagramSent destination [packet.1, packet.2]))
    (herror : ∀ error, p (.errorOccurred error)) (hsaved : p (.sentPacketsSaved packets)) :
    Machine.Extends p s.log (s.sendDataPackets packets).log :=
  (s.extends_log_foldl_sendPacketInternal hsent herror).trans (extends_log_emit _ hsaved)

end

end Engine

end PPB
