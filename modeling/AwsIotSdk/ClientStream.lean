import AwsIotSdk.ControlPackets

/-! All that a client has written on a connection, as the server reads it: from any part
of the bytes the packets that are whole, in their order. -/

namespace AwsIotSdk

open BodyPart SelfDelimiting

/-- What the client sends: the request for the connection, or a packet of a factory with
the id it was given and the subscriptions as they are when it is written. -/
inductive ClientMessage where
  | connect (r : ConnectRequest)
  | factory (heap : SubscriptionHeap) (id : UInt16) (call : FactoryCall)

namespace ClientMessage

def bytes : ClientMessage → Bytes
  | .connect r => r.packet.toString
  | .factory heap id call => ((call.create heap id).map OutboundPacket.buf).getD []

/-- No string is empty or too long, and the flags of a message are allowed. -/
def Proper : ClientMessage → Prop
  | .connect r => r.Fits
  | .factory heap id call =>
    ∃ p, call.create heap id = some p ∧ PartsFit p.parts ∧ call.FlagsProper

def Means (m : ClientMessage) (packet : ControlPacket) : Prop :=
  match m with
  | .connect r => ∃ fields, packet = .connect fields ∧ r.Yields fields
  | .factory heap id call => call.packet heap id = some packet

theorem says_connect {r : ConnectRequest} (h : r.Fits) :
    ∃ fields, r.Yields fields ∧ Says (.connect fields) r.packet.toString := by
  obtain ⟨fields, hparse, hyields⟩ := ConnectRequest.encoded_of_fits h
  have hmax := ConnectRequest.packetSize_le h
  have hlength := r.length_body_iff.mpr (ConnectRequest.stringsWritten_of_fits h)
  have hheader := r.fixedHeader_packet hmax
  have hbody : parseBody r.body = some fields := by
    rw [r.parseBody_body, ← hparse, r.parseConnect_packet, if_pos ⟨hmax, hlength⟩]
  refine ⟨fields, hyields, frameOf 0x10 r.body (by omega), ?_, ?_⟩
  · rw [r.toString_packet, hheader, PacketFixedHeader.appendToBuffer_eq, ← hlength]
    rfl
  · change (parseBody r.body).map ControlPacket.connect = _
    rw [hbody]
    rfl

theorem Proper.says {m : ClientMessage} (h : m.Proper) :
    ∃ packet, m.Means packet ∧ Says packet m.bytes := by
  cases m with
  | connect r =>
    obtain ⟨fields, hyields, hsaid⟩ := says_connect h
    exact ⟨_, ⟨fields, rfl, hyields⟩, hsaid⟩
  | factory heap id call =>
    obtain ⟨p, hcreate, hfit, hflags⟩ := h
    obtain ⟨packet, hpacket, hsaid⟩ := says_create hcreate hfit hflags
    have hbytes : (ClientMessage.factory heap id call).bytes = p.buf := by simp [bytes, hcreate]
    exact ⟨packet, hpacket, hbytes ▸ hsaid⟩

end ClientMessage

end AwsIotSdk
