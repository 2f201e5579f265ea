import AwsIotSdk.ConnectGrammar
import AwsIotSdk.OutboundFrames

/-! The CONNECT of a client against the grammar. The constructor takes the flags
before it forces a clean session, and the helpers leave empty strings out. -/

namespace AwsIotSdk

open BodyPart

/-! ### The bytes of a packet -/

def keepAliveValue (keepAliveTimeout : Int) : UInt16 :=
  if 65535 < keepAliveTimeout then 65535 else UInt16.ofInt keepAliveTimeout

def clientIdBytes : Option Utf8String → Bytes
  | none => [0x00, 0x00]
  | some id => (string id.data).written

def willBytes : Option WillOptions → Bytes
  | none => []
  | some w => (string w.pTopicName.data).written ++ (string w.message).written

def userNameBytes : Option Utf8String → Bytes
  | none => []
  | some name => (string name.data).written

theorem appendUInt16ToBuffer_keepAlive (buf : Bytes) (keepAliveTimeout : Int) :
    (if 65535 < keepAliveTimeout then Packet.appendUInt16ToBuffer buf 65535
      else Packet.appendUInt16ToBuffer buf (UInt16.ofInt keepAliveTimeout)) =
      Packet.appendUInt16ToBuffer buf (keepAliveValue keepAliveTimeout) := by
  rw [keepAliveValue]
  split_ifs <;> rfl

theorem WillOptions.writeToBuffer_eq (w : WillOptions) (buf : Bytes) :
    w.writeToBuffer buf = buf ++ willBytes (some w) := by
  rw [writeToBuffer, appendStringToBuffer_eq, appendStringToBuffer_eq, List.append_assoc, willBytes]

theorem ConnectPacket.toString_eq (p : ConnectPacket) :
    p.toString = p.fixedHeader.appendToBuffer [] ++ ((string p.pProtocolId.data).written ++
      ([p.mqttVersion] ++ ([p.connectFlags] ++
        (Packet.appendUInt16ToBuffer [] (keepAliveValue p.keepAliveTimeout) ++
          (clientIdBytes p.pClientId ++ (willBytes p.pWillMsg ++ userNameBytes p.pUsername)))))) := by
  rw [toString]
  simp only [appendUInt16ToBuffer_keepAlive]
  cases p.pClientId with
  | none =>
    cases p.pWillMsg <;> cases p.pUsername <;>
      simp [Packet.appendUtf8StringToBuffer, appendStringToBuffer_eq, WillOptions.writeToBuffer_eq,
        clientIdBytes, willBytes, userNameBytes, Packet.appendUInt16ToBuffer]
  | some id =>
    cases p.pWillMsg <;> cases p.pUsername <;>
      simp [Packet.appendUtf8StringToBuffer, appendStringToBuffer_eq, WillOptions.writeToBuffer_eq,
        clientIdBytes, willBytes, userNameBytes, Packet.appendUInt16ToBuffer]

/-! ### What is requested of a connection -/

structure ConnectRequest where
  isCleanSession : Bool
  keepAliveTimeout : Int
  pClientId : Option Utf8String
  pWillMsg : Option WillOptions
  isMetricsEnabled : Bool

namespace ConnectRequest

def packet (r : ConnectRequest) : ConnectPacket :=
  ConnectPacket.init r.isCleanSession ConnectPacket.mqtt311 r.keepAliveTimeout r.pClientId
    r.pWillMsg r.isMetricsEnabled

/-- The client sends what the factory makes, and its own call of the constructor. -/
def Sends (r : ConnectRequest) (p : ConnectPacket) : Prop :=
  ConnectPacket.create r.isCleanSession ConnectPacket.mqtt311 r.keepAliveTimeout r.pClientId
    r.pWillMsg r.isMetricsEnabled = some p ∨ p = r.packet

def willFields (w : WillOptions) : WillFields :=
  ⟨w.isRetained, (SubscribePacket.qosByte w.qos).toNat, w.pTopicName, w.message⟩

structure Yields (r : ConnectRequest) (f : ConnectFields) : Prop where
  protocolName : f.protocolName = ConnectPacket.mqttConnectProtocolId
  protocolLevel : f.protocolLevel = 4
  cleanSession : f.cleanSession = (r.isCleanSession || r.pClientId.isNone)
  keepAlive : (f.keepAlive.toNat : Int) =
    if 65535 < r.keepAliveTimeout then 65535 else r.keepAliveTimeout
  clientId : f.clientId.data = (r.pClientId.map Utf8String.data).getD []
  clientId_nil : f.clientId.data = [] ↔ r.pClientId = none
  will : f.will = r.pWillMsg.map willFields
  userName : f.userName.isSome = r.isMetricsEnabled

/-- The grammar reads the request from the bytes. -/
def Encoded (r : ConnectRequest) (buf : Bytes) : Prop :=
  ∃ f, parseConnect buf = some f ∧ r.Yields f

structure Fits (r : ConnectRequest) : Prop where
  keepAlive : 0 ≤ r.keepAliveTimeout
  cleanSession : r.pClientId = none → r.isCleanSession = true
  clientId : ∀ id, r.pClientId = some id → 0 < id.length ∧ id.length ≤ 65535
  topic : ∀ w, r.pWillMsg = some w → 0 < w.pTopicName.length ∧ w.pTopicName.length ≤ 65535
  message : ∀ w, r.pWillMsg = some w → 0 < w.message.length ∧ w.message.length ≤ 65535

theorem packet_of_sends {r : ConnectRequest} {p : ConnectPacket} (h : r.Sends p) : p = r.packet := by
  rcases h with h | h
  · rw [ConnectPacket.create] at h
    split_ifs at h
    exact (Option.some.inj h).symm
  · exact h

/-! ### The flags -/

variable (r : ConnectRequest)

def flags : UInt8 := r.packet.connectFlags

def willFlags (w : WillOptions) : Bool × QoS := (w.isRetained, w.qos)

def bitsIf (present : Bool) (bits : UInt8) : UInt8 := if present then bits else 0

def willBits (w : Bool × QoS) : UInt8 :=
  bitsIf w.1 0x20 ||| bitsIf (w.2 = .qos1) 0x08 ||| 0x04

def flagsOf (isCleanSession isMetricsEnabled : Bool) (will : Option (Bool × QoS)) : UInt8 :=
  bitsIf isCleanSession 0x02 ||| bitsIf isMetricsEnabled 0x80 ||| (will.map willBits).getD 0

theorem setConnectFlags_eq (w : WillOptions) (b : UInt8) :
    w.setConnectFlags b = b ||| bitsIf w.isRetained 0x20 ||| bitsIf (w.qos = .qos1) 0x08 ||| 0x04 := by
  obtain ⟨retained, qos, topic, message⟩ := w
  cases retained <;> cases qos <;> simp [WillOptions.setConnectFlags, bitsIf]

theorem flags_eq : r.flags = flagsOf r.isCleanSession r.isMetricsEnabled (r.pWillMsg.map willFlags) := by
  obtain ⟨clean, k, id, will, metrics⟩ := r
  cases will with
  | none => cases metrics <;> simp [flags, packet, ConnectPacket.init, flagsOf, bitsIf]
  | some w =>
    cases metrics <;>
      simp [flags, packet, ConnectPacket.init, flagsOf, bitsIf, willBits, willFlags,
        setConnectFlags_eq, UInt8.or_assoc]

theorem flagsOf_bits (isCleanSession isMetricsEnabled : Bool) (will : Option (Bool × QoS)) :
    let b := flagsOf isCleanSession isMetricsEnabled will
    FlagsAllowed b ∧ decide (b &&& 0x02 ≠ 0) = isCleanSession ∧
      decide (b &&& 0x80 ≠ 0) = isMetricsEnabled ∧ decide (b &&& 0x40 ≠ 0) = false := by
  cases will with
  | none => cases isCleanSession <;> cases isMetricsEnabled <;> decide
  | some w =>
    obtain ⟨retained, qos⟩ := w
    cases isCleanSession <;> cases isMetricsEnabled <;> cases retained <;> cases qos <;> decide

theorem flagsOf_none (isCleanSession isMetricsEnabled : Bool) :
    let b := flagsOf isCleanSession isMetricsEnabled none
    b &&& 0x04 = 0 ∧ b &&& 0x38 = 0 := by
  cases isCleanSession <;> cases isMetricsEnabled <;> decide

theorem flagsOf_some (isCleanSession isMetricsEnabled isRetained : Bool) (qos : QoS) :
    let b := flagsOf isCleanSession isMetricsEnabled (some (isRetained, qos))
    b &&& 0x04 ≠ 0 ∧ b &&& 0x18 ≠ 0x18 ∧ decide (b &&& 0x20 ≠ 0) = isRetained ∧
      ((b >>> 3) &&& 3).toNat = (SubscribePacket.qosByte qos).toNat := by
  cases isCleanSession <;> cases isMetricsEnabled <;> cases isRetained <;> cases qos <;> decide

theorem flags_bits :
    FlagsAllowed r.flags ∧ decide (r.flags &&& 0x02 ≠ 0) = r.isCleanSession ∧
      decide (r.flags &&& 0x80 ≠ 0) = r.isMetricsEnabled ∧
      decide (r.flags &&& 0x40 ≠ 0) = false := by
  rw [flags_eq]
  exact flagsOf_bits _ _ _

/-! ### The sizes -/

def payload : Bytes :=
  clientIdBytes r.pClientId ++ (willBytes r.pWillMsg ++ userNameBytes r.packet.pUsername)

def body : Bytes :=
  0x00 :: 0x04 :: 0x4d :: 0x51 :: 0x54 :: 0x54 :: 0x04 :: r.flags ::
    (Packet.appendUInt16ToBuffer [] (keepAliveValue r.keepAliveTimeout) ++ r.payload)

theorem toString_packet :
    r.packet.toString = r.packet.fixedHeader.appendToBuffer [] ++ r.body := by
  have hname : (string ConnectPacket.mqttConnectProtocolId.data).written =
      [0x00, 0x04, 0x4d, 0x51, 0x54, 0x54] := by
    decide
  have hid : r.packet.pProtocolId = ConnectPacket.mqttConnectProtocolId := rfl
  rw [ConnectPacket.toString_eq, hid, hname]
  rfl

structure StringsWritten : Prop where
  clientId : ∀ id, r.pClientId = some id → 0 < id.length
  topic : ∀ w, r.pWillMsg = some w → 0 < w.pTopicName.length
  message : ∀ w, r.pWillMsg = some w → 0 < w.message.length

theorem length_written_string (str : Bytes) :
    (string str).written.length ≤ str.length + 2 ∧
      ((string str).written.length = str.length + 2 ↔ 0 < str.length) := by
  by_cases h : 0 < str.length
  · rw [written_string h]
    exact ⟨Nat.le_refl _, iff_of_true rfl h⟩
  · rw [written, Packet.appendStringToBuffer, if_neg h, List.length_nil]
    exact ⟨Nat.zero_le _, iff_of_false (by omega) h⟩

def clientIdSize : Nat := r.pClientId.elim 2 (fun id => id.length + 2)

def willSize : Nat :=
  r.pWillMsg.elim 0 (fun w => w.pTopicName.length + 2 + (w.message.length + 2))

def userNameSize : Nat := r.packet.pUsername.elim 0 (fun name => name.length + 2)

theorem packetSize_packet :
    r.packet.packetSize = 10 + (r.clientIdSize + (r.willSize + r.userNameSize)) := by
  obtain ⟨clean, k, id, will, metrics⟩ := r
  cases id <;> cases will <;> cases metrics <;>
    simp [packet, ConnectPacket.init, Packet.init, clientIdSize, willSize, userNameSize,
      WillOptions.length] <;> omega

theorem length_clientIdBytes :
    (clientIdBytes r.pClientId).length ≤ r.clientIdSize ∧
      ((clientIdBytes r.pClientId).length = r.clientIdSize ↔
        ∀ id, r.pClientId = some id → 0 < id.length) := by
  cases h : r.pClientId with
  | none => simp [clientIdBytes, clientIdSize, h]
  | some id =>
    have hlen := length_written_string id.data
    simpa [clientIdBytes, clientIdSize, h, Utf8String.length] using hlen

theorem length_willBytes :
    (willBytes r.pWillMsg).length ≤ r.willSize ∧
      ((willBytes r.pWillMsg).length = r.willSize ↔
        ∀ w, r.pWillMsg = some w → 0 < w.pTopicName.length ∧ 0 < w.message.length) := by
  cases h : r.pWillMsg with
  | none => simp [willBytes, willSize, h]
  | some w =>
    obtain ⟨htopic, htopic_iff⟩ := length_written_string w.pTopicName.data
    obtain ⟨hmessage, hmessage_iff⟩ := length_written_string w.message
    simp only [willBytes, willSize, h, List.length_append, Option.elim_some, Option.some.injEq,
      forall_eq', Utf8String.length]
    rw [← htopic_iff, ← hmessage_iff]
    omega

theorem length_userNameBytes : (userNameBytes r.packet.pUsername).length = r.userNameSize := by
  obtain ⟨clean, k, id, will, metrics⟩ := r
  cases metrics <;> rfl

theorem length_body_iff : r.body.length = r.packet.packetSize ↔ r.StringsWritten := by
  obtain ⟨hid, hid_iff⟩ := r.length_clientIdBytes
  obtain ⟨hwill, hwill_iff⟩ := r.length_willBytes
  have huser := r.length_userNameBytes
  have hbody : r.body.length = 10 + ((clientIdBytes r.pClientId).length +
      ((willBytes r.pWillMsg).length + (userNameBytes r.packet.pUsername).length)) := by
    simp only [body, payload, Packet.appendUInt16ToBuffer, List.nil_append, List.length_cons,
      List.length_append, List.length_nil]
    omega
  rw [hbody, packetSize_packet, huser]
  constructor
  · intro h
    have hwritten := hwill_iff.mp (by omega)
    exact ⟨hid_iff.mp (by omega), fun w hw => (hwritten w hw).1, fun w hw => (hwritten w hw).2⟩
  · intro h
    have hidlen := hid_iff.mpr h.clientId
    have hwilllen := hwill_iff.mpr (fun w hw => ⟨h.topic w hw, h.message w hw⟩)
    omega

/-! ### Parsing -/

def fieldsOf (p : ConnectPayload) : ConnectFields :=
  ⟨ConnectPacket.mqttConnectProtocolId, 0x04, r.isCleanSession, keepAliveValue r.keepAliveTimeout,
    p.clientId, p.will, p.userName, p.password⟩

theorem parseBody_body : parseBody r.body = (parsePayload r.flags r.payload).map r.fieldsOf := by
  obtain ⟨hallowed, hclean, -, -⟩ := r.flags_bits
  have hname : takeUtf8 r.body = some (ConnectPacket.mqttConnectProtocolId, 0x04 :: r.flags ::
      (Packet.appendUInt16ToBuffer [] (keepAliveValue r.keepAliveTimeout) ++ r.payload)) :=
    takeUtf8_field (t := ConnectPacket.mqttConnectProtocolId) (by decide) _
  have hkeepAlive := Packet.toUInt16_bytes (keepAliveValue r.keepAliveTimeout)
  rw [parseBody, hname]
  change (if FlagsAllowed r.flags then (parsePayload r.flags r.payload).map _ else none) = _
  rw [if_pos hallowed, hclean, hkeepAlive]
  rfl

theorem fixedHeader_packet (h : r.packet.packetSize ≤ PacketFixedHeader.maxMqttPacketRemLenBytes) :
    r.packet.fixedHeader = ⟨.connect, 0x10, r.packet.packetSize, true⟩ := by
  have hlt : ¬ PacketFixedHeader.maxMqttPacketRemLenBytes < r.packet.packetSize := by omega
  change (PacketFixedHeader.initializeHeader _ _ _ _ _ r.packet.packetSize).2 = _
  rw [PacketFixedHeader.initializeHeader, if_neg hlt]

theorem fixedHeader_packet_long
    (h : ¬ r.packet.packetSize ≤ PacketFixedHeader.maxMqttPacketRemLenBytes) :
    r.packet.fixedHeader = PacketFixedHeader.empty := by
  have hlt : PacketFixedHeader.maxMqttPacketRemLenBytes < r.packet.packetSize := by omega
  change (PacketFixedHeader.initializeHeader _ _ _ _ _ r.packet.packetSize).2 = _
  rw [PacketFixedHeader.initializeHeader, if_pos hlt]

theorem parseConnect_packet :
    parseConnect r.packet.toString =
      if r.packet.packetSize ≤ PacketFixedHeader.maxMqttPacketRemLenBytes ∧
          r.body.length = r.packet.packetSize then
        (parsePayload r.flags r.payload).map r.fieldsOf
      else none := by
  have hbytes := PacketFixedHeader.terminated_lengthBytes r.packet.fixedHeader.remainingLength
  have hvalue := PacketFixedHeader.lengthValue_lengthBytes r.packet.fixedHeader.remainingLength
  have hlength : r.packet.fixedHeader.remainingLength ≤
      PacketFixedHeader.maxMqttPacketRemLenBytes := by
    by_cases h : r.packet.packetSize ≤ PacketFixedHeader.maxMqttPacketRemLenBytes
    · rw [fixedHeader_packet r h]
      exact h
    · rw [fixedHeader_packet_long r h]
      exact Nat.zero_le _
  have hcount : (PacketFixedHeader.lengthBytes r.packet.fixedHeader.remainingLength).length ≤
      maxNoOfRemainingLengthBytes := by
    rw [PacketFixedHeader.length_lengthBytes hlength]
    exact PacketFixedHeader.remainingLengthByteCount_le_four _
  rw [toString_packet, PacketFixedHeader.appendToBuffer_eq, List.nil_append, List.cons_append,
    parseConnect_of_terminated hbytes hcount, hvalue, parseBody_body]
  by_cases h : r.packet.packetSize ≤ PacketFixedHeader.maxMqttPacketRemLenBytes
  · rw [fixedHeader_packet r h]
    simp only [h, true_and]
  · rw [fixedHeader_packet_long r h, if_neg (by simp [PacketFixedHeader.empty]),
      if_neg (fun hand => h hand.1)]

/-! ### The payload -/

variable {r}

theorem written_string_append {str : Bytes} (h : 0 < str.length) (rest : Bytes) :
    (string str).written ++ rest =
      UInt8.ofNat (str.length / 256) :: UInt8.ofNat (str.length % 256) :: (str ++ rest) := by
  rw [written_string h]
  rfl

theorem takeUtf8_written {t : Utf8String} (h : 0 < t.length ∧ t.length ≤ 65535) (rest : Bytes) :
    takeUtf8 ((string t.data).written ++ rest) = some (t, rest) := by
  rw [written_string_append h.1]
  exact takeUtf8_field h.2 rest

theorem takeUtf8_clientIdBytes (h : r.Fits) (rest : Bytes) :
    ∃ id, takeUtf8 (clientIdBytes r.pClientId ++ rest) = some (id, rest) ∧
      id.data = (r.pClientId.map Utf8String.data).getD [] := by
  cases hid : r.pClientId with
  | none => exact ⟨⟨[], rfl⟩, takeUtf8_field (t := ⟨[], rfl⟩) (by decide) rest, rfl⟩
  | some id => exact ⟨id, takeUtf8_written (h.clientId id hid) rest, rfl⟩

theorem takeWill_willBytes (h : r.Fits) (rest : Bytes) :
    takeWill r.flags (willBytes r.pWillMsg ++ rest) = some (r.pWillMsg.map willFields, rest) := by
  have hflags := r.flags_eq
  cases hwill : r.pWillMsg with
  | none =>
    obtain ⟨hflag, hbits⟩ := flagsOf_none r.isCleanSession r.isMetricsEnabled
    rw [hwill, Option.map_none] at hflags
    rw [← hflags] at hflag hbits
    rw [takeWill, if_pos hflag, if_pos hbits]
    rfl
  | some w =>
    obtain ⟨hflag, hqos, hret, hvalue⟩ :=
      flagsOf_some r.isCleanSession r.isMetricsEnabled w.isRetained w.qos
    rw [hwill, Option.map_some, willFlags] at hflags
    rw [← hflags] at hflag hqos hret hvalue
    have htopic := takeUtf8_written (h.topic w hwill) ((string w.message).written ++ rest)
    have hmessage : takeBinary ((string w.message).written ++ rest) = some (w.message, rest) := by
      rw [written_string_append (h.message w hwill).1]
      exact takeBinary_field (h.message w hwill).2 rest
    rw [takeWill, if_neg hflag, if_neg hqos, willBytes, List.append_assoc, htopic]
    change (takeBinary ((string w.message).written ++ rest)).bind _ = _
    rw [hmessage, hret, hvalue]
    rfl

theorem takeIf_userNameBytes :
    takeIf (decide (r.flags &&& 0x80 ≠ 0)) takeUtf8 (userNameBytes r.packet.pUsername) =
      some (r.packet.pUsername, []) := by
  rw [r.flags_bits.2.2.1]
  cases hmetrics : r.isMetricsEnabled with
  | false =>
    have hname : r.packet.pUsername = none := by
      simp [packet, ConnectPacket.init, hmetrics]
    rw [hname]
    rfl
  | true =>
    have hname : r.packet.pUsername = some ConnectPacket.usageMetrics := by
      simp [packet, ConnectPacket.init, hmetrics]
    have hread := takeUtf8_written (t := ConnectPacket.usageMetrics) (by decide) []
    rw [List.append_nil] at hread
    rw [hname, takeIf, userNameBytes, hread]
    rfl

theorem parsePayload_payload (h : r.Fits) :
    ∃ id, parsePayload r.flags r.payload =
        some ⟨id, r.pWillMsg.map willFields, r.packet.pUsername, none⟩ ∧
      id.data = (r.pClientId.map Utf8String.data).getD [] := by
  obtain ⟨id, hid, hdata⟩ := takeUtf8_clientIdBytes h
    (willBytes r.pWillMsg ++ userNameBytes r.packet.pUsername)
  have hpassword : takeIf (decide (r.flags &&& 0x40 ≠ 0)) takeBinary [] = some (none, []) := by
    rw [r.flags_bits.2.2.2]
    rfl
  refine ⟨id, ?_, hdata⟩
  rw [parsePayload, payload, hid]
  change (takeWill r.flags (willBytes r.pWillMsg ++ userNameBytes r.packet.pUsername)).bind _ = _
  rw [takeWill_willBytes h]
  change (takeIf (decide (r.flags &&& 0x80 ≠ 0)) takeUtf8
    (userNameBytes r.packet.pUsername)).bind _ = _
  rw [takeIf_userNameBytes]
  change (takeIf (decide (r.flags &&& 0x40 ≠ 0)) takeBinary []).bind _ = _
  rw [hpassword]
  rfl

/-! ### The request and what is read -/

theorem toNat_keepAliveValue (k : Int) :
    ((keepAliveValue k).toNat : Int) = (if 65535 < k then 65535 else k) ↔ 0 ≤ k := by
  rw [keepAliveValue]
  by_cases h : 65535 < k
  · rw [if_pos h, if_pos h]
    exact iff_of_true rfl (by omega)
  · have hlt : (k % 65536).toNat < 65536 := by omega
    have hvalue : (UInt16.ofInt k).toNat = (k % 65536).toNat :=
      UInt16.toNat_ofNat'.trans (Nat.mod_eq_of_lt hlt)
    rw [if_neg h, if_neg h, hvalue]
    omega

theorem packetSize_le (h : r.Fits) :
    r.packet.packetSize ≤ PacketFixedHeader.maxMqttPacketRemLenBytes := by
  have hid : r.clientIdSize ≤ 65537 := by
    cases hid : r.pClientId with
    | none => simp [clientIdSize, hid]
    | some id =>
      have hle := (h.clientId id hid).2
      simp only [clientIdSize, hid, Option.elim_some]
      omega
  have hwill : r.willSize ≤ 131074 := by
    cases hwill : r.pWillMsg with
    | none => simp [willSize, hwill]
    | some w =>
      have htopic := (h.topic w hwill).2
      have hmessage := (h.message w hwill).2
      simp only [willSize, hwill, Option.elim_some]
      omega
  have huser : r.userNameSize ≤ 24 := by
    obtain ⟨clean, k, id, will, metrics⟩ := r
    cases metrics
    · exact Nat.zero_le _
    · exact Nat.le_refl 24
  rw [packetSize_packet, PacketFixedHeader.maxMqttPacketRemLenBytes]
  omega

theorem stringsWritten_of_fits (h : r.Fits) : r.StringsWritten :=
  ⟨fun id hid => (h.clientId id hid).1, fun w hw => (h.topic w hw).1,
    fun w hw => (h.message w hw).1⟩

theorem encoded_of_fits (h : r.Fits) : r.Encoded r.packet.toString := by
  obtain ⟨id, hparse, hdata⟩ := parsePayload_payload h
  have hlength := r.length_body_iff.mpr (stringsWritten_of_fits h)
  have hid : id.data = [] ↔ r.pClientId = none := by
    rw [hdata]
    cases hclient : r.pClientId with
    | none => simp
    | some id =>
      have hpos := (h.clientId id hclient).1
      rw [Utf8String.length, List.length_pos_iff] at hpos
      simpa using hpos
  have hclean : r.isCleanSession = (r.isCleanSession || r.pClientId.isNone) := by
    cases hclient : r.pClientId with
    | none => simp [h.cleanSession hclient]
    | some id => simp
  have huser : r.packet.pUsername.isSome = r.isMetricsEnabled := by
    cases hmetrics : r.isMetricsEnabled <;> simp [packet, ConnectPacket.init, hmetrics]
  refine ⟨r.fieldsOf ⟨id, r.pWillMsg.map willFields, r.packet.pUsername, none⟩, ?_, rfl, rfl,
    hclean, (toNat_keepAliveValue _).mpr h.keepAlive, hdata, hid, rfl, huser⟩
  rw [parseConnect_packet, if_pos ⟨packetSize_le h, hlength⟩, hparse]
  rfl

theorem fits_of_encoded (h : r.Encoded r.packet.toString) : r.Fits := by
  obtain ⟨f, hparse, hyields⟩ := h
  rw [parseConnect_packet] at hparse
  split_ifs at hparse with hsize
  obtain ⟨p, hp, rfl⟩ := Option.map_eq_some_iff.mp hparse
  have hshort := shortFields_of_parsePayload hp
  have hwritten := r.length_body_iff.mp hsize.2
  have hclean : r.isCleanSession = (r.isCleanSession || r.pClientId.isNone) := hyields.cleanSession
  have hwill : p.will = r.pWillMsg.map willFields := hyields.will
  have hclient : p.clientId.data = (r.pClientId.map Utf8String.data).getD [] := hyields.clientId
  have hwillSome : ∀ w, r.pWillMsg = some w → p.will = some (willFields w) := by
    intro w hw
    rw [hwill, hw]
    rfl
  refine ⟨(toNat_keepAliveValue _).mp hyields.keepAlive, ?_, ?_, ?_, ?_⟩
  · intro hnone
    rw [hnone] at hclean
    simpa using hclean
  · intro id hid
    have hle := hshort.clientId
    rw [Utf8String.length, hclient, hid] at hle
    exact ⟨hwritten.clientId id hid, hle⟩
  · intro w hw
    exact ⟨hwritten.topic w hw, hshort.topic _ (hwillSome w hw)⟩
  · intro w hw
    exact ⟨hwritten.message w hw, hshort.message _ (hwillSome w hw)⟩

/-- A CONNECT carries its request exactly when the keepalive is not negative, a client
without an id asks for a clean session, and no string is empty or too long. -/
theorem encoded_iff_fits (r : ConnectRequest) (p : ConnectPacket) (h : r.Sends p) :
    r.Encoded p.toString ↔ r.Fits := by
  rw [packet_of_sends h]
  exact ⟨fits_of_encoded, encoded_of_fits⟩

/-- A client with an id, a will and a session that stays. -/
def helloRequest : ConnectRequest :=
  ⟨false, 30, some ⟨[0x6d, 0x65], by decide⟩,
    some ⟨true, .qos1, ⟨[0x62, 0x79, 0x65], by decide⟩, [0x6f, 0x66, 0x66]⟩, true⟩

theorem encoded_iff_fits_hello : helloRequest.Encoded helloRequest.packet.toString ↔
    helloRequest.Fits :=
  encoded_iff_fits helloRequest helloRequest.packet (.inl rfl)

/-- A call of `Connect` without a client id that asks for no clean session. -/
def forcedRequest : ConnectRequest := ⟨false, 30, none, none, true⟩

/-- The clean session that the constructor forces does not reach the flags. -/
theorem not_encoded_forced :
    forcedRequest.Sends forcedRequest.packet ∧ forcedRequest.packet.isCleanSession = true ∧
      ¬ forcedRequest.Encoded forcedRequest.packet.toString := by
  refine ⟨.inr rfl, rfl, ?_⟩
  intro h
  exact absurd ((fits_of_encoded h).cleanSession rfl) (by decide)

end ConnectRequest

end AwsIotSdk
