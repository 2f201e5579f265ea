import AwsIotSdk.LengthBytes

/-! The grammar of a CONNECT in the protocol, as a reader of it: the fields one
after the other, and nothing left over. -/

namespace AwsIotSdk

def takeByte : Bytes → Option (UInt8 × Bytes)
  | [] => none
  | b :: buf => some (b, buf)

def takeUInt16 : Bytes → Option (UInt16 × Bytes)
  | first :: second :: buf => some (Packet.toUInt16 first second, buf)
  | _ => none

def takeBinary (buf : Bytes) : Option (Bytes × Bytes) :=
  (takeUInt16 buf).bind fun len =>
    if len.1.toNat ≤ len.2.length then
      some (len.2.take len.1.toNat, len.2.drop len.1.toNat)
    else none

def takeUtf8 (buf : Bytes) : Option (Utf8String × Bytes) :=
  (takeBinary buf).bind fun str => (Utf8String.create str.1).map (·, str.2)

def takeIf {α : Type} (present : Bool) (take : Bytes → Option (α × Bytes)) (buf : Bytes) :
    Option (Option α × Bytes) :=
  if present then (take buf).map (fun a => (some a.1, a.2)) else some (none, buf)

def takeLength : Nat → Bytes → Option (Nat × Bytes)
  | 0, _ => none
  | _ + 1, [] => none
  | bytes + 1, b :: buf =>
    if b &&& 128 = 0 then some ((b &&& 127).toNat, buf)
    else (takeLength bytes buf).map (fun n => ((b &&& 127).toNat + 128 * n.1, n.2))

structure WillFields where
  isRetained : Bool
  qos : Nat
  topic : Utf8String
  message : Bytes

structure ConnectFields where
  protocolName : Utf8String
  protocolLevel : UInt8
  cleanSession : Bool
  keepAlive : UInt16
  clientId : Utf8String
  will : Option WillFields
  userName : Option Utf8String
  password : Option Bytes

/-- The will flag brings the topic and the message; without it the quality of
service and the retain flag of the will are zero. -/
def takeWill (flags : UInt8) (buf : Bytes) : Option (Option WillFields × Bytes) :=
  if flags &&& 0x04 = 0 then
    if flags &&& 0x38 = 0 then some (none, buf) else none
  else if flags &&& 0x18 = 0x18 then none
  else do
    let topic ← takeUtf8 buf
    let message ← takeBinary topic.2
    return (some ⟨flags &&& 0x20 ≠ 0, ((flags >>> 3) &&& 3).toNat, topic.1, message.1⟩, message.2)

structure ConnectPayload where
  clientId : Utf8String
  will : Option WillFields
  userName : Option Utf8String
  password : Option Bytes

def parsePayload (flags : UInt8) (buf : Bytes) : Option ConnectPayload := do
  let clientId ← takeUtf8 buf
  let will ← takeWill flags clientId.2
  let userName ← takeIf (flags &&& 0x80 ≠ 0) takeUtf8 will.2
  let password ← takeIf (flags &&& 0x40 ≠ 0) takeBinary userName.2
  if password.2 = [] then some ⟨clientId.1, will.1, userName.1, password.1⟩ else none

def FlagsAllowed (flags : UInt8) : Prop :=
  flags &&& 0x01 = 0 ∧ (flags &&& 0x40 = 0 ∨ flags &&& 0x80 ≠ 0)

instance decidableFlagsAllowed (flags : UInt8) : Decidable (FlagsAllowed flags) :=
  inferInstanceAs (Decidable (_ ∧ _))

def parseBody (buf : Bytes) : Option ConnectFields := do
  let name ← takeUtf8 buf
  let level ← takeByte name.2
  let flags ← takeByte level.2
  let keepAlive ← takeUInt16 flags.2
  if FlagsAllowed flags.1 then
    (parsePayload flags.1 keepAlive.2).map fun p =>
      ⟨name.1, level.1, flags.1 &&& 0x02 ≠ 0, keepAlive.1, p.clientId, p.will, p.userName,
        p.password⟩
  else none

def parseConnect (buf : Bytes) : Option ConnectFields := do
  let first ← takeByte buf
  let len ← takeLength maxNoOfRemainingLengthBytes first.2
  if first.1 = 0x10 ∧ len.2.length = len.1 then parseBody len.2 else none

/-! ### The readers on what a writer appends -/

theorem takeBinary_field {str : Bytes} (h : str.length ≤ 65535) (rest : Bytes) :
    takeBinary (UInt8.ofNat (str.length / 256) :: UInt8.ofNat (str.length % 256) ::
      (str ++ rest)) = some (str, rest) := by
  have hlen := Packet.toNat_toUInt16 h
  have hle : str.length ≤ (str ++ rest).length := by
    rw [List.length_append]
    omega
  simp only [takeBinary, takeUInt16, Option.bind_some, hlen, if_pos hle, List.take_left,
    List.drop_left]

theorem takeUtf8_field {t : Utf8String} (h : t.length ≤ 65535) (rest : Bytes) :
    takeUtf8 (UInt8.ofNat (t.length / 256) :: UInt8.ofNat (t.length % 256) ::
      (t.data ++ rest)) = some (t, rest) := by
  have hread : takeBinary (UInt8.ofNat (t.length / 256) :: UInt8.ofNat (t.length % 256) ::
      (t.data ++ rest)) = some (t.data, rest) := takeBinary_field h rest
  rw [takeUtf8, hread, Option.bind_some, Utf8String.create_data]
  rfl

theorem takeLength_of_terminated {bs : Bytes} (hbs : Terminated bs) (bytes : Nat)
    (hlen : bs.length ≤ bytes) (rest : Bytes) :
    takeLength bytes (bs ++ rest) = some (lengthValue bs, rest) := by
  induction bs generalizing bytes with
  | nil => exact hbs.elim
  | cons b bs ih =>
    obtain ⟨bytes, rfl⟩ : ∃ n, bytes = n + 1 :=
      ⟨bytes - 1, by rw [List.length_cons] at hlen; omega⟩
    rw [List.cons_append, takeLength]
    cases bs with
    | nil =>
      rw [if_pos (show b &&& 128 = 0 from hbs)]
      simp [lengthValue]
    | cons c bs =>
      obtain ⟨hbit, hbs⟩ := hbs
      have hrest := ih hbs bytes (by simpa using hlen)
      rw [if_neg hbit, hrest]
      rfl

theorem parseConnect_of_terminated {first : UInt8} {bs : Bytes} (hbs : Terminated bs)
    (hlen : bs.length ≤ maxNoOfRemainingLengthBytes) (body : Bytes) :
    parseConnect (first :: (bs ++ body)) =
      if first = 0x10 ∧ body.length = lengthValue bs then parseBody body else none := by
  have hread := takeLength_of_terminated hbs maxNoOfRemainingLengthBytes hlen body
  rw [parseConnect]
  change (takeLength maxNoOfRemainingLengthBytes (bs ++ body)).bind _ = _
  rw [hread]
  rfl

/-! ### What was read has a length of two bytes -/

theorem length_of_takeBinary {buf : Bytes} {r : Bytes × Bytes} (h : takeBinary buf = some r) :
    r.1.length ≤ 65535 := by
  obtain ⟨len, -, hr⟩ := Option.bind_eq_some_iff.mp h
  have hlt := len.1.toNat_lt
  split_ifs at hr with hle
  cases hr
  rw [List.length_take]
  omega

theorem length_of_takeUtf8 {buf : Bytes} {r : Utf8String × Bytes} (h : takeUtf8 buf = some r) :
    r.1.length ≤ 65535 := by
  obtain ⟨str, hstr, hr⟩ := Option.bind_eq_some_iff.mp h
  obtain ⟨t, ht, rfl⟩ := Option.map_eq_some_iff.mp hr
  have hlen := length_of_takeBinary hstr
  rw [Utf8String.length, Utf8String.data_of_create ht]
  exact hlen

theorem length_of_takeWill {flags : UInt8} {buf : Bytes} {r : Option WillFields × Bytes}
    (h : takeWill flags buf = some r) {w : WillFields} (hw : r.1 = some w) :
    w.topic.length ≤ 65535 ∧ w.message.length ≤ 65535 := by
  rw [takeWill] at h
  split_ifs at h
  · cases h
    cases hw
  · obtain ⟨topic, htopic, h⟩ := Option.bind_eq_some_iff.mp h
    obtain ⟨message, hmessage, h⟩ := Option.bind_eq_some_iff.mp h
    cases h
    cases hw
    exact ⟨length_of_takeUtf8 htopic, length_of_takeBinary hmessage⟩

structure ShortFields (clientId : Utf8String) (will : Option WillFields) : Prop where
  clientId : clientId.length ≤ 65535
  topic : ∀ w, will = some w → w.topic.length ≤ 65535
  message : ∀ w, will = some w → w.message.length ≤ 65535

theorem shortFields_of_parsePayload {flags : UInt8} {buf : Bytes} {p : ConnectPayload}
    (h : parsePayload flags buf = some p) : ShortFields p.clientId p.will := by
  obtain ⟨clientId, hclient, h⟩ := Option.bind_eq_some_iff.mp h
  obtain ⟨will, hwill, h⟩ := Option.bind_eq_some_iff.mp h
  obtain ⟨userName, -, h⟩ := Option.bind_eq_some_iff.mp h
  obtain ⟨password, -, h⟩ := Option.bind_eq_some_iff.mp h
  split_ifs at h
  cases h
  exact ⟨length_of_takeUtf8 hclient, fun w hw => (length_of_takeWill hwill hw).1,
    fun w hw => (length_of_takeWill hwill hw).2⟩

end AwsIotSdk
