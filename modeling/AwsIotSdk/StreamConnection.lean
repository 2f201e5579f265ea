import AwsIotSdk.NetworkConnection

/-! A connection whose peer has a fixed stream of bytes in store. The stream says
after which byte a read returns early, and where a read finds nothing. -/

namespace AwsIotSdk

inductive Delivery where
  | byte (b : UInt8)
  | cut
  | pause
  deriving DecidableEq, Repr

structure StreamConnection where
  connected : Bool
  tape : List Delivery
  deriving DecidableEq, Repr

namespace StreamConnection

/-- At most `n` bytes, up to the next cut, which is used up, or pause. -/
def takeBytes : Nat → List Delivery → Bytes × List Delivery
  | n + 1, .byte b :: t =>
    let r := takeBytes n t
    (b :: r.1, r.2)
  | _, .cut :: t => ([], t)
  | _, t => ([], t)

theorem takeBytes_length (n : Nat) (t : List Delivery) :
    (takeBytes n t).2.length + (takeBytes n t).1.length ≤ t.length := by
  induction n generalizing t with
  | zero =>
    cases t with
    | nil => simp [takeBytes]
    | cons d t => cases d <;> simp [takeBytes]
  | succ n ih =>
    cases t with
    | nil => simp [takeBytes]
    | cons d t =>
      cases d with
      | byte b =>
        have := ih t
        simp only [takeBytes, List.length_cons]
        omega
      | cut => simp [takeBytes]
      | pause => simp [takeBytes]

/-- A pause ahead of all bytes is what the read reports; the next read goes on
behind it. -/
def readInternal (c : StreamConnection) (buf : Bytes) (offset size out : Nat) :
    ReadResult StreamConnection :=
  match c.tape with
  | [] => ⟨.networkSslNothingToRead, buf, out, c⟩
  | .pause :: t => ⟨.networkSslNothingToRead, buf, out, { c with tape := t }⟩
  | d :: t =>
    let r := takeBytes size (d :: t)
    ⟨.success, buf.take offset ++ r.1 ++ buf.drop (offset + r.1.length), r.1.length,
      { c with tape := r.2 }⟩

instance : NetworkConnection StreamConnection where
  isConnected c := c.connected
  connectInternal c := (.success, { c with connected := true })
  writeInternal c buf _ := ⟨.success, buf.length, c⟩
  readInternal := readInternal
  disconnectInternal c := (.success, { c with connected := false })
  pending c := c.tape.length
  pending_lt := by
    intro c buf offset size out hs h
    unfold readInternal at h ⊢
    cases ht : c.tape with
    | nil => simp [ht] at h
    | cons d t =>
      cases d with
      | byte b =>
        obtain ⟨n, rfl⟩ : ∃ n, size = n + 1 := ⟨size - 1, by omega⟩
        have := takeBytes_length n t
        simp only [takeBytes, List.length_cons]
        omega
      | cut =>
        obtain ⟨n, rfl⟩ : ∃ n, size = n + 1 := ⟨size - 1, by omega⟩
        simp [takeBytes]
      | pause => simp [ht] at h

end StreamConnection

end AwsIotSdk
