import AwsIotSdk.NetworkConnection

/-! Reading into the middle of a buffer. The loop counts the bytes from the start of the
buffer, and what it compares with the size asked for and returns is that count. -/

namespace AwsIotSdk

/-- A new value at consecutive positions. -/
def storeAt (buf : Bytes) (position : Nat) (data : Bytes) : Bytes :=
  buf.take position ++ data ++ buf.drop (position + data.length)

theorem storeAt_length {buf : Bytes} {position : Nat} {data : Bytes}
    (h : position + data.length ≤ buf.length) :
    (storeAt buf position data).length = buf.length := by
  simp only [storeAt, List.length_append, List.length_take, List.length_drop]
  omega

theorem storeAt_append {buf : Bytes} {position : Nat} {first second : Bytes}
    (h : position + first.length ≤ buf.length) :
    storeAt (storeAt buf position first) (position + first.length) second =
      storeAt buf position (first ++ second) := by
  have hpre : (buf.take position ++ first).length = position + first.length := by
    rw [List.length_append, List.length_take]
    omega
  simp only [storeAt]
  rw [List.take_left' hpre, ← List.drop_drop, List.drop_left' hpre, List.drop_drop]
  simp [Nat.add_assoc]

/-- The size as the library takes it. -/
def toCInt (n : Nat) : Int := (BitVec.ofNat 32 n).toInt

theorem toCInt_le (n : Nat) : toCInt n ≤ n := by
  have hmod : (BitVec.ofNat 32 n).toNat ≤ n := Nat.mod_le n (2 ^ 32)
  rw [toCInt, BitVec.toInt_eq_toNat_cond]
  split_ifs <;> omega

/-- What a read of up to `num` bytes comes to. A read of none or fewer has no data. -/
inductive SslRead (num : Int) where
  | data (bytes : Bytes) (h : 0 < bytes.length ∧ bytes.length ≤ num)
  | wantRead (selectRetCode : Int)
  | zeroReturn
  | error

/-- A connection whose reads have the given results, and time out behind them. The last
two members record what was received and asked for; they are no part of the source. -/
structure OpenSSLConnection where
  isConnected : Bool
  hasSslHandle : Bool
  reads : List ((num : Int) → SslRead num)
  received : Bytes
  requests : List (Nat × Nat)

namespace OpenSSLConnection

/-- The bytes of one turn of the loop, none where the socket is ready again, or the
error status. -/
def sslRead {num : Int} : SslRead num → Except ResponseCode Bytes
  | .data bytes _ => .ok bytes
  | .wantRead selectRetCode =>
    if 0 < selectRetCode then .ok []
    else if selectRetCode = 0 then .error .networkSslNothingToRead
    else .error .networkSslReadError
  | .zeroReturn => .error .networkSslConnectionClosedError
  | .error => .error .networkSslReadError

def request (c : OpenSSLConnection) (bufReadOffset sizeBytesToRead : Nat) : OpenSSLConnection :=
  { c with requests := c.requests ++ [(bufReadOffset, sizeBytesToRead)] }

@[simp] theorem request_isConnected (c : OpenSSLConnection) (offset size : Nat) :
    (c.request offset size).isConnected = c.isConnected := rfl

def receive (c : OpenSSLConnection) (reads : List ((num : Int) → SslRead num)) (bytes : Bytes) :
    OpenSSLConnection :=
  { c with reads := reads, received := c.received ++ bytes }

@[simp] theorem receive_isConnected (c : OpenSSLConnection)
    (reads : List ((num : Int) → SslRead num)) (bytes : Bytes) :
    (c.receive reads bytes).isConnected = c.isConnected := rfl

def readLoop (sizeBytesToRead out : Nat) :
    List ((num : Int) → SslRead num) → OpenSSLConnection → Bytes →
      (totalReadLength remainingBytesToRead : Nat) → ReadResult OpenSSLConnection
  | [], c, buf, _, _ => ⟨.networkSslNothingToRead, buf, out, { c with reads := [] }⟩
  | read :: reads, c, buf, totalReadLength, remainingBytesToRead =>
    match sslRead (read (toCInt remainingBytesToRead)) with
    | .error errorStatus => ⟨errorStatus, buf, out, { c with reads := reads }⟩
    | .ok bytes =>
      let c := c.receive reads bytes
      let buf := storeAt buf totalReadLength bytes
      let totalReadLength := totalReadLength + bytes.length
      if c.isConnected && decide (totalReadLength < sizeBytesToRead) then
        readLoop sizeBytesToRead out reads c buf totalReadLength
          (remainingBytesToRead - bytes.length)
      else ⟨.success, buf, totalReadLength, c⟩

def readInternal (c : OpenSSLConnection) (buf : Bytes)
    (bufReadOffset sizeBytesToRead sizeReadBytesOut : Nat) : ReadResult OpenSSLConnection :=
  if c.hasSslHandle then
    readLoop sizeBytesToRead sizeReadBytesOut c.reads (c.request bufReadOffset sizeBytesToRead)
      buf bufReadOffset sizeBytesToRead
  else
    ⟨.networkSslReadError, buf, sizeReadBytesOut, c.request bufReadOffset sizeBytesToRead⟩

theorem sslRead_length {num : Int} {read : SslRead num} {bytes : Bytes}
    (h : sslRead read = .ok bytes) : bytes = [] ∨ bytes.length ≤ num := by
  cases read with
  | data b hb =>
    cases h
    exact .inr hb.2
  | wantRead code =>
    rw [sslRead] at h
    split_ifs at h
    cases h
    exact .inl rfl
  | zeroReturn => cases h
  | error => cases h

theorem sslRead_error {num : Int} {read : SslRead num} {rc : ResponseCode}
    (h : sslRead read = .error rc) : rc ≠ .success := by
  cases read with
  | data b hb => cases h
  | wantRead code =>
    rw [sslRead] at h
    split_ifs at h <;> cases h <;> decide
  | zeroReturn => cases h; decide
  | error => cases h; decide

/-- A read that succeeds has used up a result. -/
theorem readLoop_reads {size out total remaining : Nat} {reads : List ((num : Int) → SslRead num)}
    {c : OpenSSLConnection} {buf : Bytes}
    (h : (readLoop size out reads c buf total remaining).rc = .success) :
    (readLoop size out reads c buf total remaining).connection.reads.length < reads.length := by
  induction reads generalizing c buf total remaining with
  | nil => cases h
  | cons read reads ih =>
    rw [readLoop] at h ⊢
    cases hread : sslRead (read (toCInt remaining)) with
    | error rc =>
      rw [hread] at h
      exact absurd h (sslRead_error hread)
    | ok bytes =>
      simp only [hread] at h ⊢
      split_ifs at h ⊢
      · have := ih h
        rw [List.length_cons]
        omega
      · simp [receive]

instance networkConnection : NetworkConnection OpenSSLConnection where
  isConnected c := c.isConnected
  connectInternal c := (.success, c)
  writeInternal c buf _ := ⟨.success, buf.length, c⟩
  readInternal := readInternal
  disconnectInternal c := (.success, c)
  pending c := c.reads.length
  pending_lt := by
    intro c buf offset size out hsize hrc
    rw [readInternal] at hrc ⊢
    split_ifs at hrc ⊢
    exact readLoop_reads hrc

/-! ### What a call receives -/

/-- The bytes that come before the first result that is an error, whatever the loop
makes of its count. -/
def supply : List ((num : Int) → SslRead num) → (remaining : Nat) → Bytes
  | [], _ => []
  | read :: reads, remaining =>
    match sslRead (read (toCInt remaining)) with
    | .error _ => []
    | .ok bytes => bytes ++ supply reads (remaining - bytes.length)

/-- The first read is no error. -/
def firstReady (reads : List ((num : Int) → SslRead num)) (size : Nat) : Bool :=
  match reads with
  | [] => false
  | read :: _ => (sslRead (read (toCInt size))).isOk

theorem sslRead_le {read : (num : Int) → SslRead num} {remaining : Nat} {bytes : Bytes}
    (h : sslRead (read (toCInt remaining)) = .ok bytes) : bytes.length ≤ remaining := by
  rcases sslRead_length h with rfl | hle
  · exact Nat.zero_le _
  · have := toCInt_le remaining
    omega

/-- What a loop that succeeds has done: the new bytes stand behind those already there,
and the count says where they end. -/
structure Filled (size total remaining : Nat) (buf : Bytes) (c : OpenSSLConnection)
    (r : ReadResult OpenSSLConnection) (w : Bytes) : Prop where
  received : r.connection.received = c.received ++ w
  stored : r.buf = storeAt buf total w
  counted : r.sizeReadBytesOut = total + w.length
  bounded : w.length ≤ remaining
  enough : size ≤ total + w.length

theorem firstReady_of_supply {reads : List ((num : Int) → SslRead num)} {remaining : Nat}
    (h : 0 < (supply reads remaining).length) : firstReady reads remaining = true := by
  cases reads with
  | nil => simp [supply] at h
  | cons read reads =>
    rw [supply] at h
    rw [firstReady]
    cases hread : sslRead (read (toCInt remaining)) with
    | error rc => simp [hread] at h
    | ok bytes => rfl

theorem readLoop_filled {size out total remaining : Nat}
    {reads : List ((num : Int) → SslRead num)} {c : OpenSSLConnection} {buf : Bytes}
    (hc : c.isConnected = true) (hbuf : total + remaining ≤ buf.length)
    (h : (readLoop size out reads c buf total remaining).rc = .success) :
    ∃ w, Filled size total remaining buf c (readLoop size out reads c buf total remaining) w := by
  induction reads generalizing c buf total remaining with
  | nil => cases h
  | cons read reads ih =>
    rw [readLoop] at h ⊢
    cases hread : sslRead (read (toCInt remaining)) with
    | error rc =>
      rw [hread] at h
      exact absurd h (sslRead_error hread)
    | ok bytes =>
      have hle := sslRead_le hread
      simp only [hread, receive_isConnected, hc, Bool.true_and, decide_eq_true_eq] at h ⊢
      split_ifs at h ⊢ with hmore
      · have hlen : (storeAt buf total bytes).length = buf.length := storeAt_length (by omega)
        obtain ⟨w, hw⟩ := ih ((receive_isConnected c reads bytes).trans hc) (by omega) h
        refine ⟨bytes ++ w, ?_, ?_, ?_, ?_, ?_⟩
        · rw [hw.received, receive, List.append_assoc]
        · rw [hw.stored, storeAt_append (by omega)]
        · rw [hw.counted, List.length_append, Nat.add_assoc]
        · have := hw.bounded
          rw [List.length_append]
          omega
        · have := hw.enough
          rw [List.length_append]
          omega
      · exact ⟨bytes, rfl, rfl, rfl, hle, by omega⟩

theorem readLoop_success_iff {size out total remaining : Nat}
    {reads : List ((num : Int) → SslRead num)} {c : OpenSSLConnection} {buf : Bytes}
    (hc : c.isConnected = true) :
    (readLoop size out reads c buf total remaining).rc = .success ↔
      firstReady reads remaining = true ∧ size ≤ total + (supply reads remaining).length := by
  induction reads generalizing c buf total remaining with
  | nil => simp [readLoop, firstReady]
  | cons read reads ih =>
    rw [readLoop, firstReady, supply]
    cases hread : sslRead (read (toCInt remaining)) with
    | error rc => simpa [Except.isOk, Except.toBool] using sslRead_error hread
    | ok bytes =>
      simp only [receive_isConnected, hc, Bool.true_and, decide_eq_true_eq, List.length_append,
        Except.isOk, Except.toBool, true_and]
      split_ifs with hmore
      · rw [ih ((receive_isConnected c reads bytes).trans hc)]
        refine ⟨fun h => by omega, fun h => ⟨firstReady_of_supply ?_, by omega⟩⟩
        omega
      · have hle : size ≤
            total + (bytes.length + (supply reads (remaining - bytes.length)).length) := by omega
        simpa using hle

/-- The call reports success before an error comes: the offset counts towards the size. -/
def Succeeds (c : OpenSSLConnection) (bufReadOffset sizeBytesToRead : Nat) : Prop :=
  c.hasSslHandle = true ∧ firstReady c.reads sizeBytesToRead = true ∧
    sizeBytesToRead ≤ bufReadOffset + (supply c.reads sizeBytesToRead).length

/-- What the caller of a read relies on. -/
structure HonoursOffset (c : OpenSSLConnection) (buf : Bytes) (offset size : Nat)
    (r : ReadResult OpenSSLConnection) : Prop where
  stored : r.rc = .success → ∃ w, r.connection.received = c.received ++ w ∧ w.length = size ∧
    r.buf = storeAt buf offset w
  counted : r.rc = .success → r.sizeReadBytesOut = size

theorem readInternal_success_iff {c : OpenSSLConnection} (hc : c.isConnected = true)
    (buf : Bytes) (offset size out : Nat) :
    (readInternal c buf offset size out).rc = .success ↔ Succeeds c offset size := by
  rw [readInternal, Succeeds]
  split_ifs with hhandle
  · rw [readLoop_success_iff ((request_isConnected c offset size).trans hc)]
    simp [hhandle]
  · simp [hhandle]

theorem readInternal_filled {c : OpenSSLConnection} (hc : c.isConnected = true) {buf : Bytes}
    {offset size out : Nat} (hbuf : offset + size ≤ buf.length)
    (h : (readInternal c buf offset size out).rc = .success) :
    ∃ w, Filled size offset size buf c (readInternal c buf offset size out) w := by
  rw [readInternal] at h ⊢
  split_ifs at h ⊢
  obtain ⟨w, hw⟩ := readLoop_filled ((request_isConnected c offset size).trans hc) hbuf h
  exact ⟨w, hw.received, hw.stored, hw.counted, hw.bounded, hw.enough⟩

theorem honoursOffset_iff {c : OpenSSLConnection} (hc : c.isConnected = true) {buf : Bytes}
    {offset size : Nat} (out : Nat) (hbuf : offset + size ≤ buf.length) :
    HonoursOffset c buf offset size (readInternal c buf offset size out) ↔
      offset = 0 ∨ ¬Succeeds c offset size := by
  rw [← readInternal_success_iff hc buf offset size out]
  constructor
  · intro h
    refine or_not_of_imp fun hrc => ?_
    obtain ⟨w, hw⟩ := readInternal_filled hc hbuf hrc
    obtain ⟨w', hreceived, hlen, -⟩ := h.stored hrc
    obtain rfl : w = w' := List.append_cancel_left (hw.received.symm.trans hreceived)
    have := hw.counted
    rw [h.counted hrc] at this
    omega
  · intro h
    refine ⟨fun hrc => ?_, fun hrc => ?_⟩ <;>
      obtain ⟨w, hw⟩ := readInternal_filled hc hbuf hrc <;>
      obtain rfl := h.resolve_right (not_not.2 hrc) <;>
      have hlen : w.length = size := by
        have := hw.bounded
        have := hw.enough
        omega
    · exact ⟨w, hw.received, hlen, hw.stored⟩
    · rw [hw.counted, hlen, Nat.zero_add]

/-! ### The loop of `readFromNetworkBuffer` -/

/-- The running total stays within the size, and every read asks for what is left, with
no subtraction that wraps. -/
structure WithinSize (c : OpenSSLConnection) (bytesToRead : Nat)
    (r : ReadResult OpenSSLConnection) : Prop where
  total : r.sizeReadBytesOut ≤ bytesToRead
  asked : ∃ requests, r.connection.requests = c.requests ++ requests ∧
    ∀ request ∈ requests, request.1 + request.2 = bytesToRead

theorem readLoop_requests (size out : Nat) (reads : List ((num : Int) → SslRead num))
    (c : OpenSSLConnection) (buf : Bytes) (total remaining : Nat) :
    (readLoop size out reads c buf total remaining).connection.requests = c.requests := by
  induction reads generalizing c buf total remaining with
  | nil => rfl
  | cons read reads ih =>
    rw [readLoop]
    cases sslRead (read (toCInt remaining)) with
    | error rc => rfl
    | ok bytes =>
      dsimp only
      split_ifs
      · exact ih (c.receive reads bytes) _ _ _
      · rfl

theorem readInternal_requests (c : OpenSSLConnection) (buf : Bytes) (offset size out : Nat) :
    (readInternal c buf offset size out).connection.requests = c.requests ++ [(offset, size)] := by
  rw [readInternal]
  split_ifs
  · exact readLoop_requests size out c.reads (c.request offset size) buf offset size
  · rfl

theorem readLoop_out {size out : Nat} {reads : List ((num : Int) → SslRead num)}
    {c : OpenSSLConnection} {buf : Bytes} {total remaining : Nat}
    (h : (readLoop size out reads c buf total remaining).rc ≠ .success) :
    (readLoop size out reads c buf total remaining).sizeReadBytesOut = out := by
  induction reads generalizing c buf total remaining with
  | nil => rfl
  | cons read reads ih =>
    rw [readLoop] at h ⊢
    cases hread : sslRead (read (toCInt remaining)) with
    | error rc => rfl
    | ok bytes =>
      simp only [hread] at h ⊢
      split_ifs at h ⊢
      · exact ih h
      · exact absurd rfl h

theorem readInternal_out {c : OpenSSLConnection} {buf : Bytes} {offset size out : Nat}
    (h : (readInternal c buf offset size out).rc ≠ .success) :
    (readInternal c buf offset size out).sizeReadBytesOut = out := by
  rw [readInternal] at h ⊢
  split_ifs at h ⊢
  · exact readLoop_out h
  · rfl

/-- The one read of the loop asks for everything, and settles it. -/
theorem action_readLoop_eq {c : OpenSSLConnection} (hc : c.isConnected = true)
    (threadContinue : Bool) {buf : Bytes} {bytesToRead : Nat} (hbuf : bytesToRead ≤ buf.length)
    (fuel : Nat) :
    Action.readLoop threadContinue bytesToRead (fuel + 1) c buf 0 0 =
      readInternal c buf 0 bytesToRead 0 ∧
      (readInternal c buf 0 bytesToRead 0).sizeReadBytesOut ≤ bytesToRead := by
  have hread : NetworkConnection.read c buf 0 (sizeSub bytesToRead 0) 0 =
      readInternal c buf 0 bytesToRead 0 := by
    rw [NetworkConnection.read, sizeSub, if_pos (Nat.zero_le _), Nat.sub_zero]
    exact if_pos hc
  have hout : (readInternal c buf 0 bytesToRead 0).sizeReadBytesOut =
      if (readInternal c buf 0 bytesToRead 0).rc = .success then bytesToRead else 0 := by
    split_ifs with hrc
    · obtain ⟨w, hw⟩ := readInternal_filled hc (by omega) hrc
      have := hw.counted
      have := hw.bounded
      have := hw.enough
      omega
    · exact readInternal_out hrc
  rw [Action.readLoop, hread]
  generalize readInternal c buf 0 bytesToRead 0 = r at hout ⊢
  obtain ⟨rc, buf', total, after⟩ := r
  obtain rfl : total = if rc = .success then bytesToRead else 0 := hout
  by_cases hrc : rc = .success
  · simp [hrc]
  · simp [hrc]

theorem withinSize_readFromNetworkBuffer {c : OpenSSLConnection} (hc : c.isConnected = true)
    (threadContinue : Bool) (readBuf : Bytes) (bytesToRead : Nat) :
    WithinSize c bytesToRead
      (Action.readFromNetworkBuffer threadContinue c readBuf bytesToRead) := by
  have hbuf : bytesToRead ≤ (resize readBuf bytesToRead).length := by
    rw [resize, List.length_append, List.length_take, List.length_replicate]
    omega
  obtain ⟨hloop, hle⟩ := action_readLoop_eq hc threadContinue hbuf (NetworkConnection.pending c)
  have hrequests := readInternal_requests c (resize readBuf bytesToRead) 0 bytesToRead 0
  have hasked : ∃ requests, (readInternal c (resize readBuf bytesToRead) 0 bytesToRead
      0).connection.requests = c.requests ++ requests ∧
      ∀ request ∈ requests, request.1 + request.2 = bytesToRead :=
    ⟨[(0, bytesToRead)], hrequests, by simp⟩
  rw [Action.readFromNetworkBuffer, hloop]
  split
  · exact ⟨hle, hasked⟩
  · exact ⟨hle, hasked⟩

/-- A read into the middle of a buffer that succeeds has counted the offset as bytes that
were read. The loop around the reads only ever asks at the start, so its total is right. -/
theorem honoursOffset_and_withinSize {c : OpenSSLConnection} (hc : c.isConnected = true) :
    (∀ buf offset size out, offset + size ≤ buf.length →
      (HonoursOffset c buf offset size (readInternal c buf offset size out) ↔
        offset = 0 ∨ ¬Succeeds c offset size)) ∧
      ∀ threadContinue readBuf bytesToRead, WithinSize c bytesToRead
        (Action.readFromNetworkBuffer threadContinue c readBuf bytesToRead) :=
  ⟨fun _ _ _ out hbuf => honoursOffset_iff hc out hbuf,
    fun threadContinue readBuf bytesToRead =>
      withinSize_readFromNetworkBuffer hc threadContinue readBuf bytesToRead⟩

/-- A peer that has one byte for every read that asks for one. -/
def oneByte (num : Int) : SslRead num :=
  if h : 1 ≤ num then .data [0x2a] (by simpa using h) else .error

theorem honoursOffset_and_withinSize_oneByte :
    (HonoursOffset ⟨true, true, [oneByte, oneByte], [], []⟩ [0, 0, 0, 0] 1 2
        (readInternal ⟨true, true, [oneByte, oneByte], [], []⟩ [0, 0, 0, 0] 1 2 0) ↔
      1 = 0 ∨ ¬Succeeds ⟨true, true, [oneByte, oneByte], [], []⟩ 1 2) ∧
      WithinSize ⟨true, true, [oneByte, oneByte], [], []⟩ 2
        (Action.readFromNetworkBuffer true (⟨true, true, [oneByte, oneByte], [], []⟩ :
          OpenSSLConnection) [] 2) := by
  have h := honoursOffset_and_withinSize (c := ⟨true, true, [oneByte, oneByte], [], []⟩) rfl
  exact ⟨h.1 [0, 0, 0, 0] 1 2 0 (by decide), h.2 true [] 2⟩

/-- Two bytes are to be stored behind the first two of the buffer. None is missing then,
and the one that was read is counted as three. -/
theorem not_honoursOffset_two :
    ¬HonoursOffset ⟨true, true, [oneByte, oneByte], [], []⟩ [0, 0, 0, 0] 2 2
      (readInternal ⟨true, true, [oneByte, oneByte], [], []⟩ [0, 0, 0, 0] 2 2 0) := by
  intro h
  exact absurd (h.counted (by decide)) (by decide)

end OpenSSLConnection

end AwsIotSdk
