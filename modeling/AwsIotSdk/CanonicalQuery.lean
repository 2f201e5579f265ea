import AwsIotSdk.HttpHead
import AwsIotSdk.UrlEncoding
import Mathlib.Data.List.Lex

/-! The signed query of a WebSocket request. A server that has the secret of the client signs
the query anew from what it reads, and comes to the signature in it. -/

namespace AwsIotSdk

open Ascii

/-- The hash functions of the TLS library, with the lengths of their digests. -/
structure TlsHashes where
  hmac : (key data : Bytes) → { digest : Bytes // digest.length = 32 }
  sha256 : Bytes → { digest : Bytes // digest.length = 32 }
  sha1 : Bytes → { digest : Bytes // digest.length = 20 }

/-- The members of a connection that its request is made of. -/
structure WebSocketCredentials where
  endpoint : Bytes
  awsRegion : Bytes
  awsAccessKeyId : Bytes
  awsSecretAccessKey : Bytes
  awsSessionToken : Bytes
  customAuthorizerName : Bytes
  customAuthorizerSignature : Bytes
  customAuthorizerTokenName : Bytes
  customAuthorizerToken : Bytes

/-- A broken-down time. The clocks of the devices are past the year 1000. -/
structure UtcTime where
  year : Nat
  month : Fin 12
  day : Fin 32
  hour : Fin 24
  minute : Fin 60
  second : Fin 61
  year_ge : 1000 ≤ year

/-- The results of a handshake. -/
inductive HandshakeCode where
  | code (rc : ResponseCode)
  | websocketGetUtcTimeFailed
  | websocketGenClientKeyError
  | websocketHandshakeVerifyError
  deriving DecidableEq, Repr

namespace UtcTime

def yearDigits (year : Nat) : Bytes := (Nat.toDigits 10 year).map fun c => UInt8.ofNat c.toNat

def twoDigits (n : Nat) : Bytes := [UInt8.ofNat (0x30 + n / 10), UInt8.ofNat (0x30 + n % 10)]

/-- `%Y%m%d` -/
def simpleDate (t : UtcTime) : Bytes :=
  yearDigits t.year ++ twoDigits (t.month + 1) ++ twoDigits t.day

/-- `%Y%m%dT%H%M%SZ` -/
def longDate (t : UtcTime) : Bytes :=
  t.simpleDate ++ text "T" ++ twoDigits t.hour ++ twoDigits t.minute ++ twoDigits t.second ++ text "Z"

end UtcTime

/-- Nothing is put out where there is no room for the text and its end. -/
def strftime (maxsize : Nat) (formatted : Bytes) : Option Bytes :=
  if formatted.length < maxsize then some formatted else none

/-- `%02x` -/
def hexByte (c : UInt8) : Bytes :=
  [lowerDigit (c.toNat / 16), lowerDigit (c.toNat % 16)]
where
  lowerDigit (n : Nat) : UInt8 := UInt8.ofNat (if n < 10 then 0x30 + n else 0x57 + n)

def hexText (bytes : Bytes) : Bytes := bytes.flatMap hexByte

namespace WebSocketCredentials

def iotDataServiceName : Bytes := text "iotdata"
def aws4Request : Bytes := text "aws4_request"
def slashUrlencode : Bytes := text "%2F"
def awsHmacSha256 : Bytes := text "AWS4-HMAC-SHA256"
def xAmzAlgorithm : Bytes := text "X-Amz-Algorithm"
def xAmzCredential : Bytes := text "X-Amz-Credential"
def xAmzDate : Bytes := text "X-Amz-Date"
def xAmzExpires : Bytes := text "X-Amz-Expires"
def xAmzSignedHeaders : Bytes := text "X-Amz-SignedHeaders"
def xAmzSignature : Bytes := text "X-Amz-Signature"
def xAmzSecurityToken : Bytes := text "X-Amz-Security-Token"
def signingKey : Bytes := text "AWS4"
def canonicalUri : Bytes := text "/mqtt"
def emptyBodySha256 : Bytes :=
  text "e3b0c44298fc1c149afbf4c8996fb92427ae41e4649b934ca495991b7852b855"
def maxLenForUtctime : Nat := 16

def ampersand : UInt8 := 0x26
def equalsSign : UInt8 := 0x3d

/-- The scope as it is signed, and as it stands in the query. -/
def initializeCredentialScope (s : WebSocketCredentials) (dateStamp : Bytes) : Bytes × Bytes :=
  (dateStamp ++ text "/" ++ s.awsRegion ++ text "/" ++ iotDataServiceName ++ text "/" ++ aws4Request,
    dateStamp ++ slashUrlencode ++ s.awsRegion ++ slashUrlencode ++ iotDataServiceName ++
      slashUrlencode ++ aws4Request)

def initializeSigningKey (hashes : TlsHashes) (s : WebSocketCredentials) (dateStamp : Bytes) : Bytes :=
  let initialSecret := signingKey ++ s.awsSecretAccessKey
  let signingDate := hashes.hmac initialSecret dateStamp
  let signingRegion := hashes.hmac signingDate s.awsRegion
  let signingService := hashes.hmac signingRegion iotDataServiceName
  hashes.hmac signingService aws4Request

def initializeSignedString (hashes : TlsHashes) (s : WebSocketCredentials)
    (amzDate dateStamp credentialScope canonicalRequest : Bytes) : Bytes :=
  let hashedCanonicalRequest := hashes.sha256 canonicalRequest
  let stringToSign := awsHmacSha256 ++ text "\n" ++ amzDate ++ text "\n" ++ credentialScope ++
    text "\n" ++ hexText hashedCanonicalRequest
  hashes.hmac (s.initializeSigningKey hashes dateStamp) stringToSign

/-- The query up to the signature. -/
def unsignedQuery (s : WebSocketCredentials) (amzDate dateStamp : Bytes) : Bytes :=
  xAmzAlgorithm ++ [equalsSign] ++ awsHmacSha256 ++
    [ampersand] ++ xAmzCredential ++ [equalsSign] ++ s.awsAccessKeyId ++ slashUrlencode ++
      (s.initializeCredentialScope dateStamp).2 ++
    [ampersand] ++ xAmzDate ++ [equalsSign] ++ amzDate ++
    [ampersand] ++ xAmzExpires ++ [equalsSign] ++ text "86400" ++
    [ampersand] ++ xAmzSignedHeaders ++ [equalsSign] ++ text "host"

def canonicalRequest (s : WebSocketCredentials) (canonicalQueryString : Bytes) : Bytes :=
  text "GET" ++ text "\n" ++ canonicalUri ++ text "\n" ++ canonicalQueryString ++ text "\n" ++
    (text "host:" ++ s.endpoint) ++ text "\n\nhost\n" ++ emptyBodySha256

/-- `none` for the time is where there is no broken-down time. -/
def initializeCanonicalQueryString (hashes : TlsHashes) (s : WebSocketCredentials)
    (currUtcTime : Option UtcTime) : Except HandshakeCode Bytes :=
  match currUtcTime with
  | none => .error .websocketGetUtcTimeFailed
  | some currUtcTime =>
    match strftime (maxLenForUtctime + 1) currUtcTime.longDate,
      strftime (maxLenForUtctime + 1) currUtcTime.simpleDate with
    | some amzDate, some dateStamp =>
      let canonicalQueryString := s.unsignedQuery amzDate dateStamp
      let signedStr := s.initializeSignedString hashes amzDate dateStamp
        (s.initializeCredentialScope dateStamp).1 (s.canonicalRequest canonicalQueryString)
      let canonicalQueryString :=
        canonicalQueryString ++ [ampersand] ++ xAmzSignature ++ [equalsSign] ++ hexText signedStr
      .ok (if 0 < s.awsSessionToken.length then
        canonicalQueryString ++ [ampersand] ++ xAmzSecurityToken ++ [equalsSign] ++
          WebSocketConnection.urlEncode s.awsSessionToken WebSocketConnection.notEncodedChars
      else canonicalQueryString)
    | _, _ => .error .websocketGetUtcTimeFailed

end WebSocketCredentials

/-! ### What a server makes of a query -/

namespace SignedQuery

open WebSocketCredentials WebSocketConnection

def slash : UInt8 := 0x2f

/-- The characters that stand for themselves in a query. -/
def isUnreserved (c : UInt8) : Bool := isAlnum c || c = 0x2d || c = 0x2e || c = 0x5f || c = 0x7e

def uriEncode (bytes : Bytes) : Bytes :=
  bytes.flatMap fun c =>
    if isUnreserved c then [c] else [percent, hexDigit (c.toNat / 16), hexDigit (c.toNat % 16)]

def decodeEntry (entry : Bytes × Bytes) : Option (Bytes × Bytes) := do
  let name ← percentDecode entry.1
  let value ← percentDecode entry.2
  some (name, value)

/-- The query that is signed: the entries in the order of their names, encoded anew. -/
def canonicalQuery (params : List (Bytes × Bytes)) : Bytes :=
  KeyValueText.serialize ampersand equalsSign
    (((params.filter fun p => p.1 ≠ xAmzSignature ∧ p.1 ≠ xAmzSecurityToken).mergeSort
      fun p q => decide (p.1 ≤ q.1)).map fun p => (uriEncode p.1, uriEncode p.2))

def stringToSign (hashes : TlsHashes) (host path amzDate scope : Bytes)
    (params : List (Bytes × Bytes)) : Bytes :=
  text "AWS4-HMAC-SHA256\n" ++ amzDate ++ text "\n" ++ scope ++ text "\n" ++
    hexText (hashes.sha256 (text "GET\n" ++ path ++ text "\n" ++ canonicalQuery params ++
      text "\nhost:" ++ host ++ text "\n\nhost\n" ++ emptyBodySha256))

/-- Who has signed a query. -/
structure Signer where
  accessKeyId : Bytes
  region : Bytes
  securityToken : Option Bytes
  deriving DecidableEq

/-- The secret is looked up for an access key and the token that comes with it. -/
def authenticate (hashes : TlsHashes) (secretOf : Bytes → Option Bytes → Option Bytes)
    (host path query : Bytes) : Option Signer := do
  let params ← (KeyValueText.parse ampersand equalsSign query).mapM decodeEntry
  let algorithm ← params.lookup xAmzAlgorithm
  let credential ← params.lookup xAmzCredential
  let amzDate ← params.lookup xAmzDate
  let signedHeaders ← params.lookup xAmzSignedHeaders
  let signature ← params.lookup xAmzSignature
  let securityToken := params.lookup xAmzSecurityToken
  match credential.splitOn slash with
  | [accessKeyId, date, region, service, terminator] => do
    let secret ← secretOf accessKeyId securityToken
    let scope := [slash].intercalate [date, region, service, terminator]
    let key := hashes.hmac (hashes.hmac (hashes.hmac (hashes.hmac (text "AWS4" ++ secret) date)
      region) service) terminator
    if algorithm = text "AWS4-HMAC-SHA256" ∧ signedHeaders = text "host" ∧
        service = text "iotdata" ∧ terminator = text "aws4_request" ∧ amzDate.take 8 = date ∧
        signature = hexText (hashes.hmac key (stringToSign hashes host path amzDate scope params)) then
      some ⟨accessKeyId, region, securityToken⟩
    else none
  | _ => none

/-! ### Texts that are not encoded -/

def Unreserved (name : Bytes) : Prop := ∀ c ∈ name, isUnreserved c = true

theorem not_mem_of_unreserved {c : UInt8} {name : Bytes} (hc : isUnreserved c = false)
    (h : Unreserved name) : c ∉ name := by
  intro hmem
  rw [h c hmem] at hc
  cases hc

theorem Unreserved.append {name name' : Bytes} (h : Unreserved name) (h' : Unreserved name') :
    Unreserved (name ++ name') := by
  intro c hc
  rcases List.mem_append.mp hc with hc | hc
  · exact h c hc
  · exact h' c hc

theorem uriEncode_append (bytes bytes' : Bytes) :
    uriEncode (bytes ++ bytes') = uriEncode bytes ++ uriEncode bytes' :=
  List.flatMap_append

theorem uriEncode_of_unreserved {name : Bytes} (h : Unreserved name) : uriEncode name = name := by
  have hsame : uriEncode name = name.flatMap fun c => [c] :=
    List.flatMap_congr fun c hc => if_pos (h c hc)
  rw [hsame, List.flatMap_singleton']

theorem percentDecode_cons_of_ne {c : UInt8} (hc : c ≠ percent) (rest : Bytes) :
    percentDecode (c :: rest) = (percentDecode rest).map (c :: ·) := by
  rw [percentDecode.eq_def]
  exact if_neg hc

theorem percentDecode_append_of_not_mem {bytes : Bytes} (h : percent ∉ bytes) (rest : Bytes) :
    percentDecode (bytes ++ rest) = (percentDecode rest).map (bytes ++ ·) := by
  induction bytes with
  | nil => simp
  | cons c bytes ih =>
    have hc : c ≠ percent := fun heq => h (heq ▸ List.mem_cons_self)
    have hrest : percent ∉ bytes := fun hmem => h (List.mem_cons_of_mem c hmem)
    rw [List.cons_append, percentDecode_cons_of_ne hc, ih hrest]
    simp [Function.comp_def]

theorem percentDecode_of_unreserved {name : Bytes} (h : Unreserved name) :
    percentDecode name = some name := by
  have hplain := percentDecode_append_of_not_mem (not_mem_of_unreserved (by decide) h) []
  rwa [List.append_nil, percentDecode, Option.map_some, List.append_nil] at hplain

theorem decodeEntry_of_unreserved {name : Bytes} (hname : Unreserved name) {raw value : Bytes}
    (h : percentDecode raw = some value) : decodeEntry (name, raw) = some (name, value) := by
  simp [decodeEntry, percentDecode_of_unreserved hname, h]

/-- Parts with a slash between them are put in the query with the escape of one. -/
def slashed (parts : List Bytes) : Bytes := slashUrlencode.intercalate parts

theorem percentDecode_slashed {parts : List Bytes} (h : ∀ name ∈ parts, Unreserved name) :
    percentDecode (slashed parts) = some ([slash].intercalate parts) := by
  induction parts with
  | nil => rfl
  | cons name parts ih =>
    obtain ⟨hname, hparts⟩ := List.forall_mem_cons.mp h
    cases parts with
    | nil => simpa [slashed] using percentDecode_of_unreserved hname
    | cons next parts =>
      have hslash : ∀ rest, percentDecode (slashUrlencode ++ rest) = (percentDecode rest).map (slash :: ·) := by
        intro rest
        cases hrest : percentDecode rest with
        | none => simp [show slashUrlencode = [percent, 0x32, 0x46] from rfl, percentDecode, hrest]
        | some decoded =>
          simp [show slashUrlencode = [percent, 0x32, 0x46] from rfl, percentDecode, hrest,
            show hexValue 0x32 = some 2 from rfl, show hexValue 0x46 = some 15 from rfl, slash]
      have ih := ih hparts
      rw [slashed] at ih ⊢
      rw [List.intercalate_cons_cons, List.intercalate_cons_cons, List.append_assoc,
        percentDecode_append_of_not_mem (not_mem_of_unreserved (by decide) hname), hslash, ih]
      simp

theorem uriEncode_slashed {parts : List Bytes} (h : ∀ name ∈ parts, Unreserved name) :
    uriEncode ([slash].intercalate parts) = slashed parts := by
  induction parts with
  | nil => rfl
  | cons name parts ih =>
    obtain ⟨hname, hparts⟩ := List.forall_mem_cons.mp h
    cases parts with
    | nil => simpa [slashed] using uriEncode_of_unreserved hname
    | cons next parts =>
      have ih := ih hparts
      rw [slashed] at ih ⊢
      rw [List.intercalate_cons_cons, List.intercalate_cons_cons, uriEncode_append, uriEncode_append,
        uriEncode_of_unreserved hname, ih]
      rfl

theorem not_mem_slashed {c : UInt8} (hc : isUnreserved c = false) (hslash : c ∉ slashUrlencode)
    {parts : List Bytes} (h : ∀ name ∈ parts, Unreserved name) : c ∉ slashed parts := by
  rw [slashed]
  induction parts with
  | nil => exact List.not_mem_nil
  | cons name parts ih =>
    obtain ⟨hname, hparts⟩ := List.forall_mem_cons.mp h
    cases parts with
    | nil => simpa using not_mem_of_unreserved hc hname
    | cons next parts =>
      rw [List.intercalate_cons_cons, List.mem_append, List.mem_append]
      rintro ((hmem | hmem) | hmem)
      · exact not_mem_of_unreserved hc hname hmem
      · exact hslash hmem
      · exact ih hparts hmem

/-! ### Dates and digests -/

theorem unreserved_hexText (bytes : Bytes) : Unreserved (hexText bytes) := by
  have hbyte : ∀ c : UInt8, (hexByte c).all isUnreserved = true := by
    intro c
    apply byte_cases (P := fun c => (hexByte c).all isUnreserved = true)
    decide +kernel
  intro d hd
  obtain ⟨c, -, hd⟩ := List.mem_flatMap.mp hd
  exact List.all_eq_true.mp (hbyte c) d hd

theorem unreserved_yearDigits (year : Nat) : Unreserved (UtcTime.yearDigits year) := by
  have hdigit : ∀ n, n < 58 → 48 ≤ n → isUnreserved (UInt8.ofNat n) = true := by decide
  intro d hd
  obtain ⟨c, hc, rfl⟩ := List.mem_map.mp hd
  have hrange := Nat.isDigit_of_mem_toDigits (b := 10) (by decide) (by decide) hc
  rw [Char.isDigit_iff_toNat] at hrange
  exact hdigit c.toNat (Nat.lt_succ_of_le hrange.2) hrange.1

theorem unreserved_twoDigits {n : Nat} (h : n < 100) : Unreserved (UtcTime.twoDigits n) := by
  have hall : (List.range 100).all fun n => (UtcTime.twoDigits n).all isUnreserved := by decide
  exact List.all_eq_true.mp (List.all_eq_true.mp hall n (List.mem_range.mpr h))

variable (t : UtcTime)

theorem unreserved_simpleDate : Unreserved t.simpleDate := by
  have hmonth : t.month.val + 1 < 100 := by omega
  have hday : t.day.val < 100 := by omega
  exact ((unreserved_yearDigits t.year).append (unreserved_twoDigits hmonth)).append
    (unreserved_twoDigits hday)

theorem unreserved_longDate : Unreserved t.longDate := by
  have hhour : t.hour.val < 100 := by omega
  have hminute : t.minute.val < 100 := by omega
  have hsecond : t.second.val < 100 := by omega
  have hsign : Unreserved (text "T") ∧ Unreserved (text "Z") :=
    ⟨List.all_eq_true.mp (by decide), List.all_eq_true.mp (by decide)⟩
  exact (((((unreserved_simpleDate t).append hsign.1).append (unreserved_twoDigits hhour)).append
    (unreserved_twoDigits hminute)).append (unreserved_twoDigits hsecond)).append hsign.2

/-- A long date that there is room for begins with the date of the scope. -/
theorem take_longDate (h : t.longDate.length < maxLenForUtctime + 1) :
    t.longDate.take 8 = t.simpleDate := by
  have hyear : 4 ≤ (UtcTime.yearDigits t.year).length := by
    by_contra hshort
    have hlen : (Nat.toDigits 10 t.year).length ≤ 3 := by
      rw [UtcTime.yearDigits, List.length_map] at hshort
      omega
    have hlt := (Nat.length_toDigits_le_iff (b := 10) (by decide) (by decide)).mp hlen
    have hge := t.year_ge
    omega
  have hsimple : t.simpleDate.length = (UtcTime.yearDigits t.year).length + 4 := by
    simp [UtcTime.simpleDate, UtcTime.twoDigits]
  have hlong : t.longDate.length = t.simpleDate.length + 8 := by
    simp [UtcTime.longDate, UtcTime.twoDigits, text]
  have hmax : maxLenForUtctime = 16 := rfl
  have hprefix : t.simpleDate <+: t.longDate := by
    rw [UtcTime.longDate, List.append_assoc, List.append_assoc, List.append_assoc, List.append_assoc]
    exact List.prefix_append _ _
  have height : t.simpleDate.length = 8 := by omega
  rw [← height]
  exact (List.prefix_iff_eq_take.mp hprefix).symm

/-! ### The query of a client -/

/-- A client whose names stand in the query as they are, and whose token can be had back from it. -/
structure Presentable (s : WebSocketCredentials) : Prop where
  accessKeyId : Unreserved s.awsAccessKeyId
  region : Unreserved s.awsRegion
  securityToken : ∀ c ∈ s.awsSessionToken, 0x10 ≤ c

def credentialParts (s : WebSocketCredentials) (dateStamp : Bytes) : List Bytes :=
  [s.awsAccessKeyId, dateStamp, s.awsRegion, iotDataServiceName, aws4Request]

/-- The entries that are signed, with the given way to write the credential. -/
def signedEntries (credential amzDate : Bytes) : List (Bytes × Bytes) :=
  [(xAmzAlgorithm, awsHmacSha256), (xAmzCredential, credential), (xAmzDate, amzDate),
    (xAmzExpires, text "86400"), (xAmzSignedHeaders, text "host")]

/-- The entries behind them. -/
def addedEntries (signature : Bytes) (securityToken : Option Bytes) : List (Bytes × Bytes) :=
  (xAmzSignature, signature) :: (securityToken.map fun token => (xAmzSecurityToken, token)).toList

def securityToken (s : WebSocketCredentials) : Option Bytes :=
  if s.awsSessionToken = [] then none else some s.awsSessionToken

variable {s : WebSocketCredentials} {amzDate dateStamp : Bytes}

theorem unsignedQuery_eq : s.unsignedQuery amzDate dateStamp =
    KeyValueText.serialize ampersand equalsSign
      (signedEntries (slashed (credentialParts s dateStamp)) amzDate) := by
  unfold unsignedQuery initializeCredentialScope KeyValueText.serialize signedEntries slashed
    credentialParts
  -- what the fixed texts are does not matter, and to compute them here takes long
  generalize xAmzAlgorithm = algorithmName, xAmzCredential = credentialName, xAmzDate = dateName,
    xAmzExpires = expiresName, xAmzSignedHeaders = headersName, awsHmacSha256 = algorithm,
    text "86400" = expires, text "host" = headers, slashUrlencode = escape
  simp only [KeyValueText.join, List.map_cons, List.map_nil, List.intercalate_cons_cons,
    List.intercalate_singleton, List.append_assoc, List.cons_append, List.nil_append]

theorem unreserved_names : Unreserved xAmzAlgorithm ∧ Unreserved xAmzCredential ∧
    Unreserved xAmzDate ∧ Unreserved xAmzExpires ∧ Unreserved xAmzSignedHeaders ∧
    Unreserved xAmzSignature ∧ Unreserved xAmzSecurityToken := by
  refine ⟨?_, ?_, ?_, ?_, ?_, ?_, ?_⟩ <;> exact List.all_eq_true.mp (by decide)

theorem unreserved_values : Unreserved awsHmacSha256 ∧ Unreserved (text "86400") ∧
    Unreserved (text "host") ∧ Unreserved iotDataServiceName ∧ Unreserved aws4Request := by
  refine ⟨?_, ?_, ?_, ?_, ?_⟩ <;> exact List.all_eq_true.mp (by decide)

theorem unreserved_credentialParts (hs : Presentable s) (hstamp : Unreserved dateStamp) :
    ∀ name ∈ credentialParts s dateStamp, Unreserved name := by
  obtain ⟨-, -, -, hservice, hrequest⟩ := unreserved_values
  simp only [credentialParts, List.forall_mem_cons]
  exact ⟨hs.accessKeyId, hstamp, hs.region, hservice, hrequest, by simp⟩

/-- The query that is signed anew is the one that was signed. -/
theorem canonicalQuery_entries (hs : Presentable s) (hamz : Unreserved amzDate)
    (hstamp : Unreserved dateStamp) (signature : Bytes) (token : Option Bytes) :
    canonicalQuery (signedEntries ([slash].intercalate (credentialParts s dateStamp)) amzDate ++
      addedEntries signature token) = s.unsignedQuery amzDate dateStamp := by
  have hfilter : (signedEntries ([slash].intercalate (credentialParts s dateStamp)) amzDate ++
      addedEntries signature token).filter
        (fun p => p.1 ≠ xAmzSignature ∧ p.1 ≠ xAmzSecurityToken) =
      signedEntries ([slash].intercalate (credentialParts s dateStamp)) amzDate := by
    cases token <;> rfl
  have hsorted : (signedEntries ([slash].intercalate (credentialParts s dateStamp)) amzDate).Pairwise
      fun p q => decide (p.1 ≤ q.1) = true := by
    rw [← List.pairwise_map (f := Prod.fst) (R := fun name name' => decide (name ≤ name') = true)]
    show [xAmzAlgorithm, xAmzCredential, xAmzDate, xAmzExpires, xAmzSignedHeaders].Pairwise _
    decide
  have hcredential := uriEncode_slashed (unreserved_credentialParts hs hstamp)
  obtain ⟨h₁, h₂, h₃, h₄, h₅, -⟩ := unreserved_names
  obtain ⟨hhmac, hexpires, hhost, -⟩ := unreserved_values
  rw [canonicalQuery, hfilter, List.mergeSort_of_pairwise hsorted, unsignedQuery_eq]
  simp only [signedEntries, List.map_cons, List.map_nil, uriEncode_of_unreserved, hcredential, h₁, h₂,
    h₃, h₄, h₅, hhmac, hexpires, hhost, hamz]

/-- An encoded text has none of the signs that end it in a query or a request line. -/
theorem not_mem_urlEncode {bytes : Bytes} (h : ∀ c ∈ bytes, 0x10 ≤ c) :
    ∀ d ∈ urlEncode bytes notEncodedChars, d ≠ ampersand ∧ d ≠ HttpHead.space ∧ d ≠ HttpHead.lf := by
  have hbyte : ∀ c : UInt8, 0x10 ≤ c → ((encodeByte c).all fun d =>
      decide (d ≠ ampersand ∧ d ≠ HttpHead.space ∧ d ≠ HttpHead.lf)) = true := by
    intro c
    apply byte_cases (P := fun c => 0x10 ≤ c → ((encodeByte c).all fun d =>
      decide (d ≠ ampersand ∧ d ≠ HttpHead.space ∧ d ≠ HttpHead.lf)) = true)
    decide +kernel
  rw [urlEncode_eq]
  intro d hd
  obtain ⟨c, hc, hd⟩ := List.mem_flatMap.mp hd
  exact of_decide_eq_true (List.all_eq_true.mp (hbyte c (h c hc)) d hd)

/-- The entries as they stand in the query. -/
def rawEntries (s : WebSocketCredentials) (amzDate dateStamp signature : Bytes) : List (Bytes × Bytes) :=
  signedEntries (slashed (credentialParts s dateStamp)) amzDate ++
    addedEntries signature ((securityToken s).map fun token => urlEncode token notEncodedChars)

/-- A sign that ends a value in a query or a request line. -/
def EndsValue (c : UInt8) : Prop := c = ampersand ∨ c = HttpHead.space ∨ c = HttpHead.lf

theorem EndsValue.isUnreserved {c : UInt8} (h : EndsValue c) : isUnreserved c = false := by
  rcases h with rfl | rfl | rfl <;> decide

theorem rawEntries_plain (hs : Presentable s) (hamz : Unreserved amzDate)
    (hstamp : Unreserved dateStamp) {signature : Bytes} (hsignature : Unreserved signature) :
    ∀ entry ∈ rawEntries s amzDate dateStamp signature,
      Unreserved entry.1 ∧ ∀ c, EndsValue c → c ∉ entry.2 := by
  have hplain {value : Bytes} (h : Unreserved value) : ∀ c, EndsValue c → c ∉ value :=
    fun c hc => not_mem_of_unreserved hc.isUnreserved h
  have hcredential : ∀ c, EndsValue c → c ∉ slashed (credentialParts s dateStamp) := by
    intro c hc
    refine not_mem_slashed hc.isUnreserved ?_ (unreserved_credentialParts hs hstamp)
    rcases hc with rfl | rfl | rfl <;> decide
  have htoken : ∀ c, EndsValue c → c ∉ urlEncode s.awsSessionToken notEncodedChars := by
    intro c hc hmem
    obtain ⟨hamp, hspace, hlf⟩ := not_mem_urlEncode hs.securityToken c hmem
    rcases hc with rfl | rfl | rfl
    · exact hamp rfl
    · exact hspace rfl
    · exact hlf rfl
  obtain ⟨h₁, h₂, h₃, h₄, h₅, h₆, h₇⟩ := unreserved_names
  obtain ⟨hhmac, hexpires, hhost, -⟩ := unreserved_values
  intro entry hentry
  simp only [rawEntries, signedEntries, addedEntries, securityToken, List.cons_append, List.nil_append,
    List.mem_cons, Option.mem_toList, Option.map_map, Option.map_eq_some_iff] at hentry
  rcases hentry with rfl | rfl | rfl | rfl | rfl | rfl | ⟨token, hsome, rfl⟩
  · exact ⟨h₁, hplain hhmac⟩
  · exact ⟨h₂, hcredential⟩
  · exact ⟨h₃, hplain hamz⟩
  · exact ⟨h₄, hplain hexpires⟩
  · exact ⟨h₅, hplain hhost⟩
  · exact ⟨h₆, hplain hsignature⟩
  · split_ifs at hsome
    cases hsome
    exact ⟨h₇, htoken⟩

theorem separable_rawEntries (hs : Presentable s) (hamz : Unreserved amzDate)
    (hstamp : Unreserved dateStamp) {signature : Bytes} (hsignature : Unreserved signature) :
    ∀ entry ∈ rawEntries s amzDate dateStamp signature,
      KeyValueText.Separable ampersand equalsSign entry := by
  intro entry hentry
  obtain ⟨hname, hvalue⟩ := rawEntries_plain hs hamz hstamp hsignature entry hentry
  exact ⟨⟨not_mem_of_unreserved (by decide) hname, not_mem_of_unreserved (by decide) hname⟩,
    hvalue _ (.inl rfl)⟩

theorem mapM_decodeEntry (hs : Presentable s) (hamz : Unreserved amzDate)
    (hstamp : Unreserved dateStamp) {signature : Bytes} (hsignature : Unreserved signature) :
    (rawEntries s amzDate dateStamp signature).mapM decodeEntry =
      some (signedEntries ([slash].intercalate (credentialParts s dateStamp)) amzDate ++
        addedEntries signature (securityToken s)) := by
  have hcredential := percentDecode_slashed (unreserved_credentialParts hs hstamp)
  obtain ⟨h₁, h₂, h₃, h₄, h₅, h₆, h₇⟩ := unreserved_names
  obtain ⟨hhmac, hexpires, hhost, -⟩ := unreserved_values
  have hplain {name value : Bytes} (hname : Unreserved name) (hvalue : Unreserved value) :
      decodeEntry (name, value) = some (name, value) :=
    decodeEntry_of_unreserved hname (percentDecode_of_unreserved hvalue)
  have hsigned : (signedEntries (slashed (credentialParts s dateStamp)) amzDate).mapM decodeEntry =
      some (signedEntries ([slash].intercalate (credentialParts s dateStamp)) amzDate) := by
    simp [signedEntries, List.mapM_cons, hplain h₁ hhmac, decodeEntry_of_unreserved h₂ hcredential,
      hplain h₃ hamz, hplain h₄ hexpires, hplain h₅ hhost]
  have hadded : (addedEntries signature ((securityToken s).map fun token =>
      urlEncode token notEncodedChars)).mapM decodeEntry =
        some (addedEntries signature (securityToken s)) := by
    have htoken := decodeEntry_of_unreserved h₇ (percentDecode_urlEncode hs.securityToken)
    rw [securityToken]
    split_ifs
    · simp [addedEntries, List.mapM_cons, hplain h₆ hsignature]
    · simp [addedEntries, List.mapM_cons, hplain h₆ hsignature, htoken]
  rw [rawEntries, List.mapM_append, hsigned, hadded]
  rfl

theorem serialize_rawEntries (s : WebSocketCredentials) (amzDate dateStamp signature : Bytes) :
    KeyValueText.serialize ampersand equalsSign (rawEntries s amzDate dateStamp signature) =
      s.unsignedQuery amzDate dateStamp ++ [ampersand] ++ xAmzSignature ++ [equalsSign] ++ signature ++
        if 0 < s.awsSessionToken.length then
          [ampersand] ++ xAmzSecurityToken ++ [equalsSign] ++ urlEncode s.awsSessionToken notEncodedChars
        else [] := by
  have hsigned : signedEntries (slashed (credentialParts s dateStamp)) amzDate ≠ [] :=
    List.cons_ne_nil _ _
  have hadded : addedEntries signature ((securityToken s).map fun token =>
      urlEncode token notEncodedChars) ≠ [] := List.cons_ne_nil _ _
  rw [rawEntries, KeyValueText.serialize_append hsigned hadded, ← unsignedQuery_eq, securityToken]
  by_cases htoken : s.awsSessionToken = []
  · simp [htoken, addedEntries, KeyValueText.serialize, KeyValueText.join]
  · simp [htoken, List.length_pos_iff, addedEntries, KeyValueText.serialize, KeyValueText.join]

theorem initializeCanonicalQueryString_eq {hashes : TlsHashes} {currUtcTime : Option UtcTime}
    {query : Bytes} (h : s.initializeCanonicalQueryString hashes currUtcTime = .ok query) :
    ∃ t : UtcTime, t.longDate.length < maxLenForUtctime + 1 ∧
      query = KeyValueText.serialize ampersand equalsSign (rawEntries s t.longDate t.simpleDate
        (hexText (s.initializeSignedString hashes t.longDate t.simpleDate
          (s.initializeCredentialScope t.simpleDate).1
          (s.canonicalRequest (s.unsignedQuery t.longDate t.simpleDate))))) := by
  cases currUtcTime with
  | none => cases h
  | some t =>
    rw [initializeCanonicalQueryString] at h
    simp only [strftime] at h
    split at h
    · rename_i amzDate dateStamp hamz hstamp
      split_ifs at hamz with hlong
      split_ifs at hstamp
      cases hamz
      cases hstamp
      refine ⟨t, hlong, ?_⟩
      rw [serialize_rawEntries, ← Except.ok.inj h]
      split_ifs <;> simp
    · cases h

/-- What the server signs is what the client has signed. -/
theorem signature_eq (hashes : TlsHashes) {params : List (Bytes × Bytes)}
    (h : canonicalQuery params = s.unsignedQuery amzDate dateStamp) :
    s.initializeSignedString hashes amzDate dateStamp (s.initializeCredentialScope dateStamp).1
        (s.canonicalRequest (s.unsignedQuery amzDate dateStamp)) =
      (hashes.hmac (s.initializeSigningKey hashes dateStamp) (stringToSign hashes s.endpoint canonicalUri
        amzDate ([slash].intercalate [dateStamp, s.awsRegion, iotDataServiceName, aws4Request]) params)).1 := by
  have halgorithm : text "AWS4-HMAC-SHA256\n" = awsHmacSha256 ++ text "\n" := rfl
  have hget : text "GET\n" = text "GET" ++ text "\n" := rfl
  have hhost : text "\nhost:" = text "\n" ++ text "host:" := rfl
  have hscope : (s.initializeCredentialScope dateStamp).1 =
      [slash].intercalate [dateStamp, s.awsRegion, iotDataServiceName, aws4Request] := by
    rw [initializeCredentialScope, show text "/" = [slash] from rfl]
    simp only [List.intercalate_cons_cons, List.intercalate_singleton, List.append_assoc]
  rw [initializeSignedString, hscope, stringToSign, h, halgorithm, hget, hhost, canonicalRequest]
  simp only [List.append_assoc]

theorem rawEntries_ne_nil (s : WebSocketCredentials) (amzDate dateStamp signature : Bytes) :
    rawEntries s amzDate dateStamp signature ≠ [] := List.cons_ne_nil _ _

theorem lookup_securityToken (credential amzDate signature : Bytes) (token : Option Bytes) :
    (signedEntries credential amzDate ++ addedEntries signature token).lookup xAmzSecurityToken =
      token := by
  cases token <;> rfl

/-- The query stands between two blanks of the request line. -/
theorem query_plain {hashes : TlsHashes} (hs : Presentable s) {currUtcTime : Option UtcTime}
    {query : Bytes} (h : s.initializeCanonicalQueryString hashes currUtcTime = .ok query) :
    HttpHead.space ∉ query ∧ HttpHead.lf ∉ query := by
  obtain ⟨t, -, rfl⟩ := initializeCanonicalQueryString_eq h
  have hplain := rawEntries_plain hs (unreserved_longDate t) (unreserved_simpleDate t)
    (unreserved_hexText (s.initializeSignedString hashes t.longDate t.simpleDate
      (s.initializeCredentialScope t.simpleDate).1
      (s.canonicalRequest (s.unsignedQuery t.longDate t.simpleDate))))
  have hends {c : UInt8} (hc : EndsValue c) (hsigns : c ≠ ampersand ∧ c ≠ equalsSign) :=
    KeyValueText.not_mem_serialize hsigns fun entry hentry =>
      ⟨not_mem_of_unreserved hc.isUnreserved (hplain entry hentry).1, (hplain entry hentry).2 c hc⟩
  exact ⟨hends (.inr (.inl rfl)) (by decide), hends (.inr (.inr rfl)) (by decide)⟩

/-- A server takes the signature of a client whose secret it knows, and reads from the query whose
it is. -/
theorem authenticate_canonicalQueryString {hashes : TlsHashes} (hs : Presentable s)
    {currUtcTime : Option UtcTime} {query : Bytes}
    (h : s.initializeCanonicalQueryString hashes currUtcTime = .ok query)
    {secretOf : Bytes → Option Bytes → Option Bytes}
    (hsecret : secretOf s.awsAccessKeyId (securityToken s) = some s.awsSecretAccessKey) :
    authenticate hashes secretOf s.endpoint canonicalUri query =
      some ⟨s.awsAccessKeyId, s.awsRegion, securityToken s⟩ := by
  obtain ⟨t, hlong, rfl⟩ := initializeCanonicalQueryString_eq h
  have hamz := unreserved_longDate t
  have hstamp := unreserved_simpleDate t
  generalize hsig : hexText (s.initializeSignedString hashes t.longDate t.simpleDate
    (s.initializeCredentialScope t.simpleDate).1
    (s.canonicalRequest (s.unsignedQuery t.longDate t.simpleDate))) = signature
  have hsignature : Unreserved signature := hsig ▸ unreserved_hexText _
  have hparse := KeyValueText.parse_serialize (by decide) (rawEntries_ne_nil s _ _ _)
    (separable_rawEntries hs hamz hstamp hsignature)
  have hsplit : ([slash].intercalate (credentialParts s t.simpleDate)).splitOn slash =
      [s.awsAccessKeyId, t.simpleDate, s.awsRegion, iotDataServiceName, aws4Request] := by
    refine List.splitOn_intercalate slash (fun name hname => ?_) (List.cons_ne_nil _ _)
    exact not_mem_of_unreserved (by decide) (unreserved_credentialParts hs hstamp name hname)
  have hcanonical := canonicalQuery_entries hs hamz hstamp signature (securityToken s)
  have hsigned := signature_eq hashes hcanonical
  have htoken := lookup_securityToken ([slash].intercalate (credentialParts s t.simpleDate)) t.longDate
    signature (securityToken s)
  rw [authenticate, hparse, mapM_decodeEntry hs hamz hstamp hsignature]
  generalize hparams : signedEntries ([slash].intercalate (credentialParts s t.simpleDate)) t.longDate ++
    addedEntries signature (securityToken s) = params at hsigned htoken
  have hlookup : params.lookup xAmzAlgorithm = some awsHmacSha256 ∧
      params.lookup xAmzCredential = some ([slash].intercalate (credentialParts s t.simpleDate)) ∧
      params.lookup xAmzDate = some t.longDate ∧ params.lookup xAmzSignedHeaders = some (text "host") ∧
      params.lookup xAmzSignature = some signature := by
    rw [← hparams]
    exact ⟨rfl, rfl, rfl, rfl, rfl⟩
  obtain ⟨halgorithm, hcredential, hdate, hheaders, hsignature'⟩ := hlookup
  simp only [Option.bind_eq_bind, Option.bind_some, halgorithm, hcredential, hdate, hheaders, hsignature',
    htoken, hsplit, hsecret]
  refine if_pos ⟨rfl, trivial, rfl, rfl, take_longDate t hlong, ?_⟩
  rw [← hsig, hsigned]
  rfl

end SignedQuery

end AwsIotSdk
