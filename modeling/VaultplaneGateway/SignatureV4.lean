import VaultplaneGateway.WireFormats
import Mathlib.Data.List.Sort

/-!
# Request signatures

The signer of the Bedrock connector: percent-encoding of a path segment, dates, the
canonical request and the authorization header. The keyed hash of another crate is given
beside the plain one.

The canonical request that the signature scheme prescribes for a request is stated apart
from it, from the request as it is sent: the path with every segment encoded once more,
the query, and those headers that are to be signed, sorted by name.
-/
namespace VaultplaneGateway.SignatureV4
open WireFormats

/-- The bytes that stand for themselves in a path. -/
def unreserved (b : UInt8) : Bool :=
  (65 ≤ b && b ≤ 90) || (97 ≤ b && b ≤ 122) || (48 ≤ b && b ≤ 57) ||
    b == 45 || b == 95 || b == 46 || b == 126

/-- One of the sixteen digits of an upper-case escape. -/
def escapeDigit (n : ℕ) : Char := Char.ofNat (if n < 10 then 48 + n else 55 + n)

def encodeByte (b : UInt8) : List Char :=
  if unreserved b then [Char.ofNat b.toNat]
  else ['%', escapeDigit (b.toNat / 16), escapeDigit (b.toNat % 16)]

def uriEncodeSegment (input : String) : String :=
  String.ofList ((asBytes input).flatMap encodeByte)

/-- `{n:0width}`. -/
def padded (width n : ℕ) : String :=
  let digits := Nat.toDigits 10 n
  String.ofList (List.replicate (width - digits.length) '0' ++ digits)

/-- Year, month and day of a day counted from 1970-01-01. -/
def civilFromDays (days : ℕ) : ℕ × ℕ × ℕ :=
  let z := days + 719468
  let era := z / 146097
  let doe := z - era * 146097
  let yoe := (doe - doe / 1460 + doe / 36524 - doe / 146096) / 365
  let year := yoe + era * 400
  let doy := doe - (365 * yoe + yoe / 4 - yoe / 100)
  let mp := (5 * doy + 2) / 153
  let day := doy - (153 * mp + 2) / 5 + 1
  let month := if mp < 10 then mp + 3 else mp - 9
  (if month ≤ 2 then year + 1 else year, month, day)

/-- The date with the time, and the date alone. -/
def formatAmzDate (secs : UInt64) : String × String :=
  let days := secs.toNat / 86400
  let rem := secs.toNat % 86400
  let (year, month, day) := civilFromDays days
  let date := padded 4 year ++ padded 2 month ++ padded 2 day
  (date ++ "T" ++ padded 2 (rem / 3600) ++ padded 2 (rem % 3600 / 60) ++ padded 2 (rem % 60) ++ "Z",
    date)

example : formatAmzDate 1700000000 = ("20231114T221320Z", "20231114") := by decide +kernel

/-- The hashes, keyed and plain. -/
structure Hashes where
  sha256 : Bytes → Bytes
  hmacSha256 : Bytes → Bytes → Bytes

def Hashes.sha256Hex (lib : Hashes) (data : Bytes) : String := hexEncode (lib.sha256 data)

def signingKey (lib : Hashes) (secret dateStamp region service : String) : Bytes :=
  let kDate := lib.hmacSha256 (asBytes ("AWS4" ++ secret)) (asBytes dateStamp)
  let kRegion := lib.hmacSha256 kDate (asBytes region)
  let kService := lib.hmacSha256 kRegion (asBytes service)
  lib.hmacSha256 kService (asBytes "aws4_request")

def signedHeaders (sessionToken : Option String) : String :=
  let names := "content-type;host;x-amz-date"
  match sessionToken with
  | some _ => names ++ ";x-amz-security-token"
  | none => names

/-- The canonical request as the signer writes it. -/
def canonicalRequest (lib : Hashes) (sessionToken : Option String)
    (host canonicalPath contentType : String) (body : Bytes) (amzDate : String) : String :=
  let payloadHash := lib.sha256Hex body
  let canonicalHeaders :=
    "content-type:" ++ contentType ++ "\nhost:" ++ host ++ "\nx-amz-date:" ++ amzDate ++ "\n" ++
      match sessionToken with
      | some token => "x-amz-security-token:" ++ token ++ "\n"
      | none => ""
  "POST\n" ++ canonicalPath ++ "\n\n" ++ canonicalHeaders ++ "\n" ++ signedHeaders sessionToken ++
    "\n" ++ payloadHash

def signPost (lib : Hashes) (accessKey secretKey : String) (sessionToken : Option String)
    (region service host canonicalPath contentType : String) (body : Bytes)
    (amzDate dateStamp : String) : String :=
  let canonical := canonicalRequest lib sessionToken host canonicalPath contentType body amzDate
  let scope := dateStamp ++ "/" ++ region ++ "/" ++ service ++ "/aws4_request"
  let stringToSign := "AWS4-HMAC-SHA256\n" ++ amzDate ++ "\n" ++ scope ++ "\n" ++
    lib.sha256Hex (asBytes canonical)
  let key := signingKey lib secretKey dateStamp region service
  let signature := hexEncode (lib.hmacSha256 key (asBytes stringToSign))
  "AWS4-HMAC-SHA256 Credential=" ++ accessKey ++ "/" ++ scope ++ ", SignedHeaders=" ++
    signedHeaders sessionToken ++ ", Signature=" ++ signature

/-- A request on the wire. The query is empty if there is none. -/
structure SentRequest where
  method : String
  path : String
  query : String
  headers : List (String × String)
  body : Bytes
  deriving DecidableEq, Repr

/-- The path with every segment percent-encoded: each byte but the slashes between the
segments. -/
def encodeSegments (path : String) : String :=
  String.ofList ((asBytes path).flatMap fun b => if b = 47 then ['/'] else encodeByte b)

/-- The host, the content type and all headers of the scheme's own. -/
def toBeSigned (name : String) : Bool :=
  name == "content-type" || name == "host" || (stripPrefix name "x-amz-").isSome

def headersToSign (request : SentRequest) : List (String × String) :=
  (request.headers.filter fun h => toBeSigned h.1).insertionSort fun a b => a.1 ≤ b.1

/-- What follows the query: a line for each header, their names and the hash of the body. -/
def closing (lib : Hashes) (headers : List (String × String)) (body : Bytes) : String :=
  String.join (headers.map fun h => h.1 ++ ":" ++ h.2 ++ "\n") ++ "\n" ++
    String.intercalate ";" (headers.map Prod.fst) ++ "\n" ++ lib.sha256Hex body

/-- The canonical request for a service other than S3. -/
def prescribed (lib : Hashes) (request : SentRequest) : String :=
  request.method ++ "\n" ++ encodeSegments request.path ++ "\n" ++ request.query ++ "\n" ++
    closing lib (headersToSign request) request.body

/-- The headers as the signer has them, in their order. -/
def signedList (sessionToken : Option String) (host contentType amzDate : String) :
    List (String × String) :=
  [("content-type", contentType), ("host", host), ("x-amz-date", amzDate)] ++
    (sessionToken.map fun token => ("x-amz-security-token", token)).toList

theorem canonicalRequest_eq (lib : Hashes) (sessionToken : Option String)
    (host canonicalPath contentType : String) (body : Bytes) (amzDate : String) :
    canonicalRequest lib sessionToken host canonicalPath contentType body amzDate =
      "POST" ++ "\n" ++ canonicalPath ++ "\n" ++ "" ++ "\n" ++
        closing lib (signedList sessionToken host contentType amzDate) body := by
  have hpost : "POST\n" = "POST" ++ "\n" := rfl
  have hempty : "\n\n" = "\n" ++ "\n" := rfl
  have htype : "content-type:" = "content-type" ++ ":" := rfl
  have hhost : "\nhost:" = "\n" ++ ("host" ++ ":") := rfl
  have hdate : "\nx-amz-date:" = "\n" ++ ("x-amz-date" ++ ":") := rfl
  have htoken : "x-amz-security-token:" = "x-amz-security-token" ++ ":" := rfl
  unfold canonicalRequest closing signedList signedHeaders
  cases sessionToken with
  | none =>
      have hnames : "content-type;host;x-amz-date" =
          String.intercalate ";" ["content-type", "host", "x-amz-date"] := rfl
      simp only [hpost, hempty, htype, hhost, hdate, hnames, Option.map_none, Option.toList_none,
        List.append_nil, List.map_cons, List.map_nil, String.join_cons, String.join_nil,
        String.append_assoc, String.empty_append]
  | some token =>
      have hnames : "content-type;host;x-amz-date" ++ ";x-amz-security-token" =
          String.intercalate ";"
            ["content-type", "host", "x-amz-date", "x-amz-security-token"] := rfl
      simp only [hpost, hempty, htype, hhost, hdate, htoken, hnames, Option.map_some,
        Option.toList_some, List.cons_append, List.nil_append, List.map_cons, List.map_nil,
        String.join_cons, String.join_nil, String.append_assoc, String.empty_append]

/-- Hosts can be read off. -/
theorem closing_signedList_inj {lib : Hashes} {sessionToken : Option String}
    {host host' contentType amzDate : String} {body : Bytes}
    (h : closing lib (signedList sessionToken host contentType amzDate) body =
      closing lib (signedList sessionToken host' contentType amzDate) body) : host = host' := by
  have hnames : (signedList sessionToken host contentType amzDate).map Prod.fst =
      (signedList sessionToken host' contentType amzDate).map Prod.fst := by
    rw [signedList, signedList, List.map_append, List.map_append]
    rfl
  unfold closing at h
  rw [hnames] at h
  simp only [signedList, List.cons_append, List.nil_append, List.map_cons, String.join_cons,
    String.append_assoc, String.append_right_inj] at h
  exact (String.append_left_inj _).mp h

/-- The characters of an encoded path. -/
def pathLetter (c : Char) : Bool :=
  c.toNat < 128 && (c == '/' || c == '%' || unreserved (UInt8.ofNat c.toNat))

theorem encodeByte_letters :
    ∀ n < 256, (encodeByte (UInt8.ofNat n)).all pathLetter = true ∧
      ('%' ∈ encodeByte (UInt8.ofNat n) ↔ unreserved (UInt8.ofNat n) = false) := by
  decide +kernel

theorem pathLetter_of_mem_encodeByte {b : UInt8} {c : Char} (h : c ∈ encodeByte b) :
    pathLetter c = true := by
  have hb := (encodeByte_letters b.toNat b.toNat_lt).1
  rw [UInt8.ofNat_toNat] at hb
  exact List.all_eq_true.mp hb c h

theorem escape_mem_encodeByte (b : UInt8) : '%' ∈ encodeByte b ↔ unreserved b = false := by
  have hb := (encodeByte_letters b.toNat b.toNat_lt).2
  rwa [UInt8.ofNat_toNat] at hb

theorem encodeSegments_ofList {cs : List Char} (h : ∀ c ∈ cs, c.toNat < 128) :
    encodeSegments (String.ofList cs) = String.ofList (cs.flatMap fun c =>
      if UInt8.ofNat c.toNat = 47 then ['/'] else encodeByte (UInt8.ofNat c.toNat)) := by
  unfold encodeSegments
  rw [asBytes_ofList, List.flatMap_assoc]
  congr 1
  refine List.flatMap_congr fun c hc => ?_
  have hbyte := utf8EncodeChar_ascii c.toNat (h c hc)
  rw [Char.ofNat_toNat] at hbyte
  rw [hbyte, List.flatMap_singleton]

/-- What becomes of a letter of an encoded path when it is encoded. -/
def encodeLetter (c : Char) : List Char := if c = '%' then ['%', '2', '5'] else [c]

theorem encode_pathLetter :
    ∀ n < 128, pathLetter (Char.ofNat n) = true →
      (if UInt8.ofNat (Char.ofNat n).toNat = 47 then ['/']
        else encodeByte (UInt8.ofNat (Char.ofNat n).toNat)) = encodeLetter (Char.ofNat n) := by
  decide +kernel

theorem length_le_encodeLetters (cs : List Char) : cs.length ≤ (cs.flatMap encodeLetter).length := by
  induction cs with
  | nil => exact Nat.le_refl _
  | cons c cs ih =>
      rw [List.flatMap_cons, List.length_append, List.length_cons, encodeLetter]
      split_ifs
      · simp only [List.length_cons, List.length_nil]
        omega
      · simp only [List.length_cons, List.length_nil]
        omega

theorem encodeLetters_eq_iff (cs : List Char) : cs.flatMap encodeLetter = cs ↔ '%' ∉ cs := by
  constructor
  · intro h hmem
    -- an escape makes the text longer, and nothing makes it shorter
    obtain ⟨before, after, rfl⟩ := List.append_of_mem hmem
    have hlength := congrArg List.length h
    have hbefore := length_le_encodeLetters before
    have hafter := length_le_encodeLetters after
    rw [List.flatMap_append, List.flatMap_cons, encodeLetter, if_pos rfl] at hlength
    simp only [List.length_append, List.length_cons, List.length_nil] at hlength
    omega
  · intro h
    induction cs with
    | nil => rfl
    | cons c cs ih =>
        obtain ⟨hc, hcs⟩ := not_or.mp (mt List.mem_cons.mpr h)
        rw [List.flatMap_cons, ih hcs, encodeLetter, if_neg (Ne.symm hc)]
        rfl

/-- Encoding an encoded path again changes nothing exactly if it has no escapes. -/
theorem encodeSegments_eq_iff {cs : List Char} (h : ∀ c ∈ cs, pathLetter c = true) :
    encodeSegments (String.ofList cs) = String.ofList cs ↔ '%' ∉ cs := by
  have hascii : ∀ c ∈ cs, c.toNat < 128 := by
    intro c hc
    have hletter := h c hc
    simp only [pathLetter, Bool.and_eq_true, decide_eq_true_eq] at hletter
    exact hletter.1
  rw [encodeSegments_ofList hascii, String.ofList_inj, ← encodeLetters_eq_iff]
  have hcongr : (cs.flatMap fun c =>
      if UInt8.ofNat c.toNat = 47 then ['/'] else encodeByte (UInt8.ofNat c.toNat)) =
      cs.flatMap encodeLetter := by
    refine List.flatMap_congr fun c hc => ?_
    have hletter := encode_pathLetter c.toNat (hascii c hc)
    rw [Char.ofNat_toNat] at hletter
    exact hletter (h c hc)
  rw [hcongr]

/-- The text of a segment needs no second encoding exactly if it needed no first one. -/
theorem escape_mem_uriEncodeSegment (input : String) :
    '%' ∉ (uriEncodeSegment input).toList ↔ ∀ b ∈ asBytes input, unreserved b = true := by
  rw [uriEncodeSegment, String.toList_ofList]
  simp only [List.mem_flatMap, escape_mem_encodeByte, not_exists, not_and, Bool.not_eq_false]

theorem lineFeed_encodeSegments (path : String) : '\n' ∉ (encodeSegments path).toList := by
  rw [encodeSegments, String.toList_ofList, List.mem_flatMap]
  rintro ⟨b, -, hmem⟩
  split_ifs at hmem
  · exact absurd hmem (by decide)
  · exact absurd (pathLetter_of_mem_encodeByte hmem) (by decide)

end VaultplaneGateway.SignatureV4
