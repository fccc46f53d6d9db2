import VaultplaneGateway.EventStreams
import VaultplaneGateway.RuntimeBuilding
import VaultplaneGateway.SignatureV4

/-!
# Signing what is sent to Bedrock

The connector signs a path in which the model is percent-encoded and posts to the address
with that path. The scheme has the path encoded once more, so that the signature is valid
exactly for models that need no encoding. What the HTTP client makes of an address is
given: the host, path and query that it sends, or nothing for an address that it refuses.
-/
namespace VaultplaneGateway.BedrockSigning
open WireFormats ProxyPipeline FallibleComputations RuntimeBuilding SignatureV4

variable {κ : Type}

/-- Where a request goes. An address has no line feeds. -/
structure Target where
  host : String
  path : String
  query : String
  oneLine : '\n' ∉ query.toList

def service : String := "bedrock"

def contentType : String := "application/json"

def invokePath (model : String) : String := "/model/" ++ uriEncodeSegment model ++ "/invoke"

section
variable (lib : Hashes) (target : String → Option Target) (c : BedrockConnector κ) (model : String)
variable (payload : Bytes) (secs : UInt64)

/-- The canonical request that is hashed. -/
def hashedRequest : String :=
  canonicalRequest lib c.sessionToken c.host (invokePath model) contentType payload
    (formatAmzDate secs).1

def authorization : String :=
  signPost lib c.accessKey c.secretKey c.sessionToken c.region service c.host (invokePath model)
    contentType payload (formatAmzDate secs).1 (formatAmzDate secs).2

/-- The headers that `chat` sets. -/
def chatHeaders : List (String × String) :=
  [("content-type", contentType), ("x-amz-date", (formatAmzDate secs).1),
    ("authorization", authorization lib c model payload secs)] ++
      (c.sessionToken.map fun token => ("x-amz-security-token", token)).toList

/-- The request of `chat`, to which the client adds the host. A header value that is none
makes the call fail before anything is sent. -/
def sentRequest : Option SentRequest :=
  let headers := chatHeaders lib c model payload secs
  if headers.all fun h => validHeaderValue h.2 then
    (target (c.endpoint ++ invokePath model)).map fun t =>
      ⟨"POST", t.path, t.query, headers ++ [("host", t.host)], payload⟩
  else none

/-- If a request is sent, what was hashed is what the scheme prescribes for it. -/
def SignedAsSent : Prop :=
  ∀ sent, sentRequest lib target c model payload secs = some sent →
    hashedRequest lib c model payload secs = prescribed lib sent

end

/-- A first line is recovered from a text. -/
theorem line_inj {a b r s : String} (ha : '\n' ∉ a.toList) (hb : '\n' ∉ b.toList)
    (h : a ++ ("\n" ++ r) = b ++ ("\n" ++ s)) : a = b ∧ r = s := by
  have hlists := congrArg String.toList h
  simp only [String.toList_append] at hlists
  obtain ⟨hab, hrs⟩ := ResponseCaching.append_cons_inj ha hb hlists
  exact ⟨String.toList_inj.mp hab, String.toList_inj.mp hrs⟩

theorem headersToSign_sent (method path query host authorization amzDate : String)
    (sessionToken : Option String) (body : Bytes) :
    headersToSign ⟨method, path, query, [("content-type", contentType), ("x-amz-date", amzDate),
      ("authorization", authorization)] ++
        (sessionToken.map fun token => ("x-amz-security-token", token)).toList ++ [("host", host)],
      body⟩ = signedList sessionToken host contentType amzDate := by
  have htype : toBeSigned "content-type" = true := by decide
  have hhost : toBeSigned "host" = true := by decide
  have hdate : toBeSigned "x-amz-date" = true := by decide
  have htoken : toBeSigned "x-amz-security-token" = true := by decide
  have hauth : toBeSigned "authorization" = false := by decide
  have hdh : ¬ "x-amz-date" ≤ "host" := by decide
  have hth : ¬ "x-amz-security-token" ≤ "host" := by decide
  have hdt : "x-amz-date" ≤ "x-amz-security-token" := by decide
  have hch : "content-type" ≤ "host" := by decide
  unfold headersToSign signedList
  cases sessionToken with
  | none =>
      simp only [Option.map_none, Option.toList_none, List.append_nil, List.cons_append,
        List.nil_append, List.filter_cons, List.filter_nil, htype, hhost, hdate, hauth, if_true,
        Bool.false_eq_true, if_false, List.insertionSort_cons, List.insertionSort_nil,
        List.orderedInsert, hdh, hch]
  | some token =>
      simp only [Option.map_some, Option.toList_some, List.cons_append, List.nil_append,
        List.filter_cons, List.filter_nil, htype, hhost, hdate, htoken, hauth, if_true,
        Bool.false_eq_true, if_false, List.insertionSort_cons, List.insertionSort_nil,
        List.orderedInsert, hdh, hth, hdt, hch]

/-- Characters that stand for a byte of a header value. -/
theorem validHeaderValue_ofList {cs : List Char} (h : ∀ c ∈ cs, 32 ≤ c.toNat ∧ c.toNat < 127) :
    validHeaderValue (String.ofList cs) = true := by
  have hbytes : ∀ n < 127, 32 ≤ n →
      ((32 ≤ UInt8.ofNat n && UInt8.ofNat n != 127) || UInt8.ofNat n == 9) = true := by decide
  rw [validHeaderValue, asBytes_ofList, List.all_eq_true]
  intro b hb
  obtain ⟨c, hc, hbc⟩ := List.mem_flatMap.mp hb
  obtain ⟨hlow, hhigh⟩ := h c hc
  have hbyte := utf8EncodeChar_ascii c.toNat (by omega)
  rw [Char.ofNat_toNat] at hbyte
  rw [hbyte, List.mem_singleton] at hbc
  rw [hbc]
  exact hbytes c.toNat hhigh hlow

theorem validHeaderValue_append (a b : String) :
    validHeaderValue (a ++ b) = (validHeaderValue a && validHeaderValue b) := by
  rw [validHeaderValue, EventStreams.asBytes_append, List.all_append]
  rfl

theorem validHeaderValue_hexEncode (data : Bytes) : validHeaderValue (hexEncode data) = true := by
  have hdigit : ∀ n : Fin 16, 32 ≤ (hexDigit n).toNat ∧ (hexDigit n).toNat < 127 := by decide
  refine validHeaderValue_ofList fun c hc => ?_
  obtain ⟨b, -, hcb⟩ := List.mem_flatMap.mp hc
  rcases List.mem_pair.mp hcb with rfl | rfl
  · exact hdigit _
  · exact hdigit _

theorem validHeaderValue_padded (width n : ℕ) : validHeaderValue (padded width n) = true := by
  refine validHeaderValue_ofList fun c hc => ?_
  rcases List.mem_append.mp hc with hc | hc
  · rw [List.eq_of_mem_replicate hc]
    decide
  · have hdigit := Nat.isDigit_of_mem_toDigits (by decide) (by decide) hc
    simp only [Char.isDigit, Bool.and_eq_true, decide_eq_true_eq, UInt32.le_iff_toNat_le] at hdigit
    have hlow : 48 ≤ c.toNat := hdigit.1
    have hhigh : c.toNat ≤ 57 := hdigit.2
    omega

theorem validHeaderValue_formatAmzDate (secs : UInt64) :
    validHeaderValue (formatAmzDate secs).1 = true ∧
      validHeaderValue (formatAmzDate secs).2 = true := by
  have ht : validHeaderValue "T" = true := by decide
  have hz : validHeaderValue "Z" = true := by decide
  unfold formatAmzDate
  simp only [validHeaderValue_append, validHeaderValue_padded, ht, hz, Bool.and_self, and_self]

/-- The credentials and the region are what may be none. -/
theorem validHeaderValue_authorization (lib : Hashes) (c : BedrockConnector κ) (model : String)
    (payload : Bytes) (secs : UInt64) :
    validHeaderValue (authorization lib c model payload secs) =
      (validHeaderValue c.accessKey && validHeaderValue c.region) := by
  have halgorithm : validHeaderValue "AWS4-HMAC-SHA256 Credential=" = true := by decide
  have hsigned : validHeaderValue ", SignedHeaders=" = true := by decide
  have hsignature : validHeaderValue ", Signature=" = true := by decide
  have hslash : validHeaderValue "/" = true := by decide
  have hservice : validHeaderValue service = true := by decide
  have hscope : validHeaderValue "/aws4_request" = true := by decide
  have hnames : ∀ token : Option String, validHeaderValue (signedHeaders token) = true := by
    intro token
    cases token with
    | none => decide
    | some value =>
        change validHeaderValue ("content-type;host;x-amz-date" ++ ";x-amz-security-token") = true
        decide
  unfold authorization signPost
  simp only [validHeaderValue_append, validHeaderValue_hexEncode, validHeaderValue_formatAmzDate,
    halgorithm, hsigned, hsignature, hslash, hservice, hscope, hnames, Bool.and_true, Bool.true_and]

/-- Whether the header values can be sent. -/
def sendable (region accessKey : String) (sessionToken : Option String) : Bool :=
  validHeaderValue accessKey && validHeaderValue region && sessionToken.all validHeaderValue

theorem chatHeaders_valid (lib : Hashes) (c : BedrockConnector κ) (model : String)
    (payload : Bytes) (secs : UInt64) :
    ((chatHeaders lib c model payload secs).all fun h => validHeaderValue h.2) =
      sendable c.region c.accessKey c.sessionToken := by
  have htype : validHeaderValue contentType = true := by decide
  unfold chatHeaders sendable
  cases c.sessionToken <;>
    simp [htype, validHeaderValue_formatAmzDate, validHeaderValue_authorization]

theorem invokePath_letters (model : String) :
    ∀ c ∈ (invokePath model).toList, pathLetter c = true := by
  intro c hc
  have hbefore : "/model/".toList.all pathLetter = true := by decide
  have hafter : "/invoke".toList.all pathLetter = true := by decide
  rw [invokePath, String.toList_append, String.toList_append, List.mem_append, List.mem_append] at hc
  rcases hc with (hc | hc) | hc
  · exact List.all_eq_true.mp hbefore c hc
  · rw [uriEncodeSegment, String.toList_ofList, List.mem_flatMap] at hc
    obtain ⟨b, -, hcb⟩ := hc
    exact pathLetter_of_mem_encodeByte hcb
  · exact List.all_eq_true.mp hafter c hc

theorem lineFeed_invokePath (model : String) : '\n' ∉ (invokePath model).toList := by
  intro hmem
  exact absurd (invokePath_letters model '\n' hmem) (by decide)

theorem encodeSegments_invokePath (model : String) :
    encodeSegments (invokePath model) = invokePath model ↔
      ∀ b ∈ asBytes model, unreserved b = true := by
  have hbefore : '%' ∉ "/model/".toList := by decide
  have hafter : '%' ∉ "/invoke".toList := by decide
  have hpath := encodeSegments_eq_iff (invokePath_letters model)
  rw [String.ofList_toList] at hpath
  rw [hpath, ← escape_mem_uriEncodeSegment, invokePath, String.toList_append,
    String.toList_append, List.mem_append, List.mem_append, not_or, not_or]
  exact ⟨fun h => h.1.2, fun h => ⟨⟨hbefore, h⟩, hafter⟩⟩

/-- An HTTP client drops the segments that refer to a directory. -/
def normalPath (model : String) : String :=
  if model = "." then "/model/invoke"
  else if model = ".." then "/invoke"
  else invokePath model

theorem encodeSegments_normalPath (model : String) :
    encodeSegments (normalPath model) = invokePath model ↔
      (∀ b ∈ asBytes model, unreserved b = true) ∧ model ≠ "." ∧ model ≠ ".." := by
  unfold normalPath
  split_ifs with hdot hdots
  · subst hdot
    refine iff_of_false (by decide +kernel) fun h => h.2.1 rfl
  · subst hdots
    refine iff_of_false (by decide +kernel) fun h => h.2.2 rfl
  · rw [encodeSegments_invokePath]
    exact ⟨fun h => ⟨h, hdot, hdots⟩, fun h => h.1⟩

section
variable {lib : Hashes} {target : String → Option Target} {c : BedrockConnector κ} {model : String}
variable {payload : Bytes} {secs : UInt64}

theorem hashedRequest_eq_prescribed_iff (t : Target) :
    hashedRequest lib c model payload secs = prescribed lib ⟨"POST", t.path, t.query,
        chatHeaders lib c model payload secs ++ [("host", t.host)], payload⟩ ↔
      t.host = c.host ∧ t.query = "" ∧ encodeSegments t.path = invokePath model := by
  unfold hashedRequest prescribed chatHeaders
  rw [canonicalRequest_eq, headersToSign_sent]
  constructor
  · intro h
    simp only [String.append_assoc, String.append_right_inj] at h
    -- The path and the query are lines of their own, and the rest is equal but for the host.
    obtain ⟨hpath, hrest⟩ := line_inj (lineFeed_invokePath model) (lineFeed_encodeSegments t.path) h
    obtain ⟨hquery, hclosing⟩ := line_inj (by decide) t.oneLine hrest
    exact ⟨(closing_signedList_inj hclosing).symm, hquery.symm, hpath.symm⟩
  · rintro ⟨hhost, hquery, hpath⟩
    rw [hhost, hquery, hpath]

theorem signedAsSent_iff : SignedAsSent lib target c model payload secs ↔
    (sendable c.region c.accessKey c.sessionToken = true →
      ∀ t, target (c.endpoint ++ invokePath model) = some t →
        t.host = c.host ∧ t.query = "" ∧ encodeSegments t.path = invokePath model) := by
  unfold SignedAsSent sentRequest
  simp only [chatHeaders_valid]
  constructor
  · intro h hsendable t ht
    refine (hashedRequest_eq_prescribed_iff t).mp (h _ ?_)
    rw [if_pos hsendable, ht]
    rfl
  · intro h sent hsent
    split_ifs at hsent with hsendable
    obtain ⟨t, ht, rfl⟩ := Option.map_eq_some_iff.mp hsent
    exact (hashedRequest_eq_prescribed_iff t).mpr (h hsendable t ht)

end

def hostFor (region : String) : String := "bedrock-runtime." ++ region ++ ".amazonaws.com"

theorem new_eq (host : Host κ) (region accessKey secretKey : String)
    (sessionToken : Option String) :
    BedrockConnector.new host region accessKey secretKey sessionToken =
      host.httpClient.bind fun client => .ok ⟨"https://" ++ hostFor region, hostFor region, region,
        accessKey, secretKey, sessionToken, client⟩ := by
  have hscheme : "https://bedrock-runtime." = "https://" ++ "bedrock-runtime." := rfl
  have hendpoint : "https://bedrock-runtime." ++ region ++ ".amazonaws.com" =
      "https://" ++ hostFor region := by
    change _ = "https://" ++ ("bedrock-runtime." ++ region ++ ".amazonaws.com")
    rw [hscheme, String.append_assoc, String.append_assoc, String.append_assoc]
  have hstrip : stripPrefix ("https://" ++ hostFor region) "https://" = some (hostFor region) := by
    simp [stripPrefix]
  unfold BedrockConnector.new BedrockConnector.build
  rw [hendpoint, hstrip]
  rfl

theorem new_eq_ok {host : Host κ} {region accessKey secretKey : String}
    {sessionToken : Option String} {c : BedrockConnector κ}
    (h : BedrockConnector.new host region accessKey secretKey sessionToken = .ok c) :
    c = ⟨"https://" ++ hostFor region, hostFor region, region, accessKey, secretKey, sessionToken,
      c.client⟩ := by
  rw [new_eq] at h
  obtain ⟨client, -, hc⟩ := bind_eq_ok.mp h
  obtain rfl := Except.ok.inj hc
  rfl

/-- Signing what is sent, for every region, credentials, model, payload and time.
Whatever the client makes of the address, the two agree exactly if it keeps the host,
adds no query and sends a path whose encoding is the signed one. If it sends the address
as it is written, apart from directory segments, they agree exactly for models of
unreserved characters. -/
theorem signed_as_sent_iff (lib : Hashes) (target : String → Option Target) (host : Host κ)
    (region accessKey secretKey : String) (sessionToken : Option String) (c : BedrockConnector κ)
    (hnew : BedrockConnector.new host region accessKey secretKey sessionToken = .ok c)
    (model : String) (payload : Bytes) (secs : UInt64) :
    (SignedAsSent lib target c model payload secs ↔
      (sendable region accessKey sessionToken = true →
        ∀ t, target ("https://" ++ hostFor region ++ invokePath model) = some t →
          t.host = hostFor region ∧ t.query = "" ∧ encodeSegments t.path = invokePath model)) ∧
    (target ("https://" ++ hostFor region ++ invokePath model) =
        some ⟨hostFor region, normalPath model, "", by decide⟩ →
      (SignedAsSent lib target c model payload secs ↔
        (sendable region accessKey sessionToken = true →
          (∀ b ∈ asBytes model, unreserved b = true) ∧ model ≠ "." ∧ model ≠ ".."))) := by
  have hsigned : SignedAsSent lib target c model payload secs ↔
      (sendable region accessKey sessionToken = true →
        ∀ t, target ("https://" ++ hostFor region ++ invokePath model) = some t →
          t.host = hostFor region ∧ t.query = "" ∧ encodeSegments t.path = invokePath model) := by
    rw [signedAsSent_iff, new_eq_ok hnew]
  refine ⟨hsigned, fun hplain => hsigned.trans (imp_congr_right fun _ => ?_)⟩
  rw [← encodeSegments_normalPath, hplain]
  constructor
  · intro h
    exact (h _ rfl).2.2
  · intro h t ht
    obtain rfl := Option.some.inj ht
    exact ⟨rfl, rfl, h⟩

/-- A client, for addresses without directory segments. -/
def asWritten (address : String) : Option Target :=
  (stripPrefix address "https://").map fun rest =>
    ⟨String.ofList (rest.toList.takeWhile (· != '/')),
      String.ofList (rest.toList.dropWhile (· != '/')), "", by decide⟩

theorem asWritten_address {region : String} (h : '/' ∉ (hostFor region).toList) (model : String) :
    asWritten ("https://" ++ hostFor region ++ invokePath model) =
      some ⟨hostFor region, invokePath model, "", by decide⟩ := by
  have hstrip : stripPrefix ("https://" ++ hostFor region ++ invokePath model) "https://" =
      some (hostFor region ++ invokePath model) := by
    rw [String.append_assoc]
    simp [stripPrefix]
  have hslash : ∃ cs, (invokePath model).toList = '/' :: cs :=
    ⟨"model/".toList ++ (uriEncodeSegment model).toList ++ "/invoke".toList, by simp [invokePath]⟩
  obtain ⟨cs, hcs⟩ := hslash
  have hhost : ∀ c ∈ (hostFor region).toList, (c != '/') = true := by
    intro c hc
    rw [bne_iff_ne]
    rintro rfl
    exact h hc
  have hbefore : (hostFor region ++ invokePath model).toList.takeWhile (· != '/') =
      (hostFor region).toList := by
    rw [String.toList_append, List.takeWhile_append_of_pos hhost, hcs]
    simp
  have hafter : (hostFor region ++ invokePath model).toList.dropWhile (· != '/') =
      (invokePath model).toList := by
    rw [String.toList_append, List.dropWhile_append_of_pos hhost, hcs]
    simp
  unfold asWritten
  simp only [hstrip, Option.map_some, hbefore, hafter, String.ofList_toList]

theorem signed_as_sent_plain_model :
    ∃ c, BedrockConnector.new sampleHost "us-east-1" "AKIDEXAMPLE" "secret" (some "token") = .ok c ∧
      ∀ lib : Hashes, (sentRequest lib asWritten c "amazon.nova-pro-v1" [123, 125] 0).isSome = true ∧
        SignedAsSent lib asWritten c "amazon.nova-pro-v1" [123, 125] 0 := by
  have hnew := new_eq sampleHost "us-east-1" "AKIDEXAMPLE" "secret" (some "token")
  have hsendable : sendable "us-east-1" "AKIDEXAMPLE" (some "token") = true := by decide
  have hslash : '/' ∉ (hostFor "us-east-1").toList := by decide
  have haddress := asWritten_address hslash "amazon.nova-pro-v1"
  have hplain : (asBytes "amazon.nova-pro-v1").all unreserved = true := by decide
  refine ⟨_, hnew, fun lib => ⟨?_, ?_⟩⟩
  · unfold sentRequest
    simp only [chatHeaders_valid, hsendable, if_true, haddress, Option.map_some, Option.isSome_some]
  · exact ((signed_as_sent_iff lib asWritten sampleHost _ _ _ _ _ hnew _ _ _).2 haddress).mpr
      fun _ => ⟨List.all_eq_true.mp hplain, by decide, by decide⟩

/-- A colon is escaped in the path that is sent, and its escape is to be escaped in the
path that is signed. -/
theorem colon_signed_once :
    ∃ c, BedrockConnector.new sampleHost "us-east-1" "AKIDEXAMPLE" "secret" none = .ok c ∧
      ∀ lib : Hashes,
        ¬ SignedAsSent lib asWritten c "anthropic.claude-3-5-sonnet-20240620-v1:0" [123, 125] 0 := by
  refine ⟨_, new_eq sampleHost "us-east-1" "AKIDEXAMPLE" "secret" none, fun lib => ?_⟩
  have hslash : '/' ∉ (hostFor "us-east-1").toList := by decide
  have haddress := asWritten_address hslash "anthropic.claude-3-5-sonnet-20240620-v1:0"
  rw [signedAsSent_iff]
  intro h
  have hpath := (h (by decide) _ haddress).2.2
  rw [encodeSegments_invokePath] at hpath
  exact absurd (hpath 58 (by decide)) (by decide)

end VaultplaneGateway.BedrockSigning
