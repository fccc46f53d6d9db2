import VaultplaneGateway.InlinePlugins
import VaultplaneGateway.RateLimiting
import VaultplaneGateway.StreamUsage

/-!
# The proxy's request pipeline

A request passes the authentication middleware and then one of two handlers. The
pipeline is cut where the source takes a lock or waits for another party: the key
lookup, the rate check, the gates of the handler, the cache lookup, the upstream
call, the charge, and the cache store with the response. Each stage is a function
of what it reads; `chatCompletions` and `embeddings` compose the stages for a
request that runs undisturbed.

The two handlers differ in the fields they read from the body, in their path and
upstream call, and in that only chat requests stream. The body is buffered between
the middleware and the handler, and one that is too long is refused there. Tracing
spans, metrics and audit events are not modelled here: no stage reads them back.
-/
namespace VaultplaneGateway.ProxyPipeline
open WireFormats KeyRecords RateLimiting SpendTracking ResponseCaching InlinePlugins StreamUsage

inductive Endpoint where
  | chat | embeddings
  deriving DecidableEq, Repr

def Endpoint.path : Endpoint → String
  | .chat => "/v1/chat/completions"
  | .embeddings => "/v1/embeddings"

structure Request where
  endpoint : Endpoint
  headers : HeaderMap
  body : Bytes
  deriving DecidableEq, Repr

/-- Value of the `x-vaultplane-cache` response header. -/
inductive CacheLabel where
  | hit | miss
  deriving DecidableEq, Repr

/-- An error body is the JSON object `error` with a message and, for upstream
failures, a type. -/
inductive Body where
  | error (message : String) (kind : Option String)
  | bytes (content : Bytes)
  | stream (chunks : BodyStream)
  deriving DecidableEq

structure Response where
  status : UInt16
  contentType : Option String
  cache : Option CacheLabel
  body : Body
  deriving DecidableEq

def error (status : UInt16) (message : String) : Response :=
  ⟨status, some "application/json", none, .error message none⟩

inductive CoreError where
  | config (detail : String)
  | provider (detail : String)
  | upstreamTimeout (detail : String)
  deriving DecidableEq, Repr

/-- The `Display` texts of the core errors. -/
def CoreError.text : CoreError → String
  | .config d => "configuration error: " ++ d
  | .provider d => "provider error: " ++ d
  | .upstreamTimeout d => "upstream timed out: " ++ d

def upstreamErrorResponse (err : CoreError) : Response :=
  match err with
  | .upstreamTimeout detail =>
      ⟨504, some "application/json", none,
        .error ("upstream request timed out: " ++ detail) (some "upstream_timeout")⟩
  | other => ⟨502, some "application/json", none, .error other.text (some "upstream_error")⟩

/-- Status codes run from 100 to 999. -/
def validStatus (status : UInt16) : Bool := 100 ≤ status && status ≤ 999

/-- The bytes a header value may contain. -/
def validHeaderValue (value : String) : Bool :=
  (asBytes value).all fun b => (32 ≤ b && b != 127) || b == 9

/-- Whether the response builder accepts the upstream's status and type. -/
def buildable (status : UInt16) (contentType : Option String) : Bool :=
  validStatus status && contentType.all validHeaderValue

def buildResponse (status : UInt16) (contentType : Option String) (body : Body)
    (label : CacheLabel) : Response :=
  if buildable status contentType then ⟨status, contentType, some label, body⟩
  else error 502 "invalid upstream response"

def bearerToken (headers : HeaderMap) : Option String := do
  let value ← headers.get "authorization"
  let text ← toStr value
  stripPrefix text "Bearer "

/-- A header value that is a nonempty string. -/
def headerStr (headers : HeaderMap) (name : String) : Option String :=
  ((headers.get name).bind toStr).filter fun s => !s.isEmpty

def idempotencyHeader : String := "x-vaultplane-idempotency-key"

/-- A named field of a decoded struct. A repeated name fails the decoding, an
absent one is reported as `none`. -/
def structField (members : List (String × Json)) (name : String) : Option (Option Json) :=
  match members.filter fun m => m.1 == name with
  | [] => some none
  | [m] => some (some m.2)
  | _ => none

/-- `Option<String>`: null and a string are accepted, nothing else. -/
def optionString : Json → Option (Option String)
  | .null => some none
  | .string s => some (some s)
  | _ => none

def boolean : Json → Option Bool
  | .bool b => some b
  | _ => none

structure ChatMeta where
  model : Option String
  stream : Bool
  deriving DecidableEq, Repr

/-- The derived decoder. A struct may also be given as an array of its fields in
order; a trailing defaulted field may be missing there. -/
def ChatMeta.decode : Json → Option ChatMeta
  | .object members => do
      let model ← structField members "model"
      let stream ← structField members "stream"
      let model ← (model.map optionString).getD (some none)
      let stream ← (stream.map boolean).getD (some false)
      pure ⟨model, stream⟩
  | .array [model] => do pure ⟨← optionString model, false⟩
  | .array [model, stream] => do pure ⟨← optionString model, ← boolean stream⟩
  | _ => none

structure EmbeddingsMeta where
  model : Option String
  deriving DecidableEq, Repr

def EmbeddingsMeta.decode : Json → Option EmbeddingsMeta
  | .object members => do
      let model ← structField members "model"
      let model ← (model.map optionString).getD (some none)
      pure ⟨model⟩
  | .array [model] => do pure ⟨← optionString model⟩
  | _ => none

/-- What a handler takes from the body before forwarding it. -/
structure Meta where
  virtualModel : String
  stream : Bool
  deriving DecidableEq, Repr

/-- A body that does not decode is read as if every field were absent. -/
def chatMeta (lib : Externals) (body : Bytes) : Meta :=
  let decoded := ((lib.fromSliceAs .chatMeta body).bind ChatMeta.decode).getD ⟨none, false⟩
  ⟨decoded.model.getD "", decoded.stream⟩

def embeddingsMeta (lib : Externals) (body : Bytes) : Meta :=
  let decoded := ((lib.fromSliceAs .embeddingsMeta body).bind EmbeddingsMeta.decode).getD ⟨none⟩
  ⟨decoded.model.getD "", false⟩

def requestMeta (lib : Externals) (req : Request) : Meta :=
  match req.endpoint with
  | .chat => chatMeta lib req.body
  | .embeddings => embeddingsMeta lib req.body

/-- With no keys configured every request runs as the anonymous key. -/
def identify (lib : Externals) (keys : KeyStore) (headers : HeaderMap) :
    Except Response VirtualKey :=
  if keys.isEmpty then .ok VirtualKey.anonymous
  else
    match (bearerToken headers).bind (keys.authenticate lib) with
    | some key => .ok key
    | none => .error (error 401 "missing or invalid virtual key")

/-- Expiry, then the rate limit. `none` lets the request through. -/
def admission (lib : Externals) (limiter : RateLimiter) (key : VirtualKey) (now : Clock) :
    RateLimiter × Option Response :=
  if key.isExpired lib now.utc then (limiter, some (error 401 "virtual key has expired"))
  else
    match key.rateLimitRps with
    | none => (limiter, none)
    | some rps =>
        let r := limiter.check key.identifier rps now.mono
        (r.1, if r.2 then none else some (error 429 "rate limit exceeded"))

/-- The whole middleware: a key to serve the request under, or a refusal. -/
def authenticate (lib : Externals) (keys : KeyStore) (limiter : RateLimiter)
    (headers : HeaderMap) (now : Clock) : RateLimiter × Except Response VirtualKey :=
  match identify lib keys headers with
  | .error refusal => (limiter, .error refusal)
  | .ok key =>
      match admission lib limiter key now with
      | (limiter, some refusal) => (limiter, .error refusal)
      | (limiter, none) => (limiter, .ok key)

/-- The parts of the runtime snapshot the handlers read. -/
structure Runtime where
  pricing : Pricing
  cacheEnabled : Bool
  plugins : List PluginEntry

/-- A request past every gate, with the body the plugins left. -/
structure Prepared where
  endpoint : Endpoint
  key : VirtualKey
  virtualModel : String
  stream : Bool
  idempotencyKey : Option String
  body : Bytes
  deriving DecidableEq, Repr

/-- Model scope, spend limit, plugins, in this order. -/
def gate (rt : Runtime) (tracker : SpendTracker) (key : VirtualKey)
    (req : Request) (info : Meta) (now : ℕ) : Except Response Prepared :=
  if !key.allowsModel info.virtualModel then
    .error (error 403 "virtual key is not allowed to use this model")
  else if (key.spendLimit.any fun limit => !tracker.preCheck key.identifier limit now) then
    .error (error 402 "spend limit exceeded for this period")
  else
    match runPlugins rt.plugins req.endpoint.path info.virtualModel req.body with
    | .ok body =>
        .ok ⟨req.endpoint, key, info.virtualModel, info.stream,
          headerStr req.headers idempotencyHeader, body⟩
    | .error rejection =>
        let status := rejection.info.statusCode
        .error (error (if validStatus status then status else 403) rejection.info.reason)

/-- The default limit of the body extractor, in bytes. -/
def bodyLimit : ℕ := 2097152

/-- What the extractor answers for a longer body. -/
def payloadTooLarge : Response :=
  ⟨413, some "text/plain; charset=utf-8", none,
    .bytes (asBytes "Failed to buffer the request body: length limit exceeded")⟩

/-- The extractor in front of the handler, and the gates. -/
def receive (rt : Runtime) (tracker : SpendTracker) (key : VirtualKey)
    (req : Request) (info : Meta) (now : ℕ) : Except Response Prepared :=
  if bodyLimit < req.body.length then .error payloadTooLarge
  else gate rt tracker key req info now

/-- Streaming requests are not cacheable. -/
def cacheKey (lib : Externals) (p : Prepared) : Option String :=
  if p.stream then none
  else some (cacheKeyFor lib p.key.identifier p.virtualModel p.idempotencyKey p.body)

def cacheLookup (lib : Externals) (rt : Runtime) (cache : ResponseCache) (p : Prepared) :
    Option CachedResponse :=
  if rt.cacheEnabled then (cacheKey lib p).bind cache.get else none

def serveFromCache (cached : CachedResponse) : Response :=
  buildResponse cached.status cached.contentType (.bytes cached.body) .hit

/-- What the runtime's connector is called with. An embeddings call has no
stream flag; it is recorded as `false`. -/
structure ConnectorCall where
  endpoint : Endpoint
  model : String
  stream : Bool
  body : Bytes
  deriving DecidableEq, Repr

def Prepared.call (p : Prepared) : ConnectorCall := ⟨p.endpoint, p.virtualModel, p.stream, p.body⟩

structure ChatResponse where
  status : UInt16
  contentType : Option String
  body : BodyStream
  provider : String
  model : String
  usage : Option Usage
  attempts : UInt32

/-- The charge of a response whose connector reported usage. -/
def settle (rt : Runtime) (tracker : SpendTracker) (p : Prepared) (upstream : ChatResponse)
    (now : ℕ) : SpendTracker :=
  match upstream.usage with
  | some usage =>
      chargeUsage rt.pricing tracker p.key.identifier p.key.spendLimit upstream.provider
        upstream.model usage now
  | none => tracker

/-- Draining stops at the first read error. -/
def collectBody : BodyStream → Except String Bytes
  | [] => .ok []
  | .error e :: _ => .error e
  | .ok chunk :: rest => (collectBody rest).map (chunk ++ ·)

def cachedResponse (upstream : ChatResponse) (body : Bytes) : CachedResponse where
  status := upstream.status
  contentType := upstream.contentType
  body := body
  provider := upstream.provider
  model := upstream.model
  usage := upstream.usage

/-- A response and, for a streamed reply, the observer its body is read through. -/
structure Reply where
  response : Response
  observer : Option UsageObservingStream

/-- Store a cacheable 200 response and answer; otherwise forward the body. -/
def respond (lib : Externals) (rt : Runtime) (cache : ResponseCache) (p : Prepared)
    (upstream : ChatResponse) : ResponseCache × Reply :=
  match cacheKey lib p, rt.cacheEnabled && upstream.status == 200 with
  | some k, true =>
      match collectBody upstream.body with
      | .ok bytes =>
          let cached := cachedResponse upstream bytes
          (cache.insert k cached,
            ⟨buildResponse cached.status cached.contentType (.bytes bytes) .miss, none⟩)
      | .error _ => (cache, ⟨error 502 "failed to read upstream response", none⟩)
  | _, _ =>
      let response := buildResponse upstream.status upstream.contentType
        (.stream upstream.body) .miss
      let observer := UsageObservingStream.new upstream.body p.key.identifier p.key.spendLimit
        upstream.provider upstream.model
      (cache, ⟨response,
        if p.stream && buildable upstream.status upstream.contentType then some observer
        else none⟩)

theorem identify_error {lib : Externals} {keys : KeyStore} {headers : HeaderMap} {r : Response}
    (h : identify lib keys headers = .error r) : r.cache = none := by
  unfold identify at h
  split_ifs at h
  split at h
  · cases h
  · rw [← Except.error.inj h]
    rfl

theorem admission_refusal {lib : Externals} {limiter : RateLimiter} {key : VirtualKey} {now : Clock}
    {r : Response} (h : (admission lib limiter key now).2 = some r) : r.cache = none := by
  unfold admission at h
  split_ifs at h
  · rw [← Option.some.inj h]
    rfl
  · split at h
    · cases h
    · dsimp only at h
      split_ifs at h
      rw [← Option.some.inj h]
      rfl

theorem gate_error {rt : Runtime} {tracker : SpendTracker} {key : VirtualKey} {req : Request}
    {info : Meta} {now : ℕ} {r : Response} (h : gate rt tracker key req info now = .error r) :
    r.cache = none := by
  unfold gate at h
  split_ifs at h
  · rw [← Except.error.inj h]
    rfl
  · rw [← Except.error.inj h]
    rfl
  · split at h
    · cases h
    · rw [← Except.error.inj h]
      rfl

theorem receive_of_fits {rt : Runtime} {tracker : SpendTracker} {key : VirtualKey} {req : Request}
    (h : req.body.length ≤ bodyLimit) (info : Meta) (now : ℕ) :
    receive rt tracker key req info now = gate rt tracker key req info now :=
  if_neg (Nat.not_lt.mpr h)

theorem receive_of_long {rt : Runtime} {tracker : SpendTracker} {key : VirtualKey} {req : Request}
    (h : bodyLimit < req.body.length) (info : Meta) (now : ℕ) :
    receive rt tracker key req info now = .error payloadTooLarge :=
  if_pos h

theorem receive_eq_ok {rt : Runtime} {tracker : SpendTracker} {key : VirtualKey} {req : Request}
    {info : Meta} {now : ℕ} {p : Prepared} (h : receive rt tracker key req info now = .ok p) :
    req.body.length ≤ bodyLimit ∧ gate rt tracker key req info now = .ok p := by
  unfold receive at h
  split_ifs at h with hlong
  exact ⟨Nat.not_lt.mp hlong, h⟩

theorem receive_error {rt : Runtime} {tracker : SpendTracker} {key : VirtualKey} {req : Request}
    {info : Meta} {now : ℕ} {r : Response} (h : receive rt tracker key req info now = .error r) :
    r.cache = none := by
  unfold receive at h
  split_ifs at h
  · rw [← Except.error.inj h]
    rfl
  · exact gate_error h

theorem upstreamErrorResponse_cache (err : CoreError) :
    (upstreamErrorResponse err).cache = none := by
  cases err <;> rfl

theorem buildResponse_cache {status : UInt16} {contentType : Option String} {body : Body}
    {label l : CacheLabel} (h : (buildResponse status contentType body label).cache = some l) :
    buildResponse status contentType body label = ⟨status, contentType, some label, body⟩ ∧
      l = label := by
  unfold buildResponse at h ⊢
  split_ifs at h ⊢
  · exact ⟨rfl, (Option.some.inj h).symm⟩
  · cases h

/-- A reply made from an upstream answer is never marked as a hit. -/
theorem respond_cache (lib : Externals) (rt : Runtime) (cache : ResponseCache) (p : Prepared)
    (upstream : ChatResponse) :
    (respond lib rt cache p upstream).2.response.cache ≠ some .hit := by
  intro h
  unfold respond at h
  split at h
  · split at h
    · cases (buildResponse_cache h).2
    · cases h
  · cases (buildResponse_cache h).2

structure Gateway where
  keys : KeyStore
  limiter : RateLimiter
  tracker : SpendTracker
  cache : ResponseCache

/-- The clock readings of the middleware, of the handler's gates, and after the
upstream answered. -/
structure Clocks where
  admitted : Clock
  gated : Clock
  answered : Clock

structure Outcome where
  gateway : Gateway
  reply : Reply
  calls : List ConnectorCall

abbrev Connector := ConnectorCall → Except CoreError ChatResponse

/-- From a cleared request to its reply. -/
def dispatch (lib : Externals) (rt : Runtime) (connector : Connector) (g : Gateway)
    (p : Prepared) (answered : Clock) : Outcome :=
  match cacheLookup lib rt g.cache p with
  | some cached => ⟨g, ⟨serveFromCache cached, none⟩, []⟩
  | none =>
      match connector p.call with
      | .error err => ⟨g, ⟨upstreamErrorResponse err, none⟩, [p.call]⟩
      | .ok upstream =>
          let tracker := settle rt g.tracker p upstream answered.utc
          let r := respond lib rt g.cache p upstream
          ⟨{ g with tracker := tracker, cache := r.1 }, r.2, [p.call]⟩

/-- The common body of the two handlers, with the extraction of theirs. -/
def handle (lib : Externals) (rt : Runtime) (connector : Connector) (g : Gateway)
    (key : VirtualKey) (req : Request) (info : Meta) (c : Clocks) : Outcome :=
  match receive rt g.tracker key req info c.gated.utc with
  | .error refusal => ⟨g, ⟨refusal, none⟩, []⟩
  | .ok p => dispatch lib rt connector g p c.answered

def chatCompletions (lib : Externals) (rt : Runtime) (connector : Connector) (g : Gateway)
    (key : VirtualKey) (req : Request) (c : Clocks) : Outcome :=
  handle lib rt connector g key req (chatMeta lib req.body) c

def embeddings (lib : Externals) (rt : Runtime) (connector : Connector) (g : Gateway)
    (key : VirtualKey) (req : Request) (c : Clocks) : Outcome :=
  handle lib rt connector g key req (embeddingsMeta lib req.body) c

/-- The middleware around the routed handler. -/
def serve (lib : Externals) (rt : Runtime) (connector : Connector) (g : Gateway)
    (req : Request) (c : Clocks) : Outcome :=
  let (limiter, answer) := authenticate lib g.keys g.limiter req.headers c.admitted
  let g := { g with limiter := limiter }
  match answer, req.endpoint with
  | .error refusal, _ => ⟨g, ⟨refusal, none⟩, []⟩
  | .ok key, .chat => chatCompletions lib rt connector g key req c
  | .ok key, .embeddings => embeddings lib rt connector g key req c

end VaultplaneGateway.ProxyPipeline
