import VaultplaneGateway.ModelListing
import VaultplaneGateway.OfflineKeys
import VaultplaneGateway.PathEncoding
import VaultplaneGateway.SpendReporting
import VaultplaneGateway.TlsReload
import VaultplaneGateway.TransitionRuns

/-!
# The admin API

Two probes are open and seven endpoints lie behind the admin token. The token is compared
byte by byte without an early exit: the differences are collected in one byte, which is
zero at the end exactly if the texts agree.

A request that does not show the token is answered without a look at anything but the
readiness flag, and it changes nothing. It can be struck from any run: neither the state,
nor the audit log, nor what anybody else is answered shows whether it was sent. The rest
of the process works on the same state between two requests, and nothing is assumed about
what it does.
-/
namespace VaultplaneGateway.AdminApi
open WireFormats KeyRecords RateLimiting SpendTracking ProxyPipeline ConfigOverlay RuntimeBuilding
  FailureAtomicity TlsReload OfflineKeys DerivedDecoding StreamUsage LinkStatus TransitionRuns

variable {κ V C K W S : Type}

inductive Method where
  | get | head | post | delete | other
  deriving DecidableEq, Repr

structure AdminRequest where
  method : Method
  path : String
  headers : HeaderMap
  body : Bytes
  deriving DecidableEq, Repr

inductive Content where
  | empty
  | text (body : String)
  | json (body : Json)

structure Reply where
  status : UInt16
  contentType : Option String
  content : Content

namespace Reply

def bare (status : UInt16) : Reply := ⟨status, none, .empty⟩

def text (status : UInt16) (body : String) : Reply :=
  ⟨status, some "text/plain; charset=utf-8", .text body⟩

def json (status : UInt16) (body : Json) : Reply := ⟨status, some "application/json", .json body⟩

def withoutBody (r : Reply) : Reply := { r with content := .empty }

end Reply

inductive Outcome where
  | success | failure
  deriving DecidableEq, Repr

/-- The events of `audit.rs` that the admin API writes. -/
inductive AuditEvent where
  | keyCreated (actor keyId team app env : String)
  | keyRevoked (actor keyId : String) (outcome : Outcome)
  | configReloaded (actor : String) (outcome : Outcome) (detail : String)
  deriving DecidableEq, Repr

def adminActor : String := "admin-api"

/-- The outcome says whether a key matched the id. -/
def AuditEvent.revoked (actor keyId : String) (found : Bool) : AuditEvent :=
  .keyRevoked actor keyId (if found then .success else .failure)

/-- What every handler's copy of the state holds by value. -/
structure AppState where
  startedAt : ℚ
  adminToken : Option String
  listen : Listen
  configPath : Option String

/-- What the handles of the state point to, shared with the rest of the process. -/
structure Shared (κ S : Type) where
  ready : Bool
  process : Process κ S
  controlPlane : StatusHandle

/-- What a request finds outside: the clocks, 32 random bytes, the files, and the
snapshot of the metrics. -/
structure World (κ V C K W S : Type) where
  now : Clock
  entropy : Bytes
  figment : Figment V
  host : Host κ
  tls : TlsHost C K W S
  metrics : String

/-- What other crates do for the handlers. `rejection` is what the extractor of a JSON body
answers before it decodes, for the type of the body or its size. `undecoded` is its answer
to a body that does not decode, and `invalidParam` the answer to a path parameter that is
not UTF-8. -/
structure Web extends Externals where
  rejection : HeaderMap → Bytes → Option Reply
  undecoded : Bytes → Reply
  invalidParam : String → Reply
  rate : Number → ℚ
  float : ℚ → Number

structure Handled (κ S : Type) where
  shared : Shared κ S
  reply : Option Reply
  audit : List AuditEvent

/-- A field that is left out if it is empty. -/
def optional (name : String) : Option Json → List (String × Json)
  | some v => [(name, v)]
  | none => []

def seconds (n : ℕ) : Json := .number (.unsigned (UInt64.ofNat n))

def periodJson (p : Period) : Json := .string (periodLabel p)

def spendLimitJson (web : Web) (limit : SpendLimit) : Json :=
  .object [("amount_usd", .number (web.float limit.amountUsd)), ("period", periodJson limit.period)]

/-- `KeySummary`: the record of a key without its hash. -/
structure KeySummary where
  id : String
  team : String
  app : String
  env : String
  models : List String
  rateLimitRps : Option UInt32
  spendLimit : Option SpendLimit
  expiresAt : Option String
  deriving DecidableEq, Repr

def KeySummary.ofKey (k : VirtualKey) : KeySummary :=
  ⟨k.id, k.team, k.app, k.env, k.models, k.rateLimitRps, k.spendLimit, k.expiresAt⟩

def KeySummary.json (web : Web) (k : KeySummary) : Json :=
  .object ([("id", .string k.id), ("team", .string k.team), ("app", .string k.app),
      ("env", .string k.env), ("models", .array (k.models.map .string))] ++
    optional "rate_limit_rps" (k.rateLimitRps.map count) ++
    optional "spend_limit" (k.spendLimit.map (spendLimitJson web)) ++
    optional "expires_at" (k.expiresAt.map .string))

def listKeysJson (web : Web) (keys : List VirtualKey) : Json :=
  .object [("data", .array (keys.map fun k => (KeySummary.ofKey k).json web))]

def createKeyJson (web : Web) (token : String) (key : VirtualKey) : Json :=
  .object [("token", .string token), ("key", (KeySummary.ofKey key).json web)]

def keySpendJson (web : Web) (r : SpendReporting.KeySpendResponse) : Json :=
  .object ([("key_id", .string r.keyId), ("team", .string r.team), ("app", .string r.app),
      ("env", .string r.env)] ++
    optional "spend" (r.spend.map fun s =>
      .object [("usd", .number (web.float s.usd)), ("period", periodJson s.period)]) ++
    optional "limit" (r.limit.map fun l =>
      .object [("usd", .number (web.float l.usd)), ("period", periodJson l.period),
        ("remaining_usd", .number (web.float l.remainingUsd))]))

def linkStateLabel : LinkState → String
  | .file => "file"
  | .pending => "pending"
  | .synced => "synced"
  | .degraded => "degraded"

def identityJson (i : Identity) : Json :=
  .object [("gateway_id", .string i.gatewayId), ("org_id", .string i.orgId),
    ("group", (i.group.map Json.string).getD .null), ("environment", .string i.environment)]

def lastErrorJson (e : StatusHandle.LastError) : Json :=
  .object [("resource", .string e.resource.asStr), ("reason", .string e.reason.asStr),
    ("detail", .string e.detail), ("seconds_ago", seconds e.secondsAgo)]

def snapshotJson (s : StatusHandle.Snapshot) : Json :=
  .object ([("state", .string (linkStateLabel s.state))] ++
    optional "endpoint" (s.endpoint.map .string) ++
    optional "config_version" (s.configVersion.map .string) ++
    optional "keys_version" (s.keysVersion.map .string) ++
    optional "identity" (s.identity.map identityJson) ++
    optional "last_success_seconds_ago" (s.lastSuccessSecondsAgo.map seconds) ++
    [("consecutive_failures", count s.consecutiveFailures)] ++
    optional "last_error" (s.lastError.map lastErrorJson))

def version : String := "1.0.0"

def statusJson (app : AppState) (s : Shared κ S) (now : ℚ) : Json :=
  .object [("version", .string version),
    ("uptime_seconds", seconds (StatusHandle.secondsAgo now app.startedAt)),
    ("ready", .bool s.ready), ("proxy_address", .string app.listen.address),
    ("admin_address", .string app.listen.adminAddress),
    ("key_count", seconds s.process.keys.list.length),
    ("control_plane", snapshotJson (s.controlPlane.snapshot now))]

/-- The derived decoder of `CreateKeyRequest`: every field has a default. -/
def createKeyRequest (web : Web) (v : Json) : Option CreateKeyRequest := do
  let f ← fieldsOf 7 v
  let team ← f.defaulted 0 "team" "" Json.asStr
  let app ← f.defaulted 1 "app" "" Json.asStr
  let env ← f.defaulted 2 "env" "" Json.asStr
  let models ← f.defaulted 3 "models" [] (vec Json.asStr)
  let rateLimitRps ← f.defaulted 4 "rate_limit_rps" none (nullable u32)
  let limit ← f.defaulted 5 "spend_limit" none (nullable (spendLimit web.rate))
  let expiresAt ← f.defaulted 6 "expires_at" none (nullable Json.asStr)
  pure ⟨team, app, env, models, rateLimitRps, limit, expiresAt⟩

/-- The extractor of the body of `POST /admin/keys`. -/
def extractRequest (web : Web) (headers : HeaderMap) (body : Bytes) :
    Except Reply CreateKeyRequest :=
  match web.rejection headers body with
  | some reply => .error reply
  | none =>
      match (web.fromSliceAs .createKeyRequest body).bind (createKeyRequest web) with
      | some request => .ok request
      | none => .error (web.undecoded body)

def healthz : Reply := .text 200 "ok"

def readyz (ready : Bool) : Reply := if ready then .text 200 "ready" else .text 503 "not ready"

def prometheusContentType : String := "text/plain; version=0.0.4; charset=utf-8"

def metrics (body : String) : Reply := ⟨200, some prometheusContentType, .text body⟩

def createKey (web : Web) (s : Shared κ S) (entropy : Bytes) (headers : HeaderMap)
    (body : Bytes) : Handled κ S :=
  match extractRequest web headers body with
  | .error rejection => ⟨s, some rejection, []⟩
  | .ok request =>
      let generated := generateKey web.toExternals entropy
      let key := OfflineKeys.createKey generated request
      ⟨{ s with process := { s.process with keys := s.process.keys.insert key } },
        some (.json 201 (createKeyJson web generated.token key)),
        [.keyCreated adminActor key.id key.team key.app key.env]⟩

def deleteKey (s : Shared κ S) (id : String) : Handled κ S :=
  match s.process.keys.removeById id with
  | (keys, true) =>
      ⟨{ s with process := { s.process with
          keys := keys
          rateLimiter := s.process.rateLimiter.forget id
          spendTracker := s.process.spendTracker.forget id } },
        some (.bare 204), [.revoked adminActor id true]⟩
  | (_, false) => ⟨s, some (.text 404 "key not found"), [.revoked adminActor id false]⟩

def keySpend (web : Web) (s : Shared κ S) (id : String) (now : ℕ) : Reply :=
  match SpendReporting.keySpend s.process.keys s.process.spendTracker id now with
  | none => .text 404 "key not found"
  | some r => .json 200 (keySpendJson web r)

/-- A panic while the runtime is built takes the request with it. -/
def reloadConfig (app : AppState) (s : Shared κ S) (w : World κ V C K W S) : Handled κ S :=
  match app.configPath with
  | none => ⟨s, some (.text 503
      "config reload requires the gateway to have been started with --config"), []⟩
  | some path =>
      let r := exec (reload w.figment w.host w.tls (some path)) s.process
      let s' := { s with process := r.2 }
      match r.1 with
      | .ok _ =>
          ⟨s', some (.json 200 (.object [("status", .string "reloaded"),
            ("config_path", .string path)])), [.configReloaded adminActor .success path]⟩
      | .error (.error text) =>
          ⟨s', some (.text 400 text), [.configReloaded adminActor .failure text]⟩
      | .error .panic => ⟨s', none, []⟩

inductive Route where
  | healthz | readyz | status | metrics | keys | key (id : String) | keySpend (id : String)
  | models | reload
  deriving DecidableEq, Repr

/-- A parameter of a path is not empty. -/
def route (path : String) : Option Route :=
  match PathEncoding.segments path.toList with
  | some ["admin", "healthz"] => some .healthz
  | some ["admin", "readyz"] => some .readyz
  | some ["admin", "status"] => some .status
  | some ["admin", "metrics"] => some .metrics
  | some ["admin", "keys"] => some .keys
  | some ["admin", "keys", id] => if id = "" then none else some (.key id)
  | some ["admin", "keys", id, "spend"] => if id = "" then none else some (.keySpend id)
  | some ["admin", "models"] => some .models
  | some ["admin", "config", "reload"] => some .reload
  | _ => none

def Route.isProtected : Route → Bool
  | .healthz | .readyz => false
  | _ => true

/-- The parameter as the handler gets it. -/
def pathParam (raw : String) : Option String := fromUtf8 (PathEncoding.percentDecode (asBytes raw))

def unchanged (s : Shared κ S) (reply : Reply) : Handled κ S := ⟨s, some reply, []⟩

/-- The handler of a method; `HEAD` is answered as `GET`, without the body. -/
def handle (web : Web) (app : AppState) (s : Shared κ S) (w : World κ V C K W S)
    (r : AdminRequest) : Route → Handled κ S
  | .healthz => read healthz
  | .readyz => read (readyz s.ready)
  | .status => read (.json 200 (statusJson app s w.now.mono))
  | .metrics => read (metrics w.metrics)
  | .keys =>
      if r.method = .post then createKey web s w.entropy r.headers r.body
      else read (.json 200 (listKeysJson web s.process.keys.list))
  | .key raw =>
      if r.method = .delete then
        match pathParam raw with
        | some id => deleteKey s id
        | none => unchanged s (web.invalidParam raw)
      else unchanged s (.bare 405)
  | .keySpend raw =>
      read (match pathParam raw with
        | some id => keySpend web s id w.now.utc
        | none => web.invalidParam raw)
  | .models => read (.json 200 (ModelListing.adminListModels s.process.runtime))
  | .reload => if r.method = .post then reloadConfig app s w else unchanged s (.bare 405)
where
  read (reply : Reply) : Handled κ S :=
    unchanged s (match r.method with
      | .get => reply
      | .head => reply.withoutBody
      | _ => .bare 405)

/-- Two texts of one length differ where the collected difference is not zero. -/
def constantTimeEq (a b : Bytes) : Bool :=
  if a.length ≠ b.length then false
  else ((a.zip b).foldl (fun diff p => diff ||| (p.1 ^^^ p.2)) 0) == 0

def authorized (app : AppState) (headers : HeaderMap) : Bool :=
  match app.adminToken with
  | none => true
  | some expected =>
      ((bearerToken headers).map fun token =>
        constantTimeEq (asBytes token) (asBytes expected)).getD false

/-- `router` with `require_admin_token` in front of the protected endpoints. -/
def serve (web : Web) (app : AppState) (s : Shared κ S) (w : World κ V C K W S)
    (r : AdminRequest) : Handled κ S :=
  match route r.path with
  | none => unchanged s (.bare 404)
  | some endpoint =>
      if endpoint.isProtected && !authorized app r.headers then
        unchanged s (.text 401 "unauthorized")
      else handle web app s w r endpoint

/-- No bit is ever taken back. -/
theorem collected_eq_zero (pairs : List (UInt8 × UInt8)) (diff : UInt8) :
    pairs.foldl (fun diff p => diff ||| (p.1 ^^^ p.2)) diff = 0 ↔
      diff = 0 ∧ ∀ p ∈ pairs, p.1 = p.2 := by
  induction pairs generalizing diff with
  | nil => simp
  | cons p pairs ih =>
      rw [List.foldl_cons, ih, UInt8.or_eq_zero_iff, UInt8.xor_eq_zero_iff, List.forall_mem_cons,
        and_assoc]

theorem forall_zip_eq {a b : Bytes} (hlen : a.length = b.length)
    (h : ∀ p ∈ a.zip b, p.1 = p.2) : a = b := by
  induction a generalizing b with
  | nil => exact (List.eq_nil_of_length_eq_zero hlen.symm).symm
  | cons x a ih =>
      cases b with
      | nil => cases hlen
      | cons y b =>
          have hxy : x = y := h (x, y) List.mem_cons_self
          have htail := ih (Nat.succ_inj.mp hlen) fun p hp => h p (List.mem_cons_of_mem _ hp)
          rw [hxy, htail]

theorem constantTimeEq_iff (a b : Bytes) : constantTimeEq a b = true ↔ a = b := by
  unfold constantTimeEq
  split_ifs with hlen
  · simp only [false_iff]
    rintro rfl
    exact hlen rfl
  · rw [beq_iff_eq, collected_eq_zero]
    constructor
    · intro h
      exact forall_zip_eq (not_not.mp hlen) h.2
    · rintro rfl
      refine ⟨rfl, fun p hp => ?_⟩
      rw [List.zip_eq_zipWith, List.zipWith_self, List.mem_map] at hp
      obtain ⟨x, -, rfl⟩ := hp
      rfl

theorem toStr_eq_some_iff {value : Bytes} {text : String} :
    toStr value = some text ↔ value = asBytes text ∧ (asBytes text).all visibleAscii = true := by
  constructor
  · intro h
    have hbytes := asBytes_of_toStr h
    rw [hbytes]
    refine ⟨rfl, ?_⟩
    unfold toStr at h
    split_ifs at h with hv
    exact hv
  · rintro ⟨rfl, hv⟩
    have hsome : toStr (asBytes text) = some _ := if_pos hv
    rw [hsome, asBytes_injective (asBytes_of_toStr hsome)]

theorem stripPrefix_eq_some_iff {text pre rest : String} :
    stripPrefix text pre = some rest ↔ text = pre ++ rest := by
  constructor
  · intro h
    unfold stripPrefix at h
    split_ifs at h with hpre
    obtain ⟨tail, htail⟩ := List.isPrefixOf_iff_prefix.mp hpre
    rw [← Option.some.inj h, ← htail, List.drop_left]
    apply String.toList_inj.mp
    rw [← htail, String.toList_append, String.toList_ofList]
  · rintro rfl
    exact stripPrefix_append pre rest

/-- A request has the bearer token `token` if its first authorization header consists of
the scheme, one blank and the token, which has to be visible. -/
theorem bearerToken_eq_some_iff {headers : HeaderMap} {token : String} :
    bearerToken headers = some token ↔
      headers.get "authorization" = some (asBytes ("Bearer " ++ token)) ∧
        (asBytes token).all visibleAscii = true := by
  have hvisible : (asBytes ("Bearer " ++ token)).all visibleAscii =
      (asBytes token).all visibleAscii := by
    rw [EventStreams.asBytes_append, List.all_append, show (asBytes "Bearer ").all visibleAscii = true by
      decide +kernel, Bool.true_and]
  simp only [bearerToken, Option.bind_eq_bind, Option.bind_eq_some_iff, toStr_eq_some_iff,
    stripPrefix_eq_some_iff]
  constructor
  · rintro ⟨value, hvalue, text, ⟨rfl, hv⟩, rfl⟩
    exact ⟨hvalue, hvisible ▸ hv⟩
  · rintro ⟨hvalue, hv⟩
    exact ⟨_, hvalue, _, ⟨rfl, hvisible.trans hv⟩, rfl⟩

/-- The request shows exactly the configured token. -/
theorem authorized_iff {app : AppState} {expected : String}
    (hexpected : app.adminToken = some expected) (headers : HeaderMap) :
    authorized app headers = true ↔
      headers.get "authorization" = some (asBytes ("Bearer " ++ expected)) ∧
        (asBytes expected).all visibleAscii = true := by
  rw [← bearerToken_eq_some_iff]
  unfold authorized
  rw [hexpected]
  dsimp only
  cases bearerToken headers with
  | none => simp
  | some token =>
      rw [Option.map_some, Option.getD_some, constantTimeEq_iff, asBytes_injective.eq_iff,
        Option.some.injEq]

/-- A request arrives, or another part of the process works on the shared state. -/
inductive Event (κ V C K W S : Type) where
  | request (w : World κ V C K W S) (r : AdminRequest)
  | background (work : Shared κ S → Shared κ S)

/-- The state, with the replies given and the audit events written so far. -/
structure Trace (κ S : Type) where
  shared : Shared κ S
  replies : List (AdminRequest × Option Reply)
  audit : List AuditEvent

def next (web : Web) (app : AppState) (t : Trace κ S) : Event κ V C K W S → Trace κ S
  | .request w r =>
      let h := serve web app t.shared w r
      ⟨h.shared, t.replies ++ [(r, h.reply)], t.audit ++ h.audit⟩
  | .background work => { t with shared := work t.shared }

/-- Everything but a request without the token. -/
def admitted (app : AppState) : Event κ V C K W S → Bool
  | .request _ r => authorized app r.headers
  | .background _ => true

/-- What a request without the token is told. -/
def outsiderReply (ready : Bool) (r : AdminRequest) : Reply :=
  let read (reply : Reply) : Reply :=
    match r.method with
    | .get => reply
    | .head => reply.withoutBody
    | _ => .bare 405
  match route r.path with
  | none => .bare 404
  | some .healthz => read healthz
  | some .readyz => read (readyz ready)
  | some _ => .text 401 "unauthorized"

theorem serve_outsider (web : Web) {app : AppState} (s : Shared κ S) (w : World κ V C K W S)
    {r : AdminRequest} (h : authorized app r.headers = false) :
    serve web app s w r = unchanged s (outsiderReply s.ready r) := by
  unfold serve outsiderReply
  cases route r.path with
  | none => rfl
  | some endpoint =>
      rw [h]
      cases endpoint <;> rfl

/-- The two traces agree up to the replies to requests without the token. -/
def SameForInsiders (app : AppState) (t u : Trace κ S) : Prop :=
  t.shared = u.shared ∧ t.audit = u.audit ∧
    t.replies.filter (fun p => authorized app p.1.headers) = u.replies

/-- Requests without the token can be struck from any run. What is left of it reaches the
same state, writes the same audit log and gets the same replies. Each of them is told what
anybody may know, at most whether the gateway was ready. The token is shown by the exact
bytes of the header, so that a token with a byte that no header can show lets nobody in. -/
theorem outsiders_leave_no_trace (web : Web) (app : AppState) (expected : String)
    (hexpected : app.adminToken = some expected) (s : Shared κ S)
    (es : List (Event κ V C K W S)) :
    SameForInsiders app (run (next web app) ⟨s, [], []⟩ es)
        (run (next web app) ⟨s, [], []⟩ (es.filter (admitted app))) ∧
      (∀ p ∈ (run (next web app) ⟨s, [], []⟩ es).replies, authorized app p.1.headers = false →
        ∃ ready, p.2 = some (outsiderReply ready p.1)) ∧
      ∀ headers, authorized app headers = true ↔
        headers.get "authorization" = some (asBytes ("Bearer " ++ expected)) ∧
          (asBytes expected).all visibleAscii = true := by
  refine ⟨?_, ?_, authorized_iff hexpected⟩
  · apply run_filter_related
    · intro e _ hout t u htu
      cases e with
      | background work => cases hout
      | request w r =>
          have hout' : authorized app r.headers = false := hout
          obtain ⟨hshared, haudit, hreplies⟩ := htu
          refine ⟨?_, ?_, ?_⟩
          · simpa only [next, serve_outsider web t.shared w hout', unchanged] using hshared
          · simpa only [next, serve_outsider web t.shared w hout', unchanged, List.append_nil]
              using haudit
          · rw [next, List.filter_append, hreplies]
            simp [hout']
    · intro e _ hin t u htu
      obtain ⟨hshared, haudit, hreplies⟩ := htu
      cases e with
      | background work => exact ⟨by rw [next, next, hshared], haudit, hreplies⟩
      | request w r =>
          have hin' : authorized app r.headers = true := hin
          refine ⟨by rw [next, next, hshared], by rw [next, next, hshared, haudit], ?_⟩
          rw [next, next, List.filter_append, hreplies, hshared]
          simp [hin']
    · exact ⟨rfl, rfl, rfl⟩
  · apply run_invariant (next web app) fun t => ∀ p ∈ t.replies,
      authorized app p.1.headers = false → ∃ ready, p.2 = some (outsiderReply ready p.1)
    · intro t e _ ih
      cases e with
      | background work => exact ih
      | request w r =>
          intro p hp hout
          rcases List.mem_append.mp hp with hold | hnew
          · exact ih p hold hout
          · obtain rfl := List.mem_singleton.mp hnew
            exact ⟨t.shared.ready, by rw [serve_outsider web t.shared w hout]; rfl⟩
    · intro p hp
      cases hp

section Sample

/-- The only body that is read is the empty object, and hashes are the texts themselves. -/
def sampleWeb : Web where
  sha256 := id
  fromSlice _ := none
  fromSliceAs _ body := if body = asBytes "\x7b\x7d" then some (.object []) else none
  parseRfc3339 _ := none
  rejection _ _ := none
  undecoded _ := .bare 400
  invalidParam _ := .bare 400
  rate _ := 0
  float _ := .unsigned 0

def sampleApp : AppState := ⟨0, some "s3cret", {}, some "vp.yaml"⟩

def sampleShared : Shared Unit (List UInt8) := ⟨true, sampleProcess, StatusHandle.file⟩

def sampleWorld (entropy : Bytes) : World Unit Unit UInt8 UInt8 (List UInt8) (List UInt8) :=
  ⟨⟨0, 0⟩, entropy, decodedFile {}, RuntimeBuilding.sampleHost, listHost certFiles, ""⟩

/-- A revocation without the token and one with another token. -/
theorem revocation_attempts_leave_no_trace :
    let attempt (headers : HeaderMap) : Event Unit Unit UInt8 UInt8 (List UInt8) (List UInt8) :=
      .request (sampleWorld []) ⟨.delete, "/admin/keys/vp_a", headers, []⟩
    let attempts := [attempt [], attempt [("authorization", asBytes "Bearer s3cres")]]
    sampleApp.adminToken = some "s3cret" ∧ attempts.filter (admitted sampleApp) = [] ∧
      SameForInsiders sampleApp (run (next sampleWeb sampleApp) ⟨sampleShared, [], []⟩ attempts)
        (run (next sampleWeb sampleApp) ⟨sampleShared, [], []⟩
          (attempts.filter (admitted sampleApp))) := by
  intro attempt attempts
  refine ⟨rfl, ?_, ?_⟩
  · rfl
  · exact (outsiders_leave_no_trace sampleWeb sampleApp "s3cret" rfl sampleShared attempts).1

end Sample

end VaultplaneGateway.AdminApi
