import VaultplaneGateway.ConfigOverlay
import VaultplaneGateway.LinkStatus
import VaultplaneGateway.TransitionRuns

/-!
# The Control Node client

One tick polls `/config`, then `/keys`, then records both outcomes. The Control
Node may answer each poll with anything: no response, any status, any headers and
body. The runtime is an opaque value that a builder makes from a configuration or
refuses to make; decoding a body is left to the two decoders.

A run of ticks is summarised by the last answer of each resource that was
applied. The summary needs no intermediate state: what earlier bundles and key
sets contained does not matter.
-/
namespace VaultplaneGateway.ControlNodeClient
open WireFormats KeyRecords ConfigOverlay LinkStatus TransitionRuns

/-- Reading the body may fail after the head has arrived. -/
structure HttpResponse where
  status : UInt16
  headers : HeaderMap
  body : Except String Bytes

/-- A response, or the text of the transport error. -/
abbrev Answer := Except String HttpResponse

structure HttpRequest where
  url : String
  bearer : String
  ifNoneMatch : Option String
  deriving DecidableEq, Repr

/-- What the client uses of other code: the decoders of the two bodies, the text
of a status code, the runtime builder, and the node's own configuration. -/
structure Environment (ρ : Type*) where
  decodeConfig : Bytes → Except String Dto.GatewayConfig
  decodeKeys : Bytes → Except String Dto.KeySet
  statusText : UInt16 → String
  buildRuntime : Config → Except String ρ
  base : Config

inductive Fetch (T : Type*) where
  | modified (body : T) (etag : Option String)
  | notModified

structure Client where
  configUrl : String
  keysUrl : String
  token : String
  configEtag : Option String
  keysEtag : Option String
  status : StatusHandle
  deriving DecidableEq, Repr

def Client.url (c : Client) : Resource → String
  | .config => c.configUrl
  | .keys => c.keysUrl

def Client.etag (c : Client) : Resource → Option String
  | .config => c.configEtag
  | .keys => c.keysEtag

/-- `endpoint.trim_end_matches('/')`. -/
def trimSlashes (endpoint : String) : String :=
  String.ofList (endpoint.toList.reverse.dropWhile (· = '/')).reverse

def Client.new (endpoint token : String) (status : StatusHandle) : Client where
  configUrl := trimSlashes endpoint ++ "/config"
  keysUrl := trimSlashes endpoint ++ "/keys"
  token := token
  configEtag := none
  keysEtag := none
  status := status

/-- The conditional request of a poll. -/
def Client.request (c : Client) (r : Resource) : HttpRequest := ⟨c.url r, c.token, c.etag r⟩

/-- The tag of a response: the `ETag` header if it is a string. -/
def etagOf (response : HttpResponse) : Option String := (response.headers.get "etag").bind toStr

def unauthorizedDetail : String :=
  "401 Unauthorized (check control_plane.token_env / token rotation)"

def Client.fetch {T : Type*} (c : Client) (statusText : UInt16 → String) (r : Resource)
    (decode : Bytes → Except String T) (answer : Answer) : Except SyncFailure (Fetch T) :=
  match answer with
  | .error err => .error ⟨r, .transport, err⟩
  | .ok response =>
      if response.status = 200 then
        match response.body.bind decode with
        | .ok body => .ok (.modified body (etagOf response))
        | .error err => .error ⟨r, .invalidBody, err⟩
      else if response.status = 304 then .ok .notModified
      else if response.status = 401 then .error ⟨r, .unauthorized, unauthorizedDetail⟩
      else
        .error ⟨r, .unexpectedStatus, "control node returned unexpected status " ++
          statusText response.status ++ " for " ++ c.url r⟩

/-- The client and the two stores it writes. -/
structure World (ρ : Type*) where
  client : Client
  runtime : ρ
  keys : KeyStore

variable {ρ : Type*}

def pollConfig (env : Environment ρ) (w : World ρ) (answer : Answer) :
    World ρ × StatusHandle.Polled :=
  match w.client.fetch env.statusText .config env.decodeConfig answer with
  | .error failure => (w, .error failure)
  | .ok .notModified => (w, .ok none)
  | .ok (.modified bundle etag) =>
      match env.buildRuntime (applyConfig env.base bundle) with
      | .ok runtime =>
          ({ w with runtime := runtime, client := { w.client with configEtag := etag } },
            .ok (some bundle.version))
      | .error err =>
          (w, .error ⟨.config, .buildFailed, "config " ++ bundle.version ++ ": " ++ err⟩)

def pollKeys (env : Environment ρ) (w : World ρ) (answer : Answer) :
    World ρ × StatusHandle.Polled :=
  match w.client.fetch env.statusText .keys env.decodeKeys answer with
  | .error failure => (w, .error failure)
  | .ok .notModified => (w, .ok none)
  | .ok (.modified set etag) =>
      ({ w with
          keys := w.keys.replaceAll (toVirtualKeys set.keys)
          client := { w.client with keysEtag := etag } },
        .ok (some set.version))

/-- The answers to the two polls of a tick and the time it is recorded. -/
structure Tick where
  config : Answer
  keys : Answer
  now : ℚ

def tick (env : Environment ρ) (w : World ρ) (t : Tick) : World ρ × Transition :=
  let c := pollConfig env w t.config
  let k := pollKeys env c.1 t.keys
  let r := k.1.client.status.recordTick c.2 k.2 t.now
  ({ k.1 with client := { k.1.client with status := r.1 } }, r.2)

/-- One tick as a step of the world; the transition goes to the audit log. -/
def step (env : Environment ρ) (w : World ρ) (t : Tick) : World ρ := (tick env w t).1

/-- A 200 answer whose body decodes. -/
def delivered {T : Type*} (decode : Bytes → Except String T) : Answer → Option (T × HttpResponse)
  | .error _ => none
  | .ok response =>
      if response.status = 200 then
        match response.body.bind decode with
        | .ok body => some (body, response)
        | .error _ => none
      else none

/-- A bundle that was fetched and built, with the runtime and its response. -/
def appliedConfig (env : Environment ρ) (answer : Answer) :
    Option (Dto.GatewayConfig × HttpResponse × ρ) :=
  (delivered env.decodeConfig answer).bind fun d =>
    match env.buildRuntime (applyConfig env.base d.1) with
    | .ok runtime => some (d.1, d.2, runtime)
    | .error _ => none

/-- Every key set that is fetched is applied. -/
def appliedKeys (env : Environment ρ) (answer : Answer) : Option (Dto.KeySet × HttpResponse) :=
  delivered env.decodeKeys answer

theorem fetch_cases {T : Type*} (c : Client) (statusText : UInt16 → String) (r : Resource)
    (decode : Bytes → Except String T) (answer : Answer) :
    (∃ body response, delivered decode answer = some (body, response) ∧
      c.fetch statusText r decode answer = .ok (.modified body (etagOf response))) ∨
    (delivered decode answer = none ∧ (c.fetch statusText r decode answer = .ok .notModified ∨
      ∃ failure, failure.resource = r ∧ c.fetch statusText r decode answer = .error failure)) := by
  unfold Client.fetch delivered
  cases answer with
  | error err => exact .inr ⟨rfl, .inr ⟨_, rfl, rfl⟩⟩
  | ok response =>
      by_cases h200 : response.status = 200
      · cases hbody : response.body.bind decode with
        | ok body => exact .inl ⟨body, response, by simp [h200, hbody], by simp [h200, hbody]⟩
        | error err => exact .inr ⟨by simp [h200, hbody], .inr (by simp [h200, hbody])⟩
      · refine .inr ⟨by simp [h200], ?_⟩
        by_cases h304 : response.status = 304
        · exact .inl (by simp [h304])
        · by_cases h401 : response.status = 401
          · exact .inr (by simp [h401])
          · exact .inr (by simp [h200, h304, h401])

/-- A poll of `/config` applies its bundle or leaves the world as it was. -/
theorem pollConfig_cases (env : Environment ρ) (w : World ρ) (answer : Answer) :
    (∃ bundle response runtime, appliedConfig env answer = some (bundle, response, runtime) ∧
      pollConfig env w answer =
        ({ w with runtime := runtime, client := { w.client with configEtag := etagOf response } },
          .ok (some bundle.version))) ∨
    (appliedConfig env answer = none ∧ ∃ outcome, (outcome = .ok none ∨
      ∃ failure, outcome = .error failure) ∧ pollConfig env w answer = (w, outcome)) := by
  unfold pollConfig appliedConfig
  rcases fetch_cases w.client env.statusText .config env.decodeConfig answer with
    ⟨bundle, response, hdel, hfetch⟩ | ⟨hdel, hfetch | ⟨failure, -, hfetch⟩⟩
  · cases hbuild : env.buildRuntime (applyConfig env.base bundle) with
    | ok runtime =>
        exact .inl ⟨bundle, response, runtime, by simp [hdel, hbuild], by simp [hfetch, hbuild]⟩
    | error err =>
        exact .inr ⟨by simp [hdel, hbuild], by simp [hfetch, hbuild]⟩
  · exact .inr ⟨by simp [hdel], by simp [hfetch]⟩
  · exact .inr ⟨by simp [hdel], by simp [hfetch]⟩

theorem pollKeys_cases (env : Environment ρ) (w : World ρ) (answer : Answer) :
    (∃ set response, appliedKeys env answer = some (set, response) ∧
      pollKeys env w answer =
        ({ w with
            keys := KeyStore.new (toVirtualKeys set.keys)
            client := { w.client with keysEtag := etagOf response } },
          .ok (some set.version))) ∨
    (appliedKeys env answer = none ∧ ∃ outcome, (outcome = .ok none ∨
      ∃ failure, outcome = .error failure) ∧ pollKeys env w answer = (w, outcome)) := by
  unfold pollKeys appliedKeys
  rcases fetch_cases w.client env.statusText .keys env.decodeKeys answer with
    ⟨set, response, hdel, hfetch⟩ | ⟨hdel, hfetch | ⟨failure, -, hfetch⟩⟩
  · exact .inl ⟨set, response, hdel, by simp [hfetch, KeyStore.replaceAll]⟩
  · exact .inr ⟨hdel, by simp [hfetch]⟩
  · exact .inr ⟨hdel, by simp [hfetch]⟩

/-- What a tick writes for `/config`: runtime and tag together. -/
def configWrite (env : Environment ρ) (t : Tick) : Option (ρ × Option String) :=
  (appliedConfig env t.config).map fun a => (a.2.2, etagOf a.2.1)

def keysWrite (env : Environment ρ) (t : Tick) : Option (KeyStore × Option String) :=
  (appliedKeys env t.keys).map fun a => (KeyStore.new (toVirtualKeys a.1.keys), etagOf a.2)

/-- A tick overwrites the runtime and its tag together or leaves both alone,
whatever happens to the keys. -/
theorem step_config (env : Environment ρ) (w : World ρ) (t : Tick) :
    ((step env w t).runtime, (step env w t).client.configEtag) =
      (configWrite env t).getD (w.runtime, w.client.configEtag) := by
  have hkeys : ∀ v : World ρ, (pollKeys env v t.keys).1.runtime = v.runtime ∧
      (pollKeys env v t.keys).1.client.configEtag = v.client.configEtag := by
    intro v
    rcases pollKeys_cases env v t.keys with ⟨_, _, -, h⟩ | ⟨-, _, -, h⟩ <;> simp [h]
  unfold step tick configWrite
  simp only [hkeys]
  rcases pollConfig_cases env w t.config with ⟨b, r, ρ', ha, h⟩ | ⟨ha, _, -, h⟩
  · simp [ha, h]
  · simp [ha, h]

theorem step_keys (env : Environment ρ) (w : World ρ) (t : Tick) :
    ((step env w t).keys, (step env w t).client.keysEtag) =
      (keysWrite env t).getD (w.keys, w.client.keysEtag) := by
  have hconfig : (pollConfig env w t.config).1.keys = w.keys ∧
      (pollConfig env w t.config).1.client.keysEtag = w.client.keysEtag := by
    rcases pollConfig_cases env w t.config with ⟨_, _, _, -, h⟩ | ⟨-, _, -, h⟩ <;> simp [h]
  unfold step tick keysWrite
  rcases pollKeys_cases env (pollConfig env w t.config).1 t.keys with
    ⟨set, r, ha, h⟩ | ⟨ha, _, -, h⟩
  · simp [ha, h]
  · simp [ha, h, hconfig]

theorem runtime_of_appliedConfig {env : Environment ρ} {answer : Answer}
    {bundle : Dto.GatewayConfig} {response : HttpResponse} {runtime : ρ}
    (h : appliedConfig env answer = some (bundle, response, runtime)) :
    env.buildRuntime (applyConfig env.base bundle) = .ok runtime := by
  obtain ⟨⟨b, r⟩, -, hd⟩ := Option.bind_eq_some_iff.mp h
  dsimp only at hd
  split at hd
  · rename_i rt hbuild
    cases hd
    exact hbuild
  · cases hd

/-- The stored tag is the `ETag` header of the response, byte for byte. A header
that is no visible ASCII text counts as absent. -/
def Tagged (response : HttpResponse) : Option String → Prop
  | some etag => response.headers.get "etag" = some (asBytes etag)
  | none => ∀ value, response.headers.get "etag" = some value → value.all visibleAscii = false

theorem tagged_etagOf (response : HttpResponse) : Tagged response (etagOf response) := by
  unfold etagOf
  cases hget : response.headers.get "etag" with
  | none => exact fun value hv => by rw [hget] at hv; cases hv
  | some value =>
      cases hstr : toStr value with
      | some etag =>
          simp only [Option.bind_some, hstr, Tagged, hget, asBytes_of_toStr hstr]
      | none =>
          simp only [Option.bind_some, hstr, Tagged, hget, Option.some.injEq, forall_eq']
          unfold toStr at hstr
          split_ifs at hstr with hall
          exact Bool.eq_false_iff.mpr hall

/-- The last bundle that a list of ticks fetched and built. -/
def lastConfig (env : Environment ρ) (ticks : List Tick) :
    Option (Dto.GatewayConfig × HttpResponse × ρ) :=
  lastWrite (fun t => appliedConfig env t.config) ticks

/-- The last key set that a list of ticks fetched. -/
def lastKeys (env : Environment ρ) (ticks : List Tick) : Option (Dto.KeySet × HttpResponse) :=
  lastWrite (fun t => appliedKeys env t.keys) ticks

theorem run_config (env : Environment ρ) (w : World ρ) (ticks : List Tick) :
    ((run (step env) w ticks).runtime, (run (step env) w ticks).client.configEtag) =
      ((lastConfig env ticks).map fun a => (a.2.2, etagOf a.2.1)).getD
        (w.runtime, w.client.configEtag) := by
  rw [lastConfig, ← lastWrite_map]
  exact run_lastWrite (step env) (fun w => (w.runtime, w.client.configEtag)) (configWrite env)
    (step_config env) w ticks

theorem run_keys (env : Environment ρ) (w : World ρ) (ticks : List Tick) :
    ((run (step env) w ticks).keys, (run (step env) w ticks).client.keysEtag) =
      ((lastKeys env ticks).map fun a =>
        (KeyStore.new (toVirtualKeys a.1.keys), etagOf a.2)).getD (w.keys, w.client.keysEtag) := by
  rw [lastKeys, ← lastWrite_map]
  exact run_lastWrite (step env) (fun w => (w.keys, w.client.keysEtag)) (keysWrite env)
    (step_keys env) w ticks

/-- A poll that failed applied nothing. -/
theorem appliedConfig_of_error {env : Environment ρ} {w : World ρ} {answer : Answer}
    {failure : SyncFailure} (h : (pollConfig env w answer).2 = .error failure) :
    appliedConfig env answer = none := by
  rcases pollConfig_cases env w answer with ⟨_, _, _, -, heq⟩ | ⟨hnone, -⟩
  · rw [heq] at h
    cases h
  · exact hnone

theorem appliedKeys_of_error {env : Environment ρ} {w : World ρ} {answer : Answer}
    {failure : SyncFailure} (h : (pollKeys env w answer).2 = .error failure) :
    appliedKeys env answer = none := by
  rcases pollKeys_cases env w answer with ⟨_, _, -, heq⟩ | ⟨hnone, -⟩
  · rw [heq] at h
    cases h
  · exact hnone

/-- A failed poll of `/config` leaves runtime and tag alone, whatever the poll of
`/keys` in the same tick does. -/
theorem step_config_of_error {env : Environment ρ} {w : World ρ} {t : Tick}
    {failure : SyncFailure} (h : (pollConfig env w t.config).2 = .error failure) :
    (step env w t).runtime = w.runtime ∧
      (step env w t).client.configEtag = w.client.configEtag := by
  have hstep := step_config env w t
  rw [configWrite, appliedConfig_of_error h] at hstep
  exact Prod.mk.inj hstep

theorem step_keys_of_error {env : Environment ρ} {w : World ρ} {t : Tick}
    {failure : SyncFailure}
    (h : (pollKeys env (pollConfig env w t.config).1 t.keys).2 = .error failure) :
    (step env w t).keys = w.keys ∧ (step env w t).client.keysEtag = w.client.keysEtag := by
  have hstep := step_keys env w t
  rw [keysWrite, appliedKeys_of_error h] at hstep
  exact Prod.mk.inj hstep

/-- What is in use after some ticks, by the last bundle among them. -/
theorem run_config_last (env : Environment ρ) (w : World ρ) (ticks : List Tick) :
    match lastConfig env ticks with
    | none => (run (step env) w ticks).runtime = w.runtime ∧
        (run (step env) w ticks).client.configEtag = w.client.configEtag
    | some (bundle, response, _) =>
        env.buildRuntime (applyConfig env.base bundle) = .ok (run (step env) w ticks).runtime ∧
          Tagged response (run (step env) w ticks).client.configEtag := by
  have hrun := run_config env w ticks
  cases hlast : lastConfig env ticks with
  | none =>
      rw [hlast] at hrun
      exact Prod.mk.inj hrun
  | some a =>
      obtain ⟨bundle, response, rt⟩ := a
      rw [hlast] at hrun
      obtain ⟨hrt, htag⟩ := Prod.mk.inj hrun
      obtain ⟨t, -, ht⟩ := exists_of_lastWrite _ _ hlast
      dsimp only
      rw [hrt, htag]
      exact ⟨runtime_of_appliedConfig ht, tagged_etagOf response⟩

theorem run_keys_last (env : Environment ρ) (w : World ρ) (ticks : List Tick) :
    match lastKeys env ticks with
    | none => (run (step env) w ticks).keys = w.keys ∧
        (run (step env) w ticks).client.keysEtag = w.client.keysEtag
    | some (set, response) =>
        (run (step env) w ticks).keys = KeyStore.new (toVirtualKeys set.keys) ∧
          Tagged response (run (step env) w ticks).client.keysEtag := by
  have hrun := run_keys env w ticks
  cases hlast : lastKeys env ticks with
  | none =>
      rw [hlast] at hrun
      exact Prod.mk.inj hrun
  | some a =>
      obtain ⟨set, response⟩ := a
      rw [hlast] at hrun
      obtain ⟨hkeys, htag⟩ := Prod.mk.inj hrun
      dsimp only
      rw [hkeys, htag]
      exact ⟨rfl, tagged_etagOf response⟩

/-- After any ticks the runtime is the initial one or built from the last bundle
that could be built, the key store is the initial one or the last key set, and
each tag belongs to the response that delivered what is in use. A poll that fails
leaves its value and tag as they were, whatever the other poll does, and the next
conditional request names the tag of what was applied. -/
theorem last_known_good (env : Environment ρ) (endpoint token : String) (status : StatusHandle)
    (runtime : ρ) (keys : KeyStore) (ticks : List Tick) :
    let w := run (step env) ⟨Client.new endpoint token status, runtime, keys⟩ ticks
    (match lastConfig env ticks with
      | none => w.runtime = runtime ∧ w.client.configEtag = none
      | some (bundle, response, _) =>
          env.buildRuntime (applyConfig env.base bundle) = .ok w.runtime ∧
            Tagged response w.client.configEtag) ∧
    (match lastKeys env ticks with
      | none => w.keys = keys ∧ w.client.keysEtag = none
      | some (set, response) =>
          w.keys = KeyStore.new (toVirtualKeys set.keys) ∧ Tagged response w.client.keysEtag) ∧
    (∀ t failure, (pollConfig env w t.config).2 = .error failure →
      (step env w t).runtime = w.runtime ∧
        (step env w t).client.configEtag = w.client.configEtag) ∧
    (∀ t failure, (pollKeys env (pollConfig env w t.config).1 t.keys).2 = .error failure →
      (step env w t).keys = w.keys ∧ (step env w t).client.keysEtag = w.client.keysEtag) ∧
    (w.client.request .config).ifNoneMatch = (lastConfig env ticks).bind (fun a => etagOf a.2.1) ∧
    (w.client.request .keys).ifNoneMatch = (lastKeys env ticks).bind (fun a => etagOf a.2) := by
  intro w
  have hconfig := run_config env ⟨Client.new endpoint token status, runtime, keys⟩ ticks
  have hkeys := run_keys env ⟨Client.new endpoint token status, runtime, keys⟩ ticks
  refine ⟨run_config_last env _ ticks, run_keys_last env _ ticks,
    fun _ _ => step_config_of_error, fun _ _ => step_keys_of_error, ?_, ?_⟩
  -- the tag that is sent is the tag that is stored
  · change w.client.configEtag = _
    rw [(Prod.mk.inj hconfig).2]
    cases lastConfig env ticks <;> rfl
  · change w.client.keysEtag = _
    rw [(Prod.mk.inj hkeys).2]
    cases lastKeys env ticks <;> rfl

/-- The smallest bundle, version `v1`, and its text. -/
def emptyBundle : Dto.GatewayConfig := ⟨"v1", [], ⟨none, none, none, none⟩, none, [], none⟩

def emptyBundleText : Bytes := asBytes "\x7b \"version\": \"v1\" \x7d"

/-- Every configuration builds; the runtime is the configuration itself. -/
def plainEnvironment : Environment Config where
  decodeConfig b := if b = emptyBundleText then .ok emptyBundle else .error "expected value"
  decodeKeys _ := .error "expected value"
  statusText _ := ""
  buildRuntime := .ok
  base := {}

/-- The quoted Latin-1 letter e acute: a valid entity tag, and not ASCII. -/
def latinTag : Bytes := [0x22, 0xE9, 0x22]

def latinTick : Tick := ⟨.ok ⟨200, [("etag", latinTag)], .ok emptyBundleText⟩, .error "refused", 0⟩

/-- The bundle is applied and its response has an `ETag`, but no tag is kept. -/
theorem latin_tag_not_kept :
    let w := run (step plainEnvironment)
      ⟨Client.new "http://node" "token" (StatusHandle.api "http://node"), {}, KeyStore.empty⟩
      [latinTick]
    ((lastConfig plainEnvironment [latinTick]).bind fun a => a.2.1.headers.get "etag") =
        some latinTag ∧
      w.client.configEtag = none := by
  decide +kernel

end VaultplaneGateway.ControlNodeClient
