import VaultplaneGateway.ControlNodeClient

/-!
# Local reloads beside the Control Node client

A reload, by the admin endpoint or by a signal, writes the same runtime handle as
the Control Node client. A tick of the client is three steps and a reload may come
between any two of them. Only the client keeps books: a reload changes the
runtime and neither the tag nor the reported version, so the next poll is
answered with 304 and the reported version is that of a bundle no longer in use.

The report is right as long as every reload is followed by a bundle that is
applied. It is stated for the states between two ticks; within a tick the version
is reported only by its last step.
-/
namespace VaultplaneGateway.ReloadRaces
open WireFormats KeyRecords ConfigOverlay LinkStatus TransitionRuns ControlNodeClient

variable {ρ : Type}

/-- `runtime::reload` up to its last step, which stores the runtime. Certificates
are read again only if the gateway runs with TLS and the file still has it. -/
def reload (env : Environment ρ) (rustls : Bool) (loaded : Except String Config)
    (reloadCerts : TlsConfig → Except String Unit) : Except String ρ := do
  let config ← loaded.mapError ("failed to load configuration: " ++ ·)
  let runtime ← (env.buildRuntime config).mapError
    ("failed to build runtime from new config: " ++ ·)
  match rustls, config.listen.tls with
  | true, some tls => reloadCerts tls
  | _, _ => pure ()
  pure runtime

/-- How far the current tick has come, with the outcomes it will record. -/
inductive Stage where
  | idle
  | configPolled (config : StatusHandle.Polled)
  | keysPolled (config keys : StatusHandle.Polled)
  deriving DecidableEq

structure State (ρ : Type) where
  world : World ρ
  stage : Stage

/-- The client takes its next step, with the answer it receives and the time, or
a reload runs. -/
inductive Event where
  | client (answer : Answer) (now : ℚ)
  | reload (rustls : Bool) (loaded : Except String Config)
      (reloadCerts : TlsConfig → Except String Unit)

def next (env : Environment ρ) (s : State ρ) : Event → State ρ
  | .client answer now =>
      match s.stage with
      | .idle =>
          let r := pollConfig env s.world answer
          ⟨r.1, .configPolled r.2⟩
      | .configPolled config =>
          let r := pollKeys env s.world answer
          ⟨r.1, .keysPolled config r.2⟩
      | .keysPolled config keys =>
          let status := (s.world.client.status.recordTick config keys now).1
          ⟨{ s.world with client := { s.world.client with status := status } }, .idle⟩
  | .reload rustls loaded reloadCerts =>
      match reload env rustls loaded reloadCerts with
      | .ok runtime => { s with world := { s.world with runtime := runtime } }
      | .error _ => s

/-- Three client steps in a row are a tick. -/
theorem run_tick (env : Environment ρ) (w : World ρ) (t : Tick) (a : Answer) (n n' : ℚ) :
    run (next env) ⟨w, .idle⟩ [.client t.config n, .client t.keys n', .client a t.now] =
      ⟨step env w t, .idle⟩ := rfl

def start (endpoint token : String) (runtime : ρ) (keys : KeyStore) : State ρ :=
  ⟨⟨Client.new endpoint token (StatusHandle.api endpoint), runtime, keys⟩, .idle⟩

/-- The event makes the client apply `bundle`. -/
def Applies (env : Environment ρ) (s : State ρ) (e : Event) (bundle : Dto.GatewayConfig) : Prop :=
  ∃ answer now response runtime, e = .client answer now ∧ s.stage = .idle ∧
    appliedConfig env answer = some (bundle, response, runtime)

/-- The event is a reload that succeeds. -/
def Reloads (env : Environment ρ) (e : Event) : Prop :=
  ∃ rustls loaded reloadCerts runtime, e = .reload rustls loaded reloadCerts ∧
    reload env rustls loaded reloadCerts = .ok runtime

/-- The version that is reported, or will be by the end of the current tick. -/
def pendingVersion (s : State ρ) : Option String :=
  match s.stage with
  | .idle => s.world.client.status.configVersion
  | .configPolled config => StatusHandle.keptVersion s.world.client.status.configVersion config
  | .keysPolled config _ => StatusHandle.keptVersion s.world.client.status.configVersion config

theorem next_applies {env : Environment ρ} {s : State ρ} {e : Event} {bundle : Dto.GatewayConfig}
    (h : Applies env s e bundle) : pendingVersion (next env s e) = some bundle.version ∧
      env.buildRuntime (applyConfig env.base bundle) = .ok (next env s e).world.runtime := by
  obtain ⟨answer, now, response, runtime, rfl, hstage, happ⟩ := h
  rcases pollConfig_cases env s.world answer with ⟨b, r, rt, happ', heq⟩ | ⟨hnone, -⟩
  · rw [happ] at happ'
    obtain ⟨rfl, rfl, rfl⟩ : bundle = b ∧ response = r ∧ runtime = rt := by
      simpa using happ'
    simp only [next, hstage, heq, pendingVersion]
    exact ⟨rfl, runtime_of_appliedConfig happ⟩
  · rw [happ] at hnone
    cases hnone

/-- Any event but a successful reload and the application of a bundle keeps the
runtime and the version. -/
theorem next_keeps {env : Environment ρ} {s : State ρ} {e : Event} (hr : ¬ Reloads env e)
    (ha : ∀ bundle, ¬ Applies env s e bundle) :
    pendingVersion (next env s e) = pendingVersion s ∧
      (next env s e).world.runtime = s.world.runtime := by
  cases e with
  | reload rustls loaded reloadCerts =>
      simp only [next]
      split
      · rename_i runtime hok
        exact (hr ⟨rustls, loaded, reloadCerts, runtime, rfl, hok⟩).elim
      · exact ⟨rfl, rfl⟩
  | client answer now =>
      cases hstage : s.stage with
      | idle =>
          rcases pollConfig_cases env s.world answer with
            ⟨b, r, rt, happ, -⟩ | ⟨-, outcome, houtcome, heq⟩
          · exact (ha b ⟨answer, now, r, rt, rfl, hstage, happ⟩).elim
          · simp only [next, hstage, heq, pendingVersion]
            rcases houtcome with rfl | ⟨failure, rfl⟩
            · exact ⟨rfl, trivial⟩
            · exact ⟨rfl, trivial⟩
      | configPolled config =>
          rcases pollKeys_cases env s.world answer with ⟨_, _, -, heq⟩ | ⟨-, _, -, heq⟩
          · simp only [next, hstage, heq, pendingVersion, and_self]
          · simp only [next, hstage, heq, pendingVersion, and_self]
      | keysPolled config keys =>
          simp only [next, hstage, pendingVersion, StatusHandle.recordTick_configVersion, and_self]

/-- Every successful reload of the run is followed by a bundle that is applied. -/
def Reapplied (env : Environment ρ) (s : State ρ) (es : List Event) : Prop :=
  ∀ es₁ e es₂, es = es₁ ++ e :: es₂ → Reloads env e →
    ∃ es₃ f es₄ bundle, es₂ = es₃ ++ f :: es₄ ∧
      Applies env (run (next env) s (es₁ ++ e :: es₃)) f bundle

/-- The last event can be dropped if it applies nothing. -/
theorem Reapplied.init {env : Environment ρ} {s : State ρ} {es : List Event} {e : Event}
    (h : Reapplied env s (es ++ [e]))
    (ha : ∀ bundle, ¬ Applies env (run (next env) s es) e bundle) : Reapplied env s es := by
  intro es₁ r es₂ hes hr
  obtain ⟨es₃, f, es₄, bundle, hsplit, happ⟩ := h es₁ r (es₂ ++ [e]) (by simp [hes]) hr
  rcases List.eq_nil_or_concat es₄ with rfl | ⟨es₅, g, rfl⟩
  · obtain ⟨rfl, hef⟩ := List.append_inj' hsplit rfl
    obtain rfl := (List.cons.inj hef).1
    rw [← hes] at happ
    exact (ha bundle happ).elim
  · refine ⟨es₃, f, es₅, bundle, ?_, happ⟩
    have hsplit' : es₂ ++ [e] = (es₃ ++ f :: es₅) ++ [g] := by simpa using hsplit
    exact (List.append_inj' hsplit' rfl).1

/-- A run whose reloads are all followed by a new bundle reports the version of
the bundle its runtime is built from. -/
theorem run_serves (env : Environment ρ) (endpoint token : String) (runtime : ρ)
    (keys : KeyStore) (es : List Event)
    (h : Reapplied env (start endpoint token runtime keys) es) {v : String}
    (hv : pendingVersion (run (next env) (start endpoint token runtime keys) es) = some v) :
    ∃ es₁ e es₂ bundle, es = es₁ ++ e :: es₂ ∧
      Applies env (run (next env) (start endpoint token runtime keys) es₁) e bundle ∧
      bundle.version = v ∧ env.buildRuntime (applyConfig env.base bundle) =
        .ok (run (next env) (start endpoint token runtime keys) es).world.runtime := by
  induction es using List.reverseRecOn generalizing v with
  | nil => cases hv
  | append_singleton es e ih =>
      rw [run_append] at hv ⊢
      by_cases ha : ∃ bundle, Applies env
          (run (next env) (start endpoint token runtime keys) es) e bundle
      · obtain ⟨bundle, ha⟩ := ha
        obtain ⟨hversion, hbuilt⟩ := next_applies ha
        exact ⟨es, e, [], bundle, rfl, ha, Option.some.inj (hversion.symm.trans hv), hbuilt⟩
      · rw [not_exists] at ha
        have hr : ¬ Reloads env e := by
          intro hr
          obtain ⟨es₃, f, es₄, bundle, hnil, -⟩ := h es e [] rfl hr
          simp at hnil
        obtain ⟨hversion, hruntime⟩ := next_keeps hr ha
        obtain ⟨es₁, f, es₂, bundle, hes, happ, hb, hbuilt⟩ := ih (h.init ha) (hversion ▸ hv)
        refine ⟨es₁, f, es₂ ++ [e], bundle, by simp [hes], happ, hb, ?_⟩
        rw [hbuilt]
        exact congrArg _ hruntime.symm

/-- Between two ticks the reported version is that of the bundle the served
runtime was built from, if every successful reload was followed by the
application of a bundle. -/
theorem reported_version_served (env : Environment ρ) (endpoint token : String) (runtime : ρ)
    (keys : KeyStore) (es : List Event)
    (h : Reapplied env (start endpoint token runtime keys) es) (now : ℚ) (v : String)
    (hidle : (run (next env) (start endpoint token runtime keys) es).stage = .idle)
    (hv : ((run (next env) (start endpoint token runtime keys) es).world.client.status.snapshot
      now).configVersion = some v) :
    ∃ es₁ e es₂ bundle, es = es₁ ++ e :: es₂ ∧
      Applies env (run (next env) (start endpoint token runtime keys) es₁) e bundle ∧
      bundle.version = v ∧ env.buildRuntime (applyConfig env.base bundle) =
        .ok (run (next env) (start endpoint token runtime keys) es).world.runtime := by
  apply run_serves env endpoint token runtime keys es h
  rw [pendingVersion, hidle]
  exact hv

/-- A local configuration with one model. -/
def localConfig : Config := { models := [{ name := "local", primary := ⟨"openai", "gpt-4o"⟩ }] }

def bundleAnswer : Answer := .ok ⟨200, [("etag", asBytes "\"v1\"")], .ok emptyBundleText⟩

def unchangedAnswer : Answer := .ok ⟨304, [], .ok []⟩

def freshStart : State Config := start "http://node" "token" {} KeyStore.empty

/-- A full tick, a reload of the local file, and a tick with nothing new. -/
def reloadedRun : List Event :=
  [.client bundleAnswer 0, .client unchangedAnswer 0, .client unchangedAnswer 0,
    .reload false (.ok localConfig) (fun _ => .ok ()),
    .client unchangedAnswer 1, .client unchangedAnswer 1, .client unchangedAnswer 1]

/-- The decoder knows one bundle. -/
theorem applied_emptyBundle {answer : Answer} {bundle : Dto.GatewayConfig}
    {response : HttpResponse} {runtime : Config}
    (h : appliedConfig plainEnvironment answer = some (bundle, response, runtime)) :
    bundle = emptyBundle := by
  obtain ⟨⟨b, r⟩, hdel, hd⟩ := Option.bind_eq_some_iff.mp h
  cases hd
  cases answer with
  | error err => cases hdel
  | ok response =>
      simp only [delivered] at hdel
      split_ifs at hdel
      split at hdel
      · rename_i hbody
        cases hdel
        cases hb : r.body with
        | error err => simp [hb, Except.bind] at hbody
        | ok bytes =>
            simp only [hb, Except.bind, plainEnvironment] at hbody
            split_ifs at hbody
            exact (Except.ok.inj hbody).symm
      · cases hdel

/-- Both polls are answered with 304, the link is synced at version `v1`, and the
gateway serves the local file. -/
theorem synced_version_not_served :
    let s := run (next plainEnvironment) freshStart reloadedRun
    s.stage = .idle ∧ (s.world.client.status.snapshot 1).state = .synced ∧
      (s.world.client.status.snapshot 1).configVersion = some "v1" ∧
      ¬ ∃ es₁ e es₂ bundle, reloadedRun = es₁ ++ e :: es₂ ∧
        Applies plainEnvironment (run (next plainEnvironment) freshStart es₁) e bundle ∧
        bundle.version = "v1" ∧ plainEnvironment.buildRuntime
          (applyConfig plainEnvironment.base bundle) = .ok s.world.runtime := by
  intro s
  have hmodels : s.world.runtime.models.length = 1 := by decide +kernel
  refine ⟨by decide +kernel, by decide +kernel, by decide +kernel, ?_⟩
  rintro ⟨es₁, e, es₂, bundle, -, ⟨answer, now, response, runtime, -, -, happ⟩, -, hbuilt⟩
  rw [applied_emptyBundle happ] at hbuilt
  rw [← Except.ok.inj hbuilt] at hmodels
  cases hmodels

/-- A reload before the first tick: the tick applies the bundle and the report is
right. -/
theorem reported_version_served_after_tick :
    let es : List Event := [.reload false (.ok localConfig) (fun _ => .ok ()),
      .client bundleAnswer 0, .client unchangedAnswer 0, .client unchangedAnswer 0]
    ∃ es₁ e es₂ bundle, es = es₁ ++ e :: es₂ ∧
      Applies plainEnvironment (run (next plainEnvironment) freshStart es₁) e bundle ∧
      bundle.version = "v1" ∧ plainEnvironment.buildRuntime
        (applyConfig plainEnvironment.base bundle) =
          .ok (run (next plainEnvironment) freshStart es).world.runtime := by
  apply reported_version_served plainEnvironment "http://node" "token" {} KeyStore.empty _ _ 0 "v1"
  · decide +kernel
  · decide +kernel
  · intro es₁ e es₂ hes hr
    have hne : ∀ answer now, e ≠ .client answer now := by
      rintro answer now rfl
      obtain ⟨_, _, _, _, h, -⟩ := hr
      cases h
    rcases es₁ with _ | ⟨_, _ | ⟨_, _ | ⟨_, _ | ⟨_, es₁⟩⟩⟩⟩ <;>
      simp only [List.nil_append, List.cons_append, List.cons.injEq] at hes
    · obtain ⟨rfl, rfl⟩ := hes
      exact ⟨[], .client bundleAnswer 0, _, emptyBundle, rfl, bundleAnswer, 0, _, _, rfl, rfl, rfl⟩
    · exact (hne _ _ hes.2.1.symm).elim
    · exact (hne _ _ hes.2.2.1.symm).elim
    · exact (hne _ _ hes.2.2.2.1.symm).elim
    · simp at hes

end VaultplaneGateway.ReloadRaces
