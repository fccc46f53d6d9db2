import VaultplaneGateway.FailureAtomicity
import VaultplaneGateway.RateLimiting
import VaultplaneGateway.RuntimeBuilding

/-!
# Reloading the configuration and the TLS material

A reload loads the file, builds a runtime, reads the certificates again if the gateway
runs with TLS and the file has a `tls` block, and stores the runtime. Two pieces of live
state are written, the TLS material first. Everything that can fail comes before the
first write or is the write of the material itself, so a failed reload changes nothing.

Files, PEM readers and the TLS library are other code. The live handle's own reload from
PEM files is only relied on to write what it read, and only if it read everything.
-/
namespace VaultplaneGateway.TlsReload
open WireFormats KeyRecords RateLimiting SpendTracking ConfigOverlay RuntimeBuilding
  FallibleComputations FailureAtomicity

variable {κ V C K W S : Type}

/-- The file system, the PEM readers and the TLS library: certificates, private keys,
client verifiers and server configurations. -/
structure TlsHost (C K W S : Type) where
  readFile : String → Except String Bytes
  certs : Bytes → Except String (List C)
  privateKey : Bytes → Except String (Option K)
  addRoot : C → Except String Unit
  buildVerifier : List C → Except String W
  protocolVersions : Except String Unit
  singleCert : W → List C → K → Except String S
  setAlpn : S → List Bytes → S
  fromPemFile : String → String → Except String S
  reloadFromPemFile : String → String → S → Except String Unit × S

/-- The live handle is written only on success, with the material of the two files. -/
def TlsHost.SwapsOnSuccess (host : TlsHost C K W S) : Prop :=
  ∀ certPath keyPath live,
    match host.reloadFromPemFile certPath keyPath live with
    | (.ok _, live') => host.fromPemFile certPath keyPath = .ok live'
    | (.error _, live') => live' = live

def loadCerts (host : TlsHost C K W S) (path : String) : Except Failure (List C) := do
  let data ← (host.readFile path).mapError Failure.error
  (host.certs data).mapError fun e => .error ("failed to parse PEM certificates: " ++ e)

/-- The first private key of the file. -/
def loadKey (host : TlsHost C K W S) (path : String) : Except Failure K := do
  let data ← (host.readFile path).mapError Failure.error
  let key ← (host.privateKey data).mapError fun e =>
    .error ("failed to parse PEM private key: " ++ e)
  match key with
  | some key => pure key
  | none => .error (.error ("no private key found in " ++ path))

/-- Every certificate of the bundle must be accepted by the trust store. -/
def addRoots (host : TlsHost C K W S) (cas : List C) : Except Failure (List C) :=
  cas.mapM fun ca => do
    (host.addRoot ca).mapError fun e =>
      .error ("failed to add a client CA certificate to the trust store: " ++ e)
    pure ca

/-- The protocols the PEM path of the server advertises. -/
def alpnProtocols : List Bytes := [asBytes "h2", asBytes "http/1.1"]

def mtlsServerConfig (host : TlsHost C K W S) (certPath keyPath clientCaPath : String) :
    Except Failure S := do
  let certs ← (loadCerts host certPath).mapError
    (Failure.context ("failed to load TLS cert " ++ certPath))
  let key ← (loadKey host keyPath).mapError
    (Failure.context ("failed to load TLS key " ++ keyPath))
  let cas ← (loadCerts host clientCaPath).mapError
    (Failure.context ("failed to load client CA bundle " ++ clientCaPath))
  let roots ← addRoots host cas
  if roots.isEmpty then
    .error (.error ("client CA bundle " ++ clientCaPath ++ " contained no certificates"))
  let verifier ← (host.buildVerifier roots).mapError fun e =>
    Failure.error ("failed to build the client certificate verifier: " ++ e)
  (host.protocolVersions).mapError fun e =>
    Failure.error ("failed to select TLS protocol versions: " ++ e)
  let config ← (host.singleCert verifier certs key).mapError fun e =>
    Failure.error ("failed to build the mTLS server config: " ++ e)
  pure (host.setAlpn config alpnProtocols)

def materialNote (verb : String) (tls : TlsConfig) : String :=
  "failed to " ++ verb ++ " TLS material (cert: " ++ tls.certPath ++ ", key: " ++ tls.keyPath ++ ")"

/-- `build_rustls_config`: the material a gateway starts with. -/
def buildRustlsConfig (host : TlsHost C K W S) (tls : TlsConfig) : Except Failure S :=
  match tls.clientCaPath with
  | none => (host.fromPemFile tls.certPath tls.keyPath).mapError fun e =>
      .error (materialNote "load" tls ++ ": " ++ e)
  | some ca => mtlsServerConfig host tls.certPath tls.keyPath ca

/-- What the admin endpoint and the signal handler share with the proxy. `rustls` is the
live material of a gateway that was started with TLS. -/
structure Process (κ S : Type) where
  runtime : BuiltRuntime κ
  rustls : Option S
  keys : KeyStore
  rateLimiter : RateLimiter
  spendTracker : SpendTracker

/-- The handle's reload from two PEM files. -/
def reloadFromPemFile (host : TlsHost C K W S) (tls : TlsConfig) :
    Action (Process κ S) Failure Unit := do
  let p ← get
  match p.rustls with
  | none => pure ()
  | some live =>
      let r := host.reloadFromPemFile tls.certPath tls.keyPath live
      set { p with rustls := some r.2 }
      lift (r.1.mapError fun e => Failure.error (materialNote "reload" tls ++ ": " ++ e))

def reloadCerts (host : TlsHost C K W S) (tls : TlsConfig) :
    Action (Process κ S) Failure Unit :=
  match tls.clientCaPath with
  | none => reloadFromPemFile host tls
  | some ca => do
      let config ← lift (mtlsServerConfig host tls.certPath tls.keyPath ca)
      modify fun p => { p with rustls := some config }

/-- `runtime::reload`. A `tls` block that was added or removed since the start is warned
about and has no effect. -/
def reload (lib : Figment V) (host : Host κ) (tlsHost : TlsHost C K W S)
    (path : Option String) : Action (Process κ S) Failure Unit := do
  let config ← lift ((load lib path).mapError (failed "failed to load configuration"))
  let newRuntime ← lift ((buildRuntime host config).mapError
    (Failure.context "failed to build runtime from new config"))
  let p ← get
  match p.rustls, config.listen.tls with
  | some _, some tls => reloadCerts tlsHost tls
  | _, _ => pure ()
  modify fun p => { p with runtime := newRuntime }

/-- What a reload reads before it writes anything. -/
def prepareReload (lib : Figment V) (host : Host κ) (path : Option String) :
    Except Failure (Config × BuiltRuntime κ) := do
  let config ← (load lib path).mapError (failed "failed to load configuration")
  let newRuntime ← (buildRuntime host config).mapError
    (Failure.context "failed to build runtime from new config")
  pure (config, newRuntime)

/-- Its first write. -/
def swapCerts (tlsHost : TlsHost C K W S) (config : Config) :
    Action (Process κ S) Failure Unit := do
  let p ← get
  match p.rustls, config.listen.tls with
  | some _, some tls => reloadCerts tlsHost tls
  | _, _ => pure ()

/-- A reload reads, swaps the certificates and stores the runtime. -/
theorem exec_reload (lib : Figment V) (host : Host κ) (tlsHost : TlsHost C K W S)
    (path : Option String) (p : Process κ S) :
    exec (reload lib host tlsHost path) p =
      exec (do
        let prepared ← lift (prepareReload lib host path)
        swapCerts tlsHost prepared.1
        modify fun q => { q with runtime := prepared.2 }) p := by
  simp only [reload, prepareReload, swapCerts, exec_bind, exec_lift, exec_get]
  cases (load lib path).mapError (failed "failed to load configuration") with
  | error f => rfl
  | ok config =>
      simp only [bind, Except.bind]
      cases (buildRuntime host config).mapError
          (Failure.context "failed to build runtime from new config") with
      | error f => rfl
      | ok runtime =>
          dsimp only [pure, Except.pure]
          split
          · exact exec_bind ..
          · rfl

/-- Without a client CA the handle's own reload decides. -/
theorem exec_reloadFromPemFile (host : TlsHost C K W S) (tls : TlsConfig) {p : Process κ S}
    {live : S} (hlive : p.rustls = some live) :
    exec (reloadFromPemFile host tls) p =
      let r := host.reloadFromPemFile tls.certPath tls.keyPath live
      (r.1.mapError fun e => Failure.error (materialNote "reload" tls ++ ": " ++ e),
        { p with rustls := some r.2 }) := by
  rw [reloadFromPemFile, exec_bind, exec_get]
  dsimp only
  rw [hlive]
  dsimp only
  rw [exec_bind, exec_set]
  rfl

theorem reloadFromPemFile_failsClean {host : TlsHost C K W S} (hswap : host.SwapsOnSuccess)
    (tls : TlsConfig) : FailsClean (reloadFromPemFile (κ := κ) host tls) := by
  intro p e q h
  cases hlive : p.rustls with
  | none =>
      rw [reloadFromPemFile, exec_bind, exec_get] at h
      dsimp only at h
      rw [hlive] at h
      cases h
  | some live =>
      have hs := hswap tls.certPath tls.keyPath live
      rw [exec_reloadFromPemFile host tls hlive] at h
      rcases hr : host.reloadFromPemFile tls.certPath tls.keyPath live with ⟨_ | _, live'⟩
      · rw [hr] at h hs
        obtain ⟨-, rfl⟩ := Prod.mk.inj h
        obtain rfl : live' = live := hs
        rw [← hlive]
      · rw [hr] at h
        cases h

theorem reloadCerts_failsClean {host : TlsHost C K W S} (hswap : host.SwapsOnSuccess)
    (tls : TlsConfig) : FailsClean (reloadCerts (κ := κ) host tls) := by
  unfold reloadCerts
  split
  · exact reloadFromPemFile_failsClean hswap tls
  · exact (readsOnly_lift _).bind_failsClean fun _ => (neverFails_modify _).failsClean

theorem reload_failsClean (lib : Figment V) (host : Host κ) {tlsHost : TlsHost C K W S}
    (hswap : tlsHost.SwapsOnSuccess) (path : Option String) :
    FailsClean (reload lib host tlsHost path) := by
  unfold reload
  refine (readsOnly_lift _).bind_failsClean fun config => ?_
  refine (readsOnly_lift _).bind_failsClean fun newRuntime => ?_
  refine readsOnly_get.bind_failsClean fun p => ?_
  split
  · exact (reloadCerts_failsClean hswap _).bind_neverFails fun _ => neverFails_modify _
  · exact (readsOnly_pure _).failsClean.bind_neverFails fun _ => neverFails_modify _

/-- The certificates that are swapped in are those a start with the file would load. -/
theorem reloadCerts_ok {host : TlsHost C K W S} (hswap : host.SwapsOnSuccess) {tls : TlsConfig}
    {p q : Process κ S} {live : S} (hlive : p.rustls = some live) {u : Unit}
    (h : exec (reloadCerts host tls) p = (.ok u, q)) :
    ∃ material, buildRustlsConfig host tls = .ok material ∧
      q = { p with rustls := some material } := by
  unfold reloadCerts at h
  unfold buildRustlsConfig
  cases hca : tls.clientCaPath with
  | none =>
      have hs := hswap tls.certPath tls.keyPath live
      rw [hca] at h
      dsimp only at h
      rw [exec_reloadFromPemFile host tls hlive] at h
      rcases hr : host.reloadFromPemFile tls.certPath tls.keyPath live with ⟨_ | _, live'⟩
      · rw [hr] at h
        cases h
      · rw [hr] at h hs
        obtain ⟨-, rfl⟩ := Prod.mk.inj h
        have hpem : host.fromPemFile tls.certPath tls.keyPath = .ok live' := hs
        exact ⟨live', mapError_eq_ok.mpr hpem, rfl⟩
  | some ca =>
      rw [hca] at h
      obtain ⟨material, p', hmaterial, hswapped⟩ := exec_bind_ok.mp h
      obtain ⟨hbuilt, rfl⟩ := exec_lift_ok.mp hmaterial
      obtain rfl := exec_modify_ok.mp hswapped
      exact ⟨material, hbuilt, rfl⟩

/-- The live material after a successful reload of a file with this `tls` block. -/
def Installed (host : TlsHost C K W S) (before : Option S) (tls : Option TlsConfig)
    (now : Option S) : Prop :=
  match before, tls with
  | some _, some tls => ∃ material, buildRustlsConfig host tls = .ok material ∧ now = some material
  | _, _ => now = before

theorem reload_ok {lib : Figment V} {host : Host κ} {tlsHost : TlsHost C K W S}
    (hswap : tlsHost.SwapsOnSuccess) {path : Option String} {p q : Process κ S} {u : Unit}
    (h : exec (reload lib host tlsHost path) p = (.ok u, q)) :
    ∃ config runtime rustls, load lib path = .ok config ∧ buildRuntime host config = .ok runtime ∧
      Installed tlsHost p.rustls config.listen.tls rustls ∧
      q = { p with runtime := runtime, rustls := rustls } := by
  obtain ⟨config, p₁, hload, hrest⟩ := exec_bind_ok.mp h
  obtain ⟨hconfig, rfl⟩ := exec_lift_ok.mp hload
  obtain ⟨runtime, p₂, hbuild, hswapped⟩ := exec_bind_ok.mp hrest
  obtain ⟨hruntime, rfl⟩ := exec_lift_ok.mp hbuild
  obtain ⟨p₃, p₄, hget, hmatch⟩ := exec_bind_ok.mp hswapped
  obtain ⟨rfl, rfl⟩ := exec_get_ok.mp hget
  refine ⟨config, runtime, q.rustls, mapError_eq_ok.mp hconfig, mapError_eq_ok.mp hruntime, ?_⟩
  unfold Installed
  dsimp only at hmatch
  split at hmatch
  · rename_i live tls hlive htls
    obtain ⟨_, p', hcerts, hstore⟩ := exec_bind_ok.mp hmatch
    obtain ⟨material, hmaterial, rfl⟩ := reloadCerts_ok hswap hlive hcerts
    obtain rfl := exec_modify_ok.mp hstore
    exact ⟨⟨material, hmaterial, rfl⟩, rfl⟩
  · obtain rfl := exec_modify_ok.mp hmatch
    exact ⟨rfl, rfl⟩

/-- A reload that fails, at whatever stage, leaves the whole process as it was. One that
succeeds leaves the runtime built from the file and, with TLS on both sides, the material
of the file. The stores outside the runtime are never touched. -/
theorem failed_reload_changes_nothing (lib : Figment V) (host : Host κ)
    (tlsHost : TlsHost C K W S) (hswap : tlsHost.SwapsOnSuccess) (path : Option String)
    (p : Process κ S) :
    let r := exec (reload lib host tlsHost path) p
    (∀ e, r.1 = .error e → r.2 = p) ∧
      (r.1 = .ok () → ∃ config, load lib path = .ok config ∧
        buildRuntime host config = .ok r.2.runtime ∧
        Installed tlsHost p.rustls config.listen.tls r.2.rustls) ∧
      r.2.keys = p.keys ∧ r.2.rateLimiter = p.rateLimiter ∧ r.2.spendTracker = p.spendTracker := by
  rcases hr : exec (reload lib host tlsHost path) p with ⟨e | u, q⟩
  · obtain rfl := reload_failsClean lib host hswap path p e q hr
    exact ⟨fun _ _ => rfl, fun h => (by cases h), rfl, rfl, rfl⟩
  · obtain ⟨config, runtime, rustls, hload, hbuild, hinstalled, rfl⟩ := reload_ok hswap hr
    exact ⟨fun e h => (by cases h), fun _ => ⟨config, hload, hbuild, hinstalled⟩, rfl, rfl, rfl⟩

section Sample

/-- A certificate file lists names, a key file names its key, and a configuration is the
names it presents. Files are the given ones. -/
def listHost (files : String → Option Bytes) : TlsHost UInt8 UInt8 (List UInt8) (List UInt8) where
  readFile path := (files path).elim (.error "No such file or directory") .ok
  certs := .ok
  privateKey data := .ok data.head?
  addRoot _ := .ok ()
  buildVerifier := .ok
  protocolVersions := .ok ()
  singleCert roots certs _ := .ok (certs ++ roots)
  setAlpn config _ := config
  fromPemFile certPath keyPath :=
    match files certPath, files keyPath with
    | some certs, some _ => .ok certs
    | _, _ => .error "No such file or directory"
  reloadFromPemFile certPath keyPath live :=
    match files certPath, files keyPath with
    | some certs, some _ => (.ok (), certs)
    | _, _ => (.error "No such file or directory", live)

theorem listHost_swaps (files : String → Option Bytes) : (listHost files).SwapsOnSuccess := by
  intro certPath keyPath live
  simp only [listHost]
  cases files certPath with
  | none => rfl
  | some certs =>
      cases files keyPath with
      | none => rfl
      | some key => rfl

/-- A file given as the configuration it decodes to. -/
def decodedFile (config : Config) : Figment Unit where
  defaults _ := ()
  yamlFile _ := ()
  env _ _ := ()
  merge _ _ := ()
  extract _ := .ok config

def mtlsFile : Figment Unit := decodedFile { listen := { tls := some ⟨"c", "k", some "ca"⟩ } }

/-- A gateway that runs with TLS and no models. -/
def sampleProcess : Process Unit (List UInt8) where
  runtime := ⟨⟨fun _ => none, fun _ => none⟩, ⟨fun _ => none⟩, none, [], []⟩
  rustls := some [1]
  keys := KeyStore.empty
  rateLimiter := RateLimiter.empty
  spendTracker := SpendTracker.empty

def certFiles (path : String) : Option Bytes :=
  if path = "c" then some [2]
  else if path = "k" then some [3]
  else if path = "ca" then some [4]
  else none

/-- Without its client CA bundle the reload fails after the runtime was built, and the
old runtime and material stay; with it both are replaced. -/
theorem reload_without_client_ca :
    let files := fun path => if path = "ca" then none else certFiles path
    (exec (reload mtlsFile sampleHost (listHost files) (some "vp.yaml")) sampleProcess).2 =
        sampleProcess ∧
      (exec (reload mtlsFile sampleHost (listHost certFiles) (some "vp.yaml"))
        sampleProcess).2.rustls = some [2, 4] := by
  intro files
  refine ⟨?_, rfl⟩
  exact (failed_reload_changes_nothing mtlsFile sampleHost (listHost files) (listHost_swaps files)
    (some "vp.yaml") sampleProcess).1
      (.error ("failed to load client CA bundle ca: No such file or directory")) rfl

end Sample

end VaultplaneGateway.TlsReload
