import VaultplaneGateway.TlsReload
import VaultplaneGateway.TransitionRuns

/-!
# Reloads at the same time

The admin endpoint and the signal handler reload independently, and nothing keeps two
reloads apart. A reload with certificates makes two writes, the TLS material and then
the runtime, and waits in between. Each write is atomic; the pair is not.

Whether the pair left behind belongs to one reload is decided by the last runtime that
is stored: its reload must also have been the last to swap certificates. Otherwise the
gateway serves one file's routes under another file's certificates until it is reloaded
again.
-/
namespace VaultplaneGateway.ConcurrentReloads
open WireFormats ConfigOverlay RuntimeBuilding FailureAtomicity FallibleComputations TlsReload
  TransitionRuns

variable {κ V C K W S : Type}

/-- What a reload is going to write. The material is absent where certificates are not
reloaded. -/
structure Plan (κ S : Type) where
  runtime : BuiltRuntime κ
  material : Option S

/-- What one version of the file makes of a gateway with or without TLS. -/
def plan (lib : Figment V) (host : Host κ) (tlsHost : TlsHost C K W S) (rustls : Bool)
    (path : Option String) : Except Failure (Plan κ S) := do
  let config ← (load lib path).mapError (failed "failed to load configuration")
  let runtime ← (buildRuntime host config).mapError
    (Failure.context "failed to build runtime from new config")
  match rustls, config.listen.tls with
  | true, some tls => do
      let material ← buildRustlsConfig tlsHost tls
      pure ⟨runtime, some material⟩
  | _, _ => pure ⟨runtime, none⟩

/-- A reload that succeeds has written its plan. -/
theorem reload_plan {lib : Figment V} {host : Host κ} {tlsHost : TlsHost C K W S}
    (hswap : tlsHost.SwapsOnSuccess) {path : Option String} {p q : Process κ S} {u : Unit}
    (h : exec (reload lib host tlsHost path) p = (.ok u, q)) :
    ∃ pl, plan lib host tlsHost p.rustls.isSome path = .ok pl ∧
      q = { p with runtime := pl.runtime, rustls := pl.material.or p.rustls } := by
  obtain ⟨config, runtime, rustls, hload, hbuild, hinstalled, rfl⟩ := reload_ok hswap h
  have hload' := mapError_eq_ok (f := failed "failed to load configuration").mpr hload
  have hbuild' :=
    mapError_eq_ok (f := Failure.context "failed to build runtime from new config").mpr hbuild
  unfold Installed at hinstalled
  cases hlive : p.rustls with
  | none =>
      rw [hlive] at hinstalled
      refine ⟨⟨runtime, none⟩, ?_, by rw [hinstalled]; rfl⟩
      exact bind_eq_ok.mpr ⟨config, hload', bind_eq_ok.mpr ⟨runtime, hbuild', rfl⟩⟩
  | some live =>
      cases htls : config.listen.tls with
      | none =>
          rw [hlive, htls] at hinstalled
          refine ⟨⟨runtime, none⟩, ?_, by rw [hinstalled]; rfl⟩
          refine bind_eq_ok.mpr ⟨config, hload', bind_eq_ok.mpr ⟨runtime, hbuild', ?_⟩⟩
          rw [htls]
          rfl
      | some tls =>
          rw [hlive, htls] at hinstalled
          obtain ⟨material, hmaterial, rfl⟩ := hinstalled
          refine ⟨⟨runtime, some material⟩, ?_, rfl⟩
          refine bind_eq_ok.mpr ⟨config, hload', bind_eq_ok.mpr ⟨runtime, hbuild', ?_⟩⟩
          rw [htls]
          exact bind_eq_ok.mpr ⟨material, hmaterial, rfl⟩

inductive Stage where
  | ready | swapped | finished
  deriving DecidableEq, Repr

/-- The two cells, how far every reload has come, and which one swapped last. -/
structure State (κ S : Type) where
  runtime : BuiltRuntime κ
  rustls : Option S
  stage : ℕ → Stage
  lastSwap : Option ℕ

def start (runtime : BuiltRuntime κ) (rustls : Option S) : State κ S :=
  ⟨runtime, rustls, fun _ => .ready, none⟩

/-- The next write of reload `i`. -/
def next (plans : ℕ → Plan κ S) (s : State κ S) (i : ℕ) : State κ S :=
  match s.stage i, (plans i).material with
  | .ready, some material =>
      { s with
        rustls := some material
        stage := Function.update s.stage i .swapped
        lastSwap := some i }
  | .ready, none | .swapped, _ =>
      { s with runtime := (plans i).runtime, stage := Function.update s.stage i .finished }
  | .finished, _ => s

/-- Two writes of one reload, or the only one, with nothing in between leave what the
reload alone leaves. -/
theorem run_alone (plans : ℕ → Plan κ S) (s : State κ S) (i : ℕ) (hi : s.stage i = .ready) :
    let t := run (next plans) s [i, i]
    t.runtime = (plans i).runtime ∧ t.rustls = (plans i).material.or s.rustls := by
  cases hm : (plans i).material with
  | none => simp [run, next, hi, hm]
  | some material => simp [run, next, hi, hm]

/-- No reload is between its two writes. -/
def Quiet (s : State κ S) : Prop := ∀ i, s.stage i ≠ .swapped

/-- Runtime and material are what one of the finished reloads writes. -/
def FromOne (plans : ℕ → Plan κ S) (s : State κ S) : Prop :=
  ∃ i, s.stage i = .finished ∧ s.runtime = (plans i).runtime ∧
    ∀ material, (plans i).material = some material → s.rustls = some material

/-- A reload that stores its runtime as the last one between its writes was also the last
to swap. -/
def Orderly (s : State κ S) (i : ℕ) : Prop :=
  s.stage i = .swapped → (∀ j, j ≠ i → s.stage j ≠ .swapped) → s.lastSwap = some i

def OrderlyRun (plans : ℕ → Plan κ S) : State κ S → List ℕ → Prop :=
  Along (next plans) Orderly

/-- The live material is that of the last swap, and what is left when no reload is
between its writes comes from one of them. -/
structure Inv (plans : ℕ → Plan κ S) (s : State κ S) : Prop where
  swapped : ∀ i, s.lastSwap = some i → s.rustls = (plans i).material
  single : Quiet s → (∃ i, s.stage i = .finished) → FromOne plans s

theorem next_inv {plans : ℕ → Plan κ S} {s : State κ S} (h : Inv plans s) {i : ℕ}
    (horder : Orderly s i) : Inv plans (next plans s i) := by
  cases hi : s.stage i with
  | ready =>
      cases hm : (plans i).material with
      | some material =>
          refine ⟨?_, ?_⟩
          · intro j hj
            obtain rfl : i = j := by simpa [next, hi, hm] using hj
            simp [next, hi, hm]
          · intro hquiet
            exact (hquiet i (by simp [next, hi, hm])).elim
      | none =>
          refine ⟨?_, fun _ _ => ⟨i, ?_⟩⟩
          · simpa [next, hi, hm] using h.swapped
          · simp [next, hi, hm]
  | swapped =>
      refine ⟨?_, ?_⟩
      · simpa [next, hi] using h.swapped
      · intro hquiet _
        have halone : ∀ j, j ≠ i → s.stage j ≠ .swapped := by
          intro j hj
          simpa [next, hi, hj] using hquiet j
        have hlast := h.swapped i (horder hi halone)
        refine ⟨i, by simp [next, hi], by simp [next, hi], ?_⟩
        intro material hmaterial
        simpa [next, hi, hmaterial] using hlast
  | finished => simpa [next, hi] using h

/-- After any interleaving of reloads in which the last to store was the last to swap,
runtime and material come from one reload, whenever none is between its writes. -/
theorem reloads_do_not_mix (plans : ℕ → Plan κ S) (runtime : BuiltRuntime κ) (rustls : Option S)
    (is : List ℕ) (horder : OrderlyRun plans (start runtime rustls) is)
    (hquiet : Quiet (run (next plans) (start runtime rustls) is))
    (hdone : ∃ i, (run (next plans) (start runtime rustls) is).stage i = .finished) :
    FromOne plans (run (next plans) (start runtime rustls) is) := by
  have hstart : Inv plans (start runtime rustls) := by
    refine ⟨fun i hi => ?_, fun _ hdone => ?_⟩
    · cases hi
    · obtain ⟨i, hi⟩ := hdone
      cases hi
  have hstep : ∀ s i, Inv plans s → Orderly s i → Inv plans (next plans s i) := by
    intro s i hs hi
    exact next_inv hs hi
  exact (run_along hstep hstart horder).single hquiet hdone

section Sample

/-- A version of the file: one model and one certificate, both under the same name. -/
def version (name : String) : Figment Unit :=
  decodedFile
    { models := [{ name := name, primary := ⟨"openai", "gpt-4o"⟩ }]
      listen := { tls := some ⟨name, "k", none⟩ } }

/-- The certificates of the two versions, and their key. -/
def versionFiles (path : String) : Option Bytes :=
  if path = "old" then some [1] else if path = "new" then some [2] else some [3]

def versionPlan (name : String) : Except Failure (Plan Unit (List UInt8)) :=
  plan (version name) sampleHost (listHost versionFiles) true (some "vp.yaml")

theorem versionPlan_old : ∃ runtime : BuiltRuntime Unit,
    versionPlan "old" = .ok ⟨runtime, some [1]⟩ ∧ runtime.models = [⟨"old", "openai"⟩] :=
  ⟨_, rfl, rfl⟩

theorem versionPlan_new : ∃ runtime : BuiltRuntime Unit,
    versionPlan "new" = .ok ⟨runtime, some [2]⟩ ∧ runtime.models = [⟨"new", "openai"⟩] :=
  ⟨_, rfl, rfl⟩

/-- Reload 0 reads the old version and reload 1 the new one. -/
def bothPlans (old new : Plan Unit (List UInt8)) (i : ℕ) : Plan Unit (List UInt8) :=
  if i = 0 then old else new

/-- A reload that takes no step stays where it is. -/
theorem run_stage_of_notMem (plans : ℕ → Plan κ S) (s : State κ S) {is : List ℕ} {j : ℕ}
    (h : j ∉ is) : (run (next plans) s is).stage j = s.stage j := by
  refine run_frame (fun t => t.stage j) ?_ s
  intro t i hi
  have hne : j ≠ i := fun he => h (he ▸ hi)
  unfold next
  split <;> simp [hne]

theorem quiet_of_two {plans : ℕ → Plan κ S} {runtime : BuiltRuntime κ} {rustls : Option S}
    {is : List ℕ} (his : ∀ i ∈ is, i = 0 ∨ i = 1)
    (h0 : (run (next plans) (start runtime rustls) is).stage 0 = .finished)
    (h1 : (run (next plans) (start runtime rustls) is).stage 1 = .finished) :
    Quiet (run (next plans) (start runtime rustls) is) := by
  intro i
  by_cases hi : i ∈ is
  · rcases his i hi with rfl | rfl
    · rw [h0]
      decide
    · rw [h1]
      decide
  · rw [run_stage_of_notMem plans _ hi]
    simp [start]

/-- The old version's certificates are swapped in, then the new version is reloaded as a
whole, then the old version's runtime is stored: old routes under the new certificate. -/
theorem interleaved_reloads_mix :
    ∃ old new, versionPlan "old" = .ok old ∧ versionPlan "new" = .ok new ∧
      let s := run (next (bothPlans old new)) (start sampleProcess.runtime (some [0])) [0, 1, 1, 0]
      Quiet s ∧ s.stage 0 = .finished ∧ s.stage 1 = .finished ∧
        s.runtime = old.runtime ∧ s.rustls = new.material ∧ ¬ FromOne (bothPlans old new) s := by
  obtain ⟨oldRuntime, hold, holdModels⟩ := versionPlan_old
  obtain ⟨newRuntime, hnew, hnewModels⟩ := versionPlan_new
  refine ⟨_, _, hold, hnew, quiet_of_two (by decide) rfl rfl, rfl, rfl, rfl, rfl, ?_⟩
  rintro ⟨i, -, hruntime, hmaterial⟩
  by_cases h0 : i = 0
  · subst h0
    have hrustls : some [2] = some ([1] : List UInt8) := hmaterial [1] rfl
    exact absurd hrustls (by decide)
  · have hnewer : bothPlans ⟨oldRuntime, some [1]⟩ ⟨newRuntime, some [2]⟩ i =
        ⟨newRuntime, some [2]⟩ := if_neg h0
    rw [hnewer] at hruntime
    have hmodels : oldRuntime.models = newRuntime.models := congrArg BuiltRuntime.models hruntime
    rw [holdModels, hnewModels] at hmodels
    exact absurd hmodels (by decide)

/-- Both reloads swap before either stores; the one that stores last swapped last. -/
theorem reloads_do_not_mix_overlapping :
    ∃ old new, versionPlan "old" = .ok old ∧ versionPlan "new" = .ok new ∧
      FromOne (bothPlans old new) (run (next (bothPlans old new))
        (start sampleProcess.runtime (some [0])) [0, 1, 0, 1]) := by
  obtain ⟨oldRuntime, hold, -⟩ := versionPlan_old
  obtain ⟨newRuntime, hnew, -⟩ := versionPlan_new
  refine ⟨_, _, hold, hnew, ?_⟩
  apply reloads_do_not_mix
  · refine ⟨fun h => ?_, fun h => ?_, fun _ halone => ?_, fun _ _ => rfl, trivial⟩
    · cases h
    · cases h
    · exact (halone 1 (by decide) rfl).elim
  · exact quiet_of_two (by decide) rfl rfl
  · exact ⟨0, rfl⟩

end Sample

end VaultplaneGateway.ConcurrentReloads
