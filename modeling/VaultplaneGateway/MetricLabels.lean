import VaultplaneGateway.CacheProvenance
import VaultplaneGateway.ProviderCalls
import VaultplaneGateway.RequestAccounting

/-!
# The labels of the metrics

Completions are counted by provider and model. Both labels come from an answer, directly
or through the cache, and an answer is labelled with the route it came by. So the pairs of
a run are those that the configuration has for the models its clients may use and did ask
for: the routes of a configured model, and one pair for every other name. A key with a
list of models bounds their number, a key without one does not. The request counter adds
the status to the pair, the histogram one of two cache labels.
-/
namespace VaultplaneGateway.MetricLabels
open WireFormats KeyRecords ResponseCaching ProxyPipeline TransitionRuns ConfigOverlay RuntimeBuilding
open CacheProvenance RequestAccounting ProviderCalls FallibleComputations
open RequestInterleaving hiding State next

variable {κ : Type}

/-- A gateway over a runtime that was built: the answers to a request are those of the
registry. A call that panics answers nothing. -/
structure Deployed (host : Host κ) (config : Config) (sys : System) where
  runtime : BuiltRuntime κ
  built : buildRuntime host config = .ok runtime
  surroundings : ℕ → Surroundings κ
  slow : ℕ → ℕ → RuntimeBuilding.Connector κ → ConnectorCall → Bool
  answers : ∀ rid call response, sys.upstream rid call = .ok response →
    (ProviderCalls.serve (surroundings rid) (slow rid) runtime.connector call).result =
      some (.ok response)

/-- The provider and the model that a completion is counted under. -/
def series : Report → Option (String × String)
  | .completion provider model _ _ _ _ => some (provider, model)
  | _ => none

/-- Every pair has an answer behind it. -/
def Sourced (s : RequestAccounting.State) : Prop :=
  ∀ x ∈ s.reports, ∀ label, series x.2 = some label →
    ∃ a ∈ s.flow.answers, (a.upstream.provider, a.upstream.model) = label

theorem series_receiveReport {rt : ProxyPipeline.Runtime} {tracker : SpendTracking.SpendTracker}
    {key : VirtualKey} {req : Request} {info : Meta} {now : ℕ} {report : Report}
    (h : receiveReport rt tracker key req info now = some report) : series report = none := by
  unfold receiveReport gateReport at h
  split_ifs at h
  · cases h
    rfl
  · cases h
    rfl
  · split at h
    · cases h
    · cases h
      rfl

theorem series_admissionReport {lib : Externals} {limiter : RateLimiting.RateLimiter}
    {key : VirtualKey} {now : Clock} {report : Report}
    (h : admissionReport lib limiter key now = some report) : series report = none := by
  unfold admissionReport at h
  split_ifs at h
  · cases h
    rfl
  · split at h
    · cases h
    · split_ifs at h
      cases h
      rfl

/-- A report with a provider and a model is made from a cached or a fresh answer. -/
theorem series_reportOf {sys : System} {rid : ℕ} {g : Gateway} {now : Clock} {start : ℚ} {ph : Phase}
    {report : Report} {label : String × String}
    (h : reportOf sys rid g now start ph = some report) (hseries : series report = some label) :
    (∃ k v, g.cache.get k = some v ∧ (v.provider, v.model) = label) ∨
      ∃ p upstream, ph = .answered p upstream ∧ (upstream.provider, upstream.model) = label := by
  cases ph with
  | cleared p =>
      obtain ⟨cached, hcached, rfl⟩ := Option.map_eq_some_iff.mp h
      obtain ⟨-, hget⟩ := cacheLookup_some hcached
      exact .inl ⟨_, cached, hget, Option.some.inj hseries⟩
  | answered p upstream =>
      obtain rfl := Option.some.inj h
      exact .inr ⟨p, upstream, rfl, Option.some.inj hseries⟩
  | admitted key =>
      rw [series_receiveReport h] at hseries
      cases hseries
  | identified key =>
      rw [series_admissionReport h] at hseries
      cases hseries
  | challenged =>
      simp only [reportOf] at h
      split at h
      · cases h
      · cases h
        cases hseries
  | waiting p =>
      simp only [reportOf] at h
      split at h
      · cases h
      · cases h
        cases hseries
  | _ => cases h

theorem sourced_next {sys : System} {keys : KeyStore} {es : List Event}
    {s : RequestAccounting.State} (hrec : Recorded sys keys es s.flow) (h : Sourced s) (e : Event) :
    Sourced (RequestAccounting.next sys s e) := by
  cases e with
  | step rid now =>
      intro x hx label hlabel
      have hold {a : Answer} (ha : a ∈ s.flow.answers) :
          a ∈ (RequestAccounting.next sys s (.step rid now)).flow.answers :=
        List.mem_append_right _ ha
      rcases List.mem_append.mp hx with hnew | hx
      · obtain ⟨report, hreport, rfl⟩ := Option.map_eq_some_iff.mp (Option.mem_toList.mp hnew)
        rcases series_reportOf hreport hlabel with hhit | hmiss
        · obtain ⟨k, v, hget, hv⟩ := hhit
          obtain ⟨a, ha, hst⟩ := hrec.entries k v hget
          obtain ⟨bytes, -, rfl⟩ := hst.drained
          exact ⟨a, hold ha, hv⟩
        · obtain ⟨p, upstream, hph, hu⟩ := hmiss
          exact ⟨⟨p, upstream⟩, hold (hrec.pending rid p upstream (.inl hph)), hu⟩
      · obtain ⟨a, ha, heq⟩ := h x hx label hlabel
        exact ⟨a, hold ha, heq⟩
  | keys store => exact h
  | forgetRate keyId => exact h
  | forgetSpend keyId => exact h
  | evict cacheKey => exact h

def virtualModel (sys : System) (rid : ℕ) : String :=
  (requestMeta sys.lib (sys.requests rid)).virtualModel

/-- The key of a request that is past the gates may use its model. -/
def Permitted : Phase → Prop
  | .cleared p => p.key.allowsModel p.virtualModel = true
  | .waiting p => p.key.allowsModel p.virtualModel = true
  | .answered p _ => p.key.allowsModel p.virtualModel = true
  | .settled p _ => p.key.allowsModel p.virtualModel = true
  | _ => True

theorem allowsModel_of_gate {rt : ProxyPipeline.Runtime} {tracker : SpendTracking.SpendTracker}
    {key : VirtualKey} {req : Request} {info : Meta} {now : ℕ} {p : Prepared}
    (h : gate rt tracker key req info now = .ok p) : p.key.allowsModel p.virtualModel = true := by
  unfold gate at h
  split_ifs at h with hmodel
  split at h
  · cases h
    simpa using hmodel
  · cases h

theorem permitted_advance {sys : System} {rid : ℕ} {g : Gateway} {now : Clock} {ph : Phase}
    (h : Permitted ph) : Permitted (advance sys rid g now ph).2 := by
  cases ph with
  | arrived =>
      simp only [advance]
      split_ifs <;> trivial
  | challenged =>
      simp only [advance]
      split <;> trivial
  | identified key =>
      simp only [advance]
      split <;> trivial
  | admitted key =>
      simp only [advance]
      split
      · rename_i p hgate
        exact allowsModel_of_gate (receive_eq_ok hgate).2
      · trivial
  | cleared p =>
      simp only [advance]
      split
      · trivial
      · exact h
  | waiting p =>
      simp only [advance]
      split
      · exact h
      · trivial
  | answered p upstream => exact h
  | settled p upstream =>
      simp only [advance, Phase.ofReply]
      split <;> trivial
  | streaming response observer =>
      simp only [advance]
      split_ifs <;> trivial
  | done response => trivial

/-- Who gave the answers, and to requests of which keys. -/
structure Routed (sys : System) (s : RequestInterleaving.State) : Prop where
  permitted : ∀ rid, Permitted (s.phases rid)
  answered : ∀ a ∈ s.answers, a.request.key.allowsModel a.request.virtualModel = true ∧
    ∃ rid, sys.upstream rid a.request.call = .ok a.upstream

theorem Routed.next {sys : System} {s : RequestInterleaving.State} (h : Routed sys s) (e : Event) :
    Routed sys (RequestInterleaving.next sys s e) := by
  cases e with
  | step rid now =>
      constructor
      · intro rid'
        by_cases hr : rid' = rid
        · subst hr
          simp only [RequestInterleaving.next, Function.update_self]
          exact permitted_advance (h.permitted rid')
        · simp only [RequestInterleaving.next, Function.update_of_ne hr]
          exact h.permitted rid'
      · intro a ha
        rcases List.mem_append.mp ha with hnew | hold
        · obtain ⟨hph, hupstream⟩ := mem_obtains hnew
          have hpermitted := h.permitted rid
          rw [hph] at hpermitted
          exact ⟨hpermitted, rid, hupstream⟩
        · exact h.answered a hold
  | keys store => exact ⟨h.permitted, h.answered⟩
  | forgetRate keyId => exact ⟨h.permitted, h.answered⟩
  | forgetSpend keyId => exact ⟨h.permitted, h.answered⟩
  | evict cacheKey => exact ⟨h.permitted, h.answered⟩

/-- All that is known of a state of a run with these events. -/
structure Traced (sys : System) (keys : KeyStore) (es : List Event)
    (s : RequestAccounting.State) : Prop where
  recorded : Recorded sys keys es s.flow
  routed : Routed sys s.flow
  sourced : Sourced s

theorem traced_run (sys : System) {g : Gateway} (hcache : g.cache = ResponseCache.empty)
    (es : List Event) : Traced sys g.keys es (run (RequestAccounting.next sys) (.start g) es) := by
  refine run_invariant _ (Traced sys g.keys es) es ?_ _ ?_
  · intro s e he h
    refine ⟨?_, ?_, sourced_next h.recorded h.sourced e⟩
    · rw [next_flow]
      exact h.recorded.next he
    · rw [next_flow]
      exact h.routed.next e
  · refine ⟨recorded_start sys hcache es, ⟨fun _ => trivial, ?_⟩, ?_⟩
    · intro a ha
      exact (List.not_mem_nil ha).elim
    · intro x hx
      exact (List.not_mem_nil hx).elim

theorem virtualModel_of_prepare {sys : System} {rid : ℕ} {key : VirtualKey} {p : Prepared}
    (h : sys.prepare rid key = some p) : p.virtualModel = virtualModel sys rid := by
  unfold System.prepare at h
  split at h
  · rw [← Option.some.inj h]
    rfl
  · cases h

section
variable {host : Host κ} {config : Config} {sys : System}

/-- A pair is one that the configuration has for a model that some request of the run
asked for, with a key that may use it. -/
theorem label_of_series (d : Deployed host config sys) {g : Gateway}
    (hcache : g.cache = ResponseCache.empty) (es : List Event) {rid : ℕ} {report : Report}
    (hmem : (rid, report) ∈ (run (RequestAccounting.next sys) (.start g) es).reports)
    {label : String × String} (hlabel : series report = some label) :
    ∃ asker key, Known sys g.keys es asker key ∧
      key.allowsModel (virtualModel sys asker) = true ∧
      label ∈ labels config (virtualModel sys asker) := by
  have h := traced_run sys hcache es
  obtain ⟨a, ha, rfl⟩ := h.sourced _ hmem label hlabel
  obtain ⟨asker, hknown, hprepare⟩ := h.recorded.offered a ha
  obtain ⟨hallowed, rid', hupstream⟩ := h.routed.answered a ha
  have hmodel := virtualModel_of_prepare hprepare
  refine ⟨asker, a.request.key, hknown, ?_, ?_⟩
  · rw [← hmodel]
    exact hallowed
  · rw [← hmodel]
    exact label_of_serve _ _ d.built (d.answers rid' _ _ hupstream)

/-- In every interleaving a completion is counted under a provider and a model that the
configuration has for a model that some request of the run asked for, with a key that may
use it. If those models are in a list, the list and the configuration bound the number of
provider and model pairs, however long the run is. -/
theorem series_are_bounded (d : Deployed host config sys) (g : Gateway)
    (hcache : g.cache = ResponseCache.empty) (es : List Event) :
    let s := run (RequestAccounting.next sys) (.start g) es
    (∀ rid report label, (rid, report) ∈ s.reports → series report = some label →
      ∃ asker key, Known sys g.keys es asker key ∧
        key.allowsModel (virtualModel sys asker) = true ∧
        label ∈ labels config (virtualModel sys asker)) ∧
    ∀ names : List String,
      (∀ asker key, Known sys g.keys es asker key →
        key.allowsModel (virtualModel sys asker) = true → virtualModel sys asker ∈ names) →
      (s.reports.filterMap fun x => series x.2).dedup.length ≤
        (names.flatMap (labels config)).length := by
  intro s
  have hall : ∀ rid report label, (rid, report) ∈ s.reports → series report = some label →
      ∃ asker key, Known sys g.keys es asker key ∧
        key.allowsModel (virtualModel sys asker) = true ∧
        label ∈ labels config (virtualModel sys asker) := by
    intro rid report label hmem hlabel
    exact label_of_series d hcache es hmem hlabel
  refine ⟨hall, ?_⟩
  intro names hnames
  apply List.Subperm.length_le
  apply List.subperm_of_subset (List.nodup_dedup _)
  intro label hlabel
  obtain ⟨x, hx, hseries⟩ := List.mem_filterMap.mp (List.mem_dedup.mp hlabel)
  obtain ⟨asker, key, hknown, hallowed, hmem⟩ := hall x.1 x.2 label hx hseries
  exact List.mem_flatMap.mpr ⟨_, hnames asker key hknown hallowed, hmem⟩

end

section Sample

/-- Every request that is posted succeeds. -/
def openNetwork : Surroundings Unit :=
  { sampleSurroundings with post := fun _ _ => .ok ⟨⟨200, []⟩, none⟩ }

/-- The first request asks for one model, the others for another; nobody needs a key. -/
def namedSystem : System where
  lib :=
    { sha256 := id
      fromSlice := fun _ => none
      fromSliceAs := fun _ b =>
        some (.object [("model", .string (if b = [] then "one" else "two"))])
      parseRfc3339 := fun _ => none }
  runtime := ⟨⟨fun _ => none⟩, false, []⟩
  requests rid := ⟨.chat, [], if rid = 0 then [] else [0]⟩
  upstream _ call := (ProviderCalls.serve openNetwork (fun _ _ _ => false)
    emptyRuntime.connector call).result.getD (.error (.provider "panicked"))

def namedDeployment : Deployed sampleHost {} namedSystem where
  runtime := emptyRuntime
  built := emptyRuntime_built
  surroundings _ := openNetwork
  slow _ _ _ _ := false
  answers rid call response h := by
    change (ProviderCalls.serve openNetwork (fun _ _ _ => false) emptyRuntime.connector
      call).result.getD (.error (.provider "panicked")) = .ok response at h
    cases hresult : (ProviderCalls.serve openNetwork (fun _ _ _ => false) emptyRuntime.connector
        call).result with
    | none =>
        rw [hresult] at h
        cases h
    | some result =>
        rw [hresult] at h
        exact congrArg some h

/-- Two names that are not configured make two pairs. -/
theorem two_names_two_series :
    let es : List Event := List.replicate 6 (.step 0 ⟨0, 0⟩) ++ List.replicate 6 (.step 1 ⟨0, 0⟩)
    let s := run (RequestAccounting.next namedSystem) (.start emptyGateway) es
    (s.reports.filterMap fun x => series x.2) = [("openai", "two"), ("openai", "one")] ∧
      (s.reports.filterMap fun x => series x.2).dedup.length ≤
        (["one", "two"].flatMap (labels {})).length := by
  intro es s
  refine ⟨by decide +kernel, ?_⟩
  apply (series_are_bounded namedDeployment emptyGateway rfl es).2
  intro asker key _ _
  unfold virtualModel namedSystem
  by_cases hasker : asker = 0
  · simp [hasker, requestMeta, chatMeta, ChatMeta.decode, structField, optionString]
  · simp [hasker, requestMeta, chatMeta, ChatMeta.decode, structField, optionString]

end Sample

end VaultplaneGateway.MetricLabels
