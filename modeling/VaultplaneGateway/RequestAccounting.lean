import VaultplaneGateway.CostMetrics
import VaultplaneGateway.RequestInterleaving

/-!
# What the gateway reports of its requests

A request leaves one mark in the metrics: a completion if the cache or an upstream gave
an answer, a rejection otherwise. The marks are set on the way, at seven places of the
middleware and the handlers, by requests that run in any order, and the recorder keeps
sums only. A rejection by a plugin is also written to the audit log.

The reports of a run are kept beside the recorder, with the request each is about. No
step reads them.
-/
namespace VaultplaneGateway.RequestAccounting
open WireFormats KeyRecords RateLimiting SpendTracking ResponseCaching InlinePlugins StreamUsage
open ProxyPipeline TransitionRuns CostMetrics
open RequestInterleaving hiding State next

inductive Reason where
  | auth | expired | rateLimit | spendLimit | forbiddenModel | plugin | upstreamError
  deriving DecidableEq, Repr

def Reason.label : Reason → String
  | .auth => "auth"
  | .expired => "expired"
  | .rateLimit => "rate_limit"
  | .spendLimit => "spend_limit"
  | .forbiddenModel => "forbidden_model"
  | .plugin => "plugin"
  | .upstreamError => "upstream_error"

structure Metrics extends Recorder where
  rejectionsTotal : String → UInt64

def Metrics.empty : Metrics := ⟨Recorder.empty, fun _ => 0⟩

def recordRejection (m : Metrics) (reason : Reason) : Metrics :=
  { m with
    rejectionsTotal := Function.update m.rejectionsTotal reason.label
      (m.rejectionsTotal reason.label + 1) }

/-- A `plugin.reject` event of the audit log. -/
structure PluginRejected where
  virtualKeyId : String
  plugin : String
  reason : String
  status : UInt16
  deriving DecidableEq, Repr

inductive Report where
  | rejection (reason : Reason)
  | pluginRejection (event : PluginRejected)
  | completion (provider model : String) (status : UInt16) (cacheLabel : CacheLabel)
      (durationSeconds : ℚ) (costUsd : Option ℚ)

def Metrics.report (m : Metrics) : Report → Metrics
  | .rejection reason => recordRejection m reason
  | .pluginRejection _ => recordRejection m .plugin
  | .completion provider model status cacheLabel durationSeconds costUsd =>
      { m with
        toRecorder := recordCompletion m.toRecorder provider model status cacheLabel
          durationSeconds costUsd }

def Report.event : Report → Option PluginRejected
  | .pluginRejection event => some event
  | _ => none

/-- The report is counted under this reason. -/
def Report.refuses (reason : Reason) : Report → Bool
  | .rejection r => r == reason
  | .pluginRejection _ => .plugin == reason
  | .completion .. => false

/-- The report is counted under these labels. -/
def Report.completes (labels : String × String × UInt16) : Report → Bool
  | .completion provider model status _ _ _ => (provider, model, status) == labels
  | _ => false

/-- Expiry, then the rate limit. -/
def admissionReport (lib : Externals) (limiter : RateLimiter) (key : VirtualKey) (now : Clock) :
    Option Report :=
  if key.isExpired lib now.utc then some (.rejection .expired)
  else
    match key.rateLimitRps with
    | none => none
    | some rps =>
        if (limiter.check key.identifier rps now.mono).2 then none
        else some (.rejection .rateLimit)

/-- Model scope, spend limit, plugins. -/
def gateReport (rt : Runtime) (tracker : SpendTracker) (key : VirtualKey) (req : Request)
    (info : Meta) (now : ℕ) : Option Report :=
  if !key.allowsModel info.virtualModel then some (.rejection .forbiddenModel)
  else if (key.spendLimit.any fun limit => !tracker.preCheck key.identifier limit now) then
    some (.rejection .spendLimit)
  else
    match runPlugins rt.plugins req.endpoint.path info.virtualModel req.body with
    | .ok _ => none
    | .error rejection => some (.pluginRejection
        ⟨key.identifier, rejection.plugin, rejection.info.reason, rejection.info.statusCode⟩)

/-- The body limit is enforced before the handler begins, and counts nothing. -/
def receiveReport (rt : Runtime) (tracker : SpendTracker) (key : VirtualKey) (req : Request)
    (info : Meta) (now : ℕ) : Option Report :=
  if bodyLimit < req.body.length then none else gateReport rt tracker key req info now

/-- `Instant::elapsed` does not go below zero. -/
def elapsed (start now : ℚ) : ℚ := max 0 (now - start)

/-- The report of a step of request `rid` whose handler started at `start`. -/
def reportOf (sys : System) (rid : ℕ) (g : Gateway) (now : Clock) (start : ℚ) :
    Phase → Option Report
  | .challenged =>
      match (bearerToken (sys.requests rid).headers).bind (g.keys.authenticate sys.lib) with
      | some _ => none
      | none => some (.rejection .auth)
  | .identified key => admissionReport sys.lib g.limiter key now
  | .admitted key =>
      receiveReport sys.runtime g.tracker key (sys.requests rid)
        (requestMeta sys.lib (sys.requests rid)) now.utc
  | .cleared p =>
      (cacheLookup sys.lib sys.runtime g.cache p).map fun cached =>
        .completion cached.provider cached.model cached.status .hit (elapsed start now.mono) none
  | .waiting p =>
      match sys.upstream rid p.call with
      | .ok _ => none
      | .error _ => some (.rejection .upstreamError)
  | .answered _ upstream =>
      some (.completion upstream.provider upstream.model upstream.status .miss
        (elapsed start now.mono)
        (upstream.usage.bind (compute sys.runtime.pricing upstream.provider upstream.model)))
  | _ => none

structure State where
  flow : RequestInterleaving.State
  started : ℕ → ℚ
  metrics : Metrics
  audit : List PluginRejected
  reports : List (ℕ × Report)

def State.start (g : Gateway) : State := ⟨.start g, fun _ => 0, .empty, [], []⟩

/-- The clock that a handler reads first. -/
def startedBy (started : ℕ → ℚ) (rid : ℕ) (now : Clock) : Phase → ℕ → ℚ
  | .admitted _ => Function.update started rid now.mono
  | _ => started

def next (sys : System) (s : State) (e : Event) : State :=
  match e with
  | .step rid now =>
      let report := reportOf sys rid s.flow.gateway now (s.started rid) (s.flow.phases rid)
      { flow := RequestInterleaving.next sys s.flow (.step rid now)
        started := startedBy s.started rid now (s.flow.phases rid)
        metrics := report.elim s.metrics s.metrics.report
        audit := (report.bind Report.event).toList ++ s.audit
        reports := (report.map (Prod.mk rid)).toList ++ s.reports }
  | e => { s with flow := RequestInterleaving.next sys s.flow e }

theorem next_flow (sys : System) (s : State) (e : Event) :
    (next sys s e).flow = RequestInterleaving.next sys s.flow e := by
  cases e <;> rfl

/-- Reporting does not change what the gateway does. -/
theorem run_flow (sys : System) (g : Gateway) (es : List Event) :
    (run (next sys) (.start g) es).flow = run (RequestInterleaving.next sys) (.start g) es :=
  run_view (I := fun _ => True) (fun _ _ _ => trivial) (fun s e _ => next_flow sys s e) trivial es

/-- The outcome of the request is settled, though its answer may still have to be sent. -/
def decided : Phase → Bool
  | .settled .. => true
  | .streaming .. => true
  | .done _ => true
  | _ => false

/-- The outcome is counted somewhere, unless it is that the body is too long. -/
def Counted (ph : Phase) : Prop := decided ph = true ∧ ph.response ≠ some payloadTooLarge

/-- The response that is built of a status, a content type and a body. Where the builder
takes them, the client gets them, and a 502 otherwise. -/
inductive Built (status : UInt16) (contentType : Option String) (body : Body) (label : CacheLabel) :
    Response → Prop
  | whole (h : buildable status contentType = true) :
      Built status contentType body label ⟨status, contentType, some label, body⟩
  | unbuildable (h : buildable status contentType = false) :
      Built status contentType body label (error 502 "invalid upstream response")

/-- The answer is one to be cached: its body is drained before the client gets it. -/
def drains (lib : Externals) (rt : Runtime) (p : Prepared) (upstream : ChatResponse) : Bool :=
  (cacheKey lib p).isSome && (rt.cacheEnabled && upstream.status == 200)

/-- What the client gets of an answer of the upstream: a 502 if its body was to be drained
and could not be, and otherwise what is built of it. -/
inductive Delivered (lib : Externals) (rt : Runtime) (p : Prepared) (upstream : ChatResponse) :
    Response → Prop
  | drained {bytes : Bytes} {r : Response} (hdrains : drains lib rt p upstream = true)
      (h : collectBody upstream.body = .ok bytes)
      (hr : Built upstream.status upstream.contentType (.bytes bytes) .miss r) :
      Delivered lib rt p upstream r
  | unreadable {e : String} (hdrains : drains lib rt p upstream = true)
      (h : collectBody upstream.body = .error e) :
      Delivered lib rt p upstream (error 502 "failed to read upstream response")
  | passed {r : Response} (hdrains : drains lib rt p upstream = false)
      (hr : Built upstream.status upstream.contentType (.stream upstream.body) .miss r) :
      Delivered lib rt p upstream r

/-- The reports and the answers to the client, place by place: request `rid` was in this phase
when it was reported so, over these stores, and is answered so. -/
inductive Explains (sys : System) (rid : ℕ) (g : Gateway) : Phase → Report → Response → Prop
  | unknown : Explains sys rid g .challenged (.rejection .auth)
      (error 401 "missing or invalid virtual key")
  | expired {key : VirtualKey} : Explains sys rid g (.identified key) (.rejection .expired)
      (error 401 "virtual key has expired")
  | rateLimited {key : VirtualKey} : Explains sys rid g (.identified key) (.rejection .rateLimit)
      (error 429 "rate limit exceeded")
  | forbidden {key : VirtualKey} : Explains sys rid g (.admitted key) (.rejection .forbiddenModel)
      (error 403 "virtual key is not allowed to use this model")
  | overspent {key : VirtualKey} : Explains sys rid g (.admitted key) (.rejection .spendLimit)
      (error 402 "spend limit exceeded for this period")
  | rejected {key : VirtualKey} {event : PluginRejected} :
      Explains sys rid g (.admitted key) (.pluginRejection event)
        (error (if validStatus event.status then event.status else 403) event.reason)
  | failed {p : Prepared} {err : CoreError} (h : sys.upstream rid p.call = .error err) :
      Explains sys rid g (.waiting p) (.rejection .upstreamError) (upstreamErrorResponse err)
  | hit {p : Prepared} {cached : CachedResponse} {duration : ℚ} {r : Response}
      (h : cacheLookup sys.lib sys.runtime g.cache p = some cached)
      (hr : Built cached.status cached.contentType (.bytes cached.body) .hit r) :
      Explains sys rid g (.cleared p)
        (.completion cached.provider cached.model cached.status .hit duration none) r
  | miss {p : Prepared} {upstream : ChatResponse} {duration : ℚ} {r : Response}
      (hr : Delivered sys.lib sys.runtime p upstream r) :
      Explains sys rid g (.answered p upstream)
        (.completion upstream.provider upstream.model upstream.status .miss duration
          (upstream.usage.bind (compute sys.runtime.pricing upstream.provider upstream.model))) r

/-- The report, made of a request in phase `origin` over these stores, fits where the request
is now. -/
def Told (sys : System) (rid : ℕ) (g : Gateway) (origin : Phase) (report : Report) : Phase → Prop
  | .settled p upstream => origin = .answered p upstream ∧ ∃ duration, report =
      .completion upstream.provider upstream.model upstream.status .miss duration
        (upstream.usage.bind (compute sys.runtime.pricing upstream.provider upstream.model))
  | .streaming response _ => Explains sys rid g origin report response
  | .done response => Explains sys rid g origin report response
  | _ => False

theorem built_buildResponse (status : UInt16) (contentType : Option String) (body : Body)
    (label : CacheLabel) :
    Built status contentType body label (buildResponse status contentType body label) := by
  unfold buildResponse
  split_ifs with hbuild
  · exact .whole hbuild
  · exact .unbuildable (Bool.eq_false_iff.mpr hbuild)

theorem delivered_respond (lib : Externals) (rt : Runtime) (cache : ResponseCache) (p : Prepared)
    (upstream : ChatResponse) :
    Delivered lib rt p upstream (respond lib rt cache p upstream).2.response := by
  unfold respond
  split
  · rename_i k hkey hok
    have hdrains : drains lib rt p upstream = true := by simp [drains, hkey, hok]
    split
    · rename_i bytes hbytes
      exact .drained hdrains hbytes (built_buildResponse ..)
    · rename_i e herr
      exact .unreadable hdrains herr
  · rename_i hno
    have hdrains : drains lib rt p upstream = false := by
      rw [Bool.eq_false_iff]
      intro h
      obtain ⟨hkey, hok⟩ := Bool.and_eq_true_iff.mp h
      obtain ⟨k, hk⟩ := Option.isSome_iff_exists.mp hkey
      exact hno k hk hok
    exact .passed hdrains (built_buildResponse ..)

/-- The extractor alone answers in plain text. -/
theorem ne_of_json {r : Response} (h : r.contentType = some "application/json") :
    r ≠ payloadTooLarge := by
  rintro rfl
  exact absurd h (by decide)

theorem built_ne {status : UInt16} {contentType : Option String} {body : Body} {label : CacheLabel}
    {r : Response} (h : Built status contentType body label r) : r ≠ payloadTooLarge := by
  cases h with
  | whole h => exact fun heq => nomatch congrArg Response.cache heq
  | unbuildable h => exact ne_of_json rfl

/-- Every reported answer differs from the one that is not counted. -/
theorem explains_ne {sys : System} {rid : ℕ} {g : Gateway} {origin : Phase} {report : Report}
    {r : Response} (h : Explains sys rid g origin report r) : r ≠ payloadTooLarge := by
  cases h with
  | failed h =>
      apply ne_of_json
      rename_i p err
      cases err <;> rfl
  | hit h hr => exact built_ne hr
  | miss hr =>
      cases hr with
      | drained hdrains h hr => exact built_ne hr
      | unreadable hdrains h => exact ne_of_json rfl
      | passed hdrains hr => exact built_ne hr
  | _ => exact ne_of_json rfl

theorem counted_of_told {sys : System} {rid : ℕ} {g : Gateway} {origin : Phase} {report : Report}
    {ph : Phase} (h : Told sys rid g origin report ph) : Counted ph := by
  cases ph with
  | settled p upstream => exact ⟨rfl, nofun⟩
  | streaming response observer => exact ⟨rfl, fun heq => explains_ne h (Option.some.inj heq)⟩
  | done response => exact ⟨rfl, fun heq => explains_ne h (Option.some.inj heq)⟩
  | _ => exact h.elim

/-- What a step makes of a phase agrees with what it reports: without a report nothing is
decided but that the body is too long. -/
def Agrees (sys : System) (rid : ℕ) (g : Gateway) (origin : Phase) (ph : Phase) :
    Option Report → Prop
  | some report => Told sys rid g origin report ph
  | none => decided ph = false ∨
      ph = .done payloadTooLarge ∧ bodyLimit < (sys.requests rid).body.length

section
variable (sys : System) (rid : ℕ) (g : Gateway) (now : Clock) (start : ℚ)

theorem agrees_admission (key : VirtualKey) :
    Agrees sys rid g (.identified key) (match (admission sys.lib g.limiter key now).2 with
      | some refusal => Phase.done refusal
      | none => .admitted key) (admissionReport sys.lib g.limiter key now) := by
  unfold admission admissionReport
  split_ifs with hexpired
  · exact .expired
  · cases hrps : key.rateLimitRps with
    | none => exact .inl rfl
    | some rps =>
        dsimp only
        cases (g.limiter.check key.identifier rps now.mono).2 with
        | true => exact .inl rfl
        | false => exact .rateLimited

theorem agrees_receive (key : VirtualKey) (info : Meta) :
    Agrees sys rid g (.admitted key)
      (match receive sys.runtime g.tracker key (sys.requests rid) info now.utc with
        | .ok p => Phase.cleared p
        | .error refusal => .done refusal)
      (receiveReport sys.runtime g.tracker key (sys.requests rid) info now.utc) := by
  unfold receive receiveReport
  split_ifs with hlong
  · exact .inr ⟨rfl, hlong⟩
  · unfold gate gateReport
    split_ifs with hmodel hspend
    · exact .forbidden
    · exact .overspent
    · cases runPlugins sys.runtime.plugins (sys.requests rid).endpoint.path info.virtualModel
          (sys.requests rid).body with
      | ok body => exact .inl rfl
      | error rejection => exact .rejected

/-- A step of a request that is not decided reports if it decides it. -/
theorem agrees_step {ph : Phase} (h : decided ph = false) :
    Agrees sys rid g ph (advance sys rid g now ph).2 (reportOf sys rid g now start ph) := by
  cases ph with
  | arrived =>
      simp only [advance, reportOf]
      split_ifs
      · exact .inl rfl
      · exact .inl rfl
  | challenged =>
      simp only [advance, reportOf]
      cases (bearerToken (sys.requests rid).headers).bind (g.keys.authenticate sys.lib) with
      | some key => exact .inl rfl
      | none => exact .unknown
  | identified key => exact agrees_admission sys rid g now key
  | admitted key => exact agrees_receive sys rid g now key _
  | cleared p =>
      simp only [advance, reportOf]
      cases hlookup : cacheLookup sys.lib sys.runtime g.cache p with
      | none => exact .inl rfl
      | some cached => exact .hit hlookup (built_buildResponse ..)
  | waiting p =>
      simp only [advance, reportOf]
      cases hupstream : sys.upstream rid p.call with
      | ok upstream => exact .inl rfl
      | error err => exact .failed hupstream
  | answered p upstream => exact ⟨rfl, _, rfl⟩
  | settled p upstream => cases h
  | streaming response observer => cases h
  | done response => cases h

theorem reportOf_of_decided {ph : Phase} (h : decided ph = true) :
    reportOf sys rid g now start ph = none := by
  cases ph with
  | settled p upstream => rfl
  | streaming response observer => rfl
  | done response => rfl
  | _ => cases h

/-- Later steps do not contradict a report. -/
theorem told_advance {g' : Gateway} {origin : Phase} {report : Report} {ph : Phase}
    (h : Told sys rid g' origin report ph) :
    Told sys rid g' origin report (advance sys rid g now ph).2 := by
  cases ph with
  | settled p upstream =>
      obtain ⟨rfl, duration, rfl⟩ := h
      have hexplains : Explains sys rid g' (.answered p upstream)
          (.completion upstream.provider upstream.model upstream.status .miss duration
            (upstream.usage.bind (compute sys.runtime.pricing upstream.provider upstream.model)))
          (respond sys.lib sys.runtime g.cache p upstream).2.response :=
        .miss (delivered_respond sys.lib sys.runtime g.cache p upstream)
      simp only [advance, Phase.ofReply]
      cases (respond sys.lib sys.runtime g.cache p upstream).2.observer with
      | none => exact hexplains
      | some observer => exact hexplains
  | streaming response observer =>
      simp only [advance]
      split_ifs
      · exact h
      · exact h
  | done response => exact h
  | _ => exact h.elim

/-- A decided request stays as it is counted. -/
theorem decided_advance {ph : Phase} (h : decided ph = true) :
    (Counted (advance sys rid g now ph).2 ↔ Counted ph) ∧
      ((advance sys rid g now ph).2.response = some payloadTooLarge →
        ph.response = some payloadTooLarge) := by
  cases ph with
  | settled p upstream =>
      have htold : Told sys rid g (.answered p upstream) _ (.settled p upstream) := ⟨rfl, 0, rfl⟩
      have hcounted := counted_of_told (told_advance sys rid g now htold)
      exact ⟨iff_of_true hcounted ⟨rfl, nofun⟩, fun hr => (hcounted.2 hr).elim⟩
  | streaming response observer =>
      simp only [advance]
      split_ifs
      · exact ⟨Iff.rfl, id⟩
      · exact ⟨Iff.rfl, id⟩
  | done response => exact ⟨Iff.rfl, id⟩
  | _ => cases h

end

theorem label_injective {a b : Reason} (h : a.label = b.label) : a = b := by
  cases a <;> cases b <;> first | rfl | exact absurd h (by decide)

theorem report_rejectionsTotal (m : Metrics) (report : Report) (reason : Reason) :
    (m.report report).rejectionsTotal reason.label =
      m.rejectionsTotal reason.label + if report.refuses reason then 1 else 0 := by
  have hbump (r : Reason) : (recordRejection m r).rejectionsTotal reason.label =
      m.rejectionsTotal reason.label + if r = reason then 1 else 0 := by
    unfold recordRejection
    dsimp only
    by_cases hr : r = reason
    · rw [hr, Function.update_self, if_pos rfl]
    · rw [Function.update_of_ne fun h => hr (label_injective h).symm, if_neg hr, UInt64.add_zero]
  cases report with
  | rejection r =>
      rw [Metrics.report, hbump, Report.refuses]
      simp only [beq_iff_eq]
  | pluginRejection event =>
      rw [Metrics.report, hbump, Report.refuses]
      simp only [beq_iff_eq]
  | completion provider model status label duration cost => exact (UInt64.add_zero _).symm

theorem report_requestsTotal (m : Metrics) (report : Report) (labels : String × String × UInt16) :
    (m.report report).requestsTotal labels =
      m.requestsTotal labels + if report.completes labels then 1 else 0 := by
  cases report with
  | rejection r => exact (UInt64.add_zero _).symm
  | pluginRejection event => exact (UInt64.add_zero _).symm
  | completion provider model status label duration cost =>
      simp only [Metrics.report, recordCompletion, Report.completes, beq_iff_eq]
      by_cases hlabels : (provider, model, status) = labels
      · rw [hlabels, Function.update_self, if_pos rfl]
      · rw [Function.update_of_ne fun h => hlabels h.symm, if_neg hlabels, UInt64.add_zero]

/-- A counter that moves with the reports it is about counts them, up to 64 bits. -/
theorem counts_cons {counter : UInt64} {reports : List (ℕ × Report)} (counted : Report → Bool)
    (h : counter = UInt64.ofNat (reports.countP fun x => counted x.2)) (rid : ℕ) (report : Report) :
    counter + (if counted report then 1 else 0) =
      UInt64.ofNat (((rid, report) :: reports).countP fun x => counted x.2) := by
  rw [List.countP_cons, UInt64.ofNat_add, ← h]
  cases counted report <;> rfl

/-- A request that is not reported on is counted as it was, and newly told that its body is
too long only if it is. -/
structure Unchanged (sys : System) (rid : ℕ) (ph ph' : Phase) : Prop where
  counted : Counted ph' ↔ Counted ph
  refused : ph'.response = some payloadTooLarge →
    ph.response = some payloadTooLarge ∨ bodyLimit < (sys.requests rid).body.length

theorem unchanged_of_agrees {sys : System} {rid : ℕ} {g : Gateway} {ph ph' : Phase}
    (h : Agrees sys rid g ph ph' none) (hd : decided ph = false) : Unchanged sys rid ph ph' := by
  have hbefore : ¬ Counted ph := fun hc => by
    rw [hc.1] at hd
    cases hd
  rcases h with hd' | ⟨rfl, hlong⟩
  · refine ⟨iff_of_false (fun hc => ?_) hbefore, fun hr => ?_⟩
    · rw [hc.1] at hd'
      cases hd'
    · cases ph' with
      | streaming response observer => cases hd'
      | done response => cases hd'
      | _ => cases hr
  · exact ⟨iff_of_false (fun hc => hc.2 rfl) hbefore, fun _ => .inr hlong⟩

/-- An event reports nothing and decides nothing that is counted, or it decides one request
and reports that. -/
inductive Reported (sys : System) (s t : State) : Prop
  | quiet (reports : t.reports = s.reports) (metrics : t.metrics = s.metrics)
      (audit : t.audit = s.audit)
      (phases : ∀ rid, Unchanged sys rid (s.flow.phases rid) (t.flow.phases rid))
  | told (rid : ℕ) (report : Report) (reports : t.reports = (rid, report) :: s.reports)
      (metrics : t.metrics = s.metrics.report report)
      (audit : t.audit = report.event.toList ++ s.audit)
      (undecided : decided (s.flow.phases rid) = false)
      (told : Told sys rid s.flow.gateway (s.flow.phases rid) report (t.flow.phases rid))
      (others : ∀ other, other ≠ rid → t.flow.phases other = s.flow.phases other)

theorem next_phases (sys : System) (s : State) (rid : ℕ) (now : Clock) :
    (next sys s (.step rid now)).flow.phases =
      Function.update s.flow.phases rid (advance sys rid s.flow.gateway now (s.flow.phases rid)).2 :=
  rfl

theorem reported_step (sys : System) (s : State) (rid : ℕ) (now : Clock) :
    Reported sys s (next sys s (.step rid now)) := by
  have hphase : (next sys s (.step rid now)).flow.phases rid =
      (advance sys rid s.flow.gateway now (s.flow.phases rid)).2 := by
    rw [next_phases, Function.update_self]
  have hothers : ∀ other, other ≠ rid →
      (next sys s (.step rid now)).flow.phases other = s.flow.phases other := by
    intro other hne
    rw [next_phases, Function.update_of_ne hne]
  have hquiet (hreport : reportOf sys rid s.flow.gateway now (s.started rid) (s.flow.phases rid) =
      none) (hsame : Unchanged sys rid (s.flow.phases rid)
        (advance sys rid s.flow.gateway now (s.flow.phases rid)).2) :
      Reported sys s (next sys s (.step rid now)) := by
    refine .quiet ?_ ?_ ?_ ?_
    · simp only [next, hreport, Option.map_none, Option.toList_none, List.nil_append]
    · simp only [next, hreport, Option.elim_none]
    · simp only [next, hreport, Option.bind_none, Option.toList_none, List.nil_append]
    · intro other
      by_cases hr : other = rid
      · rw [hr, hphase]
        exact hsame
      · rw [hothers other hr]
        exact ⟨Iff.rfl, .inl⟩
  cases hd : decided (s.flow.phases rid) with
  | true =>
      obtain ⟨hcounted, hrefused⟩ := decided_advance sys rid s.flow.gateway now hd
      exact hquiet (reportOf_of_decided sys rid _ now _ hd) ⟨hcounted, fun h => .inl (hrefused h)⟩
  | false =>
      have hagrees := agrees_step sys rid s.flow.gateway now (s.started rid) hd
      cases hreport : reportOf sys rid s.flow.gateway now (s.started rid) (s.flow.phases rid) with
      | none =>
          rw [hreport] at hagrees
          exact hquiet hreport (unchanged_of_agrees hagrees hd)
      | some report =>
          rw [hreport] at hagrees
          refine .told rid report ?_ ?_ ?_ hd (hphase ▸ hagrees) hothers
          · simp only [next, hreport, Option.map_some, Option.toList_some, List.singleton_append]
          · simp only [next, hreport, Option.elim_some]
          · simp only [next, hreport, Option.bind_some]

theorem reported_next (sys : System) (s : State) (e : Event) : Reported sys s (next sys s e) := by
  cases e with
  | step rid now => exact reported_step sys s rid now
  | _ => exact .quiet rfl rfl rfl fun _ => ⟨Iff.rfl, .inl⟩

theorem told_next {sys : System} {s : State} {rid : ℕ} {g : Gateway} {origin : Phase}
    {report : Report} (h : Told sys rid g origin report (s.flow.phases rid)) (e : Event) :
    Told sys rid g origin report ((next sys s e).flow.phases rid) := by
  cases e with
  | step other now =>
      rw [next_phases]
      by_cases hr : rid = other
      · rw [hr, Function.update_self]
        rw [hr] at h
        exact told_advance sys other _ now h
      · rw [Function.update_of_ne hr]
        exact h
  | _ => exact h

/-- The reports are about the counted requests, one each, and the sums are theirs. -/
structure Accounted (sys : System) (s : State) : Prop where
  once : (s.reports.map Prod.fst).Nodup
  counted : ∀ rid, Counted (s.flow.phases rid) → rid ∈ s.reports.map Prod.fst
  refused : ∀ rid, (s.flow.phases rid).response = some payloadTooLarge →
    bodyLimit < (sys.requests rid).body.length
  told : ∀ rid report, (rid, report) ∈ s.reports →
    ∃ g origin, Told sys rid g origin report (s.flow.phases rid)
  requests : ∀ labels, s.metrics.requestsTotal labels =
    UInt64.ofNat (s.reports.countP fun x => x.2.completes labels)
  rejections : ∀ reason : Reason, s.metrics.rejectionsTotal reason.label =
    UInt64.ofNat (s.reports.countP fun x => x.2.refuses reason)
  audit : s.audit = s.reports.filterMap fun x => x.2.event

theorem accounted_start (sys : System) (g : Gateway) : Accounted sys (.start g) where
  once := List.nodup_nil
  counted _ h := by cases h.1
  refused _ h := by cases h
  told _ _ h := by cases h
  requests _ := rfl
  rejections _ := rfl
  audit := rfl

theorem Accounted.next {sys : System} {s : State} (h : Accounted sys s) (e : Event) :
    Accounted sys (next sys s e) := by
  have htold : ∀ rid report, (rid, report) ∈ s.reports →
      ∃ g origin, Told sys rid g origin report ((RequestAccounting.next sys s e).flow.phases rid) := by
    intro rid report hmem
    obtain ⟨g, origin, ht⟩ := h.told rid report hmem
    exact ⟨g, origin, told_next ht e⟩
  cases reported_next sys s e with
  | quiet hreports hmetrics haudit hphases =>
      constructor
      · rw [hreports]
        exact h.once
      · intro rid hc
        rw [hreports]
        exact h.counted rid ((hphases rid).counted.mp hc)
      · intro rid hr
        exact ((hphases rid).refused hr).elim (h.refused rid) id
      · rw [hreports]
        exact htold
      · rw [hreports, hmetrics]
        exact h.requests
      · rw [hreports, hmetrics]
        exact h.rejections
      · rw [hreports, haudit]
        exact h.audit
  | told rid report hreports hmetrics haudit hundecided hnow hothers =>
      have hnew : rid ∉ s.reports.map Prod.fst := by
        intro hmem
        obtain ⟨x, hx, rfl⟩ := List.mem_map.mp hmem
        obtain ⟨g, origin, ht⟩ := h.told x.1 x.2 hx
        rw [(counted_of_told ht).1] at hundecided
        cases hundecided
      constructor
      · rw [hreports, List.map_cons, List.nodup_cons]
        exact ⟨hnew, h.once⟩
      · intro other hc
        rw [hreports, List.map_cons, List.mem_cons]
        by_cases hr : other = rid
        · exact .inl hr
        · rw [hothers other hr] at hc
          exact .inr (h.counted other hc)
      · intro other hrefused
        by_cases hr : other = rid
        · subst hr
          exact ((counted_of_told hnow).2 hrefused).elim
        · rw [hothers other hr] at hrefused
          exact h.refused other hrefused
      · intro other report' hmem
        rw [hreports, List.mem_cons] at hmem
        rcases hmem with heq | hmem
        · obtain ⟨rfl, rfl⟩ := Prod.mk.inj heq
          exact ⟨_, _, hnow⟩
        · exact htold other report' hmem
      · intro labels
        rw [hreports, hmetrics, report_requestsTotal]
        exact counts_cons (Report.completes labels) (h.requests labels) rid report
      · intro reason
        rw [hreports, hmetrics, report_rejectionsTotal]
        exact counts_cons (Report.refuses reason) (h.rejections reason) rid report
      · rw [hreports, haudit, List.filterMap_cons, h.audit]
        cases report.event <;> rfl

theorem accounted_run (sys : System) (g : Gateway) (es : List Event) :
    Accounted sys (run (next sys) (.start g) es) :=
  run_invariant (next sys) (Accounted sys) es (fun _ e _ h => h.next e) _ (accounted_start sys g)

/-- No rejection of another kind is counted with those of the plugins. -/
theorem event_of_told {sys : System} {rid : ℕ} {g : Gateway} {origin : Phase} {report : Report}
    {ph : Phase} (h : Told sys rid g origin report ph) : report ≠ .rejection .plugin := by
  rintro rfl
  cases ph with
  | settled p upstream =>
      obtain ⟨-, _, heq⟩ := h
      cases heq
  | streaming response observer => cases h
  | done response => cases h
  | _ => exact h.elim

/-- The requests a plugin rejected are those of the audit log. -/
theorem Accounted.audited {sys : System} {s : State} (h : Accounted sys s) :
    s.audit.length = s.reports.countP fun x => x.2.refuses .plugin := by
  rw [h.audit, List.length_filterMap_eq_countP]
  apply List.countP_congr
  intro x hx
  obtain ⟨g, origin, htold⟩ := h.told x.1 x.2 hx
  have hne := event_of_told htold
  cases hreport : x.2 with
  | pluginRejection event => exact iff_of_true rfl rfl
  | completion provider model status label duration cost => exact iff_of_false nofun nofun
  | rejection reason =>
      cases reason with
      | plugin => exact (hne hreport).elim
      | _ => exact iff_of_false nofun nofun

theorem Accounted.unique {sys : System} {s : State} (h : Accounted sys s) (rid : ℕ) :
    (∃! report, (rid, report) ∈ s.reports) ↔ Counted (s.flow.phases rid) := by
  constructor
  · intro hunique
    obtain ⟨report, hmem, -⟩ := hunique
    obtain ⟨g, origin, htold⟩ := h.told rid report hmem
    exact counted_of_told htold
  · intro hc
    obtain ⟨x, hx, rfl⟩ := List.mem_map.mp (h.counted rid hc)
    refine ⟨x.2, hx, ?_⟩
    intro report hmem
    exact congrArg Prod.snd (List.inj_on_of_nodup_map h.once hmem hx rfl)

theorem explains_of_told {sys : System} {rid : ℕ} {g : Gateway} {origin : Phase} {report : Report}
    {ph : Phase} {response : Response} (h : Told sys rid g origin report ph)
    (hr : ph.response = some response) : Explains sys rid g origin report response := by
  cases ph with
  | streaming r observer => exact Option.some.inj hr ▸ h
  | done r => exact Option.some.inj hr ▸ h
  | _ => cases hr

/-- Behind every report stands the step that made it. -/
theorem told_by_a_step (sys : System) (g : Gateway) (es : List Event) {rid : ℕ} {report : Report}
    (hmem : (rid, report) ∈ (run (next sys) (.start g) es).reports) :
    ∃ es₁ now es₂, es = es₁ ++ .step rid now :: es₂ ∧
      let s := run (next sys) (.start g) es₁
      Told sys rid s.flow.gateway (s.flow.phases rid) report
        ((run (next sys) (.start g) es).flow.phases rid) := by
  obtain ⟨es₁, e, es₂, rfl, hbefore, hafter⟩ := run_establishes (next sys)
    (fun s => (rid, report) ∈ s.reports) (.start g) es List.not_mem_nil hmem
  cases e with
  | step other now =>
      cases reported_step sys (run (next sys) (.start g) es₁) other now with
      | quiet hreports hmetrics haudit hphases =>
          rw [hreports] at hafter
          exact (hbefore hafter).elim
      | told rid' report' hreports hmetrics haudit hundecided hnow hothers =>
          rw [hreports, List.mem_cons] at hafter
          obtain ⟨rfl, rfl⟩ := Prod.mk.inj (hafter.resolve_right hbefore)
          obtain rfl : rid = other := by
            by_contra hr
            rw [next_phases, Function.update_of_ne hr] at hnow
            rw [(counted_of_told hnow).1] at hundecided
            cases hundecided
          refine ⟨es₁, now, es₂, rfl, ?_⟩
          dsimp only
          rw [run_append, run_cons]
          exact run_invariant (next sys) (fun t => Told sys rid _ _ report (t.flow.phases rid)) es₂
            (fun _ e _ h => told_next h e) _ hnow
  | _ => exact (hbefore hafter).elim

/-- A plugin rejects the request: its body is short enough, its key may use the model and has
budget left. -/
structure RejectedBy (sys : System) (rid : ℕ) (tracker : SpendTracker) (key : VirtualKey)
    (now : ℕ) (rejection : PluginRejection) : Prop where
  fits : (sys.requests rid).body.length ≤ bodyLimit
  allowed : key.allowsModel (requestMeta sys.lib (sys.requests rid)).virtualModel = true
  budget : (key.spendLimit.any fun limit => !tracker.preCheck key.identifier limit now) = false
  rejects : runPlugins sys.runtime.plugins (sys.requests rid).endpoint.path
    (requestMeta sys.lib (sys.requests rid)).virtualModel (sys.requests rid).body = .error rejection

/-- The event of a rejection of a request under `key`. -/
def rejectedEvent (key : VirtualKey) (rejection : PluginRejection) : PluginRejected :=
  ⟨key.identifier, rejection.plugin, rejection.info.reason, rejection.info.statusCode⟩

theorem receiveReport_event {sys : System} {rid : ℕ} {tracker : SpendTracker} {key : VirtualKey}
    {now : ℕ} {event : PluginRejected} :
    receiveReport sys.runtime tracker key (sys.requests rid)
        (requestMeta sys.lib (sys.requests rid)) now = some (.pluginRejection event) ↔
      ∃ rejection, RejectedBy sys rid tracker key now rejection ∧
        event = rejectedEvent key rejection := by
  unfold receiveReport gateReport
  split_ifs with hlong hmodel hspend
  · refine iff_of_false nofun ?_
    intro h
    obtain ⟨rejection, hby, -⟩ := h
    exact Nat.not_lt.mpr hby.fits hlong
  · refine iff_of_false nofun ?_
    intro h
    obtain ⟨rejection, hby, -⟩ := h
    rw [hby.allowed] at hmodel
    cases hmodel
  · refine iff_of_false nofun ?_
    intro h
    obtain ⟨rejection, hby, -⟩ := h
    rw [hby.budget] at hspend
    cases hspend
  · have hallowed : key.allowsModel (requestMeta sys.lib (sys.requests rid)).virtualModel = true := by
      simpa using hmodel
    have hbudget := Bool.eq_false_iff.mpr hspend
    cases hrun : runPlugins sys.runtime.plugins (sys.requests rid).endpoint.path
        (requestMeta sys.lib (sys.requests rid)).virtualModel (sys.requests rid).body with
    | ok body =>
        refine iff_of_false nofun ?_
        intro h
        obtain ⟨rejection, hby, -⟩ := h
        cases hrun.symm.trans hby.rejects
    | error rejection =>
        constructor
        · intro h
          refine ⟨rejection, ⟨Nat.not_lt.mp hlong, hallowed, hbudget, hrun⟩, ?_⟩
          exact (Report.pluginRejection.inj (Option.some.inj h)).symm
        · intro h
          obtain ⟨rejection', hby, rfl⟩ := h
          obtain rfl := Except.error.inj (hrun.symm.trans hby.rejects)
          rfl

theorem receive_of_rejectedBy {sys : System} {rid : ℕ} {tracker : SpendTracker} {key : VirtualKey}
    {now : ℕ} {rejection : PluginRejection} (h : RejectedBy sys rid tracker key now rejection) :
    receive sys.runtime tracker key (sys.requests rid) (requestMeta sys.lib (sys.requests rid)) now =
      .error (GateOrder.pluginRefusal rejection) := by
  rw [receive_of_fits h.fits]
  simp only [gate, h.allowed, h.budget, h.rejects, GateOrder.pluginRefusal]
  rfl

/-- Only the gates write to the audit log. -/
theorem reportOf_event {sys : System} {rid : ℕ} {g : Gateway} {now : Clock} {start : ℚ} {ph : Phase}
    {event : PluginRejected} :
    (reportOf sys rid g now start ph).bind Report.event = some event ↔
      ∃ key rejection, ph = .admitted key ∧ RejectedBy sys rid g.tracker key now.utc rejection ∧
        event = rejectedEvent key rejection := by
  rw [Option.bind_eq_some_iff]
  constructor
  · intro h
    obtain ⟨report, hreport, hevent⟩ := h
    cases report with
    | rejection reason => cases hevent
    | completion provider model status label duration cost => cases hevent
    | pluginRejection event' =>
        obtain rfl := Option.some.inj hevent
        cases ph with
        | admitted key =>
            obtain ⟨rejection, hby, rfl⟩ := receiveReport_event.mp hreport
            exact ⟨key, rejection, rfl, hby, rfl⟩
        | challenged =>
            simp only [reportOf] at hreport
            split at hreport
            · cases hreport
            · cases hreport
        | identified key =>
            simp only [reportOf, admissionReport] at hreport
            split_ifs at hreport
            · cases hreport
            · split at hreport
              · cases hreport
              · split_ifs at hreport
                cases hreport
        | cleared p =>
            obtain ⟨cached, -, hcached⟩ := Option.map_eq_some_iff.mp hreport
            cases hcached
        | waiting p =>
            simp only [reportOf] at hreport
            split at hreport
            · cases hreport
            · cases hreport
        | _ => cases hreport
  · intro h
    obtain ⟨key, rejection, rfl, hby, rfl⟩ := h
    exact ⟨_, receiveReport_event.mpr ⟨rejection, hby, rfl⟩, rfl⟩

theorem mem_audit_step {sys : System} {s : State} {rid : ℕ} {now : Clock} {event : PluginRejected} :
    event ∈ (next sys s (.step rid now)).audit ↔
      (∃ key rejection, s.flow.phases rid = .admitted key ∧
        RejectedBy sys rid s.flow.gateway.tracker key now.utc rejection ∧
        event = rejectedEvent key rejection) ∨ event ∈ s.audit := by
  rw [next, List.mem_append, Option.mem_toList, reportOf_event]

/-- Events stay in the log. -/
theorem audit_grows (sys : System) (s : State) (es : List Event) {event : PluginRejected}
    (h : event ∈ s.audit) : event ∈ (run (next sys) s es).audit := by
  refine run_invariant (next sys) (fun s => event ∈ s.audit) es ?_ s h
  intro t e _ ht
  cases e with
  | step rid now => exact mem_audit_step.mpr (.inr ht)
  | _ => exact ht

/-- A request that was answered keeps its answer. -/
theorem done_stays (sys : System) {s : RequestInterleaving.State} {rid : ℕ} {r : Response}
    (h : s.phases rid = .done r) (es : List Event) :
    (run (RequestInterleaving.next sys) s es).phases rid = .done r := by
  refine run_invariant _ (fun s => s.phases rid = .done r) es ?_ s h
  intro t e _ ht
  cases e with
  | step other now =>
      by_cases hr : rid = other
      · subst hr
        simp only [RequestInterleaving.next, Function.update_self, ht, advance]
      · simp only [RequestInterleaving.next, Function.update_of_ne hr, ht]
  | _ => exact ht

/-- The log has an event exactly for the requests that a plugin rejected: it names the key
the request was admitted under and the plugin's reason and status, and the client got
these, with 403 in place of a number that is no status. -/
theorem audit_log_is_exact (sys : System) (g : Gateway) (es : List Event)
    (event : PluginRejected) :
    event ∈ (run (next sys) (.start g) es).audit ↔
      ∃ es₁ rid now es₂ key rejection, es = es₁ ++ .step rid now :: es₂ ∧
        let s := run (RequestInterleaving.next sys) (.start g) es₁
        s.phases rid = .admitted key ∧
        RejectedBy sys rid s.gateway.tracker key now.utc rejection ∧
        event = rejectedEvent key rejection ∧
        (run (RequestInterleaving.next sys) (.start g) es).phases rid =
          .done (GateOrder.pluginRefusal rejection) := by
  constructor
  · intro h
    obtain ⟨es₁, e, es₂, rfl, hbefore, hafter⟩ := run_establishes (next sys)
      (fun s => event ∈ s.audit) (.start g) es List.not_mem_nil h
    cases e with
    | step rid now =>
        obtain ⟨key, rejection, hph, hby, rfl⟩ := (mem_audit_step.mp hafter).resolve_right hbefore
        rw [run_flow] at hph hby
        refine ⟨es₁, rid, now, es₂, key, rejection, rfl, hph, hby, rfl, ?_⟩
        rw [run_append, run_cons]
        apply done_stays
        simp only [RequestInterleaving.next, Function.update_self, hph, advance,
          receive_of_rejectedBy hby]
    | keys store => exact (hbefore hafter).elim
    | forgetRate keyId => exact (hbefore hafter).elim
    | forgetSpend keyId => exact (hbefore hafter).elim
    | evict cacheKey => exact (hbefore hafter).elim
  · intro h
    obtain ⟨es₁, rid, now, es₂, key, rejection, rfl, hph, hby, rfl, -⟩ := h
    rw [← run_flow] at hph hby
    rw [run_append, run_cons]
    exact audit_grows sys _ es₂ (mem_audit_step.mpr (.inl ⟨key, rejection, hph, hby, rfl⟩))

end VaultplaneGateway.RequestAccounting
