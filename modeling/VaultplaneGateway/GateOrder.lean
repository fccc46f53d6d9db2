import VaultplaneGateway.ProxyPipeline

/-!
# No gate is bypassed

Seven gates stand between a request and the connector: three in the middleware, the
limit on the body, and three in the handler. Each gate is stated here on its own, as the
answer it would refuse with in the state the request arrived in. The pipeline agrees with
the ordered list of gates: it answers with the first refusal and then has called nobody
and charged and stored nothing, and without a refusal it goes on with the body the
plugins left.

The rate limiter is the one store a refused request may change. A granted token
is not given back when a later gate refuses.
-/
namespace VaultplaneGateway.GateOrder
open WireFormats KeyRecords SpendTracking ResponseCaching InlinePlugins ProxyPipeline

inductive Gate where
  | authenticated | unexpired | withinRate | bodyFits | modelAllowed | withinBudget | pluginsAccept
  deriving DecidableEq, Repr

def Gate.middleware : List Gate := [.authenticated, .unexpired, .withinRate]

def Gate.handler : List Gate := [.bodyFits, .modelAllowed, .withinBudget, .pluginsAccept]

def Gate.order : List Gate := Gate.middleware ++ Gate.handler

/-- A plugin chooses its status; one out of range becomes 403. -/
def pluginRefusal (rejection : PluginRejection) : Response :=
  error (if validStatus rejection.info.statusCode then rejection.info.statusCode else 403)
    rejection.info.reason

section
variable (lib : Externals) (rt : Runtime) (g : Gateway) (req : Request) (c : Clocks)

/-- The answer a gate gives a request of `key` when it refuses it. -/
def keyRefusal (key : VirtualKey) : Gate → Option Response
  | .authenticated => none
  | .unexpired =>
      if key.isExpired lib c.admitted.utc then some (error 401 "virtual key has expired") else none
  | .withinRate =>
      if key.rateLimitRps.all fun rps =>
        (g.limiter.check key.identifier rps c.admitted.mono).2
      then none else some (error 429 "rate limit exceeded")
  | .bodyFits => if bodyLimit < req.body.length then some payloadTooLarge else none
  | .modelAllowed =>
      if key.allowsModel (requestMeta lib req).virtualModel then none
      else some (error 403 "virtual key is not allowed to use this model")
  | .withinBudget =>
      if key.spendLimit.all fun limit => g.tracker.preCheck key.identifier limit c.gated.utc
      then none else some (error 402 "spend limit exceeded for this period")
  | .pluginsAccept =>
      match runPlugins rt.plugins req.endpoint.path (requestMeta lib req).virtualModel req.body with
      | .ok _ => none
      | .error rejection => some (pluginRefusal rejection)

/-- A request without a key is refused by the first gate and reaches no other. -/
def refusal (gate : Gate) : Option Response :=
  match identify lib g.keys req.headers with
  | .ok key => keyRefusal lib rt g req c key gate
  | .error r => if gate = .authenticated then some r else none

/-- Everything that holds of a request that passed all gates under `key`, with
the plugins leaving `body`. -/
structure Cleared (key : VirtualKey) (body : Bytes) : Prop where
  authenticated : (g.keys.isEmpty = true ∧ key = VirtualKey.anonymous) ∨
    ∃ token, bearerToken req.headers = some token ∧ g.keys.authenticate lib token = some key
  unexpired : key.isExpired lib c.admitted.utc = false
  withinRate : ∀ rps, key.rateLimitRps = some rps →
    (g.limiter.check key.identifier rps c.admitted.mono).2 = true
  bodyFits : req.body.length ≤ bodyLimit
  modelAllowed : key.allowsModel (requestMeta lib req).virtualModel = true
  withinBudget : ∀ limit, key.spendLimit = some limit →
    g.tracker.preCheck key.identifier limit c.gated.utc = true
  pluginsAccept : runPlugins rt.plugins req.endpoint.path (requestMeta lib req).virtualModel
    req.body = .ok body

/-- The request a cleared request hands to the cache and the connector. -/
def prepared (lib : Externals) (req : Request) (key : VirtualKey) (body : Bytes) : Prepared where
  endpoint := req.endpoint
  key := key
  virtualModel := (requestMeta lib req).virtualModel
  stream := (requestMeta lib req).stream
  idempotencyKey := headerStr req.headers idempotencyHeader
  body := body

theorem identify_ok {lib : Externals} {keys : KeyStore} {headers : HeaderMap} {key : VirtualKey}
    (h : identify lib keys headers = .ok key) :
    (keys.isEmpty = true ∧ key = VirtualKey.anonymous) ∨
      ∃ token, bearerToken headers = some token ∧ keys.authenticate lib token = some key := by
  unfold identify at h
  split_ifs at h with hempty
  · exact .inl ⟨hempty, (Except.ok.inj h).symm⟩
  · split at h
    · rename_i k hk
      obtain ⟨token, htoken, hauth⟩ := Option.bind_eq_some_iff.mp hk
      exact .inr ⟨token, htoken, hauth.trans (congrArg some (Except.ok.inj h))⟩
    · cases h

/-- The rest of the middleware answers with the first refusal of its gates. -/
theorem admission_eq (key : VirtualKey) :
    (admission lib g.limiter key c.admitted).2 =
      Gate.middleware.findSome? (keyRefusal lib rt g req c key) := by
  unfold admission Gate.middleware
  by_cases hexp : key.isExpired lib c.admitted.utc = true
  · simp [List.findSome?_cons, keyRefusal, hexp]
  · cases hrps : key.rateLimitRps with
    | none => simp [List.findSome?_cons, keyRefusal, hexp, hrps]
    | some rps =>
        by_cases hcheck : (g.limiter.check key.identifier rps c.admitted.mono).2 = true
        · simp [List.findSome?_cons, keyRefusal, hexp, hrps, hcheck]
        · simp [List.findSome?_cons, keyRefusal, hexp, hrps, hcheck]

/-- Without the limit of the body, the handler's gates agree with the rest of the list. -/
theorem gate_eq (key : VirtualKey) (hfits : req.body.length ≤ bodyLimit) :
    (∃ r, Gate.handler.findSome? (keyRefusal lib rt g req c key) = some r ∧
      gate rt g.tracker key req (requestMeta lib req) c.gated.utc = .error r) ∨
    (Gate.handler.findSome? (keyRefusal lib rt g req c key) = none ∧
      ∃ body, runPlugins rt.plugins req.endpoint.path (requestMeta lib req).virtualModel
        req.body = .ok body ∧
      gate rt g.tracker key req (requestMeta lib req) c.gated.utc =
        .ok (prepared lib req key body)) := by
  have hbody : keyRefusal lib rt g req c key .bodyFits = none := if_neg (Nat.not_lt.mpr hfits)
  unfold gate Gate.handler
  rw [List.findSome?_cons, hbody]
  by_cases hmodel : key.allowsModel (requestMeta lib req).virtualModel = true
  · cases hspend : key.spendLimit.all fun limit =>
        g.tracker.preCheck key.identifier limit c.gated.utc with
    | false =>
        have hany : (key.spendLimit.any fun limit =>
            !g.tracker.preCheck key.identifier limit c.gated.utc) = true := by
          cases hl : key.spendLimit with
          | none => simp [hl] at hspend
          | some limit => simpa [hl] using hspend
        refine .inl ⟨error 402 "spend limit exceeded for this period", ?_, ?_⟩
        · simp [keyRefusal, hmodel, hspend]
        · simp [hmodel, hany]
    | true =>
        have hany : (key.spendLimit.any fun limit =>
            !g.tracker.preCheck key.identifier limit c.gated.utc) = false := by
          cases hl : key.spendLimit with
          | none => rfl
          | some limit => simpa [hl] using hspend
        cases hrun : runPlugins rt.plugins req.endpoint.path (requestMeta lib req).virtualModel
            req.body with
        | error rejection =>
            refine .inl ⟨pluginRefusal rejection, ?_, ?_⟩
            · simp [keyRefusal, hmodel, hspend, hrun]
            · simp [hmodel, hany, pluginRefusal]
        | ok body =>
            refine .inr ⟨?_, body, rfl, ?_⟩
            · simp [keyRefusal, hmodel, hspend, hrun]
            · simp [hmodel, hany, prepared]
  · refine .inl ⟨error 403 "virtual key is not allowed to use this model", ?_, ?_⟩
    · simp [keyRefusal, hmodel]
    · simp [hmodel]

/-- The extractor and the handler's gates agree with the second half of the list. -/
theorem receive_eq (key : VirtualKey) :
    (∃ r, Gate.handler.findSome? (keyRefusal lib rt g req c key) = some r ∧
      receive rt g.tracker key req (requestMeta lib req) c.gated.utc = .error r) ∨
    (Gate.handler.findSome? (keyRefusal lib rt g req c key) = none ∧
      ∃ body, runPlugins rt.plugins req.endpoint.path (requestMeta lib req).virtualModel
        req.body = .ok body ∧
      receive rt g.tracker key req (requestMeta lib req) c.gated.utc =
        .ok (prepared lib req key body)) := by
  by_cases hlong : bodyLimit < req.body.length
  · have hbody : keyRefusal lib rt g req c key .bodyFits = some payloadTooLarge := if_pos hlong
    exact .inl ⟨payloadTooLarge, by rw [Gate.handler, List.findSome?_cons, hbody],
      receive_of_long hlong _ _⟩
  · rw [receive_of_fits (Nat.not_lt.mp hlong)]
    exact gate_eq lib rt g req c key (Nat.not_lt.mp hlong)

/-- The two handlers share the body of `handle`. -/
theorem serve_handle (connector : Connector) :
    serve lib rt connector g req c =
      match authenticate lib g.keys g.limiter req.headers c.admitted with
      | (limiter, .error r) => ⟨{ g with limiter := limiter }, ⟨r, none⟩, []⟩
      | (limiter, .ok key) =>
          handle lib rt connector { g with limiter := limiter } key req (requestMeta lib req)
            c := by
  unfold serve requestMeta
  rcases authenticate lib g.keys g.limiter req.headers c.admitted with ⟨limiter, r | key⟩
  · rfl
  · cases req.endpoint <;> rfl

theorem findSome_order (f : Gate → Option Response) :
    Gate.order.findSome? f =
      (Gate.middleware.findSome? f).or (Gate.handler.findSome? f) := List.findSome?_append

/-- The pipeline against the list of gates: the first refusal, with nothing
touched but the limiter, or the dispatch of a cleared request. -/
theorem serve_cases (connector : Connector) :
    (∃ r limiter, Gate.order.findSome? (refusal lib rt g req c) = some r ∧ r.cache = none ∧
      serve lib rt connector g req c = ⟨{ g with limiter := limiter }, ⟨r, none⟩, []⟩) ∨
    (Gate.order.findSome? (refusal lib rt g req c) = none ∧
      ∃ key body limiter, Cleared lib rt g req c key body ∧
        serve lib rt connector g req c = dispatch lib rt connector { g with limiter := limiter }
          (prepared lib req key body) c.answered) := by
  rw [serve_handle]
  unfold authenticate
  cases hid : identify lib g.keys req.headers with
  | error r =>
      refine .inl ⟨r, g.limiter, ?_, identify_error hid, rfl⟩
      simp [Gate.order, Gate.middleware, refusal, hid]
  | ok key =>
      have hrefusal : refusal lib rt g req c = keyRefusal lib rt g req c key := by
        funext gate
        simp [refusal, hid]
      have hmid := admission_eq lib rt g req c key
      rw [hrefusal, findSome_order, ← hmid]
      rcases hadm : admission lib g.limiter key c.admitted with ⟨limiter, _ | r⟩
      · rcases receive_eq lib rt g req c key with
          ⟨r, hfind, hgate⟩ | ⟨hfind, body, hrun, hgate⟩
        · refine .inl ⟨r, limiter, by simp [hfind], receive_error hgate, ?_⟩
          simp [handle, hadm, hgate]
        · refine .inr ⟨by simp [hfind], key, body, limiter, ?_, by simp [handle, hadm, hgate]⟩
          rw [hadm] at hmid
          have hgates : ∀ gate ∈ Gate.order, keyRefusal lib rt g req c key gate = none := by
            rw [← List.findSome?_eq_none_iff, findSome_order, ← hmid, hfind]
            rfl
          refine ⟨identify_ok hid, ?_, ?_, ?_, ?_, ?_, hrun⟩
          · simpa [keyRefusal] using hgates .unexpired (by decide)
          · intro rps hrps
            simpa [keyRefusal, hrps] using hgates .withinRate (by decide)
          · simpa [keyRefusal] using hgates .bodyFits (by decide)
          · simpa [keyRefusal] using hgates .modelAllowed (by decide)
          · intro limit hlimit
            simpa [keyRefusal, hlimit] using hgates .withinBudget (by decide)
      · exact .inl ⟨r, limiter, by simp, admission_refusal (congrArg Prod.snd hadm), by simp [hadm]⟩

/-- The connector is called with the prepared request or not at all. -/
theorem dispatch_calls (connector : Connector) (p : Prepared) (answered : Clock) :
    (dispatch lib rt connector g p answered).calls = [] ∨
      (dispatch lib rt connector g p answered).calls = [p.call] := by
  unfold dispatch
  split
  · exact .inl rfl
  · split
    · exact .inr rfl
    · exact .inr rfl

/-- A request that reaches the connector or the cached responses has passed every
gate, reaches the connector at most once, and is forwarded with its model and the
composition of the plugins' modifications. A request that any gate refuses is
answered by the first gate that does, and nobody is called, charged or cached. -/
theorem no_gate_bypassed (connector : Connector) :
    let o := serve lib rt connector g req c
    let info := requestMeta lib req
    o.calls.length ≤ 1 ∧
    (o.calls ≠ [] ∨ o.reply.response.cache = some .hit →
      ∃ key body, Cleared lib rt g req c key body ∧
        (∀ call ∈ o.calls, call = ⟨req.endpoint, info.virtualModel, info.stream, body⟩) ∧
        body = (applicable rt.plugins info.virtualModel).foldl (modified req.endpoint.path)
          req.body) ∧
    (∀ gate, refusal lib rt g req c gate ≠ none →
      o.calls = [] ∧ o.gateway.tracker = g.tracker ∧ o.gateway.cache = g.cache ∧
        Gate.order.findSome? (refusal lib rt g req c) = some o.reply.response) := by
  intro o info
  rcases serve_cases lib rt g req c connector with
    ⟨r, limiter, hfind, hlabel, heq⟩ | ⟨hfind, key, body, limiter, hclear, heq⟩
  · have ho : o = ⟨{ g with limiter := limiter }, ⟨r, none⟩, []⟩ := heq
    rw [ho]
    refine ⟨Nat.zero_le _, ?_, fun _ _ => ⟨rfl, rfl, rfl, hfind⟩⟩
    rintro (hcalls | hhit)
    · exact (hcalls rfl).elim
    · rw [hlabel] at hhit
      cases hhit
  · have hcalls : o.calls = [] ∨ o.calls = [(prepared lib req key body).call] := by
      rw [show o = _ from heq]
      exact dispatch_calls lib rt _ connector _ _
    refine ⟨?_, fun _ => ⟨key, body, hclear, ?_, runPlugins_ok hclear.pluginsAccept⟩, ?_⟩
    · rcases hcalls with h | h <;> simp [h]
    · intro call hcall
      rcases hcalls with h | h
      · simp [h] at hcall
      · rw [h] at hcall
        exact List.mem_singleton.mp hcall
    · intro gate hgate
      have hmem : gate ∈ Gate.order := by cases gate <;> decide
      exact (hgate (List.findSome?_eq_none_iff.mp hfind gate hmem)).elim

end

end VaultplaneGateway.GateOrder
