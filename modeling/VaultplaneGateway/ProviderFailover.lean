import VaultplaneGateway.ModelRegistry

/-!
# Failover across the routes of a model

A dispatch asks the routes of a model in order until one of them decides. A route decides
if it answers with a status that is not to be retried, if it panics, or if it is the last
one. The model and the body of the request are those of the client, except that every
route is asked for its own upstream model.

What the connectors do is given: the `i`-th question may be answered, fail, or exceed the
timeout of the model. A panicking connector takes the dispatch with it.
-/
namespace VaultplaneGateway.ProviderFailover
open WireFormats ProxyPipeline ModelRegistry

variable {κ : Type}

/-- What the timeout around a connector's call returns. -/
inductive RouteOutcome where
  | answered (response : ChatResponse)
  | failed (err : CoreError)
  | timedOut

/-- One `failover` event of the audit log. -/
structure FailoverEvent where
  virtualModel : String
  source : String
  target : String
  reason : String
  deriving DecidableEq, Repr

/-- The result, `none` for a panic, with the questions asked and the events written on
the way. -/
structure Dispatched (κ : Type) where
  result : Option (Except CoreError ChatResponse)
  calls : List (κ × ConnectorCall)
  failovers : List FailoverEvent

/-- Connectors with their names, and the answer to the question of each index. -/
structure Providers (κ : Type) where
  name : κ → String
  ask : ℕ → κ → ConnectorCall → Option RouteOutcome

/-- The connector name of a route, or `none` past the last one. -/
def routeName (P : Providers κ) (resolved : ResolvedModel κ) (index : ℕ) : String :=
  ((resolved.routes[index]?).map fun route => P.name route.connector).getD "none"

/-- The loop over the routes from `index` on. The attempt is what a route is asked, given
its upstream model. -/
def tryRoutes (P : Providers κ) (resolved : ResolvedModel κ) (virtualModel : String)
    (attempt : String → ConnectorCall) : ℕ → List (ResolvedRoute κ) → Dispatched κ
  | _, [] => ⟨some (.error (.provider "no providers were attempted")), [], []⟩
  | index, route :: routes =>
      let isLast := index == resolved.routes.length - 1
      let call := (route.connector, attempt route.model)
      let stop (result : Option (Except CoreError ChatResponse)) : Dispatched κ :=
        ⟨result, [call], []⟩
      let next (reason : String) : Dispatched κ :=
        let event : FailoverEvent := ⟨virtualModel, P.name route.connector,
          routeName P resolved (index + 1), reason⟩
        let rest := tryRoutes P resolved virtualModel attempt (index + 1) routes
        ⟨rest.result, call :: rest.calls, event :: rest.failovers⟩
      match P.ask index route.connector (attempt route.model) with
      | none => stop none
      | some (.answered response) =>
          if !isLast && resolved.retryOn response.status then
            next ("status " ++ toString response.status.toNat)
          else stop (some (.ok { response with attempts := (index + 1).toUInt32 }))
      | some (.failed err) =>
          if isLast then stop (some (.error err)) else next err.text
      | some .timedOut =>
          if isLast then
            stop (some (.error (.upstreamTimeout
              ("request timed out on all configured providers (last: " ++
                P.name route.connector ++ ")"))))
          else next ("timeout after " ++ toString resolved.timeoutMs.toNat ++ "ms")

def dispatch (P : Providers κ) (resolved : ResolvedModel κ) (virtualModel : String)
    (request : ConnectorCall) : Dispatched κ :=
  tryRoutes P resolved virtualModel (fun model => ⟨.chat, model, request.stream, request.body⟩) 0
    resolved.routes

/-- An embeddings request has no stream flag. -/
def dispatchEmbeddings (P : Providers κ) (resolved : ResolvedModel κ) (virtualModel : String)
    (request : ConnectorCall) : Dispatched κ :=
  tryRoutes P resolved virtualModel (fun model => ⟨.embeddings, model, false, request.body⟩) 0
    resolved.routes

/-- The outcome ends the dispatch at any route. -/
def Final (retryOn : UInt16 → Bool) : Option RouteOutcome → Prop
  | none => True
  | some (.answered response) => retryOn response.status = false
  | some _ => False

/-- What the deciding route makes of its outcome. -/
def concluded (name : String) (index : ℕ) :
    Option RouteOutcome → Option (Except CoreError ChatResponse)
  | none => none
  | some (.answered response) => some (.ok { response with attempts := (index + 1).toUInt32 })
  | some (.failed err) => some (.error err)
  | some .timedOut => some (.error (.upstreamTimeout
      ("request timed out on all configured providers (last: " ++ name ++ ")")))

/-- The reason that the audit log gives for leaving a route. -/
def failoverReason (resolved : ResolvedModel κ) : RouteOutcome → String
  | .answered response => "status " ++ toString response.status.toNat
  | .failed err => err.text
  | .timedOut => "timeout after " ++ toString resolved.timeoutMs.toNat ++ "ms"

section
variable {P : Providers κ} {resolved : ResolvedModel κ} {virtualModel : String}
variable {attempt : String → ConnectorCall} {index : ℕ} {route : ResolvedRoute κ}
variable {routes : List (ResolvedRoute κ)}

/-- The loop stops at a route with a final outcome, and at the last route. -/
theorem tryRoutes_stop
    (h : Final resolved.retryOn (P.ask index route.connector (attempt route.model)) ∨
      index = resolved.routes.length - 1) :
    tryRoutes P resolved virtualModel attempt index (route :: routes) =
      ⟨concluded (P.name route.connector) index
        (P.ask index route.connector (attempt route.model)),
        [(route.connector, attempt route.model)], []⟩ := by
  rw [tryRoutes]
  rcases hask : P.ask index route.connector (attempt route.model) with _ | response | err | _
  · rfl
  · rw [hask] at h
    have hstop : (!(index == resolved.routes.length - 1) && resolved.retryOn response.status) =
        false := by
      rcases h with hfinal | hlast
      · rw [show resolved.retryOn response.status = false from hfinal, Bool.and_false]
      · simp [hlast]
    simp only [hstop]
    rfl
  · rw [hask] at h
    have hlast : index = resolved.routes.length - 1 := h.resolve_left id
    simp [hlast, concluded]
  · rw [hask] at h
    have hlast : index = resolved.routes.length - 1 := h.resolve_left id
    simp [hlast, concluded]

/-- Otherwise the event says why, and the rest of the routes decides. -/
theorem tryRoutes_continue {outcome : RouteOutcome}
    (hask : P.ask index route.connector (attempt route.model) = some outcome)
    (hfinal : ¬ Final resolved.retryOn (some outcome))
    (hlast : index ≠ resolved.routes.length - 1) :
    let rest := tryRoutes P resolved virtualModel attempt (index + 1) routes
    tryRoutes P resolved virtualModel attempt index (route :: routes) =
      ⟨rest.result, (route.connector, attempt route.model) :: rest.calls,
        ⟨virtualModel, P.name route.connector, routeName P resolved (index + 1),
          failoverReason resolved outcome⟩ :: rest.failovers⟩ := by
  have hnot : (index == resolved.routes.length - 1) = false := beq_false_of_ne hlast
  rw [tryRoutes, hask]
  cases outcome with
  | answered response =>
      have hretry : resolved.retryOn response.status = true := by
        simpa [Final] using hfinal
      simp only [hnot, hretry, Bool.not_false, Bool.and_self, if_true]
      rfl
  | failed err =>
      simp only [hnot, Bool.false_eq_true, if_false]
      rfl
  | timedOut =>
      simp only [hnot, Bool.false_eq_true, if_false]
      rfl

theorem tryRoutes_next
    (hfinal : ¬ Final resolved.retryOn (P.ask index route.connector (attempt route.model)))
    (hlast : index ≠ resolved.routes.length - 1) :
    (tryRoutes P resolved virtualModel attempt index (route :: routes)).result =
      (tryRoutes P resolved virtualModel attempt (index + 1) routes).result := by
  cases hask : P.ask index route.connector (attempt route.model) with
  | none =>
      rw [hask] at hfinal
      exact (hfinal trivial).elim
  | some outcome =>
      rw [hask] at hfinal
      rw [tryRoutes_continue hask hfinal hlast]

end

/-- The first route of these to have a final outcome decides, or else the last one. -/
structure Decides (P : Providers κ) (resolved : ResolvedModel κ)
    (attempt : String → ConnectorCall) (index i : ℕ) (route : ResolvedRoute κ) : Prop where
  le : index ≤ i
  routed : resolved.routes[i]? = some route
  before : ∀ j earlier, index ≤ j → j < i → resolved.routes[j]? = some earlier →
    ¬ Final resolved.retryOn (P.ask j earlier.connector (attempt earlier.model))
  stops : Final resolved.retryOn (P.ask i route.connector (attempt route.model)) ∨
    i = resolved.routes.length - 1

/-- The first of the routes that are left, and those after it. -/
theorem routed_of_drop {all routes : List (ResolvedRoute κ)} {index : ℕ} {route : ResolvedRoute κ}
    (h : all.drop index = route :: routes) :
    all[index]? = some route ∧ all.drop (index + 1) = routes := by
  constructor
  · rw [← List.head?_drop, h, List.head?_cons]
  · rw [← List.tail_drop, h, List.tail_cons]

/-- The routes from `index` on are what is left of all routes. -/
theorem tryRoutes_result (P : Providers κ) (resolved : ResolvedModel κ) (virtualModel : String)
    (attempt : String → ConnectorCall) (index : ℕ) (routes : List (ResolvedRoute κ))
    (hrest : resolved.routes.drop index = routes) (hne : routes ≠ []) :
    ∃ i route, Decides P resolved attempt index i route ∧
      (tryRoutes P resolved virtualModel attempt index routes).result =
        concluded (P.name route.connector) i
          (P.ask i route.connector (attempt route.model)) := by
  induction routes generalizing index with
  | nil => exact (hne rfl).elim
  | cons route routes ih =>
      obtain ⟨hhead, htail⟩ := routed_of_drop hrest
      by_cases hstop : Final resolved.retryOn (P.ask index route.connector (attempt route.model)) ∨
          index = resolved.routes.length - 1
      · refine ⟨index, route, ⟨le_rfl, hhead, ?_, hstop⟩, by rw [tryRoutes_stop hstop]⟩
        intro j earlier hle hlt
        omega
      · rw [not_or] at hstop
        have hlength := congrArg List.length hrest
        rw [List.length_drop, List.length_cons] at hlength
        have hroutes : routes ≠ [] := by
          rintro rfl
          apply hstop.2
          simp only [List.length_nil] at hlength
          omega
        obtain ⟨i, decisive, hdecides, hresult⟩ := ih (index + 1) htail hroutes
        refine ⟨i, decisive, ⟨by have := hdecides.le; omega, hdecides.routed, ?_,
          hdecides.stops⟩, by rw [tryRoutes_next hstop.1 hstop.2, hresult]⟩
        intro j earlier hle hlt hj
        by_cases hjs : j = index
        · subst hjs
          obtain rfl := Option.some.inj (hhead.symm.trans hj)
          exact hstop.1
        · exact hdecides.before j earlier (by omega) hlt hj

/-- A dispatch over no routes is an error of its own. -/
theorem dispatch_result (P : Providers κ) (resolved : ResolvedModel κ) (virtualModel : String)
    (request : ConnectorCall) :
    (resolved.routes = [] ∧ (dispatch P resolved virtualModel request).result =
      some (.error (.provider "no providers were attempted"))) ∨
    ∃ i route, Decides P resolved (fun model => ⟨.chat, model, request.stream, request.body⟩)
        0 i route ∧
      (dispatch P resolved virtualModel request).result =
        concluded (P.name route.connector) i
          (P.ask i route.connector ⟨.chat, route.model, request.stream, request.body⟩) := by
  by_cases hroutes : resolved.routes = []
  · exact .inl ⟨hroutes, by rw [dispatch, hroutes]; rfl⟩
  · exact .inr (tryRoutes_result P resolved virtualModel _ 0 resolved.routes rfl hroutes)

end VaultplaneGateway.ProviderFailover
