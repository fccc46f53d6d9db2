import VaultplaneGateway.BedrockSigning
import VaultplaneGateway.ModelListing
import VaultplaneGateway.OpenAiForwarding

/-!
# What is sent to the providers

Four connectors stand behind the registry. A call of one of them hands at most one request
to the HTTP client, whose address and headers come from the configuration and the
environment: the base URL and the key of the provider, and for two of them the model of the
route. The client of the gateway gives the body and nothing else. A model that no route is
configured for goes to one of the two connectors whose address has no model in it, so nobody
can choose an address by naming a model.

The HTTP client is a function from the request it is handed to the answer it comes back with.
What it does in between, such as following a redirect, is its own affair.
-/
namespace VaultplaneGateway.ProviderCalls
open WireFormats ProxyPipeline StreamUsage ConfigOverlay FallibleComputations ModelRegistry
open RuntimeBuilding hiding BedrockConnector.build
open ProviderFailover hiding Providers
open ProviderConnectors hiding AnthropicConnector BedrockConnector
open OpenAiForwarding hiding OpenAiConnector
open SignatureV4 BedrockSigning ControlNodeClient

variable {κ : Type}

/-- A request as the HTTP client is given it. -/
structure HttpRequest where
  url : String
  headers : List (String × String)
  body : Bytes
  deriving DecidableEq, Repr

/-- What a call takes from its surroundings. A number that was read as floating-point is
written as `float` says; `post` is the HTTP client. -/
structure Surroundings (κ : Type) where
  serde : Serde
  hashes : Hashes
  ambient : Ambient
  secs : UInt64
  float : Number → Number
  post : κ → HttpRequest → Except String OpenAiReply

def jsonType : String × String := ("content-type", "application/json")

def openaiRequest (c : KeyedConnector κ) (endpoint : Endpoint) (body : Bytes) : HttpRequest :=
  ⟨c.baseUrl ++ endpoint.path, [("authorization", "Bearer " ++ c.apiKey), jsonType], body⟩

def anthropicVersion : String := "2023-06-01"

def messageJson (m : Message) : Json :=
  .object [("role", .string m.role), ("content", .string m.content)]

/-- A field that is skipped if it is not there. -/
def skipped (name : String) (v : Option Json) : List (String × Json) := (v.map (Prod.mk name)).toList

def anthropicJson (float : Number → Number) (r : AnthropicRequest) : Json :=
  .object ([("model", .string r.model), ("messages", .array (r.messages.map messageJson)),
    ("max_tokens", .number (.unsigned r.maxTokens.toUInt64))] ++
      skipped "system" (r.system.map .string) ++
      skipped "temperature" (r.temperature.map fun n => .number (float n)) ++
      skipped "stream" (r.stream.map .bool))

def anthropicRequest (env : Surroundings κ) (c : KeyedConnector κ) (r : AnthropicRequest) :
    HttpRequest :=
  ⟨c.baseUrl ++ "/v1/messages",
    [("x-api-key", c.apiKey), ("anthropic-version", anthropicVersion), jsonType],
    asBytes (env.serde.toText (anthropicJson env.float r))⟩

def azureUrl (c : AzureConnector κ) (endpoint : Endpoint) (deployment : String) : String :=
  let operation :=
    match endpoint with
    | .chat => "/chat/completions"
    | .embeddings => "/embeddings"
  c.baseUrl ++ "/openai/deployments/" ++ deployment ++ operation ++ "?api-version=" ++ c.apiVersion

/-- The body goes out as it came. -/
def azureRequest (c : AzureConnector κ) (request : ConnectorCall) : HttpRequest :=
  ⟨azureUrl c request.endpoint request.model, [("api-key", c.apiKey), jsonType], request.body⟩

def bedrockJson (float : Number → Number) (r : BedrockRequest) : Json :=
  .object ([("anthropic_version", .string r.anthropicVersion),
    ("messages", .array (r.messages.map messageJson)),
    ("max_tokens", .number (.unsigned r.maxTokens.toUInt64))] ++
      skipped "system" (r.system.map .string) ++
      skipped "temperature" (r.temperature.map fun n => .number (float n)))

def bedrockRequest (env : Surroundings κ) (c : BedrockConnector κ) (model : String)
    (payload : Bytes) : HttpRequest :=
  ⟨c.endpoint ++ invokePath model, chatHeaders env.hashes c model payload env.secs, payload⟩

namespace AzureConnector

def send (env : Surroundings κ) (c : AzureConnector κ) (request : ConnectorCall) :
    Except CoreError OpenAiReply :=
  (env.post c.client (azureRequest c request)).mapError fun e =>
    .provider ("request to Azure OpenAI failed: " ++ e)

/-- A reply that is read to its end before it is handed on. -/
def buffered (lib : Serde) (request : ConnectorCall) (response : OpenAiReply) :
    Except CoreError ChatResponse := do
  let body ← (collectBody response.chunks).mapError fun e =>
    .provider ("reading Azure OpenAI response failed: " ++ e)
  pure ⟨response.status, response.contentType.bind toStr, singleChunk body, "azure",
    request.model, parseOpenaiUsage lib.toExternals body, 1⟩

def chat (env : Surroundings κ) (c : AzureConnector κ) (request : ConnectorCall) :
    Except CoreError ChatResponse := do
  let response ← send env c request
  if request.stream then
    pure ⟨response.status, response.contentType.bind toStr, response.chunks, "azure",
      request.model, none, 1⟩
  else buffered env.serde request response

def embeddings (env : Surroundings κ) (c : AzureConnector κ) (request : ConnectorCall) :
    Except CoreError ChatResponse := do
  let response ← send env c request
  buffered env.serde request response

end AzureConnector

/-- The OpenAI connector over the HTTP client. -/
def openaiClient (env : Surroundings κ) (c : KeyedConnector κ) : OpenAiForwarding.OpenAiConnector :=
  ⟨fun endpoint body => env.post c.client (openaiRequest c endpoint body)⟩

def anthropicClient (env : Surroundings κ) (c : KeyedConnector κ) :
    ProviderConnectors.AnthropicConnector :=
  ⟨fun r => (env.post c.client (anthropicRequest env c r)).map OpenAiReply.toHttpResponse⟩

def bedrockClient (env : Surroundings κ) (c : BedrockConnector κ) :
    ProviderConnectors.BedrockConnector :=
  ⟨fun model r => (env.post c.client (bedrockRequest env c model
    (asBytes (env.serde.toText (bedrockJson env.float r))))).map OpenAiReply.toHttpResponse⟩

def chat (env : Surroundings κ) (request : ConnectorCall) :
    RuntimeBuilding.Connector κ → Option (Except CoreError ChatResponse)
  | .openai c => some ((openaiClient env c).chat env.serde request)
  | .anthropic c => (anthropicClient env c).chat env.serde env.ambient request
  | .azure c => some (AzureConnector.chat env c request)
  | .bedrock c => (bedrockClient env c).chat env.serde env.ambient request

/-- The error of a connector without embeddings. -/
def unsupported (c : RuntimeBuilding.Connector κ) : CoreError :=
  .provider ("provider '" ++ ModelListing.Connector.name c ++ "' does not support embeddings")

def embeddings (env : Surroundings κ) (request : ConnectorCall) :
    RuntimeBuilding.Connector κ → Option (Except CoreError ChatResponse)
  | .openai c => some ((openaiClient env c).embeddings env.serde request)
  | .azure c => some (AzureConnector.embeddings env c request)
  | c => some (.error (unsupported c))

/-- A call without a timeout around it. -/
def answer (env : Surroundings κ) (c : RuntimeBuilding.Connector κ) (request : ConnectorCall) :
    Option (Except CoreError ChatResponse) :=
  match request.endpoint with
  | .chat => chat env request c
  | .embeddings => embeddings env request c

/-- What a call hands to the HTTP client. -/
def posted (env : Surroundings κ) (request : ConnectorCall) :
    RuntimeBuilding.Connector κ → List HttpRequest
  | .openai c =>
      [openaiRequest c request.endpoint (rewriteModel env.serde request.body request.model)]
  | .azure c => [azureRequest c request]
  | .anthropic c =>
      match request.endpoint, parseOpenaiMessages env.serde.toExternals env.ambient request.body with
      | .chat, .ok parts => [anthropicRequest env c ⟨request.model, parts.messages, parts.maxTokens,
          parts.system, parts.temperature, if request.stream then some true else none⟩]
      | _, _ => []
  | .bedrock c =>
      match request.endpoint, request.stream,
          parseOpenaiMessages env.serde.toExternals env.ambient request.body with
      | .chat, false, .ok parts => [bedrockRequest env c request.model
          (asBytes (env.serde.toText (bedrockJson env.float ⟨bedrockAnthropicVersion, parts.messages,
            parts.maxTokens, parts.system, parts.temperature⟩)))]
      | _, _, _ => []

def httpClient : RuntimeBuilding.Connector κ → κ
  | .openai c => c.client
  | .anthropic c => c.client
  | .azure c => c.client
  | .bedrock c => c.client

theorem anthropicChat_congr {lib : Serde} {a : Ambient} {c c' : ProviderConnectors.AnthropicConnector}
    {request : ConnectorCall}
    (h : ∀ parts, parseOpenaiMessages lib.toExternals a request.body = .ok parts →
      let r : AnthropicRequest := ⟨request.model, parts.messages, parts.maxTokens, parts.system,
        parts.temperature, if request.stream then some true else none⟩
      c'.send r = c.send r) :
    c'.chat lib a request = c.chat lib a request := by
  unfold ProviderConnectors.AnthropicConnector.chat
  cases hparse : parseOpenaiMessages lib.toExternals a request.body with
  | error err => rfl
  | ok parts =>
      dsimp only
      rw [h parts hparse]

theorem bedrockChat_congr {lib : Serde} {a : Ambient} {c c' : ProviderConnectors.BedrockConnector}
    {request : ConnectorCall}
    (h : ∀ parts, request.stream = false →
      parseOpenaiMessages lib.toExternals a request.body = .ok parts →
      let r : BedrockRequest := ⟨bedrockAnthropicVersion, parts.messages, parts.maxTokens,
        parts.system, parts.temperature⟩
      c'.send request.model r = c.send request.model r) :
    c'.chat lib a request = c.chat lib a request := by
  unfold ProviderConnectors.BedrockConnector.chat
  split_ifs with hstream
  · rfl
  · cases hparse : parseOpenaiMessages lib.toExternals a request.body with
    | error err => rfl
    | ok parts =>
        dsimp only
        rw [h parts (Bool.eq_false_iff.mpr hstream) hparse]

section
variable {env : Surroundings κ} {c : RuntimeBuilding.Connector κ} {request : ConnectorCall}

/-- A call learns of the HTTP client what it answers to the request it is handed. -/
theorem answer_of_posted {post : κ → HttpRequest → Except String OpenAiReply}
    (h : ∀ q ∈ posted env request c, post (httpClient c) q = env.post (httpClient c) q) :
    answer { env with post := post } c request = answer env c request := by
  unfold answer
  cases c with
  | openai c =>
      have hpost : post c.client (openaiRequest c request.endpoint
          (rewriteModel env.serde request.body request.model)) = env.post c.client
            (openaiRequest c request.endpoint (rewriteModel env.serde request.body request.model)) :=
        h _ List.mem_cons_self
      cases request.endpoint with
      | chat =>
          simp only [chat, OpenAiForwarding.OpenAiConnector.chat,
            OpenAiForwarding.OpenAiConnector.send, openaiClient, hpost]
      | embeddings =>
          simp only [embeddings, OpenAiForwarding.OpenAiConnector.embeddings,
            OpenAiForwarding.OpenAiConnector.send, openaiClient, hpost]
  | azure c =>
      have hpost : post c.client (azureRequest c request) =
          env.post c.client (azureRequest c request) := h _ List.mem_cons_self
      cases request.endpoint with
      | chat => simp only [chat, AzureConnector.chat, AzureConnector.send, hpost]
      | embeddings => simp only [embeddings, AzureConnector.embeddings, AzureConnector.send, hpost]
  | anthropic c =>
      cases hendpoint : request.endpoint with
      | embeddings => rfl
      | chat =>
          apply anthropicChat_congr
          intro parts hparse
          have hpost := h _ (by
            simp only [posted, hendpoint, hparse]
            exact List.mem_cons_self)
          exact congrArg (Except.map OpenAiReply.toHttpResponse) hpost
  | bedrock c =>
      cases hendpoint : request.endpoint with
      | embeddings => rfl
      | chat =>
          apply bedrockChat_congr
          intro parts hstream hparse
          have hpost := h _ (by
            simp only [posted, hendpoint, hstream, hparse]
            exact List.mem_cons_self)
          exact congrArg (Except.map OpenAiReply.toHttpResponse) hpost

/-- The response is labelled with the provider and the model that were asked. -/
def Labelled (provider : String) (request : ConnectorCall) (response : ChatResponse) : Prop :=
  response.provider = provider ∧ response.model = request.model

theorem labelled_openai {lib : Serde} {client : OpenAiForwarding.OpenAiConnector}
    {response : ChatResponse}
    (h : client.chat lib request = .ok response ∨ client.embeddings lib request = .ok response) :
    Labelled "openai" request response := by
  have hbuffered {reply : OpenAiReply}
      (hr : OpenAiForwarding.OpenAiConnector.buffered lib request reply = .ok response) :
      Labelled "openai" request response := by
    obtain ⟨body, -, hresponse⟩ := bind_eq_ok.mp hr
    cases hresponse
    exact ⟨rfl, rfl⟩
  rcases h with h | h
  · obtain ⟨reply, -, hreply⟩ := bind_eq_ok.mp h
    split_ifs at hreply
    · cases hreply
      exact ⟨rfl, rfl⟩
    · exact hbuffered hreply
  · obtain ⟨reply, -, hreply⟩ := bind_eq_ok.mp h
    exact hbuffered hreply

theorem labelled_azure {c : AzureConnector κ} {response : ChatResponse}
    (h : AzureConnector.chat env c request = .ok response ∨
      AzureConnector.embeddings env c request = .ok response) :
    Labelled "azure" request response := by
  have hbuffered {reply : OpenAiReply}
      (hr : AzureConnector.buffered env.serde request reply = .ok response) :
      Labelled "azure" request response := by
    obtain ⟨body, -, hresponse⟩ := bind_eq_ok.mp hr
    cases hresponse
    exact ⟨rfl, rfl⟩
  rcases h with h | h
  · obtain ⟨reply, -, hreply⟩ := bind_eq_ok.mp h
    split_ifs at hreply
    · cases hreply
      exact ⟨rfl, rfl⟩
    · exact hbuffered hreply
  · obtain ⟨reply, -, hreply⟩ := bind_eq_ok.mp h
    exact hbuffered hreply

theorem labelled_anthropic {lib : Serde} {a : Ambient}
    {client : ProviderConnectors.AnthropicConnector} {response : ChatResponse}
    (h : client.chat lib a request = some (.ok response)) :
    Labelled "anthropic" request response := by
  unfold ProviderConnectors.AnthropicConnector.chat at h
  split at h
  · cases h
  · split at h
    · cases h
    · split_ifs at h
      · cases h
        exact ⟨rfl, rfl⟩
      · split at h
        · cases h
        · obtain ⟨r, -, rfl⟩ := map_eq_ok.mp (Option.some.inj h)
          exact ⟨rfl, rfl⟩
      · split at h
        · cases h
        · obtain ⟨rewritten, -, hresponse⟩ := Option.map_eq_some_iff.mp h
          cases hresponse
          exact ⟨rfl, rfl⟩

theorem labelled_bedrock {lib : Serde} {a : Ambient}
    {client : ProviderConnectors.BedrockConnector} {response : ChatResponse}
    (h : client.chat lib a request = some (.ok response)) : Labelled "bedrock" request response := by
  unfold ProviderConnectors.BedrockConnector.chat at h
  split_ifs at h
  · cases h
    exact ⟨rfl, rfl⟩
  · split at h
    · cases h
    · split at h
      · cases h
      · split at h
        · cases h
        · split at h
          · obtain ⟨r, -, rfl⟩ := map_eq_ok.mp (Option.some.inj h)
            exact ⟨rfl, rfl⟩
          · cases h
            exact ⟨rfl, rfl⟩

theorem labelled_answer {response : ChatResponse} (h : answer env c request = some (.ok response)) :
    Labelled (ModelListing.Connector.name c) request response := by
  unfold answer at h
  cases c with
  | openai c =>
      cases hendpoint : request.endpoint with
      | chat =>
          rw [hendpoint] at h
          exact labelled_openai (.inl (Option.some.inj h))
      | embeddings =>
          rw [hendpoint] at h
          exact labelled_openai (.inr (Option.some.inj h))
  | azure c =>
      cases hendpoint : request.endpoint with
      | chat =>
          rw [hendpoint] at h
          exact labelled_azure (.inl (Option.some.inj h))
      | embeddings =>
          rw [hendpoint] at h
          exact labelled_azure (.inr (Option.some.inj h))
  | anthropic c =>
      cases hendpoint : request.endpoint with
      | chat =>
          rw [hendpoint] at h
          exact labelled_anthropic h
      | embeddings =>
          rw [hendpoint] at h
          cases h
  | bedrock c =>
      cases hendpoint : request.endpoint with
      | chat =>
          rw [hendpoint] at h
          exact labelled_bedrock h
      | embeddings =>
          rw [hendpoint] at h
          cases h

end

/-- The call asks for a streamed reply. -/
def streams (request : ConnectorCall) : Bool := request.endpoint == .chat && request.stream

section
variable {env : Surroundings κ} {c : RuntimeBuilding.Connector κ} {request : ConnectorCall}

/-- No connector reports the usage of a reply that it hands on as it arrives. -/
theorem unreported_answer {response : ChatResponse} (h : answer env c request = some (.ok response))
    (hstreams : streams request = true) : response.usage = none := by
  obtain ⟨hendpoint, hstream⟩ := Bool.and_eq_true_iff.mp hstreams
  rw [answer, eq_of_beq hendpoint] at h
  cases c with
  | openai c =>
      obtain ⟨reply, -, hreply⟩ := bind_eq_ok.mp (Option.some.inj h)
      rw [if_pos hstream] at hreply
      cases hreply
      rfl
  | azure c =>
      obtain ⟨reply, -, hreply⟩ := bind_eq_ok.mp (Option.some.inj h)
      rw [if_pos hstream] at hreply
      cases hreply
      rfl
  | anthropic c =>
      simp only [chat, ProviderConnectors.AnthropicConnector.chat] at h
      split at h
      · cases h
      · split at h
        · cases h
        · split_ifs at h with hadapted hok
          · cases h
            rfl
          · rw [hstream, hok] at hadapted
            exact (hadapted rfl).elim
          · split at h
            · cases h
            · obtain ⟨rewritten, -, hresponse⟩ := Option.map_eq_some_iff.mp h
              cases hresponse
              rfl
  | bedrock c =>
      simp only [chat, ProviderConnectors.BedrockConnector.chat] at h
      rw [if_pos hstream] at h
      cases h
      rfl

end

/-- `Registry::embeddings`, as `ModelListing.Registry.chat`. -/
def Registry.embeddings (P : ProviderFailover.Providers κ)
    (direct : κ → ConnectorCall → Option (Except CoreError ChatResponse)) (registry : Registry κ)
    (request : ConnectorCall) : Dispatched κ :=
  match registry.models request.model with
  | some resolved => dispatchEmbeddings P resolved request.model request
  | none =>
      match ModelListing.fallbackConnector registry request.model with
      | some connector => ⟨direct connector request, [(connector, request)], []⟩
      | none => ⟨some (.error (.provider
          ("no provider configured for model '" ++ request.model ++ "'"))), [], []⟩

/-- The outcome of a route. Which questions exceed the timeout of the model is given. -/
def outcome (env : Surroundings κ) (slow : ℕ → RuntimeBuilding.Connector κ → ConnectorCall → Bool)
    (index : ℕ) (c : RuntimeBuilding.Connector κ) (request : ConnectorCall) : Option RouteOutcome :=
  if slow index c request then some .timedOut
  else (answer env c request).map fun
    | .ok response => .answered response
    | .error err => .failed err

def serve (env : Surroundings κ) (slow : ℕ → RuntimeBuilding.Connector κ → ConnectorCall → Bool)
    (registry : Registry (RuntimeBuilding.Connector κ)) (request : ConnectorCall) :
    Dispatched (RuntimeBuilding.Connector κ) :=
  match request.endpoint with
  | .chat => ModelListing.Registry.chat ⟨ModelListing.Connector.name, outcome env slow⟩ (answer env)
      registry request
  | .embeddings => Registry.embeddings ⟨ModelListing.Connector.name, outcome env slow⟩ (answer env)
      registry request

/-- The provider of a model that is not registered. -/
def fallbackProvider (model : String) : String :=
  if (stripPrefix model "claude").isSome then "anthropic" else "openai"

/-- A route is asked for its own model. An embeddings request has no stream flag. -/
def attemptOf (request : ConnectorCall) (model : String) : ConnectorCall :=
  match request.endpoint with
  | .chat => ⟨.chat, model, request.stream, request.body⟩
  | .embeddings => ⟨.embeddings, model, false, request.body⟩

theorem attemptOf_endpoint (request : ConnectorCall) (model : String) :
    (attemptOf request model).endpoint = request.endpoint := by
  unfold attemptOf
  cases request.endpoint <;> rfl

theorem attemptOf_body (request : ConnectorCall) (model : String) :
    (attemptOf request model).body = request.body := by
  unfold attemptOf
  cases request.endpoint <;> rfl

theorem attemptOf_model (request : ConnectorCall) (model : String) :
    (attemptOf request model).model = model := by
  unfold attemptOf
  cases request.endpoint <;> rfl

theorem answer_of_outcome {env : Surroundings κ}
    {slow : ℕ → RuntimeBuilding.Connector κ → ConnectorCall → Bool} {index : ℕ}
    {c : RuntimeBuilding.Connector κ} {request : ConnectorCall} {r : ChatResponse}
    (h : outcome env slow index c request = some (.answered r)) :
    answer env c request = some (.ok r) := by
  unfold outcome at h
  split_ifs at h
  · cases h
  · obtain ⟨result, hresult, hanswered⟩ := Option.map_eq_some_iff.mp h
    cases result with
    | error err => cases hanswered
    | ok r' =>
        obtain rfl := RouteOutcome.answered.inj hanswered
        exact hresult

/-- The two endpoints differ in what a route is asked. -/
theorem serve_eq (env : Surroundings κ)
    (slow : ℕ → RuntimeBuilding.Connector κ → ConnectorCall → Bool)
    (registry : Registry (RuntimeBuilding.Connector κ)) (request : ConnectorCall) :
    serve env slow registry request =
      match registry.models request.model with
      | some resolved =>
          tryRoutes ⟨ModelListing.Connector.name, outcome env slow⟩ resolved request.model
            (attemptOf request) 0 resolved.routes
      | none =>
          match registry.connectors (fallbackProvider request.model) with
          | some connector => ⟨answer env connector request, [(connector, request)], []⟩
          | none => ⟨some (.error (.provider
              ("no provider configured for model '" ++ request.model ++ "'"))), [], []⟩ := by
  unfold serve
  cases hendpoint : request.endpoint with
  | chat =>
      have hattempt : attemptOf request = fun model => ⟨.chat, model, request.stream, request.body⟩ := by
        funext model
        rw [attemptOf, hendpoint]
      rw [hattempt]
      dsimp only
      rw [ModelListing.Registry.chat]
      cases registry.models request.model with
      | some resolved => rfl
      | none =>
          rw [ModelListing.fallbackConnector, ← fallbackProvider]
          cases registry.connectors (fallbackProvider request.model) <;> rfl
  | embeddings =>
      have hattempt : attemptOf request = fun model => ⟨.embeddings, model, false, request.body⟩ := by
        funext model
        rw [attemptOf, hendpoint]
      rw [hattempt]
      dsimp only
      rw [Registry.embeddings]
      cases registry.models request.model with
      | some resolved => rfl
      | none =>
          rw [ModelListing.fallbackConnector, ← fallbackProvider]
          cases registry.connectors (fallbackProvider request.model) <;> rfl

section
variable {P : ProviderFailover.Providers κ} {resolved : ResolvedModel κ} {virtualModel : String}
variable {attempt : String → ConnectorCall}

/-- The first route decides, or the dispatch goes on without its answer. -/
theorem tryRoutes_cases (P : ProviderFailover.Providers κ) (resolved : ResolvedModel κ)
    (virtualModel : String) (attempt : String → ConnectorCall) (index : ℕ) (route : ResolvedRoute κ)
    (routes : List (ResolvedRoute κ)) :
    let call := (route.connector, attempt route.model)
    let rest := tryRoutes P resolved virtualModel attempt (index + 1) routes
    tryRoutes P resolved virtualModel attempt index (route :: routes) =
        ⟨concluded (P.name route.connector) index (P.ask index call.1 call.2), [call], []⟩ ∨
      ∃ event, tryRoutes P resolved virtualModel attempt index (route :: routes) =
        ⟨rest.result, call :: rest.calls, event :: rest.failovers⟩ := by
  by_cases hstop : Final resolved.retryOn (P.ask index route.connector (attempt route.model)) ∨
      index = resolved.routes.length - 1
  · exact .inl (tryRoutes_stop hstop)
  · rw [not_or] at hstop
    cases hask : P.ask index route.connector (attempt route.model) with
    | none =>
        rw [hask] at hstop
        exact (hstop.1 trivial).elim
    | some outcome =>
        rw [hask] at hstop
        exact .inr ⟨_, tryRoutes_continue hask hstop.1 hstop.2⟩

/-- The questions of a dispatch are those of its routes. -/
theorem mem_calls_tryRoutes {index : ℕ} {routes : List (ResolvedRoute κ)}
    {asked : κ × ConnectorCall}
    (h : asked ∈ (tryRoutes P resolved virtualModel attempt index routes).calls) :
    ∃ route ∈ routes, asked = (route.connector, attempt route.model) := by
  induction routes generalizing index with
  | nil => cases h
  | cons route routes ih =>
      rcases tryRoutes_cases P resolved virtualModel attempt index route routes with hstop | hnext
      · rw [hstop] at h
        exact ⟨route, List.mem_cons_self, List.mem_singleton.mp h⟩
      · obtain ⟨event, hnext⟩ := hnext
        rw [hnext] at h
        rcases List.mem_cons.mp h with hfirst | hrest
        · exact ⟨route, List.mem_cons_self, hfirst⟩
        · obtain ⟨r, hr, heq⟩ := ih hrest
          exact ⟨r, List.mem_cons_of_mem route hr, heq⟩

/-- A dispatch that answers hands on the answer of one of its routes. -/
theorem answered_of_tryRoutes {index : ℕ} {routes : List (ResolvedRoute κ)} {response : ChatResponse}
    (h : (tryRoutes P resolved virtualModel attempt index routes).result = some (.ok response)) :
    ∃ i, ∃ route ∈ routes, ∃ r, P.ask i route.connector (attempt route.model) = some (.answered r) ∧
      response.provider = r.provider ∧ response.model = r.model ∧ response.usage = r.usage := by
  induction routes generalizing index with
  | nil => cases h
  | cons route routes ih =>
      rcases tryRoutes_cases P resolved virtualModel attempt index route routes with hstop | hnext
      · rw [hstop] at h
        refine ⟨index, route, List.mem_cons_self, ?_⟩
        rcases hask : P.ask index route.connector (attempt route.model) with _ | r | err | _
        · rw [hask] at h
          cases h
        · rw [hask] at h
          cases h
          exact ⟨r, rfl, rfl, rfl, rfl⟩
        · rw [hask] at h
          cases h
        · rw [hask] at h
          cases h
      · obtain ⟨event, hnext⟩ := hnext
        rw [hnext] at h
        obtain ⟨i, r', hr', hanswered⟩ := ih h
        exact ⟨i, r', List.mem_cons_of_mem route hr', hanswered⟩

/-- Only the answers to questions of the routes matter. -/
theorem tryRoutes_congr {ask : ℕ → κ → ConnectorCall → Option RouteOutcome} {index : ℕ}
    {routes : List (ResolvedRoute κ)}
    (h : ∀ i, ∀ route ∈ routes, ask i route.connector (attempt route.model) =
      P.ask i route.connector (attempt route.model)) :
    tryRoutes ⟨P.name, ask⟩ resolved virtualModel attempt index routes =
      tryRoutes P resolved virtualModel attempt index routes := by
  induction routes generalizing index with
  | nil => rfl
  | cons route routes ih =>
      have hrest := @ih (index + 1) fun i r hr => h i r (List.mem_cons_of_mem route hr)
      rw [tryRoutes, tryRoutes]
      dsimp only
      rw [h index route List.mem_cons_self, hrest]
      rfl

end

theorem streams_attemptOf (request : ConnectorCall) (model : String) :
    streams (attemptOf request model) = streams request := by
  unfold streams attemptOf
  cases hendpoint : request.endpoint <;> rfl

/-- The usage of a streamed reply is open, whichever route it came by. -/
theorem unreported_serve {env : Surroundings κ}
    {slow : ℕ → RuntimeBuilding.Connector κ → ConnectorCall → Bool}
    {registry : Registry (RuntimeBuilding.Connector κ)} {request : ConnectorCall}
    {response : ChatResponse} (h : (serve env slow registry request).result = some (.ok response))
    (hstreams : streams request = true) : response.usage = none := by
  rw [serve_eq] at h
  cases hmodel : registry.models request.model with
  | some resolved =>
      rw [hmodel] at h
      obtain ⟨i, route, hroute, r, hask, -, -, husage⟩ := answered_of_tryRoutes h
      rw [husage]
      apply unreported_answer (answer_of_outcome hask)
      rw [streams_attemptOf, hstreams]
  | none =>
      rw [hmodel] at h
      cases hconnector : registry.connectors (fallbackProvider request.model) with
      | none =>
          rw [hconnector] at h
          cases h
      | some c =>
          rw [hconnector] at h
          exact unreported_answer h hstreams

/-- The providers that a request for a model may be sent to, with the model each is asked
for: the routes of the model, or the default for a name that is not configured. -/
def labels (config : Config) (model : String) : List (String × String) :=
  match lastNamed config.models model with
  | some m => (routesOf m).map fun r => (r.provider, r.model)
  | none => [(fallbackProvider model, model)]

/-- The connectors of a configuration over an HTTP client. -/
def openaiOf (host : Host κ) (p : Providers) (client : κ) : KeyedConnector κ :=
  ⟨trimSlashes p.openai.baseUrl, host.readKey p.openai.apiKeyEnv, client⟩

def anthropicOf (host : Host κ) (p : Providers) (client : κ) : KeyedConnector κ :=
  ⟨trimSlashes p.anthropic.baseUrl, host.readKey p.anthropic.apiKeyEnv, client⟩

def azureOf (host : Host κ) (p : Providers) (client : κ) : AzureConnector κ :=
  ⟨⟨trimSlashes p.azure.baseUrl, host.readKey p.azure.apiKeyEnv, client⟩, p.azure.apiVersion⟩

def bedrockOf (host : Host κ) (p : Providers) (client : κ) : BedrockConnector κ where
  endpoint := "https://bedrock-runtime." ++ p.bedrock.region ++ ".amazonaws.com"
  host := "bedrock-runtime." ++ p.bedrock.region ++ ".amazonaws.com"
  region := p.bedrock.region
  accessKey := host.readKey p.bedrock.accessKeyEnv
  secretKey := host.readKey p.bedrock.secretKeyEnv
  sessionToken := host.optionalEnv p.bedrock.sessionTokenEnv
  client := client

/-- Address and headers are those of a provider of the configuration. Where the model is
part of the address, it is that of a route. -/
inductive Addressed (host : Host κ) (config : Config) (env : Surroundings κ) : HttpRequest → Prop
  | openai (client : κ) (endpoint : Endpoint) (body : Bytes) :
      Addressed host config env (openaiRequest (openaiOf host config.providers client) endpoint body)
  | anthropic (client : κ) (r : AnthropicRequest) :
      Addressed host config env
        (anthropicRequest env (anthropicOf host config.providers client) r)
  | azure (client : κ) {m : ModelConfig} (hm : m ∈ config.models) {r : Route} (hr : r ∈ routesOf m)
      (hazure : r.provider = "azure") {call : ConnectorCall} (hcall : call.model = r.model) :
      Addressed host config env (azureRequest (azureOf host config.providers client) call)
  | bedrock (client : κ) {m : ModelConfig} (hm : m ∈ config.models) {r : Route}
      (hr : r ∈ routesOf m) (hbedrock : r.provider = "bedrock") (payload : Bytes) :
      Addressed host config env
        (bedrockRequest env (bedrockOf host config.providers client) r.model payload)

theorem connectors_eq {host : Host κ} {p : Providers}
    {table : String → Option (RuntimeBuilding.Connector κ)} (h : connectors host p = .ok table) :
    ∃ client, host.client = .ok client ∧
      table = connectorTable (openaiOf host p client) (anthropicOf host p client)
        (azureOf host p client) (bedrockOf host p client) := by
  simp only [connectors, bind_eq_ok, mapError_eq_ok] at h
  obtain ⟨openai, hopenai, anthropic, hanthropic, azure, hazure, bedrock, hbedrock, htable⟩ := h
  obtain ⟨client, hclient, hopenai⟩ := bind_eq_ok.mp hopenai
  obtain ⟨client₂, hclient₂, hanthropic⟩ := bind_eq_ok.mp hanthropic
  obtain ⟨client₃, hclient₃, hazure⟩ := bind_eq_ok.mp hazure
  obtain ⟨client₄, hclient₄, hbedrock⟩ := bind_eq_ok.mp hbedrock
  -- There is one client for all.
  obtain rfl := Except.ok.inj (hclient.symm.trans hclient₂)
  obtain rfl := Except.ok.inj (hclient.symm.trans hclient₃)
  obtain rfl := Except.ok.inj (hclient.symm.trans hclient₄)
  cases hopenai
  cases hanthropic
  cases hazure
  cases htable
  have hauthority : stripPrefix ("https://bedrock-runtime." ++ p.bedrock.region ++ ".amazonaws.com")
      "https://" = some ("bedrock-runtime." ++ p.bedrock.region ++ ".amazonaws.com") := by
    have hscheme : "https://bedrock-runtime." = "https://" ++ "bedrock-runtime." := rfl
    rw [hscheme, String.append_assoc, String.append_assoc, stripPrefix_append, String.append_assoc]
  refine ⟨client, mapError_eq_ok.mp hclient, congrArg _ ?_⟩
  rw [← Except.ok.inj hbedrock, hauthority]
  rfl

section
variable {host : Host κ} {config : Config} {runtime : BuiltRuntime κ}
variable {P : ProviderFailover.Providers (RuntimeBuilding.Connector κ)}
variable {table : String → Option (RuntimeBuilding.Connector κ)}

/-- The question is one that the configuration allows for a request. -/
structure Configured (table : String → Option (RuntimeBuilding.Connector κ)) (config : Config)
    (request : ConnectorCall) (asked : RuntimeBuilding.Connector κ × ConnectorCall) : Prop where
  endpoint : asked.2.endpoint = request.endpoint
  body : asked.2.body = request.body
  label : ∃ provider, table provider = some asked.1 ∧
    (provider, asked.2.model) ∈ labels config request.model

/-- The routes of a registered model are those of the configuration. -/
theorem configured_route {resolved : ResolvedModel (RuntimeBuilding.Connector κ)} {model : String}
    (hnew : Registry.new table config.models = .ok runtime.connector)
    (hresolved : runtime.connector.models model = some resolved)
    {route : ResolvedRoute (RuntimeBuilding.Connector κ)} (hroute : route ∈ resolved.routes) :
    ∃ provider, table provider = some route.connector ∧
      (provider, route.model) ∈ labels config model := by
  obtain ⟨m, hlast, hresolve⟩ := (Registry.new_models hnew).mp hresolved
  obtain ⟨r, hr, hconnector, hmodel⟩ := exists_mem_of_forall₂ (resolveModel_eq_ok hresolve).1 hroute
  refine ⟨r.provider, hconnector, ?_⟩
  rw [labels, hlast]
  exact List.mem_map.mpr ⟨r, hr, by rw [hmodel]⟩

theorem labels_of_unregistered (hnew : Registry.new table config.models = .ok runtime.connector)
    {model : String} (h : runtime.connector.models model = none) :
    labels config model = [(fallbackProvider model, model)] := by
  have hnone : lastNamed config.models model = none := by
    rw [← Option.not_isSome_iff_eq_none, lastNamed_isSome, ← Registry.new_registered hnew, h]
    exact Bool.false_ne_true
  rw [labels, hnone]

theorem connectors_of_registry {models : List ModelConfig}
    {registry : Registry (RuntimeBuilding.Connector κ)}
    (h : Registry.new table models = .ok registry) : registry.connectors = table := by
  obtain ⟨final, -, hregistry⟩ := bind_eq_ok.mp h
  cases hregistry
  rfl

variable (env : Surroundings κ) (slow : ℕ → RuntimeBuilding.Connector κ → ConnectorCall → Bool)

theorem configured_attempt (hnew : Registry.new table config.models = .ok runtime.connector)
    {request : ConnectorCall} {resolved : ResolvedModel (RuntimeBuilding.Connector κ)}
    (hmodel : runtime.connector.models request.model = some resolved)
    {route : ResolvedRoute (RuntimeBuilding.Connector κ)} (hroute : route ∈ resolved.routes) :
    Configured table config request (route.connector, attemptOf request route.model) := by
  refine ⟨attemptOf_endpoint request route.model, attemptOf_body request route.model, ?_⟩
  rw [attemptOf_model]
  exact configured_route hnew hmodel hroute

theorem configured_fallback (hnew : Registry.new table config.models = .ok runtime.connector)
    {request : ConnectorCall} (hmodel : runtime.connector.models request.model = none)
    {c : RuntimeBuilding.Connector κ} (hc : table (fallbackProvider request.model) = some c) :
    Configured table config request (c, request) := by
  refine ⟨rfl, rfl, fallbackProvider request.model, hc, ?_⟩
  rw [labels_of_unregistered hnew hmodel]
  exact List.mem_singleton_self _

theorem configured_of_mem_calls (hnew : Registry.new table config.models = .ok runtime.connector)
    {request : ConnectorCall} {asked : RuntimeBuilding.Connector κ × ConnectorCall}
    (h : asked ∈ (serve env slow runtime.connector request).calls) :
    Configured table config request asked := by
  rw [serve_eq] at h
  cases hmodel : runtime.connector.models request.model with
  | some resolved =>
      rw [hmodel] at h
      obtain ⟨route, hroute, rfl⟩ := mem_calls_tryRoutes h
      exact configured_attempt hnew hmodel hroute
  | none =>
      rw [hmodel, connectors_of_registry hnew] at h
      cases hconnector : table (fallbackProvider request.model) with
      | none =>
          rw [hconnector] at h
          cases h
      | some c =>
          rw [hconnector] at h
          obtain rfl := List.mem_singleton.mp h
          exact configured_fallback hnew hmodel hconnector

theorem fallbackProvider_cases (model : String) :
    fallbackProvider model = "anthropic" ∨ fallbackProvider model = "openai" := by
  unfold fallbackProvider
  split_ifs
  · exact .inl rfl
  · exact .inr rfl

/-- A provider other than the two defaults is asked for the model of a route. -/
theorem route_of_label {provider model upstream : String}
    (h : (provider, upstream) ∈ labels config model) (hne : provider ≠ "anthropic")
    (hne' : provider ≠ "openai") :
    ∃ m ∈ config.models, ∃ r ∈ routesOf m, r.provider = provider ∧ r.model = upstream := by
  unfold labels at h
  cases hlast : lastNamed config.models model with
  | some m =>
      rw [hlast] at h
      obtain ⟨r, hr, heq⟩ := List.mem_map.mp h
      obtain ⟨hprovider, hmodel⟩ := Prod.mk.inj heq
      exact ⟨m, (lastNamed_mem hlast).1, r, hr, hprovider, hmodel⟩
  | none =>
      rw [hlast] at h
      obtain ⟨hprovider, -⟩ := Prod.mk.inj (List.mem_singleton.mp h)
      rcases fallbackProvider_cases model with hcase | hcase
      · exact (hne (hprovider.trans hcase)).elim
      · exact (hne' (hprovider.trans hcase)).elim

theorem connectorTable_cases {openai anthropic : KeyedConnector κ} {azure : AzureConnector κ}
    {bedrock : BedrockConnector κ} {provider : String} {c : RuntimeBuilding.Connector κ}
    (h : connectorTable openai anthropic azure bedrock provider = some c) :
    (provider = "openai" ∧ c = .openai openai) ∨ (provider = "anthropic" ∧ c = .anthropic anthropic) ∨
      (provider = "azure" ∧ c = .azure azure) ∨ (provider = "bedrock" ∧ c = .bedrock bedrock) := by
  unfold connectorTable at h
  split_ifs at h with h₁ h₂ h₃ h₄
  · exact .inl ⟨h₁, (Option.some.inj h).symm⟩
  · exact .inr (.inl ⟨h₂, (Option.some.inj h).symm⟩)
  · exact .inr (.inr (.inl ⟨h₃, (Option.some.inj h).symm⟩))
  · exact .inr (.inr (.inr ⟨h₄, (Option.some.inj h).symm⟩))

theorem addressed_of_configured {host : Host κ} (htable : connectors host config.providers = .ok table)
    {request : ConnectorCall} {asked : RuntimeBuilding.Connector κ × ConnectorCall}
    (h : Configured table config request asked) {q : HttpRequest}
    (hq : q ∈ posted env asked.2 asked.1) : Addressed host config env q := by
  obtain ⟨provider, hprovider, hlabel⟩ := h.label
  obtain ⟨client, -, rfl⟩ := connectors_eq htable
  rcases connectorTable_cases hprovider with ⟨-, hc⟩ | ⟨-, hc⟩ | ⟨rfl, hc⟩ | ⟨rfl, hc⟩
  · rw [hc] at hq
    obtain rfl := List.mem_singleton.mp hq
    exact .openai client _ _
  · rw [hc] at hq
    simp only [posted] at hq
    split at hq
    · obtain rfl := List.mem_singleton.mp hq
      exact .anthropic client _
    · cases hq
  · rw [hc] at hq
    obtain ⟨m, hm, r, hr, hazure, hmodel⟩ := route_of_label hlabel (by decide) (by decide)
    obtain rfl := List.mem_singleton.mp hq
    exact .azure client hm hr hazure hmodel.symm
  · rw [hc] at hq
    obtain ⟨m, hm, r, hr, hbedrock, hmodel⟩ := route_of_label hlabel (by decide) (by decide)
    simp only [posted] at hq
    split at hq
    · obtain rfl := List.mem_singleton.mp hq
      rw [← hmodel]
      exact .bedrock client hm hr hbedrock _
    · cases hq

/-- One model, of an Azure deployment. -/
def azureConfig : Config where
  models := [{ name := "smart", primary := ⟨"azure", "gpt-4o-eu"⟩ }]

def sampleSurroundings : Surroundings Unit where
  serde := sampleHost.serde
  hashes := ⟨id, fun _ => id⟩
  ambient := ⟨fun _ => "", [], 0⟩
  secs := 0
  float := id
  post _ _ := .error "connection refused"

/-- For every configuration that builds, every request and every behaviour of the HTTP client:
what the connectors hand to it has the address and the headers of a provider of the
configuration, with the model of a route where the address has one, and the request is
answered from what the HTTP client answers to that. -/
theorem upstream_requests_are_configured (h : buildRuntime host config = .ok runtime)
    (request : ConnectorCall) :
    (∀ asked ∈ (serve env slow runtime.connector request).calls,
      ∀ q ∈ posted env asked.2 asked.1, Addressed host config env q) ∧
    ∀ post, (∀ client q, Addressed host config env q → post client q = env.post client q) →
      serve { env with post := post } slow runtime.connector request =
        serve env slow runtime.connector request := by
  obtain ⟨table, htable, hnew, -⟩ := ModelListing.buildRuntime_parts h
  constructor
  · intro asked hasked q hq
    exact addressed_of_configured env htable (configured_of_mem_calls env slow hnew hasked) hq
  · intro post hpost
    have hanswer {asked : RuntimeBuilding.Connector κ × ConnectorCall}
        (hasked : Configured table config request asked) :
        answer { env with post := post } asked.1 asked.2 = answer env asked.1 asked.2 := by
      apply answer_of_posted
      intro q hq
      exact hpost _ q (addressed_of_configured env htable hasked hq)
    rw [serve_eq, serve_eq]
    cases hmodel : runtime.connector.models request.model with
    | some resolved =>
        dsimp only
        apply tryRoutes_congr (P := ⟨ModelListing.Connector.name, outcome env slow⟩)
        intro i route hroute
        simp only [outcome, hanswer (configured_attempt hnew hmodel hroute)]
    | none =>
        rw [connectors_of_registry hnew]
        cases hconnector : table (fallbackProvider request.model) with
        | none => rfl
        | some c => simp only [hanswer (configured_fallback hnew hmodel hconnector)]

/-- An answer to a question that the configuration allows has a label that it allows. -/
theorem label_of_answer {host : Host κ} (htable : connectors host config.providers = .ok table)
    {request : ConnectorCall} {asked : RuntimeBuilding.Connector κ × ConnectorCall}
    (h : Configured table config request asked) {response : ChatResponse}
    (hanswer : answer env asked.1 asked.2 = some (.ok response)) :
    (response.provider, response.model) ∈ labels config request.model := by
  obtain ⟨provider, hprovider, hlabel⟩ := h.label
  obtain ⟨hname, hmodel⟩ := labelled_answer hanswer
  rw [hname, hmodel, ModelListing.name_of_connectors htable hprovider]
  exact hlabel

theorem addressed_hostile_model :
    ∃ runtime, buildRuntime sampleHost azureConfig = .ok runtime ∧
      let calls := (serve sampleSurroundings (fun _ _ _ => false) runtime.connector
        ⟨.chat, "../../admin?x=", false, []⟩).calls
      calls.map (fun asked => (posted sampleSurroundings asked.2 asked.1).map HttpRequest.url) =
        [["https://api.openai.com/v1/chat/completions"]] ∧
      ∀ asked ∈ calls, ∀ q ∈ posted sampleSurroundings asked.2 asked.1,
        Addressed sampleHost azureConfig sampleSurroundings q := by
  obtain ⟨runtime, h⟩ : Succeeds (buildRuntime sampleHost azureConfig) := ⟨_, rfl⟩
  refine ⟨runtime, h, ?_, (upstream_requests_are_configured sampleSurroundings _ h _).1⟩
  obtain rfl := Except.ok.inj h
  rfl

theorem label_of_serve (h : buildRuntime host config = .ok runtime) {request : ConnectorCall}
    {response : ChatResponse}
    (hserve : (serve env slow runtime.connector request).result = some (.ok response)) :
    (response.provider, response.model) ∈ labels config request.model := by
  obtain ⟨table, htable, hnew, -⟩ := ModelListing.buildRuntime_parts h
  rw [serve_eq] at hserve
  cases hmodel : runtime.connector.models request.model with
  | some resolved =>
      rw [hmodel] at hserve
      obtain ⟨i, route, hroute, r, hask, hprovider, hlabel, -⟩ := answered_of_tryRoutes hserve
      rw [hprovider, hlabel]
      exact label_of_answer env htable (configured_attempt hnew hmodel hroute) (answer_of_outcome hask)
  | none =>
      rw [hmodel, connectors_of_registry hnew] at hserve
      cases hconnector : table (fallbackProvider request.model) with
      | none =>
          rw [hconnector] at hserve
          cases hserve
      | some c =>
          rw [hconnector] at hserve
          exact label_of_answer env htable (configured_fallback hnew hmodel hconnector) hserve

end

end VaultplaneGateway.ProviderCalls
