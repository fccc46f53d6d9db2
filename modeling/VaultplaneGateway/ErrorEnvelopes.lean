import VaultplaneGateway.ProviderConnectors
import VaultplaneGateway.ProviderFailover

/-!
# The shape of upstream errors

An error of an upstream ought to reach the client as a JSON object with a string at
`error.message`, whichever connector served it and whether or not others were asked
before. The Anthropic connector rewrites the body of every error, and fails only where
cutting a long text to 512 bytes would split a character. The Bedrock connector hands the
body on: the client sees the envelope exactly if the upstream already sent it.
-/
namespace VaultplaneGateway.ErrorEnvelopes
open ProxyPipeline hiding dispatch
open WireFormats StreamUsage ModelRegistry ProviderConnectors ProviderFailover

/-- A connector of the Anthropic schema. -/
inductive Backend where
  | anthropic (c : AnthropicConnector)
  | bedrock (c : BedrockConnector)

namespace Backend

def name : Backend → String
  | .anthropic _ => "anthropic"
  | .bedrock _ => "bedrock"

def chat (lib : Serde) (a : Ambient) : Backend → ConnectorCall →
    Option (Except CoreError ChatResponse)
  | .anthropic c => c.chat lib a
  | .bedrock c => c.chat lib a

/-- Whatever is posted, the upstream answers with this response. -/
def Receives (response : HttpResponse) : Backend → Prop
  | .anthropic c => ∀ posted, c.send posted = .ok response
  | .bedrock c => ∀ model posted, c.send model posted = .ok response

end Backend

/-- A JSON object with a string at `error.message`. -/
def IsEnvelope (lib : Externals) (body : Bytes) : Prop :=
  ∃ v message, lib.fromSlice body = some v ∧ v.path ["error", "message"] = some (.string message)

/-- The client gets a body, and for an error status the body is an envelope. For an error
of the connector the proxy writes the envelope itself. -/
def Enveloped (lib : Externals) : Option (Except CoreError ChatResponse) → Prop
  | none => False
  | some (.error _) => True
  | some (.ok response) =>
      response.status ≠ 200 → ∃ body, collectBody response.body = .ok body ∧ IsEnvelope lib body

/-- The request body is one that the connectors can translate. -/
def Decodes (lib : Externals) (body : Bytes) : Prop :=
  ∃ request, (lib.fromSliceAs .openAiRequest body).bind OpenAiRequest.decode = some request

/-- The body is a text of more than 512 bytes that has no envelope, and a character
stretches across the 512th byte. -/
def CutsCharacter (lib : Externals) (body : Bytes) : Prop :=
  ¬ IsEnvelope lib body ∧
    ∃ text, fromUtf8 body = some text ∧ 512 < text.utf8ByteSize ∧ sliceTo 512 text.toList = none

/-- When an upstream error with this body comes out enveloped. -/
def Fit (lib : Externals) (request : ConnectorCall) (body : Bytes) : Backend → Prop
  | .anthropic _ => Decodes lib request.body → ¬ CutsCharacter lib body
  | .bedrock _ => request.stream = false → Decodes lib request.body → IsEnvelope lib body

/-- The text that the writer gives for the value is read as the value again. -/
def Reads (lib : Serde) (v : Json) : Prop := lib.fromSlice (asBytes (lib.toText v)) = some v

theorem parsedError_isSome_iff (lib : Externals) (body : Bytes) :
    (parsedError lib body).isSome ↔ IsEnvelope lib body := by
  unfold parsedError IsEnvelope
  cases lib.fromSlice body with
  | none => simp
  | some v =>
      cases herror : v.get "error" with
      | none => simp [Json.path, herror]
      | some error =>
          cases hmessage : error.get "message" with
          | none => simp [Json.path, herror, hmessage]
          | some message => cases message <;> simp [Json.path, herror, hmessage, Json.asStr]

theorem isEnvelope_of_reads {lib : Serde} {message : String} {kind : Option String}
    (h : Reads lib (openaiEnvelope message kind)) :
    IsEnvelope lib.toExternals (asBytes (lib.toText (openaiEnvelope message kind))) := by
  refine ⟨_, message, h, ?_⟩
  cases kind <;> simp [openaiEnvelope, Json.path, Json.get]

theorem errorEnvelope_shape {lib : Externals} {body : Bytes} {v : Json}
    (h : errorEnvelope lib body = some v) : ∃ message kind, v = openaiEnvelope message kind := by
  unfold errorEnvelope at h
  split at h
  · exact ⟨_, _, (Option.some.inj h).symm⟩
  · obtain ⟨message, -, rfl⟩ := Option.map_eq_some_iff.mp h
    exact ⟨_, _, rfl⟩

/-- The fixed text for a body that is no text is short. -/
theorem fallbackMessage_eq_none_iff (body : Bytes) :
    fallbackMessage body = none ↔
      ∃ text, fromUtf8 body = some text ∧ 512 < text.utf8ByteSize ∧
        sliceTo 512 text.toList = none := by
  unfold fallbackMessage
  cases fromUtf8 body with
  | none =>
      have hshort : ¬ 512 < "upstream returned a non-JSON error".utf8ByteSize := by decide +kernel
      rw [Option.getD_none, if_neg hshort]
      simp only [reduceCtorEq, false_and, exists_false]
  | some text =>
      dsimp only [Option.getD_some]
      split_ifs with hlong
      · simp only [Option.map_eq_none_iff, Option.some.injEq, exists_eq_left', hlong, true_and]
      · simp only [Option.some.injEq, exists_eq_left', hlong, false_and]

/-- The rewriting panics exactly where it would split a character. -/
theorem errorEnvelope_eq_none_iff (lib : Externals) (body : Bytes) :
    errorEnvelope lib body = none ↔ CutsCharacter lib body := by
  rw [CutsCharacter, ← fallbackMessage_eq_none_iff, ← parsedError_isSome_iff]
  unfold errorEnvelope
  cases parsedError lib body with
  | none => simp
  | some parsed => simp

section
variable {lib : Serde} {a : Ambient} {request : ConnectorCall} {response : HttpResponse}
variable {body : Bytes}

theorem parse_of_decodes (h : Decodes lib.toExternals body) :
    ∃ parts, parseOpenaiMessages lib.toExternals a body = .ok parts := by
  obtain ⟨r, hr⟩ := h
  exact ⟨_, by rw [parseOpenaiMessages, hr]⟩

theorem parse_of_not_decodes (h : ¬ Decodes lib.toExternals body) :
    ∃ err, parseOpenaiMessages lib.toExternals a body = .error err := by
  unfold parseOpenaiMessages
  cases hdecode : (lib.fromSliceAs .openAiRequest body).bind OpenAiRequest.decode with
  | none => exact ⟨_, rfl⟩
  | some r => exact (h ⟨r, hdecode⟩).elim

theorem collectBody_singleChunk (b : Bytes) : collectBody (singleChunk b) = .ok b := by
  simp [singleChunk, collectBody, Except.map]

theorem anthropic_enveloped_iff {c : AnthropicConnector}
    (hreceives : ∀ posted, c.send posted = .ok response) (hstatus : response.status ≠ 200)
    (hbody : collectBody response.chunks = .ok body)
    (hreads : ∀ v, errorEnvelope lib.toExternals body = some v → Reads lib v) :
    Enveloped lib.toExternals (c.chat lib a request) ↔
      (Decodes lib.toExternals request.body → ¬ CutsCharacter lib.toExternals body) := by
  by_cases hdecodes : Decodes lib.toExternals request.body
  · obtain ⟨parts, hparts⟩ := parse_of_decodes (a := a) hdecodes
    have hchat : c.chat lib a request = (toOpenaiError lib body).map fun rewritten =>
        .ok ⟨response.status, some "application/json", singleChunk rewritten, "anthropic",
          request.model, none, 1⟩ := by
      simp [AnthropicConnector.chat, hparts, hreceives, hstatus, hbody]
    rw [hchat, toOpenaiError, ← errorEnvelope_eq_none_iff]
    cases henvelope : errorEnvelope lib.toExternals body with
    | none => simp [Enveloped, hdecodes]
    | some v =>
        obtain ⟨message, kind, rfl⟩ := errorEnvelope_shape henvelope
        refine iff_of_true ?_ (by simp)
        intro _
        exact ⟨_, collectBody_singleChunk _, isEnvelope_of_reads (hreads _ henvelope)⟩
  · obtain ⟨err, herr⟩ := parse_of_not_decodes (a := a) hdecodes
    have hchat : c.chat lib a request = some (.error err) := by
      simp [AnthropicConnector.chat, herr]
    rw [hchat]
    exact iff_of_true trivial fun h => (hdecodes h).elim

theorem bedrock_enveloped_iff {c : BedrockConnector}
    (hreceives : ∀ model posted, c.send model posted = .ok response)
    (hstatus : response.status ≠ 200) (hbody : collectBody response.chunks = .ok body)
    (hreads : Reads lib streamingUnsupported) :
    Enveloped lib.toExternals (c.chat lib a request) ↔
      (request.stream = false → Decodes lib.toExternals request.body →
        IsEnvelope lib.toExternals body) := by
  cases hstream : request.stream with
  | true =>
      refine iff_of_true ?_ (by simp)
      rw [BedrockConnector.chat, hstream]
      intro _
      exact ⟨_, collectBody_singleChunk _, isEnvelope_of_reads hreads⟩
  | false =>
      by_cases hdecodes : Decodes lib.toExternals request.body
      · obtain ⟨parts, hparts⟩ := parse_of_decodes (a := a) hdecodes
        have hchat : c.chat lib a request = some (.ok ⟨response.status, some "application/json",
            singleChunk body, "bedrock", request.model, none, 1⟩) := by
          simp [BedrockConnector.chat, hstream, hparts, hreceives, hstatus, hbody]
        rw [hchat]
        simp [Enveloped, hstatus, collectBody_singleChunk, hdecodes]
      · obtain ⟨err, herr⟩ := parse_of_not_decodes (a := a) hdecodes
        have hchat : c.chat lib a request = some (.error err) := by
          simp [BedrockConnector.chat, hstream, herr]
        rw [hchat]
        exact iff_of_true trivial fun _ h => (hdecodes h).elim

end

/-- What the timeout makes of a call that returned in time. -/
def finished : Except CoreError ChatResponse → RouteOutcome
  | .ok response => .answered response
  | .error err => .failed err

/-- The connectors as routes of a model, with the questions that time out. -/
def providers (lib : Serde) (a : Ambient) (late : ℕ → Bool) : Providers Backend where
  name := Backend.name
  ask i b call := if late i then some .timedOut else (b.chat lib a call).map finished

/-- The question of a dispatch to a route. -/
def asked (request : ConnectorCall) (model : String) : ConnectorCall :=
  ⟨.chat, model, request.stream, request.body⟩

/-- The number of attempts does not show in the body. -/
theorem enveloped_concluded (lib : Externals) (name : String) (index : ℕ)
    (result : Option (Except CoreError ChatResponse)) :
    Enveloped lib (concluded name index (result.map finished)) ↔ Enveloped lib result := by
  rcases result with _ | err | response
  · rfl
  · rfl
  · rfl

section
variable {lib : Serde} {a : Ambient} {routes : List (ResolvedRoute Backend)}
variable {retryOn : UInt16 → Bool} {timeoutMs : UInt64} {virtualModel : String}
variable {request : ConnectorCall}

/-- Timeouts are errors of the connector; otherwise one route's own answer comes out. -/
theorem dispatch_enveloped
    (h : ∀ route ∈ routes, Enveloped lib.toExternals
      (route.connector.chat lib a (asked request route.model))) (late : ℕ → Bool) :
    Enveloped lib.toExternals
      (dispatch (providers lib a late) ⟨routes, retryOn, timeoutMs⟩ virtualModel request).result := by
  rcases dispatch_result (providers lib a late) ⟨routes, retryOn, timeoutMs⟩ virtualModel request with
    ⟨-, hresult⟩ | ⟨i, route, hdecides, hresult⟩
  · rw [hresult]
    trivial
  · rw [hresult]
    simp only [providers]
    split_ifs
    · trivial
    · rw [enveloped_concluded]
      exact h route (List.mem_of_getElem? hdecides.routed)

/-- If all others time out and nothing is retried, a route that answers is the one whose
answer comes out. -/
theorem enveloped_of_dispatch {i : ℕ} {route : ResolvedRoute Backend}
    (hroute : routes[i]? = some route)
    (h : Enveloped lib.toExternals (dispatch (providers lib a fun j => j != i)
      ⟨routes, fun _ => false, timeoutMs⟩ virtualModel request).result) :
    Enveloped lib.toExternals (route.connector.chat lib a (asked request route.model)) := by
  have hi : i < routes.length := (List.getElem?_eq_some_iff.mp hroute).1
  rcases dispatch_result (providers lib a fun j => j != i) ⟨routes, fun _ => false, timeoutMs⟩
      virtualModel request with ⟨hnone, -⟩ | ⟨k, decisive, hdecides, hresult⟩
  · rw [show routes = [] from hnone] at hi
    cases hi
  · by_cases hk : k = i
    · subst hk
      obtain rfl := Option.some.inj (hroute.symm.trans hdecides.routed)
      rw [hresult] at h
      simpa only [providers, bne_self_eq_false, Bool.false_eq_true, if_false,
        enveloped_concluded, asked] using h
    · -- the deciding route is another one, so this one failed
      have hnotFinal : ¬ Final (fun _ => false)
          ((route.connector.chat lib a (asked request route.model)).map finished) := by
        rcases Nat.lt_or_gt_of_ne hk with hlt | hgt
        · have hlast : k = routes.length - 1 := by
            refine hdecides.stops.resolve_left ?_
            simp [providers, hk, Final]
          omega
        · simpa [providers, asked] using hdecides.before i route (Nat.zero_le i) hgt hroute
      rcases hchat : route.connector.chat lib a (asked request route.model) with _ | err | response
      · rw [hchat] at hnotFinal
        exact (hnotFinal trivial).elim
      · trivial
      · rw [hchat] at hnotFinal
        exact (hnotFinal rfl).elim

end

/-- The hypotheses on one route: its upstream answers with an error status and this body,
and what is written for it is read again. -/
structure Errs (lib : Serde) (b : Backend) (body : Bytes) : Prop where
  answered : ∃ response, b.Receives response ∧ response.status ≠ 200 ∧
    collectBody response.chunks = .ok body
  rewritten : ∀ v, errorEnvelope lib.toExternals body = some v → Reads lib v
  unsupported : Reads lib streamingUnsupported

theorem chat_enveloped_iff {lib : Serde} {a : Ambient} {b : Backend} {body : Bytes}
    (h : Errs lib b body) (request : ConnectorCall) :
    Enveloped lib.toExternals (b.chat lib a request) ↔ Fit lib.toExternals request body b := by
  obtain ⟨response, hreceives, hstatus, hbody⟩ := h.answered
  cases b with
  | anthropic c => exact anthropic_enveloped_iff hreceives hstatus hbody h.rewritten
  | bedrock c => exact bedrock_enveloped_iff hreceives hstatus hbody h.unsupported

/-- For all upstream errors, with any bodies: each connector gives the client the envelope
exactly if its body is fit for it, and failover among any routes gives the envelope
whatever is retried and whatever times out exactly if every route's body is. -/
theorem error_shape_iff (lib : Serde) (a : Ambient) (routes : List (ResolvedRoute Backend))
    (bodies : Backend → Bytes) (timeoutMs : UInt64) (virtualModel : String)
    (request : ConnectorCall)
    (herrs : ∀ route ∈ routes, Errs lib route.connector (bodies route.connector)) :
    (∀ route ∈ routes,
      (Enveloped lib.toExternals (route.connector.chat lib a (asked request route.model)) ↔
        Fit lib.toExternals request (bodies route.connector) route.connector)) ∧
    ((∀ retryOn late, Enveloped lib.toExternals (dispatch (providers lib a late)
        ⟨routes, retryOn, timeoutMs⟩ virtualModel request).result) ↔
      ∀ route ∈ routes,
        Fit lib.toExternals request (bodies route.connector) route.connector) := by
  have hchat : ∀ route ∈ routes,
      (Enveloped lib.toExternals (route.connector.chat lib a (asked request route.model)) ↔
        Fit lib.toExternals request (bodies route.connector) route.connector) := by
    intro route hroute
    rw [chat_enveloped_iff (herrs route hroute)]
    cases route.connector <;> rfl
  refine ⟨hchat, ?_, ?_⟩
  · intro hall route hroute
    obtain ⟨i, hi⟩ := List.mem_iff_getElem?.mp hroute
    exact (hchat route hroute).mp (enveloped_of_dispatch hi (hall _ _))
  · intro hfit retryOn late
    exact dispatch_enveloped (fun route hroute => (hchat route hroute).mpr (hfit route hroute)) late

def emptyChat : String := "\x7b\"messages\":[]\x7d"

def overloaded : String :=
  "\x7b\"type\":\"error\",\"error\":\x7b\"type\":\"overloaded_error\",\"message\":\"Overloaded\"\x7d\x7d"

/-- The error body of an AWS service. -/
def throttled : String := "\x7b\"message\":\"Too many requests\"\x7d"

/-- The three texts, and what the connectors write. -/
def errorTable : List (String × Json) :=
  [(emptyChat, .object [("messages", .array [])]),
    (overloaded, .object [("type", .string "error"), ("error", .object
      [("type", .string "overloaded_error"), ("message", .string "Overloaded")])]),
    (throttled, .object [("message", .string "Too many requests")])] ++
  [openaiEnvelope "Overloaded" (some "overloaded_error"), openaiEnvelope throttled none,
    streamingUnsupported].map fun v => (v.compact, v)

def errorLib : Serde where
  toExternals := TranslationAgreement.tableReader errorTable
  toText := Json.compact

theorem errorTable_reads {text : String} {v : Json} (h : (text, v) ∈ errorTable) :
    errorLib.fromSlice (asBytes text) = some v :=
  TranslationAgreement.tableReader_reads (by decide +kernel) h

theorem errorTable_writes {v : Json} (h : (v.compact, v) ∈ errorTable) : Reads errorLib v :=
  errorTable_reads h

def overloadedAnthropic : Backend := .anthropic ⟨fun _ => .ok ⟨529, [.ok (asBytes overloaded)]⟩⟩

def throttledBedrock : Backend := .bedrock ⟨fun _ _ => .ok ⟨429, [.ok (asBytes throttled)]⟩⟩

def sampleRoutes : List (ResolvedRoute Backend) :=
  [⟨overloadedAnthropic, "claude"⟩, ⟨throttledBedrock, "anthropic.claude"⟩]

def sampleBody : Backend → Bytes
  | .anthropic _ => asBytes overloaded
  | .bedrock _ => asBytes throttled

def emptyRequest : ConnectorCall := ⟨.chat, "smart", false, asBytes emptyChat⟩

def fixedAmbient : Ambient := ⟨fun _ => "", [7], 0⟩

theorem overloaded_errs : Errs errorLib overloadedAnthropic (asBytes overloaded) where
  answered := ⟨_, fun _ => rfl, by decide, by simp [collectBody, Except.map]⟩
  rewritten := by
    have hparsed : parsedError errorLib.toExternals (asBytes overloaded) =
        some ("Overloaded", some "overloaded_error") := by decide +kernel
    intro v hv
    rw [errorEnvelope, hparsed] at hv
    rw [← Option.some.inj hv]
    exact errorTable_writes (by simp [errorTable])
  unsupported := errorTable_writes (by simp [errorTable])

theorem throttled_parsed : parsedError errorLib.toExternals (asBytes throttled) = none := by
  decide +kernel

theorem throttled_errs : Errs errorLib throttledBedrock (asBytes throttled) where
  answered := ⟨_, fun _ _ => rfl, by decide, by simp [collectBody, Except.map]⟩
  rewritten := by
    have hmessage : fallbackMessage (asBytes throttled) = some throttled := by decide +kernel
    intro v hv
    rw [errorEnvelope, throttled_parsed, hmessage] at hv
    rw [← Option.some.inj hv]
    exact errorTable_writes (by simp [errorTable])
  unsupported := errorTable_writes (by simp [errorTable])

/-- The AWS body has no envelope, and the request is one that is forwarded. -/
theorem throttled_unfit : ¬ Fit errorLib.toExternals emptyRequest (asBytes throttled)
    throttledBedrock := by
  intro hfit
  have henvelope := hfit rfl ⟨⟨[], none, none⟩, by decide +kernel⟩
  rw [← parsedError_isSome_iff, throttled_parsed] at henvelope
  cases henvelope

/-- The Anthropic error comes out enveloped, and failover to Bedrock spoils it. -/
theorem error_shape_iff_failover :
    Enveloped errorLib.toExternals
        (overloadedAnthropic.chat errorLib fixedAmbient (asked emptyRequest "claude")) ∧
      ¬ ∀ retryOn late, Enveloped errorLib.toExternals
        (dispatch (providers errorLib fixedAmbient late) ⟨sampleRoutes, retryOn, 1000⟩ "smart"
          emptyRequest).result := by
  have herrs : ∀ route ∈ sampleRoutes,
      Errs errorLib route.connector (sampleBody route.connector) := by
    intro route hroute
    simp only [sampleRoutes, List.mem_cons, List.not_mem_nil, or_false] at hroute
    rcases hroute with rfl | rfl
    · exact overloaded_errs
    · exact throttled_errs
  have hshape := error_shape_iff errorLib fixedAmbient sampleRoutes sampleBody 1000 "smart"
    emptyRequest herrs
  refine ⟨(hshape.1 _ List.mem_cons_self).mpr ?_, ?_⟩
  · rintro - ⟨hnot, -⟩
    exact hnot ((parsedError_isSome_iff ..).mp (by decide +kernel))
  · intro hall
    exact throttled_unfit (hshape.2.mp hall _ (List.mem_cons_of_mem _ List.mem_cons_self))

/-- Bedrock hands the AWS body on with status 429, alone and after the Anthropic route
timed out: the client finds no `error.message` in it. -/
theorem throttling_without_envelope :
    throttledBedrock.chat errorLib fixedAmbient (asked emptyRequest "anthropic.claude") =
        some (.ok ⟨429, some "application/json", singleChunk (asBytes throttled), "bedrock",
          "anthropic.claude", none, 1⟩) ∧
      ¬ IsEnvelope errorLib.toExternals (asBytes throttled) ∧
      ¬ Enveloped errorLib.toExternals
        (dispatch (providers errorLib fixedAmbient fun j => j != 1)
          ⟨sampleRoutes, fun _ => false, 1000⟩ "smart" emptyRequest).result := by
  obtain ⟨parts, hparts⟩ : ∃ parts, parseOpenaiMessages errorLib.toExternals fixedAmbient
      (asBytes emptyChat) = .ok parts :=
    parse_of_decodes ⟨⟨[], none, none⟩, by decide +kernel⟩
  refine ⟨?_, ?_, ?_⟩
  · simp [Backend.chat, throttledBedrock, BedrockConnector.chat, hparts, asked, emptyRequest,
      collectBody, Except.map]
  · rw [← parsedError_isSome_iff, throttled_parsed]
    simp
  · intro h
    have hchat := enveloped_of_dispatch (i := 1) rfl h
    have hfit := (chat_enveloped_iff throttled_errs (asked emptyRequest "anthropic.claude")).mp hchat
    exact throttled_unfit hfit

end VaultplaneGateway.ErrorEnvelopes
