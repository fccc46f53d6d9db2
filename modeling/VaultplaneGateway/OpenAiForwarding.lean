import VaultplaneGateway.ProviderConnectors

/-!
# The OpenAI connector

The body of the client is forwarded with its `model` rewritten to that of the route. The
reply is handed on as it is; a buffered one is searched for its usage. As for the other
connectors, addresses and headers of the request are inside the HTTP client.
-/
namespace VaultplaneGateway.OpenAiForwarding
open WireFormats ProxyPipeline ResponseCaching StreamUsage ProviderConnectors

/-- `Map::insert`: the member of the name gets the value, or a new member is added. -/
def insertMember (name : String) (v : Json) (members : List (String × Json)) :
    List (String × Json) :=
  if members.any fun m => m.1 == name then
    members.map fun m => if m.1 = name then (m.1, v) else m
  else members ++ [(name, v)]

/-- The body as it is, unless it is a JSON object. Writing a value that was read does not
fail. -/
def rewriteModel (lib : Serde) (body : Bytes) (model : String) : Bytes :=
  match lib.fromSlice body with
  | some (.object members) =>
      asBytes (lib.toText (.object (insertMember "model" (.string model) members)))
  | _ => body

/-- The usage object of a response body. A missing completion count, or one that is not
a count, is read as zero; each count is truncated to 32 bits. -/
def parseOpenaiUsage (lib : Externals) (body : Bytes) : Option Usage := do
  let value ← lib.fromSlice body
  let usage ← value.get "usage"
  let promptTokens ← (← usage.get "prompt_tokens").asU64
  let completionTokens :=
    (((usage.get "completion_tokens").bind Json.asU64).map UInt64.toUInt32).getD 0
  pure ⟨promptTokens.toUInt32, completionTokens⟩

/-- An answer of the upstream, with its content type as it stands in the header. -/
structure OpenAiReply extends HttpResponse where
  contentType : Option Bytes

/-- The answer to a body that is posted to an endpoint, or the text of the error. -/
structure OpenAiConnector where
  post : Endpoint → Bytes → Except String OpenAiReply

namespace OpenAiConnector

def send (lib : Serde) (c : OpenAiConnector) (request : ConnectorCall) :
    Except CoreError OpenAiReply :=
  (c.post request.endpoint (rewriteModel lib request.body request.model)).mapError fun e =>
    .provider ("request to OpenAI failed: " ++ e)

/-- A reply that is read to its end before it is handed on. -/
def buffered (lib : Serde) (request : ConnectorCall) (response : OpenAiReply) :
    Except CoreError ChatResponse := do
  let body ← (collectBody response.chunks).mapError fun e =>
    .provider ("reading OpenAI response failed: " ++ e)
  pure ⟨response.status, response.contentType.bind toStr, singleChunk body, "openai",
    request.model, parseOpenaiUsage lib.toExternals body, 1⟩

def chat (lib : Serde) (c : OpenAiConnector) (request : ConnectorCall) :
    Except CoreError ChatResponse := do
  let response ← c.send lib request
  if request.stream then
    pure ⟨response.status, response.contentType.bind toStr, response.chunks, "openai",
      request.model, none, 1⟩
  else buffered lib request response

def embeddings (lib : Serde) (c : OpenAiConnector) (request : ConnectorCall) :
    Except CoreError ChatResponse := do
  let response ← c.send lib request
  buffered lib request response

end OpenAiConnector

theorem map_fst_insertMember {name : String} {members : List (String × Json)}
    (h : name ∈ members.map Prod.fst) (v : Json) :
    (insertMember name v members).map Prod.fst = members.map Prod.fst := by
  have hany : (members.any fun m => m.1 == name) = true := by
    obtain ⟨m, hm, rfl⟩ := List.mem_map.mp h
    exact List.any_eq_true.mpr ⟨m, hm, by simp⟩
  rw [insertMember, if_pos hany, List.map_map]
  refine List.map_congr_left fun m _ => ?_
  by_cases hm : m.1 = name
  · simp [hm]
  · simp [hm]

theorem mem_insertMember_self (name : String) (v : Json) (members : List (String × Json)) :
    (name, v) ∈ insertMember name v members := by
  unfold insertMember
  split_ifs with hany
  · obtain ⟨m, hm, hname⟩ := List.any_eq_true.mp hany
    have heq : m.1 = name := by simpa using hname
    exact List.mem_map.mpr ⟨m, hm, by rw [if_pos heq, heq]⟩
  · simp

theorem mem_insertMember_of_ne {name : String} {v : Json} {members : List (String × Json)}
    {e : String × Json} (hne : e.1 ≠ name) : e ∈ insertMember name v members ↔ e ∈ members := by
  unfold insertMember
  split_ifs with hany
  · rw [List.mem_map]
    constructor
    · rintro ⟨m, hm, rfl⟩
      split_ifs at hne ⊢ with hname
      · exact (hne hname).elim
      · exact hm
    · exact fun he => ⟨e, he, if_neg hne⟩
  · rw [List.mem_append, List.mem_singleton, or_iff_left]
    rintro rfl
    exact hne rfl

theorem get_replaced (name n : String) (v : Json) (members : List (String × Json)) :
    (Json.object (members.map fun m => if m.1 = name then (m.1, v) else m)).get n =
      ((Json.object members).get n).map fun old => if n = name then v else old := by
  have hpred : ((fun m : String × Json => m.1 == n) ∘
      fun m => if m.1 = name then (m.1, v) else m) = fun m => m.1 == n := by
    funext m
    by_cases hm : m.1 = name
    · simp [hm]
    · simp [hm]
  simp only [Json.get]
  rw [← List.map_reverse, List.find?_map, hpred, Option.map_map, Option.map_map]
  cases hfind : members.reverse.find? fun m => m.1 == n with
  | none => rfl
  | some found =>
      have hfst : found.1 = n := by
        simpa using List.find?_some hfind
      by_cases hn : n = name
      · simp [hfst, hn]
      · simp [hfst, hn]

/-- The member of the name has the value; every other member is as before. -/
theorem get_insertMember (name n : String) (v : Json) (members : List (String × Json)) :
    (Json.object (insertMember name v members)).get n =
      if n = name then some v else (Json.object members).get n := by
  unfold insertMember
  by_cases hany : (members.any fun m => m.1 == name) = true
  · rw [if_pos hany, get_replaced]
    by_cases hn : n = name
    · subst hn
      obtain ⟨m, hm, hname⟩ := List.any_eq_true.mp hany
      have hsome : (members.reverse.find? fun m => m.1 == n).isSome = true :=
        List.find?_isSome.mpr ⟨m, List.mem_reverse.mpr hm, hname⟩
      obtain ⟨found, hfound⟩ := Option.isSome_iff_exists.mp hsome
      simp [Json.get, hfound]
    · simp [hn]
  · rw [if_neg hany]
    simp only [Json.get, List.reverse_append, List.reverse_singleton, List.singleton_append,
      List.find?_cons]
    by_cases hn : n = name
    · simp [hn]
    · have hne : (name == n) = false := beq_eq_false_iff_ne.mpr (Ne.symm hn)
      simp [hne, hn]

end VaultplaneGateway.OpenAiForwarding
