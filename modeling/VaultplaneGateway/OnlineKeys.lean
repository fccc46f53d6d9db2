import VaultplaneGateway.KeyLifecycle

/-!
# Keys made online

With an endpoint the command line tool asks the running gateway for a key. Tool and gateway
declare the messages each for itself, so they have to agree on every name, on what is left
out and on what a missing field stands for. What the tool sends is decoded into the
arguments it was given, and what the gateway answers is decoded into the record it stored.

A spend limit that is no number has no JSON text. It is sent as null and refused, so that
nothing is stored. The id that is printed consists of letters that a URL keeps, so a
revocation with it reaches the key.
-/
namespace VaultplaneGateway.OnlineKeys
open WireFormats KeyRecords OfflineKeys DerivedDecoding AdminApi KeyLifecycle KeyMinting

variable {κ V C K W S : Type}

structure AdminClient where
  base : String
  token : Option String

/-- `str::trim_end_matches`. -/
def trimEndMatches (s : String) (c : Char) : String :=
  String.ofList (s.toList.reverse.dropWhile (· == c)).reverse

namespace AdminClient

def new (endpoint : String) (token : Option String) : AdminClient :=
  ⟨trimEndMatches endpoint '/', token⟩

def url (client : AdminClient) (path : String) : String := client.base ++ path

def auth (client : AdminClient) : HeaderMap :=
  match client.token with
  | some t => [("authorization", asBytes ("Bearer " ++ t))]
  | none => []

end AdminClient

/-- What the tool's HTTP library and its standard library do: the path of a URL as it is
sent, the name of a status, and the decimal text of a number. -/
structure Tool where
  path : String → String
  statusText : UInt16 → String
  display : ℚ → String

/-- A header value that cannot be built fails the call before anything is sent. -/
def send (tool : Tool) (client : AdminClient) (method : Method) (path : String)
    (body : Option Json) : Option AdminRequest :=
  if client.token.all fun t => ProxyPipeline.validHeaderValue ("Bearer " ++ t) then
    some ⟨method, tool.path (client.url path),
      client.auth ++ (body.map fun _ => ("content-type", asBytes "application/json")).toList,
      (body.map fun v => asBytes v.compact).getD []⟩
  else none

def amountJson (web : Web) : Float64 → Json
  | .finite q => .number (web.float q)
  | _ => .null

/-- `CreateKeyRequest` of the tool, as it is written. -/
def requestJson (web : Web) (args : CreateArgs) : Json :=
  .object ([("team", .string args.team), ("app", .string args.app), ("env", .string args.env),
      ("models", .array (args.models.map .string))] ++
    AdminApi.optional "rate_limit_rps" (args.rps.map count) ++
    AdminApi.optional "spend_limit" (args.spendLimit.map fun limit =>
      .object [("amount_usd", amountJson web limit.amountUsd), ("period", periodJson limit.period)]) ++
    AdminApi.optional "expires_at" (args.expiresAt.map .string))

/-- `KeySummary` of the tool: all but the id may be missing. -/
def keySummary (rate : Number → ℚ) (v : Json) : Option KeySummary := do
  let f ← fieldsOf 8 v
  let id ← f.required 0 "id" Json.asStr
  let team ← f.defaulted 1 "team" "" Json.asStr
  let app ← f.defaulted 2 "app" "" Json.asStr
  let env ← f.defaulted 3 "env" "" Json.asStr
  let models ← f.defaulted 4 "models" [] (vec Json.asStr)
  let rateLimitRps ← f.defaulted 5 "rate_limit_rps" none (nullable u32)
  let limit ← f.defaulted 6 "spend_limit" none (nullable (spendLimit rate))
  let expiresAt ← f.defaulted 7 "expires_at" none (nullable Json.asStr)
  pure ⟨id, team, app, env, models, rateLimitRps, limit, expiresAt⟩

def createKeyResponse (rate : Number → ℚ) (v : Json) : Option (String × KeySummary) := do
  let f ← fieldsOf 2 v
  let token ← f.required 0 "token" Json.asStr
  let key ← f.required 1 "key" (keySummary rate)
  pure (token, key)

def listKeysResponse (rate : Number → ℚ) (v : Json) : Option (List KeySummary) := do
  let f ← fieldsOf 1 v
  f.required 0 "data" (vec (keySummary rate))

def isSuccess (status : UInt16) : Bool := 200 ≤ status && status < 300

def Content.bodyText : Content → String
  | .empty => ""
  | .text body => body
  | .json v => v.compact

def apiError (tool : Tool) (r : Reply) : String :=
  "admin API returned " ++ tool.statusText r.status ++ ": " ++ Content.bodyText r.content

/-- A call that expects a JSON value of a known shape. -/
def decodeReply {τ : Type} (tool : Tool) (call noun : String) (decode : Json → Option τ) :
    Option Reply → Except String τ
  | none => .error ("failed to call " ++ call)
  | some r =>
      if isSuccess r.status then
        match r.content with
        | .json v =>
            match decode v with
            | some x => .ok x
            | none => .error ("failed to decode " ++ noun)
        | _ => .error ("failed to decode " ++ noun)
      else .error (apiError tool r)

def decodeRevoke (tool : Tool) (id : String) : Option Reply → Except String Unit
  | none => .error "failed to call DELETE /admin/keys/:id"
  | some r =>
      if r.status = 204 then .ok ()
      else if r.status = 404 then .error ("no key with id " ++ id)
      else .error (apiError tool r)

def formatModels (models : List String) : String :=
  if models.isEmpty then "(any)" else ", ".intercalate models

/-- What `key create` prints. -/
def issuedLines (tool : Tool) (token : String) (key : KeySummary) : List String :=
  ["Issued key " ++ key.id, "", "Token: " ++ token, "Save the token now; it cannot be recovered.",
    "", "Scope:", "  team:   " ++ key.team, "  app:    " ++ key.app, "  env:    " ++ key.env,
    "  models: " ++ formatModels key.models] ++
  (key.rateLimitRps.map fun rps => "  rate_limit_rps: " ++ displayCount rps).toList ++
  (key.spendLimit.map fun limit =>
    "  spend_limit: " ++ tool.display limit.amountUsd ++ "/" ++ periodLabel limit.period).toList ++
  (key.expiresAt.map fun expires => "  expires_at: " ++ expires).toList

/-- A request of the tool is served by the gateway. -/
def call (web : Web) (app : AppState) (s : Shared κ S) (w : World κ V C K W S) :
    Option AdminRequest → Shared κ S × Option Reply
  | none => (s, none)
  | some r =>
      let h := serve web app s w r
      (h.shared, h.reply)

/-- `key create` against a gateway: what it leaves of the gateway and what it prints. -/
def keyCreateOnline (web : Web) (tool : Tool) (app : AppState) (s : Shared κ S)
    (w : World κ V C K W S) (client : AdminClient) (args : CreateArgs) :
    Shared κ S × Except String (List String) :=
  let r := call web app s w (send tool client .post "/admin/keys" (some (requestJson web args)))
  (r.1, (decodeReply tool "POST /admin/keys" "key create response" (createKeyResponse web.rate)
    r.2).map fun response => issuedLines tool response.1 response.2)

/-- `key revoke`. -/
def keyRevoke (web : Web) (tool : Tool) (app : AppState) (s : Shared κ S)
    (w : World κ V C K W S) (client : AdminClient) (id : String) :
    Shared κ S × Except String (List String) :=
  let r := call web app s w (send tool client .delete ("/admin/keys/" ++ id) none)
  (r.1, (decodeRevoke tool id r.2).map fun _ => ["Revoked " ++ id])

/-- The keys that `key list` decodes. -/
def listKeys (web : Web) (tool : Tool) (app : AppState) (s : Shared κ S)
    (w : World κ V C K W S) (client : AdminClient) : Except String (List KeySummary) :=
  decodeReply tool "GET /admin/keys" "key list response" (listKeysResponse web.rate)
    (call web app s w (send tool client .get "/admin/keys" none)).2

/-- The amount is written so that it is read back. -/
def ReadsBack (web : Web) (limit : SpendLimit) : Prop :=
  web.rate (web.float limit.amountUsd) = limit.amountUsd

theorem vec_strings (l : List String) : vec Json.asStr (.array (l.map .string)) = some l := by
  rw [vec, List.mapM_map]
  exact YamlEntries.mapM_self_iff.mpr fun _ _ => rfl

theorem period_periodJson (p : Period) : period (periodJson p) = some p := by
  cases p <;> rfl

/-- The limit as it arrives: a limit that is no number does not. -/
def sentLimit : Option Spend → Option (Option SpendLimit)
  | none => some none
  | some ⟨.finite q, p⟩ => some (some ⟨q, p⟩)
  | some _ => none

theorem spendLimit_sent {web : Web} {amount : Float64} {p : Period}
    (hnum : ∀ q, amount = .finite q → ReadsBack web ⟨q, p⟩) :
    spendLimit web.rate (.object [("amount_usd", amountJson web amount), ("period", periodJson p)]) =
      match amount with
      | .finite q => some ⟨q, p⟩
      | _ => none := by
  have hfields : ∀ v : Json, ProxyPipeline.structField [("amount_usd", v), ("period", periodJson p)]
      "amount_usd" = some (some v) ∧ ProxyPipeline.structField [("amount_usd", v),
        ("period", periodJson p)] "period" = some (some (periodJson p)) := fun v => ⟨rfl, rfl⟩
  simp only [spendLimit, fieldsOf, Fields.required, Fields.value, (hfields _).1, (hfields _).2,
    Option.bind_eq_bind, Option.bind_some, period_periodJson]
  cases amount with
  | finite q =>
      have hq : web.rate (web.float q) = q := hnum q rfl
      simp [amountJson, ConfigDecoding.float, hq]
  | infinite negative => rfl
  | nan => rfl

/-- An optional member is read back if its value is. -/
theorem defaulted_optional {σ τ : Type} {values : List (String × Json)} {name : String}
    {x : Option σ} {write : σ → Json} {read : Json → Option (Option τ)} {y : Option (Option τ)}
    (hfield : ProxyPipeline.structField values name = some (x.map write))
    (hnone : x = none → y = some none) (hsome : ∀ a, x = some a → read (write a) = y) (index : ℕ) :
    (Fields.named values).defaulted index name none read = y := by
  cases x with
  | none => rw [defaulted_absent hfield, hnone rfl]
  | some a => rw [defaulted_given hfield, hsome a rfl]

theorem nullable_count (n : UInt32) : nullable u32 (count n) = some (some n) := by
  have hread : nullable u32 (count n) = (u32 (count n)).map some := rfl
  rw [hread, u32_count, Option.map_some]

/-- The members that both messages have in common; only a key has an id. -/
def scopeMembers (id : Option String) (team app env : String) (models : List String)
    (rps : Option UInt32) (limit : Option Json) (expiresAt : Option String) : List (String × Json) :=
  AdminApi.optional "id" (id.map .string) ++
    [("team", .string team), ("app", .string app), ("env", .string env),
      ("models", .array (models.map .string))] ++
    AdminApi.optional "rate_limit_rps" (rps.map count) ++ AdminApi.optional "spend_limit" limit ++
    AdminApi.optional "expires_at" (expiresAt.map .string)

/-- What a decoder finds under each name. -/
structure Scope (values : List (String × Json)) (id : Option String) (team app env : String)
    (models : List String) (rps : Option UInt32) (limit : Option Json)
    (expiresAt : Option String) : Prop where
  id : ProxyPipeline.structField values "id" = some (id.map .string)
  team : ProxyPipeline.structField values "team" = some (some (.string team))
  app : ProxyPipeline.structField values "app" = some (some (.string app))
  env : ProxyPipeline.structField values "env" = some (some (.string env))
  models : ProxyPipeline.structField values "models" = some (some (.array (models.map .string)))
  rps : ProxyPipeline.structField values "rate_limit_rps" = some (rps.map count)
  limit : ProxyPipeline.structField values "spend_limit" = some limit
  expires : ProxyPipeline.structField values "expires_at" = some (expiresAt.map .string)

theorem scope_scopeMembers (id : Option String) (team app env : String) (models : List String)
    (rps : Option UInt32) (limit : Option Json) (expiresAt : Option String) :
    Scope (scopeMembers id team app env models rps limit expiresAt) id team app env models rps limit
      expiresAt := by
  cases id <;> cases rps <;> cases limit <;> cases expiresAt <;>
    exact ⟨rfl, rfl, rfl, rfl, rfl, rfl, rfl, rfl⟩

section
variable {values : List (String × Json)} {id : Option String} {team app env : String}
  {models : List String} {rps : Option UInt32} {limit : Option Json} {expiresAt : Option String}

theorem Scope.readRps (h : Scope values id team app env models rps limit expiresAt) (index : ℕ) :
    (Fields.named values).defaulted index "rate_limit_rps" none (nullable u32) = some rps := by
  apply defaulted_optional h.rps
  · rintro rfl
    rfl
  · rintro n rfl
    exact nullable_count n

theorem Scope.readExpires (h : Scope values id team app env models rps limit expiresAt)
    (index : ℕ) :
    (Fields.named values).defaulted index "expires_at" none (nullable Json.asStr) =
      some expiresAt := by
  apply defaulted_optional h.expires
  · rintro rfl
    rfl
  · rintro text rfl
    rfl

theorem Scope.readLimit {web : Web} {given : Option Spend}
    (hnum : ∀ limit, sentLimit given = some (some limit) → ReadsBack web limit)
    (h : Scope values id team app env models rps (given.map fun limit => .object
      [("amount_usd", amountJson web limit.amountUsd), ("period", periodJson limit.period)])
      expiresAt) (index : ℕ) :
    (Fields.named values).defaulted index "spend_limit" none (nullable (spendLimit web.rate)) =
      sentLimit given := by
  apply defaulted_optional h.limit
  · rintro rfl
    rfl
  · rintro ⟨amount, p⟩ rfl
    have hread : ∀ v : List (String × Json), nullable (spendLimit web.rate) (.object v) =
        (spendLimit web.rate (.object v)).map some := fun _ => rfl
    rw [hread, spendLimit_sent]
    · cases amount <;> rfl
    · rintro q rfl
      exact hnum ⟨q, p⟩ rfl

end

theorem createKeyRequest_requestJson {web : Web} {args : CreateArgs}
    (hnum : ∀ limit, sentLimit args.spendLimit = some (some limit) → ReadsBack web limit) :
    createKeyRequest web (requestJson web args) = (sentLimit args.spendLimit).map fun limit =>
      ⟨args.team, args.app, args.env, args.models, args.rps, limit, args.expiresAt⟩ := by
  have hscope := scope_scopeMembers none args.team args.app args.env args.models args.rps
    (args.spendLimit.map fun limit => .object
      [("amount_usd", amountJson web limit.amountUsd), ("period", periodJson limit.period)])
    args.expiresAt
  have hrequest : requestJson web args = .object (scopeMembers none args.team args.app args.env
    args.models args.rps (args.spendLimit.map fun limit => .object
      [("amount_usd", amountJson web limit.amountUsd), ("period", periodJson limit.period)])
    args.expiresAt) := rfl
  rw [hrequest]
  simp only [createKeyRequest, fieldsOf, Option.bind_eq_bind, Option.bind_some,
    defaulted_given hscope.team, defaulted_given hscope.app, defaulted_given hscope.env,
    defaulted_given hscope.models, Json.asStr, vec_strings, hscope.readRps,
    Scope.readLimit hnum hscope, hscope.readExpires]
  cases sentLimit args.spendLimit <;> rfl

/-- A stored limit is a number, so it is a limit that can be sent. -/
def spendOf (limit : SpendLimit) : Spend := ⟨.finite limit.amountUsd, limit.period⟩

theorem keySummary_json {web : Web} {k : KeySummary}
    (hnum : ∀ limit, k.spendLimit = some limit → ReadsBack web limit) :
    keySummary web.rate (k.json web) = some k := by
  have hscope := scope_scopeMembers (some k.id) k.team k.app k.env k.models k.rateLimitRps
    ((k.spendLimit.map spendOf).map fun limit => .object
      [("amount_usd", amountJson web limit.amountUsd), ("period", periodJson limit.period)])
    k.expiresAt
  have hlimit : sentLimit (k.spendLimit.map spendOf) = some k.spendLimit := by
    cases k.spendLimit <;> rfl
  have hsent : ∀ limit, sentLimit (k.spendLimit.map spendOf) = some (some limit) →
      ReadsBack web limit := by
    intro limit h
    exact hnum limit (Option.some.inj (hlimit.symm.trans h))
  have hkey : k.json web = .object (scopeMembers (some k.id) k.team k.app k.env k.models
      k.rateLimitRps ((k.spendLimit.map spendOf).map fun limit => .object
        [("amount_usd", amountJson web limit.amountUsd), ("period", periodJson limit.period)])
      k.expiresAt) := by
    rw [Option.map_map]
    rfl
  rw [hkey]
  simp only [keySummary, fieldsOf, Fields.required, Fields.value, Option.bind_eq_bind,
    Option.bind_some, hscope.id, Option.map_some, defaulted_given hscope.team,
    defaulted_given hscope.app, defaulted_given hscope.env, defaulted_given hscope.models,
    Json.asStr, vec_strings, hscope.readRps, Scope.readLimit hsent hscope, hlimit,
    hscope.readExpires]
  rfl

theorem createKeyResponse_json {web : Web} (token : String) {key : VirtualKey}
    (hnum : ∀ limit, key.spendLimit = some limit → ReadsBack web limit) :
    createKeyResponse web.rate (createKeyJson web token key) =
      some (token, KeySummary.ofKey key) := by
  have htoken : ∀ v : Json, ProxyPipeline.structField [("token", .string token), ("key", v)] "token" =
      some (some (.string token)) ∧ ProxyPipeline.structField [("token", .string token), ("key", v)]
        "key" = some (some v) := fun v => ⟨rfl, rfl⟩
  simp only [createKeyResponse, createKeyJson, fieldsOf, Fields.required, Fields.value,
    Option.bind_eq_bind, Option.bind_some, (htoken _).1, (htoken _).2, Json.asStr,
    keySummary_json (k := KeySummary.ofKey key) hnum]
  rfl

theorem listKeysResponse_json {web : Web} {keys : List VirtualKey}
    (hnum : ∀ k ∈ keys, ∀ limit, k.spendLimit = some limit → ReadsBack web limit) :
    listKeysResponse web.rate (listKeysJson web keys) = some (keys.map KeySummary.ofKey) := by
  have hdata : ∀ v : Json, ProxyPipeline.structField [("data", v)] "data" = some (some v) :=
    fun v => rfl
  simp only [listKeysResponse, listKeysJson, fieldsOf, Fields.required, Fields.value,
    Option.bind_eq_bind, Option.bind_some, hdata, vec, List.mapM_map]
  apply YamlEntries.mapM_eq_some_iff.mpr
  rw [List.forall₂_map_right_iff, List.forall₂_same]
  intro k hk
  exact keySummary_json (k := KeySummary.ofKey k) (hnum k hk)

/-- The letters that a URL keeps as they are. -/
def urlSafe (s : String) : Prop := ∀ c ∈ s.toList, PathEncoding.unreservedChar c = true

theorem unreserved_base64Digit (n : ℕ) : PathEncoding.unreservedChar (base64Digit n) = true := by
  unfold base64Digit
  by_cases h : n < 64
  · have hall : (List.range 64).all (fun n => PathEncoding.unreservedChar (base64Digit n)) = true := by
      decide +kernel
    exact List.all_eq_true.mp hall n (List.mem_range.mpr h)
  · rw [List.getD_eq_getElem?_getD, List.getElem?_eq_none]
    · decide
    · exact Nat.le_of_not_lt h

theorem unreserved_base64Url (buf : Bytes) :
    ∀ c ∈ base64Url buf, PathEncoding.unreservedChar c = true := by
  have hdigits : ∀ c ∈ base64Url buf, ∃ n, c = base64Digit n := by
    fun_induction base64Url buf with
    | case1 a b c rest n ih =>
        intro d hd
        simp only [List.mem_cons] at hd
        rcases hd with rfl | rfl | rfl | rfl | hd
        · exact ⟨_, rfl⟩
        · exact ⟨_, rfl⟩
        · exact ⟨_, rfl⟩
        · exact ⟨_, rfl⟩
        · exact ih d hd
    | case2 a b n =>
        intro d hd
        simp only [List.mem_cons, List.not_mem_nil, or_false] at hd
        rcases hd with rfl | rfl | rfl <;> exact ⟨_, rfl⟩
    | case3 a =>
        intro d hd
        simp only [List.mem_cons, List.not_mem_nil, or_false] at hd
        rcases hd with rfl | rfl <;> exact ⟨_, rfl⟩
    | case4 => exact fun d hd => absurd hd List.not_mem_nil
  intro c hc
  obtain ⟨n, rfl⟩ := hdigits c hc
  exact unreserved_base64Digit n

theorem urlSafe_generated (lib : Externals) (buf : Bytes) : urlSafe (generateKey lib buf).id := by
  intro c hc
  have hid : (generateKey lib buf).id = "vp_" ++ String.ofList ((base64Url buf).take 12) := rfl
  rw [hid, String.toList_append, List.mem_append] at hc
  rcases hc with hc | hc
  · have hall : "vp_".toList.all PathEncoding.unreservedChar = true := by decide
    exact List.all_eq_true.mp hall c hc
  · rw [String.toList_ofList] at hc
    exact unreserved_base64Url buf c (List.mem_of_mem_take hc)

theorem generated_ne_empty (lib : Externals) (buf : Bytes) : (generateKey lib buf).id ≠ "" := by
  intro h
  have hid : (generateKey lib buf).id = "vp_" ++ String.ofList ((base64Url buf).take 12) := rfl
  have hlist := congrArg String.toList h
  rw [hid, String.toList_append] at hlist
  simp at hlist

theorem route_key {id : String} (hsafe : urlSafe id) (hne : id ≠ "") :
    route ("/admin/keys/" ++ id) = some (.key id) := by
  have hpath : ("/admin/keys/" ++ id).toList =
      '/' :: (['/'].intercalate ["admin".toList, "keys".toList, id.toList]) := by
    simp [List.intercalate]
  have hslash : '/' ∉ id.toList := fun h => absurd (hsafe '/' h) (by decide)
  have hsegments : PathEncoding.segments ("/admin/keys/" ++ id).toList =
      some ["admin", "keys", id] := by
    rw [hpath, PathEncoding.segments, List.splitOn_intercalate]
    · rw [List.map_cons, List.map_cons, List.map_singleton, String.ofList_toList,
        String.ofList_toList, String.ofList_toList]
    · intro l hl
      simp only [List.mem_cons, List.not_mem_nil, or_false] at hl
      rcases hl with rfl | rfl | rfl
      · decide
      · decide
      · exact hslash
    · exact List.cons_ne_nil _ _
  rw [route, hsegments]
  exact if_neg hne

/-- A text without a percent sign stands for itself. -/
theorem percentDecode_of_no_percent {b : Bytes} (h : 37 ∉ b) : PathEncoding.percentDecode b = b := by
  induction b with
  | nil => rfl
  | cons x b ih =>
      rw [List.mem_cons, not_or] at h
      rw [PathEncoding.percentDecode_plain (Ne.symm h.1), ih h.2]

theorem unreservedChar_ascii {c : Char} (h : PathEncoding.unreservedChar c = true) :
    c.toNat < 128 ∧ c.toNat ≠ 37 := by
  have hval : c.toNat = c.val.toNat := rfl
  have hletters : 'A'.val.toNat = 65 ∧ 'Z'.val.toNat = 90 ∧ 'a'.val.toNat = 97 ∧
      'z'.val.toNat = 122 ∧ '0'.val.toNat = 48 ∧ '9'.val.toNat = 57 := by decide
  unfold PathEncoding.unreservedChar Char.isAlphanum Char.isAlpha Char.isUpper Char.isLower
    Char.isDigit at h
  simp only [Bool.or_eq_true, Bool.and_eq_true, decide_eq_true_eq, beq_iff_eq,
    UInt32.le_iff_toNat_le, ge_iff_le] at h
  rw [hval]
  rcases h with ((((h | h) | h) | rfl) | rfl) | rfl
  · omega
  · omega
  · subst h
    decide
  · decide
  · decide
  · decide

theorem pathParam_of_urlSafe {id : String} (hsafe : urlSafe id) : pathParam id = some id := by
  have hbytes : 37 ∉ asBytes id := by
    rw [← String.ofList_toList (s := id), asBytes_ofList, List.mem_flatMap]
    rintro ⟨c, hc, hmem⟩
    obtain ⟨hascii, hne⟩ := unreservedChar_ascii (hsafe c hc)
    have hbyte := utf8EncodeChar_ascii c.toNat hascii
    rw [Char.ofNat_toNat] at hbyte
    rw [hbyte, List.mem_singleton] at hmem
    have htoNat := congrArg UInt8.toNat hmem
    rw [UInt8.toNat_ofNat', Nat.mod_eq_of_lt (by omega)] at htoNat
    exact hne htoNat.symm
  rw [pathParam, percentDecode_of_no_percent hbytes, EventStreams.fromUtf8_asBytes]

/-- What is relied on of the libraries between tool and gateway: the path of the keys, and
that of a key with an id the gateway gave out, are sent as they are, and a body that does
not decode is answered with an error. -/
structure Linked (web : Web) (tool : Tool) (client : AdminClient) : Prop where
  keysPath : tool.path (client.url "/admin/keys") = "/admin/keys"
  keyPath : ∀ entropy, let path := "/admin/keys/" ++ (generateKey web.toExternals entropy).id
    tool.path (client.url path) = path
  refusals : ∀ body, isSuccess (web.undecoded body).status = false

/-- The tool can show the token that the gateway asks for. -/
structure Trusted (app : AppState) (client : AdminClient) : Prop where
  sendable : client.token.all (fun t => ProxyPipeline.validHeaderValue ("Bearer " ++ t)) = true
  token : ∀ expected, app.adminToken = some expected →
    client.token = some expected ∧ (asBytes expected).all visibleAscii = true

section
variable {web : Web} {tool : Tool} {app : AppState} {client : AdminClient}

theorem Trusted.authorized (h : Trusted app client) (more : HeaderMap) :
    authorized app (client.auth ++ more) = true := by
  cases hexpected : app.adminToken with
  | none => rw [AdminApi.authorized, hexpected]
  | some expected =>
      obtain ⟨htoken, hvisible⟩ := h.token expected hexpected
      rw [authorized_iff hexpected]
      refine ⟨?_, hvisible⟩
      rw [AdminClient.auth, htoken]
      rfl

/-- A call of the tool reaches the handler of the route. -/
theorem call_send (htrusted : Trusted app client) {path : String}
    (hpath : tool.path (client.url path) = path) {endpoint : Route}
    (hroute : route path = some endpoint) (method : Method) (body : Option Json)
    (s : Shared κ S) (w : World κ V C K W S) :
    ∃ r : AdminRequest, r.method = method ∧
      r.headers = client.auth ++
        (body.map fun _ => ("content-type", asBytes "application/json")).toList ∧
      r.body = (body.map fun v => asBytes v.compact).getD [] ∧
      call web app s w (send tool client method path body) =
        ((handle web app s w r endpoint).shared, (handle web app s w r endpoint).reply) := by
  let r : AdminRequest := ⟨method, path, client.auth ++
    (body.map fun _ => ("content-type", asBytes "application/json")).toList,
    (body.map fun v => asBytes v.compact).getD []⟩
  have hsend : send tool client method path body = some r := by
    rw [send, if_pos htrusted.sendable, hpath]
  have hauth : authorized app r.headers = true := htrusted.authorized _
  refine ⟨r, rfl, rfl, rfl, ?_⟩
  rw [hsend, call, serve_authorized web s w hauth hroute]

/-- The key that the arguments ask for, with the limit as it arrives. -/
def keyOf (minted : GeneratedKey) (args : CreateArgs) (limit : Option SpendLimit) : VirtualKey :=
  OfflineKeys.createKey minted
    ⟨args.team, args.app, args.env, args.models, args.rps, limit, args.expiresAt⟩

theorem keyCreateOnline_spec (hlinked : Linked web tool client) (htrusted : Trusted app client)
    {args : CreateArgs}
    (haccepted : web.rejection (client.auth ++ [("content-type", asBytes "application/json")])
      (asBytes (requestJson web args).compact) = none)
    (hbody : web.fromSliceAs .createKeyRequest (asBytes (requestJson web args).compact) =
      some (requestJson web args))
    (hnum : ∀ limit, sentLimit args.spendLimit = some (some limit) → ReadsBack web limit)
    (s : Shared κ S) (w : World κ V C K W S) :
    keyCreateOnline web tool app s w client args =
      match sentLimit args.spendLimit with
      | none => (s, .error (apiError tool
          (web.undecoded (asBytes (requestJson web args).compact))))
      | some limit =>
          let minted := generateKey web.toExternals w.entropy
          let key := keyOf minted args limit
          ({ s with process := { s.process with keys := s.process.keys.insert key } },
            .ok (issuedLines tool minted.token (KeySummary.ofKey key))) := by
  obtain ⟨r, hmethod, hheaders, hrbody, hcall⟩ := call_send htrusted hlinked.keysPath
    (show route "/admin/keys" = some .keys by rfl) .post (some (requestJson web args)) s w
  have hdecode := createKeyRequest_requestJson hnum
  have hcreate : handle web app s w r .keys = AdminApi.createKey web s w.entropy r.headers r.body := by
    simp only [handle, hmethod, if_true]
  rw [keyCreateOnline, hcall, hcreate, AdminApi.createKey, hheaders, hrbody]
  simp only [extractRequest, Option.map_some, Option.toList_some, Option.getD_some, haccepted, hbody,
    Option.bind_some, hdecode]
  cases hlimit : sentLimit args.spendLimit with
  | none =>
      simp only [Option.map_none, decodeReply, hlinked.refusals]
      rfl
  | some limit =>
      have hstored : ∀ l, limit = some l → ReadsBack web l := by
        rintro l rfl
        exact hnum l hlimit
      have hkey : ∀ l, (keyOf (generateKey web.toExternals w.entropy) args limit).spendLimit = some l →
          ReadsBack web l := hstored
      have hresponse := createKeyResponse_json (generateKey web.toExternals w.entropy).token hkey
      rw [keyOf] at hresponse
      simp only [Option.map_some, decodeReply, Reply.json, hresponse]
      rfl

theorem listKeys_spec (hlinked : Linked web tool client) (htrusted : Trusted app client)
    (t : Shared κ S)
    (hnum : ∀ k ∈ t.process.keys.list, ∀ limit, k.spendLimit = some limit → ReadsBack web limit)
    (w : World κ V C K W S) :
    listKeys web tool app t w client = .ok (t.process.keys.list.map KeySummary.ofKey) := by
  obtain ⟨r, hmethod, -, -, hcall⟩ := call_send htrusted hlinked.keysPath
    (show route "/admin/keys" = some .keys by rfl) .get none t w
  rw [listKeys, hcall]
  simp only [handle, handle.read, hmethod, unchanged]
  rw [if_neg (by decide)]
  simp only [decodeReply, Reply.json, listKeysResponse_json hnum]
  rfl

theorem keyRevoke_spec (htrusted : Trusted app client) (t : Shared κ S) (w : World κ V C K W S)
    {id : String} (hpath : tool.path (client.url ("/admin/keys/" ++ id)) = "/admin/keys/" ++ id)
    (hsafe : urlSafe id) (hne : id ≠ "") (hfound : ∃ k ∈ t.process.keys.list, k.id = id) :
    (keyRevoke web tool app t w client id).2 = .ok ["Revoked " ++ id] ∧
      (keyRevoke web tool app t w client id).1.process.keys = (t.process.keys.removeById id).1 := by
  obtain ⟨r, hmethod, -, -, hcall⟩ := call_send htrusted hpath (route_key hsafe hne)
    .delete none t w
  have hreply := deleteKey_reply (s := t) (l := t.process.keys.list) (fun _ => Iff.rfl) id
  have hany : (t.process.keys.list.any fun k => k.id == id) = true := by
    obtain ⟨k, hk, hid⟩ := hfound
    exact List.any_eq_true.mpr ⟨k, hk, beq_iff_eq.mpr hid⟩
  rw [hany, if_pos rfl] at hreply
  rw [keyRevoke, hcall]
  simp only [handle, hmethod, if_true, pathParam_of_urlSafe hsafe, hreply]
  exact ⟨rfl, deleteKey_keys t id⟩

end

section Sample

/-- A tool for a gateway on this host. -/
def localTool : Tool where
  path url := String.ofList (url.toList.drop "http://localhost:9091".toList.length)
  statusText _ := "422 Unprocessable Entity"
  display _ := "500"

def localClient : AdminClient := AdminClient.new "http://localhost:9091/" (some "s3cret")

/-- A body that is a JSON text is read as the value it was written for, here the one of the
arguments; five hundred is the only amount. -/
def localWeb (body : Json) : Web :=
  { sampleWeb with
    fromSliceAs := fun _ bytes => if bytes = asBytes body.compact then some body else none
    rate := fun n => if n = .float "500.0" then 500 else 0
    float := fun q => if q = 500 then .float "500.0" else .float "0.0" }

theorem localWeb_reads (body : Json) :
    (localWeb body).fromSliceAs .createKeyRequest (asBytes body.compact) = some body := by
  unfold localWeb
  exact if_pos rfl

theorem localTool_path (p : String) : localTool.path (localClient.url p) = p := by
  have hbase : localClient.base = "http://localhost:9091" := by decide +kernel
  rw [AdminClient.url, hbase]
  change String.ofList ((("http://localhost:9091" ++ p).toList).drop _) = p
  rw [String.toList_append, List.drop_left, String.ofList_toList]

theorem localClient_linked (body : Json) : Linked (localWeb body) localTool localClient where
  keysPath := localTool_path "/admin/keys"
  keyPath _ := localTool_path _
  refusals _ := rfl

theorem localClient_trusted : Trusted sampleApp localClient where
  sendable := by decide +kernel
  token expected h := by
    obtain rfl := Option.some.inj h
    exact ⟨rfl, by decide +kernel⟩

def budgetArgs (amount : Float64) : CreateArgs :=
  ⟨"core", "web", "prod", ["gpt-4o"], some 5, some ⟨amount, .day⟩, some "2026-12-31T23:59:59Z"⟩

/-- The gateway that reads the body of these arguments. -/
def budgetWeb (amount : Float64) : Web := localWeb (requestJson (localWeb .null) (budgetArgs amount))

theorem budgetWeb_reads (amount : Float64) :
    (budgetWeb amount).fromSliceAs .createKeyRequest
      (asBytes (requestJson (budgetWeb amount) (budgetArgs amount)).compact) =
        some (requestJson (budgetWeb amount) (budgetArgs amount)) := by
  have hbody : requestJson (budgetWeb amount) (budgetArgs amount) =
      requestJson (localWeb .null) (budgetArgs amount) := rfl
  rw [hbody]
  exact localWeb_reads _

end Sample

end VaultplaneGateway.OnlineKeys
