import VaultplaneGateway.JsonReading
import VaultplaneGateway.OpenAiForwarding

/-!
# The model a request asks for

The handlers decode the fields that they need from the body, all of them or none: a body
that does not decode is read as one without a model. For chat requests the stream flag is
such a field, and a value of another type there hides the model. What was read is used
for the scope of the key, the plugins, the cache key and the routing alike.

The connector that forwards the body reads it as a value to put the model of the route
into it. The decoders skip what they do not need, the value reader does not: a body with a
number out of range in some field has a model for the handlers and is forwarded as it is.
-/
namespace VaultplaneGateway.RequestedModel
open WireFormats InlinePlugins KeyRecords SpendTracking ResponseCaching ProxyPipeline
open OpenAiForwarding

/-- The handlers treat the request as one for the model `m`. -/
structure Uses (lib : Externals) (req : Request) (m : String) : Prop where
  scope : ∀ rt tracker (key : VirtualKey) now, key.allowsModel m = false →
    gate rt tracker key req (requestMeta lib req) now =
      .error (error 403 "virtual key is not allowed to use this model")
  plugins : ∀ rt tracker key now p, gate rt tracker key req (requestMeta lib req) now = .ok p →
    runPlugins rt.plugins req.endpoint.path m req.body = .ok p.body
  cached : ∀ rt tracker key now p, gate rt tracker key req (requestMeta lib req) now = .ok p →
    ∀ k ∈ cacheKey lib p, k = cacheKeyFor lib key.identifier m p.idempotencyKey p.body
  routed : ∀ rt tracker key now p, gate rt tracker key req (requestMeta lib req) now = .ok p →
    p.call.model = m

/-- What the request looks like behind the gates. -/
theorem gate_eq_ok {rt : Runtime} {tracker : SpendTracker} {key : VirtualKey} {req : Request}
    {info : Meta} {now : ℕ} {p : Prepared} (h : gate rt tracker key req info now = .ok p) :
    runPlugins rt.plugins req.endpoint.path info.virtualModel req.body = .ok p.body ∧
      p.key = key ∧ p.virtualModel = info.virtualModel := by
  unfold gate at h
  split_ifs at h
  cases hplugins : runPlugins rt.plugins req.endpoint.path info.virtualModel req.body with
  | error rejection =>
      rw [hplugins] at h
      cases h
  | ok body =>
      rw [hplugins] at h
      cases h
      exact ⟨rfl, rfl, rfl⟩

/-- All uses are of the one name that was read. -/
theorem uses_iff (lib : Externals) (req : Request) (m : String) :
    Uses lib req m ↔ (requestMeta lib req).virtualModel = m := by
  constructor
  · intro h
    exact h.routed ⟨⟨fun _ => none⟩, false, []⟩ SpendTracker.empty VirtualKey.anonymous 0 _ rfl
  · rintro rfl
    refine ⟨fun rt tracker key now hscope => ?_, fun rt tracker key now p hp => (gate_eq_ok hp).1,
      fun rt tracker key now p hp k hk => ?_, fun rt tracker key now p hp => (gate_eq_ok hp).2.2⟩
    · rw [gate, hscope]
      rfl
    · obtain ⟨-, hkey, hmodel⟩ := gate_eq_ok hp
      unfold cacheKey at hk
      split_ifs at hk
      · cases hk
      · rw [← Option.some.inj hk, hkey, hmodel]

section
variable {members : List (String × Json)} {name : String}

theorem structField_of_mem (hdistinct : (members.map Prod.fst).Nodup) {v : Json}
    (h : (name, v) ∈ members) : structField members name = some (some v) := by
  have hfilter : members.filter (fun m => m.1 == name) = [(name, v)] := by
    induction members with
    | nil => cases h
    | cons m members ih =>
        obtain ⟨hm, hrest⟩ := List.nodup_cons.mp hdistinct
        rcases List.mem_cons.mp h with rfl | h
        · have hnone : members.filter (fun m => m.1 == name) = [] := by
            rw [List.filter_eq_nil_iff]
            intro m' hm' hname
            exact hm (List.mem_map.mpr ⟨m', hm', by simpa using hname⟩)
          simp [hnone]
        · have hne : m.1 ≠ name := by
            rintro rfl
            exact hm (List.mem_map.mpr ⟨_, h, rfl⟩)
          simp [hne, ih hrest h]
  rw [structField, hfilter]

theorem structField_of_not_mem (h : ∀ v, (name, v) ∉ members) :
    structField members name = some none := by
  have hfilter : members.filter (fun m => m.1 == name) = [] := by
    rw [List.filter_eq_nil_iff]
    intro m hm hname
    obtain rfl : m.1 = name := by simpa using hname
    exact h m.2 hm
  rw [structField, hfilter]

/-- The whole of the chat fields is read only if the flag is one. -/
theorem chatModel_eq_iff (hdistinct : (members.map Prod.fst).Nodup) {s : String}
    (hmodel : ("model", .string s) ∈ members) :
    ((ChatMeta.decode (.object members)).getD ⟨none, false⟩).model.getD "" = s ↔
      s = "" ∨ ∀ v, ("stream", v) ∈ members → ∃ b, v = .bool b := by
  have hfield := structField_of_mem hdistinct hmodel
  by_cases hpresent : ∃ v, ("stream", v) ∈ members
  · obtain ⟨v, hv⟩ := hpresent
    have hunique : ∀ w, ("stream", w) ∈ members → w = v := by
      intro w hw
      have := (structField_of_mem hdistinct hw).symm.trans (structField_of_mem hdistinct hv)
      simpa using this
    have hall : (∀ w, ("stream", w) ∈ members → ∃ b, w = .bool b) ↔ ∃ b, v = .bool b :=
      ⟨fun h => h v hv, fun h w hw => hunique w hw ▸ h⟩
    rw [hall]
    simp only [ChatMeta.decode, hfield, structField_of_mem hdistinct hv]
    cases v <;> simp [optionString, boolean, eq_comm]
  · have hnone := structField_of_not_mem (not_exists.mp hpresent)
    refine iff_of_true ?_ (.inr fun v hv => (hpresent ⟨v, hv⟩).elim)
    simp [ChatMeta.decode, hfield, hnone, optionString]

theorem embeddingsModel_eq (hdistinct : (members.map Prod.fst).Nodup) {s : String}
    (hmodel : ("model", .string s) ∈ members) :
    ((EmbeddingsMeta.decode (.object members)).getD ⟨none⟩).model.getD "" = s := by
  simp [EmbeddingsMeta.decode, structField_of_mem hdistinct hmodel, optionString]

end

section
variable {α : Type}

/-- What a JSON text says that is an object. Its values are of a type of their own, for a
text may say what no reader takes: a number of any size, a string with any escape, any
depth. Texts that a reader rounds to one number say the same. `value` is what a value of the
readers stands for. -/
structure Texts (α : Type) where
  object : Bytes → Option (List (String × α))
  value : Json → α

/-- What a decoder that declares these fields meets of the members: those of the fields, or
a value among them that it cannot read. -/
inductive Meets (value : Json → α) (fields : List String) (members : List (String × α)) :
    Option Json → Prop
  | tree {ms : List (String × Json)} (distinct : (ms.map Prod.fst).Nodup)
      (declared : ∀ name ∈ fields, ∀ a, (name, a) ∈ members ↔ ∃ v, (name, v) ∈ ms ∧ value v = a) :
      Meets value fields members (some (.object ms))
  | refused {name : String} {a : α} (declared : name ∈ fields) (member : (name, a) ∈ members)
      (unread : ∀ v, value v ≠ a) : Meets value fields members none

/-- What is relied on of the JSON library for a body that says these members. Strings and
booleans are told apart from everything else, a decoder meets the fields it declares, the
value reader gives all members in some order or refuses, and a value that was read is
written, with another model, as a text that says it. -/
structure Says (lib : Serde) (texts : Texts α) (body : Bytes) (members : List (String × α)) :
    Prop where
  object : texts.object body = some members
  string : ∀ v s, texts.value v = texts.value (.string s) → v = .string s
  bool : ∀ v b, texts.value v = texts.value (.bool b) → v = .bool b
  chat : Meets texts.value ["model", "stream"] members (lib.fromSliceAs .chatMeta body)
  embeddings : Meets texts.value ["model"] members (lib.fromSliceAs .embeddingsMeta body)
  read : ∀ v, lib.fromSlice body = some v →
    ∃ ms, v = .object ms ∧ (ms.map (Prod.map id texts.value)).Perm members
  written : ∀ ms m, lib.fromSlice body = some (.object ms) →
    texts.object (asBytes (lib.toText (.object (insertMember "model" (.string m) ms)))) =
      some ((insertMember "model" (.string m) ms).map (Prod.map id texts.value))

/-- The text says the members again, in some order, with this model. -/
def Forwards (texts : Texts α) (members : List (String × α)) (model : String) (posted : Bytes) :
    Prop :=
  ∃ said, texts.object posted = some said ∧ (said.map Prod.fst).Perm (members.map Prod.fst) ∧
    ("model", texts.value (.string model)) ∈ said ∧
    ∀ name ≠ "model", ∀ a, (name, a) ∈ said ↔ (name, a) ∈ members

variable {lib : Serde} {texts : Texts α} {body : Bytes} {members : List (String × α)} {s : String}

theorem value_unique (hdistinct : (members.map Prod.fst).Nodup) {name : String} {a b : α}
    (ha : (name, a) ∈ members) (hb : (name, b) ∈ members) : a = b :=
  congrArg Prod.snd (List.inj_on_of_nodup_map hdistinct ha hb rfl)

theorem Says.chatModel_eq_iff (h : Says lib texts body members)
    (hdistinct : (members.map Prod.fst).Nodup)
    (hmodel : ("model", texts.value (.string s)) ∈ members) :
    (((lib.fromSliceAs .chatMeta body).bind ChatMeta.decode).getD ⟨none, false⟩).model.getD "" = s ↔
      s = "" ∨ ∀ a, ("stream", a) ∈ members → ∃ b, a = texts.value (.bool b) := by
  generalize htree : lib.fromSliceAs .chatMeta body = tree
  cases htree ▸ h.chat with
  | @tree ms hms declared =>
      obtain ⟨v, hv, hvalue⟩ := (declared "model" (by decide) _).mp hmodel
      obtain rfl := h.string v s hvalue
      rw [Option.bind_some, RequestedModel.chatModel_eq_iff hms hv]
      refine or_congr_right ⟨fun hall a ha => ?_, fun hall v hv => ?_⟩
      · obtain ⟨v, hv, rfl⟩ := (declared "stream" (by decide) a).mp ha
        obtain ⟨b, rfl⟩ := hall v hv
        exact ⟨b, rfl⟩
      · obtain ⟨b, hb⟩ := hall _ ((declared "stream" (by decide) _).mpr ⟨v, hv, rfl⟩)
        exact ⟨b, h.bool v b hb⟩
  | @refused name a declared member unread =>
      have hstream : ¬ ∀ a, ("stream", a) ∈ members → ∃ b, a = texts.value (.bool b) := by
        intro hall
        simp only [List.mem_cons, List.not_mem_nil, or_false] at declared
        rcases declared with rfl | rfl
        · exact unread _ (value_unique hdistinct hmodel member)
        · obtain ⟨b, hb⟩ := hall a member
          exact unread _ hb.symm
      rw [or_iff_left hstream]
      exact eq_comm

theorem Says.embeddingsModel_eq (h : Says lib texts body members)
    (hdistinct : (members.map Prod.fst).Nodup)
    (hmodel : ("model", texts.value (.string s)) ∈ members) :
    (((lib.fromSliceAs .embeddingsMeta body).bind EmbeddingsMeta.decode).getD ⟨none⟩).model.getD ""
      = s := by
  generalize htree : lib.fromSliceAs .embeddingsMeta body = tree
  cases htree ▸ h.embeddings with
  | @tree ms hms declared =>
      obtain ⟨v, hv, hvalue⟩ := (declared "model" (by decide) _).mp hmodel
      obtain rfl := h.string v s hvalue
      exact RequestedModel.embeddingsModel_eq hms hv
  | @refused name a declared member unread =>
      obtain rfl := List.mem_singleton.mp declared
      exact (unread _ (value_unique hdistinct hmodel member)).elim

/-- A body that the value reader refuses goes out as it came in. -/
theorem Says.forwards_iff (h : Says lib texts body members)
    (hdistinct : (members.map Prod.fst).Nodup)
    (hmodel : ("model", texts.value (.string s)) ∈ members) (m : String) :
    Forwards texts members m (rewriteModel lib body m) ↔
      (lib.fromSlice body).isSome = true ∨ m = s := by
  cases hread : lib.fromSlice body with
  | none =>
      rw [rewriteModel, hread]
      simp only [Option.isSome_none, Bool.false_eq_true, false_or]
      constructor
      · rintro ⟨said, hsaid, -, hm, -⟩
        obtain rfl := Option.some.inj (h.object.symm.trans hsaid)
        have heq := h.string _ _ (value_unique hdistinct hm hmodel)
        exact Json.string.inj heq
      · rintro rfl
        exact ⟨members, h.object, .refl _, hmodel, fun _ _ _ => Iff.rfl⟩
  | some v =>
      obtain ⟨ms, rfl, hperm⟩ := h.read v hread
      have hnames : "model" ∈ ms.map Prod.fst := by
        have hmem := List.mem_map_of_mem (f := Prod.fst) (hperm.mem_iff.mpr hmodel)
        rwa [List.map_map] at hmem
      refine iff_of_true ?_ (.inl rfl)
      rw [rewriteModel, hread]
      refine ⟨_, h.written ms m hread, ?_, ?_, fun name hname a => ?_⟩
      · have hfst := hperm.map Prod.fst
        rw [List.map_map] at hfst ⊢
        exact map_fst_insertMember hnames (Json.string m) ▸ hfst
      · exact List.mem_map.mpr ⟨("model", .string m), mem_insertMember_self _ _ _, rfl⟩
      · rw [← hperm.mem_iff, List.mem_map, List.mem_map]
        refine exists_congr fun e => and_congr_left fun he => ?_
        have hfst : e.1 = name := congrArg Prod.fst he
        exact mem_insertMember_of_ne (hfst ▸ hname)

end

section Sample

/-- A request with the stream flag given. -/
def sampleMembers (stream : Json) : List (String × Json) :=
  [("messages", .array []), ("model", .string "gpt-4o"), ("stream", stream)]

theorem distinct_sampleMembers (stream : Json) : ((sampleMembers stream).map Prod.fst).Nodup :=
  show ["messages", "model", "stream"].Nodup by decide

theorem plain_withModel {stream : Json} (h : JsonReading.plain 126 stream = true) (m : String) :
    JsonReading.plain 127 (.object
      [("messages", .array []), ("model", .string m), ("stream", stream)]) = true := by
  have hsorted : ["messages", "model", "stream"].Pairwise (· < ·) := by decide
  simp only [JsonReading.plain, List.map_cons, List.map_nil, hsorted, decide_true, List.all_cons,
    List.all_nil, h, Bool.and_self]

def sampleBody (stream : Json) : Bytes := asBytes (Json.object (sampleMembers stream)).compact

/-- A request with a number that is out of range in a field of no meaning. -/
def wideMembers : List (String × Json) :=
  [("model", .string "gpt-4o"), ("messages", .array []), ("x", .number (.float "1e999"))]

def wideBody : Bytes := asBytes (Json.object wideMembers).compact

/-- The decoders skip the field that the value reader refuses. -/
def sampleLib : Serde where
  sha256 _ := []
  fromSlice := JsonReading.readJson
  fromSliceAs _ b :=
    if b = wideBody then some (.object (wideMembers.take 2)) else JsonReading.readJson b
  parseRfc3339 _ := none
  toText := Json.compact

def membersOf : Json → Option (List (String × Json))
  | .object members => some members
  | _ => none

def sampleTexts : Texts Json where
  object b := if b = wideBody then some wideMembers else (JsonReading.readJson b).bind membersOf
  value := id

theorem wideBody_refused : JsonReading.readJson wideBody = none := by decide +kernel

theorem ne_wideBody {b : Bytes} {v : Json} (h : JsonReading.readJson b = some v) :
    b ≠ wideBody := by
  rintro rfl
  rw [wideBody_refused] at h
  cases h

theorem decodes_of_read {b : Bytes} {v : Json} (h : JsonReading.readJson b = some v)
    (type : Decoded) : sampleLib.fromSliceAs type b = some v := by
  change (if b = wideBody then _ else _) = _
  rw [if_neg (ne_wideBody h), h]

theorem decodes_wideBody (type : Decoded) :
    sampleLib.fromSliceAs type wideBody = some (.object (wideMembers.take 2)) := by
  simp only [sampleLib, if_true]

theorem object_of_read {b : Bytes} {members : List (String × Json)}
    (h : JsonReading.readJson b = some (.object members)) : sampleTexts.object b = some members := by
  change (if b = wideBody then _ else _) = _
  rw [if_neg (ne_wideBody h), h]
  rfl

theorem sampleBody_read {stream : Json} (h : JsonReading.plain 126 stream = true) :
    JsonReading.readJson (sampleBody stream) = some (.object (sampleMembers stream)) :=
  JsonReading.readJson_compact (plain_withModel h "gpt-4o")

theorem map_value (members : List (String × Json)) :
    members.map (Prod.map id sampleTexts.value) = members := List.map_id _

theorem meets_all {fields : List String} {members : List (String × Json)}
    (h : (members.map Prod.fst).Nodup) :
    Meets sampleTexts.value fields members (some (.object members)) :=
  .tree h fun _ _ a => ⟨fun ha => ⟨a, ha, rfl⟩, fun ⟨_, hv, hva⟩ => hva ▸ hv⟩

theorem says_sampleBody (stream : Json) (h : JsonReading.plain 126 stream = true) :
    Says sampleLib sampleTexts (sampleBody stream) (sampleMembers stream) := by
  have hread := sampleBody_read h
  refine ⟨object_of_read hread, fun v s hv => hv, fun v b hv => hv, ?_, ?_, fun v hv => ?_,
    fun ms m hms => ?_⟩
  · rw [decodes_of_read hread]
    exact meets_all (distinct_sampleMembers stream)
  · rw [decodes_of_read hread]
    exact meets_all (distinct_sampleMembers stream)
  · obtain rfl := Option.some.inj (hread.symm.trans hv)
    exact ⟨_, rfl, by rw [map_value]⟩
  · obtain rfl := Json.object.inj (Option.some.inj (hread.symm.trans hms))
    rw [map_value]
    have hinsert : insertMember "model" (.string m) (sampleMembers stream) =
        [("messages", .array []), ("model", .string m), ("stream", stream)] := by
      simp [sampleMembers, insertMember]
    rw [hinsert]
    exact object_of_read (JsonReading.readJson_compact (plain_withModel h m))

theorem says_wideBody : Says sampleLib sampleTexts wideBody wideMembers := by
  have hobject : sampleTexts.object wideBody = some wideMembers := by
    simp only [sampleTexts, if_true]
  refine ⟨hobject, fun v s hv => hv, fun v b hv => hv, ?_, ?_, fun v hv => ?_, fun ms m hms => ?_⟩
  · rw [decodes_wideBody]
    refine .tree (by decide) fun name hname a => ?_
    simp only [List.mem_cons, List.not_mem_nil, or_false] at hname
    rcases hname with rfl | rfl <;> simp [wideMembers, sampleTexts, eq_comm]
  · rw [decodes_wideBody]
    refine .tree (by decide) fun name hname a => ?_
    obtain rfl := List.mem_singleton.mp hname
    simp [wideMembers, sampleTexts, eq_comm]
  · cases wideBody_refused.symm.trans hv
  · cases wideBody_refused.symm.trans hms

end Sample

end VaultplaneGateway.RequestedModel
