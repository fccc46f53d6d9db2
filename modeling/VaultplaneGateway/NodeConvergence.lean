import VaultplaneGateway.ConditionalReplicas
import VaultplaneGateway.LinkHistory

/-!
# Following the Control Node

In api mode the gateway asks a Control Node for its configuration and its keys, again and
again. The node is another program, a function from requests to answers, and what is assumed
of it is the contract of conditional requests: it answers 304 to a request with the tag of
its current document and sends the document otherwise. Between two answers it may publish
anything, and any request may be lost or refused. The gateway is a replica of each of the two
documents: if the node never uses a tag for two bodies, a request that gets through brings
the gateway to the document that is current, whatever happened before.
-/
namespace VaultplaneGateway.NodeConvergence
open WireFormats KeyRecords ConfigOverlay LinkStatus TransitionRuns ControlNodeClient
open ConditionalReplicas

variable {ρ : Type}

/-- `control_plane::start`: the status to show, and the client that is spawned, if one is.
The environment variables and the HTTP client are given. -/
def start (var : String → Option String) (http : Except String Unit) (cp : ControlPlane) (now : ℚ) :
    StatusHandle × Option Client :=
  match cp.mode with
  | .file => (.file, none)
  | .api =>
      let status := StatusHandle.api (cp.endpoint.getD "")
      match cp.endpoint, cp.tokenEnv with
      | none, _ => (status.notStarted "control_plane.endpoint is unset" now, none)
      | _, none => (status.notStarted "control_plane.token_env is unset" now, none)
      | some endpoint, some tokenEnv =>
          let token := (var tokenEnv).getD ""
          if token.isEmpty then
            (status.notStarted ("token env var " ++ tokenEnv ++ " is empty") now, none)
          else
            match http with
            | .ok () => (status, some (Client.new endpoint token status))
            | .error err =>
                (status.notStarted ("failed to build api-mode client: " ++ err) now, none)

/-- The enrollment check before the first tick. Only a good answer has an effect. -/
def logIdentity (decodeIdentity : Bytes → Option Identity) (c : Client) (answer : Answer) : Client :=
  match answer with
  | .error _ => c
  | .ok response =>
      if response.status = 200 then
        match response.body.toOption.bind decodeIdentity with
        | some identity => { c with status := c.status.setIdentity identity }
        | none => c
      else c

/-- A document as the node has it: the tag is the value of a header. -/
abbrev Page := Document Bytes Bytes

structure Node where
  endpoint : String
  token : String
  config : Page
  keys : Page

/-- The address of a document. -/
def Node.url (n : Node) : Resource → String
  | .config => trimSlashes n.endpoint ++ "/config"
  | .keys => trimSlashes n.endpoint ++ "/keys"

def Node.page (n : Node) : Resource → Page
  | .config => n.config
  | .keys => n.keys

def Node.publish (n : Node) (r : Resource) (d : Page) : Node :=
  match r with
  | .config => { n with config := d }
  | .keys => { n with keys := d }

/-- The tag of a request is that of the document. -/
def current (d : Page) (ifNoneMatch : Option String) : Bool :=
  d.tag.isSome && ifNoneMatch.map asBytes == d.tag

/-- A conditional answer: the document is not sent to a request that has its tag. -/
structure Conditional (d : Page) (ifNoneMatch : Option String) (response : HttpResponse) : Prop where
  unmodified : current d ifNoneMatch = true → response.status = 304
  modified : current d ifNoneMatch = false →
    response.status = 200 ∧ response.headers.get "etag" = d.tag ∧ response.body = .ok d.body

/-- What is assumed of the answers of a node: a request for a document of it that shows its
token is answered conditionally. -/
def Honours (respond : Node → HttpRequest → HttpResponse) : Prop :=
  ∀ n q r, q.bearer = n.token → q.url = n.url r → Conditional (n.page r) q.ifNoneMatch (respond n q)

/-- An answer that is no document of the node: a transport error, another status, or a body
that breaks off. -/
structure Outage where
  answer : Answer
  unusable : ∀ response, answer = .ok response →
    response.status ≠ 304 ∧ (response.status = 200 → ∃ err, response.body = .error err)

inductive Reply where
  | node
  | outage (o : Outage)

structure State (ρ : Type) where
  node : Node
  world : World ρ

inductive Event where
  | publish (r : Resource) (d : Page)
  | tick (config keys : Reply) (now : ℚ)

def State.answer (respond : Node → HttpRequest → HttpResponse) (s : State ρ) (r : Resource) :
    Reply → Answer
  | .node => .ok (respond s.node (s.world.client.request r))
  | .outage o => o.answer

/-- A tick takes the node as it is. A publication between its two requests is one before
the tick or after it, since each request is for its own document. -/
def next (respond : Node → HttpRequest → HttpResponse) (env : Environment ρ) (s : State ρ) :
    Event → State ρ
  | .publish r d => { s with node := s.node.publish r d }
  | .tick config keys now =>
      { s with
        world := step env s.world
          ⟨s.answer respond .config config, s.answer respond .keys keys, now⟩ }

/-- A document as the client sees it: a tag that is no text is none. -/
def seen (d : Page) : Document Bytes String := ⟨d.body, d.tag.bind toStr⟩

def makeRuntime (env : Environment ρ) (body : Bytes) : Option (ρ × Option String) :=
  (env.decodeConfig body).toOption.bind fun bundle =>
    (env.buildRuntime (applyConfig env.base bundle)).toOption.map fun runtime =>
      (runtime, some bundle.version)

def makeKeys (env : Environment ρ) (body : Bytes) : Option (KeyStore × Option String) :=
  (env.decodeKeys body).toOption.map fun set =>
    (KeyStore.new (toVirtualKeys set.keys), some set.version)

/-- The runtime in use with the version that is reported for it. -/
def configReplica (w : World ρ) : Replica String (ρ × Option String) :=
  ⟨(w.runtime, w.client.status.configVersion), w.client.configEtag⟩

def keysReplica (w : World ρ) : Replica String (KeyStore × Option String) :=
  ⟨(w.keys, w.client.status.keysVersion), w.client.keysEtag⟩

/-- A replica after an answer, which has delivered something or not. -/
def installConfig (r : Replica String (ρ × Option String)) :
    Option (Dto.GatewayConfig × HttpResponse × ρ) → Replica String (ρ × Option String)
  | some (bundle, response, runtime) => ⟨(runtime, some bundle.version), etagOf response⟩
  | none => r

def installKeys (r : Replica String (KeyStore × Option String)) :
    Option (Dto.KeySet × HttpResponse) → Replica String (KeyStore × Option String)
  | some (set, response) =>
      ⟨(KeyStore.new (toVirtualKeys set.keys), some set.version), etagOf response⟩
  | none => r

section
variable (env : Environment ρ)

/-- A tick records the versions of what it applied. -/
theorem step_versions (w : World ρ) (t : Tick) :
    (step env w t).client.status.configVersion =
      StatusHandle.keptVersion w.client.status.configVersion (pollConfig env w t.config).2 ∧
    (step env w t).client.status.keysVersion = StatusHandle.keptVersion w.client.status.keysVersion
      (pollKeys env (pollConfig env w t.config).1 t.keys).2 := by
  rw [(LinkHistory.tick_eq env w t).1, LinkHistory.record, StatusHandle.recordTick]
  split
  · exact ⟨rfl, rfl⟩
  · exact ⟨rfl, rfl⟩

theorem step_configReplica (w : World ρ) (t : Tick) :
    configReplica (step env w t) = installConfig (configReplica w) (appliedConfig env t.config) := by
  have hwrite := Prod.mk.inj (step_config env w t)
  unfold configReplica
  rw [hwrite.1, hwrite.2, (step_versions env w t).1, configWrite]
  rcases pollConfig_cases env w t.config with ⟨bundle, response, runtime, happlied, hpoll⟩ |
    ⟨hnone, outcome, houtcome, hpoll⟩
  · rw [happlied, hpoll]
    rfl
  · rw [hnone, hpoll]
    rcases houtcome with rfl | ⟨failure, rfl⟩
    · rfl
    · rfl

theorem step_keysReplica (w : World ρ) (t : Tick) :
    keysReplica (step env w t) = installKeys (keysReplica w) (appliedKeys env t.keys) := by
  have hwrite := Prod.mk.inj (step_keys env w t)
  unfold keysReplica
  rw [hwrite.1, hwrite.2, (step_versions env w t).2, keysWrite]
  rcases pollKeys_cases env (pollConfig env w t.config).1 t.keys with
    ⟨set, response, happlied, hpoll⟩ | ⟨hnone, outcome, houtcome, hpoll⟩
  · rw [happlied, hpoll]
    rfl
  · rw [hnone, hpoll]
    rcases houtcome with rfl | ⟨failure, rfl⟩
    · rfl
    · rfl

end

/-- A tag that was taken from a header. -/
def Sendable (tag : Option String) : Prop := ∀ t ∈ tag, toStr (asBytes t) = some t

theorem sendable_toStr (tag : Option Bytes) : Sendable (tag.bind toStr) := by
  intro t ht
  obtain ⟨value, -, hvalue⟩ := Option.bind_eq_some_iff.mp ht
  rw [asBytes_of_toStr hvalue]
  exact hvalue

/-- The tag that the client has of a document is that of the node. -/
theorem current_iff {d : Page} {m : Option String} (hm : Sendable m) :
    current d m = (m.isSome && m == (seen d).tag) := by
  unfold current seen
  cases m with
  | none => cases d.tag <;> rfl
  | some t =>
      cases htag : d.tag with
      | none => rfl
      | some value =>
          have h : asBytes t = value ↔ some t = toStr value := by
            constructor
            · intro h
              rw [← h, hm t rfl]
            · intro h
              exact asBytes_of_toStr h.symm
          rw [Bool.eq_iff_iff]
          simpa using h

section
variable {d : Page} {m : Option String} {response : HttpResponse}

theorem Conditional.etagOf (h : Conditional d m response) (hm : current d m = false) :
    etagOf response = d.tag.bind toStr := by
  rw [ControlNodeClient.etagOf, (h.modified hm).2.1]

theorem Conditional.delivered {τ : Type} (h : Conditional d m response)
    (decode : Bytes → Except String τ) :
    delivered decode (.ok response) =
      if current d m then none else (decode d.body).toOption.map fun x => (x, response) := by
  simp only [ControlNodeClient.delivered]
  cases hm : current d m with
  | true =>
      have hstatus : response.status ≠ 200 := by
        rw [h.unmodified hm]
        decide
      rw [if_neg hstatus, if_pos rfl]
  | false =>
      obtain ⟨hstatus, -, hbody⟩ := h.modified hm
      rw [if_pos hstatus, if_neg Bool.false_ne_true, hbody]
      cases hdecode : decode d.body with
      | ok x => simp [hdecode, Except.bind, Except.toOption]
      | error e => simp [hdecode, Except.bind, Except.toOption]

/-- A document that can be decoded does not fail a poll. -/
theorem Conditional.fetch {τ : Type} {decode : Bytes → Except String τ} {x : τ}
    (h : Conditional d m response) (hdecode : decode d.body = .ok x) (c : Client)
    (statusText : UInt16 → String) (r : Resource) :
    c.fetch statusText r decode (.ok response) = .ok .notModified ∨
      c.fetch statusText r decode (.ok response) =
        .ok (.modified x (ControlNodeClient.etagOf response)) := by
  unfold Client.fetch
  cases hm : current d m with
  | true =>
      left
      simp [h.unmodified hm]
  | false =>
      right
      obtain ⟨hstatus, -, hbody⟩ := h.modified hm
      simp [hstatus, hbody, Except.bind, hdecode]

end

theorem delivered_outage {τ : Type} (decode : Bytes → Except String τ) (o : Outage) :
    delivered decode o.answer = none := by
  obtain ⟨answer, hanswer⟩ := o
  cases answer with
  | error e => rfl
  | ok response =>
      rw [delivered]
      split_ifs with h
      · obtain ⟨err, herr⟩ := (hanswer response rfl).2 h
        rw [herr]
        rfl
      · rfl

/-- The addresses that a client asks, and its token. -/
def peer (c : Client) : String × String × String := (c.configUrl, c.keysUrl, c.token)

def Node.peer (n : Node) : String × String × String := (n.url .config, n.url .keys, n.token)

/-- The client asks this node, and the tags that it sends came from headers. -/
structure Wired (s : State ρ) : Prop where
  peer : peer s.world.client = s.node.peer
  configTag : Sendable s.world.client.configEtag
  keysTag : Sendable s.world.client.keysEtag

section
variable {env : Environment ρ} {s : State ρ}

/-- So it is answered conditionally. -/
theorem Wired.respond (h : Wired s) {respond : Node → HttpRequest → HttpResponse}
    (hrespond : Honours respond) (r : Resource) :
    Conditional (s.node.page r) (s.world.client.etag r)
      (respond s.node (s.world.client.request r)) := by
  obtain ⟨hconfig, hpeer⟩ := Prod.mk.inj h.peer
  obtain ⟨hkeys, htoken⟩ := Prod.mk.inj hpeer
  apply hrespond s.node (s.world.client.request r) r htoken
  cases r with
  | config => exact hconfig
  | keys => exact hkeys

theorem step_peer (w : World ρ) (t : Tick) : peer (step env w t).client = peer w.client := by
  have hkeys (v : World ρ) : peer (pollKeys env v t.keys).1.client = peer v.client := by
    rcases pollKeys_cases env v t.keys with ⟨_, _, -, h⟩ | ⟨-, _, -, h⟩
    · rw [h]
      rfl
    · rw [h]
  have hconfig : peer (pollConfig env w t.config).1.client = peer w.client := by
    rcases pollConfig_cases env w t.config with ⟨_, _, _, -, h⟩ | ⟨-, _, -, h⟩
    · rw [h]
      rfl
    · rw [h]
  exact (hkeys _).trans hconfig

theorem sendable_etagOf (response : HttpResponse) : Sendable (etagOf response) :=
  sendable_toStr (response.headers.get "etag")

theorem Wired.next (h : Wired s) (respond : Node → HttpRequest → HttpResponse) (e : Event) :
    Wired (next respond env s e) := by
  cases e with
  | publish r d => cases r <;> exact ⟨h.peer, h.configTag, h.keysTag⟩
  | tick config keys now =>
      let t : Tick := ⟨s.answer respond .config config, s.answer respond .keys keys, now⟩
      have hconfig := congrArg Replica.tag (step_configReplica env s.world t)
      have hkeys := congrArg Replica.tag (step_keysReplica env s.world t)
      refine ⟨(step_peer s.world t).trans h.peer, ?_, ?_⟩
      · change Sendable (configReplica (step env s.world t)).tag
        rw [hconfig]
        cases appliedConfig env t.config with
        | none => exact h.configTag
        | some applied => exact sendable_etagOf applied.2.1
      · change Sendable (keysReplica (step env s.world t)).tag
        rw [hkeys]
        cases appliedKeys env t.keys with
        | none => exact h.keysTag
        | some applied => exact sendable_etagOf applied.2

def configLink (s : State ρ) : Link Bytes String (ρ × Option String) :=
  ⟨seen s.node.config, configReplica s.world⟩

def keysLink (s : State ρ) : Link Bytes String (KeyStore × Option String) :=
  ⟨seen s.node.keys, keysReplica s.world⟩

def Reply.event : Reply → ConditionalReplicas.Event Bytes String
  | .node => .fetch
  | .outage _ => .lost

/-- What an event is for the replica of a document. -/
def Event.of (r : Resource) : Event → ConditionalReplicas.Event Bytes String
  | .publish r' d => if r' = r then .publish (seen d) else .lost
  | .tick config keys _ =>
      match r with
      | .config => config.event
      | .keys => keys.event

theorem fetch_config {r : Replica String (ρ × Option String)} (hr : Sendable r.tag) {d : Page}
    {response : HttpResponse} (h : Conditional d r.tag response) :
    installConfig r (appliedConfig env (.ok response)) = r.fetch (makeRuntime env) (seen d) := by
  rw [appliedConfig, h.delivered, Replica.fetch, Replica.current, ← current_iff hr]
  cases hcurrent : current d r.tag with
  | true => rfl
  | false =>
      have hetag := h.etagOf hcurrent
      rw [makeRuntime]
      cases hdecode : env.decodeConfig d.body with
      | error e => simp [seen, hdecode, Except.toOption, installConfig]
      | ok bundle =>
          cases hbuild : env.buildRuntime (applyConfig env.base bundle) with
          | error e => simp [seen, hdecode, hbuild, Except.toOption, installConfig]
          | ok runtime => simp [seen, hdecode, hbuild, Except.toOption, installConfig, hetag]

theorem fetch_keys {r : Replica String (KeyStore × Option String)} (hr : Sendable r.tag) {d : Page}
    {response : HttpResponse} (h : Conditional d r.tag response) :
    installKeys r (appliedKeys env (.ok response)) = r.fetch (makeKeys env) (seen d) := by
  rw [appliedKeys, h.delivered, Replica.fetch, Replica.current, ← current_iff hr]
  cases hcurrent : current d r.tag with
  | true => rfl
  | false =>
      have hetag := h.etagOf hcurrent
      rw [makeKeys]
      cases hdecode : env.decodeKeys d.body with
      | error e => simp [seen, hdecode, Except.toOption, installKeys]
      | ok set => simp [seen, hdecode, Except.toOption, installKeys, hetag]

end

section
variable {env : Environment ρ} {s : State ρ} {respond : Node → HttpRequest → HttpResponse}

/-- A tick is a fetch of the configuration, if its request gets through. -/
theorem next_configLink (hrespond : Honours respond) (h : Wired s) (e : Event) :
    configLink (next respond env s e) =
      ConditionalReplicas.next (makeRuntime env) (configLink s) (e.of .config) := by
  cases e with
  | publish r d => cases r <;> rfl
  | tick config keys now =>
      have hstep := step_configReplica env s.world
        ⟨s.answer respond .config config, s.answer respond .keys keys, now⟩
      cases config with
      | outage o =>
          have hnone : appliedConfig env o.answer = none := by
            rw [appliedConfig, delivered_outage]
            rfl
          have hkept := hstep.trans (congrArg (installConfig (configReplica s.world)) hnone)
          exact congrArg (Link.mk (seen s.node.config)) hkept
      | node =>
          have hfetch := hstep.trans (fetch_config h.configTag (h.respond hrespond .config))
          exact congrArg (Link.mk (seen s.node.config)) hfetch

theorem next_keysLink (hrespond : Honours respond) (h : Wired s) (e : Event) :
    keysLink (next respond env s e) =
      ConditionalReplicas.next (makeKeys env) (keysLink s) (e.of .keys) := by
  cases e with
  | publish r d => cases r <;> rfl
  | tick config keys now =>
      have hstep := step_keysReplica env s.world
        ⟨s.answer respond .config config, s.answer respond .keys keys, now⟩
      cases keys with
      | outage o =>
          have hnone : appliedKeys env o.answer = none := delivered_outage env.decodeKeys o
          have hkept := hstep.trans (congrArg (installKeys (keysReplica s.world)) hnone)
          exact congrArg (Link.mk (seen s.node.keys)) hkept
      | node =>
          have hfetch := hstep.trans (fetch_keys h.keysTag (h.respond hrespond .keys))
          exact congrArg (Link.mk (seen s.node.keys)) hfetch

end

def Event.page (r : Resource) : Event → Option Page
  | .publish r' d => if r' = r then some d else none
  | .tick _ _ _ => none

/-- The pages of a resource that the node has in a run. -/
def pages (r : Resource) (n : Node) (es : List Event) : List Page :=
  n.page r :: es.filterMap (Event.page r)

theorem published_of (r : Resource) (es : List Event) :
    published (es.map (Event.of r)) = (es.filterMap (Event.page r)).map seen := by
  rw [published, List.filterMap_map, List.map_filterMap]
  congr 1
  funext e
  cases e with
  | publish r' d =>
      simp only [Function.comp, Event.of, Event.page]
      split_ifs <;> rfl
  | tick config keys now => cases r <;> cases config <;> cases keys <;> rfl

/-- Tags that a client sees stand for one body if those of the node do. -/
theorem identifying_seen {docs : List Page} (h : Identifying docs) : Identifying (docs.map seen) := by
  intro x hx y hy t htag htag'
  obtain ⟨d, hd, rfl⟩ := List.mem_map.mp hx
  obtain ⟨e, he, rfl⟩ := List.mem_map.mp hy
  obtain ⟨value, hvalue, hstr⟩ := Option.bind_eq_some_iff.mp htag
  obtain ⟨value', hvalue', hstr'⟩ := Option.bind_eq_some_iff.mp htag'
  refine h d hd e he value hvalue ?_
  rw [hvalue', ← asBytes_of_toStr hstr, ← asBytes_of_toStr hstr']

theorem published_quiet {r : Resource} {es : List Event} (h : ∀ d, .publish r d ∉ es) :
    published (es.map (Event.of r)) = [] := by
  rw [published_of, List.map_eq_nil_iff, List.filterMap_eq_nil_iff]
  intro e he
  cases e with
  | publish r' d =>
      rw [Event.page, if_neg]
      rintro rfl
      exact h d he
  | tick config keys now => rfl

section
variable {env : Environment ρ} {s : State ρ} {es before after : List Event} {config keys : Reply}
variable {now : ℚ} {respond : Node → HttpRequest → HttpResponse}

theorem run_configLink (hrespond : Honours respond) (h : Wired s) (es : List Event) :
    configLink (run (next respond env) s es) =
      run (ConditionalReplicas.next (makeRuntime env)) (configLink s) (es.map (Event.of .config)) := by
  have hinv : ∀ (s : State ρ) e, Wired s → Wired (next respond env s e) :=
    fun _ e hs => hs.next respond e
  exact (run_view hinv (fun _ e hs => next_configLink hrespond hs e) h es).trans List.foldl_map.symm

theorem run_keysLink (hrespond : Honours respond) (h : Wired s) (es : List Event) :
    keysLink (run (next respond env) s es) =
      run (ConditionalReplicas.next (makeKeys env)) (keysLink s) (es.map (Event.of .keys)) := by
  have hinv : ∀ (s : State ρ) e, Wired s → Wired (next respond env s e) :=
    fun _ e hs => hs.next respond e
  exact (run_view hinv (fun _ e hs => next_keysLink hrespond hs e) h es).trans List.foldl_map.symm

/-- A resource whose request got through, and which was not published since, is current. -/
theorem replica_converges {V : Type} {make : Bytes → Option V} {r : Resource}
    {link : State ρ → Link Bytes String V}
    (hrun : ∀ es, link (run (next respond env) s es) =
      run (ConditionalReplicas.next make) (link s) (es.map (Event.of r)))
    (hsource : (link s).source = seen (s.node.page r)) (htag : (link s).replica.tag = none)
    {e : Event} (he : e.of r = .fetch) (hpages : Identifying (pages r s.node (before ++ e :: after)))
    (hquiet : ∀ d, .publish r d ∉ after) {v : V}
    (hmake : make (link (run (next respond env) s (before ++ e :: after))).source.body = some v) :
    (link (run (next respond env) s (before ++ e :: after))).replica.value = v := by
  have hmap : (before ++ e :: after).map (Event.of r) =
      before.map (Event.of r) ++ .fetch :: after.map (Event.of r) := by
    rw [List.map_append, List.map_cons, he]
  have hdocs : Identifying ((link s).source :: published ((before ++ e :: after).map (Event.of r))) := by
    rw [published_of, hsource]
    exact identifying_seen hpages
  rw [hrun, hmap] at hmake ⊢
  rw [hmap] at hdocs
  exact run_converges (link s) htag hdocs (published_quiet hquiet) hmake

theorem config_converges (hrespond : Honours respond) (h : Wired s)
    (htag : s.world.client.configEtag = none)
    (hes : es = before ++ .tick .node keys now :: after)
    (hpages : Identifying (pages .config s.node es)) (hquiet : ∀ d, .publish .config d ∉ after)
    {bundle : Dto.GatewayConfig} {runtime : ρ}
    (hdecode : env.decodeConfig (run (next respond env) s es).node.config.body = .ok bundle)
    (hbuild : env.buildRuntime (applyConfig env.base bundle) = .ok runtime) :
    (run (next respond env) s es).world.runtime = runtime ∧
      (run (next respond env) s es).world.client.status.configVersion = some bundle.version := by
  subst hes
  have hmake : makeRuntime env (configLink (run (next respond env) s
      (before ++ .tick .node keys now :: after))).source.body = some (runtime, some bundle.version) := by
    change makeRuntime env (run (next respond env) s _).node.config.body = _
    rw [makeRuntime, hdecode]
    simp [Except.toOption, hbuild]
  exact Prod.mk.inj (replica_converges (run_configLink hrespond h) rfl htag rfl hpages hquiet hmake)

theorem keys_converge (hrespond : Honours respond) (h : Wired s)
    (htag : s.world.client.keysEtag = none)
    (hes : es = before ++ .tick config .node now :: after)
    (hpages : Identifying (pages .keys s.node es)) (hquiet : ∀ d, .publish .keys d ∉ after)
    {set : Dto.KeySet}
    (hdecode : env.decodeKeys (run (next respond env) s es).node.keys.body = .ok set) :
    (run (next respond env) s es).world.keys = KeyStore.new (toVirtualKeys set.keys) ∧
      (run (next respond env) s es).world.client.status.keysVersion = some set.version := by
  subst hes
  have hmake : makeKeys env (keysLink (run (next respond env) s
      (before ++ .tick config .node now :: after))).source.body =
        some (KeyStore.new (toVirtualKeys set.keys), some set.version) := by
    change makeKeys env (run (next respond env) s _).node.keys.body = _
    rw [makeKeys, hdecode]
    rfl
  exact Prod.mk.inj (replica_converges (run_keysLink hrespond h) rfl htag rfl hpages hquiet hmake)

end

section
variable {env : Environment ρ} {s : State ρ}

/-- A tick that reaches the node is good if its pages are. -/
theorem synced_of_node {respond : Node → HttpRequest → HttpResponse} (hrespond : Honours respond)
    (h : Wired s) {bundle : Dto.GatewayConfig} {runtime : ρ} {set : Dto.KeySet}
    (hconfig : env.decodeConfig s.node.config.body = .ok bundle)
    (hbuild : env.buildRuntime (applyConfig env.base bundle) = .ok runtime)
    (hkeys : env.decodeKeys s.node.keys.body = .ok set) (now : ℚ) :
    (next respond env s (.tick .node .node now)).world.client.status.state = .synced := by
  let t : Tick := ⟨s.answer respond .config .node, s.answer respond .keys .node, now⟩
  obtain ⟨v, hv⟩ : ∃ v, (pollConfig env s.world t.config).2 = .ok v := by
    rw [pollConfig]
    rcases (h.respond hrespond .config).fetch hconfig s.world.client env.statusText .config with
      hfetch | hfetch
    · rw [show t.config = .ok (respond s.node (s.world.client.request .config)) from rfl, hfetch]
      exact ⟨none, rfl⟩
    · rw [show t.config = .ok (respond s.node (s.world.client.request .config)) from rfl, hfetch]
      dsimp only
      rw [hbuild]
      exact ⟨some bundle.version, rfl⟩
  obtain ⟨v', hv'⟩ : ∃ v, (pollKeys env (pollConfig env s.world t.config).1 t.keys).2 = .ok v := by
    rw [pollKeys]
    rcases (h.respond hrespond .keys).fetch hkeys (pollConfig env s.world t.config).1.client
      env.statusText .keys with hfetch | hfetch
    · rw [show t.keys = .ok (respond s.node (s.world.client.request .keys)) from rfl, hfetch]
      exact ⟨none, rfl⟩
    · rw [show t.keys = .ok (respond s.node (s.world.client.request .keys)) from rfl, hfetch]
      exact ⟨some set.version, rfl⟩
  change (step env s.world t).client.status.state = .synced
  rw [(LinkHistory.tick_eq env s.world t).1, LinkHistory.record, LinkHistory.outcomeOf, hv, hv']
  rfl

end

/-- A client is started with the address and the token of the configuration. -/
theorem client_of_start {var : String → Option String} {http : Except String Unit} {cp : ControlPlane}
    {now : ℚ} {status : StatusHandle} {client : Client}
    (h : start var http cp now = (status, some client)) :
    ∃ endpoint tokenEnv, cp.mode = .api ∧ cp.endpoint = some endpoint ∧
      cp.tokenEnv = some tokenEnv ∧ client = Client.new endpoint ((var tokenEnv).getD "") status := by
  unfold start at h
  cases hmode : cp.mode with
  | file =>
      rw [hmode] at h
      cases h
  | api =>
      rw [hmode] at h
      cases hendpoint : cp.endpoint with
      | none =>
          rw [hendpoint] at h
          cases h
      | some endpoint =>
          rw [hendpoint] at h
          cases htoken : cp.tokenEnv with
          | none =>
              rw [htoken] at h
              cases h
          | some tokenEnv =>
              rw [htoken] at h
              dsimp only at h
              split_ifs at h
              · cases h
              · cases http with
                | error err => cases h
                | ok _ =>
                    cases h
                    exact ⟨endpoint, tokenEnv, rfl, rfl, rfl, rfl⟩

theorem peer_logIdentity (decodeIdentity : Bytes → Option Identity) (c : Client) (answer : Answer) :
    peer (logIdentity decodeIdentity c answer) = peer c ∧
      (logIdentity decodeIdentity c answer).configEtag = c.configEtag ∧
      (logIdentity decodeIdentity c answer).keysEtag = c.keysEtag := by
  unfold logIdentity
  split
  · exact ⟨rfl, rfl, rfl⟩
  · split_ifs
    · split
      · exact ⟨rfl, rfl, rfl⟩
      · exact ⟨rfl, rfl, rfl⟩
    · exact ⟨rfl, rfl, rfl⟩

/-- For every gateway that starts in api mode, every node that it is configured for and that
honours conditional requests, and every order of publications, ticks and outages: if no tag
of the node stands for two bodies, then after a request for a document that got through, and
until that document is published again, the gateway serves from the current document and
reports its version. The two documents do not wait for each other, a bundle that cannot be
built is not served, and a tick that reaches the node and finds both documents good is
reported as one. -/
theorem gateway_follows_the_node {respond : Node → HttpRequest → HttpResponse}
    (hrespond : Honours respond) (env : Environment ρ) {var : String → Option String}
    {http : Except String Unit} {cp : ControlPlane} {started : ℚ} {status : StatusHandle}
    {client : Client} (hstart : start var http cp started = (status, some client))
    (decodeIdentity : Bytes → Option Identity) (identity : Answer) (runtime : ρ) (store : KeyStore)
    {node : Node} (hendpoint : cp.endpoint = some node.endpoint)
    (htoken : ∀ tokenEnv ∈ cp.tokenEnv, var tokenEnv = some node.token) (es : List Event)
    (hpages : ∀ r, Identifying (pages r node es)) :
    let s := run (next respond env)
      ⟨node, logIdentity decodeIdentity client identity, runtime, store⟩ es
    (∀ before keys now after, es = before ++ .tick .node keys now :: after →
      (∀ d, .publish .config d ∉ after) → ∀ bundle rt,
      env.decodeConfig s.node.config.body = .ok bundle →
      env.buildRuntime (applyConfig env.base bundle) = .ok rt →
        s.world.runtime = rt ∧ s.world.client.status.configVersion = some bundle.version) ∧
    (∀ before config now after, es = before ++ .tick config .node now :: after →
      (∀ d, .publish .keys d ∉ after) → ∀ set, env.decodeKeys s.node.keys.body = .ok set →
        s.world.keys = KeyStore.new (toVirtualKeys set.keys) ∧
          s.world.client.status.keysVersion = some set.version) ∧
    ∀ before now, es = before ++ [.tick .node .node now] → ∀ bundle rt set,
      env.decodeConfig s.node.config.body = .ok bundle →
      env.buildRuntime (applyConfig env.base bundle) = .ok rt →
      env.decodeKeys s.node.keys.body = .ok set → s.world.client.status.state = .synced := by
  intro s
  obtain ⟨endpoint, tokenEnv, -, hsome, htokenEnv, hclient⟩ := client_of_start hstart
  obtain rfl := Option.some.inj (hendpoint.symm.trans hsome)
  rw [htoken tokenEnv htokenEnv] at hclient
  obtain ⟨hpeer, hconfigTag, hkeysTag⟩ := peer_logIdentity decodeIdentity client identity
  have hnew : peer client = node.peer ∧ client.configEtag = none ∧ client.keysEtag = none := by
    rw [hclient]
    exact ⟨rfl, rfl, rfl⟩
  rw [hnew.1] at hpeer
  rw [hnew.2.1] at hconfigTag
  rw [hnew.2.2] at hkeysTag
  have hwired : Wired ⟨node, logIdentity decodeIdentity client identity, runtime, store⟩ := by
    refine ⟨hpeer, ?_, ?_⟩
    · intro t ht
      rw [hconfigTag] at ht
      cases ht
    · intro t ht
      rw [hkeysTag] at ht
      cases ht
  refine ⟨?_, ?_, ?_⟩
  · intro before keys now after hes hquiet bundle rt hdecode hbuild
    exact config_converges hrespond hwired hconfigTag hes (hpages .config) hquiet hdecode hbuild
  · intro before config now after hes hquiet set hdecode
    exact keys_converge hrespond hwired hkeysTag hes (hpages .keys) hquiet hdecode
  · intro before now hes bundle rt set hconfig hbuild hkeys
    have hlast : s = next respond env (run (next respond env) ⟨node,
        logIdentity decodeIdentity client identity, runtime, store⟩ before)
        (.tick .node .node now) := by
      rw [show s = run (next respond env) _ es from rfl, hes, run_append]
      rfl
    rw [hlast] at hconfig hkeys ⊢
    exact synced_of_node hrespond (run_invariant (next respond env) Wired before
      (fun _ e _ hs => hs.next respond e) _ hwired) hconfig hbuild hkeys now

section Sample

/-- A node with two documents, which turns a stranger away. -/
def nodeRespond (n : Node) (q : HttpRequest) : HttpResponse :=
  let conditional (d : Page) : HttpResponse :=
    let headers := (d.tag.map (Prod.mk "etag")).toList
    if current d q.ifNoneMatch then ⟨304, headers, .ok []⟩ else ⟨200, headers, .ok d.body⟩
  if q.bearer ≠ n.token then ⟨401, [], .ok []⟩
  else if q.url = n.url .config then conditional n.config
  else if q.url = n.url .keys then conditional n.keys
  else ⟨404, [], .ok []⟩

theorem url_ne (n : Node) : n.url .config ≠ n.url .keys := by
  intro h
  rw [Node.url, Node.url, ← String.toList_inj, String.toList_append, String.toList_append,
    List.append_cancel_left_eq] at h
  exact absurd h (by decide)

theorem nodeRespond_honours : Honours nodeRespond := by
  have hpage (d : Page) (m : Option String) : Conditional d m
      (if current d m then ⟨304, (d.tag.map (Prod.mk "etag")).toList, .ok []⟩
        else ⟨200, (d.tag.map (Prod.mk "etag")).toList, .ok d.body⟩) := by
    constructor
    · intro h
      rw [if_pos h]
    · intro h
      rw [if_neg (by simp [h])]
      refine ⟨rfl, ?_, rfl⟩
      cases d.tag <;> rfl
  intro n q r htoken hurl
  unfold nodeRespond
  cases r with
  | config =>
      simp only [htoken, hurl, ne_eq, not_true_eq_false, if_false, if_true]
      exact hpage n.config q.ifNoneMatch
  | keys =>
      simp only [htoken, hurl, (url_ne n).symm, ne_eq, not_true_eq_false, if_false, if_true]
      exact hpage n.keys q.ifNoneMatch

def sampleNode : Node := ⟨"http://node/", "secret", ⟨[], some [0x31]⟩, ⟨[], none⟩⟩

def samplePlane : ControlPlane := { mode := .api, endpoint := "http://node/", tokenEnv := "TOKEN" }

def refused : Outage := ⟨.error "connection refused", fun _ h => by cases h⟩

/-- The node publishes a bundle that the gateway finds after an outage; the poll after
that is answered with 304. -/
def sampleRun : List Event :=
  [.tick .node .node 0, .publish .config ⟨emptyBundleText, some [0x32]⟩,
    .tick (.outage refused) .node 1, .tick .node .node 2, .tick .node .node 3]

theorem follows_after_outage :
    ∃ client, start (fun _ => some "secret") (.ok ()) samplePlane 0 =
        (StatusHandle.api "http://node/", some client) ∧
      let s := run (next nodeRespond plainEnvironment)
        ⟨sampleNode, logIdentity (fun _ => none) client (.error ""), {}, KeyStore.empty⟩ sampleRun
      s.world.runtime = applyConfig plainEnvironment.base emptyBundle ∧
        s.world.client.status.configVersion = some "v1" := by
  have hstart : start (fun _ => some "secret") (.ok ()) samplePlane 0 =
      (StatusHandle.api "http://node/",
        some (Client.new "http://node/" "secret" (StatusHandle.api "http://node/"))) := rfl
  have hendpoint : samplePlane.endpoint = some sampleNode.endpoint := rfl
  have hpages : ∀ r, Identifying (pages r sampleNode sampleRun) := by
    intro r d hd e he t hdt het
    cases r with
    | config =>
        have hpages : pages .config sampleNode sampleRun =
            [⟨[], some [0x31]⟩, ⟨emptyBundleText, some [0x32]⟩] := rfl
        rw [hpages] at hd he
        simp only [List.mem_cons, List.not_mem_nil, or_false] at hd he
        rcases hd with rfl | rfl <;> rcases he with rfl | rfl
        · rfl
        · cases hdt.trans het.symm
        · cases hdt.trans het.symm
        · rfl
    | keys =>
        have hpages : pages .keys sampleNode sampleRun = [⟨[], none⟩] := rfl
        rw [hpages, List.mem_singleton] at hd
        rw [hd] at hdt
        cases hdt
  refine ⟨_, hstart, ?_⟩
  refine (gateway_follows_the_node nodeRespond_honours plainEnvironment hstart (fun _ => none)
    (.error "") {} KeyStore.empty hendpoint (fun _ _ => rfl) sampleRun hpages).1
      (sampleRun.take 4) .node 3 [] rfl ?_
    emptyBundle _ ?_ rfl
  · intro d hd
    cases hd
  · have hdecode : plainEnvironment.decodeConfig emptyBundleText = .ok emptyBundle := by
      simp [plainEnvironment]
    exact hdecode

end Sample

end VaultplaneGateway.NodeConvergence
