import VaultplaneGateway.KeyLifecycle

/-!
# The audit trail

The admin API and the SIGHUP task change the keys and the runtime of a gateway, and each
change is written to the audit log after it was made. Another task may come in between: a
key can be revoked, and the revocation written, before its creation is. So the log cannot
be replayed in its order.

A reload is not one change but two: it swaps the certificates, and later stores the runtime.
Once it has swapped it can no longer fail.

The log can be read without an order. As long as no id is given out twice, the live ids are
those of the start and of the creations, without those of the successful revocations, and
without a successful reload the runtime and the certificates are still the first ones. Events
that a task has yet to write count as written; once every task is done, there are none.

A key set from the Control Node leaves no event, so this is about gateways without one.
-/
namespace VaultplaneGateway.AuditTrail
open WireFormats KeyRecords OfflineKeys TlsReload FailureAtomicity RuntimeBuilding TransitionRuns
open AdminApi hiding Event next
open KeyLifecycle hiding Event step

variable {κ V C K W S : Type}

/-- A connection to the admin API, or the SIGHUP task. -/
inductive Task where
  | admin (n : ℕ)
  | signal
  deriving DecidableEq, Repr

/-- What a task is at. A reload remembers who asked for it and what it is of, for its event. -/
inductive Doing (κ : Type) where
  | idle
  | prepared (config : ConfigOverlay.Config) (runtime : BuiltRuntime κ) (actor detail : String)
  | swapped (runtime : BuiltRuntime κ) (actor detail : String)
  | writing (events : List AuditEvent)

/-- The events that a task is bound to write. -/
def Doing.events : Doing κ → List AuditEvent
  | .idle => []
  | .prepared _ _ _ _ => []
  | .swapped _ actor detail => [.configReloaded actor .success detail]
  | .writing events => events

structure Trail (κ S : Type) where
  shared : Shared κ S
  doing : Task → Doing κ
  listening : Bool
  log : List AuditEvent

def Trail.start (s : Shared κ S) : Trail κ S := ⟨s, fun _ => .idle, true, []⟩

def Trail.pending (t : Trail κ S) (task : Task) : List AuditEvent := (t.doing task).events

/-- A task has done something to the shared state and goes on. -/
def Trail.put (t : Trail κ S) (task : Task) (s : Shared κ S) (doing : Doing κ) : Trail κ S :=
  { t with shared := s, doing := Function.update t.doing task doing }

/-- A reload has failed. A panic takes the request with it, or the SIGHUP task. -/
def Trail.fail (t : Trail κ S) (task : Task) (s : Shared κ S) (actor : String) :
    Failure → Trail κ S
  | .error text => t.put task s (.writing [.configReloaded actor .failure text])
  | .panic => { t.put task s .idle with listening := t.listening && task ≠ .signal }

def Trail.beginReload (t : Trail κ S) (task : Task) (actor detail : String) :
    Except Failure (ConfigOverlay.Config × BuiltRuntime κ) → Trail κ S
  | .ok (config, runtime) => t.put task t.shared (.prepared config runtime actor detail)
  | .error failure => t.fail task t.shared actor failure

/-- The next write of a reload. -/
def Trail.advance (t : Trail κ S) (task : Task) (tls : TlsHost C K W S) : Trail κ S :=
  match t.doing task with
  | .prepared config runtime actor detail =>
      let r := exec (swapCerts tls config) t.shared.process
      let s := { t.shared with process := r.2 }
      match r.1 with
      | .ok _ => t.put task s (.swapped runtime actor detail)
      | .error failure => t.fail task s actor failure
  | .swapped runtime actor detail =>
      t.put task { t.shared with process := { t.shared.process with runtime := runtime } }
        (.writing [.configReloaded actor .success detail])
  | _ => t

def Trail.write (t : Trail κ S) (task : Task) : Trail κ S :=
  match t.doing task with
  | .writing events =>
      { t with doing := Function.update t.doing task .idle, log := t.log ++ events }
  | _ => t

/-- The client goes away while its reload reads certificates. -/
def Trail.disconnect (t : Trail κ S) (n : ℕ) : Trail κ S :=
  match t.doing (.admin n) with
  | .prepared _ _ _ _ => t.put (.admin n) t.shared .idle
  | _ => t

/-- The file that a request asks to be reloaded. -/
def reloads (app : AppState) (r : AdminRequest) : Option String :=
  if authorized app r.headers && route r.path == some .reload && r.method == .post then
    app.configPath
  else none

/-- Other work of the process, such as that of the proxy, keeps the records of the store,
the runtime and the certificates. -/
inductive Event (κ V C K W S : Type) where
  | request (n : ℕ) (w : World κ V C K W S) (r : AdminRequest)
  | hangup (w : World κ V C K W S)
  | advance (task : Task) (tls : TlsHost C K W S)
  | write (task : Task)
  | disconnect (n : ℕ)
  | other (work : Shared κ S → Shared κ S)
      (records : ∀ s k, k ∈ (work s).process.keys.list ↔ k ∈ s.process.keys.list)
      (runtime : ∀ s, (work s).process.runtime = s.process.runtime)
      (rustls : ∀ s, (work s).process.rustls = s.process.rustls)

/-- A task takes up nothing new before it has written. The loop of `spawn_reload_signal`
reloads at a signal; a request is served at once, unless it asks for a reload. -/
def next (web : Web) (app : AppState) (t : Trail κ S) : Event κ V C K W S → Trail κ S
  | .request n w r =>
      match t.doing (.admin n), reloads app r with
      | .idle, some path => t.beginReload (.admin n) adminActor path
          (prepareReload w.figment w.host (some path))
      | .idle, none =>
          let h := serve web app t.shared w r
          t.put (.admin n) h.shared (.writing h.audit)
      | _, _ => t
  | .hangup w =>
      match t.listening, t.doing .signal with
      | true, .idle => t.beginReload .signal "sighup" (app.configPath.getD "defaults")
          (prepareReload w.figment w.host app.configPath)
      | _, _ => t
  | .advance task tls => t.advance task tls
  | .write task => t.write task
  | .disconnect n => t.disconnect n
  | .other work _ _ _ => { t with shared := work t.shared }

section
variable (t : Trail κ S) (task : Task) (s : Shared κ S) (doing : Doing κ)

@[simp] theorem doing_put_self : (t.put task s doing).doing task = doing :=
  Function.update_self ..

@[simp] theorem pending_put_self : (t.put task s doing).pending task = doing.events := by
  rw [Trail.pending, doing_put_self]

variable {task} {task' : Task}

theorem pending_put_ne (h : task' ≠ task) :
    (t.put task s doing).pending task' = t.pending task' := by
  have hdoing : (t.put task s doing).doing task' = t.doing task' := Function.update_of_ne h ..
  rw [Trail.pending, hdoing, Trail.pending]

end

/-- The event is in the log or about to be written. -/
def Trail.Recorded (t : Trail κ S) (e : AuditEvent) : Prop := e ∈ t.log ∨ ∃ task, e ∈ t.pending task

def Trail.created (t : Trail κ S) : Set String :=
  {id | ∃ actor team app env, t.Recorded (.keyCreated actor id team app env)}

def Trail.revoked (t : Trail κ S) : Set String :=
  {id | ∃ actor, t.Recorded (.keyRevoked actor id .success)}

def Trail.Reloaded (t : Trail κ S) : Prop :=
  ∃ actor detail, t.Recorded (.configReloaded actor .success detail)

/-- The ids in use. -/
def ids (keys : KeyStore) : Set String := {id | ∃ k ∈ keys.list, k.id = id}

theorem recorded_start (s : Shared κ S) (e : AuditEvent) : ¬ (Trail.start s).Recorded e := by
  rintro (hlog | ⟨task, htask⟩)
  · cases hlog
  · cases htask

/-- What a task was bound to write it still is. -/
theorem recorded_put {t : Trail κ S} {task : Task} {doing : Doing κ}
    (hkeep : ∀ e ∈ t.pending task, e ∈ doing.events) (s : Shared κ S) (e : AuditEvent) :
    (t.put task s doing).Recorded e ↔ e ∈ doing.events ∨ t.Recorded e := by
  constructor
  · rintro (hlog | ⟨task', htask⟩)
    · exact .inr (.inl hlog)
    · by_cases heq : task' = task
      · rw [heq, pending_put_self] at htask
        exact .inl htask
      · rw [pending_put_ne t s doing heq] at htask
        exact .inr (.inr ⟨task', htask⟩)
  · rintro (hnew | hlog | ⟨task', htask⟩)
    · exact .inr ⟨task, by rwa [pending_put_self]⟩
    · exact .inl hlog
    · by_cases heq : task' = task
      · rw [heq] at htask
        exact .inr ⟨task, by rw [pending_put_self]; exact hkeep e htask⟩
      · exact .inr ⟨task', by rwa [pending_put_ne t s doing heq]⟩

theorem recorded_write (t : Trail κ S) (task : Task) (e : AuditEvent) :
    (t.write task).Recorded e ↔ t.Recorded e := by
  cases hdoing : t.doing task with
  | writing events =>
      have hpending : t.pending task = events := congrArg Doing.events hdoing
      have hself : (t.write task).pending task = [] := by
        simp [Trail.pending, Trail.write, hdoing, Doing.events]
      have hothers : ∀ task' ≠ task, (t.write task).pending task' = t.pending task' := by
        intro task' hne
        simp [Trail.pending, Trail.write, hdoing, hne]
      have hlog : (t.write task).log = t.log ++ events := by rw [Trail.write, hdoing]
      constructor
      · rintro (h | ⟨task', h⟩)
        · rw [hlog] at h
          rcases List.mem_append.mp h with hold | hnew
          · exact .inl hold
          · exact .inr ⟨task, by rwa [hpending]⟩
        · by_cases heq : task' = task
          · rw [heq, hself] at h
            cases h
          · rw [hothers task' heq] at h
            exact .inr ⟨task', h⟩
      · rintro (h | ⟨task', h⟩)
        · exact .inl (by rw [hlog]; exact List.mem_append_left _ h)
        · by_cases heq : task' = task
          · rw [heq, hpending] at h
            exact .inl (by rw [hlog]; exact List.mem_append_right _ h)
          · exact .inr ⟨task', by rwa [hothers task' heq]⟩
  | _ => simp [Trail.write, hdoing]

/-- A reload through the admin API whose steps nothing interrupts does what the endpoint
does in one. -/
theorem reload_alone (web : Web) (app : AppState) (t : Trail κ S) {n : ℕ}
    (hidle : t.doing (.admin n) = .idle) (w : World κ V C K W S) {r : AdminRequest} {path : String}
    (hreloads : reloads app r = some path) :
    let u := run (next web app) t [.request n w r, .advance (.admin n) w.tls,
      .advance (.admin n) w.tls, .write (.admin n)]
    u.shared = (serve web app t.shared w r).shared ∧
      u.log = t.log ++ (serve web app t.shared w r).audit := by
  obtain ⟨hauth, hroute, hpost, hpath⟩ : authorized app r.headers = true ∧
      route r.path = some .reload ∧ r.method = .post ∧ app.configPath = some path := by
    simpa [reloads, and_assoc] using hreloads
  have hserve : serve web app t.shared w r = reloadConfig app t.shared w := by
    rw [serve_authorized web t.shared w hauth hroute, handle, if_pos hpost]
  rw [hserve, reloadConfig, hpath]
  simp only [exec_reload, exec_bind, exec_lift, run_cons, run_nil, next, hidle, hreloads]
  rcases prepareReload w.figment w.host (some path) with (text | _) | ⟨config, runtime⟩
  · simp [Trail.beginReload, Trail.fail, Trail.advance, Trail.write, Trail.put]
  · simp [Trail.beginReload, Trail.fail, Trail.advance, Trail.write, Trail.put]
  · simp only [Trail.beginReload, Trail.advance, doing_put_self]
    rcases hswap : exec (swapCerts w.tls config) t.shared.process with ⟨(text | _) | u, p⟩
    · simp [hswap, Trail.fail, Trail.write, Trail.put]
    · simp [hswap, Trail.fail, Trail.write, Trail.put]
    · simp [hswap, Trail.write, Trail.put]

/-- The event tells of a change. -/
def isChange : AuditEvent → Bool
  | .keyCreated _ _ _ _ _ => true
  | .keyRevoked _ _ outcome => outcome = .success
  | .configReloaded _ outcome _ => outcome = .success

/-- The keys a task may issue are given. -/
inductive Effect (Issues : VirtualKey → Prop) (s s' : Shared κ S) : List AuditEvent → Prop
  | issue (key : VirtualKey) (issues : Issues key)
      (keys : s'.process.keys = s.process.keys.insert key)
      (runtime : s'.process.runtime = s.process.runtime)
      (rustls : s'.process.rustls = s.process.rustls) :
      Effect Issues s s' [.keyCreated adminActor key.id key.team key.app key.env]
  | revoke (id : String) (found : id ∈ ids s.process.keys)
      (keys : s'.process.keys = (s.process.keys.removeById id).1)
      (runtime : s'.process.runtime = s.process.runtime)
      (rustls : s'.process.rustls = s.process.rustls) :
      Effect Issues s s' [.keyRevoked adminActor id .success]
  | reload (actor detail : String) (keys : s'.process.keys = s.process.keys) :
      Effect Issues s s' [.configReloaded actor .success detail]
  | nothing (events : List AuditEvent) (quiet : ∀ e ∈ events, isChange e = false)
      (records : ∀ k, k ∈ s'.process.keys.list ↔ k ∈ s.process.keys.list)
      (runtime : s'.process.runtime = s.process.runtime)
      (rustls : s'.process.rustls = s.process.rustls) : Effect Issues s s' events

theorem effect_same {Issues : VirtualKey → Prop} (s : Shared κ S) {events : List AuditEvent}
    (hquiet : ∀ e ∈ events, isChange e = false) : Effect Issues s s events :=
  .nothing events hquiet (fun _ => Iff.rfl) rfl rfl

theorem effect_createKey (web : Web) (s : Shared κ S) (entropy : Bytes) (headers : HeaderMap)
    (body : Bytes) :
    let h := AdminApi.createKey web s entropy headers body
    Effect (fun key => ∃ request, extractRequest web headers body = .ok request ∧
        key = OfflineKeys.createKey (generateKey web.toExternals entropy) request)
      s h.shared h.audit := by
  unfold AdminApi.createKey
  cases hrequest : extractRequest web headers body with
  | error rejection => exact effect_same s (by simp)
  | ok request => exact .issue _ ⟨request, rfl, rfl⟩ rfl rfl rfl

theorem effect_deleteKey {Issues : VirtualKey → Prop} (s : Shared κ S) (id : String) :
    Effect Issues s (deleteKey s id).shared (deleteKey s id).audit := by
  unfold deleteKey
  rcases s.process.keys.removeById_cases id with ⟨k, hk, hid, heq⟩ | ⟨heq, -⟩
  · rw [heq]
    refine .revoke id ⟨k, (KeyStore.mem_list_iff _ k).mpr hk, hid⟩ ?_ rfl rfl
    rw [heq]
  · rw [heq]
    exact effect_same s (by simp [AuditEvent.revoked, isChange])

theorem Effect.imp {Issues Issues' : VirtualKey → Prop} {s s' : Shared κ S}
    {events : List AuditEvent} (h : Effect Issues s s' events)
    (himp : ∀ key, Issues key → Issues' key) : Effect Issues' s s' events := by
  cases h with
  | issue key issues keys runtime rustls => exact .issue key (himp key issues) keys runtime rustls
  | revoke id found keys runtime rustls => exact .revoke id found keys runtime rustls
  | reload actor detail keys => exact .reload actor detail keys
  | nothing _ quiet records runtime rustls => exact .nothing events quiet records runtime rustls

/-- A request that does not reload does what its event tells, and without an event nothing. -/
theorem effect_serve (web : Web) (app : AppState) (s : Shared κ S) (w : World κ V C K W S)
    {r : AdminRequest} (hreloads : reloads app r = none) :
    Effect (fun key => change web app w.entropy r = some (.issue key)) s
      (serve web app s w r).shared (serve web app s w r).audit := by
  cases hauth : authorized app r.headers with
  | false =>
      rw [serve_outsider web s w hauth]
      exact effect_same s (by simp [unchanged])
  | true =>
      cases hroute : route r.path with
      | none =>
          rw [serve, hroute]
          exact effect_same s (by simp [unchanged])
      | some endpoint =>
          rw [serve_authorized web s w hauth hroute]
          cases endpoint with
          | keys =>
              rw [handle]
              split_ifs with hpost
              · refine (effect_createKey web s w.entropy r.headers r.body).imp ?_
                rintro key ⟨request, hrequest, rfl⟩
                simp [change, hauth, hroute, hpost, hrequest]
              · exact effect_same s (by simp [handle.read, unchanged])
          | key raw =>
              rw [handle]
              split_ifs
              · cases pathParam raw with
                | none => exact effect_same s (by simp [unchanged])
                | some id => exact effect_deleteKey s id
              · exact effect_same s (by simp [unchanged])
          | reload =>
              rw [handle]
              split_ifs with hpost
              · have hpath : app.configPath = none := by
                  simpa [reloads, hauth, hroute, hpost] using hreloads
                rw [reloadConfig, hpath]
                exact effect_same s (by simp)
              · exact effect_same s (by simp [unchanged])
          | healthz => exact effect_same s (by simp [handle, handle.read, unchanged])
          | readyz => exact effect_same s (by simp [handle, handle.read, unchanged])
          | status => exact effect_same s (by simp [handle, handle.read, unchanged])
          | metrics => exact effect_same s (by simp [handle, handle.read, unchanged])
          | keySpend raw => exact effect_same s (by simp [handle, handle.read, unchanged])
          | models => exact effect_same s (by simp [handle, handle.read, unchanged])

/-- A trail becomes another one: what was done is recorded from then on. -/
def Leads (Issues : VirtualKey → Prop) (t t' : Trail κ S) : Prop :=
  ∃ events, Effect Issues t.shared t'.shared events ∧
    ∀ x, t'.Recorded x ↔ x ∈ events ∨ t.Recorded x

section
variable {Issues : VirtualKey → Prop} {t t' : Trail κ S} {task : Task}

theorem leads_quiet (hshared : t'.shared = t.shared)
    (hrecorded : ∀ x, t'.Recorded x ↔ t.Recorded x) : Leads Issues t t' := by
  refine ⟨[], ?_, fun x => ?_⟩
  · rw [hshared]
    exact effect_same t.shared (by simp)
  · rw [hrecorded]
    simp

theorem leads_refl (t : Trail κ S) : Leads Issues t t := leads_quiet rfl fun _ => Iff.rfl

theorem leads_put {s : Shared κ S} {doing : Doing κ}
    (hkeep : ∀ e ∈ t.pending task, e ∈ doing.events) (h : Effect Issues t.shared s doing.events) :
    Leads Issues t (t.put task s doing) :=
  ⟨doing.events, h, recorded_put hkeep s⟩

theorem leads_fail (hidle : t.pending task = []) {s : Shared κ S} (hs : s = t.shared)
    (actor : String) (failure : Failure) : Leads Issues t (t.fail task s actor failure) := by
  have hkeep : ∀ doing : Doing κ, ∀ e ∈ t.pending task, e ∈ doing.events := by
    intro doing e he
    rw [hidle] at he
    cases he
  subst hs
  cases failure with
  | error text => exact leads_put (hkeep _) (effect_same t.shared (by simp [Doing.events, isChange]))
  | panic =>
      refine leads_quiet rfl fun x => ?_
      exact (recorded_put (hkeep .idle) t.shared x).trans (by simp [Doing.events])

theorem leads_beginReload (hidle : t.pending task = []) (actor detail : String)
    (prepared : Except Failure (ConfigOverlay.Config × BuiltRuntime κ)) :
    Leads Issues t (t.beginReload task actor detail prepared) := by
  rcases prepared with failure | ⟨config, runtime⟩
  · exact leads_fail hidle rfl actor failure
  · apply leads_put
    · intro e he
      rw [hidle] at he
      cases he
    · exact effect_same t.shared (by simp [Doing.events])

end

theorem swapCerts_failsClean {tls : TlsHost C K W S} (hswap : tls.SwapsOnSuccess)
    (config : ConfigOverlay.Config) : FailsClean (swapCerts (κ := κ) tls config) := by
  refine readsOnly_get.bind_failsClean fun p => ?_
  split
  · exact reloadCerts_failsClean hswap _
  · exact (readsOnly_pure _).failsClean

/-- A swap that fails changes nothing; after one that succeeds the reload is bound to. -/
theorem leads_advance {Issues : VirtualKey → Prop} (t : Trail κ S) (task : Task)
    {tls : TlsHost C K W S} (hswap : tls.SwapsOnSuccess) :
    Leads Issues t (t.advance task tls) := by
  unfold Trail.advance
  cases hdoing : t.doing task with
  | idle => exact leads_refl t
  | writing events => exact leads_refl t
  | prepared config runtime actor detail =>
      have hidle : t.pending task = [] := congrArg Doing.events hdoing
      have hkeys : (exec (swapCerts tls config) t.shared.process).2.keys =
          t.shared.process.keys := swapCerts_keepsKeys tls config t.shared.process
      dsimp only
      rcases hr : exec (swapCerts tls config) t.shared.process with ⟨failure | u, p⟩
      · apply leads_fail hidle
        rw [swapCerts_failsClean hswap config t.shared.process failure p hr]
      · rw [hr] at hkeys
        apply leads_put
        · intro e he
          rw [hidle] at he
          cases he
        · exact .reload actor detail hkeys
  | swapped runtime actor detail =>
      have hbound : t.pending task = [.configReloaded actor .success detail] :=
        congrArg Doing.events hdoing
      apply leads_put
      · intro e he
        rwa [hbound] at he
      · exact .reload actor detail rfl

/-- The key that an event issues. -/
def Issues (web : Web) (app : AppState) (key : VirtualKey) : Event κ V C K W S → Prop
  | .request _ w r => change web app w.entropy r = some (.issue key)
  | _ => False

/-- The certificate handle keeps the live material if it cannot load the files. -/
def Swaps : Event κ V C K W S → Prop
  | .advance _ tls => tls.SwapsOnSuccess
  | _ => True

/-- Whatever happens, what has to be written about it is recorded from then on. -/
theorem next_leads (web : Web) (app : AppState) (t : Trail κ S) {e : Event κ V C K W S}
    (hswap : Swaps e) : Leads (fun key => Issues web app key e) t (next web app t e) := by
  cases e with
  | request n w r =>
      rw [next]
      cases hdoing : t.doing (.admin n) with
      | idle =>
          have hidle : t.pending (.admin n) = [] := congrArg Doing.events hdoing
          cases hreloads : reloads app r with
          | some path => exact leads_beginReload hidle adminActor path _
          | none =>
              apply leads_put
              · intro e he
                rw [hidle] at he
                cases he
              · exact effect_serve web app t.shared w hreloads
      | _ => exact leads_refl t
  | hangup w =>
      rw [next]
      cases t.listening with
      | false => exact leads_refl t
      | true =>
          cases hdoing : t.doing .signal with
          | idle => exact leads_beginReload (congrArg Doing.events hdoing) "sighup" _ _
          | _ => exact leads_refl t
  | advance task tls => exact leads_advance t task hswap
  | write task => exact leads_quiet (by rw [next, Trail.write]; split <;> rfl) (recorded_write t task)
  | disconnect n =>
      rw [next, Trail.disconnect]
      cases hdoing : t.doing (.admin n) with
      | prepared config runtime actor detail =>
          have hidle : t.pending (.admin n) = [] := congrArg Doing.events hdoing
          apply leads_put
          · intro e he
            rw [hidle] at he
            cases he
          · exact effect_same t.shared (by simp [Doing.events])
      | _ => exact leads_refl t
  | other work records runtime rustls =>
      refine ⟨[], .nothing [] (by simp) (records t.shared) (runtime t.shared) (rustls t.shared), ?_⟩
      intro x
      simp [next, Trail.Recorded, Trail.pending]

def createdIn (events : List AuditEvent) : Set String :=
  {id | ∃ actor team app env, .keyCreated actor id team app env ∈ events}

def revokedIn (events : List AuditEvent) : Set String :=
  {id | ∃ actor, .keyRevoked actor id .success ∈ events}

section
variable {t t' : Trail κ S} {events : List AuditEvent}

theorem created_of_recorded (h : ∀ x, t'.Recorded x ↔ x ∈ events ∨ t.Recorded x) :
    t'.created = createdIn events ∪ t.created := by
  ext id
  simp only [Trail.created, createdIn, h, exists_or, Set.mem_union, Set.mem_ofPred_eq]

theorem revoked_of_recorded (h : ∀ x, t'.Recorded x ↔ x ∈ events ∨ t.Recorded x) :
    t'.revoked = revokedIn events ∪ t.revoked := by
  ext id
  simp only [Trail.revoked, revokedIn, h, exists_or, Set.mem_union, Set.mem_ofPred_eq]

theorem createdIn_quiet (h : ∀ e ∈ events, isChange e = false) : createdIn events = ∅ := by
  ext id
  simp only [createdIn, Set.mem_ofPred_eq, Set.mem_empty_iff_false, iff_false]
  rintro ⟨actor, team, app, env, hmem⟩
  cases h _ hmem

theorem revokedIn_quiet (h : ∀ e ∈ events, isChange e = false) : revokedIn events = ∅ := by
  ext id
  simp only [revokedIn, Set.mem_ofPred_eq, Set.mem_empty_iff_false, iff_false]
  rintro ⟨actor, hmem⟩
  cases h _ hmem

end

/-- A key with a hash of its own takes no other one's place. -/
theorem mem_list_insert {keys : KeyStore} {key : VirtualKey}
    (hhash : ∀ k ∈ keys.list, k.hash ≠ key.hash) (k : VirtualKey) :
    k ∈ (keys.insert key).list ↔ k ∈ keys.list ∨ k = key := by
  have hrecords : Records (keys.insert key) (Ledger.issue keys.list key) :=
    Records.insert (fun k => Iff.rfl) key
  rw [hrecords k, Ledger.mem_issue]
  constructor
  · rintro (⟨hk, -⟩ | rfl)
    · exact .inl hk
    · exact .inr rfl
  · rintro (hk | rfl)
    · exact .inl ⟨hk, hhash k hk⟩
    · exact .inr rfl

theorem mem_list_removeById {keys : KeyStore} (hunique : Ledger.UniqueIds keys.list) (id : String)
    (k : VirtualKey) : k ∈ (keys.removeById id).1.list ↔ k ∈ keys.list ∧ k.id ≠ id := by
  have hrecords : Records (keys.removeById id).1 (Ledger.revoke keys.list id) :=
    Records.removeById (fun k => Iff.rfl) hunique id
  rw [hrecords k, Ledger.mem_revoke]

theorem ids_insert {keys : KeyStore} {key : VirtualKey}
    (hhash : ∀ k ∈ keys.list, k.hash ≠ key.hash) :
    ids (keys.insert key) = insert key.id (ids keys) := by
  ext id
  simp only [ids, Set.mem_ofPred_eq, Set.mem_insert_iff, mem_list_insert hhash]
  constructor
  · rintro ⟨k, hk | rfl, rfl⟩
    · exact .inr ⟨k, hk, rfl⟩
    · exact .inl rfl
  · rintro (rfl | ⟨k, hk, rfl⟩)
    · exact ⟨key, .inr rfl, rfl⟩
    · exact ⟨k, .inl hk, rfl⟩

theorem ids_removeById {keys : KeyStore} (hunique : Ledger.UniqueIds keys.list) (id : String) :
    ids (keys.removeById id).1 = ids keys \ {id} := by
  ext id'
  simp only [ids, Set.mem_ofPred_eq, Set.mem_sdiff, Set.mem_singleton_iff,
    mem_list_removeById hunique]
  constructor
  · rintro ⟨k, ⟨hk, hne⟩, rfl⟩
    exact ⟨⟨k, hk, rfl⟩, hne⟩
  · rintro ⟨⟨k, hk, rfl⟩, hne⟩
    exact ⟨k, ⟨hk, hne⟩, rfl⟩

/-- No id is given out twice, and the hash of a new key is that of no other key. -/
structure Fair (web : Web) (app : AppState) (s : Shared κ S) (t : Trail κ S)
    (e : Event κ V C K W S) : Prop where
  swaps : Swaps e
  newId : ∀ key, Issues web app key e → key.id ∉ ids s.process.keys ∪ t.created
  newHash : ∀ key, Issues web app key e → ∀ k ∈ t.shared.process.keys.list, k.hash ≠ key.hash

/-- What the log tells about a gateway that was started in the state `s`. -/
structure Accounted (s : Shared κ S) (t : Trail κ S) : Prop where
  unique : Ledger.UniqueIds t.shared.process.keys.list
  live : ids t.shared.process.keys = (ids s.process.keys ∪ t.created) \ t.revoked
  revoked : t.revoked ⊆ ids s.process.keys ∪ t.created
  records : ∀ k ∈ t.shared.process.keys.list, k ∈ s.process.keys.list ∨
    t.Recorded (.keyCreated adminActor k.id k.team k.app k.env)
  runtime : ¬ t.Reloaded → t.shared.process.runtime = s.process.runtime
  rustls : ¬ t.Reloaded → t.shared.process.rustls = s.process.rustls

theorem accounted_start {s : Shared κ S} (hs : Ledger.UniqueIds s.process.keys.list) :
    Accounted s (.start s) where
  unique := hs
  live := by
    have hcreated : (Trail.start s).created = ∅ := by
      ext id
      simp [Trail.created, recorded_start]
    have hrevoked : (Trail.start s).revoked = ∅ := by
      ext id
      simp [Trail.revoked, recorded_start]
    rw [hcreated, hrevoked, Set.union_empty, Set.sdiff_empty]
    rfl
  revoked := by
    rintro id ⟨actor, hrecorded⟩
    exact (recorded_start s _ hrecorded).elim
  records k hk := .inl hk
  runtime _ := rfl
  rustls _ := rfl

section
variable {s : Shared κ S} {t t' : Trail κ S} {events : List AuditEvent}

theorem Accounted.still (h : Accounted s t)
    (hrecorded : ∀ x, t'.Recorded x ↔ x ∈ events ∨ t.Recorded x) {k : VirtualKey}
    (hk : k ∈ t.shared.process.keys.list) :
    k ∈ s.process.keys.list ∨
      t'.Recorded (.keyCreated adminActor k.id k.team k.app k.env) :=
  (h.records k hk).imp_right fun hold => (hrecorded _).mpr (.inr hold)

theorem not_reloaded_before (hrecorded : ∀ x, t'.Recorded x ↔ x ∈ events ∨ t.Recorded x)
    (h : ¬ t'.Reloaded) : ¬ t.Reloaded := by
  rintro ⟨actor, detail, hold⟩
  exact h ⟨actor, detail, (hrecorded _).mpr (.inr hold)⟩

theorem Accounted.issue (h : Accounted s t) {key : VirtualKey}
    (hrecorded : ∀ x, t'.Recorded x ↔
      x ∈ [.keyCreated adminActor key.id key.team key.app key.env] ∨ t.Recorded x)
    (hid : key.id ∉ ids s.process.keys ∪ t.created)
    (hhash : ∀ k ∈ t.shared.process.keys.list, k.hash ≠ key.hash)
    (hkeys : t'.shared.process.keys = t.shared.process.keys.insert key)
    (hruntime : t'.shared.process.runtime = t.shared.process.runtime)
    (hrustls : t'.shared.process.rustls = t.shared.process.rustls) : Accounted s t' := by
  have hcreated : t'.created = insert key.id t.created := by
    have hone : createdIn [.keyCreated adminActor key.id key.team key.app key.env] = {key.id} := by
      ext id
      simp [createdIn]
    rw [created_of_recorded hrecorded, hone, Set.singleton_union]
  have hrevoked : t'.revoked = t.revoked := by
    have hnone : revokedIn [.keyCreated adminActor key.id key.team key.app key.env] = ∅ := by
      ext id
      simp [revokedIn]
    rw [revoked_of_recorded hrecorded, hnone, Set.empty_union]
  have hunrevoked : key.id ∉ t.revoked := fun hr => hid (h.revoked hr)
  have hfresh : ∀ k ∈ t.shared.process.keys.list, k.id ≠ key.id := by
    intro k hk heq
    have hlive : key.id ∈ ids t.shared.process.keys := ⟨k, hk, heq⟩
    rw [h.live] at hlive
    exact hid hlive.1
  constructor
  · intro k hk k' hk' heq
    rw [hkeys, mem_list_insert hhash] at hk hk'
    rcases hk with hk | rfl
    · rcases hk' with hk' | rfl
      · exact h.unique k hk k' hk' heq
      · exact (hfresh k hk heq).elim
    · rcases hk' with hk' | rfl
      · exact (hfresh k' hk' heq.symm).elim
      · rfl
  · rw [hkeys, ids_insert hhash, h.live, hcreated, hrevoked, Set.union_insert,
      Set.insert_sdiff_of_notMem _ hunrevoked]
  · rw [hrevoked, hcreated, Set.union_insert]
    exact h.revoked.trans (Set.subset_insert _ _)
  · intro k hk
    rw [hkeys, mem_list_insert hhash] at hk
    rcases hk with hk | rfl
    · exact h.still hrecorded hk
    · exact .inr ((hrecorded _).mpr (.inl List.mem_cons_self))
  · intro hnone
    rw [hruntime, h.runtime (not_reloaded_before hrecorded hnone)]
  · intro hnone
    rw [hrustls, h.rustls (not_reloaded_before hrecorded hnone)]

theorem Accounted.revoke (h : Accounted s t) {id : String}
    (hrecorded : ∀ x, t'.Recorded x ↔ x ∈ [.keyRevoked adminActor id .success] ∨ t.Recorded x)
    (hfound : id ∈ ids t.shared.process.keys)
    (hkeys : t'.shared.process.keys = (t.shared.process.keys.removeById id).1)
    (hruntime : t'.shared.process.runtime = t.shared.process.runtime)
    (hrustls : t'.shared.process.rustls = t.shared.process.rustls) : Accounted s t' := by
  have hcreated : t'.created = t.created := by
    have hnone : createdIn [.keyRevoked adminActor id .success] = ∅ := by
      ext id'
      simp [createdIn]
    rw [created_of_recorded hrecorded, hnone, Set.empty_union]
  have hrevoked : t'.revoked = insert id t.revoked := by
    have hone : revokedIn [.keyRevoked adminActor id .success] = {id} := by
      ext id'
      simp [revokedIn]
    rw [revoked_of_recorded hrecorded, hone, Set.singleton_union]
  constructor
  · intro k hk k' hk'
    rw [hkeys, mem_list_removeById h.unique] at hk hk'
    exact h.unique k hk.1 k' hk'.1
  · rw [hkeys, ids_removeById h.unique, h.live, hcreated, hrevoked, Set.sdiff_sdiff,
      Set.union_singleton]
  · rw [hrevoked, hcreated]
    rw [h.live] at hfound
    exact Set.insert_subset hfound.1 h.revoked
  · intro k hk
    rw [hkeys, mem_list_removeById h.unique] at hk
    exact h.still hrecorded hk.1
  · intro hnone
    rw [hruntime, h.runtime (not_reloaded_before hrecorded hnone)]
  · intro hnone
    rw [hrustls, h.rustls (not_reloaded_before hrecorded hnone)]

/-- Without a creation or a revocation the ids and the records stay. -/
theorem Accounted.others (h : Accounted s t)
    (hrecorded : ∀ x, t'.Recorded x ↔ x ∈ events ∨ t.Recorded x)
    (hnoneCreated : createdIn events = ∅) (hnoneRevoked : revokedIn events = ∅)
    (hkeys : ∀ k, k ∈ t'.shared.process.keys.list ↔ k ∈ t.shared.process.keys.list)
    (hruntime : ¬ t'.Reloaded → t'.shared.process.runtime = t.shared.process.runtime)
    (hrustls : ¬ t'.Reloaded → t'.shared.process.rustls = t.shared.process.rustls) :
    Accounted s t' := by
  have hcreated : t'.created = t.created := by
    rw [created_of_recorded hrecorded, hnoneCreated, Set.empty_union]
  have hrevoked : t'.revoked = t.revoked := by
    rw [revoked_of_recorded hrecorded, hnoneRevoked, Set.empty_union]
  have hids : ids t'.shared.process.keys = ids t.shared.process.keys := by
    ext id
    simp only [ids, Set.mem_ofPred_eq, hkeys]
  constructor
  · intro k hk k' hk'
    exact h.unique k ((hkeys k).mp hk) k' ((hkeys k').mp hk')
  · rw [hids, h.live, hcreated, hrevoked]
  · rw [hrevoked, hcreated]
    exact h.revoked
  · intro k hk
    exact h.still hrecorded ((hkeys k).mp hk)
  · intro hnone
    rw [hruntime hnone, h.runtime (not_reloaded_before hrecorded hnone)]
  · intro hnone
    rw [hrustls hnone, h.rustls (not_reloaded_before hrecorded hnone)]

end

theorem accounted_next {web : Web} {app : AppState} {s : Shared κ S} {t : Trail κ S}
    {e : Event κ V C K W S} (h : Accounted s t) (hfair : Fair web app s t e) :
    Accounted s (next web app t e) := by
  obtain ⟨events, heffect, hrecorded⟩ := next_leads web app t hfair.swaps
  cases heffect with
  | issue key issues keys runtime rustls =>
      exact h.issue hrecorded (hfair.newId key issues) (hfair.newHash key issues) keys runtime rustls
  | revoke id found keys runtime rustls => exact h.revoke hrecorded found keys runtime rustls
  | reload actor detail keys =>
      have hreloaded : (next web app t e).Reloaded :=
        ⟨actor, detail, (hrecorded _).mpr (.inl List.mem_cons_self)⟩
      refine h.others hrecorded ?_ ?_ ?_ (absurd hreloaded) (absurd hreloaded)
      · ext id
        simp [createdIn]
      · ext id
        simp [revokedIn]
      · intro k
        rw [keys]
  | nothing _ quiet records runtime rustls =>
      exact h.others hrecorded (createdIn_quiet quiet) (revokedIn_quiet quiet) records
        (fun _ => runtime) (fun _ => rustls)

/-- Take any order of admin requests, SIGHUPs and other work, with the writing of the log
somewhere behind each of them. The live ids are those of the start and of the recorded
creations, without those of the recorded revocations, in whatever order they stand; every
record of the store is an old one or has its creation recorded; and unless a successful
reload is recorded, the runtime and the certificates are those of the start. Once every
task has written, all this can be read in the log. -/
theorem audit_log_accounts_for_every_change (web : Web) (app : AppState) (s : Shared κ S)
    (hs : Ledger.UniqueIds s.process.keys.list) (es : List (Event κ V C K W S))
    (hfair : Along (next web app) (Fair web app s) (.start s) es) :
    let t := run (next web app) (.start s) es
    ids t.shared.process.keys = (ids s.process.keys ∪ t.created) \ t.revoked ∧
      (∀ k ∈ t.shared.process.keys.list, k ∈ s.process.keys.list ∨
        t.Recorded (.keyCreated adminActor k.id k.team k.app k.env)) ∧
      (¬ t.Reloaded → t.shared.process.runtime = s.process.runtime ∧
        t.shared.process.rustls = s.process.rustls) ∧
      ((∀ task, t.pending task = []) → ∀ e, t.Recorded e ↔ e ∈ t.log) := by
  intro t
  have h : Accounted s t :=
    run_along (fun _ _ ht hf => accounted_next ht hf) (accounted_start hs) hfair
  refine ⟨h.live, h.records, fun hnone => ⟨h.runtime hnone, h.rustls hnone⟩, ?_⟩
  intro hdone e
  constructor
  · rintro (hlog | ⟨task, htask⟩)
    · exact hlog
    · rw [hdone task] at htask
      cases htask
  · exact Or.inl

section Sample

/-- A key is revoked, and the revocation written, before its creation is. -/
def revokedUnwritten : List (Event Unit Unit UInt8 UInt8 (List UInt8) (List UInt8)) :=
  [.request 0 (sampleWorld sevens) issueRequest,
    .request 1 (sampleWorld []) (revokeRequest issued.id), .write (.admin 1), .write (.admin 0)]

theorem creation_written_last :
    let t := run (next sampleWeb sampleApp) (.start sampleShared) revokedUnwritten
    t.log = [.keyRevoked adminActor issued.id .success,
        .keyCreated adminActor issued.id "" "" ""] ∧
      issued.id ∈ t.created ∧ issued.id ∉ ids t.shared.process.keys := by
  intro t
  have hlog : t.log = [.keyRevoked adminActor issued.id .success,
      .keyCreated adminActor issued.id "" "" ""] := by
    decide +kernel
  have hempty : ∀ k, k ∉ sampleShared.process.keys.list := fun k hk => by cases hk
  have hnew : ∀ key : VirtualKey,
      key.id ∉ ids sampleShared.process.keys ∪ (Trail.start sampleShared).created := by
    rintro key (⟨k, hk, -⟩ | ⟨actor, team, app, env, hrecorded⟩)
    · exact hempty k hk
    · exact recorded_start _ _ hrecorded
  have hfair : Along (next sampleWeb sampleApp) (Fair sampleWeb sampleApp sampleShared)
      (.start sampleShared) revokedUnwritten := by
    refine ⟨⟨trivial, fun key _ => hnew key, ?_⟩, ⟨trivial, ?_, ?_⟩, ⟨trivial, ?_, ?_⟩,
      ⟨trivial, ?_, ?_⟩, trivial⟩
    · intro key _ k hk
      exact (hempty k hk).elim
    · intro key hissues
      cases revokeRequest_revokes.symm.trans hissues
    · intro key hissues
      cases revokeRequest_revokes.symm.trans hissues
    all_goals
      intro key hissues
      cases hissues
  have hlive := (audit_log_accounts_for_every_change sampleWeb sampleApp sampleShared
    (fun k hk => (hempty k hk).elim) revokedUnwritten hfair).1
  refine ⟨hlog, ⟨adminActor, "", "", "", .inl ?_⟩, ?_⟩
  · rw [hlog]
    exact List.mem_cons_of_mem _ List.mem_cons_self
  · intro hid
    rw [hlive] at hid
    refine hid.2 ⟨adminActor, .inl ?_⟩
    rw [hlog]
    exact List.mem_cons_self

end Sample

end VaultplaneGateway.AuditTrail
