import VaultplaneGateway.AdminApi
import VaultplaneGateway.KeyMinting

/-!
# The life of a key

A ledger says which keys are live: an issued key is added, a revoked id is struck, and a
key set from the Control Node takes the place of everything. It knows nothing of hashes
as indices or of the order of a map.

The admin API keeps such a ledger. Whatever requests come in and whatever else the process
does to the store in between, the records of the store are those of the ledger, so that a
token authenticates exactly if the ledger has a key with its hash, and the listing, the
answer to a revocation and the spend report agree with it. Ids have to be distinct, since
a revocation strikes only one record of an id. What the proxy makes of a key, its expiry
and its limits, or of a store without keys, is not the concern of the store.
-/
namespace VaultplaneGateway.KeyLifecycle
open WireFormats KeyRecords OfflineKeys TlsReload FailureAtomicity AdminApi KeyMinting TransitionRuns

variable {κ V C K W S : Type}

abbrev Ledger := List VirtualKey

namespace Ledger

/-- A key takes the place of one with the same hash. -/
def issue (l : Ledger) (key : VirtualKey) : Ledger := l.filter (fun k => k.hash ≠ key.hash) ++ [key]

def revoke (l : Ledger) (id : String) : Ledger := l.filter fun k => k.id ≠ id

def install (keys : List VirtualKey) : Ledger := keys.foldl issue []

/-- No two keys share an id. -/
def UniqueIds (l : Ledger) : Prop := ∀ k ∈ l, ∀ k' ∈ l, k.id = k'.id → k = k'

theorem mem_issue {l : Ledger} {key k : VirtualKey} :
    k ∈ l.issue key ↔ (k ∈ l ∧ k.hash ≠ key.hash) ∨ k = key := by
  simp [issue]

theorem mem_revoke {l : Ledger} {id : String} {k : VirtualKey} :
    k ∈ l.revoke id ↔ k ∈ l ∧ k.id ≠ id := by
  simp [revoke]

theorem nodup_issue {l : Ledger} (h : l.Nodup) (key : VirtualKey) : (l.issue key).Nodup := by
  rw [issue, List.nodup_append]
  refine ⟨h.filter _, List.nodup_singleton key, ?_⟩
  rintro k hk k' hk' rfl
  obtain rfl := List.mem_singleton.mp hk'
  simp at hk

theorem nodup_install (keys : List VirtualKey) : (install keys).Nodup := by
  suffices ∀ l : Ledger, l.Nodup → (keys.foldl issue l).Nodup from this [] List.nodup_nil
  induction keys with
  | nil => exact fun l h => h
  | cons key keys ih => exact fun l h => ih _ (nodup_issue h key)

theorem UniqueIds.issue {l : Ledger} (h : l.UniqueIds) {key : VirtualKey}
    (hfresh : ∀ k ∈ l, k.id ≠ key.id) : (l.issue key).UniqueIds := by
  intro k hk k' hk' hid
  rcases mem_issue.mp hk with ⟨hmem, -⟩ | rfl
  · rcases mem_issue.mp hk' with ⟨hmem', -⟩ | rfl
    · exact h k hmem k' hmem' hid
    · exact (hfresh k hmem hid).elim
  · rcases mem_issue.mp hk' with ⟨hmem', -⟩ | rfl
    · exact (hfresh k' hmem' hid.symm).elim
    · rfl

theorem UniqueIds.revoke {l : Ledger} (h : l.UniqueIds) (id : String) :
    (l.revoke id).UniqueIds := by
  intro k hk k' hk'
  exact h k (mem_revoke.mp hk).1 k' (mem_revoke.mp hk').1

end Ledger

/-- The store holds the keys of the ledger. -/
def Records (s : KeyStore) (l : Ledger) : Prop := ∀ k, k ∈ s.list ↔ k ∈ l

theorem nodup_list (s : KeyStore) : s.list.Nodup := by
  have hkeys : (s.byHash.entries.map Sigma.fst).Nodup := s.byHash.nodupKeys
  have hhash : s.list.map VirtualKey.hash = s.byHash.entries.map Sigma.fst := by
    rw [KeyStore.list, List.map_map]
    refine List.map_congr_left fun e he => ?_
    exact s.keyed e.1 e.2 (AList.mem_lookup_iff.mpr he)
  rw [← hhash] at hkeys
  exact hkeys.of_map _

theorem Records.perm {s : KeyStore} {l : Ledger} (h : Records s l) (hl : l.Nodup) :
    s.list.Perm l :=
  (List.perm_ext_iff_of_nodup (nodup_list s) hl).mpr h

theorem Records.insert {s : KeyStore} {l : Ledger} (h : Records s l) (key : VirtualKey) :
    Records (s.insert key) (l.issue key) := by
  intro k
  rw [KeyStore.mem_list_iff, KeyStore.lookup_insert, Ledger.mem_issue, ← h k,
    KeyStore.mem_list_iff]
  by_cases hhash : k.hash = key.hash
  · simp [hhash, eq_comm]
  · have hne : k ≠ key := fun he => hhash (by rw [he])
    simp [hhash, hne]

theorem Records.removeById {s : KeyStore} {l : Ledger} (h : Records s l) (hl : l.UniqueIds)
    (id : String) : Records (s.removeById id).1 (l.revoke id) := by
  intro k
  rw [Ledger.mem_revoke, ← h k]
  rcases s.removeById_cases id with ⟨gone, hgone, hid, heq⟩ | ⟨heq, hnone⟩
  · have hmem : gone ∈ l := (h gone).mp ((s.mem_list_iff gone).mpr hgone)
    rw [heq, KeyStore.mem_list_iff, KeyStore.lookup_erase, KeyStore.mem_list_iff]
    by_cases hk : s.lookup k.hash = some k
    · -- a record with the hash of the removed one is that record
      have hsame : k.hash = gone.hash ↔ k.id = id := by
        constructor
        · intro hhash
          rw [hhash, hgone] at hk
          rw [← Option.some.inj hk, hid]
        · intro hkid
          have hkl : k ∈ l := (h k).mp ((s.mem_list_iff k).mpr hk)
          rw [hl k hkl gone hmem (by rw [hkid, hid])]
      by_cases hhash : k.hash = gone.hash
      · simp [hhash, hsame.mp hhash]
      · have hkid : k.id ≠ id := fun he => hhash (hsame.mpr he)
        simp [hhash, hkid, hk]
    · simp [hk]
  · rw [heq]
    exact ⟨fun hk => ⟨hk, hnone k hk⟩, And.left⟩

theorem Records.new (keys : List VirtualKey) : Records (KeyStore.new keys) (Ledger.install keys) := by
  suffices ∀ s l, Records s l → Records (keys.foldl KeyStore.insert s) (keys.foldl Ledger.issue l) from
    this KeyStore.empty [] fun k => by simp [KeyStore.mem_list_iff]
  induction keys with
  | nil => exact fun s l h => h
  | cons key keys ih => exact fun s l h => ih _ _ (h.insert key)

theorem Records.authenticate {s : KeyStore} {l : Ledger} (h : Records s l) (lib : Externals)
    (token : String) (k : VirtualKey) :
    s.authenticate lib token = some k ↔ k ∈ l ∧ k.hash = hashToken lib token := by
  rw [← h k, KeyStore.mem_list_iff, KeyStore.authenticate]
  constructor
  · intro hk
    have hhash := KeyStore.hash_of_lookup hk
    exact ⟨hhash ▸ hk, hhash⟩
  · rintro ⟨hk, hhash⟩
    rwa [hhash] at hk

inductive Change where
  | issue (key : VirtualKey)
  | revoke (id : String)
  deriving DecidableEq

/-- The change a request makes, read off the request, the token and the random bytes. -/
def change (web : Web) (app : AppState) (entropy : Bytes) (r : AdminRequest) : Option Change :=
  if authorized app r.headers then
    match route r.path with
    | some .keys =>
        if r.method = .post then
          match extractRequest web r.headers r.body with
          | .error _ => none
          | .ok request =>
              some (.issue (OfflineKeys.createKey (generateKey web.toExternals entropy) request))
        else none
    | some (.key raw) => if r.method = .delete then (pathParam raw).map .revoke else none
    | _ => none
  else none

def Change.toStore (s : KeyStore) : Option Change → KeyStore
  | some (.issue key) => s.insert key
  | some (.revoke id) => (s.removeById id).1
  | none => s

def Change.toLedger (l : Ledger) : Option Change → Ledger
  | some (.issue key) => l.issue key
  | some (.revoke id) => l.revoke id
  | none => l

theorem reloadFromPemFile_keepsKeys (tls : TlsHost C K W S) (config : ConfigOverlay.TlsConfig) :
    Keeps Process.keys (reloadFromPemFile (κ := κ) tls config) := by
  intro p
  cases hlive : p.rustls with
  | none =>
      rw [reloadFromPemFile, exec_bind, exec_get]
      dsimp only
      rw [hlive]
      rfl
  | some live =>
      rw [exec_reloadFromPemFile tls config hlive]

theorem swapCerts_keepsKeys (tls : TlsHost C K W S) (config : ConfigOverlay.Config) :
    Keeps Process.keys (swapCerts (κ := κ) tls config) := by
  have hcerts : ∀ config, Keeps Process.keys (reloadCerts (κ := κ) tls config) := by
    intro config
    unfold reloadCerts
    split
    · exact reloadFromPemFile_keepsKeys tls config
    · refine (readsOnly_lift _).keeps.bind fun material => ?_
      exact keeps_modify fun p => rfl
  refine readsOnly_get.keeps.bind fun p => ?_
  split
  · exact hcerts _
  · exact fun _ => rfl

theorem reload_keepsKeys (lib : RuntimeBuilding.Figment V) (host : RuntimeBuilding.Host κ)
    (tls : TlsHost C K W S) (path : Option String) :
    Keeps Process.keys (reload lib host tls path) := by
  intro p
  rw [exec_reload]
  refine ((readsOnly_lift _).keeps.bind fun prepared => ?_) p
  refine (swapCerts_keepsKeys tls prepared.1).bind fun _ => ?_
  exact keeps_modify fun q => rfl

theorem deleteKey_keys (s : Shared κ S) (id : String) :
    (deleteKey s id).shared.process.keys = (s.process.keys.removeById id).1 := by
  unfold deleteKey
  rcases s.process.keys.removeById_cases id with ⟨k, -, -, heq⟩ | ⟨heq, -⟩
  · rw [heq]
  · rw [heq]

theorem createKey_keys (web : Web) (s : Shared κ S) (entropy : Bytes) (headers : HeaderMap)
    (body : Bytes) :
    (AdminApi.createKey web s entropy headers body).shared.process.keys =
      match extractRequest web headers body with
      | .error _ => s.process.keys
      | .ok request => s.process.keys.insert
          (OfflineKeys.createKey (generateKey web.toExternals entropy) request) := by
  unfold AdminApi.createKey
  cases extractRequest web headers body with
  | error rejection => rfl
  | ok request => rfl

theorem reloadConfig_keys (app : AppState) (s : Shared κ S) (w : World κ V C K W S) :
    (reloadConfig app s w).shared.process.keys = s.process.keys := by
  unfold reloadConfig
  cases app.configPath with
  | none => rfl
  | some path =>
      have hkeep := reload_keepsKeys w.figment w.host w.tls (some path) s.process
      dsimp only
      split
      · exact hkeep
      · exact hkeep
      · exact hkeep

/-- A request does to the store what it asks for and nothing else. -/
theorem serve_keys (web : Web) (app : AppState) (s : Shared κ S) (w : World κ V C K W S)
    (r : AdminRequest) :
    (serve web app s w r).shared.process.keys =
      Change.toStore s.process.keys (change web app w.entropy r) := by
  unfold serve change
  cases hroute : route r.path with
  | none => cases authorized app r.headers <;> rfl
  | some endpoint =>
      cases hauth : authorized app r.headers with
      | false => cases endpoint <;> rfl
      | true =>
          simp only [Bool.not_true, Bool.and_false, Bool.false_eq_true, if_false, if_true]
          cases endpoint with
          | keys =>
              simp only [handle]
              split_ifs
              · rw [createKey_keys]
                cases extractRequest web r.headers r.body with
                | error rejection => rfl
                | ok request => rfl
              · rfl
          | key raw =>
              simp only [handle]
              split_ifs
              · cases pathParam raw with
                | none => rfl
                | some id => exact deleteKey_keys s id
              · rfl
          | reload =>
              simp only [handle]
              split_ifs
              · exact reloadConfig_keys app s w
              · rfl
          | healthz => rfl
          | readyz => rfl
          | status => rfl
          | metrics => rfl
          | keySpend raw => rfl
          | models => rfl

/-- A request, a key set from the Control Node, or other work of the process: it may move
the records of the store about, as a growing map does, but keeps them. -/
inductive Event (κ V C K W S : Type) where
  | request (w : World κ V C K W S) (r : AdminRequest)
  | keySet (keys : List VirtualKey)
  | other (work : Shared κ S → Shared κ S)
      (keeps : ∀ s k, k ∈ (work s).process.keys.list ↔ k ∈ s.process.keys.list)

def step (web : Web) (app : AppState) (s : Shared κ S) : Event κ V C K W S → Shared κ S
  | .request w r => (serve web app s w r).shared
  | .keySet keys =>
      { s with process := { s.process with keys := s.process.keys.replaceAll keys } }
  | .other work _ => work s

def book (web : Web) (app : AppState) (l : Ledger) : Event κ V C K W S → Ledger
  | .request w r => Change.toLedger l (change web app w.entropy r)
  | .keySet keys => Ledger.install keys
  | .other _ _ => l

/-- No id is given out while it is in use, neither by an issued key nor twice within a key
set. -/
def FreshIds (web : Web) (app : AppState) (l : Ledger) : Event κ V C K W S → Prop
  | .request w r => ∀ key, change web app w.entropy r = some (.issue key) → ∀ k ∈ l, k.id ≠ key.id
  | .keySet keys => (Ledger.install keys).UniqueIds
  | .other _ _ => True

/-- The store agrees with a ledger that could be kept by hand. -/
structure Agrees (s : Shared κ S) (l : Ledger) : Prop where
  records : Records s.process.keys l
  unique : l.UniqueIds
  nodup : l.Nodup

theorem step_agrees (web : Web) (app : AppState) {s : Shared κ S} {l : Ledger}
    (h : Agrees s l) {e : Event κ V C K W S} (hfresh : FreshIds web app l e) :
    Agrees (step web app s e) (book web app l e) := by
  cases e with
  | request w r =>
      have hkeys := serve_keys web app s w r
      constructor
      · rw [step, book, hkeys]
        rcases change web app w.entropy r with _ | key | id
        · exact h.records
        · exact h.records.insert key
        · exact h.records.removeById h.unique id
      · rw [book]
        rcases hchange : change web app w.entropy r with _ | key | id
        · exact h.unique
        · exact h.unique.issue (hfresh key hchange)
        · exact h.unique.revoke id
      · rw [book]
        rcases change web app w.entropy r with _ | key | id
        · exact h.nodup
        · exact Ledger.nodup_issue h.nodup key
        · exact h.nodup.filter _
  | keySet keys => exact ⟨Records.new keys, hfresh, Ledger.nodup_install keys⟩
  | other work keeps =>
      exact ⟨fun k => (keeps s k).trans (h.records k), h.unique, h.nodup⟩

theorem run_agrees (web : Web) (app : AppState) {s : Shared κ S} {l : Ledger} (h : Agrees s l)
    {es : List (Event κ V C K W S)} (hfresh : Along (book web app) (FreshIds web app) l es) :
    Agrees (run (step web app) s es) (run (book web app) l es) := by
  induction es generalizing s l with
  | nil => exact h
  | cons e es ih => exact ih (step_agrees web app h hfresh.1) hfresh.2

/-- The answers to a request of an administrator that the ledger decides. -/
structure AnswersFrom (web : Web) (app : AppState) (l : Ledger) (s : Shared κ S)
    (w : World κ V C K W S) (r : AdminRequest) : Prop where
  listing : route r.path = some .keys → r.method = .get →
    ∃ keys, keys.Perm l ∧ (serve web app s w r).reply = some (.json 200 (listKeysJson web keys))
  revocation : ∀ raw id, route r.path = some (.key raw) → pathParam raw = some id →
    r.method = .delete → (serve web app s w r).reply =
      some (if l.any fun k => k.id == id then .bare 204 else .text 404 "key not found")
  report : ∀ raw id, route r.path = some (.keySpend raw) → pathParam raw = some id →
    r.method = .get →
      ((serve web app s w r).reply = some (.text 404 "key not found") ↔
        (l.any fun k => k.id == id) = false)
  reported : ∀ raw, route r.path = some (.keySpend raw) → ∀ k ∈ l, pathParam raw = some k.id →
    r.method = .get → (serve web app s w r).reply = some (.json 200
      (keySpendJson web (SpendReporting.keyReport s.process.spendTracker k w.now.utc)))

theorem any_id_iff {l : Ledger} {id : String} :
    (l.any fun k => k.id == id) = false ↔ ∀ k ∈ l, k.id ≠ id := by
  simp [List.any_eq_false]

theorem serve_authorized (web : Web) {app : AppState} (s : Shared κ S) (w : World κ V C K W S)
    {r : AdminRequest} (hauth : authorized app r.headers = true) {endpoint : Route}
    (hroute : route r.path = some endpoint) :
    serve web app s w r = handle web app s w r endpoint := by
  simp [serve, hroute, hauth]

theorem deleteKey_reply {s : Shared κ S} {l : Ledger} (h : Records s.process.keys l) (id : String) :
    (deleteKey s id).reply =
      some (if l.any fun k => k.id == id then .bare 204 else .text 404 "key not found") := by
  unfold deleteKey
  rcases s.process.keys.removeById_cases id with ⟨k, hk, hid, heq⟩ | ⟨heq, hnone⟩
  · have hany : (l.any fun k => k.id == id) = true := by
      rw [List.any_eq_true]
      exact ⟨k, (h k).mp ((KeyStore.mem_list_iff _ k).mpr hk), beq_iff_eq.mpr hid⟩
    rw [heq, hany]
    rfl
  · have hany : (l.any fun k => k.id == id) = false :=
      any_id_iff.mpr fun k hk => hnone k ((h k).mpr hk)
    rw [heq, hany]
    rfl

theorem keySpend_reply (web : Web) {s : Shared κ S} {l : Ledger} (h : Records s.process.keys l)
    (id : String) (now : ℕ) :
    keySpend web s id now = .text 404 "key not found" ↔ (l.any fun k => k.id == id) = false := by
  rw [any_id_iff]
  unfold keySpend SpendReporting.keySpend
  have hfind := KeyStore.findById_eq_none_iff s.process.keys id
  cases hkey : s.process.keys.findById id with
  | none =>
      have hnone := hfind.mp hkey
      exact ⟨fun _ k hk => hnone k ((h k).mpr hk), fun _ => rfl⟩
  | some key =>
      constructor
      · intro heq
        cases congrArg Reply.status heq
      · intro hnone
        have hgone := hfind.mpr fun k hk => hnone k ((h k).mp hk)
        rw [hkey] at hgone
        cases hgone

/-- An id of the ledger finds the one key that has it. -/
theorem Agrees.findById {s : Shared κ S} {l : Ledger} (h : Agrees s l) {k : VirtualKey}
    (hk : k ∈ l) : s.process.keys.findById k.id = some k := by
  cases hfind : s.process.keys.findById k.id with
  | none =>
      have hnone := (KeyStore.findById_eq_none_iff s.process.keys k.id).mp hfind
      exact (hnone k ((h.records k).mpr hk) rfl).elim
  | some found =>
      have hmem := (h.records found).mp (List.mem_of_find?_eq_some hfind)
      have hid : found.id = k.id := by simpa using List.find?_some hfind
      rw [h.unique found hmem k hk hid]

theorem answersFrom_of_agrees (web : Web) (app : AppState) {s : Shared κ S} {l : Ledger}
    (h : Agrees s l) (w : World κ V C K W S) {r : AdminRequest}
    (hauth : authorized app r.headers = true) : AnswersFrom web app l s w r where
  listing hroute hget := by
    refine ⟨s.process.keys.list, h.records.perm h.nodup, ?_⟩
    rw [serve_authorized web s w hauth hroute]
    simp [handle, handle.read, hget, unchanged]
  revocation raw id hroute hid hdelete := by
    rw [serve_authorized web s w hauth hroute]
    simp only [handle, hdelete, hid, if_true]
    exact deleteKey_reply h.records id
  report raw id hroute hid hget := by
    rw [serve_authorized web s w hauth hroute]
    simp only [handle, handle.read, hget, hid, unchanged, Option.some.injEq]
    exact keySpend_reply web h.records id w.now.utc
  reported raw hroute k hk hid hget := by
    rw [serve_authorized web s w hauth hroute]
    simp only [handle, handle.read, hget, hid, unchanged, keySpend, SpendReporting.keySpend,
      h.findById hk, Option.map_some]

/-- In every run in which no id is given out while it is in use, the store and the ledger
have the same keys. Then a token authenticates as a key exactly if the ledger has that
key under the hash of the token, and the API answers from the ledger: the listing is the
ledger in some order, a revocation finds what the ledger has, and the report is that of
the key which the ledger has under the id, or says that there is none. -/
theorem admin_api_keeps_the_ledger (web : Web) (app : AppState) (s : Shared κ S)
    (hs : Ledger.UniqueIds s.process.keys.list) (es : List (Event κ V C K W S))
    (hfresh : Along (book web app) (FreshIds web app) s.process.keys.list es) :
    let now := run (step web app) s es
    let ledger := run (book web app) s.process.keys.list es
    (∀ token k, now.process.keys.authenticate web.toExternals token = some k ↔
        k ∈ ledger ∧ k.hash = hashToken web.toExternals token) ∧
      ∀ (w : World κ V C K W S) r, authorized app r.headers = true →
        AnswersFrom web app ledger now w r := by
  intro now ledger
  have hagrees : Agrees now ledger :=
    run_agrees web app ⟨fun k => Iff.rfl, hs, nodup_list _⟩ hfresh
  constructor
  · intro token k
    exact hagrees.records.authenticate web.toExternals token k
  · intro w r hauth
    exact answersFrom_of_agrees web app hagrees w hauth

/-- The random bytes of a request that issues a key. -/
def minted (web : Web) (app : AppState) : Event κ V C K W S → Option Bytes
  | .request w r =>
      match change web app w.entropy r with
      | some (.issue _) => some w.entropy
      | _ => none
  | _ => none

def revokes (web : Web) (app : AppState) (id : String) : Event κ V C K W S → Bool
  | .request w r => change web app w.entropy r = some (.revoke id)
  | _ => false

/-- Nothing comes from a Control Node. -/
def isLocal : Event κ V C K W S → Bool
  | .keySet _ => false
  | _ => true

theorem change_issue {web : Web} {app : AppState} {entropy : Bytes} {r : AdminRequest}
    {key : VirtualKey} (h : change web app entropy r = some (.issue key)) :
    ∃ request, authorized app r.headers = true ∧ route r.path = some .keys ∧
      r.method = .post ∧ extractRequest web r.headers r.body = .ok request ∧
      key = OfflineKeys.createKey (generateKey web.toExternals entropy) request := by
  unfold change at h
  cases hauth : authorized app r.headers with
  | false =>
      rw [hauth] at h
      cases h
  | true =>
      rw [hauth, if_pos rfl] at h
      split at h
      · rename_i hroute
        split_ifs at h with hpost
        split at h
        · cases h
        · rename_i request hrequest
          exact ⟨request, rfl, hroute, hpost, hrequest,
            (Change.issue.inj (Option.some.inj h)).symm⟩
      · split_ifs at h
        obtain ⟨id, -, hkey⟩ := Option.map_eq_some_iff.mp h
        cases hkey
      · cases h

theorem mem_book {web : Web} {app : AppState} {l : Ledger} {e : Event κ V C K W S}
    (hlocal : isLocal e = true) {k : VirtualKey} (hk : k ∈ book web app l e) :
    k ∈ l ∨ ∃ buf, minted web app e = some buf ∧ k.id = (generateKey web.toExternals buf).id := by
  cases e with
  | keySet keys => cases hlocal
  | other work keeps => exact .inl hk
  | request w r =>
      rw [book] at hk
      rcases hchange : change web app w.entropy r with _ | key | id
      · rw [hchange] at hk
        exact .inl hk
      · rw [hchange] at hk
        rcases Ledger.mem_issue.mp hk with ⟨hmem, -⟩ | rfl
        · exact .inl hmem
        · obtain ⟨request, -, -, -, -, rfl⟩ := change_issue hchange
          exact .inr ⟨w.entropy, by rw [minted, hchange], rfl⟩
      · rw [hchange] at hk
        exact .inl (Ledger.mem_revoke.mp hk).1

/-- Distinct ids of minted keys keep every id fresh. -/
theorem along_fresh (web : Web) (app : AppState) {es : List (Event κ V C K W S)} {l : Ledger}
    (hlocal : ∀ e ∈ es, isLocal e = true)
    (hold : ∀ k ∈ l, ∀ buf ∈ es.filterMap (minted web app),
      k.id ≠ (generateKey web.toExternals buf).id)
    (hids : ((es.filterMap (minted web app)).map fun buf =>
      (generateKey web.toExternals buf).id).Nodup) :
    Along (book web app) (FreshIds web app) l es := by
  induction es generalizing l with
  | nil => trivial
  | cons e es ih =>
      have hlocal' := hlocal e List.mem_cons_self
      refine ⟨?_, ih (fun f hf => hlocal f (List.mem_cons_of_mem _ hf)) ?_ ?_⟩
      · cases e with
        | keySet keys => cases hlocal'
        | other work keeps => trivial
        | request w r =>
            intro key hchange k hk
            obtain ⟨request, -, -, -, -, rfl⟩ := change_issue hchange
            apply hold k hk w.entropy
            have hminted : minted web app (.request w r) = some w.entropy := by
              rw [minted, hchange]
            rw [List.filterMap_cons_some hminted]
            exact List.mem_cons_self
      · intro k hk buf hbuf
        rcases mem_book hlocal' hk with hmem | ⟨buf', hbuf', hid⟩
        · exact hold k hmem buf (List.mem_filterMap.mpr (by
            obtain ⟨f, hf, hfm⟩ := List.mem_filterMap.mp hbuf
            exact ⟨f, List.mem_cons_of_mem _ hf, hfm⟩))
        · rw [List.filterMap_cons_some hbuf', List.map_cons, List.nodup_cons] at hids
          rw [hid]
          intro heq
          exact hids.1 (heq ▸ List.mem_map_of_mem hbuf)
      · cases hm : minted web app e with
        | none => rwa [List.filterMap_cons_none hm] at hids
        | some buf =>
            rw [List.filterMap_cons_some hm, List.map_cons, List.nodup_cons] at hids
            exact hids.2

/-- A key that is alone with its hash stays so and lives until its id is revoked, as long
as no other key with the hash is issued. -/
theorem mem_run_book (web : Web) (app : AppState) {es : List (Event κ V C K W S)} {l : Ledger}
    {key : VirtualKey} (hlocal : ∀ e ∈ es, isLocal e = true)
    (hhash : ∀ w r key', .request w r ∈ es → change web app w.entropy r = some (.issue key') →
      key'.hash ≠ key.hash)
    (hsole : ∀ k ∈ l, k.hash = key.hash → k = key) :
    (∀ k ∈ run (book web app) l es, k.hash = key.hash → k = key) ∧
      (key ∈ run (book web app) l es ↔ key ∈ l ∧ es.any (revokes web app key.id) = false) := by
  induction es generalizing l with
  | nil => exact ⟨hsole, by simp⟩
  | cons e es ih =>
      have hone : (∀ k ∈ book web app l e, k.hash = key.hash → k = key) ∧
          (key ∈ book web app l e ↔ key ∈ l ∧ revokes web app key.id e = false) := by
        cases e with
        | keySet keys => cases hlocal _ List.mem_cons_self
        | other work keeps => exact ⟨hsole, by simp [book, revokes]⟩
        | request w r =>
            have hnew := fun key' => hhash w r key' List.mem_cons_self
            rcases hchange : change web app w.entropy r with _ | key' | id
            · simp only [book, revokes, hchange, Change.toLedger]
              exact ⟨hsole, by simp⟩
            · have hne := hnew key' hchange
              simp only [book, revokes, hchange, Change.toLedger]
              constructor
              · intro k hk hkh
                rcases Ledger.mem_issue.mp hk with ⟨hmem, -⟩ | rfl
                · exact hsole k hmem hkh
                · exact (hne hkh).elim
              · have hkey : key ≠ key' := fun he => hne (by rw [he])
                simp [Ledger.mem_issue, hkey, hne.symm]
            · simp only [book, revokes, hchange, Change.toLedger]
              constructor
              · intro k hk
                exact hsole k (Ledger.mem_revoke.mp hk).1
              · simp [Ledger.mem_revoke, eq_comm]
      obtain ⟨hsole', hmem'⟩ := hone
      obtain ⟨hsole'', hmem''⟩ := ih (fun f hf => hlocal f (List.mem_cons_of_mem _ hf))
        (fun w r key' hmem => hhash w r key' (List.mem_cons_of_mem _ hmem)) hsole'
      refine ⟨hsole'', ?_⟩
      rw [run_cons, hmem'', hmem', List.any_cons, Bool.or_eq_false_iff, and_assoc]

section
variable {web : Web} {app : AppState} {es : List (Event κ V C K W S)}

/-- Keys whose first nine bytes differ have different ids. -/
theorem nodup_minted_ids (hlen : ∀ buf ∈ es.filterMap (minted web app), buf.length = 32)
    (hrandom : ((es.filterMap (minted web app)).map (List.take 9)).Nodup) :
    ((es.filterMap (minted web app)).map fun buf =>
      (generateKey web.toExternals buf).id).Nodup := by
  rw [List.nodup_map_iff_inj_on (hrandom.of_map _)]
  intro buf hbuf buf' hbuf' hid
  have hnine := (generated_id_eq_iff web.toExternals (by rw [hlen buf hbuf]; omega)
    (by rw [hlen buf' hbuf']; omega)).mp hid
  exact List.inj_on_of_nodup_map hrandom hbuf hbuf' hnine

end

/-- A gateway without a Control Node, any requests in any order and any other work on the
store in between. The token that `POST /admin/keys` hands out authenticates, at the end of
the run, as the very key that was asked for, unless a request after it revoked the id;
then it authenticates as none. The ids of the first keys differ. Of chance it is assumed
that the first nine random bytes of the keys do not repeat and hit no id of an old key,
and of the hash that no two of the tokens collide. -/
theorem token_lives_until_revoked (web : Web) (app : AppState) (s : Shared κ S)
    (hs : Ledger.UniqueIds s.process.keys.list)
    (before after : List (Event κ V C K W S)) (w : World κ V C K W S) (r : AdminRequest)
    (key : VirtualKey) (hissue : change web app w.entropy r = some (.issue key))
    (hlocal : ∀ e ∈ before ++ .request w r :: after, isLocal e = true)
    (hlen : ∀ buf ∈ (before ++ .request w r :: after).filterMap (minted web app), buf.length = 32)
    (hrandom : (((before ++ .request w r :: after).filterMap (minted web app)).map
      (List.take 9)).Nodup)
    (hold : ∀ k ∈ s.process.keys.list, ∀ buf ∈ (before ++ .request w r :: after).filterMap
      (minted web app), k.id ≠ (generateKey web.toExternals buf).id)
    (hhash : ∀ buf ∈ (before ++ .request w r :: after).filterMap (minted web app),
      (generateKey web.toExternals buf).hash = (generateKey web.toExternals w.entropy).hash →
        (generateKey web.toExternals buf).token = (generateKey web.toExternals w.entropy).token) :
    let token := (generateKey web.toExternals w.entropy).token
    (serve web app (run (step web app) s before) w r).reply =
        some (.json 201 (createKeyJson web token key)) ∧
      (run (step web app) s (before ++ .request w r :: after)).process.keys.authenticate
          web.toExternals token =
        if after.any (revokes web app key.id) then none else some key := by
  intro token
  obtain ⟨request, hauth, hroute, hpost, hrequest, hkey⟩ := change_issue hissue
  have hminted : minted web app (.request w r) = some w.entropy := by rw [minted, hissue]
  have hkeyHash : key.hash = hashToken web.toExternals token := by
    rw [hkey]
    rfl
  refine ⟨?_, ?_⟩
  · rw [serve_authorized web _ w hauth hroute]
    simp only [handle, hpost, if_true, AdminApi.createKey, hrequest, hkey]
    rfl
  · -- the store at the end is the ledger, and the ledger after the request is alone with the hash
    have hagrees := run_agrees web app (⟨fun k => Iff.rfl, hs, nodup_list _⟩ : Agrees s _)
      (along_fresh web app hlocal hold (nodup_minted_ids hlen hrandom))
    simp only [run_append, run_cons] at hagrees
    have hsole : ∀ k ∈ book web app (run (book web app) s.process.keys.list before)
        (.request w r), k.hash = key.hash → k = key := by
      intro k hk hkh
      rw [book, hissue] at hk
      rcases Ledger.mem_issue.mp hk with ⟨-, hne⟩ | heq
      · exact (hne hkh).elim
      · exact heq
    have hmem : key ∈ book web app (run (book web app) s.process.keys.list before)
        (.request w r) := by
      rw [book, hissue]
      exact Ledger.mem_issue.mpr (.inr rfl)
    rw [List.filterMap_append, List.filterMap_cons_some hminted] at hrandom hhash
    have hlater : ∀ w' r' key', .request w' r' ∈ after →
        change web app w'.entropy r' = some (.issue key') → key'.hash ≠ key.hash := by
      intro w' r' key' hafter hissue' heq
      have hminted' : minted web app (.request w' r') = some w'.entropy := by
        rw [minted, hissue']
      have hbuf : w'.entropy ∈ after.filterMap (minted web app) :=
        List.mem_filterMap.mpr ⟨_, hafter, hminted'⟩
      obtain ⟨request', -, -, -, -, hkey'⟩ := change_issue hissue'
      rw [hkey', hkey] at heq
      have hsame := token_injective web.toExternals
        (hhash w'.entropy (by simp [hbuf]) heq)
      rw [List.map_append, List.map_cons, List.nodup_append, List.nodup_cons] at hrandom
      exact hrandom.2.1.1 (hsame ▸ List.mem_map_of_mem hbuf)
    obtain ⟨hsole', hmem'⟩ := mem_run_book web app
      (fun e he => hlocal e (by simp [he])) hlater hsole
    rw [run_append, run_cons]
    split_ifs with hrevoked
    · apply Option.eq_none_iff_forall_ne_some.mpr
      intro k hk
      obtain ⟨hkmem, hkh⟩ := (hagrees.records.authenticate web.toExternals token k).mp hk
      have hkk := hsole' k hkmem (hkh.trans hkeyHash.symm)
      rw [hkk, hmem', hrevoked] at hkmem
      cases hkmem.2
    · apply (hagrees.records.authenticate web.toExternals token key).mpr
      exact ⟨hmem'.mpr ⟨hmem, Bool.eq_false_iff.mpr hrevoked⟩, hkeyHash⟩

section Sample

def issueRequest : AdminRequest :=
  ⟨.post, "/admin/keys", [("authorization", asBytes "Bearer s3cret")], asBytes "\x7b\x7d"⟩

def revokeRequest (id : String) : AdminRequest :=
  ⟨.delete, "/admin/keys/" ++ id, [("authorization", asBytes "Bearer s3cret")], []⟩

def sevens : Bytes := List.replicate 32 7

def issued : VirtualKey :=
  OfflineKeys.createKey (generateKey sampleWeb.toExternals sevens) ⟨"", "", "", [], none, none, none⟩

theorem issueRequest_issues :
    change sampleWeb sampleApp sevens issueRequest = some (.issue issued) := by
  decide +kernel

theorem revokeRequest_revokes :
    change sampleWeb sampleApp [] (revokeRequest issued.id) = some (.revoke issued.id) := by
  decide +kernel

abbrev SampleEvent := Event Unit Unit UInt8 UInt8 (List UInt8) (List UInt8)

/-- One key is issued, and its token authenticates as it. -/
theorem issued_token_is_in_the_ledger :
    let es : List SampleEvent := [.request (sampleWorld sevens) issueRequest]
    let now := run (step sampleWeb sampleApp) sampleShared es
    run (book sampleWeb sampleApp) sampleShared.process.keys.list es = [issued] ∧
      now.process.keys.authenticate sampleWeb.toExternals
        (generateKey sampleWeb.toExternals sevens).token = some issued := by
  intro es now
  have hledger : run (book sampleWeb sampleApp) sampleShared.process.keys.list es = [issued] := by
    simp only [es, run_cons, run_nil, book, sampleWorld, issueRequest_issues, Change.toLedger]
    rfl
  have hempty : ∀ k, k ∉ sampleShared.process.keys.list := fun k hk => by cases hk
  refine ⟨hledger, ?_⟩
  apply ((admin_api_keeps_the_ledger sampleWeb sampleApp sampleShared
    (fun k hk => (hempty k hk).elim) es ⟨fun _ _ k hk => (hempty k hk).elim, trivial⟩).1 _ _).mpr
  rw [hledger]
  exact ⟨List.mem_singleton.mpr rfl, rfl⟩

/-- It is revoked again, and the token authenticates as nothing. -/
theorem issued_token_is_revoked :
    let issue : SampleEvent := .request (sampleWorld sevens) issueRequest
    let revoke : SampleEvent := .request (sampleWorld []) (revokeRequest issued.id)
    let token := (generateKey sampleWeb.toExternals sevens).token
    revokes sampleWeb sampleApp issued.id revoke = true ∧
      (run (step sampleWeb sampleApp) sampleShared [issue, revoke]).process.keys.authenticate
        sampleWeb.toExternals token = none := by
  intro issue revoke token
  have hrevokes : revokes sampleWeb sampleApp issued.id revoke = true :=
    decide_eq_true revokeRequest_revokes
  have hminted : ([issue, revoke].filterMap (minted sampleWeb sampleApp)) = [sevens] := by
    have hissue : minted sampleWeb sampleApp issue = some sevens := by
      simp only [issue, minted, sampleWorld, issueRequest_issues]
    have hrevoke : minted sampleWeb sampleApp revoke = none := by
      simp only [revoke, minted, sampleWorld, revokeRequest_revokes]
    rw [List.filterMap_cons_some hissue, List.filterMap_cons_none hrevoke, List.filterMap_nil]
  have hempty : ∀ k, k ∉ sampleShared.process.keys.list := fun k hk => by cases hk
  have hlife := (token_lives_until_revoked sampleWeb sampleApp sampleShared
    (fun k hk => (hempty k hk).elim) [] [revoke] (sampleWorld sevens) issueRequest issued
    issueRequest_issues ?_ ?_ ?_ (fun k hk => (hempty k hk).elim) ?_).2
  · refine ⟨hrevokes, ?_⟩
    rwa [if_pos (by rw [List.any_cons, hrevokes, Bool.true_or])] at hlife
  · intro e he
    simp only [List.nil_append, List.mem_cons, List.not_mem_nil, or_false] at he
    rcases he with rfl | rfl <;> rfl
  · rw [List.nil_append, hminted]
    intro buf hbuf
    rw [List.mem_singleton.mp hbuf]
    rfl
  · rw [List.nil_append, hminted]
    exact List.nodup_singleton _
  · rw [List.nil_append, hminted]
    intro buf hbuf _
    rw [List.mem_singleton.mp hbuf]
    rfl

end Sample

end VaultplaneGateway.KeyLifecycle
