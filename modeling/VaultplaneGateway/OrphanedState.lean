import VaultplaneGateway.KeyRevocation
import VaultplaneGateway.RequestInterleaving

/-!
# Per-key state and the keys that own it

The rate limiter and the spend tracker are maps of their own, filled by requests under
the identifier of the key they were given at their lookup. Revoking a key by `DELETE`
removes the record and then frees the two entries, in three critical sections. Nobody
else frees them: a key set from the control plane replaces the store and leaves both maps
alone.

Whether an entry without a key remains once everything is quiet depends on what happened
between: a request that still holds a revoked key writes its entry anew, and a pulled key
set may take away a key that has one. Each event is exact about this. From a state in
which every entry has a key or is about to be freed, the next state is again such a state
exactly if the event is tidy.
-/
namespace VaultplaneGateway.OrphanedState
open WireFormats KeyRecords RateLimiting SpendTracking ResponseCaching StreamUsage ProxyPipeline
open TransitionRuns

/-- The two maps that are indexed by key identifier. -/
inductive PerKey where
  | rate | spend
  deriving DecidableEq, Repr

def has (g : Gateway) : PerKey → String → Bool
  | .rate, id => (g.limiter.buckets id).isSome
  | .spend, id => (g.tracker.entries id).isSome

/-- What a `DELETE` that has removed its record does next. -/
inductive Cleanup where
  | rate (id : String)
  | spend (id : String)
  deriving DecidableEq, Repr

/-- The requests and the stores, the requests whose client went away, and the
revocations that have not freed everything yet. -/
structure State where
  requests : RequestInterleaving.State
  gone : List ℕ
  cleanups : List Cleanup

namespace State

def gateway (s : State) : Gateway := s.requests.gateway

def keys (s : State) : KeyStore := s.gateway.keys

/-- A process starts without buckets and without entries. -/
def start (keys : KeyStore) (cache : ResponseCache) : State where
  requests := .start ⟨keys, RateLimiter.empty, SpendTracker.empty, cache⟩
  gone := []
  cleanups := []

/-- Another event of the requests' own machine. -/
def after (sys : RequestInterleaving.System) (s : State) (e : RequestInterleaving.Event) : State :=
  { s with requests := RequestInterleaving.next sys s.requests e }

end State

/-- A request takes its next step or is dropped with its connection; the store is
written by `POST /admin/keys`, by a pulled key set or by `DELETE`, and its iteration order
may change; a `DELETE` goes on with its cleanup. -/
inductive Event where
  | request (rid : ℕ) (now : Clock)
  | abandon (rid : ℕ)
  | create (key : VirtualKey)
  | pull (keys : List VirtualKey)
  | rehash (store : KeyStore)
  | delete (id : String)
  | cleanup (c : Cleanup)

def step (sys : RequestInterleaving.System) (s : State) : Event → State
  | .request rid now => if rid ∈ s.gone then s else s.after sys (.step rid now)
  | .abandon rid => { s with gone := rid :: s.gone }
  | .create key => s.after sys (.keys (s.keys.insert key))
  | .pull keys => s.after sys (.keys (s.keys.replaceAll keys))
  | .rehash store =>
      if s.keys.byHash.entries.Perm store.byHash.entries then s.after sys (.keys store) else s
  | .delete id =>
      match s.keys.removeById id with
      | (store, true) => { s.after sys (.keys store) with cleanups := .rate id :: s.cleanups }
      | (_, false) => s
  | .cleanup (.rate id) =>
      if .rate id ∈ s.cleanups then
        { s.after sys (.forgetRate id) with
          cleanups := .spend id :: s.cleanups.erase (.rate id) }
      else s
  | .cleanup (.spend id) =>
      if .spend id ∈ s.cleanups then
        { s.after sys (.forgetSpend id) with cleanups := s.cleanups.erase (.spend id) }
      else s

/-- The three steps of a `DELETE`. -/
def revocation (id : String) : List Event :=
  [.delete id, .cleanup (.rate id), .cleanup (.spend id)]

/-- A `DELETE` that nothing comes between does what the endpoint does undisturbed. -/
theorem run_revocation (sys : RequestInterleaving.System) {s : State} (h : s.cleanups = [])
    (id : String) :
    (run (step sys) s (revocation id)).gateway = (KeyRevocation.deleteKey s.gateway id).1 ∧
      (run (step sys) s (revocation id)).cleanups = [] := by
  simp only [revocation, run_cons, run_nil, KeyRevocation.deleteKey]
  rcases s.keys.removeById_cases id with ⟨k, -, -, hremove⟩ | ⟨hremove, -⟩
  · have hgateway : s.gateway.keys.removeById id = (s.keys.erase k.hash, true) := hremove
    rw [hgateway]
    simp [step, hremove, h, State.gateway, State.after, RequestInterleaving.next]
  · have hgateway : s.gateway.keys.removeById id = (s.keys, false) := hremove
    have hsame : step sys s (.delete id) = s := by simp only [step, hremove]
    rw [hgateway, hsame]
    simp only [step, h, List.not_mem_nil, if_false]
    exact ⟨rfl, trivial⟩

/-- The usage that the next poll completes. -/
def completedUsage (lib : Externals) (o : UsageObservingStream) : Option Usage :=
  match o.inner, o.foundUsage with
  | .ok chunk :: _, false =>
      (drawUsage lib (o.buffer ++ chunk).length (o.buffer ++ chunk)).2
  | _, _ => none

/-- The identifier that a charge for this usage is filed under: a charge needs a usage,
a price and a limit. -/
def chargedKey (pricing : Pricing) (keyId : String) (limit : Option SpendLimit)
    (provider model : String) (usage : Option Usage) : Option String :=
  if (usage.bind (compute pricing provider model)).isSome && limit.isSome then some keyId else none

/-- The identifier under which the next step of a request in this phase writes the map. -/
def writes (sys : RequestInterleaving.System) (now : Clock) :
    PerKey → RequestInterleaving.Phase → Option String
  | .rate, .identified key =>
      if key.isExpired sys.lib now.utc then none
      else key.rateLimitRps.map fun _ => key.identifier
  | .spend, .answered p upstream =>
      chargedKey sys.runtime.pricing p.key.identifier p.key.spendLimit upstream.provider
        upstream.model upstream.usage
  | .spend, .streaming _ o =>
      chargedKey sys.runtime.pricing o.keyId o.spendLimit o.provider o.model
        (completedUsage sys.lib o)
  | _, _ => none

theorem check_isSome_iff (l : RateLimiter) (k id : String) (rps : UInt32) (now : ℚ) :
    ((l.check k rps now).1.buckets id).isSome ↔ (l.buckets id).isSome ∨ k = id := by
  by_cases h : id = k
  · subst h
    simp
  · rw [RateLimiter.check_buckets_ne l h]
    simp [Ne.symm h]

theorem record_isSome_iff (t : SpendTracker) (k id : String) (p : Period) (c : ℚ) (now : ℕ) :
    ((t.record k p c now).entries id).isSome ↔ (t.entries id).isSome ∨ k = id := by
  by_cases h : id = k
  · subst h
    simp [SpendTracker.record_entry]
  · rw [SpendTracker.record_entry_ne t h]
    simp [Ne.symm h]

theorem forgetRate_isSome_iff (l : RateLimiter) (k id : String) :
    ((l.forget k).buckets id).isSome ↔ id ≠ k ∧ (l.buckets id).isSome := by
  by_cases h : id = k
  · simp [RateLimiter.forget, h]
  · simp [RateLimiter.forget, h]

theorem forgetSpend_isSome_iff (t : SpendTracker) (k id : String) :
    ((t.forget k).entries id).isSome ↔ id ≠ k ∧ (t.entries id).isSome := by
  by_cases h : id = k
  · simp [SpendTracker.forget, h]
  · simp [SpendTracker.forget, h]

theorem charge_isSome_iff (pricing : Pricing) (t : SpendTracker) (k id : String)
    (limit : Option SpendLimit) (provider model : String) (usage : Usage) (now : ℕ) :
    ((chargeUsage pricing t k limit provider model usage now).entries id).isSome ↔
      (t.entries id).isSome ∨ chargedKey pricing k limit provider model (some usage) = some id := by
  unfold chargeUsage chargedKey
  rw [Option.bind_some]
  cases compute pricing provider model usage with
  | none => simp
  | some cost =>
      cases limit with
      | none => simp
      | some limit => simp [record_isSome_iff]

/-- Nothing is charged without a usage. -/
theorem settle_isSome_iff (rt : Runtime) (t : SpendTracker) (p : Prepared)
    (upstream : ChatResponse) (now : ℕ) (id : String) :
    ((settle rt t p upstream now).entries id).isSome ↔ (t.entries id).isSome ∨
      chargedKey rt.pricing p.key.identifier p.key.spendLimit upstream.provider upstream.model
        upstream.usage = some id := by
  unfold settle
  cases upstream.usage with
  | none => simp [chargedKey]
  | some usage => exact charge_isSome_iff ..

theorem pollNext_isSome_iff (lib : Externals) (pricing : Pricing) (o : UsageObservingStream)
    (t : SpendTracker) (now : ℕ) (id : String) :
    ((o.pollNext lib pricing t now).1.2.entries id).isSome ↔ (t.entries id).isSome ∨
      chargedKey pricing o.keyId o.spendLimit o.provider o.model (completedUsage lib o) =
        some id := by
  unfold UsageObservingStream.pollNext completedUsage
  split
  · rename_i hinner
    simp [hinner, chargedKey]
  · rename_i item inner hinner
    rw [hinner]
    cases item with
    | error detail => simp [chargedKey]
    | ok chunk =>
        cases o.foundUsage with
        | true => simp [chargedKey]
        | false =>
            dsimp only
            cases hdraw : drawUsage lib (o.buffer ++ chunk).length (o.buffer ++ chunk) with
            | mk rest usage =>
                cases usage with
                | none => simp [chargedKey]
                | some usage => exact charge_isSome_iff ..

/-- A step of a request adds to a map the identifier it writes and nothing else. -/
theorem has_advance_iff (sys : RequestInterleaving.System) (rid : ℕ) (g : Gateway) (now : Clock)
    (ph : RequestInterleaving.Phase) (m : PerKey) (id : String) :
    has (RequestInterleaving.advance sys rid g now ph).1 m id = true ↔
      has g m id = true ∨ writes sys now m ph = some id := by
  cases ph with
  | identified key =>
      cases m with
      | spend => simp [has, writes, RequestInterleaving.advance]
      | rate =>
          simp only [has, writes, RequestInterleaving.advance, admission]
          split_ifs
          · simp
          · cases key.rateLimitRps with
            | none => simp
            | some rps => simp [check_isSome_iff]
  | answered p upstream =>
      cases m with
      | rate => simp [has, writes, RequestInterleaving.advance]
      | spend => exact settle_isSome_iff ..
  | streaming response o =>
      cases m with
      | rate => simp [has, writes, RequestInterleaving.advance]
      | spend => exact pollNext_isSome_iff ..
  | arrived => cases m <;> simp [has, writes, RequestInterleaving.advance]
  | challenged => cases m <;> simp [has, writes, RequestInterleaving.advance]
  | admitted key => cases m <;> simp [has, writes, RequestInterleaving.advance]
  | cleared p => cases m <;> simp [has, writes, RequestInterleaving.advance]
  | waiting p => cases m <;> simp [has, writes, RequestInterleaving.advance]
  | settled p upstream => cases m <;> simp [has, writes, RequestInterleaving.advance]
  | done response => cases m <;> simp [has, writes, RequestInterleaving.advance]

/-- The store holds a key with this identifier. -/
def Present (keys : KeyStore) (id : String) : Prop := ∃ k ∈ keys.list, k.identifier = id

/-- A `DELETE` in flight is going to free the entry. -/
def Due (cleanups : List Cleanup) : PerKey → String → Prop
  | .rate, id => .rate id ∈ cleanups
  | .spend, id => .rate id ∈ cleanups ∨ .spend id ∈ cleanups

def Owned (s : State) (m : PerKey) (id : String) : Prop :=
  Present s.keys id ∨ Due s.cleanups m id

/-- Every entry has a key or is about to be freed. -/
def Inv (s : State) : Prop := ∀ m id, has s.gateway m id = true → Owned s m id

/-- The request has not started or is over. -/
def resting : RequestInterleaving.Phase → Bool
  | .arrived => true
  | .done _ => true
  | _ => false

/-- No request is on its way and no `DELETE` has cleanup left. -/
def Idle (s : State) : Prop :=
  (∀ rid, rid ∈ s.gone ∨ resting (s.requests.phases rid) = true) ∧ s.cleanups = []

/-- Every entry is that of a stored key. -/
def Clean (g : Gateway) : Prop := ∀ m id, has g m id = true → Present g.keys id

/-- Replacing the store by this one takes the last key away from an entry that no
`DELETE` is about to free. -/
def Strands (s : State) (store : KeyStore) (m : PerKey) (id : String) : Prop :=
  has s.gateway m id = true ∧ Present s.keys id ∧ ¬ Present store id ∧ ¬ Due s.cleanups m id

/-- A request writes only entries that are owned, and a writer of the store strands no
entry. The entry of the id named in a `DELETE` is freed by that `DELETE`. -/
def Tidy (sys : RequestInterleaving.System) (s : State) : Event → Prop
  | .request rid now =>
      rid ∉ s.gone → ∀ m id, writes sys now m (s.requests.phases rid) = some id → Owned s m id
  | .create key => ∀ m id, ¬ Strands s (s.keys.insert key) m id
  | .pull keys => ∀ m id, ¬ Strands s (s.keys.replaceAll keys) m id
  | .delete id => ∀ m other, other ≠ id → ¬ Strands s (s.keys.removeById id).1 m other
  | _ => True

/-- Every event of the run is tidy in the state it happens in. -/
def TidyRun (sys : RequestInterleaving.System) : State → List Event → Prop :=
  Along (step sys) (Tidy sys)

theorem present_of_perm {s t : KeyStore} (h : s.byHash.entries.Perm t.byHash.entries)
    (id : String) : Present t id ↔ Present s id := by
  unfold Present KeyStore.list
  simp only [(h.map Sigma.snd).mem_iff]

theorem due_cons_rate (id : String) (cs : List Cleanup) (m : PerKey) (other : String) :
    Due (.rate id :: cs) m other ↔ other = id ∨ Due cs m other := by
  cases m with
  | rate => simp [Due]
  | spend => simp [Due, or_assoc]

/-- The two ways an entry that was owned stays so. -/
theorem owned_of_not_strands {s : State} (h : Inv s) {store : KeyStore} {m : PerKey} {id : String}
    (hhas : has s.gateway m id = true) (hnot : ¬ Strands s store m id) :
    Present store id ∨ Due s.cleanups m id := by
  by_contra hlost
  rw [not_or] at hlost
  have hpresent : Present s.keys id := (h m id hhas).resolve_right hlost.2
  exact hnot ⟨hhas, hpresent, hlost⟩

theorem write_inv_iff {sys : RequestInterleaving.System} {s : State} (h : Inv s)
    (store : KeyStore) :
    Inv (s.after sys (.keys store)) ↔ ∀ m id, ¬ Strands s store m id := by
  constructor
  · rintro hafter m id ⟨hhas, -, habsent, hnotDue⟩
    exact (hafter m id hhas).elim habsent hnotDue
  · intro hnot m id hhas
    exact owned_of_not_strands h hhas (hnot m id)

theorem request_inv_iff {sys : RequestInterleaving.System} {s : State} (h : Inv s) (rid : ℕ)
    (now : Clock) : Inv (step sys s (.request rid now)) ↔ Tidy sys s (.request rid now) := by
  simp only [step, Tidy]
  split_ifs with hgone
  · simp [h, hgone]
  · have howned (m : PerKey) (id : String) :
        Owned (s.after sys (.step rid now)) m id ↔ Owned s m id := by
      simp [Owned, State.keys, State.gateway, State.after, RequestInterleaving.next]
    constructor
    · intro hafter _ m id hwrites
      exact (howned m id).mp (hafter m id ((has_advance_iff ..).mpr (.inr hwrites)))
    · intro htidy m id hhas
      apply (howned m id).mpr
      rcases (has_advance_iff ..).mp hhas with hbefore | hwrites
      · exact h m id hbefore
      · exact htidy hgone m id hwrites

theorem delete_inv_iff {sys : RequestInterleaving.System} {s : State} (h : Inv s) (id : String) :
    Inv (step sys s (.delete id)) ↔ Tidy sys s (.delete id) := by
  simp only [step, Tidy]
  rcases hremove : s.keys.removeById id with ⟨store, _ | _⟩
  · have hsame : store = s.keys := by
      rcases s.keys.removeById_cases id with ⟨k, -, -, htrue⟩ | ⟨hfalse, -⟩
      · rw [htrue] at hremove
        cases hremove
      · rw [hfalse] at hremove
        exact (Prod.mk.inj hremove).1.symm
    refine iff_of_true h ?_
    rintro m other - ⟨-, hpresent, habsent, -⟩
    exact habsent (hsame ▸ hpresent)
  · constructor
    · rintro hafter m other hother ⟨hhas, -, habsent, hnotDue⟩
      rcases hafter m other hhas with hpresent | hdue
      · exact habsent hpresent
      · exact ((due_cons_rate id s.cleanups m other).mp hdue).elim hother hnotDue
    · intro hnot m other hhas
      by_cases hother : other = id
      · exact .inr ((due_cons_rate id s.cleanups m other).mpr (.inl hother))
      · rcases owned_of_not_strands h hhas (hnot m other hother) with hpresent | hdue
        · exact .inl hpresent
        · exact .inr ((due_cons_rate id s.cleanups m other).mpr (.inr hdue))

/-- Freeing the bucket leaves the entry of the spend tracker due. -/
theorem cleanup_rate_inv {sys : RequestInterleaving.System} {s : State} (h : Inv s)
    (id : String) : Inv (step sys s (.cleanup (.rate id))) := by
  simp only [step]
  split_ifs
  · intro m other hhas
    cases m with
    | rate =>
        obtain ⟨hother, hbefore⟩ := (forgetRate_isSome_iff ..).mp hhas
        refine (h .rate other hbefore).imp_right ?_
        intro hdue
        simpa [Due, hother] using hdue
    | spend =>
        refine (h .spend other hhas).imp_right ?_
        rintro (hrate | hspend)
        · by_cases hother : other = id
          · simp [Due, hother]
          · simpa [Due, hother] using Or.inl hrate
        · simpa [Due] using Or.inr (Or.inr hspend)
  · exact h

theorem cleanup_spend_inv {sys : RequestInterleaving.System} {s : State} (h : Inv s)
    (id : String) : Inv (step sys s (.cleanup (.spend id))) := by
  simp only [step]
  split_ifs
  · intro m other hhas
    cases m with
    | rate =>
        refine (h .rate other hhas).imp_right ?_
        intro hdue
        simpa [Due] using hdue
    | spend =>
        obtain ⟨hother, hbefore⟩ := (forgetSpend_isSome_iff ..).mp hhas
        refine (h .spend other hbefore).imp_right ?_
        intro hdue
        simpa [Due, hother] using hdue
  · exact h

/-- One event keeps every entry owned exactly if it is tidy. -/
theorem step_inv_iff {sys : RequestInterleaving.System} {s : State} (h : Inv s) (e : Event) :
    Inv (step sys s e) ↔ Tidy sys s e := by
  cases e with
  | request rid now => exact request_inv_iff h rid now
  | abandon rid => exact iff_of_true h trivial
  | create key => exact write_inv_iff h _
  | pull keys => exact write_inv_iff h _
  | rehash store =>
      refine iff_of_true ?_ trivial
      simp only [step]
      split_ifs with hperm
      · apply (write_inv_iff h store).mpr
        rintro m id ⟨-, hpresent, habsent, -⟩
        exact habsent ((present_of_perm hperm id).mpr hpresent)
      · exact h
  | delete id => exact delete_inv_iff h id
  | cleanup c =>
      refine iff_of_true ?_ trivial
      cases c with
      | rate id => exact cleanup_rate_inv h id
      | spend id => exact cleanup_spend_inv h id

/-- `DELETE` removes a record with the id it names and frees that id. Only a record with an
empty id is filed under another identifier. -/
theorem tidy_delete (sys : RequestInterleaving.System) (s : State) {id : String} (hid : id ≠ "") :
    Tidy sys s (.delete id) := by
  rintro m other hother ⟨-, ⟨k, hk, rfl⟩, habsent, -⟩
  apply habsent
  rcases s.keys.removeById_cases id with ⟨k', hk', rfl, hremove⟩ | ⟨hremove, -⟩
  · have hne : k.hash ≠ k'.hash := by
      intro hhash
      have hlookup := (s.keys.mem_list_iff k).mp hk
      rw [hhash, hk'] at hlookup
      obtain rfl := Option.some.inj hlookup
      exact hother (by simp [VirtualKey.identifier, String.isEmpty_iff, hid])
    refine ⟨k, ?_, rfl⟩
    rw [hremove, KeyStore.mem_list_iff, KeyStore.lookup_erase, if_neg hne]
    exact (s.keys.mem_list_iff k).mp hk
  · rw [hremove]
    exact ⟨k, hk, rfl⟩

/-- It is enough that the store holds a key for whatever the request writes. -/
theorem tidy_request {sys : RequestInterleaving.System} {s : State} {rid : ℕ} {now : Clock}
    (h : ∀ m ∈ [PerKey.rate, PerKey.spend], ((writes sys now m (s.requests.phases rid)).all
      fun id => s.keys.list.any fun k => k.identifier == id) = true) :
    Tidy sys s (.request rid now) := by
  intro _ m id hwrites
  have hany := h m (by cases m <;> simp)
  rw [hwrites, Option.all_some, List.any_eq_true] at hany
  obtain ⟨k, hk, hid⟩ := hany
  exact .inl ⟨k, hk, beq_iff_eq.mp hid⟩

/-- A freshly generated token has a hash of its own. -/
theorem tidy_create (sys : RequestInterleaving.System) (s : State) {key : VirtualKey}
    (hnew : s.keys.lookup key.hash = none) : Tidy sys s (.create key) := by
  rintro m id ⟨-, ⟨k, hk, rfl⟩, habsent, -⟩
  apply habsent
  have hlookup := (s.keys.mem_list_iff k).mp hk
  have hne : k.hash ≠ key.hash := by
    intro hhash
    rw [hhash, hnew] at hlookup
    cases hlookup
  refine ⟨k, ?_, rfl⟩
  rw [KeyStore.mem_list_iff, KeyStore.lookup_insert, if_neg hne]
  exact hlookup

/-- A run is tidy exactly if every entry stays owned all along. -/
theorem tidyRun_iff {sys : RequestInterleaving.System} {s : State} (h : Inv s)
    (es : List Event) : TidyRun sys s es ↔ ∀ fs, fs <+: es → Inv (run (step sys) s fs) := by
  have hstep : ∀ t e, Inv t → (Inv (step sys t e) ↔ Tidy sys t e) := by
    intro t e ht
    exact step_inv_iff ht e
  exact along_iff_prefixes hstep h es

theorem inv_start (keys : KeyStore) (cache : ResponseCache) : Inv (.start keys cache) := by
  intro m id hhas
  cases m <;> simp [has, State.gateway, State.start, RequestInterleaving.State.start,
    RateLimiter.empty, SpendTracker.empty] at hhas

/-- With nothing left to free, an owned entry has its key. -/
theorem clean_of_inv {s : State} (h : Inv s) (hidle : Idle s) : Clean s.gateway := by
  intro m id hhas
  refine (h m id hhas).resolve_right ?_
  rw [hidle.2]
  cases m <;> simp [Due]

/-- In every run of tidy events from the start of the process, whenever no request is on
its way, every bucket and every entry belongs to a stored key. -/
theorem idle_state_clean (sys : RequestInterleaving.System) (keys : KeyStore)
    (cache : ResponseCache) (es : List Event) (htidy : TidyRun sys (.start keys cache) es)
    (hidle : Idle (run (step sys) (.start keys cache) es)) :
    Clean (run (step sys) (.start keys cache) es).gateway := by
  have hinv : ∀ fs, fs <+: es → Inv (run (step sys) (.start keys cache) fs) :=
    (tidyRun_iff (inv_start keys cache) es).mp htidy
  exact clean_of_inv (hinv es List.prefix_rfl) hidle

/-- A request that no event of the run concerns stays in its phase. -/
theorem run_phases_of_unconcerned (sys : RequestInterleaving.System) (s : State)
    (es : List Event) (rid : ℕ) (h : ∀ now, Event.request rid now ∉ es) :
    (run (step sys) s es).requests.phases rid = s.requests.phases rid := by
  refine run_frame (fun t => t.requests.phases rid) ?_ s
  intro t e he
  cases e with
  | request other now =>
      have hne : rid ≠ other := by
        rintro rfl
        exact h now he
      simp only [step]
      split_ifs
      · rfl
      · simp [State.after, RequestInterleaving.next, hne]
  | abandon other => rfl
  | create key => rfl
  | pull keys => rfl
  | rehash store =>
      simp only [step]
      split_ifs <;> rfl
  | delete id =>
      simp only [step]
      split <;> rfl
  | cleanup c =>
      cases c with
      | rate id =>
          simp only [step]
          split_ifs <;> rfl
      | spend id =>
          simp only [step]
          split_ifs <;> rfl

/-- A run with steps of request 0 only is idle once that request is over and every
`DELETE` is through. -/
theorem idle_of_single {sys : RequestInterleaving.System} {keys : KeyStore}
    {cache : ResponseCache} {es : List Event}
    (honly : ∀ e ∈ es, ∀ rid now, e = Event.request rid now → rid = 0)
    (hover : resting ((run (step sys) (.start keys cache) es).requests.phases 0) = true)
    (hfreed : (run (step sys) (.start keys cache) es).cleanups = []) :
    Idle (run (step sys) (.start keys cache) es) := by
  refine ⟨?_, hfreed⟩
  intro rid
  right
  by_cases hrid : rid = 0
  · rwa [hrid]
  · rw [run_phases_of_unconcerned]
    · rfl
    · intro now hmem
      exact hrid (honly _ hmem rid now rfl)

/-- A bucket of a store without keys is nobody's. -/
theorem not_clean_of_bucket {g : Gateway} (id : String) (hbucket : has g .rate id = true)
    (hempty : g.keys.isEmpty = true) : ¬ Clean g := by
  intro h
  obtain ⟨k, hk, -⟩ := h .rate id hbucket
  rw [(KeyStore.isEmpty_iff g.keys).mp hempty] at hk
  cases hk

/-- The key of the token `t`: one request per second, for the model `m`. -/
def limitedKey : VirtualKey :=
  { VirtualKey.anonymous with id := "vp_a", hash := "74", models := ["m"], rateLimitRps := some 1 }

/-- Every request bears the token `t` and names no model, so the handler refuses it after
the rate check. -/
def sampleSystem : RequestInterleaving.System where
  lib := ⟨id, fun _ => none, fun _ _ => none, fun _ => none⟩
  runtime := ⟨⟨fun _ => none⟩, false, []⟩
  requests _ := ⟨.chat, [("authorization", asBytes "Bearer t")], []⟩
  upstream _ _ := .error (.provider "unreachable")

def sampleStart : State := .start KeyStore.empty ResponseCache.empty

/-- The next step of the one request. -/
def tick : Event := .request 0 ⟨0, 0⟩

/-- The request is over before its key is revoked. -/
def revokedAfterwards : List Event := [.create limitedKey, tick, tick, tick, tick] ++ revocation "vp_a"

/-- The bucket goes with its key. -/
theorem idle_state_clean_revoked :
    has (run (step sampleSystem) sampleStart (revokedAfterwards.take 4)).gateway .rate "vp_a" =
        true ∧
      Clean (run (step sampleSystem) sampleStart revokedAfterwards).gateway := by
  refine ⟨by decide +kernel, idle_state_clean sampleSystem _ _ revokedAfterwards ?_ ?_⟩
  · exact ⟨tidy_create _ _ rfl, tidy_request (by decide +kernel),
      tidy_request (by decide +kernel), tidy_request (by decide +kernel),
      tidy_request (by decide +kernel), tidy_delete _ _ (by decide), trivial, trivial, trivial⟩
  · apply idle_of_single
    · simp [revokedAfterwards, tick, revocation]
    · decide +kernel
    · decide +kernel

/-- The revocation falls between the lookup of the request and its rate check. -/
def revokedInFlight : List Event :=
  [.create limitedKey, tick, tick] ++ revocation "vp_a" ++ [tick, tick]

/-- The request is over before a key set without its key is pulled. -/
def pulledAway : List Event := [.create limitedKey, tick, tick, tick, tick, .pull []]

/-- Either way the bucket stays behind: nothing is in flight and the store is empty. -/
theorem buckets_left_behind :
    (Idle (run (step sampleSystem) sampleStart revokedInFlight) ∧
      ¬ Clean (run (step sampleSystem) sampleStart revokedInFlight).gateway) ∧
    (Idle (run (step sampleSystem) sampleStart pulledAway) ∧
      ¬ Clean (run (step sampleSystem) sampleStart pulledAway).gateway) := by
  refine ⟨⟨?_, ?_⟩, ?_, ?_⟩
  · apply idle_of_single
    · simp [revokedInFlight, tick, revocation]
    · decide +kernel
    · decide +kernel
  · exact not_clean_of_bucket "vp_a" (by decide +kernel) (by decide +kernel)
  · apply idle_of_single
    · simp [pulledAway, tick]
    · decide +kernel
    · decide +kernel
  · exact not_clean_of_bucket "vp_a" (by decide +kernel) (by decide +kernel)

end VaultplaneGateway.OrphanedState
