import VaultplaneGateway.KeyRevocation
import VaultplaneGateway.RequestInterleaving

/-!
# Key lookup under concurrent key writes

The middleware reads the key store in two critical sections: first whether the store is
empty, then the record of the token. Writers may come before, between and after the two.
The lookup ought to answer as if it had run at one moment on the set current then. It
does unless the store is emptied between the two reads: the token is then refused
although authentication is off, which no set of the time explains if every nonempty one
would have accepted it.

The machine below is the lookup of one request. It is what any interleaving of whole
requests does to the lookup of that request.
-/
namespace VaultplaneGateway.KeySwaps
open WireFormats KeyRecords ProxyPipeline TransitionRuns

/-- How far the lookup has come. -/
inductive Lookup where
  | arrived
  | challenged
  | found (outcome : Except Response VirtualKey)

/-- The next critical section of the lookup, on the store it finds. -/
def read (lib : Externals) (headers : HeaderMap) (keys : KeyStore) : Lookup → Lookup
  | .arrived => if keys.isEmpty then .found (.ok VirtualKey.anonymous) else .challenged
  | .challenged =>
      match (bearerToken headers).bind (keys.authenticate lib) with
      | some key => .found (.ok key)
      | none => .found (.error (error 401 "missing or invalid virtual key"))
  | .found outcome => .found outcome

/-- The store, the lookup, and the sets that were current from the arrival of the request
to the answer of its lookup. -/
structure State where
  keys : KeyStore
  lookup : Lookup
  current : List KeyStore

def start (keys : KeyStore) : State := ⟨keys, .arrived, [keys]⟩

/-- The request enters its next critical section, or a writer leaves a new store:
`insert`, `replaceAll` and `removeById` are writers, in any iteration order. -/
inductive Event where
  | read
  | write (store : KeyStore)

def step (lib : Externals) (headers : HeaderMap) (s : State) : Event → State
  | .read => { s with lookup := read lib headers s.keys s.lookup }
  | .write store =>
      match s.lookup with
      | .found _ => { s with keys := store }
      | _ => { s with keys := store, current := store :: s.current }

/-- The answer is that of the whole lookup on one set of the time. -/
def Atomic (lib : Externals) (headers : HeaderMap) (s : State) : Prop :=
  ∀ outcome, s.lookup = .found outcome →
    ∃ store ∈ s.current, outcome = identify lib store headers

/-- If the event is the second read and finds no keys at all, then some nonempty set of
the time does not know the token. -/
def Sheltered (lib : Externals) (headers : HeaderMap) (s : State) (e : Event) : Prop :=
  s.lookup = .challenged → e = .read → s.keys.isEmpty = true →
    ∃ store ∈ s.current, store.isEmpty = false ∧
      (bearerToken headers).bind (store.authenticate lib) = none

/-- Every step of the run is sheltered in the state it is taken in. -/
def Shelters (lib : Externals) (headers : HeaderMap) : State → List Event → Prop :=
  Along (step lib headers) (Sheltered lib headers)

/-- Until it is answered the lookup would be told the current set. -/
def Live (s : State) : Prop := (∃ outcome, s.lookup = .found outcome) ∨ s.keys ∈ s.current

theorem step_live {lib : Externals} {headers : HeaderMap} {s : State} (h : Live s) (e : Event) :
    Live (step lib headers s e) := by
  cases e with
  | read =>
      rcases h with ⟨outcome, hfound⟩ | hmem
      · exact .inl ⟨outcome, by simp [step, read, hfound]⟩
      · exact .inr hmem
  | write store =>
      cases hl : s.lookup with
      | found outcome => exact .inl ⟨outcome, by simp [step, hl]⟩
      | arrived => exact .inr (by simp [step, hl])
      | challenged => exact .inr (by simp [step, hl])

/-- A set refuses the request as a whole exactly if it is nonempty and does not know the
token. -/
theorem identify_refuses_iff (lib : Externals) (headers : HeaderMap) (store : KeyStore) :
    .error (error 401 "missing or invalid virtual key") = identify lib store headers ↔
      store.isEmpty = false ∧ (bearerToken headers).bind (store.authenticate lib) = none := by
  unfold identify
  cases hempty : store.isEmpty with
  | true => simp
  | false =>
      cases (bearerToken headers).bind (store.authenticate lib) with
      | none => simp
      | some key => simp

/-- The second read answers for a set of the time exactly if it is sheltered. -/
theorem second_read_atomic_iff {lib : Externals} {headers : HeaderMap} {s : State}
    (hl : s.lookup = .challenged) (hmem : s.keys ∈ s.current) :
    Atomic lib headers (step lib headers s .read) ↔ Sheltered lib headers s .read := by
  cases hkey : (bearerToken headers).bind (s.keys.authenticate lib) with
  | some key =>
      obtain ⟨token, -, hauth⟩ := Option.bind_eq_some_iff.mp hkey
      have hne : s.keys.isEmpty = false := KeyStore.isEmpty_of_authenticate hauth
      refine iff_of_true ?_ ?_
      · intro outcome hfound
        obtain rfl : Except.ok key = outcome := by simpa [step, read, hl, hkey] using hfound
        exact ⟨s.keys, hmem, by simp [identify, hne, hkey]⟩
      · intro _ _ hempty
        rw [hne] at hempty
        cases hempty
  | none =>
      have hfound : (step lib headers s .read).lookup =
          .found (.error (error 401 "missing or invalid virtual key")) := by
        simp [step, read, hl, hkey]
      constructor
      · intro h _ _ _
        obtain ⟨store, hstore, heq⟩ := h _ hfound
        exact ⟨store, hstore, (identify_refuses_iff lib headers store).mp heq⟩
      · intro h outcome houtcome
        obtain rfl := Lookup.found.inj (hfound.symm.trans houtcome)
        cases hempty : s.keys.isEmpty with
        | true =>
            obtain ⟨store, hstore, hrefuses⟩ := h hl rfl hempty
            exact ⟨store, hstore, (identify_refuses_iff lib headers store).mpr hrefuses⟩
        | false =>
            exact ⟨s.keys, hmem, (identify_refuses_iff lib headers s.keys).mpr ⟨hempty, hkey⟩⟩

/-- One event keeps the answer atomic exactly if it is sheltered. -/
theorem step_atomic_iff {lib : Externals} {headers : HeaderMap} {s : State} (hlive : Live s)
    (e : Event) :
    Atomic lib headers (step lib headers s e) ↔
      Atomic lib headers s ∧ Sheltered lib headers s e := by
  cases hl : s.lookup with
  | found outcome =>
      have hshelter : Sheltered lib headers s e := by
        intro hchallenged
        rw [hl] at hchallenged
        cases hchallenged
      have hsame : (step lib headers s e).lookup = s.lookup ∧
          (step lib headers s e).current = s.current := by
        cases e with
        | read => simp [step, read, hl]
        | write store => simp [step, hl]
      unfold Atomic
      rw [hsame.1, hsame.2]
      exact (and_iff_left hshelter).symm
  | arrived =>
      have hmem : s.keys ∈ s.current := by simpa [Live, hl] using hlive
      refine iff_of_true ?_ ⟨by simp [Atomic, hl], by simp [Sheltered, hl]⟩
      intro outcome hfound
      cases e with
      | read =>
          simp only [step, read, hl] at hfound
          split_ifs at hfound with hempty
          obtain rfl := Lookup.found.inj hfound
          exact ⟨s.keys, hmem, by simp [identify, hempty]⟩
      | write store => simp [step, hl] at hfound
  | challenged =>
      have hmem : s.keys ∈ s.current := by simpa [Live, hl] using hlive
      have hatomic : Atomic lib headers s := by simp [Atomic, hl]
      rw [and_iff_right hatomic]
      cases e with
      | read => exact second_read_atomic_iff hl hmem
      | write store => exact iff_of_true (by simp [Atomic, step, hl]) (by simp [Sheltered])

/-- Whatever writers come at whatever moments, the lookup of a request answers for one
set of its time exactly if its second read is sheltered. -/
theorem lookup_atomic_iff (lib : Externals) (headers : HeaderMap) (keys : KeyStore)
    (es : List Event) :
    Atomic lib headers (run (step lib headers) (start keys) es) ↔
      Shelters lib headers (start keys) es := by
  have hlive : Live (start keys) := .inr (by simp [start])
  have hatomic : Atomic lib headers (start keys) := by simp [Atomic, start]
  rw [run_iff_along (fun s e hs => step_live hs e) (fun s e hs => step_atomic_iff hs e) hlive]
  exact and_iff_right hatomic

/-- Tokens are their own digests. -/
def plainDigest : Externals := ⟨id, fun _ => none, fun _ _ => none, fun _ => none⟩

/-- One key, for the token `t`. -/
def oneKey : KeyStore := KeyStore.new [KeyRevocation.plainKey "vp_a" "74"]

def bearerT : HeaderMap := [("authorization", asBytes "Bearer t")]

/-- The only key is revoked between the two reads. -/
def revokedBetween : List Event := [.read, .write (oneKey.removeById "vp_a").1, .read]

/-- The old set knows the token and the new one admits everyone, yet the request is
refused. -/
theorem revocation_between_reads :
    identify plainDigest oneKey bearerT = .ok (KeyRevocation.plainKey "vp_a" "74") ∧
      identify plainDigest (oneKey.removeById "vp_a").1 bearerT = .ok VirtualKey.anonymous ∧
      ¬ Atomic plainDigest bearerT (run (step plainDigest bearerT) (start oneKey) revokedBetween) := by
  have hold : identify plainDigest oneKey bearerT = .ok (KeyRevocation.plainKey "vp_a" "74") := by
    decide +kernel
  have hnew : identify plainDigest (oneKey.removeById "vp_a").1 bearerT =
      .ok VirtualKey.anonymous := by
    decide +kernel
  refine ⟨hold, hnew, ?_⟩
  intro h
  obtain ⟨store, hstore, heq⟩ := h (.error (error 401 "missing or invalid virtual key")) rfl
  have hcurrent : (run (step plainDigest bearerT) (start oneKey) revokedBetween).current =
      [(oneKey.removeById "vp_a").1, oneKey] := rfl
  rw [hcurrent, List.mem_cons, List.mem_singleton] at hstore
  rcases hstore with rfl | rfl
  · rw [hnew] at heq
    cases heq
  · rw [hold] at heq
    cases heq

/-- The phase a request is in while its key is looked up, and right after. -/
def phaseOf : Lookup → RequestInterleaving.Phase
  | .arrived => .arrived
  | .challenged => .challenged
  | .found (.ok key) => .identified key
  | .found (.error refusal) => .done refusal

/-- What an event of the interleaved requests is to the lookup of `rid`. -/
def eventOf (rid : ℕ) : RequestInterleaving.Event → Option Event
  | .step other _ => if other = rid then some .read else none
  | .keys store => some (.write store)
  | _ => none

/-- The lookup and the request agree: on the store, and on the phase until the lookup is
answered. -/
structure Follows (rid : ℕ) (t : RequestInterleaving.State) (s : State) : Prop where
  keys : t.gateway.keys = s.keys
  phase : (∃ outcome, s.lookup = .found outcome) ∨ t.phases rid = phaseOf s.lookup

/-- A step of the request in a lookup phase is the next read of its lookup. -/
theorem advance_lookup (sys : RequestInterleaving.System) (rid : ℕ) (g : Gateway) (now : Clock)
    {l : Lookup} (h : ∀ outcome, l ≠ .found outcome) :
    (RequestInterleaving.advance sys rid g now (phaseOf l)).2 =
      phaseOf (read sys.lib (sys.requests rid).headers g.keys l) := by
  cases l with
  | arrived =>
      simp only [phaseOf, RequestInterleaving.advance, read]
      split_ifs <;> rfl
  | challenged =>
      simp only [phaseOf, RequestInterleaving.advance, read]
      cases (bearerToken (sys.requests rid).headers).bind (g.keys.authenticate sys.lib) <;> rfl
  | found outcome => exact (h outcome rfl).elim

/-- An event that does not concern the lookup changes neither side. -/
theorem Follows.of_same {rid : ℕ} {t t' : RequestInterleaving.State} {s : State}
    (h : Follows rid t s) (hkeys : t'.gateway.keys = t.gateway.keys)
    (hphase : t'.phases rid = t.phases rid) : Follows rid t' s :=
  ⟨hkeys.trans h.keys, hphase ▸ h.phase⟩

theorem next_follows {sys : RequestInterleaving.System} {rid : ℕ} {t : RequestInterleaving.State}
    {s : State} (h : Follows rid t s) (e : RequestInterleaving.Event) :
    Follows rid (RequestInterleaving.next sys t e)
      (run (step sys.lib (sys.requests rid).headers) s (eventOf rid e).toList) := by
  cases e with
  | step other now =>
      by_cases hr : other = rid
      · subst hr
        simp only [eventOf, if_true, Option.toList_some, run_cons, run_nil]
        refine ⟨?_, ?_⟩
        · simpa [RequestInterleaving.next, step] using h.keys
        · by_cases hfound : ∃ outcome, s.lookup = .found outcome
          · obtain ⟨outcome, hl⟩ := hfound
            exact .inl ⟨outcome, by simp [step, read, hl]⟩
          · right
            have hphase := h.phase.resolve_left hfound
            have hstep := advance_lookup sys other t.gateway now (l := s.lookup)
              fun outcome hl => hfound ⟨outcome, hl⟩
            simp only [RequestInterleaving.next, Function.update_self, hphase, hstep, step, h.keys]
      · simp only [eventOf, if_neg hr, Option.toList_none, run_nil]
        apply h.of_same
        · simp [RequestInterleaving.next]
        · simp [RequestInterleaving.next, Function.update_of_ne (Ne.symm hr)]
  | keys store =>
      simp only [eventOf, Option.toList_some, run_cons, run_nil]
      cases hl : s.lookup with
      | found outcome => exact ⟨by simp [RequestInterleaving.next, step, hl], .inl ⟨outcome, by
          simp [step, hl]⟩⟩
      | arrived =>
          refine ⟨by simp [RequestInterleaving.next, step, hl], .inr ?_⟩
          simpa [RequestInterleaving.next, step, hl] using h.phase
      | challenged =>
          refine ⟨by simp [RequestInterleaving.next, step, hl], .inr ?_⟩
          simpa [RequestInterleaving.next, step, hl] using h.phase
  | forgetRate keyId => exact h.of_same rfl rfl
  | forgetSpend keyId => exact h.of_same rfl rfl
  | evict cacheKey => exact h.of_same rfl rfl

/-- In any interleaving of requests, writers and cleanup, the lookup of one request is
the machine above run on the events that concern it. -/
theorem run_follows (sys : RequestInterleaving.System) (rid : ℕ) (g : Gateway)
    (es : List RequestInterleaving.Event) :
    Follows rid (run (RequestInterleaving.next sys) (RequestInterleaving.State.start g) es)
      (run (step sys.lib (sys.requests rid).headers) (start g.keys)
        (es.filterMap (eventOf rid))) := by
  induction es using List.reverseRecOn with
  | nil => exact ⟨rfl, .inr rfl⟩
  | append_singleton es e ih =>
      have htail : [e].filterMap (eventOf rid) = (eventOf rid e).toList := by
        cases he : eventOf rid e <;> simp [he]
      rw [List.filterMap_append, htail, run_append, run_append]
      exact next_follows ih e

end VaultplaneGateway.KeySwaps
