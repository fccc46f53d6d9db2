import VaultplaneGateway.ProxyPipeline
import VaultplaneGateway.SpendHistory

/-!
# The spend gate and the spend report

The proxy asks the tracker whether a key has budget left; the admin endpoint reports how
much is left. Both look for an entry of the current period. Without one the report takes
the spend to be zero, while the gate answers at once, without comparing zero with the
limit. They can differ only for a limit that leaves no budget at all.
-/
namespace VaultplaneGateway.SpendReporting
open WireFormats InlinePlugins KeyRecords SpendTracking SpendHistory TransitionRuns ProxyPipeline

structure SpendSnapshot where
  usd : ℚ
  period : Period
  deriving DecidableEq, Repr

structure SpendBudget where
  usd : ℚ
  period : Period
  remainingUsd : ℚ
  deriving DecidableEq, Repr

structure KeySpendResponse where
  keyId : String
  team : String
  app : String
  env : String
  spend : Option SpendSnapshot
  limit : Option SpendBudget
  deriving DecidableEq, Repr

/-- What is reported of a key. -/
def keyReport (tracker : SpendTracker) (key : VirtualKey) (now : ℕ) : KeySpendResponse :=
  let report := key.spendLimit.map fun spendLimit =>
    let current := tracker.currentUsd key.id spendLimit.period now
    let remaining := max (spendLimit.amountUsd - current) 0
    ((⟨current, spendLimit.period⟩ : SpendSnapshot),
      (⟨spendLimit.amountUsd, spendLimit.period, remaining⟩ : SpendBudget))
  ⟨key.id, key.team, key.app, key.env, report.map Prod.fst, report.map Prod.snd⟩

/-- `GET /admin/keys/{id}/spend`; without such a key the answer is 404. -/
def keySpend (keys : KeyStore) (tracker : SpendTracker) (id : String) (now : ℕ) :
    Option KeySpendResponse :=
  (keys.findById id).map fun key => keyReport tracker key now

/-- The report says that something is left. -/
def ReportsHeadroom (keys : KeyStore) (tracker : SpendTracker) (id : String) (now : ℕ) : Prop :=
  ∃ budget, (keySpend keys tracker id now).bind KeySpendResponse.limit = some budget ∧
    0 < budget.remainingUsd

def spendAdmits (tracker : SpendTracker) (key : VirtualKey) (now : ℕ) : Bool :=
  key.spendLimit.all fun limit => tracker.preCheck key.identifier limit now

/-- A request for a model in scope is refused with 402, or goes on to the plugins. -/
theorem gate_spend (rt : Runtime) (tracker : SpendTracker) {key : VirtualKey} (req : Request)
    {info : Meta} (now : ℕ) (hscope : key.allowsModel info.virtualModel = true) :
    gate rt tracker key req info now =
      if spendAdmits tracker key now then
        match runPlugins rt.plugins req.endpoint.path info.virtualModel req.body with
        | .ok body =>
            .ok ⟨req.endpoint, key, info.virtualModel, info.stream,
              headerStr req.headers idempotencyHeader, body⟩
        | .error rejection =>
            let status := rejection.info.statusCode
            .error (error (if validStatus status then status else 403) rejection.info.reason)
      else .error (error 402 "spend limit exceeded for this period") := by
  have hany : (key.spendLimit.any fun limit => !tracker.preCheck key.identifier limit now) =
      !spendAdmits tracker key now := by
    unfold spendAdmits
    cases key.spendLimit <;> rfl
  rw [gate, hany, hscope]
  cases spendAdmits tracker key now <;> rfl

/-- What a call does to the entry of `k`: it leaves a token, or nothing. -/
def Op.leaves (k : String) : Op → Option (Option ℕ)
  | .record k' p _ t => if k' = k then some (some (currentPeriodToken p t)) else none
  | .forget k' _ => if k' = k then some none else none
  | .preCheck _ _ _ => none

/-- The token of the last charge to `k`, unless `k` was forgotten after it. -/
def lastToken (k : String) (ops : List Op) : Option ℕ :=
  (ops.filterMap (Op.leaves k)).getLast?.join

theorem lastToken_concat (k : String) (ops : List Op) (op : Op) :
    lastToken k (ops ++ [op]) = (Op.leaves k op).getD (lastToken k ops) := by
  unfold lastToken
  rw [List.filterMap_append]
  cases hleaves : Op.leaves k op with
  | none => simp [hleaves]
  | some token => simp [hleaves]

theorem token_run (k : String) (ops : List Op) :
    ((run step SpendTracker.empty ops).entries k).map SpendState.periodToken = lastToken k ops := by
  induction ops using List.reverseRecOn with
  | nil => rfl
  | append_singleton ops op ih =>
      rw [run_append, run_cons, run_nil, lastToken_concat]
      cases op with
      | record k' p c t =>
          by_cases hk : k' = k
          · subst hk
            rw [step, SpendTracker.record_entry]
            simp [Op.leaves]
          · rw [step, SpendTracker.record_entry_ne _ (Ne.symm hk), ih]
            simp [Op.leaves, hk]
      | forget k' t =>
          by_cases hk : k' = k
          · subst hk
            simp [step, SpendTracker.forget, Op.leaves]
          · simpa [step, SpendTracker.forget, Ne.symm hk, Op.leaves, hk] using ih
      | preCheck k' limit t => simpa [step, Op.leaves] using ih

theorem held_isSome_iff (s : SpendTracker) (k : String) (p : Period) (now : ℕ) :
    (s.held k p now).isSome = true ↔
      (s.entries k).map SpendState.periodToken = some (currentPeriodToken p now) := by
  unfold SpendTracker.held
  cases s.entries k with
  | none => simp
  | some state =>
      by_cases htoken : state.periodToken = currentPeriodToken p now
      · simp [htoken]
      · simp [htoken]

/-- The gate compares what the report reads, if there is an entry to compare. -/
theorem preCheck_iff_currentUsd_lt_iff (s : SpendTracker) (k : String) (limit : SpendLimit)
    (now : ℕ) :
    (s.preCheck k limit now = true ↔ s.currentUsd k limit.period now < limit.amountUsd) ↔
      0 < limit.amountUsd ∨ (s.held k limit.period now).isSome = true := by
  rw [SpendTracker.preCheck_eq, SpendTracker.currentUsd_eq]
  cases s.held k limit.period now with
  | none => simp
  | some usd => simp

theorem reportsHeadroom_iff {keys : KeyStore} {id : String} {key : VirtualKey}
    (hfind : keys.findById id = some key) {limit : SpendLimit}
    (hlimit : key.spendLimit = some limit) (tracker : SpendTracker) (now : ℕ) :
    ReportsHeadroom keys tracker id now ↔
      tracker.currentUsd id limit.period now < limit.amountUsd := by
  have hid : key.id = id := by
    simpa using List.find?_some hfind
  unfold ReportsHeadroom keySpend
  simp [keyReport, hfind, hlimit, hid]

theorem spendAdmits_iff {key : VirtualKey} (hid : key.id ≠ "") {limit : SpendLimit}
    (hlimit : key.spendLimit = some limit) (tracker : SpendTracker) (now : ℕ) :
    spendAdmits tracker key now = true ↔ tracker.preCheck key.id limit now = true := by
  have hidentifier : key.identifier = key.id := by
    simp [VirtualKey.identifier, hid]
  rw [spendAdmits, hlimit, Option.all_some, hidentifier]

/-- In every state that calls of the tracker lead to, for every key, limit and instant:
the gate answers as the reported spend says exactly if the limit is positive or the last
charge to the key, since it was forgotten, bears the token of the current period. The same
holds of the gate of the proxy and the remaining budget of the report, for a key with a
nonempty id. -/
theorem enforcement_agrees_with_report_iff (ops : List Op) (now : ℕ) :
    let s := run step SpendTracker.empty ops
    (∀ k limit,
      (s.preCheck k limit now = true ↔ s.currentUsd k limit.period now < limit.amountUsd) ↔
        0 < limit.amountUsd ∨ lastToken k ops = some (currentPeriodToken limit.period now)) ∧
    ∀ (keys : KeyStore) id key limit, keys.findById id = some key → id ≠ "" →
      key.spendLimit = some limit →
      ((spendAdmits s key now = true ↔ ReportsHeadroom keys s id now) ↔
        0 < limit.amountUsd ∨ lastToken id ops = some (currentPeriodToken limit.period now)) := by
  intro s
  have hcheck : ∀ k limit,
      (s.preCheck k limit now = true ↔ s.currentUsd k limit.period now < limit.amountUsd) ↔
        0 < limit.amountUsd ∨ lastToken k ops = some (currentPeriodToken limit.period now) := by
    intro k limit
    rw [preCheck_iff_currentUsd_lt_iff, held_isSome_iff, token_run]
  refine ⟨hcheck, fun keys id key limit hfind hid hlimit => ?_⟩
  have hkey : key.id = id := by
    simpa using List.find?_some hfind
  rw [reportsHeadroom_iff hfind hlimit, spendAdmits_iff (hkey ▸ hid) hlimit, hkey]
  exact hcheck id limit

/-- A limit of zero: before the first charge the gate admits what the report says is not
affordable. -/
def exhausted : VirtualKey :=
  { VirtualKey.anonymous with id := "vp_k", hash := "h", spendLimit := some ⟨0, .day⟩ }

theorem fresh_key_admitted_without_headroom :
    SpendTracker.empty.preCheck "vp_k" ⟨0, .day⟩ march13 = true ∧
      ¬ SpendTracker.empty.currentUsd "vp_k" .day march13 < 0 ∧
      spendAdmits SpendTracker.empty exhausted march13 = true ∧
      ¬ ReportsHeadroom (KeyStore.new [exhausted]) SpendTracker.empty "vp_k" march13 := by
  have hfind : (KeyStore.new [exhausted]).findById "vp_k" = some exhausted := rfl
  refine ⟨rfl, by decide +kernel, rfl, ?_⟩
  rw [reportsHeadroom_iff hfind rfl]
  decide +kernel

end VaultplaneGateway.SpendReporting
