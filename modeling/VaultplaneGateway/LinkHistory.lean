import Mathlib.Data.List.Induction
import VaultplaneGateway.ControlNodeClient

/-!
# The link over a whole poll history

The status record keeps the last state and the last failure, nothing else of its
history, and the failure survives a recovery. What it says after any sequence of
ticks is computed here from the sequence alone: each version from the last tick that
applied one, the failure count from the failing ticks at the end, and each
transition from two neighbouring ticks. Counting the transitions of a failing block
then needs no state at all.
-/
namespace VaultplaneGateway.LinkHistory
open LinkStatus LinkStatus.StatusHandle TransitionRuns ControlNodeClient

/-- What one call of `record_tick` is given, and when. -/
structure TickOutcome where
  config : Polled
  keys : Polled
  now : ℚ

/-- The failure the tick surfaces: config's before keys'. -/
def TickOutcome.failure (t : TickOutcome) : Option SyncFailure := tickFailure t.config t.keys

def record (s : StatusHandle) (t : TickOutcome) : StatusHandle :=
  (s.recordTick t.config t.keys t.now).1

/-- The status after some ticks. -/
def after (endpoint : String) (ticks : List TickOutcome) : StatusHandle :=
  run record (StatusHandle.api endpoint) ticks

/-- The transitions returned for a sequence of ticks. -/
def transitions (s : StatusHandle) : List TickOutcome → List Transition
  | [] => []
  | t :: ticks => (s.recordTick t.config t.keys t.now).2 :: transitions (record s t) ticks

inductive AuditOutcome where
  | success | failure
  deriving DecidableEq, Repr

/-- `control_plane_sync`. -/
structure AuditEvent where
  outcome : AuditOutcome
  resource : String
  reason : String
  detail : String
  deriving DecidableEq, Repr

/-- What `tick` writes to the audit log for a transition. -/
def auditEvent : Transition → Option AuditEvent
  | .none => none
  | .degraded failure =>
      some ⟨.failure, failure.resource.asStr, failure.reason.asStr, failure.detail⟩
  | .recovered => some ⟨.success, "", "", ""⟩

def auditLog (s : StatusHandle) (ticks : List TickOutcome) : List AuditEvent :=
  (transitions s ticks).filterMap auditEvent

section Client

variable {ρ : Type*} (env : Environment ρ)

/-- What the client's next tick records. -/
def outcomeOf (w : World ρ) (t : Tick) : TickOutcome :=
  let c := pollConfig env w t.config
  ⟨c.2, (pollKeys env c.1 t.keys).2, t.now⟩

def outcomes (w : World ρ) : List Tick → List TickOutcome
  | [] => []
  | t :: ticks => outcomeOf env w t :: outcomes (step env w t) ticks

/-- The events the client writes. -/
def clientLog (w : World ρ) : List Tick → List AuditEvent
  | [] => []
  | t :: ticks => (auditEvent (tick env w t).2).toList ++ clientLog (step env w t) ticks

theorem pollConfig_status (w : World ρ) (answer : Answer) :
    (pollConfig env w answer).1.client.status = w.client.status := by
  rcases pollConfig_cases env w answer with ⟨_, _, _, -, h⟩ | ⟨-, _, -, h⟩ <;> rw [h]

theorem pollKeys_status (w : World ρ) (answer : Answer) :
    (pollKeys env w answer).1.client.status = w.client.status := by
  rcases pollKeys_cases env w answer with ⟨_, _, -, h⟩ | ⟨-, _, -, h⟩ <;> rw [h]

theorem tick_eq (w : World ρ) (t : Tick) :
    (step env w t).client.status = record w.client.status (outcomeOf env w t) ∧
      (tick env w t).2 = (w.client.status.recordTick (outcomeOf env w t).config
        (outcomeOf env w t).keys (outcomeOf env w t).now).2 := by
  have hstatus : (pollKeys env (pollConfig env w t.config).1 t.keys).1.client.status =
      w.client.status := by
    rw [pollKeys_status, pollConfig_status]
  simp only [step, tick, hstatus]
  exact ⟨rfl, rfl⟩

/-- Status and audit log of a run of the client are those of its outcomes. -/
theorem client_history (w : World ρ) (ticks : List Tick) :
    (run (step env) w ticks).client.status = run record w.client.status (outcomes env w ticks) ∧
      clientLog env w ticks = auditLog w.client.status (outcomes env w ticks) := by
  induction ticks generalizing w with
  | nil => exact ⟨rfl, rfl⟩
  | cons t ticks ih =>
      obtain ⟨hstatus, htransition⟩ := tick_eq env w t
      obtain ⟨hrun, hlog⟩ := ih (step env w t)
      rw [hstatus] at hrun hlog
      refine ⟨hrun, ?_⟩
      rw [clientLog, hlog, htransition]
      simp only [auditLog, outcomes, transitions, List.filterMap_cons]
      cases auditEvent _ <;> rfl

end Client

def appliedVersion : Polled → Option String
  | .ok version => version
  | .error _ => none

/-- The number of failing ticks at the end. -/
def failingSuffix (ticks : List TickOutcome) : ℕ :=
  (ticks.reverse.takeWhile fun t => t.failure.isSome).length

/-- The failure of the last tick, if it failed. -/
def previousFailure (ticks : List TickOutcome) : Option SyncFailure :=
  ticks.getLast?.bind TickOutcome.failure

/-- Failures of the same resource for the same reason; the detail is free. -/
def SameShape (f g : SyncFailure) : Prop := f.resource = g.resource ∧ f.reason = g.reason

instance (f g : SyncFailure) : Decidable (SameShape f g) :=
  inferInstanceAs (Decidable (f.resource = g.resource ∧ f.reason = g.reason))

/-- The transition between two neighbouring ticks. -/
def transitionBetween : Option SyncFailure → Option SyncFailure → Transition
  | none, none => .none
  | some _, none => .recovered
  | none, some f => .degraded f
  | some g, some f => if SameShape g f then .none else .degraded f

def transitionsFrom (previous : Option SyncFailure) : List TickOutcome → List Transition
  | [] => []
  | t :: ticks => transitionBetween previous t.failure :: transitionsFrom t.failure ticks

/-- How often the shape changes from one failure to the next. -/
def shapeChanges : List SyncFailure → ℕ
  | f :: g :: failures => (if SameShape f g then 0 else 1) + shapeChanges (g :: failures)
  | _ => 0

/-- What the record says is what the history says. -/
structure Summarises (s : StatusHandle) (ticks : List TickOutcome) : Prop where
  state : s.state = match ticks.getLast? with
    | none => .pending
    | some t => if t.failure.isSome then .degraded else .synced
  failures : s.consecutiveFailures.toNat = min (failingSuffix ticks) (2 ^ 32 - 1)
  configVersion : s.configVersion = lastWrite (fun t => appliedVersion t.config) ticks
  keysVersion : s.keysVersion = lastWrite (fun t => appliedVersion t.keys) ticks
  lastFailure : s.lastFailure = lastWrite (fun t => t.failure.map fun f => (t.now, f)) ticks

theorem failingSuffix_concat (past : List TickOutcome) (t : TickOutcome) :
    failingSuffix (past ++ [t]) = if t.failure.isSome then failingSuffix past + 1 else 0 := by
  unfold failingSuffix
  rw [List.reverse_append, List.reverse_singleton, List.singleton_append, List.takeWhile_cons]
  split_ifs <;> rfl

theorem lastWrite_concat {α : Type*} (write : TickOutcome → Option α) (past : List TickOutcome)
    (t : TickOutcome) :
    lastWrite write (past ++ [t]) = (write t).or (lastWrite write past) := by
  unfold lastWrite
  rw [List.reverse_append, List.reverse_singleton, List.findSome?_append]
  simp

theorem saturatingSucc_toNat (n : UInt32) :
    (saturatingSucc n).toNat = min (n.toNat + 1) (2 ^ 32 - 1) := by
  unfold saturatingSucc
  have hlt := n.toNat_lt
  split_ifs with h
  · rw [UInt32.toNat_add]
    change (n.toNat + 1) % 2 ^ 32 = _
    rw [Nat.mod_eq_of_lt h]
    omega
  · omega

theorem keptVersion_eq (current : Option String) (polled : Polled) :
    keptVersion current polled = (appliedVersion polled).or current := by
  match polled with
  | .error _ => rfl
  | .ok none => rfl
  | .ok (some _) => rfl

theorem record_summarises {s : StatusHandle} {past : List TickOutcome} (h : Summarises s past)
    (t : TickOutcome) : Summarises (record s t) (past ++ [t]) := by
  have hconfig : (record s t).configVersion = keptVersion s.configVersion t.config :=
    recordTick_configVersion s t.config t.keys t.now
  have hkeys : (record s t).keysVersion = keptVersion s.keysVersion t.keys := by
    unfold record recordTick
    split <;> rfl
  have hrest : (record s t).state = (if t.failure.isSome then .degraded else .synced) ∧
      (record s t).consecutiveFailures =
        (if t.failure.isSome then saturatingSucc s.consecutiveFailures else 0) ∧
      (record s t).lastFailure = (t.failure.map fun f => (t.now, f)).or s.lastFailure := by
    unfold record recordTick TickOutcome.failure
    split <;> rename_i hfailure <;> rw [hfailure] <;> exact ⟨rfl, rfl, rfl⟩
  obtain ⟨hstate, hcount, hlast⟩ := hrest
  refine ⟨?_, ?_, ?_, ?_, ?_⟩
  · rw [List.getLast?_concat]
    exact hstate
  · rw [hcount, failingSuffix_concat]
    split_ifs
    · rw [saturatingSucc_toNat, h.failures]
      omega
    · rfl
  · rw [hconfig, keptVersion_eq, h.configVersion, lastWrite_concat]
  · rw [hkeys, keptVersion_eq, h.keysVersion, lastWrite_concat]
  · rw [hlast, h.lastFailure, lastWrite_concat]

theorem after_summarises (endpoint : String) (ticks : List TickOutcome) :
    Summarises (after endpoint ticks) ticks := by
  induction ticks using List.reverseRecOn with
  | nil => exact ⟨rfl, rfl, rfl, rfl, rfl⟩
  | append_singleton past t ih =>
      rw [after, run_append]
      exact record_summarises ih t

/-- The transition of a tick depends on the tick before it only. -/
theorem recordTick_transition {s : StatusHandle} {past : List TickOutcome} (h : Summarises s past)
    (t : TickOutcome) : (s.recordTick t.config t.keys t.now).2 =
      transitionBetween (previousFailure past) t.failure := by
  have hstate := h.state
  have hlast := h.lastFailure
  unfold recordTick previousFailure
  -- the tick before: none, a good one, or one with the failure the record holds
  rcases List.eq_nil_or_concat past with rfl | ⟨earlier, p, hpast⟩
  · change s.state = .pending at hstate
    change s.lastFailure = none at hlast
    unfold TickOutcome.failure
    split <;> rename_i hfailure <;> rw [hfailure] <;> simp [hstate, transitionBetween]
  · rw [List.concat_eq_append] at hpast
    rw [hpast, List.getLast?_concat] at hstate ⊢
    rw [hpast, lastWrite_concat] at hlast
    cases hp : p.failure with
    | none =>
        simp only [hp, Option.isSome_none, Bool.false_eq_true, if_false] at hstate
        unfold TickOutcome.failure at hp ⊢
        split <;> rename_i hfailure <;> rw [hfailure] <;> simp [hstate, transitionBetween, hp]
    | some g =>
        simp only [hp, Option.isSome_some, if_true, Option.map_some] at hstate hlast
        unfold TickOutcome.failure at hp ⊢
        split <;> rename_i hfailure <;> rw [hfailure]
        · rename_i f
          simp only [hstate, hlast, Option.bind_some, hp, transitionBetween, SameShape]
          by_cases hr : g.resource = f.resource <;> by_cases hq : g.reason = f.reason <;>
            simp [hr, hq]
        · simp [hstate, transitionBetween, hp]

theorem previousFailure_concat (past : List TickOutcome) (t : TickOutcome) :
    previousFailure (past ++ [t]) = t.failure := by
  rw [previousFailure, List.getLast?_concat, Option.bind_some]

theorem transitions_eq {s : StatusHandle} {past : List TickOutcome} (h : Summarises s past)
    (ticks : List TickOutcome) :
    transitions s ticks = transitionsFrom (previousFailure past) ticks := by
  induction ticks generalizing s past with
  | nil => rfl
  | cons t ticks ih =>
      rw [transitions, transitionsFrom, recordTick_transition h, ih (record_summarises h t),
        previousFailure_concat]

theorem transitionBetween_degraded {previous current : Option SyncFailure} {f : SyncFailure} :
    transitionBetween previous current = .degraded f ↔
      current = some f ∧ ∀ g ∈ previous, ¬ SameShape g f := by
  match previous, current with
  | none, none => simp [transitionBetween]
  | some _, none => simp [transitionBetween]
  | none, some e => simp [transitionBetween]
  | some g, some e =>
      by_cases hshape : SameShape g e
      · simp only [transitionBetween, hshape, if_true, Option.some.injEq, Option.mem_def]
        constructor
        · intro h
          cases h
        · rintro ⟨rfl, hall⟩
          exact (hall g rfl hshape).elim
      · simp only [transitionBetween, hshape, if_false, Transition.degraded.injEq,
          Option.some.injEq, Option.mem_def]
        constructor
        · rintro rfl
          exact ⟨rfl, fun _ hg => hg ▸ hshape⟩
        · exact fun h => h.1

theorem transitionBetween_recovered {previous current : Option SyncFailure} :
    transitionBetween previous current = .recovered ↔
      current = none ∧ previous.isSome = true := by
  match previous, current with
  | none, none => simp [transitionBetween]
  | some _, none => simp [transitionBetween]
  | none, some e => simp [transitionBetween]
  | some g, some e => by_cases hshape : SameShape g e <;> simp [transitionBetween, hshape]

/-- The events of failing ticks, from a first failure on: none recovers, and there is
one for each change of shape. -/
theorem block_events {block : List TickOutcome} (h : ∀ t ∈ block, t.failure.isSome = true)
    (g : SyncFailure) :
    let log := (transitionsFrom (some g) block).filterMap auditEvent
    log.countP (·.outcome = .failure) = shapeChanges (g :: block.filterMap TickOutcome.failure) ∧
      log.countP (·.outcome = .success) = 0 := by
  induction block generalizing g with
  | nil => exact ⟨rfl, rfl⟩
  | cons t block ih =>
      obtain ⟨ht, hblock⟩ := List.forall_mem_cons.mp h
      obtain ⟨f, hf⟩ := Option.isSome_iff_exists.mp ht
      obtain ⟨hfailures, hsuccesses⟩ := ih hblock f
      simp only [transitionsFrom, hf, transitionBetween, List.filterMap_cons, shapeChanges]
      by_cases hshape : SameShape g f
      · simp only [hshape, if_true, auditEvent, Nat.zero_add]
        exact ⟨hfailures, hsuccesses⟩
      · simp only [hshape, if_false, auditEvent, List.countP_cons, hfailures, hsuccesses]
        exact ⟨Nat.add_comm _ _, rfl⟩

/-- The shape of every history. After each tick the record is what the ticks so far
say, and the tick's transition follows from it and the tick before. A failing block
that starts after a good tick or at the beginning writes one failure event and one
more for each change of shape, and no success; the good tick after it writes the one
success. -/
theorem link_history (endpoint : String) (past : List TickOutcome) :
    (∀ t : TickOutcome,
      let s := after endpoint (past ++ [t])
      let transition := ((after endpoint past).recordTick t.config t.keys t.now).2
      s.state = (if t.failure.isSome then .degraded else .synced) ∧
        s.consecutiveFailures.toNat = min (failingSuffix (past ++ [t])) (2 ^ 32 - 1) ∧
        s.configVersion = lastWrite (fun t => appliedVersion t.config) (past ++ [t]) ∧
        s.keysVersion = lastWrite (fun t => appliedVersion t.keys) (past ++ [t]) ∧
        s.lastFailure = lastWrite (fun t => t.failure.map fun f => (t.now, f)) (past ++ [t]) ∧
        (∀ f, transition = .degraded f ↔
          t.failure = some f ∧ ∀ g ∈ previousFailure past, ¬ SameShape g f) ∧
        (transition = .recovered ↔ t.failure = none ∧ (previousFailure past).isSome = true)) ∧
    ∀ block : List TickOutcome, previousFailure past = none → block ≠ [] →
      (∀ t ∈ block, t.failure.isSome = true) →
      let log := auditLog (after endpoint past) block
      log.countP (·.outcome = .failure) =
          1 + shapeChanges (block.filterMap TickOutcome.failure) ∧
        log.countP (·.outcome = .success) = 0 ∧
        ∀ t : TickOutcome, t.failure = none →
          auditLog (after endpoint (past ++ block)) [t] = [⟨.success, "", "", ""⟩] := by
  have hpast := after_summarises endpoint past
  refine ⟨fun t => ?_, fun block hprevious hne hblock => ?_⟩
  · have hs := after_summarises endpoint (past ++ [t])
    have hstate := hs.state
    rw [List.getLast?_concat] at hstate
    intro s transition
    have htransition : transition = transitionBetween (previousFailure past) t.failure :=
      recordTick_transition hpast t
    refine ⟨hstate, hs.failures, hs.configVersion, hs.keysVersion, hs.lastFailure, fun f => ?_, ?_⟩
    · rw [htransition]
      exact transitionBetween_degraded
    · rw [htransition]
      exact transitionBetween_recovered
  · obtain ⟨t, rest, rfl⟩ := List.exists_cons_of_ne_nil hne
    obtain ⟨ht, hrest⟩ := List.forall_mem_cons.mp hblock
    obtain ⟨f, hf⟩ := Option.isSome_iff_exists.mp ht
    obtain ⟨hfailures, hsuccesses⟩ := block_events hrest f
    intro log
    have hlog : log = ⟨.failure, f.resource.asStr, f.reason.asStr, f.detail⟩ ::
        (transitionsFrom (some f) rest).filterMap auditEvent := by
      change (transitions _ _).filterMap auditEvent = _
      rw [transitions_eq hpast, hprevious, transitionsFrom, hf]
      rfl
    refine ⟨?_, ?_, fun next hnext => ?_⟩
    · rw [hlog, List.countP_cons, hfailures, List.filterMap_cons, hf]
      exact Nat.add_comm _ _
    · rw [hlog, List.countP_cons, hsuccesses]
      rfl
    · have hlast : (previousFailure (past ++ t :: rest)).isSome = true := by
        obtain ⟨p, hp⟩ : ∃ p, (t :: rest).getLast? = some p :=
          ⟨_, List.getLast?_eq_some_getLast (List.cons_ne_nil t rest)⟩
        rw [previousFailure, List.getLast?_append, hp]
        exact hblock p (List.mem_of_getLast? hp)
      rw [auditLog, transitions_eq (after_summarises endpoint (past ++ t :: rest)),
        transitionsFrom, transitionBetween_recovered.mpr ⟨hnext, hlast⟩]
      rfl

end VaultplaneGateway.LinkHistory
