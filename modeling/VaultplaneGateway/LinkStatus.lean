import Mathlib.Algebra.Order.Ring.Rat
import Mathlib.Data.Rat.Floor

/-!
# The status of the Control Node link

The record behind `GET /admin/status`. One call of `recordTick` takes the
outcomes of both polls of a tick; the versions it keeps are those of the last
resources that were reported as applied, and the state says whether the last tick
went well. Instants are seconds of the monotonic clock.
-/
namespace VaultplaneGateway.LinkStatus

inductive LinkState where
  | file | pending | synced | degraded
  deriving DecidableEq, Repr

inductive Resource where
  | config | keys
  deriving DecidableEq, Repr

def Resource.asStr : Resource → String
  | .config => "config"
  | .keys => "keys"

inductive Reason where
  | notStarted | unauthorized | transport | unexpectedStatus | invalidBody | buildFailed
  deriving DecidableEq, Repr

def Reason.asStr : Reason → String
  | .notStarted => "not_started"
  | .unauthorized => "unauthorized"
  | .transport => "transport"
  | .unexpectedStatus => "unexpected_status"
  | .invalidBody => "invalid_body"
  | .buildFailed => "build_failed"

structure SyncFailure where
  resource : Resource
  reason : Reason
  detail : String
  deriving DecidableEq, Repr

structure Identity where
  gatewayId : String
  orgId : String
  group : Option String
  environment : String
  deriving DecidableEq, Repr

/-- What a tick changed, for the audit log. -/
inductive Transition where
  | none
  | degraded (failure : SyncFailure)
  | recovered
  deriving DecidableEq, Repr

structure StatusHandle where
  state : LinkState
  endpoint : Option String
  configVersion : Option String
  keysVersion : Option String
  identity : Option Identity
  lastSuccess : Option ℚ
  lastFailure : Option (ℚ × SyncFailure)
  consecutiveFailures : UInt32
  deriving DecidableEq, Repr

namespace StatusHandle

def new (state : LinkState) (endpoint : Option String) : StatusHandle where
  state := state
  endpoint := endpoint
  configVersion := none
  keysVersion := none
  identity := none
  lastSuccess := none
  lastFailure := none
  consecutiveFailures := 0

def file : StatusHandle := new .file none

def api (endpoint : String) : StatusHandle := new .pending (some endpoint)

/-- Api mode was asked for but its client could not start. -/
def notStarted (s : StatusHandle) (detail : String) (now : ℚ) : StatusHandle :=
  { s with state := .degraded, lastFailure := some (now, ⟨.config, .notStarted, detail⟩) }

def setIdentity (s : StatusHandle) (identity : Identity) : StatusHandle :=
  { s with identity := some identity }

/-- `u32::saturating_add(1)`. -/
def saturatingSucc (n : UInt32) : UInt32 := if n.toNat + 1 < 2 ^ 32 then n + 1 else n

/-- The outcome of one poll: a newly applied version, or none for an unchanged
resource. -/
abbrev Polled := Except SyncFailure (Option String)

/-- The version kept after a poll. -/
def keptVersion (current : Option String) : Polled → Option String
  | .ok (some version) => some version
  | _ => current

/-- The failure of a tick; that of `/config` comes first. -/
def tickFailure : Polled → Polled → Option SyncFailure
  | .error f, _ => some f
  | .ok _, .error f => some f
  | .ok _, .ok _ => none

def recordTick (s : StatusHandle) (config keys : Polled) (now : ℚ) : StatusHandle × Transition :=
  let kept := { s with
    configVersion := keptVersion s.configVersion config
    keysVersion := keptVersion s.keysVersion keys }
  match tickFailure config keys with
  | some failure =>
      let changedShape :=
        match s.lastFailure with
        | some (_, previous) =>
            previous.resource != failure.resource || previous.reason != failure.reason
        | none => true
      ({ kept with
          state := .degraded
          consecutiveFailures := saturatingSucc s.consecutiveFailures
          lastFailure := some (now, failure) },
        if s.state != .degraded || changedShape then .degraded failure else .none)
  | none =>
      ({ kept with state := .synced, consecutiveFailures := 0, lastSuccess := some now },
        if s.state == .degraded then .recovered else .none)

structure LastError where
  resource : Resource
  reason : Reason
  detail : String
  secondsAgo : ℕ
  deriving DecidableEq, Repr

structure Snapshot where
  state : LinkState
  endpoint : Option String
  configVersion : Option String
  keysVersion : Option String
  identity : Option Identity
  lastSuccessSecondsAgo : Option ℕ
  consecutiveFailures : UInt32
  lastError : Option LastError
  deriving DecidableEq, Repr

/-- Whole seconds since an instant, zero for one that lies ahead. -/
def secondsAgo (now at_ : ℚ) : ℕ := ⌊now - at_⌋₊

def snapshot (s : StatusHandle) (now : ℚ) : Snapshot where
  state := s.state
  endpoint := s.endpoint
  configVersion := s.configVersion
  keysVersion := s.keysVersion
  identity := s.identity
  lastSuccessSecondsAgo := s.lastSuccess.map (secondsAgo now)
  consecutiveFailures := s.consecutiveFailures
  lastError := s.lastFailure.map fun e =>
    ⟨e.2.resource, e.2.reason, e.2.detail, secondsAgo now e.1⟩

@[simp] theorem recordTick_configVersion (s : StatusHandle) (config keys : Polled) (now : ℚ) :
    (s.recordTick config keys now).1.configVersion = keptVersion s.configVersion config := by
  unfold recordTick
  split <;> rfl

end StatusHandle

end VaultplaneGateway.LinkStatus
