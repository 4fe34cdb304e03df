import Quicksend.Server.Hub

/-!
# The configuration that is accepted (`config.go`)

`Load` over what the environment holds: a variable is unset or empty, or it
is what `strconv` or `time.ParseDuration` makes of it.
-/

namespace Quicksend.Server

/-- An environment variable: unset, set to something its parser rejects, or set to
the number that it reads as. -/
abbrev Var := Option (Except String Int)

/-- The variables that `Load` reads into the configuration, each already through
the parser for its kind of value. -/
structure Env where
  QUICKSEND_MAX_FILE_SIZE_BYTES : Var
  QUICKSEND_MAX_SESSIONS_PER_IP : Var
  QUICKSEND_SESSION_INACTIVITY_TIMEOUT : Var
  QUICKSEND_RECONNECT_GRACE_PERIOD : Var
  QUICKSEND_PAIRING_CODE_TTL : Var
  QUICKSEND_MAX_PAIRING_ATTEMPTS : Var

/-- `time.Second`: a duration is counted in nanoseconds, as Go counts it. -/
def second : Time := 1000000000

/-- `time.Minute`, sixty seconds of a duration that is counted in nanoseconds. -/
def minute : Time := 60 * second

/-- The limit on a file's frames when `QUICKSEND_MAX_FILE_SIZE_BYTES` is not set:
ten GiB. -/
def defaultMaxFileSize : Int := 10 * 1024 * 1024 * 1024

/-- How many connected peers one address may have when
`QUICKSEND_MAX_SESSIONS_PER_IP` is not set. -/
def defaultMaxSessionsPerIP : Int := 10

/-- How long a session may go unused before the reaper ends it, when the
environment does not say otherwise. -/
def defaultSessionInactivity : Time := 5 * minute

/-- How long a dropped peer's slot is kept for its return, when the environment
does not say otherwise. -/
def defaultReconnectGrace : Time := 45 * second

/-- How long a pairing code can be redeemed, and how long an address's guesses
count, when the environment is silent. -/
def defaultPairingCodeTTL : Time := 5 * minute

/-- How many codes one address may try within a guessing window when
`QUICKSEND_MAX_PAIRING_ATTEMPTS` is not set. -/
def defaultMaxPairingAttempts : Int := 5

/-- `getEnvInt`, `getEnvInt64` and `getEnvDuration`: the default, the number, or
an error that names the variable. -/
def getEnv (key : String) (v : Var) (fallback : Int) : Except String Int :=
  match v with
  | none => .ok fallback
  | some (.ok n) => .ok n
  | some (.error err) => .error (key ++ ": " ++ err)

/-- `if n <= 0 { return Config{}, fmt.Errorf("… must be positive") }`. -/
def mustBePositive (key : String) (n : Int) : Except String Unit :=
  if n ≤ 0 then .error (key ++ " must be positive") else .ok ()

/-- `config.Load`: read every variable or take its default, then check that each
is positive; the first failure names the variable it is about. -/
def Load (env : Env) : Except String Config := do
  let MaxFileSize ←
    getEnv "QUICKSEND_MAX_FILE_SIZE_BYTES" env.QUICKSEND_MAX_FILE_SIZE_BYTES defaultMaxFileSize
  let MaxSessionsPerIP ←
    getEnv "QUICKSEND_MAX_SESSIONS_PER_IP" env.QUICKSEND_MAX_SESSIONS_PER_IP defaultMaxSessionsPerIP
  let SessionInactivityTimeout ← getEnv "QUICKSEND_SESSION_INACTIVITY_TIMEOUT"
    env.QUICKSEND_SESSION_INACTIVITY_TIMEOUT defaultSessionInactivity
  let ReconnectGracePeriod ← getEnv "QUICKSEND_RECONNECT_GRACE_PERIOD"
    env.QUICKSEND_RECONNECT_GRACE_PERIOD defaultReconnectGrace
  let PairingCodeTTL ←
    getEnv "QUICKSEND_PAIRING_CODE_TTL" env.QUICKSEND_PAIRING_CODE_TTL defaultPairingCodeTTL
  let MaxPairingAttempts ← getEnv "QUICKSEND_MAX_PAIRING_ATTEMPTS"
    env.QUICKSEND_MAX_PAIRING_ATTEMPTS defaultMaxPairingAttempts
  mustBePositive "QUICKSEND_MAX_FILE_SIZE_BYTES" MaxFileSize
  mustBePositive "QUICKSEND_MAX_SESSIONS_PER_IP" MaxSessionsPerIP
  mustBePositive "QUICKSEND_MAX_PAIRING_ATTEMPTS" MaxPairingAttempts
  return {
    MaxFileSize := MaxFileSize
    MaxSessionsPerIP := MaxSessionsPerIP
    SessionInactivityTimeout := SessionInactivityTimeout
    ReconnectGracePeriod := ReconnectGracePeriod
    PairingCodeTTL := PairingCodeTTL
    MaxPairingAttempts := MaxPairingAttempts }

/-- What runs on a success had a success before it. -/
theorem bind_eq_ok {α β : Type} {x : Except String α} {f : α → Except String β} {b : β}
    (h : x >>= f = .ok b) : ∃ a, x = .ok a ∧ f a = .ok b := by
  cases x with
  | error err => cases h
  | ok a => exact ⟨a, rfl, h⟩

theorem mustBePositive_ok {key : String} {n : Int} {u : Unit} (h : mustBePositive key n = .ok u) :
    0 < n := by
  unfold mustBePositive at h
  split at h
  next => cases h
  next hn => omega

/-- The limits of an accepted configuration are positive; nothing is asked of
its durations. -/
theorem load_positive {env : Env} {cfg : Config} (h : Load env = .ok cfg) :
    0 < cfg.MaxFileSize ∧ 0 < cfg.MaxSessionsPerIP ∧ 0 < cfg.MaxPairingAttempts := by
  unfold Load at h
  obtain ⟨size, -, h⟩ := bind_eq_ok h
  obtain ⟨sessions, -, h⟩ := bind_eq_ok h
  obtain ⟨inactivity, -, h⟩ := bind_eq_ok h
  obtain ⟨grace, -, h⟩ := bind_eq_ok h
  obtain ⟨ttl, -, h⟩ := bind_eq_ok h
  obtain ⟨attempts, -, h⟩ := bind_eq_ok h
  obtain ⟨_, hsize, h⟩ := bind_eq_ok h
  obtain ⟨_, hsessions, h⟩ := bind_eq_ok h
  obtain ⟨_, hattempts, h⟩ := bind_eq_ok h
  obtain rfl := Except.ok.inj h
  exact ⟨mustBePositive_ok hsize, mustBePositive_ok hsessions, mustBePositive_ok hattempts⟩

/-- An environment that sets none of the variables, so that every one of them
takes its default. -/
def Env.unset : Env := ⟨none, none, none, none, none, none⟩

/-- Every default passes its own check. -/
theorem load_unset : Load .unset = .ok
    { MaxFileSize := defaultMaxFileSize
      MaxSessionsPerIP := defaultMaxSessionsPerIP
      SessionInactivityTimeout := defaultSessionInactivity
      ReconnectGracePeriod := defaultReconnectGrace
      PairingCodeTTL := defaultPairingCodeTTL
      MaxPairingAttempts := defaultMaxPairingAttempts } := rfl

end Quicksend.Server
