import TcpAdapter.Model.CommandPolicy
import TcpAdapter.Model.Protocol.Validation

/-! # Configuration

`config.Load`: the settings come from the environment, with defaults, and are checked. The
parsers of the standard library are part of the environment. -/

namespace TcpAdapter.Server

open TcpAdapter.Queue TcpAdapter.Policy
open TcpAdapter.Protocol (need)

/-- `config.Config` -/
structure Config where
  listenAddr : String
  metricsAddr : String
  registrationWindow : Duration
  heartbeatTimeout : Duration
  maxConnections : Int
  maxConnectionsPerIP : Int
  ipViolationWindow : Duration
  ipViolationLimit : Int
  ipBlockDuration : Duration
  maxQueueDepth : Int
  maxQueueBytes : Int
  queueOverflow : String
  ackTimeout : Duration
  retryBackoff : Duration
  maxRetries : Int
  ackTimeoutQuery : Duration
  retryBackoffQuery : Duration
  maxRetriesQuery : Int
  ackTimeoutSync : Duration
  retryBackoffSync : Duration
  maxRetriesSync : Int
  ackTimeoutFW : Duration
  retryBackoffFW : Duration
  maxRetriesFW : Int
  sweepInterval : Duration
  writeTimeout : Duration
  readTimeout : Duration
  debugLogs : Bool
  storeBackend : String
  stateFile : String
  postgresDSN : String

/-- `os.Getenv`, `strconv.Atoi`, `time.ParseDuration` and `strconv.ParseBool`. -/
structure Env where
  getenv : String → String
  atoi : String → Option Int
  parseDuration : String → Option Duration
  parseBool : String → Option Bool

namespace Env

variable (env : Env)

def envOrDefault (key fallback : String) : String :=
  if env.getenv key ≠ "" then env.getenv key else fallback

/-- A variable that is not set or does not parse leaves the default. -/
def parsedOrDefault {α : Type} (parse : String → Option α) (key : String) (fallback : α) : α :=
  if env.getenv key = "" then fallback else (parse (env.getenv key)).getD fallback

def envIntOrDefault : String → Int → Int :=
  env.parsedOrDefault env.atoi

def envDurationOrDefault : String → Duration → Duration :=
  env.parsedOrDefault env.parseDuration

def envBoolOrDefault : String → Bool → Bool :=
  env.parsedOrDefault env.parseBool

end Env

/-- The settings before they are checked. -/
def Env.config (env : Env) : Config where
  listenAddr := env.envOrDefault "TCPADAPTER_LISTEN_ADDR" ":15010"
  metricsAddr := env.envOrDefault "TCPADAPTER_METRICS_ADDR" ":18080"
  registrationWindow := env.envDurationOrDefault "TCPADAPTER_REG_WINDOW" (5 * second)
  heartbeatTimeout := env.envDurationOrDefault "TCPADAPTER_HEARTBEAT_TIMEOUT" (30 * second)
  maxConnections := env.envIntOrDefault "TCPADAPTER_MAX_CONNECTIONS" 10000
  maxConnectionsPerIP := env.envIntOrDefault "TCPADAPTER_MAX_CONNECTIONS_PER_IP" 0
  ipViolationWindow := env.envDurationOrDefault "TCPADAPTER_IP_VIOLATION_WINDOW" (30 * second)
  ipViolationLimit := env.envIntOrDefault "TCPADAPTER_IP_VIOLATION_LIMIT" 10
  ipBlockDuration := env.envDurationOrDefault "TCPADAPTER_IP_BLOCK_DURATION" (1 * minute)
  maxQueueDepth := env.envIntOrDefault "TCPADAPTER_QUEUE_MAX_DEPTH" 1000
  maxQueueBytes := env.envIntOrDefault "TCPADAPTER_QUEUE_MAX_BYTES" 1048576
  queueOverflow := env.envOrDefault "TCPADAPTER_QUEUE_OVERFLOW" "drop_oldest"
  ackTimeout := env.envDurationOrDefault "TCPADAPTER_ACK_TIMEOUT" (10 * second)
  retryBackoff := env.envDurationOrDefault "TCPADAPTER_RETRY_BACKOFF" (3 * second)
  maxRetries := env.envIntOrDefault "TCPADAPTER_MAX_RETRIES" 3
  ackTimeoutQuery := env.envDurationOrDefault "TCPADAPTER_ACK_TIMEOUT_QUERY" (2 * second)
  retryBackoffQuery := env.envDurationOrDefault "TCPADAPTER_RETRY_BACKOFF_QUERY" (1 * second)
  maxRetriesQuery := env.envIntOrDefault "TCPADAPTER_MAX_RETRIES_QUERY" 2
  ackTimeoutSync := env.envDurationOrDefault "TCPADAPTER_ACK_TIMEOUT_SYNC" (15 * second)
  retryBackoffSync := env.envDurationOrDefault "TCPADAPTER_RETRY_BACKOFF_SYNC" (5 * second)
  maxRetriesSync := env.envIntOrDefault "TCPADAPTER_MAX_RETRIES_SYNC" 1
  ackTimeoutFW := env.envDurationOrDefault "TCPADAPTER_ACK_TIMEOUT_FW" (20 * second)
  retryBackoffFW := env.envDurationOrDefault "TCPADAPTER_RETRY_BACKOFF_FW" (3 * second)
  maxRetriesFW := env.envIntOrDefault "TCPADAPTER_MAX_RETRIES_FW" 3
  sweepInterval := env.envDurationOrDefault "TCPADAPTER_SWEEP_INTERVAL" (2 * second)
  writeTimeout := env.envDurationOrDefault "TCPADAPTER_WRITE_TIMEOUT" (10 * second)
  readTimeout := env.envDurationOrDefault "TCPADAPTER_READ_TIMEOUT" (35 * second)
  debugLogs := env.envBoolOrDefault "TCPADAPTER_DEBUG" false
  storeBackend := env.envOrDefault "TCPADAPTER_STORE_BACKEND" "file"
  stateFile := env.envOrDefault "TCPADAPTER_STATE_FILE" ".data/sessions.json"
  postgresDSN := env.envOrDefault "TCPADAPTER_POSTGRES_DSN" ""

/-- The checks of `Load`, in its order. -/
def Config.check (cfg : Config) : Except String Unit := do
  need (cfg.maxConnections > 0) "TCPADAPTER_MAX_CONNECTIONS must be > 0"
  need (cfg.maxConnectionsPerIP ≥ 0) "TCPADAPTER_MAX_CONNECTIONS_PER_IP must be >= 0"
  need (cfg.ipViolationLimit ≥ 0) "TCPADAPTER_IP_VIOLATION_LIMIT must be >= 0"
  need (cfg.ipViolationLimit ≤ 0 ∨ cfg.ipViolationWindow > 0)
    "TCPADAPTER_IP_VIOLATION_WINDOW must be > 0 when TCPADAPTER_IP_VIOLATION_LIMIT > 0"
  need (cfg.ipViolationLimit ≤ 0 ∨ cfg.ipBlockDuration > 0)
    "TCPADAPTER_IP_BLOCK_DURATION must be > 0 when TCPADAPTER_IP_VIOLATION_LIMIT > 0"
  need (cfg.registrationWindow > 0 ∧ cfg.heartbeatTimeout > 0) "timeouts must be > 0"
  need (cfg.maxQueueDepth > 0) "TCPADAPTER_QUEUE_MAX_DEPTH must be > 0"
  need (cfg.maxQueueBytes > 0) "TCPADAPTER_QUEUE_MAX_BYTES must be > 0"
  need (cfg.queueOverflow = "drop_oldest" ∨ cfg.queueOverflow = "reject")
    "TCPADAPTER_QUEUE_OVERFLOW must be one of: drop_oldest, reject"
  need (cfg.ackTimeout > 0 ∧ cfg.retryBackoff ≥ 0)
    "TCPADAPTER_ACK_TIMEOUT must be > 0 and TCPADAPTER_RETRY_BACKOFF must be >= 0"
  need (cfg.maxRetries ≥ 0) "TCPADAPTER_MAX_RETRIES must be >= 0"
  need (cfg.ackTimeoutQuery > 0 ∧ cfg.retryBackoffQuery ≥ 0 ∧ cfg.maxRetriesQuery ≥ 0)
    "invalid query retry policy config"
  need (cfg.ackTimeoutSync > 0 ∧ cfg.retryBackoffSync ≥ 0 ∧ cfg.maxRetriesSync ≥ 0)
    "invalid sync retry policy config"
  need (cfg.ackTimeoutFW > 0 ∧ cfg.retryBackoffFW ≥ 0 ∧ cfg.maxRetriesFW ≥ 0)
    "invalid fw retry policy config"
  need (cfg.sweepInterval > 0) "TCPADAPTER_SWEEP_INTERVAL must be > 0"
  need (cfg.storeBackend ∈ ["memory", "file", "postgres"])
    "TCPADAPTER_STORE_BACKEND must be one of: memory, file, postgres"
  need (cfg.storeBackend ≠ "file" ∨ cfg.stateFile ≠ "")
    "TCPADAPTER_STATE_FILE is required when TCPADAPTER_STORE_BACKEND=file"
  need (cfg.storeBackend ≠ "postgres" ∨ cfg.postgresDSN ≠ "")
    "TCPADAPTER_POSTGRES_DSN is required when TCPADAPTER_STORE_BACKEND=postgres"

def load (env : Env) : Except String Config := do
  env.config.check
  return env.config

/-- No variable is set. -/
def Env.unset : Env :=
  ⟨fun _ => "", fun _ => none, fun _ => none, fun _ => none⟩

/-- The defaults pass the checks. -/
theorem load_unset : load .unset = .ok Env.unset.config := rfl

/-- What `NewManager` and the delivery path take from the settings. -/
def Config.delivery (cfg : Config) : Policy.Config where
  maxConnections := cfg.maxConnections
  maxQueueDepth := cfg.maxQueueDepth
  maxQueueBytes := cfg.maxQueueBytes
  queueOverflow :=
    match cfg.queueOverflow with
    | "reject" => .reject
    | "" | "drop_oldest" => .dropOldest
    | name => .other name
  ackTimeout := cfg.ackTimeout
  retryBackoff := cfg.retryBackoff
  maxRetries := cfg.maxRetries
  ackTimeoutQuery := cfg.ackTimeoutQuery
  retryBackoffQuery := cfg.retryBackoffQuery
  maxRetriesQuery := cfg.maxRetriesQuery
  ackTimeoutSync := cfg.ackTimeoutSync
  retryBackoffSync := cfg.retryBackoffSync
  maxRetriesSync := cfg.maxRetriesSync
  ackTimeoutFW := cfg.ackTimeoutFW
  retryBackoffFW := cfg.retryBackoffFW
  maxRetriesFW := cfg.maxRetriesFW

end TcpAdapter.Server
