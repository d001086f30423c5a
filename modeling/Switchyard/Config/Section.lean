import Switchyard.Config.Settings
import Switchyard.Config.Source

/-! # Sections

How settings are read from a source and written. A section gives its fields by name, or as a list in
their order; a field that is not given keeps its default, and a name that no field has is passed over.
-/
namespace Switchyard.Config
set_option autoImplicit false

/-- How values of a type are read and written. -/
structure Format (α : Type) where
  read? : Dialect → Source → Option α
  write : α → Json.Value

/-- A field of a section: its name, and how it is put into the section and written from there. -/
structure Field (σ : Type) where
  name : String
  put? : Dialect → Source → σ → Option σ
  write : σ → Json.Value

namespace Field

def of {σ α : Type} (name : String) (format : Format α) (get : σ → α) (set : α → σ → σ) : Field σ where
  name
  put? dialect source s := (format.read? dialect source).map fun value => set value s
  write s := format.write (get s)

end Field

namespace Format

def text : Format String where
  read? _
    | .text s => some s
    | _ => none
  write := .string

/-- A number of 64 bits. -/
def word : Format Nat where
  read? _
    | .integer n => if 0 ≤ n ∧ n ≤ 18446744073709551615 then some n.toNat else none
    | _ => none
  write n := .int n

def flag : Format Bool where
  read? _
    | .boolean b => some b
    | _ => none
  write := .bool

/-- Names for values. A name may have a value that says nothing. -/
def choice {α : Type} [DecidableEq α] (names : List (String × α)) : Format α where
  read? dialect source :=
    let named? (name : String) := (names.find? (·.1 == name)).map (·.2)
    match source with
    | .text name => named? name
    | .fields [(name, inner)] => if dialect.isBlank inner then named? name else none
    | _ => none
  write value := .string (((names.find? (·.2 == value)).map (·.1)).getD "")

def readSection? {σ : Type} (fields : List (Field σ)) (default : σ) (dialect : Dialect) :
    Source → Option σ
  | .fields members => members.foldlM (fun s (name, source) =>
      match fields.find? (·.name == name) with
      | some field => field.put? dialect source s
      | none => some s) default
  | .list items =>
    if fields.length < items.length && !dialect.longLists then none
    else (fields.zip items).foldlM (fun s (field, source) => field.put? dialect source s) default
  | .date => some default
  | _ => none

def ofFields {σ : Type} (fields : List (Field σ)) (default : σ) : Format σ where
  read? := readSection? fields default
  write s := .object (Json.Object.ofList (fields.map fun field => (field.name, field.write s)))

def listener : Format ListenerSettings := ofFields
  [.of "bind_address" text (·.bindAddress) fun x s => { s with bindAddress := x },
    .of "max_connections" word (·.maxConnections) fun x s => { s with maxConnections := x }] {}

def control : Format ControlSettings := ofFields
  [.of "name" text (·.name) fun x s => { s with name := x },
    .of "listener" listener (·.listener) fun x s => { s with listener := x },
    .of "post_response_workers" word (·.postResponseWorkers) fun x s =>
      { s with postResponseWorkers := x }] {}

def echo : Format EchoSettings := ofFields
  [.of "name" text (·.name) fun x s => { s with name := x },
    .of "listener" listener (·.listener) fun x s => { s with listener := x }] {}

def proxy : Format ProxySettings := ofFields
  [.of "name" text (·.name) fun x s => { s with name := x },
    .of "listener" listener (·.listener) fun x s => { s with listener := x },
    .of "backend_address" text (·.backendAddress) fun x s => { s with backendAddress := x },
    .of "connect_timeout_ms" word (·.connectTimeoutMillis) fun x s =>
      { s with connectTimeoutMillis := x },
    .of "buffer_size" word (·.bufferSize) fun x s => { s with bufferSize := x }] {}

def client : Format ClientSettings := ofFields
  [.of "name" text (·.name) fun x s => { s with name := x },
    .of "address" text (·.address) fun x s => { s with address := x },
    .of "workers" word (·.workers) fun x s => { s with workers := x },
    .of "connect_timeout_ms" word (·.connectTimeoutMillis) fun x s =>
      { s with connectTimeoutMillis := x },
    .of "min_evictable_idle_ms" word (·.minEvictableIdleMillis) fun x s =>
      { s with minEvictableIdleMillis := x },
    .of "eviction_interval_ms" word (·.evictionIntervalMillis) fun x s =>
      { s with evictionIntervalMillis := x }] {}

def initiator : Format InitiatorSettings := ofFields
  [.of "response_timeout_ms" word (·.responseTimeoutMillis) fun x s =>
      { s with responseTimeoutMillis := x },
    .of "validate_response" flag (·.validateResponse) fun x s => { s with validateResponse := x }] {}

def shutdown : Format ShutdownSettings := ofFields
  [.of "termination_timeout_secs" word (·.terminationTimeoutSecs) fun x s =>
      { s with terminationTimeoutSecs := x }] {}

def observability : Format ObservabilitySettings := ofFields
  [.of "log_level" text (·.logLevel) fun x s => { s with logLevel := x },
    .of "log_format" (choice [("pretty", LogFormat.pretty), ("json", LogFormat.json)]) (·.logFormat)
      fun x s => { s with logFormat := x },
    .of "metrics_enabled" flag (·.metricsEnabled) fun x s => { s with metricsEnabled := x },
    .of "metrics_address" text (·.metricsAddress) fun x s => { s with metricsAddress := x }] {}

def settings : Format Settings := ofFields
  [.of "control" control (·.control) fun x s => { s with control := x },
    .of "echo" echo (·.echo) fun x s => { s with echo := x },
    .of "proxy" proxy (·.proxy) fun x s => { s with proxy := x },
    .of "client" client (·.client) fun x s => { s with client := x },
    .of "initiator" initiator (·.initiator) fun x s => { s with initiator := x },
    .of "shutdown" shutdown (·.shutdown) fun x s => { s with shutdown := x },
    .of "observability" observability (·.observability) fun x s => { s with observability := x }] {}

end Format
end Switchyard.Config
