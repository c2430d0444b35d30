import Relay.Queue.Settings
import Relay.Routing
import Relay.Toml.Reader

/-!
# Configuration

Everything that can be configured has a default, so an empty file configures a
working system that keeps its records in memory.
-/

namespace Relay

/-- How the database of the records is reached. -/
structure DatabaseSettings where
  /-- Without an address records are kept in memory. -/
  url : Option String
  maxConnections : Nat
  /-- Seconds. -/
  acquireTimeout : Nat
  deriving DecidableEq, Repr

namespace DatabaseSettings

/-- The settings without a database. -/
def standard : DatabaseSettings := { url := none, maxConnections := 10, acquireTimeout := 5 }

/-- The value that stands for the settings. -/
def toJson (settings : DatabaseSettings) : Json :=
  .object [("acquire_timeout_secs", .ofNat settings.acquireTimeout),
    ("max_connections", .ofNat settings.maxConnections),
    ("url", .ofOption (settings.url.map .string))]

/-- Read the settings; a missing one is the standard one. -/
def decoder : Decoder DatabaseSettings :=
  .record "struct PoolSettings"
    [.of "url" .defaulted (.optional .string) fun settings url => { settings with url },
      .of "max_connections" .defaulted .nat32 fun settings maxConnections =>
        { settings with maxConnections },
      .of "acquire_timeout_secs" .defaulted .nat64 fun settings acquireTimeout =>
        { settings with acquireTimeout }]
    standard

end DatabaseSettings

/-- The configuration of a system. -/
structure Config where
  /-- The address at which requests are served. -/
  bind : String
  database : DatabaseSettings
  /-- Seconds for which the queues keep a finished flow. -/
  retention : Nat
  /-- The limits of the queues; the others have the standard ones. -/
  queues : Dict QueueSettings
  routing : Routing
  /-- The keys of the steps that are echoed. -/
  handlers : List String
  deriving DecidableEq, Repr

namespace Config

/-- The configuration of a system that was not configured. -/
def standard : Config :=
  { bind := "0.0.0.0:8080"
    database := .standard
    retention := 3600
    queues := QueueSettings.defaults
    routing := .standard
    handlers := ["save:article", "llm:summary", "llm:censor", "llm:embedding",
      "update:article_embedding", "update:article_summary", "update:censor"] }

/-- The value that stands for a configuration. -/
def toJson (config : Config) : Json :=
  .object [("bind", .string config.bind), ("database", config.database.toJson),
    ("handlers", Json.ofStrings config.handlers),
    ("queues", QueueSettings.dictToJson config.queues),
    ("retention_secs", .ofNat config.retention), ("routing", config.routing.toJson)]

/-- Read a configuration; a missing part is the standard one. -/
def decoder : Decoder Config :=
  .record "struct AppConfig"
    [.of "bind" .defaulted .string fun config bind => { config with bind },
      .of "database" .defaulted DatabaseSettings.decoder fun config database =>
        { config with database },
      .of "retention_secs" .defaulted .nat64 fun config retention => { config with retention },
      .of "queues" .defaulted QueueSettings.dictDecoder fun config queues =>
        { config with queues },
      .of "routing" .defaulted Routing.decoder fun config routing => { config with routing },
      .of "handlers" .defaulted (.list .string) fun config handlers => { config with handlers }]
    standard

/-- Read a configuration file; nothing if it is not well-formed or does not fit. -/
def ofText? (text : String) : Option Config :=
  (Toml.read? text).bind fun document => (decoder ⟨.configuration, 0⟩ document).toOption

end Config

end Relay
