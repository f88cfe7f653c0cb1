import Colloquy.Shape.Writer

/-!
# Settings

What can be set about the service. Every record of settings may leave out fields, which are then
blank: the settings that the service runs with by default are not the blank ones but those of
`Settings.development`, on which the other sources are laid (`Colloquy.Settings.Load`).
-/

set_option autoImplicit false

namespace Colloquy

/-- Where the service listens. -/
structure ServerSettings where
  host : String
  port : UInt16
  deriving DecidableEq, Repr, Inhabited

/-- How the settings of the server are read and written. -/
instance : Encoded ServerSettings where
  shape := .record "ServerConfig" true (.cons "host" .string <| .cons "port" .short .nil)
  pack s := (s.host, s.port, ())
  unpack := fun (host, port, ()) => ⟨host, port⟩
  unpack_pack _ := rfl

/-- What is logged, and where to. -/
structure LoggingSettings where
  /-- The least level that is logged, or a list of directives. -/
  level : String
  /-- Whether every event is written as a JSON object. -/
  structured : Bool
  /-- The directory of the log files; without it events go to the standard output. -/
  directory : Option String
  /-- What the names of log files begin with. -/
  fileStem : String
  deriving DecidableEq, Repr, Inhabited

/-- How the settings of the log are read and written. -/
instance : Encoded LoggingSettings where
  shape := .record "LoggingConfig" true
    (.cons "level" .string <| .cons "structured" .flag <|
      .cons "log_dir" (.optional (.text "path string")) <| .cons "file_prefix" .string .nil)
  pack s := (s.level, s.structured, s.directory, s.fileStem, ())
  unpack := fun (level, structured, directory, fileStem, ()) =>
    ⟨level, structured, directory, fileStem⟩
  unpack_pack _ := rfl

/-- A key and the user that it stands for. -/
structure KeySettings where
  key : String
  userId : String
  username : String
  deriving DecidableEq, Repr, Inhabited

/-- How a listed key is read and written. -/
instance : Encoded KeySettings where
  shape := .record "ApiKeyEntry" true
    (.cons "key" .string <| .cons "user_id" .string <| .cons "username" .string .nil)
  pack s := (s.key, s.userId, s.username, ())
  unpack := fun (key, userId, username, ()) => ⟨key, userId, username⟩
  unpack_pack _ := rfl

/-- How callers identify themselves. -/
structure AuthSettings where
  enabled : Bool
  keys : List KeySettings
  /-- The secret that tokens are signed with; no token is accepted while it is empty. -/
  tokenSecret : String
  tokenIssuer : String
  tokenAudience : String
  deriving DecidableEq, Repr, Inhabited

/-- How the settings of authentication are read and written. -/
instance : Encoded AuthSettings where
  shape := .record "AuthConfig" true
    (.cons "enabled" .flag <| .cons "api_keys" (.list (Encoded.shape KeySettings)) <|
      .cons "jwt_secret" .string <| .cons "jwt_issuer" .string <|
      .cons "jwt_audience" .string .nil)
  pack s := (s.enabled, s.keys.map Encoded.pack, s.tokenSecret, s.tokenIssuer, s.tokenAudience, ())
  unpack := fun (enabled, keys, tokenSecret, tokenIssuer, tokenAudience, ()) =>
    ⟨enabled, keys.map Encoded.unpack, tokenSecret, tokenIssuer, tokenAudience⟩
  unpack_pack s := by simp [Function.comp_def, Encoded.unpack_pack]

/-- Whether feedback is taken. -/
structure FeedbackSettings where
  enabled : Bool
  deriving DecidableEq, Repr, Inhabited

/-- How the settings of feedback are read and written. -/
instance : Encoded FeedbackSettings where
  shape := .record "FeedbackConfig" true (.cons "enabled" .flag .nil)
  pack s := (s.enabled, ())
  unpack := fun (enabled, ()) => ⟨enabled⟩
  unpack_pack _ := rfl

/-- How much is remembered of conversations. -/
structure CacheSettings where
  maxEntries : UInt64
  /-- The number of bytes of one conversation. -/
  maxHistoryBytes : UInt64
  deriving DecidableEq, Repr, Inhabited

/-- How the settings of the cache are read and written. -/
instance : Encoded CacheSettings where
  shape := .record "CacheConfig" true
    (.cons "max_entries" .word <| .cons "max_history_bytes" .word .nil)
  pack s := (s.maxEntries, s.maxHistoryBytes, ())
  unpack := fun (maxEntries, maxHistoryBytes, ()) => ⟨maxEntries, maxHistoryBytes⟩
  unpack_pack _ := rfl

/-- All settings of the service. -/
structure Settings where
  server : ServerSettings
  logging : LoggingSettings
  auth : AuthSettings
  feedback : FeedbackSettings
  cache : CacheSettings
  appName : String
  /-- The environment that it runs in. -/
  environment : String
  deriving DecidableEq, Repr, Inhabited

/-- How the settings are read and written. -/
instance : Encoded Settings where
  shape := .record "AppConfig" true
    (.cons "server" (Encoded.shape ServerSettings) <|
      .cons "logging" (Encoded.shape LoggingSettings) <|
      .cons "auth" (Encoded.shape AuthSettings) <|
      .cons "feedback" (Encoded.shape FeedbackSettings) <|
      .cons "cache" (Encoded.shape CacheSettings) <|
      .cons "app_name" .string <| .cons "environment" .string .nil)
  pack s := (Encoded.pack s.server, Encoded.pack s.logging, Encoded.pack s.auth,
    Encoded.pack s.feedback, Encoded.pack s.cache, s.appName, s.environment, ())
  unpack := fun (server, logging, auth, feedback, cache, appName, environment, ()) =>
    ⟨Encoded.unpack server, Encoded.unpack logging, Encoded.unpack auth, Encoded.unpack feedback,
      Encoded.unpack cache, appName, environment⟩
  unpack_pack s := by simp [Encoded.unpack_pack]

namespace Settings

/-- The settings that the other sources are laid on: callers are anonymous, feedback is taken. -/
def development : Settings where
  server := { host := "0.0.0.0", port := 8080 }
  logging :=
    { level := "debug", structured := false, directory := none, fileStem := "parley.log" }
  auth :=
    { enabled := false, keys := [], tokenSecret := "", tokenIssuer := "parley"
      tokenAudience := "parley-api" }
  feedback := { enabled := true }
  cache := { maxEntries := 1000, maxHistoryBytes := 64 * 1024 }
  appName := "parley"
  environment := "development"

/-- The settings of a service in earnest: callers have to identify themselves. -/
def production : Settings :=
  { development with
    environment := "production"
    logging := { development.logging with level := "info", structured := true }
    auth := { development.auth with enabled := true } }

/-- Settings in which everything is blank. -/
def blank : Settings :=
  Encoded.unpack (Encoded.shape Settings).blank

end Settings

end Colloquy
