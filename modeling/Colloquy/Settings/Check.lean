import Colloquy.Settings
import Colloquy.Text.Blank

/-!
# Checking settings

What is wrong with settings that could be read. The first of the rules that is broken is reported:
a port is set; the level of logging is not blank; a service that wants its callers to identify
themselves gives them a way to; at least one conversation is remembered.
-/

set_option autoImplicit false

namespace Colloquy

/-- What is wrong with settings. -/
inductive SettingsFlaw
  | noPort
  /-- The level of logging is blank. -/
  | noLevel
  /-- Callers must identify themselves and cannot. -/
  | noAuthMethod
  | noCacheEntry
  deriving DecidableEq, Repr, Inhabited

/-- The wording of a flaw. -/
def SettingsFlaw.message : SettingsFlaw → String
  | noPort => "Server port must be greater than 0"
  | noLevel => "Log level is not configured"
  | noAuthMethod =>
    "Authentication is enabled but neither API keys nor a JWT secret are configured"
  | noCacheEntry => "Conversation cache must hold at least one entry"

/-- Checks settings. -/
def Settings.check (settings : Settings) : Except SettingsFlaw Unit :=
  if settings.server.port = 0 then .error .noPort
  else if Blank.isBlankText settings.logging.level then .error .noLevel
  else if settings.auth.enabled && settings.auth.keys.isEmpty && settings.auth.tokenSecret = ""
  then .error .noAuthMethod
  else if settings.cache.maxEntries = 0 then .error .noCacheEntry
  else .ok ()

end Colloquy
