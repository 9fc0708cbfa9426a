import ContractAnalysis.Text.Basic

/-!
# Settings

Settings come from environment variables. A variable that is not set, or that should hold a number
and does not, leaves the default.

* `Settings`: settings and their defaults
* `Settings.ofEnvironment`: the settings that variables give
* `Settings.reviewEnabled`: whether there is a key for the reviewing model
-/

namespace ContractAnalysis

/-- How reviews are made and where the service listens. -/
structure Settings where
  /-- The key for the reviewing model; a blank key disables review. -/
  apiKey : String := ""
  model : String := "claude-sonnet-4-5-20250929"
  timeoutSeconds : Nat := 120
  maxTokens : Nat := 4096
  host : String := "0.0.0.0"
  port : Nat := 8080
  deriving DecidableEq

/-- The number below a bound that a text writes in decimal digits, perhaps after a plus sign and
between white space. -/
def parseNatural (bound : Nat) (text : String) : Option Nat :=
  let digits := match Text.trimChars text.toList with
    | '+' :: rest => rest
    | cs => cs
  if digits.isEmpty || !digits.all Char.isDigit then none
  else
    let n := digits.foldl (fun n d => 10 * n + (d.toNat - 48)) 0
    if n < bound then some n else none

namespace Settings

def ofEnvironment (valueOf : String → Option String) : Settings :=
  let defaults : Settings := {}
  let number (name : String) (bound default : Nat) : Nat :=
    ((valueOf name).bind (parseNatural bound)).getD default
  { apiKey := (valueOf "ANTHROPIC_API_KEY").getD defaults.apiKey
    model := (valueOf "CLAUSEGRAPH_MODEL").getD defaults.model
    timeoutSeconds := number "CLAUSEGRAPH_LLM_TIMEOUT_SECS" (Nat.pow 2 64) defaults.timeoutSeconds
    maxTokens := number "CLAUSEGRAPH_MAX_TOKENS" (Nat.pow 2 32) defaults.maxTokens
    host := (valueOf "SERVER_HOST").getD defaults.host
    port := number "SERVER_PORT" (Nat.pow 2 16) defaults.port }

def variableNames : List String :=
  ["ANTHROPIC_API_KEY", "CLAUSEGRAPH_MODEL", "CLAUSEGRAPH_LLM_TIMEOUT_SECS",
   "CLAUSEGRAPH_MAX_TOKENS", "SERVER_HOST", "SERVER_PORT"]

def reviewEnabled (settings : Settings) : Bool := !Text.isBlankText settings.apiKey

end Settings

end ContractAnalysis
