import ContractAnalysis.Json.Decoder
import ContractAnalysis.Settings

/-!
# Settings and the state of the service in JSON

* `Settings.toJson`, `Settings.decoder`
* `Health`: the state of the service, with `Health.toJson` and `Health.decoder`
-/

namespace ContractAnalysis

open Json

def Settings.toJson (s : Settings) : Value :=
  .object [("anthropic_api_key", .string s.apiKey), ("model", .string s.model),
    ("llm_timeout_secs", .natural s.timeoutSeconds), ("max_tokens", .natural s.maxTokens),
    ("server_host", .string s.host), ("server_port", .natural s.port)]

def Settings.decoder : Decoder Settings :=
  .record ["anthropic_api_key", "model", "llm_timeout_secs", "max_tokens", "server_host",
      "server_port"] 6 fun fields => do
    let apiKey ← fields.required "anthropic_api_key" .string
    let model ← fields.required "model" .string
    let timeoutSeconds ← fields.required "llm_timeout_secs" .natural64
    let maxTokens ← fields.required "max_tokens" .natural32
    let host ← fields.required "server_host" .string
    let port ← fields.required "server_port" (.natural (Nat.pow 2 16))
    return { apiKey, model, timeoutSeconds, maxTokens, host, port }

/-- The state of the service. -/
structure Health where
  status : String
  version : String
  aiReviewEnabled : Bool
  deriving DecidableEq

def Health.toJson (h : Health) : Value :=
  .object [("status", .string h.status), ("version", .string h.version),
    ("ai_review_enabled", .bool h.aiReviewEnabled)]

def Health.decoder : Decoder Health :=
  .record ["status", "version", "ai_review_enabled"] 3 fun fields => do
    let status ← fields.required "status" .string
    let version ← fields.required "version" .string
    let aiReviewEnabled ← fields.required "ai_review_enabled" .bool
    return { status, version, aiReviewEnabled }

end ContractAnalysis
