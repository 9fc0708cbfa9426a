import ContractAnalysis.Codec.Report
import ContractAnalysis.Service.Http
import ContractAnalysis.Settings

/-!
# Review by a language model

A review is one exchange over HTTP: a prompt is posted to the model's service, and the text blocks
of its answer make up the reply. How a request is sent is left to a transport.

The reply is a JSON object that lists findings, perhaps inside a fence of three backticks. Entries
that lack a part or name no grade are passed over; a reply that is no such object has no findings.

* `ReviewRequest.prompt`: the contract, its graph and the findings so far, as a language model is
  shown them
* `instructions`: what the model is asked to do
* `unfenced`: a reply without the fence around it
* `ReplyEntry`, `ReplyEntry.finding?`: an entry of the list and the finding it stands for
* `findingsOfReply`: the findings of a reply
* `Transport`: sends a request and brings back the answer
* `statusText`: a status code with the reason that is registered for it
* `ReviewModel.ofSettings`: the model that settings name, if they hold a key for it
* `ReviewModel.review`: the findings that the model adds, or why there are none
-/

namespace ContractAnalysis

open Json

/-! ## The prompt -/

/-- The findings so far as JSON text, or a word where there are none. -/
def findingsText (findings : List Finding) : String :=
  if findings.isEmpty then "None" else (Value.array (findings.map Finding.toJson)).pretty

/-- The contract, its graph and the findings so far, as a language model is shown them. -/
def ReviewRequest.prompt (request : ReviewRequest) : String :=
  "## Contract Text\n\n" ++ request.text ++
    "\n\n## Contract Graph Structure\n\n```json\n" ++ request.graph.toJson.pretty ++
    "\n```\n\n## Already Detected Anomalies (rule-based)\n\n" ++ findingsText request.findings ++
    "\n\nPlease analyze this contract and return any additional anomalies you find."

def instructions : String :=
  "\n".intercalate [
    "You are a contract analysis expert. You will receive:",
    "1. A contract's text",
    "2. A graph representing the contract's clauses, obligations, rights and conditions",
    "3. Anomalies already detected by a rule-based checker",
    "",
    "Find ADDITIONAL anomalies that rule-based analysis cannot catch:",
    "- Ambiguous language: vague terms without definition (\"reasonable\", \"timely\", \"best efforts\")",
    "- Industry-standard gaps: missing clauses typical for the contract type (force majeure, indemnification, governing law, dispute resolution)",
    "- Asymmetric terms: unfairly one-sided provisions",
    "- Inconsistent definitions: same term used differently across clauses",
    "- Hidden implications: combinations of clauses that create unintended consequences",
    "",
    "Respond with JSON only, in exactly this format:",
    "\x7b",
    "  \"anomalies\": [",
    "    \x7b",
    "      \"type\": \"ambiguous_language|industry_standard_gap|asymmetric_terms|inconsistent_definitions|hidden_implications\",",
    "      \"severity\": \"low|medium|high|critical\",",
    "      \"description\": \"Clear explanation of the anomaly\",",
    "      \"involved_clauses\": [\"node identifiers\"],",
    "      \"lines\": [1],",
    "      \"recommendation\": \"How to fix it\"",
    "    \x7d",
    "  ]",
    "\x7d",
    "",
    "Do NOT repeat anomalies already found by the rule-based checker."]

/-! ## The reply -/

def fence : List Char := "```".toList

/-- The text from the first opening brace to the last closing brace. Where one of them is missing,
its end of the text stands in for it; where they are in the wrong order, the text stays. -/
def betweenBraces (cs : List Char) : List Char :=
  let start := (cs.findIdx? (· == '\x7b')).getD 0
  let stop := match cs.reverse.findIdx? (· == '\x7d') with
    | some i => cs.length - i
    | none => cs.length
  if start ≤ stop then (cs.take stop).drop start else cs

/-- A trimmed reply, without the fence around it. -/
def unfenced (reply : List Char) : List Char :=
  let cs := Text.trimChars reply
  if fence.isPrefixOf cs then betweenBraces cs else cs

/-- An entry of the list of findings. -/
structure ReplyEntry where
  type : String
  severity : String
  description : String
  involved : List String
  lines : List Nat
  recommendation : Option String
  deriving DecidableEq

def ReplyEntry.decoder : Decoder ReplyEntry :=
  .record ["type", "severity", "description", "involved_clauses", "lines", "recommendation"] 3
    fun fields => do
      let type ← fields.required "type" .string
      let severity ← fields.required "severity" .string
      let description ← fields.required "description" .string
      let involved ← fields.withDefault "involved_clauses" (.list .string) []
      let lines ← fields.withDefault "lines" (.list .natural32) []
      let recommendation ← fields.optional "recommendation" .string
      return { type, severity, description, involved, lines, recommendation }

/-- The finding that an entry stands for, if it names a grade. -/
def ReplyEntry.finding? (entry : ReplyEntry) : Option Finding :=
  (Severity.ofText? entry.severity).map fun severity =>
    { defect := Defect.ofLabel entry.type
      severity
      description := entry.description
      involved := entry.involved
      lines := ascending entry.lines
      recommendation := entry.recommendation.filter fun text => !Text.isBlankText text
      origin := .ai }

/-- Reads the list of entries, each as it comes; a missing list is empty. -/
def replyDecoder : Decoder (List Value) :=
  .record ["anomalies"] 0 fun fields => fields.withDefault "anomalies" (.list .value) []

def findingOfEntry? (entry : Value) : Option Finding :=
  (ReplyEntry.decoder.decodeValue entry).bind ReplyEntry.finding?

def findingsOfReply (reply : String) : List Finding :=
  match replyDecoder.decodeText (String.ofList (unfenced reply.toList)) with
  | some entries => entries.filterMap findingOfEntry?
  | none => []

/-! ## HTTP -/

/-- A request over HTTP. -/
structure HttpRequest where
  method : String
  url : String
  headers : List (String × String)
  body : Value

/-- An answer over HTTP. -/
structure HttpReply where
  status : Nat
  body : String

/-- Sends a request and brings back the answer, if the service can be reached. -/
abbrev Transport := HttpRequest → Option HttpReply

def Transport.unreachable : Transport := fun _ => none

def reasons : List (Nat × String) :=
  [(100, "Continue"), (101, "Switching Protocols"), (102, "Processing"), (200, "OK"),
   (201, "Created"), (202, "Accepted"), (203, "Non Authoritative Information"),
   (204, "No Content"), (205, "Reset Content"), (206, "Partial Content"), (207, "Multi-Status"),
   (208, "Already Reported"), (226, "IM Used"), (300, "Multiple Choices"),
   (301, "Moved Permanently"), (302, "Found"), (303, "See Other"), (304, "Not Modified"),
   (305, "Use Proxy"), (307, "Temporary Redirect"), (308, "Permanent Redirect"),
   (400, "Bad Request"), (401, "Unauthorized"), (402, "Payment Required"), (403, "Forbidden"),
   (404, "Not Found"), (405, "Method Not Allowed"), (406, "Not Acceptable"),
   (407, "Proxy Authentication Required"), (408, "Request Timeout"), (409, "Conflict"),
   (410, "Gone"), (411, "Length Required"), (412, "Precondition Failed"),
   (413, "Payload Too Large"), (414, "URI Too Long"), (415, "Unsupported Media Type"),
   (416, "Range Not Satisfiable"), (417, "Expectation Failed"), (418, "I'm a teapot"),
   (421, "Misdirected Request"), (422, "Unprocessable Entity"), (423, "Locked"),
   (424, "Failed Dependency"), (425, "Too Early"), (426, "Upgrade Required"),
   (428, "Precondition Required"), (429, "Too Many Requests"),
   (431, "Request Header Fields Too Large"), (451, "Unavailable For Legal Reasons"),
   (500, "Internal Server Error"), (501, "Not Implemented"), (502, "Bad Gateway"),
   (503, "Service Unavailable"), (504, "Gateway Timeout"), (505, "HTTP Version Not Supported"),
   (506, "Variant Also Negotiates"), (507, "Insufficient Storage"), (508, "Loop Detected"),
   (510, "Not Extended"), (511, "Network Authentication Required")]

def reason? (status : Nat) : Option String := reasons.lookup status

def statusText (status : Nat) : String :=
  toString status ++ " " ++ (reason? status).getD "<unknown status code>"

/-! ## The exchange -/

def serviceUrl : String := "https://api.anthropic.com/v1/messages"

/-- A language model and the key for it. -/
structure ReviewModel where
  apiKey : String
  model : String
  maxTokens : Nat
  deriving DecidableEq

/-- A block of an answer. -/
structure ContentBlock where
  type : String
  text : String
  deriving DecidableEq

/-- Reads a block; a block without text has an empty one. -/
def ContentBlock.decoder : Decoder ContentBlock :=
  .record ["type", "text"] 1 fun fields => do
    let type ← fields.required "type" .string
    let text ← fields.withDefault "text" .string ""
    return { type, text }

def messageDecoder : Decoder (List ContentBlock) :=
  .record ["content", "stop_reason"] 1 fun fields => do
    let content ← fields.required "content" (.list ContentBlock.decoder)
    let _ ← fields.optional "stop_reason" .string
    return content

/-- The texts of the text blocks, one after the other. -/
def replyText (blocks : List ContentBlock) : String :=
  String.join ((blocks.filter fun block => block.type == "text").map (·.text))

namespace ReviewModel

def name : String := "anthropic"

/-- The model that settings name, if they hold a key for it. -/
def ofSettings (settings : Settings) : Except Failure ReviewModel :=
  if settings.reviewEnabled then
    .ok { apiKey := settings.apiKey, model := settings.model, maxTokens := settings.maxTokens }
  else .error (.settings "ANTHROPIC_API_KEY is required for AI review")

def request (model : ReviewModel) (prompt : String) : HttpRequest where
  method := "POST"
  url := serviceUrl
  headers := [("x-api-key", model.apiKey), ("anthropic-version", "2023-06-01"),
    ("content-type", "application/json")]
  body := .object [("model", .string model.model), ("max_tokens", .natural model.maxTokens),
    ("system", .string instructions),
    ("messages", .array [.object [("role", .string "user"), ("content", .string prompt)]])]

/-- The text of an answer; an answer that is no success or no message is a failure. -/
def replyOfAnswer (answer : HttpReply) : Except Failure String :=
  if answer.status < 200 ∨ 300 ≤ answer.status then
    .error (.review ("Anthropic API returned " ++ statusText answer.status ++ ": " ++ answer.body))
  else
    match messageDecoder.decodeText answer.body with
    | some blocks => .ok (replyText blocks)
    | none =>
      .error (.review "failed to parse Anthropic response: error decoding response body")

/-- The request for a review, unless the key may not stand in a header. -/
def exchangeRequest (model : ReviewModel) (shown : ReviewRequest) : Except Failure HttpRequest :=
  if isHeaderText model.apiKey then .ok (model.request shown.prompt)
  else .error (.review "HTTP request to Anthropic failed: builder error")

/-- The findings that the model adds, or why there are none. -/
def review (model : ReviewModel) (transport : Transport) : Reviewer := fun shown => do
  let request ← model.exchangeRequest shown
  match transport request with
  | none =>
    .error (.review ("HTTP request to Anthropic failed: error sending request for url (" ++
      serviceUrl ++ ")"))
  | some answer => do
    let reply ← replyOfAnswer answer
    return findingsOfReply reply

end ReviewModel

/-- The standard rules, with a review by a language model where settings hold a key for it. -/
def Analyst.ofSettings (settings : Settings) (transport : Transport) : Except Failure Analyst :=
  if settings.reviewEnabled then
    (ReviewModel.ofSettings settings).map fun model =>
      { reviewer := some (model.review transport) }
  else .ok {}

end ContractAnalysis
