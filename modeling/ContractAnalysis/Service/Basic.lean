import ContractAnalysis.Codec.Report
import ContractAnalysis.Codec.Settings
import ContractAnalysis.Service.Http

/-!
# The analysis service

The service has two resources over HTTP. `GET /api/health` says that it is there, and
`POST /api/analyze` answers with the report on a text. The body of a request for an analysis is a
JSON object, or an array of its parts in order. It is read in document order, and the first thing
wrong with it counts: either the text is no JSON, or it is JSON of another shape.

* `AnalyzeRequest`: a text, its name, and whether it is to be reviewed
* `AnalyzeRequest.ofText`: the request that a body makes
* `ServiceRequest`, `ServiceReply`: what the service is asked and what it answers
* `ServiceRequest.ofParts?`: the request that the parts of an HTTP message make
* `respondIn`, `respond`: the answer of the service
-/

namespace ContractAnalysis

open Json

/-! ## Requests for an analysis -/

/-- What is to be analysed. -/
structure AnalyzeRequest where
  sourceName : String := "request.txt"
  text : String
  aiReview : Bool := true
  deriving DecidableEq

/-- What may be wrong with a body. -/
inductive BodyFault where
  /-- The text is no JSON. -/
  | malformed
  /-- The text is JSON of another shape. -/
  | mismatched
  deriving DecidableEq

/-- What is wrong with a value that is neither wanted nor passed over. A scalar is read first. -/
def faultOf : Source → BodyFault
  | .fault | .string none | .number _ false => .malformed
  | _ => .mismatched

def textOf : Source → Except BodyFault String
  | .string (some s) => .ok s
  | source => .error (faultOf source)

def boolOf : Source → Except BodyFault Bool
  | .bool b => .ok b
  | source => .error (faultOf source)

namespace AnalyzeRequest

/-- The parts of a request that were read so far. -/
structure Parts where
  sourceName : Option String := none
  text : Option String := none
  aiReview : Option Bool := none

/-- The request that parts make up; only the text has to be there. -/
def Parts.request (parts : Parts) : Except BodyFault AnalyzeRequest :=
  match parts.text with
  | some text =>
    .ok { text, sourceName := parts.sourceName.getD "request.txt"
          aiReview := parts.aiReview.getD true }
  | none => .error .mismatched

/-- A part put where no part was before. -/
def Parts.fill {α : Type} (old : Option α) (value : Except BodyFault α) : Except BodyFault α :=
  if old.isSome then .error .mismatched else value

/-- One more field. A part given twice is wrong before its value is read; other fields are passed
over. -/
def Parts.addField (parts : Parts) (field : Option String × Source) : Except BodyFault Parts :=
  match field with
  | (none, _) => .error .malformed
  | (some name, source) =>
    if name = "source_name" then do
      return { parts with sourceName := some (← fill parts.sourceName (textOf source)) }
    else if name = "text" then do
      return { parts with text := some (← fill parts.text (textOf source)) }
    else if name = "ai_review" then do
      return { parts with aiReview := some (← fill parts.aiReview (boolOf source)) }
    else .ok parts

/-- The parts that the items of an array are, in order. -/
def Parts.ofItems : List Source → Except BodyFault Parts
  | [] => .ok {}
  | [a] => do return { sourceName := some (← textOf a) }
  | [a, b] => do return { sourceName := some (← textOf a), text := some (← textOf b) }
  | a :: b :: c :: rest => do
    let parts : Parts := {
      sourceName := some (← textOf a), text := some (← textOf b), aiReview := some (← boolOf c) }
    if rest.isEmpty then .ok parts else .error .malformed

def ofSource : Source → Except BodyFault AnalyzeRequest
  | .object fields closed => do
    let parts ← fields.foldlM Parts.addField {}
    if closed then parts.request else .error .malformed
  | .array items closed => do
    let parts ← Parts.ofItems items
    if closed then parts.request else .error .malformed
  | source => .error (faultOf source)

def ofText (body : String) : Except BodyFault AnalyzeRequest := do
  let (source, ended) := read body
  let request ← ofSource source
  if ended then .ok request else .error .malformed

def toJson (request : AnalyzeRequest) : Value :=
  .object [("source_name", .string request.sourceName), ("text", .string request.text),
    ("ai_review", .bool request.aiReview)]

end AnalyzeRequest

/-! ## Requests and answers -/

/-- What the service is asked. -/
structure ServiceRequest where
  method : String
  path : List Char
  contentType : Option String := none
  body : String := ""

/-- The request that the parts of an HTTP message make, if the method is a token, the target has a
path, and the content type may stand in a header field. -/
def ServiceRequest.ofParts? (method target : String) (contentType : Option String)
    (body : String) : Option ServiceRequest := do
  let path ← Target.pathOf? target
  if isToken method && contentType.all isHeaderText then some { method, path, contentType, body }
  else none

/-- What a service answers with: nothing that is JSON, a value, or a report. -/
inductive ServiceContent where
  | none
  | json (value : Value)
  | report (report : Report)

/-- The body of an answer: JSON without white space, or nothing. -/
def ServiceContent.text? : ServiceContent → Option String
  | .none => .none
  | .json value => some value.compact
  | .report r => some r.toJson.compact

/-- What the service answers. -/
structure ServiceReply where
  status : Nat
  content : ServiceContent := .none

def programVersion : String := "0.1.0"

variable {m : Type → Type}

def healthOf (analyst : AnalystIn m) : Health :=
  ⟨"ok", programVersion, analyst.reviewer.isSome⟩

def errorReply (status : Nat) (text : String) : ServiceReply :=
  ⟨status, .json (.object [("error", .string text)])⟩

/-- The analyst for a request: without the reviewer unless it is asked for. -/
def AnalystIn.for (analyst : AnalystIn m) (aiReview : Bool) : AnalystIn m :=
  if aiReview then analyst else analyst.alone

/-- What is answered with the outcome of a run. -/
def outcomeReply : Except Failure Outcome → ServiceReply
  | .ok outcome => ⟨200, .report outcome.report⟩
  | .error failure =>
    errorReply (if failure.isRefusal then 400 else 500) ("Analysis failed: " ++ failure.message)

/-- Whether the body of a request is said to be JSON. -/
def saysJson (request : ServiceRequest) : Bool :=
  match request.contentType.bind MediaType.ofText? with
  | some media => media.isJson
  | none => false

/-- The greatest size of a body in bytes: two mebibytes. -/
def greatestBodySize : Nat := 2097152

def healthReply (analyst : AnalystIn m) (method : String) : ServiceReply :=
  if method = "GET" then ⟨200, .json (healthOf analyst).toJson⟩
  else if method = "HEAD" then ⟨200, .none⟩
  else ⟨405, .none⟩

variable [Monad m]

def analyzeReply (analyst : AnalystIn m) (stamp : Stamp) (request : AnalyzeRequest) :
    m ServiceReply :=
  if Text.isBlankText request.text then pure (errorReply 400 "text must not be empty")
  else
    outcomeReply <$>
      (analyst.for request.aiReview).run stamp ⟨request.sourceName, request.text⟩

def postReply (analyst : AnalystIn m) (stamp : Stamp) (request : ServiceRequest) :
    m ServiceReply :=
  if !saysJson request then pure ⟨415, .none⟩
  else if request.body.utf8ByteSize > greatestBodySize then pure ⟨413, .none⟩
  else
    match AnalyzeRequest.ofText request.body with
    | .ok analyze => analyzeReply analyst stamp analyze
    | .error .malformed => pure ⟨400, .none⟩
    | .error .mismatched => pure ⟨422, .none⟩

/-- The answer of the service, which may ask the reviewer. -/
def respondIn (analyst : AnalystIn m) (stamp : Stamp) (request : ServiceRequest) :
    m ServiceReply :=
  if request.path = "/api/health".toList then pure (healthReply analyst request.method)
  else if request.path = "/api/analyze".toList then
    if request.method = "POST" then postReply analyst stamp request else pure ⟨405, .none⟩
  else pure ⟨404, .none⟩

def respond (analyst : Analyst) (stamp : Stamp) (request : ServiceRequest) : ServiceReply :=
  (respondIn analyst stamp request).run

end ContractAnalysis
