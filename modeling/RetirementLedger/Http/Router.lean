import RetirementLedger.Enforcement
import RetirementLedger.Http.Description
import RetirementLedger.Http.Exchange
import RetirementLedger.Http.Form
import RetirementLedger.Monitor.Scan

namespace RetirementLedger.Http

inductive Resource where
  | health
  | description
  | retirements
  | search
  | retirement (agreementId : List Char)
  | enforcement (agreementId : List Char)
  | monitorStatus
  deriving Repr, DecidableEq

namespace Resource

def segmentAfter? (start path : List Char) : Option (List Char) :=
  if start.isPrefixOf path then
    let rest := path.drop start.length
    if rest.isEmpty || rest.contains '/' then none else some rest
  else none

def ofPath? (path : List Char) : Option Resource :=
  if path = "/v1/health".toList then some .health
  else if path = "/v1/openapi".toList then some .description
  else if path = "/v1/retirements".toList then some .retirements
  else if path = "/v1/retirements/request".toList then some .search
  else if path = "/v1/monitor/status".toList then some .monitorStatus
  else
    ((segmentAfter? "/v1/retirements/".toList path).map .retirement) <|>
      (segmentAfter? "/v1/enforcement/".toList path).map .enforcement

def methods : Resource → String
  | .retirements => "POST,GET,HEAD"
  | .search => "POST"
  | _ => "GET,HEAD"

end Resource

structure Server where
  service : Service
  monitor : Option MonitorStatus

def serviceVersion : String := "service.v1"

def envelope (data : Json) : Json :=
  .ofFields [("service_contract_version", .text serviceVersion),
    ("api_contract_version", .text apiVersion), ("data", data)]

/-- A response with data, or `unwritten` as the status if an instant in it cannot be written. -/
def respond (status unwritten : Nat) (data : Option Json) : Response :=
  match data with
  | some data => .ofJson status (envelope data)
  | none => .ofText unwritten Instant.unwritable

def success (data : Option Json) : Response := respond 200 500 data

def problem (status : Nat) (kind message : String) : Response :=
  .ofJson status (.ofFields [("service_contract_version", .text serviceVersion),
    ("kind", .text kind), ("error", .text message)])

def badRequest (message : String) : Response := problem 400 "invalid_argument" message

def ofFailure (f : Failure) : Response :=
  match f with
  | .invalidArgument _ => badRequest f.message
  | .notFound _ => problem 404 "not_found" f.message
  | .transientStore _ => problem 503 "transient_store_failure" f.message
  | .dependencyUnavailable _ => problem 503 "external_dependency_unavailable" f.message
  | .persistence _ => problem 500 "persistence" f.message

def internalProblem : Response := problem 500 "internal" "request task failed"

def notFound : Response := { status := 404 }

def methodNotAllowed (resource : Resource) : Response :=
  { status := 405, allow := some resource.methods }

def maxBodySize : Nat := 2097152

def decodeBody {α : Type} (r : Request) (read : Json → Option α) : Except Response α :=
  if !r.hasJsonBody then
    .error (badRequest "Expected request with \x60Content-Type: application/json\x60")
  else if maxBodySize < r.body.length then
    .error (badRequest "Failed to buffer the request body: length limit exceeded")
  else
    match (Json.parseFirst? r.body).bind read with
    | some a => .ok a
    | none => .error (badRequest "invalid JSON body")

def decodeId (segment : List Char) : Except Response String :=
  match Text.Utf8.toText? (Text.Percent.decode (Text.Utf8.encode (String.ofList segment))) with
  | some id => .ok id
  | none => .error (.ofText 400 "Invalid URL: Invalid UTF-8 in \x60agreement_id\x60")

def pageResponse : Except Failure Page → Response
  | .ok page => success page.toJson?
  | .error f => ofFailure f

def receiptResponse : Reply Receipt → Response
  | .ok receipt =>
    let status := if receipt.wasNew then 201 else 200
    respond status status receipt.toJson?
  | .failed f => ofFailure f
  | .crashed => internalProblem

def retire (s : Service) (r : Request) : Response × Service :=
  match decodeBody r RetireRequest.ofJson? with
  | .error response => (response, s)
  | .ok body =>
    let (reply, s) := s.retire body.agreementId body.reason r.actor
    (receiptResponse reply, s)

def list (s : Service) (r : Request) : Response :=
  match Form.toQuery? r.target.query with
  | none => badRequest "Failed to deserialize query string"
  | some query => pageResponse (s.find query)

def search (s : Service) (r : Request) : Response :=
  match decodeBody r QuerySpec.ofJson? with
  | .error response => response
  | .ok spec => pageResponse (s.query spec)

def showRetirement (s : Service) (segment : List Char) : Response :=
  match decodeId segment with
  | .error response => response
  | .ok id =>
    match s.get id with
    | .ok (some r) => success r.toJson?
    | .ok none => ofFailure (.notFound ("agreement " ++ id ++ " is not retired"))
    | .error f => ofFailure f

def checkEnforcement (s : Service) (segment : List Char) : Response :=
  match decodeId segment with
  | .error response => response
  | .ok id => success (some (s.check id).toJson)

def health (s : Service) : Response :=
  success (some (.ofFields
    [("status", .text "ok"), ("audit_failures", .nat s.auditFailures)]))

def monitorStatus (monitor : Option MonitorStatus) : Response :=
  success <|
    match monitor with
    | none => some (.ofFields [("enabled", .bool false), ("status", .null)])
    | some status => status.toJson?.map fun j => .ofFields [("enabled", .bool true), ("status", j)]

def describe : Response :=
  { status := 200, contentType := some "application/yaml; charset=utf-8", body := .text description }

def get? (server : Server) (r : Request) : Resource → Option Response
  | .health => some (health server.service)
  | .description => some describe
  | .retirements => some (list server.service r)
  | .search => none
  | .retirement segment => some (showRetirement server.service segment)
  | .enforcement segment => some (checkEnforcement server.service segment)
  | .monitorStatus => some (monitorStatus server.monitor)

def post? (server : Server) (r : Request) : Resource → Option (Response × Service)
  | .retirements => some (retire server.service r)
  | .search => some (search server.service r, server.service)
  | _ => none

def handle (server : Server) (r : Request) : Response × Service :=
  match Resource.ofPath? r.target.path with
  | none => (notFound, server.service)
  | some resource =>
    let refused := (methodNotAllowed resource, server.service)
    match r.method with
    | "GET" => ((get? server r resource).map fun response => (response, server.service)).getD refused
    | "HEAD" =>
      ((get? server r resource).map fun response =>
        (response.withoutBody, server.service)).getD refused
    | "POST" => (post? server r resource).getD refused
    | _ => refused

end RetirementLedger.Http
