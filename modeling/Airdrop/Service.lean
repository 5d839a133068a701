import Airdrop.Settings
import Airdrop.SignedRoot

/-!
# The service

A small service checks claims and signed roots over HTTP. `Service.handle` answers one request:

* `GET /healthz` tells that the service is alive.
* `POST /claims/verify` checks a claim against a root; a mismatch is a negative answer, a claim that cannot be checked
  a failure with status 400.
* `POST /roots/verify` checks the signature of a signed root.

Requests with a body beyond the limit are refused before anything else, by their announced length or by their body.
-/

namespace Airdrop

/-- A request. Of several headers with one name the first counts; case does not matter in names. -/
structure Request where
  method : String
  path : String
  headers : List (String × String) := []
  body : Bytes := []

/-- An answer to a request. -/
inductive Response where
  | alive (now : String)
  | claimValid (valid : Bool)
  | signatureValid (valid : Bool)
  | moved
  | unusable (detail : String)
  | notFound
  | notAllowed
  | tooLarge
  | refused (issues : List Issue)

namespace Response

def status : Response → Nat
  | alive _ | claimValid _ | signatureValid _ => 200
  | moved => 307
  | unusable _ => 400
  | notFound => 404
  | notAllowed => 405
  | tooLarge => 413
  | refused _ => 422

def body : Response → Value
  | alive now => .object [("ok", .bool true), ("ts", .text now)]
  | claimValid valid => .object [("valid", .bool valid)]
  | signatureValid valid => .object [("signature_valid", .bool valid)]
  | moved => .null
  | unusable detail => .object [("detail", .text detail)]
  | notFound => .object [("detail", .text "Not Found")]
  | notAllowed => .object [("detail", .text "Method Not Allowed")]
  | tooLarge => .object [("detail", .text "payload too large")]
  | refused issues => .object [("detail", .list (issues.map Issue.toValue))]

end Response

namespace Service

inductive Endpoint where
  | health
  | verifyClaim
  | verifyRoot

def routes : List (String × String × Endpoint) :=
  [("GET", "/healthz", .health), ("POST", "/claims/verify", .verifyClaim), ("POST", "/roots/verify", .verifyRoot)]

/-- The endpoint of a request, or the answer if there is none. A path with slashes at its end is moved to the one
without them. -/
def route (r : Request) : Except Response Endpoint :=
  let offered (path : String) := routes.filter fun (_, p, _) => p == path
  match offered r.path with
  | [] =>
    let shorter := String.ofList (Text.trimRight (· == '/') r.path.toList)
    if shorter ≠ r.path ∧ !(offered shorter).isEmpty then .error .moved else .error .notFound
  | found =>
    match found.find? fun (method, _) => method == r.method with
    | some (_, _, endpoint) => .ok endpoint
    | none => .error .notAllowed

def header? (r : Request) (name : String) : Option String :=
  (r.headers.find? fun (k, _) => Text.lower k.toList == name.toList).map (·.2)

/-- The greatest length of a body. The environment wins over the settings unless it is empty. -/
def maxBytes (s : Settings) (limit : Option String) : Except Error Int :=
  match limit.filter (!·.isEmpty) with
  | none => .ok s.maxRequestBytes
  | some text =>
    match Numeral.read text.toList with
    | .ok n => .ok n
    | .error .malformed => .error (.value (.badInteger text))
    | .error (.tooLong digits) => .error (.value (.tooLongToRead digits))

def announcedLength? (r : Request) : Option Int :=
  (header? r "content-length").bind fun text => (Numeral.read text.toList).toOption

def exceeds (r : Request) (max : Int) : Bool := (announcedLength? r).any (max < ·) || max < r.body.length

/-- The content type is that of JSON. Parameters and case do not matter. -/
def isJson (contentType : String) : Bool :=
  let media := Text.lower (Text.trim Text.isBlank (Text.before ';' contentType.toList))
  match Text.split '/' media with
  | [main, sub] =>
    main == "application".toList && (sub == "json".toList || "+json".toList.isSuffixOf sub)
  | _ => false

def depthLimit : Nat := 960

/-- The answer to a body that is no text, nested too deeply, or has an integer that is too long to be read. -/
def unreadable : Response := .unusable "There was an error parsing the body"

/-- The text of a body, without a byte order mark in front. -/
def textOf? (body : Bytes) : Option (List Char) :=
  (Utf8.decode? body).map fun cs =>
    match cs with
    | '\ufeff' :: rest => rest
    | cs => cs

/-- The value of a body. One of another type than JSON is not read. -/
def document (r : Request) : Except Response Value :=
  if r.body.isEmpty then .error (.refused [⟨[.field "body"], .missing⟩])
  else if !((header? r "content-type").any isJson) then .ok (.bytes r.body)
  else match textOf? r.body with
    | none => .error unreadable
    | some cs =>
      match Json.read false depthLimit cs with
      | .ok v => .ok v
      | .error .malformed => .error (.refused [⟨[.field "body"], .malformedText⟩])
      | .error .tooDeep | .error (.tooLong _) => .error unreadable

/-- The part of a value at the end of a path. Where a field is missing it is the object without it. -/
def partAt : List Step → Value → Value
  | .field name :: path, .object fs =>
    match Value.lookup name fs with
    | some v => partAt path v
    | none => .object fs
  | .item position :: path, .list vs =>
    match vs[position]? with
    | some v => partAt path v
    | none => .list vs
  | _, v => v

def isDecodable (v : Value) : Bool :=
  v.all fun
    | .bytes bs => (Utf8.decode? bs).isSome
    | _ => true

def isFinite (v : Value) : Bool :=
  v.all fun
    | .float x => x.isFinite
    | _ => true

/-- The answer that lists the issues of a body. It repeats the parts they are about, which have to be JSON in UTF-8. -/
def refuse (body : Value) (issues : List Issue) : Except Error Response :=
  let parts := issues.map fun i => partAt (i.path.drop 1) body
  if !parts.all isDecodable then .error (.plain .undecodable)
  else if !parts.all isFinite then .error (.value .notJson)
  else if !parts.all Value.isWhole then .error (.plain .unencodable)
  else .ok (.refused issues)

/-- What a form reads from a body, or how the request ends. -/
def input {α : Type} (form : Form α) (r : Request) : Except (Except Error Response) α := do
  let v ← (document r).mapError .ok
  (form.readRequest v).mapError fun refusal => refuse v refusal.issues

def checkClaim (s : Settings) (r : VerifyRequest) : Except Error Bool := do
  let h ← r.hasher
  Claim.verify r.claim r.root h (.text s.program) r.treeSize

/-- The answer to a claim that cannot be checked. A message with a torn text cannot be sent. -/
def answerFault (e : Error) : Except Error Response :=
  if !e.isValueError then .error e
  else if e.showsTorn then .error (.plain .unencodable)
  else .ok (.unusable e.detail)

def answerClaim (s : Settings) (r : VerifyRequest) : Except Error Response :=
  match checkClaim s r with
  | .ok valid => .ok (.claimValid valid)
  | .error e => answerFault e

def answer (s : Settings) (now : String) (r : Request) : Endpoint → Except Error Response
  | .health => .ok (.alive now)
  | .verifyClaim =>
    match input VerifyRequest.form r with
    | .ok request => answerClaim s request
    | .error ending => ending
  | .verifyRoot =>
    match input SignedRoot.form r with
    | .ok root => .ok (.signatureValid (SignedRoot.isValid root.toFields))
    | .error ending => ending

/-- The answer to a request at a time, with the limit that the environment sets. -/
def handle (s : Settings) (limit : Option String) (now : String) (r : Request) : Except Error Response := do
  let max ← maxBytes s limit
  if exceeds r max then return .tooLarge
  match route r with
  | .ok endpoint => answer s now r endpoint
  | .error response => return response

end Service
end Airdrop
