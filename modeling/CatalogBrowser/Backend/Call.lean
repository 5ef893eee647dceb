import CatalogBrowser.Error
import CatalogBrowser.Json.Printer
import CatalogBrowser.Json.Reader
import CatalogBrowser.Url.Basic

/-!
Calls of the backend over HTTP: the request that is sent, and what its answer means.
-/

namespace CatalogBrowser

inductive Method where
  | get
  | post
  | delete
  deriving Repr, DecidableEq

def Method.name : Method → String
  | .get => "GET"
  | .post => "POST"
  | .delete => "DELETE"

structure Request where
  method : Method
  url : Url
  body : Option Json := none

inductive PeerAnswer where
  | response (status : Nat) (body : String)
  | dropped
  | unreachable

structure Call (α : Type) where
  request : Request
  read : PeerAnswer → Except Error α

def statusPhrase? (status : Nat) : Option String :=
  [(100, "Continue"), (101, "Switching Protocols"), (102, "Processing"),
    (103, "Early Hints"), (300, "Multiple Choices"), (301, "Moved Permanently"), (302, "Found"),
    (303, "See Other"), (304, "Not Modified"), (305, "Use Proxy"), (307, "Temporary Redirect"),
    (308, "Permanent Redirect"), (400, "Bad Request"), (401, "Unauthorized"),
    (402, "Payment Required"), (403, "Forbidden"), (404, "Not Found"),
    (405, "Method Not Allowed"), (406, "Not Acceptable"),
    (407, "Proxy Authentication Required"), (408, "Request Timeout"), (409, "Conflict"),
    (410, "Gone"), (411, "Length Required"), (412, "Precondition Failed"),
    (413, "Payload Too Large"), (414, "URI Too Long"), (415, "Unsupported Media Type"),
    (416, "Range Not Satisfiable"), (417, "Expectation Failed"), (418, "I'm a teapot"),
    (421, "Misdirected Request"), (422, "Unprocessable Entity"), (423, "Locked"),
    (424, "Failed Dependency"), (425, "Too Early"), (426, "Upgrade Required"),
    (428, "Precondition Required"), (429, "Too Many Requests"),
    (431, "Request Header Fields Too Large"), (451, "Unavailable For Legal Reasons"),
    (500, "Internal Server Error"), (501, "Not Implemented"), (502, "Bad Gateway"),
    (503, "Service Unavailable"), (504, "Gateway Timeout"),
    (505, "HTTP Version Not Supported"), (506, "Variant Also Negotiates"),
    (507, "Insufficient Storage"), (508, "Loop Detected"), (510, "Not Extended"),
    (511, "Network Authentication Required")].lookup status

def bodyDetail? (body : String) : Option String := do
  let json ← Json.read body
  let members := json.lastWins
  let detail ← (members.member? "detail").or (members.member? "message")
  match detail with
  | .string text => some text
  | value => some value.sorted.compact

/-- What an error response says: the message in its body, the body itself, or the phrase of its
status. -/
def responseMessage (status : Nat) (body : String) : String :=
  match bodyDetail? body with
  | some detail => detail
  | none =>
    if Text.isBlankText body then (statusPhrase? status).getD "request failed" else Text.trim body

def isSuccess (status : Nat) : Bool := 200 ≤ status && status < 300

/-- The fault of a request without a response.  Its cause names the URL without the user, which is
sent apart. -/
def fetchError (url : Url) : Error :=
  let cause :=
    if ["http", "https"].contains url.scheme then "error sending request" else "builder error"
  let asked : Url := { url with username := "", password := "" }
  .fetch url.text (cause ++ " for url (" ++ asked.text ++ ")")

def bodyOf (url : Url) : PeerAnswer → Except Error String
  | .response status body =>
    if isSuccess status then .ok body else .error (.response status (responseMessage status body))
  | .dropped | .unreachable => .error (fetchError url)

namespace Call

def ofJson (request : Request) (decode : Json → Option α) : Call α where
  request := request
  read := fun answer => do Error.readable ((Json.read (← bodyOf request.url answer)).bind decode)

def ofSuccess (request : Request) : Call Unit where
  request := request
  read := fun answer => do
    let _ ← bodyOf request.url answer
    return ()

end Call

end CatalogBrowser
