import MediaBackup.Time.Duration
import MediaBackup.Text.Bytes

/-
  HTTP requests and responses, as far as an upload needs them.
-/

namespace MediaBackup

/-- A POST request without its body.  No two headers have one name. -/
structure Request where
  url : String
  headers : List (String × String)
  /-- The whole exchange must end within this span. -/
  timeout : Option Duration
deriving DecidableEq, Repr, Inhabited

namespace Request

/-- A request without headers. -/
def post (url : String) : Request := ⟨url, [], none⟩

/-- Sets a header; an earlier one of the same name is dropped. -/
def header (r : Request) (name value : String) : Request :=
  { r with headers := r.headers.filter (·.1 != name) ++ [(name, value)] }

/-- Sets the header that carries a token. -/
def bearer (r : Request) (token : String) : Request := r.header "Authorization" ("Bearer " ++ token)

/-- Sets the span within which the exchange must end. -/
def within (r : Request) (d : Duration) : Request := { r with timeout := some d }

end Request

/-- What a server answers. -/
structure Response where
  status : Nat
  body : List UInt8
deriving DecidableEq, Repr, Inhabited

namespace Response

/-- The server took the request. -/
def isSuccess (r : Response) : Bool := 200 ≤ r.status && r.status < 300

/-- The server blames the client. -/
def isClientError (r : Response) : Bool := 400 ≤ r.status && r.status < 500

/-- The server blames itself. -/
def isServerError (r : Response) : Bool := 500 ≤ r.status && r.status < 600

/-- The client came too often, or was too slow. -/
def isThrottled (r : Response) : Bool := r.status == 408 || r.status == 429

/-- The body as text. -/
def text (r : Response) : String := Text.showBytes r.body

end Response

end MediaBackup
