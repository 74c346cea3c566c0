import MediaBackup.Error.Setup
import MediaBackup.Log.Redact
import MediaBackup.Text.Quoted

/-
  The endpoint that takes the uploads, as it is configured; its checks, and how it is shown: without anything
  that may be a secret.
-/

namespace MediaBackup

/-- Where uploads go and how they are sent there. -/
structure Endpoint where
  url : String
  authToken : Option String
  /-- The field of the form that carries an item; without one the item is the whole body. -/
  formField : Option String
deriving DecidableEq, Repr, Inhabited

namespace Endpoint

/-- The form's field unless another is set. -/
def standardField : String := "file"

/-- An endpoint without a token that takes forms. -/
def ofUrl (url : String) : Endpoint := ⟨url, none, some standardField⟩

/-- The endpoint with a token. -/
def withToken (e : Endpoint) (token : String) : Endpoint := { e with authToken := some token }

/-- The endpoint with another field of the form. -/
def withField (e : Endpoint) (field : String) : Endpoint := { e with formField := some field }

/-- The endpoint without a form. -/
def rawBody (e : Endpoint) : Endpoint := { e with formField := none }

/-! ## Checks -/

/-- The first fault of the endpoint. -/
def check (e : Endpoint) : Except SetupError Unit :=
  match Url.parse e.url with
  | .error fault => .error (.endpoint (.notUrl fault))
  | .ok u =>
    if u.scheme != "http" && u.scheme != "https" then .error (.endpoint (.wrongScheme u.scheme))
    else if u.host?.isNone then .error (.endpoint (.noHost (Url.redactText e.url)))
    else if e.formField = some "" then .error (.endpoint .emptyField)
    else if e.authToken = some "" then .error (.endpoint .emptyToken)
    else .ok ()

/-- A token that is there, hidden. -/
def shownToken (token : Option String) : String := Text.quotedOption (token.map (Log.redact "auth_token"))

/-- The endpoint in words. -/
def shown (e : Endpoint) : String :=
  Text.record "RemoteEndpoint"
    [("url", Text.quoted (Url.redactText e.url)), ("auth_token", shownToken e.authToken),
     ("form_field", Text.quotedOption e.formField)]

end Endpoint

/-- Where a host can be reached: its name and a port. -/
def Url.target (u : Url) : Except String String :=
  match u.host? with
  | none => .error "endpoint url has no host"
  | some h => match u.knownPort with
    | none => .error "endpoint url has no port"
    | some p => .ok (String.ofList h.text ++ ":" ++ toString p)

/-- Where an endpoint can be reached, which a monitor of the network tries. -/
def Endpoint.target (url : String) : Except HostError String :=
  match Url.parse url with
  | .error fault => .error (.operationFailed ("invalid endpoint url: " ++ fault.message))
  | .ok u => u.target.mapError .operationFailed

end MediaBackup
