import TlsGate.Bytes

/-!
Requests and responses as an application sees them. A header field is a name and a value; names of
received fields are in lower case.
-/

set_option autoImplicit false
set_option relaxedAutoImplicit false

namespace TlsGate.Http

abbrev Field := Bytes × Bytes

structure Request where
  method : String
  target : String
  fields : List Field := []
  body : Bytes := []
  version : String := "HTTP/1.1"
  deriving DecidableEq, Repr

structure Response where
  status : Int := 200
  fields : List Field := []
  body : Bytes := []
  deriving DecidableEq, Repr

def contentLength : Bytes := Bytes.ofString "content-length"

def Request.field? (r : Request) (name : Bytes) : Option Bytes :=
  (r.fields.find? fun f => f.1 == Bytes.toLower name).map Prod.snd

/-- The fields of a response with names in lower case; the length of the body is stated unless the
application has stated one. -/
def Response.statedFields (r : Response) : List Field :=
  let fields := r.fields.map fun f => (Bytes.toLower f.1, f.2)
  if fields.any (·.1 == contentLength) then fields
  else fields ++ [(contentLength, Bytes.ofString (toString r.body.length))]

/-- The demonstration application: the request line as plain text. -/
def hello (method target version : String) : Response where
  fields := [(Bytes.ofString "content-type", Bytes.ofString "text/plain")]
  body := Bytes.ofString (method ++ " " ++ target ++ " " ++ version ++ "\r\n")

end TlsGate.Http
