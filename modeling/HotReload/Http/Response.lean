/-!
# Responses

What a client is answered: a status, a text with its type perhaps, and who may read it.
-/

namespace HotReload.Http

/-- The answer to a request. -/
structure Response where
  status : Nat
  contentType : Option String := none
  /-- The origins whose pages may read the answer. -/
  allowOrigin : Option String := some "*"
  body : String := ""
  deriving DecidableEq, Inhabited

namespace Response

/-- A plain text. -/
def text (status : Nat) (body : String) : Response :=
  { status, contentType := some "text/plain; charset=utf-8", body }

/-- A JSON text. -/
def json (body : String) : Response :=
  { status := 200, contentType := some "application/json", body }

/-- The answer without its text. -/
def withoutBody (r : Response) : Response := { r with body := "" }

/-- The answer to what is no request. -/
def malformed : Response := { status := 400, allowOrigin := none }

/-- The answer to what a browser asks before it lets a page send its request. -/
def preflight : Response := { status := 200 }

/-- The answer for a path that leads nowhere. -/
def notFound : Response := { status := 404 }

/-- The answer to a method that a path does not have. -/
def methodNotAllowed : Response := { status := 405 }

end Response

end HotReload.Http
