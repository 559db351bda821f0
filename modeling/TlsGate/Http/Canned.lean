import TlsGate.Http.Handler

/-!
Applications that need no code of their own: the demonstration application, one that echoes, and
one that follows a list with an entry for each request.
-/

set_option autoImplicit false
set_option relaxedAutoImplicit false

namespace TlsGate.Http

inductive Entry where
  | hello
  | echo
  | respond (r : Response)
  | nothing
  | raised (name : String)
  deriving DecidableEq, Repr

/-- Answers with the target and the body of a request; a POST counts as a creation. -/
def echo (r : Request) : Response where
  status := if r.method = "POST" then 201 else 200
  fields := [(Bytes.ofString "X-Target", Bytes.ofString r.target)]
  body := r.body

def Entry.answer (r : Request) : Entry → Answer
  | hello => .response (Http.hello r.method r.target r.version)
  | echo => .response (Http.echo r)
  | respond response => .response response
  | nothing => .nothing
  | raised name => .raised name

/-- The entry for a request, given how many requests came before; the last entry repeats. -/
def entryAt (entries : List Entry) (before : Nat) : Entry :=
  (entries[before]?.or entries.getLast?).getD .nothing

def canned (entries : List Entry) : Application Nat where
  answer r before := ((entryAt entries before).answer r, before + 1)

def Application.recording {τ : Type} (app : Application τ) : Application (List Request × τ) where
  answer r := fun (earlier, state) =>
    let (answer, state) := app.answer r state
    (answer, earlier ++ [r], state)

end TlsGate.Http
