import FormCompiler.Cache.Load
import FormCompiler.Document
import FormCompiler.Endpoint.Basic
import FormCompiler.Table.Lookup

namespace FormCompiler

inductive EndpointTableError where
  | notObject (document : Json)
  | unreadableEndpoint
  deriving Repr

def EndpointTableError.text : EndpointTableError → String
  | .notObject document => "lookup document must be an object, got " ++ document.render
  | .unreadableEndpoint => "malformed endpoint"

namespace EndpointTable

def ofEndpoints (env : Environment) (endpoints : Members Endpoint) : LookupTable Remote :=
  endpoints.foldl (fun table (path, e) => table.insert path (.function (e.prepare env))) .empty

def noticesOfEndpoints (env : Environment) (endpoints : Members Endpoint) : List Notice :=
  endpoints.flatMap fun (_, e) => e.notices env

def hasAddress (ms : Members Json) : Bool := ((ms.lookup "url").bind Json.string?).isSome

mutual

def node? (env : Environment) : Json → Option (LookupNode Remote)
  | .object ms =>
    if hasAddress ms then
      (Endpoint.read? Json.record? (.object ms)).map fun e => .function (e.prepare env)
    else (children? env ms).map .group
  | j => some (.value j)

def children? (env : Environment) :
    List (String × Json) → Option (List (String × LookupNode Remote))
  | [] => some []
  | (key, j) :: rest => do
    let node ← node? env j
    let nodes ← children? env rest
    some ((key, node) :: nodes)

end

mutual

def endpoints : Json → List (Option Endpoint)
  | .object ms =>
    if hasAddress ms then [Endpoint.read? Json.record? (.object ms)] else endpointsBelow ms
  | _ => []

def endpointsBelow : List (String × Json) → List (Option Endpoint)
  | [] => []
  | (_, j) :: rest => endpoints j ++ endpointsBelow rest

end

/-- The table of a document. Its own members are keyed by dotted paths, those below by names. -/
def ofDocument (env : Environment) : Json → Except EndpointTableError (LookupTable Remote)
  | .object ms =>
    match children? env ms with
    | none => .error .unreadableEndpoint
    | some nodes => .ok (nodes.foldl (fun table (path, node) => table.insert path node) .empty)
  | document => .error (.notObject document)

def prepared : Json → List Endpoint
  | .object ms => ((endpointsBelow ms).takeWhile (·.isSome)).filterMap id
  | _ => []

def noticesOfDocument (env : Environment) (document : Json) : List Notice :=
  (prepared document).flatMap (·.notices env)

def ofFile (env : Environment) (files : FileTree) (path : String) : Attempt (LookupTable Remote) :=
  match Document.load files path with
  | .error e => { delay := .background, outcome := .error e.failure }
  | .ok document =>
    { delay := .background
      outcome := (ofDocument env document).mapError fun e => ⟨[e.text]⟩
      notices := noticesOfDocument env document }

end EndpointTable

end FormCompiler
