import RustProxy.Agent.Accounting
import RustProxy.ControlPlane.Api

/-!
# The agent's client of the control plane

The requests that `ControlPlaneClient` (`node/src/cp_client.rs`) sends. A URL is given by what follows its authority; of
that, the URL library takes the path up to a query or a fragment, resolves the segments `.` and `..`, and
percent-encodes the characters that have no place in a path. A node id is put into the URL as it is, so that what the
router captures need not be the id (`routedId`).
-/

namespace RustProxy.Agent

open Lib ControlPlane

/-! ## Paths -/

/-- What a path can hold besides letters and digits; a percent sign stands for itself. -/
def pathPunctuation : List Char := "-._~!$&'()*+,;=:@%".toList

def encodeByte (b : UInt8) : List Char :=
  let digit (n : Nat) : Char := (Nat.digitChar n).toUpper
  ['%', digit (b.toNat / 16), digit (b.toNat % 16)]

def encodeChar (c : Char) : List Char :=
  if c.isAlphanum || pathPunctuation.contains c then [c] else (asBytes (String.singleton c)).flatMap encodeByte

/-- The segments that are left once `.` and `..` are resolved, after those in `kept`, the last one first. -/
def resolveDots : List (List Char) → List (List Char) → List (List Char)
  | kept, [] => kept.reverse
  | kept, [last] =>
    if last = ['.', '.'] then ([] :: kept.tail).reverse
    else if last = ['.'] then ([] :: kept).reverse
    else (last :: kept).reverse
  | kept, segment :: segments =>
    if segment = ['.', '.'] then resolveDots kept.tail segments
    else if segment = ['.'] then resolveDots kept segments
    else resolveDots (segment :: kept) segments

def splitSlash : List Char → List (List Char)
  | [] => [[]]
  | c :: cs =>
    if c = '/' then [] :: splitSlash cs
    else match splitSlash cs with
      | [] => [[c]]
      | segment :: segments => (c :: segment) :: segments

/-- The segments of the path of a URL, as they are sent. The `url` crate also takes a backslash for a slash, drops tabs
and newlines, and takes `%2e` for a dot; ids with these are sent otherwise than here. -/
def urlPath (url : String) : List String :=
  let path := url.toList.takeWhile fun c => c != '?' && c != '#'
  (resolveDots [] (splitSlash path).tail).map fun segment => String.ofList (segment.flatMap encodeChar)

/-! ## Requests -/

structure ControlPlaneClient where
  baseUrl : String
  token : Option String

namespace ControlPlaneClient

/-- `trim_end_matches('/')` on the base URL. -/
def new (baseUrl : String) (token : Option String) : ControlPlaneClient :=
  ⟨String.ofList (baseUrl.toList.reverse.dropWhile (· = '/')).reverse, token⟩

variable (self : ControlPlaneClient)

def authed : HeaderMap := ⟨self.token.toList.map fun t => asBytes ("Bearer " ++ t)⟩

def registerPath : List String := urlPath (self.baseUrl ++ "/nodes/register")

def heartbeatPath (nodeId : String) : List String := urlPath (self.baseUrl ++ "/nodes/" ++ nodeId ++ "/heartbeat")

/-- The body has the fields of a registration, and not those that a heartbeat needs. -/
def register (payload : RegisterRequest) : HttpRequest where
  method := .post
  path := self.registerPath
  headers := self.authed
  registerRequest := .ok payload
  heartbeat := .error .jsonDataError

/-- The body has no id, which is then empty, and not the fields that a registration needs. -/
def heartbeat (nodeId : String) (payload : HeartbeatPayload) : HttpRequest where
  method := .post
  path := self.heartbeatPath nodeId
  headers := self.authed
  registerRequest := .error .jsonDataError
  heartbeat := .ok (payload.toHeartbeat "")

end ControlPlaneClient

/-- The id that `heartbeat_node` is given for a path, if the path is routed there. -/
def routedId (path : List String) : Option String :=
  match router path with
  | some (.heartbeatNode segment) => fromUtf8 (percentDecode (asBytes segment))
  | _ => none

end RustProxy.Agent
