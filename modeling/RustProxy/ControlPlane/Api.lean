import RustProxy.Lib.Bytes
import RustProxy.ControlPlane.Service

/-!
# The HTTP API of the control plane

The handlers and the router of `api.rs`, and `app_state` of `server.rs`. A handler is a program over the same operations
as the service calls it makes, so that requests, too, can be run one after the other or interleaved.

A path is the list of its segments as sent; the router compares them literally and percent-decodes the ones it captures.
A body is given by what `serde_json` makes of it as a value of either type. The texts of the answers that `axum` gives
by itself (no route, another method, a body or a path that it cannot extract) are left out, and so is the exposition
that `/metrics` renders.
-/

namespace RustProxy.ControlPlane

open Lib

/-! ## Requests and responses -/

inductive Method
  | get
  | head
  | post
  | other (name : String)
  deriving DecidableEq

inductive StatusCode
  | ok
  | badRequest
  | unauthorized
  | notFound
  | methodNotAllowed
  | payloadTooLarge
  | unsupportedMediaType
  | unprocessableEntity
  | internalServerError
  | serviceUnavailable
  deriving DecidableEq

/-- `is_success`: the codes from 200 to 299. -/
def StatusCode.isSuccess : StatusCode → Bool
  | ok => true
  | _ => false

/-- The values of the `authorization` header, in order. -/
structure HeaderMap where
  authorization : List Bytes
  deriving DecidableEq

/-- What `axum` answers where it cannot extract a body as JSON. -/
inductive JsonRejection
  | jsonDataError
  | jsonSyntaxError
  | missingJsonContentType
  | lengthLimitError
  | bytesRejection
  deriving DecidableEq

def JsonRejection.status : JsonRejection → StatusCode
  | jsonDataError => .unprocessableEntity
  | jsonSyntaxError => .badRequest
  | missingJsonContentType => .unsupportedMediaType
  | lengthLimitError => .payloadTooLarge
  | bytesRejection => .badRequest

structure HttpRequest where
  method : Method
  path : List String
  headers : HeaderMap
  registerRequest : Except JsonRejection RegisterRequest
  heartbeat : Except JsonRejection Heartbeat

/-- A node as exposed to API clients. -/
structure NodeResponse where
  id : String
  address : String
  state : NodeState
  lastHeartbeat : Option DateTime
  maxConnections : UInt32
  activeConnections : UInt32
  bandwidthLimit : UInt64
  availableBandwidth : UInt64
  bytesUp : UInt64
  bytesDown : UInt64
  latencyMs : UInt32
  deriving DecidableEq

def NodeResponse.fromNode (n : Node) (availableBandwidth : UInt64) : NodeResponse where
  id := n.id
  address := n.address
  state := n.state
  lastHeartbeat := n.lastHeartbeat
  maxConnections := n.maxConnections
  activeConnections := n.activeConnections
  bandwidthLimit := n.bandwidthLimit
  availableBandwidth := availableBandwidth
  bytesUp := n.bytesUp
  bytesDown := n.bytesDown
  latencyMs := n.latencyMs

/-- The text of an error: one of the API's own, or the text of a service error. -/
inductive Message
  | text (s : String)
  | display (e : Error)
  deriving DecidableEq

inductive Body
  | none
  | health (status : String)
  | node (n : NodeResponse)
  | nodes (ns : List NodeResponse)
  | error (message : Message)
  | exposition
  deriving DecidableEq

structure Response where
  status : StatusCode
  body : Body
  deriving DecidableEq

/-! ## Errors, validation and authorisation -/

/-- An application error, or an answer of `axum` itself. -/
inductive ApiError
  | new (status : StatusCode) (message : Message)
  | rejection (status : StatusCode)
  deriving DecidableEq

namespace ApiError

def badRequest (msg : String) : ApiError := .new .badRequest (.text msg)

def notFound (msg : String) : ApiError := .new .notFound (.text msg)

def internal (msg : Message) : ApiError := .new .internalServerError msg

def intoResponse : ApiError → Response
  | .new status message => ⟨status, .error message⟩
  | .rejection status => ⟨status, .none⟩

end ApiError

/-- The characters that `str::trim` removes. -/
def isWhitespace (c : Char) : Bool :=
  (9 ≤ c.toNat && c.toNat ≤ 13) || (0x2000 ≤ c.toNat && c.toNat ≤ 0x200a) ||
    [0x20, 0x85, 0xa0, 0x1680, 0x2028, 0x2029, 0x202f, 0x205f, 0x3000].contains c.toNat

/-- `s.trim().is_empty()`. -/
def isBlank (s : String) : Bool := s.toList.all isWhitespace

def check (ok : Bool) (msg : String) : Except ApiError Unit := if ok then .ok () else .error (.badRequest msg)

def validateRegister (req : RegisterRequest) : Except ApiError Unit := do
  check (!isBlank req.nodeId) "node_id must not be empty"
  check (!isBlank req.address) "address must not be empty"
  check (req.maxConnections != 0) "max_connections must be > 0"
  check (req.bandwidthLimit != 0) "bandwidth_limit must be > 0"

def validateHeartbeat (hb : Heartbeat) : Except ApiError Unit :=
  check (!isBlank hb.nodeId) "node_id must not be empty"

/-- Authentication policy for the API. -/
inductive Auth
  | none
  | bearer (token : String)
  deriving DecidableEq

/-- `HeaderValue::to_str`, up to the encoding: the bytes, if all are visible ASCII. -/
def toStr (v : Bytes) : Option Bytes := if v.all fun b => (32 ≤ b && b < 127) || b == 9 then some v else .none

def authorize (headers : HeaderMap) : Auth → Except ApiError Unit
  | .none => .ok ()
  | .bearer expected =>
    match (headers.authorization.head?.bind toStr).bind ((asBytes "Bearer ").isPrefixOf? ·) with
    | .none => .error (.new .unauthorized (.text "missing bearer token"))
    | some provided =>
      if provided = asBytes expected then .ok ()
      else .error (.new .unauthorized (.text "invalid bearer token"))

/-- What is not authorised is answered with 401. -/
theorem authorize_error {headers : HeaderMap} {auth : Auth} {e : ApiError} (h : authorize headers auth = .error e) :
    e.intoResponse.status = .unauthorized := by
  cases auth with
  | none => cases h
  | bearer expected =>
    simp only [authorize] at h
    split at h
    · cases h
      rfl
    · split at h
      · cases h
      · cases h
        rfl

/-- A check that fails is answered with 400. -/
theorem check_error {ok : Bool} {msg : String} {e : ApiError} (h : check ok msg = .error e) :
    e.intoResponse.status = .badRequest := by
  cases ok with
  | true => cases h
  | false =>
    cases h
    rfl

/-! ## Handlers -/

structure AppState where
  service : ControlPlaneService
  auth : Auth

/-- `server::app_state`: an empty token counts as none. -/
def appState (service : ControlPlaneService) (apiToken : Option String) : AppState :=
  match apiToken with
  | some token => ⟨service, if token = "" then .none else .bearer token⟩
  | .none => ⟨service, .none⟩

abbrev ApiM := Prog Op Ans ApiError

/-- `map_err(|e| ApiError::internal(e.to_string()))`. -/
def internalError {α : Type} (p : ServiceM α) : ApiM α := p.mapError fun e => .internal (.display e)

def okOrElse {α : Type} (e : ApiError) : Option α → ApiM α
  | some a => .ret a
  | .none => .fail e

def nodeNotFound (id : String) : ApiError := .notFound ("node '" ++ id ++ "' not found")

section Handlers

variable (state : AppState)

def health : ApiM String := do
  let _ ← ControlPlaneService.list.mapError fun _ => ApiError.internal (.text "storage unavailable")
  return "ok"

def listNodes : ApiM (List NodeResponse) := do
  let nodes ← internalError ControlPlaneService.list
  return nodes.map fun n => NodeResponse.fromNode n n.bandwidthLimit

def getNode (id : String) : ApiM NodeResponse := do
  let node ← internalError (ControlPlaneService.get id)
  let node ← okOrElse (nodeNotFound id) node
  return .fromNode node node.bandwidthLimit

def selectNode : ApiM NodeResponse := do
  let node ← internalError state.service.select
  let node ← okOrElse (.new .serviceUnavailable (.text "no healthy node available")) node
  return .fromNode node node.bandwidthLimit

def registerNode (headers : HeaderMap) (req : RegisterRequest) : ApiM NodeResponse := do
  .ofExcept (authorize headers state.auth)
  .ofExcept (validateRegister req)
  let node ← internalError (ControlPlaneService.register req)
  return .fromNode node node.bandwidthLimit

def heartbeatNode (headers : HeaderMap) (id : String) (hb : Heartbeat) : ApiM String := do
  .ofExcept (authorize headers state.auth)
  let hb := { hb with nodeId := id }
  .ofExcept (validateHeartbeat hb)
  internalError (state.service.heartbeat hb)
  return "ok"

def drainNode (headers : HeaderMap) (id : String) : ApiM NodeResponse := do
  .ofExcept (authorize headers state.auth)
  let node ← internalError (ControlPlaneService.drain id)
  let node ← okOrElse (nodeNotFound id) node
  return .fromNode node node.bandwidthLimit

end Handlers

/-! ## The router -/

/-- The value of a hexadecimal digit. -/
def hexDigit (b : UInt8) : Option UInt8 :=
  if 48 ≤ b && b ≤ 57 then some (b - 48)
  else if 65 ≤ b && b ≤ 70 then some (b - 55)
  else if 97 ≤ b && b ≤ 102 then some (b - 87)
  else .none

/-- A percent sign that is not followed by two digits stands for itself. -/
def percentDecode : Bytes → Bytes
  | 37 :: hi :: lo :: rest =>
    match hexDigit hi, hexDigit lo with
    | some h, some l => (16 * h + l) :: percentDecode rest
    | _, _ => 37 :: percentDecode (hi :: lo :: rest)
  | b :: rest => b :: percentDecode rest
  | [] => []

/-- What a route matches; an id is still as sent. -/
inductive Route
  | health
  | listNodes
  | selectNode
  | getNode (id : String)
  | registerNode
  | heartbeatNode (id : String)
  | drainNode (id : String)
  | metrics
  deriving DecidableEq

/-- A capture is one segment that is not empty; a literal segment has precedence over it. The real router also captures
an empty segment in front of `/heartbeat`: such a request is then refused by the handler, with 400 and not with 404, and
changes nothing either. -/
def capture (route : String → Route) (segment : String) : Option Route :=
  if segment = "" then .none else some (route segment)

def router : List String → Option Route
  | ["health"] => some .health
  | ["nodes"] => some .listNodes
  | ["nodes", "select"] => some .selectNode
  | ["nodes", "register"] => some .registerNode
  | ["nodes", id] => capture .getNode id
  | ["nodes", id, "heartbeat"] => capture .heartbeatNode id
  | ["nodes", id, "drain"] => capture .drainNode id
  | ["metrics"] => some .metrics
  | _ => .none

/-- The segment that a route captures. -/
def Route.segment : Route → Option String
  | getNode id | heartbeatNode id | drainNode id => some id
  | health | listNodes | selectNode | registerNode | metrics => .none

theorem capture_eq_some {route : String → Route} {segment : String} {r : Route} (h : capture route segment = some r) :
    r = route segment := by
  unfold capture at h
  split_ifs at h
  exact (Option.some.inj h).symm

theorem segment_mem_of_router {path : List String} {route : Route} {segment : String} (h : router path = some route)
    (hsegment : route.segment = some segment) : segment ∈ path := by
  unfold router at h
  split at h
  case h_5 | h_6 | h_7 =>
    obtain rfl := capture_eq_some h
    cases hsegment
    simp
  case h_9 => cases h
  all_goals
    cases h
    cases hsegment

/-- `get` also serves `HEAD`. -/
def Route.accepts (m : Method) : Route → Bool
  | health | listNodes | getNode _ | metrics => m = .get || m = .head
  | selectNode | registerNode | heartbeatNode _ | drainNode _ => m = .post

/-- `Path<String>`. -/
def extractPath (segment : String) : ApiM String :=
  okOrElse (.rejection .badRequest) (fromUtf8 (percentDecode (asBytes segment)))

/-- The id that a handler is given for a path. -/
def addressedId (path : List String) : Option String :=
  ((router path).bind Route.segment).bind fun segment => fromUtf8 (percentDecode (asBytes segment))

/-- `Json<T>`. -/
def extractJson {α : Type} : Except JsonRejection α → ApiM α
  | .ok a => .ret a
  | .error e => .fail (.rejection e.status)

def respond {α : Type} (body : α → Body) (p : ApiM α) : ApiM Response := p.bind fun a => .ret ⟨.ok, body a⟩

/-- The extractors of a handler, in the order of its arguments, and then the handler. -/
def Route.handle (state : AppState) (req : HttpRequest) : Route → ApiM Response
  | health => respond .health ControlPlane.health
  | listNodes => respond .nodes ControlPlane.listNodes
  | selectNode => respond .node (ControlPlane.selectNode state)
  | getNode id => do
    let id ← extractPath id
    respond .node (ControlPlane.getNode id)
  | registerNode => do
    let body ← extractJson req.registerRequest
    respond .node (ControlPlane.registerNode state req.headers body)
  | heartbeatNode id => do
    let id ← extractPath id
    let body ← extractJson req.heartbeat
    respond .health (ControlPlane.heartbeatNode state req.headers id body)
  | drainNode id => do
    let id ← extractPath id
    respond .node (ControlPlane.drainNode state req.headers id)
  | metrics => .ret ⟨.ok, .exposition⟩

def HttpRequest.prog (state : AppState) (req : HttpRequest) : ApiM Response :=
  match router req.path with
  | .none => .fail (.rejection .notFound)
  | some route => if route.accepts req.method then route.handle state req else .fail (.rejection .methodNotAllowed)

/-- The answer that is sent; one to `HEAD` has no body. -/
def HttpRequest.answer (req : HttpRequest) (result : Except ApiError Response) : Response :=
  let response := match result with
    | .ok response => response
    | .error e => e.intoResponse
  if req.method = .head then { response with body := .none } else response

/-- A request served alone at the clock value `now`. -/
def HttpRequest.run (state : AppState) (now : DateTime) (req : HttpRequest) (s : Store) : Response × Store :=
  let (result, s') := (req.prog state).run (Op.exec now) s
  (req.answer result, s')

/-- A request that fails is answered with the code of the error, `HEAD` or not. -/
theorem HttpRequest.status_run_of_error {state : AppState} {now : DateTime} {req : HttpRequest} {s s' : Store}
    {e : ApiError} (h : (req.prog state).run (Op.exec now) s = (.error e, s')) :
    (req.run state now s).1.status = e.intoResponse.status := by
  simp only [HttpRequest.run, h, HttpRequest.answer]
  split
  · rfl
  · rfl

/-- The heartbeat handler: what is authorised and passes the check is left to the service. -/
theorem run_heartbeatNode (state : AppState) (headers : HeaderMap) (id : String) (hb : Heartbeat) (now : DateTime)
    (s : Store) :
    (heartbeatNode state headers id hb).run (Op.exec now) s =
      match authorize headers state.auth, validateHeartbeat { hb with nodeId := id } with
      | .error e, _ => (.error e, s)
      | .ok _, .error e => (.error e, s)
      | .ok _, .ok _ =>
        let (result, s') := (state.service.heartbeat { hb with nodeId := id }).run (Op.exec now) s
        ((result.mapError fun e => .internal (.display e)).map fun _ => "ok", s') := by
  simp only [heartbeatNode]
  cases authorize headers state.auth with
  | error e => rfl
  | ok u =>
    cases validateHeartbeat { hb with nodeId := id } with
    | error e => rfl
    | ok u =>
      simp only [Prog.ofExcept_ok, Prog.bind_eq, Prog.ret_bind, Prog.pure_eq, Prog.run_bind_ret, internalError,
        Prog.run_mapError]

/-! ## What the pieces of a handler perform -/

section Respects

variable {α : Type} {G : Op → Prop} {R : (o : Op) → Ans o → Prop}

theorem respects_okOrElse (e : ApiError) (a : Option α) : Prog.Respects G R (okOrElse e a) := by
  cases a <;> trivial

theorem respects_respond {body : α → Body} {p : ApiM α} (hp : Prog.Respects G R p) :
    Prog.Respects G R (respond body p) :=
  .bind hp fun _ => trivial

/-- A handler that authorises first performs something for the requests that it lets in. -/
theorem respects_authorized {headers : HeaderMap} {auth : Auth} {p : Unit → ApiM α}
    (hp : authorize headers auth = .ok () → Prog.Respects G R (p ())) :
    Prog.Respects G R ((Prog.ofExcept (authorize headers auth)).bind p) := by
  cases h : authorize headers auth with
  | ok _ => exact hp h
  | error e => trivial

/-- A handler that extracts an id goes on with the one that the path addresses. -/
theorem respects_extractPath {path : List String} {route : Route} {segment : String} (hroute : router path = some route)
    (hsegment : route.segment = some segment) {p : String → ApiM α}
    (hp : ∀ id, addressedId path = some id → Prog.Respects G R (p id)) :
    Prog.Respects G R ((extractPath segment).bind p) := by
  have haddressed : addressedId path = fromUtf8 (percentDecode (asBytes segment)) := by
    rw [addressedId, hroute, Option.bind_some, hsegment, Option.bind_some]
  simp only [extractPath]
  cases hid : fromUtf8 (percentDecode (asBytes segment)) with
  | none => trivial
  | some id => exact hp id (haddressed.trans hid)

/-- **What a request performs**: reads, and the operations of a registration, or of a heartbeat or a drain for the id
that the path addresses, whose body can be extracted and which is authorised. -/
theorem HttpRequest.respects {state : AppState} {req : HttpRequest} (hlist : G .list) (hget : ∀ id, G (.get id))
    (hregister : ∀ r, req.registerRequest = .ok r → authorize req.headers state.auth = .ok () →
      Prog.Respects G R (ControlPlaneService.register r))
    (hheartbeat : ∀ id hb, addressedId req.path = some id → req.heartbeat = .ok hb →
      authorize req.headers state.auth = .ok () → Prog.Respects G R (state.service.heartbeat { hb with nodeId := id }))
    (hdrain : ∀ id, addressedId req.path = some id → authorize req.headers state.auth = .ok () →
      Prog.Respects G R (ControlPlaneService.drain id)) :
    Prog.Respects G R (req.prog state) := by
  have hlist' : Prog.Respects G R ControlPlaneService.list := Prog.respects_opExcept hlist
  have hget' (id : String) : Prog.Respects G R (ControlPlaneService.get id) := Prog.respects_opExcept (hget id)
  have hselect : Prog.Respects G R state.service.select := .bind hlist' fun _ => trivial
  simp only [HttpRequest.prog]
  split
  · trivial
  · rename_i route hroute
    split
    · cases route with
      | health => exact respects_respond (.bind (hlist'.mapError _) fun _ => trivial)
      | listNodes => exact respects_respond (.bind (hlist'.mapError _) fun _ => trivial)
      | selectNode =>
        exact respects_respond (.bind (hselect.mapError _) fun _ => .bind (respects_okOrElse _ _) fun _ => trivial)
      | getNode id =>
        exact respects_extractPath hroute rfl fun id _ => respects_respond
          (.bind ((hget' id).mapError _) fun _ => .bind (respects_okOrElse _ _) fun _ => trivial)
      | registerNode =>
        simp only [Route.handle]
        cases hbody : req.registerRequest with
        | error e => trivial
        | ok r =>
          exact respects_respond (respects_authorized fun hauth => .bind (Prog.respects_ofExcept _) fun _ =>
            .bind ((hregister r hbody hauth).mapError _) fun _ => trivial)
      | heartbeatNode id =>
        refine respects_extractPath hroute rfl fun id hid => ?_
        cases hbody : req.heartbeat with
        | error e => trivial
        | ok hb =>
          exact respects_respond (respects_authorized fun hauth => .bind (Prog.respects_ofExcept _) fun _ =>
            .bind ((hheartbeat id hb hid hbody hauth).mapError _) fun _ => trivial)
      | drainNode id =>
        exact respects_extractPath hroute rfl fun id hid => respects_respond (respects_authorized fun hauth =>
          .bind ((hdrain id hid hauth).mapError _) fun _ => .bind (respects_okOrElse _ _) fun _ => trivial)
      | metrics => trivial
    · trivial

end Respects

end RustProxy.ControlPlane
