import RustProxy.Agent.Client
import RustProxy.ControlPlane.Serving
import RustProxy.Gateway.Handler

/-!
# Selecting a node from the control plane

The client of `proxy_client.rs`, and the gateway together with the control plane that it asks: any number of sessions,
any number of requests of anyone, and all of their steps in any order.

A session dials the address that it was given for a node, and nothing else (`respects_dials`). What it was given is an
answer of the control plane, and what that reports is what was registered. So a gateway only ever connects to addresses
that a holder of the token has registered (`dials_registered_nodes`).
-/

namespace RustProxy.Gateway

open Lib ControlPlane Protocol Proxy

/-! ## The client -/

/-- Its fields, `new` and `authed` are those of the agent's client. -/
abbrev ControlPlaneClient := Agent.ControlPlaneClient

/-- `POST` without a body. -/
def selectRequest (client : ControlPlaneClient) : HttpRequest where
  method := .post
  path := Agent.urlPath (client.baseUrl ++ "/nodes/select")
  headers := client.authed
  registerRequest := .error .missingJsonContentType
  heartbeat := .error .missingJsonContentType

/-- `Display` of a status code. -/
def displayStatus : StatusCode → String
  | .ok => "200 OK"
  | .badRequest => "400 Bad Request"
  | .unauthorized => "401 Unauthorized"
  | .notFound => "404 Not Found"
  | .methodNotAllowed => "405 Method Not Allowed"
  | .payloadTooLarge => "413 Payload Too Large"
  | .unsupportedMediaType => "415 Unsupported Media Type"
  | .unprocessableEntity => "422 Unprocessable Entity"
  | .internalServerError => "500 Internal Server Error"
  | .serviceUnavailable => "503 Service Unavailable"

/-- What `select_node` makes of the reply, given the texts of an error of the transport and of one of the decoder. A
node is the only body that has an id and an address. -/
def selectNode (decodeError : String) : Except String Response → Except GatewayError RemoteNode
  | .error e => .error (.relay ("control plane unreachable: " ++ e))
  | .ok response =>
    if response.status = .serviceUnavailable then .error .noNode
    else if response.status.isSuccess then
      match response.body with
      | .node n => .ok ⟨n.id, n.address⟩
      | _ => .error (.relay ("invalid select response: " ++ decodeError))
    else .error (.relay ("control plane select failed with status " ++ displayStatus response.status))

/-- A node is one that the response reports. -/
theorem reported_of_selectNode {decodeError : String} {response : Response} {node : RemoteNode}
    (h : selectNode decodeError (.ok response) = .ok node) :
    ∃ n ∈ response.body.reported, n.id = node.id ∧ n.address = node.forwardAddress := by
  simp only [selectNode] at h
  split_ifs at h
  split at h
  · rename_i n hbody
    cases h
    exact ⟨n, by rw [hbody]; exact List.mem_singleton_self n, rfl, rfl⟩
  · cases h

/-! ## What a session dials -/

/-- The address that a session connects to is one of those in `D`. -/
def Dials (D : String → Prop) : SessionOp Control → Prop
  | .ctl (.connect addr) => D addr
  | _ => True

/-- The node that a session is given has an address in `D`. -/
def Given (D : String → Prop) : (i : SessionOp Control) → i.Ans Control.Ans → Prop
  | .ctl .selectNode, some (.ok node) => D node.forwardAddress
  | _, _ => True

theorem Given.mono {D D' : String → Prop} (hD : ∀ addr, D addr → D' addr) {i : SessionOp Control}
    {a : i.Ans Control.Ans} (h : Given D i a) : Given D' i a := by
  unfold Given at h ⊢
  split
  · exact hD _ h
  · trivial

theorem respects_embed {D : String → Prop} {s : Side} {α : Type} (p : Prog StreamOp StreamOp.Ans GatewayError α) :
    (p.embed s : Handler α).Respects (Dials D) (Given D) := by
  refine (performs_embed s p).mono ?_ fun _ _ _ => trivial
  rintro _ ⟨o, rfl⟩
  trivial

/-- **A session dials what it is given.** -/
theorem respects_dials (D : String → Prop) (auth : Option (String × String)) :
    (runWithCtx auth).Respects (Dials D) (Given D) := by
  refine .bind (respects_embed _) fun request => ?_
  unfold serveRequest
  split
  · exact respects_embed _
  · refine ⟨trivial, fun a ha => ?_⟩
    rcases a with _ | e | node
    · exact respects_embed _
    · exact respects_embed _
    · refine .bind ⟨ha, fun a _ => ?_⟩ fun _ => .bind (respects_embed _) fun _ => ⟨trivial, fun a _ => ?_⟩
      · exact .bind (Prog.respects_ofExcept _) fun _ => respects_embed _
      · rcases a with (e | _) | stats <;> trivial

/-! ## The gateway and the control plane -/

/-- The control plane with its requests in flight, and what is left of the gateway's sessions. -/
structure System where
  control : Pool Store Job
  sessions : List (Handler (UInt64 × UInt64))

inductive SystemLabel
  | control (l : ServingLabel)
  | accept
  | session (i : Nat) (e : SessionEvent Control.Ans)

/-- A session that is given a node has it from an answer to the request of the client. -/
def Replied (client : ControlPlaneClient) (control : Pool Store Job) :
    (i : SessionOp Control) → i.Ans Control.Ans → Prop
  | .ctl .selectNode, some (.ok node) => ∃ j ∈ control.tasks, j.event = .request (selectRequest client) ∧
      ∃ response ∈ j.answer?, ∃ decodeError, selectNode decodeError (.ok response) = .ok node
  | _, _ => True

/-- One step of the two: of the control plane; a client that connects; an operation of a session. -/
inductive SystemStep (state : AppState) (client : ControlPlaneClient) (auth : Option (String × String)) :
    System → SystemLabel → System → Prop
  | control {c c' : Pool Store Job} {sessions : List (Handler (UInt64 × UInt64))} {l : ServingLabel} :
      ServingStep state c l c' → SystemStep state client auth ⟨c, sessions⟩ (.control l) ⟨c', sessions⟩
  | accept {c : Pool Store Job} {sessions : List (Handler (UInt64 × UInt64))} :
      SystemStep state client auth ⟨c, sessions⟩ .accept ⟨c, sessions ++ [runWithCtx auth]⟩
  | session {c : Pool Store Job} {sessions : List (Handler (UInt64 × UInt64))} {i : Nat} {o : SessionOp Control}
      {k : o.Ans Control.Ans → Handler (UInt64 × UInt64)} {a : o.Ans Control.Ans} :
      sessions[i]? = some (.op o k) → Replied client c o a →
      SystemStep state client auth ⟨c, sessions⟩ (.session i ⟨o, a⟩) ⟨c, sessions.set i (k a)⟩

/-- The steps of the control plane. -/
def SystemLabel.control? : SystemLabel → Option ServingLabel
  | .control l => some l
  | .accept | .session .. => none

/-- An address that was registered with the token. -/
def Dialable (token : String) (ls : List SystemLabel) (addr : String) : Prop :=
  ∃ r, Vouched token (ls.filterMap SystemLabel.control?) r ∧ r.address = addr

theorem Dialable.snoc {token : String} {ls : List SystemLabel} {addr : String} (h : Dialable token ls addr)
    (l : SystemLabel) : Dialable token (ls ++ [l]) addr := by
  obtain ⟨r, ⟨req, ⟨began, rest, hmem⟩, hreq⟩, haddr⟩ := h
  refine ⟨r, ⟨req, ⟨began, rest, ?_⟩, hreq⟩, haddr⟩
  rw [List.filterMap_append]
  exact List.mem_append_left _ hmem

/-- What holds along a run: the control plane runs by itself, the sessions dial what they are given by it, and what has
been dialled was registered. -/
structure Traced (service : ControlPlaneService) (token : String) (ls : List SystemLabel) (sys : System) : Prop where
  control : Run (ServingStep ⟨service, .bearer token⟩) notServing (ls.filterMap SystemLabel.control?) sys.control
  sessions : ∀ g ∈ sys.sessions, ∀ D : String → Prop, (∀ addr, Dialable token ls addr → D addr) →
    g.Respects (Dials D) (Given D)
  dialled : ∀ i addr a, .session i ⟨.ctl (.connect addr), a⟩ ∈ ls → Dialable token ls addr

section Traced

variable {service : ControlPlaneService} {token : String} {client : ControlPlaneClient}
variable {auth : Option (String × String)} {ls : List SystemLabel} {sys sys' : System} {l : SystemLabel}

/-- A node that a session is given was registered. -/
theorem Traced.given (h : Traced service token ls sys) {o : SessionOp Control} {a : o.Ans Control.Ans}
    (ha : Replied client sys.control o a) : Given (Dialable token ls) o a := by
  unfold Replied at ha
  split at ha
  · obtain ⟨j, hj, -, response, hresponse, decodeError, hselect⟩ := ha
    obtain ⟨n, hn, -, haddr⟩ := reported_of_selectNode hselect
    exact ⟨n.registration, (letIn_of_reported h.control hj hresponse hn).vouched, haddr⟩
  · rename_i hother
    unfold Given
    split
    · exact absurd HEq.rfl (hother _ rfl)
    · trivial

theorem Traced.step (h : Traced service token ls sys)
    (hst : SystemStep ⟨service, .bearer token⟩ client auth sys l sys') : Traced service token (ls ++ [l]) sys' := by
  have hearlier {D : String → Prop} (hD : ∀ addr, Dialable token (ls ++ [l]) addr → D addr) :
      ∀ addr, Dialable token ls addr → D addr := fun addr haddr => hD addr (haddr.snoc l)
  have hdialled {i : Nat} {addr : String} {a : Except IoFault Unit}
      (hmem : .session i ⟨.ctl (.connect addr), a⟩ ∈ ls) : Dialable token (ls ++ [l]) addr :=
    (h.dialled i addr a hmem).snoc l
  have hcontrol (hl : l.control? = none) :
      (ls ++ [l]).filterMap SystemLabel.control? = ls.filterMap SystemLabel.control? := by
    simp [List.filterMap_append, hl]
  cases hst with
  | @control c c' sessions l hst =>
    refine ⟨?_, fun g hg D hD => h.sessions g hg D (hearlier hD), fun i addr a hmem => ?_⟩
    · rw [List.filterMap_append]
      exact h.control.snoc hst
    · exact hdialled (by simpa using hmem)
  | accept =>
    refine ⟨?_, fun g hg D hD => ?_, fun i addr a hmem => ?_⟩
    · rw [hcontrol rfl]
      exact h.control
    · rcases List.mem_append.mp hg with hg | hg
      · exact h.sessions g hg D (hearlier hD)
      · rw [List.mem_singleton.mp hg]
        exact respects_dials D auth
    · exact hdialled (by simpa using hmem)
  | @session c sessions i o k a hi ha =>
    have hmem : Prog.op o k ∈ sessions := List.mem_of_getElem? hi
    refine ⟨?_, fun g hg D hD => ?_, fun j addr b hlabel => ?_⟩
    · rw [hcontrol rfl]
      exact h.control
    · rcases Pool.eq_or_other_of_mem_set hg with rfl | ⟨j, -, hj⟩
      · exact (h.sessions _ hmem D (hearlier hD)).2 a ((h.given ha).mono (hearlier hD))
      · exact h.sessions g (List.mem_of_getElem? hj) D (hearlier hD)
    · rcases List.mem_append.mp hlabel with hlabel | hlabel
      · exact hdialled hlabel
      · cases List.mem_singleton.mp hlabel
        have hdials := (h.sessions _ hmem (Dialable token ls) fun _ haddr => haddr).1
        exact hdials.snoc _

end Traced

/-- **What a gateway dials.** With any number of gateway sessions, requests and sweeps in flight, in any order of their
steps, with failing statements and restarts of a control plane that asks for a token: every address that a session
connects to is that of a registration that carried the token and passed the checks. -/
theorem dials_registered_nodes {service : ControlPlaneService} {token : String} {client : ControlPlaneClient}
    {auth : Option (String × String)} {ls : List SystemLabel} {sys : System}
    (hrun : Run (SystemStep ⟨service, .bearer token⟩ client auth) ⟨notServing, []⟩ ls sys) {i : Nat} {addr : String}
    {a : Except IoFault Unit} (hdial : .session i ⟨.ctl (.connect addr), a⟩ ∈ ls) :
    ∃ r, Vouched token (ls.filterMap SystemLabel.control?) r ∧ r.address = addr := by
  have htraced : Traced service token ls sys := by
    refine hrun.snoc_induction (P := Traced service token) ⟨.nil _, ?_, ?_⟩ fun _ _ _ _ _ h hst => h.step hst
    · intro g hg
      cases hg
    · intro i addr a hmem
      cases hmem
  exact htraced.dialled i addr a hdial

/-! ## A session that dials -/

section Runs

variable {state : AppState} {client : ControlPlaneClient} {auth : Option (String × String)}

theorem run_control {c c' : Pool Store Job} {ls : List ServingLabel} (h : Run (ServingStep state) c ls c') :
    Run (SystemStep state client auth) ⟨c, []⟩ (ls.map .control) ⟨c', []⟩ := by
  induction h with
  | nil c => exact .nil _
  | cons hst _ ih => exact .cons (.control hst) ih

theorem run_session {c : Pool Store Job} {g g' : Handler (UInt64 × UInt64)} {es : List (SessionEvent Control.Ans)}
    (h : g.Path es g') (hes : ∀ e ∈ es, Replied client c e.1 e.2) :
    Run (SystemStep state client auth) ⟨c, [g]⟩ (es.map (.session 0)) ⟨c, [g']⟩ := by
  induction h with
  | nil g => exact .nil _
  | cons _ ih =>
    obtain ⟨he, hes⟩ := List.forall_mem_cons.mp hes
    exact .cons (.session rfl he) (ih hes)

end Runs

deriving instance DecidableEq for RemoteNode
deriving instance DecidableEq for HttpRequest
deriving instance DecidableEq for ServerEvent

def exampleGateway : ControlPlaneClient := .new "/" none

/-- A node registers and is heard from, and the gateway asks for a node. -/
def dialTurns : List (DateTime × ServingTurn) :=
  [(.ofSecond 0, .arrive (.request registerN1)), (.ofSecond 0, .act 0), (.ofSecond 0, .act 0),
    (.ofSecond 1, .arrive (.request heartbeatN1)), (.ofSecond 1, .act 1), (.ofSecond 1, .act 1), (.ofSecond 1, .act 1),
    (.ofSecond 1, .act 1), (.ofSecond 2, .arrive (.request (selectRequest exampleGateway))), (.ofSecond 2, .act 2)]

/-- A client that asks for 127.0.0.1:80, up to the connection to the node. -/
def dialEvents : List (SessionEvent Control.Ans) :=
  [⟨.io .front (.read 2), .ok ⟨[5, 1], rfl⟩⟩, ⟨.io .front (.read 1), .ok ⟨[0], rfl⟩⟩,
    ⟨.io .front (.write [5, 0]), .ok ()⟩, ⟨.io .front (.read 4), .ok ⟨[5, 1, 0, 1], rfl⟩⟩,
    ⟨.io .front (.read 6), .ok ⟨[127, 0, 0, 1, 0, 80], rfl⟩⟩, ⟨.ctl .selectNode, some (.ok ⟨"n1", "10.0.0.1:1080"⟩)⟩,
    ⟨.ctl (.connect "10.0.0.1:1080"), .ok ()⟩]

theorem path_dialEvents : ∃ g, (runWithCtx none).Path dialEvents g :=
  ⟨_, .cons (.cons (.cons (.cons (.cons (.cons (.cons (.nil _)))))))⟩

theorem dials_registered_nodes_n1 : ∃ ls r, Vouched "secret" ls r ∧ r.address = "10.0.0.1:1080" := by
  obtain ⟨ls, hcontrol, -⟩ := run_of_serveTurns secretState dialTurns notServing
  obtain ⟨g, hpath⟩ := path_dialEvents
  have hreplied : ∀ e ∈ dialEvents,
      Replied exampleGateway (serveTurns secretState dialTurns notServing) e.1 e.2 := by
    have hselect : ∃ j ∈ (serveTurns secretState dialTurns notServing).tasks,
        j.event = .request (selectRequest exampleGateway) ∧ ∃ response ∈ j.answer?,
          selectNode "" (.ok response) = .ok ⟨"n1", "10.0.0.1:1080"⟩ := by decide +kernel
    obtain ⟨j, hj, hevent, response, hresponse, hnode⟩ := hselect
    simp only [dialEvents, List.forall_mem_cons]
    exact ⟨trivial, trivial, trivial, trivial, trivial, ⟨j, hj, hevent, response, hresponse, "", hnode⟩, trivial,
      by simp⟩
  have hrun : Run (SystemStep secretState exampleGateway none) ⟨notServing, []⟩ _ _ :=
    (run_control hcontrol).append (.cons .accept (run_session hpath hreplied))
  exact ⟨_, dials_registered_nodes hrun (i := 0) (a := .ok ()) (by simp [dialEvents])⟩

end RustProxy.Gateway
