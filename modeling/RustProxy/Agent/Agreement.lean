import RustProxy.Lib.Interleave
import RustProxy.Agent.Client

/-!
# Agent and registry

One agent and the control plane it reports to, with a network between them that may lose a request or its answer, or
deliver a request after the agent has given it up, while other callers use the control plane at any time.

The agent registers once, when it starts, and takes any success answer to a heartbeat for a heartbeat that was recorded.
It is one if the control plane had a row for the node when it served the heartbeat, and nothing overwrote the row before
the answer arrived (`counted_heartbeat_recorded_iff`). But a registration that failed is never tried again, and a
heartbeat of an unknown node is answered with success as well (`unregistered_heartbeat_counted`).

The control plane serves each request without interruption here. `Agent.Exchange` interleaves the statements of requests
in flight, and has these runs among its own (`exchange_of_link`).
-/

namespace RustProxy.Agent

open Lib ControlPlane

/-! ## Runs -/

inductive AgentRequest
  | register
  | heartbeat (payload : HeartbeatPayload)

def AgentRequest.isHeartbeat : AgentRequest → Bool
  | register => false
  | heartbeat _ => true

/-- A request that was served: when, in which state of the store, and with what answer. -/
structure Served where
  now : DateTime
  found : Store
  response : Response

/-- A request that the agent waits for, and how it was served, once it was. -/
structure Pending where
  request : AgentRequest
  served : Option Served

/-- The agent, the control plane, and what is between them. -/
structure Link where
  store : Store
  /-- The registration has been sent. -/
  started : Bool
  metrics : NodeMetrics
  awaited : Option Pending
  /-- Requests that the agent has given up and that have not arrived. -/
  strays : List AgentRequest

def Link.start (store : Store) : Link := ⟨store, false, .new, none, []⟩

/-- An answer is on its way to the agent. -/
def Link.answering (l : Link) : Bool := (l.awaited.bind Pending.served).isSome

inductive LinkEvent
  /-- The agent sends a request. -/
  | send (r : AgentRequest)
  /-- The request that the agent waits for arrives. -/
  | serve (now : DateTime)
  /-- The agent receives the answer. -/
  | receive
  /-- The agent gives up: the request or its answer is lost, or too late. -/
  | giveUp
  /-- A request that the agent has given up arrives after all. -/
  | late (now : DateTime) (i : Nat)
  /-- A call that is not the agent's. -/
  | other (now : DateTime) (call : Call)

/-- How the agent counts the end of a request. -/
def NodeMetrics.recordAnswer (r : AgentRequest) (success : Bool) (m : NodeMetrics) : NodeMetrics :=
  match r, success with
  | .register, _ => m
  | .heartbeat _, true => { m with heartbeats := m.heartbeats + 1 }
  | .heartbeat _, false => { m with heartbeatErrors := m.heartbeatErrors + 1 }

section

variable (state : AppState) (cfg : NodeConfig) (client : ControlPlaneClient)

def AgentRequest.http : AgentRequest → HttpRequest
  | register => client.register cfg.registration
  | heartbeat payload => client.heartbeat cfg.nodeId payload

/-- One step. The registration is the first request and the only one of its kind; each answer is awaited before the next
request. A request is served, and a call of somebody else is made, in one step, without another statement between its
own; `Exchange.next` has the statements one by one. -/
def Link.next (l : Link) : LinkEvent → Option Link
  | .send r =>
    if l.awaited.isNone ∧ r.isHeartbeat = l.started then
      some { l with started := true, awaited := some ⟨r, none⟩ }
    else none
  | .serve now =>
    match l.awaited with
    | some ⟨r, none⟩ =>
      let served := (r.http cfg client).run state now l.store
      some { l with store := served.2, awaited := some ⟨r, some ⟨now, l.store, served.1⟩⟩ }
    | _ => none
  | .receive =>
    match l.awaited with
    | some ⟨r, some served⟩ =>
      some { l with awaited := none, metrics := l.metrics.recordAnswer r served.response.status.isSuccess }
    | _ => none
  | .giveUp =>
    match l.awaited with
    | some ⟨r, served⟩ =>
      some { l with
        awaited := none
        strays := if served.isNone then r :: l.strays else l.strays
        metrics := l.metrics.recordAnswer r false }
    | none => none
  | .late now i =>
    match l.strays[i]? with
    | some r => some { l with store := ((r.http cfg client).run state now l.store).2, strays := l.strays.eraseIdx i }
    | none => none
  | .other now call => some { l with store := (Call.run state.service now call l.store).2 }

end

/-! ## What a heartbeat reports -/

/-- The columns that heartbeats write. -/
structure Report where
  lastHeartbeat : Option Int
  activeConnections : Cell
  bytesUp : Cell
  bytesDown : Cell
  latencyMs : Cell
  deriving DecidableEq

/-- What a heartbeat that is applied at `t` reports. -/
def HeartbeatPayload.report (t : DateTime) (p : HeartbeatPayload) : Report :=
  ⟨some t.timestamp, .ofU32 p.activeConnections, .ofU64 p.bytesUp, .ofU64 p.bytesDown, .ofU32 p.latencyMs⟩

def rowReport (row : Row) : Report :=
  ⟨row.lastHeartbeat, row.activeConnections, row.bytesUp, row.bytesDown, row.latencyMs⟩

/-- What the registry holds of a node's heartbeats. -/
def reportOf (s : Store) (nodeId : String) : Option Report := (s.registry.find? nodeId).map rowReport

/-- No heartbeat of the node is held. -/
def Unheard (nodeId : String) (s : Store) : Prop := ∀ r ∈ reportOf s nodeId, r.lastHeartbeat = none

/-- An operation that does not write what heartbeats report of the node. -/
def Quiet (nodeId : String) : Op → Prop
  | .applyHeartbeat hb => hb.nodeId ≠ nodeId
  | .adjustActive id _ | .accumulateBytes id _ _ => id ≠ nodeId
  | _ => True

section Quiet

variable {nodeId : String} {o : Op} {now : DateTime} {s : Store}

/-- Such an operation leaves the report as it is, or makes a new row. -/
theorem reportOf_exec (now : DateTime) (s : Store) (h : Quiet nodeId o) :
    reportOf (o.exec now s).2 nodeId = reportOf s nodeId ∨
      reportOf s nodeId = none ∧ Unheard nodeId (o.exec now s).2 := by
  by_cases hw : o.writes = some nodeId
  · simp only [reportOf, Unheard, Op.find?_exec_self hw]
    cases o with
    | register req =>
      cases s.registry.find? nodeId with
      | none => exact .inr ⟨rfl, fun r hr => by cases hr; rfl⟩
      | some row => exact .inl rfl
    | applyHeartbeat hb => exact absurd (Option.some.inj hw) h
    | adjustActive id delta => exact absurd (Option.some.inj hw) h
    | accumulateBytes id up down => exact absurd (Option.some.inj hw) h
    | setDraining id => cases s.registry.find? nodeId <;> exact .inl rfl
    | markOffline id => cases s.registry.find? nodeId <;> exact .inl rfl
    | setState id st => cases s.registry.find? nodeId <;> exact .inl rfl
    | get id => exact .inl rfl
    | list => exact .inl rfl
    | reserve id limit rate => exact .inl rfl
  · exact .inl (by rw [reportOf, Op.find?_exec_of_ne hw, reportOf])

end Quiet

/-- What is held of the node's heartbeats stays held, and where none is held, none appears. -/
structure KeepsReports (nodeId : String) (s s' : Store) : Prop where
  held : ∀ r, reportOf s nodeId = some r → reportOf s' nodeId = some r
  unheard : Unheard nodeId s → Unheard nodeId s'

theorem KeepsReports.refl (nodeId : String) (s : Store) : KeepsReports nodeId s s := ⟨fun _ h => h, fun h => h⟩

theorem KeepsReports.exec {nodeId : String} {s s' : Store} (h : KeepsReports nodeId s s') {o : Op}
    (ho : Quiet nodeId o) (now : DateTime) : KeepsReports nodeId s (o.exec now s').2 := by
  rcases reportOf_exec now s' ho with hsame | ⟨hnone, hnew⟩
  · refine ⟨fun r hr => hsame.trans (h.held r hr), fun hs r hr => h.unheard hs r ?_⟩
    rw [← hsame]
    exact hr
  · refine ⟨fun r hr => ?_, fun _ => hnew⟩
    rw [h.held r hr] at hnone
    cases hnone

/-- A call that writes what heartbeats report of the node. -/
def Overwrites (nodeId : String) : Call → Prop
  | .heartbeat hb => hb.nodeId = nodeId
  | .adjustActive id _ => id = nodeId
  | _ => False

theorem quiet_of_mayPerform {nodeId : String} {call : Call} (hcall : ¬ Overwrites nodeId call) {o : Op}
    (ho : call.mayPerform o) : Quiet nodeId o := by
  cases o with
  | applyHeartbeat hb =>
    obtain rfl : call = .heartbeat hb := Call.of_mayPerform ho
    exact hcall
  | adjustActive id delta =>
    obtain rfl : call = .adjustActive id delta := Call.of_mayPerform ho
    exact hcall
  | accumulateBytes id up down => exact (Call.of_mayPerform ho).elim
  | _ => trivial

theorem KeepsReports.call {nodeId : String} {call : Call} (hcall : ¬ Overwrites nodeId call) (svc : ControlPlaneService)
    (now : DateTime) (s : Store) : KeepsReports nodeId s (call.run svc now s).2 :=
  Call.run_inv svc (I := KeepsReports nodeId s) (fun _ _ ho hs => hs.exec (quiet_of_mayPerform hcall ho) now)
    (.refl nodeId s)

/-- A request whose body is not a heartbeat writes nothing that heartbeats report. -/
theorem performs_quiet (nodeId : String) (state : AppState) {req : HttpRequest} {e : JsonRejection}
    (hbody : req.heartbeat = .error e) : (req.prog state).Performs (Quiet nodeId) := by
  refine HttpRequest.respects trivial (fun _ => trivial) (fun r _ _ => respects_register trivial trivial)
    (fun _ _ _ hok => ?_) (fun id _ _ => respects_drain trivial trivial)
  rw [hbody] at hok
  cases hok

theorem KeepsReports.request {state : AppState} {req : HttpRequest} {e : JsonRejection}
    (hbody : req.heartbeat = .error e) (nodeId : String) (now : DateTime) (s : Store) :
    KeepsReports nodeId s (req.run state now s).2 :=
  (performs_quiet nodeId state hbody).run_inv (h := Op.exec now) (I := KeepsReports nodeId s)
    (fun _ _ ho hs => ⟨trivial, hs.exec ho now⟩) (.refl nodeId s)

/-! ## How a heartbeat is served -/

section Serve

variable {state : AppState} {now : DateTime} {s s' : Store}

/-- The service call that the handler makes leaves the store that the call alone leaves. -/
theorem run_heartbeat_snd (svc : ControlPlaneService) (hb : Heartbeat) (now : DateTime) (s : Store) :
    ((svc.heartbeat hb).run (Op.exec now) s).2 = (Call.run svc now (.heartbeat hb) s).2 :=
  (congrArg Prod.snd (Prog.run_bind_ret (h := Op.exec now) (svc.heartbeat hb) (fun _ => Outcome.done) s)).symm

/-- A heartbeat that finds its row is held there. -/
theorem reportOf_heartbeat_found {svc : ControlPlaneService} {nodeId : String} {n : Node} (p : HeartbeatPayload)
    (hfound : Registry.get nodeId s.registry = .ok (some n)) :
    reportOf (Call.run svc now (.heartbeat (p.toHeartbeat nodeId)) s).2 nodeId = some (p.report now) := by
  obtain ⟨row, hrow, -⟩ := Registry.get_some hfound
  have happly : reportOf ((Op.applyHeartbeat (p.toHeartbeat nodeId)).exec now s).2 nodeId = some (p.report now) := by
    rw [reportOf, Op.find?_exec_self rfl, hrow]
    rfl
  have hget : Registry.get (p.toHeartbeat nodeId).nodeId s.registry = .ok (some n) := hfound
  rw [heartbeat_state, hget]
  dsimp only
  split
  · exact ((KeepsReports.refl nodeId _).exec (o := .setState _ _) trivial now).held _ happly
  · exact happly

/-- A heartbeat that succeeds found a row that it could read, or none. -/
theorem reportOf_heartbeat {svc : ControlPlaneService} {nodeId : String} {p : HeartbeatPayload}
    (h : (svc.heartbeat (p.toHeartbeat nodeId)).run (Op.exec now) s = (.ok (), s')) :
    ((s.registry.find? nodeId).isSome = true → reportOf s' nodeId = some (p.report now)) ∧
      (s.registry.find? nodeId = none → s' = s) := by
  have hstate : s' = (Call.run svc now (.heartbeat (p.toHeartbeat nodeId)) s).2 := by
    rw [← run_heartbeat_snd, h]
  cases hfound : Registry.get nodeId s.registry with
  | error e =>
    have hget : Registry.get (p.toHeartbeat nodeId).nodeId s.registry = .error e := hfound
    have herr : (svc.heartbeat (p.toHeartbeat nodeId)).run (Op.exec now) s = (.error e, s) := by
      rw [heartbeat_eq]
      dsimp only [Prog.run_op, Op.exec]
      rw [hget]
      rfl
    rw [herr] at h
    cases h
  | ok n =>
    cases n with
    | none =>
      have hget : Registry.get (p.toHeartbeat nodeId).nodeId s.registry = .ok none := hfound
      have hrow := Registry.get_none hfound
      refine ⟨by simp [hrow], fun _ => ?_⟩
      rw [hstate, heartbeat_state, hget]
    | some n =>
      obtain ⟨row, hrow, -⟩ := Registry.get_some hfound
      refine ⟨fun _ => ?_, by simp [hrow]⟩
      rw [hstate]
      exact reportOf_heartbeat_found p hfound

/-- A heartbeat that is routed to its own id reaches the handler with it. -/
theorem prog_heartbeat {client : ControlPlaneClient} {nodeId : String} {p : HeartbeatPayload}
    (hroute : routedId (client.heartbeatPath nodeId) = some nodeId) :
    (client.heartbeat nodeId p).prog state =
      respond .health (heartbeatNode state client.authed nodeId (p.toHeartbeat "")) := by
  have hpath : (client.heartbeat nodeId p).path = client.heartbeatPath nodeId := rfl
  rw [HttpRequest.prog, hpath]
  simp only [routedId] at hroute
  split at hroute
  · rename_i segment hsegment
    rw [hsegment]
    have haccepts : (Route.heartbeatNode segment).accepts (client.heartbeat nodeId p).method = true := rfl
    simp only [haccepts, if_true, Route.handle, extractPath, hroute]
    rfl
  · cases hroute

/-- A heartbeat that is routed to its own id and answered with success was left to the service, which succeeded. -/
theorem heartbeat_of_success {client : ControlPlaneClient} {nodeId : String} {p : HeartbeatPayload}
    (hroute : routedId (client.heartbeatPath nodeId) = some nodeId)
    (hok : ((client.heartbeat nodeId p).run state now s).1.status.isSuccess = true) :
    (state.service.heartbeat (p.toHeartbeat nodeId)).run (Op.exec now) s =
      (.ok (), ((client.heartbeat nodeId p).run state now s).2) := by
  have hrun := run_heartbeatNode state client.authed nodeId (p.toHeartbeat "") now s
  have hb : { p.toHeartbeat "" with nodeId := nodeId } = p.toHeartbeat nodeId := rfl
  rw [hb] at hrun
  -- an error is answered with its code, and no code of an error is a success
  have hrefused {e : ApiError} {s' : Store} (hno : e.intoResponse.status.isSuccess = false)
      (herr : (heartbeatNode state client.authed nodeId (p.toHeartbeat "")).run (Op.exec now) s = (.error e, s')) :
      False := by
    have hprog : ((client.heartbeat nodeId p).prog state).run (Op.exec now) s = (.error e, s') := by
      rw [prog_heartbeat hroute]
      exact Prog.run_bind_error herr
    rw [HttpRequest.status_run_of_error hprog, hno] at hok
    cases hok
  cases hauth : authorize client.authed state.auth with
  | error e =>
    rw [hauth] at hrun
    exact (hrefused (by rw [authorize_error hauth]; rfl) hrun).elim
  | ok u =>
    rw [hauth] at hrun
    cases hvalid : validateHeartbeat (p.toHeartbeat nodeId) with
    | error e =>
      rw [hvalid] at hrun
      exact (hrefused (by rw [check_error hvalid]; rfl) hrun).elim
    | ok u =>
      rw [hvalid] at hrun
      rcases hservice : (state.service.heartbeat (p.toHeartbeat nodeId)).run (Op.exec now) s with ⟨result, s'⟩
      rw [hservice] at hrun
      cases result with
      | error e => exact (hrefused rfl hrun).elim
      | ok u =>
        simp only [HttpRequest.run, prog_heartbeat hroute, respond, Prog.run_bind_ret, hrun]

end Serve

/-! ## Agreement -/

/-- A success answer to a heartbeat is on its way. -/
structure Link.Succeeding (l : Link) (p : HeartbeatPayload) (served : Served) : Prop where
  awaited : l.awaited = some ⟨.heartbeat p, some served⟩
  success : served.response.status.isSuccess = true

/-- The registry holds the heartbeat, or else no heartbeat of the node at all, according to whether the node had a row
when the heartbeat was served. -/
def Link.Agrees (nodeId : String) (l : Link) : Prop :=
  ∀ p served, l.Succeeding p served →
    ((served.found.registry.find? nodeId).isSome = true → reportOf l.store nodeId = some (p.report served.now)) ∧
      (served.found.registry.find? nodeId = none → Unheard nodeId l.store)

/-- While an answer is on its way, no heartbeat that was given up arrives, and no other caller writes what heartbeats
report of the node. -/
def Link.Orderly (nodeId : String) (l : Link) : LinkEvent → Prop
  | .late _ i => l.answering = true → ∀ r ∈ l.strays[i]?, r.isHeartbeat = false
  | .other _ call => l.answering = true → ¬ Overwrites nodeId call
  | _ => True

/-- Where no answer is on its way there is nothing to agree on. -/
theorem Link.agrees_of_not_answering {nodeId : String} {l : Link} (h : l.answering = false) : l.Agrees nodeId := by
  intro p served hsucc
  rw [Link.answering, hsucc.awaited] at h
  cases h

/-- What keeps the reports of the node keeps the agreement. -/
theorem Link.Agrees.frame {nodeId : String} {l l' : Link} (h : l.Agrees nodeId) (hawaited : l'.awaited = l.awaited)
    (hkeeps : l.answering = true → KeepsReports nodeId l.store l'.store) : l'.Agrees nodeId := by
  intro p served hsucc
  have hsucc' : l.Succeeding p served := ⟨hawaited ▸ hsucc.awaited, hsucc.success⟩
  have hway : l.answering = true := by rw [Link.answering, hsucc'.awaited]; rfl
  obtain ⟨hheld, hunheard⟩ := h p served hsucc'
  exact ⟨fun hfound => (hkeeps hway).held _ (hheld hfound), fun hfound => (hkeeps hway).unheard (hunheard hfound)⟩

section Agreement

variable (state : AppState) (cfg : NodeConfig) (client : ControlPlaneClient)

def OrderlyStep (l : Link) (e : LinkEvent) (l' : Link) : Prop :=
  l.Orderly cfg.nodeId e ∧ l.next state cfg client e = some l'

variable {state cfg client} {l l' : Link} {e : LinkEvent}

/-- A heartbeat that has just been served with success is held, or was not known. -/
theorem agrees_served (hroute : routedId (client.heartbeatPath cfg.nodeId) = some cfg.nodeId) (now : DateTime)
    (r : AgentRequest) (hawaited : l'.awaited =
      some ⟨r, some ⟨now, l.store, ((r.http cfg client).run state now l.store).1⟩⟩)
    (hstore : l'.store = ((r.http cfg client).run state now l.store).2) : l'.Agrees cfg.nodeId := by
  intro p served hsucc
  have heq := hsucc.awaited
  rw [hawaited, Option.some.injEq, Pending.mk.injEq, Option.some.injEq] at heq
  obtain ⟨rfl, rfl⟩ := heq
  have hok := hsucc.success
  simp only [AgentRequest.http] at hok hstore
  obtain ⟨hheld, hunknown⟩ := reportOf_heartbeat (heartbeat_of_success hroute hok)
  refine ⟨fun hfound => hstore ▸ hheld hfound, fun hfound => ?_⟩
  have hsame : l'.store = l.store := hstore.trans (hunknown hfound)
  intro r hr
  rw [hsame, reportOf, hfound] at hr
  cases hr

theorem agrees_step (hroute : routedId (client.heartbeatPath cfg.nodeId) = some cfg.nodeId)
    (h : l.Agrees cfg.nodeId) (hstep : OrderlyStep state cfg client l e l') : l'.Agrees cfg.nodeId := by
  obtain ⟨horderly, hnext⟩ := hstep
  cases e with
  | send r =>
    simp only [Link.next, Option.ite_none_right_eq_some] at hnext
    obtain ⟨-, hl⟩ := hnext
    cases hl
    exact Link.agrees_of_not_answering rfl
  | serve now =>
    simp only [Link.next] at hnext
    split at hnext
    · cases hnext
      exact agrees_served hroute now _ rfl rfl
    · cases hnext
  | receive =>
    simp only [Link.next] at hnext
    split at hnext
    · cases hnext
      exact Link.agrees_of_not_answering rfl
    · cases hnext
  | giveUp =>
    simp only [Link.next] at hnext
    split at hnext
    · cases hnext
      exact Link.agrees_of_not_answering rfl
    · cases hnext
  | late now i =>
    simp only [Link.next] at hnext
    split at hnext
    · rename_i r hr
      cases hnext
      refine h.frame rfl fun hway => ?_
      -- with an answer on its way, it is the registration that arrives late
      cases r with
      | register => exact .request rfl cfg.nodeId now l.store
      | heartbeat p => cases horderly hway _ hr
    · cases hnext
  | other now call =>
    cases hnext
    exact h.frame rfl fun hway => .call (horderly hway) state.service now l.store

theorem agrees_run (hroute : routedId (client.heartbeatPath cfg.nodeId) = some cfg.nodeId) {es : List LinkEvent}
    {s : Store} (hrun : Run (OrderlyStep state cfg client) (.start s) es l) : l.Agrees cfg.nodeId :=
  hrun.inv (fun _ _ _ h hstep => agrees_step hroute h hstep) (Link.agrees_of_not_answering rfl)

/-- **Agreement.** In every run in which nothing else writes what heartbeats report while an answer is on its way, a
heartbeat that the agent counts as sent is in the registry exactly if the node had a row when it was served. -/
theorem counted_heartbeat_recorded_iff (hroute : routedId (client.heartbeatPath cfg.nodeId) = some cfg.nodeId)
    {es : List LinkEvent} {s : Store} (hrun : Run (OrderlyStep state cfg client) (.start s) es l)
    (hreceive : l.next state cfg client .receive = some l') {p : HeartbeatPayload} {served : Served}
    (hsucc : l.Succeeding p served) :
    l'.metrics.heartbeats = l.metrics.heartbeats + 1 ∧
      (reportOf l'.store cfg.nodeId = some (p.report served.now) ↔
        (served.found.registry.find? cfg.nodeId).isSome = true) := by
  obtain ⟨hheld, hunheard⟩ := agrees_run hroute hrun p served hsucc
  simp only [Link.next, hsucc.awaited, Option.some.injEq] at hreceive
  subst hreceive
  refine ⟨?_, fun hreport => ?_, hheld⟩
  · simp only [hsucc.success, NodeMetrics.recordAnswer]
  · by_contra hfound
    rw [Option.not_isSome_iff_eq_none] at hfound
    have hnone : (p.report served.now).lastHeartbeat = none := hunheard hfound _ hreport
    cases hnone

end Agreement

/-! ## One heartbeat, with and without a registration -/

/-- A control plane without a token. -/
def openPlane : AppState := appState (.new .default) none

def exampleClient : ControlPlaneClient := .new "" none

/-- The first heartbeat of an agent without connections. -/
def firstHeartbeat : HeartbeatPayload := (heartbeatTick exampleConfig .new).1

theorem routedId_exampleConfig :
    routedId (exampleClient.heartbeatPath exampleConfig.nodeId) = some exampleConfig.nodeId := by decide +kernel

theorem registered_heartbeat_recorded : ∃ l l' served,
    Run (OrderlyStep openPlane exampleConfig exampleClient) (.start .empty)
      [.send .register, .serve (.ofSecond 0), .receive, .send (.heartbeat firstHeartbeat), .serve (.ofSecond 10)] l ∧
    l.next openPlane exampleConfig exampleClient .receive = some l' ∧ l.Succeeding firstHeartbeat served ∧
    reportOf l'.store exampleConfig.nodeId = some (firstHeartbeat.report (.ofSecond 10)) := by
  have h : ∃ l l' served, Run (OrderlyStep openPlane exampleConfig exampleClient) (.start .empty)
      [.send .register, .serve (.ofSecond 0), .receive, .send (.heartbeat firstHeartbeat), .serve (.ofSecond 10)] l ∧
      l.next openPlane exampleConfig exampleClient .receive = some l' ∧ l.Succeeding firstHeartbeat served ∧
      served.now = .ofSecond 10 ∧ (served.found.registry.find? exampleConfig.nodeId).isSome = true :=
    ⟨_, _, _, .cons ⟨trivial, rfl⟩ (.cons ⟨trivial, rfl⟩ (.cons ⟨trivial, rfl⟩ (.cons ⟨trivial, rfl⟩
      (.cons ⟨trivial, rfl⟩ (.nil _))))), rfl, ⟨rfl, by decide +kernel⟩, rfl, by decide +kernel⟩
  obtain ⟨l, l', served, hrun, hreceive, hsucc, hnow, hfound⟩ := h
  refine ⟨l, l', served, hrun, hreceive, hsucc, ?_⟩
  rw [← hnow]
  exact (counted_heartbeat_recorded_iff routedId_exampleConfig hrun hreceive hsucc).2.mpr hfound

/-- The registration is lost, the heartbeat is answered with success and counted, and there is no row. -/
theorem unregistered_heartbeat_counted : ∃ l l' served,
    Run (OrderlyStep openPlane exampleConfig exampleClient) (.start .empty)
      [.send .register, .giveUp, .send (.heartbeat firstHeartbeat), .serve (.ofSecond 10)] l ∧
    l.next openPlane exampleConfig exampleClient .receive = some l' ∧ l.Succeeding firstHeartbeat served ∧
    l'.metrics.heartbeats = 1 ∧ l'.store.registry.find? exampleConfig.nodeId = none := by
  exact ⟨_, _, _, .cons ⟨trivial, rfl⟩ (.cons ⟨trivial, rfl⟩ (.cons ⟨trivial, rfl⟩ (.cons ⟨trivial, rfl⟩ (.nil _)))),
    rfl, ⟨rfl, by decide +kernel⟩, by decide +kernel, by decide +kernel⟩

end RustProxy.Agent
