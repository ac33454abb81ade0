import RustProxy.Agent.Exchange
import RustProxy.Agent.Drain
import RustProxy.ControlPlane.Detector
import RustProxy.ControlPlane.Selection

/-!
# The node process

`NodeServer::run` as a whole: the registration, the heartbeat loop, the accept loop with its tasks and the signal, over
the network and the control plane of `Agent.Exchange`. The process may end at any point and be started again, while
requests that it sent are still on their way or being served.

What the registry shows of the node is then something that it had: its load is one that the process counted at an
earlier point, and is within the registered capacity where that fits the column (`shown_load`). But a process registers
once. A node that is out of service, because its registration was lost, a sweep has marked it or it was drained, is not
selected again, whatever the process that runs sends, unless a heartbeat is being served that has read it in service
before (`out_until_restart`; `ControlPlane.drainLost` is such a heartbeat).
-/

namespace RustProxy.Agent

open Lib ControlPlane

/-! ## The process -/

/-- `NodeConfig`, as far as `NodeServer::run` reads it; the address is given as it is printed, and the interval in
nanoseconds. -/
structure NodeSettings where
  nodeId : String
  controlPlaneUrl : String
  apiToken : Option String := none
  bindAddr : String
  advertisedAddress : Option String := none
  bandwidthLimit : UInt64 := 10 * 1024 * 1024
  maxConnections : UInt64 := 128
  heartbeatInterval : Nat := 5 * 10 ^ 9

/-- What is registered; the capacity is `max_connections as u32`. -/
def NodeSettings.config (c : NodeSettings) : NodeConfig :=
  ⟨c.nodeId, c.advertisedAddress.getD c.bindAddr, c.maxConnections.toUInt32, c.bandwidthLimit⟩

def NodeSettings.client (c : NodeSettings) : ControlPlaneClient := .new c.controlPlaneUrl c.apiToken

structure NodeProcess where
  bytesUp : UInt64
  bytesDown : UInt64
  /-- The shutdown token is cancelled. -/
  signalled : Bool
  /-- The heartbeat loop has not ended. -/
  beating : Bool
  /-- The accept loop and its tasks, once the listener is bound. -/
  server : Option NodeServer
  link : Exchange

/-- A process that has not done anything. -/
def NodeProcess.start (link : Exchange) : NodeProcess := ⟨0, 0, false, false, none, link⟩

/-- The counters that the heartbeat loop reads. -/
def NodeProcess.stats (p : NodeProcess) : NodeStats :=
  ⟨p.bytesUp, p.bytesDown, p.server.elim 0 NodeServer.activeConnections⟩

inductive ProcessEvent
  /-- The registration is sent. -/
  | register
  /-- The listener is bound, and the accept loop starts. -/
  | bind
  /-- The shutdown token is cancelled. -/
  | signal
  | server (e : NodeEvent)
  /-- The heartbeat loop sends a heartbeat. -/
  | tick
  /-- The heartbeat loop takes the branch of the signal. -/
  | stop
  | network (e : ExchangeEvent)
  /-- The process ends, by itself or not. -/
  | exit

/-- One step. The heartbeat loop and the accept loop start once the registration is over; an interval of length zero is
a panic of the task that would run the heartbeat loop. -/
def NodeProcess.next (state : AppState) (c : NodeSettings) (p : NodeProcess) : ProcessEvent → Option NodeProcess
  | .register =>
    (p.link.next state c.config c.client (.send .register)).map fun l =>
      { p with link := l, beating := c.heartbeatInterval ≠ 0 }
  | .bind =>
    if p.server.isNone ∧ p.link.registrationOver then
      (listening c.maxConnections).map fun s => { p with server := some { s with cancelled := p.signalled } }
    else none
  | .signal => some { p with signalled := true, server := p.server.map fun s => { s with cancelled := true } }
  | .server e =>
    if e = .cancel then none
    else p.server.bind fun s => (s.step e).map fun s' => { p with server := some s' }
  | .tick =>
    if p.beating then
      let (payload, stats) := heartbeatTick c.config p.stats
      (p.link.next state c.config c.client (.send (.heartbeat payload))).map fun l =>
        { p with link := l, bytesUp := stats.bytesUp, bytesDown := stats.bytesDown }
    else none
  | .stop => if p.signalled then some { p with beating := false } else none
  | .network (.send _) => none
  | .network e => (p.link.next state c.config c.client e).map fun l => { p with link := l }
  | .exit => some (.start p.link.hangUp)

/-! ## What the registry shows of the node -/

/-- A heartbeat reports a number of connections in `A`, and nothing else. -/
def AgentRequest.Reports (A : UInt32 → Prop) : AgentRequest → Prop
  | .register => True
  | .heartbeat q => A q.activeConnections ∧ q.bytesUp = 0 ∧ q.bytesDown = 0 ∧ q.latencyMs = 0

/-- A node as it was registered, with a number of connections in `A`. -/
structure Displays (cfg : NodeConfig) (A : UInt32 → Prop) (n : Node) : Prop where
  address : n.address = cfg.address
  maxConnections : n.maxConnections = cfg.maxConnections
  bandwidthLimit : n.bandwidthLimit = cfg.bandwidthLimit
  active : A n.activeConnections
  bytesUp : n.bytesUp = 0
  bytesDown : n.bytesDown = 0
  latencyMs : n.latencyMs = 0

/-- The row of the node, if there is one, can be read and displays it. -/
def Displayed (cfg : NodeConfig) (A : UInt32 → Prop) (s : Store) : Prop :=
  ∀ row, s.registry.find? cfg.nodeId = some row → ∃ n, Decodes row n ∧ Displays cfg A n

/-- What a statement may do to the row of the node. -/
def Faithful (cfg : NodeConfig) (A : UInt32 → Prop) : Op → Prop
  | .register req => req.nodeId = cfg.nodeId → req = cfg.registration
  | .applyHeartbeat hb => hb.nodeId = cfg.nodeId →
      A hb.activeConnections ∧ hb.bytesUp = 0 ∧ hb.bytesDown = 0 ∧ hb.latencyMs = 0
  | .adjustActive id _ | .accumulateBytes id _ _ => id ≠ cfg.nodeId
  | _ => True

/-- What leaves the registration and the reports of the node to its own process: a sweep, or a request that carries no
registration of the node, and no heartbeat under a path that addresses it. -/
def Foreign (nodeId : String) : ServerEvent → Prop
  | .request req => (∀ r, req.registerRequest = .ok r → r.nodeId ≠ nodeId) ∧
      (addressedId req.path = some nodeId → ∀ hb, req.heartbeat ≠ .ok hb)
  | .sweep => True

section Displayed

variable {svc : ControlPlaneService} {state : AppState} {cfg : NodeConfig} {client : ControlPlaneClient}
  {A A' : UInt32 → Prop} {s : Store} {now : DateTime}

theorem Displayed.mono (hA : ∀ a, A a → A' a) (h : Displayed cfg A s) : Displayed cfg A' s := by
  intro row hrow
  obtain ⟨n, hdec, hn⟩ := h row hrow
  exact ⟨n, hdec, { hn with active := hA _ hn.active }⟩

theorem AgentRequest.Reports.mono (hA : ∀ a, A a → A' a) {r : AgentRequest} (h : r.Reports A) : r.Reports A' := by
  cases r with
  | register => trivial
  | heartbeat q => exact ⟨hA _ h.1, h.2⟩

theorem Faithful.mono (hA : ∀ a, A a → A' a) {o : Op} (h : Faithful cfg A o) : Faithful cfg A' o := by
  cases o with
  | applyHeartbeat hb => exact fun hid => ⟨hA _ (h hid).1, (h hid).2⟩
  | _ => exact h

theorem Displayed.exec (h0 : A 0) {o : Op} (ho : Faithful cfg A o) (h : Displayed cfg A s) :
    Displayed cfg A (o.exec now s).2 := by
  intro row' hrow'
  by_cases hw : o.writes = some cfg.nodeId
  · rw [Op.find?_exec_self hw] at hrow'
    cases hrow : s.registry.find? cfg.nodeId with
    | none =>
      rw [hrow] at hrow'
      cases o with
      | register req =>
        cases hrow'
        rw [ho (Option.some.inj hw)]
        exact ⟨_, decodes_freshRow cfg.registration now, rfl, rfl, rfl, h0, rfl, rfl, rfl⟩
      | _ => cases hrow'
    | some row =>
      obtain ⟨n, hdec, hn⟩ := h row hrow
      rw [hrow] at hrow'
      cases o with
      | register req =>
        cases hrow'
        rw [ho (Option.some.inj hw)]
        exact ⟨_, hdec.conflictRow cfg.registration now,
          { hn with address := rfl, maxConnections := rfl, bandwidthLimit := rfl }⟩
      | applyHeartbeat hb =>
        cases hrow'
        obtain ⟨hA, hup, hdown, hlatency⟩ := ho (Option.some.inj hw)
        exact ⟨_, hdec.heartbeatRow hb now,
          { hn with active := hA, bytesUp := hup, bytesDown := hdown, latencyMs := hlatency }⟩
      | setDraining id =>
        cases hrow'
        exact ⟨_, hdec.withStatus .draining now, { hn with }⟩
      | markOffline id =>
        cases hrow'
        exact ⟨_, hdec.withStatus .offline now, { hn with }⟩
      | setState id st =>
        cases hrow'
        exact ⟨_, hdec.withStatus st now, { hn with }⟩
      | adjustActive id delta => exact absurd (Option.some.inj hw) ho
      | accumulateBytes id up down => exact absurd (Option.some.inj hw) ho
      | get id => cases hw
      | list => cases hw
      | reserve id limit rate => cases hw
  · rw [Op.find?_exec_of_ne hw] at hrow'
    exact h row' hrow'

/-- A request whose registration and whose heartbeat are faithful, wherever it is routed to. -/
theorem performs_faithful {req : HttpRequest} (hregister : ∀ r, req.registerRequest = .ok r →
      Faithful cfg A (.register r))
    (hheartbeat : ∀ id hb, addressedId req.path = some id → req.heartbeat = .ok hb →
      Faithful cfg A (.applyHeartbeat { hb with nodeId := id })) : (req.prog state).Performs (Faithful cfg A) :=
  HttpRequest.respects trivial (fun _ => trivial) (fun r hr _ => respects_register (hregister r hr) trivial)
    (fun id hb hid hhb _ => respects_heartbeat _ (hheartbeat id hb hid hhb) (fun _ => trivial) trivial)
    fun _ _ _ => respects_drain trivial trivial

/-- What the process sends. -/
theorem AgentRequest.Reports.performs {r : AgentRequest} (hr : r.Reports A) :
    ((r.http cfg client).prog state).Performs (Faithful cfg A) := by
  cases r with
  | register =>
    refine performs_faithful (fun req hreq _ => ?_) (fun _ _ _ hhb => by cases hhb)
    cases hreq
    rfl
  | heartbeat q =>
    refine performs_faithful (fun _ hreq => by cases hreq) (fun _ hb _ hhb _ => ?_)
    cases hhb
    exact hr

/-- What others send. -/
theorem Foreign.performs {e : ServerEvent} (h : Foreign cfg.nodeId e) :
    (e.prog state now).Performs (Faithful cfg A) := by
  cases e with
  | request req =>
    refine .bind (performs_faithful (fun r hr hid => absurd hid (h.1 r hr)) (fun id hb hid hhb heq => ?_))
      fun _ => trivial
    exact absurd hhb (h.2 (heq ▸ hid) hb)
  | sweep => exact .bind (.mapError _ (respects_markStaleOffline _ trivial (fun _ => trivial) _)) fun _ => trivial

end Displayed

/-! ## Runs of the process -/

/-- A step while others leave the registration and the reports of the node to its own process. -/
def ProcessStep (state : AppState) (c : NodeSettings) (p : NodeProcess) (e : ProcessEvent) (p' : NodeProcess) : Prop :=
  (∀ now e', e = .network (.plane (.arrive now e')) → Foreign c.nodeId e') ∧ p.next state c e = some p'

/-- The connections that the process has counted. -/
def NodeProcess.counted (p : NodeProcess) : Nat := p.server.elim 0 fun s => Pool.total ConnPc.counts s.tasks

/-- What a step of the process is for its link. -/
inductive LinkEffect (state : AppState) (c : NodeSettings) (p : NodeProcess) (e : ProcessEvent) : Exchange → Prop
  | none : LinkEffect state c p e p.link
  | sent {x : Exchange} {r : AgentRequest} : r = .register ∨ r = .heartbeat (heartbeatTick c.config p.stats).1 →
      ExchangeStep state c.config c.client p.link (.send r) x → LinkEffect state c p e x
  | network {x : Exchange} {xe : ExchangeEvent} : e = .network xe → (∀ r, xe ≠ .send r) →
      ExchangeStep state c.config c.client p.link xe x → LinkEffect state c p e x
  | hungUp : e = .exit → LinkEffect state c p e p.link.hangUp

/-- The accept loop keeps its books, and no bytes are counted. -/
structure Booked (c : NodeSettings) (p : NodeProcess) : Prop where
  server : ∀ s ∈ p.server, Balanced c.maxConnections.toNat s
  up : p.bytesUp = 0
  down : p.bytesDown = 0

/-- Whatever is still to be performed is faithful, and the table displays the node. -/
def Showing (cfg : NodeConfig) (A : UInt32 → Prop) : Pool Store Job → Prop :=
  Respecting (Faithful cfg A) (fun _ _ => True) (Displayed cfg A)

/-- What is reported was counted, and the registry shows what was reported. -/
structure Sound (c : NodeSettings) (A : UInt32 → Prop) (p : NodeProcess) : Prop where
  booked : Booked c p
  sent : ∀ r ∈ p.link.unserved, r.Reports A
  showing : Showing c.config A p.link.plane

section Sound

variable {state : AppState} {c : NodeSettings} {A A' : UInt32 → Prop} {p p' : NodeProcess} {e : ProcessEvent}

theorem balanced_of_listening {maxConnections : UInt64} {s : NodeServer} (h : s ∈ listening maxConnections)
    (cancelled : Bool) : Balanced maxConnections.toNat { s with cancelled := cancelled } := by
  have hs : Balanced maxConnections.toNat s := Reachable.balanced ⟨s, h, [], .nil s⟩
  rw [Option.mem_def, listening, Option.map_eq_some_iff] at h
  obtain ⟨permits, -, rfl⟩ := h
  exact ⟨hs.permits, hs.active, fun hloop => absurd rfl hloop⟩

/-- **One step**: what it does to the link, and that it keeps the books. -/
theorem NodeProcess.step_cases (h : p.next state c e = some p') :
    LinkEffect state c p e p'.link ∧ (Booked c p → Booked c p') := by
  cases e with
  | register =>
    obtain ⟨l, hl, rfl⟩ := Option.map_eq_some_iff.mp h
    exact ⟨.sent (.inl rfl) (.of_next hl), fun hp => ⟨hp.server, hp.up, hp.down⟩⟩
  | bind =>
    simp only [NodeProcess.next, Option.ite_none_right_eq_some] at h
    obtain ⟨s, hs, rfl⟩ := Option.map_eq_some_iff.mp h.2
    refine ⟨.none, fun hp => ⟨fun s' hs' => ?_, hp.up, hp.down⟩⟩
    cases hs'
    exact balanced_of_listening hs p.signalled
  | signal =>
    cases h
    refine ⟨.none, fun hp => ⟨fun s' hs' => ?_, hp.up, hp.down⟩⟩
    obtain ⟨s, hs, rfl⟩ := Option.map_eq_some_iff.mp hs'
    exact (hp.server s hs).step (e := .cancel) rfl
  | server e =>
    simp only [NodeProcess.next, Option.ite_none_left_eq_some, Option.bind_eq_some_iff, Option.map_eq_some_iff] at h
    obtain ⟨-, s, hs, s', hs', rfl⟩ := h
    refine ⟨.none, fun hp => ⟨fun t ht => ?_, hp.up, hp.down⟩⟩
    cases ht
    exact (hp.server s hs).step hs'
  | tick =>
    simp only [NodeProcess.next, Option.ite_none_right_eq_some] at h
    obtain ⟨l, hl, rfl⟩ := Option.map_eq_some_iff.mp h.2
    exact ⟨.sent (.inr rfl) (.of_next hl), fun hp => ⟨hp.server, rfl, rfl⟩⟩
  | stop =>
    simp only [NodeProcess.next, Option.ite_none_right_eq_some, Option.some.injEq] at h
    obtain ⟨-, rfl⟩ := h
    exact ⟨.none, fun hp => ⟨hp.server, hp.up, hp.down⟩⟩
  | network le =>
    have hle : (p.link.next state c.config c.client le).map (fun l => { p with link := l }) = some p' ∧
        ∀ r, le ≠ .send r := by
      cases le with
      | send r => cases h
      | _ => exact ⟨h, by simp⟩
    obtain ⟨l, hl, rfl⟩ := Option.map_eq_some_iff.mp hle.1
    exact ⟨.network rfl hle.2 (.of_next hl), fun hp => ⟨hp.server, hp.up, hp.down⟩⟩
  | exit =>
    cases h
    exact ⟨.hungUp rfl, fun _ => ⟨by simp [NodeProcess.start], rfl, rfl⟩⟩

/-- A step of the link that sends what was counted. -/
theorem Sound.link {x : Exchange} {xe : ExchangeEvent} (h : Sound c A p) (h0 : A 0)
    (hstep : ExchangeStep state c.config c.client p.link xe x) (hsend : ∀ r, xe = .send r → r.Reports A)
    (hother : ∀ now e', xe = .plane (.arrive now e') → Foreign c.nodeId e') :
    (∀ r ∈ x.unserved, r.Reports A) ∧ Showing c.config A x.plane := by
  refine ⟨fun r hr => ?_, ?_⟩
  · rcases hstep.unserved hr with hold | rfl
    · exact h.sent r hold
    · exact hsend r rfl
  · rcases hstep.plane_cases with hsame | ⟨l, hst, hstart⟩
    · rw [hsame]
      exact h.showing
    · refine hst.respecting (fun o s now ho hs => ⟨trivial, hs.exec h0 ho⟩) (fun _ _ _ => trivial) (fun s hs => hs)
        (fun j hj => ?_) h.showing
      rcases hstart j hj with ⟨r, hr, hevent⟩ | ⟨now, rfl⟩
      · rw [hevent]
        exact .bind (h.sent r (Exchange.delivered_mem hr)).performs fun _ => trivial
      · exact (hother now j.event rfl).performs

theorem Sound.step (h : Sound c A p) (h0 : A 0) (hA : A p.stats.activeConnections)
    (hstep : ProcessStep state c p e p') : Sound c A p' := by
  obtain ⟨hforeign, hnext⟩ := hstep
  obtain ⟨heffect, hbooked⟩ := NodeProcess.step_cases hnext
  have hlink : (∀ r ∈ p'.link.unserved, r.Reports A) ∧ Showing c.config A p'.link.plane := by
    generalize p'.link = x at heffect ⊢
    cases heffect with
    | none => exact ⟨h.sent, h.showing⟩
    | sent hr hstep =>
      refine h.link h0 hstep (fun r' hr' => ?_) (fun _ _ hr' => by cases hr')
      cases hr'
      rcases hr with rfl | rfl
      · trivial
      · exact ⟨hA, h.booked.up, h.booked.down, rfl⟩
    | network he hxe hstep =>
      exact h.link h0 hstep (fun r hr => absurd hr (hxe r)) (fun now e' hr => hforeign now e' (by rw [he, hr]))
    | hungUp _ => exact ⟨h.sent, h.showing⟩
  exact ⟨hbooked h.booked, hlink.1, hlink.2⟩

theorem Sound.mono (hA : ∀ a, A a → A' a) (h : Sound c A p) : Sound c A' p :=
  { h with
    sent := fun r hr => (h.sent r hr).mono hA
    showing := ⟨h.showing.1.mono hA, fun j hj => (h.showing.2 j hj).mono (fun _ ho => ho.mono hA) fun _ _ h => h⟩ }

/-- The process had counted `a` at some point of the run. -/
def Had (state : AppState) (c : NodeSettings) (start : NodeProcess) (es : List ProcessEvent) (a : UInt32) : Prop :=
  ∃ es₁ es₂ p₁, es = es₁ ++ es₂ ∧ Run (ProcessStep state c) start es₁ p₁ ∧ p₁.stats.activeConnections = a

theorem Had.append {start : NodeProcess} {es : List ProcessEvent} {a : UInt32} (h : Had state c start es a)
    (es' : List ProcessEvent) : Had state c start (es ++ es') a := by
  obtain ⟨es₁, es₂, p₁, rfl, hrun, ha⟩ := h
  exact ⟨es₁, es₂ ++ es', p₁, by rw [List.append_assoc], hrun, ha⟩

end Sound

/-- Settings for concrete runs. -/
def exampleSettings : NodeSettings where
  nodeId := "n1"
  controlPlaneUrl := "/"
  bindAddr := "10.0.0.1:1080"
  maxConnections := 2

/-- The process after the events, if it can take them. -/
def runProcess (state : AppState) (c : NodeSettings) (es : List ProcessEvent) (p : NodeProcess) : Option NodeProcess :=
  es.foldlM (fun p e => p.next state c e) p

theorem run_of_runProcess {state : AppState} {c : NodeSettings}
    {step : NodeProcess → ProcessEvent → NodeProcess → Prop} {es : List ProcessEvent}
    (hstep : ∀ e ∈ es, ∀ p p', p.next state c e = some p' → step p e p') {p p' : NodeProcess}
    (h : runProcess state c es p = some p') : Run step p es p' := by
  induction es generalizing p with
  | nil =>
    cases h
    exact .nil _
  | cons e es ih =>
    rw [List.forall_mem_cons] at hstep
    obtain ⟨p₁, hnext, hrest⟩ := Option.bind_eq_some_iff.mp h
    exact .cons (hstep.1 p p₁ hnext) (ih hstep.2 hrest)

/-- The job with index `i` performs a statement. -/
def ProcessEvent.perform (now : DateTime) (i : Nat) : ProcessEvent := .network (.plane (.perform now i))

/-- Statements that do not bring the node into service. -/
def KeepsOut (nodeId : String) : Op → Prop
  | .register req => req.nodeId ≠ nodeId
  | .setState id _ => id ≠ nodeId
  | _ => True

/-- The node is not read in service. -/
def ReadsOut (nodeId : String) : (o : Op) → Ans o → Prop
  | .get id, a => id = nodeId → ∀ n, a = .ok (some n) → n.state.live = false
  | _, _ => True

/-- What is left to be served is no registration of the node, and writes its status only after it has read it in
service. -/
def Settled (nodeId : String) (rest : ApiM (Option Response)) : Prop :=
  Prog.Respects (KeepsOut nodeId) (ReadsOut nodeId) rest

/-- Nobody else registers the node, the process does not end, and a registration that it has given up does not arrive
after all. -/
def UnaidedStep (state : AppState) (c : NodeSettings) (p : NodeProcess) (e : ProcessEvent) (p' : NodeProcess) : Prop :=
  (∀ now req, e = .network (.plane (.arrive now (.request req))) →
      ∀ r, req.registerRequest = .ok r → r.nodeId ≠ c.nodeId) ∧
    (∀ now i, e = .network (.late now i) → p.link.strays[i]? ≠ some .register) ∧ e ≠ .exit ∧
    p.next state c e = some p'

section OutOfService

variable {svc : ControlPlaneService} {nodeId : String} {s : Store} {now : DateTime}

/-- A node that is out of service is read so, and stays so. -/
theorem outOfService_exec {o : Op} (ho : KeepsOut nodeId o) (h : OutOfService nodeId s) :
    ReadsOut nodeId o (o.exec now s).1 ∧ OutOfService nodeId (o.exec now s).2 := by
  constructor
  · cases o with
    | get id =>
      rintro rfl n hget
      obtain ⟨row, hrow, hdec⟩ := Registry.get_some hget
      refine h n.state ?_
      rw [Store.statusOf, hrow, (Decodes.of_ok hdec).state]
      rfl
    | _ => trivial
  · refine h.exec (fun req hreq => ?_) (fun id st hset => ?_)
    · subst hreq
      exact ho
    · subst hset
      exact ho

theorem readsOut_fault {o : Op} {a : Ans o} (ha : o.fault = some a) : ReadsOut nodeId o a := by
  cases o with
  | get id =>
    cases ha
    rintro _ _ ⟨⟩
  | _ => trivial

/-- A heartbeat writes the status that follows from the one it has read. -/
theorem settled_heartbeat (hb : Heartbeat) :
    Prog.Respects (KeepsOut nodeId) (ReadsOut nodeId) (svc.heartbeat hb) := by
  refine ⟨trivial, fun a ha => ?_⟩
  match a with
  | .error e => trivial
  | .ok none => trivial
  | .ok (some n) =>
    change Prog.Respects _ _ (svc.heartbeatFound hb n.state n.maxConnections)
    by_cases hid : hb.nodeId = nodeId
    · have hsame : reclassifyAfterHeartbeat n.state hb.activeConnections n.maxConnections svc.policy = n.state := by
        by_contra hne
        have hlive := ha hid n rfl
        rw [live_of_reclassify_ne hne] at hlive
        cases hlive
      refine Prog.Respects.bind (Prog.respects_opExcept trivial) fun _ => ?_
      simp only [hsame, ne_eq, not_true_eq_false, if_false]
      exact .bind (Prog.respects_opExcept trivial) fun _ => trivial
    · exact respects_heartbeatFound _ _ _ _ trivial (fun _ => hid) trivial

theorem settled_request {state : AppState} {req : HttpRequest}
    (h : ∀ r, req.registerRequest = .ok r → r.nodeId ≠ nodeId) :
    Settled nodeId (ServerEvent.prog state now (.request req)) :=
  .bind (HttpRequest.respects trivial (fun _ => trivial) (fun r hr _ => respects_register (h r hr) trivial)
    (fun _ _ _ _ _ => settled_heartbeat _) fun _ _ _ => respects_drain trivial trivial) fun _ => trivial

theorem settled_sweep (state : AppState) (now : DateTime) :
    Settled nodeId (ServerEvent.prog state now .sweep) :=
  .bind (.mapError _ (respects_markStaleOffline _ trivial (fun _ => trivial) _)) fun _ => trivial

/-- What is selected is selectable. -/
theorem selectable_of_select {n : Node} (h : (svc.select.run (Op.exec now) s).1 = .ok (some n)) :
    s.Selectable n.id := by
  change ((Prog.ofExcept (Registry.list s.registry)).bind _ |>.run (Op.exec now) s).1 = _ at h
  cases hlist : Registry.list s.registry with
  | error e =>
    rw [hlist] at h
    cases h
  | ok nodes =>
    rw [hlist] at h
    have hbest := select_eq_some_iff.mp (Except.ok.inj h)
    obtain ⟨hmem, hsel⟩ := mem_eligible.mp hbest.mem
    obtain ⟨row, hrow, hdec⟩ := Registry.list_mem hlist (List.mem_of_mem_filter hmem)
    refine ⟨n.state, ?_, hsel⟩
    rw [Store.statusOf, hrow, (Decodes.of_ok hdec).state]
    rfl

section Unaided

variable {state : AppState} {c : NodeSettings} {p p' : NodeProcess} {e : ProcessEvent}

/-- The node is out of service, and nothing that is being served brings it back. -/
structure Out (nodeId : String) (x : Exchange) : Prop where
  registered : x.registrationOver = true
  settled : Respecting (KeepsOut nodeId) (ReadsOut nodeId) (OutOfService nodeId) x.plane

theorem Out.link {x x' : Exchange} {xe : ExchangeEvent} (h : Out c.nodeId x)
    (hstep : ExchangeStep state c.config c.client x xe x')
    (hlate : ∀ now i, xe = .late now i → x.strays[i]? ≠ some .register)
    (hother : ∀ now req, xe = .plane (.arrive now (.request req)) →
      ∀ r, req.registerRequest = .ok r → r.nodeId ≠ c.nodeId) : Out c.nodeId x' := by
  refine ⟨hstep.registrationOver h.registered, ?_⟩
  rcases hstep.plane_cases with hsame | ⟨l, hst, hstart⟩
  · rw [hsame]
    exact h.settled
  · refine hst.respecting (fun o s now ho hs => outOfService_exec ho hs) (fun _ _ => readsOut_fault) (fun s hs => hs)
      (fun j hj => ?_) h.settled
    rcases hstart j hj with ⟨r, hr, hevent⟩ | ⟨now, rfl⟩
    · -- what the process sends is a heartbeat by now
      rw [hevent]
      cases r with
      | register => cases Exchange.delivered_isHeartbeat h.registered hlate hr
      | heartbeat q =>
        have hbody (r : RegisterRequest) :
            ((AgentRequest.heartbeat q).http c.config c.client).registerRequest ≠ .ok r := by
          rintro ⟨⟩
        generalize (AgentRequest.heartbeat q).http c.config c.client = req at hbody ⊢
        exact settled_request fun r hr => absurd hr (hbody r)
    · cases hevent : j.event with
      | request req =>
        rw [hevent] at hother
        exact settled_request (hother now req rfl)
      | sweep => exact settled_sweep state j.began

theorem Out.step (h : Out c.nodeId p.link) (hstep : UnaidedStep state c p e p') : Out c.nodeId p'.link := by
  obtain ⟨hother, hlate, hexit, hnext⟩ := hstep
  obtain ⟨heffect, -⟩ := NodeProcess.step_cases hnext
  generalize p'.link = x at heffect ⊢
  cases heffect with
  | none => exact h
  | sent _ hstep => exact h.link hstep (fun _ _ h => by cases h) (fun _ _ h => by cases h)
  | network he _ hstep =>
    subst he
    exact h.link hstep (fun now i h => hlate now i (by rw [h])) (fun now req h => hother now req (by rw [h]))
  | hungUp he => exact absurd he hexit

/-- **Out of service until it is restarted.** Once its registration has been answered or given up, a node that has no
row, or one that is offline or draining, is not selectable, and not selected, as long as the process runs, nobody else
registers the node and no registration that was given up arrives; whatever heartbeats arrive, and however what is being
served is interleaved, unless by then a registration of the node is being served, or a heartbeat that has read it in
service. -/
theorem out_until_restart (hover : p.link.registrationOver = true)
    (hout : OutOfService c.nodeId p.link.plane.shared) (hsettled : ∀ j ∈ p.link.plane.tasks, Settled c.nodeId j.rest)
    {es : List ProcessEvent} (hrun : Run (UnaidedStep state c) p es p') :
    ¬ p'.link.plane.shared.Selectable c.nodeId ∧
      ∀ now n, (state.service.select.run (Op.exec now) p'.link.plane.shared).1 = .ok (some n) → n.id ≠ c.nodeId := by
  have hend : Out c.nodeId p'.link :=
    hrun.inv (I := fun p => Out c.nodeId p.link) (fun _ _ _ h hstep => h.step hstep) ⟨hover, hout, hsettled⟩
  refine ⟨hend.settled.1.not_selectable, fun now n hn hid => hend.settled.1.not_selectable ?_⟩
  rw [← hid]
  exact selectable_of_select hn

end Unaided

end OutOfService

/-- The registration is lost and a heartbeat is answered with success: the node is not selected. -/
theorem out_until_restart_lost : ∃ p p',
    Run (ProcessStep openPlane exampleSettings) (.start (.start ⟨.empty, []⟩)) [.register, .network .giveUp] p ∧
    Run (UnaidedStep openPlane exampleSettings) p
      [.tick, .network (.arrive (.ofSecond 5)), .perform (.ofSecond 5) 0, .network .receive] p' ∧
    p'.link.metrics.heartbeats = 1 ∧ ¬ p'.link.plane.shared.Selectable "n1" := by
  have hstart : ∃ p, runProcess openPlane exampleSettings [.register, .network .giveUp]
      (.start (.start ⟨.empty, []⟩)) = some p ∧ p.link.registrationOver = true ∧ p.link.plane = ⟨.empty, []⟩ :=
    ⟨_, rfl, rfl, rfl⟩
  obtain ⟨p, hp, hover, hplane⟩ := hstart
  have hend : ((runProcess openPlane exampleSettings [.register, .network .giveUp]
      (.start (.start ⟨.empty, []⟩))).bind fun p => (runProcess openPlane exampleSettings
        [.tick, .network (.arrive (.ofSecond 5)), .perform (.ofSecond 5) 0, .network .receive] p).map
          fun p' => p'.link.metrics.heartbeats) = some 1 := by
    decide +kernel
  rw [hp] at hend
  obtain ⟨p', hp', hcounted⟩ := Option.map_eq_some_iff.mp hend
  have hrun : Run (UnaidedStep openPlane exampleSettings) p
      [.tick, .network (.arrive (.ofSecond 5)), .perform (.ofSecond 5) 0, .network .receive] p' := by
    refine run_of_runProcess (fun e he p p' hnext => ⟨?_, ?_, ?_, hnext⟩) hp'
    · rintro now req rfl
      simp [ProcessEvent.perform] at he
    · rintro now i rfl
      simp [ProcessEvent.perform] at he
    · rintro rfl
      simp [ProcessEvent.perform] at he
  refine ⟨p, p', run_of_runProcess (fun e he p p' hnext => ⟨?_, hnext⟩) hp, hrun, hcounted,
    (out_until_restart hover ?_ ?_ hrun).1⟩
  · rw [hplane]
    intro state hstate
    cases hstate
  · rw [hplane]
    intro j hj
    cases hj
  · rintro now e' rfl
    simp at he

end RustProxy.Agent
