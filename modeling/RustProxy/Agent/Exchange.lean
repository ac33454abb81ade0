import RustProxy.Agent.Agreement
import RustProxy.ControlPlane.Serving

/-!
# Agent and control plane, statement by statement

The agent and the network of `Agent.Agreement`, over the control plane as it runs (`ControlPlane.Serving`): a request
that arrives is a job whose statements are mixed with those of other requests and of sweeps and may fail, the control
plane may be restarted under it, and the agent may give it up at any point without stopping the job.

What a step does to the control plane is one of its own steps, and a job that begins serves a request that the agent has
sent or one that somebody else has (`ExchangeStep.plane_cases`). `Agent.Agreement` is the part of this in which each job
runs without interruption (`exchange_of_link`).
-/

namespace RustProxy.Agent

open Lib ControlPlane

/-! ## The control plane -/

inductive PlaneEvent
  /-- Somebody else's request arrives, or the background task begins a sweep. -/
  | arrive (now : DateTime) (e : ServerEvent)
  /-- The job with this index performs its next statement. -/
  | perform (now : DateTime) (i : Nat)
  /-- The next statement of the job fails. -/
  | fault (i : Nat)
  | restart

section Plane

variable (state : AppState)

def accept (now : DateTime) (e : ServerEvent) (p : Pool Store Job) : Pool Store Job :=
  ⟨p.shared, p.tasks ++ [⟨e, now, e.prog state now⟩]⟩

def PlaneEvent.run (p : Pool Store Job) : PlaneEvent → Option (Pool Store Job)
  | .arrive now e => some (accept state now e p)
  | .perform now i =>
    match p.tasks[i]? with
    | some ⟨e, began, .op o k⟩ =>
      some ⟨(o.exec now p.shared).2, p.tasks.set i ⟨e, began, k (o.exec now p.shared).1⟩⟩
    | _ => none
  | .fault i =>
    match p.tasks[i]? with
    | some ⟨e, began, .op o k⟩ => o.fault.map fun a => ⟨p.shared, p.tasks.set i ⟨e, began, k a⟩⟩
    | _ => none
  | .restart => some ⟨⟨p.shared.registry, fun _ => none⟩, []⟩

variable {state} {p p' : Pool Store Job} {e : PlaneEvent}

theorem servingStep_accept (now : DateTime) (e : ServerEvent) :
    ServingStep state p (.step (.start ⟨e, now, e.prog state now⟩)) (accept state now e p) :=
  .step (.start rfl)

/-- **The events are steps of the control plane.** -/
theorem PlaneEvent.servingStep (h : e.run state p = some p') :
    ∃ l, ServingStep state p l p' ∧ ∀ j, l = .step (.start j) → ∃ now, e = .arrive now j.event := by
  cases e with
  | arrive now e =>
    cases h
    refine ⟨_, servingStep_accept now e, ?_⟩
    rintro j ⟨⟩
    exact ⟨now, rfl⟩
  | perform now i =>
    simp only [PlaneEvent.run] at h
    split at h
    · next hi =>
      cases h
      exact ⟨_, .step (.act hi (.perform now rfl)), by simp⟩
    · cases h
  | fault i =>
    simp only [PlaneEvent.run] at h
    split at h
    · next hi =>
      obtain ⟨a, ha, rfl⟩ := Option.map_eq_some_iff.mp h
      exact ⟨_, .step (.act hi (.fault rfl ha)), by simp⟩
    · cases h
  | restart =>
    cases h
    exact ⟨_, .restart, by simp⟩

end Plane

/-! ## The exchange -/

/-- Where a request is that the agent waits for. -/
inductive Transit
  /-- It has not arrived. -/
  | sent
  /-- It is served by the job with this index. -/
  | served (i : Nat)
  /-- The control plane was restarted under it. -/
  | lost
  deriving DecidableEq

def Transit.after : PlaneEvent → Transit → Transit
  | .restart, .served _ => .lost
  | _, t => t

structure Waiting where
  request : AgentRequest
  transit : Transit

structure Exchange where
  plane : Pool Store Job
  /-- The registration has been sent. -/
  started : Bool
  metrics : NodeMetrics
  awaited : Option Waiting
  /-- Requests that the agent has given up and that have not arrived. -/
  strays : List AgentRequest

def Exchange.start (plane : Pool Store Job) : Exchange := ⟨plane, false, .new, none, []⟩

inductive ExchangeEvent
  /-- The agent sends a request. -/
  | send (r : AgentRequest)
  /-- The request that the agent waits for arrives. -/
  | arrive (now : DateTime)
  /-- The agent receives the answer. -/
  | receive
  /-- The agent gives up: the request or its answer is lost, or too late. -/
  | giveUp
  /-- A request that the agent has given up arrives after all. -/
  | late (now : DateTime) (i : Nat)
  | plane (e : PlaneEvent)

section Exchange

variable (state : AppState) (cfg : NodeConfig) (client : ControlPlaneClient)

/-- One step. The registration is the first request and the only one of its kind; each answer is awaited before the next
request. -/
def Exchange.next (x : Exchange) : ExchangeEvent → Option Exchange
  | .send r =>
    if x.awaited.isNone ∧ r.isHeartbeat = x.started then
      some { x with started := true, awaited := some ⟨r, .sent⟩ }
    else none
  | .arrive now =>
    match x.awaited with
    | some ⟨r, .sent⟩ =>
      some { x with
        plane := accept state now (.request (r.http cfg client)) x.plane
        awaited := some ⟨r, .served x.plane.tasks.length⟩ }
    | _ => none
  | .receive =>
    match x.awaited with
    | some ⟨r, .served i⟩ =>
      (x.plane.tasks[i]?.bind Job.answer?).map fun response =>
        { x with awaited := none, metrics := x.metrics.recordAnswer r response.status.isSuccess }
    | _ => none
  | .giveUp =>
    match x.awaited with
    | some ⟨r, t⟩ =>
      some { x with
        awaited := none
        strays := if t = .sent then r :: x.strays else x.strays
        metrics := x.metrics.recordAnswer r false }
    | none => none
  | .late now i =>
    match x.strays[i]? with
    | some r =>
      some { x with
        plane := accept state now (.request (r.http cfg client)) x.plane
        strays := x.strays.eraseIdx i }
    | none => none
  | .plane e =>
    (e.run state x.plane).map fun p =>
      { x with plane := p, awaited := x.awaited.map fun w => { w with transit := w.transit.after e } }

end Exchange

/-- The registration has been answered, or given up. -/
def Exchange.registrationOver (x : Exchange) : Bool := x.started && x.awaited.all fun w => w.request.isHeartbeat

/-- Requests that have been sent and may still arrive. -/
def Exchange.unserved (x : Exchange) : List AgentRequest :=
  match x.awaited with
  | some ⟨r, .sent⟩ => r :: x.strays
  | _ => x.strays

/-- What the end of the agent leaves: what it has sent may arrive, and what has arrived is served. -/
def Exchange.hangUp (x : Exchange) : Exchange := ⟨x.plane, false, .new, none, x.unserved⟩

/-- The request that an event delivers. -/
def Exchange.delivered (x : Exchange) : ExchangeEvent → Option AgentRequest
  | .arrive _ =>
    match x.awaited with
    | some ⟨r, .sent⟩ => some r
    | _ => none
  | .late _ i => x.strays[i]?
  | _ => none

/-! ## What a step can do -/

section Steps

variable {state : AppState} {cfg : NodeConfig} {client : ControlPlaneClient} {x x' : Exchange} {e : ExchangeEvent}

/-- What each step does, and when it can be taken. -/
inductive ExchangeStep (state : AppState) (cfg : NodeConfig) (client : ControlPlaneClient) :
    Exchange → ExchangeEvent → Exchange → Prop
  | send {x : Exchange} {r : AgentRequest} : x.awaited = none → r.isHeartbeat = x.started →
      ExchangeStep state cfg client x (.send r) { x with started := true, awaited := some ⟨r, .sent⟩ }
  | arrive {x : Exchange} {r : AgentRequest} {now : DateTime} : x.awaited = some ⟨r, .sent⟩ →
      ExchangeStep state cfg client x (.arrive now) { x with
        plane := accept state now (.request (r.http cfg client)) x.plane
        awaited := some ⟨r, .served x.plane.tasks.length⟩ }
  | receive {x : Exchange} {r : AgentRequest} {i : Nat} {response : Response} : x.awaited = some ⟨r, .served i⟩ →
      x.plane.tasks[i]?.bind Job.answer? = some response → ExchangeStep state cfg client x .receive
        { x with awaited := none, metrics := x.metrics.recordAnswer r response.status.isSuccess }
  | giveUp {x : Exchange} {r : AgentRequest} {t : Transit} : x.awaited = some ⟨r, t⟩ →
      ExchangeStep state cfg client x .giveUp { x with
        awaited := none
        strays := if t = .sent then r :: x.strays else x.strays
        metrics := x.metrics.recordAnswer r false }
  | late {x : Exchange} {r : AgentRequest} {now : DateTime} {i : Nat} : x.strays[i]? = some r →
      ExchangeStep state cfg client x (.late now i) { x with
        plane := accept state now (.request (r.http cfg client)) x.plane
        strays := x.strays.eraseIdx i }
  | plane {x : Exchange} {e : PlaneEvent} {p : Pool Store Job} : e.run state x.plane = some p →
      ExchangeStep state cfg client x (.plane e)
        { x with plane := p, awaited := x.awaited.map fun w => { w with transit := w.transit.after e } }

theorem ExchangeStep.of_next (h : x.next state cfg client e = some x') : ExchangeStep state cfg client x e x' := by
  cases e with
  | send r =>
    simp only [Exchange.next, Option.ite_none_right_eq_some, Option.some.injEq, Option.isNone_iff_eq_none] at h
    obtain ⟨⟨hidle, hkind⟩, rfl⟩ := h
    exact .send hidle hkind
  | arrive now =>
    simp only [Exchange.next] at h
    split at h
    · next hawaited =>
      cases h
      exact .arrive hawaited
    · cases h
  | receive =>
    simp only [Exchange.next] at h
    split at h
    · next hawaited =>
      obtain ⟨response, hresponse, rfl⟩ := Option.map_eq_some_iff.mp h
      exact .receive hawaited hresponse
    · cases h
  | giveUp =>
    simp only [Exchange.next] at h
    split at h
    · next hawaited =>
      cases h
      exact .giveUp hawaited
    · cases h
  | late now i =>
    simp only [Exchange.next] at h
    split at h
    · next hr =>
      cases h
      exact .late hr
    · cases h
  | plane e =>
    obtain ⟨p, hp, rfl⟩ := Option.map_eq_some_iff.mp h
    exact .plane hp

/-- **A step of the exchange is none of the control plane or one of its own**, and what begins is a request that is
delivered or somebody else's. -/
theorem ExchangeStep.plane_cases (h : ExchangeStep state cfg client x e x') :
    x'.plane = x.plane ∨ ∃ l, ServingStep state x.plane l x'.plane ∧ ∀ j, l = .step (.start j) →
      (∃ r, x.delivered e = some r ∧ j.event = .request (r.http cfg client)) ∨
        ∃ now, e = .plane (.arrive now j.event) := by
  cases h with
  | send _ _ => exact .inl rfl
  | receive _ _ => exact .inl rfl
  | giveUp _ => exact .inl rfl
  | arrive hawaited =>
    refine .inr ⟨_, servingStep_accept _ _, ?_⟩
    rintro j ⟨⟩
    exact .inl ⟨_, by simp only [Exchange.delivered, hawaited], rfl⟩
  | late hr =>
    refine .inr ⟨_, servingStep_accept _ _, ?_⟩
    rintro j ⟨⟩
    exact .inl ⟨_, hr, rfl⟩
  | plane hp =>
    obtain ⟨l, hst, hstart⟩ := PlaneEvent.servingStep hp
    refine .inr ⟨l, hst, fun j hj => .inr ?_⟩
    obtain ⟨now, rfl⟩ := hstart j hj
    exact ⟨now, rfl⟩

theorem Exchange.mem_unserved {r : AgentRequest} : r ∈ x.unserved ↔ x.awaited = some ⟨r, .sent⟩ ∨ r ∈ x.strays := by
  unfold Exchange.unserved
  split
  · next r' hawaited =>
    rw [hawaited, List.mem_cons, Option.some.injEq, Waiting.mk.injEq, eq_comm]
    simp
  · next hother =>
    constructor
    · exact .inr
    · rintro (hawaited | hr)
      · exact absurd hawaited (hother r)
      · exact hr

/-- What may still arrive was on its way before, or has just been sent. -/
theorem ExchangeStep.unserved (h : ExchangeStep state cfg client x e x') {r : AgentRequest} (hr : r ∈ x'.unserved) :
    r ∈ x.unserved ∨ e = .send r := by
  simp only [Exchange.mem_unserved] at hr ⊢
  cases h with
  | send _ _ =>
    rcases hr with hr | hr
    · cases hr
      exact .inr rfl
    · exact .inl (.inr hr)
  | arrive _ =>
    rcases hr with hr | hr
    · cases hr
    · exact .inl (.inr hr)
  | receive _ _ =>
    rcases hr with hr | hr
    · cases hr
    · exact .inl (.inr hr)
  | @giveUp r' t hawaited =>
    rcases hr with hr | hr
    · cases hr
    · dsimp only at hr
      split at hr
      · next ht =>
        rcases List.mem_cons.mp hr with rfl | hr
        · exact .inl (.inl (ht ▸ hawaited))
        · exact .inl (.inr hr)
      · exact .inl (.inr hr)
  | late _ => exact .inl (hr.imp_right List.mem_of_mem_eraseIdx)
  | @plane e p hp =>
    rcases hr with hr | hr
    · -- a restart loses nothing that has not arrived
      obtain ⟨⟨r', t⟩, hawaited, hw⟩ := Option.map_eq_some_iff.mp hr
      have hsent : t = .sent := by
        cases t with
        | sent => rfl
        | served i => cases e <;> cases hw
        | lost => cases e <;> cases hw
      subst hsent
      have hr' : r' = r := congrArg Waiting.request hw
      exact .inl (.inl (hr' ▸ hawaited))
    · exact .inl (.inr hr)

/-- Only what has been sent is delivered. -/
theorem Exchange.delivered_mem {r : AgentRequest} (h : x.delivered e = some r) : r ∈ x.unserved := by
  rw [Exchange.mem_unserved]
  cases e with
  | arrive now =>
    simp only [Exchange.delivered] at h
    split at h
    · next hawaited =>
      cases h
      exact .inl hawaited
    · cases h
  | late now i => exact .inr (List.mem_of_getElem? h)
  | _ => cases h

/-- The registration is sent once. -/
theorem ExchangeStep.registrationOver (h : ExchangeStep state cfg client x e x') (hx : x.registrationOver = true) :
    x'.registrationOver = true := by
  simp only [Exchange.registrationOver, Bool.and_eq_true] at hx ⊢
  obtain ⟨hstarted, hawaited⟩ := hx
  cases h with
  | send _ hkind => exact ⟨rfl, by simp [hkind, hstarted]⟩
  | arrive hr =>
    rw [hr] at hawaited
    exact ⟨hstarted, hawaited⟩
  | receive _ _ => exact ⟨hstarted, rfl⟩
  | giveUp _ => exact ⟨hstarted, rfl⟩
  | late _ => exact ⟨hstarted, hawaited⟩
  | plane _ =>
    refine ⟨hstarted, ?_⟩
    cases hw : x.awaited with
    | none => rfl
    | some w =>
      rw [hw] at hawaited
      exact hawaited

/-- Once the registration is over, what is delivered is a heartbeat, or a registration that was given up. -/
theorem Exchange.delivered_isHeartbeat (hover : x.registrationOver = true)
    (hlate : ∀ now i, e = .late now i → x.strays[i]? ≠ some .register) {r : AgentRequest}
    (h : x.delivered e = some r) : r.isHeartbeat = true := by
  cases e with
  | arrive now =>
    simp only [Exchange.delivered] at h
    split at h
    · next hawaited =>
      cases h
      simp only [Exchange.registrationOver, hawaited, Bool.and_eq_true] at hover
      exact hover.2
    · cases h
  | late now i =>
    cases r with
    | register => exact absurd h (hlate now i rfl)
    | heartbeat q => rfl
  | _ => cases h

end Steps

/-! ## Requests that are served without interruption -/

section Link

variable (state : AppState) (cfg : NodeConfig) (client : ControlPlaneClient)

def PlaneMove (p : Pool Store Job) (e : PlaneEvent) (p' : Pool Store Job) : Prop := e.run state p = some p'

def ExchangeMove (x : Exchange) (e : ExchangeEvent) (x' : Exchange) : Prop := x.next state cfg client e = some x'

def LinkMove (l : Link) (e : LinkEvent) (l' : Link) : Prop := l.next state cfg client e = some l'

/-- The same request is awaited, and the same answer is on its way. -/
inductive MatchesAwaited (tasks : List Job) : Option Pending → Option Waiting → Prop
  | none : MatchesAwaited tasks none none
  | sent {r : AgentRequest} : MatchesAwaited tasks (some ⟨r, .none⟩) (some ⟨r, .sent⟩)
  | served {r : AgentRequest} {served : Served} {i : Nat} : tasks[i]?.bind Job.answer? = some served.response →
      MatchesAwaited tasks (some ⟨r, some served⟩) (some ⟨r, .served i⟩)

structure Matches (l : Link) (x : Exchange) : Prop where
  store : x.plane.shared = l.store
  started : x.started = l.started
  metrics : x.metrics = l.metrics
  awaited : MatchesAwaited x.plane.tasks l.awaited x.awaited
  strays : x.strays = l.strays

variable {state cfg client} {l l' : Link} {x : Exchange} {p p' : Pool Store Job}

/-- A job that performs all that is left of it. -/
theorem run_job (state : AppState) (now : DateTime) {i : Nat} {e : ServerEvent} {began : DateTime}
    {rest : ApiM (Option Response)} (hi : p.tasks[i]? = some ⟨e, began, rest⟩) :
    ∃ es, (∀ pe ∈ es, pe ≠ .restart) ∧ Run (PlaneMove state) p es ⟨(rest.run (Op.exec now) p.shared).2,
      p.tasks.set i ⟨e, began, .ofExcept (rest.run (Op.exec now) p.shared).1⟩⟩ := by
  obtain ⟨s, tasks⟩ := p
  induction rest generalizing s tasks with
  | ret a =>
    obtain ⟨hlt, heq⟩ := List.getElem?_eq_some_iff.mp hi
    refine ⟨[], by simp, ?_⟩
    simp only [Prog.run_ret, Prog.ofExcept_ok, ← heq, List.set_getElem_self]
    exact .nil _
  | fail err =>
    obtain ⟨hlt, heq⟩ := List.getElem?_eq_some_iff.mp hi
    refine ⟨[], by simp, ?_⟩
    simp only [Prog.run_fail, Prog.ofExcept_error, ← heq, List.set_getElem_self]
    exact .nil _
  | op o k ih =>
    have hlt : i < tasks.length := (List.getElem?_eq_some_iff.mp hi).1
    obtain ⟨es, hes, hrun⟩ := ih (o.exec now s).1 (o.exec now s).2 (tasks.set i ⟨e, began, k (o.exec now s).1⟩)
      (List.getElem?_set_self hlt)
    rw [List.set_set] at hrun
    refine ⟨.perform now i :: es, by simpa using hes, .cons ?_ hrun⟩
    simp only [PlaneMove, PlaneEvent.run, show tasks[i]? = _ from hi]

/-- What the control plane does without a restart leaves the agent as it is. -/
theorem run_plane {es : List PlaneEvent} (hes : ∀ pe ∈ es, pe ≠ .restart) (h : Run (PlaneMove state) x.plane es p) :
    Run (ExchangeMove state cfg client) x (es.map .plane) { x with plane := p } := by
  generalize hp : x.plane = p₀ at h
  induction h generalizing x with
  | nil p =>
    subst hp
    exact .nil x
  | @cons p p₁ p' pe es hst _ ih =>
    subst hp
    rw [List.forall_mem_cons] at hes
    have hkept : (x.awaited.map fun w => { w with transit := w.transit.after pe }) = x.awaited := by
      have hafter (t : Transit) : t.after pe = t := by
        cases pe with
        | restart => exact absurd rfl hes.1
        | _ => rfl
      simp only [hafter, Option.map_id']
    refine .cons ?_ (ih (x := { x with plane := p₁ }) hes.2 rfl)
    simp only [ExchangeMove, Exchange.next, show pe.run state x.plane = some p₁ from hst, Option.map_some, hkept]

/-- Something that arrives and is served at once. -/
theorem run_accepted (state : AppState) (now : DateTime) (e : ServerEvent) (p : Pool Store Job) :
    ∃ es, (∀ pe ∈ es, pe ≠ .restart) ∧ Run (PlaneMove state) (accept state now e p) es
      ⟨((e.prog state now).run (Op.exec now) p.shared).2,
        p.tasks ++ [⟨e, now, .ofExcept ((e.prog state now).run (Op.exec now) p.shared).1⟩]⟩ := by
  have hi : (accept state now e p).tasks[p.tasks.length]? = some ⟨e, now, e.prog state now⟩ := by simp [accept]
  obtain ⟨es, hes, hrun⟩ := run_job state now hi
  refine ⟨es, hes, ?_⟩
  simpa [accept] using hrun

/-- The store and the answer are those of the request served alone. -/
theorem run_request (state : AppState) (now : DateTime) (req : HttpRequest) (s : Store) :
    ((ServerEvent.prog state now (.request req)).run (Op.exec now) s).2 = (req.run state now s).2 ∧
      Job.answer? ⟨.request req, now,
        .ofExcept ((ServerEvent.prog state now (.request req)).run (Op.exec now) s).1⟩ =
          some (req.run state now s).1 := by
  rw [ServerEvent.prog, Prog.run_bind_ret]
  refine ⟨rfl, ?_⟩
  cases hresult : ((req.prog state).run (Op.exec now) s).1 with
  | ok response => simp [HttpRequest.run, Job.answer?, hresult, Except.map, Prog.ofExcept]
  | error e => simp [HttpRequest.run, Job.answer?, hresult, Except.map, Prog.ofExcept]

theorem run_sweep (state : AppState) (now : DateTime) (s : Store) :
    ((ServerEvent.prog state now .sweep).run (Op.exec now) s).2 =
      (Call.run state.service now .markStaleOffline s).2 := by
  have hcall : (Call.run state.service now .markStaleOffline s).2 =
      ((state.service.markStaleOffline now).run (Op.exec now) s).2 :=
    congrArg Prod.snd (Prog.run_bind_ret (h := Op.exec now) (state.service.markStaleOffline now) Outcome.marked s)
  rw [hcall, ServerEvent.prog, Prog.run_bind_ret, internalError, Prog.run_mapError]

theorem MatchesAwaited.append {tasks : List Job} {pending : Option Pending} {waiting : Option Waiting}
    (h : MatchesAwaited tasks pending waiting) (j : Job) : MatchesAwaited (tasks ++ [j]) pending waiting := by
  cases h with
  | none => exact .none
  | sent => exact .sent
  | @served r served i hanswer =>
    refine .served ?_
    obtain ⟨j', hj', -⟩ := Option.bind_eq_some_iff.mp hanswer
    rw [List.getElem?_append_left (List.getElem?_eq_some_iff.mp hj').1]
    exact hanswer

/-- What a step of the exchange does at once to the control plane is finished without interruption. -/
theorem Matches.served {x' : Exchange} {now : DateTime} {ev : ServerEvent} {e : ExchangeEvent}
    (hstep : ExchangeMove state cfg client x e x') (hplane : x'.plane = accept state now ev p)
    (hl : l'.store = ((ev.prog state now).run (Op.exec now) p.shared).2)
    (hrest : ∀ plane : Pool Store Job, plane.shared = l'.store →
      plane.tasks = p.tasks ++ [⟨ev, now, .ofExcept ((ev.prog state now).run (Op.exec now) p.shared).1⟩] →
      Matches l' { x' with plane := plane }) :
    ∃ es x'', Run (ExchangeMove state cfg client) x es x'' ∧ Matches l' x'' := by
  obtain ⟨es, hes, hrun⟩ := run_accepted state now ev p
  rw [← hplane] at hrun
  exact ⟨_, _, .cons hstep (run_plane hes hrun), hrest _ hl.symm rfl⟩

theorem Matches.step {e : LinkEvent} (h : Matches l x) (hstep : LinkMove state cfg client l e l')
    (he : ∀ now call, e = .other now call → call = .markStaleOffline) :
    ∃ es x', Run (ExchangeMove state cfg client) x es x' ∧ Matches l' x' := by
  obtain ⟨_, _, _, awaited, _⟩ := l
  obtain ⟨plane, started, metrics, waiting, strays⟩ := x
  obtain ⟨hstore, hstarted, hmetrics, hawaited, hstrays⟩ := h
  dsimp only at hstore hstarted hmetrics hawaited hstrays
  subst hstore hstarted hmetrics hstrays
  cases e with
  | send r =>
    simp only [LinkMove, Link.next, Option.ite_none_right_eq_some, Option.some.injEq] at hstep
    obtain ⟨⟨hidle, hkind⟩, rfl⟩ := hstep
    cases hawaited with
    | none =>
      have hmove : ExchangeMove state cfg client ⟨plane, started, metrics, none, strays⟩ (.send r)
          ⟨plane, true, metrics, some ⟨r, .sent⟩, strays⟩ := if_pos ⟨rfl, hkind⟩
      exact ⟨_, _, .cons hmove (.nil _), rfl, rfl, rfl, .sent, rfl⟩
    | sent => cases hidle
    | served _ => cases hidle
  | serve now =>
    cases hawaited with
    | none => cases hstep
    | served _ => cases hstep
    | @sent r =>
      cases hstep
      obtain ⟨hstore, hanswer⟩ := run_request state now (r.http cfg client) plane.shared
      refine Matches.served (e := .arrive now) rfl rfl hstore.symm fun plane' hshared htasks => ?_
      refine ⟨hshared, rfl, rfl, .served ?_, rfl⟩
      dsimp only
      rw [htasks, List.getElem?_append_right le_rfl, Nat.sub_self]
      exact hanswer
  | receive =>
    cases hawaited with
    | none => cases hstep
    | sent => cases hstep
    | @served r served i hanswer =>
      cases hstep
      have hmove : ExchangeMove state cfg client ⟨plane, started, metrics, some ⟨r, .served i⟩, strays⟩ .receive
          ⟨plane, started, metrics.recordAnswer r served.response.status.isSuccess, none, strays⟩ := by
        simp only [ExchangeMove, Exchange.next, hanswer, Option.map_some]
      exact ⟨_, _, .cons hmove (.nil _), rfl, rfl, rfl, .none, rfl⟩
  | giveUp =>
    cases hawaited with
    | none => cases hstep
    | sent =>
      cases hstep
      exact ⟨[.giveUp], _, .cons rfl (.nil _), rfl, rfl, rfl, .none, rfl⟩
    | served _ =>
      cases hstep
      exact ⟨[.giveUp], _, .cons rfl (.nil _), rfl, rfl, rfl, .none, rfl⟩
  | late now i =>
    simp only [LinkMove, Link.next] at hstep
    split at hstep
    · next r hr =>
      cases hstep
      obtain ⟨hstore, -⟩ := run_request state now (r.http cfg client) plane.shared
      have hmove : ExchangeMove state cfg client ⟨plane, started, metrics, waiting, strays⟩ (.late now i)
          ⟨accept state now (.request (r.http cfg client)) plane, started, metrics, waiting, strays.eraseIdx i⟩ := by
        simp only [ExchangeMove, Exchange.next, hr]
      refine Matches.served hmove rfl hstore.symm fun plane' hshared htasks => ⟨hshared, rfl, rfl, ?_, rfl⟩
      dsimp only
      rw [htasks]
      exact hawaited.append _
    · cases hstep
  | other now call =>
    cases hstep
    obtain rfl := he now call rfl
    refine Matches.served (e := .plane (.arrive now .sweep)) rfl rfl (run_sweep state now plane.shared).symm
      fun plane' hshared htasks => ⟨hshared, rfl, rfl, ?_, rfl⟩
    dsimp only
    rw [htasks]
    have hkept : (waiting.map fun w => { w with transit := w.transit }) = waiting := Option.map_id'
    exact hkept.symm ▸ hawaited.append _

/-- **Serving in one step.** A run of the link in which others only sweep is one of the exchange, in which each request
is served without interruption. -/
theorem exchange_of_link {es : List LinkEvent} (hes : ∀ now call, .other now call ∈ es → call = .markStaleOffline)
    (hrun : Run (LinkMove state cfg client) l es l') (h : Matches l x) :
    ∃ es' x', Run (ExchangeMove state cfg client) x es' x' ∧ Matches l' x' := by
  induction hrun generalizing x with
  | nil l => exact ⟨[], x, .nil x, h⟩
  | cons hstep _ ih =>
    obtain ⟨es₁, x₁, hrun₁, h₁⟩ := h.step hstep fun now call he => hes now call (by simp [he])
    obtain ⟨es₂, x₂, hrun₂, h₂⟩ := ih (fun now call hmem => hes now call (List.mem_cons_of_mem _ hmem)) h₁
    exact ⟨_, x₂, hrun₁.append hrun₂, h₂⟩

end Link

end RustProxy.Agent
