import RustProxy.Lib.Interleave
import RustProxy.Chain.Deadlines

/-!
# The gateway as a server

The accept loop of `Gateway::run` (`gateway/src/gateway.rs`), the tasks that it spawns, each with a session of
`handle_connection`, the metrics that they record, the requests for them and the shutdown signal, interleaved step by
step. A session is the handler's program, and its operations may be answered in any way.

The recorder of the metrics is installed when they are asked for the first time (`metrics.rs`), and what is recorded
before that is lost. So the metrics show the difference to that moment: the gauge of the active connections is their
number only if there were none then, and falls below zero when those that there were have ended
(`active_connections_shown`).

Unlike the node, which counts the connections that are being handled, the gateway waits for its tasks by the strong
count of the semaphore, which each of them holds from the moment it is spawned. So the drain is exact: a drain loop that
ends before its deadline leaves nothing behind (`drained_settled`). And whatever the clients do it can end so, as long
as there is a permit at all: the tasks that are left take a bounded number of steps, and are never stuck
(`shutdown_completes`).
-/

namespace RustProxy.Gateway

open Lib Protocol Proxy Chain

/-! ## The tasks -/

/-- How a session of `run_with_ctx` ended. -/
abbrev Outcome := Except GatewayError (UInt64 × UInt64)

/-- Where the task of a client is. The outcome of its session is kept for the record. -/
inductive ClientPc
  /-- In `sem.acquire()`. -/
  | waiting
  | admitted
  /-- The signal was not set when it was checked. -/
  | cleared
  | counted
  /-- Inside `run_with_ctx`, with this left to do. -/
  | handling (rest : Handler (UInt64 × UInt64))
  /-- The bytes of the relay are counted one way. -/
  | upCounted (up down : UInt64)
  | ended (outcome : Outcome)
  | closed (outcome : Outcome)
  /-- The signal was set when it was checked. -/
  | refused
  /-- The permit is back. -/
  | released (outcome : Option Outcome)
  /-- The reference to the semaphore is dropped. -/
  | finished (outcome : Option Outcome)

inductive ClientAct
  | acquire
  | check
  | count
  | enter
  /-- The next operation of the session is answered. -/
  | serve (answer : (o : SessionOp Control) → o.Ans Control.Ans)
  | countUp
  | countDown
  | countError
  | close
  | release
  | drop

/-- What the process exports of connections; what has not been recorded yet is zero here. The gauge is a floating-point
number, exact for any number of connections that there can be. -/
@[ext]
structure GatewayMetrics where
  connectionsTotal : UInt64
  activeConnections : Int
  connectionErrorsTotal : UInt64
  bytesUpTotal : UInt64
  bytesDownTotal : UInt64

namespace GatewayMetrics

instance : Add GatewayMetrics :=
  ⟨fun a b => ⟨a.connectionsTotal + b.connectionsTotal, a.activeConnections + b.activeConnections,
    a.connectionErrorsTotal + b.connectionErrorsTotal, a.bytesUpTotal + b.bytesUpTotal,
    a.bytesDownTotal + b.bytesDownTotal⟩⟩

theorem add_eq (a b : GatewayMetrics) : a + b =
    ⟨a.connectionsTotal + b.connectionsTotal, a.activeConnections + b.activeConnections,
      a.connectionErrorsTotal + b.connectionErrorsTotal, a.bytesUpTotal + b.bytesUpTotal,
      a.bytesDownTotal + b.bytesDownTotal⟩ :=
  rfl

end GatewayMetrics

/-- What the tasks share. -/
@[ext]
structure Shared where
  /-- The permits that are left. -/
  permits : Nat
  /-- The references to the semaphore. -/
  strongCount : Nat
  /-- The metrics, once there is a recorder for them. -/
  metrics : Option GatewayMetrics

namespace Shared

/-- Without a recorder a recording has no effect. -/
def record (sh : Shared) (f : GatewayMetrics → GatewayMetrics) : Shared := { sh with metrics := sh.metrics.map f }

def addConnection (sh : Shared) : Shared :=
  sh.record fun m => { m with connectionsTotal := m.connectionsTotal + 1 }

def addActive (sh : Shared) (n : Int) : Shared :=
  sh.record fun m => { m with activeConnections := m.activeConnections + n }

def addError (sh : Shared) : Shared :=
  sh.record fun m => { m with connectionErrorsTotal := m.connectionErrorsTotal + 1 }

def addUp (sh : Shared) (n : UInt64) : Shared :=
  sh.record fun m => { m with bytesUpTotal := m.bytesUpTotal + n }

def addDown (sh : Shared) (n : UInt64) : Shared :=
  sh.record fun m => { m with bytesDownTotal := m.bytesDownTotal + n }

/-- `metrics::init`, which installs the recorder when it is called first. -/
def init (sh : Shared) : Shared := { sh with metrics := some (sh.metrics.getD ⟨0, 0, 0, 0, 0⟩) }

end Shared

/-- One step of a task. The semaphore is never closed, so `acquire` does not fail. -/
def ClientPc.next (auth : Option (String × String)) (cancelled : Bool) (sh : Shared) :
    ClientPc → ClientAct → Option (Shared × ClientPc)
  | .waiting, .acquire => if sh.permits = 0 then none else some ({ sh with permits := sh.permits - 1 }, .admitted)
  | .admitted, .check => some (sh, if cancelled then .refused else .cleared)
  | .cleared, .count => some (sh.addConnection, .counted)
  | .counted, .enter => some (sh.addActive 1, .handling (runWithCtx auth))
  | .handling (.op o k), .serve answer => some (sh, .handling (k (answer o)))
  | .handling (.ret (up, down)), .countUp => some (sh.addUp up, .upCounted up down)
  | .upCounted up down, .countDown => some (sh.addDown down, .ended (.ok (up, down)))
  | .handling (.fail e), .countError => some (sh.addError, .ended (.error e))
  | .ended r, .close => some (sh.addActive (-1), .closed r)
  | .closed r, .release => some ({ sh with permits := sh.permits + 1 }, .released (some r))
  | .refused, .release => some ({ sh with permits := sh.permits + 1 }, .released none)
  | .released r, .drop => some ({ sh with strongCount := sh.strongCount - 1 }, .finished r)
  | _, _ => none

/-! ## The server -/

/-- Where `Gateway::run` is. -/
inductive LoopPhase
  | accepting
  | draining
  /-- The drain loop has found no reference to the semaphore but its own. -/
  | drained
  /-- The drain loop has met its deadline. -/
  | expired
  deriving DecidableEq

structure GatewayServer where
  phase : LoopPhase
  cancelled : Bool
  /-- There is a listener for requests for the metrics. -/
  metricsServer : Bool
  shared : Shared
  tasks : List ClientPc

inductive ServerEvent
  /-- A client is accepted and its task spawned, with a reference to the semaphore. -/
  | accept
  | cancel
  /-- The accept loop takes the branch of the signal. -/
  | observe
  /-- One turn of the drain loop, before the deadline or after it. -/
  | drainCheck (late : Bool)
  /-- `GET /metrics`. -/
  | scrape
  | client (i : Nat) (a : ClientAct)

def GatewayServer.step (auth : Option (String × String)) (s : GatewayServer) : ServerEvent → Option GatewayServer
  | .accept =>
    if s.phase = .accepting then
      some { s with
        shared := { s.shared with strongCount := s.shared.strongCount + 1 }
        tasks := s.tasks ++ [.waiting] }
    else none
  | .cancel => some { s with cancelled := true }
  | .observe => if s.phase = .accepting ∧ s.cancelled = true then some { s with phase := .draining } else none
  | .drainCheck late =>
    if s.phase = .draining then
      some { s with phase := if s.shared.strongCount ≤ 1 then .drained else if late then .expired else .draining }
    else none
  | .scrape =>
    -- the listener is stopped after the drain loop
    if s.metricsServer ∧ (s.phase = .accepting ∨ s.phase = .draining) then some { s with shared := s.shared.init }
    else none
  | .client i a =>
    match s.tasks[i]? with
    | none => none
    | some pc =>
      match pc.next auth s.cancelled s.shared a with
      | none => none
      | some (sh, pc') => some { s with shared := sh, tasks := s.tasks.set i pc' }

/-- Interleavings of the accept loop, the tasks and the signal. -/
abbrev ServerRun (auth : Option (String × String)) :=
  Run fun (s : GatewayServer) e s' => s.step auth e = some s'

/-- The server when it starts to accept. -/
def GatewayServer.start (gateway : Gateway) : GatewayServer :=
  ⟨.accepting, false, gateway.config.metricsBindAddr.isSome, ⟨gateway.sem, 1, none⟩, []⟩

/-- The states of the gateway that the configuration gives. -/
def ServerReaches (config : GatewayConfig) (s : GatewayServer) : Prop :=
  ∃ gateway ∈ Gateway.new config, ∃ es, ServerRun gateway.ctx.auth (.start gateway) es s

/-- What each step does, and when it can be taken. -/
inductive ServerStep (auth : Option (String × String)) : GatewayServer → ServerEvent → GatewayServer → Prop
  | accept {s : GatewayServer} : s.phase = .accepting → ServerStep auth s .accept
      { s with
        shared := { s.shared with strongCount := s.shared.strongCount + 1 }
        tasks := s.tasks ++ [.waiting] }
  | cancel {s : GatewayServer} : ServerStep auth s .cancel { s with cancelled := true }
  | observe {s : GatewayServer} : s.phase = .accepting → s.cancelled = true →
      ServerStep auth s .observe { s with phase := .draining }
  | drainCheck {s : GatewayServer} {late : Bool} : s.phase = .draining → ServerStep auth s (.drainCheck late)
      { s with phase := if s.shared.strongCount ≤ 1 then .drained else if late then .expired else .draining }
  | scrape {s : GatewayServer} : s.metricsServer = true → s.phase = .accepting ∨ s.phase = .draining →
      ServerStep auth s .scrape { s with shared := s.shared.init }
  | client {s : GatewayServer} {i : Nat} {a : ClientAct} {sh : Shared} {pc pc' : ClientPc} : s.tasks[i]? = some pc →
      pc.next auth s.cancelled s.shared a = some (sh, pc') →
      ServerStep auth s (.client i a) { s with shared := sh, tasks := s.tasks.set i pc' }

section Steps

variable {auth : Option (String × String)} {s s' : GatewayServer}

theorem ServerStep.of_step {e : ServerEvent} (h : s.step auth e = some s') : ServerStep auth s e s' := by
  cases e with
  | accept =>
    simp only [GatewayServer.step, Option.ite_none_right_eq_some, Option.some.injEq] at h
    obtain ⟨hphase, rfl⟩ := h
    exact .accept hphase
  | cancel =>
    cases h
    exact .cancel
  | observe =>
    simp only [GatewayServer.step, Option.ite_none_right_eq_some, Option.some.injEq] at h
    obtain ⟨⟨hphase, hcancelled⟩, rfl⟩ := h
    exact .observe hphase hcancelled
  | drainCheck late =>
    simp only [GatewayServer.step, Option.ite_none_right_eq_some, Option.some.injEq] at h
    obtain ⟨hphase, rfl⟩ := h
    exact .drainCheck hphase
  | scrape =>
    simp only [GatewayServer.step, Option.ite_none_right_eq_some, Option.some.injEq] at h
    obtain ⟨⟨hserver, hphase⟩, rfl⟩ := h
    exact .scrape hserver hphase
  | client i a =>
    simp only [GatewayServer.step] at h
    split at h
    · cases h
    · next pc hpc =>
      split at h
      · cases h
      · next sh pc' hnext =>
        cases h
        exact .client hpc hnext

end Steps

/-- What one step of a task can do. -/
inductive ClientStep (auth : Option (String × String)) (cancelled : Bool) (sh : Shared) :
    ClientPc → Shared → ClientPc → Prop
  | acquire : 0 < sh.permits → ClientStep auth cancelled sh .waiting { sh with permits := sh.permits - 1 } .admitted
  | clear : cancelled = false → ClientStep auth cancelled sh .admitted sh .cleared
  | refuse : cancelled = true → ClientStep auth cancelled sh .admitted sh .refused
  | count : ClientStep auth cancelled sh .cleared sh.addConnection .counted
  | enter : ClientStep auth cancelled sh .counted (sh.addActive 1) (.handling (runWithCtx auth))
  | serve {o : SessionOp Control} {k : o.Ans Control.Ans → Handler (UInt64 × UInt64)} (a : o.Ans Control.Ans) :
      ClientStep auth cancelled sh (.handling (.op o k)) sh (.handling (k a))
  | countUp {up down : UInt64} :
      ClientStep auth cancelled sh (.handling (.ret (up, down))) (sh.addUp up) (.upCounted up down)
  | countDown {up down : UInt64} :
      ClientStep auth cancelled sh (.upCounted up down) (sh.addDown down) (.ended (.ok (up, down)))
  | countError {e : GatewayError} :
      ClientStep auth cancelled sh (.handling (.fail e)) sh.addError (.ended (.error e))
  | close {r : Outcome} : ClientStep auth cancelled sh (.ended r) (sh.addActive (-1)) (.closed r)
  | release {r : Outcome} :
      ClientStep auth cancelled sh (.closed r) { sh with permits := sh.permits + 1 } (.released (some r))
  | giveBack : ClientStep auth cancelled sh .refused { sh with permits := sh.permits + 1 } (.released none)
  | drop {r : Option Outcome} :
      ClientStep auth cancelled sh (.released r) { sh with strongCount := sh.strongCount - 1 } (.finished r)

theorem ClientStep.of_next {auth : Option (String × String)} {cancelled : Bool} {sh sh' : Shared} {pc pc' : ClientPc}
    {a : ClientAct} (h : pc.next auth cancelled sh a = some (sh', pc')) : ClientStep auth cancelled sh pc sh' pc' := by
  unfold ClientPc.next at h
  split at h
  · split at h
    · cases h
    · cases h
      exact .acquire (by omega)
  · cases h
    cases cancelled with
    | true => exact .refuse rfl
    | false => exact .clear rfl
  · cases h; exact .count
  · cases h; exact .enter
  · cases h; exact .serve _
  · cases h; exact .countUp
  · cases h; exact .countDown
  · cases h; exact .countError
  · cases h; exact .close
  · cases h; exact .release
  · cases h; exact .giveBack
  · cases h; exact .drop
  · cases h

/-! ## The books -/

namespace ClientPc

/-- How the session of the task ended, if it has ended. -/
def outcome : ClientPc → Option Outcome
  | .ended r | .closed r => some r
  | .released r | .finished r => r
  | _ => none

/-- The permits that the task holds. -/
def holds : ClientPc → Nat
  | .waiting | .released _ | .finished _ => 0
  | _ => 1

/-- Its references to the semaphore. -/
def refers : ClientPc → Nat
  | .finished _ => 0
  | _ => 1

/-- What it adds to the gauge. -/
def active : ClientPc → Nat
  | .handling _ | .upCounted _ _ | .ended _ => 1
  | _ => 0

/-- What it has added to the counters. -/
def counts : ClientPc → Nat
  | .counted | .handling _ | .upCounted _ _ => 1
  | pc => if pc.outcome.isSome then 1 else 0

def errors (pc : ClientPc) : Nat :=
  match pc.outcome with
  | some (.error _) => 1
  | _ => 0

def up : ClientPc → Nat
  | .upCounted up _ => up.toNat
  | pc => match pc.outcome with
    | some (.ok (up, _)) => up.toNat
    | _ => 0

def down (pc : ClientPc) : Nat :=
  match pc.outcome with
  | some (.ok (_, down)) => down.toNat
  | _ => 0

/-- All that it has added to the metrics. -/
def recorded (pc : ClientPc) : GatewayMetrics :=
  ⟨.ofNat pc.counts, pc.active, .ofNat pc.errors, .ofNat pc.up, .ofNat pc.down⟩

theorem active_le_holds (pc : ClientPc) : pc.active ≤ pc.holds := by cases pc <;> simp [active, holds]

end ClientPc

/-- All that the tasks have added to the metrics, or would have. -/
def recorded (ts : List ClientPc) : GatewayMetrics :=
  ⟨.ofNat (Pool.total ClientPc.counts ts), Pool.total ClientPc.active ts, .ofNat (Pool.total ClientPc.errors ts),
    .ofNat (Pool.total ClientPc.up ts), .ofNat (Pool.total ClientPc.down ts)⟩

/-- What the task adds is recorded, if there is a recorder. -/
def Records (pc pc' : ClientPc) (before after : Option GatewayMetrics) : Prop :=
  ∃ f, after = before.map f ∧ ∀ m, f m + pc.recorded = m + pc'.recorded

/-- What a step of a task moves between the task and what is shared. -/
structure Moves (sh : Shared) (pc : ClientPc) (sh' : Shared) (pc' : ClientPc) : Prop where
  permits : sh'.permits + pc'.holds = sh.permits + pc.holds
  refs : pc.refers ≤ sh.strongCount → sh'.strongCount + pc.refers = sh.strongCount + pc'.refers
  metrics : Records pc pc' sh.metrics sh'.metrics

section Books

variable {auth : Option (String × String)} {cancelled : Bool} {sh sh' : Shared} {pc pc' : ClientPc}

/-- A step that adds nothing. -/
theorem records_self (metrics : Option GatewayMetrics) (h : pc.recorded = pc'.recorded) :
    Records pc pc' metrics metrics :=
  ⟨id, Option.map_id_apply.symm, fun m => by rw [h, id]⟩

theorem ClientStep.moves (h : ClientStep auth cancelled sh pc sh' pc') : Moves sh pc sh' pc' := by
  cases h with
  | acquire hpos => exact ⟨by simp only [ClientPc.holds]; omega, fun _ => rfl, records_self _ rfl⟩
  | clear _ => exact ⟨rfl, fun _ => rfl, records_self _ rfl⟩
  | refuse _ => exact ⟨rfl, fun _ => rfl, records_self _ rfl⟩
  | count =>
    refine ⟨rfl, fun _ => rfl, _, rfl, fun m => GatewayMetrics.ext ?_ rfl rfl rfl rfl⟩
    simp [GatewayMetrics.add_eq, ClientPc.recorded, ClientPc.counts, ClientPc.outcome]
  | enter =>
    refine ⟨rfl, fun _ => rfl, _, rfl, fun m => GatewayMetrics.ext rfl ?_ rfl rfl rfl⟩
    simp [GatewayMetrics.add_eq, ClientPc.recorded, ClientPc.active]
  | serve a => exact ⟨rfl, fun _ => rfl, records_self _ rfl⟩
  | countUp =>
    refine ⟨rfl, fun _ => rfl, _, rfl, fun m => GatewayMetrics.ext rfl rfl rfl ?_ rfl⟩
    simp [GatewayMetrics.add_eq, ClientPc.recorded, ClientPc.up, ClientPc.outcome]
  | countDown =>
    refine ⟨rfl, fun _ => rfl, _, rfl, fun m => GatewayMetrics.ext rfl rfl rfl rfl ?_⟩
    simp [GatewayMetrics.add_eq, ClientPc.recorded, ClientPc.down, ClientPc.outcome]
  | countError =>
    refine ⟨rfl, fun _ => rfl, _, rfl, fun m => GatewayMetrics.ext rfl rfl ?_ rfl rfl⟩
    simp [GatewayMetrics.add_eq, ClientPc.recorded, ClientPc.errors, ClientPc.outcome]
  | close =>
    refine ⟨rfl, fun _ => rfl, _, rfl, fun m => GatewayMetrics.ext rfl ?_ rfl rfl rfl⟩
    simp [GatewayMetrics.add_eq, ClientPc.recorded, ClientPc.active]
  | release => exact ⟨rfl, fun _ => rfl, records_self _ rfl⟩
  | giveBack => exact ⟨rfl, fun _ => rfl, records_self _ rfl⟩
  | drop => exact ⟨rfl, fun hpos => by simp only [ClientPc.refers] at hpos ⊢; omega, records_self _ rfl⟩

/-- The permits that are left and those with the tasks are all there are, and the semaphore is referred to once more
than the tasks do. -/
structure Booked (total : Nat) (s : GatewayServer) : Prop where
  permits : s.shared.permits + Pool.total ClientPc.holds s.tasks = total
  refs : s.shared.strongCount = Pool.total ClientPc.refers s.tasks + 1

variable {total : Nat} {s s' : GatewayServer}

theorem Booked.client (h : Booked total s) {i : Nat} (hpc : s.tasks[i]? = some pc) (hm : Moves s.shared pc sh' pc') :
    Booked total { s with shared := sh', tasks := s.tasks.set i pc' } where
  permits := by
    have hset := Pool.total_set ClientPc.holds pc' hpc
    have hpermits := hm.permits
    have htotal := h.permits
    dsimp only
    omega
  refs := by
    have hset := Pool.total_set ClientPc.refers pc' hpc
    have hle := Pool.le_total ClientPc.refers (List.mem_of_getElem? hpc)
    have htotal := h.refs
    have hrefs := hm.refs (by omega)
    dsimp only
    omega

theorem Booked.step (h : Booked total s) {e : ServerEvent} (hstep : s.step auth e = some s') : Booked total s' := by
  cases ServerStep.of_step hstep with
  | accept _ =>
    -- a task that has just been spawned has only its reference
    refine ⟨?_, ?_⟩
    · rw [Pool.total_append]
      exact h.permits
    · rw [Pool.total_append, h.refs]
      rfl
  | cancel => exact ⟨h.permits, h.refs⟩
  | observe _ _ => exact ⟨h.permits, h.refs⟩
  | drainCheck _ => exact ⟨h.permits, h.refs⟩
  | scrape _ _ => exact ⟨h.permits, h.refs⟩
  | client hpc hnext => exact h.client hpc (ClientStep.of_next hnext).moves

end Books

/-! ## The metrics since they were first asked for -/

/-- The metrics are what the tasks have added to them since they were `base`. -/
def Metered (base : List ClientPc) (s : GatewayServer) : Prop :=
  ∃ m, s.shared.metrics = some m ∧ m + recorded base = recorded s.tasks

section Metered

variable {auth : Option (String × String)} {s s' : GatewayServer} {base ts : List ClientPc} {pc pc' : ClientPc}

theorem GatewayMetrics.add_eq_of_moved {m m' b x x' r r' : GatewayMetrics} (hm : m' + x = m + x') (hb : m + b = r)
    (hr : r' + x = r + x') : m' + b = r' := by
  subst hb
  obtain ⟨_, _, _, _, _⟩ := m
  simp only [add_eq, GatewayMetrics.ext_iff] at hm hr ⊢
  grind

/-- What one task adds is added to the sum. -/
theorem recorded_set {i : Nat} (pc' : ClientPc) (hpc : ts[i]? = some pc) :
    recorded (ts.set i pc') + pc.recorded = recorded ts + pc'.recorded := by
  have hcount (f : ClientPc → Nat) : UInt64.ofNat (Pool.total f (ts.set i pc')) + .ofNat (f pc) =
      .ofNat (Pool.total f ts) + .ofNat (f pc') := by
    rw [← UInt64.ofNat_add, ← UInt64.ofNat_add, Pool.total_set f pc' hpc]
  refine GatewayMetrics.ext (hcount _) ?_ (hcount _) (hcount _) (hcount _)
  change (Pool.total _ _ + ClientPc.active _ : Int) = Pool.total _ _ + ClientPc.active _
  exact_mod_cast Pool.total_set ClientPc.active pc' hpc

/-- A task that has just been spawned has added nothing. -/
theorem recorded_spawn (ts : List ClientPc) : recorded (ts ++ [.waiting]) = recorded ts := by
  simp only [recorded, Pool.total_append]
  rfl

theorem Metered.step (h : Metered base s) {e : ServerEvent} (hstep : s.step auth e = some s') : Metered base s' := by
  obtain ⟨m, hm, hsum⟩ := h
  cases ServerStep.of_step hstep with
  | accept _ => exact ⟨m, hm, by rw [recorded_spawn, hsum]⟩
  | cancel => exact ⟨m, hm, hsum⟩
  | observe _ _ => exact ⟨m, hm, hsum⟩
  | drainCheck _ => exact ⟨m, hm, hsum⟩
  | scrape _ _ => exact ⟨m, by simp only [Shared.init, hm, Option.getD_some], hsum⟩
  | client hpc hnext =>
    obtain ⟨f, hf, hadds⟩ := (ClientStep.of_next hnext).moves.metrics
    rw [hm, Option.map_some] at hf
    exact ⟨f m, hf, GatewayMetrics.add_eq_of_moved (hadds m) hsum (recorded_set _ hpc)⟩

/-- The first request for the metrics finds them at zero. -/
theorem metered_of_scrape (hnone : s.shared.metrics = none) (hstep : s.step auth .scrape = some s') :
    Metered s.tasks s' := by
  cases ServerStep.of_step hstep with
  | scrape _ _ =>
    refine ⟨⟨0, 0, 0, 0, 0⟩, by simp only [Shared.init, hnone, Option.getD_none], ?_⟩
    simp [GatewayMetrics.add_eq]

/-- Before it there are none. -/
theorem unmetered_step {e : ServerEvent} (hnone : s.shared.metrics = none) (he : e ≠ .scrape)
    (hstep : s.step auth e = some s') : s'.shared.metrics = none := by
  cases ServerStep.of_step hstep with
  | accept _ => exact hnone
  | cancel => exact hnone
  | observe _ _ => exact hnone
  | drainCheck _ => exact hnone
  | scrape _ _ => exact absurd rfl he
  | client hpc hnext =>
    obtain ⟨f, hf, -⟩ := (ClientStep.of_next hnext).moves.metrics
    rwa [hnone, Option.map_none] at hf

end Metered

/-! ## The sessions -/

/-- A session of the gateway has ended so. -/
def Ended (auth : Option (String × String)) (r : Outcome) : Prop := ∃ es, (runWithCtx auth).Path es (.ofExcept r)

/-- What is being handled is the rest of a session, and what is recorded the outcome of one. -/
def ClientPc.Sound (auth : Option (String × String)) : ClientPc → Prop
  | .handling rest => ∃ es, (runWithCtx auth).Path es rest
  | .upCounted up down => Ended auth (.ok (up, down))
  | pc => ∀ r ∈ pc.outcome, Ended auth r

/-- The client has been turned away. -/
def ClientPc.turnedAway : ClientPc → Bool
  | .refused | .released none | .finished none => true
  | _ => false

/-- The conditions on a single task. -/
structure ClientPc.Fair (auth : Option (String × String)) (cancelled : Bool) (pc : ClientPc) : Prop where
  sound : pc.Sound auth
  turnedAway : pc.turnedAway = true → cancelled = true

section Sessions

variable {auth : Option (String × String)} {cancelled : Bool} {sh sh' : Shared} {pc pc' : ClientPc}

theorem ClientStep.sound (h : ClientStep auth cancelled sh pc sh' pc') (hpc : pc.Sound auth) : pc'.Sound auth := by
  cases h with
  | acquire _ => rintro _ ⟨⟩
  | clear _ => rintro _ ⟨⟩
  | refuse _ => rintro _ ⟨⟩
  | count => rintro _ ⟨⟩
  | enter => exact ⟨[], .nil _⟩
  | serve a =>
    obtain ⟨es, hes⟩ := hpc
    exact ⟨_, hes.snoc a⟩
  | countUp => exact hpc
  | countDown => rintro _ ⟨⟩; exact hpc
  | countError => rintro _ ⟨⟩; exact hpc
  | close => exact hpc
  | release => exact hpc
  | giveBack => rintro _ ⟨⟩
  | drop => exact hpc

theorem ClientStep.turnedAway (h : ClientStep auth cancelled sh pc sh' pc')
    (hpc : pc.turnedAway = true → cancelled = true) (hpc' : pc'.turnedAway = true) : cancelled = true := by
  cases h with
  | refuse hcancelled => exact hcancelled
  | giveBack => exact hpc rfl
  | @drop r =>
    cases r with
    | none => exact hpc rfl
    | some r => cases hpc'
  | _ => cases hpc'

/-- The tasks are as they should be, and the accept loop ends with the signal; when the drain loop has ended before its
deadline, so have the tasks. -/
structure Orderly (auth : Option (String × String)) (s : GatewayServer) : Prop where
  fair : ∀ pc ∈ s.tasks, pc.Fair auth s.cancelled
  signalled : s.phase ≠ .accepting → s.cancelled = true
  drained : s.phase = .drained → ∀ pc ∈ s.tasks, ∃ r, pc = .finished r

variable {total : Nat} {s s' : GatewayServer}

/-- With no reference but its own, the drain loop has no task to wait for. -/
theorem Booked.all_finished (h : Booked total s) (hrefs : s.shared.strongCount ≤ 1) :
    ∀ pc ∈ s.tasks, ∃ r, pc = .finished r := by
  intro pc hpc
  have hle := Pool.le_total ClientPc.refers hpc
  have htotal := h.refs
  cases pc with
  | finished r => exact ⟨r, rfl⟩
  | _ => simp only [ClientPc.refers] at hle; omega

theorem Orderly.step (h : Orderly auth s) (hb : Booked total s) {e : ServerEvent} (hstep : s.step auth e = some s') :
    Orderly auth s' := by
  cases ServerStep.of_step hstep with
  | accept hphase =>
    refine ⟨?_, h.signalled, fun hd => by rw [hphase] at hd; cases hd⟩
    rw [List.forall_mem_append, List.forall_mem_singleton]
    exact ⟨h.fair, by rintro _ ⟨⟩, by rintro ⟨⟩⟩
  | cancel => exact ⟨fun pc hpc => ⟨(h.fair pc hpc).sound, fun _ => rfl⟩, fun _ => rfl, h.drained⟩
  | observe _ hcancelled => exact ⟨h.fair, fun _ => hcancelled, by rintro ⟨⟩⟩
  | scrape _ _ => exact ⟨h.fair, h.signalled, h.drained⟩
  | drainCheck hphase =>
    refine ⟨h.fair, fun _ => h.signalled (by rw [hphase]; decide), fun hd => ?_⟩
    by_cases hrefs : s.shared.strongCount ≤ 1
    · exact hb.all_finished hrefs
    · dsimp only at hd
      rw [if_neg hrefs] at hd
      split at hd <;> cases hd
  | @client i a sh pc pc' hpc hnext =>
    have hclient := ClientStep.of_next hnext
    have hmem := List.mem_of_getElem? hpc
    refine ⟨fun u hu => ?_, h.signalled, fun hd => ?_⟩
    · rcases Pool.eq_or_other_of_mem_set hu with rfl | ⟨j, -, hj⟩
      · have hfair := h.fair pc hmem
        exact ⟨hclient.sound hfair.sound, hclient.turnedAway hfair.turnedAway⟩
      · exact h.fair u (List.mem_of_getElem? hj)
    · -- a task that has finished does not act
      obtain ⟨r, rfl⟩ := h.drained hd pc hmem
      cases hclient

end Sessions

/-! ## Reachable states -/

/-- The metrics were asked for the first time in the state `s₀`. -/
structure ScrapedFirst (config : GatewayConfig) (s₀ s : GatewayServer) : Prop where
  reaches : ServerReaches config s₀
  unrecorded : s₀.shared.metrics = none
  since : ∃ es, ServerRun config.auth s₀ (.scrape :: es) s

section Reachable

variable {config : GatewayConfig} {s s' : GatewayServer}

theorem invariants_run {auth : Option (String × String)} {total : Nat} {es : List ServerEvent} (hb : Booked total s)
    (ho : Orderly auth s) (hrun : ServerRun auth s es s') : Booked total s' ∧ Orderly auth s' :=
  hrun.inv (I := fun s => Booked total s ∧ Orderly auth s) (fun _ _ _ h hstep => ⟨h.1.step hstep, h.2.step h.1 hstep⟩)
    ⟨hb, ho⟩

theorem ServerReaches.invariants (h : ServerReaches config s) :
    Booked config.maxConnections.toNat s ∧ Orderly config.auth s := by
  obtain ⟨gateway, hnew, es, hrun⟩ := h
  obtain ⟨-, rfl⟩ := new_eq_some.mp hnew
  exact invariants_run ⟨rfl, rfl⟩ ⟨by rintro _ ⟨⟩, fun h => absurd rfl h, by rintro ⟨⟩⟩ hrun

theorem ScrapedFirst.metered {s₀ : GatewayServer} (h : ScrapedFirst config s₀ s) : Metered s₀.tasks s := by
  obtain ⟨es, hrun⟩ := h.since
  cases hrun with
  | cons hscrape hrun =>
    exact hrun.inv (I := Metered s₀.tasks) (fun _ _ _ hm hstep => hm.step hstep)
      (metered_of_scrape h.unrecorded hscrape)

/-- There are no metrics until they are asked for. -/
theorem ServerReaches.scraped (h : ServerReaches config s) :
    s.shared.metrics = none ∨ ∃ s₀, ScrapedFirst config s₀ s := by
  obtain ⟨gateway, hnew, es, hrun⟩ := h
  obtain ⟨hmax, rfl⟩ := new_eq_some.mp hnew
  refine hrun.snoc_induction (P := fun _ s => s.shared.metrics = none ∨ ∃ s₀, ScrapedFirst config s₀ s) (.inl rfl) ?_
  intro es s e s' hrun hs hstep
  rcases hs with hnone | ⟨s₀, hs₀⟩
  · by_cases he : e = .scrape
    · subst he
      exact .inr ⟨s, ⟨_, hnew, es, hrun⟩, hnone, [], .cons hstep (.nil _)⟩
    · exact .inl (unmetered_step hnone he hstep)
  · obtain ⟨es', hrun'⟩ := hs₀.since
    exact .inr ⟨s₀, hs₀.reaches, hs₀.unrecorded, es' ++ [e], hrun'.snoc hstep⟩

/-- **Connections in progress.** In every interleaving there are never more sessions in progress than the configuration
allows, and as long as shutdown is not signalled no client is turned away. There are no metrics until they are asked
for, and from then on the gauge is the number of sessions in progress less the number of those that were then. -/
theorem active_connections_shown (h : ServerReaches config s) :
    Pool.total ClientPc.active s.tasks ≤ config.maxConnections.toNat ∧
      (s.cancelled = false → ∀ pc ∈ s.tasks, pc.turnedAway = false) ∧
      (s.shared.metrics = none ∨ ∃ s₀, ScrapedFirst config s₀ s) ∧
      ∀ s₀, ScrapedFirst config s₀ s → ∃ m, s.shared.metrics = some m ∧
        m.activeConnections = Pool.total ClientPc.active s.tasks - Pool.total ClientPc.active s₀.tasks := by
  obtain ⟨hb, ho⟩ := h.invariants
  refine ⟨?_, fun hrunning pc hpc => ?_, h.scraped, fun s₀ hs₀ => ?_⟩
  · have hle : Pool.total ClientPc.active s.tasks ≤ Pool.total ClientPc.holds s.tasks :=
      List.sum_le_sum fun pc _ => pc.active_le_holds
    have htotal := hb.permits
    omega
  · by_contra haway
    have hcancelled := (ho.fair pc hpc).turnedAway (Bool.not_eq_false _ ▸ haway)
    rw [hrunning] at hcancelled
    cases hcancelled
  · obtain ⟨m, hm, hsum⟩ := hs₀.metered
    exact ⟨m, hm, eq_sub_of_add_eq (congrArg GatewayMetrics.activeConnections hsum)⟩

/-! ## After the drain -/

/-- The bytes that a session reports, up and down. -/
def transferred : Outcome → UInt64 × UInt64
  | .ok stats => stats
  | .error _ => (0, 0)

/-- The metrics of a gateway whose sessions have ended so. -/
def tally (outcomes : List Outcome) : GatewayMetrics where
  connectionsTotal := .ofNat outcomes.length
  activeConnections := 0
  connectionErrorsTotal := .ofNat (outcomes.map fun r => if r.isOk then 0 else 1).sum
  bytesUpTotal := .ofNat (outcomes.map fun r => (transferred r).1.toNat).sum
  bytesDownTotal := .ofNat (outcomes.map fun r => (transferred r).2.toNat).sum

/-- A sum over tasks that have finished is one over the outcomes of their sessions. -/
theorem total_finished {f : ClientPc → Nat} {g : Outcome → Nat} (hnone : f (.finished none) = 0)
    (hsome : ∀ r, f (.finished (some r)) = g r) {ts : List ClientPc} (h : ∀ pc ∈ ts, ∃ r, pc = .finished r) :
    Pool.total f ts = ((ts.filterMap ClientPc.outcome).map g).sum := by
  induction ts with
  | nil => rfl
  | cons pc ts ih =>
    rw [List.forall_mem_cons] at h
    obtain ⟨⟨r, rfl⟩, hts⟩ := h
    have ih : (ts.map f).sum = _ := ih hts
    cases r with
    | none =>
      rw [Pool.total, List.map_cons, List.sum_cons, ih, hnone, Nat.zero_add]
      rfl
    | some r =>
      rw [Pool.total, List.map_cons, List.sum_cons, ih, hsome]
      rfl

/-- What tasks have added that have all finished. -/
theorem recorded_finished {ts : List ClientPc} (h : ∀ pc ∈ ts, ∃ r, pc = .finished r) :
    recorded ts = tally (ts.filterMap ClientPc.outcome) := by
  have hcounts := total_finished (f := ClientPc.counts) (g := fun _ => 1) rfl (fun _ => rfl) h
  have hactive := total_finished (f := ClientPc.active) (g := fun _ => 0) rfl (fun _ => rfl) h
  have herrors := total_finished (f := ClientPc.errors) (g := fun r => if r.isOk then 0 else 1) rfl
    (fun r => by cases r <;> rfl) h
  have hup := total_finished (f := ClientPc.up) (g := fun r => (transferred r).1.toNat) rfl
    (fun r => by cases r <;> rfl) h
  have hdown := total_finished (f := ClientPc.down) (g := fun r => (transferred r).2.toNat) rfl
    (fun r => by cases r <;> rfl) h
  rw [recorded, hcounts, hactive, herrors, hup, hdown, tally]
  simp

/-- **A clean shutdown.** When the drain loop has ended before its deadline, every task has finished, each with a
session that ran to its end or without one; all permits are back, and no reference to the semaphore is left but the
loop's own. The metrics, if they were ever asked for, are the tally of the sessions less what had been done of them when
they were asked for first. And so it stays. -/
theorem drained_settled (h : ServerReaches config s) (hd : s.phase = .drained) :
    (∀ pc ∈ s.tasks, ∃ r, pc = .finished r ∧ ∀ o ∈ r, Ended config.auth o) ∧
      s.shared.permits = config.maxConnections.toNat ∧ s.shared.strongCount = 1 ∧
      (s.shared.metrics = none ∨ ∃ s₀, ScrapedFirst config s₀ s) ∧
      (∀ s₀, ScrapedFirst config s₀ s → ∃ m, s.shared.metrics = some m ∧
        m + recorded s₀.tasks = tally (s.tasks.filterMap ClientPc.outcome)) ∧
      ∀ es s', ServerRun config.auth s es s' → s'.tasks = s.tasks ∧ s'.shared = s.shared := by
  obtain ⟨hb, ho⟩ := h.invariants
  have hfinished := ho.drained hd
  have hpermits := hb.permits
  have hrefs := hb.refs
  rw [total_finished (g := fun _ => 0) rfl (fun _ => rfl) hfinished] at hpermits hrefs
  refine ⟨fun pc hpc => ?_, by simpa using hpermits, by simpa using hrefs, h.scraped, fun s₀ hs₀ => ?_,
    fun es s' hrun => ?_⟩
  · obtain ⟨r, rfl⟩ := hfinished pc hpc
    exact ⟨r, rfl, (ho.fair _ hpc).sound⟩
  · rw [← recorded_finished hfinished]
    exact hs₀.metered
  · have hstay : s'.phase = .drained ∧ s'.tasks = s.tasks ∧ s'.shared = s.shared := by
      refine hrun.inv (I := fun t => t.phase = .drained ∧ t.tasks = s.tasks ∧ t.shared = s.shared) ?_ ⟨hd, rfl, rfl⟩
      rintro t e t' ⟨hphase, htasks, hshared⟩ hstep
      cases ServerStep.of_step hstep with
      | accept hacc => rw [hphase] at hacc; cases hacc
      | cancel => exact ⟨hphase, htasks, hshared⟩
      | observe hacc _ => rw [hphase] at hacc; cases hacc
      | drainCheck hdrain => rw [hphase] at hdrain; cases hdrain
      | scrape _ hup => rw [hphase] at hup; rcases hup with hup | hup <;> cases hup
      | client hpc hnext =>
        obtain ⟨r, rfl⟩ := hfinished _ (htasks ▸ List.mem_of_getElem? hpc)
        cases ClientStep.of_next hnext
    exact hstay.2

end Reachable

/-! ## The drain comes to an end -/

/-- The most steps that a task has still to take. -/
noncomputable def ClientPc.effort (auth : Option (String × String)) : ClientPc → Nat
  | .waiting => (runWithCtx auth).worst (limit 1 1) + 9
  | .admitted => (runWithCtx auth).worst (limit 1 1) + 8
  | .cleared => (runWithCtx auth).worst (limit 1 1) + 7
  | .counted => (runWithCtx auth).worst (limit 1 1) + 6
  | .handling rest => rest.worst (limit 1 1) + 5
  | .upCounted _ _ => 4
  | .ended _ => 3
  | .closed _ => 2
  | .refused => 2
  | .released _ => 1
  | .finished _ => 0

section Termination

variable {auth : Option (String × String)} {cancelled : Bool} {sh sh' : Shared} {pc pc' : ClientPc}

theorem authOps_le (auth : Option (String × String)) : authOps auth ≤ 6 := by
  unfold authOps
  split <;> omega

theorem worst_session_le (auth : Option (String × String)) : (runWithCtx auth).worst (limit 1 1) ≤ 22 := by
  have hle := (costs_gateway (c := 1) (i := 1) auth).worst_le
  have hauth := authOps_le auth
  omega

/-- What is left of a session is bounded too. -/
theorem costs_rest {rest : Handler (UInt64 × UInt64)} (h : (ClientPc.handling rest).Sound auth) :
    ∃ n ≤ 22, rest.Costs (limit 1 1) n := by
  obtain ⟨es, hes⟩ := h
  have hauth := authOps_le auth
  exact ⟨_, by omega, ((costs_gateway (c := 1) (i := 1) auth).path hes).2⟩

theorem ClientPc.effort_le (h : pc.Sound auth) : pc.effort auth ≤ 31 := by
  have hsession := worst_session_le auth
  cases pc with
  | handling rest =>
    obtain ⟨n, hn, hcosts⟩ := costs_rest h
    have hle := hcosts.worst_le
    simp only [effort]
    omega
  | _ => simp only [effort]; omega

/-- Every step of a task brings it closer to its end. -/
theorem ClientStep.effort_lt (h : ClientStep auth cancelled sh pc sh' pc') (hpc : pc.Sound auth) :
    pc'.effort auth < pc.effort auth := by
  cases h with
  | @serve o k a =>
    obtain ⟨n, -, hcosts⟩ := costs_rest hpc
    have hlt := hcosts.worst_answer a
    have hone := limit_one o
    simp only [ClientPc.effort]
    omega
  | _ => simp only [ClientPc.effort]; omega

def ServerEvent.isClient : ServerEvent → Bool
  | .client _ _ => true
  | _ => false

variable {total : Nat} {s s' : GatewayServer}

/-- Once the accept loop has ended, every step of a task is one less to take. -/
theorem effort_step (ho : Orderly auth s) (hphase : s.phase ≠ .accepting) {e : ServerEvent}
    (hstep : s.step auth e = some s') : s'.phase ≠ .accepting ∧
      Pool.total (ClientPc.effort auth) s'.tasks + (if e.isClient then 1 else 0) ≤
        Pool.total (ClientPc.effort auth) s.tasks := by
  cases ServerStep.of_step hstep with
  | accept hacc => exact absurd hacc hphase
  | cancel => exact ⟨hphase, le_rfl⟩
  | observe hacc _ => exact absurd hacc hphase
  | scrape _ _ => exact ⟨hphase, le_rfl⟩
  | drainCheck _ =>
    refine ⟨?_, le_rfl⟩
    dsimp only
    split
    · decide
    · split <;> decide
  | @client i a sh pc pc' hpc hnext =>
    have hlt := (ClientStep.of_next hnext).effort_lt (ho.fair pc (List.mem_of_getElem? hpc)).sound
    have hset := Pool.total_set (ClientPc.effort auth) pc' hpc
    refine ⟨hphase, ?_⟩
    simp only [ServerEvent.isClient, if_true]
    omega

theorem clients_le_effort (hb : Booked total s) (ho : Orderly auth s) (hphase : s.phase ≠ .accepting)
    {es : List ServerEvent} (hrun : ServerRun auth s es s') :
    es.countP ServerEvent.isClient ≤ Pool.total (ClientPc.effort auth) s.tasks := by
  induction hrun with
  | nil s => exact Nat.zero_le _
  | @cons s s₁ s' e es hstep _ ih =>
    obtain ⟨hphase', hle⟩ := effort_step ho hphase hstep
    have htail := ih (hb.step hstep) (ho.step hb hstep) hphase'
    rw [List.countP_cons]
    omega

/-- Whatever the operation, its deadline passes. -/
def timedOut : (o : SessionOp Control) → o.Ans Control.Ans
  | .io _ (.read _) => .error .elapsed
  | .io _ (.write _) => .error .elapsed
  | .ctl .selectNode => none
  | .ctl (.connect _) => .error .elapsed
  | .relay => .error .elapsed

/-- A task that has a permit, or needs none, can act. -/
theorem ClientPc.exists_next (auth : Option (String × String)) (cancelled : Bool) (sh : Shared) (pc : ClientPc)
    (hfinished : ∀ r, pc ≠ .finished r) (hwaiting : pc = .waiting → 0 < sh.permits) :
    ∃ a, (pc.next auth cancelled sh a).isSome = true := by
  cases pc with
  | waiting =>
    have hpos := hwaiting rfl
    exact ⟨.acquire, by rw [next, if_neg (by omega)]; rfl⟩
  | admitted => exact ⟨.check, rfl⟩
  | cleared => exact ⟨.count, rfl⟩
  | counted => exact ⟨.enter, rfl⟩
  | handling rest =>
    cases rest with
    | ret stats => exact ⟨.countUp, rfl⟩
    | fail e => exact ⟨.countError, rfl⟩
    | op o k => exact ⟨.serve timedOut, rfl⟩
  | upCounted up down => exact ⟨.countDown, rfl⟩
  | ended r => exact ⟨.close, rfl⟩
  | closed r => exact ⟨.release, rfl⟩
  | refused => exact ⟨.release, rfl⟩
  | released r => exact ⟨.drop, rfl⟩
  | finished r => exact absurd rfl (hfinished r)

/-- As long as a task has not finished, one of them can act. -/
theorem Booked.exists_client_step (hb : Booked total s) (htotal : 0 < total) (auth : Option (String × String))
    (h : ∃ pc ∈ s.tasks, ∀ r, pc ≠ .finished r) : ∃ i a s', s.step auth (.client i a) = some s' := by
  have hready : ∃ pc ∈ s.tasks, (∀ r, pc ≠ .finished r) ∧ (pc = .waiting → 0 < s.shared.permits) := by
    by_cases hbusy : ∃ pc ∈ s.tasks, (∀ r, pc ≠ .finished r) ∧ pc ≠ .waiting
    · obtain ⟨pc, hpc, hfinished, hwaiting⟩ := hbusy
      exact ⟨pc, hpc, hfinished, fun hw => absurd hw hwaiting⟩
    · -- the others all wait, so nobody has a permit
      obtain ⟨pc, hpc, hfinished⟩ := h
      have hnone : Pool.total ClientPc.holds s.tasks = 0 := by
        refine List.sum_eq_zero fun n hn => ?_
        obtain ⟨pc', hpc', rfl⟩ := List.mem_map.mp hn
        by_cases hf : ∃ r, pc' = .finished r
        · obtain ⟨r, rfl⟩ := hf
          rfl
        · by_cases hw : pc' = .waiting
          · rw [hw]
            rfl
          · exact absurd ⟨pc', hpc', fun r hr => hf ⟨r, hr⟩, hw⟩ hbusy
      have hpermits := hb.permits
      exact ⟨pc, hpc, hfinished, fun _ => by omega⟩
  obtain ⟨pc, hpc, hfinished, hwaiting⟩ := hready
  obtain ⟨i, hi⟩ := List.mem_iff_getElem?.mp hpc
  obtain ⟨a, ha⟩ := ClientPc.exists_next auth s.cancelled s.shared pc hfinished hwaiting
  obtain ⟨⟨sh, pc'⟩, hnext⟩ := Option.isSome_iff_exists.mp ha
  exact ⟨i, a, { s with shared := sh, tasks := s.tasks.set i pc' }, by simp only [GatewayServer.step, hi, hnext]⟩

/-- **Shutdown completes.** Once the accept loop has ended, the tasks that are left take 31 steps each at most, in
whatever order and however their operations are answered. And if there are permits at all, then at any time one of them
can take its next step, or the next turn of the drain loop finds that all have finished. -/
theorem shutdown_completes {config : GatewayConfig} (h : ServerReaches config s) (hphase : s.phase ≠ .accepting)
    {es : List ServerEvent} (hrun : ServerRun config.auth s es s') :
    es.countP ServerEvent.isClient ≤ 31 * s.tasks.length ∧
      (0 < config.maxConnections → (∃ i a s'', s'.step config.auth (.client i a) = some s'') ∨
        ∀ late s'', s'.step config.auth (.drainCheck late) = some s'' → s''.phase = .drained) := by
  obtain ⟨hb, ho⟩ := h.invariants
  obtain ⟨hb', ho'⟩ := invariants_run hb ho hrun
  constructor
  · have hle : Pool.total (ClientPc.effort config.auth) s.tasks ≤ s.tasks.length • 31 := by
      rw [← List.length_map (ClientPc.effort config.auth)]
      refine List.sum_le_card_nsmul _ _ fun n hn => ?_
      obtain ⟨pc, hpc, rfl⟩ := List.mem_map.mp hn
      exact ClientPc.effort_le (ho.fair pc hpc).sound
    have hclients := clients_le_effort hb ho hphase hrun
    rw [smul_eq_mul] at hle
    omega
  · intro hmax
    by_cases hleft : ∃ pc ∈ s'.tasks, ∀ r, pc ≠ .finished r
    · exact .inl (hb'.exists_client_step hmax config.auth hleft)
    · refine .inr fun late s'' hstep => ?_
      push Not at hleft
      have hrefs := hb'.refs
      rw [total_finished (g := fun _ => 0) rfl (fun _ => rfl) hleft] at hrefs
      cases ServerStep.of_step hstep with
      | drainCheck _ =>
        refine if_pos ?_
        simpa using hrefs.le

end Termination

/-! ## Two clients and one permit -/

/-- One session at a time. -/
def singleConfig : GatewayConfig := { maxConnections := 1, metricsBindAddr := some "127.0.0.1:9100" }

/-- The first client sends nothing in time, and the second one waits. -/
def servedFirst : List ServerEvent :=
  [.accept, .accept, .client 0 .acquire, .client 0 .check, .client 0 .count, .client 0 .enter]

/-- The first session fails. -/
def failedFirst : List ServerEvent :=
  [.client 0 (.serve timedOut), .client 0 .countError, .client 0 .close, .client 0 .release, .client 0 .drop]

/-- Shutdown is signalled, and the second client turned away. -/
def turnedAwaySecond : List ServerEvent :=
  [.client 1 .acquire, .client 1 .check, .client 1 .release, .client 1 .drop]

/-- Steps one after the other. -/
def runEvents (auth : Option (String × String)) : List ServerEvent → GatewayServer → Option GatewayServer
  | [], s => some s
  | e :: es, s => (s.step auth e).bind (runEvents auth es)

theorem run_of_runEvents {auth : Option (String × String)} {es : List ServerEvent} {s s' : GatewayServer}
    (h : runEvents auth es s = some s') : ServerRun auth s es s' := by
  induction es generalizing s with
  | nil => cases h; exact .nil _
  | cons e es ih =>
    obtain ⟨s₁, hstep, h⟩ := Option.bind_eq_some_iff.mp h
    exact .cons hstep (ih h)

theorem reaches_single (es : List ServerEvent) {s : GatewayServer}
    (h : runEvents none es ⟨.accepting, false, true, ⟨1, 1, none⟩, []⟩ = some s) : ServerReaches singleConfig s :=
  ⟨_, new_eq_some.mpr ⟨by decide, rfl⟩, es, run_of_runEvents h⟩

/-- A session that began before the metrics were first asked for, and has ended since. -/
theorem active_connections_single : ∃ s₀ s, ScrapedFirst singleConfig s₀ s ∧ s.tasks.length = 2 ∧
    Pool.total ClientPc.active s.tasks = 0 ∧ s.shared.metrics.map GatewayMetrics.activeConnections = some (-1) := by
  have h : ∃ s₀ s, ScrapedFirst singleConfig s₀ s ∧ ServerReaches singleConfig s ∧ s.tasks.length = 2 ∧
      Pool.total ClientPc.active s.tasks = 0 ∧ Pool.total ClientPc.active s₀.tasks = 1 :=
    ⟨_, _, ⟨reaches_single servedFirst rfl, rfl, failedFirst, run_of_runEvents rfl⟩,
      reaches_single (servedFirst ++ .scrape :: failedFirst) rfl, rfl, rfl, rfl⟩
  obtain ⟨s₀, s, hscraped, hs, hlen, hactive, hbefore⟩ := h
  obtain ⟨m, hm, hgauge⟩ := (active_connections_shown hs).2.2.2 s₀ hscraped
  refine ⟨s₀, s, hscraped, hlen, hactive, ?_⟩
  rw [hm, Option.map_some, hgauge, hactive, hbefore]
  rfl

theorem drained_settled_single : ∃ s, ServerReaches singleConfig s ∧ s.phase = .drained ∧
    ∃ m, s.shared.metrics = some m ∧ m + recorded [] = tally [.error (.timeout "handshake read timed out")] := by
  have h : ∃ s₀ s, ScrapedFirst singleConfig s₀ s ∧ s₀.tasks = [] ∧ ServerReaches singleConfig s ∧ s.phase = .drained ∧
      s.tasks.filterMap ClientPc.outcome = [.error (.timeout "handshake read timed out")] :=
    ⟨_, _, ⟨reaches_single [] rfl, rfl, servedFirst ++ failedFirst ++ [.cancel, .observe] ++ turnedAwaySecond ++
        [.drainCheck false], run_of_runEvents rfl⟩, rfl,
      reaches_single (.scrape :: (servedFirst ++ failedFirst ++ [.cancel, .observe] ++ turnedAwaySecond ++
        [.drainCheck false])) rfl, rfl, rfl⟩
  obtain ⟨s₀, s, hscraped, hnew, hs, hd, houtcomes⟩ := h
  obtain ⟨m, hm, hsum⟩ := (drained_settled hs hd).2.2.2.2.1 s₀ hscraped
  rw [houtcomes, hnew] at hsum
  exact ⟨s, hs, hd, m, hm, hsum⟩

theorem shutdown_completes_single : ∃ s s', ServerReaches singleConfig s ∧ s.phase = .draining ∧
    ServerRun none s (failedFirst ++ turnedAwaySecond) s' ∧
    (failedFirst ++ turnedAwaySecond).countP ServerEvent.isClient ≤ 31 * s.tasks.length ∧
    ((∃ i a s'', s'.step none (.client i a) = some s'') ∨
      ∀ late s'', s'.step none (.drainCheck late) = some s'' → s''.phase = .drained) := by
  have h : ∃ s s', ServerReaches singleConfig s ∧ s.phase = .draining ∧
      ServerRun none s (failedFirst ++ turnedAwaySecond) s' :=
    ⟨_, _, reaches_single (servedFirst ++ [.cancel, .observe]) rfl, rfl, run_of_runEvents rfl⟩
  obtain ⟨s, s', hs, hphase, hrun⟩ := h
  obtain ⟨hsteps, hgoes⟩ := shutdown_completes hs (by rw [hphase]; decide) hrun
  exact ⟨s, s', hs, hphase, hrun, hsteps, hgoes (by decide)⟩

end RustProxy.Gateway
