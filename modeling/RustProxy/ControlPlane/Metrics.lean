import RustProxy.Lib.Reporting
import RustProxy.ControlPlane.Lifecycle
import RustProxy.ControlPlane.Persistence

/-!
# The gauges of the nodes

The per-node gauges of the control plane (`metrics.rs`) and the service calls with the recordings they make
(`service.rs`): a call records the node that it has read last, or every node that it has listed. Selections and sweeps
record nothing. A recording sets three gauges, one after the other, in the recorder that the first `GET /metrics`
installs; before that it has no effect.

The recordings change nothing else (`Call.silent_metered`). Called one at a time, the gauges follow the table from the
installation on, except that a node which a sweep has marked is shown as healthy as it was before (`gauges_follow`). In
any interleaving, each gauge shows what was once read from the table (`gauges_shown`); the three of them need not come
from one row (`tornTurns`).
-/

namespace RustProxy.ControlPlane

open Lib

/-! ## Gauges -/

def healthGaugeValue : NodeState → ℚ
  | .healthy => 1
  | .degraded => 1 / 2
  | _ => 0

/-- The gauges that have the id of a node as their label. -/
inductive Gauge
  | health
  | latencyMs
  | bandwidthUtilization
  deriving DecidableEq

/-- What the gauges are set to for a node; the values are exact, where the source rounds the utilization to an `f64`. -/
def Node.reading (n : Node) : Gauge → ℚ
  | .health => healthGaugeValue n.state
  | .latencyMs => n.latencyMs.toNat
  | .bandwidthUtilization => n.bandwidthUtilization

/-- `gauge!(name, NODE => node_id).set(value)`. -/
structure Setting where
  gauge : Gauge
  nodeId : String
  value : ℚ

/-- The gauges by node id, as far as they have been set. -/
abbrev Gauges := String → Gauge → Option ℚ

def Setting.apply (x : Setting) (g : Gauges) : Gauges :=
  Function.update g x.nodeId (Function.update (g x.nodeId) x.gauge (some x.value))

/-- The global recorder, once it is installed. -/
abbrev Recorder := Option Gauges

/-- Without a recorder, nothing is set. -/
def Recorder.set (x : Setting) (r : Recorder) : Recorder := r.map x.apply

/-- Only the first call has any effect. -/
def Recorder.init (r : Recorder) : Recorder := some (r.getD fun _ _ => none)

/-! ## The calls with their recordings -/

/-- Calls of the repository, and settings of gauges. -/
abbrev MeteredM := Prog (Op ⊕ Setting) (Reporting Ans Setting) Error

namespace Metered

def recordNode (n : Node) : MeteredM Unit := do
  Prog.report ⟨.health, n.id, healthGaugeValue n.state⟩
  Prog.report ⟨.latencyMs, n.id, n.latencyMs.toNat⟩
  Prog.report ⟨.bandwidthUtilization, n.id, n.bandwidthUtilization⟩

def register (req : RegisterRequest) : MeteredM Node := do
  (Repo.register req).reportless
  match ← (Repo.get req.nodeId).reportless with
  | some node => do
    recordNode node
    pure node
  | none => .fail .nodeDisappeared

/-- `if let Some(n) = …get(id)… { record_node(&n) }`. -/
def recordFound : Option Node → MeteredM Unit
  | some n => recordNode n
  | none => pure ()

def heartbeat (svc : ControlPlaneService) (hb : Heartbeat) : MeteredM Unit := do
  match ← (Repo.get hb.nodeId).reportless with
  | some n => do
    (Repo.applyHeartbeat hb).reportless
    let next := reclassifyAfterHeartbeat n.state hb.activeConnections n.maxConnections svc.policy
    if next ≠ n.state then
      (Repo.setState hb.nodeId next).reportless
    recordFound (← (Repo.get hb.nodeId).reportless)
  | none => pure ()

def recordAll : List Node → MeteredM Unit
  | [] => pure ()
  | n :: ns => do
    recordNode n
    recordAll ns

def list : MeteredM (List Node) := do
  let nodes ← Repo.list.reportless
  recordAll nodes
  pure nodes

def get (id : String) : MeteredM (Option Node) := do
  let n ← (Repo.get id).reportless
  recordFound n
  pure n

def drain (id : String) : MeteredM (Option Node) := do
  (Repo.setDraining id).reportless
  let n ← (Repo.get id).reportless
  recordFound n
  pure n

end Metered

/-- The program of a call with its recordings. -/
def Call.metered (svc : ControlPlaneService) (now : DateTime) : Call → MeteredM Outcome
  | .register req => do let n ← Metered.register req; pure (.node n)
  | .heartbeat hb => do Metered.heartbeat svc hb; pure .done
  | .list => do let ns ← Metered.list; pure (.nodes ns)
  | .get id => do let n ← Metered.get id; pure (.found n)
  | .drain id => do let n ← Metered.drain id; pure (.found n)
  | .select => (Call.prog svc now .select).reportless
  | .selectWithBandwidth => (Call.prog svc now .selectWithBandwidth).reportless
  | .adjustActive id delta => (Call.prog svc now (.adjustActive id delta)).reportless
  | .markStaleOffline => (Call.prog svc now .markStaleOffline).reportless

/-! ## The recordings change nothing else -/

section Silent

@[simp] theorem silent_recordFound (found : Option Node) : (Metered.recordFound found).silent = .ret () := by
  cases found <;> rfl

@[simp] theorem silent_recordAll (ns : List Node) : (Metered.recordAll ns).silent = .ret () := by
  induction ns with
  | nil => rfl
  | cons n ns ih => exact ih

theorem silent_register (req : RegisterRequest) :
    (Metered.register req).silent = ControlPlaneService.register req := by
  simp only [Metered.register, ControlPlaneService.register, Prog.bind_eq, Prog.silent_bind, Prog.silent_reportless]
  congr 1
  funext _
  congr 1
  funext found
  cases found <;> rfl

theorem silent_heartbeat (svc : ControlPlaneService) (hb : Heartbeat) :
    (Metered.heartbeat svc hb).silent = svc.heartbeat hb := by
  simp only [Metered.heartbeat, ControlPlaneService.heartbeat, Prog.bind_eq, Prog.silent_bind, Prog.silent_reportless]
  congr 1
  funext found
  cases found with
  | none => rfl
  | some n =>
    simp only [ControlPlaneService.heartbeatFound, Prog.bind_eq, Prog.silent_bind, Prog.silent_reportless]
    congr 1
    funext _
    split <;> simp [Prog.silent_bind]

theorem silent_get (id : String) : (Metered.get id).silent = ControlPlaneService.get id := by
  simp only [Metered.get, Prog.bind_eq, Prog.silent_bind, Prog.silent_reportless, silent_recordFound, Prog.ret_bind]
  exact Prog.bind_ret _

theorem silent_drain (id : String) : (Metered.drain id).silent = ControlPlaneService.drain id := by
  simp only [Metered.drain, ControlPlaneService.drain, Prog.bind_eq, Prog.silent_bind, Prog.silent_reportless,
    silent_recordFound, Prog.ret_bind]
  congr 1
  funext _
  exact Prog.bind_ret _

theorem silent_list : Metered.list.silent = ControlPlaneService.list := by
  simp only [Metered.list, Prog.bind_eq, Prog.silent_bind, Prog.silent_reportless, silent_recordAll, Prog.ret_bind]
  exact Prog.bind_ret _

/-- **The recordings change nothing else.** -/
theorem Call.silent_metered (svc : ControlPlaneService) (now : DateTime) (c : Call) :
    (c.metered svc now).silent = c.prog svc now := by
  cases c with
  | register req => simp only [metered, prog, Prog.bind_eq, Prog.silent_bind, silent_register]; rfl
  | heartbeat hb => simp only [metered, prog, Prog.bind_eq, Prog.silent_bind, silent_heartbeat]; rfl
  | list => simp only [metered, prog, Prog.bind_eq, Prog.silent_bind, silent_list]; rfl
  | get id => simp only [metered, prog, Prog.bind_eq, Prog.silent_bind, silent_get]; rfl
  | drain id => simp only [metered, prog, Prog.bind_eq, Prog.silent_bind, silent_drain]; rfl
  | select => exact Prog.silent_reportless _
  | selectWithBandwidth => exact Prog.silent_reportless _
  | adjustActive id delta => exact Prog.silent_reportless _
  | markStaleOffline => exact Prog.silent_reportless _

end Silent

/-! ## One call at a time -/

/-- The store and the recorder. -/
abbrev Metered.State := Store × Recorder

/-- A call executed alone. -/
def Call.runMetered (svc : ControlPlaneService) (now : DateTime) (c : Call) (st : Metered.State) :
    Except Error Outcome × Metered.State :=
  (c.metered svc now).run (Prog.reporting (Op.exec now) Recorder.set) st

/-- What the control plane serves: a call, or `GET /metrics`. -/
inductive ServiceEvent
  | call (now : DateTime) (c : Call)
  | metrics

def ServiceEvent.runMetered (svc : ControlPlaneService) : ServiceEvent → Metered.State → Metered.State
  | .call now c, st => (c.runMetered svc now st).2
  | .metrics, st => (st.1, Recorder.init st.2)

def runMetered (svc : ControlPlaneService) (es : List ServiceEvent) (st : Metered.State) : Metered.State :=
  es.foldl (fun st e => e.runMetered svc st) st

def ServiceEvent.timedCall? : ServiceEvent → Option TimedCall
  | .call now c => some (now, c)
  | .metrics => none

/-- The calls among the events. -/
def calls (es : List ServiceEvent) : List TimedCall := es.filterMap ServiceEvent.timedCall?

/-- The node that a call is about. -/
def Call.subject : Call → Option String
  | .register req => some req.nodeId
  | .heartbeat hb => some hb.nodeId
  | .get id | .drain id => some id
  | .list | .select | .selectWithBandwidth | .adjustActive .. | .markStaleOffline => none

/-- Events that end with a recording of the node `id`, if there is one. -/
def ServiceEvent.Observes (id : String) : ServiceEvent → Prop
  | .call _ c => c = .list ∨ c.subject = some id
  | .metrics => False

/-- The node `id` has been observed since the recorder was installed. -/
def Observed (id : String) (es : List ServiceEvent) : Prop :=
  ∃ es₁ e es₂, es = es₁ ++ e :: es₂ ∧ .metrics ∈ es₁ ∧ e.Observes id

section Sequential

variable {svc : ControlPlaneService} {now : DateTime} {s : Store} {r : Recorder} {es : List ServiceEvent}
  {e : ServiceEvent} {id : String}

/-- The store is that of the call without its recordings. -/
theorem Call.store_runMetered (svc : ControlPlaneService) (now : DateTime) (c : Call) (s : Store) (r : Recorder) :
    (c.runMetered svc now (s, r)).2.1 = (c.run svc now s).2 := by
  have hrun := Prog.run_silent (h := Op.exec now) (f := Recorder.set) (c.metered svc now) s r
  rw [Call.silent_metered] at hrun
  exact (congrArg Prod.snd hrun).symm

theorem store_runMetered (svc : ControlPlaneService) (es : List ServiceEvent) (s : Store) (r : Recorder) :
    (runMetered svc es (s, r)).1 = runCalls svc (calls es) s := by
  induction es generalizing s r with
  | nil => rfl
  | cons e es ih =>
    cases e with
    | metrics => exact ih s (Recorder.init r)
    | call now c =>
      have hcons : runCalls svc (calls (.call now c :: es)) s = runCalls svc (calls es) (c.run svc now s).2 := rfl
      rw [hcons, ← Call.store_runMetered svc now c s r]
      exact ih _ _

theorem runCalls_snoc (svc : ControlPlaneService) (cs : List TimedCall) (now : DateTime) (c : Call) (s : Store) :
    runCalls svc (cs ++ [(now, c)]) s = (c.run svc now (runCalls svc cs s)).2 := by
  induction cs generalizing s with
  | nil => rfl
  | cons c cs ih => exact ih _

/-- All gauges of a node. -/
def Node.shown (n : Node) (γ : Gauge) : Option ℚ := some (n.reading γ)

/-- The gauges with those of the node. -/
def showNode (n : Node) (g : Gauges) : Gauges := Function.update g n.id n.shown

/-- Undisturbed, the three settings of a recording show the node. -/
theorem set_recordNode (n : Node) (r : Recorder) :
    Recorder.set ⟨.bandwidthUtilization, n.id, n.bandwidthUtilization⟩
      (Recorder.set ⟨.latencyMs, n.id, n.latencyMs.toNat⟩
        (Recorder.set ⟨.health, n.id, healthGaugeValue n.state⟩ r)) = r.map (showNode n) := by
  cases r with
  | none => rfl
  | some g =>
    refine congrArg some (funext fun id => ?_)
    by_cases hid : id = n.id
    · subst hid
      funext γ
      cases γ <;> simp [Setting.apply, showNode, Node.shown, Node.reading]
    · simp only [Setting.apply, showNode, Function.update_of_ne hid]

theorem run_recordNode (n : Node) (s : Store) (r : Recorder) :
    (Metered.recordNode n).run (Prog.reporting (Op.exec now) Recorder.set) (s, r) =
      (.ok (), s, r.map (showNode n)) := by
  rw [← set_recordNode]
  rfl

/-- The gauges with those of the row of `id`, if there is one that can be read. -/
def showRow (id : String) (s : Store) (g : Gauges) : Gauges :=
  match Registry.get id s.registry with
  | .ok (some n) => showNode n g
  | _ => g

/-- A call that ends by reading a row and recording it. -/
theorem run_get_bind {α : Type} {f : Option Node → MeteredM α} (id : String)
    (hsome : ∀ n s r, ((f (some n)).run (Prog.reporting (Op.exec now) Recorder.set) (s, r)).2 = (s, r.map (showNode n)))
    (hnone : ∀ st, ((f none).run (Prog.reporting (Op.exec now) Recorder.set) st).2 = st) (s : Store) (r : Recorder) :
    (((Repo.get id).reportless.bind f).run (Prog.reporting (Op.exec now) Recorder.set) (s, r)).2 =
      (s, r.map (showRow id s)) := by
  have hrun : ((Repo.get id).reportless.bind f).run (Prog.reporting (Op.exec now) Recorder.set) (s, r) =
      ((Prog.ofExcept (Registry.get id s.registry)).reportless.bind f).run
        (Prog.reporting (Op.exec now) Recorder.set) (s, r) := rfl
  rw [hrun]
  unfold showRow
  cases Registry.get id s.registry with
  | error e => exact congrArg (Prod.mk s) Option.map_id'.symm
  | ok found =>
    cases found with
    | none => exact (hnone (s, r)).trans (congrArg (Prod.mk s) Option.map_id'.symm)
    | some n => exact hsome n s r

theorem run_recordNode_bind {α : Type} (n : Node) (a : α) (s : Store) (r : Recorder) :
    (((Metered.recordNode n).bind fun _ => .ret a).run (Prog.reporting (Op.exec now) Recorder.set) (s, r)).2 =
      (s, r.map (showNode n)) :=
  congrArg Prod.snd (Prog.run_bind_ok (run_recordNode n s r))

theorem run_recordFound (n : Node) (s : Store) (r : Recorder) :
    ((Metered.recordFound (some n)).run (Prog.reporting (Op.exec now) Recorder.set) (s, r)).2 =
      (s, r.map (showNode n)) :=
  congrArg Prod.snd (run_recordNode n s r)

theorem run_metered_heartbeat (svc : ControlPlaneService) (now : DateTime) (hb : Heartbeat) (s : Store) (r : Recorder) :
    ∃ s', ((Metered.heartbeat svc hb).run (Prog.reporting (Op.exec now) Recorder.set) (s, r)).2 =
      (s', r.map (showRow hb.nodeId s')) := by
  have hlast (s : Store) : (((Repo.get hb.nodeId).reportless.bind Metered.recordFound).run
      (Prog.reporting (Op.exec now) Recorder.set) (s, r)).2 = (s, r.map (showRow hb.nodeId s)) :=
    run_get_bind hb.nodeId run_recordFound (fun _ => rfl) s r
  have hrun : (Metered.heartbeat svc hb).run (Prog.reporting (Op.exec now) Recorder.set) (s, r) =
      ((Prog.ofExcept (Registry.get hb.nodeId s.registry)).reportless.bind _).run
        (Prog.reporting (Op.exec now) Recorder.set) (s, r) := rfl
  have hkept (hnone : ∀ g, showRow hb.nodeId s g = g) : r.map (showRow hb.nodeId s) = r := by
    rw [funext hnone]
    exact Option.map_id'
  rw [hrun]
  cases hget : Registry.get hb.nodeId s.registry with
  | error e => exact ⟨s, by rw [hkept fun g => by rw [showRow, hget]]; rfl⟩
  | ok found =>
    cases found with
    | none => exact ⟨s, by rw [hkept fun g => by rw [showRow, hget]]; rfl⟩
    | some n =>
      by_cases hnext : reclassifyAfterHeartbeat n.state hb.activeConnections n.maxConnections svc.policy ≠ n.state
      · simp only [Prog.ofExcept_ok, Prog.reportless, Prog.ret_bind, if_pos hnext]
        exact ⟨_, hlast _⟩
      · simp only [Prog.ofExcept_ok, Prog.reportless, Prog.ret_bind, if_neg hnext]
        exact ⟨_, hlast _⟩

/-- A call about a node ends with the row of the node recorded. -/
theorem Call.records_subject {c : Call} (hc : c.subject = some id) :
    (c.runMetered svc now (s, r)).2 = ((c.run svc now s).2, r.map (showRow id (c.run svc now s).2)) := by
  -- naming the outcome changes nothing
  have hret {α : Type} (p : MeteredM α) (f : α → Outcome) :
      ((p.bind fun a => .ret (f a)).run (Prog.reporting (Op.exec now) Recorder.set) (s, r)).2 =
        (p.run (Prog.reporting (Op.exec now) Recorder.set) (s, r)).2 :=
    congrArg Prod.snd (Prog.run_bind_ret p f (s, r))
  obtain ⟨s', hrun⟩ : ∃ s', (c.runMetered svc now (s, r)).2 = (s', r.map (showRow id s')) := by
    cases c with
    | register req =>
      cases hc
      exact ⟨_, (hret _ _).trans (run_get_bind req.nodeId (fun n => run_recordNode_bind n n) (fun _ => rfl)
        { s with registry := Registry.register req now s.registry } r)⟩
    | heartbeat hb =>
      cases hc
      obtain ⟨s', hrun⟩ := run_metered_heartbeat svc now hb s r
      exact ⟨s', (hret _ _).trans hrun⟩
    | get id =>
      cases hc
      exact ⟨_, (hret _ _).trans (run_get_bind id (fun n => run_recordNode_bind n (some n)) (fun _ => rfl) s r)⟩
    | drain id =>
      cases hc
      exact ⟨_, (hret _ _).trans (run_get_bind id (fun n => run_recordNode_bind n (some n)) (fun _ => rfl)
        { s with registry := Registry.setDraining id now s.registry } r)⟩
    | _ => cases hc
  have hstore := c.store_runMetered svc now s r
  rw [hrun] at hstore ⊢
  rw [← hstore]

/-- A call that records nothing. -/
theorem Call.records_nothing {c : Call} (hc : c.metered svc now = (c.prog svc now).reportless) :
    (c.runMetered svc now (s, r)).2 = ((c.run svc now s).2, r) := by
  rw [Call.runMetered, hc, Prog.run_reportless, Call.run]

/-- A listing records every node. -/
def showAll (ns : List Node) (g : Gauges) : Gauges := ns.foldl (fun g n => showNode n g) g

theorem run_recordAll (ns : List Node) (s : Store) (r : Recorder) :
    (Metered.recordAll ns).run (Prog.reporting (Op.exec now) Recorder.set) (s, r) =
      (.ok (), s, r.map (showAll ns)) := by
  induction ns generalizing r with
  | nil => exact congrArg (fun r => (Except.ok (), s, r)) Option.map_id'.symm
  | cons n ns ih =>
    have hcons : r.map (showAll (n :: ns)) = (r.map (showNode n)).map (showAll ns) := by rw [Option.map_map]; rfl
    rw [hcons]
    exact (Prog.run_bind_ok (run_recordNode n s r)).trans (ih _)

theorem showAll_of_ne {ns : List Node} (h : ∀ n ∈ ns, n.id ≠ id) (g : Gauges) : showAll ns g id = g id := by
  induction ns generalizing g with
  | nil => rfl
  | cons n ns ih =>
    rw [List.forall_mem_cons] at h
    rw [showAll, List.foldl_cons, ← showAll, ih h.2, showNode, Function.update_of_ne h.1.symm]

theorem showAll_of_mem {ns : List Node} (hord : ns.Pairwise fun a b => a.id < b.id) {n : Node} (hn : n ∈ ns)
    (g : Gauges) : showAll ns g n.id = n.shown := by
  induction ns generalizing g with
  | nil => cases hn
  | cons m ns ih =>
    obtain ⟨hm, hns⟩ := List.pairwise_cons.mp hord
    rw [showAll, List.foldl_cons, ← showAll]
    rcases List.mem_cons.mp hn with rfl | hn
    · rw [showAll_of_ne (fun m hmem => (hm m hmem).ne'), showNode, Function.update_self]
    · exact ih hns hn _

theorem run_metered_list (svc : ControlPlaneService) (now : DateTime) (r : Recorder) {ns : List Node}
    (hns : Registry.list s.registry = .ok ns) :
    (Call.runMetered svc now .list (s, r)).2 = (s, r.map (showAll ns)) := by
  have hret : (Call.runMetered svc now .list (s, r)).2 =
      (Metered.list.run (Prog.reporting (Op.exec now) Recorder.set) (s, r)).2 :=
    congrArg Prod.snd (Prog.run_bind_ret Metered.list Outcome.nodes _)
  have hlist : Metered.list.run (Prog.reporting (Op.exec now) Recorder.set) (s, r) =
      ((Prog.ofExcept (Registry.list s.registry)).reportless.bind fun nodes =>
        (Metered.recordAll nodes).bind fun _ => .ret nodes).run
          (Prog.reporting (Op.exec now) Recorder.set) (s, r) := rfl
  rw [hret, hlist, hns]
  exact congrArg Prod.snd (Prog.run_bind_ok (run_recordAll ns s r))

theorem showRow_of_ne {id' : String} (hne : id' ≠ id) (g : Gauges) : showRow id s g id' = g id' := by
  rw [showRow]
  cases hget : Registry.get id s.registry with
  | error e => rfl
  | ok found =>
    cases found with
    | none => rfl
    | some n =>
      obtain ⟨row, hrow, hdec⟩ := Registry.get_some hget
      have hid : n.id = id := (Decodes.of_ok hdec).id.trans (Table.key_of_find? hrow)
      dsimp only
      rw [showNode, hid, Function.update_of_ne hne]

theorem showRow_self {row : Row} {n : Node} (hrow : s.registry.find? id = some row) (hdec : Decodes row n)
    (g : Gauges) : showRow id s g id = n.shown := by
  have hid : n.id = id := hdec.id.trans (Table.key_of_find? hrow)
  rw [showRow, Registry.get_of_decodes hrow hdec]
  dsimp only
  rw [showNode, hid, Function.update_self]

/-! ### What the calls leave of the rows -/

/-- A call about a node leaves the other rows alone. -/
theorem Call.find?_run_of_subject {c : Call} {id' : String} (hc : c.subject = some id) (hne : id' ≠ id) :
    (c.run svc now s).2.registry.find? id' = s.registry.find? id' := by
  refine Call.run_inv svc (I := fun s' => s'.registry.find? id' = s.registry.find? id') (fun o s' ho hs' => ?_) rfl
  have hw : o.writes ≠ some id' := by
    intro hw
    cases c with
    | register req =>
      rcases ho with rfl | rfl
      · exact hne (Option.some.inj (hw.symm.trans hc))
      · cases hw
    | heartbeat hb =>
      rcases ho with rfl | rfl | ⟨state, rfl⟩
      · cases hw
      · exact hne (Option.some.inj (hw.symm.trans hc))
      · exact hne (Option.some.inj (hw.symm.trans hc))
    | get id => cases ho; cases hw
    | drain id =>
      rcases ho with rfl | rfl
      · exact hne (Option.some.inj (hw.symm.trans hc))
      · cases hw
    | _ => cases hc
  rw [Op.find?_exec_of_ne hw, hs']

theorem Call.isSome_find?_run (svc : ControlPlaneService) (now : DateTime) (c : Call)
    (h : (s.registry.find? id).isSome) : ((c.run svc now s).2.registry.find? id).isSome :=
  Call.run_inv svc (I := fun s => (s.registry.find? id).isSome) (fun o _ _ hs => o.isSome_find?_exec now hs) h

/-- A selection leaves the rows alone. -/
theorem Call.find?_run_of_selection {c : Call} (hc : c = .select ∨ c = .selectWithBandwidth) :
    (c.run svc now s).2.registry.find? id = s.registry.find? id := by
  refine Call.run_inv svc (I := fun s' => s'.registry.find? id = s.registry.find? id) (fun o s' ho hs' => ?_) rfl
  have hw : o.writes ≠ some id := by
    rcases hc with rfl | rfl
    · cases ho
      rintro ⟨⟩
    · rcases ho with rfl | ⟨_, _, _, rfl⟩ <;> rintro ⟨⟩
  rw [Op.find?_exec_of_ne hw, hs']

/-- A listing leaves the store alone. -/
theorem Call.store_run_list (svc : ControlPlaneService) (now : DateTime) (s : Store) :
    (Call.run svc now .list s).2 = s := by
  have hrun : Call.run svc now .list s =
      ((Prog.ofExcept (Registry.list s.registry)).bind fun ns => .ret (Outcome.nodes ns)).run (Op.exec now) s := rfl
  rw [hrun]
  cases Registry.list s.registry <;> rfl

/-! ### Observations -/

theorem Observed.snoc (h : Observed id es) (e : ServiceEvent) : Observed id (es ++ [e]) := by
  obtain ⟨es₁, e₁, es₂, rfl, hm, he⟩ := h
  exact ⟨es₁, e₁, es₂ ++ [e], by simp, hm, he⟩

theorem observed_now (hm : .metrics ∈ es) (he : e.Observes id) : Observed id (es ++ [e]) := ⟨es, e, [], rfl, hm, he⟩

/-- The last event is the one split off, or comes after it. -/
theorem snoc_eq_append_cons {es₁ es₂ : List ServiceEvent} {e₁ : ServiceEvent} (h : es ++ [e] = es₁ ++ e₁ :: es₂) :
    es = es₁ ∧ e = e₁ ∧ es₂ = [] ∨ ∃ es₃, es = es₁ ++ e₁ :: es₃ ∧ es₂ = es₃ ++ [e] := by
  rcases List.eq_nil_or_concat es₂ with rfl | ⟨es₃, e₂, rfl⟩
  · obtain ⟨rfl, hlast⟩ := List.append_inj' h rfl
    cases hlast
    exact .inl ⟨rfl, rfl, rfl⟩
  · rw [List.concat_eq_append, ← List.cons_append, ← List.append_assoc] at h
    obtain ⟨rfl, hlast⟩ := List.append_inj' h rfl
    cases hlast
    exact .inr ⟨es₃, rfl, by simp⟩

theorem not_observed_snoc (h : ¬ Observed id es) (he : ¬ e.Observes id) : ¬ Observed id (es ++ [e]) := by
  rintro ⟨es₁, e₁, es₂, heq, hm, he₁⟩
  rcases snoc_eq_append_cons heq with ⟨-, rfl, -⟩ | ⟨es₃, rfl, -⟩
  · exact he he₁
  · exact h ⟨es₁, e₁, es₃, rfl, hm, he₁⟩

theorem not_observes {c : Call} (hlist : c ≠ .list) (hc : c.subject ≠ some id) :
    ¬ (ServiceEvent.call now c).Observes id := by
  rintro (h | h)
  · exact hlist h
  · exact hc h

theorem not_observed_of_not_mem (h : .metrics ∉ es) : ¬ Observed id es := by
  rintro ⟨es₁, e₁, es₂, rfl, hm, -⟩
  exact h (List.mem_append_left _ hm)

/-! ### What the gauges show -/

/-- What the gauges of the node `id` show after the events, by its row. -/
inductive Shows (svc : ControlPlaneService) (es : List ServiceEvent) (id : String) :
    Option Row → (Gauge → Option ℚ) → Prop
  | absent : Shows svc es id none fun _ => none
  | unobserved {row : Row} : ¬ Observed id es → Shows svc es id (some row) fun _ => none
  | current {row : Row} {n : Node} : Observed id es → Decodes row n → Shows svc es id (some row) n.shown
  /-- The node has been marked by a sweep and not been observed since: it is shown as it was before the sweep. -/
  | swept {es₁ es₂ : List ServiceEvent} {now : DateTime} {row : Row} {n : Node} :
      es = es₁ ++ .call now .markStaleOffline :: es₂ → Observed id es₁ → (∀ e ∈ es₂, ¬ e.Observes id) →
      (runCalls svc (calls es₁) .empty).registry.find? id = some row → Decodes row n → svc.due now n = true →
      Shows svc es id (some (offlineRow now row)) n.shown

/-- The gauges follow the table. -/
structure Follows (svc : ControlPlaneService) (es : List ServiceEvent) (st : Metered.State) : Prop where
  table : st.1 = runCalls svc (calls es) .empty
  installed : st.2 = none ↔ .metrics ∉ es
  shows : ∀ g ∈ st.2, ∀ id, Shows svc es id (st.1.registry.find? id) (g id)

/-- An event that neither observes the node nor changes its row. -/
theorem Shows.unobserving {row : Option Row} {shown : Gauge → Option ℚ} (h : Shows svc es id row shown)
    (he : ¬ e.Observes id) : Shows svc (es ++ [e]) id row shown := by
  cases h with
  | absent => exact .absent
  | unobserved hnew => exact .unobserved (not_observed_snoc hnew he)
  | current hobs hdec => exact .current (hobs.snoc e) hdec
  | @swept es₁ es₂ now row n heq hobs hsince hrow hdec hdue =>
    have hsplit : es ++ [e] = es₁ ++ .call now .markStaleOffline :: (es₂ ++ [e]) := by simp [heq]
    refine .swept hsplit hobs (fun e' he' => ?_) hrow hdec hdue
    rcases List.mem_append.mp he' with he' | he'
    · exact hsince e' he'
    · rwa [List.mem_singleton.mp he']

/-- A call about a node shows its row as it is, if there is a recorder. -/
theorem Shows.subject {g : Gauges} {c : Call} {id' : String} (hs : (c.run svc now s).2.Readable)
    (hm : .metrics ∈ es) (hc : c.subject = some id') (h : Shows svc es id (s.registry.find? id) (g id)) :
    Shows svc (es ++ [.call now c]) id ((c.run svc now s).2.registry.find? id)
      (showRow id' (c.run svc now s).2 g id) := by
  by_cases hid : id = id'
  · subst hid
    cases hrow : (c.run svc now s).2.registry.find? id with
    | some row =>
      obtain ⟨n, hdec⟩ := hs id row hrow
      rw [showRow_self hrow hdec]
      exact .current (observed_now hm (.inr hc)) hdec
    | none =>
      -- there was no row either
      have hnone : s.registry.find? id = none := by
        by_contra hsome
        have hkept := Call.isSome_find?_run svc now c (Option.isSome_iff_ne_none.mpr hsome)
        rw [hrow] at hkept
        cases hkept
      have hget : Registry.get id (c.run svc now s).2.registry = .ok none := by rw [Registry.get, hrow]
      rw [hnone] at h
      rw [showRow, hget]
      dsimp only
      generalize g id = shown at h ⊢
      cases h
      exact .absent
  · rw [showRow_of_ne hid, Call.find?_run_of_subject hc hid]
    have hlist : c ≠ .list := by rintro rfl; cases hc
    exact h.unobserving (not_observes hlist fun hsub => hid (Option.some.inj (hsub.symm.trans hc)))

theorem Shows.list {g : Gauges} {ns : List Node} (hns : Registry.list s.registry = .ok ns) (hm : .metrics ∈ es)
    (h : Shows svc es id (s.registry.find? id) (g id)) :
    Shows svc (es ++ [.call now .list]) id (s.registry.find? id) (showAll ns g id) := by
  cases hrow : s.registry.find? id with
  | some row =>
    obtain ⟨n, hn, hdec⟩ := Registry.exists_mem_list hns hrow
    have hid : n.id = id := (Decodes.of_ok hdec).id.trans (Table.key_of_find? hrow)
    rw [← hid, showAll_of_mem (Registry.list_ordered hns) hn]
    exact .current (observed_now hm (.inl rfl)) (.of_ok hdec)
  | none =>
    have hne : ∀ n ∈ ns, n.id ≠ id := by
      rintro n hn rfl
      obtain ⟨row, hfound, -⟩ := Registry.list_mem hns hn
      rw [hrow] at hfound
      cases hfound
    rw [hrow] at h
    rw [showAll_of_ne hne]
    generalize g id = shown at h ⊢
    cases h
    exact .absent

/-- A sweep leaves the gauges as they are, also of the nodes it marks. -/
theorem Shows.sweep {shown : Gauge → Option ℚ} (hs : s.Readable) (htable : s = runCalls svc (calls es) .empty)
    (h : Shows svc es id (s.registry.find? id) shown) :
    Shows svc (es ++ [.call now .markStaleOffline]) id
      ((Call.run svc now .markStaleOffline s).2.registry.find? id) shown := by
  have hunobserving : ¬ (ServiceEvent.call now .markStaleOffline).Observes id :=
    not_observes (by rintro ⟨⟩) (by rintro ⟨⟩)
  obtain ⟨ns, hns⟩ := hs.list
  rw [sweep_find?, hns]
  dsimp only
  split
  · next hex =>
    obtain ⟨n, hn, hdue, rfl⟩ := hex
    obtain ⟨row, hrow, hdec⟩ := Registry.list_mem hns hn
    rw [hrow] at h ⊢
    cases h with
    | unobserved hnew => exact .unobserved (not_observed_snoc hnew hunobserving)
    | @current _ n' hobs hdec' =>
      obtain rfl : n' = n := Except.ok.inj ((rowIntoNode_ok_iff.mpr hdec').symm.trans hdec)
      exact .swept rfl hobs (fun _ he => absurd he List.not_mem_nil) (htable ▸ hrow) hdec' hdue
    | swept =>
      -- a node that is offline is not due
      rw [ControlPlaneService.due, (Decodes.of_ok hdec).state] at hdue
      cases hdue
  · exact h.unobserving hunobserving

theorem calls_snoc (es : List ServiceEvent) (now : DateTime) (c : Call) :
    calls (es ++ [.call now c]) = calls es ++ [(now, c)] := by
  simp [calls, ServiceEvent.timedCall?]

theorem Follows.metrics (h : Follows svc es (s, r)) :
    Follows svc (es ++ [.metrics]) (ServiceEvent.metrics.runMetered svc (s, r)) := by
  refine ⟨?_, ?_, ?_⟩
  · have hcalls : calls (es ++ [.metrics]) = calls es := by simp [calls, ServiceEvent.timedCall?]
    rw [hcalls]
    exact h.table
  · simp [ServiceEvent.runMetered, Recorder.init]
  · rintro g hg id
    cases r with
    | some g₀ =>
      cases hg
      exact (h.shows g₀ rfl id).unobserving (fun h => h)
    | none =>
      cases hg
      have hnew : ¬ Observed id (es ++ [.metrics]) :=
        not_observed_snoc (not_observed_of_not_mem (h.installed.mp rfl)) fun h => h
      dsimp only [ServiceEvent.runMetered]
      cases s.registry.find? id with
      | none => exact .absent
      | some row => exact .unobserved hnew

/-- A call, by what it makes of the gauges. -/
theorem Follows.call {c : Call} {f : Gauges → Gauges} (h : Follows svc es (s, r))
    (hrun : (c.runMetered svc now (s, r)).2 = ((c.run svc now s).2, r.map f))
    (hf : ∀ g id, .metrics ∈ es → Shows svc es id (s.registry.find? id) (g id) →
      Shows svc (es ++ [.call now c]) id ((c.run svc now s).2.registry.find? id) (f g id)) :
    Follows svc (es ++ [.call now c]) ((ServiceEvent.call now c).runMetered svc (s, r)) := by
  have hmem : .metrics ∉ es ++ [.call now c] ↔ ServiceEvent.metrics ∉ es := by simp
  have hst : (ServiceEvent.call now c).runMetered svc (s, r) = ((c.run svc now s).2, r.map f) := hrun
  refine ⟨?_, ?_, ?_⟩
  · rw [hst, calls_snoc, runCalls_snoc, ← h.table]
  · rw [hmem, hst, ← h.installed, Option.map_eq_none_iff]
  · rw [hst]
    intro g' hg' id
    obtain ⟨g, hg, rfl⟩ := Option.map_eq_some_iff.mp hg'
    have hm : .metrics ∈ es := by
      by_contra hm
      rw [show r = none from h.installed.mpr hm] at hg
      cases hg
    exact hf g id hm (h.shows g hg id)

theorem Follows.step (h : Follows svc es (s, r)) (hs : s.Readable)
    (he : ∀ now id delta, e ≠ .call now (.adjustActive id delta)) :
    Follows svc (es ++ [e]) (e.runMetered svc (s, r)) := by
  have hsubject {now : DateTime} {c : Call} {id : String} (hc : c.subject = some id) :
      Follows svc (es ++ [.call now c]) ((ServiceEvent.call now c).runMetered svc (s, r)) := by
    have hadjust (id' : String) (delta : Int64) : c ≠ .adjustActive id' delta := by rintro rfl; cases hc
    have hs' : (c.run svc now s).2.Readable :=
      Call.run_readable hs fun id' delta hadj => absurd hadj (hadjust id' delta)
    exact h.call (Call.records_subject hc) fun g id' hm hshows => hshows.subject hs' hm hc
  -- calls that record nothing
  have hquiet {now : DateTime} {c : Call} (hc : c.metered svc now = (c.prog svc now).reportless) :
      (c.runMetered svc now (s, r)).2 = ((c.run svc now s).2, r.map fun g => g) := by
    rw [Call.records_nothing hc, Option.map_id']
  have hselection {now : DateTime} {c : Call} (hc : c = .select ∨ c = .selectWithBandwidth) :
      Follows svc (es ++ [.call now c]) ((ServiceEvent.call now c).runMetered svc (s, r)) := by
    refine h.call (hquiet (by rcases hc with rfl | rfl <;> rfl)) fun g id _ hshows => ?_
    rw [Call.find?_run_of_selection hc]
    refine hshows.unobserving (not_observes ?_ ?_) <;> rcases hc with rfl | rfl <;> rintro ⟨⟩
  cases e with
  | metrics => exact h.metrics
  | call now c =>
    cases c with
    | register req => exact hsubject rfl
    | heartbeat hb => exact hsubject rfl
    | get id => exact hsubject rfl
    | drain id => exact hsubject rfl
    | select => exact hselection (.inl rfl)
    | selectWithBandwidth => exact hselection (.inr rfl)
    | adjustActive id delta => exact absurd rfl (he now id delta)
    | markStaleOffline => exact h.call (hquiet rfl) fun g id _ hshows => hshows.sweep hs h.table
    | list =>
      obtain ⟨ns, hns⟩ := hs.list
      refine h.call (f := showAll ns) ?_ fun g id hm hshows => ?_
      · rw [run_metered_list svc now r hns, Call.store_run_list]
      · rw [Call.store_run_list]
        exact hshows.list hns hm

end Sequential

/-- A call in flight, with its recordings. -/
structure MeteredTask where
  call : Call
  began : DateTime
  rest : MeteredM Outcome

inductive MeteredAct
  | repo (a : TaskAct)
  | set (x : Setting)

/-- One step of a task; the setting of a gauge is a step of its own. -/
inductive MeteredTaskStep : Metered.State → MeteredTask → MeteredAct → Metered.State → MeteredTask → Prop
  | perform {s : Store} {r : Recorder} {t : MeteredTask} {o : Op} {k : Ans o → MeteredM Outcome} (now : DateTime) :
      t.rest = .op (.inl o) k → MeteredTaskStep (s, r) t (.repo (.perform o now)) ((o.exec now s).2, r)
        { t with rest := k (o.exec now s).1 }
  | fault {st : Metered.State} {t : MeteredTask} {o : Op} {k : Ans o → MeteredM Outcome} {a : Ans o} :
      t.rest = .op (.inl o) k → o.fault = some a → MeteredTaskStep st t (.repo (.fault o)) st { t with rest := k a }
  | set {s : Store} {r : Recorder} {t : MeteredTask} {x : Setting} {k : Unit → MeteredM Outcome} :
      t.rest = .op (.inr x) k → MeteredTaskStep (s, r) t (.set x) (s, Recorder.set x r) { t with rest := k () }

def MeteredTask.Fresh (svc : ControlPlaneService) (t : MeteredTask) : Prop := t.rest = t.call.metered svc t.began

inductive MeteredLabel
  | serve (l : Pool.Label MeteredTask MeteredAct)
  | metrics

/-- One step of the service: a call arrives, a task acts, or `GET /metrics` is served. -/
inductive MeteredStep (svc : ControlPlaneService) :
    Pool Metered.State MeteredTask → MeteredLabel → Pool Metered.State MeteredTask → Prop
  | serve {p p' : Pool Metered.State MeteredTask} {l : Pool.Label MeteredTask MeteredAct} :
      Pool.Step (MeteredTask.Fresh svc) MeteredTaskStep p l p' → MeteredStep svc p (.serve l) p'
  | metrics {p : Pool Metered.State MeteredTask} :
      MeteredStep svc p .metrics ⟨(p.shared.1, Recorder.init p.shared.2), p.tasks⟩

/-- The service before any call, without a recorder. -/
def meteredIdle : Pool Metered.State MeteredTask := ⟨(.empty, none), []⟩

/-! ### Without the recordings -/

def MeteredTask.silent (t : MeteredTask) : Task := ⟨t.call, t.began, t.rest.silent⟩

def silentPool (p : Pool Metered.State MeteredTask) : Pool Store Task := ⟨p.shared.1, p.tasks.map MeteredTask.silent⟩

def silentLabel : MeteredLabel → Option ServiceLabel
  | .serve (.start t) => some (.start t.silent)
  | .serve (.act i (.repo a)) => some (.act i a)
  | .serve (.act _ (.set _)) | .metrics => none

/-- **A run with recordings is a run of the service.** -/
theorem run_of_metered {svc : ControlPlaneService} {p p' : Pool Metered.State MeteredTask} {ls : List MeteredLabel}
    (h : Run (MeteredStep svc) p ls p') :
    Run (ServiceStep svc) (silentPool p) (ls.filterMap silentLabel) (silentPool p') := by
  refine h.project fun p l p' hst => ?_
  cases hst with
  | metrics => exact .inr ⟨rfl, rfl⟩
  | serve hst =>
    cases hst with
    | @start t hfresh =>
      refine .inl ⟨_, rfl, ?_⟩
      have hpool : silentPool ⟨p.shared, p.tasks ++ [t]⟩ =
          ⟨(silentPool p).shared, (silentPool p).tasks ++ [t.silent]⟩ := by
        simp [silentPool]
      rw [hpool]
      refine .start ?_
      rw [Task.Fresh, MeteredTask.silent, hfresh, Call.silent_metered]
    | @act i t t' l st' hi hst =>
      obtain ⟨st, tasks⟩ := p
      have hsilent : (tasks.map MeteredTask.silent)[i]? = some t.silent := by
        rw [List.getElem?_map, show tasks[i]? = some t from hi]
        rfl
      cases hst with
      | @perform s r _ o k now hrest =>
        refine .inl ⟨_, rfl, ?_⟩
        have hprog : t.silent.rest = .op o fun a => (k a).silent := by rw [MeteredTask.silent, hrest]; rfl
        have hstep : ServiceStep svc (silentPool ⟨(s, r), tasks⟩) _ _ :=
          .act hsilent (TaskStep.perform (s := s) now hprog)
        simpa [silentPool, List.map_set, MeteredTask.silent] using hstep
      | @fault _ _ o k a hrest ha =>
        refine .inl ⟨_, rfl, ?_⟩
        have hprog : t.silent.rest = .op o fun a => (k a).silent := by rw [MeteredTask.silent, hrest]; rfl
        have hstep : ServiceStep svc (silentPool ⟨st, tasks⟩) _ _ :=
          .act hsilent (TaskStep.fault (s := st.1) hprog ha)
        simpa [silentPool, List.map_set, MeteredTask.silent] using hstep
      | @set s r _ x k hrest =>
        refine .inr ⟨rfl, ?_⟩
        have hsame : MeteredTask.silent { t with rest := k () } = t.silent := by
          simp only [MeteredTask.silent, hrest]
          rfl
        simp only [silentPool, List.map_set, hsame]
        congr 1
        obtain ⟨hlt, heq⟩ := List.getElem?_eq_some_iff.mp hsilent
        rw [← heq, List.set_getElem_self hlt]

/-! ### What is recorded has been read -/

section Recordings

variable {H : Node → Prop}

/-- Gauges are only set to those of nodes in `H`. -/
def Records (H : Node → Prop) : Op ⊕ Setting → Prop
  | .inl _ => True
  | .inr x => ∃ n, H n ∧ n.id = x.nodeId ∧ x.value = n.reading x.gauge

/-- Only nodes of `H` are read. -/
def Reads (H : Node → Prop) : (o : Op ⊕ Setting) → Reporting Ans Setting o → Prop
  | .inl (.get _), a => ∀ n, a = .ok (some n) → H n
  | .inl .list, a => ∀ ns, a = .ok ns → ∀ n ∈ ns, H n
  | _, _ => True

theorem respects_reportless {α : Type} (p : ServiceM α) : Prog.Respects (Records H) (Reads H) p.reportless := by
  induction p with
  | ret a => trivial
  | fail e => trivial
  | op o k ih => exact ⟨trivial, fun a _ => ih a⟩

theorem respects_get_bind {α : Type} {f : Option Node → MeteredM α} (id : String)
    (hf : ∀ found, (∀ n ∈ found, H n) → Prog.Respects (Records H) (Reads H) (f found)) :
    Prog.Respects (Records H) (Reads H) ((Repo.get id).reportless.bind f) := by
  refine ⟨trivial, fun a ha => ?_⟩
  cases a with
  | error e => trivial
  | ok found => exact hf found fun n hn => ha n (by rw [hn])

theorem respects_recordNode {n : Node} (h : H n) :
    Prog.Respects (Records H) (Reads H) (Metered.recordNode n) :=
  ⟨⟨n, h, rfl, rfl⟩, fun _ _ => ⟨⟨n, h, rfl, rfl⟩, fun _ _ => ⟨⟨n, h, rfl, rfl⟩, fun _ _ => trivial⟩⟩⟩

theorem respects_recordFound {found : Option Node} (h : ∀ n ∈ found, H n) :
    Prog.Respects (Records H) (Reads H) (Metered.recordFound found) := by
  cases found with
  | none => trivial
  | some n => exact respects_recordNode (h n rfl)

theorem respects_recordAll {ns : List Node} (h : ∀ n ∈ ns, H n) :
    Prog.Respects (Records H) (Reads H) (Metered.recordAll ns) := by
  induction ns with
  | nil => trivial
  | cons n ns ih =>
    rw [List.forall_mem_cons] at h
    exact .bind (respects_recordNode h.1) fun _ => ih h.2

theorem respects_metered_heartbeat (svc : ControlPlaneService) (hb : Heartbeat) :
    Prog.Respects (Records H) (Reads H) (Metered.heartbeat svc hb) := by
  refine respects_get_bind hb.nodeId fun found hfound => ?_
  cases found with
  | none => trivial
  | some n =>
    refine .bind (respects_reportless _) fun _ => ?_
    dsimp only
    split
    · exact .bind (respects_reportless _) fun _ => respects_get_bind _ fun _ => respects_recordFound
    · exact respects_get_bind _ fun _ => respects_recordFound

theorem respects_metered_list : Prog.Respects (Records H) (Reads H) Metered.list := by
  refine ⟨trivial, fun a ha => ?_⟩
  cases a with
  | error e => trivial
  | ok ns =>
    have hrest : Prog.Respects (Records H) (Reads H) ((Metered.recordAll ns).bind fun _ => .ret ns) :=
      .bind (respects_recordAll (ha ns rfl)) fun _ => trivial
    exact hrest

theorem Reads.mono {H' : Node → Prop} (hH : ∀ n, H n → H' n) {o : Op} {a : Ans o} (h : Reads H (.inl o) a) :
    Reads H' (.inl o) a := by
  cases o with
  | get id => exact fun n hn => hH n (h n hn)
  | list => exact fun ns hns n hn => hH n (h ns hns n hn)
  | _ => trivial

/-- A call records what it has read. -/
theorem Call.respects_metered (svc : ControlPlaneService) (now : DateTime) (c : Call) :
    Prog.Respects (Records H) (Reads H) (c.metered svc now) := by
  cases c with
  | register req =>
    refine .bind (.bind (respects_reportless _) fun _ => respects_get_bind _ fun found hfound => ?_) fun _ => trivial
    cases found with
    | none => trivial
    | some n => exact .bind (respects_recordNode (hfound n rfl)) fun _ => trivial
  | heartbeat hb => exact .bind (respects_metered_heartbeat svc hb) fun _ => trivial
  | list => exact .bind respects_metered_list fun _ => trivial
  | get id =>
    exact .bind (respects_get_bind _ fun _ hfound => .bind (respects_recordFound hfound) fun _ => trivial)
      fun _ => trivial
  | drain id =>
    exact .bind (.bind (respects_reportless _) fun _ => respects_get_bind _ fun _ hfound =>
      .bind (respects_recordFound hfound) fun _ => trivial) fun _ => trivial
  | select => exact respects_reportless _
  | selectWithBandwidth => exact respects_reportless _
  | adjustActive id delta => exact respects_reportless _
  | markStaleOffline => exact respects_reportless _

end Recordings

/-- The table has held this node. -/
def Held (svc : ControlPlaneService) (ls : List MeteredLabel) (n : Node) : Prop :=
  ∃ ls₁ ls₂ q row, ls = ls₁ ++ ls₂ ∧ Run (MeteredStep svc) meteredIdle ls₁ q ∧
    q.shared.1.registry.find? n.id = some row ∧ Decodes row n

/-- Whatever is read later, only nodes are recorded that the table has held. -/
def MeteredTask.Honest (H : Node → Prop) (t : MeteredTask) : Prop :=
  ∀ H' : Node → Prop, (∀ n, H n → H' n) → Prog.Respects (Records H') (Reads H') t.rest

section Held

variable {svc : ControlPlaneService} {ls : List MeteredLabel} {p : Pool Metered.State MeteredTask}

theorem Held.append {n : Node} (h : Held svc ls n) (l : MeteredLabel) : Held svc (ls ++ [l]) n := by
  obtain ⟨ls₁, ls₂, q, row, rfl, hrun, hrow, hdec⟩ := h
  exact ⟨ls₁, ls₂ ++ [l], q, row, by simp, hrun, hrow, hdec⟩

theorem held_now (h : Run (MeteredStep svc) meteredIdle ls p) {n : Node} {row : Row}
    (hrow : p.shared.1.registry.find? n.id = some row) (hdec : Decodes row n) : Held svc ls n :=
  ⟨ls, [], p, row, by simp, h, hrow, hdec⟩

/-- What a task reads, the table holds. -/
theorem reads_held (h : Run (MeteredStep svc) meteredIdle ls p) (o : Op) (now : DateTime) :
    Reads (Held svc ls) (.inl o) (o.exec now p.shared.1).1 := by
  cases o with
  | get id =>
    intro n hget
    obtain ⟨row, hrow, hdec⟩ := Registry.get_some hget
    have hid : n.id = id := (Decodes.of_ok hdec).id.trans (Table.key_of_find? hrow)
    exact held_now h (hid ▸ hrow) (.of_ok hdec)
  | list =>
    intro ns hlist n hn
    obtain ⟨row, hrow, hdec⟩ := Registry.list_mem hlist hn
    exact held_now h hrow (.of_ok hdec)
  | _ => trivial

theorem reads_fault {H : Node → Prop} {o : Op} {a : Ans o} (ha : o.fault = some a) : Reads H (.inl o) a := by
  cases o with
  | get id => cases ha; rintro _ ⟨⟩
  | list => cases ha; rintro _ ⟨⟩
  | _ => trivial

theorem MeteredTask.Honest.mono {H H' : Node → Prop} (hH : ∀ n, H n → H' n) {t : MeteredTask} (h : t.Honest H) :
    t.Honest H' :=
  fun H'' hH' => h H'' fun n hn => hH' n (hH n hn)

/-- The recorder shows only gauges of nodes in `H`. -/
def Recorder.Within (H : Node → Prop) (r : Recorder) : Prop :=
  ∀ g ∈ r, ∀ id γ v, g id γ = some v → ∃ n, H n ∧ n.id = id ∧ v = n.reading γ

theorem Recorder.Within.mono {H H' : Node → Prop} (hH : ∀ n, H n → H' n) {r : Recorder}
    (h : Recorder.Within H r) : Recorder.Within H' r := by
  intro g hg id γ v hv
  obtain ⟨n, hn, hreading⟩ := h g hg id γ v hv
  exact ⟨n, hH n hn, hreading⟩

theorem Recorder.Within.set {H : Node → Prop} {r : Recorder} (h : Recorder.Within H r) {x : Setting}
    (hx : Records H (.inr x)) : Recorder.Within H (Recorder.set x r) := by
  intro g' hg' id γ v hv
  obtain ⟨g, hg, rfl⟩ := Option.map_eq_some_iff.mp hg'
  have hold : g id γ = some v → ∃ n, H n ∧ n.id = id ∧ v = n.reading γ := h g hg id γ v
  by_cases hid : id = x.nodeId
  · subst hid
    by_cases hγ : γ = x.gauge
    · subst hγ
      obtain ⟨n, hn, hnid, hvalue⟩ := hx
      simp only [Setting.apply, Function.update_self, Option.some.injEq] at hv
      exact ⟨n, hn, hnid, hv ▸ hvalue⟩
    · simp only [Setting.apply, Function.update_self, Function.update_of_ne hγ] at hv
      exact hold hv
  · simp only [Setting.apply, Function.update_of_ne hid] at hv
    exact hold hv

theorem Recorder.Within.init {H : Node → Prop} {r : Recorder} (h : Recorder.Within H r) :
    Recorder.Within H (Recorder.init r) := by
  cases r with
  | none =>
    intro g hg id γ v hv
    cases hg
    cases hv
  | some g => exact h

/-- The tasks are honest, and what is shown has been held. -/
structure Shown (svc : ControlPlaneService) (ls : List MeteredLabel) (p : Pool Metered.State MeteredTask) : Prop where
  honest : ∀ t ∈ p.tasks, t.Honest (Held svc ls)
  shown : Recorder.Within (Held svc ls) p.shared.2
  installed : p.shared.2 = none ↔ .metrics ∉ ls

theorem Shown.step {l : MeteredLabel} {p' : Pool Metered.State MeteredTask}
    (hrun : Run (MeteredStep svc) meteredIdle ls p) (h : Shown svc ls p) (hst : MeteredStep svc p l p') :
    Shown svc (ls ++ [l]) p' := by
  have hmono (n : Node) (hn : Held svc ls n) : Held svc (ls ++ [l]) n := hn.append l
  have hshown : Recorder.Within (Held svc (ls ++ [l])) p.shared.2 := h.shown.mono hmono
  cases hst with
  | metrics =>
    refine ⟨fun t ht => (h.honest t ht).mono hmono, hshown.init, ?_⟩
    simp [Recorder.init]
  | @serve _ l hst =>
    have hinstalled : p.shared.2 = none ↔ .metrics ∉ ls ++ [.serve l] := by rw [h.installed]; simp
    -- the other tasks are as honest as before
    have hothers {t' : MeteredTask} {i : Nat} (ht' : t'.Honest (Held svc (ls ++ [.serve l]))) :
        ∀ u ∈ p.tasks.set i t', u.Honest (Held svc (ls ++ [.serve l])) := by
      intro u hu
      rcases Pool.eq_or_other_of_mem_set hu with rfl | ⟨j, -, hj⟩
      · exact ht'
      · exact (h.honest u (List.mem_of_getElem? hj)).mono hmono
    cases hst with
    | @start t hfresh =>
      refine ⟨fun u hu => ?_, hshown, hinstalled⟩
      rcases List.mem_append.mp hu with hu | hu
      · exact (h.honest u hu).mono hmono
      · rw [List.mem_singleton.mp hu]
        intro H' _
        rw [show t.rest = _ from hfresh]
        exact t.call.respects_metered svc t.began
    | @act i t t' a st' hi hact =>
      have ht := (h.honest t (List.mem_of_getElem? hi)).mono hmono
      obtain ⟨st, tasks⟩ := p
      cases hact with
      | @perform s r _ o k now hrest =>
        refine ⟨hothers fun H' hH' => ?_, hshown, hinstalled⟩
        have hnext := ht H' hH'
        rw [hrest] at hnext
        exact hnext.2 _ ((reads_held hrun o now).mono fun n hn => hH' n (hmono n hn))
      | @fault _ _ o k a hrest ha =>
        refine ⟨hothers fun H' hH' => ?_, hshown, hinstalled⟩
        have hnext := ht H' hH'
        rw [hrest] at hnext
        exact hnext.2 a (reads_fault ha)
      | @set s r _ x k hrest =>
        refine ⟨hothers fun H' hH' => ?_, ?_, ?_⟩
        · have hnext := ht H' hH'
          rw [hrest] at hnext
          exact hnext.2 () trivial
        · have hnow := ht _ fun _ hn => hn
          rw [hrest] at hnow
          exact hshown.set hnow.1
        · exact Option.map_eq_none_iff.trans hinstalled

theorem shown_run (h : Run (MeteredStep svc) meteredIdle ls p) : Shown svc ls p := by
  refine h.snoc_induction (P := Shown svc) ⟨?_, ?_, ?_⟩ fun _ _ _ _ hrun hs hst => hs.step hrun hst
  · intro t ht
    cases ht
  · intro g hg
    cases hg
  · simp [meteredIdle]

end Held

theorem selectable_of_health {n : Node} (h : 0 < n.reading .health) : n.state.selectable = true := by
  have hpos : 0 < healthGaugeValue n.state := h
  cases hstate : n.state with
  | healthy => rfl
  | degraded => rfl
  | _ =>
    rw [hstate] at hpos
    exact absurd hpos (lt_irrefl 0)

/-- **What is shown was once stored.** Whatever calls are in flight, and however their statements and settings are
interleaved with requests of the metrics, the service runs as it does without gauges; there is a recorder once the
metrics have been requested; each gauge of a node is that of its row at some time; and a node is only ever shown as
healthy, or as degraded, after a heartbeat of it has been stored. -/
theorem gauges_shown {svc : ControlPlaneService} {ls : List MeteredLabel} {p : Pool Metered.State MeteredTask}
    (hrun : Run (MeteredStep svc) meteredIdle ls p) :
    Run (ServiceStep svc) idle (ls.filterMap silentLabel) (silentPool p) ∧
      (p.shared.2 = none ↔ .metrics ∉ ls) ∧
      ∀ g ∈ p.shared.2, ∀ id γ v, g id γ = some v →
        ∃ ls₁ ls₂ q row n, ls = ls₁ ++ ls₂ ∧ Run (MeteredStep svc) meteredIdle ls₁ q ∧
          q.shared.1.registry.find? id = some row ∧ Decodes row n ∧ v = n.reading γ ∧
            (γ = .health → 0 < v → row.lastHeartbeat ≠ none) := by
  have hshown := shown_run hrun
  refine ⟨run_of_metered hrun, hshown.installed, fun g hg id γ v hv => ?_⟩
  obtain ⟨n, ⟨ls₁, ls₂, q, row, hls, hq, hrow, hdec⟩, rfl, rfl⟩ := hshown.shown g hg id γ v hv
  refine ⟨ls₁, ls₂, q, row, n, hls, hq, hrow, hdec, rfl, ?_⟩
  rintro rfl hhealth
  have hsel : row.status.selectable = true := by
    rw [← hdec.state]
    exact selectable_of_health hhealth
  exact Option.isSome_iff_ne_none.mp ((guarded_of_run (run_of_metered hq)).1 n.id row hrow hsel)

/-- Let the task with index `i` take its next step. -/
def meteredAt (now : DateTime) (i : Nat) (p : Pool Metered.State MeteredTask) :
    Option (MeteredAct × Pool Metered.State MeteredTask) :=
  match p.tasks[i]? with
  | some ⟨c, began, .op (.inl o) k⟩ =>
    some (.repo (.perform o now), ⟨((o.exec now p.shared.1).2, p.shared.2),
      p.tasks.set i ⟨c, began, k (o.exec now p.shared.1).1⟩⟩)
  | some ⟨c, began, .op (.inr x) k⟩ =>
    some (.set x, ⟨(p.shared.1, Recorder.set x p.shared.2), p.tasks.set i ⟨c, began, k ()⟩⟩)
  | _ => none

/-- A schedule of the service with its metrics. -/
inductive MeteredTurn
  | serve (turn : Turn)
  | metrics

def MeteredTurn.run (svc : ControlPlaneService) (p : Pool Metered.State MeteredTask) :
    MeteredTurn → Pool Metered.State MeteredTask
  | .serve (.arrive now c) => ⟨p.shared, p.tasks ++ [⟨c, now, c.metered svc now⟩]⟩
  | .serve (.act now i) => ((meteredAt now i p).map Prod.snd).getD p
  | .metrics => ⟨(p.shared.1, Recorder.init p.shared.2), p.tasks⟩

def runMeteredTurns (svc : ControlPlaneService) (turns : List MeteredTurn) (p : Pool Metered.State MeteredTask) :
    Pool Metered.State MeteredTask :=
  turns.foldl (MeteredTurn.run svc) p

theorem step_of_meteredAt {svc : ControlPlaneService} {now : DateTime} {i : Nat}
    {p p' : Pool Metered.State MeteredTask} {a : MeteredAct} (h : meteredAt now i p = some (a, p')) :
    MeteredStep svc p (.serve (.act i a)) p' := by
  unfold meteredAt at h
  split at h
  · next hi =>
    cases h
    exact .serve (.act hi (.perform now rfl))
  · next hi =>
    cases h
    exact .serve (.act hi (.set rfl))
  · cases h

theorem run_of_meteredTurns (svc : ControlPlaneService) (turns : List MeteredTurn)
    (p : Pool Metered.State MeteredTask) : ∃ ls, Run (MeteredStep svc) p ls (runMeteredTurns svc turns p) := by
  induction turns generalizing p with
  | nil => exact ⟨[], .nil p⟩
  | cons turn turns ih =>
    obtain ⟨ls, hrun⟩ := ih (turn.run svc p)
    cases turn with
    | metrics => exact ⟨_, .cons .metrics hrun⟩
    | serve turn =>
      cases turn with
      | arrive now c =>
        have hfresh : MeteredTask.Fresh svc ⟨c, now, c.metered svc now⟩ := rfl
        exact ⟨_, .cons (.serve (.start hfresh)) hrun⟩
      | act now i =>
        rw [runMeteredTurns, List.foldl_cons, ← runMeteredTurns]
        rw [MeteredTurn.run] at hrun ⊢
        cases hat : meteredAt now i p with
        | none =>
          rw [hat] at hrun
          exact ⟨ls, hrun⟩
        | some ap =>
          rw [hat] at hrun
          exact ⟨_, .cons (step_of_meteredAt hat) hrun⟩

/-- `n` steps of the task with index `i`. -/
def acts (now : DateTime) (i n : Nat) : List MeteredTurn := List.replicate n (.serve (.act now i))

/-- A call reads a healthy node and sets its health; a heartbeat is served that leaves the node degraded; and the call
sets the other two gauges as it has read them. -/
def tornTurns : List MeteredTurn :=
  .metrics :: .serve (.arrive (.ofSecond 0) (.register ⟨"n1", "10.0.0.1:1080", 10, 1000⟩)) :: acts (.ofSecond 0) 0 5 ++
    .serve (.arrive (.ofSecond 1) (.heartbeat ⟨"n1", 5, 0, 0, 20, 1000⟩)) :: acts (.ofSecond 1) 1 7 ++
    .serve (.arrive (.ofSecond 2) (.get "n1")) :: acts (.ofSecond 2) 2 2 ++
    .serve (.arrive (.ofSecond 2) (.heartbeat ⟨"n1", 10, 0, 0, 50, 1000⟩)) :: acts (.ofSecond 2) 3 7 ++
    acts (.ofSecond 3) 2 2

/-- A node is shown as degraded with the latency that it had when it was healthy. -/
theorem gauges_shown_torn : ∃ ls p g, ∃ q : Pool Metered.State MeteredTask, ∃ row : Row,
    Run (MeteredStep (.new .default)) meteredIdle ls p ∧
      Run (ServiceStep (.new .default)) idle (ls.filterMap silentLabel) (silentPool p) ∧ p.shared.2 = some g ∧
      g "n1" .health = some (1 / 2) ∧ g "n1" .latencyMs = some 20 ∧ g "n1" .bandwidthUtilization = some (1 / 2) ∧
      (p.shared.1.registry.find? "n1").map (fun row => (row.status, row.latencyMs)) =
        some (.degraded, .integer 50) ∧
      q.shared.1.registry.find? "n1" = some row ∧ row.lastHeartbeat ≠ none := by
  obtain ⟨ls, hrun⟩ := run_of_meteredTurns (.new .default) tornTurns meteredIdle
  obtain ⟨hservice, -, hstored⟩ := gauges_shown hrun
  have hsome : (runMeteredTurns (.new .default) tornTurns meteredIdle).shared.2.isSome = true := by decide +kernel
  obtain ⟨g, hg⟩ := Option.isSome_iff_exists.mp hsome
  have hgauge {γ : Gauge} {v : ℚ}
      (h : (runMeteredTurns (.new .default) tornTurns meteredIdle).shared.2.bind (· "n1" γ) = some v) :
      g "n1" γ = some v := by
    rwa [hg] at h
  have hhealth : g "n1" .health = some (1 / 2) := hgauge (by decide +kernel)
  obtain ⟨-, -, q, row, -, -, -, hrow, -, -, hheartbeat⟩ := hstored g hg "n1" .health _ hhealth
  exact ⟨ls, _, g, q, row, hrun, hservice, hg, hhealth, hgauge (by decide +kernel), hgauge (by decide +kernel),
    by decide +kernel, hrow, hheartbeat rfl (by norm_num)⟩

end RustProxy.ControlPlane
