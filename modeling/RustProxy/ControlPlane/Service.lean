import RustProxy.Lib.Prog
import RustProxy.ControlPlane.Registry
import RustProxy.ControlPlane.Routing
import RustProxy.ControlPlane.Bandwidth

/-!
# The control plane service

The calls of `ControlPlaneService` (`service.rs`) as programs over the repository calls they await, each of which is
one atomic operation on the shared `Store`. The same programs are run one after the other (`Call.run`) and
interleaved (`Interleaving.lean`).

`Op.find?_exec` says once what every operation does to every row: it changes at most the row it `writes`, by
`rowAfter`.
-/

namespace RustProxy.ControlPlane

open Lib

/-! ## Operations on the store -/

/-- The registry and the lazily created allocators. -/
structure Store where
  registry : Registry
  allocators : String → Option BandwidthAllocator

def Store.empty : Store := ⟨Table.empty _, fun _ => none⟩

/-- A reservation: the node whose counter it holds, and how much of it. -/
structure BandwidthGuard where
  nodeId : String
  rate : UInt64
  deriving DecidableEq

/-- The calls of `NodeRepository`, and the reservation on a node's allocator. -/
inductive Op
  | register (req : RegisterRequest)
  | get (id : String)
  | list
  | applyHeartbeat (hb : Heartbeat)
  | setDraining (id : String)
  | markOffline (id : String)
  | setState (id : String) (state : NodeState)
  | adjustActive (id : String) (delta : Int64)
  | accumulateBytes (id : String) (up down : UInt64)
  /-- `allocator(node_id, limit)` followed by `try_reserve(rate)` on it. -/
  | reserve (nodeId : String) (limit rate : UInt64)
  deriving DecidableEq

@[reducible] def Ans : Op → Type
  | .get _ => Except Error (Option Node)
  | .list => Except Error (List Node)
  | .reserve .. => Option BandwidthGuard
  | _ => Except Error Unit

/-- `entry(node_id).or_insert_with(|| BandwidthAllocator::new(limit))`. -/
def Store.allocator (s : Store) (nodeId : String) (limit : UInt64) : BandwidthAllocator :=
  (s.allocators nodeId).getD (.new limit)

/-- Store an allocator under its node id. -/
def Store.setAllocator (s : Store) (nodeId : String) (a : BandwidthAllocator) : Store :=
  { s with allocators := Function.update s.allocators nodeId (some a) }

/-- An operation at the clock value `now`. -/
def Op.exec (now : DateTime) : (o : Op) → Store → Ans o × Store
  | .register req, s => (.ok (), { s with registry := Registry.register req now s.registry })
  | .get id, s => (Registry.get id s.registry, s)
  | .list, s => (Registry.list s.registry, s)
  | .applyHeartbeat hb, s => (.ok (), { s with registry := Registry.applyHeartbeat hb now s.registry })
  | .setDraining id, s => (.ok (), { s with registry := Registry.setDraining id now s.registry })
  | .markOffline id, s => (.ok (), { s with registry := Registry.markOffline id now s.registry })
  | .setState id state, s => (.ok (), { s with registry := Registry.setState id state now s.registry })
  | .adjustActive id delta, s => (.ok (), { s with registry := Registry.adjustActive id delta now s.registry })
  | .accumulateBytes id up down, s =>
    (.ok (), { s with registry := Registry.accumulateBytes id up down now s.registry })
  | .reserve nodeId limit rate, s =>
    let a := s.allocator nodeId limit
    match a.tryReserve rate with
    | none => (none, s.setAllocator nodeId a)
    | some a' => (some ⟨nodeId, rate⟩, s.setAllocator nodeId a')

/-- The id whose row an operation writes. -/
def Op.writes : Op → Option String
  | .register req => some req.nodeId
  | .applyHeartbeat hb => some hb.nodeId
  | .setDraining id | .markOffline id | .setState id _ | .adjustActive id _ | .accumulateBytes id _ _ => some id
  | .get _ | .list | .reserve .. => none

/-- What an operation makes of the row it writes. -/
def Op.rowAfter (now : DateTime) : Op → Option Row → Option Row
  | .register req, row => some (Registry.upsertRow req now row)
  | .applyHeartbeat hb, row => row.map (Registry.heartbeatRow hb now)
  | .setDraining _, row => row.map fun r => { r with status := .draining, updatedAt := now.timestamp }
  | .markOffline _, row => row.map fun r => { r with status := .offline, updatedAt := now.timestamp }
  | .setState _ state, row => row.map fun r => { r with status := state, updatedAt := now.timestamp }
  | .adjustActive _ delta, row =>
    row.map fun r =>
      { r with activeConnections := (r.activeConnections.add delta).max0, updatedAt := now.timestamp }
  | .accumulateBytes _ up down, row =>
    row.map fun r =>
      { r with
        bytesUp := r.bytesUp.add up.toInt64
        bytesDown := r.bytesDown.add down.toInt64
        updatedAt := now.timestamp }
  | .get _, row | .list, row | .reserve .., row => row

/-- The effect of an `UPDATE … WHERE id = ?` on any row. -/
theorem find?_update (t : Registry) (id id' : String) {f : Row → Row} (hf : ∀ r, (f r).id = r.id) :
    (t.modify id f).find? id' = if some id = some id' then (t.find? id').map f else t.find? id' := by
  by_cases h : id = id'
  · subst h; rw [if_pos rfl]; exact Table.find?_modify_self t id hf
  · rw [if_neg (by simpa using h)]; exact Table.find?_modify_ne t hf h

theorem upsertRow_id (t : Registry) (req : RegisterRequest) (now : DateTime) :
    (Registry.upsertRow req now (t.find? req.nodeId)).id = req.nodeId := by
  cases h : t.find? req.nodeId with
  | none => rfl
  | some old =>
    have hk : old.id = req.nodeId := Table.key_of_find? h
    exact hk

/-- The effect of an upsert on any row. -/
theorem find?_register (t : Registry) (req : RegisterRequest) (now : DateTime) (id : String) :
    (Registry.register req now t).find? id =
      if some req.nodeId = some id then some (Registry.upsertRow req now (t.find? id)) else t.find? id := by
  have hk := upsertRow_id t req now
  by_cases h : req.nodeId = id
  · subst h
    rw [if_pos rfl]
    have hput := Table.find?_put_self t (Registry.upsertRow req now (t.find? req.nodeId))
    rw [hk] at hput
    exact hput
  · rw [if_neg (by simpa using h)]
    exact Table.find?_put_ne t (by rw [hk]; exact h)

theorem find?_register_empty (req : RegisterRequest) (now : DateTime) (id : String) :
    (Registry.register req now Store.empty.registry).find? id =
      if some req.nodeId = some id then some (Registry.freshRow req now) else none := by
  have hempty : Store.empty.registry.find? id = none := Table.find?_empty id
  rw [find?_register, hempty]
  rfl

/-- **What one operation does to the registry**: it changes at most the row it writes. -/
theorem Op.find?_exec (o : Op) (now : DateTime) (s : Store) (id : String) :
    (o.exec now s).2.registry.find? id =
      if o.writes = some id then o.rowAfter now (s.registry.find? id) else s.registry.find? id := by
  cases o with
  | register req => exact find?_register s.registry req now id
  | get id' => rfl
  | list => rfl
  | applyHeartbeat hb => exact find?_update s.registry hb.nodeId id fun _ => rfl
  | setDraining id' => exact find?_update s.registry id' id fun _ => rfl
  | markOffline id' => exact find?_update s.registry id' id fun _ => rfl
  | setState id' state => exact find?_update s.registry id' id fun _ => rfl
  | adjustActive id' delta => exact find?_update s.registry id' id fun _ => rfl
  | accumulateBytes id' up down => exact find?_update s.registry id' id fun _ => rfl
  | reserve nodeId limit rate =>
    simp only [exec]
    cases (s.allocator nodeId limit).tryReserve rate <;> rfl

theorem Op.find?_exec_of_ne {o : Op} {id : String} (h : o.writes ≠ some id) (now : DateTime) (s : Store) :
    (o.exec now s).2.registry.find? id = s.registry.find? id := by
  rw [find?_exec, if_neg h]

theorem Op.find?_exec_self {o : Op} {id : String} (h : o.writes = some id) (now : DateTime) (s : Store) :
    (o.exec now s).2.registry.find? id = o.rowAfter now (s.registry.find? id) := by
  rw [find?_exec, if_pos h]

/-- No operation removes a row. -/
theorem Op.isSome_find?_exec (o : Op) (now : DateTime) {s : Store} {id : String}
    (h : (s.registry.find? id).isSome = true) : ((o.exec now s).2.registry.find? id).isSome = true := by
  obtain ⟨row, hrow⟩ := Option.isSome_iff_exists.mp h
  rw [Op.find?_exec, hrow]
  split
  · cases o <;> rfl
  · rfl

/-! ## The status and the recorded heartbeat of a node -/

def Store.statusOf (s : Store) (id : String) : Option NodeState := (s.registry.find? id).map Row.status

/-- `id` is registered with a state that accepts new work. -/
def Store.Selectable (s : Store) (id : String) : Prop := ∃ state, s.statusOf id = some state ∧ state.selectable = true

/-- The last heartbeat of a node, as a read returns it. -/
def Store.recordedHeartbeat (s : Store) (id : String) : Option DateTime :=
  (s.registry.find? id).bind fun row => optEpoch row.lastHeartbeat

/-- What an operation makes of the status in the row it writes. -/
def Op.statusAfter : Op → Option NodeState → Option NodeState
  | .register _, none => some .starting
  | .register _, some state => some (if state = .offline ∨ state = .starting then .starting else state)
  | .setDraining _, state => state.map fun _ => .draining
  | .markOffline _, state => state.map fun _ => .offline
  | .setState _ new, state => state.map fun _ => new
  | _, state => state

theorem Op.statusOf_exec (o : Op) (now : DateTime) (s : Store) (id : String) :
    (o.exec now s).2.statusOf id = if o.writes = some id then o.statusAfter (s.statusOf id) else s.statusOf id := by
  rw [Store.statusOf, Op.find?_exec]
  split
  · rw [Store.statusOf]
    cases s.registry.find? id <;> cases o <;> rfl
  · rfl

/-- Only an applied heartbeat changes the recorded heartbeat of a node, to the whole second it is applied in. -/
theorem Op.recordedHeartbeat_exec (o : Op) (now : DateTime) (s : Store) (id : String) :
    (o.exec now s).2.recordedHeartbeat id = s.recordedHeartbeat id ∨
      ∃ hb, o = .applyHeartbeat hb ∧ hb.nodeId = id ∧ (o.exec now s).2.recordedHeartbeat id = some now.trunc := by
  by_cases hw : o.writes = some id
  · have hrow := Op.find?_exec_self hw now s
    simp only [Store.recordedHeartbeat, hrow]
    cases hf : s.registry.find? id with
    | none => left; cases o <;> rfl
    | some row =>
      cases o with
      | applyHeartbeat hb =>
        refine .inr ⟨hb, rfl, Option.some.inj hw, ?_⟩
        exact DateTime.fromTimestamp_timestamp now
      | _ => exact .inl rfl
  · left
    simp only [Store.recordedHeartbeat, Op.find?_exec_of_ne hw]

/-! ## The service calls -/

abbrev ServiceM := Prog Op Ans Error

namespace Repo

def register (req : RegisterRequest) : ServiceM Unit := .op (.register req) Prog.ofExcept

def get (id : String) : ServiceM (Option Node) := .op (.get id) Prog.ofExcept

def list : ServiceM (List Node) := .op .list Prog.ofExcept

def applyHeartbeat (hb : Heartbeat) : ServiceM Unit := .op (.applyHeartbeat hb) Prog.ofExcept

def setDraining (id : String) : ServiceM Unit := .op (.setDraining id) Prog.ofExcept

def markOffline (id : String) : ServiceM Unit := .op (.markOffline id) Prog.ofExcept

def setState (id : String) (state : NodeState) : ServiceM Unit := .op (.setState id state) Prog.ofExcept

def adjustActive (id : String) (delta : Int64) : ServiceM Unit := .op (.adjustActive id delta) Prog.ofExcept

end Repo

/-- `BandwidthAllocator::try_reserve` on the allocator of a node. -/
def tryReserve (nodeId : String) (limit rate : UInt64) : ServiceM (Option BandwidthGuard) :=
  .op (.reserve nodeId limit rate) .ret

structure SelectedNode where
  node : Node
  guard : BandwidthGuard
  deriving DecidableEq

structure ControlPlaneService where
  policy : HealthPolicy
  weights : ScoreWeights

namespace ControlPlaneService

def new (policy : HealthPolicy) : ControlPlaneService := ⟨policy, .default⟩

variable (self : ControlPlaneService)

def register (req : RegisterRequest) : ServiceM Node := do
  Repo.register req
  match ← Repo.get req.nodeId with
  | some node => pure node
  | none => .fail .nodeDisappeared

/-- What a heartbeat does once it has read the row. -/
def heartbeatFound (hb : Heartbeat) (state : NodeState) (max : UInt32) : ServiceM Unit := do
  Repo.applyHeartbeat hb
  let next := reclassifyAfterHeartbeat state hb.activeConnections max self.policy
  if next ≠ state then
    Repo.setState hb.nodeId next
  let _ ← Repo.get hb.nodeId

/-- Unknown nodes are ignored. -/
def heartbeat (hb : Heartbeat) : ServiceM Unit := do
  match ← Repo.get hb.nodeId with
  | some n => self.heartbeatFound hb n.state n.maxConnections
  | none => pure ()

def list : ServiceM (List Node) := Repo.list

def get (id : String) : ServiceM (Option Node) := Repo.get id

def drain (id : String) : ServiceM (Option Node) := do
  Repo.setDraining id
  Repo.get id

def select : ServiceM (Option Node) := do
  let nodes ← Repo.list
  let eligible := nodes.filter Node.isSelectable
  pure (HealthAwareSelector.select self.weights eligible)

/-- The slice of a node's bandwidth that one connection reserves. -/
def share (node : Node) : UInt64 :=
  let slots := (max node.maxConnections 1).toUInt64
  max (node.bandwidthLimit / slots) 1

/-- The candidates in order, until one grants its share. -/
def reserveLoop : List Node → ServiceM (Option SelectedNode)
  | [] => pure none
  | node :: nodes => do
    match ← tryReserve node.id node.bandwidthLimit (share node) with
    | some guard => pure (some ⟨node, guard⟩)
    | none => reserveLoop nodes

def selectWithBandwidth : ServiceM (Option SelectedNode) := do
  let nodes ← Repo.list
  let eligible := nodes.filter Node.isSelectable
  reserveLoop (sortByScore self.weights eligible)

def adjustActive (nodeId : String) (delta : Int64) : ServiceM Unit := Repo.adjustActive nodeId delta

/-- Whether the sweep marks a listed node. -/
def due (now : DateTime) (node : Node) : Bool := node.state.live && isStale node.lastHeartbeat now self.policy

/-- The sweep over the listed nodes, counting those marked. -/
def sweepLoop (now : DateTime) : List Node → Nat → ServiceM Nat
  | [], marked => pure marked
  | node :: nodes, marked =>
    if self.due now node then do
      Repo.markOffline node.id
      sweepLoop now nodes (marked + 1)
    else sweepLoop now nodes marked

/-- `now` is read before the table is listed. -/
def markStaleOffline (now : DateTime) : ServiceM Nat := do
  let nodes ← Repo.list
  self.sweepLoop now nodes 0

end ControlPlaneService

/-! ## Calls and their answers -/

inductive Call
  | register (req : RegisterRequest)
  | heartbeat (hb : Heartbeat)
  | list
  | get (id : String)
  | drain (id : String)
  | select
  | selectWithBandwidth
  | adjustActive (id : String) (delta : Int64)
  | markStaleOffline
  deriving DecidableEq

inductive Outcome
  | done
  | node (n : Node)
  | found (n : Option Node)
  | nodes (ns : List Node)
  | selected (n : Option SelectedNode)
  | marked (count : Nat)
  deriving DecidableEq

/-- The program of a call that starts at the clock value `now`. -/
def Call.prog (svc : ControlPlaneService) (now : DateTime) : Call → ServiceM Outcome
  | .register req => do let n ← ControlPlaneService.register req; pure (.node n)
  | .heartbeat hb => do svc.heartbeat hb; pure .done
  | .list => do let ns ← ControlPlaneService.list; pure (.nodes ns)
  | .get id => do let n ← ControlPlaneService.get id; pure (.found n)
  | .drain id => do let n ← ControlPlaneService.drain id; pure (.found n)
  | .select => do let n ← svc.select; pure (.found n)
  | .selectWithBandwidth => do let n ← svc.selectWithBandwidth; pure (.selected n)
  | .adjustActive id delta => do ControlPlaneService.adjustActive id delta; pure .done
  | .markStaleOffline => do let k ← svc.markStaleOffline now; pure (.marked k)

/-- A call executed alone at the clock value `now`. -/
def Call.run (svc : ControlPlaneService) (now : DateTime) (c : Call) (s : Store) : Except Error Outcome × Store :=
  (c.prog svc now).run (Op.exec now) s

/-- The operations a call can perform at all. -/
def Call.mayPerform : Call → Op → Prop
  | .register req, o => o = .register req ∨ o = .get req.nodeId
  | .heartbeat hb, o => o = .get hb.nodeId ∨ o = .applyHeartbeat hb ∨ ∃ state, o = .setState hb.nodeId state
  | .list, o => o = .list
  | .get id, o => o = .get id
  | .drain id, o => o = .setDraining id ∨ o = .get id
  | .select, o => o = .list
  | .selectWithBandwidth, o => o = .list ∨ ∃ nodeId limit rate, o = .reserve nodeId limit rate
  | .adjustActive id delta, o => o = .adjustActive id delta
  | .markStaleOffline, o => o = .list ∨ ∃ id, o = .markOffline id

/-- What writes is performed by one kind of call only. -/
theorem Call.of_mayPerform {c : Call} {o : Op} (h : c.mayPerform o) :
    match o with
    | .register req => c = .register req
    | .applyHeartbeat hb => c = .heartbeat hb
    | .setDraining id => c = .drain id
    | .markOffline _ => c = .markStaleOffline
    | .setState id _ => ∃ hb, c = .heartbeat hb ∧ hb.nodeId = id
    | .adjustActive id delta => c = .adjustActive id delta
    | .accumulateBytes .. => False
    | .reserve .. => c = .selectWithBandwidth
    | .get _ | .list => True := by
  cases c with
  | register req => rcases h with rfl | rfl <;> trivial
  | heartbeat hb =>
    rcases h with rfl | rfl | ⟨state, rfl⟩
    · trivial
    · rfl
    · exact ⟨hb, rfl, rfl⟩
  | list => cases h; trivial
  | get id => cases h; trivial
  | drain id => rcases h with rfl | rfl <;> trivial
  | select => cases h; trivial
  | selectWithBandwidth => rcases h with rfl | ⟨_, _, _, rfl⟩ <;> trivial
  | adjustActive id delta => cases h; rfl
  | markStaleOffline => rcases h with rfl | ⟨_, rfl⟩ <;> trivial

section Performs

variable (svc : ControlPlaneService) {G : Op → Prop} {R : (o : Op) → Ans o → Prop}

open ControlPlaneService in
theorem respects_reserveLoop (hG : ∀ nodeId limit rate, G (.reserve nodeId limit rate)) :
    ∀ nodes : List Node, Prog.Respects G R (reserveLoop nodes)
  | [] => trivial
  | node :: nodes => ⟨hG _ _ _, fun a _ => by
      cases a with
      | none => exact respects_reserveLoop hG nodes
      | some g => trivial⟩

theorem respects_sweepLoop (hG : ∀ id, G (.markOffline id)) (now : DateTime) :
    ∀ (nodes : List Node) (marked : Nat), Prog.Respects G R (svc.sweepLoop now nodes marked)
  | [], _ => trivial
  | node :: nodes, marked => by
    unfold ControlPlaneService.sweepLoop
    split
    · exact Prog.Respects.bind (Prog.respects_opExcept (hG _)) fun _ => respects_sweepLoop hG now nodes _
    · exact respects_sweepLoop hG now nodes marked

theorem respects_heartbeatFound (hb : Heartbeat) (state : NodeState) (max : UInt32) (happly : G (.applyHeartbeat hb))
    (hset : ∀ state, G (.setState hb.nodeId state)) (hget : G (.get hb.nodeId)) :
    Prog.Respects G R (svc.heartbeatFound hb state max) := by
  refine Prog.Respects.bind (Prog.respects_opExcept happly) fun _ => ?_
  dsimp only
  split
  · exact Prog.Respects.bind (Prog.respects_opExcept (hset _)) fun _ =>
      Prog.Respects.bind (Prog.respects_opExcept hget) fun _ => trivial
  · exact Prog.Respects.bind (Prog.respects_opExcept hget) fun _ => trivial

theorem respects_register {req : RegisterRequest} (hregister : G (.register req)) (hget : G (.get req.nodeId)) :
    Prog.Respects G R (ControlPlaneService.register req) := by
  refine .bind (Prog.respects_opExcept hregister) fun _ => .bind (Prog.respects_opExcept hget) fun n => ?_
  cases n <;> trivial

theorem respects_heartbeat {hb : Heartbeat} (happly : G (.applyHeartbeat hb))
    (hset : ∀ state, G (.setState hb.nodeId state)) (hget : G (.get hb.nodeId)) :
    Prog.Respects G R (svc.heartbeat hb) := by
  refine .bind (Prog.respects_opExcept hget) fun n => ?_
  cases n with
  | none => trivial
  | some n => exact respects_heartbeatFound svc hb _ _ happly hset hget

theorem respects_drain {id : String} (hdrain : G (.setDraining id)) (hget : G (.get id)) :
    Prog.Respects G R (ControlPlaneService.drain id) :=
  .bind (Prog.respects_opExcept hdrain) fun _ => Prog.respects_opExcept hget

theorem respects_markStaleOffline (hlist : G .list) (hmark : ∀ id, G (.markOffline id)) (now : DateTime) :
    Prog.Respects G R (svc.markStaleOffline now) :=
  .bind (Prog.respects_opExcept hlist) fun _ => respects_sweepLoop svc hmark now _ _

/-- Each call performs only its own operations. -/
theorem Call.respects_mayPerform (now : DateTime) (c : Call) :
    Prog.Respects c.mayPerform (fun _ _ => True) (c.prog svc now) := by
  cases c with
  | register req => exact Prog.Respects.bind (respects_register (.inl rfl) (.inr rfl)) fun _ => trivial
  | heartbeat hb =>
    exact Prog.Respects.bind (respects_heartbeat svc (.inr (.inl rfl)) (fun state => .inr (.inr ⟨state, rfl⟩))
      (.inl rfl)) fun _ => trivial
  | list => exact Prog.Respects.bind (Prog.respects_opExcept rfl) fun _ => trivial
  | get id => exact Prog.Respects.bind (Prog.respects_opExcept rfl) fun _ => trivial
  | drain id => exact Prog.Respects.bind (respects_drain (.inl rfl) (.inr rfl)) fun _ => trivial
  | select =>
    exact Prog.Respects.bind (Prog.Respects.bind (Prog.respects_opExcept rfl) fun _ => trivial) fun _ => trivial
  | selectWithBandwidth =>
    exact Prog.Respects.bind (Prog.Respects.bind (Prog.respects_opExcept (.inl rfl)) fun _ =>
      respects_reserveLoop (fun _ _ _ => .inr ⟨_, _, _, rfl⟩) _) fun _ => trivial
  | adjustActive id delta => exact Prog.Respects.bind (Prog.respects_opExcept rfl) fun _ => trivial
  | markStaleOffline =>
    exact Prog.Respects.bind (respects_markStaleOffline svc (.inl rfl) (fun _ => .inr ⟨_, rfl⟩) now) fun _ => trivial

/-- An invariant kept by the operations of a call is kept by the call. -/
theorem Call.run_inv {now : DateTime} {c : Call} {I : Store → Prop}
    (hI : ∀ o s, c.mayPerform o → I s → I (o.exec now s).2) {s : Store} (hs : I s) : I (c.run svc now s).2 :=
  (c.respects_mayPerform svc now).run_inv (fun o s ho hs => ⟨trivial, hI o s ho hs⟩) hs

end Performs

/-- The store that a registration alone leaves. -/
theorem register_state (svc : ControlPlaneService) (now : DateTime) (req : RegisterRequest) (s : Store) :
    (Call.run svc now (.register req) s).2 = { s with registry := Registry.register req now s.registry } := by
  have hstate : (Call.run svc now (.register req) s).2 =
      (((Prog.ofExcept (Registry.get req.nodeId (Registry.register req now s.registry))).bind fun n =>
        match n with
        | some node => .ret node
        | none => .fail .nodeDisappeared).run (Op.exec now)
          { s with registry := Registry.register req now s.registry }).2 :=
    congrArg Prod.snd (Prog.run_bind_ret (ControlPlaneService.register req) Outcome.node s)
  rw [hstate]
  match Registry.get req.nodeId (Registry.register req now s.registry) with
  | .error e => rfl
  | .ok none => rfl
  | .ok (some n) => rfl

/-- The store that a drain alone leaves. -/
theorem drain_state (svc : ControlPlaneService) (now : DateTime) (id : String) (s : Store) :
    (Call.run svc now (.drain id) s).2 = { s with registry := Registry.setDraining id now s.registry } := by
  have hstate : (Call.run svc now (.drain id) s).2 =
      ((Prog.ofExcept (Registry.get id (Registry.setDraining id now s.registry))).run (Op.exec now)
        { s with registry := Registry.setDraining id now s.registry }).2 :=
    congrArg Prod.snd (Prog.run_bind_ret (ControlPlaneService.drain id) Outcome.found s)
  rw [hstate]
  cases Registry.get id (Registry.setDraining id now s.registry) <;> rfl

/-! ## The heartbeat -/

/-- A heartbeat reads the row first. -/
theorem heartbeat_eq (svc : ControlPlaneService) (hb : Heartbeat) :
    svc.heartbeat hb = .op (.get hb.nodeId) fun a => (Prog.ofExcept a).bind fun found =>
      found.elim (.ret ()) fun n => svc.heartbeatFound hb n.state n.maxConnections := by
  refine congrArg (Prog.op (Op.get hb.nodeId)) (funext fun a => ?_)
  refine congrArg (Prog.bind (Prog.ofExcept a)) (funext fun found => ?_)
  cases found <;> rfl

/-- The last read of a heartbeat. -/
def heartbeatTail (hb : Heartbeat) : ServiceM Outcome :=
  .op (.get hb.nodeId) fun a => (Prog.ofExcept a).bind fun _ => .ret .done

/-- The rest of a heartbeat that has read the row. -/
theorem heartbeatFound_eq (svc : ControlPlaneService) (hb : Heartbeat) (state : NodeState) (max : UInt32) :
    ((svc.heartbeatFound hb state max).bind fun _ => .ret Outcome.done) =
      .op (.applyHeartbeat hb) fun a => (Prog.ofExcept a).bind fun _ =>
        if reclassifyAfterHeartbeat state hb.activeConnections max svc.policy ≠ state then
          .op (.setState hb.nodeId (reclassifyAfterHeartbeat state hb.activeConnections max svc.policy)) fun a =>
            (Prog.ofExcept a).bind fun _ => heartbeatTail hb
        else heartbeatTail hb := by
  simp only [ControlPlaneService.heartbeatFound, Repo.applyHeartbeat, Prog.bind_eq, Prog.op_bind, Prog.bind_assoc]
  split <;> simp only [Repo.setState, Repo.get, heartbeatTail, Prog.op_bind, Prog.bind_assoc, Prog.pure_eq,
    Prog.ret_bind]

/-- What a heartbeat alone does to the store. -/
theorem heartbeat_state (svc : ControlPlaneService) (now : DateTime) (hb : Heartbeat) (s : Store) :
    (Call.run svc now (.heartbeat hb) s).2 = match Registry.get hb.nodeId s.registry with
      | .ok (some n) =>
        if reclassifyAfterHeartbeat n.state hb.activeConnections n.maxConnections svc.policy ≠ n.state then
          ((Op.setState hb.nodeId
            (reclassifyAfterHeartbeat n.state hb.activeConnections n.maxConnections svc.policy)).exec now
              ((Op.applyHeartbeat hb).exec now s).2).2
        else ((Op.applyHeartbeat hb).exec now s).2
      | _ => s := by
  have htail : ∀ s' : Store, ((heartbeatTail hb).run (Op.exec now) s').2 = s' := fun s' => by
    change (((Prog.ofExcept (Registry.get hb.nodeId s'.registry)).bind fun _ => .ret Outcome.done).run
      (Op.exec now) s').2 = s'
    cases Registry.get hb.nodeId s'.registry <;> rfl
  have hrun : Call.run svc now (.heartbeat hb) s =
      ((svc.heartbeat hb).bind fun _ => .ret Outcome.done).run (Op.exec now) s := rfl
  rw [hrun, heartbeat_eq]
  dsimp only [Prog.op_bind, Prog.run_op, Op.exec]
  match Registry.get hb.nodeId s.registry with
  | .error e => rfl
  | .ok none => rfl
  | .ok (some n) =>
    change (((svc.heartbeatFound hb n.state n.maxConnections).bind fun _ => .ret Outcome.done).run
      (Op.exec now) s).2 = _
    rw [heartbeatFound_eq]
    dsimp only [Prog.run_op, Op.exec, Prog.ofExcept_ok, Prog.ret_bind]
    split
    · dsimp only [Prog.run_op, Op.exec, Prog.ofExcept_ok, Prog.ret_bind]
      rw [htail]
    · rw [htail]

/-! ## The sweep -/

/-- The row a sweep leaves of one it marks. -/
def offlineRow (at_ : DateTime) (row : Row) : Row := { row with status := .offline, updatedAt := at_.timestamp }

/-- The ids of the due nodes of a listing. -/
def dueIds (svc : ControlPlaneService) (now : DateTime) (nodes : List Node) : List String :=
  (nodes.filter (svc.due now)).map Node.id

theorem mem_dueIds {svc : ControlPlaneService} {now : DateTime} {nodes : List Node} {id : String} :
    id ∈ dueIds svc now nodes ↔ ∃ n ∈ nodes, svc.due now n = true ∧ n.id = id := by
  simp [dueIds, and_assoc]

/-- The statements of a loop that marks the nodes with the given ids. -/
def markLoop : List String → Nat → ServiceM Nat
  | [], marked => .ret marked
  | id :: ids, marked => .op (.markOffline id) fun a => (Prog.ofExcept a).bind fun _ => markLoop ids (marked + 1)

/-- The sweep passes over the nodes that are not due. -/
theorem sweepLoop_eq (svc : ControlPlaneService) (now : DateTime) (nodes : List Node) (marked : Nat) :
    svc.sweepLoop now nodes marked = markLoop (dueIds svc now nodes) marked := by
  induction nodes generalizing marked with
  | nil => rfl
  | cons n nodes ih =>
    unfold ControlPlaneService.sweepLoop
    split
    · next hdue =>
      rw [dueIds, List.filter_cons_of_pos hdue]
      simp only [ih, Repo.markOffline, Prog.bind_eq, Prog.op_bind]
      rfl
    · next hdue => rw [dueIds, List.filter_cons_of_neg hdue, ih, dueIds]

/-- The store after the nodes with the given ids have been marked. -/
def markAll (now : DateTime) (ids : List String) (s : Store) : Store :=
  ids.foldl (fun s id => ((Op.markOffline id).exec now s).2) s

theorem find?_markAll (now : DateTime) (ids : List String) (s : Store) (id : String) :
    (markAll now ids s).registry.find? id =
      if id ∈ ids then (s.registry.find? id).map (offlineRow now) else s.registry.find? id := by
  induction ids generalizing s with
  | nil => simp [markAll]
  | cons id' ids ih =>
    have hstep : markAll now (id' :: ids) s = markAll now ids ((Op.markOffline id').exec now s).2 := rfl
    rw [hstep, ih]
    by_cases hid : id' = id
    · -- marked here; a second mark would change nothing
      rw [Op.find?_exec_self (o := .markOffline id') (congrArg some hid)]
      cases s.registry.find? id <;> simp [hid, Op.rowAfter, offlineRow]
    · rw [Op.find?_exec_of_ne (by simpa [Op.writes] using hid)]
      simp [Ne.symm hid]

theorem run_markLoop (now : DateTime) (ids : List String) (marked : Nat) (s : Store) :
    (markLoop ids marked).run (Op.exec now) s = (.ok (marked + ids.length), markAll now ids s) := by
  induction ids generalizing marked s with
  | nil => rfl
  | cons id ids ih =>
    have hstep : (markLoop (id :: ids) marked).run (Op.exec now) s =
        (markLoop ids (marked + 1)).run (Op.exec now) ((Op.markOffline id).exec now s).2 := rfl
    rw [hstep, ih, List.length_cons, Nat.add_comm ids.length 1, Nat.add_assoc]
    rfl

/-- What a sweep alone does: if the table can be listed, it marks the nodes that are live and stale and counts them;
otherwise it does nothing. -/
theorem run_markStaleOffline (svc : ControlPlaneService) (now : DateTime) (s : Store) :
    Call.run svc now .markStaleOffline s = match Registry.list s.registry with
      | .ok nodes => (.ok (.marked (dueIds svc now nodes).length), markAll now (dueIds svc now nodes) s)
      | .error e => (.error e, s) := by
  have hrun : Call.run svc now .markStaleOffline s =
      (((Prog.ofExcept (Registry.list s.registry)).bind fun nodes => svc.sweepLoop now nodes 0).bind
        fun count => .ret (Outcome.marked count)).run (Op.exec now) s := rfl
  rw [hrun]
  cases Registry.list s.registry with
  | error e => rfl
  | ok nodes =>
    rw [Prog.ofExcept_ok, Prog.ret_bind, sweepLoop_eq, Prog.run_bind_ok (run_markLoop now _ 0 s), Nat.zero_add]
    rfl

/-- **What a sweep alone does to every row**: if the table can be listed, the rows that are live and stale become
offline; otherwise nothing changes. -/
theorem sweep_find? (svc : ControlPlaneService) (now : DateTime) (id : String) (s : Store) :
    (Call.run svc now .markStaleOffline s).2.registry.find? id = match Registry.list s.registry with
      | .ok nodes =>
        if ∃ n ∈ nodes, svc.due now n = true ∧ n.id = id then (s.registry.find? id).map (offlineRow now)
        else s.registry.find? id
      | .error _ => s.registry.find? id := by
  rw [run_markStaleOffline]
  cases Registry.list s.registry with
  | error e => rfl
  | ok nodes =>
    simp only [← mem_dueIds]
    exact find?_markAll now _ s id

end RustProxy.ControlPlane
