import RustProxy.ControlPlane.FiniteMap
import RustProxy.ControlPlane.Selection
import RustProxy.ControlPlane.Persistence
import RustProxy.ControlPlane.Noninterference

/-!
# Requests in flight

The control plane as it runs: any number of requests and sweeps in flight, each repository call one atomic step that may
fail, and the process may stop at any time and be started again, when what is left is the table.

What a request may rely on is that rows stay and that the table stays sound (`Store.Sound`): every row can be decoded,
and its address and its limits are those of one registration that was let in. Each handler is looked at once, alone
(`serves_request`), and then for any interleaving

* no request is answered with 500, unless a statement fails (`never_internal_error`);
* every node that is ever reported, to whoever asks, was registered as it is reported by a request that carried the
  token (`reported_nodes_registered`).
-/

namespace RustProxy.ControlPlane

open Lib

/-! ## Jobs -/

/-- A request leads to a response, a tick of the background task to none. -/
def ServerEvent.prog (state : AppState) (now : DateTime) : ServerEvent → ApiM (Option Response)
  | .request req => (req.prog state).bind fun response => .ret (some response)
  | .sweep => (internalError (state.service.markStaleOffline now)).bind fun _ => .ret none

/-- A request or a sweep in flight. -/
structure Job where
  event : ServerEvent
  /-- The clock value that a sweep reads when it begins. -/
  began : DateTime
  rest : ApiM (Option Response)

/-- The response that has been sent. -/
def Job.answer? (j : Job) : Option Response :=
  match j.event, j.rest with
  | .request req, .ret (some response) => some (req.answer (.ok response))
  | .request req, .fail e => some (req.answer (.error e))
  | _, _ => none

inductive JobStep : Store → Job → TaskAct → Store → Job → Prop
  | perform {s : Store} {j : Job} {o : Op} {k : Ans o → ApiM (Option Response)} (now : DateTime) : j.rest = .op o k →
      JobStep s j (.perform o now) (o.exec now s).2 { j with rest := k (o.exec now s).1 }
  | fault {s : Store} {j : Job} {o : Op} {k : Ans o → ApiM (Option Response)} {a : Ans o} : j.rest = .op o k →
      o.fault = some a → JobStep s j (.fault o) s { j with rest := k a }

def Job.Fresh (state : AppState) (j : Job) : Prop := j.rest = j.event.prog state j.began

inductive ServingLabel
  | step (l : Pool.Label Job TaskAct)
  | restart

/-- One step of the process; a restart loses what is in flight and the allocators. -/
inductive ServingStep (state : AppState) : Pool Store Job → ServingLabel → Pool Store Job → Prop
  | step {p p' : Pool Store Job} {l : Pool.Label Job TaskAct} : Pool.Step (Job.Fresh state) JobStep p l p' →
      ServingStep state p (.step l) p'
  | restart {p : Pool Store Job} : ServingStep state p .restart ⟨⟨p.shared.registry, fun _ => none⟩, []⟩

/-- The process on a new database. -/
def notServing : Pool Store Job := ⟨.empty, []⟩

/-- A request that has been received. -/
def Received (ls : List ServingLabel) (req : HttpRequest) : Prop :=
  ∃ began rest, .step (.start ⟨.request req, began, rest⟩) ∈ ls

/-- A statement has failed. -/
def Faulty (ls : List ServingLabel) : Prop := ∃ i o, .step (.act i (.fault o)) ∈ ls

/-! ## Registrations -/

def Node.registration (n : Node) : RegisterRequest := ⟨n.id, n.address, n.maxConnections, n.bandwidthLimit⟩

def NodeResponse.registration (n : NodeResponse) : RegisterRequest :=
  ⟨n.id, n.address, n.maxConnections, n.bandwidthLimit⟩

/-- The nodes that a body reports. -/
def Body.reported : Body → List NodeResponse
  | .node n => [n]
  | .nodes ns => ns
  | .none | .health _ | .error _ | .exposition => []

/-- A registration that was let in: by a request that was received, is authorised and passes the checks. -/
def LetIn (state : AppState) (ls : List ServingLabel) (r : RegisterRequest) : Prop :=
  ∃ req, Received ls req ∧ req.method = .post ∧ router req.path = some .registerNode ∧
    authorize req.headers state.auth = .ok () ∧ req.registerRequest = .ok r ∧ validateRegister r = .ok ()

/-! ## A sound table -/

/-- The address and the limits of a row are those of one registration. -/
def Row.Registered (grants : RegisterRequest → Prop) (row : Row) : Prop :=
  ∃ max limit, row.maxConnections = .ofU32 max ∧ row.bandwidthLimit = .ofU64 limit ∧
    grants ⟨row.id, row.address, max, limit⟩

structure Store.Sound (grants : RegisterRequest → Prop) (s : Store) : Prop where
  readable : s.Readable
  registered : ∀ id, ∀ row ∈ s.registry.find? id, row.Registered grants

/-- What the requests of the API and the sweeps perform. -/
def Op.Served (grants : RegisterRequest → Prop) : Op → Prop
  | .register r => grants r
  | .adjustActive .. | .accumulateBytes .. | .reserve .. => False
  | _ => True

/-- One operation, performed or, where statements fail, failed. -/
inductive Op.Answers (faults : Prop) (o : Op) (s : Store) : Ans o → Store → Prop
  | perform (now : DateTime) : Answers faults o s (o.exec now s).1 (o.exec now s).2
  | fault {a : Ans o} : faults → o.fault = some a → Answers faults o s a s

/-- What others keep. -/
structure Serving (grants : RegisterRequest → Prop) (s s' : Store) : Prop where
  rows : ∀ id, (s.registry.find? id).isSome → (s'.registry.find? id).isSome
  sound : s.Sound grants → s'.Sound grants

section Sound

variable {grants : RegisterRequest → Prop} {s s' : Store}

theorem Serving.refl (s : Store) : Serving grants s s := ⟨fun _ h => h, fun h => h⟩

theorem Serving.trans (s₁ s₂ s₃ : Store) (h : Serving grants s₁ s₂) (h' : Serving grants s₂ s₃) :
    Serving grants s₁ s₃ :=
  ⟨fun id hs => h'.rows id (h.rows id hs), fun hs => h'.sound (h.sound hs)⟩

theorem Op.Served.fits {o : Op} (h : o.Served grants) (s : Store) : o.Fits s := by
  cases o <;> trivial

theorem registered_upsertRow {r : RegisterRequest} {now : DateTime} {found : Option Row}
    (hid : ∀ row ∈ found, row.id = r.nodeId) (hr : grants r) : (Registry.upsertRow r now found).Registered grants := by
  refine ⟨r.maxConnections, r.bandwidthLimit, ?_⟩
  cases found with
  | none => exact ⟨rfl, rfl, hr⟩
  | some old =>
    refine ⟨rfl, rfl, ?_⟩
    have hold : old.id = r.nodeId := hid old rfl
    simp only [Registry.upsertRow, Registry.conflictRow, hold]
    exact hr

theorem registered_rowAfter {o : Op} (ho : o.Served grants) {id : String} (hw : o.writes = some id) (now : DateTime)
    {found : Option Row} (hid : ∀ row ∈ found, row.id = id) (h : ∀ row ∈ found, row.Registered grants) :
    ∀ row ∈ o.rowAfter now found, row.Registered grants := by
  intro row hrow
  cases o with
  | register r =>
    cases hrow
    cases hw
    exact registered_upsertRow hid ho
  | get id' => cases hw
  | list => cases hw
  | reserve nodeId limit rate => cases hw
  | adjustActive id' delta => exact ho.elim
  | accumulateBytes id' up down => exact ho.elim
  | applyHeartbeat hb =>
    obtain ⟨old, hold, rfl⟩ := Option.map_eq_some_iff.mp hrow
    exact h old hold
  | setDraining id' =>
    obtain ⟨old, hold, rfl⟩ := Option.map_eq_some_iff.mp hrow
    exact h old hold
  | markOffline id' =>
    obtain ⟨old, hold, rfl⟩ := Option.map_eq_some_iff.mp hrow
    exact h old hold
  | setState id' state =>
    obtain ⟨old, hold, rfl⟩ := Option.map_eq_some_iff.mp hrow
    exact h old hold

/-- An operation of the API keeps the table sound. -/
theorem Store.Sound.exec (hs : s.Sound grants) {o : Op} (ho : o.Served grants) (now : DateTime) :
    (o.exec now s).2.Sound grants := by
  refine ⟨readable_exec (ho.fits s) hs.readable now, fun id row hrow => ?_⟩
  by_cases hw : o.writes = some id
  · rw [Op.find?_exec_self hw] at hrow
    exact registered_rowAfter ho hw now (fun row hrow => Table.key_of_find? hrow) (hs.registered id) row hrow
  · rw [Op.find?_exec_of_ne hw] at hrow
    exact hs.registered id row hrow

theorem Op.Answers.serving {faults : Prop} {o : Op} {a : Ans o} (h : o.Answers faults s a s') (ho : o.Served grants) :
    Serving grants s s' := by
  cases h with
  | perform now => exact ⟨fun id hid => o.isSome_find?_exec now hid, fun hs => hs.exec ho now⟩
  | fault _ _ => exact .refl s

/-- A node that is read is as it was registered. -/
theorem Row.Registered.decodes {row : Row} {n : Node} (h : row.Registered grants) (hdec : Decodes row n) :
    grants n.registration := by
  obtain ⟨max, limit, hmax, hlimit, hgrants⟩ := h
  obtain ⟨v, hv, hn⟩ := hdec.maxConnections
  obtain ⟨w, hw, hl⟩ := hdec.bandwidthLimit
  rw [hmax] at hv
  rw [hlimit] at hw
  cases hv
  cases hw
  have heq : n.registration = ⟨row.id, row.address, max, limit⟩ := by
    rw [Node.registration, hdec.id, hdec.address, ← hn, ← hl, toUInt32_ofU32, toInt64_toUInt64]
  rw [heq]
  exact hgrants

theorem Store.Sound.get (hs : s.Sound grants) (id : String) :
    ∃ found, Registry.get id s.registry = .ok found ∧ (∀ n ∈ found, grants n.registration) ∧
      ((s.registry.find? id).isSome → found.isSome) := by
  cases hrow : s.registry.find? id with
  | none => exact ⟨none, by rw [Registry.get, hrow], by simp, by simp⟩
  | some row =>
    obtain ⟨n, hdec⟩ := hs.readable id row hrow
    refine ⟨some n, Registry.get_of_decodes hrow hdec, ?_, by simp⟩
    rintro _ ⟨⟩
    exact (hs.registered id row hrow).decodes hdec

theorem Store.Sound.list (hs : s.Sound grants) :
    ∃ ns, Registry.list s.registry = .ok ns ∧ ∀ n ∈ ns, grants n.registration := by
  obtain ⟨ns, hlist⟩ := hs.readable.list
  refine ⟨ns, hlist, fun n hn => ?_⟩
  obtain ⟨row, hrow, hdec⟩ := Registry.list_mem hlist hn
  exact (hs.registered n.id row hrow).decodes (Decodes.of_ok hdec)

end Sound

/-! ## The calls, each alone -/

/-- Guarded by what others keep; a call of the service fails only where a statement does. -/
abbrev Calls (grants : RegisterRequest → Prop) (faults : Prop) {α : Type} (Q : α → Store → Prop) (p : ServiceM α)
    (s : Store) : Prop :=
  Prog.Guarded (Op.Answers faults) (Serving grants) (fun _ o => o.Served grants) (fun _ => faults) Q p s

section Calls

variable {grants : RegisterRequest → Prop} {faults : Prop} {s : Store}

/-- One statement, in a sound table. -/
theorem calls_op {α : Type} {o : Op} {k : Ans o → Except Error α} {Q : α → Store → Prop} (ho : o.Served grants)
    (hs : s.Sound grants) (hfault : o.fault.map k = some (.error .database))
    (hk : ∀ s' now, Serving grants s s' → s'.Sound grants → ∃ v, k (o.exec now s').1 = .ok v ∧ Q v (o.exec now s').2) :
    Calls grants faults (fun v s' => s'.Sound grants ∧ Q v s') (.op o fun a => Prog.ofExcept (k a)) s := by
  apply Prog.guarded_opExcept
  intro s' hs'
  refine ⟨ho, fun a s'' hact => ?_⟩
  have hsound := (hact.serving ho).sound (hs'.sound hs)
  cases hact with
  | perform now =>
    obtain ⟨v, hv, hQ⟩ := hk s' now hs' (hs'.sound hs)
    rw [hv]
    refine ⟨?_, by rintro _ ⟨⟩⟩
    rintro _ ⟨⟩
    exact ⟨hsound, hQ⟩
  | fault hfaults ha =>
    rw [ha, Option.map_some, Option.some.injEq] at hfault
    rw [hfault]
    exact ⟨by rintro _ ⟨⟩, fun _ _ => hfaults⟩

/-- A row that is there is found. -/
theorem calls_get (hs : s.Sound grants) (id : String) :
    Calls grants faults (fun found s' => s'.Sound grants ∧ (∀ n ∈ found, grants n.registration) ∧
      ((s.registry.find? id).isSome → found.isSome)) (Repo.get id) s := by
  refine calls_op (o := .get id) (k := fun a => a) trivial hs rfl fun s' now hs' hsound => ?_
  obtain ⟨found, hget, hfound, hsome⟩ := hsound.get id
  exact ⟨found, hget, hfound, fun h => hsome (hs'.rows id h)⟩

theorem calls_list (hs : s.Sound grants) :
    Calls grants faults (fun ns s' => s'.Sound grants ∧ ∀ n ∈ ns, grants n.registration) Repo.list s :=
  calls_op (o := .list) (k := fun a => a) trivial hs rfl fun _ _ _ hsound => hsound.list

/-- A write that needs nothing of the row. -/
theorem calls_write {o : Op} {k : Ans o → Except Error Unit} (ho : o.Served grants) (hs : s.Sound grants)
    (hfault : o.fault.map k = some (.error .database)) (hk : ∀ s' now, k (o.exec now s').1 = .ok ()) :
    Calls grants faults (fun _ s' => s'.Sound grants) (.op o fun a => Prog.ofExcept (k a)) s :=
  (calls_op (Q := fun _ _ => True) ho hs hfault fun s' now _ _ => ⟨(), hk s' now, trivial⟩).mono fun _ _ h => h.1

theorem calls_register (hs : s.Sound grants) {r : RegisterRequest} (hr : grants r) :
    Calls grants faults (fun n s' => s'.Sound grants ∧ grants n.registration) (ControlPlaneService.register r) s := by
  have hwrite : Calls grants faults (fun _ s' => s'.Sound grants ∧ (s'.registry.find? r.nodeId).isSome)
      (Repo.register r) s := by
    refine calls_op (o := .register r) (k := fun a => a) hr hs rfl fun s' now _ _ => ⟨(), rfl, ?_⟩
    rw [Op.find?_exec_self rfl]
    rfl
  refine .bind hwrite fun _ s' hwritten => .bind (calls_get hwritten.1 r.nodeId) fun found s'' hread => ?_
  obtain ⟨hsound, hfound, hsome⟩ := hread
  cases found with
  | none => exact absurd (hsome hwritten.2) (by simp)
  | some n => exact ⟨hsound, hfound n rfl⟩

theorem calls_heartbeat (hs : s.Sound grants) (svc : ControlPlaneService) (hb : Heartbeat) :
    Calls grants faults (fun _ s' => s'.Sound grants) (svc.heartbeat hb) s := by
  have hlast {s : Store} (hs : s.Sound grants) :
      Calls grants faults (fun _ s' => s'.Sound grants) ((Repo.get hb.nodeId).bind fun _ => .ret ()) s :=
    .bind (calls_get hs hb.nodeId) fun _ _ hread => hread.1
  refine .bind (calls_get hs hb.nodeId) fun found s' hread => ?_
  cases found with
  | none => exact hread.1
  | some n =>
    have hwrite : Calls grants faults (fun _ s' => s'.Sound grants) (Repo.applyHeartbeat hb) s' :=
      calls_write (o := .applyHeartbeat hb) (k := fun a => a) trivial hread.1 rfl fun _ _ => rfl
    refine .bind hwrite fun _ s'' hsound => ?_
    dsimp only
    split
    · have hstate (next : NodeState) :
          Calls grants faults (fun _ s' => s'.Sound grants) (Repo.setState hb.nodeId next) s'' :=
        calls_write (o := .setState hb.nodeId next) (k := fun a => a) trivial hsound rfl fun _ _ => rfl
      exact .bind (hstate _) fun _ _ hsound => hlast hsound
    · exact hlast hsound

theorem calls_drain (hs : s.Sound grants) (id : String) :
    Calls grants faults (fun found s' => s'.Sound grants ∧ ∀ n ∈ found, grants n.registration)
      (ControlPlaneService.drain id) s := by
  have hwrite : Calls grants faults (fun _ s' => s'.Sound grants) (Repo.setDraining id) s :=
    calls_write (o := .setDraining id) (k := fun a => a) trivial hs rfl fun _ _ => rfl
  exact .bind hwrite fun _ s' hsound => (calls_get hsound id).mono fun _ _ hread => ⟨hread.1, hread.2.1⟩

theorem calls_select (hs : s.Sound grants) (svc : ControlPlaneService) :
    Calls grants faults (fun found s' => s'.Sound grants ∧ ∀ n ∈ found, grants n.registration) svc.select s := by
  refine .bind (calls_list hs) fun ns s' hread => ⟨hread.1, fun n hn => hread.2 n ?_⟩
  exact List.mem_of_mem_filter (mem_eligible.mp (select_eq_some_iff.mp hn).mem).1

theorem calls_markLoop (ids : List String) (marked : Nat) (hs : s.Sound grants) :
    Calls grants faults (fun _ s' => s'.Sound grants) (markLoop ids marked) s := by
  induction ids generalizing marked s with
  | nil => exact hs
  | cons id ids ih =>
    have hwrite : Calls grants faults (fun _ s' => s'.Sound grants) (Repo.markOffline id) s :=
      calls_write (o := .markOffline id) (k := fun a => a) trivial hs rfl fun _ _ => rfl
    exact .bind hwrite fun _ _ hsound => ih (marked + 1) hsound

theorem calls_markStaleOffline (hs : s.Sound grants) (svc : ControlPlaneService) (now : DateTime) :
    Calls grants faults (fun _ s' => s'.Sound grants) (svc.markStaleOffline now) s := by
  refine .bind (calls_list hs) fun ns s' hread => ?_
  rw [sweepLoop_eq]
  exact calls_markLoop _ 0 hread.1

end Calls

/-! ## The handlers, each alone -/

/-- Guarded by what others keep; a request is answered with 500 only where a statement fails. -/
abbrev Handles (grants : RegisterRequest → Prop) (faults : Prop) {α : Type} (Q : α → Store → Prop) (p : ApiM α)
    (s : Store) : Prop :=
  Prog.Guarded (Op.Answers faults) (Serving grants) (fun _ o => o.Served grants)
    (fun e => e.intoResponse.status = .internalServerError → faults) Q p s

section Handlers

variable {grants : RegisterRequest → Prop} {faults : Prop} {s : Store} {α : Type} {Q : α → Store → Prop}

theorem Handles.internalError {p : ServiceM α} (h : Calls grants faults Q p s) :
    Handles grants faults Q (internalError p) s :=
  h.mapError fun _ hfaults _ => hfaults

theorem handles_okOrElse {e : ApiError} (he : e.intoResponse.status ≠ .internalServerError) {found : Option α}
    (h : ∀ a ∈ found, Q a s) : Handles grants faults Q (okOrElse e found) s := by
  cases found with
  | none => exact fun h => absurd h he
  | some a => exact h a rfl

theorem handles_ofExcept {r : Except ApiError Unit} {Q : Unit → Store → Prop}
    (he : ∀ e, r = .error e → e.intoResponse.status ≠ .internalServerError) (h : r = .ok () → Q () s) :
    Handles grants faults Q (.ofExcept r) s := by
  cases r with
  | ok u => exact h rfl
  | error e => exact fun h => absurd h (he e rfl)

/-- The response of a handler that succeeds: the nodes in it are registered. -/
def Response.Sound (grants : RegisterRequest → Prop) (response : Response) : Prop :=
  response.status = .ok ∧ ∀ n ∈ response.body.reported, grants n.registration

theorem handles_respond {body : α → Body} {p : ApiM α}
    (h : Handles grants faults (fun a _ => ∀ n ∈ (body a).reported, grants n.registration) p s) :
    Handles grants faults (fun response _ => response.Sound grants) (respond body p) s :=
  .bind h fun _ _ ha => ⟨rfl, ha⟩

theorem handles_node {node : Node} (h : grants node.registration) (limit : UInt64) :
    ∀ n ∈ (Body.node (.fromNode node limit)).reported, grants n.registration := by
  intro n hn
  rw [List.mem_singleton.mp hn]
  exact h

theorem handles_extractPath (segment : String) : Handles grants faults (fun _ s' => s' = s) (extractPath segment) s :=
  handles_okOrElse (by decide) fun _ _ => rfl

theorem handles_extractJson (body : Except JsonRejection α) :
    Handles grants faults (fun a s' => s' = s ∧ body = .ok a) (extractJson body) s := by
  cases body with
  | ok a => exact ⟨rfl, rfl⟩
  | error e => cases e <;> exact fun h => by cases h

theorem handles_authorize (headers : HeaderMap) (auth : Auth) :
    Handles grants faults (fun _ s' => s' = s ∧ authorize headers auth = .ok ()) (.ofExcept (authorize headers auth))
      s := by
  refine handles_ofExcept (fun e he => ?_) fun hok => ⟨rfl, hok⟩
  rw [authorize_error he]
  decide

theorem handles_check (ok : Bool) (msg : String) :
    Handles grants faults (fun _ s' => s' = s) (.ofExcept (check ok msg)) s := by
  refine handles_ofExcept (fun e he => ?_) fun _ => rfl
  rw [check_error he]
  decide

theorem validateRegister_error {r : RegisterRequest} {e : ApiError} (h : validateRegister r = .error e) :
    e.intoResponse.status = .badRequest := by
  simp only [validateRegister, bind, Except.bind] at h
  repeat' split at h
  · cases h
    exact check_error ‹_›
  · cases h
    exact check_error ‹_›
  · cases h
    exact check_error ‹_›
  · exact check_error h

theorem handles_validate {r : RegisterRequest} :
    Handles grants faults (fun _ s' => s' = s ∧ validateRegister r = .ok ()) (.ofExcept (validateRegister r)) s := by
  refine handles_ofExcept (fun e he => ?_) fun hok => ⟨rfl, hok⟩
  rw [validateRegister_error he]
  decide

/-- What a handler does with a node that it may not have found. -/
theorem handles_found {p : ServiceM (Option Node)} {e : ApiError} (he : e.intoResponse.status ≠ .internalServerError)
    (h : Calls grants faults (fun found s' => s'.Sound grants ∧ ∀ n ∈ found, grants n.registration) p s) :
    Handles grants faults (fun a _ => ∀ n ∈ (Body.node a).reported, grants n.registration)
      (do
        let node ← internalError p
        let node ← okOrElse e node
        return .fromNode node node.bandwidthLimit) s := by
  refine .bind (Handles.internalError h) fun found _ hfound => ?_
  refine .bind (handles_okOrElse (Q := fun n _ => grants n.registration) he hfound.2) fun n _ hn => ?_
  exact handles_node hn _

/-- **A request, alone.** -/
theorem serves_request {state : AppState} {req : HttpRequest} (hs : s.Sound grants)
    (hgrants : ∀ r, req.method = .post → router req.path = some .registerNode →
      authorize req.headers state.auth = .ok () → req.registerRequest = .ok r → validateRegister r = .ok () →
      grants r) :
    Handles grants faults (fun response _ => response.Sound grants) (req.prog state) s := by
  simp only [HttpRequest.prog]
  split
  · exact fun h => by cases h
  rename_i route hroute
  split
  swap
  · exact fun h => by cases h
  rename_i haccepts
  cases route with
  | health =>
    refine handles_respond (.bind (Prog.Guarded.mapError (fun _ hfaults _ => hfaults) (calls_list hs)) fun _ _ _ => ?_)
    exact fun n hn => by cases hn
  | listNodes =>
    refine handles_respond (.bind (Handles.internalError (calls_list hs)) fun ns _ hns n hn => ?_)
    obtain ⟨node, hnode, rfl⟩ := List.mem_map.mp hn
    exact hns.2 node hnode
  | selectNode => exact handles_respond (handles_found (by decide) (calls_select hs state.service))
  | getNode id =>
    refine .bind (handles_extractPath id) ?_
    rintro id _ rfl
    refine handles_respond (handles_found (fun h => by cases h) ?_)
    exact (calls_get hs id).mono fun _ _ h => ⟨h.1, h.2.1⟩
  | registerNode =>
    refine .bind (handles_extractJson req.registerRequest) ?_
    rintro r _ ⟨rfl, hbody⟩
    refine handles_respond (.bind (handles_authorize req.headers state.auth) ?_)
    rintro _ _ ⟨rfl, hauth⟩
    refine .bind handles_validate ?_
    rintro _ _ ⟨rfl, hvalid⟩
    have hr : grants r := hgrants r (by simpa [Route.accepts] using haccepts) hroute hauth hbody hvalid
    exact .bind (Handles.internalError (calls_register hs hr)) fun n _ hn => handles_node hn.2 _
  | heartbeatNode id =>
    refine .bind (handles_extractPath id) ?_
    rintro id _ rfl
    refine .bind (handles_extractJson req.heartbeat) ?_
    rintro hb _ ⟨rfl, -⟩
    refine handles_respond (.bind (handles_authorize req.headers state.auth) ?_)
    rintro _ _ ⟨rfl, -⟩
    refine .bind (handles_check _ _) ?_
    rintro _ _ rfl
    refine .bind (Handles.internalError (calls_heartbeat hs state.service _)) fun _ _ _ => ?_
    exact fun n hn => by cases hn
  | drainNode id =>
    refine .bind (handles_extractPath id) ?_
    rintro id _ rfl
    refine handles_respond (.bind (handles_authorize req.headers state.auth) ?_)
    rintro _ _ ⟨rfl, -⟩
    exact handles_found (fun h => by cases h) (calls_drain hs id)
  | metrics => exact ⟨rfl, fun n hn => by cases hn⟩

end Handlers

/-! ## Any interleaving -/

section Interleaving

variable {state : AppState} {ls : List ServingLabel} {p p' : Pool Store Job}

/-- What is left of every job is guarded, in a sound table. -/
def Guarding (grants : RegisterRequest → Prop) (faults : Prop) : Pool Store Job → Prop :=
  Pool.Inv (Store.Sound grants) fun s j =>
    Handles grants faults (fun response _ => ∀ r ∈ response, r.Sound grants) j.rest s

theorem JobStep.answers {s s' : Store} {j j' : Job} {l : TaskAct} {faults : Prop} (h : JobStep s j l s' j')
    (hl : ∀ o, l = .fault o → faults) : ∃ o k a, j.rest = .op o k ∧ o.Answers faults s a s' ∧ j'.rest = k a := by
  cases h with
  | @perform o k now hrest => exact ⟨o, k, _, hrest, .perform now, rfl⟩
  | @fault o k a hrest ha => exact ⟨o, k, a, hrest, .fault (hl o rfl) ha, rfl⟩

/-- A job that begins is guarded by the registrations that are let in. -/
theorem handles_fresh {j : Job} {faults : Prop} {s : Store} (hs : s.Sound (LetIn state ls)) (hfresh : j.Fresh state)
    (hreceived : ∀ req, j.event = .request req → Received ls req) :
    Handles (LetIn state ls) faults (fun response _ => ∀ r ∈ response, r.Sound (LetIn state ls)) j.rest s := by
  rw [hfresh]
  cases hevent : j.event with
  | request req =>
    refine .bind (serves_request hs fun r hmethod hroute hauth hbody hvalid => ?_) ?_
    · exact ⟨req, hreceived req hevent, hmethod, hroute, hauth, hbody, hvalid⟩
    · rintro response _ h _ ⟨⟩
      exact h
  | sweep =>
    refine .bind (Handles.internalError (calls_markStaleOffline hs state.service j.began)) ?_
    rintro _ _ _ _ ⟨⟩

theorem Guarding.step {l : Pool.Label Job TaskAct} (hp : Guarding (LetIn state ls) (Faulty ls) p) (hl : .step l ∈ ls)
    (h : Pool.Step (Job.Fresh state) JobStep p l p') : Guarding (LetIn state ls) (Faulty ls) p' := by
  -- the same step, with what its label says about it
  have hstep : Pool.Step (fun j => j.Fresh state ∧ ∀ req, j.event = .request req → Received ls req)
      (fun s j l s' j' => JobStep s j l s' j' ∧ ∀ o, l = .fault o → Faulty ls) p l p' := by
    cases h with
    | @start j hfresh =>
      refine .start ⟨hfresh, fun req hreq => ⟨j.began, j.rest, ?_⟩⟩
      rw [← hreq]
      exact hl
    | @act i j j' l s' hi hact =>
      refine .act hi ⟨hact, ?_⟩
      rintro o rfl
      exact ⟨i, o, hl⟩
  exact Pool.guarded_step Job.rest (fun _ _ _ _ _ hst => hst.1.answers hst.2) Serving.refl Serving.trans
    (fun _ _ _ _ hs ho hact => ⟨(hact.serving ho).sound hs, hact.serving ho⟩)
    (fun _ _ hs hstart => handles_fresh hs hstart.1 hstart.2) hstep hp

theorem guarding_of_run (h : Run (ServingStep state) notServing ls p) :
    Guarding (LetIn state ls) (Faulty ls) p := by
  refine h.labelled.inv (I := Guarding (LetIn state ls) (Faulty ls)) ?_ ⟨⟨readable_empty, ?_⟩, ?_⟩
  · rintro p l p' hp ⟨hl, hst⟩
    cases hst with
    | step hst => exact hp.step hl hst
    | restart => exact ⟨⟨hp.1.readable, hp.1.registered⟩, fun j hj => by cases hj⟩
  · intro id row hrow
    cases hrow
  · intro j hj
    cases hj

/-- What is left of every job respects `G`, as long as its answers satisfy `R`, in a store that satisfies `I`. -/
abbrev Respecting (G : Op → Prop) (R : (o : Op) → Ans o → Prop) (I : Store → Prop) : Pool Store Job → Prop :=
  Pool.Inv I fun _ j => Prog.Respects G R j.rest

/-- What the operations of `G` keep, and what makes their answers satisfy `R`, is kept by jobs that respect the two. -/
theorem ServingStep.respecting {G : Op → Prop} {R : (o : Op) → Ans o → Prop} {I : Store → Prop} {l : ServingLabel}
    (h : ServingStep state p l p') (hI : ∀ o s now, G o → I s → R o (o.exec now s).1 ∧ I (o.exec now s).2)
    (hfault : ∀ o a, o.fault = some a → R o a) (hrestart : ∀ s, I s → I ⟨s.registry, fun _ => none⟩)
    (hstart : ∀ j, l = .step (.start j) → Prog.Respects G R (j.event.prog state j.began))
    (hp : Respecting G R I p) : Respecting G R I p' := by
  cases h with
  | restart => exact ⟨hrestart _ hp.1, fun j hj => by cases hj⟩
  | @step _ l hst =>
    have hstep : Pool.Step (fun j => Prog.Respects G R j.rest) JobStep p l p' := by
      cases hst with
      | @start j hfresh =>
        refine .start ?_
        rw [hfresh]
        exact hstart j rfl
      | act hi hact => exact .act hi hact
    refine Pool.step_inv (C := fun _ _ => True) (fun _ _ _ hj => hj) (fun s j l s' j' hs hj hact => ?_)
      (fun _ _ _ _ _ _ _ _ _ _ hu => hu) hp (Pool.tolerated_true p l) hstep
    cases hact with
    | @perform o k now hrest =>
      rw [hrest] at hj
      obtain ⟨hR, hs'⟩ := hI o s now hj.1 hs
      exact ⟨hs', hj.2 _ hR⟩
    | @fault o k a hrest ha =>
      rw [hrest] at hj
      exact ⟨hs, hj.2 a (hfault o a ha)⟩

/-- What has been answered: the response of a handler, or one for an error. -/
theorem Job.answer?_eq_some {j : Job} {response : Response} (h : j.answer? = some response) :
    ∃ req, j.event = .request req ∧
      ((∃ r, j.rest = .ret (some r) ∧ response = req.answer (.ok r)) ∨
        ∃ e, j.rest = .fail e ∧ response = req.answer (.error e)) := by
  unfold Job.answer? at h
  split at h
  · rename_i req r hevent hrest
    exact ⟨req, hevent, .inl ⟨r, hrest, (Option.some.inj h).symm⟩⟩
  · rename_i req e hevent hrest
    exact ⟨req, hevent, .inr ⟨e, hrest, (Option.some.inj h).symm⟩⟩
  · cases h

theorem status_answer_ok (req : HttpRequest) (r : Response) : (req.answer (.ok r)).status = r.status := by
  simp only [HttpRequest.answer]
  split <;> rfl

theorem status_answer_error (req : HttpRequest) (e : ApiError) :
    (req.answer (.error e)).status = e.intoResponse.status := by
  simp only [HttpRequest.answer]
  split <;> rfl

theorem reported_answer_error (req : HttpRequest) (e : ApiError) : (req.answer (.error e)).body.reported = [] := by
  simp only [HttpRequest.answer]
  split
  · rfl
  · cases e <;> rfl

theorem mem_reported_answer_ok {req : HttpRequest} {r : Response} {n : NodeResponse}
    (h : n ∈ (req.answer (.ok r)).body.reported) : n ∈ r.body.reported := by
  simp only [HttpRequest.answer] at h
  split at h
  · cases h
  · exact h

/-- The nodes that have been reported were let in. -/
theorem letIn_of_reported (h : Run (ServingStep state) notServing ls p) {j : Job} (hj : j ∈ p.tasks)
    {response : Response} (hresponse : j.answer? = some response) {n : NodeResponse}
    (hn : n ∈ response.body.reported) : LetIn state ls n.registration := by
  have hguard : Handles _ _ _ j.rest p.shared := (guarding_of_run h).2 j hj
  obtain ⟨req, -, ⟨r, hrest, rfl⟩ | ⟨e, -, rfl⟩⟩ := Job.answer?_eq_some hresponse
  · rw [hrest] at hguard
    exact (hguard r rfl).2 n (mem_reported_answer_ok hn)
  · rw [reported_answer_error] at hn
    cases hn

end Interleaving

/-! ## Schedules -/

inductive ServingTurn
  | arrive (e : ServerEvent)
  | act (i : Nat)
  | restart

/-- The process after the turns, each at its clock value, in which no statement fails. -/
def serveTurns (state : AppState) : List (DateTime × ServingTurn) → Pool Store Job → Pool Store Job
  | [], p => p
  | (now, .arrive e) :: turns, p => serveTurns state turns ⟨p.shared, p.tasks ++ [⟨e, now, e.prog state now⟩]⟩
  | (now, .act i) :: turns, p =>
    match p.tasks[i]? with
    | some ⟨e, began, .op o k⟩ =>
      serveTurns state turns ⟨(o.exec now p.shared).2, p.tasks.set i ⟨e, began, k (o.exec now p.shared).1⟩⟩
    | _ => serveTurns state turns p
  | (_, .restart) :: turns, p => serveTurns state turns ⟨⟨p.shared.registry, fun _ => none⟩, []⟩

theorem run_of_serveTurns (state : AppState) (turns : List (DateTime × ServingTurn)) (p : Pool Store Job) :
    ∃ ls, Run (ServingStep state) p ls (serveTurns state turns p) ∧ ¬ Faulty ls := by
  induction turns generalizing p with
  | nil => exact ⟨[], .nil p, by rintro ⟨i, o, h⟩; cases h⟩
  | cons turn turns ih =>
    have hcons {p' : Pool Store Job} {l : ServingLabel} (hst : ServingStep state p l p')
        (hl : ∀ i o, l ≠ .step (.act i (.fault o))) :
        ∃ ls, Run (ServingStep state) p ls (serveTurns state turns p') ∧ ¬ Faulty ls := by
      obtain ⟨ls, hrun, hok⟩ := ih p'
      refine ⟨l :: ls, .cons hst hrun, ?_⟩
      rintro ⟨i, o, h⟩
      rcases List.mem_cons.mp h with h | h
      · exact hl i o h.symm
      · exact hok ⟨i, o, h⟩
    obtain ⟨now, turn⟩ := turn
    cases turn with
    | arrive e => exact hcons (.step (.start rfl)) (by simp)
    | restart => exact hcons .restart (by simp)
    | act i =>
      simp only [serveTurns]
      split
      · rename_i e began o k hi
        exact hcons (.step (.act hi (.perform now rfl))) (by simp)
      · exact ih p

/-- A registration with the token; a heartbeat with it; a selection, which needs none. -/
def registerN1 : HttpRequest :=
  ⟨.post, ["nodes", "register"], ⟨[bearerValue "secret"]⟩, .ok ⟨"n1", "10.0.0.1:1080", 100, 1000⟩,
    .error .jsonDataError⟩

def heartbeatN1 : HttpRequest :=
  ⟨.post, ["nodes", "n1", "heartbeat"], ⟨[bearerValue "secret"]⟩, .error .jsonDataError, .ok ⟨"", 7, 0, 0, 0, 1000⟩⟩

def selectAny : HttpRequest :=
  ⟨.post, ["nodes", "select"], ⟨[]⟩, .error .missingJsonContentType, .error .missingJsonContentType⟩

/-- A registration, a restart, and then a heartbeat whose statements are mixed with a sweep and a selection. -/
def busyTurns : List (DateTime × ServingTurn) :=
  [(.ofSecond 0, .arrive (.request registerN1)), (.ofSecond 0, .act 0), (.ofSecond 1, .act 0), (.ofSecond 2, .restart),
    (.ofSecond 3, .arrive (.request heartbeatN1)), (.ofSecond 3, .act 0), (.ofSecond 4, .arrive .sweep),
    (.ofSecond 4, .act 0), (.ofSecond 4, .act 1), (.ofSecond 5, .act 0), (.ofSecond 5, .arrive (.request selectAny)),
    (.ofSecond 6, .act 2), (.ofSecond 6, .act 0)]

def secretState : AppState := ⟨.new .default, .bearer "secret"⟩

/-! ## Errors -/

/-- **No internal errors.** Whatever requests and sweeps are in flight, in whatever order their statements are
performed, and however often the process is restarted: unless a statement fails, the table can be read, and no request
is answered with 500. -/
theorem never_internal_error {state : AppState} {ls : List ServingLabel} {p : Pool Store Job}
    (hrun : Run (ServingStep state) notServing ls p) (hok : ¬ Faulty ls) :
    p.shared.Readable ∧
      ∀ j ∈ p.tasks, ∀ response ∈ j.answer?, response.status ≠ .internalServerError := by
  obtain ⟨hsound, hjobs⟩ := guarding_of_run hrun
  refine ⟨hsound.readable, fun j hj response hresponse hstatus => ?_⟩
  have hguard : Handles _ _ _ j.rest p.shared := hjobs j hj
  obtain ⟨req, -, ⟨r, hrest, rfl⟩ | ⟨e, hrest, rfl⟩⟩ := Job.answer?_eq_some hresponse
  · rw [hrest] at hguard
    rw [status_answer_ok, (hguard r rfl).1] at hstatus
    cases hstatus
  · rw [hrest] at hguard
    rw [status_answer_error] at hstatus
    exact hok (hguard hstatus)

theorem never_internal_error_busy :
    let p := serveTurns secretState busyTurns notServing
    p.tasks.map (fun j => j.answer?.map Response.status) = [some .ok, none, some .ok] ∧
      ∀ j ∈ p.tasks, ∀ response ∈ j.answer?, response.status ≠ .internalServerError := by
  obtain ⟨ls, hrun, hok⟩ := run_of_serveTurns secretState busyTurns notServing
  exact ⟨by decide +kernel, (never_internal_error hrun hok).2⟩

/-! ## Where nodes come from -/

/-- A registration in the body of a request that was received, carries the token and passes the checks. -/
def Vouched (token : String) (ls : List ServingLabel) (r : RegisterRequest) : Prop :=
  ∃ req, Received ls req ∧ req.Presents token ∧ router req.path = some .registerNode ∧ req.registerRequest = .ok r ∧
    validateRegister r = .ok ()

theorem LetIn.vouched {service : ControlPlaneService} {token : String} {ls : List ServingLabel} {r : RegisterRequest}
    (h : LetIn ⟨service, .bearer token⟩ ls r) : Vouched token ls r := by
  obtain ⟨req, hreceived, -, hroute, hauth, hbody, hvalid⟩ := h
  exact ⟨req, hreceived, presents_of_authorize hauth, hroute, hbody, hvalid⟩

/-- **Where nodes come from.** With a bearer token, in every interleaving of requests and sweeps, with failing
statements and restarts: the address and the limits of every row, and of every node in an answer to anyone, are together
those of one registration that carried the token and passed the checks. -/
theorem reported_nodes_registered {service : ControlPlaneService} {token : String} {ls : List ServingLabel}
    {p : Pool Store Job} (hrun : Run (ServingStep ⟨service, .bearer token⟩) notServing ls p) :
    (∀ id row, p.shared.registry.find? id = some row → ∃ r, Vouched token ls r ∧ r.nodeId = id ∧
      r.address = row.address ∧ .ofU32 r.maxConnections = row.maxConnections ∧
        .ofU64 r.bandwidthLimit = row.bandwidthLimit) ∧
    ∀ j ∈ p.tasks, ∀ response ∈ j.answer?, ∀ n ∈ response.body.reported, Vouched token ls n.registration := by
  refine ⟨fun id row hrow => ?_, fun j hj response hresponse n hn => (letIn_of_reported hrun hj hresponse hn).vouched⟩
  obtain ⟨max, limit, hmax, hlimit, hletIn⟩ := (guarding_of_run hrun).1.registered id row hrow
  have hid : row.id = id := Table.key_of_find? hrow
  exact ⟨_, hletIn.vouched, hid, rfl, hmax.symm, hlimit.symm⟩

theorem reported_nodes_registered_busy :
    let p := serveTurns secretState busyTurns notServing
    ∃ ls, ∃ j ∈ p.tasks, ∃ response ∈ j.answer?, ∃ n ∈ response.body.reported,
      n.address = "10.0.0.1:1080" ∧ Vouched "secret" ls n.registration := by
  obtain ⟨ls, hrun, -⟩ := run_of_serveTurns secretState busyTurns notServing
  have hfound : ∃ j ∈ (serveTurns secretState busyTurns notServing).tasks, ∃ response ∈ j.answer?,
      ∃ n ∈ response.body.reported, n.address = "10.0.0.1:1080" := by decide +kernel
  obtain ⟨j, hj, response, hresponse, n, hn, haddress⟩ := hfound
  exact ⟨ls, j, hj, response, hresponse, n, hn, haddress,
    (reported_nodes_registered hrun).2 j hj response hresponse n hn⟩

end RustProxy.ControlPlane
