import RustProxy.Lib.Interleave
import RustProxy.Gateway.Config

/-!
# Shutting the node down

The accept loop of `NodeServer::run`, the tasks it spawns and the shutdown signal (`node/src/server.rs`), interleaved
step by step.

Every task that is counted has a permit, and the counter is the number of counted tasks modulo `2 ^ 32`
(`Balanced.run`). So the counter never exceeds the permits, and wraps only where there are `2 ^ 32` of them. A drain
loop that reads zero leaves nobody inside `handle_connection`; but a task that had passed its check of the signal and
had not yet been counted goes on to enter it (`drain_iff`).
-/

namespace RustProxy.Agent

open Lib Gateway

/-! ## The server -/

/-- Where a connection task is. -/
inductive ConnPc
  /-- In `sem.acquire()`. -/
  | waiting
  | admitted
  /-- The signal was not set when it was checked. -/
  | cleared
  | counted
  /-- Inside `handle_connection`. -/
  | handling
  | handled
  | uncounted
  /-- The signal was set when it was checked. -/
  | refused
  | finished
  deriving DecidableEq

inductive ConnAct
  | acquire
  | check
  | increment
  | enter
  | leave
  | decrement
  | release
  deriving DecidableEq

/-- One step of a task: the permits, the counter and its place afterwards. The semaphore is never closed, so `acquire`
does not fail. -/
def ConnPc.next (cancelled : Bool) (permits : Nat) (active : UInt32) : ConnPc → ConnAct → Option (Nat × UInt32 × ConnPc)
  | .waiting, .acquire => if permits = 0 then none else some (permits - 1, active, .admitted)
  | .admitted, .check => some (permits, active, if cancelled then .refused else .cleared)
  | .cleared, .increment => some (permits, active + 1, .counted)
  | .counted, .enter => some (permits, active, .handling)
  | .handling, .leave => some (permits, active, .handled)
  | .handled, .decrement => some (permits, active - 1, .uncounted)
  | .uncounted, .release => some (permits + 1, active, .finished)
  | .refused, .release => some (permits + 1, active, .finished)
  | _, _ => none

/-- Where `NodeServer::run` is. -/
inductive LoopPc
  | accepting
  | draining
  /-- The drain loop has read zero. -/
  | drained
  /-- The drain loop has met its deadline. -/
  | expired
  deriving DecidableEq

structure NodeServer where
  loop : LoopPc
  cancelled : Bool
  /-- The permits that are left. -/
  permits : Nat
  activeConnections : UInt32
  tasks : List ConnPc
  deriving DecidableEq

inductive NodeEvent
  /-- A connection is accepted and its task spawned. -/
  | accept
  | cancel
  /-- The accept loop takes the branch of the signal. -/
  | observe
  /-- One turn of the drain loop, before the deadline or after it. -/
  | drainCheck (late : Bool)
  | conn (i : Nat) (a : ConnAct)
  deriving DecidableEq

def NodeServer.step (s : NodeServer) : NodeEvent → Option NodeServer
  | .accept => if s.loop = .accepting then some { s with tasks := s.tasks ++ [.waiting] } else none
  | .cancel => some { s with cancelled := true }
  | .observe => if s.loop = .accepting ∧ s.cancelled = true then some { s with loop := .draining } else none
  | .drainCheck late =>
    if s.loop = .draining then
      some { s with loop := if s.activeConnections = 0 then .drained else if late then .expired else .draining }
    else none
  | .conn i a =>
    match s.tasks[i]? with
    | none => none
    | some pc =>
      match pc.next s.cancelled s.permits s.activeConnections a with
      | none => none
      | some (permits, active, pc') =>
        some { s with permits := permits, activeConnections := active, tasks := s.tasks.set i pc' }

/-- Interleavings of the accept loop, the tasks and the signal. -/
abbrev NodeRun := Run fun s e s' => NodeServer.step s e = some s'

/-- The server when it starts to accept. -/
def listening (maxConnections : UInt64) : Option NodeServer :=
  (semaphoreNew maxConnections.toNat).map fun permits => ⟨.accepting, false, permits, 0, []⟩

def Reachable (maxConnections : UInt64) (s : NodeServer) : Prop :=
  ∃ s₀ ∈ listening maxConnections, ∃ es, NodeRun s₀ es s

/-- What each step does, and when it can be taken. -/
inductive NodeStep : NodeServer → NodeEvent → NodeServer → Prop
  | accept {s : NodeServer} : s.loop = .accepting → NodeStep s .accept { s with tasks := s.tasks ++ [.waiting] }
  | cancel {s : NodeServer} : NodeStep s .cancel { s with cancelled := true }
  | observe {s : NodeServer} : s.loop = .accepting → s.cancelled = true →
      NodeStep s .observe { s with loop := .draining }
  | drainCheck {s : NodeServer} {late : Bool} : s.loop = .draining → NodeStep s (.drainCheck late)
      { s with loop := if s.activeConnections = 0 then .drained else if late then .expired else .draining }
  | conn {s : NodeServer} {i permits : Nat} {a : ConnAct} {pc pc' : ConnPc} {active : UInt32} : s.tasks[i]? = some pc →
      pc.next s.cancelled s.permits s.activeConnections a = some (permits, active, pc') →
      NodeStep s (.conn i a)
        { s with permits := permits, activeConnections := active, tasks := s.tasks.set i pc' }

theorem NodeStep.of_step {s s' : NodeServer} {e : NodeEvent} (h : s.step e = some s') : NodeStep s e s' := by
  cases e with
  | accept =>
    simp only [NodeServer.step, Option.ite_none_right_eq_some, Option.some.injEq] at h
    obtain ⟨hloop, rfl⟩ := h
    exact .accept hloop
  | cancel =>
    cases h
    exact .cancel
  | observe =>
    simp only [NodeServer.step, Option.ite_none_right_eq_some, Option.some.injEq] at h
    obtain ⟨⟨hloop, hcancelled⟩, rfl⟩ := h
    exact .observe hloop hcancelled
  | drainCheck late =>
    simp only [NodeServer.step, Option.ite_none_right_eq_some, Option.some.injEq] at h
    obtain ⟨hloop, rfl⟩ := h
    exact .drainCheck hloop
  | conn i a =>
    simp only [NodeServer.step] at h
    split at h
    · cases h
    · next pc hpc =>
      split at h
      · cases h
      · next permits active pc' hnext =>
        cases h
        exact .conn hpc hnext

theorem step_conn_of {s : NodeServer} {i permits : Nat} {a : ConnAct} {pc pc' : ConnPc} {active : UInt32}
    (hpc : s.tasks[i]? = some pc)
    (hnext : pc.next s.cancelled s.permits s.activeConnections a = some (permits, active, pc')) :
    s.step (.conn i a) =
      some { s with permits := permits, activeConnections := active, tasks := s.tasks.set i pc' } := by
  simp only [NodeServer.step, hpc, hnext]

/-! ## Permits and the counter -/

/-- The permits a task holds. -/
def ConnPc.holds : ConnPc → Nat
  | .waiting | .finished => 0
  | _ => 1

/-- What a task adds to the counter. -/
def ConnPc.counts : ConnPc → Nat
  | .counted | .handling | .handled => 1
  | _ => 0

theorem ConnPc.counts_le_holds (pc : ConnPc) : pc.counts ≤ pc.holds := by cases pc <;> decide

/-- A step moves permits and counts between the task and the server. -/
theorem ConnPc.next_balance {cancelled : Bool} {permits permits' : Nat} {active active' : UInt32} {pc pc' : ConnPc}
    {a : ConnAct} (h : pc.next cancelled permits active a = some (permits', active', pc')) :
    permits' + pc'.holds = permits + pc.holds ∧
      active' + UInt32.ofNat pc.counts = active + UInt32.ofNat pc'.counts := by
  unfold ConnPc.next at h
  split at h
  · -- acquire
    split at h
    · cases h
    · cases h
      exact ⟨by simp only [ConnPc.holds]; omega, rfl⟩
  · -- check
    cases h
    cases cancelled <;> exact ⟨rfl, rfl⟩
  all_goals cases h
  all_goals exact ⟨rfl, by simp [ConnPc.counts]⟩

/-- The permits that are left and those with the tasks are all there are, the counter is the number of counted tasks,
and the accept loop ends with the signal. -/
structure Balanced (total : Nat) (s : NodeServer) : Prop where
  permits : s.permits + Pool.total ConnPc.holds s.tasks = total
  active : s.activeConnections = UInt32.ofNat (Pool.total ConnPc.counts s.tasks)
  signalled : s.loop ≠ .accepting → s.cancelled = true

section Balanced

variable {total : Nat} {s s' : NodeServer}

theorem Balanced.step (h : Balanced total s) {e : NodeEvent} (hstep : s.step e = some s') : Balanced total s' := by
  cases NodeStep.of_step hstep with
  | accept _ =>
    refine ⟨?_, ?_, h.signalled⟩
    · rw [Pool.total_append]
      exact h.permits
    · rw [Pool.total_append]
      exact h.active
  | cancel => exact ⟨h.permits, h.active, fun _ => rfl⟩
  | observe _ hcancelled => exact ⟨h.permits, h.active, fun _ => hcancelled⟩
  | drainCheck hloop => exact ⟨h.permits, h.active, fun _ => h.signalled (by rw [hloop]; decide)⟩
  | @conn i permits a pc pc' active hpc hnext =>
    obtain ⟨hpermits, hactive⟩ := ConnPc.next_balance hnext
    have hholds := Pool.total_set ConnPc.holds pc' hpc
    have hcounts := congrArg UInt32.ofNat (Pool.total_set ConnPc.counts pc' hpc)
    refine ⟨?_, ?_, h.signalled⟩
    · have htotal := h.permits
      dsimp only
      omega
    · rw [UInt32.ofNat_add, UInt32.ofNat_add, ← h.active, ← hactive] at hcounts
      exact ((UInt32.add_left_inj _).mp hcounts).symm

/-- Every interleaving keeps the balance. -/
theorem Balanced.run {es : List NodeEvent} (h : Balanced total s) (hrun : NodeRun s es s') : Balanced total s' :=
  hrun.inv (fun _ _ _ hs hstep => hs.step hstep) h

theorem Reachable.balanced {maxConnections : UInt64} (h : Reachable maxConnections s) :
    Balanced maxConnections.toNat s := by
  obtain ⟨s₀, hs₀, es, hrun⟩ := h
  refine Balanced.run ?_ hrun
  rw [Option.mem_def, listening, Option.map_eq_some_iff] at hs₀
  obtain ⟨permits, hsem, rfl⟩ := hs₀
  unfold semaphoreNew at hsem
  split_ifs at hsem
  cases hsem
  exact ⟨rfl, rfl, fun h => absurd rfl h⟩

/-- There are as many counted tasks as permits at most. -/
theorem Balanced.counts_le (h : Balanced total s) : Pool.total ConnPc.counts s.tasks ≤ total := by
  have hle : Pool.total ConnPc.counts s.tasks ≤ Pool.total ConnPc.holds s.tasks :=
    List.sum_le_sum fun pc _ => pc.counts_le_holds
  have htotal := h.permits
  omega

theorem Balanced.active_le (h : Balanced total s) : s.activeConnections.toNat ≤ total := by
  rw [h.active, UInt32.toNat_ofNat']
  exact (Nat.mod_le _ _).trans h.counts_le

/-- With fewer than `2 ^ 32` permits a counter of zero counts nobody. -/
theorem Balanced.counts_eq_zero (h : Balanced total s) (htotal : total < 2 ^ 32) (hzero : s.activeConnections = 0)
    {pc : ConnPc} (hpc : pc ∈ s.tasks) : pc.counts = 0 := by
  have hcount := congrArg UInt32.toNat h.active
  rw [hzero, UInt32.toNat_ofNat', Nat.mod_eq_of_lt (h.counts_le.trans_lt htotal)] at hcount
  have hle := Pool.le_total ConnPc.counts hpc
  change 0 = _ at hcount
  omega

end Balanced

/-! ## After the drain -/

/-- Nobody is inside `handle_connection`. -/
def NodeServer.NoneHandling (s : NodeServer) : Prop := ∀ pc ∈ s.tasks, pc ≠ .handling

/-- Past the check and not yet out of `handle_connection`. -/
def ConnPc.committed : ConnPc → Bool
  | .cleared | .counted | .handling => true
  | _ => false

/-- The signal is set and no task is past its check, or they are out of `handle_connection` again. -/
def NodeServer.Quiet (s : NodeServer) : Prop := s.cancelled = true ∧ ∀ pc ∈ s.tasks, pc.committed = false

theorem ConnPc.next_committed {permits permits' : Nat} {active active' : UInt32} {pc pc' : ConnPc} {a : ConnAct}
    (h : pc.next true permits active a = some (permits', active', pc')) (hpc : pc.committed = false) :
    pc'.committed = false := by
  unfold ConnPc.next at h
  split at h
  · -- acquire
    split at h
    · cases h
    · cases h; rfl
  · -- the check finds the signal set
    cases h; rfl
  · cases hpc
  · cases hpc
  · cases hpc
  · cases h; rfl
  · cases h; rfl
  · cases h; rfl
  · cases h

theorem NodeServer.Quiet.step {s s' : NodeServer} (h : s.Quiet) {e : NodeEvent} (hstep : s.step e = some s') :
    s'.Quiet := by
  obtain ⟨hcancelled, htasks⟩ := h
  cases NodeStep.of_step hstep with
  | accept _ =>
    refine ⟨hcancelled, ?_⟩
    rw [List.forall_mem_append, List.forall_mem_singleton]
    exact ⟨htasks, rfl⟩
  | cancel => exact ⟨rfl, htasks⟩
  | observe _ _ => exact ⟨hcancelled, htasks⟩
  | drainCheck _ => exact ⟨hcancelled, htasks⟩
  | @conn i permits a pc pc' active hpc hnext =>
    rw [hcancelled] at hnext
    refine ⟨hcancelled, fun u hu => ?_⟩
    rcases Pool.eq_or_other_of_mem_set hu with rfl | ⟨j, -, hj⟩
    · exact ConnPc.next_committed hnext (htasks pc (List.mem_of_getElem? hpc))
    · exact htasks u (List.mem_of_getElem? hj)

/-- Nobody enters any more. -/
theorem NodeServer.Quiet.noneHandling {s s' : NodeServer} {es : List NodeEvent} (h : s.Quiet) (hrun : NodeRun s es s') :
    s'.NoneHandling := by
  have hquiet : s'.Quiet := hrun.inv (fun _ _ _ hs hstep => hs.step hstep) h
  rintro pc hpc rfl
  cases hquiet.2 _ hpc

/-- A task that has passed its check can go on, whatever the accept loop has done. -/
theorem enters_of_cleared {s : NodeServer} (h : .cleared ∈ s.tasks) :
    ∃ es s', NodeRun s es s' ∧ ¬ s'.NoneHandling := by
  obtain ⟨i, hi⟩ := List.mem_iff_getElem?.mp h
  have hlt : i < s.tasks.length := (List.getElem?_eq_some_iff.mp hi).1
  have hcounted : (s.tasks.set i .counted)[i]? = some .counted := List.getElem?_set_self hlt
  have hincrement := step_conn_of (a := .increment) hi rfl
  have henter := step_conn_of (s := { s with
    activeConnections := s.activeConnections + 1, tasks := s.tasks.set i .counted }) (a := .enter) hcounted rfl
  refine ⟨_, _, .cons hincrement (.cons henter (.nil _)), fun hnone => ?_⟩
  refine hnone .handling ?_ rfl
  exact List.mem_set (by simpa using hlt) _

/-- **The read of zero**: nobody is inside `handle_connection` then, and nobody enters it later exactly if no task is
between its check of the signal and its increment. -/
theorem drained_iff {maxConnections : UInt64} (hmax : maxConnections.toNat < 2 ^ 32) {s s' : NodeServer} {late : Bool}
    (hs : Reachable maxConnections s) (hstep : s.step (.drainCheck late) = some s') (hdrained : s'.loop = .drained) :
    s'.NoneHandling ∧ ((∀ es s'', NodeRun s' es s'' → s''.NoneHandling) ↔ ∀ pc ∈ s'.tasks, pc ≠ .cleared) := by
  have hbalanced := hs.balanced.step hstep
  have hzero : s'.activeConnections = 0 := by
    cases NodeStep.of_step hstep
    by_contra hne
    simp only [if_neg hne] at hdrained
    split at hdrained <;> cases hdrained
  have hnone : ∀ pc ∈ s'.tasks, pc.counts = 0 := fun pc hpc => hbalanced.counts_eq_zero hmax hzero hpc
  refine ⟨?_, ?_, ?_⟩
  · rintro pc hpc rfl
    cases hnone _ hpc
  · rintro hnever pc hpc rfl
    obtain ⟨es, s'', hrun, henters⟩ := enters_of_cleared hpc
    exact henters (hnever es s'' hrun)
  · intro hclear es s'' hrun
    refine NodeServer.Quiet.noneHandling ⟨hbalanced.signalled (by rw [hdrained]; decide), fun pc hpc => ?_⟩ hrun
    have hcounts := hnone pc hpc
    have hne := hclear pc hpc
    cases pc with
    | cleared => exact absurd rfl hne
    | counted | handling => cases hcounts
    | _ => rfl

/-! ## More permits than the counter can count -/

/-- The server with `n` tasks inside `handle_connection`. -/
def crowded (total n : Nat) : NodeServer :=
  ⟨.accepting, false, total - n, UInt32.ofNat n, List.replicate n .handling⟩

/-- A step of the task that was spawned last. -/
theorem step_last {l : LoopPc} {c : Bool} {p p' : Nat} {n n' : UInt32} {ts : List ConnPc} {pc pc' : ConnPc}
    {a : ConnAct} (hnext : pc.next c p n a = some (p', n', pc')) :
    NodeServer.step ⟨l, c, p, n, ts ++ [pc]⟩ (.conn ts.length a) = some ⟨l, c, p', n', ts ++ [pc']⟩ := by
  rw [step_conn_of (s := ⟨l, c, p, n, ts ++ [pc]⟩) (by simp) hnext]
  simp

/-- While there are permits, one more task can be let in. -/
theorem run_crowded_succ {total n : Nat} (hn : n < total) :
    ∃ es, NodeRun (crowded total n) es (crowded total (n + 1)) := by
  have hpermits : total - n ≠ 0 := by omega
  have hlast : crowded total (n + 1) =
      ⟨.accepting, false, total - n - 1, UInt32.ofNat n + 1, List.replicate n .handling ++ [.handling]⟩ := by
    simp [crowded, List.replicate_succ', UInt32.ofNat_add, Nat.sub_add_eq]
  rw [hlast]
  have haccept : (crowded total n).step .accept =
      some ⟨.accepting, false, total - n, UInt32.ofNat n, List.replicate n .handling ++ [.waiting]⟩ := rfl
  have hacquire : ConnPc.next false (total - n) (UInt32.ofNat n) .waiting .acquire =
      some (total - n - 1, UInt32.ofNat n, .admitted) := if_neg hpermits
  exact ⟨_, .cons haccept (.cons (step_last hacquire) (.cons (step_last (a := .check) rfl)
    (.cons (step_last (a := .increment) rfl) (.cons (step_last (a := .enter) rfl) (.nil _)))))⟩

theorem run_crowded {total n : Nat} (hn : n ≤ total) : ∃ es, NodeRun (crowded total 0) es (crowded total n) := by
  induction n with
  | zero => exact ⟨[], .nil _⟩
  | succ n ih =>
    obtain ⟨es, hrun⟩ := ih (by omega)
    obtain ⟨es', hrun'⟩ := run_crowded_succ hn
    exact ⟨es ++ es', hrun.append hrun'⟩

/-- With `2 ^ 32` permits the counter can wrap to zero, and the next task that leaves takes it below. -/
theorem underflow_of_le {maxConnections : UInt64} (hmany : 2 ^ 32 ≤ maxConnections.toNat)
    (hsem : maxConnections.toNat ≤ maxPermits) :
    ∃ s i s', Reachable maxConnections s ∧ s.step (.conn i .decrement) = some s' ∧ s.activeConnections = 0 := by
  obtain ⟨n, hn⟩ : ∃ n, 2 ^ 32 = n + 1 := ⟨2 ^ 32 - 1, by norm_num⟩
  have hwrapped : UInt32.ofNat (n + 1) = 0 := by
    rw [← hn]
    rfl
  rw [hn] at hmany
  obtain ⟨es, hrun⟩ := run_crowded hmany
  have hlast : crowded maxConnections.toNat (n + 1) =
      ⟨.accepting, false, maxConnections.toNat - (n + 1), 0, List.replicate n .handling ++ [.handling]⟩ := by
    rw [crowded, hwrapped, List.replicate_succ']
  rw [hlast] at hrun
  have hstart : crowded maxConnections.toNat 0 ∈ listening maxConnections := by
    rw [listening, semaphoreNew, if_pos hsem]
    rfl
  refine ⟨_, _, _, ⟨_, hstart, _, hrun.snoc (step_last (a := .leave) rfl)⟩, step_last (a := .decrement) rfl, rfl⟩

/-! ## Graceful shutdown -/

/-- **Graceful shutdown.** Over all interleavings: the counter is within the permits; it never goes below zero exactly
if there are fewer than `2 ^ 32` permits, or more than a semaphore takes; and with fewer, whenever the drain loop reads
zero, nobody is inside `handle_connection`, and nobody enters it later if and only if no task is then between its check
of the signal and its increment. -/
theorem drain_iff (maxConnections : UInt64) :
    (∀ s, Reachable maxConnections s → s.activeConnections.toNat ≤ maxConnections.toNat) ∧
      ((∀ s i s', Reachable maxConnections s → s.step (.conn i .decrement) = some s' → s.activeConnections ≠ 0) ↔
        maxConnections.toNat < 2 ^ 32 ∨ maxPermits < maxConnections.toNat) ∧
      (maxConnections.toNat < 2 ^ 32 → ∀ s late s', Reachable maxConnections s →
        s.step (.drainCheck late) = some s' → s'.loop = .drained →
          s'.NoneHandling ∧
            ((∀ es s'', NodeRun s' es s'' → s''.NoneHandling) ↔ ∀ pc ∈ s'.tasks, pc ≠ .cleared)) := by
  refine ⟨fun s hs => hs.balanced.active_le, ⟨?_, ?_⟩, fun hmax s late s' hs => drained_iff hmax hs⟩
  · intro hnever
    by_contra hmany
    rw [not_or, not_lt, not_lt] at hmany
    obtain ⟨s, i, s', hs, hstep, hzero⟩ := underflow_of_le hmany.1 hmany.2
    exact hnever s i s' hs hstep hzero
  · rintro (hmax | hmax) s i s' hs hstep hzero
    · cases NodeStep.of_step hstep with
      | @conn _ permits _ pc pc' active hpc hnext =>
        have hcounts := hs.balanced.counts_eq_zero hmax hzero (List.mem_of_getElem? hpc)
        cases pc with
        | handled => cases hcounts
        | _ => cases hnext
    · obtain ⟨s₀, hs₀, -⟩ := hs
      rw [listening, semaphoreNew, if_neg hmax.not_ge] at hs₀
      cases hs₀

/-- A task checks the signal, the signal is set and the loop reads zero; the task then enters `handle_connection`. -/
theorem enters_after_drain :
    ∃ s₀ ∈ listening 1, ∃ s s', NodeRun s₀
        [.accept, .conn 0 .acquire, .conn 0 .check, .cancel, .observe, .drainCheck false] s ∧ s.loop = .drained ∧
      NodeRun s [.conn 0 .increment, .conn 0 .enter] s' ∧ s'.tasks = [.handling] := by
  refine ⟨⟨.accepting, false, 1, 0, []⟩, rfl, ⟨.drained, true, 0, 0, [.cleared]⟩, ⟨.drained, true, 0, 1, [.handling]⟩,
    ?_, rfl, ?_, rfl⟩
  · exact .cons rfl (.cons rfl (.cons rfl (.cons rfl (.cons rfl (.cons rfl (.nil _))))))
  · exact .cons rfl (.cons rfl (.nil _))

end RustProxy.Agent
