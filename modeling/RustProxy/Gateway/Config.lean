import RustProxy.Gateway.Replies
import RustProxy.Proxy.Gate

/-!
# From a configuration to who reaches a node

`Gateway::new` (`gateway/src/gateway.rs`) makes one optional pair of two optional fields of the configuration, and the
accept loop serves each client with it. A user name that is set is documented to require authentication; it does so
exactly where a password is set too, or where no client is served at all (`username_required_iff`).
-/

namespace RustProxy.Gateway

open Lib Protocol Proxy

/-- `GatewayConfig`, as far as `Gateway::new` and `Gateway::run` read it, without the address that clients connect to.
Durations are nanoseconds. -/
structure GatewayConfig where
  socksUsername : Option String := none
  socksPassword : Option String := none
  maxConnections : UInt64 := 1024
  connectTimeout : Nat := 10 * 10 ^ 9
  idleTimeout : Nat := 300 * 10 ^ 9
  metricsBindAddr : Option String := none

/-- `GatewayContext` without its client, which belongs to the environment of a session. -/
structure GatewayContext where
  auth : Option (String × String)
  connectTimeout : Nat
  idleTimeout : Nat

/-- `Semaphore::MAX_PERMITS`. -/
def maxPermits : Nat := 2 ^ 61 - 1

/-- A semaphore with more permits than there can be is a panic. -/
def semaphoreNew (permits : Nat) : Option Nat := if permits ≤ maxPermits then some permits else none

def GatewayConfig.auth (config : GatewayConfig) : Option (String × String) :=
  match config.socksUsername, config.socksPassword with
  | some user, some pass => some (user, pass)
  | _, _ => none

end RustProxy.Gateway

namespace RustProxy

open Lib Gateway

structure Gateway where
  ctx : GatewayContext
  /-- The permits of the semaphore. -/
  sem : Nat
  config : GatewayConfig

def Gateway.new (config : GatewayConfig) : Option Gateway := do
  let ctx := { auth := config.auth, connectTimeout := config.connectTimeout, idleTimeout := config.idleTimeout }
  let sem ← semaphoreNew config.maxConnections.toNat
  return { ctx, sem, config }

/-- The task that the accept loop spawns for a client, while `held` permits are with other tasks: it does nothing as
long as there is no permit for it, and is dropped if the gateway is shutting down. -/
def Gateway.clientTask (gateway : Gateway) (held : Nat) (cancelled : Bool) : Option (Handler (UInt64 × UInt64)) :=
  if held < gateway.sem ∧ cancelled = false then some (runWithCtx gateway.ctx.auth) else none

end RustProxy

namespace RustProxy.Gateway

open Lib Protocol Proxy

/-- The gateway that the configuration gives reaches node selection for a client of the environment. -/
def ReachesSelection (config : GatewayConfig) (held : Nat) (cancelled : Bool) (e : Env Control.Ans) : Prop :=
  ∃ gateway ∈ Gateway.new config, ∃ task ∈ gateway.clientTask held cancelled,
    ∃ x ∈ task.trace Env.serve e, x.1 = .ctl .selectNode

/-- What the client sends has, after its greeting, a credential frame with the user name. -/
def Presents (username : String) (s : Bytes) : Prop :=
  ∃ (g : Greeting) (c : UsernamePassword) (gb cb rest : Bytes),
    s = gb ++ (cb ++ rest) ∧ g.IsFrame gb ∧ c.IsFrame cb ∧ c.username = username

theorem new_eq_some {config : GatewayConfig} {gateway : Gateway} : gateway ∈ Gateway.new config ↔
    config.maxConnections.toNat ≤ maxPermits ∧
      gateway = ⟨⟨config.auth, config.connectTimeout, config.idleTimeout⟩, config.maxConnections.toNat, config⟩ := by
  by_cases h : config.maxConnections.toNat ≤ maxPermits
  · simp [Gateway.new, semaphoreNew, h, eq_comm]
  · simp [Gateway.new, semaphoreNew, h]

theorem clientTask_eq_some {gateway : Gateway} {held : Nat} {cancelled : Bool} {task : Handler (UInt64 × UInt64)} :
    task ∈ gateway.clientTask held cancelled ↔
      held < gateway.sem ∧ cancelled = false ∧ task = runWithCtx gateway.ctx.auth := by
  by_cases h : held < gateway.sem ∧ cancelled = false
  · simp [Gateway.clientTask, h, eq_comm]
  · simp only [Gateway.clientTask, if_neg h, Option.mem_def, reduceCtorEq, false_iff]
    exact fun ⟨hheld, hrun, _⟩ => h ⟨hheld, hrun⟩

/-- Selection is reached with a permit and a running gateway, for what opens as the configured pair asks. -/
theorem reachesSelection_iff {config : GatewayConfig} {held : Nat} {cancelled : Bool} {e : Env Control.Ans}
    (hp : (e.peer .front).Accepts) :
    ReachesSelection config held cancelled e ↔
      config.maxConnections.toNat ≤ maxPermits ∧ held < config.maxConnections.toNat ∧ cancelled = false ∧
        ∃ bs q rest, Opening config.auth bs q ∧ q.command = .connect ∧ (e.peer .front).input = bs ++ rest := by
  constructor
  · rintro ⟨gateway, hnew, task, htask, x, hx, hsel⟩
    obtain ⟨hmax, rfl⟩ := new_eq_some.mp hnew
    obtain ⟨hheld, hrun, rfl⟩ := clientTask_eq_some.mp htask
    obtain ⟨bs, q, hop, hq, hin⟩ := (gateway_reaches_iff hp (x.2.peer .front).input).mp ⟨x, hx, hsel, rfl⟩
    exact ⟨hmax, hheld, hrun, bs, q, _, hop, hq, hin⟩
  · rintro ⟨hmax, hheld, hrun, bs, q, rest, hop, hq, hin⟩
    obtain ⟨x, hx, hsel, -⟩ := (gateway_reaches_iff hp rest).mpr ⟨bs, q, hop, hq, hin⟩
    exact ⟨_, new_eq_some.mpr ⟨hmax, rfl⟩, _, clientTask_eq_some.mpr ⟨hheld, hrun, rfl⟩, x, hx, hsel⟩

/-- An opening with credentials presents their user name. -/
theorem presents_of_opening {username password : String} {bs rest : Bytes} {q : Request}
    (h : Opening (some (username, password)) bs q) : Presents username (bs ++ rest) := by
  obtain ⟨g, gb, a, qb, rfl, hg, ⟨-, ha⟩, -⟩ := h
  exact ⟨g, ⟨username, password⟩, gb, a, qb ++ rest, by simp, hg, ha, rfl⟩

/-- A stream that begins with the opening without authentication presents no user name: the byte after its greeting is
the version of the protocol, not that of a credential frame. -/
theorem not_presents_exampleOpening (username : String) (rest : Bytes) :
    ¬ Presents username (exampleOpening ++ rest) := by
  rintro ⟨g, c, gb, cb, t, hs, hg, hc, -⟩
  obtain ⟨rfl, -, hlen⟩ := Greeting.isFrame_iff.mp hg
  obtain ⟨rfl, -⟩ := UsernamePassword.isFrame_iff.mp hc
  have hs : (version :: 1 :: 0 :: version :: _ : Bytes) = version :: UInt8.ofNat g.methods.length :: _ := hs
  simp only [List.cons.injEq, true_and] at hs
  obtain ⟨hone, hs⟩ := hs
  have hone : g.methods.length = 1 := by rw [← toNat_ofNat_length hlen, ← hone]; rfl
  obtain ⟨m, hm⟩ := List.length_eq_one_iff.mp hone
  rw [hm] at hs
  have hver : version = authVersion := (List.cons.inj (List.cons.inj hs).2).1
  exact absurd hver (by decide)

/-- **Who must authenticate.** With a user name set, every client that reaches node selection has presented that name
exactly if a password is set too, or the gateway serves nobody, having no permits or more than a semaphore takes. -/
theorem username_required_iff (config : GatewayConfig) (username : String)
    (husername : config.socksUsername = some username) :
    (∀ (held : Nat) (cancelled : Bool) (s : Bytes) (atEnd : IoError) (e : Env Control.Ans),
        ReachesSelection config held cancelled (e.setPeer .front (.sending s atEnd)) → Presents username s) ↔
      config.socksPassword.isSome ∨ config.maxConnections = 0 ∨ maxPermits < config.maxConnections.toNat := by
  have hp (s : Bytes) (atEnd : IoError) (e : Env Control.Ans) :
      ((e.setPeer .front (.sending s atEnd)).peer .front).Accepts := by
    rw [Env.peer_setPeer]
    exact Peer.accepts_sending s atEnd
  constructor
  · intro h
    by_contra hno
    simp only [not_or, Bool.not_eq_true, Option.isSome_eq_false_iff, Option.isNone_iff_eq_none, not_lt] at hno
    obtain ⟨hpassword, hpos, hmax⟩ := hno
    have hauth : config.auth = none := by rw [GatewayConfig.auth, husername, hpassword]
    have hpermit : 0 < config.maxConnections.toNat :=
      Nat.pos_of_ne_zero fun h0 => hpos (UInt64.toNat_inj.mp h0)
    refine not_presents_exampleOpening username [] (h 0 false _ ⟨.unexpectedEof, ""⟩ (exampleEnv (.ok ()) [])
      ((reachesSelection_iff (hp _ _ _)).mpr ⟨hmax, hpermit, rfl, ?_⟩))
    exact ⟨exampleOpening, exampleRequest, [], hauth ▸ opening_example, rfl, by rw [Env.peer_setPeer]; rfl⟩
  · intro hcond held cancelled s atEnd e hreach
    obtain ⟨hmax, hheld, -, bs, q, rest, hop, -, hin⟩ := (reachesSelection_iff (hp s atEnd e)).mp hreach
    rcases hcond with hpassword | hzero | hmany
    · obtain ⟨password, hpassword⟩ := Option.isSome_iff_exists.mp hpassword
      have hauth : config.auth = some (username, password) := by rw [GatewayConfig.auth, husername, hpassword]
      rw [Env.peer_setPeer] at hin
      have hin : s = bs ++ rest := hin
      rw [hin]
      exact presents_of_opening (hauth ▸ hop)
    · rw [hzero] at hheld
      exact absurd hheld (Nat.not_lt_zero held)
    · omega

/-- A configuration that asks for the user name `user`. -/
def userConfig (password : Option String) : GatewayConfig := { socksUsername := some "user", socksPassword := password }

theorem user_with_password_required : (userConfig (some "pass")).socksUsername = some "user" ∧
    ∀ (held : Nat) (cancelled : Bool) (s : Bytes) (atEnd : IoError) (e : Env Control.Ans),
      ReachesSelection (userConfig (some "pass")) held cancelled (e.setPeer .front (.sending s atEnd)) →
        Presents "user" s :=
  ⟨rfl, (username_required_iff (userConfig (some "pass")) "user" rfl).mpr (.inl rfl)⟩

/-- Without a password the gateway asks for nothing: a client that offers no authentication reaches node selection. -/
theorem user_without_password_open : (userConfig none).socksUsername = some "user" ∧
    ReachesSelection (userConfig none) 0 false (exampleEnv (.ok ()) []) ∧
    ((exampleEnv (.ok ()) []).peer .front).input = exampleOpening ∧ ¬ Presents "user" exampleOpening := by
  refine ⟨rfl, ?_, rfl, ?_⟩
  · refine (reachesSelection_iff (Peer.accepts_sending _ _)).mpr ⟨by decide, by decide, rfl, ?_⟩
    exact ⟨exampleOpening, exampleRequest, [], opening_example, rfl, (List.append_nil _).symm⟩
  · simpa using not_presents_exampleOpening "user" []

end RustProxy.Gateway
