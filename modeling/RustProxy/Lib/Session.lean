import RustProxy.Lib.Interleave
import RustProxy.Lib.Stream

/-!
# Sessions between two streams

A session talks to a stream on each side, performs control operations, and may end by relaying bytes between the two. It
is run against an environment that answers deterministically (`Env.serve`), where a part that uses one stream behaves as
it does alone (`run_embed`).

As a `Party` to a network, it takes one step at a time and records what it has got and put on each side; operations can
fail halfway, and a relay takes and passes on what it likes, in order. If failed operations and relays end the program
(`Brittle`), then whatever the order of steps, what the party has got and put is the history of its program up to the
relay, followed by what has been relayed (`History`, `exec_history`).
-/

namespace RustProxy.Lib

inductive Side
  | front
  | back
  deriving DecidableEq, Repr

def Side.other : Side → Side
  | front => back
  | back => front

@[simp] theorem Side.other_ne (s : Side) : s.other ≠ s := by cases s <;> decide

/-- Operations on the two streams, control operations, and the relay. -/
inductive SessionOp (κ : Type)
  | io (s : Side) (o : StreamOp)
  | ctl (c : κ)
  | relay

section Session

variable {κ : Type} {A : κ → Type} {ε α β : Type}

/-- A relay is answered with the bytes it carried from the front to the back, and back. -/
abbrev SessionOp.Ans (A : κ → Type) : SessionOp κ → Type
  | io _ o => o.Ans
  | ctl c => A c
  | relay => Except IoFault (UInt64 × UInt64)

variable (A ε α) in
abbrev Session := Prog (SessionOp κ) (SessionOp.Ans A) ε α

/-- A program on one stream, as part of a session. -/
def Prog.embed (s : Side) : Prog StreamOp StreamOp.Ans ε α → Session A ε α
  | .ret a => .ret a
  | .fail e => .fail e
  | .op o k => .op (.io s o) fun a => (k a).embed s

/-! ## Running in an environment -/

variable (A) in
structure Env where
  peer : Side → Peer
  answer : (c : κ) → A c
  relayed : Except IoFault (UInt64 × UInt64)

namespace Env

/-- The environment with another peer on one side. -/
def setPeer (e : Env A) (s : Side) (p : Peer) : Env A := { e with peer := Function.update e.peer s p }

def serve : (i : SessionOp κ) → Env A → i.Ans A × Env A
  | .io s o, e => ((Peer.serve o (e.peer s)).1, e.setPeer s (Peer.serve o (e.peer s)).2)
  | .ctl c, e => (e.answer c, e)
  | .relay, e => (e.relayed, e)

@[simp] theorem peer_setPeer (e : Env A) (s : Side) (p : Peer) : (e.setPeer s p).peer s = p :=
  Function.update_self ..

@[simp] theorem peer_setPeer_of_ne (e : Env A) {s t : Side} (h : t ≠ s) (p : Peer) :
    (e.setPeer s p).peer t = e.peer t := Function.update_of_ne h ..

@[simp] theorem setPeer_setPeer (e : Env A) (s : Side) (p q : Peer) : (e.setPeer s p).setPeer s q = e.setPeer s q := by
  simp [setPeer]

@[simp] theorem setPeer_self (e : Env A) (s : Side) : e.setPeer s (e.peer s) = e := by simp [setPeer]

end Env

theorem run_embed (s : Side) (p : Prog StreamOp StreamOp.Ans ε α) (e : Env A) :
    (p.embed s : Session A ε α).run Env.serve e =
      ((p.run Peer.serve (e.peer s)).1, e.setPeer s (p.run Peer.serve (e.peer s)).2) := by
  induction p generalizing e with
  | ret a => simp [Prog.embed]
  | fail x => simp [Prog.embed]
  | op o k ih => simp only [Prog.embed, Prog.run_op, Env.serve, ih, Env.peer_setPeer, Env.setPeer_setPeer]

/-- A part that uses one stream performs operations on that stream only. -/
theorem performs_embed (s : Side) (p : Prog StreamOp StreamOp.Ans ε α) :
    (p.embed s : Session A ε α).Performs fun i => ∃ o, i = .io s o := by
  induction p with
  | ret a => trivial
  | fail e => trivial
  | op o k ih => exact ⟨⟨o, rfl⟩, fun a _ => ih a⟩

/-! ## Parties to a network -/

variable (A) in
/-- An operation of a session, and its answer. -/
abbrev SessionEvent := Σ i : SessionOp κ, i.Ans A

namespace SessionEvent

def ok : SessionEvent A → Bool
  | ⟨.io _ o, a⟩ => o.isOk a
  | _ => true

/-- The bytes that it read on the side. -/
def got (s : Side) : SessionEvent A → Bytes
  | ⟨.io t o, a⟩ => if s = t then StreamEvent.got ⟨o, a⟩ else []
  | _ => []

/-- The bytes that it wrote on the side. -/
def put (s : Side) : SessionEvent A → Bytes
  | ⟨.io t o, a⟩ => if s = t then StreamEvent.put ⟨o, a⟩ else []
  | _ => []

def ctl : SessionEvent A → Option κ
  | ⟨.ctl c, _⟩ => some c
  | _ => none

variable {c : κ} {a : A c} {r : SessionOp.relay.Ans A} {s : Side}

@[simp] theorem got_ctl : got s (⟨.ctl c, a⟩ : SessionEvent A) = [] := rfl

@[simp] theorem got_relay : got s (⟨.relay, r⟩ : SessionEvent A) = [] := rfl

@[simp] theorem put_ctl : put s (⟨.ctl c, a⟩ : SessionEvent A) = [] := rfl

@[simp] theorem put_relay : put s (⟨.relay, r⟩ : SessionEvent A) = [] := rfl

@[simp] theorem ctl_ctl : ctl (⟨.ctl c, a⟩ : SessionEvent A) = some c := rfl

@[simp] theorem ctl_relay : ctl (⟨.relay, r⟩ : SessionEvent A) = none := rfl

end SessionEvent

/-- A failed operation on a stream is the last one, and so is a relay. -/
def Prog.Brittle : Session A ε α → Prop
  | .ret _ => True
  | .fail _ => True
  | .op i k => (∀ a, (k a).Brittle) ∧ (∀ a, SessionEvent.ok ⟨i, a⟩ = false → (k a).Final) ∧
      (i = .relay → ∀ a, (k a).Final)

theorem Prog.Brittle.path {p q : Session A ε α} {es : List (SessionEvent A)} (hp : p.Brittle) (h : p.Path es q) :
    q.Brittle := by
  induction h with
  | nil p => exact hp
  | cons _ ih => exact ih (hp.1 _)

theorem Prog.Final.brittle {p : Session A ε α} (h : p.Final) : p.Brittle := by
  cases p with
  | ret a => trivial
  | fail e => trivial
  | op i k => exact h.elim

theorem brittle_ctl {c : κ} {k : A c → Session A ε α} (hk : ∀ a, (k a).Brittle) :
    (.op (.ctl c) k : Session A ε α).Brittle :=
  ⟨hk, fun _ h => Bool.noConfusion h, by rintro ⟨⟩⟩

theorem brittle_relay {k : SessionOp.relay.Ans A → Session A ε α} (hk : ∀ a, (k a).Final) :
    (.op .relay k : Session A ε α).Brittle :=
  ⟨fun a => (hk a).brittle, fun a _ => hk a, fun _ => hk⟩

theorem Prog.Strict.brittle_bind {s : Side} {p : Prog StreamOp StreamOp.Ans ε α} {f : α → Session A ε β} (hp : p.Strict)
    (hf : ∀ a, (f a).Brittle) : ((p.embed s).bind f).Brittle := by
  induction p with
  | ret a => exact hf a
  | fail e => trivial
  | op o k ih =>
    refine ⟨fun a => ?_, fun a ha => ?_, by rintro ⟨⟩⟩
    · cases hok : o.isOk a with
      | true => exact ih a (hp.1 a hok)
      | false =>
        obtain ⟨e, he⟩ := hp.2 a hok
        change (((k a).embed s).bind f).Brittle
        rw [he]
        trivial
    · obtain ⟨e, he⟩ := hp.2 a ha
      change (((k a).embed s).bind f).Final
      rw [he]
      trivial

theorem Prog.Strict.brittle {s : Side} {p : Prog StreamOp StreamOp.Ans ε α} (hp : p.Strict) :
    (p.embed s : Session A ε α).Brittle := by
  rw [← bind_ret (p.embed s)]
  exact hp.brittle_bind fun _ => trivial

/-! ## Histories of embedded programs -/

variable (A) in
/-- An operation on one stream, as part of a session. -/
def StreamEvent.on (s : Side) (e : StreamEvent) : SessionEvent A := ⟨.io s e.1, e.2⟩

theorem Prog.Path.embed_inv {s : Side} {p : Prog StreamOp StreamOp.Ans ε α} {es : List (SessionEvent A)}
    {q : Session A ε α} (h : (p.embed s : Session A ε α).Path es q) :
    ∃ fs p', es = fs.map (StreamEvent.on A s) ∧ p.Path fs p' ∧ q = p'.embed s := by
  induction p generalizing es with
  | ret a => obtain ⟨rfl, rfl⟩ := h.ret_inv; exact ⟨[], _, rfl, .nil _, rfl⟩
  | fail e => obtain ⟨rfl, rfl⟩ := h.fail_inv; exact ⟨[], _, rfl, .nil _, rfl⟩
  | op o k ih =>
    rcases h.op_inv with ⟨rfl, rfl⟩ | ⟨a, _, rfl, hk⟩
    · exact ⟨[], _, rfl, .nil _, rfl⟩
    · obtain ⟨fs, p', rfl, hp, rfl⟩ := ih a hk
      exact ⟨⟨o, a⟩ :: fs, p', rfl, .cons hp, rfl⟩

/-- A program that does not use a side gets and puts nothing there. -/
theorem Prog.Path.unused {s : Side} {p q : Session A ε α} {es : List (SessionEvent A)} (h : p.Path es q)
    (hp : p.Performs fun i => ∀ o, i ≠ .io s o) :
    es.flatMap (SessionEvent.got s) = [] ∧ es.flatMap (SessionEvent.put s) = [] := by
  induction h with
  | nil p => exact ⟨rfl, rfl⟩
  | @cons i k a es q h ih =>
    obtain ⟨hi, hk⟩ := hp
    obtain ⟨hg, hput⟩ := ih (hk _ trivial)
    rw [List.flatMap_cons, List.flatMap_cons, hg, hput]
    cases i with
    | io t o =>
      have ht : s ≠ t := fun hst => hi o (by rw [hst])
      exact ⟨by simp [SessionEvent.got, ht], by simp [SessionEvent.put, ht]⟩
    | ctl c => exact ⟨rfl, rfl⟩
    | relay => exact ⟨rfl, rfl⟩

theorem embed_eq_ret {s : Side} {p : Prog StreamOp StreamOp.Ans ε α} {a : α} :
    (p.embed s : Session A ε α) = .ret a ↔ p = .ret a := by
  cases p <;> simp [Prog.embed]

theorem embed_ne_relay {s : Side} {p : Prog StreamOp StreamOp.Ans ε α} {k : SessionOp.relay.Ans A → Session A ε α} :
    (p.embed s : Session A ε α) ≠ .op .relay k := by
  cases p <;> rintro ⟨⟩

theorem embed_bind_ne_relay {s : Side} {p : Prog StreamOp StreamOp.Ans ε α} {f : α → Session A ε β}
    {k : SessionOp.relay.Ans A → Session A ε β} (hp : ∀ a, p ≠ .ret a) : (p.embed s).bind f ≠ .op .relay k := by
  cases p with
  | ret a => exact absurd rfl (hp a)
  | fail e => rintro ⟨⟩
  | op o k => rintro ⟨⟩

/-- A history is inside the embedded program, or has left it with a value. -/
theorem Prog.Path.embed_bind_inv {s : Side} {p : Prog StreamOp StreamOp.Ans ε α} {f : α → Session A ε β}
    {es : List (SessionEvent A)} {q : Session A ε β} (h : ((p.embed s).bind f).Path es q) :
    (∃ fs p', es = fs.map (StreamEvent.on A s) ∧ p.Path fs p' ∧ (∀ a, p' ≠ .ret a) ∧ q = (p'.embed s).bind f) ∨
      ∃ a fs es₂, es = fs.map (StreamEvent.on A s) ++ es₂ ∧ p.Path fs (.ret a) ∧ (f a).Path es₂ q := by
  rcases h.bind_inv with ⟨_, hp, hne, rfl⟩ | ⟨a, _, es₂, rfl, hp, hf⟩
  · obtain ⟨fs, p', rfl, hp', rfl⟩ := hp.embed_inv
    exact .inl ⟨fs, p', rfl, hp', fun a ha => hne a (embed_eq_ret.mpr ha), rfl⟩
  · obtain ⟨fs, p', rfl, hp', heq⟩ := hp.embed_inv
    obtain rfl := embed_eq_ret.mp heq.symm
    exact .inr ⟨a, fs, es₂, rfl, hp', hf⟩

section Embedded

variable {s t : Side} {fs : List StreamEvent}

/-- What is collected from the operations on one side is what they were before they were embedded there. -/
theorem flatMap_on {f : SessionEvent A → Bytes} {g : StreamEvent → Bytes}
    (h : ∀ e : StreamEvent, f (e.on A t) = if s = t then g e else []) :
    (fs.map (StreamEvent.on A t)).flatMap f = if s = t then fs.flatMap g else [] := by
  rw [List.flatMap_map]
  by_cases hs : s = t
  · rw [if_pos hs]
    exact congrArg (List.flatMap · fs) (funext fun e => (h e).trans (if_pos hs))
  · rw [if_neg hs, List.flatMap_eq_nil_iff]
    exact fun e _ => (h e).trans (if_neg hs)

@[simp] theorem flatMap_got_on : (fs.map (StreamEvent.on A t)).flatMap (SessionEvent.got s) =
    if s = t then fs.flatMap StreamEvent.got else [] := flatMap_on fun _ => rfl

@[simp] theorem flatMap_put_on : (fs.map (StreamEvent.on A t)).flatMap (SessionEvent.put s) =
    if s = t then fs.flatMap StreamEvent.put else [] := flatMap_on fun _ => rfl

@[simp] theorem ok_on {e : StreamEvent} : (e.on A t).ok = e.ok := rfl

@[simp] theorem ctl_on {e : StreamEvent} : (e.on A t).ctl = none := rfl

theorem filterMap_ctl_on : (fs.map (StreamEvent.on A t)).filterMap SessionEvent.ctl = [] := by simp

end Embedded

variable (A ε α) in
/-- A session and what it has done: the bytes got and put on each side, those that its relay has taken from a side and
not passed on yet, and the control operations. -/
structure Party where
  prog : Session A ε α
  got : Side → Bytes
  put : Side → Bytes
  buf : Side → Bytes
  ctls : List κ

namespace Party

/-- A session that has done nothing yet. -/
def start (prog : Session A ε α) : Party A ε α := ⟨prog, fun _ => [], fun _ => [], fun _ => [], []⟩

/-- More bytes on one side. -/
def push (f : Side → Bytes) (s : Side) (bs : Bytes) : Side → Bytes := fun t => f t ++ if t = s then bs else []

variable (A) in
/-- A step: the answer to a control operation, a read or write that succeeds or fails halfway, and what a relay does. -/
inductive Act
  | answer (ans : (c : κ) → A c)
  | read (bs : Bytes)
  | readFails (bs : Bytes) (fault : IoFault)
  | write
  | writeFails (n : Nat) (fault : IoFault)
  | take (s : Side) (bs : Bytes)
  | pass (s : Side) (n : Nat)
  | finish (outcome : Except IoFault (UInt64 × UInt64))

def exec (p : Party A ε α) (act : Act A) : Option (Party A ε α) :=
  match act, p.prog with
  | .answer ans, .op (.ctl c) k => some { p with prog := k (ans c), ctls := p.ctls ++ [c] }
  | .read bs, .op (.io s (.read n)) k =>
    if h : bs.length = n then some { p with prog := k (.ok ⟨bs, h⟩), got := push p.got s bs } else none
  | .readFails bs fault, .op (.io s (.read n)) k =>
    if bs.length < n then some { p with prog := k (.error fault), got := push p.got s bs } else none
  | .write, .op (.io s (.write bs)) k => some { p with prog := k (.ok ()), put := push p.put s bs }
  | .writeFails n fault, .op (.io s (.write bs)) k =>
    some { p with prog := k (.error fault), put := push p.put s (bs.take n) }
  | .take s bs, .op .relay _ => some { p with got := push p.got s bs, buf := push p.buf s bs }
  | .pass s n, .op .relay _ => some { p with
      buf := Function.update p.buf s ((p.buf s).drop n)
      put := push p.put s.other ((p.buf s).take n) }
  | .finish outcome, .op .relay k => some { p with prog := k outcome }
  | _, _ => none

/-- What the party has got and put is the history `es` of its program, which has come to `q`, and the bytes `moved` by
the relay; operations that failed halfway and a relay that ended are not in the history. -/
structure History (prog : Session A ε α) (p : Party A ε α) (es : List (SessionEvent A)) (q : Session A ε α)
    (moved : Side → Bytes) : Prop where
  path : prog.Path es q
  ok : ∀ e ∈ es, e.ok
  ctls : p.ctls = es.filterMap SessionEvent.ctl
  got : ∀ s, es.flatMap (SessionEvent.got s) ++ moved s <+: p.got s
  put : ∀ s, p.put s <+: es.flatMap (SessionEvent.put s) ++ moved s.other
  relaying : (∀ s, moved s = [] ∧ p.buf s = []) ∨ ∃ k, q = .op .relay k
  /-- As long as there is something to do, nothing is missing. -/
  live : p.prog.Final ∨ (p.prog = q ∧ (∀ s, p.got s = es.flatMap (SessionEvent.got s) ++ moved s ++ p.buf s) ∧
    ∀ s, p.put s = es.flatMap (SessionEvent.put s) ++ moved s.other)

section Steps

variable {prog q : Session A ε α} {p p' : Party A ε α} {es : List (SessionEvent A)} {moved : Side → Bytes}

theorem history_start (prog : Session A ε α) : History prog (start prog) [] prog fun _ => [] where
  path := .nil _
  ok := by simp
  ctls := rfl
  got _ := List.prefix_rfl
  put _ := List.prefix_rfl
  relaying := .inl fun _ => ⟨rfl, rfl⟩
  live := .inr ⟨rfl, fun _ => rfl, fun _ => rfl⟩

/-- A party that is about to perform an operation has missed nothing. -/
theorem History.at_op (h : History prog p es q moved) {i : SessionOp κ} {k : i.Ans A → Session A ε α}
    (hprog : p.prog = .op i k) : q = .op i k ∧ (∀ s, p.got s = es.flatMap (SessionEvent.got s) ++ moved s ++ p.buf s) ∧
      ∀ s, p.put s = es.flatMap (SessionEvent.put s) ++ moved s.other := by
  rcases h.live with hfin | ⟨hq, hlive⟩
  · rw [hprog] at hfin
    exact hfin.elim
  · exact ⟨hq.symm.trans hprog, hlive⟩

theorem History.idle (h : History prog p es q moved) {i : SessionOp κ} {k : i.Ans A → Session A ε α}
    (hq : q = .op i k) (hi : i ≠ .relay) (s : Side) : moved s = [] ∧ p.buf s = [] := by
  rcases h.relaying with hidle | ⟨k', hk'⟩
  · exact hidle s
  · rw [hq] at hk'
    cases hk'
    exact absurd rfl hi

/-- Before the relay nothing is moved. -/
theorem History.moved_eq_nil (h : History prog p es q moved) (hq : ∀ k, q ≠ .op .relay k) (s : Side) :
    moved s = [] := by
  rcases h.relaying with hidle | ⟨k, hk⟩
  · exact (hidle s).1
  · exact absurd hk (hq k)

/-- An operation that succeeds is added to the history. -/
theorem History.step (h : History prog p es q moved) (e : SessionEvent A) {k : e.1.Ans A → Session A ε α}
    (hprog : p.prog = .op e.1 k) (hi : e.1 ≠ .relay) (hok : e.ok) (hprog' : p'.prog = k e.2)
    (hgot : ∀ s, p'.got s = p.got s ++ e.got s) (hput : ∀ s, p'.put s = p.put s ++ e.put s) (hbuf : p'.buf = p.buf)
    (hctls : p'.ctls = p.ctls ++ e.ctl.toList) : History prog p' (es ++ [e]) (k e.2) fun _ => [] := by
  obtain ⟨hq, hg, hp⟩ := h.at_op hprog
  have hidle := h.idle hq hi
  have hg' : ∀ s, p'.got s = (es ++ [e]).flatMap (SessionEvent.got s) := fun s => by
    rw [hgot, hg, (hidle s).1, (hidle s).2]
    simp
  have hp' : ∀ s, p'.put s = (es ++ [e]).flatMap (SessionEvent.put s) := fun s => by
    rw [hput, hp, (hidle s.other).1]
    simp
  refine ⟨(hq ▸ h.path).snoc e.2, ?_, ?_, fun s => ?_, fun s => ?_, .inl fun s => ⟨rfl, ?_⟩, .inr ⟨hprog', fun s => ?_,
    fun s => ?_⟩⟩
  · simpa [or_imp, forall_and] using ⟨h.ok, hok⟩
  · rw [hctls, h.ctls, List.filterMap_append]
    cases hc : e.ctl <;> simp [hc]
  · rw [hg', List.append_nil]
  · rw [hp', List.append_nil]
  · rw [hbuf, (hidle s).2]
  · rw [hg', hbuf, (hidle s).2, List.append_nil, List.append_nil]
  · rw [hp', List.append_nil]

/-- A party that stops, having got no less and put no more. -/
theorem History.stop (h : History prog p es q moved) (hfin : p'.prog.Final) (hgot : ∀ s, p.got s <+: p'.got s)
    (hput : ∀ s, p'.put s <+: p.put s) (hbuf : p'.buf = p.buf) (hctls : p'.ctls = p.ctls) :
    History prog p' es q moved where
  path := h.path
  ok := h.ok
  ctls := hctls.trans h.ctls
  got s := (h.got s).trans (hgot s)
  put s := (hput s).trans (h.put s)
  relaying := hbuf ▸ h.relaying
  live := .inl hfin

theorem prefix_push (f : Side → Bytes) (s t : Side) (bs : Bytes) : f t <+: push f s bs t := List.prefix_append _ _

/-- A relay that takes bytes from a side. -/
theorem History.take {k : SessionOp.relay.Ans A → Session A ε α} (h : History prog p es (.op .relay k) moved)
    (hprog : p.prog = .op .relay k) (s : Side) (bs : Bytes) :
    History prog { p with got := push p.got s bs, buf := push p.buf s bs } es (.op .relay k) moved where
  path := h.path
  ok := h.ok
  ctls := h.ctls
  got t := (h.got t).trans (prefix_push _ _ _ _)
  put := h.put
  relaying := .inr ⟨k, rfl⟩
  live := by
    obtain ⟨hq, hg, hp⟩ := h.at_op hprog
    refine .inr ⟨hprog, fun t => ?_, hp⟩
    simp only [push, hg, List.append_assoc]

/-- A relay that passes bytes on to the other side. -/
theorem History.pass {k : SessionOp.relay.Ans A → Session A ε α} (h : History prog p es (.op .relay k) moved)
    (hprog : p.prog = .op .relay k) (s : Side) (n : Nat) :
    History prog { p with
      buf := Function.update p.buf s ((p.buf s).drop n)
      put := push p.put s.other ((p.buf s).take n) } es (.op .relay k) (push moved s ((p.buf s).take n)) := by
  obtain ⟨hq, hg, hp⟩ := h.at_op hprog
  have hg' : ∀ t, p.got t = es.flatMap (SessionEvent.got t) ++ push moved s ((p.buf s).take n) t ++
      Function.update p.buf s ((p.buf s).drop n) t := fun t => by
    rw [hg]
    by_cases ht : t = s
    · subst ht
      simp [push]
    · simp [push, ht]
  have hp' : ∀ t, push p.put s.other ((p.buf s).take n) t =
      es.flatMap (SessionEvent.put t) ++ push moved s ((p.buf s).take n) t.other := fun t => by
    have hside : t = s.other ↔ t.other = s := by cases t <;> cases s <;> decide
    simp only [push, hp, List.append_assoc, hside]
  exact ⟨h.path, h.ok, h.ctls, fun t => by rw [hg']; exact List.prefix_append _ _,
    fun t => ⟨[], (List.append_nil _).trans (hp' t)⟩, .inr ⟨k, rfl⟩, .inr ⟨hprog, hg', hp'⟩⟩

/-- What has been put stays. -/
theorem put_prefix_exec {act : Act A} (hexec : p.exec act = some p') (s : Side) : p.put s <+: p'.put s := by
  unfold exec at hexec
  split at hexec
  · cases hexec; exact List.prefix_rfl
  · split at hexec <;> cases hexec; exact List.prefix_rfl
  · split at hexec <;> cases hexec; exact List.prefix_rfl
  · cases hexec; exact prefix_push _ _ _ _
  · cases hexec; exact prefix_push _ _ _ _
  · cases hexec; exact List.prefix_rfl
  · cases hexec; exact prefix_push _ _ _ _
  · cases hexec; exact List.prefix_rfl
  · cases hexec

/-- A write that succeeds. -/
theorem History.write (h : History prog p es q moved) {s : Side} {bs : Bytes}
    {k : (SessionOp.io s (.write bs)).Ans A → Session A ε α} (hprog : p.prog = .op (.io s (.write bs)) k) :
    History prog { p with prog := k (.ok ()), put := push p.put s bs } (es ++ [⟨.io s (.write bs), .ok ()⟩])
      (k (.ok ())) fun _ => [] :=
  h.step ⟨.io s (.write bs), .ok ()⟩ hprog (by rintro ⟨⟩) rfl rfl
    (fun t => by simp [SessionEvent.got, StreamEvent.got]) (fun _ => rfl) rfl (List.append_nil _).symm

/-- **One step of a party**, which adds to its history, or to what its relay has moved. -/
theorem exec_history (hb : prog.Brittle) (h : History prog p es q moved) {act : Act A} (hexec : p.exec act = some p') :
    ∃ es' q' moved', History prog p' es' q' moved' ∧ ∀ k, q = .op .relay k → es' = es ∧ q' = q := by
  have hbq := hb.path h.path
  unfold exec at hexec
  split at hexec
  · next ans c k hprog =>
    cases hexec
    obtain ⟨rfl, -⟩ := h.at_op hprog
    exact ⟨_, _, _, h.step ⟨.ctl c, ans c⟩ hprog (by rintro ⟨⟩) rfl rfl (fun _ => (List.append_nil _).symm)
      (fun _ => (List.append_nil _).symm) rfl rfl, by rintro _ ⟨⟩⟩
  · next bs s n k hprog =>
    split at hexec
    · next hlen =>
      cases hexec
      obtain ⟨rfl, -⟩ := h.at_op hprog
      exact ⟨_, _, _, h.step ⟨.io s (.read n), .ok ⟨bs, hlen⟩⟩ hprog (by rintro ⟨⟩) rfl rfl (fun _ => rfl)
        (fun t => by simp [SessionEvent.put, StreamEvent.put]) rfl (List.append_nil _).symm, by rintro _ ⟨⟩⟩
    · cases hexec
  · next bs fault s n k hprog =>
    split at hexec
    · cases hexec
      obtain ⟨rfl, -⟩ := h.at_op hprog
      exact ⟨_, _, _, h.stop (hbq.2.1 _ rfl) (fun _ => prefix_push _ _ _ _) (fun _ => List.prefix_rfl) rfl rfl,
        by rintro _ ⟨⟩⟩
    · cases hexec
  · next s bs k hprog =>
    cases hexec
    obtain ⟨rfl, -⟩ := h.at_op hprog
    exact ⟨_, _, _, h.write hprog, by rintro _ ⟨⟩⟩
  · next n fault s bs k hprog =>
    cases hexec
    obtain ⟨rfl, -⟩ := h.at_op hprog
    -- in the history the write is complete, and the party has put part of it
    refine ⟨_, _, _, (h.write hprog).stop (hbq.2.1 _ rfl) (fun _ => List.prefix_rfl) (fun t => ?_) rfl rfl,
      by rintro _ ⟨⟩⟩
    by_cases ht : t = s
    · simp only [push, ht, if_true, List.prefix_append_right_inj]
      exact List.take_prefix n bs
    · simp only [push, ht, if_false, List.prefix_rfl]
  · next s bs k hprog =>
    cases hexec
    obtain ⟨rfl, -⟩ := h.at_op hprog
    exact ⟨_, _, _, h.take hprog s bs, fun _ _ => ⟨rfl, rfl⟩⟩
  · next s n k hprog =>
    cases hexec
    obtain ⟨rfl, -⟩ := h.at_op hprog
    exact ⟨_, _, _, h.pass hprog s n, fun _ _ => ⟨rfl, rfl⟩⟩
  · next outcome k hprog =>
    cases hexec
    obtain ⟨rfl, -⟩ := h.at_op hprog
    exact ⟨_, _, _, h.stop (hbq.2.2 rfl _) (fun _ => List.prefix_rfl) (fun _ => List.prefix_rfl) rfl rfl,
      fun _ _ => ⟨rfl, rfl⟩⟩
  · cases hexec

end Steps

end Party

/-- What a relay has moved, what it holds and what it has not taken yet are the bytes after the handshake. -/
theorem moved_append_drop {source body start got moved buf : Bytes} (hsource : source = start ++ body)
    (h : got <+: source) (hgot : got = start ++ moved ++ buf) : moved ++ (buf ++ source.drop got.length) = body := by
  have hsplit := List.prefix_append_drop h
  nth_rewrite 1 [hsource] at hsplit
  nth_rewrite 1 [hgot] at hsplit
  rw [List.append_assoc, List.append_assoc] at hsplit
  exact (List.append_cancel_left hsplit).symm

/-- Two relays in a row, each after a handshake of its own: what the second has sent, what the two hold, and what they
have not taken yet are the bytes of the source. -/
theorem relayed_twice {source body start hs out got₁ buf₁ put₁ moved₁ got₂ buf₂ put₂ moved₂ : Bytes}
    (hsource : source = start ++ body) (h₁ : got₁ <+: source) (h₂ : got₂ <+: put₁)
    (hgot₁ : got₁ = start ++ moved₁ ++ buf₁) (hput₁ : put₁ = hs ++ moved₁) (hgot₂ : got₂ = hs ++ moved₂ ++ buf₂)
    (hput₂ : put₂ = out ++ moved₂) :
    put₂ ++ (buf₂ ++ (put₁.drop got₂.length ++ (buf₁ ++ source.drop got₁.length))) = out ++ body := by
  rw [← moved_append_drop hsource h₁ hgot₁, ← moved_append_drop hput₁ h₂ hgot₂, hput₂]
  simp only [List.append_assoc]

end Session

end RustProxy.Lib
