import RustProxy.Lib.Bytes
import RustProxy.Lib.Prog

/-!
# Programs on a byte stream

A program that reads and writes one byte stream is run against a `Peer`: the bytes the peer sends, how a read past them
ends, and the writes it refuses. A read succeeds exactly if the peer has the bytes (`Peer.serve_read_eq_ok`).

As one party of several, the program has a history of answered operations instead. If all of them succeeded, the history
is what the program does against any patient peer that sends the bytes read (`Prog.Path.run_stream`), so what is known
about runs holds of histories. Nothing follows a failure in a program that is `Strict`.
-/

namespace RustProxy.Lib

inductive IoErrorKind
  | connectionRefused
  | unexpectedEof
  | other
  deriving DecidableEq, Repr

structure IoError where
  kind : IoErrorKind
  message : String
  deriving DecidableEq, Repr

/-- How an operation under a deadline fails. -/
inductive IoFault
  | err (e : IoError)
  | elapsed
  deriving DecidableEq, Repr

inductive StreamOp
  | read (n : Nat)
  | write (bs : Bytes)

namespace StreamOp

abbrev Ans : StreamOp → Type
  | read n => Except IoFault (Octets n)
  | write _ => Except IoFault Unit

def isOk : (o : StreamOp) → o.Ans → Bool
  | read _, a => a.isOk
  | write _, a => a.isOk

end StreamOp

/-! ## Running against a peer -/

structure Peer where
  /-- What it sends. -/
  input : Bytes
  /-- How a read past the input ends. -/
  atEnd : IoFault
  /-- The fault of the write that would make this its output. -/
  refuses : Bytes → Option IoFault
  /-- What has been written to it. -/
  output : Bytes

namespace Peer

/-- Sends the bytes, after which a read fails, and accepts what is written to it. -/
def sending (input : Bytes) (atEnd : IoError) : Peer := ⟨input, .err atEnd, fun _ => none, []⟩

/-- Every write succeeds. -/
def Accepts (p : Peer) : Prop := ∀ bs, p.refuses bs = none

def serve : (o : StreamOp) → Peer → o.Ans × Peer
  | .read n, p =>
    if h : n ≤ p.input.length then
      (.ok ⟨p.input.take n, List.length_take_of_le h⟩, { p with input := p.input.drop n })
    else (.error p.atEnd, { p with input := [] })
  | .write bs, p =>
    match p.refuses (p.output ++ bs) with
    | none => (.ok (), { p with output := p.output ++ bs })
    | some fault => (.error fault, p)

/-- After `bs` has been written, and all but `rest` has been read. -/
def after (p : Peer) (rest bs : Bytes) : Peer := { p with input := rest, output := p.output ++ bs }

@[simp] theorem after_after (p : Peer) (rest rest' bs bs' : Bytes) :
    (p.after rest bs).after rest' bs' = p.after rest' (bs ++ bs') := by
  simp [after]

@[simp] theorem after_input (p : Peer) (rest bs : Bytes) : (p.after rest bs).input = rest := rfl

@[simp] theorem after_output (p : Peer) (rest bs : Bytes) : (p.after rest bs).output = p.output ++ bs := rfl

@[simp] theorem after_refuses (p : Peer) (rest bs : Bytes) : (p.after rest bs).refuses = p.refuses := rfl

@[simp] theorem after_self (p : Peer) : p.after p.input [] = p := by simp [after]

theorem accepts_sending (input : Bytes) (atEnd : IoError) : (sending input atEnd).Accepts := fun _ => rfl

theorem Accepts.after {p : Peer} (h : p.Accepts) (rest bs : Bytes) : (p.after rest bs).Accepts := h

theorem serve_read_append {p : Peer} {n : Nat} (bs : Octets n) (rest : Bytes) (h : p.input = bs.toList ++ rest) :
    serve (.read n) p = (.ok bs, p.after rest []) := by
  have hlen : bs.toList.length = n := bs.2
  have hn : n ≤ p.input.length := by rw [h, List.length_append]; omega
  have hbs : (⟨p.input.take n, List.length_take_of_le hn⟩ : Octets n) = bs :=
    Subtype.ext (show p.input.take n = bs.toList by rw [h, List.take_left' hlen])
  have hrest : p.input.drop n = rest := by rw [h, List.drop_left' hlen]
  simp only [serve, dif_pos hn, hbs, hrest, after, List.append_nil]

theorem serve_read_eq_ok {p p' : Peer} {n : Nat} {bs : Octets n} :
    serve (.read n) p = (.ok bs, p') ↔ ∃ rest, p.input = bs.toList ++ rest ∧ p' = p.after rest [] := by
  constructor
  · intro h
    by_cases hn : n ≤ p.input.length
    · rw [serve, dif_pos hn] at h
      cases h
      exact ⟨_, (List.take_append_drop _ _).symm, by simp [after]⟩
    · rw [serve, dif_neg hn] at h
      cases h
  · rintro ⟨rest, h, rfl⟩
    exact serve_read_append bs rest h

theorem serve_write_eq_ok {p p' : Peer} {bs : Bytes} {u : Unit} :
    serve (.write bs) p = (.ok u, p') ↔ p.refuses (p.output ++ bs) = none ∧ p' = p.after p.input bs := by
  cases h : p.refuses (p.output ++ bs) with
  | none => simp [serve, h, after, eq_comm]
  | some fault => simp [serve, h]

theorem serve_write {p : Peer} (hp : p.Accepts) (bs : Bytes) :
    serve (.write bs) p = (.ok (), p.after p.input bs) := by
  simp [serve, hp (p.output ++ bs), after]

end Peer

/-! ## Histories -/

/-- An operation and its answer. -/
abbrev StreamEvent := Σ o : StreamOp, o.Ans

namespace StreamEvent

def ok (e : StreamEvent) : Bool := e.1.isOk e.2

/-- The bytes that the operation read. -/
def got : StreamEvent → Bytes
  | ⟨.read _, .ok bs⟩ => bs.toList
  | _ => []

/-- The bytes that the operation wrote. -/
def put : StreamEvent → Bytes
  | ⟨.write bs, .ok ()⟩ => bs
  | _ => []

end StreamEvent

section History

variable {ε α : Type} {p q : Prog StreamOp StreamOp.Ans ε α} {es : List StreamEvent}

/-- What is read and written when every operation succeeds is what the program does against a patient peer. -/
theorem Prog.Path.run_stream (h : p.Path es q) (hok : ∀ e ∈ es, e.ok) {peer : Peer} (hp : peer.Accepts) {rest : Bytes}
    (hin : peer.input = es.flatMap StreamEvent.got ++ rest) :
    p.run Peer.serve peer = q.run Peer.serve (peer.after rest (es.flatMap StreamEvent.put)) := by
  induction h generalizing peer with
  | nil p =>
    obtain rfl : peer.input = rest := hin
    simp
  | @cons i k a es q h ih =>
    rw [List.forall_mem_cons] at hok
    rw [List.flatMap_cons, List.append_assoc] at hin
    rcases i with n | bs
    · rcases a with f | bs
      · cases hok.1
      · rw [Prog.run_op, Peer.serve_read_append bs _ hin, ih hok.2 (hp.after _ _) rfl, Peer.after_after]
        rfl
    · rcases a with f | ⟨⟩
      · cases hok.1
      · rw [Prog.run_op, Peer.serve_write hp bs, ih hok.2 (hp.after _ _) hin, Peer.after_after]
        rfl

/-- A complete history of successes is a run. -/
theorem Prog.Path.run_ret {a : α} (h : p.Path es (.ret a)) (hok : ∀ e ∈ es, e.ok) (atEnd : IoError) :
    p.run Peer.serve (.sending (es.flatMap StreamEvent.got) atEnd) =
      (.ok a, (Peer.sending (es.flatMap StreamEvent.got) atEnd).after [] (es.flatMap StreamEvent.put)) :=
  h.run_stream hok (Peer.accepts_sending _ _) (List.append_nil _).symm

theorem Prog.Path.put_eq_nil (h : p.Path es q) (hp : p.Performs fun o => ∃ n, o = .read n) :
    es.flatMap StreamEvent.put = [] := by
  induction h with
  | nil p => rfl
  | cons h ih =>
    obtain ⟨⟨n, rfl⟩, hk⟩ := hp
    rw [List.flatMap_cons, ih (hk _ trivial)]
    rfl

end History

/-! ## Failures end the program -/

section Strict

variable {ε α β : Type}

/-- A failed operation is the last one. -/
def Prog.Strict : Prog StreamOp StreamOp.Ans ε α → Prop
  | .ret _ => True
  | .fail _ => True
  | .op o k => (∀ a, o.isOk a → (k a).Strict) ∧ ∀ a, o.isOk a = false → ∃ e, k a = .fail e

theorem Prog.strict_ofExcept (r : Except ε α) : (ofExcept r : Prog StreamOp StreamOp.Ans ε α).Strict := by
  cases r <;> trivial

theorem Prog.Strict.bind {p : Prog StreamOp StreamOp.Ans ε α} {f : α → Prog StreamOp StreamOp.Ans ε β}
    (hp : p.Strict) (hf : ∀ a, (f a).Strict) : (p.bind f).Strict := by
  induction p with
  | ret a => exact hf a
  | fail e => trivial
  | op o k ih =>
    refine ⟨fun a ha => ih a (hp.1 a ha), fun a ha => ?_⟩
    obtain ⟨e, he⟩ := hp.2 a ha
    exact ⟨e, congrArg (Prog.bind · f) he⟩

end Strict

end RustProxy.Lib
