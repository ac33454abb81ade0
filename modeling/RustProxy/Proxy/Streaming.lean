import RustProxy.Agent.Handler
import RustProxy.Gateway.Handler

/-!
# Readers of a stream and parsers of a buffer

The handlers do not have a whole frame in a buffer when they begin to read one: they take it off the stream in two to
six reads, the sizes of which they compute themselves, and they check the credentials without the parser for them. On
every finite stream they accept what the parsers of `protocol/` accept, and leave what follows the frame
(`readRequest_leaves_iff`, `readGreeting_leaves_iff`, `handleUserPassAuth_leaves_iff`).
-/

namespace RustProxy.Proxy

open Lib Protocol

section Readers

variable {ε α : Type}

/-- On the finite stream `s`, past which a read fails with `atEnd`, the reader succeeds with the value and leaves
`t`. -/
def Leaves (reader : Wire ε α) (s : Bytes) (atEnd : IoError) (a : α) (t : Bytes) : Prop :=
  ∃ p', reader.run Peer.serve (.sending s atEnd) = (.ok a, p') ∧ p'.input = t

variable [SessionError ε] {s t : Bytes} {atEnd : IoError}

theorem readRequest_leaves_iff {q : Request} : Leaves (readRequest : Wire ε _) s atEnd q t ↔
    ∃ n, Request.parse s = .ok (q, n) ∧ t = s.drop n := by
  simp only [Leaves, readRequest_eq_ok, Request.parse_eq_ok]
  constructor
  · rintro ⟨_, ⟨rsv, rest, hin, hs, rfl⟩, rfl⟩
    obtain rfl : s = q.frame rsv ++ rest := hin
    exact ⟨_, ⟨rsv, rest, rfl, rfl, hs⟩, by simp⟩
  · rintro ⟨_, ⟨rsv, rest, rfl, rfl, hs⟩, rfl⟩
    exact ⟨_, ⟨rsv, rest, rfl, hs, rfl⟩, by simp⟩

theorem readGreeting_leaves_iff {g : Greeting} : Leaves (readGreeting : Wire ε _) s atEnd g t ↔
    Greeting.parse s = .ok g ∧ ∃ n, Greeting.frameLen s = .ok n ∧ t = s.drop n := by
  simp only [Leaves, readGreeting_eq_ok, Greeting.parse_eq_ok]
  constructor
  · rintro ⟨_, ⟨rest, hin, hs, rfl⟩, rfl⟩
    obtain rfl : s = g.frame ++ rest := hin
    exact ⟨⟨⟨rest, rfl⟩, hs⟩, _, Greeting.frameLen_frame hs rest, by simp⟩
  · rintro ⟨⟨⟨rest, rfl⟩, hs⟩, n, hn, rfl⟩
    rw [Greeting.frameLen_frame hs, Except.ok.injEq] at hn
    subst hn
    exact ⟨_, ⟨rest, rfl, hs, rfl⟩, by simp⟩

theorem handleUserPassAuth_leaves_iff {auth : Option (String × String)} :
    Leaves (handleUserPassAuth auth : Wire ε _) s atEnd () t ↔
      ∃ c, UsernamePassword.parse s = .ok c ∧ auth = some (c.username, c.password) ∧ t = s.drop c.wireLen := by
  simp only [Leaves, handleUserPassAuth_eq_ok (Peer.accepts_sending s atEnd), UsernamePassword.parse_eq_ok]
  constructor
  · rintro ⟨_, ⟨c, rest, hauth, hin, hs, rfl⟩, rfl⟩
    obtain rfl : s = c.toVec ++ rest := hin
    exact ⟨c, ⟨⟨rest, rfl⟩, hs⟩, hauth, by simp [← UsernamePassword.length_toVec]⟩
  · rintro ⟨c, ⟨⟨rest, rfl⟩, hs⟩, hauth, rfl⟩
    exact ⟨_, ⟨c, rest, hauth, rfl, hs, rfl⟩, by simp [← UsernamePassword.length_toVec]⟩

end Readers

/-- On the stream, the readers of a handler with these errors succeed as the parsers do, and leave what follows. -/
def ReadersAgree (ε : Type) [SessionError ε] (s : Bytes) (atEnd : IoError) : Prop :=
  (∀ q t, Leaves (readRequest : Wire ε _) s atEnd q t ↔ ∃ n, Request.parse s = .ok (q, n) ∧ t = s.drop n) ∧
  (∀ g t, Leaves (readGreeting : Wire ε _) s atEnd g t ↔
    Greeting.parse s = .ok g ∧ ∃ n, Greeting.frameLen s = .ok n ∧ t = s.drop n) ∧
  (∀ auth t, Leaves (handleUserPassAuth auth : Wire ε _) s atEnd () t ↔
    ∃ c, UsernamePassword.parse s = .ok c ∧ auth = some (c.username, c.password) ∧ t = s.drop c.wireLen)

theorem readersAgree (ε : Type) [SessionError ε] (s : Bytes) (atEnd : IoError) : ReadersAgree ε s atEnd := by
  refine ⟨fun q t => ?_, fun g t => ?_, fun auth t => ?_⟩
  · exact readRequest_leaves_iff
  · exact readGreeting_leaves_iff
  · exact handleUserPassAuth_leaves_iff

/-- **Streams and buffers.** On every finite stream, the readers of the gateway and those of the node agree with the
parsers, in what they accept and in how much they consume. -/
theorem streaming_readers_agree (s : Bytes) (atEnd : IoError) :
    ReadersAgree Gateway.GatewayError s atEnd ∧ ReadersAgree Agent.NodeError s atEnd :=
  ⟨readersAgree _ s atEnd, readersAgree _ s atEnd⟩

end RustProxy.Proxy
