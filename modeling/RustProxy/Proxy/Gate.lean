import RustProxy.Agent.Handler
import RustProxy.Gateway.Handler

/-!
# Who is let through

A handler goes on to a node, or to a target, for the clients that open as its context asks, and for no others, and has
then consumed the opening and nothing else (`reaches_iff` for any session that begins with the handshake,
`reaches_upstream_iff` for the two handlers).
-/

namespace RustProxy.Proxy

open Lib Protocol

section Reach

variable {κ : Type} {A : κ → Type} {ε α : Type} {U : SessionOp κ → Prop}

theorem performs_not_of_embed (hio : ∀ s o, ¬ U (.io s o)) (s : Side) (p : Wire ε α) :
    (p.embed s : Session A ε α).Performs fun i => ¬ U i :=
  (performs_embed s p).mono (by rintro _ ⟨o, rfl⟩; exact hio s o) fun _ _ h => h

variable [SessionError ε] {auth : Option (String × String)} {e : Env A}

/-- A session that begins with the handshake stays on the client's stream until it has read an opening. -/
theorem mem_trace_handshake {body : Request → Session A ε α} (hp : (e.peer .front).Accepts)
    {x : SessionOp κ × Env A} (hx : x ∈ (((handshake auth).embed .front).bind body).trace Env.serve e) :
    (∃ o, x.1 = .io .front o) ∨ ∃ bs q rest, Opening auth bs q ∧ (e.peer .front).input = bs ++ rest ∧
      x ∈ (body q).trace Env.serve (e.setPeer .front ((e.peer .front).after rest (openingReply auth))) := by
  rw [Prog.trace_bind, List.mem_append] at hx
  rcases hx with hx | hx
  · exact .inl ((performs_embed .front _).trace e x hx)
  · rw [run_embed] at hx
    rcases hrun : (handshake auth : Wire ε _).run Peer.serve (e.peer .front) with ⟨r, p'⟩
    rw [hrun] at hx
    rcases r with err | q
    · cases hx
    · obtain ⟨bs, rest, hop, hin, rfl⟩ := (handshake_eq_ok hp).mp hrun
      exact .inr ⟨bs, q, rest, hop, hin, hx⟩

/-- Nothing but the client's stream is used for a client that does not open for a CONNECT. -/
theorem opening_of_mem_trace {body : Request → Session A ε α}
    (hother : ∀ q : Request, q.command ≠ .connect → (body q).Performs fun i => ∃ o, i = .io .front o)
    (hp : (e.peer .front).Accepts) {x : SessionOp κ × Env A}
    (hx : x ∈ (((handshake auth).embed .front).bind body).trace Env.serve e) (hup : ∀ o, x.1 ≠ .io .front o) :
    ∃ bs q rest, Opening auth bs q ∧ q.command = .connect ∧ (e.peer .front).input = bs ++ rest := by
  rcases mem_trace_handshake hp hx with ⟨o, ho⟩ | ⟨bs, q, rest, hop, hin, hx⟩
  · exact absurd ho (hup o)
  · by_cases hq : q.command = .connect
    · exact ⟨bs, q, rest, hop, hq, hin⟩
    · obtain ⟨o, ho⟩ := (hother q hq).trace _ x hx
      exact absurd ho (hup o)

/-- The handshake, and then an operation in `U` if the request is a CONNECT: whether it is reached, and with which input
left. -/
theorem reaches_iff (body : Request → Session A ε α) (hio : ∀ s o, ¬ U (.io s o))
    (hother : ∀ q : Request, q.command ≠ .connect → (body q).Performs fun i => ∃ o, i = .io .front o)
    (hconnect : ∀ q : Request, q.command = .connect →
      ∃ i k, body q = .op i k ∧ U i ∧ ∀ a, (k a).Performs fun i => ¬ U i)
    (hp : (e.peer .front).Accepts) (rest : Bytes) :
    (∃ x ∈ (((handshake auth).embed .front).bind body).trace Env.serve e, U x.1 ∧ (x.2.peer .front).input = rest) ↔
      ∃ bs q, Opening auth bs q ∧ q.command = .connect ∧ (e.peer .front).input = bs ++ rest := by
  constructor
  · rintro ⟨x, hx, hU, hrest⟩
    rcases mem_trace_handshake hp hx with ⟨o, ho⟩ | ⟨bs, q, rest', hop, hin, hx⟩
    · exact absurd (ho ▸ hU) (hio _ o)
    · by_cases hq : q.command = .connect
      · obtain ⟨i, k, hbody, -, hk⟩ := hconnect q hq
        simp only [hbody, Prog.trace_op, List.mem_cons] at hx
        rcases hx with rfl | hx
        · rw [Env.peer_setPeer, Peer.after_input] at hrest
          exact ⟨bs, q, hop, hq, hrest ▸ hin⟩
        · exact absurd hU ((hk _).trace _ x hx)
      · obtain ⟨o, ho⟩ := (hother q hq).trace _ x hx
        exact absurd (ho ▸ hU) (hio _ o)
  · rintro ⟨bs, q, hop, hq, hin⟩
    obtain ⟨i, k, hbody, hU, -⟩ := hconnect q hq
    have hrun : ((handshake auth).embed .front : Session A ε _).run Env.serve e =
        (.ok q, e.setPeer .front ((e.peer .front).after rest (openingReply auth))) := by
      rw [run_embed, (handshake_eq_ok hp).mpr ⟨bs, rest, hop, hin, rfl⟩]
    refine ⟨(i, e.setPeer .front ((e.peer .front).after rest (openingReply auth))), ?_, hU,
      by rw [Env.peer_setPeer, Peer.after_input]⟩
    rw [Prog.trace_bind_ok hrun, hbody]
    exact List.mem_append_right _ List.mem_cons_self

end Reach

/-- The gateway refuses other commands on the client's stream. -/
theorem gateway_refuses {q : Request} (hq : q.command ≠ .connect) :
    (Gateway.serveRequest q).Performs fun i => ∃ o, i = .io .front o := by
  rw [Gateway.serveRequest, if_pos hq]
  exact performs_embed .front _

/-- And so does the node. -/
theorem node_refuses {q : Request} (hq : q.command ≠ .connect) :
    (Agent.serveRequest q).Performs fun i => ∃ o, i = .io .front o := by
  rw [Agent.serveRequest, if_pos hq]
  exact performs_embed .front _

/-- The gateway reaches node selection. -/
theorem gateway_reaches_iff {auth : Option (String × String)} {e : Env Gateway.Control.Ans}
    (hp : (e.peer .front).Accepts) (rest : Bytes) :
    (∃ x ∈ (Gateway.runWithCtx auth).trace Env.serve e, x.1 = .ctl .selectNode ∧ (x.2.peer .front).input = rest) ↔
      ∃ bs q, Opening auth bs q ∧ q.command = .connect ∧ (e.peer .front).input = bs ++ rest := by
  have hio : ∀ s o, ¬ (SessionOp.io s o : SessionOp Gateway.Control) = .ctl .selectNode := by rintro _ _ ⟨⟩
  have hforward (addr : SocksAddr) (node : Gateway.RemoteNode) :
      (Gateway.forward addr node).Performs fun i => ¬ i = .ctl .selectNode := by
    refine .bind ⟨by rintro ⟨⟩, fun a _ => .bind (Prog.respects_ofExcept _) fun _ => performs_not_of_embed hio _ _⟩
      fun _ => .bind (performs_not_of_embed hio _ _) fun _ => ⟨by rintro ⟨⟩, fun a _ => ?_⟩
    rcases a with (e | _) | stats <;> trivial
  refine reaches_iff (U := (· = .ctl .selectNode)) Gateway.serveRequest hio (fun q => gateway_refuses) (fun q hq => ?_)
    hp rest
  rw [Gateway.serveRequest, if_neg (not_not.mpr hq)]
  refine ⟨_, _, rfl, rfl, fun a => ?_⟩
  rcases a with _ | e | node
  · exact performs_not_of_embed hio _ _
  · exact performs_not_of_embed hio _ _
  · exact hforward _ _

/-- The node reaches the dialling of a target. -/
theorem node_reaches_iff {auth : Option (String × String)} {e : Env Agent.Control.Ans}
    (hp : (e.peer .front).Accepts) (rest : Bytes) :
    (∃ x ∈ (Agent.runWithCtx auth).trace Env.serve e,
        (∃ target, x.1 = .ctl (.dial target)) ∧ (x.2.peer .front).input = rest) ↔
      ∃ bs q, Opening auth bs q ∧ q.command = .connect ∧ (e.peer .front).input = bs ++ rest := by
  have hio : ∀ s o, ¬ ∃ target, (SessionOp.io s o : SessionOp Agent.Control) = .ctl (.dial target) := by
    rintro _ _ ⟨_, ⟨⟩⟩
  have hestablished : Agent.established.Performs fun i => ¬ ∃ target, i = .ctl (.dial target) := by
    refine .bind (performs_not_of_embed hio _ _) fun _ => ⟨by rintro ⟨_, ⟨⟩⟩, fun a _ => ?_⟩
    rcases a with e | stats <;> trivial
  refine reaches_iff (U := fun i => ∃ target, i = .ctl (.dial target)) Agent.serveRequest hio (fun q => node_refuses)
    (fun q hq => ?_) hp rest
  rw [Agent.serveRequest, if_neg (not_not.mpr hq)]
  refine ⟨_, _, rfl, ⟨_, rfl⟩, fun a => ?_⟩
  rcases a with (e | _) | ⟨⟩
  · exact performs_not_of_embed hio _ _
  · exact performs_not_of_embed hio _ _
  · exact hestablished

/-- **Admission.** On a client that sends `s`, whatever else surrounds the handlers, the gateway reaches node selection,
and the node the dialling of a target, with `rest` still unread exactly if `s` is an opening for a CONNECT followed by
`rest`. For other clients, neither handler uses anything but the client's stream: no node or target is reached. -/
theorem reaches_upstream_iff (auth : Option (String × String)) (s rest : Bytes) (atEnd : IoError)
    (eg : Env Gateway.Control.Ans) (en : Env Agent.Control.Ans) :
    let gateway := (Gateway.runWithCtx auth).trace Env.serve (eg.setPeer .front (.sending s atEnd))
    let node := (Agent.runWithCtx auth).trace Env.serve (en.setPeer .front (.sending s atEnd))
    ((∃ x ∈ gateway, x.1 = .ctl .selectNode ∧ (x.2.peer .front).input = rest) ↔
      ∃ bs q, Opening auth bs q ∧ q.command = .connect ∧ s = bs ++ rest) ∧
    ((∃ x ∈ node, (∃ target, x.1 = .ctl (.dial target)) ∧ (x.2.peer .front).input = rest) ↔
      ∃ bs q, Opening auth bs q ∧ q.command = .connect ∧ s = bs ++ rest) ∧
    ((∃ x ∈ gateway, ∀ o, x.1 ≠ .io .front o) ∨ (∃ x ∈ node, ∀ o, x.1 ≠ .io .front o) →
      ∃ bs q t, Opening auth bs q ∧ q.command = .connect ∧ s = bs ++ t) := by
  intro gateway node
  have hg : ((eg.setPeer .front (.sending s atEnd)).peer .front).Accepts := by
    rw [Env.peer_setPeer]
    exact Peer.accepts_sending s atEnd
  have hn : ((en.setPeer .front (.sending s atEnd)).peer .front).Accepts := by
    rw [Env.peer_setPeer]
    exact Peer.accepts_sending s atEnd
  refine ⟨?_, ?_, ?_⟩
  · rw [gateway_reaches_iff hg, Env.peer_setPeer]
    rfl
  · rw [node_reaches_iff hn, Env.peer_setPeer]
    rfl
  · rintro (⟨x, hx, hup⟩ | ⟨x, hx, hup⟩)
    · have hop := opening_of_mem_trace (fun q => gateway_refuses) hg hx hup
      rwa [Env.peer_setPeer] at hop
    · have hop := opening_of_mem_trace (fun q => node_refuses) hn hx hup
      rwa [Env.peer_setPeer] at hop

end RustProxy.Proxy
