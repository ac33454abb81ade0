import RustProxy.Lib.Session

/-!
# Parties to which nothing bad happens

A party whose reads and writes succeed, and whose control operations are answered well. What it has got and put is then
exactly the history of its program and what its relay has moved (`Intact`), and every such step leaves a trace in one of
the two, so that what bounds these bounds the number of steps (`Intact.exec`).

Where the program, run alone on the bytes that are meant for it, returns, it does not fail on the way there, and asks
only for bytes that are meant for it (`Path.ne_fail`, `Path.read_le`).
-/

namespace RustProxy.Lib

/-! ## On the way to a result -/

section Stream

variable {ε α : Type} {p q : Prog StreamOp StreamOp.Ans ε α} {es : List StreamEvent}

theorem input_serve_le (o : StreamOp) (peer : Peer) : (Peer.serve o peer).2.input.length ≤ peer.input.length := by
  cases o with
  | read n =>
    by_cases hn : n ≤ peer.input.length
    · rw [Peer.serve, dif_pos hn]
      simp
    · rw [Peer.serve, dif_neg hn]
      simp
  | write bs => cases h : peer.refuses (peer.output ++ bs) <;> simp [Peer.serve, h]

theorem prefix_output_serve (o : StreamOp) (peer : Peer) : peer.output <+: (Peer.serve o peer).2.output := by
  cases o with
  | read n =>
    by_cases hn : n ≤ peer.input.length
    · rw [Peer.serve, dif_pos hn]
    · rw [Peer.serve, dif_neg hn]
  | write bs => cases h : peer.refuses (peer.output ++ bs) <;> simp [Peer.serve, h]

theorem input_run_le (p : Prog StreamOp StreamOp.Ans ε α) (peer : Peer) :
    (p.run Peer.serve peer).2.input.length ≤ peer.input.length := by
  induction p generalizing peer with
  | ret a => exact le_rfl
  | fail e => exact le_rfl
  | op o k ih => exact (ih _ _).trans (input_serve_le o peer)

theorem prefix_output_run (p : Prog StreamOp StreamOp.Ans ε α) (peer : Peer) :
    peer.output <+: (p.run Peer.serve peer).2.output := by
  induction p generalizing peer with
  | ret a => exact List.prefix_rfl
  | fail e => exact List.prefix_rfl
  | op o k ih => exact (prefix_output_serve o peer).trans (ih _ _)

theorem Prog.Strict.path (hp : p.Strict) (h : p.Path es q) (hok : ∀ e ∈ es, e.ok) : q.Strict := by
  induction h with
  | nil p => exact hp
  | cons _ ih =>
    obtain ⟨he, hes⟩ := List.forall_mem_cons.mp hok
    exact ih (hp.1 _ he) hes

variable {peer peer' : Peer} {rest : Bytes} {a : α}

theorem Prog.Path.ne_fail (h : p.Path es q) (hok : ∀ e ∈ es, e.ok) (hp : peer.Accepts)
    (hin : peer.input = es.flatMap StreamEvent.got ++ rest) (hrun : p.run Peer.serve peer = (.ok a, peer')) (e : ε) :
    q ≠ .fail e := by
  rintro rfl
  rw [h.run_stream hok hp hin] at hrun
  cases hrun

/-- What has been put is the beginning of what will have been. -/
theorem Prog.Path.prefix_put (h : p.Path es q) (hok : ∀ e ∈ es, e.ok) (hp : peer.Accepts)
    (hin : peer.input = es.flatMap StreamEvent.got ++ rest) (hrun : p.run Peer.serve peer = (.ok a, peer')) :
    peer.output ++ es.flatMap StreamEvent.put <+: peer'.output := by
  have hout := prefix_output_run q (peer.after rest (es.flatMap StreamEvent.put))
  rw [← h.run_stream hok hp hin, hrun] at hout
  exact hout

/-- A read asks for bytes that the run consumes. -/
theorem Prog.Path.read_le {n : Nat} {k : (StreamOp.read n).Ans → Prog StreamOp StreamOp.Ans ε α}
    (h : p.Path es (.op (.read n) k)) (hstrict : p.Strict) (hok : ∀ e ∈ es, e.ok) (hp : peer.Accepts)
    (hin : peer.input = es.flatMap StreamEvent.got ++ rest) (hrun : p.run Peer.serve peer = (.ok a, peer')) :
    n + peer'.input.length ≤ rest.length := by
  rw [h.run_stream hok hp hin, Prog.run_op] at hrun
  rcases hs : Peer.serve (.read n) (peer.after rest (es.flatMap StreamEvent.put)) with ⟨f | bs, peer₁⟩
  · obtain ⟨e, he⟩ := (hstrict.path h hok).2 (.error f) rfl
    rw [hs] at hrun
    change (k (.error f)).run Peer.serve peer₁ = (.ok a, peer') at hrun
    rw [he] at hrun
    cases hrun
  · obtain ⟨rest', hrest, rfl⟩ := Peer.serve_read_eq_ok.mp hs
    rw [hs] at hrun
    have hle := input_run_le (k (.ok bs)) ((peer.after rest (es.flatMap StreamEvent.put)).after rest' [])
    have hlen := congrArg List.length hrest
    have hbs : bs.toList.length = n := bs.2
    rw [hrun] at hle
    simp only [Peer.after_input, List.length_append] at hle hlen
    omega

end Stream

/-- What an embedded program that has not ended does next. -/
theorem embed_bind_next {κ ε α β : Type} {A : κ → Type} {s : Side} {p : Prog StreamOp StreamOp.Ans ε α}
    {f : α → Session A ε β} (hret : ∀ a, p ≠ .ret a) (hfail : ∀ e, p ≠ .fail e) :
    ¬ ((p.embed s).bind f).Final ∧ ∀ t n k, (p.embed s).bind f = .op (.io t (.read n)) k →
      t = s ∧ ∃ k', p = .op (.read n) k' := by
  cases p with
  | ret a => exact absurd rfl (hret a)
  | fail e => exact absurd rfl (hfail e)
  | op o k =>
    refine ⟨fun h => h, fun t n k' hk => ?_⟩
    injection hk with hio
    injection hio with ht ho
    subst ht ho
    exact ⟨rfl, k, rfl⟩

/-! ## Parties -/

namespace Party

variable {κ : Type} {A : κ → Type} {ε α : Type}

/-- Nothing fails, every answer is good, and a relay moves something. -/
def Benign (good : (c : κ) → A c → Prop) (p : Party A ε α) : Act A → Prop
  | .answer ans => ∀ c, good c (ans c)
  | .read _ | .write => True
  | .take _ bs => bs ≠ []
  | .pass s n => (p.buf s).take n ≠ []
  | .readFails .. | .writeFails .. | .finish _ => False

/-- The program has come where it is by the operations in `es`, all of which succeeded, and its relay has moved the
bytes `moved`. -/
structure Intact (good : (c : κ) → A c → Prop) (prog : Session A ε α) (p : Party A ε α) (es : List (SessionEvent A))
    (moved : Side → Bytes) : Prop where
  path : prog.Path es p.prog
  ok : ∀ e ∈ es, e.ok
  good : ∀ c a, ⟨.ctl c, a⟩ ∈ es → good c a
  unrelayed : ∀ r, ⟨.relay, r⟩ ∉ es
  ctls : p.ctls = es.filterMap SessionEvent.ctl
  got : ∀ s, p.got s = es.flatMap (SessionEvent.got s) ++ moved s ++ p.buf s
  put : ∀ s, p.put s = es.flatMap (SessionEvent.put s) ++ moved s.other
  relaying : (∀ s, moved s = [] ∧ p.buf s = []) ∨ ∃ k, p.prog = .op .relay k

/-- The number of operations, and of bytes got and put. -/
def work (p : Party A ε α) (es : List (SessionEvent A)) : Nat :=
  es.length + (p.got .front).length + (p.got .back).length + (p.put .front).length + (p.put .back).length

section Intact

variable {good : (c : κ) → A c → Prop} {prog : Session A ε α} {p p' : Party A ε α} {es : List (SessionEvent A)}
variable {moved : Side → Bytes}

theorem intact_start (prog : Session A ε α) : Intact good prog (start prog) [] fun _ => [] where
  path := .nil _
  ok := by simp
  good := by simp
  unrelayed := by simp
  ctls := rfl
  got _ := rfl
  put _ := rfl
  relaying := .inl fun _ => ⟨rfl, rfl⟩

/-- Before its relay, a party has moved nothing. -/
theorem Intact.idle (h : Intact good prog p es moved) (hprog : ∀ k, p.prog ≠ .op .relay k) (s : Side) :
    moved s = [] ∧ p.buf s = [] := by
  rcases h.relaying with hidle | ⟨k, hk⟩
  · exact hidle s
  · exact absurd hk (hprog k)

/-- A party whose program writes no more than `out`, and all of it before the relay. -/
theorem Intact.prefix_put (h : Intact good prog p es moved) {s : Side} {out : Bytes}
    (hput : es.flatMap (SessionEvent.put s) <+: out)
    (hrelay : ∀ k, p.prog = .op .relay k → es.flatMap (SessionEvent.put s) = out) :
    p.put s <+: out ++ moved s.other := by
  rw [h.put]
  rcases h.relaying with hidle | ⟨k, hk⟩
  · rw [(hidle s.other).1, List.append_nil, List.append_nil]
    exact hput
  · rw [hrelay k hk]

/-- A party that reads or writes has got and put what its program has. -/
theorem Intact.at_io (h : Intact good prog p es moved) {t : Side} {o : StreamOp}
    {k : (SessionOp.io t o).Ans A → Session A ε α} (hk : p.prog = .op (.io t o) k) (s : Side) :
    p.got s = es.flatMap (SessionEvent.got s) ∧ p.put s = es.flatMap (SessionEvent.put s) := by
  have hidle := h.idle fun k' hk' => by rw [hk] at hk'; cases hk'
  rw [h.got, h.put, (hidle s).1, (hidle s).2, (hidle s.other).1]
  simp

theorem Intact.prefix_got (h : Intact good prog p es moved) (s : Side) :
    es.flatMap (SessionEvent.got s) <+: p.got s := by
  rw [h.got, List.append_assoc]
  exact List.prefix_append _ _

theorem Intact.moved_le (h : Intact good prog p es moved) (s : Side) : (moved s).length ≤ (p.got s).length := by
  rw [h.got]
  simp only [List.length_append]
  omega

/-- An operation that succeeds is added to the history. -/
theorem Intact.step (h : Intact good prog p es moved) (e : SessionEvent A) {k : e.1.Ans A → Session A ε α}
    (hprog : p.prog = .op e.1 k) (hi : e.1 ≠ .relay) (hok : e.ok) (hgood : ∀ c a, e = ⟨.ctl c, a⟩ → good c a)
    (hprog' : p'.prog = k e.2) (hgot : ∀ s, p'.got s = p.got s ++ e.got s) (hput : ∀ s, p'.put s = p.put s ++ e.put s)
    (hbuf : p'.buf = p.buf) (hctls : p'.ctls = p.ctls ++ e.ctl.toList) :
    Intact good prog p' (es ++ [e]) (fun _ => []) ∧ p.work es < p'.work (es ++ [e]) := by
  have hidle := h.idle fun k' hk' => by
    rw [hprog] at hk'
    injection hk' with hrelay
    exact hi hrelay
  refine ⟨⟨?_, ?_, ?_, ?_, ?_, fun s => ?_, fun s => ?_, .inl fun s => ⟨rfl, ?_⟩⟩, ?_⟩
  · rw [hprog']
    exact (hprog ▸ h.path).snoc e.2
  · simpa [or_imp, forall_and] using ⟨h.ok, hok⟩
  · intro c a hmem
    rcases List.mem_append.mp hmem with hmem | hmem
    · exact h.good c a hmem
    · exact hgood c a (List.mem_singleton.mp hmem).symm
  · intro r hmem
    rcases List.mem_append.mp hmem with hmem | hmem
    · exact h.unrelayed r hmem
    · exact hi (congrArg Sigma.fst (List.mem_singleton.mp hmem)).symm
  · rw [hctls, h.ctls, List.filterMap_append]
    cases hc : e.ctl <;> simp [hc]
  · rw [hgot, h.got, hbuf, (hidle s).1, (hidle s).2]
    simp
  · rw [hput, h.put, (hidle s.other).1]
    simp
  · rw [hbuf, (hidle s).2]
  · simp only [work, hgot, hput, List.length_append, List.length_singleton]
    omega

/-- A relay that takes bytes from a side. -/
theorem Intact.take {k : SessionOp.relay.Ans A → Session A ε α} (h : Intact good prog p es moved)
    (hprog : p.prog = .op .relay k) (s : Side) {bs : Bytes} (hbs : bs ≠ []) :
    Intact good prog { p with got := push p.got s bs, buf := push p.buf s bs } es moved ∧
      p.work es < work { p with got := push p.got s bs, buf := push p.buf s bs } es := by
  refine ⟨⟨h.path, h.ok, h.good, h.unrelayed, h.ctls, fun t => ?_, h.put, .inr ⟨k, hprog⟩⟩, ?_⟩
  · simp only [push, h.got, List.append_assoc]
  · have hpos := List.length_pos_iff.mpr hbs
    cases s
    · simp only [work, push, if_true, reduceCtorEq, if_false, List.length_append, List.length_nil]
      omega
    · simp only [work, push, if_true, reduceCtorEq, if_false, List.length_append, List.length_nil]
      omega

/-- A relay that passes bytes on to the other side. -/
theorem Intact.pass {k : SessionOp.relay.Ans A → Session A ε α} (h : Intact good prog p es moved)
    (hprog : p.prog = .op .relay k) (s : Side) {n : Nat} (hn : (p.buf s).take n ≠ []) :
    Intact good prog { p with
      buf := Function.update p.buf s ((p.buf s).drop n)
      put := push p.put s.other ((p.buf s).take n) } es (push moved s ((p.buf s).take n)) ∧
    p.work es < work { p with
      buf := Function.update p.buf s ((p.buf s).drop n)
      put := push p.put s.other ((p.buf s).take n) } es := by
  refine ⟨⟨h.path, h.ok, h.good, h.unrelayed, h.ctls, fun t => ?_, fun t => ?_, .inr ⟨k, hprog⟩⟩, ?_⟩
  · rw [h.got]
    by_cases ht : t = s
    · subst ht
      simp [push]
    · simp [push, ht]
  · have hside : t = s.other ↔ t.other = s := by cases t <;> cases s <;> decide
    simp only [push, h.put, List.append_assoc, hside]
  · have hpos := List.length_pos_iff.mpr hn
    cases s
    · simp only [work, push, Side.other, if_true, reduceCtorEq, if_false, List.length_append, List.length_nil]
      omega
    · simp only [work, push, Side.other, if_true, reduceCtorEq, if_false, List.length_append, List.length_nil]
      omega

/-- **One step of a party to which nothing bad happens.** -/
theorem Intact.exec (h : Intact good prog p es moved) {act : Act A} (hact : p.Benign good act)
    (hexec : p.exec act = some p') :
    ∃ es' moved', Intact good prog p' es' moved' ∧ p.work es < p'.work es' := by
  unfold Party.exec at hexec
  split at hexec
  · next ans c k hprog =>
    cases hexec
    refine ⟨_, _, h.step ⟨.ctl c, ans c⟩ hprog (by rintro ⟨⟩) rfl ?_ rfl (fun _ => (List.append_nil _).symm)
      (fun _ => (List.append_nil _).symm) rfl rfl⟩
    rintro _ _ ⟨⟩
    exact hact c
  · next bs s n k hprog =>
    split at hexec
    · next hlen =>
      cases hexec
      exact ⟨_, _, h.step ⟨.io s (.read n), .ok ⟨bs, hlen⟩⟩ hprog (by rintro ⟨⟩) rfl (by rintro _ _ ⟨⟩) rfl
        (fun _ => rfl) (fun t => by simp [SessionEvent.put, StreamEvent.put]) rfl (List.append_nil _).symm⟩
    · cases hexec
  · exact hact.elim
  · next s bs k hprog =>
    cases hexec
    exact ⟨_, _, h.step ⟨.io s (.write bs), .ok ()⟩ hprog (by rintro ⟨⟩) rfl (by rintro _ _ ⟨⟩) rfl
      (fun t => by simp [SessionEvent.got, StreamEvent.got]) (fun _ => rfl) rfl (List.append_nil _).symm⟩
  · exact hact.elim
  · next s bs k hprog =>
    cases hexec
    exact ⟨_, _, h.take hprog s hact⟩
  · next s n k hprog =>
    cases hexec
    exact ⟨_, _, h.pass hprog s hact⟩
  · exact hact.elim
  · cases hexec

/-- More of the source. -/
theorem push_prefix_source {f src : Side → Bytes} (h : ∀ s, f s <+: src s) {s : Side} {bs : Bytes}
    (hs : f s ++ bs <+: src s) (t : Side) : push f s bs t <+: src t := by
  by_cases ht : t = s
  · subst ht
    simpa [push] using hs
  · simpa [push, ht] using h t

/-- **What can happen next.** A party that gets its bytes from `src` has ended, waits for bytes that are not there, has
relayed all there is, or can take a step. -/
theorem exists_benign {src : Side → Bytes} (hgot : ∀ s, p.got s <+: src s) {ans : (c : κ) → A c}
    (hans : ∀ c, good c (ans c)) :
    p.prog.Final ∨
      (∃ s n k, p.prog = .op (.io s (.read n)) k ∧ (src s).length < (p.got s).length + n) ∨
      ((∃ k, p.prog = .op .relay k) ∧ ∀ s, p.got s = src s ∧ p.buf s = []) ∨
      ∃ act p', p.Benign good act ∧ p.exec act = some p' ∧ ∀ s, p'.got s <+: src s := by
  cases hprog : p.prog with
  | ret a => exact .inl trivial
  | fail e => exact .inl trivial
  | op i k =>
    refine .inr ?_
    cases i with
    | ctl c =>
      refine .inr (.inr ⟨.answer ans, { p with prog := k (ans c), ctls := p.ctls ++ [c] }, hans, ?_, hgot⟩)
      simp only [Party.exec, hprog]
    | io s o =>
      cases o with
      | write bs =>
        refine .inr (.inr ⟨.write, { p with prog := k (.ok ()), put := push p.put s bs }, trivial, ?_, hgot⟩)
        simp only [Party.exec, hprog]
      | read n =>
        by_cases hn : (src s).length < (p.got s).length + n
        · exact .inl ⟨s, n, k, rfl, hn⟩
        · obtain ⟨t, ht⟩ := hgot s
          have hlen : (t.take n).length = n := by
            have hsum := congrArg List.length ht
            rw [List.length_append] at hsum
            rw [List.length_take]
            omega
          refine .inr (.inr ⟨.read (t.take n),
            { p with prog := k (.ok ⟨t.take n, hlen⟩), got := push p.got s (t.take n) }, trivial, ?_, ?_⟩)
          · simp only [Party.exec, hprog, dif_pos hlen]
          · refine push_prefix_source hgot ?_
            rw [← ht, List.prefix_append_right_inj]
            exact List.take_prefix n t
    | relay =>
      by_cases hdone : ∀ s, p.got s = src s ∧ p.buf s = []
      · exact .inr (.inl ⟨⟨k, rfl⟩, hdone⟩)
      · obtain ⟨s, hs⟩ := not_forall.mp hdone
        refine .inr (.inr ?_)
        by_cases hbuf : p.buf s = []
        · obtain ⟨t, ht⟩ := hgot s
          have hne : t ≠ [] := by
            intro hnil
            rw [hnil, List.append_nil] at ht
            exact hs ⟨ht, hbuf⟩
          refine ⟨.take s t, { p with got := push p.got s t, buf := push p.buf s t }, hne, ?_,
            push_prefix_source hgot ?_⟩
          · simp only [Party.exec, hprog]
          · rw [ht]
        · refine ⟨.pass s (p.buf s).length, { p with
            buf := Function.update p.buf s ((p.buf s).drop (p.buf s).length)
            put := push p.put s.other ((p.buf s).take (p.buf s).length) }, ?_, ?_, hgot⟩
          · simpa [Benign] using hbuf
          · simp only [Party.exec, hprog]

end Intact

end Party

end RustProxy.Lib
