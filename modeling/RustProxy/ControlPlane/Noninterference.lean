import RustProxy.ControlPlane.Api

/-!
# Requests without the token

With a bearer token configured, a request that does not carry it only reads (`performs_reads`), whatever its route and
body and whatever it is interleaved with. So the requests of such callers can be deleted from any history of requests
and sweeps without a trace in the registry or in what the others are answered (`unauthenticated_invisible`).
-/

namespace RustProxy.ControlPlane

open Lib

/-! ## The token -/

/-- The header value that carries a token. -/
def bearerValue (token : String) : Bytes := asBytes "Bearer " ++ asBytes token

/-- The `Authorization` header, of which `HeaderMap::get` takes the first value, is exactly `Bearer` and the token. -/
def HttpRequest.Presents (token : String) (req : HttpRequest) : Prop :=
  req.headers.authorization.head? = some (bearerValue token)

instance (token : String) (req : HttpRequest) : Decidable (req.Presents token) :=
  inferInstanceAs (Decidable (req.headers.authorization.head? = some (bearerValue token)))

theorem presents_of_authorize {token : String} {req : HttpRequest}
    (h : authorize req.headers (.bearer token) = .ok ()) : req.Presents token := by
  simp only [authorize] at h
  split at h
  · cases h
  · rename_i provided hprovided
    split at h
    · rename_i hequal
      obtain ⟨v, hv, hprefix⟩ := Option.bind_eq_some_iff.mp hprovided
      obtain ⟨w, hw, hstr⟩ := Option.bind_eq_some_iff.mp hv
      obtain rfl : w = v := by
        simp only [toStr, Option.ite_none_right_eq_some, Option.some.injEq] at hstr
        exact hstr.2
      rw [HttpRequest.Presents, hw, bearerValue, ← hequal]
      exact congrArg some (List.isPrefixOf?_eq_some_iff_append_eq.mp hprefix).symm
    · cases h

/-! ## What such a request performs -/

/-- The operations that leave the store as it is. -/
def Op.Reads (o : Op) : Prop := o = .list ∨ ∃ id, o = .get id

theorem Op.Reads.exec {o : Op} (h : o.Reads) (now : DateTime) (s : Store) : (o.exec now s).2 = s := by
  rcases h with rfl | ⟨id, rfl⟩
  · rfl
  · rfl

/-- **A request without the token only reads.** -/
theorem performs_reads {token : String} {req : HttpRequest} (service : ControlPlaneService)
    (hreq : ¬ req.Presents token) : (req.prog ⟨service, .bearer token⟩).Performs Op.Reads :=
  HttpRequest.respects (.inl rfl) (fun id => .inr ⟨id, rfl⟩)
    (fun _ _ hauth => absurd (presents_of_authorize hauth) hreq)
    (fun _ _ _ _ hauth => absurd (presents_of_authorize hauth) hreq)
    (fun _ _ hauth => absurd (presents_of_authorize hauth) hreq)

/-- So it leaves the store as it found it. -/
theorem run_of_not_presents {token : String} {req : HttpRequest} (service : ControlPlaneService)
    (hreq : ¬ req.Presents token) (now : DateTime) (s : Store) :
    (req.run ⟨service, .bearer token⟩ now s).2 = s :=
  (performs_reads service hreq).run_inv (I := (· = s))
    (fun _ s' ho hs' => ⟨trivial, (ho.exec now s').trans hs'⟩) rfl

/-! ## Histories -/

inductive ServerEvent
  | request (req : HttpRequest)
  /-- A tick of the background task. -/
  | sweep

/-- The requests with their responses, and the store that they and the sweeps leave. -/
def serveAll (state : AppState) : List (DateTime × ServerEvent) → Store → List (HttpRequest × Response) × Store
  | [], s => ([], s)
  | (now, .request req) :: events, s =>
    let (response, s') := req.run state now s
    let (log, s'') := serveAll state events s'
    ((req, response) :: log, s'')
  | (now, .sweep) :: events, s => serveAll state events (Call.run state.service now .markStaleOffline s).2

/-- Sweeps, and requests that carry the token. -/
def ServerEvent.Authentic (token : String) : ServerEvent → Prop
  | .request req => req.Presents token
  | .sweep => True

instance (token : String) : (e : ServerEvent) → Decidable (e.Authentic token)
  | .request req => inferInstanceAs (Decidable (req.Presents token))
  | .sweep => inferInstanceAs (Decidable True)

/-- **Unauthenticated callers leave no trace.** Deleting their requests from a history of requests and sweeps changes
neither the final store nor a response to another request, `/metrics` apart. -/
theorem unauthenticated_invisible (service : ControlPlaneService) (token : String)
    (events : List (DateTime × ServerEvent)) (s : Store) :
    let state : AppState := ⟨service, .bearer token⟩
    let authentic := events.filter fun e => e.2.Authentic token
    (serveAll state events s).2 = (serveAll state authentic s).2 ∧
      ((serveAll state events s).1.filter fun x => x.1.Presents token ∧ x.1.path ≠ ["metrics"]) =
        (serveAll state authentic s).1.filter fun x => x.1.path ≠ ["metrics"] := by
  intro state authentic
  -- by induction on the history: an authentic event is at the head of both, another one leaves the store as it is
  induction events generalizing s with
  | nil => exact ⟨rfl, rfl⟩
  | cons e events ih =>
    obtain ⟨now, e⟩ := e
    cases e with
    | sweep => exact ih (Call.run service now .markStaleOffline s).2
    | request req =>
      by_cases hreq : req.Presents token
      · have hauth : authentic = (now, .request req) :: events.filter fun e => e.2.Authentic token :=
          List.filter_cons_of_pos (decide_eq_true (p := (ServerEvent.request req).Authentic token) hreq)
        obtain ⟨hstore, hlog⟩ := ih (req.run state now s).2
        rw [hauth]
        refine ⟨hstore, ?_⟩
        simp only [serveAll, List.filter_cons, hreq, true_and]
        split
        · rw [hlog]
        · exact hlog
      · have hauth : authentic = events.filter fun e => e.2.Authentic token :=
          List.filter_cons_of_neg (by simpa using (show ¬ (ServerEvent.request req).Authentic token from hreq))
        have hkeep : (req.run state now s).2 = s := run_of_not_presents service hreq now s
        obtain ⟨hstore, hlog⟩ := ih s
        rw [hauth]
        simp only [serveAll, hkeep, List.filter_cons, hreq, false_and, decide_false]
        exact ⟨hstore, hlog⟩

end RustProxy.ControlPlane
