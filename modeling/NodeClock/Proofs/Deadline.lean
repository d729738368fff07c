import NodeClock.Client
import NodeClock.Proofs.Call

/-!
# One deadline for a whole call

A call that sets a clock waits for its session and then for the answer, both before one deadline.
When it ends, how, and what it has told until then follows from what the network does.

* `Span.Expires`, `Span.InTime`, `Wait.Exceeds`: what comes before the deadline and what does not.
* `Call.Goes`: the ways in which a call that sets a clock can go, told from its request and its
  limit, moments counted from its beginning.
* `Call.exists_goes`: there is a way for each script.
* `Run.finish_of_goes`: **the call goes this way**.
* `Call.Goes.states`, `Call.Goes.session`: it tells one final state, and this last; it opens at
  most one session.
* `Client.set_goes`: all of it for the calls of a client, told from what the client was given.
-/

namespace NodeClock

open Coap

/-- What is awaited from `since` on comes after the moment `m`, or never. -/
def Wait.Exceeds {α : Type} (w : Wait α) (since m : Nat) : Prop :=
  ∀ delay result, w = .ends delay result → m < since + delay

/-- The clock reaches the deadline of what begins at `start` and may take this long. -/
def Span.Expires (timeout : Span) (start : Instant) : Prop := start + timeout.nanos < clockEnd

/-- What comes `m` nanoseconds after `start` is not late. -/
def Span.InTime (timeout : Span) (start : Instant) (m : Nat) : Prop :=
  timeout.Expires start → m ≤ timeout.nanos

namespace Call

/-- What a call has told when it begins to wait for a session. -/
def sendingLog : List (Nat × Effect) := [(0, .reached .idle), (0, .reached .sending)]

/-- What a call has told and done when it begins to wait for the answer. -/
def awaitingLog (opened : Nat) (q : Request) : List (Nat × Effect) :=
  sendingLog ++ [(opened, .opened), (opened, .reached .awaitingResponse), (opened, .handed q)]

/-- **How a call that sets a clock goes** which has this request to send, or none, and may take this
long: when and with which outcome it ends, if it does, and what it tells and does when. Moments are
counted from its beginning. -/
inductive Goes (request : Except TimeError Request) (timeout : Span) (start : Instant)
    (script : Script) : Option (Nat × Outcome) → List (Nat × Effect) → Prop where
  | unsendable {e : TimeError} : request = .error e →
      Goes request timeout start script
        (some (0, .failure (.transportFailed (TransportError.encode e.message).message)))
        [(0, .reached .idle), (0, .reached .transportFailed)]
  | notOpened {q : Request} : request = .ok q → timeout.Expires start →
      script.opening.Exceeds 0 timeout.nanos →
      Goes request timeout start script (some (timeout.nanos, .failure .timedOut))
        (sendingLog ++ [(timeout.nanos, .reached .timedOut)])
  | neverOpened {q : Request} : request = .ok q → ¬ timeout.Expires start →
      script.opening = .never → Goes request timeout start script none sendingLog
  | openingFailed {q : Request} {o : Nat} {e : TransportError} : request = .ok q →
      script.opening = .ends o (.error e) → timeout.InTime start o →
      Goes request timeout start script (some (o, .failure (.transportFailed e.message)))
        (sendingLog ++ [(o, .reached .transportFailed)])
  | notAnswered {q : Request} {o : Nat} : request = .ok q → script.opening = .ends o (.ok ()) →
      timeout.InTime start o → timeout.Expires start → script.exchange.Exceeds o timeout.nanos →
      Goes request timeout start script (some (timeout.nanos, .failure .timedOut))
        (awaitingLog o q ++ [(timeout.nanos, .closed), (timeout.nanos, .reached .timedOut)])
  | neverAnswered {q : Request} {o : Nat} : request = .ok q →
      script.opening = .ends o (.ok ()) → ¬ timeout.Expires start → script.exchange = .never →
      Goes request timeout start script none (awaitingLog o q)
  | exchangeFailed {q : Request} {o d : Nat} {e : TransportError} : request = .ok q →
      script.opening = .ends o (.ok ()) → script.exchange = .ends d (.error e) →
      timeout.InTime start (o + d) →
      Goes request timeout start script (some (o + d, .failure (.transportFailed e.message)))
        (awaitingLog o q ++ [(o + d, .closed), (o + d, .reached .transportFailed)])
  | answered {q : Request} {o d : Nat} {response : Response} : request = .ok q →
      script.opening = .ends o (.ok ()) → script.exchange = .ends d (.ok response) →
      timeout.InTime start (o + d) →
      Goes request timeout start script
        (some (o + d, if response.code.isSuccess then .success response.code
          else .failure (.rejected response.code)))
        (awaitingLog o q ++ [(o + d, .closed),
          (o + d, .reached (if response.code.isSuccess then .succeeded else .rejected))])

variable {request : Except TimeError Request} {timeout : Span} {c : Call} {start : Instant}
  {script : Script} {ended : Option (Nat × Outcome)} {told : List (Nat × Effect)}

/-! ## There is a way for each script -/

/-- What is awaited comes in time, or it comes late, or it never comes and is awaited for ever. -/
theorem wait_cases {α : Type} (timeout : Span) (start : Instant) (w : Wait α) (since : Nat) :
    (∃ delay result, w = .ends delay result ∧ timeout.InTime start (since + delay)) ∨
      (timeout.Expires start ∧ w.Exceeds since timeout.nanos) ∨
      (¬ timeout.Expires start ∧ w = .never) := by
  by_cases he : timeout.Expires start
  · cases w with
    | never => exact Or.inr (Or.inl ⟨he, nofun⟩)
    | ends delay result =>
      by_cases hle : since + delay ≤ timeout.nanos
      · exact Or.inl ⟨delay, result, rfl, fun _ => hle⟩
      · refine Or.inr (Or.inl ⟨he, ?_⟩)
        rintro _ _ ⟨⟩
        exact Nat.lt_of_not_le hle
  · cases w with
    | never => exact Or.inr (Or.inr ⟨he, rfl⟩)
    | ends delay result => exact Or.inl ⟨delay, result, rfl, fun h => absurd h he⟩

/-- **For each script there is a way for a call to go.** -/
theorem exists_goes (request : Except TimeError Request) (timeout : Span) (start : Instant)
    (script : Script) : ∃ ended told, Goes request timeout start script ended told := by
  cases request with
  | error e => exact ⟨_, _, .unsendable rfl⟩
  | ok q =>
    rcases wait_cases timeout start script.opening 0 with ⟨o, result, ho, hin⟩ | ⟨he, hx⟩ | ⟨he, hn⟩
    · rw [Nat.zero_add] at hin
      cases result with
      | error e => exact ⟨_, _, .openingFailed rfl ho hin⟩
      | ok u =>
        rcases wait_cases timeout start script.exchange o with
          ⟨d, result, hd, hin'⟩ | ⟨he, hx⟩ | ⟨he, hn⟩
        · cases result with
          | error e => exact ⟨_, _, .exchangeFailed rfl ho hd hin'⟩
          | ok response => exact ⟨_, _, .answered rfl ho hd hin'⟩
        · exact ⟨_, _, .notAnswered rfl ho hin he hx⟩
        · exact ⟨_, _, .neverAnswered rfl ho he hn⟩
    · exact ⟨_, _, .notOpened rfl he hx⟩
    · exact ⟨_, _, .neverOpened rfl he hn⟩

/-! ## The call goes this way -/

theorem greeting_set (hp : c.purpose = .set) : c.greeting = [.reached .idle] := by
  unfold greeting
  rw [hp]

theorem farewell_set (hp : c.purpose = .set) (a : Except CallError Response) :
    c.farewell (.answered a) = [.reached (Outcome.ofAnswer (a.map (·.code))).progress] := by
  unfold farewell
  rw [hp]
  rfl

end Call

/-- An earlier moment is in time, too. -/
theorem Span.InTime.mono {timeout : Span} {start : Instant} {m n : Nat}
    (h : timeout.InTime start n) (hle : m ≤ n) : timeout.InTime start m :=
  fun he => Nat.le_trans hle (h he)

namespace Run

open Call

variable {r : Run} {script : Script} {ended : Option (Nat × Outcome)} {told : List (Nat × Effect)}
  {α : Type} {w : Wait α}

theorem deadline?_of_expires (h : r.call.timeout.Expires r.start) :
    r.deadline? = some (r.start + r.call.timeout.nanos) := if_pos h

theorem deadline?_of_not_expires (h : ¬ r.call.timeout.Expires r.start) : r.deadline? = none :=
  if_neg h

/-- A wait that began `since` nanoseconds after the call ends in time. -/
theorem wake?_inTime (since : Nat) {delay : Nat} {result : Except TransportError α}
    (hc : r.call.cancelAfter = none) (hw : w = .ends delay result)
    (h : r.call.timeout.InTime r.start (since + delay)) :
    r.wake? (r.start + since) w = some (r.start + (since + delay), .finished result) := by
  have hd : ∀ t, r.deadline? = some t → r.start + since + delay ≤ t := by
    intro t ht
    by_cases he : r.call.timeout.Expires r.start
    · rw [deadline?_of_expires he] at ht
      cases ht
      rw [Nat.add_assoc]
      exact Nat.add_le_add_left (h he) _
    · rw [deadline?_of_not_expires he] at ht
      cases ht
  rw [wake?_finished hc hw hd, Nat.add_assoc]

/-- A wait that began `since` nanoseconds after the call lasts until the deadline. -/
theorem wake?_late {since : Nat} (hc : r.call.cancelAfter = none)
    (he : r.call.timeout.Expires r.start) (hx : w.Exceeds since r.call.timeout.nanos) :
    r.wake? (r.start + since) w = some (r.start + r.call.timeout.nanos, .expired) := by
  apply wake?_expired hc (deadline?_of_expires he)
  intro delay result hw
  rw [Nat.add_assoc]
  exact Nat.add_lt_add_left (hx delay result hw) _

/-- A session that opens in time. -/
theorem wake?_opening {o : Nat} {result : Except TransportError Unit}
    (hc : r.call.cancelAfter = none) (ho : script.opening = .ends o result)
    (h : r.call.timeout.InTime r.start o) :
    r.wake? r.start script.opening = some (r.start + o, .finished result) := by
  have hw := wake?_inTime 0 hc ho (by rwa [Nat.zero_add])
  rwa [Nat.add_zero, Nat.zero_add] at hw

/-- **A call goes the way that its script leaves.** -/
theorem finish_of_goes (h : Goes r.call.request r.call.timeout r.start script ended told)
    (hs : r.stage = .waiting) (hp : r.call.purpose = .set) (hc : r.call.cancelAfter = none) :
    (r.finish script).1.end?.map (fun (t, e) => (t, e.outcome?)) =
        ended.map (fun (m, o) => (r.start + m, some o)) ∧
      (r.finish script).2 = told.map fun (m, e) => (r.start + m, e) := by
  have hgreet := greeting_set hp
  have hbye := farewell_set hp
  cases h with
  | unsendable hq =>
    rw [finish_unsendable hs hq, hgreet, Call.unsendable, hbye]
    exact ⟨rfl, rfl⟩
  | notOpened hq he hx =>
    have hw := wake?_late hc he hx
    rw [Nat.add_zero] at hw
    rw [finish_sendable hs hq, hgreet]
    simp only [hw, Wake.result, hbye]
    exact ⟨rfl, rfl⟩
  | neverOpened hq he hn =>
    have hw := wake?_never r.start hc (deadline?_of_not_expires he) hn
    rw [finish_sendable hs hq, hgreet]
    simp only [hw]
    exact ⟨rfl, rfl⟩
  | openingFailed hq ho hin =>
    have hw := wake?_opening hc ho hin
    rw [finish_sendable hs hq, hgreet]
    simp only [hw, Wake.result, hbye]
    exact ⟨rfl, rfl⟩
  | notAnswered hq ho hin he hx =>
    have hw := wake?_opening hc ho hin
    have hw' := wake?_late hc he hx
    rw [finish_sendable hs hq, hgreet]
    simp only [hw, Wake.result, hw', hbye]
    exact ⟨rfl, rfl⟩
  | @neverAnswered q o hq ho he hn =>
    have hw := wake?_opening hc ho fun h => absurd h he
    have hw' := wake?_never (r.start + o) hc (deadline?_of_not_expires he) hn
    rw [finish_sendable hs hq, hgreet]
    simp only [hw, Wake.result, hw']
    exact ⟨rfl, rfl⟩
  | @exchangeFailed q o d e hq ho hd hin =>
    have hw := wake?_opening hc ho (hin.mono (Nat.le_add_right o d))
    have hw' := wake?_inTime _ hc hd hin
    rw [finish_sendable hs hq, hgreet]
    simp only [hw, Wake.result, hw', hbye]
    exact ⟨rfl, rfl⟩
  | @answered q o d response hq ho hd hin =>
    have hw := wake?_opening hc ho (hin.mono (Nat.le_add_right o d))
    have hw' := wake?_inTime _ hc hd hin
    have hprogress : (Outcome.ofAnswer (.ok response.code)).progress =
        if response.code.isSuccess then .succeeded else .rejected :=
      apply_ite Outcome.progress _ _ _
    rw [finish_sendable hs hq, hgreet]
    simp only [hw, Wake.result, hw', hbye, Except.map, hprogress]
    exact ⟨rfl, rfl⟩

end Run

/-! ## One final state, one session, one request -/

namespace Call

variable {request : Except TimeError Request} {timeout : Span} {start : Instant} {script : Script}
  {ended : Option (Nat × Outcome)} {told : List (Nat × Effect)}

/-- **A call tells one final state**, that of its outcome, and this last. -/
theorem Goes.states (h : Goes request timeout start script ended told) :
    ∃ before, Effect.states (told.map (·.2)) = before ++ ended.toList.map (·.2.progress) ∧
      ∀ p ∈ before, p.isFinal = false := by
  cases h with
  | unsendable _ => exact ⟨[.idle], rfl, by decide⟩
  | notOpened _ _ _ | neverOpened _ _ _ | openingFailed _ _ _ =>
    exact ⟨[.idle, .sending], rfl, by decide⟩
  | notAnswered _ _ _ _ _ | neverAnswered _ _ _ _ | exchangeFailed _ _ _ _ =>
    exact ⟨[.idle, .sending, .awaitingResponse], rfl, by decide⟩
  | answered _ _ _ _ =>
    refine ⟨[.idle, .sending, .awaitingResponse], ?_, by decide⟩
    simp only [Option.toList_some, List.map_cons, List.map_nil, apply_ite Outcome.progress]
    rfl

/-- **A call opens at most one session**, and hands it at most its own request. -/
theorem Goes.session (h : Goes request timeout start script ended told) :
    (told.map (·.2)).count .opened ≤ 1 ∧
      Effect.requests (told.map (·.2)) <+: request.toOption.toList := by
  cases h with
  | unsendable _ | notOpened _ _ _ | neverOpened _ _ _ | openingFailed _ _ _ =>
    exact ⟨Nat.zero_le 1, List.nil_prefix⟩
  | notAnswered hq _ _ _ _ | neverAnswered hq _ _ _ | exchangeFailed hq _ _ _
  | answered hq _ _ _ =>
    rw [hq]
    exact ⟨Nat.le_refl 1, List.prefix_rfl⟩

end Call

/-- **One deadline bounds a call that sets a clock**, and how it goes is determined by the target,
the time, the settings of the client, and what the network does. For each script there is a way to
go, and the call ends, tells and does exactly what this way says. It tells one final state, that of
its outcome and as the last, opens at most one session and hands it at most one request, namely
that of the target for the time. -/
theorem Client.set_goes (c : Client) (target : Target) (t : Civil) (start : Instant)
    (script : Script) :
    let request := target.setRequest t c.method c.format
    let run := Run.finish { call := c.set target t, start } script
    (∃ ended told, Call.Goes request c.timeout start script ended told) ∧
    (∀ ended told, Call.Goes request c.timeout start script ended told →
      run.1.end?.map (fun (m, e) => (m, e.outcome?)) =
          ended.map (fun (m, o) => (start + m, some o)) ∧
        run.2 = told.map fun (m, e) => (start + m, e)) ∧
    (∃ before, Effect.states (run.2.map (·.2)) =
        before ++ (run.1.end?.bind (·.2.outcome?)).toList.map Outcome.progress ∧
      ∀ p ∈ before, p.isFinal = false) ∧
    (run.2.map (·.2)).count .opened ≤ 1 ∧
    Effect.requests (run.2.map (·.2)) <+: request.toOption.toList := by
  intro request run
  obtain ⟨ended, told, hgoes⟩ := Call.exists_goes request c.timeout start script
  have hfinish {ended : Option (Nat × Outcome)} {told : List (Nat × Effect)}
      (h : Call.Goes request c.timeout start script ended told) :=
    Run.finish_of_goes (r := { call := c.set target t, start }) h rfl rfl rfl
  obtain ⟨hend, hlog⟩ := hfinish hgoes
  have heffects : run.2.map (·.2) = told.map (·.2) := by
    rw [show run.2 = _ from hlog, List.map_map]
    rfl
  have houtcome : run.1.end?.bind (·.2.outcome?) = ended.map (·.2) := by
    have hbind : run.1.end?.bind (·.2.outcome?) =
        (run.1.end?.map fun (m, e) => (m, e.outcome?)).bind (·.2) := by
      cases run.1.end? <;> rfl
    rw [hbind, show run.1.end?.map _ = _ from hend]
    cases ended <;> rfl
  refine ⟨⟨ended, told, hgoes⟩, fun _ _ h => hfinish h, ?_, ?_⟩
  · obtain ⟨before, hstates, hbefore⟩ := hgoes.states
    refine ⟨before, ?_, hbefore⟩
    rw [heffects, hstates, houtcome]
    cases ended <;> rfl
  · rw [heffects]
    exact hgoes.session

/-- An answer that comes at the very moment of the deadline, and a deadline a nanosecond earlier. -/
theorem Client.set_goes_deadline :
    let target : Target := ⟨.named "node.local", 5683, ["date"]⟩
    let script : Script :=
      { opening := .ends 500000000 (.ok ()),
        exchange := .ends 1500000000 (.ok { code := .ofParts 4 4 }) }
    let client (timeout : Span) : Client := { timeout }
    let run (timeout : Span) :=
      Run.finish { call := (client timeout).set target ⟨2024, 3, 15, 14, 5, 9⟩, start := 7 } script
    (run (.ofMillis 2000)).1.end?.map (fun (m, e) => (m, e.outcome?)) =
        some (2000000007, some (.failure (.rejected (.ofParts 4 4)))) ∧
      Effect.states ((run (.ofMillis 2000)).2.map (·.2)) =
        [.idle, .sending, .awaitingResponse, .rejected] ∧
      (run (.ofNanos 1999999999)).1.end?.map (fun (m, e) => (m, e.outcome?)) =
        some (2000000006, some (.failure .timedOut)) ∧
      Effect.states ((run (.ofNanos 1999999999)).2.map (·.2)) =
        [.idle, .sending, .awaitingResponse, .timedOut] := by
  intro target script client run
  obtain ⟨q, hq⟩ : ∃ q, target.setRequest ⟨2024, 3, 15, 14, 5, 9⟩ .put .query = .ok q := ⟨_, rfl⟩
  obtain ⟨-, hgoes, -⟩ :=
    Client.set_goes { timeout := .ofMillis 2000 } target ⟨2024, 3, 15, 14, 5, 9⟩ 7 script
  obtain ⟨hend, htold⟩ := hgoes _ _ (.answered hq rfl rfl fun _ => by decide)
  obtain ⟨-, hgoes', -⟩ :=
    Client.set_goes { timeout := .ofNanos 1999999999 } target ⟨2024, 3, 15, 14, 5, 9⟩ 7 script
  have hlate : script.exchange.Exceeds 500000000 (Span.ofNanos 1999999999).nanos := by
    rintro _ _ ⟨⟩
    decide
  have hexpires : (Span.ofNanos 1999999999).Expires 7 := by
    unfold Span.Expires
    decide
  obtain ⟨hend', htold'⟩ := hgoes' _ _ (.notAnswered hq rfl (fun _ => by decide) hexpires hlate)
  refine ⟨hend.trans rfl, ?_, hend'.trans rfl, ?_⟩
  · rw [htold]
    rfl
  · rw [htold']
    rfl

end NodeClock
