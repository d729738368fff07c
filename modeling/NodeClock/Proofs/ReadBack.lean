import NodeClock.Client
import NodeClock.Reading
import NodeClock.Proofs.Call
import NodeClock.Proofs.Chronology
import NodeClock.Proofs.Target
import NodeClock.Proofs.Utf8

/-!
# A clock that is read after it was set

Civil times are sent as they are shown and read as UTC. A node that is set by its epoch seconds to
the local time is therefore ahead of UTC by as much as the local zone is, and a reading tells so.

* `ClockSource.lead`: how far a clock is ahead of UTC.
* `ClockSource.timeAt_eq_utc_iff`: a clock without lead shows the time of UTC.
* `readEpoch_render`: the epoch seconds that a node tells are read.
* `Reading.ofEpoch_ofSeconds`: the offset of a reading.
* `stillNode`: a node between two ticks of its clock.
* `Client.set_unsendable`: a call that has nothing to send opens no session.
* `Client.set_then_read`: **the offset that is read is the lead of the clock that was set by.**
* `Client.not_set_then_read_unshifted`: it need not be zero.
-/

namespace NodeClock

open Coap

/-- How far a clock is ahead of UTC, where the local zone is `zone` seconds east. -/
def ClockSource.lead (clock : ClockSource) (zone : Int) : Int :=
  match clock with
  | .localZone => zone
  | .utc => 0

namespace ClockSource

variable (clock : ClockSource) (secs : Int) (nanos : Nat) (zone : Int)

theorem timeAt_eq :
    clock.timeAt secs nanos zone = Civil.ofSeconds (secs + clock.lead zone) := by
  cases clock <;> rfl

theorem timeAt_valid : (clock.timeAt secs nanos zone).Valid := by
  rw [timeAt_eq]
  exact Civil.ofSeconds_valid _

theorem seconds_timeAt : (clock.timeAt secs nanos zone).seconds = secs + clock.lead zone := by
  rw [timeAt_eq, Civil.seconds_ofSeconds]

theorem timeAt_utc : ClockSource.utc.timeAt secs nanos zone = Civil.ofSeconds secs := by
  rw [timeAt_eq, lead, Int.add_zero]

/-- A clock shows the time of UTC exactly if it has no lead. -/
theorem timeAt_eq_utc_iff :
    clock.timeAt secs nanos zone = ClockSource.utc.timeAt secs nanos zone ↔
      clock.lead zone = 0 := by
  constructor
  · intro heq
    have hsame := congrArg Civil.seconds heq
    have hzero : ClockSource.utc.lead zone = 0 := rfl
    rw [seconds_timeAt, seconds_timeAt, hzero] at hsame
    omega
  · intro hzero
    rw [timeAt_utc, timeAt_eq, hzero, Int.add_zero]

end ClockSource

/-! ## Reading epoch seconds -/

theorem Decimal.trim_digits (n : Nat) : Text.trim (Decimal.digits n) = Decimal.digits n := by
  apply Text.trim_eq_self
  intro c hc
  exact Target.isBlank_eq_false_of_isDigit (Decimal.isDigit_of_mem_digits hc)

/-- **The epoch seconds that a node tells are read.** -/
theorem readEpoch_render {n : Nat} (h : n ≤ Civil.maxEpoch) :
    readEpoch (Utf8.encode (Decimal.render n)) = .ok n := by
  have hnumeral : Decimal.isNumeral (Decimal.digits n) = true := Decimal.isNumeral_digits n
  unfold readEpoch
  rw [Utf8.decode?_encode]
  simp only [Decimal.toList_render, Decimal.trim_digits, hnumeral, Bool.not_true,
    Bool.false_eq_true, if_false, Decimal.read?_digits h]

/-- **The offset of a reading** is that of the epoch seconds from the local second. -/
theorem Reading.ofEpoch_ofSeconds {n : Nat} (h : n ≤ Civil.maxEpoch) (s : Int) :
    Reading.ofEpoch n (Civil.ofSeconds s) =
      { remote := Civil.ofEpoch n, epoch := n, localTime := Civil.ofSeconds s, offset := n - s } := by
  have hdiff := (Civil.ofEpoch_valid h).secondsSince_eq (Civil.ofSeconds_valid s)
  rw [Civil.seconds_ofEpoch h, Civil.seconds_ofSeconds] at hdiff
  simp only [Reading.ofEpoch, hdiff, Option.getD_some]

/-! ## Setting and reading -/

/-- The epoch seconds in the body of a request. -/
def Coap.Request.epoch? (r : Request) : Option Nat :=
  (Utf8.decode? r.payload).bind fun text => Decimal.read? Civil.maxEpoch text.toList

/-- A node between two ticks of its clock: the epoch seconds that it keeps, and its answer. It takes
over the number in the body of a request that sets its clock, and tells it to one that reads it. -/
def stillNode (kept : Nat) (r : Request) : Nat × Response :=
  match r.method with
  | .get => (kept, { code := .ofParts 2 5, payload := Utf8.encode (Decimal.render kept) })
  | .put | .post =>
    match r.epoch? with
    | some n => (n, { code := .ofParts 2 4 })
    | none => (kept, { code := .ofParts 4 0 })

theorem stillNode_set {r : Request} {method : SetMethod} {n : Nat}
    (hm : r.method = method.toMethod) (hn : r.epoch? = some n) (kept : Nat) :
    stillNode kept r = (n, { code := .ofParts 2 4 }) := by
  unfold stillNode
  rw [hm, hn]
  cases method <;> rfl

/-- A node that has kept `n` is read as showing it. -/
theorem stillNode_read {n : Nat} (h : n ≤ Civil.maxEpoch) (target : Target) (s : Int) :
    Reading.ofAnswer (Civil.ofSeconds s) (.ok (stillNode n target.readRequest).2) =
      .ok { remote := Civil.ofEpoch n, epoch := n, localTime := Civil.ofSeconds s,
            offset := n - s } := by
  have hanswer : (stillNode n target.readRequest).2 =
      { code := .ofParts 2 5, payload := Utf8.encode (Decimal.render n) } := rfl
  have hsuccess : (ResponseCode.ofParts 2 5).isSuccess = true := rfl
  rw [hanswer]
  simp only [Reading.ofAnswer, hsuccess, Bool.not_true, Bool.false_eq_true, if_false,
    readEpoch_render h, Reading.ofEpoch_ofSeconds h]

/-- The request that sets a clock by epoch seconds has them in its body. -/
theorem Target.setRequest_epoch {t : Civil} {n : Nat} (h : t.epoch = .ok n) (target : Target)
    (method : SetMethod) :
    ∃ q, target.setRequest t method .epoch = .ok q ∧ q.method = method.toMethod ∧
      q.epoch? = some n := by
  obtain ⟨hn, -⟩ := Civil.epoch_eq_ok_iff.1 h
  refine ⟨_, by rw [setRequest, Civil.render, h], rfl, ?_⟩
  rw [Request.epoch?, Utf8.decode?_encode, Option.bind_some, Decimal.toList_render,
    Decimal.read?_digits hn]

/-- A clock cannot be set by epoch seconds that there are not. -/
theorem Target.setRequest_epoch_error {t : Civil} {e : TimeError} (h : t.epoch = .error e)
    (target : Target) (method : SetMethod) :
    target.setRequest t method .epoch = .error e := by
  rw [setRequest, Civil.render, h]

/-- A call that sets a clock and has nothing to send opens no session and hands over no request. -/
theorem Client.set_unsendable {c : Client} {target : Target} {t : Civil} {e : TimeError}
    (h : (c.set target t).request = .error e) (start : Instant) (script : Script) :
    let effects := (Run.finish { call := c.set target t, start } script).2.map (·.2)
    .opened ∉ effects ∧ Effect.requests effects = [] := by
  intro effects
  have heffects : effects = [.reached .idle, .reached .transportFailed] := by
    show (Run.finish { call := c.set target t, start } script).2.map (·.2) = _
    rw [Run.finish_unsendable rfl h]
    rfl
  rw [heffects]
  exact ⟨by decide, rfl⟩

/-- **What is read of a clock that has just been set.** A client that sends epoch seconds sets the
clock of a node to the time that its own clock shows, and the clock is read at the same instant.
If there are epoch seconds for the time shown, the node takes them over, and the reading tells the
time shown, with the lead of the client's clock as its offset. This is the time of UTC exactly if
there is no lead, as with a clock of UTC. If there are no epoch seconds for the time shown, the call
opens no session and nothing is sent. -/
theorem Client.set_then_read (c : Client) (hc : c.format = .epoch) (target : Target) (kept : Nat)
    {secs : Int} (hsecs : 0 ≤ secs ∧ secs ≤ Civil.maxEpoch) (nanos : Nat) (zone : Int) :
    let shown := c.clock.timeAt secs nanos zone
    let utc := ClockSource.utc.timeAt secs nanos zone
    let lead := c.clock.lead zone
    shown = Civil.ofSeconds (secs + lead) ∧ utc = Civil.ofEpoch secs.toNat ∧
    (shown = utc ↔ lead = 0) ∧ (c.clock = .utc → lead = 0) ∧
    (0 ≤ secs + lead ∧ secs + lead ≤ Civil.maxEpoch →
      ∃ q, (c.set target shown).request = .ok q ∧ (stillNode kept q).2.code.isSuccess = true ∧
        Reading.ofAnswer utc (.ok (stillNode (stillNode kept q).1 target.readRequest).2) =
          .ok { remote := shown, epoch := (secs + lead).toNat, localTime := utc, offset := lead }) ∧
    (secs + lead < 0 ∨ Civil.maxEpoch < secs + lead →
      (c.set target shown).request = .error .epochOverflow ∧ ∀ start script,
        let effects := (Run.finish { call := c.set target shown, start } script).2.map (·.2)
        .opened ∉ effects ∧ Effect.requests effects = []) := by
  intro shown utc lead
  have hutc : utc = Civil.ofSeconds secs := ClockSource.timeAt_utc secs nanos zone
  have hvalid : shown.Valid := c.clock.timeAt_valid secs nanos zone
  have hseconds : shown.seconds = secs + lead := c.clock.seconds_timeAt secs nanos zone
  have hrequest : (c.set target shown).request = target.setRequest shown c.method .epoch := by
    rw [← hc]
    rfl
  refine ⟨c.clock.timeAt_eq secs nanos zone, ?_, c.clock.timeAt_eq_utc_iff secs nanos zone, ?_, ?_,
    ?_⟩
  · have hn : secs.toNat ≤ Civil.maxEpoch := by omega
    rw [hutc, Civil.ofEpoch_eq_ofSeconds hn, Int.toNat_of_nonneg hsecs.1]
  · intro hclock
    show c.clock.lead zone = 0
    rw [hclock]
    rfl
  · intro hin
    have hn : shown.epoch = .ok (secs + lead).toNat := by
      rw [hvalid.epoch_eq, hseconds, if_pos hin]
    obtain ⟨hmax, hback⟩ := Civil.epoch_eq_ok_iff.1 hn
    obtain ⟨q, hq, hmethod, hepoch⟩ := Target.setRequest_epoch hn target c.method
    have hset := stillNode_set hmethod hepoch kept
    have hread := stillNode_read hmax target secs
    have hoffset : ((secs + lead).toNat : Int) - secs = lead := by omega
    rw [hback, hoffset, ← hutc] at hread
    refine ⟨q, hrequest.trans hq, ?_, ?_⟩
    · rw [hset]
      rfl
    · rw [hset]
      exact hread
  · intro hout
    have hnone : shown.epoch = .error .epochOverflow := by
      rw [hvalid.epoch_eq, hseconds, if_neg (by omega)]
    have herror := hrequest.trans (Target.setRequest_epoch_error hnone target c.method)
    exact ⟨herror, Client.set_unsendable herror⟩

/-- A clock two hours east of UTC shows the new year before UTC does. -/
theorem Client.set_then_read_newYear :
    let client : Client := { format := .epoch }
    let target : Target := ⟨.named "node.local", 5683, ["date"]⟩
    let shown := client.clock.timeAt 1735684200 0 7200
    client.format = .epoch ∧ (0 ≤ (1735684200 : Int) ∧ (1735684200 : Int) ≤ Civil.maxEpoch) ∧
    ∃ q, (client.set target shown).request = .ok q ∧
      Reading.ofAnswer (ClockSource.utc.timeAt 1735684200 0 7200)
          (.ok (stillNode (stillNode 0 q).1 target.readRequest).2) =
        .ok { remote := ⟨2025, 1, 1, 0, 30, 0⟩, epoch := 1735691400,
              localTime := ⟨2024, 12, 31, 22, 30, 0⟩, offset := 7200 } := by
  intro client target shown
  have hsecs : 0 ≤ (1735684200 : Int) ∧ (1735684200 : Int) ≤ Civil.maxEpoch := by decide
  obtain ⟨-, -, -, -, hset, -⟩ := Client.set_then_read client rfl target 0 hsecs 0 7200
  obtain ⟨q, hq, -, hread⟩ := hset (by decide)
  have hshown : shown = ⟨2025, 1, 1, 0, 30, 0⟩ := by decide
  have hutc : ClockSource.utc.timeAt 1735684200 0 7200 = ⟨2024, 12, 31, 22, 30, 0⟩ := by decide
  refine ⟨rfl, hsecs, q, hq, ?_⟩
  rw [hread, hutc]
  exact congrArg (fun remote => Except.ok (Reading.mk remote 1735691400 _ 7200)) hshown

/-- **A clock that was set need not read back without offset**: it does not if it was set by a local
clock that is ahead of UTC. -/
theorem Client.not_set_then_read_unshifted :
    ¬ ∀ (c : Client) (target : Target) (kept : Nat) (secs : Int) (nanos : Nat) (zone : Int)
        (q : Request) (reading : Reading),
      c.format = .epoch → 0 ≤ secs → secs ≤ Civil.maxEpoch → -86400 < zone → zone < 86400 →
      (c.set target (c.clock.timeAt secs nanos zone)).request = .ok q →
      Reading.ofAnswer (ClockSource.utc.timeAt secs nanos zone)
        (.ok (stillNode (stillNode kept q).1 target.readRequest).2) = .ok reading →
      reading.remote = Civil.ofEpoch secs.toNat ∧ reading.offset = 0 := by
  intro h
  let target : Target := ⟨.named "node.local", 5683, ["date"]⟩
  have hshown : (Civil.ofSeconds (1735684200 + 7200)).epoch = .ok 1735691400 := by decide
  obtain ⟨q, hq, hmethod, hepoch⟩ := Target.setRequest_epoch hshown target .put
  have hread := stillNode_read (n := 1735691400) (by decide) target 1735684200
  have hset := stillNode_set hmethod hepoch 0
  obtain ⟨-, hoffset⟩ := h { format := .epoch } target 0 1735684200 0 7200 q _ rfl (by decide)
    (by decide) (by decide) (by decide) hq (by rw [hset]; exact hread)
  exact absurd hoffset (by decide)

end NodeClock
