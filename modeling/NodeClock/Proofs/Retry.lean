import NodeClock.Cli.Program

/-!
# Attempts to set a clock

The program tries to set a clock until the node has answered or no attempt is left. What it does is
seen from outside by services that keep a record, the outcome of each attempt being given.

* `Act`, `recorder`: what the program does, and the services that keep a record of it.
* `Outcome.Settles`: the outcomes after which there is no other attempt.
* `Tried.step`, `retry_tried`: **how far the attempts go**, by one attempt and by any number.
* `Tried.last_eq_min`: the last attempt is the first that settles it, unless there are fewer.
* `Invocation.perform_attempts`: **the attempts, the line and the exit status** of the program.
-/

namespace NodeClock

/-- The node has answered: it has taken over the time, or refused to. -/
def Outcome.Settles (o : Outcome) : Prop :=
  (∃ code, o = .success code) ∨ ∃ code, o = .failure (.rejected code)

theorem Outcome.isRetryable_iff {o : Outcome} : o.isRetryable = true ↔ ¬ o.Settles := by
  cases o with
  | success code => exact iff_of_false nofun (not_not_intro (Or.inl ⟨code, rfl⟩))
  | failure f =>
    cases f with
    | rejected code => exact iff_of_false nofun (not_not_intro (Or.inr ⟨code, rfl⟩))
    | timedOut => exact iff_of_true rfl (by rintro (⟨_, ⟨⟩⟩ | ⟨_, ⟨⟩⟩))
    | transportFailed detail => exact iff_of_true rfl (by rintro (⟨_, ⟨⟩⟩ | ⟨_, ⟨⟩⟩))

/-- The exit status that tells an outcome. -/
inductive Outcome.Told : Outcome → UInt8 → Prop where
  | success (code : Coap.ResponseCode) : Told (.success code) 0
  | rejected (code : Coap.ResponseCode) : Told (.failure (.rejected code)) 2
  | timedOut : Told (.failure .timedOut) 3
  | transportFailed (detail : String) : Told (.failure (.transportFailed detail)) 4

theorem Outcome.told_exitStatus (o : Outcome) : o.Told o.exitStatus := by
  cases o with
  | success code => exact .success code
  | failure f =>
    cases f with
    | rejected code => exact .rejected code
    | timedOut => exact .timedOut
    | transportFailed detail => exact .transportFailed detail

theorem Outcome.exitStatus_eq_zero_iff {o : Outcome} :
    o.exitStatus = 0 ↔ ∃ code, o = .success code := by
  have htold := o.told_exitStatus
  constructor
  · intro hzero
    rw [hzero] at htold
    cases htold with
    | success code => exact ⟨code, rfl⟩
  · rintro ⟨code, rfl⟩
    rfl

namespace Cli

/-- What the program does. -/
inductive Act where
  | set (client : Client) (target : Target)
  | read (client : Client) (target : Target)
  | print (line : String)
  | log (line : String)
  | complain (line : String)

/-- The attempts to set a clock. -/
def Act.isSet : Act → Bool
  | .set _ _ => true
  | _ => false

/-- What is done apart from keeping a log. -/
def Act.isDeed : Act → Bool
  | .log _ => false
  | _ => true

/-- What has been done, the log apart. -/
def deeds (acts : List Act) : List Act := acts.filter Act.isDeed

/-- Services that keep a record. The attempts to set a clock are counted from 1 and end with
`outcomes`. -/
def recorder (outcomes : Nat → Outcome) (reading : Except CallError Reading) :
    Services (StateM (List Act)) where
  set client target := modifyGet fun acts =>
    (outcomes (acts.countP Act.isSet + 1), acts ++ [.set client target])
  read client target := modifyGet fun acts => (reading, acts ++ [.read client target])
  print line := modify (· ++ [.print line])
  log line := modify (· ++ [.log line])
  complain line := modify (· ++ [.complain line])

variable {outcomes : Nat → Outcome} {reading : Except CallError Reading} {client : Client}
  {target : Target} {acts acts' : List Act} {left first last : Nat}

/-- An attempt to set a clock is no line of the log. -/
theorem countP_isSet_deeds (acts : List Act) :
    (deeds acts).countP Act.isSet = acts.countP Act.isSet := by
  rw [deeds, List.countP_filter]
  refine List.countP_congr fun a _ => ?_
  cases a <;> simp [Act.isSet, Act.isDeed]

/-- How far the attempts go from attempt `first` on, if there are at most `left` more of them. -/
structure Tried (outcomes : Nat → Outcome) (client : Client) (target : Target) (left first : Nat)
    (acts acts' : List Act) (last : Nat) : Prop where
  le : first ≤ last
  le_add : last ≤ first + left
  deeds : deeds acts' = deeds acts ++ List.replicate (last - first) (.set client target)
  unsettled : ∀ i, first ≤ i → i < last → ¬ (outcomes i).Settles
  stopped : last = first + left ∨ (outcomes last).Settles

/-- There is no other attempt after the last one. -/
theorem Tried.stop (h : left = 0 ∨ (outcomes first).Settles) :
    Tried outcomes client target left first acts acts first where
  le := Nat.le_refl _
  le_add := Nat.le_add_right _ _
  deeds := by rw [Nat.sub_self, List.replicate_zero, List.append_nil]
  unsettled i hle hlt := absurd hlt (Nat.not_lt.2 hle)
  stopped := h.imp_left fun hzero => by rw [hzero, Nat.add_zero]

/-- **One attempt more**, if the one before has not settled it. -/
theorem Tried.step {between : List Act} (hsettle : ¬ (outcomes first).Settles)
    (hbetween : Cli.deeds between = Cli.deeds acts ++ [.set client target])
    (h : Tried outcomes client target left (first + 1) between acts' last) :
    Tried outcomes client target (left + 1) first acts acts' last where
  le := Nat.le_of_succ_le h.le
  le_add := by
    have hle := h.le_add
    omega
  deeds := by
    have hle := h.le
    have hcount : last - first = last - (first + 1) + 1 := by omega
    rw [h.deeds, hbetween, hcount, List.replicate_succ, List.append_assoc]
    rfl
  unsettled i hle hlt := by
    rcases Nat.eq_or_lt_of_le hle with rfl | hlt'
    · exact hsettle
    · exact h.unsettled i hlt' hlt
  stopped := h.stopped.imp_left fun heq => by omega

/-- An attempt that settles it is the last one. -/
theorem Tried.last_le (h : Tried outcomes client target left first acts acts' last) {i : Nat}
    (hi : first ≤ i) (hsettles : (outcomes i).Settles) : last ≤ i :=
  Nat.le_of_not_lt fun hlt => h.unsettled i hi hlt hsettles

/-- **The last attempt** is the first one that settles it, or the last that there may be. -/
theorem Tried.last_eq_min (h : Tried outcomes client target left first acts acts' last) {i : Nat}
    (hi : first ≤ i) (hsettles : (outcomes i).Settles)
    (hearlier : ∀ j, first ≤ j → j < i → ¬ (outcomes j).Settles) : last = min (first + left) i := by
  have hle := h.last_le hi hsettles
  have hadd := h.le_add
  rcases h.stopped with hall | hsettled
  · omega
  · have hge : i ≤ last := Nat.le_of_not_lt fun hlt => hearlier last h.le hlt hsettled
    omega

theorem Tried.last_eq_of_never (h : Tried outcomes client target left first acts acts' last)
    (hnever : ∀ i, first ≤ i → ¬ (outcomes i).Settles) : last = first + left :=
  h.stopped.resolve_right (hnever last h.le)

/-- The last attempt is accepted if any is. -/
theorem Tried.success_iff (h : Tried outcomes client target left first acts acts' last) :
    (∃ code, outcomes last = .success code) ↔
      ∃ i code, first ≤ i ∧ i ≤ last ∧ outcomes i = .success code := by
  constructor
  · rintro ⟨code, hcode⟩
    exact ⟨last, code, h.le, Nat.le_refl last, hcode⟩
  · rintro ⟨i, code, hi, hle, hcode⟩
    obtain rfl : i = last := Nat.le_antisymm hle (h.last_le hi (Or.inl ⟨code, hcode⟩))
    exact ⟨code, hcode⟩

/-- **How far the attempts go.** -/
theorem retry_tried (outcomes : Nat → Outcome) (reading : Except CallError Reading)
    (client : Client) (target : Target) {note : Nat → Outcome → StateM (List Act) Unit}
    (hnote : ∀ n o acts, deeds ((note n o).run acts).2 = deeds acts) (left next : Nat)
    (hfirst : acts.countP Act.isSet = first) :
    ∃ last acts', (retry ((recorder outcomes reading).set client target) note left next
        (outcomes first)).run acts = (outcomes last, acts') ∧
      Tried outcomes client target left first acts acts' last := by
  -- what the attempts before have left in the record is all that the next one depends on
  induction left generalizing next first acts with
  | zero => exact ⟨first, acts, rfl, .stop (Or.inl rfl)⟩
  | succ left ih =>
    by_cases hsettle : (outcomes first).Settles
    · have hretry : ¬ (outcomes first).isRetryable = true := fun h =>
        Outcome.isRetryable_iff.1 h hsettle
      refine ⟨first, acts, ?_, .stop (Or.inr hsettle)⟩
      rw [retry, if_neg hretry]
      rfl
    · obtain ⟨noted, hnoted⟩ : ∃ noted, noted = ((note next (outcomes first)).run acts).2 :=
        ⟨_, rfl⟩
      have hdeeds : deeds noted = deeds acts := hnoted ▸ hnote next (outcomes first) acts
      have hcount : noted.countP Act.isSet = first := by
        rw [← countP_isSet_deeds, hdeeds, countP_isSet_deeds, hfirst]
      have hbetween : deeds (noted ++ [.set client target]) =
          deeds acts ++ [.set client target] := by
        rw [← hdeeds, deeds, List.filter_append]
        rfl
      have hnext : (noted ++ [Act.set client target]).countP Act.isSet = first + 1 := by
        rw [List.countP_append, hcount]
        rfl
      obtain ⟨last, acts', hrun, htried⟩ := ih (next + 1) hnext
      have hone : (retry ((recorder outcomes reading).set client target) note (left + 1) next
          (outcomes first)).run acts =
          (retry ((recorder outcomes reading).set client target) note left (next + 1)
            (outcomes (noted.countP Act.isSet + 1))).run (noted ++ [Act.set client target]) := by
        rw [retry, if_pos (Outcome.isRetryable_iff.2 hsettle), hnoted]
        rfl
      rw [hcount] at hone
      exact ⟨last, acts', hone.trans hrun, .step hsettle hbetween htried⟩

namespace Invocation

variable {log : LogLine → StateM (List Act) Unit}

/-- The first attempt and the further ones are told by one line. -/
theorem attempts_tried (outcomes : Nat → Outcome) (reading : Except CallError Reading)
    (client : Client) (target : Target) {note : Nat → Outcome → StateM (List Act) Unit}
    (hnote : ∀ n o acts, deeds ((note n o).run acts).2 = deeds acts) (left : Nat)
    (hacts : acts.countP Act.isSet = 0) :
    ∃ last acts', (do
        let s := recorder outcomes reading
        let last ← retry (s.set client target) note left 2 (← s.set client target)
        s.print last.message
        return last.exitStatus : StateM (List Act) UInt8).run acts =
          ((outcomes last).exitStatus, acts' ++ [Act.print (outcomes last).message]) ∧
      Tried outcomes client target left 1 (acts ++ [Act.set client target]) acts' last := by
  have hone : (acts ++ [Act.set client target]).countP Act.isSet = 1 := by
    rw [List.countP_append, hacts]
    rfl
  obtain ⟨last, acts', hrun, htried⟩ := retry_tried outcomes reading client target hnote left 2 hone
  refine ⟨last, acts', ?_, htried⟩
  have htold (r : Outcome × List Act)
      (h : (retry ((recorder outcomes reading).set client target) note left 2
        (outcomes (acts.countP Act.isSet + 1))).run (acts ++ [Act.set client target]) = r) :
      (do
        let s := recorder outcomes reading
        let last ← retry (s.set client target) note left 2 (← s.set client target)
        s.print last.message
        return last.exitStatus : StateM (List Act) UInt8).run acts =
          (r.1.exitStatus, r.2 ++ [Act.print r.1.message]) := by
    rw [← h]
    rfl
  rw [hacts] at htold
  exact htold _ hrun

/-- Setting a clock is to make attempts after a line of the log. -/
theorem performSet_tried (outcomes : Nat → Outcome) (reading : Except CallError Reading)
    (hlog : ∀ l acts, deeds ((log l).run acts).2 = deeds acts) (client : Client) (target : Target)
    (attempts : Nat) :
    ∃ last before acts', (performSet (recorder outcomes reading) log client target attempts).run
        [] = ((outcomes last).exitStatus, acts' ++ [Act.print (outcomes last).message]) ∧
      deeds before = [.set client target] ∧
      Tried outcomes client target (attempts - 1) 1 before acts' last := by
  let start : LogLine :=
    { severity := .info, message := "setting node clock",
      fields := [("target", target.render), ("method", client.method.name),
        ("timeout", client.timeout.render)] }
  have hstart : deeds ((log start).run []).2 = [] := hlog start []
  have hnone : ((log start).run []).2.countP Act.isSet = 0 := by
    rw [← countP_isSet_deeds, hstart]
    rfl
  let note (attempt : Nat) (last : Outcome) : StateM (List Act) Unit := log
    { severity := .warn, message := "retrying",
      fields := [("target", target.render), ("attempt", Decimal.render attempt),
        ("outcome", last.message)] }
  have hnote : ∀ n o acts, deeds ((note n o).run acts).2 = deeds acts := fun _ _ _ => hlog _ _
  obtain ⟨last, acts', hrun, htried⟩ :=
    attempts_tried outcomes reading client target hnote (attempts - 1) hnone
  refine ⟨last, _, acts', hrun, ?_, htried⟩
  rw [deeds, List.filter_append, ← deeds, hstart]
  rfl

theorem deeds_log (filter : LogFilter) (l : LogLine) (acts : List Act) :
    deeds ((perform.log (recorder outcomes reading) filter l).run acts).2 = deeds acts := by
  unfold perform.log
  split
  · show deeds (acts ++ [Act.log l.render]) = deeds acts
    rw [deeds, List.filter_append]
    exact List.append_nil _
  · rfl

/-- **The attempts, the line and the exit status.** With a target that cannot be used, a program
that sets a clock makes no attempt, says so and ends with status 1. Else, the log apart, it makes
`k` attempts and then prints the outcome of the last one: as many as it may make, or as it takes
until one is a success or a rejection. Its status tells this outcome. So it is 0 just if the node
has accepted an attempt, and none is made after a success or a rejection. -/
theorem perform_attempts (node : Node) (method : SetMethod) (format : WireFormat)
    (clock : ClockSource) {attempts : Nat} (hattempts : 1 ≤ attempts) (outcomes : Nat → Outcome)
    (reading : Except CallError Reading) (filter : LogFilter) :
    let client : Client := { timeout := node.timeout, method, format, clock }
    let run := ((Invocation.set node method format clock attempts).perform
      (recorder outcomes reading) filter).run []
    (∀ e, node.target = .error e →
      run.1 = 1 ∧ deeds run.2 = [.print ("clock not set: " ++ e.message)]) ∧
    ∀ target, node.target = .ok target → ∃ k, 1 ≤ k ∧ k ≤ attempts ∧
      deeds run.2 = List.replicate k (.set client target) ++ [.print (outcomes k).message] ∧
      (∀ i, 1 ≤ i → (outcomes i).Settles → (∀ j, 1 ≤ j → j < i → ¬ (outcomes j).Settles) →
        k = min attempts i) ∧
      ((∀ i, 1 ≤ i → ¬ (outcomes i).Settles) → k = attempts) ∧
      (outcomes k).Told run.1 ∧
      (run.1 = 0 ↔ ∃ i code, 1 ≤ i ∧ i ≤ k ∧ outcomes i = .success code) ∧
      ∀ i, 1 ≤ i → i < k → ¬ (outcomes i).Settles := by
  intro client run
  refine ⟨fun e he => ?_, fun target htarget => ?_⟩
  · have hrun : run = (badUsageStatus, [.print ("clock not set: " ++ e.message)]) := by
      simp only [run, perform, he]
      rfl
    rw [hrun]
    exact ⟨rfl, rfl⟩
  · obtain ⟨k, before, acts', hperform, hbefore, htried⟩ :=
      performSet_tried outcomes reading (deeds_log filter) client target attempts
    have hrun : run = ((outcomes k).exitStatus, acts' ++ [Act.print (outcomes k).message]) := by
      rw [← hperform]
      simp only [run, perform, htarget]
      rfl
    have hle := htried.le
    have hadd := htried.le_add
    have hdeeds : deeds run.2 =
        List.replicate k (.set client target) ++ [.print (outcomes k).message] := by
      obtain ⟨n, rfl⟩ : ∃ n, k = n + 1 := ⟨k - 1, by omega⟩
      rw [hrun, deeds, List.filter_append, ← deeds, htried.deeds, hbefore, Nat.add_sub_cancel,
        List.replicate_succ]
      rfl
    have hall : 1 + (attempts - 1) = attempts := by omega
    refine ⟨k, hle, by omega, hdeeds, ?_, ?_, ?_, ?_, htried.unsettled⟩
    · intro i hi hsettles hearlier
      rw [htried.last_eq_min hi hsettles hearlier, hall]
    · intro hnever
      rw [htried.last_eq_of_never hnever, hall]
    · rw [hrun]
      exact (outcomes k).told_exitStatus
    · rw [hrun]
      exact Outcome.exitStatus_eq_zero_iff.trans htried.success_iff

/-- A timeout is followed by a rejection, and this by nothing. -/
theorem perform_attempts_rejected :
    let node : Node := ⟨"node.local", none, "/date", .ofMillis 2000⟩
    let client : Client := { timeout := node.timeout, clock := .utc }
    let target : Target := ⟨.named "node.local", 5683, ["date"]⟩
    let outcomes : Nat → Outcome
      | 1 => .failure .timedOut
      | 2 => .failure (.rejected ⟨4, 5⟩)
      | _ => .success ⟨2, 4⟩
    let run := ((Invocation.set node .put .query .utc 5).perform
      (recorder outcomes (.error .timeout)) []).run []
    node.target = .ok target ∧ run.1 = 2 ∧
      deeds run.2 = [.set client target, .set client target,
        .print "clock not set: rejected by node: 4.05 Method Not Allowed"] := by
  intro node client target outcomes run
  have htarget : node.target = .ok target := by
    dsimp +zetaDelta only
    rfl
  obtain ⟨-, hset⟩ := perform_attempts node .put .query .utc (show 1 ≤ 5 by decide) outcomes
    (.error .timeout) []
  obtain ⟨k, -, -, hdeeds, hfirst, -, htold, -⟩ := hset target htarget
  have hone : ¬ (outcomes 1).Settles := by rintro (⟨_, ⟨⟩⟩ | ⟨_, ⟨⟩⟩)
  have htwo : k = 2 := by
    refine hfirst 2 (by decide) (Or.inr ⟨_, rfl⟩) fun j hj hlt => ?_
    obtain rfl : j = 1 := by omega
    exact hone
  subst htwo
  refine ⟨htarget, ?_, hdeeds⟩
  generalize run.1 = status at htold
  cases htold
  rfl

end Invocation

end Cli

end NodeClock
