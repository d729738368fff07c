import NodeClock.Failure

/-!
# Outcomes

What became of the attempt to set a clock, and how far it had come before.

* `Progress`: the states that a call walks through.
* `Failure`, `Outcome`: how it ended.
* `Outcome.ofAnswer`: the outcome of an answer or an error.
* `Outcome.exitStatus`: the outcome as a process tells it.
-/

namespace NodeClock

open Coap

/-- How far a call has come. The last four states are final. -/
inductive Progress where
  | idle | sending | awaitingResponse | succeeded | rejected | timedOut | transportFailed
  deriving DecidableEq, Repr

namespace Progress

def all : List Progress :=
  [idle, sending, awaitingResponse, succeeded, rejected, timedOut, transportFailed]

def isFinal : Progress → Bool
  | succeeded | rejected | timedOut | transportFailed => true
  | _ => false

def name : Progress → String
  | idle => "idle"
  | sending => "sending"
  | awaitingResponse => "awaiting-response"
  | succeeded => "succeeded"
  | rejected => "rejected"
  | timedOut => "timed-out"
  | transportFailed => "transport-failed"

end Progress

/-- Why a clock was not set. -/
inductive Failure where
  | rejected (code : ResponseCode)
  | timedOut
  | transportFailed (detail : String)
  deriving DecidableEq, Repr

namespace Failure

/-- A few words that do not depend on the case. -/
def reason : Failure → String
  | rejected _ => "rejected by node"
  | timedOut => "timeout"
  | transportFailed _ => "transport error"

def code? : Failure → Option ResponseCode
  | rejected c => some c
  | _ => none

def message (f : Failure) : String :=
  match f with
  | rejected c => f.reason ++ ": " ++ c.title
  | timedOut => f.reason
  | transportFailed d => f.reason ++ ": " ++ d

end Failure

/-- How an attempt to set a clock ended. -/
inductive Outcome where
  | success (code : ResponseCode)
  | failure (f : Failure)
  deriving DecidableEq, Repr

/-- The exit status for a target or arguments that cannot be used. -/
def badUsageStatus : UInt8 := 1

/-- The exit statuses of a process whose call brought an answer or failed. -/
def rejectedStatus : UInt8 := 2
def timedOutStatus : UInt8 := 3
def transportStatus : UInt8 := 4

namespace Outcome

/-- A 2.xx answer is a success and any other one a rejection. A bad target counts as a failed
transport. -/
def ofAnswer : Except CallError ResponseCode → Outcome
  | .ok c => if c.isSuccess then success c else failure (.rejected c)
  | .error (.rejected c) => failure (.rejected c)
  | .error .timeout => failure .timedOut
  | .error (.transport e) => failure (.transportFailed e.message)
  | .error (.invalidTarget e) => failure (.transportFailed (CallError.invalidTarget e).message)

def isSuccess : Outcome → Bool
  | success _ => true
  | failure _ => false

def code? : Outcome → Option ResponseCode
  | success c => some c
  | failure f => f.code?

def failure? : Outcome → Option Failure
  | success _ => none
  | failure f => some f

/-- The final state of a call with this outcome. -/
def progress : Outcome → Progress
  | success _ => .succeeded
  | failure (.rejected _) => .rejected
  | failure .timedOut => .timedOut
  | failure (.transportFailed _) => .transportFailed

/-- Another attempt may end otherwise unless the node has answered. -/
def isRetryable : Outcome → Bool
  | failure .timedOut | failure (.transportFailed _) => true
  | _ => false

def exitStatus : Outcome → UInt8
  | success _ => 0
  | failure (.rejected _) => rejectedStatus
  | failure .timedOut => timedOutStatus
  | failure (.transportFailed _) => transportStatus

def message : Outcome → String
  | success c => s!"clock set ({c.text})"
  | failure f => s!"clock not set: {f.message}"

end Outcome

/-- The exit status of a process that could not read a clock. -/
def CallError.exitStatus : CallError → UInt8
  | invalidTarget _ => badUsageStatus
  | rejected _ => rejectedStatus
  | timeout => timedOutStatus
  | transport _ => transportStatus

end NodeClock
