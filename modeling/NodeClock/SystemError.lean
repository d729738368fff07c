import NodeClock.Failure

/-!
# Errors of the operating system

The numbers by which the system tells its errors, with their kinds and texts.

* `systemErrors`: the table of those that a network brings.
* `IoError.ofNumber`: the error with a number.
-/

namespace NodeClock

/-- Numbers, kinds and texts of the errors that a network brings. -/
def systemErrors : List (Nat × IoKind × String) :=
  [(1, .permissionDenied, "Operation not permitted"),
    (13, .permissionDenied, "Permission denied"),
    (22, .invalidInput, "Invalid argument"),
    (32, .brokenPipe, "Broken pipe"),
    (90, .other, "Message too long"),
    (97, .other, "Address family not supported by protocol"),
    (98, .addrInUse, "Address already in use"),
    (99, .addrNotAvailable, "Cannot assign requested address"),
    (100, .networkDown, "Network is down"),
    (101, .networkUnreachable, "Network is unreachable"),
    (103, .connectionAborted, "Software caused connection abort"),
    (104, .connectionReset, "Connection reset by peer"),
    (107, .notConnected, "Transport endpoint is not connected"),
    (110, .timedOut, "Connection timed out"),
    (111, .connectionRefused, "Connection refused"),
    (113, .hostUnreachable, "No route to host")]

/-- The error with a number, `detail` being said of one that is not in the table. -/
def IoError.ofNumber (n : Nat) (detail : String) : IoError :=
  let (kind, text) := (systemErrors.lookup n).getD (.other, detail)
  { kind, text := text ++ " (os error " ++ Decimal.render n ++ ")" }

end NodeClock
