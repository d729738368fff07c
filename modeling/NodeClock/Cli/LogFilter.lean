import NodeClock.Cli.Directive

/-!
# Log filters

What is logged is chosen by directives between commas. Of those that speak of a line, the most
special one decides.

* `LogFilter.ofText?`: the filter of a text, added to what is logged by default.
* `LogFilter.admits`: whether a line is logged.
-/

namespace NodeClock.Cli

/-- A list of directives, later ones replacing earlier ones for the same lines. -/
abbrev LogFilter := List Directive

namespace LogFilter

/-- The target of this program's lines. -/
def ownTarget : String := "rtc_sync"

/-- The target of the lines of the client. -/
def clientTarget : String := "rtc_client"

/-- What is logged by default. -/
def standard : LogFilter :=
  [{ target := ownTarget.toList, verbosity := Severity.info.rank },
    { target := clientTarget.toList, verbosity := Severity.info.rank }]

/-- The directives of a text behind those that hold by default. The first that cannot be read
spoils the whole text; if one of its parts would begin or end inside a character, there is no
filter at all. -/
def ofText? (s : String) : Option LogFilter :=
  let texts := (s.toList.splitOn ',').filter (!·.isEmpty)
  match texts.mapM Directive.read with
  | .ok directives => some (standard ++ directives)
  | .error .malformed => some standard
  | .error .torn => none

/-- Whether a line with some fields is logged. -/
def admits (f : LogFilter) (target : String) (fields : List String) (severity : Severity) : Bool :=
  let matching := f.filter (·.appliesTo target fields)
  severity.rank ≤ (matching.foldl Directive.closer { verbosity := 0 }).verbosity

end LogFilter

end NodeClock.Cli
