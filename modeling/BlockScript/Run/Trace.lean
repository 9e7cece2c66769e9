import BlockScript.Character.Blank
import BlockScript.Text.Fields
import BlockScript.Value

/-!
# Traces

A trace tells what the phases of a run did. Each phase is told of only where it is asked for.

* `Phase`, `Phases`: the phases and a choice among them; `Phases.ofChoice` reads a choice.
* `Event`: what a phase tells.
* `Trace`: the events of the chosen phases.
-/

namespace BlockScript

/-- The phases of a run. -/
inductive Phase where
  | scan | parse | exec
  deriving DecidableEq, Repr

/-- The name of the phase. -/
def Phase.name : Phase → String
  | .scan => "scan"
  | .parse => "parse"
  | .exec => "exec"

/-- The phase with the given name, in any letter case. -/
def Phase.ofName? (name : List Char) : Option Phase :=
  [Phase.scan, .parse, .exec].find? fun p => p.name.toList == name.map Char.toLower

/-- A choice among the phases. -/
abbrev Phases := List Phase

/-- The choice that a text makes: `1` for all phases, or else the names of phases between commas.
Names of nothing are ignored. -/
def Phases.ofChoice (choice : String) : Phases :=
  let cs := Character.trimBlank choice.toList
  if cs = ['1'] then [.scan, .parse, .exec]
  else (Text.fields ',' cs).filterMap fun name => Phase.ofName? (Character.trimBlank name)

/-- The two kinds of loop. -/
inductive LoopKind where
  | whileLoop | repeatLoop
  deriving DecidableEq, Repr

/-- The word for the loop. -/
def LoopKind.word : LoopKind → String
  | .whileLoop => "while"
  | .repeatLoop => "repeat"

/-- What a phase tells. -/
inductive Event where
  | scanned (tokens lines : Nat)
  | parsed (statements : Nat)
  | assigned (name : String) (v : Value)
  | finished (loop : LoopKind) (rounds : Nat)
  deriving DecidableEq, Repr

namespace Event

/-- The phase that tells of the event. -/
def phase : Event → Phase
  | .scanned .. => .scan
  | .parsed _ => .parse
  | .assigned .. | .finished .. => .exec

/-- What is told of the event. -/
def message : Event → String
  | .scanned n m => toString n ++ " tokens over " ++ toString m ++ " lines"
  | .parsed n => toString n ++ " top-level statements"
  | .assigned x v => x ++ " := " ++ v.toText
  | .finished k n => k.word ++ " finished after " ++ toString n ++ " rounds"

/-- The event as a line of a trace. -/
def line (e : Event) : String :=
  "[" ++ e.phase.name ++ "] " ++ e.message

end Event

/-- The events of the chosen phases, the latest first. -/
structure Trace where
  phases : Phases := []
  events : List Event := []

namespace Trace

/-- Adds an event, if its phase is among the chosen ones. -/
def note (t : Trace) (e : Event) : Trace :=
  if e.phase ∈ t.phases then { t with events := e :: t.events } else t

/-- The events as text, a line each, in the order they happened. -/
def text (t : Trace) : String :=
  String.join (t.events.reverse.map fun e => e.line ++ "\n")

theorem mem_events_note {t : Trace} {d e : Event} (h : d ∈ (t.note e).events) :
    d = e ∨ d ∈ t.events := by
  unfold note at h
  split at h
  · exact List.mem_cons.1 h
  · exact .inr h

end Trace
end BlockScript
