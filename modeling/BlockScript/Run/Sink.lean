/-!
# Where output goes

* `Sink`: the bytes written so far, and how many there may be.
* `Sink.write`: writes a text; what fits is kept even where not all of it does.
* `Sink.flush`: passes on what was written.
-/

namespace BlockScript

/-- What can be wrong with a sink. -/
inductive SinkError where
  /-- There is no room for more bytes. -/
  | full
  /-- What was written cannot be passed on. -/
  | flushFailed
  deriving DecidableEq, Repr

/-- The error as it is reported. -/
def SinkError.message : SinkError → String
  | .full => "sink full"
  | .flushFailed => "flush failed"

/-- A place that output goes to. -/
structure Sink where
  /-- The bytes written so far. -/
  written : ByteArray := ByteArray.empty
  /-- The number of bytes that there is room for, if that is limited. -/
  limit : Option Nat := none
  /-- What was written can be passed on. -/
  flushes : Bool := true

namespace Sink

/-- The sink with the given bytes behind those written. -/
def append (k : Sink) (bytes : ByteArray) : Sink :=
  { k with written := k.written ++ bytes }

/-- Writes a text. Where it does not fit, the bytes that fit are kept. -/
def write (k : Sink) (t : String) : Option SinkError × Sink :=
  let bytes := t.toUTF8
  match k.limit with
  | none => (none, k.append bytes)
  | some n =>
    if k.written.size + bytes.size ≤ n then (none, k.append bytes)
    else (some .full, k.append (bytes.extract 0 (n - k.written.size)))

/-- Passes on what was written. -/
def flush (k : Sink) : Option SinkError :=
  if k.flushes then none else some .flushFailed

/-- The text that bytes encode. Where the last character is cut short, a replacement character
stands for it. -/
def decode (bytes : ByteArray) : String :=
  match String.fromUTF8? bytes with
  | some t => t
  | none =>
    let cut := [1, 2, 3].findSome? fun n => String.fromUTF8? (bytes.extract 0 (bytes.size - n))
    cut.getD "" ++ "\uFFFD"

/-- The text written, without its first `start` bytes. -/
def textFrom (k : Sink) (start : Nat) : String :=
  decode (k.written.extract start k.written.size)

/-- The text written. -/
def text (k : Sink) : String :=
  k.textFrom 0

@[simp] theorem write_of_limit_none {k : Sink} (h : k.limit = none) (t : String) :
    k.write t = (none, k.append t.toUTF8) := by
  simp [write, h]

end Sink
end BlockScript
