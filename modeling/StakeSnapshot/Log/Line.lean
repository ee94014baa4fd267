import StakeSnapshot.Log.Template

/-!
# Progress lines

What is told while a snapshot is built and its stakes are calculated. A line is a template with its
values. The lines of a snapshot carry the time since its start. A logger takes every line as it is, or
has its text written, which may fail.
-/

namespace StakeSnapshot

/-- A line of progress or an explanation. -/
inductive LogLine where
  | started (block : Value) (slot : Int)
  | nodesRead
  | minipoolsRead
  | indexed
  | validatorsRead
  | unknownValidator (minipool pubkey : String)
  | startsLater (minipool : String) (start epoch : Int)
  | exited (minipool : String) (exit epoch : Int)
  deriving DecidableEq

namespace LogLine

/-- The template of a line. -/
def template : LogLine → String
  | started .. => "Getting network state for EL block %d, Beacon slot %d"
  | nodesRead => "1/4 - Retrieved node details (%.2fs so far)"
  | minipoolsRead => "2/4 - Retrieved minipool details (%.2fs so far)"
  | indexed => "3/4 - Created lookups (%.2fs so far)"
  | validatorsRead => "4/4 - Retrieved validator details (total time: %.2fs)"
  | unknownValidator .. =>
    "NOTE: minipool %s (pubkey %s) didn't exist, ignoring it in effective RPL calculation"
  | startsLater .. =>
    "NOTE: minipool %s starts on epoch %d which is after interval epoch %d so it's not eligible for RPL rewards"
  | exited .. =>
    "NOTE: minipool %s exited on epoch %d which is not after interval epoch %d so it's not eligible for RPL rewards"

/-- The values of a line; `elapsed` is the number of seconds since the start. -/
def values (elapsed : Number.Binary64) : LogLine → List Value
  | started block slot => [block, .int slot]
  | nodesRead | minipoolsRead | indexed | validatorsRead => [.float elapsed]
  | unknownValidator minipool pubkey => [.text minipool, .text pubkey]
  | startsLater minipool start epoch => [.text minipool, .int start, .int epoch]
  | exited minipool exit epoch => [.text minipool, .int exit, .int epoch]

/-- The text of a line. -/
def text (elapsed : Number.Binary64) (line : LogLine) : Except Fault String :=
  Template.fill line.template (line.values elapsed)

end LogLine

/-- Where lines are told, which may fail. -/
abbrev Logger := LogLine → Except Fault Unit

namespace Logger

/-- Takes every line and does nothing with it. -/
def silent : Logger := fun _ => .ok ()

/-- Has the text of every line written. -/
def writing (elapsed : Number.Binary64) : Logger := fun line => (line.text elapsed).map fun _ => ()

/-- Tells lines one after the other, as long as they are taken. -/
def tell (log : Logger) : List LogLine → Except Fault Unit
  | [] => .ok ()
  | line :: rest => do
    log line
    log.tell rest

theorem tell_append (log : Logger) (xs ys : List LogLine) :
    log.tell (xs ++ ys) = (log.tell xs >>= fun _ => log.tell ys) := by
  induction xs with
  | nil => rfl
  | cons line xs ih =>
    rw [List.cons_append, tell, tell, ih]
    cases log line <;> rfl

@[simp] theorem tell_silent (lines : List LogLine) : silent.tell lines = .ok () := by
  induction lines with
  | nil => rfl
  | cons line lines ih => exact ih

end Logger

end StakeSnapshot
