import PercentFormat.Formatter.Configuration

/-!
# Sessions

A session keeps a formatter and a list of arguments and obeys commands: build or load a
formatter, collect arguments, format a template with what has been collected.  Formatting
changes neither, whatever comes of it, and a description that is refused leaves the formatter as
it was.

## Main definitions

* `Session`, `Command`, `Reply`: the state, and what goes in and out
* `Session.step`, `Session.run`: one command, and a list of them

## Main results

* `run_append`: commands in two batches are commands in one
-/

namespace PercentFormat

/-- What a session keeps from one command to the next. -/
structure Session where
  /-- The formatter in use. -/
  formatter : Formatter := {}
  /-- The arguments collected so far, first to last. -/
  arguments : List Value := []

/-- A command to a session. -/
inductive Command where
  /-- Build a formatter, with the given nil token or the default one. -/
  | build (nilToken : Option String)
  /-- Give the formatter another nil token. -/
  | replaceToken (nilToken : String)
  /-- Build the formatter that a JSON value describes. -/
  | load (description : Json)
  /-- Add an argument behind the others. -/
  | push (argument : Value)
  /-- Drop all arguments. -/
  | clear
  /-- Format a template with the arguments collected. -/
  | format (template : String)

/-- The reply to a command. -/
inductive Reply where
  /-- The nil token now in use. -/
  | token (nilToken : String)
  /-- The description describes no formatter. -/
  | refused
  /-- How many arguments there are now. -/
  | count (n : Nat)
  /-- What came of formatting. -/
  | formatted (outcome : Except FormatError String)

namespace Session

/-- The session with another formatter, and the reply that tells its token. -/
def adopt (s : Session) (f : Formatter) : Session × Reply :=
  ({ s with formatter := f }, .token f.nilToken)

/-- Obeys one command. -/
def step (s : Session) : Command → Session × Reply
  | .build none => s.adopt {}
  | .build (some nilToken) => s.adopt (({} : Formatter).withNilToken nilToken)
  | .replaceToken nilToken => s.adopt (s.formatter.withNilToken nilToken)
  | .load description =>
    match Formatter.ofJson? description with
    | some f => s.adopt f
    | none => (s, .refused)
  | .push argument =>
    ({ s with arguments := s.arguments ++ [argument] }, .count (s.arguments.length + 1))
  | .clear => ({ s with arguments := [] }, .count 0)
  | .format template => (s, .formatted (s.formatter.format template s.arguments))

/-- Obeys commands in order, and collects the replies. -/
def run (s : Session) : List Command → Session × List Reply
  | [] => (s, [])
  | command :: commands =>
    let (s, reply) := s.step command
    let (s, replies) := s.run commands
    (s, reply :: replies)

/-- Commands in two batches are commands in one. -/
theorem run_append (s : Session) (commands more : List Command) :
    s.run (commands ++ more) =
      (((s.run commands).1.run more).1, (s.run commands).2 ++ ((s.run commands).1.run more).2) := by
  induction commands generalizing s with
  | nil => rfl
  | cons command commands ih => simp [run, ih]

end Session

end PercentFormat
