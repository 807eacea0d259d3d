/-!
# Output of a task

What a task writes to the two streams of a terminal, and how it ends.
-/

namespace Parley

/-- The texts written to the two streams. -/
structure Output where
  out : String := ""
  err : String := ""
deriving DecidableEq, Repr, Inhabited

namespace Output

def append (a b : Output) : Output :=
  ⟨a.out ++ b.out, a.err ++ b.err⟩

instance : Append Output := ⟨append⟩

end Output

/-- How a task ends. -/
inductive Ending where
  | done
  | failed (message : String)
  /-- The task breaks off, as no task should. The fault is told in words. -/
  | crashed (fault : String)
  /-- The command line is not understood, and there is no task. -/
  | misused
deriving DecidableEq, Repr

/-- The number that a process leaves behind. -/
def Ending.code : Ending → Nat
  | .done => 0
  | .failed _ => 1
  | .misused => 2
  | .crashed _ => 101

/-- The last words on the error stream. Of a crash these are the fault alone: what the process
around the task says of where it happened is not the task's. -/
def Ending.text : Ending → String
  | .done => ""
  | .failed message => s!"error: {message}\n"
  | .misused => "error: the command line is not understood\n"
  | .crashed fault => fault ++ "\n"

end Parley
