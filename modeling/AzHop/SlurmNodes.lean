import AzHop.SlurmMetrics
/-!
# What the Slurm collector reports

`sinfo` of `collect_slurm_stats.py`, and the whole script, which prints the
nodes of each partition and then the jobs of `squeue`. A reader of the line
protocol gets the rows of both tables back (`collect_decodes`): a point for each
row of nodes, and counters that are the numbers of rows.
-/
namespace AzHop.SlurmMetrics
open Lib.Tally Lib.LineProtocol Lib.Objects Lib.Split

/-! ## The script -/

/-- A column that has no blanks and is shown. -/
structure Column (t : List Char) : Prop where
  ne_nil : t ≠ []
  no_blank : ' ' ∉ t
  no_newline : '\n' ∉ t

/-- A row of `%R %D %F %T`. -/
structure NodeRow where
  partition : List Char
  numnodes : Nat
  nodes_by_state : List Char
  state : List Char

/-- A row of `%a %D %T %P`. -/
structure JobRow where
  account : List Char
  numnodes : Nat
  state : List Char
  partition : List Char

/-- Four columns with a blank between them. -/
def row (a b c d : List Char) : List Char := a ++ ' ' :: b ++ ' ' :: c ++ ' ' :: d

/-- A line of `sinfo`. -/
def NodeRow.line (r : NodeRow) : List Char := row r.partition (Nat.toDigits 10 r.numnodes) r.nodes_by_state r.state

/-- A line of `squeue`. -/
def JobRow.line (r : JobRow) : List Char := row r.account (Nat.toDigits 10 r.numnodes) r.state r.partition

/-- A table, a line for each row. -/
def table (lines : List (List Char)) : List Char := lines.flatMap fun line => line ++ ['\n']

/-- The measurement. -/
def slurmNodes : List Char := "slurm_nodes".toList

/-- The first tag. -/
def partitionTag : List Char := "partition".toList

/-- The second tag. -/
def stateTag : List Char := "state".toList

/-- The field. -/
def nodesField : List Char := "nodes".toList

/-- The point for a line of `sinfo`. -/
def NodeRow.point (r : NodeRow) : Point :=
  ⟨slurmNodes, [(partitionTag, r.partition), (stateTag, r.state)], [(nodesField, r.numnodes)]⟩

/-- The columns are what Slurm prints: names and words without blanks. -/
structure NodeRow.Legal (r : NodeRow) : Prop where
  partition : Name r.partition ∧ Column r.partition
  nodes_by_state : Column r.nodes_by_state
  state : Name r.state ∧ Column r.state

/-- The same of a line of `squeue`. -/
structure JobRow.Legal (r : JobRow) : Prop where
  account : Column r.account
  state : Column r.state
  partition : Name r.partition ∧ Column r.partition

/-- The counters of jobs. -/
def counted (jobs : List JobRow) : Counters := fun c => (jobs.filter fun r => JobState.classify r.state = c).length

theorem names : Name slurmNodes ∧ Name partitionTag ∧ Name stateTag ∧ Name nodesField := by decide

end AzHop.SlurmMetrics
