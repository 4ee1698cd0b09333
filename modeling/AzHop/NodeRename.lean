import AzHop.Lib.Loop
/-!
# Renaming a node

A node that does not register its own name is renamed by the script that joins
it to the domain: up to three calls of `enforce_hostname`, with a wait after
each. The test for the number of calls comes before the test of the name, so
that the name the third call leaves is not looked at.
-/
namespace AzHop.NodeRename
open Lib.Loop

abbrev Name := List Char

/-- What the script reads: an answer of `jetpack config`, the target name, and
the hostname after each number of calls of `enforce_hostname`. -/
structure Node where
  standalone_dns : Name
  target_hostname : Name
  hostname : Nat → Name

/-- `max_retry`. -/
def max_retry : Nat := 3

/-- The state of the loop. -/
structure Loop where
  n : Nat
  calls : Nat

/-- How it ends. -/
structure Exit where
  success : Bool
  calls : Nat

/-- `while true` in `rename_host`. -/
def body (node : Node) (s : Loop) : Loop ⊕ Exit :=
  let current_hostname := node.hostname s.calls
  if s.n ≤ max_retry then
    if current_hostname ≠ node.target_hostname then .inl ⟨s.n + 1, s.calls + 1⟩ else .inr ⟨true, s.calls⟩
  else .inr ⟨false, s.calls⟩

def standalone (node : Node) : Bool := node.standalone_dns.map Char.toLower = ['t', 'r', 'u', 'e']

/-- A node that registers its own name is not renamed. -/
def RenameHost (node : Node) (r : Exit) : Prop :=
  if standalone node then r = ⟨true, 0⟩ else Leaves (body node) ⟨1, 0⟩ r

/-! ## What a run does -/

/-- Each call was made on a name that was wrong. -/
structure Inv (node : Node) (s : Loop) : Prop where
  count : s.n = s.calls + 1
  limit : s.calls ≤ max_retry
  wrong : ∀ k < s.calls, node.hostname k ≠ node.target_hostname

theorem inv_start (node : Node) : Inv node ⟨1, 0⟩ := ⟨rfl, Nat.zero_le _, fun k hk => absurd hk (Nat.not_lt_zero k)⟩

/-- The loop goes on after a call on a wrong name. -/
theorem body_again {node : Node} {s s' : Loop} (h : body node s = .inl s') :
    s.n ≤ max_retry ∧ node.hostname s.calls ≠ node.target_hostname ∧ s' = ⟨s.n + 1, s.calls + 1⟩ := by
  simp only [body] at h
  split at h
  · rename_i hn
    split at h
    · rename_i hwrong
      exact ⟨hn, hwrong, (Sum.inl.inj h).symm⟩
    · cases h
  · cases h

/-- It leaves with the right name, or without looking at the name. -/
theorem body_exit {node : Node} {s : Loop} {r : Exit} (h : body node s = .inr r) :
    (s.n ≤ max_retry ∧ node.hostname s.calls = node.target_hostname ∧ r = ⟨true, s.calls⟩) ∨
    (max_retry < s.n ∧ r = ⟨false, s.calls⟩) := by
  simp only [body] at h
  split at h
  · rename_i hn
    split at h
    · cases h
    · rename_i hright
      exact Or.inl ⟨hn, Decidable.not_not.1 hright, (Sum.inr.inj h).symm⟩
  · rename_i hn
    exact Or.inr ⟨Nat.lt_of_not_le hn, (Sum.inr.inj h).symm⟩

theorem inv_body {node : Node} {s s' : Loop} (hs : Inv node s) (h : body node s = .inl s') : Inv node s' := by
  obtain ⟨hn, hwrong, rfl⟩ := body_again h
  refine ⟨congrArg Nat.succ hs.count, ?_, fun k hk => ?_⟩
  · have := hs.count
    change s.calls + 1 ≤ max_retry
    omega
  · rcases Nat.lt_or_eq_of_le (Nat.le_of_lt_succ hk) with hk | rfl
    · exact hs.wrong k hk
    · exact hwrong

/-- The loop leaves. -/
theorem exists_leaves (node : Node) (s : Loop) : ∃ r, Leaves (body node) s r := by
  refine leaves_of_measure (fun s => max_retry + 1 - s.n) (fun s s' h => ?_) s
  obtain ⟨hn, -, rfl⟩ := body_again h
  change max_retry + 1 - (s.n + 1) < max_retry + 1 - s.n
  omega

/-- It leaves with the first right name within two calls, or gives up after three. -/
theorem leaves_cases {node : Node} {r : Exit} (h : Leaves (body node) ⟨1, 0⟩ r) :
    (∀ k < r.calls, node.hostname k ≠ node.target_hostname) ∧
    ((r.success = true ∧ r.calls < max_retry ∧ node.hostname r.calls = node.target_hostname) ∨
      (r.success = false ∧ r.calls = max_retry)) := by
  obtain ⟨s, hs, hexit⟩ := h.invariant (fun _ _ => inv_body) (inv_start node)
  have hcount := hs.count
  have hlimit := hs.limit
  rcases body_exit hexit with ⟨hn, hright, rfl⟩ | ⟨hn, rfl⟩
  · exact ⟨hs.wrong, Or.inl ⟨rfl, by change s.calls < max_retry; omega, hright⟩⟩
  · exact ⟨hs.wrong, Or.inr ⟨rfl, by change s.calls = max_retry; omega⟩⟩

/-! ## Renaming -/

/-- A node that is to be renamed: the script ends after at most three calls, with
success just when the name is right after one of them, and gives up only while
the name is wrong. -/
def Renames (node : Node) : Prop :=
  standalone node = false →
    (∃ r, RenameHost node r) ∧
    ∀ r, RenameHost node r → r.calls ≤ 3 ∧
      (r.success = true ↔ ∃ k ≤ 3, node.hostname k = node.target_hostname) ∧
      (r.success = false → node.hostname r.calls ≠ node.target_hostname)

/-- The script does it unless the third call is the one that sets the name. -/
theorem renames_iff (node : Node) : Renames node ↔
    (standalone node = false → node.hostname 3 = node.target_hostname →
      ∃ k < 3, node.hostname k = node.target_hostname) := by
  unfold Renames RenameHost
  refine forall_congr' fun hstandalone => ?_
  simp only [hstandalone, Bool.false_eq_true, if_false]
  constructor
  · rintro ⟨⟨r, hr⟩, hall⟩ hthird
    rcases (leaves_cases hr).2 with ⟨-, hcalls, hright⟩ | ⟨hfail, hcalls⟩
    · exact ⟨r.calls, hcalls, hright⟩
    · exact absurd (hcalls ▸ hthird) ((hall r hr).2.2 hfail)
  · intro h
    refine ⟨exists_leaves node _, fun r hr => ?_⟩
    obtain ⟨hwrong, ⟨hsuccess, hcalls, hright⟩ | ⟨hfail, hcalls⟩⟩ := leaves_cases hr
    · have hcalls : r.calls ≤ 3 := Nat.le_of_lt hcalls
      refine ⟨hcalls, iff_of_true hsuccess ⟨r.calls, hcalls, hright⟩, fun hf => ?_⟩
      rw [hsuccess] at hf
      cases hf
    · rw [hcalls] at hwrong
      have hnever : ∀ k ≤ 3, node.hostname k ≠ node.target_hostname := by
        intro k hk hright
        rcases Nat.lt_or_eq_of_le hk with hk | rfl
        · exact hwrong k hk hright
        · obtain ⟨k, hk, hright⟩ := h hright
          exact hwrong k hk hright
      refine ⟨Nat.le_of_eq hcalls, iff_of_false ?_ fun ⟨k, hk, hright⟩ => hnever k hk hright,
        fun _ => hnever _ (Nat.le_of_eq hcalls)⟩
      rw [hfail]
      exact Bool.false_ne_true

/-- A node whose name is right from the third call on. -/
def late : Node where
  standalone_dns := ['f', 'a', 'l', 's', 'e']
  target_hostname := ['h', 'p', 'c', '-', '1']
  hostname k := if k < 3 then ['i', 'p'] else ['h', 'p', 'c', '-', '1']

/-- The script gives up after the third call, when the name is right. -/
theorem not_renames_late : ¬ Renames late := by
  intro hrenames
  unfold Renames RenameHost at hrenames
  obtain ⟨⟨r, hr⟩, hspec⟩ := hrenames rfl
  change Leaves (body late) ⟨1, 0⟩ r at hr
  obtain ⟨hwrong, ⟨-, hcalls, hright⟩ | ⟨hfail, hcalls⟩⟩ := leaves_cases hr
  · have hcalls : r.calls < 3 := hcalls
    simp [late, hcalls] at hright
  · refine (hspec r hr).2.2 hfail ?_
    rw [hcalls]
    rfl

end AzHop.NodeRename
