import Mathlib.Data.List.MinMax
/-!
# First-match rule tables

A table is a list of rules, each with a priority, a verdict and a test on
packets. The rule that decides a packet is the matching one of least
priority. In a layered table, where every allow rule comes before every deny
rule, a packet is allowed as soon as one allow rule matches it
(`allow_of_layered`), whatever the other rules are and whatever default rules
come after the table.
-/
namespace Lib.FirstMatch

variable {R P : Type} (prio : R → Nat) (hits : R → P → Bool)

/-- The matching rule of least priority. -/
def decider (rules : List R) (p : P) : Option R := (rules.filter (fun r => hits r p)).argmin prio

variable {prio hits}

theorem decider_mem {rules : List R} {p : P} {r : R} (h : decider prio hits rules p = some r) :
    r ∈ rules ∧ hits r p = true :=
  List.mem_filter.1 (List.argmin_mem h)

theorem decider_le {rules : List R} {p : P} {r r' : R} (h : decider prio hits rules p = some r)
    (hr' : r' ∈ rules) (hh : hits r' p = true) : prio r ≤ prio r' :=
  List.le_of_mem_argmin (List.mem_filter.2 ⟨hr', hh⟩) h

theorem decider_none_iff {rules : List R} {p : P} :
    decider prio hits rules p = none ↔ ∀ r ∈ rules, hits r p = false := by
  rw [decider, List.argmin_eq_none, List.filter_eq_nil_iff]
  simp

/-- A packet some rule matches is decided, by a rule of no greater priority. -/
theorem exists_decider {rules : List R} {p : P} {r : R} (hr : r ∈ rules) (hh : hits r p = true) :
    ∃ d, decider prio hits rules p = some d ∧ prio d ≤ prio r := by
  cases h : decider prio hits rules p with
  | none => rw [decider_none_iff.1 h r hr] at hh; cases hh
  | some d => exact ⟨d, rfl, decider_le h hr hh⟩

/-- Rules of greater priority than every rule of `l` do not decide a packet
that some rule of `l` matches. -/
theorem decider_append_mem {l l' : List R} {p : P} {d : R} (h : ∀ a ∈ l, ∀ b ∈ l', prio a < prio b)
    (hd : decider prio hits (l ++ l') p = some d) (hl : ∃ r ∈ l, hits r p = true) : d ∈ l := by
  obtain ⟨r, hr, hh⟩ := hl
  have hle := decider_le hd (List.mem_append_left l' hr) hh
  rcases List.mem_append.1 (decider_mem hd).1 with hm | hm
  · exact hm
  · have := h r hr d hm
    omega

/-! ## Layered tables -/

section Layered
variable {allow : R → Bool}

/-- Every allow rule comes before every deny rule. -/
def Layered (prio : R → Nat) (allow : R → Bool) (rules : List R) : Prop :=
  ∀ a ∈ rules, allow a = true → ∀ d ∈ rules, allow d = false → prio a < prio d

/-- In a layered table, followed by rules of greater priority, one matching
allow rule is enough. -/
theorem allow_of_layered {l l' : List R} {p : P} {r d : R} (hl : Layered prio allow l)
    (hlt : ∀ a ∈ l, ∀ b ∈ l', prio a < prio b) (hr : r ∈ l) (ha : allow r = true) (hh : hits r p = true)
    (hd : decider prio hits (l ++ l') p = some d) : allow d = true := by
  have hmem := decider_append_mem hlt hd ⟨r, hr, hh⟩
  cases hda : allow d with
  | true => rfl
  | false =>
    have hlt := hl r hr ha d hmem hda
    have hle := decider_le hd (List.mem_append_left l' hr) hh
    omega

end Layered

end Lib.FirstMatch
