import Mathlib.Data.List.Infix
/-!
# Trees of files

A tree says what there is at each location, a list of names from the root. What
is in a directory is there only when the directory is. `without` removes a
location with all below it, and `along` is the tree of given directories and
those above them.

A path is a list of steps from a directory. It leads to a location and passes
the directories of the steps before the last. There are no links: where a path
leads does not depend on the tree, but whether it can be followed does.
-/
namespace Lib.FileTree

variable {ν : Type}

/-- What a name stands for. -/
inductive Kind
  | dir
  | file
deriving DecidableEq

/-- What there is at each path; the directory above it is there too. -/
structure Files (ν : Type) where
  kind : List ν → Option Kind
  closed : ∀ l n, kind (l ++ [n]) ≠ none → kind l = some .dir

namespace Files

theorem eq_of_kind {t t' : Files ν} (h : ∀ l, t.kind l = t'.kind l) : t = t' := by
  obtain ⟨kind, closed⟩ := t
  obtain ⟨kind', closed'⟩ := t'
  obtain rfl : kind = kind' := funext h
  rfl

/-- What has something below it is a directory. -/
theorem dir_of_below (t : Files ν) {l : List ν} {n : ν} {r : List ν} (h : t.kind (l ++ n :: r) ≠ none) :
    t.kind l = some .dir := by
  induction r generalizing l n with
  | nil => exact t.closed l n h
  | cons m r ih =>
    have hbelow : t.kind (l ++ [n]) = some .dir := ih (by simpa using h)
    exact t.closed l n (by simp [hbelow])

theorem dir_of_prefix (t : Files ν) {l d : List ν} (hl : l <+: d) (hd : t.kind d = some .dir) : t.kind l = some .dir := by
  obtain ⟨r, rfl⟩ := hl
  cases r with
  | nil => simpa using hd
  | cons n r => exact t.dir_of_below (n := n) (r := r) (by simp [hd])

theorem absent_of_prefix (t : Files ν) {l d : List ν} (hl : l <+: d) (h : t.kind l = none) : t.kind d = none := by
  obtain ⟨r, rfl⟩ := hl
  cases r with
  | nil => simpa using h
  | cons n r =>
    by_contra hd
    rw [t.dir_of_below hd] at h
    cases h

variable [DecidableEq ν]

/-- The tree without what is under `a`. -/
def without (t : Files ν) (a : List ν) : Files ν where
  kind l := if a <+: l then none else t.kind l
  closed l n h := by
    have hbelow : ¬a <+: l ++ [n] := fun e => h (if_pos e)
    rw [if_neg hbelow] at h
    rw [if_neg fun e => hbelow (e.trans (List.prefix_append l [n]))]
    exact t.closed l n h

theorem kind_without (t : Files ν) (a l : List ν) : (t.without a).kind l = if a <+: l then none else t.kind l := rfl

theorem kind_without_of_not {t : Files ν} {a l : List ν} (h : ¬a <+: l) : (t.without a).kind l = t.kind l := if_neg h

theorem without_of_absent {t : Files ν} {a : List ν} (h : t.kind a = none) : t.without a = t := by
  refine eq_of_kind fun l => ?_
  rw [kind_without]
  split
  · rename_i hl
    exact (t.absent_of_prefix hl h).symm
  · rfl

/-- Of two things in a tree, different ones leave different trees. -/
theorem eq_of_without_eq {t : Files ν} {a b : List ν} (ha : t.kind a ≠ none) (hb : t.kind b ≠ none)
    (h : t.without a = t.without b) : a = b := by
  have hgone : ∀ {d e : List ν}, t.kind e ≠ none → t.without d = t.without e → d <+: e := by
    intro d e he hsame
    by_contra hnot
    have hnone : (t.without e).kind e = none := if_pos List.prefix_rfl
    rw [← hsame, kind_without_of_not hnot] at hnone
    exact he hnone
  have hab := hgone hb h
  have hba := hgone ha h.symm
  exact hab.eq_of_length (Nat.le_antisymm hab.length_le hba.length_le)

/-- The directories of `ds` and those above them. -/
def along (ds : List (List ν)) : Files ν where
  kind l := if ∃ d ∈ ds, l <+: d then some .dir else none
  closed l n h := by
    have hbelow : ∃ d ∈ ds, l ++ [n] <+: d := by
      by_contra e
      exact h (if_neg e)
    obtain ⟨d, hd, hl⟩ := hbelow
    exact if_pos ⟨d, hd, (List.prefix_append l [n]).trans hl⟩

theorem kind_along_eq_dir_iff {ds : List (List ν)} {l : List ν} :
    (along ds).kind l = some .dir ↔ ∃ d ∈ ds, l <+: d := by
  constructor
  · intro h
    by_contra e
    have hnone : (along ds).kind l = none := if_neg e
    rw [hnone] at h
    cases h
  · exact fun h => if_pos h

theorem kind_along_ne_file (ds : List (List ν)) (l : List ν) : (along ds).kind l ≠ some .file := by
  change (if _ then _ else _) ≠ _
  split <;> simp

end Files

/-! ## Paths -/

/-- A component of a path. -/
inductive Step (ν : Type)
  | here
  | up
  | down (n : ν)

/-- The root is above itself. -/
def Step.to : Step ν → List ν → List ν
  | here, l => l
  | up, l => l.dropLast
  | down n, l => l ++ [n]

/-- Where a path from `l` leads. -/
def lead : List ν → List (Step ν) → List ν
  | l, [] => l
  | l, s :: path => lead (s.to l) path

/-- The directories it passes. -/
def passed : List ν → List (Step ν) → List (List ν)
  | _, [] => []
  | l, s :: path => l :: passed (s.to l) path

theorem lead_append (l : List ν) (path path' : List (Step ν)) : lead l (path ++ path') = lead (lead l path) path' := by
  induction path generalizing l with
  | nil => rfl
  | cons s path ih => exact ih (s.to l)

theorem passed_append (l : List ν) (path path' : List (Step ν)) :
    passed l (path ++ path') = passed l path ++ passed (lead l path) path' := by
  induction path generalizing l with
  | nil => rfl
  | cons s path ih => exact congrArg (l :: ·) (ih (s.to l))

/-- A path that never goes up passes what is above its end. -/
theorem prefix_lead {l : List ν} {path : List (Step ν)} (h : Step.up ∉ path) :
    l <+: lead l path ∧ ∀ d ∈ passed l path, d <+: lead l path := by
  induction path generalizing l with
  | nil => exact ⟨List.prefix_rfl, fun d hd => by cases hd⟩
  | cons s path ih =>
    obtain ⟨hs, hpath⟩ := not_or.1 (mt List.mem_cons.2 h)
    obtain ⟨hlead, hpassed⟩ := ih (l := s.to l) hpath
    have hfirst : l <+: s.to l := by
      cases s with
      | here => exact List.prefix_rfl
      | up => exact absurd rfl hs
      | down n => exact List.prefix_append l [n]
    refine ⟨hfirst.trans hlead, fun d hd => ?_⟩
    rcases List.mem_cons.1 hd with rfl | hd
    · exact hfirst.trans hlead
    · exact hpassed d hd

/-- The location of a path whose directories are all there. -/
def resolve? (t : Files ν) (l : List ν) (path : List (Step ν)) : Option (List ν) :=
  if ∀ d ∈ passed l path, t.kind d = some .dir then some (lead l path) else none

theorem resolve?_eq_some {t : Files ν} {l a : List ν} {path : List (Step ν)} :
    resolve? t l path = some a ↔ (∀ d ∈ passed l path, t.kind d = some .dir) ∧ lead l path = a := by
  unfold resolve?
  split
  · rename_i h
    exact ⟨fun e => ⟨h, Option.some.inj e⟩, fun e => congrArg some e.2⟩
  · rename_i h
    exact iff_of_false (fun e => by cases e) fun e => h e.1

end Lib.FileTree
