import AzHop.Lib.Json
import Mathlib.Data.List.DropRight
import Mathlib.Tactic.IntervalCases
/-!
# The directories of the PBS cgroups hook

`pbs_cgroups.PY` keeps the cgroup of a job in a systemd slice named after the
job. The name of the job is escaped, and read back from the directories the
hook finds there. Strings are Python 2's, so a character is a byte.

`jobid_of_subdir` is the round trip. A cgroup without a job is renamed to
`.orphan`; no job has such a directory (`orphan_ne_subdir`).
-/
namespace AzHop.CgroupNames

/-- `cgroup_prefix`. -/
def cgroup_prefix : List Char := "pbspro".toList

/-- The characters of a byte string. -/
def Bytes (s : List Char) : Prop := ∀ c ∈ s, c.toNat < 256

/-- `char.encode('hex')`. -/
def hex (c : Char) : List Char := [(c.toNat / 16).digitChar, (c.toNat % 16).digitChar]

def escape_char (c : Char) : List Char :=
  if c.isAlphanum ∨ c = '_' ∨ c = '.' then [c]
  else if c = '/' then ['-']
  else '\\' :: 'x' :: hex c

/-- `_systemd_escape`. A dot is escaped in front only. -/
def systemd_escape : List Char → List Char
  | [] => []
  | c :: cs => (if c = '.' then '\\' :: 'x' :: hex c else escape_char c) ++ cs.flatMap escape_char

def hexDigits : List Char := "0123456789abcdef".toList

def hexValue (c : Char) : Nat := hexDigits.idxOf c

/-- `_systemd_unescape`; `none` is a `ValueError`. -/
def systemd_unescape : List Char → Option (List Char)
  | '\\' :: 'x' :: h :: l :: cs =>
    if h ∈ hexDigits ∧ l ∈ hexDigits then
      (systemd_unescape cs).map (Char.ofNat (16 * hexValue h + hexValue l) :: ·)
    else none
  | c :: cs =>
    if c = '-' then (systemd_unescape cs).map ('/' :: ·)
    else if c.isAlphanum ∨ c = '_' ∨ c = '.' then (systemd_unescape cs).map (c :: ·)
    else none
  | [] => some []

/-- `_jobid_to_systemd_subdir`. -/
def jobid_to_systemd_subdir (jobid : List Char) : List Char :=
  cgroup_prefix ++ '-' :: systemd_escape jobid ++ ".slice".toList

/-- `_systemd_subdir_to_jobid` of a directory whose name starts with the
prefix, as all the wildcard finds do. Without `.slice` at its end the pattern
does not match, and the name is left as it is. -/
def systemd_subdir_to_jobid (subdir : List Char) : Option (List Char) :=
  let name := subdir.drop ( cgroup_prefix.length + 1)
  -- the dot of `.slice` in the pattern is any character
  if "slice".toList <:+ name ∧ 6 ≤ name.length then systemd_unescape (name.take (name.length - 6))
  else systemd_unescape subdir

def orphan : List Char := ".orphan".toList

/-! ## Escapes -/

theorem digitChar_hex {n : Nat} (h : n < 16) : n.digitChar ∈ hexDigits ∧ hexValue n.digitChar = n := by
  interval_cases n <;> decide

theorem unescape_hex {c : Char} (h : c.toNat < 256) (cs : List Char) :
    systemd_unescape ('\\' :: 'x' :: hex c ++ cs) = (systemd_unescape cs).map (c :: ·) := by
  obtain ⟨hhigh, hhighValue⟩ := digitChar_hex (n := c.toNat / 16) (by omega)
  obtain ⟨hlow, hlowValue⟩ := digitChar_hex (n := c.toNat % 16) (by omega)
  have hvalue : 16 * (c.toNat / 16) + c.toNat % 16 = c.toNat := Nat.div_add_mod c.toNat 16
  rw [hex, List.cons_append, List.cons_append, List.cons_append, List.cons_append, List.nil_append, systemd_unescape,
    if_pos ⟨hhigh, hlow⟩, hhighValue, hlowValue, hvalue, Char.ofNat_toNat]

theorem unescape_plain {c : Char} (h : c.isAlphanum ∨ c = '_' ∨ c = '.') (cs : List Char) :
    systemd_unescape (c :: cs) = (systemd_unescape cs).map (c :: ·) := by
  have hbackslash : c ≠ '\\' := by rintro rfl; revert h; decide
  have hdash : c ≠ '-' := by rintro rfl; revert h; decide
  rw [systemd_unescape.eq_2 _ _ (fun h l cs' hc => absurd hc hbackslash), if_neg hdash, if_pos h]

theorem unescape_escape_char {c : Char} (h : c.toNat < 256) (cs : List Char) :
    systemd_unescape (escape_char c ++ cs) = (systemd_unescape cs).map (c :: ·) := by
  unfold escape_char
  split_ifs with hplain hslash
  · exact unescape_plain hplain cs
  · subst hslash
    rfl
  · exact unescape_hex h cs

theorem unescape_flatMap {s : List Char} (h : Bytes s) : systemd_unescape (s.flatMap escape_char) = some s := by
  induction s with
  | nil => rfl
  | cons c s ih =>
    rw [List.flatMap_cons, unescape_escape_char (h c List.mem_cons_self),
      ih fun d hd => h d (List.mem_cons_of_mem c hd)]
    rfl

theorem unescape_escape {s : List Char} (h : Bytes s) : systemd_unescape (systemd_escape s) = some s := by
  cases s with
  | nil => rfl
  | cons c s =>
    have hrest : systemd_unescape (s.flatMap escape_char) = some s :=
      unescape_flatMap fun d hd => h d (List.mem_cons_of_mem c hd)
    rw [systemd_escape]
    split_ifs
    · rw [unescape_hex (h c List.mem_cons_self), hrest]
      rfl
    · rw [unescape_escape_char (h c List.mem_cons_self), hrest]
      rfl

/-! ## Directories -/

/-- The job of a directory is the one the directory was made for. -/
theorem jobid_of_subdir {jobid : List Char} (h : Bytes jobid) :
    systemd_subdir_to_jobid (jobid_to_systemd_subdir jobid) = some jobid := by
  have hname : (jobid_to_systemd_subdir jobid).drop ( cgroup_prefix.length + 1) =
      systemd_escape jobid ++ ".slice".toList := rfl
  have hsuffix : "slice".toList <:+ systemd_escape jobid ++ ".slice".toList :=
    ⟨systemd_escape jobid ++ ['.'], by simp⟩
  have htake : (systemd_escape jobid ++ ".slice".toList).take ((systemd_escape jobid ++ ".slice".toList).length - 6) =
      systemd_escape jobid := by
    simp
  rw [systemd_subdir_to_jobid, hname, if_pos ⟨hsuffix, by simp⟩, htake, unescape_escape h]

theorem jobid_of_subdir_array : systemd_subdir_to_jobid (jobid_to_systemd_subdir ['7', '[', '1', ']']) = some ['7', '[', '1', ']'] :=
  jobid_of_subdir (by simp [Bytes])

theorem jobid_to_systemd_subdir_inj {j k : List Char} (hj : Bytes j) (hk : Bytes k)
    (h : jobid_to_systemd_subdir j = jobid_to_systemd_subdir k) : j = k := by
  have hjobid := jobid_of_subdir hj
  rw [h, jobid_of_subdir hk] at hjobid
  exact (Option.some.inj hjobid).symm

/-- No job has the directory of an orphan. -/
theorem orphan_ne_subdir (subdir jobid : List Char) : subdir ++ orphan ≠ jobid_to_systemd_subdir jobid := by
  intro h
  have horphan : (subdir ++ orphan).getLast? = some 'n' := by
    rw [List.getLast?_append]
    rfl
  have hslice : (jobid_to_systemd_subdir jobid).getLast? = some 'e' := by
    rw [jobid_to_systemd_subdir, List.getLast?_append]
    rfl
  rw [h, hslice] at horphan
  cases horphan

end AzHop.CgroupNames
