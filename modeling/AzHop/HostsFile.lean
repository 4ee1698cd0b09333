import AzHop.Lib.Substitute
import Mathlib.Data.List.DropRight
import Mathlib.Data.List.Forall2
/-!
# Renaming a node in its hosts file

`enforce_hostname` gives a node another name: the running one, the one in
`/etc/hostname` and those in `/etc/hosts`, which `sed` substitutes wherever it
finds the old name in a line, the dots of which stand for any character.

A hosts file is read here as its resolver does: an address and its names on a line,
and a comment after `#`.
-/
namespace AzHop.HostsFile
open Lib.Substitute

abbrev Text := List Char

def isHostChar (c : Char) : Bool := c.isAlphanum || c == '-' || c == '.'

structure HostName where
  chars : Text
  legal : (chars.head?.any Char.isAlphanum && chars.all isHostChar) = true

/-- A character of the expression and one of a line, with the option `i`; `.`
does not stand for the end of a line. -/
def agrees (p c : Char) : Bool := (p == '.' && c != '\n') || p.toLower == c.toLower

/-- `grep -i $old`. -/
def grep (old : HostName) (text : Text) : Bool := occurs agrees old.chars text

/-- `sed "s/$old/$new/ig"`. -/
def sed (old new : HostName) (text : Text) : Text := substitute agrees old.chars new.chars text

/-- `$(</etc/hostname)`: without NULs and without the newlines at the end. -/
def read (file : Text) : Text := (file.filter (· != '\x00')).rdropWhile (· == '\n')

@[ext] structure Node where
  hostname : Text
  hosts : Text
  etc_hostname : Text
  ifcfg_eth0 : Text

/-- `files/ubuntu/init_joindomain.sh`. -/
def enforce_hostname_ubuntu (system_hostname target_hostname : HostName) (node : Node) : Node :=
  { node with
    hostname := if system_hostname.chars ≠ target_hostname.chars then target_hostname.chars else node.hostname
    hosts := if grep system_hostname node.hosts then sed system_hostname target_hostname node.hosts else node.hosts
    etc_hostname :=
      if read node.etc_hostname ≠ target_hostname.chars then target_hostname.chars ++ ['\n'] else node.etc_hostname }

def dhcp_hostname : Text := ['D', 'H', 'C', 'P', '_', 'H', 'O', 'S', 'T', 'N', 'A', 'M', 'E']

/-- `cut -d'=' -f2`; a line without the delimiter is printed whole. -/
def cut (line : Text) : Text := ((line.splitOn '=').drop 1).headD line

/-- `$(grep DHCP_HOSTNAME $ifcfg | cut -d'=' -f2)`. -/
def eth0_hostname (ifcfg : Text) : Text :=
  let lines := (ifcfg.splitOn '\n').filter fun line => line.tails.any fun t => dhcp_hostname.isPrefixOf t
  read (lines.flatMap fun line => cut line ++ ['\n'])

/-- `s/^DHCP_HOSTNAME=.*$/DHCP_HOSTNAME=$target_hostname/`, on a line. -/
def setLine (target_hostname : HostName) (line : Text) : Text :=
  if (dhcp_hostname ++ ['=']).isPrefixOf line then dhcp_hostname ++ ['='] ++ target_hostname.chars else line

/-- The name asked for by DHCP, where one is set. -/
def setIfcfg (target_hostname : HostName) (ifcfg : Text) : Text :=
  if eth0_hostname ifcfg ≠ [] ∧ eth0_hostname ifcfg ≠ target_hostname.chars then
    List.intercalate ['\n'] ((ifcfg.splitOn '\n').map (setLine target_hostname))
  else ifcfg

/-- `files/almalinux/init_joindomain.sh`. -/
def enforce_hostname_almalinux (system_hostname target_hostname : HostName) (node : Node) : Node :=
  { enforce_hostname_ubuntu system_hostname target_hostname node with
    ifcfg_eth0 := setIfcfg target_hostname node.ifcfg_eth0 }

/-- `$os_release`. -/
inductive Os where
  | ubuntu
  | almalinux

def enforce_hostname : Os → HostName → HostName → Node → Node
  | .ubuntu => enforce_hostname_ubuntu
  | .almalinux => enforce_hostname_almalinux

/-! ## What a hosts file says -/

inductive Kind where
  | address
  | name
  | comment
  deriving DecidableEq

def isSeparator (c : Char) : Bool :=
  c == ' ' || c == '\t' || c == '\n' || c == '\x0b' || c == '\x0c' || c == '\r' || c == '#'

/-- The first word of a line is its address, and what follows `#` is a comment. -/
def next (k : Kind) (word : Text) (c : Char) : Kind :=
  if c = '\n' then .address
  else if c = '#' then .comment
  else if k = .address ∧ word ≠ [] then .name
  else k

def tokens (hosts : Text) : List (Kind × Text) := wordsFrom isSeparator next .address [] hosts

/-- A host name that is the old one, whatever its case. -/
def Named (old : HostName) (t : Kind × Text) : Prop :=
  t.1 = .name ∧ t.2.map Char.toLower = old.chars.map Char.toLower

instance (old : HostName) (t : Kind × Text) : Decidable (Named old t) := inferInstanceAs (Decidable (_ ∧ _))

def renamed (old new : HostName) (k : Kind) (word : Text) : Text := if Named old (k, word) then new.chars else word

/-- The hosts file with the new name for the old one, and nothing else changed. -/
def rewrite (old new : HostName) (hosts : Text) : Text :=
  mapWordsFrom isSeparator next (renamed old new) .address [] hosts

/-! ## Names and separators -/

theorem chars_ne_nil (name : HostName) : name.chars ≠ [] := by
  intro hnil
  have hlegal := name.legal
  rw [hnil] at hlegal
  cases hlegal

theorem hostChar_of_mem (name : HostName) {c : Char} (h : c ∈ name.chars) : isHostChar c = true :=
  List.all_eq_true.1 (Bool.and_eq_true_iff.1 name.legal).2 c h

theorem eq_of_isSeparator {c : Char} (h : isSeparator c = true) :
    c = ' ' ∨ c = '\t' ∨ c = '\n' ∨ c = '\x0b' ∨ c = '\x0c' ∨ c = '\r' ∨ c = '#' := by
  simpa [isSeparator, or_assoc] using h

theorem not_hostChar_of_isSeparator {c : Char} (h : isSeparator c = true) : isHostChar c = false := by
  rcases eq_of_isSeparator h with rfl | rfl | rfl | rfl | rfl | rfl | rfl <;> decide

theorem not_isSeparator_of_mem (name : HostName) : ∀ c ∈ name.chars, isSeparator c = false := by
  intro c hc
  by_contra hsep
  have hnot := not_hostChar_of_isSeparator (Bool.not_eq_false _ ▸ hsep)
  rw [hostChar_of_mem name hc] at hnot
  cases hnot

theorem newline_not_mem (name : HostName) : '\n' ∉ name.chars := fun h => by
  have hsep := not_isSeparator_of_mem name _ h
  cases hsep

/-- Case does not make a separator of a host name's character. -/
theorem not_isSeparator_of_toLower {p c : Char} (hp : isHostChar p = true) (h : p.toLower = c.toLower) :
    isSeparator c = false := by
  by_contra hsep
  replace hsep : isSeparator c = true := Bool.not_eq_false _ ▸ hsep
  have hlower : c.toLower = c := by
    rcases eq_of_isSeparator hsep with rfl | rfl | rfl | rfl | rfl | rfl | rfl <;> rfl
  rw [hlower] at h
  unfold Char.toLower at h
  split at h
  · rename_i hupper
    -- A capital letter becomes a small one, and all separators come before these.
    have hlow : c.val.toNat ≤ 35 := by
      rcases eq_of_isSeparator hsep with rfl | rfl | rfl | rfl | rfl | rfl | rfl <;> decide
    have hle : 65 ≤ p.val.toNat := UInt32.le_iff_toNat_le.1 hupper.1
    have hge : p.val.toNat ≤ 90 := UInt32.le_iff_toNat_le.1 hupper.2
    have hval : p.val + 32 = c.val := congrArg Char.val h
    have hnat := congrArg UInt32.toNat hval
    rw [UInt32.toNat_add, Nat.mod_eq_of_lt (by change p.val.toNat + 32 < 2 ^ 32; omega)] at hnat
    change p.val.toNat + 32 = c.val.toNat at hnat
    omega
  · subst h
    rw [not_hostChar_of_isSeparator hsep] at hp
    cases hp

/-- A name without a dot is not found across a separator. -/
theorem not_isSeparator_of_found {old : HostName} (hdot : '.' ∉ old.chars) {text m : Text}
    (hm : m ∈ found agrees old.chars text) : ∀ c ∈ m, isSeparator c = false := by
  obtain ⟨hlength, hfits⟩ := fits_of_found (chars_ne_nil old) hm
  have hall := forall₂_of_fits hfits hlength
  have hhost : ∀ p ∈ old.chars, isHostChar p = true := fun p hp => hostChar_of_mem old hp
  revert hdot hhost
  -- Without dots the expression agrees with a text only letter by letter.
  clear hm hlength hfits
  generalize old.chars = pat at hall
  intro hdot hhost
  induction hall with
  | nil => exact fun c hc => by cases hc
  | @cons p c pat m hagrees _ ih =>
    obtain ⟨hp, hpat⟩ := not_or.1 (mt List.mem_cons.2 hdot)
    have hsame : p.toLower = c.toLower := by
      rcases Bool.or_eq_true_iff.1 hagrees with hwild | hsame
      · exact absurd (beq_iff_eq.1 (Bool.and_eq_true_iff.1 hwild).1).symm hp
      · exact beq_iff_eq.1 hsame
    intro x hx
    rcases List.mem_cons.1 hx with rfl | hx
    · exact not_isSeparator_of_toLower (hhost p List.mem_cons_self) hsame
    · exact ih hpat (fun q hq => hhost q (List.mem_cons_of_mem p hq)) x hx

/-- An old name as it stands is one place. -/
theorem fits_of_toLower {pat word : Text} (h : word.map Char.toLower = pat.map Char.toLower) :
    fits agrees pat word = true := by
  refine fits_of_forall₂ ?_
  have hsame : List.Forall₂ (· = ·) (pat.map Char.toLower) (word.map Char.toLower) := by
    rw [List.forall₂_eq_eq_eq]
    exact h.symm
  rw [List.forall₂_map_left_iff, List.forall₂_map_right_iff] at hsame
  exact hsame.imp fun p c hpc => Bool.or_eq_true_iff.2 (Or.inr (beq_iff_eq.2 hpc))

/-! ## What `enforce_hostname` leaves -/

/-- The test before the substitution does not matter. -/
theorem hosts_ubuntu (old new : HostName) (node : Node) :
    (enforce_hostname_ubuntu old new node).hosts = sed old new node.hosts := by
  simp only [enforce_hostname_ubuntu]
  split
  · rfl
  · rename_i hgrep
    exact (substitute_of_not_occurs (Bool.eq_false_iff.2 hgrep)).symm

theorem hosts_enforce (os : Os) (old new : HostName) (node : Node) :
    (enforce_hostname os old new node).hosts = sed old new node.hosts := by
  cases os with
  | ubuntu => exact hosts_ubuntu old new node
  | almalinux => exact hosts_ubuntu old new node

/-- Reading a name from the file it was written to. -/
theorem read_name (name : HostName) : read (name.chars ++ ['\n']) = name.chars := by
  have hkept : (name.chars ++ ['\n']).filter (· != '\x00') = name.chars ++ ['\n'] := by
    refine List.filter_eq_self.2 fun c hc => ?_
    rcases List.mem_append.1 hc with hc | hc
    · refine bne_iff_ne.2 ?_
      rintro rfl
      have hhost := hostChar_of_mem name hc
      cases hhost
    · rw [List.mem_singleton.1 hc]
      rfl
  rw [read, hkept, List.rdropWhile_concat_pos _ _ _ rfl, List.rdropWhile_eq_self_iff]
  intro hne hlast
  have hmem := List.getLast_mem hne
  rw [beq_iff_eq.1 hlast] at hmem
  exact newline_not_mem name hmem

theorem setLine_setLine (name : HostName) (line : Text) : setLine name (setLine name line) = setLine name line := by
  unfold setLine
  split
  · rw [if_pos]
    rw [List.isPrefixOf_iff_prefix]
    exact List.prefix_append _ _
  · rfl

theorem newline_not_mem_setLine (name : HostName) {line : Text} (h : '\n' ∉ line) : '\n' ∉ setLine name line := by
  unfold setLine
  split
  · intro hmem
    rcases List.mem_append.1 hmem with hkey | hname
    · exact absurd hkey (by decide)
    · exact newline_not_mem name hname
  · exact h

theorem setLine_lines (name : HostName) (ifcfg : Text) :
    ((List.intercalate ['\n'] ((ifcfg.splitOn '\n').map (setLine name))).splitOn '\n').map (setLine name) =
      (ifcfg.splitOn '\n').map (setLine name) := by
  have hpiece : ∀ line ∈ (ifcfg.splitOn '\n').map (setLine name), '\n' ∉ line := by
    intro line hline
    obtain ⟨piece, hpiece, rfl⟩ := List.mem_map.1 hline
    exact newline_not_mem_setLine name (Lib.Split.of_mem_splitOn hpiece).1
  have hne : (ifcfg.splitOn '\n').map (setLine name) ≠ [] := fun hnil =>
    List.splitOn_ne_nil '\n' ifcfg (List.map_eq_nil_iff.1 hnil)
  rw [List.splitOn_intercalate _ hpiece hne, List.map_map]
  exact List.map_congr_left fun line _ => setLine_setLine name line

theorem setIfcfg_setIfcfg (name : HostName) (ifcfg : Text) : setIfcfg name (setIfcfg name ifcfg) = setIfcfg name ifcfg := by
  by_cases hset : eth0_hostname ifcfg ≠ [] ∧ eth0_hostname ifcfg ≠ name.chars
  · have hstep : setIfcfg name ifcfg = List.intercalate ['\n'] ((ifcfg.splitOn '\n').map (setLine name)) := if_pos hset
    rw [hstep]
    -- The name read back may still be another one, and the lines are set once more.
    conv_lhs => unfold setIfcfg
    split
    · rw [setLine_lines]
    · rfl
  · have hstep : setIfcfg name ifcfg = ifcfg := if_neg hset
    rw [hstep, hstep]

/-- The rest of a node is settled by one call. -/
theorem enforce_ubuntu_twice {old new : HostName} {node : Node}
    (h : sed old new (sed old new node.hosts) = sed old new node.hosts) :
    enforce_hostname_ubuntu old new (enforce_hostname_ubuntu old new node) = enforce_hostname_ubuntu old new node := by
  refine Node.ext ?_ ?_ ?_ rfl
  · simp only [enforce_hostname_ubuntu]
    split <;> rfl
  · rw [hosts_ubuntu, hosts_ubuntu, h]
  · simp only [enforce_hostname_ubuntu]
    split
    · rw [if_neg (not_not_intro (read_name new))]
    · rfl

theorem almalinux_almalinux (old new : HostName) (node : Node) :
    enforce_hostname_almalinux old new (enforce_hostname_almalinux old new node) =
      { enforce_hostname_ubuntu old new (enforce_hostname_ubuntu old new node) with
        ifcfg_eth0 := setIfcfg new (setIfcfg new node.ifcfg_eth0) } := rfl

/-- A second call changes the hosts file or nothing. -/
theorem enforce_twice_iff (os : Os) (old new : HostName) (node : Node) :
    enforce_hostname os old new (enforce_hostname os old new node) = enforce_hostname os old new node ↔
      sed old new (sed old new node.hosts) = sed old new node.hosts := by
  constructor
  · intro h
    have hhosts := congrArg Node.hosts h
    rwa [hosts_enforce, hosts_enforce] at hhosts
  · intro h
    cases os with
    | ubuntu => exact enforce_ubuntu_twice h
    | almalinux =>
      change enforce_hostname_almalinux old new (enforce_hostname_almalinux old new node) =
        enforce_hostname_almalinux old new node
      rw [almalinux_almalinux, enforce_ubuntu_twice h, setIfcfg_setIfcfg]
      rfl

/-! ## Where only the name is replaced -/

theorem inside_id : Inside isSeparator fun (_ : Kind) (word : Text) => word := fun _ _ h => h

theorem inside_renamed (old new : HostName) : Inside isSeparator (renamed old new) := by
  intro k word hword
  unfold renamed
  split
  · exact not_isSeparator_of_mem new
  · exact hword

theorem sed_named {old new : HostName} {t : Kind × Text} (h : Named old t) : sed old new t.2 = new.chars := by
  refine substitute_of_fits (chars_ne_nil old) (fits_of_toLower h.2) ?_
  simpa using congrArg List.length h.2

/-- `sed` does the rewriting just where it finds the name in no other word. -/
theorem sed_eq_rewrite_iff (old new : HostName) (hosts : Text) : sed old new hosts = rewrite old new hosts ↔
    (∀ m ∈ found agrees old.chars hosts, ∀ c ∈ m, isSeparator c = false) ∧
      ∀ t ∈ tokens hosts, ¬Named old t → ∀ m ∈ found agrees old.chars t.2, m = new.chars := by
  have hwords := substitute_mapWords_iff agrees next (chars_ne_nil old) (not_isSeparator_of_mem new)
    inside_id (inside_renamed old new) .address hosts
  rw [mapWordsFrom_id, List.nil_append] at hwords
  unfold sed rewrite
  rw [hwords]
  refine and_congr_right fun _ => forall₂_congr fun t _ => ?_
  by_cases hnamed : Named old t
  · exact iff_of_true ((sed_named hnamed).trans (if_pos hnamed).symm) fun hnot => absurd hnamed hnot
  · rw [renamed, if_neg hnamed, substitute_eq_self_iff (chars_ne_nil old)]
    exact ⟨fun h _ => h, fun h => h hnamed⟩

/-- A rewritten file stays just where the name is not found in it. -/
theorem sed_rewrite_iff (old new : HostName) (hosts : Text) :
    sed old new (rewrite old new hosts) = rewrite old new hosts ↔
      (∀ m ∈ found agrees old.chars (rewrite old new hosts), ∀ c ∈ m, isSeparator c = false) ∧
        ∀ t ∈ tokens hosts, if Named old t then ∀ m ∈ found agrees old.chars new.chars, m = new.chars
          else ∀ m ∈ found agrees old.chars t.2, m = new.chars := by
  have hwords := substitute_mapWords_iff agrees next (chars_ne_nil old) (not_isSeparator_of_mem new)
    (inside_renamed old new) (inside_renamed old new) .address hosts
  unfold sed
  rw [rewrite, hwords]
  refine and_congr_right fun _ => forall₂_congr fun t _ => ?_
  unfold renamed
  split <;> exact substitute_eq_self_iff (chars_ne_nil old) _

/-- One call replaces the host names that are the old one by the new one and
changes nothing else in the hosts file; a second call changes nothing. -/
def Rewrites (os : Os) (old new : HostName) (node : Node) : Prop :=
  let node' := enforce_hostname os old new node
  node'.hosts = rewrite old new node.hosts ∧ enforce_hostname os old new node' = node'

theorem rewrites_cases (os : Os) (old new : HostName) (node : Node) : Rewrites os old new node ↔
    sed old new node.hosts = rewrite old new node.hosts ∧
      sed old new (rewrite old new node.hosts) = rewrite old new node.hosts := by
  simp only [Rewrites]
  rw [hosts_enforce, enforce_twice_iff]
  refine and_congr_right fun h => ?_
  rw [h]

theorem sed_rewrites_iff (old new : HostName) (hosts : Text) :
    (sed old new hosts = rewrite old new hosts ∧ sed old new (rewrite old new hosts) = rewrite old new hosts) ↔
    (∀ m ∈ found agrees old.chars hosts, ∀ c ∈ m, isSeparator c = false) ∧
    (∀ t ∈ tokens hosts, ¬Named old t → ∀ m ∈ found agrees old.chars t.2, m = new.chars) ∧
    (∀ m ∈ found agrees old.chars (rewrite old new hosts), ∀ c ∈ m, isSeparator c = false) ∧
    ((∃ t ∈ tokens hosts, Named old t) → ∀ m ∈ found agrees old.chars new.chars, m = new.chars) := by
  rw [sed_eq_rewrite_iff, sed_rewrite_iff]
  constructor
  · rintro ⟨⟨hacross, hother⟩, hacross', hwords⟩
    refine ⟨hacross, hother, hacross', fun ⟨t, ht, hnamed⟩ => ?_⟩
    have hnew := hwords t ht
    rwa [if_pos hnamed] at hnew
  · rintro ⟨hacross, hother, hacross', hnew⟩
    refine ⟨⟨hacross, hother⟩, hacross', fun t ht => ?_⟩
    split
    · rename_i hnamed
      exact hnew ⟨t, ht, hnamed⟩
    · rename_i hnamed
      exact hother t ht hnamed

/-- For a name without dots only the words count: the old name is in no other
word, and not in the new name where it is to be put. -/
theorem rewrites_iff_of_no_dot (os : Os) {old : HostName} (hdot : '.' ∉ old.chars) (new : HostName) (node : Node) :
    Rewrites os old new node ↔
      (∀ t ∈ tokens node.hosts, ¬Named old t → ∀ m ∈ found agrees old.chars t.2, m = new.chars) ∧
      ((∃ t ∈ tokens node.hosts, Named old t) → ∀ m ∈ found agrees old.chars new.chars, m = new.chars) := by
  rw [rewrites_cases, sed_rewrites_iff]
  constructor
  · rintro ⟨-, hother, -, hnew⟩
    exact ⟨hother, hnew⟩
  · rintro ⟨hother, hnew⟩
    exact ⟨fun m hm => not_isSeparator_of_found hdot hm, hother, fun m hm => not_isSeparator_of_found hdot hm, hnew⟩

/-- It is so just when the old name is found nowhere but as a whole host name,
where the new one is left. -/
theorem rewrites_iff (os : Os) (old new : HostName) (node : Node) : Rewrites os old new node ↔
    (∀ m ∈ found agrees old.chars node.hosts, ∀ c ∈ m, isSeparator c = false) ∧
    (∀ t ∈ tokens node.hosts, ¬Named old t → ∀ m ∈ found agrees old.chars t.2, m = new.chars) ∧
    (∀ m ∈ found agrees old.chars (rewrite old new node.hosts), ∀ c ∈ m, isSeparator c = false) ∧
    ((∃ t ∈ tokens node.hosts, Named old t) → ∀ m ∈ found agrees old.chars new.chars, m = new.chars) := by
  rw [rewrites_cases]
  exact sed_rewrites_iff old new node.hosts

def ip1 : HostName := ⟨['i', 'p', '-', '1'], rfl⟩

def hpc1 : HostName := ⟨['h', 'p', 'c', '-', '1'], rfl⟩

/-- A name that begins another one, and an address between them. -/
def twoNodes : Node where
  hostname := ip1.chars
  hosts := ['1', '0', '.', '0', '.', '0', '.', '4', ' ', 'i', 'p', '-', '1', '\n',
    '1', '0', '.', '0', '.', '0', '.', '5', ' ', 'i', 'p', '-', '1', '0', '\n']
  etc_hostname := ['i', 'p', '-', '1', '\n']
  ifcfg_eth0 := []

/-- `ip-10` becomes `hpc-10`. -/
theorem not_rewrites_twoNodes : ip1.chars ≠ hpc1.chars ∧ ¬ Rewrites .ubuntu ip1 hpc1 twoNodes := by
  refine ⟨by decide, fun hrewrites => ?_⟩
  rw [rewrites_cases] at hrewrites
  exact absurd hrewrites.1 (by decide)

end AzHop.HostsFile
