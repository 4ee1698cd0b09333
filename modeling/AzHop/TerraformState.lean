import AzHop.Lib.WordSearch
import AzHop.Secrets
/-!
# The Terraform state of another resource group

Before `terraform init`, `build.sh` deletes a local state that belongs to a
different resource group than the one of the configuration. It prints the names
of the groups in the state on one line, and looks there for the configured name
with `grep -w`: for a word, by a regular expression in which a dot stands for
any character.

`selects_iff` says for which names the state is kept just when its groups
contain the configured one.
-/
namespace AzHop.TerraformState
open Lib.Words Lib.WordSearch Secrets

/-- What the locale of the shell calls a letter or a digit. -/
structure Locale where
  alnum : Char → Bool
  alnum_blank : ∀ c, isBlank c = true → alnum c = false
  alnum_backslash : alnum '\\' = false

variable {locale : Locale}

/-- What a word of `grep -w` is made of. -/
def Locale.word (locale : Locale) (c : Char) : Bool := locale.alnum c || c = '_'

def Locale.legal (locale : Locale) (c : Char) : Bool := locale.word c || c = '-' || c = '.' || c = '(' || c = ')'

/-- The names Azure takes for a resource group. None of their characters has a
meaning for the shell, and only the dot has one in a basic regular expression. -/
def GroupName (locale : Locale) (name : Text) : Prop := name ≠ [] ∧ ∀ c ∈ name, locale.legal c = true

/-- A word a command takes for options. -/
def hasOptions : Text → Bool
  | '-' :: _ :: _ => true
  | _ => false

/-- A name that `grep` reads as a pattern. -/
def Pattern (locale : Locale) (name : Text) : Prop := GroupName locale name ∧ hasOptions name = false

/-- A name that `grep` reads as options, none of which gives it a pattern. -/
def NoPattern (locale : Locale) (name : Text) : Prop :=
  GroupName locale name ∧ hasOptions name = true ∧ 'e' ∉ name ∧ 'f' ∉ name

/-- The exit status of `grep -w -q` on a line, by the words that follow on its
command line: without a pattern it is the one of an error. -/
structure Grep (locale : Locale) where
  status : List Text → Text → Nat
  status_pattern : ∀ name line, Pattern locale name → '\n' ∉ line →
    status [name] line = if search locale.word name none line then 0 else 1
  status_no_pattern : ∀ name line, NoPattern locale name → status [name] line ≠ 1

/-! ## The code -/

def azurerm_resource_group : Text :=
  ['a', 'z', 'u', 'r', 'e', 'r', 'm', '_', 'r', 'e', 's', 'o', 'u', 'r', 'c', 'e', '_', 'g', 'r', 'o', 'u', 'p']

/-- A resource of a state, by its type and the `name` of its instances. -/
structure Resource (locale : Locale) where
  type : Text
  names : List Text
  legal : type = azurerm_resource_group → ∀ name ∈ names, GroupName locale name

abbrev Tfstate (locale : Locale) := List (Resource locale)

/-- What `jq -r` prints, by line. -/
def recorded (state : Tfstate locale) : List Text :=
  (state.filter fun r => r.type = azurerm_resource_group).flatMap Resource.names

def rg_in_state (state : Tfstate locale) : Text := substitution ((recorded state).flatMap (· ++ ['\n']))

def rg_in_config (resource_group : Text) : Text := substitution (resource_group ++ ['\n'])

/-- The exit status of `echo $rg_in_state | grep -w -q $rg_in_config`. -/
def selection (t : Tools) (grep : Grep locale) (resource_group : Text) (state : Tfstate locale) : Nat :=
  grep.status (words isBlank (rg_in_config resource_group)) (echo t (words isBlank (rg_in_state state)))

/-- The local state `terraform init` finds. -/
def terraform_init (t : Tools) (grep : Grep locale) (resource_group : Text) :
    Option (Tfstate locale) → Option (Tfstate locale)
  | none => none
  | some state => if selection t grep resource_group state = 1 then none else some state

/-! ## What it should do -/

/-- The state is kept when it has the configured group, and deleted otherwise. -/
def Selects (t : Tools) (grep : Grep locale) (resource_group : Text) (state : Tfstate locale) : Prop :=
  (resource_group ∈ recorded state → terraform_init t grep resource_group (some state) = some state) ∧
  (resource_group ∉ recorded state → terraform_init t grep resource_group (some state) = none)

/-- The names `echo` prints: the first ones may be options. -/
def printed (state : Tfstate locale) : List Text := (recorded state).dropWhile isOption

/-- The configured name stands in another one as a word. With a dot in it, it may
also stand across the blank between two names. -/
def Contained (resource_group : Text) (state : Tfstate locale) : Prop :=
  if '.' ∈ resource_group then Found locale.word resource_group (List.intercalate [' '] (printed state))
  else ∃ name ∈ printed state, Found locale.word resource_group name

theorem selects_iff_status {t : Tools} {grep : Grep locale} {resource_group : Text} {state : Tfstate locale} :
    Selects t grep resource_group state ↔
      (resource_group ∈ recorded state ↔ selection t grep resource_group state ≠ 1) := by
  unfold Selects terraform_init
  by_cases hstatus : selection t grep resource_group state = 1
  · simp [hstatus]
  · simp [hstatus]

/-! ## Names -/

theorem word_blank : locale.word ' ' = false := by
  simp [Locale.word, locale.alnum_blank ' ' rfl]

theorem not_isBlank_of_legal {c : Char} (h : locale.legal c = true) : isBlank c = false := by
  by_contra hblank
  rw [Bool.not_eq_false] at hblank
  have hword := locale.alnum_blank c hblank
  simp only [isBlank, Bool.or_eq_true, decide_eq_true_eq] at hblank
  rcases hblank with (rfl | rfl) | rfl <;> simp [Locale.legal, Locale.word, hword] at h

theorem ne_backslash_of_legal {c : Char} (h : locale.legal c = true) : c ≠ '\\' := by
  rintro rfl
  simp [Locale.legal, Locale.word, locale.alnum_backslash] at h

theorem GroupName.solid {name : Text} (h : GroupName locale name) : ∀ c ∈ name, isBlank c = false :=
  fun c hc => not_isBlank_of_legal (h.2 c hc)

theorem GroupName.no_blank {name : Text} (h : GroupName locale name) : ' ' ∉ name := fun hm => by
  cases h.solid ' ' hm

theorem recorded_name {state : Tfstate locale} {name : Text} (h : name ∈ recorded state) : GroupName locale name := by
  obtain ⟨r, hr, hname⟩ := List.mem_flatMap.1 h
  exact r.legal (of_decide_eq_true (List.mem_filter.1 hr).2) name hname

theorem printed_name {state : Tfstate locale} {name : Text} (h : name ∈ printed state) : GroupName locale name :=
  recorded_name ((List.dropWhile_sublist isOption).subset h)

/-- A configured name is one word for the shell. -/
theorem words_rg_in_config {name : Text} (h : GroupName locale name) : words isBlank (rg_in_config name) = [name] := by
  rw [rg_in_config, words_substitution, words_concat_blank name rfl]
  exact words_solid h.solid h.1

/-- So is each name of the state. -/
theorem words_rg_in_state (state : Tfstate locale) : words isBlank (rg_in_state state) = recorded state := by
  rw [rg_in_state, words_substitution, words_lines rfl, List.flatMap_congr fun name hname =>
    words_solid (recorded_name hname).solid (recorded_name hname).1]
  exact List.flatMap_singleton' _

/-! ## The line of names -/

theorem line_legal {state : Tfstate locale} {c : Char} (h : c ∈ List.intercalate [' '] (printed state)) :
    c = ' ' ∨ locale.legal c = true :=
  (Lib.Split.mem_intercalate h).imp_right fun ⟨_, hn, hc⟩ => (printed_name hn).2 c hc

theorem echo_rg_in_state (t : Tools) (state : Tfstate locale) :
    echo t (words isBlank (rg_in_state state)) = List.intercalate [' '] (printed state) := by
  have hescapes : t.escapes (List.intercalate [' '] (printed state)) = List.intercalate [' '] (printed state) := by
    refine t.escapes_plain _ fun hm => ?_
    rcases line_legal hm with h | h
    · cases h
    · exact ne_backslash_of_legal h rfl
  simp only [words_rg_in_state, echo]
  split
  · exact hescapes
  · rfl

theorem newline_notMem_line (state : Tfstate locale) : '\n' ∉ List.intercalate [' '] (printed state) := by
  intro hm
  rcases line_legal hm with h | h
  · cases h
  · cases not_isBlank_of_legal h

/-- On the line of names, a pattern without dots stands in one of them. -/
theorem found_line_iff {resource_group : Text} {state : Tfstate locale} (h : GroupName locale resource_group) :
    Found locale.word resource_group (List.intercalate [' '] (printed state)) ↔ Contained resource_group state := by
  unfold Contained
  split
  · rfl
  · rename_i hdot
    exact found_intercalate_iff word_blank hdot h.no_blank h.1 _

/-- `grep` finds the name where it is contained. -/
theorem selection_pattern (t : Tools) (grep : Grep locale) {resource_group : Text} (h : Pattern locale resource_group)
    (state : Tfstate locale) : selection t grep resource_group state ≠ 1 ↔ Contained resource_group state := by
  rw [selection, words_rg_in_config h.1, echo_rg_in_state,
    grep.status_pattern resource_group _ h (newline_notMem_line state), ← found_line_iff h.1, ← search_none_iff]
  cases search locale.word resource_group none (List.intercalate [' '] (printed state)) <;> simp

theorem hasOptions_of_isOption {w : Text} (h : isOption w = true) : hasOptions w = true := by
  unfold isOption at h
  split at h
  · rfl
  · cases h

/-- No pattern is an option of `echo`. -/
theorem mem_printed {resource_group : Text} (h : Pattern locale resource_group) {state : Tfstate locale}
    (hm : resource_group ∈ recorded state) : resource_group ∈ printed state := by
  have hsplit := List.takeWhile_append_dropWhile (p := isOption) (l := recorded state)
  rw [← hsplit, List.mem_append] at hm
  refine hm.resolve_left fun htake => ?_
  have hoption := hasOptions_of_isOption (List.mem_takeWhile_imp htake)
  rw [h.2] at hoption
  cases hoption

theorem contained_of_recorded {resource_group : Text} (h : Pattern locale resource_group) {state : Tfstate locale}
    (hm : resource_group ∈ recorded state) : Contained resource_group state :=
  (found_line_iff h.1).1 (found_intercalate_of_mem word_blank (mem_printed h hm) (found_self resource_group))

/-! ## Selection -/

/-- The configured name is a pattern, and a recorded name if it stands in one;
or it gives `grep` no pattern, and is a recorded name. Any other text is up to
the options and the regular expressions of `grep`. -/
def Distinguished (grep : Grep locale) (resource_group : Text) (state : Tfstate locale) : Prop :=
  (Pattern locale resource_group → Contained resource_group state → resource_group ∈ recorded state) ∧
  (NoPattern locale resource_group → resource_group ∈ recorded state) ∧
  (¬ Pattern locale resource_group → ¬ NoPattern locale resource_group →
    (resource_group ∈ recorded state ↔
      grep.status (words isBlank resource_group) (List.intercalate [' '] (printed state)) ≠ 1))

theorem not_noPattern_of_pattern {name : Text} (h : Pattern locale name) : ¬ NoPattern locale name := by
  intro hno
  have hoptions := hno.2.1
  rw [h.2] at hoptions
  cases hoptions

theorem selects_iff (t : Tools) (grep : Grep locale) (resource_group : Text) (state : Tfstate locale) :
    Selects t grep resource_group state ↔ Distinguished grep resource_group state := by
  rw [selects_iff_status]
  by_cases hpattern : Pattern locale resource_group
  · have hno := not_noPattern_of_pattern hpattern
    rw [selection_pattern t grep hpattern]
    exact ⟨fun hs => ⟨fun _ hc => hs.2 hc, fun hn => absurd hn hno, fun hn _ => absurd hpattern hn⟩,
      fun hd => ⟨contained_of_recorded hpattern, hd.1 hpattern⟩⟩
  · by_cases hno : NoPattern locale resource_group
    · have hstatus : selection t grep resource_group state ≠ 1 := by
        rw [selection, words_rg_in_config hno.1]
        exact grep.status_no_pattern _ _ hno
      exact ⟨fun hs => ⟨fun hp => absurd hp hpattern, fun _ => hs.2 hstatus, fun _ hn => absurd hno hn⟩,
        fun hd => iff_of_true (hd.2.1 hno) hstatus⟩
    · rw [selection, echo_rg_in_state, rg_in_config, words_substitution, words_concat_blank resource_group rfl]
      exact ⟨fun hs => ⟨fun hp => absurd hp hpattern, fun hn => absurd hn hno, fun _ _ => hs⟩,
        fun hd => hd.2.2 hpattern hno⟩

/-! ## A name in another one -/

def ascii : Locale where
  alnum := Char.isAlphanum
  alnum_blank c h := by
    simp only [isBlank, Bool.or_eq_true, decide_eq_true_eq] at h
    rcases h with (rfl | rfl) | rfl <;> rfl
  alnum_backslash := rfl

/-- `grep` with patterns only. -/
def patterns : Grep ascii where
  status
    | [name], line => if hasOptions name then 2 else if search ascii.word name none line then 0 else 1
    | _, _ => 2
  status_pattern name line h _ := by simp [h.2]
  status_no_pattern name line h := by simp [h.2.1]

def azhop : Text := ['a', 'z', 'h', 'o', 'p']

def azhopDev : Text := ['a', 'z', 'h', 'o', 'p', '-', 'd', 'e', 'v']

/-- The state of `azhop-dev`. -/
def devState : Tfstate ascii :=
  [{ type := azurerm_resource_group, names := [azhopDev], legal := by
      intro _ name hname
      rw [List.mem_singleton.1 hname]
      exact ⟨by decide, List.all_eq_true.1 rfl⟩ }]

theorem recorded_devState : recorded devState = [azhopDev] := by decide

/-- The state of `azhop-dev` is kept for `azhop`. -/
theorem not_selects_azhop : ¬ Selects tools patterns azhop devState := by
  intro hselects
  have hpattern : Pattern ascii azhop := ⟨⟨by decide, List.all_eq_true.1 rfl⟩, rfl⟩
  have hcontained : Contained azhop devState := by
    refine (found_line_iff hpattern.1).1 (search_none_iff.1 ?_)
    rw [printed, recorded_devState]
    decide
  have hs := (selects_iff_status.1 hselects).2
    ((selection_pattern tools patterns hpattern devState).2 hcontained)
  rw [recorded_devState] at hs
  exact absurd hs (by decide)

end AzHop.TerraformState
