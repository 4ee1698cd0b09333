import AzHop.Lib.Loop
/-!
# The retries of `configure.py`

Before it registers the account, `configure.py` waits for CycleCloud to start
and asks the metadata service for the virtual machine and for its identity. The
wait is a loop of up to 5 attempts, each question one of up to 30.

An outside call may fail in any attempt; `retries_iff` says for which outcomes
each of the three loops makes its attempts until one succeeds, and raises an
error when none does.
-/
namespace AzHop.CycleSetup
open Lib.Loop

/-- The exceptions that matter here. -/
inductive Exception
  | CalledProcessError
  | URLError
  /-- `json.load` raises it on a text that is not JSON. -/
  | ValueError
  | TypeError
  | other (name : String)

/-- How many attempts were made, and what came of them: `none` is Python's. -/
structure Tried (α : Type) where
  attempts : Nat
  result : Except Exception (Option α)

/-! ## Commands -/

/-- An item of an argument list: a text, or a function written in its place. -/
inductive Arg
  | str (text : String)
  | function (name : String)

/-- What a command does when it is called for the n-th time. -/
abbrev Commands := List String → Nat → Except Exception String

def texts : List Arg → Option (List String)
  | [] => some []
  | .str text :: args => (texts args).map (text :: ·)
  | .function _ :: _ => none

/-- `check_output` takes texts only. -/
def check_output (run : Commands) (n : Nat) (cmd_list : List Arg) : Except Exception String :=
  match texts cmd_list with
  | some args => run args n
  | none => .error .TypeError

/-- The error is printed and raised again. -/
def _catch_sys_error (run : Commands) (n : Nat) (cmd_list : List Arg) : Except Exception String :=
  match check_output run n cmd_list with
  | .ok output => .ok output
  | .error e => .error e

def cs_cmd : String := "/opt/cycle_server/cycle_server"

/-- The state of the loop. -/
structure Wait where
  max_tries : Int
  attempts : Nat

/-- `while not started`. -/
def await_startup (run : Commands) (s : Wait) : Wait ⊕ Tried Unit :=
  let max_tries := s.max_tries - 1
  match _catch_sys_error run s.attempts [.str cs_cmd, .str "await_startup"] with
  | .ok _ => .inr ⟨s.attempts + 1, .ok (some ())⟩
  | .error e =>
    if max_tries > 0 then
      -- the item before "30" is the function `time.sleep`
      match _catch_sys_error run s.attempts [.function "sleep", .str "30"] with
      | .ok _ => .inl ⟨max_tries, s.attempts + 1⟩
      | .error e => .inr ⟨s.attempts + 1, .error e⟩
    else .inr ⟨s.attempts + 1, .error e⟩

def wait : Wait := ⟨5, 0⟩

/-! ## Requests -/

variable {α : Type}

/-- An attempt to load JSON from a URL. -/
structure Attempt (α : Type) where
  urlopen : Except Exception Unit
  load : Except Exception α

/-- The attempts on each URL. -/
abbrev Network (α : Type) := String → Nat → Attempt α

/-- The rounds of `for _ in range(30)` that are left, from an attempt on. -/
def fetch (attempt : Nat → Attempt α) : Nat → Nat → Tried α
  | 0, i => ⟨i, .ok none⟩
  | n + 1, i =>
    match (attempt i).urlopen with
    | .error e => ⟨i + 1, .error e⟩
    | .ok _ =>
      match (attempt i).load with
      | .ok v => ⟨i + 1, .ok (some v)⟩
      | .error .ValueError => fetch attempt n (i + 1)
      | .error e => ⟨i + 1, .error e⟩

def metadata_url : String := "http://169.254.169.254/metadata/instance?api-version=2019-08-15"

def identity_url : String := "http://169.254.169.254/metadata/identity/oauth2/token" ++
  "?api-version=2018-02-01" ++ "&resource=https://management.azure.com/"

def get_vm_metadata (net : Network α) : Tried α := fetch (net metadata_url) 30 0

def get_vm_managed_identity (net : Network α) : Tried α := fetch (net identity_url) 30 0

/-! ## What a retry should do -/

/-- The first success among the attempts is returned, and the loop raises an
error after the last one when there is none. -/
def Retries (limit : Nat) (success : Nat → Option α) (t : Tried α) : Prop :=
  (∃ k < limit, ∃ v, success k = some v ∧ (∀ j < k, success j = none) ∧ t = ⟨k + 1, .ok (some v)⟩) ∨
  ((∀ k < limit, success k = none) ∧ t.attempts = limit ∧ ∃ e, t.result = .error e)

def starts (run : Commands) (n : Nat) : Option Unit :=
  match run [cs_cmd, "await_startup"] n with
  | .ok _ => some ()
  | .error _ => none

/-- The answer of an attempt that succeeds. -/
def Attempt.answer (a : Attempt α) : Option α :=
  match a.urlopen, a.load with
  | .ok _, .ok v => some v
  | _, _ => none

/-- The service answers, with something other than JSON. -/
def Attempt.Malformed (a : Attempt α) : Prop := (∃ u, a.urlopen = .ok u) ∧ a.load = .error .ValueError

/-! ## The wait -/

/-- The wait ends with its first attempt: the handler cannot run `sleep`. -/
theorem await_startup_wait (run : Commands) :
    ∃ r, await_startup run wait = .inr ⟨1, r⟩ ∧ (r = .ok (some ()) ↔ starts run 0 = some ()) ∧
      (starts run 0 = none → ∃ e, r = .error e) := by
  unfold await_startup starts
  cases hrun : run [cs_cmd, "await_startup"] 0 with
  | ok output => exact ⟨.ok (some ()), by simp [_catch_sys_error, check_output, texts, wait, hrun], by simp, by simp⟩
  | error e =>
    exact ⟨.error .TypeError, by simp [_catch_sys_error, check_output, texts, wait, hrun], by simp, by simp⟩

theorem await_retries_iff (run : Commands) :
    (∃ t, Leaves (await_startup run) wait t ∧ Retries 5 (starts run) t) ↔ starts run 0 = some () := by
  obtain ⟨r, hr, hok, -⟩ := await_startup_wait run
  simp only [leaves_of_inr hr, exists_eq_left]
  constructor
  · rintro (⟨k, -, v, hv, -, ht⟩ | ⟨-, hattempts, -⟩)
    · obtain rfl : k = 0 := (Nat.succ.inj (congrArg Tried.attempts ht)).symm
      exact hv
    · cases hattempts
  · intro h
    exact Or.inl ⟨0, by decide, (), h, fun j hj => absurd hj (Nat.not_lt_zero j), by rw [hok.2 h]⟩

/-! ## The requests -/

theorem answer_of_malformed {a : Attempt α} (h : a.Malformed) : a.answer = none := by
  simp [Attempt.answer, h.2]

theorem fetch_malformed {attempt : Nat → Attempt α} {i : Nat} (h : (attempt i).Malformed) (n : Nat) :
    fetch attempt (n + 1) i = fetch attempt n (i + 1) := by
  obtain ⟨⟨u, hu⟩, hl⟩ := h
  simp [fetch, hu, hl]

/-- An attempt that is not malformed is the last one. -/
theorem fetch_last {attempt : Nat → Attempt α} {i : Nat} (h : ¬ (attempt i).Malformed) (n : Nat) :
    (∃ v, (attempt i).answer = some v ∧ fetch attempt (n + 1) i = ⟨i + 1, .ok (some v)⟩) ∨
    ((attempt i).answer = none ∧ ∃ e, fetch attempt (n + 1) i = ⟨i + 1, .error e⟩) := by
  unfold fetch Attempt.answer
  cases hu : (attempt i).urlopen with
  | error e => exact Or.inr ⟨rfl, e, rfl⟩
  | ok u =>
    cases hl : (attempt i).load with
    | ok v => exact Or.inl ⟨v, rfl, rfl⟩
    | error e =>
      cases e with
      | ValueError => exact absurd ⟨⟨u, hu⟩, hl⟩ h
      | _ => exact Or.inr ⟨rfl, _, rfl⟩

/-- The first attempt that is not malformed, if there is one. -/
theorem fetch_cases (attempt : Nat → Attempt α) (n i : Nat) :
    (∃ k < n, (∀ j < k, (attempt (i + j)).Malformed) ∧ ¬ (attempt (i + k)).Malformed ∧
      fetch attempt n i = fetch attempt (n - k) (i + k)) ∨
    ((∀ j < n, (attempt (i + j)).Malformed) ∧ fetch attempt n i = ⟨i + n, .ok none⟩) := by
  induction n generalizing i with
  | zero => exact Or.inr ⟨fun j hj => absurd hj (Nat.not_lt_zero j), rfl⟩
  | succ n ih =>
    by_cases hm : (attempt i).Malformed
    · have hhead : ∀ {m : Nat}, (∀ j < m, (attempt (i + 1 + j)).Malformed) →
          ∀ j < m + 1, (attempt (i + j)).Malformed := by
        intro m h j hj
        cases j with
        | zero => exact hm
        | succ j =>
          have hj' := h j (Nat.lt_of_succ_lt_succ hj)
          rwa [Nat.add_right_comm] at hj'
      rcases ih (i + 1) with ⟨k, hk, hbefore, hlast, hf⟩ | ⟨hall, hf⟩
      · refine Or.inl ⟨k + 1, Nat.succ_lt_succ hk, hhead hbefore, ?_, ?_⟩
        · rwa [Nat.add_right_comm] at hlast
        · rw [fetch_malformed hm, hf, Nat.succ_sub_succ, Nat.add_right_comm, Nat.add_assoc]
      · refine Or.inr ⟨hhead hall, ?_⟩
        rw [fetch_malformed hm, hf, Nat.add_right_comm, Nat.add_assoc]
    · exact Or.inl ⟨0, Nat.succ_pos n, fun j hj => absurd hj (Nat.not_lt_zero j), hm, rfl⟩

/-- The attempts before the first success are malformed, or the last one is the
first that is not. -/
def Patient (limit : Nat) (attempt : Nat → Attempt α) : Prop :=
  ∃ k < limit, (∀ j < k, (attempt j).Malformed) ∧ ¬ (attempt k).Malformed ∧
    ((attempt k).answer ≠ none ∨ k + 1 = limit)

theorem fetch_retries_iff (attempt : Nat → Attempt α) (limit : Nat) :
    Retries limit (fun n => (attempt n).answer) (fetch attempt limit 0) ↔ Patient limit attempt := by
  rcases fetch_cases attempt limit 0 with ⟨k, hk, hbefore, hlast, hf⟩ | ⟨hall, hf⟩
  · simp only [Nat.zero_add] at hbefore hlast hf
    obtain ⟨m, hm⟩ : ∃ m, limit - k = m + 1 := ⟨limit - k - 1, by omega⟩
    rw [hf, hm]
    have hfirst : ∀ k', (∀ j < k', (attempt j).Malformed) → ¬ (attempt k').Malformed → k' = k := by
      intro k' hbefore' hlast'
      rcases Nat.lt_trichotomy k' k with h | h | h
      · exact absurd (hbefore k' h) hlast'
      · exact h
      · exact absurd (hbefore' k h) hlast
    have hnone : ∀ j < k, (attempt j).answer = none := fun j hj => answer_of_malformed (hbefore j hj)
    rcases fetch_last hlast m with ⟨v, hv, hr⟩ | ⟨hv, e, hr⟩
    · refine iff_of_true (Or.inl ⟨k, hk, v, hv, hnone, hr⟩) ⟨k, hk, hbefore, hlast, Or.inl ?_⟩
      rw [hv]
      exact Option.some_ne_none v
    · rw [hr]
      constructor
      · rintro (⟨k', -, v, -, -, ht⟩ | ⟨-, hattempts, -⟩)
        · cases congrArg Tried.result ht
        · exact ⟨k, hk, hbefore, hlast, Or.inr hattempts⟩
      · rintro ⟨k', hk', hbefore', hlast', h⟩
        obtain rfl := hfirst k' hbefore' hlast'
        have hlimit : k' + 1 = limit := h.resolve_left fun h => h hv
        refine Or.inr ⟨fun j hj => ?_, hlimit, e, rfl⟩
        rcases Nat.lt_or_eq_of_le (Nat.le_of_lt_succ (hlimit ▸ hj)) with hj | rfl
        · exact hnone j hj
        · exact hv
  · simp only [Nat.zero_add] at hall hf
    refine iff_of_false ?_ fun ⟨k, hk, _, hlast, _⟩ => hlast (hall k hk)
    rw [hf]
    rintro (⟨k, hk, v, hv, -⟩ | ⟨-, -, e, he⟩)
    · cases (answer_of_malformed (hall k hk)).symm.trans hv
    · cases he

/-! ## The three loops -/

/-- Each loop returns the first success among its attempts, and raises an error
after the last when there is none. -/
def Robust (run : Commands) (net : Network α) : Prop :=
  (∃ t, Leaves (await_startup run) wait t ∧ Retries 5 (starts run) t) ∧
  Retries 30 (fun n => (net metadata_url n).answer) (get_vm_metadata net) ∧
  Retries 30 (fun n => (net identity_url n).answer) (get_vm_managed_identity net)

theorem retries_iff (run : Commands) (net : Network α) :
    Robust run net ↔ starts run 0 = some () ∧ Patient 30 (net metadata_url) ∧ Patient 30 (net identity_url) :=
  and_congr (await_retries_iff run) (and_congr (fetch_retries_iff _ 30) (fetch_retries_iff _ 30))

/-- The metadata service refuses the first request and answers the second. -/
def refusesFirst : Network Unit := fun url n =>
  if url = metadata_url ∧ n = 0 then ⟨.error .URLError, .error .ValueError⟩ else ⟨.ok (), .ok ()⟩

/-- The second request is not made. -/
theorem not_robust_unreachable : ¬ Robust (fun _ _ => .ok "") refusesFirst := by
  rintro ⟨-, h, -⟩
  obtain ⟨k, -, hbefore, -, hk⟩ := (fetch_retries_iff _ 30).1 h
  have hrefused : (refusesFirst metadata_url 0).urlopen = .error .URLError := by simp [refusesFirst]
  cases k with
  | zero =>
    have hanswer : (refusesFirst metadata_url 0).answer = none := by simp [Attempt.answer, hrefused]
    rcases hk with hk | hk
    · exact hk hanswer
    · cases hk
  | succ k =>
    obtain ⟨⟨u, hu⟩, -⟩ := hbefore 0 k.succ_pos
    rw [hrefused] at hu
    cases hu

end AzHop.CycleSetup
