import AzHop.PropertyFile
import Mathlib.Data.List.Count
import Mathlib.Data.List.Infix
/-!
# The keys of the CycleCloud administrator

`configure.py` gives the administrator a key pair, and writes the public key to
`authorized_keys` and to the credential of CycleCloud. The key comes from the
command line, or from `ssh-keygen` where there is no key file yet; a key file
that is there is not read.

`authorises_iff` says for which homes this leaves the other keys in place. The
commands that create the user and the directory and set the owner are taken to
succeed.
-/
namespace AzHop.CycleKeys
open PropertyFile

/-- A public key: one line of text. -/
structure PublicKey where
  text : Text
  ne_nil : text ≠ []
  no_newline : '\n' ∉ text
  no_return : '\r' ∉ text
  trimmed : strip text = text
  no_comment : text.head? ≠ some '#'

/-- The `.ssh` of a home. -/
structure Home where
  id_rsa : Bool
  id_rsa_pub : Option Text
  authorized_keys : Option Text

inductive Exception
  | CalledProcessError
  | TypeError

/-- What `ssh-keygen` comes to, by whether there is an `id_rsa` that it asks about
before it overwrites it. -/
structure Keygen where
  run : Bool → Option PublicKey
  fresh : (run false).isSome = true

variable (keygen : Keygen)

/-! ## The script -/

/-- The key file, and the variable `public_key` after it. -/
def key_file (home : Home) (arg : Option PublicKey) : Except Exception (Home × Option Text) :=
  match home.id_rsa_pub with
  | some _ => .ok (home, arg.map PublicKey.text)
  | none =>
    match arg with
    | some key => .ok ({ home with id_rsa_pub := some (key.text ++ ['\n']) }, some key.text)
    | none =>
      match keygen.run home.id_rsa with
      | none => .error .CalledProcessError
      | some key =>
        .ok ({ home with id_rsa := true, id_rsa_pub := some (key.text ++ ['\n']) }, some (universal (key.text ++ ['\n'])))

/-- `public_key not in authorized_keys`, and the file opened with `'w'`. -/
def authorize (home : Home) (public_key : Text) : Home :=
  if public_key <:+: universal (home.authorized_keys.getD []) then home
  else { home with authorized_keys := some (public_key ++ ['\n']) }

/-- The home the call leaves, and the `PublicKey` of the credential. -/
def create_user_credential (home : Home) (arg : Option PublicKey) : Home × Except Exception Text :=
  match key_file keygen home arg with
  | .error e => (home, .error e)
  | .ok (home', none) => (home', .error .TypeError)
  | .ok (home', some public_key) => (authorize home' public_key, .ok public_key)

/-! ## What it should do -/

/-- The keys `sshd` takes from `authorized_keys`, by line. -/
def entries (home : Home) : List Text :=
  (((home.authorized_keys.getD []).splitOn '\n').map strip).filter fun line => line ≠ [] ∧ line.head? ≠ some '#'

/-- The user's key: the argument, or what the key file has then. -/
def IsKeyOf (home' : Home) (arg : Option PublicKey) (key : PublicKey) : Prop :=
  match arg with
  | some k => k = key
  | none => ∃ text, home'.id_rsa_pub = some text ∧ strip text = key.text

/-- The call completes, the keys are kept, the user's key is among them once (or
as often as before) and in the credential, and the same call again leaves
`authorized_keys` as it is. -/
def Authorises (home : Home) (arg : Option PublicKey) : Prop :=
  ∃ home' public_key key, create_user_credential keygen home arg = (home', .ok public_key) ∧
    IsKeyOf home' arg key ∧ strip public_key = key.text ∧
    (∀ line ∈ entries home, line ∈ entries home') ∧
    (entries home').count key.text = max 1 ((entries home).count key.text) ∧
    (create_user_credential keygen home' arg).1.authorized_keys = home'.authorized_keys

/-! ## Texts -/

theorem universal_of_no_return {l : Text} (h : '\r' ∉ l) : universal l = l := by
  induction l with
  | nil => rfl
  | cons c l ih =>
    obtain ⟨hc, hl⟩ := not_or.1 (mt List.mem_cons.2 h)
    rw [universal, ih hl]
    · rintro l rfl rfl
      exact hc rfl
    · rintro rfl
      exact hc rfl

theorem PublicKey.universal_line (key : PublicKey) : universal (key.text ++ ['\n']) = key.text ++ ['\n'] := by
  refine universal_of_no_return fun h => ?_
  rcases List.mem_append.1 h with h | h
  · exact key.no_return h
  · exact absurd h (by decide)

theorem PublicKey.strip_line (key : PublicKey) : strip (key.text ++ ['\n']) = key.text := by
  have hdrop : key.text.dropWhile isSpace = key.text := by
    have hlength := congrArg List.length key.trimmed
    have hle := (List.rdropWhile_prefix isSpace (key.text.dropWhile isSpace)).length_le
    rw [strip] at hlength
    exact (List.dropWhile_suffix isSpace).eq_of_length_le (hlength ▸ hle)
  have hblank : strip (key.text ++ ['\n']) = strip key.text := by
    rw [strip, List.dropWhile_append, hdrop, if_neg (by simpa using key.ne_nil)]
    rw [List.rdropWhile_concat_pos isSpace _ _ rfl, strip, hdrop]
  rw [hblank, key.trimmed]

/-- A file with a key and line ends has the key for its only entry. -/
theorem PublicKey.entries_line (key : PublicKey) {home : Home} {n : Nat}
    (h : home.authorized_keys = some (key.text ++ '\n' :: List.replicate n '\n')) : entries home = [key.text] := by
  have hrest : ∀ n : Nat, (((List.replicate n '\n').splitOn '\n').map strip).filter
      (fun line => line ≠ [] ∧ line.head? ≠ some '#') = [] := by
    intro n
    induction n with
    | zero => rfl
    | succ n ih =>
      have hsplit := List.splitOn_append_cons_self_of_not_mem (List.not_mem_nil (a := '\n')) (List.replicate n '\n')
      rw [List.replicate_succ, ← List.nil_append (_ :: _), hsplit]
      simpa [strip] using ih
  rw [entries, h, Option.getD_some, List.splitOn_append_cons_self_of_not_mem key.no_newline, List.map_cons, key.trimmed,
    List.filter_cons_of_pos (by simp [key.ne_nil, key.no_comment]), hrest]

/-! ## `authorized_keys` -/

theorem sublist_singleton_iff {l : List Text} {x : Text} : l.Sublist [x] ↔ (∀ y ∈ l, y = x) ∧ l.count x ≤ 1 := by
  constructor
  · intro h
    exact ⟨fun y hy => List.mem_singleton.1 (h.subset hy), by simpa using h.count_le x⟩
  · rintro ⟨hall, hcount⟩
    have hl := List.eq_replicate_of_mem hall
    rw [hl, List.count_replicate_self] at hcount
    rw [hl, ← List.replicate_one]
    exact List.replicate_sublist_replicate x |>.2 hcount

/-- The text the script looks for is in the file where the key is an entry, or it
is not in the file, which has no entry of another key. -/
def Kept (home : Home) (key : PublicKey) (public_key : Text) : Prop :=
  if public_key <:+: universal (home.authorized_keys.getD []) then key.text ∈ entries home
  else (entries home).Sublist [key.text]

theorem entries_congr {home home' : Home} (h : home.authorized_keys = home'.authorized_keys) :
    entries home = entries home' := by
  rw [entries, entries, h]

/-- What the file has afterwards. -/
theorem kept_iff {home home' : Home} (key : PublicKey) (public_key : Text) (n : Nat)
    (hsame : home'.authorized_keys = home.authorized_keys)
    (hkey : public_key ++ ['\n'] = key.text ++ '\n' :: List.replicate n '\n') :
    (∀ line ∈ entries home, line ∈ entries (authorize home' public_key)) ∧
      (entries (authorize home' public_key)).count key.text = max 1 ((entries home).count key.text) ↔
    Kept home key public_key := by
  unfold authorize Kept
  rw [hsame]
  split
  · rw [entries_congr hsame, ← List.count_pos_iff]
    constructor
    · rintro ⟨-, hcount⟩
      omega
    · intro hpos
      exact ⟨fun line hline => hline, by omega⟩
  · have hwritten : entries { home' with authorized_keys := some (public_key ++ ['\n']) } = [key.text] :=
      key.entries_line (congrArg some hkey)
    rw [hwritten, sublist_singleton_iff]
    simp only [List.mem_singleton, List.count_singleton_self]
    constructor
    · rintro ⟨hall, hcount⟩
      exact ⟨hall, by omega⟩
    · rintro ⟨hall, hcount⟩
      exact ⟨hall, by omega⟩

/-- A key that was written is not written again. -/
theorem authorize_again {home home' : Home} {key : PublicKey}
    (h : home'.authorized_keys = (authorize home key.text).authorized_keys) :
    (authorize home' key.text).authorized_keys = home'.authorized_keys := by
  have hfound : key.text <:+: universal (home'.authorized_keys.getD []) := by
    rw [h]
    unfold authorize
    split
    · assumption
    · rw [Option.getD_some, key.universal_line]
      exact (List.prefix_append key.text ['\n']).isInfix
  rw [authorize, if_pos hfound]

/-! ## The argument -/

variable {keygen}

theorem create_given (home : Home) (key : PublicKey) :
    ∃ home', create_user_credential keygen home (some key) = (authorize home' key.text, .ok key.text) ∧
      home'.authorized_keys = home.authorized_keys ∧ home'.id_rsa_pub ≠ none := by
  unfold create_user_credential key_file
  cases hpub : home.id_rsa_pub with
  | some text => exact ⟨home, rfl, rfl, by rw [hpub]; exact Option.some_ne_none text⟩
  | none => exact ⟨_, rfl, rfl, Option.some_ne_none _⟩

theorem authorises_given_iff (home : Home) (key : PublicKey) :
    Authorises keygen home (some key) ↔ Kept home key key.text := by
  obtain ⟨home', hcreate, hsame, -⟩ := @create_given keygen home key
  have hkept := kept_iff key key.text 0 hsame rfl
  constructor
  · rintro ⟨home'', public_key, key', hrun, rfl, -, hentries, hcount, -⟩
    cases hcreate.symm.trans hrun
    exact hkept.1 ⟨hentries, hcount⟩
  · intro h
    obtain ⟨hentries, hcount⟩ := hkept.2 h
    obtain ⟨home'', hagain, hsame', -⟩ := @create_given keygen (authorize home' key.text) key
    refine ⟨_, _, key, hcreate, rfl, key.trimmed, hentries, hcount, ?_⟩
    rw [hagain]
    exact (authorize_again hsame').trans hsame'

theorem create_exists {home : Home} (h : home.id_rsa_pub ≠ none) :
    create_user_credential keygen home none = (home, .error .TypeError) := by
  unfold create_user_credential key_file
  cases hpub : home.id_rsa_pub with
  | some text => rfl
  | none => exact absurd hpub h

theorem create_generated {home : Home} (h : home.id_rsa_pub = none) {key : PublicKey}
    (hkey : keygen.run home.id_rsa = some key) :
    ∃ home', create_user_credential keygen home none = (authorize home' (key.text ++ ['\n']), .ok (key.text ++ ['\n'])) ∧
      home'.authorized_keys = home.authorized_keys ∧ home'.id_rsa_pub = some (key.text ++ ['\n']) := by
  unfold create_user_credential key_file
  simp only [h, hkey, key.universal_line]
  exact ⟨_, rfl, rfl, rfl⟩

theorem create_failed {home : Home} (h : home.id_rsa_pub = none) (hkey : keygen.run home.id_rsa = none) :
    create_user_credential keygen home none = (home, .error .CalledProcessError) := by
  simp [create_user_credential, key_file, h, hkey]

theorem authorize_pub (home : Home) (public_key : Text) :
    (authorize home public_key).id_rsa_pub = home.id_rsa_pub := by
  unfold authorize
  split <;> rfl

theorem PublicKey.eq_of_text {key key' : PublicKey} (h : key.text = key'.text) : key = key' := by
  cases key
  cases key'
  cases h
  rfl

theorem authorises_generated_iff (home : Home) :
    Authorises keygen home none ↔ home.id_rsa_pub = none ∧
      ∃ key, keygen.run home.id_rsa = some key ∧ Kept home key (key.text ++ ['\n']) := by
  by_cases hpub : home.id_rsa_pub = none
  · cases hrun : keygen.run home.id_rsa with
    | none =>
      refine iff_of_false ?_ fun ⟨_, key, hkey, _⟩ => by cases hkey
      rintro ⟨home', public_key, key, hcreate, -⟩
      cases (create_failed hpub hrun).symm.trans hcreate
    | some key =>
      obtain ⟨home', hcreate, hsame, hpub'⟩ := create_generated hpub hrun
      have hkept := kept_iff key (key.text ++ ['\n']) 1 hsame (by simp)
      have hfile : (authorize home' (key.text ++ ['\n'])).id_rsa_pub = some (key.text ++ ['\n']) := by
        rw [authorize_pub, hpub']
      constructor
      · rintro ⟨home'', public_key, key', hcreate', ⟨text, htext, hkey⟩, -, hentries, hcount, -⟩
        cases hcreate.symm.trans hcreate'
        cases hfile.symm.trans htext
        obtain rfl := PublicKey.eq_of_text (key.strip_line.symm.trans hkey)
        exact ⟨hpub, key, rfl, hkept.1 ⟨hentries, hcount⟩⟩
      · rintro ⟨-, key', hkey, h⟩
        cases hkey
        obtain ⟨hentries, hcount⟩ := hkept.2 h
        refine ⟨_, _, key, hcreate, ⟨_, hfile, key.strip_line⟩, key.strip_line, hentries, hcount, ?_⟩
        rw [create_exists (by rw [hfile]; exact Option.some_ne_none _)]
  · refine iff_of_false ?_ fun h => hpub h.1
    rintro ⟨home', public_key, key, hcreate, -⟩
    cases (create_exists hpub).symm.trans hcreate

/-- With an argument the other keys are kept where the key is among them, or
there are none; without one it takes a home without a key file as well. -/
theorem authorises_iff (keygen : Keygen) (home : Home) (arg : Option PublicKey) :
    Authorises keygen home arg ↔
      match arg with
      | some key => Kept home key key.text
      | none => home.id_rsa_pub = none ∧
        ∃ key, keygen.run home.id_rsa = some key ∧ Kept home key (key.text ++ ['\n']) := by
  cases arg with
  | some key => exact authorises_given_iff home key
  | none => exact authorises_generated_iff home

/-! ## Another key -/

def keyOf (c : Char) (h : isSpace c = false ∧ c ≠ '\n' ∧ c ≠ '\r' ∧ c ≠ '#') : PublicKey where
  text := [c]
  ne_nil := List.cons_ne_nil c []
  no_newline := by simpa using h.2.1.symm
  no_return := by simpa using h.2.2.1.symm
  trimmed := by simp [strip, h.1]
  no_comment := by simpa using h.2.2.2

def onlyA : Keygen := ⟨fun _ => some (keyOf 'a' (by decide)), rfl⟩

/-- A home where the key `b` may log in. -/
def homeOfB : Home := ⟨false, none, some ['b', '\n']⟩

/-- The key `a` takes the place of `b`. -/
theorem not_authorises_second : ¬ Authorises onlyA homeOfB (some (keyOf 'a' (by decide))) := by
  intro hauthorises
  have h := (authorises_given_iff homeOfB (keyOf 'a' (by decide))).1 hauthorises
  have hentries : entries homeOfB = [['b']] := by decide
  rw [Kept, hentries, if_neg (by decide)] at h
  exact absurd h (by decide)

end AzHop.CycleKeys
