import AzHop.Lib.Split
import Mathlib.Data.List.DropRight
import Mathlib.Tactic.ByContra
/-!
# The properties of CycleCloud

`configure.py` reads the context path of the web server from
`cycle_server.properties`, and builds the URL from it for the command line
tool. The property is looked for with `startswith`, and its value is what stands
between the first two equals signs of the line.

`looksUp_iff` and `buildsUrl_iff` say for which files the property is the one
that was asked for, and the URL the one of its value.
-/
namespace AzHop.PropertyFile
open Lib.Split

abbrev Text := List Char

/-! ## Python -/

/-- `isspace`. -/
def isSpace (c : Char) : Bool :=
  (9 ≤ c.toNat && c.toNat ≤ 13) || (28 ≤ c.toNat && c.toNat ≤ 32) || (8192 ≤ c.toNat && c.toNat ≤ 8202) ||
    [133, 160, 5760, 8232, 8233, 8239, 8287, 12288].contains c.toNat

/-- `strip`. -/
def strip (l : Text) : Text := (l.dropWhile isSpace).rdropWhile isSpace

/-- What a file opened for reading gives: each line ends with a newline. -/
def universal : Text → Text
  | [] => []
  | '\r' :: '\n' :: l => '\n' :: universal l
  | '\r' :: l => '\n' :: universal l
  | c :: l => c :: universal l

/-- `for line in file`. -/
def splitLines : Text → List Text
  | [] => []
  | c :: l =>
    if c = '\n' then [c] :: splitLines l
    else
      match splitLines l with
      | [] => [[c]]
      | line :: lines => (c :: line) :: lines

/-- The lines of a file. -/
def linesOf (content : Text) : List Text := splitLines (universal content)

inductive Exception
  | IndexError

/-! ## The lookup -/

/-- `read_cycle_server_property`, on the lines that are left. -/
def read (property : Text) : List Text → Except Exception (Option Text)
  | [] => .ok none
  | line :: lines =>
    if property <+: line then
      match line.splitOn '=' with
      | _ :: value :: _ => .ok (some (strip value))
      | _ => .error .IndexError
    else read property lines

def read_cycle_server_property (content property : Text) : Except Exception (Option Text) :=
  read property (linesOf content)

def webServerContextPath : Text :=
  ['w', 'e', 'b', 'S', 'e', 'r', 'v', 'e', 'r', 'C', 'o', 'n', 't', 'e', 'x', 't', 'P', 'a', 't', 'h']

def localhost : Text :=
  ['h', 't', 't', 'p', 's', ':', '/', '/', 'l', 'o', 'c', 'a', 'l', 'h', 'o', 's', 't', ':', '9', '4', '4', '3']

/-- `"%s" % value`. -/
def format : Option Text → Text
  | none => ['N', 'o', 'n', 'e']
  | some value => value

/-- The `--url` of `initialize_cyclecloud_cli`. -/
def url (content : Text) : Except Exception Text := do
  let path ← read_cycle_server_property content webServerContextPath
  let path := if path = some ['/'] then some [] else path
  return localhost ++ format path

/-! ## What it should do -/

/-- A line is a comment when its first character that is no blank is `#`. -/
def isComment (line : Text) : Bool := (line.dropWhile isSpace).head? = some '#'

/-- The key of a line and its value, around the first equals sign. -/
def keyOf (line : Text) : Text := strip (line.takeWhile (· ≠ '='))

/-- What stands after the first equals sign. -/
def rawValue (line : Text) : Text := ((line.dropWhile (· ≠ '=')).drop 1)

/-- The value of a line. -/
def valueOf (line : Text) : Text := strip (rawValue line)

/-- The line gives this property a value. -/
def hasKey (property line : Text) : Bool := !isComment line && line.contains '=' && keyOf line = property

/-- The first line with the key. -/
def lookup (content property : Text) : Option Text := ((linesOf content).find? (hasKey property)).map valueOf

/-- The path of the URL for a property that may be absent. -/
def contextPath : Option Text → Text
  | none => []
  | some value => if value = ['/'] then [] else value

/-- The lookup gives the value of the property. -/
def LooksUp (content property : Text) : Prop := read_cycle_server_property content property = .ok (lookup content property)

/-- The URL has the context path of the file. -/
def BuildsUrl (content : Text) : Prop :=
  url content = .ok (localhost ++ contextPath (lookup content webServerContextPath))

/-! ## Lines -/

/-- The line the script takes. -/
def starting (content property : Text) : Option Text := (linesOf content).find? fun line => property <+: line

/-- What stands between the first two equals signs. -/
def field (line : Text) : Text := (rawValue line).takeWhile (· ≠ '=')

theorem mem_strip {c : Char} (hc : isSpace c = false) {l : Text} (h : c ∈ l) : c ∈ strip l := by
  unfold strip List.rdropWhile
  rw [List.mem_reverse]
  exact mem_dropWhile hc (List.mem_reverse.2 (mem_dropWhile hc h))

theorem of_mem_strip {c : Char} {l : Text} (h : c ∈ strip l) : c ∈ l :=
  (List.dropWhile_sublist isSpace).subset ((List.rdropWhile_prefix isSpace _).subset h)

theorem not_mem_field (line : Text) : '=' ∉ strip (field line) := by
  intro hmem
  have hequals := List.mem_takeWhile_imp (of_mem_strip hmem)
  simp at hequals

/-- The script sees all of a value that has no equals sign. -/
theorem strip_field_eq_iff (line : Text) : strip (field line) = valueOf line ↔ '=' ∉ rawValue line := by
  constructor
  · intro h hmem
    exact not_mem_field line (h ▸ mem_strip (by decide) hmem)
  · intro h
    rw [field, takeWhile_eq_self h]
    rfl

theorem rawValue_append {a : Text} (h : '=' ∉ a) (b : Text) : rawValue (a ++ '=' :: b) = b := by
  have hall : ∀ c ∈ a, decide (c ≠ '=') = true := fun c hc => decide_eq_true fun e => h (e ▸ hc)
  rw [rawValue, List.dropWhile_append_of_pos hall]
  rfl

/-- The script takes the second piece of a line, if there is one. -/
theorem splitOn_line {line : Text} (h : '=' ∈ line) :
    ∃ key pieces, line.splitOn '=' = key :: field line :: pieces := by
  obtain ⟨a, b, rfl, ha⟩ := List.eq_append_cons_of_mem h
  obtain ⟨value, pieces, hb⟩ := List.exists_cons_of_ne_nil (List.splitOn_ne_nil '=' b)
  have hvalue : value = field (a ++ '=' :: b) := by
    have hhead := headD_splitOn '=' b
    rw [hb] at hhead
    rw [field, rawValue_append ha]
    exact hhead
  exact ⟨a, pieces, by rw [List.splitOn_append_cons_self_of_not_mem ha, hb, hvalue]⟩

/-- The lookup takes the first line that starts with the property. -/
theorem read_eq (property : Text) (lines : List Text) :
    read property lines =
      match lines.find? fun line => property <+: line with
      | none => .ok none
      | some line => if '=' ∈ line then .ok (some (strip (field line))) else .error .IndexError := by
  induction lines with
  | nil => rfl
  | cons line lines ih =>
    by_cases hstart : property <+: line
    · rw [read, if_pos hstart, List.find?_cons_of_pos (by simpa using hstart)]
      dsimp only
      split
      · rename_i key value pieces hpieces
        by_cases hmem : '=' ∈ line
        · obtain ⟨key', pieces', hline⟩ := splitOn_line hmem
          rw [hline] at hpieces
          cases hpieces
          rw [if_pos hmem]
        · rw [List.splitOn_eq_singleton hmem] at hpieces
          cases hpieces
      · rename_i hpieces
        rw [if_neg]
        intro hmem
        obtain ⟨key', pieces', hline⟩ := splitOn_line hmem
        exact hpieces _ _ _ hline
    · rw [read, if_neg hstart, ih, List.find?_cons_of_neg (by simpa using hstart)]

/-! ## The lookup, by the two lines -/

/-- The line with the key is the one that starts with the property, and its value
has no equals sign; or the text of another line between its first two equals
signs is the value. -/
def Found (content property : Text) : Prop :=
  match starting content property, (linesOf content).find? (hasKey property) with
  | none, none => True
  | some line, some line' =>
    if line = line' then '=' ∉ rawValue line else '=' ∈ line ∧ strip (field line) = valueOf line'
  | _, _ => False

theorem mem_of_hasKey {property line : Text} (h : hasKey property line = true) : '=' ∈ line := by
  simp only [hasKey, Bool.and_eq_true, List.contains_iff_mem] at h
  exact h.1.2

theorem looksUp_iff (content property : Text) : LooksUp content property ↔ Found content property := by
  unfold LooksUp Found lookup starting
  rw [read_cycle_server_property, read_eq]
  cases hkey : (linesOf content).find? (hasKey property) with
  | none => cases (linesOf content).find? fun line => property <+: line with
    | none => simp
    | some line =>
      by_cases hmem : '=' ∈ line
      · simp [hmem]
      · simp [hmem]
  | some line' =>
    have hmem' : '=' ∈ line' := mem_of_hasKey (List.find?_some hkey)
    cases (linesOf content).find? fun line => property <+: line with
    | none => simp
    | some line =>
      by_cases hline : line = line'
      · subst hline
        simp [hmem', ← strip_field_eq_iff]
      · by_cases hmem : '=' ∈ line
        · simp [hmem, hline]
        · simp [hmem, hline]

/-! ## The URL -/

/-- The line with the key is the one that starts with the property, and its value
has no equals sign; or another line starts with it, and the text between its first
two equals signs gives the same path; or no line starts with it, and the value is
what Python makes of a missing one. -/
def PathFound (content : Text) : Prop :=
  match starting content webServerContextPath, (linesOf content).find? (hasKey webServerContextPath) with
  | none, none => False
  | none, some line' => valueOf line' = ['N', 'o', 'n', 'e']
  | some line, none => '=' ∈ line ∧ contextPath (some (strip (field line))) = []
  | some line, some line' =>
    if line = line' then '=' ∉ rawValue line
    else '=' ∈ line ∧ contextPath (some (strip (field line))) = contextPath (some (valueOf line'))

theorem format_eq (value : Text) :
    format (if value = ['/'] then some [] else some value) = contextPath (some value) := by
  by_cases h : value = ['/']
  · simp [h, contextPath, format]
  · simp [h, contextPath, format]

theorem contextPath_eq_none_iff {value : Text} :
    contextPath (some value) = ['N', 'o', 'n', 'e'] ↔ value = ['N', 'o', 'n', 'e'] := by
  by_cases h : value = ['/']
  · simp [h, contextPath]
  · simp [h, contextPath]

theorem contextPath_of_mem {value : Text} (h : '=' ∈ value) : contextPath (some value) = value := by
  rw [contextPath, if_neg]
  rintro rfl
  exact absurd h (by decide)

theorem mem_of_mem_contextPath {c : Char} {value : Text} (h : c ∈ contextPath (some value)) : c ∈ value := by
  rw [contextPath] at h
  split at h
  · cases h
  · exact h

/-- On the line of the key the path is right where the script sees all of the value. -/
theorem contextPath_field_eq_iff (line : Text) :
    contextPath (some (strip (field line))) = contextPath (some (valueOf line)) ↔ '=' ∉ rawValue line := by
  constructor
  · intro h hmem
    have hvalue : '=' ∈ valueOf line := mem_strip (by decide) hmem
    rw [contextPath_of_mem hvalue] at h
    exact not_mem_field line (mem_of_mem_contextPath (h ▸ hvalue))
  · intro h
    rw [(strip_field_eq_iff line).2 h]

theorem url_of_none {content : Text} (h : read_cycle_server_property content webServerContextPath = .ok none) :
    url content = .ok (localhost ++ ['N', 'o', 'n', 'e']) := by
  rw [url, h]
  rfl

theorem url_of_some {content value : Text} (h : read_cycle_server_property content webServerContextPath = .ok (some value)) :
    url content = .ok (localhost ++ contextPath (some value)) := by
  rw [url, h, ← format_eq]
  simp only [bind, Except.bind, pure, Except.pure, Option.some.injEq]

theorem url_of_error {content : Text} {e : Exception} (h : read_cycle_server_property content webServerContextPath = .error e) :
    url content = .error e := by
  rw [url, h]
  rfl

theorem buildsUrl_iff (content : Text) : BuildsUrl content ↔ PathFound content := by
  have hread := read_eq webServerContextPath (linesOf content)
  unfold BuildsUrl PathFound lookup starting
  cases hstart : (linesOf content).find? fun line => webServerContextPath <+: line with
  | none =>
    rw [hstart] at hread
    rw [url_of_none hread]
    cases hkey : (linesOf content).find? (hasKey webServerContextPath) with
    | none => simp [contextPath]
    | some line' =>
      rw [Option.map_some, Except.ok.injEq, List.append_cancel_left_eq, eq_comm]
      exact contextPath_eq_none_iff
  | some line =>
    rw [hstart] at hread
    dsimp only at hread
    split at hread
    · rename_i hmem
      rw [url_of_some hread]
      cases hkey : (linesOf content).find? (hasKey webServerContextPath) with
      | none => simp [hmem, contextPath]
      | some line' =>
        by_cases hline : line = line'
        · subst hline
          simp [contextPath_field_eq_iff]
        · simp [hmem, hline]
    · rename_i hmem
      rw [url_of_error hread]
      cases hkey : (linesOf content).find? (hasKey webServerContextPath) with
      | none => simp [hmem]
      | some line' =>
        have hline : line ≠ line' := fun heq => hmem (heq ▸ mem_of_hasKey (List.find?_some hkey))
        simp [hmem, hline]

/-- The requested property is found, and so is the path of the URL. -/
theorem properties_iff (content property : Text) :
    LooksUp content property ∧ BuildsUrl content ↔ Found content property ∧ PathFound content :=
  and_congr (looksUp_iff content property) (buildsUrl_iff content)

/-- In an empty file there is no path, and the URL ends in `None`. -/
theorem not_buildsUrl_empty : ¬ (LooksUp [] webServerContextPath ∧ BuildsUrl []) := by
  rintro ⟨-, hbuilds⟩
  have hurl : url [] = .ok (localhost ++ ['N', 'o', 'n', 'e']) := rfl
  have hnone : localhost ++ ['N', 'o', 'n', 'e'] = localhost := by
    rw [BuildsUrl, hurl] at hbuilds
    exact Except.ok.inj hbuilds
  simp at hnone

end AzHop.PropertyFile
