import AzHop.Lib.Split
/-!
# Calls on literals in Python

The part of Python in which a statement imports a module, or calls a function
on names, string literals on one line and decimal integers. What is outside it
(literals in three quotes, with a prefix or next to each other, operators,
comments, calls in calls) is not read.

`run` reads the characters of a source one by one. A text that stands between
quotes as it is comes back just when it is `plain` (`run_opened_iff`): reading
an escape makes a text shorter.
-/
namespace Lib.Python
open Lib.Split

abbrev Text := List Char

/-- What a line of source consists of. -/
inductive Token where
  | name (s : Text)
  | int (n : Nat)
  | str (s : Text)
  | op (c : Char)
  deriving DecidableEq

/-! ## String literals -/

/-- How far a literal is read: the text so far, and the escape that is begun. -/
inductive Lit where
  | text (s : Text)
  | escape (s : Text)
  | octal (s : Text) (k n : Nat)
  | hex (s : Text) (k n : Nat)

/-- The character for the one after a backslash. -/
def escaped? : Char → Option Char
  | '\\' => some '\\'
  | '\'' => some '\''
  | '"' => some '"'
  | 'a' => some '\x07'
  | 'b' => some '\x08'
  | 'f' => some '\x0c'
  | 'n' => some '\n'
  | 'r' => some '\r'
  | 't' => some '\t'
  | 'v' => some '\x0b'
  | _ => none

/-- The value of an octal digit. -/
def octal? (c : Char) : Option Nat := if '0' ≤ c ∧ c ≤ '7' then some (c.toNat - '0'.toNat) else none

/-- The value of a digit of base 16. -/
def hex? (c : Char) : Option Nat :=
  if c.isDigit then some (c.toNat - '0'.toNat)
  else if 'a' ≤ c ∧ c ≤ 'f' then some (c.toNat - 'a'.toNat + 10)
  else if 'A' ≤ c ∧ c ≤ 'F' then some (c.toNat - 'A'.toNat + 10)
  else none

/-- How many digits an escape has. -/
def hexLength? : Char → Option Nat
  | 'x' => some 2
  | 'u' => some 4
  | 'U' => some 8
  | _ => none

/-- No source has a NUL, and no such literal the end of a line. -/
def breaks (c : Char) : Bool := c == '\n' || c == '\r' || c == '\x00'

/-- A character that is no part of an escape. -/
def Lit.put (s : Text) (c : Char) : Option Lit :=
  if breaks c then none else if c = '\\' then some (.escape s) else some (.text (s ++ [c]))

/-- After a backslash. One that begins no escape is kept; a line that is
continued adds nothing; characters by their names are not read. -/
def Lit.unescape (s : Text) (c : Char) : Option Lit :=
  match escaped? c, octal? c, hexLength? c with
  | some z, _, _ => some (.text (s ++ [z]))
  | none, some d, _ => some (.octal s 1 d)
  | none, none, some k => some (.hex s k 0)
  | none, none, none =>
    if c = '\n' then some (.text s) else if breaks c ∨ c = 'N' then none else some (.text (s ++ ['\\', c]))

/-- One character of a literal. -/
def Lit.step : Lit → Char → Option Lit
  | .text s, c => put s c
  | .escape s, c => unescape s c
  | .octal s k n, c =>
    match octal? c with
    | some d => if k < 3 then some (.octal s (k + 1) (8 * n + d)) else put (s ++ [Char.ofNat n]) c
    | none => put (s ++ [Char.ofNat n]) c
  | .hex s k n, c =>
    match hex? c with
    | some d =>
      if 1 < k then some (.hex s (k - 1) (16 * n + d))
      else if (16 * n + d).isValidChar then some (.text (s ++ [Char.ofNat (16 * n + d)]))
      else none
    | none => none

/-- The text, where a quote ends the literal. -/
def Lit.close? : Lit → Option Text
  | .text s => some s
  | .octal s _ n => some (s ++ [Char.ofNat n])
  | _ => none

/-! ## Tokens -/

/-- What the character before belongs to. -/
inductive Mode where
  | start
  | word (w : Text)
  | number (w : Text)
  | opened (q : Char)
  | closed (q : Char)
  | lit (q : Char) (m : Lit)

/-- The depth is that of the parentheses, in which lines do not end. -/
structure State where
  depth : Nat
  mode : Mode

/-- The characters of names and numbers. -/
def isWord (c : Char) : Bool := c.isAlphanum || c == '_'

/-- The characters that open a literal. -/
def isQuote (c : Char) : Bool := c == '\'' || c == '"'

/-- The operators that are read here. -/
def isOperator (c : Char) : Bool := c == '.' || c == ',' || c == '=' || c == '+' || c == '-'

/-- The first character of a token; within brackets a line may end. -/
def start (depth : Nat) (c : Char) : Option (List Token × State) :=
  if c = ' ' ∨ c = '\t' then some ([], ⟨depth, .start⟩)
  else if c = '\n' then some (if depth = 0 then [.op '\n'] else [], ⟨depth, .start⟩)
  else if isQuote c then some ([], ⟨depth, .opened c⟩)
  else if c = '(' then some ([.op '('], ⟨depth + 1, .start⟩)
  else if c = ')' then if depth = 0 then none else some ([.op ')'], ⟨depth - 1, .start⟩)
  else if isOperator c then some ([.op c], ⟨depth, .start⟩)
  else if c.isDigit then some ([], ⟨depth, .number [c]⟩)
  else if isWord c then some ([], ⟨depth, .word [c]⟩)
  else none

/-- The token that `c` ends, and what `c` begins. -/
def after (t : Token) (depth : Nat) (c : Char) : Option (List Token × State) :=
  (start depth c).map fun r => (t :: r.1, r.2)

/-- A number other than zero does not begin with a zero. -/
def int? (w : Text) : Option Token :=
  if w.head? = some '0' ∧ w.any (· ≠ '0') then none else some (.int (Nat.ofDigitChars 10 w 0))

/-- One character: the tokens it ends, and the state after it. -/
def step : State → Char → Option (List Token × State)
  | ⟨depth, .start⟩, c => start depth c
  | ⟨depth, .word w⟩, c =>
    if isWord c then some ([], ⟨depth, .word (w ++ [c])⟩) else if isQuote c then none else after (.name w) depth c
  | ⟨depth, .number w⟩, c =>
    if c.isDigit then some ([], ⟨depth, .number (w ++ [c])⟩)
    else if isWord c ∨ isQuote c ∨ c = '.' then none
    else (int? w).bind fun t => after t depth c
  | ⟨depth, .opened q⟩, c =>
    if c = q then some ([], ⟨depth, .closed q⟩) else (Lit.put [] c).map fun m => ([], ⟨depth, .lit q m⟩)
  | ⟨depth, .closed q⟩, c => if c = q then none else after (.str []) depth c
  | ⟨depth, .lit q m⟩, c =>
    match if c = q then m.close? else none with
    | some s => some ([.str s], ⟨depth, .start⟩)
    | none => (m.step c).map fun m' => ([], ⟨depth, .lit q m'⟩)

/-- The tokens the end of the source ends. -/
def finish : State → Option (List Token)
  | ⟨0, .start⟩ => some []
  | ⟨0, .word w⟩ => some [.name w]
  | ⟨0, .number w⟩ => (int? w).map fun t => [t]
  | ⟨0, .closed _⟩ => some [.str []]
  | _ => none

/-- All characters from a state on. -/
def run : State → Text → Option (List Token)
  | s, [] => finish s
  | s, c :: l => (step s c).bind fun r => (run r.2 l).map (r.1 ++ ·)

/-- The tokens of a source. -/
def lex (source : Text) : Option (List Token) := run ⟨0, .start⟩ source

/-- Letters, digits and underscores, without a digit in front. -/
def isName : Text → Bool
  | [] => false
  | c :: w => isWord c && !c.isDigit && w.all isWord

/-- A decimal integer as it is written, perhaps with a sign. -/
inductive Sign where
  | none
  | plus
  | minus

/-- A number as a form has it. -/
structure Numeral where
  sign : Sign
  digits : Text
  legal : (!digits.isEmpty && digits.all Char.isDigit) = true

def Sign.text : Sign → Text
  | none => []
  | plus => ['+']
  | minus => ['-']

/-- The number as it is written. -/
def Numeral.text (n : Numeral) : Text := n.sign.text ++ n.digits

/-- The number it stands for. -/
def Numeral.value (n : Numeral) : Int :=
  match n.sign with
  | .minus => -(Nat.ofDigitChars 10 n.digits 0 : Int)
  | _ => (Nat.ofDigitChars 10 n.digits 0 : Int)

/-! ## Statements -/

/-- The expressions that are read here. -/
inductive Expr where
  | str (s : Text)
  | int (n : Int)
  | path (names : List Text)
  deriving DecidableEq

/-- An argument, by its keyword or by its place. -/
structure Arg where
  key : Option Text
  value : Expr
  deriving DecidableEq

/-- A call of a function, by its path. -/
structure Call where
  function : List Text
  args : List Arg
  deriving DecidableEq

/-- The statements that are read here. -/
inductive Stmt where
  | import_as (path name : Text)
  | call (c : Call)
  | assign (first second : Text) (c : Call)
  deriving DecidableEq

/-- Names with dots between them. -/
def path? : List Token → Option (List Text)
  | [.name a] => some [a]
  | .name a :: .op '.' :: ts => (path? ts).map (a :: ·)
  | _ => none

/-- An expression. -/
def expr? : List Token → Option Expr
  | [.str s] => some (.str s)
  | [.int n] => some (.int n)
  | [.op '-', .int n] => some (.int (-n))
  | [.op '+', .int n] => some (.int n)
  | ts => (path? ts).map .path

/-- An argument. -/
def arg? : List Token → Option Arg
  | .name k :: .op '=' :: ts => (expr? ts).map (⟨some k, ·⟩)
  | ts => (expr? ts).map (⟨none, ·⟩)

/-- The arguments between the brackets. -/
def args? (ts : List Token) : Option (List Arg) := if ts = [] then some [] else (ts.splitOn (.op ',')).mapM arg?

/-- The arguments, up to the parenthesis that ends the statement. -/
def close? (ts : List Token) : Option (List Arg) :=
  if .op '(' ∉ ts ∧ ts.getLast? = some (.op ')') then args? ts.dropLast else none

/-- A call. -/
def call? (ts : List Token) : Option Call :=
  let f := ts.takeWhile (· ≠ .op '(')
  (path? f).bind fun function => (close? (ts.drop (f.length + 1))).map fun args => ⟨function, args⟩

def stmt? : List Token → Option Stmt
  | [.name i, .name m, .name s, .name a] =>
    if i = ['i', 'm', 'p', 'o', 'r', 't'] ∧ s = ['a', 's'] then some (.import_as m a) else none
  | .name a :: .op ',' :: .name b :: .op '=' :: ts => (call? ts).map (.assign a b)
  | ts => (call? ts).map .call

/-- The statement a source consists of. -/
def read? (source : Text) : Option Stmt := (lex source).bind stmt?

/-! ## Texts that stand for themselves -/

/-- A backslash before `c` begins an escape, or continues a line. -/
def isEscape (c : Char) : Bool :=
  (escaped? c).isSome || (octal? c).isSome || (hexLength? c).isSome || c == 'N' || breaks c

/-- The text is written between the quotes `q` as it is: it has none of them, no
end of a line and no NUL, and a backslash stands before a character only that
it does not escape. -/
def plain (q : Char) : Text → Bool
  | [] => true
  | c :: l => c != q && !breaks c && (c != '\\' || l.head?.any (!isEscape ·)) && plain q l

theorem plain_cons_iff {q c : Char} {l : Text} : plain q (c :: l) = true ↔
    (c ≠ q ∧ breaks c = false ∧ (c = '\\' → ∃ d ∈ l.head?, isEscape d = false)) ∧ plain q l = true := by
  simp only [plain, Bool.and_eq_true, Bool.or_eq_true, bne_iff_ne, Bool.not_eq_true', Option.any_eq_true, and_assoc,
    Option.mem_def]
  exact and_congr_right fun _ => and_congr_right fun _ => and_congr_left fun _ => (imp_iff_not_or).symm

theorem plain_append {q : Char} {a b : Text} (ha : plain q a = true) (hb : plain q b = true) :
    plain q (a ++ b) = true := by
  induction a with
  | nil => exact hb
  | cons c a ih =>
    obtain ⟨⟨hq, hbreaks, hescape⟩, ha⟩ := plain_cons_iff.1 ha
    refine plain_cons_iff.2 ⟨⟨hq, hbreaks, fun hc => ?_⟩, ih ha⟩
    obtain ⟨d, hd, hnot⟩ := hescape hc
    refine ⟨d, ?_, hnot⟩
    cases a with
    | nil => cases hd
    | cons x a => exact hd

theorem plain_singleton {q c : Char} (hq : c ≠ q) (hbreaks : breaks c = false) (hc : c ≠ '\\') :
    plain q [c] = true := plain_cons_iff.2 ⟨⟨hq, hbreaks, fun h => absurd h hc⟩, rfl⟩

theorem not_isEscape_iff {c : Char} : isEscape c = false ↔
    escaped? c = none ∧ octal? c = none ∧ hexLength? c = none ∧ c ≠ 'N' ∧ breaks c = false := by
  simp only [isEscape, Bool.or_eq_false_iff, Option.isSome_eq_false_iff, Option.isNone_iff_eq_none,
    beq_eq_false_iff_ne, and_assoc]

/-- A quote and a backslash can be escaped. -/
theorem ne_of_not_isEscape {q c : Char} (hq : isQuote q = true) (hc : isEscape c = false) : c ≠ q ∧ c ≠ '\\' := by
  have hescaped := (not_isEscape_iff.1 hc).1
  rcases Bool.or_eq_true_iff.1 hq with hq | hq
  · obtain rfl := beq_iff_eq.1 hq
    constructor <;> rintro rfl <;> cases hescaped
  · obtain rfl := beq_iff_eq.1 hq
    constructor <;> rintro rfl <;> cases hescaped

theorem plain_kept {q c : Char} (hq : isQuote q = true) (hc : isEscape c = false) : plain q ['\\', c] = true := by
  obtain ⟨hne, hslash⟩ := ne_of_not_isEscape hq hc
  refine plain_cons_iff.2 ⟨⟨?_, rfl, fun _ => ⟨c, rfl, hc⟩⟩, plain_singleton hne (not_isEscape_iff.1 hc).2.2.2.2 hslash⟩
  rintro rfl
  cases hq

/-! ## What reading makes of a text -/

/-- Nothing read is longer than what it was read from, and only a plain text is
read as itself. -/
def Tight (q : Char) (raw s : Text) : Prop :=
  s.length ≤ raw.length ∧ (s.length = raw.length → s = raw ∧ plain q raw = true)

theorem tight_of_lt {q : Char} {raw s : Text} (h : s.length < raw.length) : Tight q raw s :=
  ⟨Nat.le_of_lt h, fun heq => absurd heq (Nat.ne_of_lt h)⟩

theorem tight_append {q : Char} {raw s t : Text} (h : Tight q raw s) (ht : plain q t = true) :
    Tight q (raw ++ t) (s ++ t) := by
  simp only [Tight, List.length_append]
  refine ⟨Nat.add_le_add_right h.1 _, fun heq => ?_⟩
  obtain ⟨rfl, hplain⟩ := h.2 (Nat.add_right_cancel heq)
  exact ⟨rfl, plain_append hplain ht⟩

/-- The literal read from `raw`, which did not end it. -/
def ReadFrom (q : Char) (raw : Text) : Lit → Prop
  | .text s => Tight q raw s
  | .escape s => ∃ raw', raw = raw' ++ ['\\'] ∧ Tight q raw' s
  | .octal s _ _ => s.length + 2 ≤ raw.length
  | .hex s _ _ => s.length + 2 ≤ raw.length

theorem readFrom_put {q c : Char} {raw s : Text} {m : Lit} (hs : Tight q raw s) (hq : c ≠ q)
    (h : Lit.put s c = some m) : ReadFrom q (raw ++ [c]) m := by
  unfold Lit.put at h
  split at h
  · cases h
  · rename_i hbreaks
    split at h
    · rename_i hc
      obtain rfl := Option.some.inj h
      exact ⟨raw, by rw [hc], hs⟩
    · rename_i hc
      obtain rfl := Option.some.inj h
      exact tight_append hs (plain_singleton hq (Bool.eq_false_iff.2 hbreaks) hc)

theorem readFrom_unescape {q c : Char} {raw s : Text} {m : Lit} (hquote : isQuote q = true) (hs : Tight q raw s)
    (h : Lit.unescape s c = some m) : ReadFrom q (raw ++ ['\\'] ++ [c]) m := by
  have hle := hs.1
  unfold Lit.unescape at h
  split at h
  · obtain rfl := Option.some.inj h
    exact tight_of_lt (by simp; omega)
  · obtain rfl := Option.some.inj h
    simp only [ReadFrom, List.length_append, List.length_singleton]
    omega
  · obtain rfl := Option.some.inj h
    simp only [ReadFrom, List.length_append, List.length_singleton]
    omega
  · rename_i hescaped hoctal hhex
    split at h
    · obtain rfl := Option.some.inj h
      exact tight_of_lt (by simp; omega)
    · split at h
      · cases h
      · rename_i hother
        obtain ⟨hbreaks, hname⟩ := not_or.1 hother
        obtain rfl := Option.some.inj h
        have hnot : isEscape c = false :=
          not_isEscape_iff.2 ⟨hescaped, hoctal, hhex, hname, Bool.eq_false_iff.2 hbreaks⟩
        rw [List.append_assoc]
        exact tight_append hs (plain_kept hquote hnot)

theorem readFrom_step {q c : Char} {raw : Text} {m m' : Lit} (hquote : isQuote q = true) (hm : ReadFrom q raw m)
    (hq : c = q → m.close? = none) (h : m.step c = some m') : ReadFrom q (raw ++ [c]) m' := by
  cases m with
  | text s =>
    have hne : c ≠ q := fun hc => by cases hq hc
    exact readFrom_put hm hne h
  | escape s =>
    obtain ⟨raw', rfl, hs⟩ := hm
    exact readFrom_unescape hquote hs h
  | octal s k n =>
    have hne : c ≠ q := fun hc => by cases hq hc
    change s.length + 2 ≤ raw.length at hm
    have hput : Lit.put (s ++ [Char.ofNat n]) c = some m' → ReadFrom q (raw ++ [c]) m' :=
      readFrom_put (tight_of_lt (by simp; omega)) hne
    simp only [Lit.step] at h
    split at h
    · split at h
      · obtain rfl := Option.some.inj h
        simp only [ReadFrom, List.length_append]
        omega
      · exact hput h
    · exact hput h
  | hex s k n =>
    change s.length + 2 ≤ raw.length at hm
    simp only [Lit.step] at h
    split at h
    · split at h
      · obtain rfl := Option.some.inj h
        simp only [ReadFrom, List.length_append]
        omega
      · split at h
        · obtain rfl := Option.some.inj h
          exact tight_of_lt (by simp; omega)
        · cases h
    · cases h

/-! ## Reading what stands between quotes -/

/-- What follows a closing quote so that no literal runs over it: the line ends
after a comma, another literal begins, or the source ends. -/
def Seals (q : Char) (rest : Text) : Prop :=
  (∃ l, rest = ',' :: '\n' :: l) ∨ (∃ l, rest = ',' :: ' ' :: q :: l) ∨ rest = [')']

theorem run_cons_eq {s s' : State} {c : Char} {l : Text} {ts : List Token} (h : step s c = some (ts, s')) :
    run s (c :: l) = (run s' l).map (ts ++ ·) := by
  rw [run, h]
  rfl

theorem run_cons_none {s : State} {c : Char} {l : Text} (h : step s c = none) : run s (c :: l) = none := by
  rw [run, h]
  rfl

theorem step_lit_close {depth : Nat} {q : Char} {m : Lit} {s : Text} (h : m.close? = some s) :
    step ⟨depth, .lit q m⟩ q = some ([.str s], ⟨depth, .start⟩) := by
  simp [step, h]

theorem step_lit {depth : Nat} {q c : Char} {m : Lit} (h : c = q → m.close? = none) :
    step ⟨depth, .lit q m⟩ c = (m.step c).map fun m' => ([], ⟨depth, .lit q m'⟩) := by
  have hnone : (if c = q then m.close? else none) = none := by
    split
    · rename_i hc
      exact h hc
    · rfl
  simp only [step, hnone]

theorem run_lit_cons {depth : Nat} {q c : Char} {m : Lit} {l : Text} (h : c = q → m.close? = none) :
    run ⟨depth, .lit q m⟩ (c :: l) = (m.step c).bind fun m' => run ⟨depth, .lit q m'⟩ l := by
  rw [run, step_lit h]
  cases m.step c with
  | none => rfl
  | some m' => exact Option.map_id' (x := run ⟨depth, .lit q m'⟩ l)

theorem isQuote_cases {q : Char} (h : isQuote q = true) : q = '\'' ∨ q = '"' := by
  rcases Bool.or_eq_true_iff.1 h with h | h
  · exact Or.inl (beq_iff_eq.1 h)
  · exact Or.inr (beq_iff_eq.1 h)

theorem unescape_quote {q : Char} (h : isQuote q = true) (s : Text) : Lit.unescape s q = some (.text (s ++ [q])) := by
  rcases isQuote_cases h with rfl | rfl <;> rfl

/-- A literal that goes on after the quote does not end in a backslash. -/
theorem run_sealed {depth : Nat} {q : Char} (hquote : isQuote q = true) {rest : Text} (hrest : Seals q rest)
    {raw s : Text} {T : List Token} : run ⟨depth, .lit q (.text (s ++ [q]))⟩ rest ≠ some (.str (raw ++ ['\\']) :: T) := by
  intro h
  have hcomma : ',' ≠ q := by rintro rfl; cases hquote
  have hblank : ' ' ≠ q := by rintro rfl; cases hquote
  have hparen : ')' ≠ q := by rintro rfl; cases hquote
  have hline : '\n' ≠ q := by rintro rfl; cases hquote
  rcases hrest with ⟨l, rfl⟩ | ⟨l, rfl⟩ | rfl
  -- The line ends within the literal.
  · rw [run_lit_cons (absurd · hcomma)] at h
    change run ⟨depth, .lit q (.text (s ++ [q] ++ [',']))⟩ ('\n' :: l) = _ at h
    rw [run_lit_cons (absurd · hline)] at h
    cases h
  -- The next literal's quote ends it, after a blank.
  · rw [run_lit_cons (absurd · hcomma)] at h
    change run ⟨depth, .lit q (.text (s ++ [q] ++ [',']))⟩ (' ' :: q :: l) = _ at h
    rw [run_lit_cons (absurd · hblank)] at h
    change run ⟨depth, .lit q (.text (s ++ [q] ++ [','] ++ [' ']))⟩ (q :: l) = _ at h
    rw [run_cons_eq (step_lit_close rfl)] at h
    obtain ⟨T', -, hT⟩ := Option.map_eq_some_iff.1 h
    have htext := Token.str.inj (List.cons.inj hT).1
    have hlast := (List.append_inj' htext rfl).2
    cases hlast
  -- The source ends within it.
  · rw [run_lit_cons (absurd · hparen)] at h
    change finish ⟨depth, .lit q (.text (s ++ [q] ++ [')']))⟩ = _ at h
    cases depth <;> cases h

theorem tight_close {q : Char} {raw s : Text} {m : Lit} (hm : ReadFrom q raw m) (h : m.close? = some s) :
    Tight q raw s := by
  cases m with
  | text s =>
    obtain rfl := Option.some.inj h
    exact hm
  | octal s k n =>
    obtain rfl := Option.some.inj h
    change s.length + 2 ≤ raw.length at hm
    exact tight_of_lt (by simp; omega)
  | escape s => cases h
  | hex s k n => cases h

/-- Only a plain text is read as itself. -/
theorem plain_of_run_lit {depth : Nat} {q : Char} (hquote : isQuote q = true) {rest : Text} (hrest : Seals q rest)
    {T : List Token} (v : Text) {raw : Text} {m : Lit} (hm : ReadFrom q raw m)
    (h : run ⟨depth, .lit q m⟩ (v ++ q :: rest) = some (.str (raw ++ v) :: T)) : plain q (raw ++ v) = true := by
  induction v generalizing raw m with
  | nil =>
    rw [List.nil_append] at h
    rw [List.append_nil] at h ⊢
    cases hclose : m.close? with
    | none =>
      rw [run_lit_cons fun _ => hclose] at h
      cases m with
      | text s => cases hclose
      | octal s k n => cases hclose
      -- The text ends in a backslash, which takes the quote.
      | escape s =>
        obtain ⟨raw', rfl, -⟩ := hm
        change ((Lit.unescape s q).bind _) = _ at h
        rw [unescape_quote hquote] at h
        exact absurd h (run_sealed hquote hrest)
      | hex s k n =>
        have hhex : hex? q = none := by rcases isQuote_cases hquote with rfl | rfl <;> rfl
        have hstep : (Lit.hex s k n).step q = none := by simp only [Lit.step, hhex]
        rw [hstep] at h
        cases h
    | some s =>
      rw [run_cons_eq (step_lit_close hclose)] at h
      obtain ⟨T', -, hT⟩ := Option.map_eq_some_iff.1 h
      obtain rfl := Token.str.inj (List.cons.inj hT).1
      exact ((tight_close hm hclose).2 rfl).2
  | cons c v ih =>
    rw [List.cons_append] at h
    -- Either `c` is read into the literal, or it ends it, too early for the whole text.
    by_cases hq : c = q → m.close? = none
    · rw [run_lit_cons hq] at h
      obtain ⟨m', hm', h⟩ := Option.bind_eq_some_iff.1 h
      have hread := readFrom_step hquote hm hq hm'
      rw [List.append_cons raw c v] at h ⊢
      exact ih hread h
    · obtain ⟨rfl, hsome⟩ := Classical.not_imp.1 hq
      obtain ⟨s, hclose⟩ := Option.ne_none_iff_exists'.1 hsome
      rw [run_cons_eq (step_lit_close hclose)] at h
      obtain ⟨T', -, hT⟩ := Option.map_eq_some_iff.1 h
      obtain rfl := Token.str.inj (List.cons.inj hT).1
      have hle := (tight_close hm hclose).1
      rw [List.length_append, List.length_cons] at hle
      omega

/-- A plain text is read as itself. -/
theorem run_lit_plain {depth : Nat} {q : Char} (rest : Text) {v : Text}
    (hv : plain q v = true) (s : Text) :
    run ⟨depth, .lit q (.text s)⟩ (v ++ q :: rest) = (run ⟨depth, .start⟩ rest).map (.str (s ++ v) :: ·) := by
  induction hn : v.length using Nat.strongRecOn generalizing v s with
  | ind n ih =>
    cases v with
    | nil =>
      rw [List.nil_append, run_cons_eq (step_lit_close rfl), List.append_nil]
      rfl
    | cons c v =>
      obtain ⟨⟨hq, hbreaks, hescape⟩, hv⟩ := plain_cons_iff.1 hv
      rw [List.cons_append, run_lit_cons (absurd · hq)]
      -- A backslash is read together with the character after it.
      by_cases hc : c = '\\'
      · obtain ⟨d, hd, hnot⟩ := hescape hc
        cases v with
        | nil => cases hd
        | cons x v =>
          obtain rfl := Option.some.inj hd
          obtain ⟨-, hv⟩ := plain_cons_iff.1 hv
          obtain ⟨hescaped, hoctal, hhex, hname, hbreaks'⟩ := not_isEscape_iff.1 hnot
          have hput : (Lit.text s).step c = some (.escape s) := by
            subst hc
            rfl
          have hline : x ≠ '\n' := by rintro rfl; cases hbreaks'
          have hkept : (Lit.escape s).step x = some (.text (s ++ ['\\', x])) := by
            simp [Lit.step, Lit.unescape, hescaped, hoctal, hhex, hname, hbreaks', hline]
          rw [hput, Option.bind_some, List.cons_append, run_lit_cons fun _ => rfl, hkept, Option.bind_some,
            ih v.length (by rw [← hn, List.length_cons, List.length_cons]; omega) hv _ rfl, hc, List.append_assoc]
          rfl
      · have hput : (Lit.text s).step c = some (.text (s ++ [c])) := by
          simp [Lit.step, Lit.put, hbreaks, hc]
        rw [hput, Option.bind_some, ih v.length (by rw [← hn]; simp) hv _ rfl, List.append_assoc]
        rfl

theorem run_opened_cons {depth : Nat} {q c : Char} {l : Text} (h : c ≠ q) :
    run ⟨depth, .opened q⟩ (c :: l) = run ⟨depth, .lit q (.text [])⟩ (c :: l) := by
  rw [run_lit_cons (absurd · h), run]
  simp only [step, if_neg h]
  change ((Lit.put [] c).map _).bind _ = (Lit.put [] c).bind _
  cases Lit.put [] c with
  | none => rfl
  | some m => exact Option.map_id' (x := run ⟨depth, .lit q m⟩ l)

theorem run_opened_quote (depth : Nat) (q : Char) (l : Text) :
    run ⟨depth, .opened q⟩ (q :: l) = run ⟨depth, .closed q⟩ l := by
  have hstep : step ⟨depth, .opened q⟩ q = some ([], ⟨depth, .closed q⟩) := if_pos rfl
  rw [run_cons_eq hstep]
  exact Option.map_id' (x := run ⟨depth, .closed q⟩ l)

/-- Three quotes begin another kind of literal. -/
theorem run_closed_quote (depth : Nat) (q : Char) (l : Text) : run ⟨depth, .closed q⟩ (q :: l) = none :=
  run_cons_none (if_pos rfl)

theorem run_closed_cons {depth : Nat} {q c : Char} {l : Text} (h : c ≠ q) :
    run ⟨depth, .closed q⟩ (c :: l) = (run ⟨depth, .start⟩ (c :: l)).map (.str [] :: ·) := by
  rw [run, run]
  simp only [step, if_neg h, after]
  cases start depth c with
  | none => rfl
  | some r => simp [Function.comp_def]

/-- Between quotes a text is read as itself just when it is plain. -/
theorem run_opened_iff {depth : Nat} {q : Char} (hquote : isQuote q = true) {rest : Text} (hrest : Seals q rest)
    (v : Text) (T : List Token) : run ⟨depth, .opened q⟩ (v ++ q :: rest) = some (.str v :: T) ↔
      plain q v = true ∧ run ⟨depth, .start⟩ rest = some T := by
  cases v with
  | nil =>
    obtain ⟨c, l, rfl, hc⟩ : ∃ c l, rest = c :: l ∧ c ≠ q := by
      rcases hrest with ⟨l, rfl⟩ | ⟨l, rfl⟩ | rfl
      · exact ⟨',', _, rfl, by rintro rfl; cases hquote⟩
      · exact ⟨',', _, rfl, by rintro rfl; cases hquote⟩
      · exact ⟨')', _, rfl, by rintro rfl; cases hquote⟩
    rw [List.nil_append, run_opened_quote, run_closed_cons hc]
    simp [plain]
  | cons c v =>
    by_cases hc : c = q
    -- A quote at the beginning makes an empty literal or three quotes.
    · subst hc
      refine iff_of_false (fun h => ?_) fun h => (plain_cons_iff.1 h.1).1.1 rfl
      obtain ⟨x, l, hl⟩ : ∃ x l, v ++ c :: rest = x :: l := List.exists_cons_of_ne_nil (by simp)
      rw [List.cons_append, run_opened_quote, hl] at h
      by_cases hx : x = c
      · rw [hx, run_closed_quote] at h
        cases h
      · rw [run_closed_cons hx] at h
        obtain ⟨T', -, hT⟩ := Option.map_eq_some_iff.1 h
        cases Token.str.inj (List.cons.inj hT).1
    · rw [List.cons_append, run_opened_cons hc, ← List.cons_append]
      constructor
      · intro h
        have hstart : ReadFrom q [] (.text []) := ⟨Nat.le_refl _, fun _ => ⟨rfl, rfl⟩⟩
        have hplain := plain_of_run_lit hquote hrest (c :: v) hstart h
        rw [List.nil_append] at hplain
        rw [run_lit_plain rest hplain, List.nil_append] at h
        obtain ⟨T', hT, heq⟩ := Option.map_eq_some_iff.1 h
        exact ⟨hplain, hT.trans (congrArg some (List.cons.inj heq).2)⟩
      · rintro ⟨hplain, hT⟩
        rw [run_lit_plain rest hplain, hT]
        rfl

/-! ## Arguments -/

/-- What stands before the value of an argument. -/
structure Lead (pre : List Token) (key : Option Text) : Prop where
  comma : .op ',' ∉ pre
  paren : .op '(' ∉ pre
  last : pre.getLast? ≠ some (.op ')')
  read : ∀ s, arg? (pre ++ [.str s]) = some ⟨key, .str s⟩
  only : ∀ ts s, arg? (pre ++ ts) = some ⟨key, .str s⟩ → ts = [.str s]

theorem eq_of_expr? {ts : List Token} {s : Text} (h : expr? ts = some (.str s)) : ts = [.str s] := by
  unfold expr? at h
  split at h
  · rw [Expr.str.inj (Option.some.inj h)]
  · cases h
  · cases h
  · cases h
  · obtain ⟨names, -, hpath⟩ := Option.map_eq_some_iff.1 h
    cases hpath

theorem lead_keyword (k : Text) : Lead [.name k, .op '='] (some k) where
  comma := by simp
  paren := by simp
  last := by simp
  read _ := rfl
  only ts s h := by
    obtain ⟨e, he, harg⟩ := Option.map_eq_some_iff.1 h
    obtain rfl := (Arg.mk.inj harg).2
    exact eq_of_expr? he

theorem lead_positional : Lead [] none where
  comma := List.not_mem_nil
  paren := List.not_mem_nil
  last := by simp
  read _ := rfl
  only ts s h := by
    rw [List.nil_append] at h
    unfold arg? at h
    split at h
    · obtain ⟨e, -, harg⟩ := Option.map_eq_some_iff.1 h
      cases (Arg.mk.inj harg).1
    · obtain ⟨e, he, harg⟩ := Option.map_eq_some_iff.1 h
      obtain rfl := (Arg.mk.inj harg).2
      exact eq_of_expr? he

theorem takeWhile_append {pre : List Token} (h : .op ',' ∉ pre) (ts : List Token) :
    (pre ++ ts).takeWhile (· ≠ .op ',') = pre ++ ts.takeWhile (· ≠ .op ',') :=
  List.takeWhile_append_of_pos fun _ ht => decide_eq_true fun heq => h (heq ▸ ht)

/-- A first argument that is a literal begins with its token. -/
theorem str_of_close? {pre : List Token} {key : Option Text} (hpre : Lead pre key) {ts : List Token} {s : Text}
    {args : List Arg} (h : close? (pre ++ ts) = some (⟨key, .str s⟩ :: args)) : ∃ rest, ts = .str s :: rest := by
  unfold close? at h
  split at h
  · rename_i hclose
    have hts : ts ≠ [] := by
      rintro rfl
      rw [List.append_nil] at hclose
      exact hpre.last hclose.2
    rw [List.dropLast_append_of_ne_nil hts] at h
    unfold args? at h
    split at h
    · cases h
    · have hhead := headD_splitOn (.op ',') (pre ++ ts.dropLast)
      obtain ⟨first, pieces, hpieces⟩ := List.exists_cons_of_ne_nil (List.splitOn_ne_nil (.op ',') (pre ++ ts.dropLast))
      rw [hpieces] at h hhead
      rw [List.mapM_cons, Option.bind_eq_bind, Option.bind_eq_some_iff] at h
      obtain ⟨arg, harg, h⟩ := h
      obtain ⟨args', -, hargs⟩ := Option.bind_eq_some_iff.1 h
      obtain ⟨rfl, -⟩ := List.cons.inj (Option.some.inj hargs)
      -- The first argument is what stands before the first comma.
      have hfirst : first = pre ++ ts.dropLast.takeWhile (· ≠ .op ',') := hhead.trans (takeWhile_append hpre.comma _)
      rw [hfirst] at harg
      have hword := hpre.only _ s harg
      cases ts with
      | nil => exact absurd rfl hts
      | cons t ts =>
        cases ts with
        | nil => cases hword
        | cons t' ts =>
          rw [List.dropLast_cons_cons, List.takeWhile_cons] at hword
          split at hword
          · obtain ⟨rfl, -⟩ := List.cons.inj hword
            exact ⟨t' :: ts, rfl⟩
          · cases hword
  · cases h

/-- The arguments after a literal. -/
theorem close?_comma {pre : List Token} {key : Option Text} (hpre : Lead pre key) (ts : List Token) (s : Text)
    (arg : Arg) (args : List Arg) : close? (pre ++ .str s :: .op ',' :: ts) = some (⟨key, .str s⟩ :: arg :: args) ↔
      close? ts = some (arg :: args) := by
  cases ts with
  -- The parenthesis is missing.
  | nil =>
    refine iff_of_false (fun h => ?_) (fun h => by cases h)
    unfold close? at h
    split at h
    · rename_i hclose
      simp at hclose
    · cases h
  | cons t ts =>
    have hlast : (pre ++ .str s :: .op ',' :: t :: ts).getLast? = (t :: ts).getLast? := by
      simp [List.getLast?_append, List.getLast?_cons]
    have hdrop : (pre ++ .str s :: .op ',' :: t :: ts).dropLast = (pre ++ [.str s]) ++ .op ',' :: (t :: ts).dropLast := by
      simp [List.dropLast_append_of_ne_nil]
    have hparen : .op '(' ∉ pre ++ .str s :: .op ',' :: t :: ts ↔ .op '(' ∉ t :: ts := by
      simp [hpre.paren]
    have hcomma : .op ',' ∉ pre ++ [.str s] := by simp [hpre.comma]
    unfold close?
    simp only [hlast, hdrop, hparen]
    split
    · have hargs : args? ((pre ++ [.str s]) ++ .op ',' :: (t :: ts).dropLast) =
          (((t :: ts).dropLast.splitOn (.op ',')).mapM arg?).map (⟨key, .str s⟩ :: ·) := by
        rw [args?, if_neg (by simp), List.splitOn_append_cons_self_of_not_mem hcomma, List.mapM_cons, hpre.read]
        cases ((t :: ts).dropLast.splitOn (.op ',')).mapM arg? <;> rfl
      rw [hargs, args?]
      split
      · rename_i hnil
        rw [hnil]
        refine iff_of_false (fun h => ?_) (fun h => by cases h)
        cases h
      · rw [Option.map_eq_some_iff]
        constructor
        · rintro ⟨l, hl, heq⟩
          rw [hl, (List.cons.inj heq).2]
        · exact fun h => ⟨_, h, rfl⟩
    · exact iff_of_false (fun h => by cases h) (fun h => by cases h)

theorem close?_last {pre : List Token} {key : Option Text} (hpre : Lead pre key) (s : Text) :
    close? (pre ++ [.str s, .op ')']) = some [⟨key, .str s⟩] := by
  have hparen : .op '(' ∉ pre ++ [.str s, .op ')'] := by simp [hpre.paren]
  have hdrop : (pre ++ [Token.str s, Token.op ')']).dropLast = pre ++ [Token.str s] := by simp [List.dropLast_append_of_ne_nil]
  have hcomma : .op ',' ∉ pre ++ [.str s] := by simp [hpre.comma]
  rw [close?, if_pos ⟨hparen, by simp⟩, hdrop, args?, if_neg (by simp), List.splitOn_eq_singleton hcomma,
    List.mapM_cons, hpre.read]
  rfl

/-- The arguments of a call that is read up to its parenthesis. -/
def readArgs? (source : Text) : Option (List Arg) := (run ⟨1, .start⟩ source).bind close?

theorem read_literal_iff {pre : List Token} {key : Option Text} (hpre : Lead pre key) {q : Char}
    (hquote : isQuote q = true) {rest : Text} (hrest : Seals q rest) (v : Text) (args : List Arg) :
    ((run ⟨1, .opened q⟩ (v ++ q :: rest)).bind fun ts => close? (pre ++ ts)) = some (⟨key, .str v⟩ :: args) ↔
      plain q v = true ∧
        ((run ⟨1, .start⟩ rest).bind fun ts => close? (pre ++ .str v :: ts)) = some (⟨key, .str v⟩ :: args) := by
  constructor
  · intro h
    obtain ⟨ts, hrun, hclose⟩ := Option.bind_eq_some_iff.1 h
    obtain ⟨ts, rfl⟩ := str_of_close? hpre hclose
    obtain ⟨hplain, hrest⟩ := (run_opened_iff hquote hrest v ts).1 hrun
    exact ⟨hplain, Option.bind_eq_some_iff.2 ⟨ts, hrest, hclose⟩⟩
  · rintro ⟨hplain, h⟩
    obtain ⟨ts, hrun, hclose⟩ := Option.bind_eq_some_iff.1 h
    exact Option.bind_eq_some_iff.2 ⟨_, (run_opened_iff hquote hrest v ts).2 ⟨hplain, hrun⟩, hclose⟩

/-- A literal with more arguments behind it. -/
theorem read_literal_comma_iff {pre : List Token} {key : Option Text} (hpre : Lead pre key) {q : Char}
    (hquote : isQuote q = true) {rest source : Text} (hrest : Seals q rest)
    (hcomma : run ⟨1, .start⟩ rest = (run ⟨1, .start⟩ source).map (.op ',' :: ·)) (v : Text) (arg : Arg) (args : List Arg) :
    ((run ⟨1, .opened q⟩ (v ++ q :: rest)).bind fun ts => close? (pre ++ ts)) = some (⟨key, .str v⟩ :: arg :: args) ↔
      plain q v = true ∧ readArgs? source = some (arg :: args) := by
  rw [read_literal_iff hpre hquote hrest, hcomma, readArgs?]
  refine and_congr_right fun _ => ?_
  cases run ⟨1, .start⟩ source with
  | none => exact iff_of_false (fun h => by cases h) (fun h => by cases h)
  | some ts => exact close?_comma hpre ts v arg args

/-! ## Names and numbers -/

theorem run_op {depth : Nat} {c : Char} (l : Text) (h : start depth c = some ([.op c], ⟨depth, .start⟩)) :
    run ⟨depth, .start⟩ (c :: l) = (run ⟨depth, .start⟩ l).map (.op c :: ·) := by
  have hstep : step ⟨depth, .start⟩ c = some ([.op c], ⟨depth, .start⟩) := h
  rw [run_cons_eq hstep]
  rfl

theorem run_blank (depth : Nat) (l : Text) : run ⟨depth, .start⟩ (' ' :: l) = run ⟨depth, .start⟩ l := by
  have hstep : step ⟨depth, .start⟩ ' ' = some ([], ⟨depth, .start⟩) := rfl
  rw [run_cons_eq hstep]
  exact Option.map_id' (x := run ⟨depth, .start⟩ l)

theorem run_blanks (depth n : Nat) (l : Text) :
    run ⟨depth, .start⟩ (List.replicate n ' ' ++ l) = run ⟨depth, .start⟩ l := by
  induction n with
  | zero => rfl
  | succ n ih => rw [List.replicate_succ, List.cons_append, run_blank, ih]

theorem run_word {depth : Nat} {w k : Text} (hk : k.all isWord = true) {c : Char} (hword : isWord c = false)
    (hquote : isQuote c = false) (l : Text) :
    run ⟨depth, .word w⟩ (k ++ c :: l) = (run ⟨depth, .start⟩ (c :: l)).map (.name (w ++ k) :: ·) := by
  induction k generalizing w with
  | nil =>
    have hstep : step ⟨depth, .word w⟩ c = after (.name w) depth c := by simp [step, hword, hquote]
    rw [List.nil_append, List.append_nil, run, run, hstep, after]
    change ((start depth c).map _).bind _ = ((start depth c).bind _).map _
    cases start depth c with
    | none => rfl
    | some r => simp [Function.comp_def]
  | cons x k ih =>
    obtain ⟨hx, hk⟩ := Bool.and_eq_true_iff.1 hk
    have hstep : step ⟨depth, .word w⟩ x = some ([], ⟨depth, .word (w ++ [x])⟩) := by simp [step, hx]
    rw [List.cons_append, run_cons_eq hstep, ih hk, List.append_assoc]
    exact Option.map_id' (x := (run ⟨depth, .start⟩ (c :: l)).map _)

/-- Digits, letters and the underscore have no other meaning. -/
theorem start_of_isWord {c : Char} (depth : Nat) (hword : isWord c = true) :
    start depth c = some ([], ⟨depth, if c.isDigit then .number [c] else .word [c]⟩) := by
  have hne : ∀ d, isWord d = false → c ≠ d := by
    rintro d hd rfl
    rw [hd] at hword
    cases hword
  have hquote : isQuote c = false := by simp [isQuote, hne '\'' rfl, hne '"' rfl]
  have hop : isOperator c = false := by
    simp [isOperator, hne '.' rfl, hne ',' rfl, hne '=' rfl, hne '+' rfl, hne '-' rfl]
  simp only [start, hne ' ' rfl, hne '\t' rfl, hne '\n' rfl, hne '(' rfl, hne ')' rfl, hquote, hop, hword, or_self,
    if_false, if_true, Bool.false_eq_true]
  split <;> rfl

theorem isWord_of_isDigit {c : Char} (h : c.isDigit = true) : isWord c = true := by
  have halphanum : c.isAlphanum = (c.isAlpha || c.isDigit) := rfl
  rw [isWord, halphanum, h, Bool.or_true, Bool.true_or]

theorem run_name {depth : Nat} {k : Text} (hk : isName k = true) {c : Char} (hword : isWord c = false)
    (hquote : isQuote c = false) (l : Text) :
    run ⟨depth, .start⟩ (k ++ c :: l) = (run ⟨depth, .start⟩ (c :: l)).map (.name k :: ·) := by
  cases k with
  | nil => cases hk
  | cons x k =>
    obtain ⟨hx, hk⟩ := Bool.and_eq_true_iff.1 hk
    obtain ⟨hx, hdigit⟩ := Bool.and_eq_true_iff.1 hx
    have hstep : step ⟨depth, .start⟩ x = some ([], ⟨depth, .word [x]⟩) := by
      have hdigit : x.isDigit = false := by simpa using hdigit
      have hstart := start_of_isWord depth hx
      rw [hdigit] at hstart
      exact hstart
    rw [List.cons_append, run_cons_eq hstep, run_word hk hword hquote]
    exact Option.map_id' (x := (run ⟨depth, .start⟩ (c :: l)).map _)

/-- A number up to the parenthesis that ends the statement. -/
theorem run_number {w ds : Text} (hds : ds.all Char.isDigit = true) :
    run ⟨1, .number w⟩ (ds ++ [')']) = (int? (w ++ ds)).map fun t => [t, .op ')'] := by
  induction ds generalizing w with
  | nil =>
    have hstep : step ⟨1, .number w⟩ ')' = (int? w).map fun t => ([t, .op ')'], ⟨0, .start⟩) := by
      change (int? w).bind _ = _
      cases int? w <;> rfl
    rw [List.nil_append, List.append_nil, run, hstep]
    cases int? w <;> rfl
  | cons x ds ih =>
    obtain ⟨hx, hds⟩ := Bool.and_eq_true_iff.1 hds
    have hstep : step ⟨1, .number w⟩ x = some ([], ⟨1, .number (w ++ [x])⟩) := by simp [step, hx]
    rw [List.cons_append, run_cons_eq hstep, ih hds, List.append_assoc]
    exact Option.map_id' (x := (int? (w ++ x :: ds)).map _)

theorem run_digits {ds : Text} (hds : (!ds.isEmpty && ds.all Char.isDigit) = true) :
    run ⟨1, .start⟩ (ds ++ [')']) = (int? ds).map fun t => [t, .op ')'] := by
  obtain ⟨hne, hall⟩ := Bool.and_eq_true_iff.1 hds
  cases ds with
  | nil => cases hne
  | cons x ds =>
    obtain ⟨hx, hall⟩ := Bool.and_eq_true_iff.1 hall
    have hstep : step ⟨1, .start⟩ x = some ([], ⟨1, .number [x]⟩) := by
      have hstart := start_of_isWord 1 (isWord_of_isDigit hx)
      rw [hx] at hstart
      exact hstart
    rw [List.cons_append, run_cons_eq hstep, run_number hall]
    exact Option.map_id' (x := (int? (x :: ds)).map _)

/-- The number is written as Python writes it: without zeros in front. -/
def Numeral.canonical (n : Numeral) : Prop := ¬(n.digits.head? = some '0' ∧ n.digits.any (· ≠ '0'))

def Sign.tokens : Sign → List Token
  | none => []
  | plus => [.op '+']
  | minus => [.op '-']

theorem run_numeral (n : Numeral) :
    run ⟨1, .start⟩ (n.text ++ [')']) = (int? n.digits).map fun t => n.sign.tokens ++ [t, .op ')'] := by
  obtain ⟨sign, digits, hlegal⟩ := n
  have hdigits := run_digits hlegal
  cases sign with
  | none => exact hdigits
  | plus =>
    change run ⟨1, .start⟩ ('+' :: (digits ++ [')'])) = _
    rw [run_op _ rfl, hdigits, Option.map_map]
    rfl
  | minus =>
    change run ⟨1, .start⟩ ('-' :: (digits ++ [')'])) = _
    rw [run_op _ rfl, hdigits, Option.map_map]
    rfl

/-- An integer as the last argument. -/
theorem readArgs?_int_iff {k : Text} (hk : isName k = true) (n : Numeral) :
    readArgs? (k ++ '=' :: (n.text ++ [')'])) = some [⟨some k, .int n.value⟩] ↔ n.canonical := by
  rw [readArgs?, run_name hk rfl rfl, run_op _ rfl, run_numeral, int?]
  split
  · rename_i hzero
    exact iff_of_false (fun h => by cases h) (fun h => h hzero)
  · rename_i hzero
    refine iff_of_true ?_ hzero
    obtain ⟨sign, digits, hlegal⟩ := n
    cases sign <;> rfl

/-! ## Calls -/

/-- A keyword argument with a literal, the next on another line. -/
theorem readArgs?_keyword_iff {k : Text} (hk : isName k = true) {q : Char} (hquote : isQuote q = true) (v : Text)
    (n : Nat) (source : Text) (arg : Arg) (args : List Arg) :
    readArgs? (k ++ '=' :: q :: (v ++ q :: ',' :: '\n' :: (List.replicate n ' ' ++ source))) =
        some (⟨some k, .str v⟩ :: arg :: args) ↔
      plain q v = true ∧ readArgs? source = some (arg :: args) := by
  have hstep : step ⟨1, .start⟩ q = some ([], ⟨1, .opened q⟩) := by rcases isQuote_cases hquote with rfl | rfl <;> rfl
  have hline : step ⟨1, .start⟩ '\n' = some ([], ⟨1, .start⟩) := rfl
  have hcomma : run ⟨1, .start⟩ (',' :: '\n' :: (List.replicate n ' ' ++ source)) =
      (run ⟨1, .start⟩ source).map (.op ',' :: ·) := by
    rw [run_op _ rfl, run_cons_eq hline, run_blanks]
    cases run ⟨1, .start⟩ source <;> rfl
  have hread := read_literal_comma_iff (lead_keyword k) hquote (Or.inl ⟨_, rfl⟩) hcomma v arg args
  rw [← hread, readArgs?, run_name hk rfl rfl, run_op _ rfl, run_cons_eq hstep]
  cases run ⟨1, .opened q⟩ (v ++ q :: ',' :: '\n' :: (List.replicate n ' ' ++ source)) <;> rfl

theorem readArgs?_quote {q : Char} (hquote : isQuote q = true) (source : Text) :
    readArgs? (q :: source) = (run ⟨1, .opened q⟩ source).bind fun ts => close? ([] ++ ts) := by
  have hstep : step ⟨1, .start⟩ q = some ([], ⟨1, .opened q⟩) := by rcases isQuote_cases hquote with rfl | rfl <;> rfl
  rw [readArgs?, run_cons_eq hstep]
  cases run ⟨1, .opened q⟩ source <;> rfl

/-- A literal with another one behind it. -/
theorem readArgs?_positional_iff {q : Char} (hquote : isQuote q = true) (v source : Text) (arg : Arg) (args : List Arg) :
    readArgs? (q :: (v ++ q :: ',' :: ' ' :: q :: source)) = some (⟨none, .str v⟩ :: arg :: args) ↔
      plain q v = true ∧ readArgs? (q :: source) = some (arg :: args) := by
  have hcomma : run ⟨1, .start⟩ (',' :: ' ' :: q :: source) = (run ⟨1, .start⟩ (q :: source)).map (.op ',' :: ·) := by
    rw [run_op _ rfl, run_blank]
  rw [readArgs?_quote hquote]
  exact read_literal_comma_iff lead_positional hquote (Or.inr (Or.inl ⟨_, rfl⟩)) hcomma v arg args

/-- A literal as the last argument. -/
theorem readArgs?_last_iff {q : Char} (hquote : isQuote q = true) (v : Text) :
    readArgs? (q :: (v ++ [q, ')'])) = some [⟨none, .str v⟩] ↔ plain q v = true := by
  have hclose : run ⟨1, .start⟩ [')'] = some [.op ')'] := rfl
  rw [readArgs?_quote hquote, read_literal_iff lead_positional hquote (Or.inr (Or.inr rfl)), hclose]
  exact and_iff_left (close?_last lead_positional v)

theorem call?_path (a b : Text) (ts : List Token) :
    call? (.name a :: .op '.' :: .name b :: .op '(' :: ts) = (close? ts).map fun args => ⟨[a, b], args⟩ := rfl

theorem lex_call {a b : Text} (ha : isName a = true) (hb : isName b = true) (source : Text) :
    lex (a ++ '.' :: (b ++ '(' :: source)) =
      (run ⟨1, .start⟩ source).map ([.name a, .op '.', .name b, .op '('] ++ ·) := by
  have hopen : step ⟨0, .start⟩ '(' = some ([.op '('], ⟨1, .start⟩) := rfl
  rw [lex, run_name ha rfl rfl, run_op _ rfl, run_name hb rfl rfl, run_cons_eq hopen]
  cases run ⟨1, .start⟩ source <;> rfl

/-- A call as a statement. -/
theorem read?_call {a b : Text} (ha : isName a = true) (hb : isName b = true) (source : Text) :
    read? (a ++ '.' :: (b ++ '(' :: source)) = (readArgs? source).map fun args => Stmt.call ⟨[a, b], args⟩ := by
  rw [read?, lex_call ha hb, readArgs?]
  cases run ⟨1, .start⟩ source with
  | none => rfl
  | some ts =>
    change (call? (.name a :: .op '.' :: .name b :: .op '(' :: ts)).map Stmt.call = (close? ts).map _
    rw [call?_path]
    cases close? ts <;> rfl

/-- A call the value of which is unpacked. -/
theorem read?_assign {x y a b : Text} (hx : isName x = true) (hy : isName y = true) (ha : isName a = true)
    (hb : isName b = true) (source : Text) :
    read? (x ++ ',' :: ' ' :: (y ++ ' ' :: '=' :: ' ' :: (a ++ '.' :: (b ++ '(' :: source)))) =
      (readArgs? source).map fun args => Stmt.assign x y ⟨[a, b], args⟩ := by
  have hlex := lex_call ha hb source
  rw [lex] at hlex
  rw [read?, lex, run_name hx rfl rfl, run_op _ rfl, run_blank, run_name hy rfl rfl, run_blank, run_op _ rfl, run_blank,
    hlex, readArgs?]
  cases run ⟨1, .start⟩ source with
  | none => rfl
  | some ts =>
    change (call? (.name a :: .op '.' :: .name b :: .op '(' :: ts)).map (Stmt.assign x y) = (close? ts).map _
    rw [call?_path]
    cases close? ts <;> rfl

end Lib.Python
