import Mathlib.Data.List.Basic
import Mathlib.Data.List.Nodup
/-!
# JSON text

Values, the indented text a pretty printer writes for them, and a reader made
of a lexer (characters to tokens) and a stack machine (tokens to a value), with
a limit on the nesting as `JSON.parse` has one. An object with a key twice
keeps the last value. A number with a fraction or an exponent is kept as it
was written.

`parse_pretty` is the round trip. `rbrace_mem_of_parse` says that a text read
as an object has a closing brace, so a text cut off before it is refused.
-/
namespace Lib.Json

/-- A value of JSON; a number with a fraction or an exponent is kept as it is written. -/
inductive Value
  | null
  | bool (b : Bool)
  | int (n : Int)
  | float (lexeme : List Char)
  | string (s : List Char)
  | array (vs : List Value)
  | object (ms : List (List Char × Value))

/-- The members of an object, in their order. -/
abbrev Members := List (List Char × Value)

/-- `h[k] = v` on an ordered hash. -/
def store : Members → List Char → Value → Members
  | [], k, v => [(k, v)]
  | (k', v') :: ms, k, v => if k' = k then (k, v) :: ms else (k', v') :: store ms k v

/-- `h[k]`: `null` for a key the hash does not have. -/
def fetch : Members → List Char → Value
  | [], _ => .null
  | (k', v) :: ms, k => if k' = k then v else fetch ms k

/-- `h.merge!(other)`. -/
def merge (h other : Members) : Members := other.foldl (fun h m => store h m.1 m.2) h

theorem store_of_not_mem {ms : Members} {k : List Char} (h : k ∉ ms.map Prod.fst) (v : Value) :
    store ms k v = ms ++ [(k, v)] := by
  induction ms with
  | nil => rfl
  | cons m ms ih =>
    simp only [List.map_cons, List.mem_cons, not_or] at h
    have hne : m.1 ≠ k := fun e => h.1 e.symm
    simp [store, hne, ih h.2]

/-! ## Writing -/

/-- The digit for a number below 16. -/
def hexDigit (n : Nat) : Char := n.digitChar

def escapeChar (c : Char) : List Char :=
  if c = '"' then ['\\', '"']
  else if c = '\\' then ['\\', '\\']
  else if c = '\n' then ['\\', 'n']
  else if c = '\r' then ['\\', 'r']
  else if c = '\t' then ['\\', 't']
  else if c = '\x0c' then ['\\', 'f']
  else if c = '\x08' then ['\\', 'b']
  else if c.toNat < 32 then ['\\', 'u', '0', '0', hexDigit (c.toNat / 16), hexDigit (c.toNat % 16)]
  else [c]

/-- The text of a string between its quotes. -/
def escape (s : List Char) : List Char := s.flatMap escapeChar

def quote (s : List Char) : List Char := '"' :: escape s ++ ['"']

/-- An integer as it is printed. -/
def digits : Int → List Char
  | .ofNat n => Nat.toDigits 10 n
  | .negSucc n => '-' :: Nat.toDigits 10 (n + 1)

/-- Two blanks for each level. -/
def indent (d : Nat) : List Char := List.replicate (2 * d) ' '

mutual

def pretty (d : Nat) : Value → List Char
  | .null => "null".toList
  | .bool true => "true".toList
  | .bool false => "false".toList
  | .int n => digits n
  | .float lexeme => lexeme
  | .string s => quote s
  | .array [] => ['[', ']']
  | .array (v :: vs) =>
    ['[', '\n'] ++ indent (d + 1) ++ pretty (d + 1) v ++ prettyItems (d + 1) vs ++ ['\n'] ++ indent d ++ [']']
  | .object [] => ['{', '}']
  | .object ((k, v) :: ms) =>
    ['{', '\n'] ++ indent (d + 1) ++ quote k ++ [':', ' '] ++ pretty (d + 1) v ++ prettyMembers (d + 1) ms ++
      ['\n'] ++ indent d ++ ['}']

/-- The items after the first. -/
def prettyItems (d : Nat) : List Value → List Char
  | [] => []
  | v :: vs => [',', '\n'] ++ indent d ++ pretty d v ++ prettyItems d vs

def prettyMembers (d : Nat) : Members → List Char
  | [] => []
  | (k, v) :: ms => [',', '\n'] ++ indent d ++ quote k ++ [':', ' '] ++ pretty d v ++ prettyMembers d ms

end

/-! ## Reading -/

/-- What the text of a value consists of. -/
inductive Token
  | lbracket | rbracket | lbrace | rbrace | comma | colon
  | string (s : List Char)
  | literal (v : Value)

/-- Digits without a leading zero. -/
def natural? (ds : List Char) : Option Nat :=
  if ds = ['0'] ∨ (ds ≠ [] ∧ ds.head? ≠ some '0' ∧ ds.all Char.isDigit) then some (Nat.ofDigitChars 10 ds 0)
  else none

/-- An integer without superfluous zeros. -/
def int? : List Char → Option Int
  | '-' :: cs => (natural? cs).map (fun n => -(n : Int))
  | cs => (natural? cs).map (fun n => (n : Int))

/-- What stands after the `e`: digits, with a sign or without. -/
def isExponent : List Char → Bool
  | [] => false
  | c :: cs =>
    let ds := if c = '+' ∨ c = '-' then cs else c :: cs
    !ds.isEmpty && ds.all Char.isDigit

/-- What may follow the integer part of a float. -/
def isFraction : List Char → Bool
  | [] => false
  | c :: cs =>
    if c = '.' then
      !(cs.takeWhile Char.isDigit).isEmpty &&
        match cs.dropWhile Char.isDigit with
        | [] => true
        | e :: es => (e = 'e' || e = 'E') && isExponent es
    else (c = 'e' || c = 'E') && isExponent cs

/-- A number with a fraction or an exponent. -/
def isFloat (w : List Char) : Bool :=
  (int? (w.takeWhile (fun c => c.isDigit || c = '-'))).isSome &&
    isFraction (w.dropWhile (fun c => c.isDigit || c = '-'))

/-- A word of the text: a name or a number. -/
def literal? (w : List Char) : Option Value :=
  if w = "null".toList then some .null
  else if w = "true".toList then some (.bool true)
  else if w = "false".toList then some (.bool false)
  else match int? w with
    | some n => some (.int n)
    | none => if isFloat w then some (.float w) else none

/-- The characters of numbers and of `true`, `false` and `null`. -/
def isWord (c : Char) : Bool := c.isAlphanum || c = '-' || c = '+' || c = '.'

/-- Where the lexer is: between tokens, in a word, in a string, after a
backslash in one, or in the digits of a `\u` escape. `high` is the first half
of a surrogate pair whose second half must follow. -/
inductive Mode
  | gap
  | word (w : List Char)
  | text (s : List Char)
  | escaped (s : List Char) (high : Option Nat)
  | hex (s : List Char) (high : Option Nat) (ds : List Nat)
  | surrogate (s : List Char) (high : Nat)

def gap (c : Char) : Option (Mode × List Token) :=
  if c = ' ' ∨ c = '\n' ∨ c = '\t' ∨ c = '\r' then some (.gap, [])
  else if c = '[' then some (.gap, [.lbracket])
  else if c = ']' then some (.gap, [.rbracket])
  else if c = '{' then some (.gap, [.lbrace])
  else if c = '}' then some (.gap, [.rbrace])
  else if c = ',' then some (.gap, [.comma])
  else if c = ':' then some (.gap, [.colon])
  else if c = '"' then some (.text [], [])
  else if isWord c then some (.word [c], [])
  else none

/-- The character for the one after a backslash. -/
def unescape : Char → Option Char
  | '"' => some '"'
  | '\\' => some '\\'
  | '/' => some '/'
  | 'b' => some '\x08'
  | 'f' => some '\x0c'
  | 'n' => some '\n'
  | 'r' => some '\r'
  | 't' => some '\t'
  | _ => none

/-- The value of a digit of base 16. -/
def hexValue (c : Char) : Option Nat :=
  if c.isDigit then some (c.toNat - '0'.toNat)
  else if 'a' ≤ c ∧ c ≤ 'f' then some (c.toNat - 'a'.toNat + 10)
  else if 'A' ≤ c ∧ c ≤ 'F' then some (c.toNat - 'A'.toNat + 10)
  else none

/-- The state after the four digits of a `\u` escape. -/
def codeUnit (s : List Char) (high : Option Nat) (u : Nat) : Option Mode :=
  match high with
  | some h => if 0xDC00 ≤ u ∧ u < 0xE000 then
      some (.text (s ++ [Char.ofNat (0x10000 + (h - 0xD800) * 0x400 + (u - 0xDC00))])) else none
  | none =>
    if 0xD800 ≤ u ∧ u < 0xDC00 then some (.surrogate s u)
    else if 0xDC00 ≤ u ∧ u < 0xE000 then none
    else some (.text (s ++ [Char.ofNat u]))

/-- One character: the mode after it, and the tokens it ends. -/
def lexChar : Mode → Char → Option (Mode × List Token)
  | .gap, c => gap c
  | .word w, c =>
    if isWord c then some (.word (w ++ [c]), [])
    else do
      let v ← literal? w
      let (m, ts) ← gap c
      return (m, .literal v :: ts)
  | .text s, c =>
    if c = '"' then some (.gap, [.string s])
    else if c = '\\' then some (.escaped s none, [])
    else if c.toNat < 32 then none
    else some (.text (s ++ [c]), [])
  | .escaped s high, c =>
    if c = 'u' then some (.hex s high [], [])
    else if high.isSome then none
    else (unescape c).map (fun c => (.text (s ++ [c]), []))
  | .hex s high ds, c => do
    let d ← hexValue c
    if ds.length < 3 then return (.hex s high (ds ++ [d]), [])
    else return (← codeUnit s high ((ds ++ [d]).foldl (fun u d => 16 * u + d) 0), [])
  | .surrogate s high, c => if c = '\\' then some (.escaped s (some high), []) else none

/-- All characters; the text ends outside of a string. -/
def lex : Mode → List Char → Option (List Token)
  | .gap, [] => some []
  | .word w, [] => (literal? w).map (fun v => [.literal v])
  | _, [] => none
  | m, c :: cs => (lexChar m c).bind (fun r => (lex r.1 cs).map (r.2 ++ ·))

/-- What is being built around the value that is read next. -/
inductive Frame
  | array (vs : List Value)
  | object (ms : Members) (key : List Char)

/-- Where the parser is, with what is open around it. -/
inductive State
  | value (k : List Frame)
  | item (k : List Frame)
  | member (ms : Members) (fresh : Bool) (k : List Frame)
  | colon (ms : Members) (key : List Char) (k : List Frame)
  | after (v : Value) (k : List Frame)

/-- The first token of a value. -/
def begin_value (limit : Nat) (k : List Frame) : Token → Option State
  | .literal v => some (.after v k)
  | .string s => some (.after (.string s) k)
  | .lbracket => if k.length < limit then some (.item k) else none
  | .lbrace => if k.length < limit then some (.member [] true k) else none
  | _ => none

/-- One token. -/
def step (limit : Nat) : State → Token → Option State
  | .value k, t => begin_value limit k t
  | .item k, .rbracket => some (.after (.array []) k)
  | .item k, t => begin_value limit (.array [] :: k) t
  | .member ms _ k, .string key => some (.colon ms key k)
  | .member _ true k, .rbrace => some (.after (.object []) k)
  | .colon ms key k, .colon => some (.value (.object ms key :: k))
  | .after v (.array vs :: k), .comma => some (.value (.array (vs ++ [v]) :: k))
  | .after v (.array vs :: k), .rbracket => some (.after (.array (vs ++ [v])) k)
  | .after v (.object ms key :: k), .comma => some (.member (store ms key v) false k)
  | .after v (.object ms key :: k), .rbrace => some (.after (.object (store ms key v)) k)
  | _, _ => none

/-- The value, when nothing is open. -/
def finished : State → Option Value
  | .after v [] => some v
  | _ => none

/-- `JSON.parse(text, max_nesting: limit)`. -/
def parse (limit : Nat) (text : List Char) : Option Value := do
  let ts ← lex .gap text
  let s ← ts.foldlM (step limit) (.value [])
  finished s

/-! ## The lexer on written text -/

/-- A text that a word can be followed by. -/
def Delimited (rest : List Char) : Prop := ∀ c cs, rest = c :: cs → isWord c = false

theorem lex_cons (m : Mode) (c : Char) (cs : List Char) :
    lex m (c :: cs) = (lexChar m c).bind (fun r => (lex r.1 cs).map (r.2 ++ ·)) := by
  cases m <;> rfl

theorem lex_word {w rest : List Char} {v : Value} (hw : literal? w = some v) (hrest : Delimited rest) :
    lex (.word w) rest = (lex .gap rest).map (.literal v :: ·) := by
  cases rest with
  | nil => simp [lex, hw]
  | cons c cs =>
    have hc : isWord c = false := hrest c cs rfl
    cases hg : gap c with
    | none => simp [lex_cons, lexChar, hc, hw, hg]
    | some r => simp [lex_cons, lexChar, hc, hw, hg, Option.map_map, Function.comp_def]

theorem lex_word_append {u : List Char} (hu : ∀ c ∈ u, isWord c = true) :
    ∀ w rest : List Char, lex (.word w) (u ++ rest) = lex (.word (w ++ u)) rest := by
  induction u with
  | nil => intro w rest; simp
  | cons c u ih =>
    intro w rest
    have hc : isWord c = true := hu c List.mem_cons_self
    have ih := ih (fun d hd => hu d (List.mem_cons_of_mem c hd)) (w ++ [c]) rest
    simp only [List.cons_append, lex_cons, lexChar, hc, if_true, Option.bind_some, ih]
    simp

theorem gap_of_isWord {c : Char} (h : isWord c = true) : gap c = some (.word [c], []) := by
  have hne : ∀ d : Char, isWord d = false → c ≠ d := by
    rintro d hd rfl
    rw [h] at hd
    cases hd
  simp [gap, h, hne ' ' (by decide), hne '\n' (by decide), hne '\t' (by decide), hne '\r' (by decide),
    hne '[' (by decide), hne ']' (by decide), hne '{' (by decide), hne '}' (by decide), hne ',' (by decide),
    hne ':' (by decide), hne '"' (by decide)]

theorem lex_literal {w rest : List Char} {v : Value} (hne : w ≠ []) (hw : ∀ c ∈ w, isWord c = true)
    (hv : literal? w = some v) (hrest : Delimited rest) :
    lex .gap (w ++ rest) = (lex .gap rest).map (.literal v :: ·) := by
  cases w with
  | nil => exact absurd rfl hne
  | cons c u =>
    have hc : gap c = some (.word [c], []) := gap_of_isWord (hw c List.mem_cons_self)
    have hu : lex (.word [c]) (u ++ rest) = lex (.word (c :: u)) rest :=
      lex_word_append (fun d hd => hw d (List.mem_cons_of_mem c hd)) [c] rest
    simp only [List.cons_append, lex_cons, lexChar, hc, Option.bind_some, hu, lex_word hv hrest]
    simp [Function.comp_def]

theorem hexValue_hexDigit : ∀ n, n < 16 → hexValue (hexDigit n) = some n := by decide

theorem codeUnit_of_lt {u : Nat} (h : u < 32) (s : List Char) :
    codeUnit s none u = some (.text (s ++ [Char.ofNat u])) := by
  simp [codeUnit, show ¬ 0xD800 ≤ u by omega, show ¬ 0xDC00 ≤ u by omega]

theorem lex_escapeChar (c : Char) (s rest : List Char) :
    lex (.text s) (escapeChar c ++ rest) = lex (.text (s ++ [c])) rest := by
  unfold escapeChar
  split_ifs with h1 h2 h3 h4 h5 h6 h7 h8
  -- the seven characters with an escape of their own
  iterate 7 (subst c; simp [lex_cons, lexChar, unescape, Function.comp_def])
  · have hhigh : hexValue (hexDigit (c.toNat / 16)) = some (c.toNat / 16) := hexValue_hexDigit _ (by omega)
    have hlow : hexValue (hexDigit (c.toNat % 16)) = some (c.toNat % 16) := hexValue_hexDigit _ (by omega)
    have hzero : hexValue '0' = some 0 := rfl
    have hunit : codeUnit s none (16 * (c.toNat / 16) + c.toNat % 16) = some (.text (s ++ [c])) := by
      rw [Nat.div_add_mod, codeUnit_of_lt h8, Char.ofNat_toNat]
    simp [lex_cons, lexChar, hhigh, hlow, hzero, hunit, Function.comp_def]
  · simp [lex_cons, lexChar, h1, h2, h8]

theorem lex_escape (t : List Char) : ∀ s rest : List Char,
    lex (.text s) (escape t ++ rest) = lex (.text (s ++ t)) rest := by
  induction t with
  | nil => intro s rest; simp [escape]
  | cons c t ih =>
    intro s rest
    have hc : escape (c :: t) = escapeChar c ++ escape t := by simp [escape]
    rw [hc, List.append_assoc, lex_escapeChar, ih, List.append_assoc, List.singleton_append]

theorem lex_quote (s rest : List Char) : lex .gap (quote s ++ rest) = (lex .gap rest).map (.string s :: ·) := by
  have hs : lex (.text []) (escape s ++ '"' :: rest) = lex (.text s) ('"' :: rest) := lex_escape s [] _
  simp only [quote, List.cons_append, List.append_assoc, List.nil_append, lex_cons (m := .gap), lexChar]
  simp [gap, hs, lex_cons, lexChar, Function.comp_def]

theorem isWord_of_isDigit {c : Char} (h : c.isDigit = true) : isWord c = true := by
  simp [isWord, Char.isAlphanum, h]

theorem isDigit_toDigits {n : Nat} {c : Char} (h : c ∈ Nat.toDigits 10 n) : c.isDigit = true :=
  Nat.isDigit_of_mem_toDigits (by decide) (by decide) h

theorem isWord_digits (n : Int) : ∀ c ∈ digits n, isWord c = true := by
  intro c hc
  cases n with
  | ofNat n => exact isWord_of_isDigit (isDigit_toDigits hc)
  | negSucc n =>
    rcases List.mem_cons.1 hc with rfl | hc
    · rfl
    · exact isWord_of_isDigit (isDigit_toDigits hc)

theorem digits_ne_nil (n : Int) : digits n ≠ [] := by
  cases n with
  | ofNat n => exact Nat.toDigits_ne_nil
  | negSucc n => simp [digits]

theorem digitChar_ne_zero {d : Nat} (h : d < 10) (h0 : d ≠ 0) : d.digitChar ≠ '0' := by
  match d, h with
  | 0, _ => exact absurd rfl h0
  | 1, _ | 2, _ | 3, _ | 4, _ | 5, _ | 6, _ | 7, _ | 8, _ | 9, _ => exact of_decide_eq_false rfl

theorem head_toDigits {n : Nat} (h : n ≠ 0) : (Nat.toDigits 10 n).head? ≠ some '0' := by
  induction n using Nat.strongRecOn with
  | ind n ih =>
    rw [Nat.toDigits_eq_if (by decide)]
    split
    · rename_i hlt
      simpa using digitChar_ne_zero hlt h
    · rw [List.head?_append_of_ne_nil _ Nat.toDigits_ne_nil]
      exact ih (n / 10) (by omega) (by omega)

theorem natural?_toDigits (n : Nat) : natural? (Nat.toDigits 10 n) = some n := by
  by_cases h0 : n = 0
  · subst h0
    rfl
  · have hall : (Nat.toDigits 10 n).all Char.isDigit = true :=
      List.all_eq_true.2 (fun _ => isDigit_toDigits)
    unfold natural?
    rw [if_pos (Or.inr ⟨Nat.toDigits_ne_nil, head_toDigits h0, hall⟩), Nat.ofDigitChars_ten_toDigits]

theorem int?_digits (n : Int) : int? (digits n) = some n := by
  cases n with
  | ofNat n =>
    have hhead : ∀ cs, Nat.toDigits 10 n ≠ '-' :: cs := by
      intro cs hcs
      have := isDigit_toDigits (n := n) (c := '-') (by simp [hcs])
      cases this
    have hdig : digits (Int.ofNat n) = Nat.toDigits 10 n := rfl
    rw [hdig]
    unfold int?
    split
    · exact absurd ‹_› (hhead _)
    · simp [natural?_toDigits]
  | negSucc n =>
    simp only [digits, int?, natural?_toDigits]
    rfl

theorem literal?_digits (n : Int) : literal? (digits n) = some (.int n) := by
  have hname : ∀ w, int? w = none → digits n ≠ w := by
    rintro w hw rfl
    rw [int?_digits] at hw
    cases hw
  unfold literal?
  rw [if_neg (hname _ rfl), if_neg (hname _ rfl), if_neg (hname _ rfl), int?_digits]

/-! ## The round trip -/

mutual

/-- The tokens of a value as it is printed. -/
def tokens : Value → List Token
  | .array [] => [.lbracket, .rbracket]
  | .array (v :: vs) => .lbracket :: tokens v ++ tokensItems vs ++ [.rbracket]
  | .object [] => [.lbrace, .rbrace]
  | .object ((k, v) :: ms) => [.lbrace, .string k, .colon] ++ tokens v ++ tokensMembers ms ++ [.rbrace]
  | .string s => [.string s]
  | v => [.literal v]

/-- Those of the items after the first. -/
def tokensItems : List Value → List Token
  | [] => []
  | v :: vs => .comma :: tokens v ++ tokensItems vs

/-- Those of the members after the first. -/
def tokensMembers : Members → List Token
  | [] => []
  | (k, v) :: ms => [.comma, .string k, .colon] ++ tokens v ++ tokensMembers ms

end

mutual

/-- A value that is read back under the limit: objects have every key once,
and a float is the text of one. -/
def Readable : Nat → Value → Prop
  | _, .float w => w ≠ [] ∧ (∀ c ∈ w, isWord c = true) ∧ literal? w = some (.float w)
  | 0, .array _ => False
  | n + 1, .array vs => ReadableItems n vs
  | 0, .object _ => False
  | n + 1, .object ms => (ms.map Prod.fst).Nodup ∧ ReadableMembers n ms
  | _, _ => True

def ReadableItems (n : Nat) : List Value → Prop
  | [] => True
  | v :: vs => Readable n v ∧ ReadableItems n vs

def ReadableMembers (n : Nat) : Members → Prop
  | [] => True
  | (_, v) :: ms => Readable n v ∧ ReadableMembers n ms

end

mutual

/-- Every float is the text of one. -/
def Spelled : Value → Prop
  | .float w => w ≠ [] ∧ (∀ c ∈ w, isWord c = true) ∧ literal? w = some (.float w)
  | .array vs => SpelledItems vs
  | .object ms => SpelledMembers ms
  | _ => True

def SpelledItems : List Value → Prop
  | [] => True
  | v :: vs => Spelled v ∧ SpelledItems vs

def SpelledMembers : Members → Prop
  | [] => True
  | (_, v) :: ms => Spelled v ∧ SpelledMembers ms

end

mutual

/-- How deep arrays and objects stand in one another. -/
def depth : Value → Nat
  | .array vs => depthItems vs + 1
  | .object ms => depthMembers ms + 1
  | _ => 0

def depthItems : List Value → Nat
  | [] => 0
  | v :: vs => max (depth v) (depthItems vs)

def depthMembers : Members → Nat
  | [] => 0
  | (_, v) :: ms => max (depth v) (depthMembers ms)

end

mutual

/-- The value with every key once, which has the last of its values. -/
def dedup : Value → Value
  | .array vs => .array (dedupItems vs)
  | .object ms => .object (dedupMembers [] ms)
  | v => v

def dedupItems : List Value → List Value
  | [] => []
  | v :: vs => dedup v :: dedupItems vs

/-- The members stored one after the other. -/
def dedupMembers (acc : Members) : Members → Members
  | [] => acc
  | (k, v) :: ms => dedupMembers (store acc k (dedup v)) ms

end

theorem delimited_cons {c : Char} (h : isWord c = false) (cs : List Char) : Delimited (c :: cs) := by
  intro d ds hd
  obtain ⟨rfl, -⟩ := List.cons.inj hd
  exact h

/-- A separator between two texts. -/
theorem lex_gap {c : Char} {ts : List Token} (h : gap c = some (.gap, ts)) (rest : List Char) :
    lex .gap (c :: rest) = (lex .gap rest).map (ts ++ ·) := by
  simp [lex_cons, lexChar, h]

theorem lex_indent (d : Nat) (rest : List Char) : lex .gap (indent d ++ rest) = lex .gap rest := by
  have hspace : gap ' ' = some (.gap, []) := rfl
  unfold indent
  induction 2 * d with
  | zero => rfl
  | succ n ih => simp [List.replicate_succ, lex_gap hspace, ih]

theorem delimited_items (d : Nat) (vs : List Value) {rest : List Char} (h : Delimited rest) :
    Delimited (prettyItems d vs ++ rest) := by
  cases vs with
  | nil => exact h
  | cons v vs => exact delimited_cons rfl _

theorem delimited_members (d : Nat) (ms : Members) {rest : List Char} (h : Delimited rest) :
    Delimited (prettyMembers d ms ++ rest) := by
  cases ms with
  | nil => exact h
  | cons m ms => exact delimited_cons rfl _

mutual

theorem lex_pretty : ∀ (d : Nat) (v : Value), Spelled v → ∀ rest, Delimited rest →
    lex .gap (pretty d v ++ rest) = (lex .gap rest).map (tokens v ++ ·)
  | _, .null, _, _, hr => lex_literal (w := "null".toList) (by simp) (by simp [isWord]) rfl hr
  | _, .bool true, _, _, hr => lex_literal (w := "true".toList) (by simp) (by simp [isWord]) rfl hr
  | _, .bool false, _, _, hr => lex_literal (w := "false".toList) (by simp) (by simp [isWord]) rfl hr
  | _, .int m, _, _, hr => lex_literal (digits_ne_nil m) (isWord_digits m) (literal?_digits m) hr
  | _, .float _, h, _, hr => lex_literal h.1 h.2.1 h.2.2 hr
  | _, .string s, _, rest, _ => lex_quote s rest
  | _, .array [], _, rest, _ => by
    simp [pretty, tokens, lex_cons, lexChar, gap, Function.comp_def]
  | d, .array (v :: vs), h, rest, hr => by
    have hv := lex_pretty (d + 1) v h.1
    have hvs := lex_items (d + 1) vs h.2
    simp only [pretty, List.append_assoc, List.cons_append, List.nil_append]
    rw [lex_gap rfl, lex_gap rfl, lex_indent, hv _ (delimited_items _ _ (delimited_cons rfl _)),
      hvs _ (delimited_cons rfl _), lex_gap rfl, lex_indent, lex_gap rfl]
    simp [tokens, Function.comp_def]
  | _, .object [], _, rest, _ => by
    simp [pretty, tokens, lex_cons, lexChar, gap, Function.comp_def]
  | d, .object ((k, v) :: ms), h, rest, hr => by
    have hv := lex_pretty (d + 1) v h.1
    have hvs := lex_members (d + 1) ms h.2
    simp only [pretty, List.append_assoc, List.cons_append, List.nil_append]
    rw [lex_gap rfl, lex_gap rfl, lex_indent, lex_quote, lex_gap rfl, lex_gap rfl,
      hv _ (delimited_members _ _ (delimited_cons rfl _)), hvs _ (delimited_cons rfl _), lex_gap rfl, lex_indent,
      lex_gap rfl]
    simp [tokens, Function.comp_def]

theorem lex_items : ∀ (d : Nat) (vs : List Value), SpelledItems vs → ∀ rest, Delimited rest →
    lex .gap (prettyItems d vs ++ rest) = (lex .gap rest).map (tokensItems vs ++ ·)
  | _, [], _, rest, _ => by simp [prettyItems, tokensItems]
  | d, v :: vs, h, rest, hr => by
    have hv := lex_pretty d v h.1
    have hvs := lex_items d vs h.2
    simp only [prettyItems, List.append_assoc, List.cons_append, List.nil_append]
    rw [lex_gap rfl, lex_gap rfl, lex_indent, hv _ (delimited_items d vs hr), hvs rest hr]
    simp [tokensItems, Function.comp_def]

theorem lex_members : ∀ (d : Nat) (ms : Members), SpelledMembers ms → ∀ rest, Delimited rest →
    lex .gap (prettyMembers d ms ++ rest) = (lex .gap rest).map (tokensMembers ms ++ ·)
  | _, [], _, rest, _ => by simp [prettyMembers, tokensMembers]
  | d, (k, v) :: ms, h, rest, hr => by
    have hv := lex_pretty d v h.1
    have hvs := lex_members d ms h.2
    simp only [prettyMembers, List.append_assoc, List.cons_append, List.nil_append]
    rw [lex_gap rfl, lex_gap rfl, lex_indent, lex_quote, lex_gap rfl, lex_gap rfl,
      hv _ (delimited_members d ms hr), hvs rest hr]
    simp [tokensMembers, Function.comp_def]

end

/-- The machine goes from one state to another over the tokens. -/
def Reads (limit : Nat) (s : State) (ts : List Token) (s' : State) : Prop := ts.foldlM (step limit) s = some s'

theorem Reads.cons {limit : Nat} {s s' s'' : State} {t : Token} {ts : List Token} (h : step limit s t = some s')
    (hts : Reads limit s' ts s'') : Reads limit s (t :: ts) s'' := by
  simpa [Reads, List.foldlM_cons, h] using hts

theorem Reads.append {limit : Nat} {s s' s'' : State} {ts us : List Token} (h : Reads limit s ts s')
    (hus : Reads limit s' us s'') : Reads limit s (ts ++ us) s'' := by
  unfold Reads at h hus ⊢
  rw [List.foldlM_append, h]
  exact hus

/-- No value starts with a closing bracket. -/
theorem reads_item {limit : Nat} {v : Value} {k : List Frame} {s : State}
    (h : Reads limit (.value (.array [] :: k)) (tokens v) s) : Reads limit (.item k) (tokens v) s := by
  cases v with
  | array vs => cases vs <;> exact h
  | object ms => cases ms <;> exact h
  | _ => exact h

mutual

theorem reads_value (limit : Nat) : ∀ (v : Value) (k : List Frame), k.length + depth v ≤ limit →
    Reads limit (.value k) (tokens v) (.after (dedup v) k)
  | .null, _, _ => rfl
  | .bool _, _, _ => rfl
  | .int _, _, _ => rfl
  | .float _, _, _ => rfl
  | .string _, _, _ => rfl
  | .array [], k, hk => by
    rw [depth] at hk
    exact .cons (if_pos (by omega)) (.cons rfl rfl)
  | .array (v :: vs), k, hk => by
    simp only [depth, depthItems] at hk
    have hv := reads_value limit v (.array [] :: k) (by rw [List.length_cons]; omega)
    have hvs := reads_items limit vs (dedup v) [] k (by omega)
    rw [tokens, List.append_assoc]
    exact .cons (if_pos (by omega)) ((reads_item hv).append hvs)
  | .object [], k, hk => by
    rw [depth] at hk
    exact .cons (if_pos (by omega)) (.cons rfl rfl)
  | .object ((key, v) :: ms), k, hk => by
    simp only [depth, depthMembers] at hk
    have hv := reads_value limit v (.object [] key :: k) (by rw [List.length_cons]; omega)
    have hms := reads_members limit ms (dedup v) [] key k (by omega)
    rw [tokens, List.append_assoc]
    exact .cons (if_pos (by omega)) (.cons rfl (.cons rfl (hv.append hms)))

theorem reads_items (limit : Nat) : ∀ (vs : List Value) (v : Value) (acc : List Value) (k : List Frame),
    k.length + 1 + depthItems vs ≤ limit →
      Reads limit (.after v (.array acc :: k)) (tokensItems vs ++ [.rbracket]) (.after (.array (acc ++ v :: dedupItems vs)) k)
  | [], _, _, _, _ => rfl
  | w :: vs, v, acc, k, hk => by
    simp only [depthItems] at hk
    have hw := reads_value limit w (.array (acc ++ [v]) :: k) (by rw [List.length_cons]; omega)
    have hvs := reads_items limit vs (dedup w) (acc ++ [v]) k (by omega)
    rw [List.append_assoc] at hvs
    rw [tokensItems, List.append_assoc]
    exact .cons rfl (hw.append hvs)

theorem reads_members (limit : Nat) : ∀ (ms : Members) (v : Value) (acc : Members) (key : List Char) (k : List Frame),
    k.length + 1 + depthMembers ms ≤ limit →
      Reads limit (.after v (.object acc key :: k)) (tokensMembers ms ++ [.rbrace])
        (.after (.object (dedupMembers (store acc key v) ms)) k)
  | [], _, _, _, _, _ => rfl
  | (key', w) :: ms, v, acc, key, k, hk => by
    simp only [depthMembers] at hk
    have hw := reads_value limit w (.object (store acc key v) key' :: k) (by rw [List.length_cons]; omega)
    have hms := reads_members limit ms (dedup w) (store acc key v) key' k (by omega)
    rw [tokensMembers, List.append_assoc]
    exact .cons rfl (.cons rfl (.cons rfl (hw.append hms)))

end

/-- What was written is read back, up to keys that an object has twice. -/
theorem parse_dedup {limit : Nat} {v : Value} (h : Spelled v) (hdepth : depth v ≤ limit) {rest : List Char}
    (hrest : lex .gap rest = some []) (hd : Delimited rest) : parse limit (pretty 0 v ++ rest) = some (dedup v) := by
  have hlex : lex .gap (pretty 0 v ++ rest) = some (tokens v) := by
    rw [lex_pretty 0 v h rest hd, hrest]
    simp
  have hrun : (tokens v).foldlM (step limit) (.value []) = some (.after (dedup v) []) :=
    reads_value limit v [] (by simpa using hdepth)
  simp [parse, hlex, hrun, finished]

theorem dedupMembers_of_nodup (acc ms : Members) (h : ((acc ++ ms).map Prod.fst).Nodup) :
    dedupMembers acc ms = acc ++ ms.map fun m => (m.1, dedup m.2) := by
  induction ms generalizing acc with
  | nil => simp [dedupMembers]
  | cons m ms ih =>
    obtain ⟨k, v⟩ := m
    have hfresh : k ∉ acc.map Prod.fst := by
      rw [List.map_append, List.map_cons] at h
      exact fun hmem => (List.nodup_append.1 h).2.2 k hmem k List.mem_cons_self rfl
    rw [dedupMembers, store_of_not_mem hfresh, ih _ (by simpa using h)]
    simp

mutual

theorem Readable.parts : ∀ (n : Nat) (v : Value), Readable n v → Spelled v ∧ depth v ≤ n ∧ dedup v = v
  | _, .null, _ => ⟨trivial, Nat.zero_le _, rfl⟩
  | _, .bool _, _ => ⟨trivial, Nat.zero_le _, rfl⟩
  | _, .int _, _ => ⟨trivial, Nat.zero_le _, rfl⟩
  | n, .float _, h => by cases n <;> exact ⟨h, Nat.zero_le _, rfl⟩
  | _, .string _, _ => ⟨trivial, Nat.zero_le _, rfl⟩
  | n + 1, .array vs, h => by
    obtain ⟨hs, hd, hn⟩ := ReadableItems.parts n vs h
    exact ⟨hs, Nat.succ_le_succ hd, by rw [dedup, hn]⟩
  | n + 1, .object ms, h => by
    obtain ⟨hs, hd, hn⟩ := ReadableMembers.parts n ms h.2
    have hsame : ms.map (fun m => (m.1, dedup m.2)) = ms :=
      (List.map_congr_left fun m hm => by rw [hn m hm, id]).trans (List.map_id ms)
    exact ⟨hs, Nat.succ_le_succ hd, by rw [dedup, dedupMembers_of_nodup [] ms h.1, hsame]; rfl⟩

theorem ReadableItems.parts : ∀ (n : Nat) (vs : List Value), ReadableItems n vs →
    SpelledItems vs ∧ depthItems vs ≤ n ∧ dedupItems vs = vs
  | _, [], _ => ⟨trivial, Nat.zero_le _, rfl⟩
  | n, v :: vs, h => by
    obtain ⟨hs, hd, hn⟩ := Readable.parts n v h.1
    obtain ⟨hss, hds, hns⟩ := ReadableItems.parts n vs h.2
    exact ⟨⟨hs, hss⟩, Nat.max_le.2 ⟨hd, hds⟩, by rw [dedupItems, hn, hns]⟩

theorem ReadableMembers.parts : ∀ (n : Nat) (ms : Members), ReadableMembers n ms →
    SpelledMembers ms ∧ depthMembers ms ≤ n ∧ ∀ m ∈ ms, dedup m.2 = m.2
  | _, [], _ => ⟨trivial, Nat.zero_le _, fun _ hm => absurd hm List.not_mem_nil⟩
  | n, (k, v) :: ms, h => by
    obtain ⟨hs, hd, hn⟩ := Readable.parts n v h.1
    obtain ⟨hss, hds, hns⟩ := ReadableMembers.parts n ms h.2
    refine ⟨⟨hs, hss⟩, Nat.max_le.2 ⟨hd, hds⟩, fun m hm => ?_⟩
    rcases List.mem_cons.1 hm with rfl | hm
    · exact hn
    · exact hns m hm

end

/-- What was written is read back. -/
theorem parse_pretty {limit : Nat} {v : Value} (h : Readable limit v) {rest : List Char} (hrest : lex .gap rest = some [])
    (hd : Delimited rest) : parse limit (pretty 0 v ++ rest) = some v := by
  obtain ⟨hs, hdepth, hn⟩ := Readable.parts limit v h
  rw [parse_dedup hs hdepth hrest hd, hn]

/-! ## A text that is cut off -/

/-- A token that closes an object only where the text has a brace, and is
never a whole object. -/
def Token.Honest (brace : Prop) (t : Token) : Prop := (t = .rbrace → brace) ∧ ∀ ms, t ≠ .literal (.object ms)

theorem honest_literal {w : List Char} {v : Value} (h : literal? w = some v) (brace : Prop) :
    (Token.literal v).Honest brace := by
  refine ⟨fun hb => (by cases hb), ?_⟩
  rintro ms hv
  cases hv
  unfold literal? at h
  cases hn : int? w <;> simp only [hn] at h <;> split_ifs at h <;> cases h

theorem honest_gap {c : Char} {r : Mode × List Token} (h : gap c = some r) :
    ∀ t ∈ r.2, t.Honest (c = '}') := by
  have hnone : ∀ m : Mode, some (m, []) = some r → ∀ t ∈ r.2, t.Honest (c = '}') := by
    rintro m heq t ht
    obtain rfl := Option.some.inj heq
    cases ht
  have hone : ∀ t : Token, (t = .rbrace → c = '}') → (∀ v, t ≠ .literal v) → some (Mode.gap, [t]) = some r →
      ∀ t ∈ r.2, t.Honest (c = '}') := by
    intro t hbrace hliteral heq
    obtain rfl := Option.some.inj heq
    exact List.forall_mem_singleton.2 ⟨hbrace, fun ms => hliteral _⟩
  unfold gap at h
  repeat' split at h
  -- A blank, and then each token by its character.
  · exact hnone _ h
  · exact hone _ (fun hb => by cases hb) (fun v hv => by cases hv) h
  · exact hone _ (fun hb => by cases hb) (fun v hv => by cases hv) h
  · exact hone _ (fun hb => by cases hb) (fun v hv => by cases hv) h
  -- The closing brace is the only one for `brace`.
  · rename_i hc
    exact hone _ (fun _ => hc) (fun v hv => by cases hv) h
  · exact hone _ (fun hb => by cases hb) (fun v hv => by cases hv) h
  · exact hone _ (fun hb => by cases hb) (fun v hv => by cases hv) h
  · exact hnone _ h
  · exact hnone _ h
  · cases h

theorem honest_lexChar {m : Mode} {c : Char} {r : Mode × List Token} (h : lexChar m c = some r) :
    ∀ t ∈ r.2, t.Honest (c = '}') := by
  cases m with
  | gap => exact honest_gap h
  | word w =>
    simp only [lexChar] at h
    split_ifs at h
    · cases h
      simp
    · simp only [Option.bind_eq_bind, Option.bind_eq_some_iff] at h
      obtain ⟨v, hv, g, hg, hr⟩ := h
      cases hr
      intro t ht
      rcases List.mem_cons.1 ht with rfl | ht
      · exact honest_literal hv _
      · exact honest_gap hg t ht
  | text s =>
    simp only [lexChar] at h
    split_ifs at h <;> cases h <;> simp [Token.Honest]
  | escaped s high =>
    simp only [lexChar] at h
    split_ifs at h
    · cases h
      simp
    · obtain ⟨d, -, rfl⟩ := Option.map_eq_some_iff.1 h
      simp
  | hex s high ds =>
    simp only [lexChar, Option.bind_eq_bind, Option.bind_eq_some_iff] at h
    obtain ⟨d, -, h⟩ := h
    split_ifs at h
    · cases h
      simp
    · obtain ⟨m, -, hr⟩ := Option.bind_eq_some_iff.1 h
      cases hr
      simp
  | surrogate s high =>
    simp only [lexChar] at h
    split_ifs at h
    cases h
    simp

theorem honest_lex {cs : List Char} : ∀ {m : Mode} {ts : List Token}, lex m cs = some ts →
    ∀ t ∈ ts, t.Honest ('}' ∈ cs) := by
  induction cs with
  | nil =>
    intro m ts h
    cases m with
    | gap =>
      cases h
      simp
    | word w =>
      obtain ⟨v, hv, rfl⟩ := Option.map_eq_some_iff.1 h
      intro t ht
      rw [List.mem_singleton.1 ht]
      exact honest_literal hv _
    | _ => cases h
  | cons c cs ih =>
    intro m ts h
    rw [lex_cons] at h
    obtain ⟨r, hr, h⟩ := Option.bind_eq_some_iff.1 h
    obtain ⟨us, hus, rfl⟩ := Option.map_eq_some_iff.1 h
    intro t ht
    rcases List.mem_append.1 ht with ht | ht
    · obtain ⟨hb, hl⟩ := honest_lexChar hr t ht
      exact ⟨fun e => by simp [hb e], hl⟩
    · obtain ⟨hb, hl⟩ := ih hus t ht
      exact ⟨fun e => List.mem_cons_of_mem c (hb e), hl⟩

theorem begin_value_object {limit : Nat} {t : Token} {ms : Members} {k k' : List Frame}
    (h : begin_value limit k t = some (.after (.object ms) k')) : t = .literal (.object ms) := by
  cases t with
  | literal v =>
    cases h
    rfl
  | lbracket | lbrace =>
    simp only [begin_value] at h
    split_ifs at h
    cases h
  | _ => cases h

/-- An object is complete only after its closing brace. -/
theorem step_object {limit : Nat} {s : State} {t : Token} {ms : Members} {k : List Frame}
    (h : step limit s t = some (.after (.object ms) k)) : t = .rbrace ∨ t = .literal (.object ms) := by
  cases s with
  | value k => exact Or.inr (begin_value_object h)
  | item k =>
    by_cases ht : t = .rbracket
    · subst ht
      cases h
    · exact Or.inr (begin_value_object (by simpa [step, ht] using h))
  | member fields fresh k =>
    cases t with
    | rbrace => exact Or.inl rfl
    | _ => cases h
  | colon fields key k => cases t <;> cases h
  | after v k =>
    -- only the brace ends the object that is being built
    match k with
    | [] => cases t <;> cases h
    | .array vs :: k => cases t <;> cases h
    | .object fields key :: k =>
      cases t with
      | rbrace => exact Or.inl rfl
      | _ => cases h

theorem rbrace_mem_of_parse {limit : Nat} {text : List Char} {ms : Members} (h : parse limit text = some (.object ms)) :
    '}' ∈ text := by
  simp only [parse, Option.bind_eq_bind, Option.bind_eq_some_iff] at h
  obtain ⟨ts, hlex, s, hrun, hs⟩ := h
  have hfinal : s = .after (.object ms) [] := by
    unfold finished at hs
    split at hs <;> simp_all
  subst hfinal
  rcases List.eq_nil_or_concat ts with rfl | ⟨ts, t, rfl⟩
  · cases hrun
  · rw [List.concat_eq_append] at hlex hrun
    rw [List.foldlM_append] at hrun
    obtain ⟨s', -, hstep⟩ := Option.bind_eq_some_iff.1 hrun
    have hstep : step limit s' t = some (.after (.object ms) []) := by simpa using hstep
    obtain ⟨hbrace, hliteral⟩ := honest_lex hlex t (by simp)
    exact (step_object hstep).elim hbrace (fun e => absurd e (hliteral ms))

end Lib.Json
