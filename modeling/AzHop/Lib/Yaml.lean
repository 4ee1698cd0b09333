import AzHop.Lib.Split
import Mathlib.Computability.RegularExpressions
/-!
# Block mappings of YAML

Documents in which a line has a key and either a scalar or, on the lines below
it, further in, a mapping. A scalar stands on its line, plain or in quotes;
the other forms (flow collections, block scalars, anchors, tags, scalars on
several lines) are not read. A plain scalar whose text is that of a number, a
boolean, a time or null is not a string.

`value?_str_iff` says which texts are, written plainly, the string they show.
`assemble_section` and `assemble_leaves` read the lines of a mapping.
-/
namespace Lib.Yaml
open Lib.Split RegularExpression

abbrev Text := List Char

/-! ## Types of plain scalars -/

abbrev Re := RegularExpression Char

/-- One of these characters. -/
def oneOf (cs : Text) : Re := (cs.map char).foldr (· + ·) 0

/-- This word. -/
def word (w : Text) : Re := (w.map char).foldr (· * ·) 1

/-- One of these words. -/
def words (ws : List Text) : Re := (ws.map word).foldr (· + ·) 0

/-- `?`. -/
def opt (r : Re) : Re := 1 + r

/-- `+`. -/
def more (r : Re) : Re := r * star r

def digit : Re := oneOf ['0', '1', '2', '3', '4', '5', '6', '7', '8', '9']

def digit_ : Re := digit + char '_'

def sign : Re := oneOf ['+', '-']

def bool : Re :=
  words
    [['y', 'e', 's'], ['Y', 'e', 's'], ['Y', 'E', 'S'], ['n', 'o'], ['N', 'o'], ['N', 'O'], ['t', 'r', 'u', 'e'],
     ['T', 'r', 'u', 'e'], ['T', 'R', 'U', 'E'], ['f', 'a', 'l', 's', 'e'], ['F', 'a', 'l', 's', 'e'],
     ['F', 'A', 'L', 'S', 'E'], ['o', 'n'], ['O', 'n'], ['O', 'N'], ['o', 'f', 'f'], ['O', 'f', 'f'],
     ['O', 'F', 'F']]

def null : Re := words [['~'], ['n', 'u', 'l', 'l'], ['N', 'u', 'l', 'l'], ['N', 'U', 'L', 'L'], []]

def nonzero : Re := oneOf ['1', '2', '3', '4', '5', '6', '7', '8', '9']

def hexDigit : Re := digit_ + oneOf ['a', 'b', 'c', 'd', 'e', 'f', 'A', 'B', 'C', 'D', 'E', 'F']

/-- Digits to the base 60. -/
def sexagesimal : Re := more (char ':' * opt (oneOf ['0', '1', '2', '3', '4', '5']) * digit)

def int : Re :=
  opt sign * word ['0', 'b'] * more (oneOf ['0', '1', '_']) +
  opt sign * char '0' * more (oneOf ['0', '1', '2', '3', '4', '5', '6', '7', '_']) +
  opt sign * (char '0' + nonzero * star digit_) +
  opt sign * word ['0', 'x'] * more hexDigit +
  opt sign * nonzero * star digit_ * sexagesimal

def exponent : Re := oneOf ['e', 'E'] * sign * more digit

def float : Re :=
  opt sign * digit * star digit_ * char '.' * star digit_ * opt exponent +
  char '.' * digit * star digit_ * opt exponent +
  opt sign * digit * star digit_ * sexagesimal * char '.' * star digit_ +
  opt sign * char '.' * words [['i', 'n', 'f'], ['I', 'n', 'f'], ['I', 'N', 'F']] +
  char '.' * words [['n', 'a', 'n'], ['N', 'a', 'N'], ['N', 'A', 'N']]

def blank : Re := oneOf [' ', '\t']

def timestamp : Re :=
  digit * digit * digit * digit * char '-' * digit * digit * char '-' * digit * digit +
  digit * digit * digit * digit * char '-' * digit * opt digit * char '-' * digit * opt digit *
    (oneOf ['T', 't'] + more blank) * digit * opt digit * char ':' * digit * digit * char ':' * digit * digit *
    opt (char '.' * star digit) *
    opt (star blank * (char 'Z' + sign * digit * opt digit * opt (char ':' * digit * digit)))

/-- Merging and default keys. -/
def special : Re := words [['<', '<'], ['=']]

/-- The plain scalars that are no strings. -/
def implicit : Re := bool + null + int + float + timestamp + special

/-- The text of a plain scalar that is no string. -/
def isTyped (t : Text) : Bool := implicit.rmatch t

/-- The expression matches nothing, as its shape shows. -/
def isDead : Re → Bool
  | .zero => true
  | .plus r s => isDead r && isDead s
  | .comp r s => isDead r || isDead s
  | _ => false

theorem matches_of_isDead {r : Re} (h : isDead r = true) : r.matches' = 0 := by
  induction r with
  | zero => rfl
  | epsilon => cases h
  | char c => cases h
  | star r _ => cases h
  | plus r s ihr ihs =>
    obtain ⟨hr, hs⟩ := Bool.and_eq_true_iff.1 h
    calc (r + s).matches' = r.matches' + s.matches' := rfl
      _ = 0 := by rw [ihr hr, ihs hs, add_zero]
  | comp r s ihr ihs =>
    have hprod : (r * s).matches' = r.matches' * s.matches' := rfl
    rcases Bool.or_eq_true_iff.1 h with hr | hs
    · exact hprod.trans (by rw [ihr hr, zero_mul])
    · exact hprod.trans (by rw [ihs hs, mul_zero])

/-- A path is a string. -/
theorem isTyped_slash (t : Text) : isTyped ('/' :: t) = false := by
  have hdead : isDead (implicit.deriv '/') = true := by decide
  have hnone : t ∉ (implicit.deriv '/').matches' := by
    rw [matches_of_isDead hdead]
    exact Language.notMem_zero t
  rw [isTyped, RegularExpression.rmatch, Bool.eq_false_iff, Ne, RegularExpression.rmatch_iff_matches']
  exact hnone

/-! ## Scalars -/

/-- A string, or the text of a scalar of another type, that of null being empty. -/
inductive Value where
  | str (s : Text)
  | typed (t : Text)
  deriving DecidableEq

def isIndicator (c : Char) : Bool :=
  [',', '[', ']', '{', '}', '#', '&', '*', '!', '|', '>', '\'', '"', '%', '@', '\x60'].contains c

/-- A plain scalar begins here. -/
def begins : Text → Bool
  | [] => false
  | c :: l => if c = '-' ∨ c = '?' ∨ c = ':' then l.head?.any (· ≠ ' ') else c != ' ' && !isIndicator c

/-- Nothing more on the line, or a comment. -/
def isRest (t : Text) : Bool := t = [] || t.head? = some '#'

/-- A plain scalar, up to the blanks at the end of the line or before a
comment; a colon in it does not end a key. -/
def plainBody? : Text → Option Text
  | [] => some []
  | c :: l =>
    if c = ':' ∧ (l = [] ∨ l.head? = some ' ') then none
    else if c = ' ' ∧ isRest (l.dropWhile (· = ' ')) then some []
    else (plainBody? l).map (c :: ·)

/-- After the opening quote: the text, and what follows the closing quote. -/
def single? : Text → Option (Text × Text)
  | '\'' :: '\'' :: l => (single? l).map fun r => ('\'' :: r.1, r.2)
  | '\'' :: l => some ([], l)
  | c :: l => (single? l).map fun r => (c :: r.1, r.2)
  | [] => none

/-- Escapes by a number are not read. -/
def escape? : Char → Option Char
  | '0' => some '\x00'
  | 'a' => some '\x07'
  | 'b' => some '\x08'
  | 't' => some '\t'
  | 'n' => some '\n'
  | 'v' => some '\x0b'
  | 'f' => some '\x0c'
  | 'r' => some '\r'
  | 'e' => some '\x1b'
  | ' ' => some ' '
  | '"' => some '"'
  | '/' => some '/'
  | '\\' => some '\\'
  | 'N' => some '\u0085'
  | '_' => some '\u00a0'
  | 'L' => some '\u2028'
  | 'P' => some '\u2029'
  | _ => none

def double? : Text → Option (Text × Text)
  | '"' :: l => some ([], l)
  | '\\' :: c :: l => (escape? c).bind fun z => (double? l).map fun r => (z :: r.1, r.2)
  | c :: l => (double? l).map fun r => (c :: r.1, r.2)
  | [] => none

/-- A comment stands after a blank. -/
def ends (rest : Text) : Bool := rest = [] || (rest.head? = some ' ' && isRest (rest.dropWhile (· = ' ')))

def quoted? (r : Option (Text × Text)) : Option (Option Value) :=
  r.bind fun r => if ends r.2 then some (some (.str r.1)) else none

/-- What follows the blanks after a colon, if anything. -/
def scalar? (s : Text) : Option (Option Value) :=
  if isRest s then some none
  else match s with
    | '"' :: l => quoted? (double? l)
    | '\'' :: l => quoted? (single? l)
    | _ => if begins s then (plainBody? s).map fun t => some (if isTyped t then .typed t else .str t) else none

/-- What follows a colon. -/
def value? : Text → Option (Option Value)
  | [] => some none
  | ' ' :: t => scalar? (t.dropWhile (· = ' '))
  | _ => none

/-! ## Lines -/

/-- A line with a key. -/
structure Line where
  indent : Nat
  key : Text
  value : Option Value

/-- The keys that are read here. -/
def isKey (key : Text) : Bool := !key.isEmpty && key.all fun c => c.isAlphanum || c == '_'

/-- A line, by its indentation and its colon. -/
def line? (t : Text) : Option Line :=
  let body := t.dropWhile (· = ' ')
  let key := body.takeWhile (· ≠ ':')
  match body.drop key.length with
  | ':' :: v => if isKey key then (value? v).map fun value => ⟨t.length - body.length, key, value⟩ else none
  | _ => none

/-- The path of keys to a scalar, and its value. -/
abbrev Entry := List Text × Value

/-- The entries on the lines of a document. A mapping that is open has the
column of its keys and the path to it, the innermost one first. -/
def assemble : List (Nat × List Text) → List Line → Option (List Entry)
  | _, [] => some []
  | frames, line :: rest =>
    match frames.dropWhile (fun f => line.indent < f.1) with
    | [] => none
    | (column, path) :: outer =>
      if column ≠ line.indent then none
      else match line.value, rest with
        | none, below :: _ =>
          if line.indent < below.indent then
            assemble ((below.indent, path ++ [line.key]) :: (column, path) :: outer) rest
          else (assemble ((column, path) :: outer) rest).map ((path ++ [line.key], .typed []) :: ·)
        | value, _ =>
          (assemble ((column, path) :: outer) rest).map ((path ++ [line.key], value.getD (.typed [])) :: ·)

/-- The scalars of a text and where they stand. -/
def document? (text : Text) : Option (List Entry) :=
  (((text.splitOn '\n').filter (· ≠ [])).mapM line?).bind (assemble [(0, [])])

/-! ## Texts that show themselves -/

/-- The text is written plainly as it is. -/
structure Plain (p : Text) : Prop where
  start : begins p = true
  colon : ∀ a b, p = a ++ ':' :: b → b ≠ [] ∧ b.head? ≠ some ' '
  blank : ∀ a b, p = a ++ ' ' :: b → isRest b = false
  string : isTyped p = false

theorem forall_append_cons_iff {x s : Char} {l : Text} {Q : Text → Prop} :
    (∀ a b, x :: l = a ++ s :: b → Q b) ↔ (x = s → Q l) ∧ ∀ a b, l = a ++ s :: b → Q b := by
  constructor
  · intro h
    refine ⟨?_, fun a b hl => h (x :: a) b (congrArg (x :: ·) hl)⟩
    rintro rfl
    exact h [] l rfl
  · rintro ⟨hhead, htail⟩ a b heq
    cases a with
    | nil =>
      obtain ⟨hx, rfl⟩ := List.cons.inj heq
      exact hhead hx
    | cons y a => exact htail a b (List.cons.inj heq).2

/-- The last of the blanks before a comment stands right before it. -/
theorem isRest_of_dropWhile {l : Text} (hl : ∀ a b, l = a ++ ' ' :: b → isRest b = false)
    (h : isRest (l.dropWhile (· = ' ')) = true) : isRest l = true := by
  induction l with
  | nil => rfl
  | cons c l ih =>
    rw [List.dropWhile_cons] at h
    split at h
    · rename_i hc
      obtain ⟨hhead, htail⟩ := forall_append_cons_iff.1 hl
      have hrest := hhead (of_decide_eq_true hc)
      rw [ih htail h] at hrest
      cases hrest
    · exact h

theorem prefix_plainBody? {s t : Text} (h : plainBody? s = some t) : t <+: s := by
  induction s generalizing t with
  | nil =>
    obtain rfl := Option.some.inj h
    exact List.prefix_refl _
  | cons c l ih =>
    unfold plainBody? at h
    split at h
    · cases h
    · split at h
      · obtain rfl := Option.some.inj h
        exact List.nil_prefix
      · obtain ⟨t, ht, rfl⟩ := Option.map_eq_some_iff.1 h
        exact List.cons_prefix_cons.2 ⟨rfl, ih ht⟩

theorem plainBody?_eq_self_iff (p : Text) : plainBody? p = some p ↔
    (∀ a b, p = a ++ ':' :: b → b ≠ [] ∧ b.head? ≠ some ' ') ∧ ∀ a b, p = a ++ ' ' :: b → isRest b = false := by
  induction p with
  | nil => simp [plainBody?]
  | cons c l ih =>
    rw [forall_append_cons_iff, forall_append_cons_iff (Q := fun b => isRest b = false)]
    unfold plainBody?
    split
    -- A colon ends a key.
    · rename_i hcolon
      refine iff_of_false (fun h => by cases h) fun h => ?_
      obtain ⟨hne, hhead⟩ := h.1.1 hcolon.1
      exact hcolon.2.elim hne hhead
    · rename_i hcolon
      have hcolon' : c = ':' → l ≠ [] ∧ l.head? ≠ some ' ' := fun hc => not_or.1 fun h => hcolon ⟨hc, h⟩
      split
      -- The text is cut off at a blank.
      · rename_i hblank
        refine iff_of_false (fun h => by cases h) fun h => ?_
        have hrest := isRest_of_dropWhile h.2.2 hblank.2
        rw [h.2.1 hblank.1] at hrest
        cases hrest
      · rename_i hblank
        have hblank' : c = ' ' → isRest l = false := by
          intro hc
          by_contra hrest
          have hrest : isRest l = true := Bool.not_eq_false _ ▸ hrest
          refine hblank ⟨hc, ?_⟩
          cases l with
          | nil => rfl
          | cons d l =>
            have hd : d = '#' := by simpa [isRest] using hrest
            simp [isRest, hd]
        have hcons : (plainBody? l).map (c :: ·) = some (c :: l) ↔ plainBody? l = some l := by
          rw [Option.map_eq_some_iff]
          constructor
          · rintro ⟨t, ht, heq⟩
            rw [ht, (List.cons.inj heq).2]
          · exact fun h => ⟨l, h, rfl⟩
        rw [hcons, ih]
        exact ⟨fun h => ⟨⟨hcolon', h.1⟩, hblank', h.2⟩, fun h => ⟨h.1.2, h.2.2⟩⟩

theorem length_single? {l : Text} {r : Text × Text} (h : single? l = some r) : r.1.length < l.length := by
  induction hn : l.length using Nat.strongRecOn generalizing l r with
  | ind n ih =>
    subst hn
    unfold single? at h
    split at h
    · obtain ⟨r, hr, rfl⟩ := Option.map_eq_some_iff.1 h
      have hlt := ih _ (by simp only [List.length_cons]; omega) hr rfl
      simp only [List.length_cons]
      omega
    · obtain rfl := Option.some.inj h
      exact Nat.zero_lt_succ _
    · obtain ⟨r, hr, rfl⟩ := Option.map_eq_some_iff.1 h
      have hlt := ih _ (by simp only [List.length_cons]; omega) hr rfl
      simp only [List.length_cons]
      omega
    · cases h

theorem length_double? {l : Text} {r : Text × Text} (h : double? l = some r) : r.1.length < l.length := by
  induction hn : l.length using Nat.strongRecOn generalizing l r with
  | ind n ih =>
    subst hn
    unfold double? at h
    split at h
    · obtain rfl := Option.some.inj h
      exact Nat.zero_lt_succ _
    · obtain ⟨z, -, h⟩ := Option.bind_eq_some_iff.1 h
      obtain ⟨r, hr, rfl⟩ := Option.map_eq_some_iff.1 h
      have hlt := ih _ (by simp only [List.length_cons]; omega) hr rfl
      simp only [List.length_cons]
      omega
    · obtain ⟨r, hr, rfl⟩ := Option.map_eq_some_iff.1 h
      have hlt := ih _ (by simp only [List.length_cons]; omega) hr rfl
      simp only [List.length_cons]
      omega
    · cases h

theorem length_quoted? {r : Option (Text × Text)} {l p : Text} (hr : ∀ s, r = some s → s.1.length < l.length)
    (h : quoted? r = some (some (.str p))) : p.length < l.length := by
  obtain ⟨s, hs, h⟩ := Option.bind_eq_some_iff.1 h
  split at h
  · obtain rfl := Value.str.inj (Option.some.inj (Option.some.inj h))
    exact hr s hs
  · cases h

/-- A string is not longer than what shows it, and as long only when it is
written plainly. -/
theorem length_scalar? {s p : Text} (h : scalar? s = some (some (.str p))) :
    p.length ≤ s.length ∧ (p.length = s.length → s = p ∧ Plain p) := by
  unfold scalar? at h
  split at h
  · cases h
  · split at h
    · have hlt := length_quoted? (fun s hs => length_double? hs) h
      simp only [List.length_cons]
      exact ⟨by omega, fun heq => by omega⟩
    · have hlt := length_quoted? (fun s hs => length_single? hs) h
      simp only [List.length_cons]
      exact ⟨by omega, fun heq => by omega⟩
    · split at h
      · rename_i hbegins
        obtain ⟨t, ht, h⟩ := Option.map_eq_some_iff.1 h
        have h := Option.some.inj h
        split at h
        · cases h
        · rename_i htyped
          obtain rfl := Value.str.inj h
          have hpre := prefix_plainBody? ht
          refine ⟨hpre.length_le, fun heq => ?_⟩
          obtain rfl := hpre.eq_of_length heq
          obtain ⟨hcolon, hblank⟩ := (plainBody?_eq_self_iff _).1 ht
          exact ⟨rfl, hbegins, hcolon, hblank, Bool.eq_false_iff.2 htyped⟩
      · cases h

theorem ne_of_begins {p : Text} (h : begins p = true) :
    isRest p = false ∧ p.head? ≠ some ' ' ∧ p.head? ≠ some '"' ∧ p.head? ≠ some '\'' := by
  cases p with
  | nil => cases h
  | cons c l =>
    have hne : ∀ d, d ∈ ['#', ' ', '"', '\''] → c ≠ d := by
      rintro d hd rfl
      simp only [List.mem_cons, List.not_mem_nil, or_false] at hd
      rcases hd with rfl | rfl | rfl | rfl <;> cases h
    refine ⟨?_, fun hc => ?_, fun hc => ?_, fun hc => ?_⟩
    · simp [isRest, hne '#' (by simp)]
    all_goals exact hne _ (by simp) (Option.some.inj hc)

/-- After a colon and a blank a text is the string it shows just when it is
plain. -/
theorem value?_str_iff (p : Text) : value? (' ' :: p) = some (some (.str p)) ↔ Plain p := by
  change scalar? (p.dropWhile (· = ' ')) = _ ↔ _
  constructor
  · intro h
    -- The blanks that are skipped are missing in the length.
    have hsuffix : p.dropWhile (· = ' ') <:+ p := List.dropWhile_suffix _
    obtain ⟨hle, hplain⟩ := length_scalar? h
    exact (hplain (Nat.le_antisymm hle hsuffix.length_le)).2
  · intro h
    obtain ⟨hrest, hblank, hdouble, hsingle⟩ := ne_of_begins h.start
    have hdrop : p.dropWhile (· = ' ') = p := by
      cases p with
      | nil => rfl
      | cons c l => exact List.dropWhile_cons_of_neg fun hc => hblank (congrArg some (of_decide_eq_true hc))
    have hbody : plainBody? p = some p := (plainBody?_eq_self_iff p).2 ⟨h.colon, h.blank⟩
    unfold scalar?
    rw [hdrop, if_neg (by rw [hrest]; exact Bool.false_ne_true)]
    split
    · exact absurd rfl hdouble
    · exact absurd rfl hsingle
    · rw [if_pos h.start, hbody, Option.map_some, h.string]
      rfl

/-! ## Lines of a document -/

/-- A line as it is written, with what follows the colon. -/
structure Source where
  indent : Nat
  key : Text
  text : Text

/-- The text of a line. -/
def Source.print (l : Source) : Text := List.replicate l.indent ' ' ++ (l.key ++ ':' :: l.text)

/-- The line the text is read as. -/
def Source.read? (l : Source) : Option Line := (value? l.text).map fun value => ⟨l.indent, l.key, value⟩

def print (ls : List Source) : Text := ls.flatMap fun l => l.print ++ ['\n']

structure Source.Legal (l : Source) : Prop where
  key : isKey l.key = true
  line : '\n' ∉ l.text

theorem not_mem_key {key : Text} (h : isKey key = true) {c : Char} (hc : (c.isAlphanum || c == '_') = false) :
    c ∉ key := by
  intro hmem
  have hall := List.all_eq_true.1 (Bool.and_eq_true_iff.1 h).2 c hmem
  rw [hc] at hall
  cases hall

theorem dropWhile_blanks (n : Nat) (l : Text) :
    (List.replicate n ' ' ++ l).dropWhile (· = ' ') = l.dropWhile (· = ' ') := by
  induction n with
  | zero => rfl
  | succ n ih => rw [List.replicate_succ, List.cons_append, List.dropWhile_cons_of_pos (by simp), ih]

theorem line?_print {l : Source} (hkey : isKey l.key = true) : line? l.print = l.read? := by
  obtain ⟨indent, key, text⟩ := l
  have hbody : (List.replicate indent ' ' ++ (key ++ ':' :: text)).dropWhile (· = ' ') = key ++ ':' :: text := by
    rw [dropWhile_blanks]
    cases key with
    | nil => cases hkey
    | cons c key =>
      have hblank : ' ' ≠ c := fun hc => not_mem_key hkey (c := ' ') rfl (hc ▸ List.mem_cons_self)
      exact List.dropWhile_cons_of_neg fun hc => hblank (of_decide_eq_true hc).symm
  have htake : (key ++ ':' :: text).takeWhile (· ≠ ':') = key := takeWhile_append_cons (not_mem_key hkey rfl) text
  have hdrop : (key ++ ':' :: text).drop key.length = ':' :: text := by simp
  have hlength : (List.replicate indent ' ' ++ (key ++ ':' :: text)).length - (key ++ ':' :: text).length = indent := by
    simp only [List.length_append, List.length_replicate]
    omega
  simp only [line?, Source.print, hbody, htake, hdrop, hlength, if_pos hkey]
  rfl

theorem newline_not_mem_print {l : Source} (hl : l.Legal) : '\n' ∉ l.print := by
  have hkey := not_mem_key hl.key (c := '\n') rfl
  have hline := hl.line
  simp [Source.print, hkey, hline]

theorem document?_print {ls : List Source} (h : ∀ l ∈ ls, l.Legal) :
    document? (print ls) = (ls.mapM Source.read?).bind (assemble [(0, [])]) := by
  have hlines : ((print ls).splitOn '\n').filter (· ≠ []) = ls.map Source.print := by
    rw [print, splitOn_lines fun l hl => newline_not_mem_print (h l hl), List.filter_append]
    have hkept : (ls.map Source.print).filter (· ≠ []) = ls.map Source.print := by
      refine List.filter_eq_self.2 fun t ht => ?_
      obtain ⟨l, -, rfl⟩ := List.mem_map.1 ht
      simp [Source.print]
    rw [hkept]
    exact List.append_nil _
  have hread : (ls.map Source.print).mapM line? = ls.mapM Source.read? := by
    clear hlines
    induction ls with
    | nil => rfl
    | cons l ls ih =>
      rw [List.map_cons, List.mapM_cons, List.mapM_cons, line?_print (h l List.mem_cons_self).key,
        ih fun l' hl' => h l' (List.mem_cons_of_mem l hl')]
  rw [document?, hlines, hread]

/-! ## Mappings -/

/-- A mapping ends above a line that is further out. -/
theorem assemble_pop {column : Nat} {path : List Text} {outer : List (Nat × List Text)} {rest : List Line}
    (h : ∀ line ∈ rest.head?, line.indent < column) : assemble ((column, path) :: outer) rest = assemble outer rest := by
  cases rest with
  | nil => rfl
  | cons line rest =>
    have hdrop : ((column, path) :: outer).dropWhile (fun f => line.indent < f.1) =
        outer.dropWhile fun f => line.indent < f.1 := List.dropWhile_cons_of_pos (decide_eq_true (h line rfl))
    rw [assemble, assemble, hdrop]

theorem assemble_leaf {column : Nat} {path : List Text} {outer : List (Nat × List Text)} {key : Text}
    {value : Option Value} {rest : List Line} (h : ∀ line ∈ rest.head?, line.indent ≤ column) :
    assemble ((column, path) :: outer) (⟨column, key, value⟩ :: rest) =
      (assemble ((column, path) :: outer) rest).map ((path ++ [key], value.getD (.typed [])) :: ·) := by
  have hstay : ((column, path) :: outer).dropWhile (fun f => column < f.1) = (column, path) :: outer :=
    List.dropWhile_cons_of_neg (by simp)
  rw [assemble, hstay]
  simp only [ne_eq, not_true_eq_false, if_false]
  split
  · rename_i below rest
    have hle := h below rfl
    rw [if_neg (Nat.not_lt.2 hle)]
    rfl
  · rfl

/-- A line without a value above one that is further in begins a mapping. -/
theorem assemble_open {column : Nat} (path : List Text) (outer : List (Nat × List Text)) (key : Text) {below : Line}
    (rest : List Line) (h : column < below.indent) :
    assemble ((column, path) :: outer) (⟨column, key, none⟩ :: below :: rest) =
      assemble ((below.indent, path ++ [key]) :: (column, path) :: outer) (below :: rest) := by
  have hstay : ((column, path) :: outer).dropWhile (fun f => column < f.1) = (column, path) :: outer :=
    List.dropWhile_cons_of_neg (by simp)
  rw [assemble, hstay]
  simp only [ne_eq, not_true_eq_false, if_false, if_pos h]

/-- The scalars of a mapping, the lines and the entries of which are these. -/
abbrev Leaves := List (Text × Option Value)

/-- The lines of keys with values, indented by `column`. -/
def leafLines (column : Nat) (leaves : Leaves) : List Line := leaves.map fun l => ⟨column, l.1, l.2⟩

/-- What they are read as. -/
def leafEntries (path : List Text) (leaves : Leaves) : List Entry :=
  leaves.map fun l => (path ++ [l.1], l.2.getD (.typed []))

theorem assemble_leaves {column : Nat} (path : List Text) (outer : List (Nat × List Text)) (leaves : Leaves)
    {rest : List Line} (h : ∀ line ∈ rest.head?, line.indent ≤ column) :
    assemble ((column, path) :: outer) (leafLines column leaves ++ rest) =
      (assemble ((column, path) :: outer) rest).map (leafEntries path leaves ++ ·) := by
  induction leaves with
  | nil => exact (Option.map_id' (x := assemble ((column, path) :: outer) rest)).symm
  | cons leaf leaves ih =>
    have hbelow : ∀ line ∈ (leafLines column leaves ++ rest).head?, line.indent ≤ column := by
      cases leaves with
      | nil => exact h
      | cons next leaves =>
        intro line hline
        obtain rfl := Option.some.inj hline
        exact Nat.le_refl _
    change assemble _ (⟨column, leaf.1, leaf.2⟩ :: (leafLines column leaves ++ rest)) = _
    rw [assemble_leaf hbelow, ih]
    cases assemble ((column, path) :: outer) rest <;> rfl

/-- A key, and the mapping on the lines below it. -/
structure Section where
  key : Text
  leaves : Leaves
  nonempty : leaves ≠ []

/-- The lines of a section. -/
def Section.lines (column inner : Nat) (s : Section) : List Line := ⟨column, s.key, none⟩ :: leafLines inner s.leaves

/-- What they are read as. -/
def Section.entries (path : List Text) (s : Section) : List Entry := leafEntries (path ++ [s.key]) s.leaves

theorem assemble_section {column inner : Nat} (hlt : column < inner) (path : List Text) (outer : List (Nat × List Text))
    (s : Section) (rest : List Line) (h : ∀ line ∈ rest.head?, line.indent ≤ column) :
    assemble ((column, path) :: outer) (s.lines column inner ++ rest) =
      (assemble ((column, path) :: outer) rest).map (s.entries path ++ ·) := by
  obtain ⟨key, leaves, hne⟩ := s
  obtain ⟨leaf, leaves, rfl⟩ := List.exists_cons_of_ne_nil hne
  have hinner : ∀ line ∈ rest.head?, line.indent < inner := fun line hline => Nat.lt_of_le_of_lt (h line hline) hlt
  have hbelow : column < (⟨inner, leaf.1, leaf.2⟩ : Line).indent := hlt
  -- Down to the leaves, over them, and up again.
  refine (assemble_open path outer key (leafLines inner leaves ++ rest) hbelow).trans ?_
  have hleaves := assemble_leaves (path ++ [key]) ((column, path) :: outer) (leaf :: leaves)
    fun line hline => Nat.le_of_lt (hinner line hline)
  exact hleaves.trans (by rw [assemble_pop hinner]; rfl)

theorem assemble_sections {column inner : Nat} (hlt : column < inner) (path : List Text)
    (outer : List (Nat × List Text)) (sections : List Section) (rest : List Line)
    (h : ∀ line ∈ rest.head?, line.indent ≤ column) :
    assemble ((column, path) :: outer) (sections.flatMap (Section.lines column inner) ++ rest) =
      (assemble ((column, path) :: outer) rest).map (sections.flatMap (Section.entries path) ++ ·) := by
  induction sections with
  | nil => exact (Option.map_id' (x := assemble ((column, path) :: outer) rest)).symm
  | cons s sections ih =>
    have hbelow : ∀ line ∈ (sections.flatMap (Section.lines column inner) ++ rest).head?, line.indent ≤ column := by
      cases sections with
      | nil => exact h
      | cons next sections =>
        intro line hline
        obtain rfl := Option.some.inj hline
        exact Nat.le_refl _
    rw [List.flatMap_cons, List.append_assoc, assemble_section hlt path outer s _ hbelow, ih]
    cases assemble ((column, path) :: outer) rest with
    | none => rfl
    | some es => exact congrArg some (List.append_assoc _ _ _).symm

end Lib.Yaml
