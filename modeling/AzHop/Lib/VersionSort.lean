import AzHop.Lib.Split
import Mathlib.Data.List.Infix
import Mathlib.Data.List.Sort
/-!
# Version sort

The order of `sort -V`: a line is a sequence of parts, each a text without
digits and a number after it, and lines differ where their parts first do. A
line that has ended goes on with empty parts. File suffixes count only between
lines that are equal without them, and hidden files come first.

`verrevcmp_shape` says where this is the order of the characters: lines that
begin with texts of one shape, digits in the same places and otherwise equal,
are ordered by these texts. `head_sortReverse` says which line comes first.
-/
namespace Lib.VersionSort
open Std

abbrev Text := List Char

/-! ## Lists of unequal length -/

section
variable {α : Type} (cmp : α → α → Ordering) (d : α)

/-- The order of the first difference, where a list that has ended goes on with `d`. -/
def padded (a b : List α) : Ordering :=
  List.compareLex cmp (a.rightpad (max a.length b.length) d) (b.rightpad (max a.length b.length) d)

theorem compareLex_append {a b : List α} (h : a.length = b.length) (s t : List α) :
    List.compareLex cmp (a ++ s) (b ++ t) = (List.compareLex cmp a b).then (List.compareLex cmp s t) := by
  induction a generalizing b with
  | nil =>
    obtain rfl : b = [] := List.length_eq_zero_iff.1 h.symm
    rfl
  | cons x a ih =>
    obtain ⟨y, b, rfl⟩ := List.exists_cons_of_length_eq_add_one h.symm
    rw [List.cons_append, List.cons_append, List.compareLex_cons_cons, List.compareLex_cons_cons, ih (Nat.succ.inj h),
      Ordering.then_assoc]

/-- More of `d` changes nothing. -/
theorem padded_eq [ReflCmp cmp] {a b : List α} {n : Nat} (ha : a.length ≤ n) (hb : b.length ≤ n) :
    padded cmp d a b = List.compareLex cmp (a.rightpad n d) (b.rightpad n d) := by
  have hmore : ∀ l : List α, l.length ≤ max a.length b.length →
      l.rightpad n d = l.rightpad (max a.length b.length) d ++ List.replicate (n - max a.length b.length) d := by
    intro l hl
    rw [List.rightpad, List.rightpad, List.append_assoc, List.replicate_append_replicate]
    congr 2
    omega
  have hlen : (a.rightpad (max a.length b.length) d).length = (b.rightpad (max a.length b.length) d).length := by
    simp only [List.length_rightpad]
    omega
  have hsame : ∀ l : List α, List.compareLex cmp l l = .eq := fun l => ReflCmp.compare_self
  rw [hmore a (Nat.le_max_left _ _), hmore b (Nat.le_max_right _ _), compareLex_append cmp hlen, hsame,
    Ordering.then_eq, padded]

theorem padded_cons (x y : α) (a b : List α) :
    padded cmp d (x :: a) (y :: b) = (cmp x y).then (padded cmp d a b) := by
  have hmax : max (x :: a).length (y :: b).length = max a.length b.length + 1 := by
    simp only [List.length_cons]
    omega
  have hcons : ∀ (z : α) (l : List α) (n : Nat), (z :: l).rightpad (n + 1) d = z :: l.rightpad n d := by
    intro z l n
    simp [List.rightpad]
  rw [padded, hmax, hcons, hcons, List.compareLex_cons_cons, padded]

instance [OrientedCmp cmp] : OrientedCmp (padded cmp d) where
  eq_swap {a b} := by
    rw [padded, padded, Nat.max_comm]
    exact OrientedCmp.eq_swap

instance [TransCmp cmp] : TransCmp (padded cmp d) where
  isLE_trans {a b c} := by
    have ha : a.length ≤ max a.length (max b.length c.length) := by omega
    have hb : b.length ≤ max a.length (max b.length c.length) := by omega
    have hc : c.length ≤ max a.length (max b.length c.length) := by omega
    rw [padded_eq cmp d ha hb, padded_eq cmp d hb hc, padded_eq cmp d ha hc]
    exact TransCmp.isLE_trans

end

/-! ## Lines -/

/-- The weight of a character: letters before the others, `~` before the end. -/
def order (c : Char) : Int :=
  if c.isDigit then 0 else if c.isAlpha then c.toNat else if c = '~' then -1 else c.toNat + 256

/-- A text without digits, and the digits after it. -/
abbrev Part := Text × Text

/-- One more character in front. -/
def consPart (c : Char) : List Part → List Part
  | (ns, ds) :: ps =>
    if c.isDigit then if ns = [] then ([], c :: ds) :: ps else ([], [c]) :: (ns, ds) :: ps else (c :: ns, ds) :: ps
  | [] => if c.isDigit then [([], [c])] else [([c], [])]

/-- The text in pieces: characters that are no digits, and the digits after them. -/
def parts (t : Text) : List Part := t.foldr consPart []

def charCmp (c d : Char) : Ordering := compare c.toNat d.toNat

/-- The order of the values: without the zeros in front, more digits are more. -/
def compareNumbers (a b : Text) : Ordering :=
  (compare (a.dropWhile (· = '0')).length (b.dropWhile (· = '0')).length).then
    (List.compareLex charCmp (a.dropWhile (· = '0')) (b.dropWhile (· = '0')))

/-- Two pieces without digits, by the weights. -/
def compareTexts (a b : Text) : Ordering := padded compare 0 (a.map order) (b.map order)

/-- Two pieces and the numbers after them. -/
def comparePart (p q : Part) : Ordering := (compareTexts p.1 q.1).then (compareNumbers p.2 q.2)

/-- Two texts, piece by piece. -/
def verrevcmp (a b : Text) : Ordering := padded comparePart ([], []) (parts a) (parts b)

/-- What follows a dot of a file suffix. -/
def isComponent : Text → Bool
  | c :: l => (c.isAlpha || c = '~') && l.all fun c => c.isAlphanum || c = '~'
  | [] => false

/-- What is cut off as an ending. -/
def isSuffix (t : Text) : Bool :=
  match t.splitOn '.' with
  | [] :: ps => ps.all isComponent
  | _ => false

/-- What is left when the longest suffix is cut; a first character always stays. -/
def stem (t : Text) : Text := t.take (t.length - ((t.tails.tail.find? isSuffix).getD []).length)

/-- The empty line, `.`, `..` and hidden files come before the others. -/
def rank : Text → Nat
  | [] => 0
  | ['.'] => 1
  | ['.', '.'] => 2
  | '.' :: _ => 3
  | _ => 4

def filevercmp (a b : Text) : Ordering :=
  (compare (rank a) (rank b)).then ((verrevcmp (stem a) (stem b)).then (verrevcmp a b))

/-- The order of `sort -V`: lines that are equal as versions are told apart by their characters. -/
def lineCmp (a b : Text) : Ordering := (filevercmp a b).then (List.compareLex charCmp a b)

/-- `sort -V -r`. -/
def sortReverse (lines : List Text) : List Text := lines.insertionSort fun a b => (lineCmp a b).isGE = true

/-! ## It is an order -/

section
variable {α β : Type}

theorem transCmp_on {cmp : β → β → Ordering} (h : TransCmp cmp) (f : α → β) : TransCmp fun a b => cmp (f a) (f b) where
  eq_swap := h.eq_swap
  isLE_trans := h.isLE_trans

theorem transCmp_then {cmp₁ cmp₂ : α → α → Ordering} (h₁ : TransCmp cmp₁) (h₂ : TransCmp cmp₂) :
    TransCmp fun a b => (cmp₁ a b).then (cmp₂ a b) :=
  inferInstanceAs (TransCmp (compareLex cmp₁ cmp₂))

end

theorem transCmp_char : TransCmp (List.compareLex charCmp) := by
  have hchar : TransCmp charCmp := transCmp_on (inferInstanceAs (TransCmp (compare : Nat → Nat → Ordering))) Char.toNat
  exact inferInstance

theorem transCmp_numbers : TransCmp compareNumbers := by
  have hlength : TransCmp (compare : Nat → Nat → Ordering) := inferInstance
  exact transCmp_then (transCmp_on hlength fun a : Text => (a.dropWhile (· = '0')).length)
    (transCmp_on transCmp_char fun a : Text => a.dropWhile (· = '0'))

theorem transCmp_part : TransCmp comparePart := by
  have htext : TransCmp (padded (compare : Int → Int → Ordering) 0) := inferInstance
  exact transCmp_then (transCmp_on htext fun p : Part => p.1.map order) (transCmp_on transCmp_numbers Prod.snd)

theorem transCmp_verrevcmp : TransCmp verrevcmp := by
  have hpart := transCmp_part
  exact transCmp_on (inferInstanceAs (TransCmp (padded comparePart ([], [])))) parts

theorem transCmp_line : TransCmp lineCmp := by
  have hrank : TransCmp (compare : Nat → Nat → Ordering) := inferInstance
  have hfile : TransCmp filevercmp :=
    transCmp_then (transCmp_on hrank rank) (transCmp_then (transCmp_on transCmp_verrevcmp stem) transCmp_verrevcmp)
  exact transCmp_then hfile transCmp_char

theorem mem_sortReverse {lines : List Text} {line : Text} : line ∈ sortReverse lines ↔ line ∈ lines :=
  List.mem_insertionSort _

/-- The first line is one that no line follows. -/
theorem head_sortReverse {lines : List Text} {line : Text} (h : (sortReverse lines).head? = some line) :
    line ∈ lines ∧ ∀ other ∈ lines, (lineCmp line other).isGE = true := by
  have horder := transCmp_line
  have htrans : IsTrans Text fun a b => (lineCmp a b).isGE = true := ⟨fun _ _ _ hab hbc => TransCmp.isGE_trans hab hbc⟩
  have htotal : Std.Total fun a b : Text => (lineCmp a b).isGE = true := by
    refine ⟨fun a b => ?_⟩
    have hswap : lineCmp b a = (lineCmp a b).swap := horder.eq_swap
    rw [hswap]
    cases lineCmp a b <;> simp
  have hsorted : (sortReverse lines).Pairwise fun a b => (lineCmp a b).isGE = true := List.pairwise_insertionSort _ _
  obtain ⟨rest, hrest⟩ := List.head?_eq_some_iff.1 h
  have hmem : ∀ other ∈ lines, other ∈ line :: rest := fun other ho => hrest ▸ mem_sortReverse.2 ho
  refine ⟨mem_sortReverse.1 (hrest ▸ List.mem_cons_self), fun other ho => ?_⟩
  rw [hrest] at hsorted
  rcases List.mem_cons.1 (hmem other ho) with rfl | ho
  · have hself : lineCmp other other = .eq := ReflCmp.compare_self
    rw [hself]
    rfl
  · exact (List.pairwise_cons.1 hsorted).1 other ho

/-! ## Texts of one shape -/

/-- Digits stand in the same places, and the other characters are the same. -/
def SameShape (a b : Text) : Prop := List.Forall₂ (fun c d => c.isDigit = d.isDigit ∧ (c.isDigit = false → c = d)) a b

/-- The text begins, and not with a digit. -/
def BeginsText (t : Text) : Prop := ∃ c l, t = c :: l ∧ c.isDigit = false

theorem parts_cons_text {c : Char} (hc : c.isDigit = false) {t : Text} (ht : t ≠ []) :
    ∃ ns ds ps, parts t = (ns, ds) :: ps ∧ parts (c :: t) = (c :: ns, ds) :: ps := by
  have hne : parts t ≠ [] := by
    obtain ⟨d, l, rfl⟩ := List.exists_cons_of_ne_nil ht
    have hcons : parts (d :: l) = consPart d (parts l) := rfl
    rw [hcons]
    unfold consPart
    split <;> split
    · split <;> simp
    · simp
    · simp
    · simp
  obtain ⟨⟨ns, ds⟩, ps, hps⟩ := List.exists_cons_of_ne_nil hne
  refine ⟨ns, ds, ps, hps, ?_⟩
  have hcons : parts (c :: t) = consPart c (parts t) := rfl
  rw [hcons, hps, consPart, hc]
  rfl

theorem parts_beginsText {t : Text} (h : BeginsText t) : ∃ c ns ds ps, parts t = (c :: ns, ds) :: ps := by
  obtain ⟨c, l, rfl, hc⟩ := h
  cases l with
  | nil => exact ⟨c, [], [], [], by simp [parts, consPart, hc]⟩
  | cons d l =>
    obtain ⟨ns, ds, ps, -, hps⟩ := parts_cons_text hc (List.cons_ne_nil d l)
    exact ⟨c, ns, ds, ps, hps⟩

/-- A number ends where a text begins. -/
theorem parts_digits {ds : Text} (hne : ds ≠ []) (hds : ∀ c ∈ ds, c.isDigit = true) {t : Text} (ht : BeginsText t) :
    parts (ds ++ t) = ([], ds) :: parts t := by
  obtain ⟨c', ns, ds', ps, hps⟩ := parts_beginsText ht
  induction ds with
  | nil => exact absurd rfl hne
  | cons c ds ih =>
    have hc : c.isDigit = true := hds c List.mem_cons_self
    have hcons : parts (c :: ds ++ t) = consPart c (parts (ds ++ t)) := rfl
    cases ds with
    | nil => rw [hcons, List.nil_append, hps, consPart, if_pos hc, if_neg (List.cons_ne_nil c' ns)]
    | cons d ds =>
      rw [hcons, ih (List.cons_ne_nil d ds) fun e he => hds e (List.mem_cons_of_mem c he), consPart, if_pos hc, if_pos rfl]

theorem charCmp_eq {c d : Char} (h : charCmp c d = .eq) : c = d := Char.toNat_inj.1 (Nat.compare_eq_eq.1 h)

theorem compareLex_eq {a b : Text} (h : List.compareLex charCmp a b = .eq) : a = b := by
  have hlawful : LawfulEqCmp charCmp := {
    compare_self := Nat.compare_eq_eq.2 rfl
    eq_of_compare := charCmp_eq }
  exact LawfulEqCmp.eq_of_compare h

theorem charCmp_zero {c : Char} (hc : c.isDigit = true) (hne : c ≠ '0') : charCmp '0' c = .lt ∧ charCmp c '0' = .gt := by
  have hlow : 48 ≤ c.toNat := (Char.isDigit_iff_toNat.1 hc).1
  have hzero : '0'.toNat = 48 := rfl
  have hdiff : c.toNat ≠ 48 := fun h => hne (Char.toNat_inj.1 h)
  unfold charCmp
  rw [hzero]
  exact ⟨Nat.compare_eq_lt.2 (by omega), Nat.compare_eq_gt.2 (by omega)⟩

/-- Numbers of one length are ordered as texts. -/
theorem compareNumbers_of_length {a b : Text} (hlen : a.length = b.length) (ha : ∀ c ∈ a, c.isDigit = true)
    (hb : ∀ c ∈ b, c.isDigit = true) : compareNumbers a b = List.compareLex charCmp a b := by
  induction a generalizing b with
  | nil =>
    obtain rfl : b = [] := List.length_eq_zero_iff.1 hlen.symm
    rfl
  | cons c a ih =>
    obtain ⟨d, b, rfl⟩ := List.exists_cons_of_length_eq_add_one hlen.symm
    have hdrop : ∀ l : Text, (l.dropWhile (· = '0')).length ≤ l.length := fun l =>
      (List.dropWhile_suffix _).length_le
    have hrest : a.length = b.length := Nat.succ.inj hlen
    have hz : ∀ l : Text, ('0' :: l).dropWhile (· = '0') = l.dropWhile (· = '0') := fun l => rfl
    have hnz : ∀ (e : Char) (l : Text), e ≠ '0' → (e :: l).dropWhile (· = '0') = e :: l := fun e l he =>
      List.dropWhile_cons_of_neg (by simpa using he)
    rw [List.compareLex_cons_cons]
    by_cases hc : c = '0' <;> by_cases hd : d = '0'
    · subst hc hd
      have hself : charCmp '0' '0' = .eq := rfl
      rw [hself, Ordering.eq_then, ← ih hrest (fun e he => ha e (List.mem_cons_of_mem _ he)) fun e he =>
        hb e (List.mem_cons_of_mem _ he)]
      rfl
    · subst hc
      have hlt := (charCmp_zero (hb d List.mem_cons_self) hd).1
      have hless : compare (a.dropWhile (· = '0')).length (d :: b).length = .lt := by
        have hle := hdrop a
        exact Nat.compare_eq_lt.2 (by simp only [List.length_cons]; omega)
      rw [compareNumbers, hz, hnz d b hd, hless, hlt]
      rfl
    · subst hd
      have hgt := (charCmp_zero (ha c List.mem_cons_self) hc).2
      have hmore : compare (c :: a).length (b.dropWhile (· = '0')).length = .gt := by
        have hle := hdrop b
        exact Nat.compare_eq_gt.2 (by simp only [List.length_cons]; omega)
      rw [compareNumbers, hz, hnz c a hc, hmore, hgt]
      rfl
    · rw [compareNumbers, hnz c a hc, hnz d b hd, hlen, Nat.compare_eq_eq.2 rfl, List.compareLex_cons_cons]
      rfl

theorem SameShape.length_eq {a b : Text} (h : SameShape a b) : a.length = b.length := List.Forall₂.length_eq h

/-- The numbers that two texts of one shape begin with, and what follows them. -/
theorem SameShape.split {a b : Text} (h : SameShape a b) :
    ∃ ds ds' r r', a = ds ++ r ∧ b = ds' ++ r' ∧ ds.length = ds'.length ∧ (∀ c ∈ ds, c.isDigit = true) ∧
      (∀ c ∈ ds', c.isDigit = true) ∧ SameShape r r' ∧ (r = [] ∧ r' = [] ∨ BeginsText r ∧ BeginsText r') := by
  induction h with
  | nil => exact ⟨[], [], [], [], rfl, rfl, rfl, by simp, by simp, .nil, .inl ⟨rfl, rfl⟩⟩
  | @cons c d a b hcd hab ih =>
    by_cases hc : c.isDigit = true
    · obtain ⟨ds, ds', r, r', rfl, rfl, hlen, hds, hds', hr, hends⟩ := ih
      refine ⟨c :: ds, d :: ds', r, r', rfl, rfl, congrArg (· + 1) hlen, ?_, ?_, hr, hends⟩
      · exact List.forall_mem_cons.2 ⟨hc, hds⟩
      · exact List.forall_mem_cons.2 ⟨hcd.1 ▸ hc, hds'⟩
    · rw [Bool.not_eq_true] at hc
      refine ⟨[], [], c :: a, d :: b, rfl, rfl, rfl, by simp, by simp, .cons hcd hab, .inr ⟨⟨c, a, rfl, hc⟩, d, b, rfl, ?_⟩⟩
      rw [← hcd.1, hc]

/-- Lines that begin with different texts of one shape are in the order of these texts. -/
theorem verrevcmp_shape {a b x y : Text} (h : SameShape a b) (hne : a ≠ b) (hx : BeginsText x) (hy : BeginsText y) :
    verrevcmp (a ++ x) (b ++ y) = List.compareLex charCmp a b := by
  -- A character that is no digit is the same in both, a number is compared as a whole.
  induction hn : a.length using Nat.strong_induction_on generalizing a b with
  | _ n ih =>
    obtain ⟨ds, ds', r, r', rfl, rfl, hlen, hds, hds', hr, hends⟩ := h.split
    have hbegins : BeginsText (r ++ x) ∧ BeginsText (r' ++ y) := by
      rcases hends with ⟨rfl, rfl⟩ | ⟨⟨c, l, rfl, hc⟩, c', l', rfl, hc'⟩
      · exact ⟨hx, hy⟩
      · exact ⟨⟨c, l ++ x, rfl, hc⟩, c', l' ++ y, rfl, hc'⟩
    have hempty : compareTexts [] [] = .eq := rfl
    by_cases hnil : ds = []
    · obtain rfl := hnil
      obtain rfl : ds' = [] := List.length_eq_zero_iff.1 hlen.symm
      rcases hends with ⟨rfl, rfl⟩ | ⟨⟨c, l, rfl, hc⟩, c', l', rfl, hc'⟩
      · exact absurd rfl hne
      · obtain ⟨hcc, hl⟩ := List.forall₂_cons.1 hr
        obtain rfl : c = c' := hcc.2 hc
        have hself : charCmp c c = .eq := Nat.compare_eq_eq.2 rfl
        have hlne : l ≠ l' := fun heq => hne (by rw [heq])
        have hrest := ih l.length (by simp at hn; omega) hl hlne rfl
        obtain ⟨cx, lx, rfl, -⟩ := hx
        obtain ⟨cy, ly, rfl, -⟩ := hy
        obtain ⟨ns, ds, ps, hps, hcps⟩ := parts_cons_text hc (t := l ++ cx :: lx) (by simp)
        obtain ⟨ns', ds', ps', hps', hcps'⟩ := parts_cons_text hc (t := l' ++ cy :: ly) (by simp)
        have hcons : compareTexts (c :: ns) (c :: ns') = compareTexts ns ns' := by
          rw [compareTexts, List.map_cons, List.map_cons, padded_cons, Int.compare_eq_eq.2 rfl]
          rfl
        rw [verrevcmp, hps, hps', padded_cons, comparePart] at hrest
        simp only [List.nil_append, List.cons_append, List.compareLex_cons_cons, hself, Ordering.eq_then]
        rw [verrevcmp, hcps, hcps', padded_cons, comparePart, hcons, hrest]
    · have hnil' : ds' ≠ [] := fun h => hnil (List.length_eq_zero_iff.1 (by rw [hlen, h]; rfl))
      have hnumbers := compareNumbers_of_length hlen hds hds'
      rw [List.append_assoc, List.append_assoc, verrevcmp, parts_digits hnil hds hbegins.1, parts_digits hnil' hds' hbegins.2,
        padded_cons, comparePart, hempty, Ordering.eq_then, hnumbers, compareLex_append charCmp hlen]
      cases hcmp : List.compareLex charCmp ds ds' with
      | lt => rfl
      | gt => rfl
      | eq =>
        obtain rfl := compareLex_eq hcmp
        have hrne : r ≠ r' := fun heq => hne (by rw [heq])
        have hless : r.length < n := by
          have hpos := List.length_pos_iff.2 hnil
          rw [List.length_append] at hn
          omega
        exact ih r.length hless hr hrne rfl

/-! ## Lines that end in a number -/

/-- A line ends in a dot and a number, which is no file suffix. -/
def Numbered (t : Text) : Prop := ∃ front ds, t = front ++ '.' :: ds ∧ ds ≠ [] ∧ ∀ c ∈ ds, c.isDigit = true

theorem not_isSuffix_numbered {t : Text} (h : Numbered t) : isSuffix t = false := by
  obtain ⟨front, ds, rfl, hne, hds⟩ := h
  have hdot : '.' ∉ ds := fun hmem => absurd (hds _ hmem) (by decide)
  have hlast : (front ++ '.' :: ds).splitOn '.' = front.splitOn '.' ++ [ds] := by
    induction front with
    | nil =>
      rw [List.nil_append, ← List.nil_append ('.' :: ds), List.splitOn_append_cons_self_of_not_mem List.not_mem_nil,
        List.splitOn_eq_singleton hdot]
      rfl
    | cons c front ih =>
      rw [List.cons_append, List.splitOn_cons_eq_if_modifyHead, List.splitOn_cons_eq_if_modifyHead, ih]
      obtain ⟨p, ps, hps⟩ := List.exists_cons_of_ne_nil (List.splitOn_ne_nil '.' front)
      split <;> simp [hps]
  obtain ⟨p, ps, hps⟩ := List.exists_cons_of_ne_nil (List.splitOn_ne_nil '.' front)
  have hnumber : isComponent ds = false := by
    obtain ⟨c, l, rfl⟩ := List.exists_cons_of_ne_nil hne
    have hc := hds c List.mem_cons_self
    have halpha : c.isAlpha = false := by
      obtain ⟨-, hhigh⟩ := Char.isDigit_iff_toNat.1 hc
      have hupper : c.isUpper = false := Bool.eq_false_iff.2 fun h => by
        change decide ('A'.val ≤ c.val ∧ c.val ≤ 'Z'.val) = true at h
        have hlow : 65 ≤ c.toNat := UInt32.le_iff_toNat_le.1 (of_decide_eq_true h).1
        exact absurd (Nat.le_trans hlow hhigh) (by decide)
      have hlower : c.isLower = false := Bool.eq_false_iff.2 fun h => by
        change (decide ('a'.val ≤ c.val) && decide (c.val ≤ 'z'.val)) = true at h
        have hlow : 97 ≤ c.toNat := UInt32.le_iff_toNat_le.1 (of_decide_eq_true (Bool.and_eq_true_iff.1 h).1)
        exact absurd (Nat.le_trans hlow hhigh) (by decide)
      exact Bool.or_eq_false_iff.2 ⟨hupper, hlower⟩
    have htilde : c ≠ '~' := by
      rintro rfl
      cases hc
    simp [isComponent, halpha, htilde]
  rw [isSuffix, hlast, hps, List.cons_append]
  cases p with
  | nil => simp [hnumber]
  | cons c p => rfl

theorem stem_numbered {t : Text} (h : Numbered t) : stem t = t := by
  have hcut : (t.tails.tail.find? isSuffix).getD [] = [] := by
    cases hfind : t.tails.tail.find? isSuffix with
    | none => rfl
    | some s =>
      have hs : isSuffix s = true := List.find?_some hfind
      have hsuffix : s <:+ t := (List.mem_tails _ _).1 (List.mem_of_mem_tail (List.mem_of_find?_eq_some hfind))
      obtain ⟨front, ds, rfl, hne, hds⟩ := h
      rcases List.suffix_or_suffix_of_suffix hsuffix (List.suffix_append front ('.' :: ds)) with hsub | ⟨front', rfl⟩
      · rcases List.suffix_cons_iff.1 hsub with rfl | hsub
        · have hnot : isSuffix ('.' :: ds) = false := not_isSuffix_numbered ⟨[], ds, rfl, hne, hds⟩
          rw [hnot] at hs
          cases hs
        · -- without a dot only the empty text is a suffix
          have hdot : '.' ∉ s := fun hmem => absurd (hds _ (hsub.subset hmem)) (by decide)
          rw [isSuffix, List.splitOn_eq_singleton hdot] at hs
          cases s with
          | nil => rfl
          | cons c s => cases hs
      · rw [not_isSuffix_numbered ⟨front', ds, rfl, hne, hds⟩] at hs
        cases hs
  rw [stem, hcut]
  exact List.take_length

/-- Lines that begin with a digit and end in a number are compared as they are. -/
theorem filevercmp_numbered {a b : Text} (ha : Numbered a) (hb : Numbered b) (hra : rank a = 4) (hrb : rank b = 4) :
    filevercmp a b = verrevcmp a b := by
  rw [filevercmp, hra, hrb, stem_numbered ha, stem_numbered hb, Nat.compare_eq_eq.2 rfl]
  cases verrevcmp a b <;> rfl

end Lib.VersionSort
