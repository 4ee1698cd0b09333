import AzHop.Lib.Split
import Mathlib.Data.List.Infix
/-!
# Substituting a pattern

`s/pattern/new/g` for a pattern of a fixed length, each element of which says
what it agrees with: a text is cut, from the left, into the places where the
pattern fits and the elements in between (`scan`), and the places are replaced.

A text keeps its value just when every place reads `new` already
(`substitute_eq_self_iff`). One that is read as words between separators is
substituted word by word unless a place runs across a separator, which the number of
separators tells (`substitute_mapWords_iff`).
-/
namespace Lib.Substitute
open Lib.Split

variable {α β : Type} (agrees : β → α → Bool)

/-- The pattern agrees, element by element, with what the list begins with. -/
def fits : List β → List α → Bool
  | [], _ => true
  | _ :: _, [] => false
  | p :: pat, x :: l => agrees p x && fits pat l

/-- A place where the pattern matches, or an element between such places. -/
inductive Piece (α : Type) where
  | hit (m : List α)
  | other (x : α)

namespace Piece

def text : Piece α → List α
  | hit m => m
  | other x => [x]

def replace (new : List α) : Piece α → List α
  | hit _ => new
  | other x => [x]

def hit? : Piece α → Option (List α)
  | hit m => some m
  | other _ => none

end Piece

/-- The pieces after `skip` more elements, which belong to a hit. -/
def scanFrom (pat : List β) : Nat → List α → List (Piece α)
  | _, [] => []
  | 0, x :: l =>
    if fits agrees pat (x :: l) then .hit ((x :: l).take pat.length) :: scanFrom pat (pat.length - 1) l
    else .other x :: scanFrom pat 0 l
  | skip + 1, _ :: l => scanFrom pat skip l

def scan (pat : List β) (l : List α) : List (Piece α) := scanFrom agrees pat 0 l

/-- What the pattern is found as, from the left and without overlap. -/
def found (pat : List β) (l : List α) : List (List α) := (scan agrees pat l).filterMap Piece.hit?

/-- Every match is replaced. -/
def substitute (pat : List β) (new l : List α) : List α := (scan agrees pat l).flatMap (Piece.replace new)

/-- The pattern fits somewhere. -/
def occurs (pat : List β) (l : List α) : Bool := l.tails.any (fits agrees pat)

variable {agrees} {pat : List β} {new : List α}

/-! ## Fitting -/

theorem length_le_of_fits {l : List α} (h : fits agrees pat l = true) : pat.length ≤ l.length := by
  induction pat generalizing l with
  | nil => exact Nat.zero_le _
  | cons p pat ih =>
    cases l with
    | nil => cases h
    | cons x l =>
      obtain ⟨-, h⟩ := Bool.and_eq_true_iff.1 h
      exact Nat.succ_le_succ (ih h)

/-- Only the first `pat.length` elements matter. -/
theorem fits_append {a : List α} (h : pat.length ≤ a.length) (b : List α) :
    fits agrees pat (a ++ b) = fits agrees pat a := by
  induction pat generalizing a with
  | nil => cases a <;> rfl
  | cons p pat ih =>
    cases a with
    | nil => cases h
    | cons x a =>
      rw [List.cons_append, fits, fits, ih (Nat.le_of_succ_le_succ h)]

theorem fits_take {l : List α} (h : fits agrees pat l = true) : fits agrees pat (l.take pat.length) = true := by
  have hlength : pat.length ≤ (l.take pat.length).length := by
    rw [List.length_take]
    have := length_le_of_fits h
    omega
  rw [← List.take_append_drop pat.length l, fits_append hlength] at h
  exact h

/-- Two patterns that agree with the same elements fit the same lists. -/
theorem fits_of_forall₂ {l : List α} (h : List.Forall₂ (fun p x => agrees p x = true) pat l) :
    fits agrees pat l = true := by
  induction h with
  | nil => rfl
  | cons hx _ ih => exact Bool.and_eq_true_iff.2 ⟨hx, ih⟩

theorem forall₂_of_fits {l : List α} (h : fits agrees pat l = true) (hlength : l.length = pat.length) :
    List.Forall₂ (fun p x => agrees p x = true) pat l := by
  induction pat generalizing l with
  | nil => rw [List.eq_nil_of_length_eq_zero hlength]; exact List.Forall₂.nil
  | cons p pat ih =>
    cases l with
    | nil => cases h
    | cons x l =>
      obtain ⟨hx, h⟩ := Bool.and_eq_true_iff.1 h
      exact List.Forall₂.cons hx (ih h (Nat.succ.inj hlength))

/-! ## Scanning -/

theorem scanFrom_eq (skip : Nat) (l : List α) : scanFrom agrees pat skip l = scan agrees pat (l.drop skip) := by
  induction l generalizing skip with
  | nil => cases skip <;> rfl
  | cons x l ih =>
    cases skip with
    | zero => rfl
    | succ skip => exact ih skip

theorem scan_hit (hpat : pat ≠ []) {l : List α} (h : fits agrees pat l = true) :
    scan agrees pat l = .hit (l.take pat.length) :: scan agrees pat (l.drop pat.length) := by
  obtain ⟨p, pat, rfl⟩ := List.exists_cons_of_ne_nil hpat
  cases l with
  | nil => cases h
  | cons x l =>
    rw [scan, scanFrom, if_pos h, scanFrom_eq]
    rfl

theorem scan_other {x : α} {l : List α} (h : ¬fits agrees pat (x :: l) = true) :
    scan agrees pat (x :: l) = .other x :: scan agrees pat l := if_neg h

variable (agrees) in
/-- Induction over the pieces of a text. -/
theorem scan_induction {motive : List α → Prop} (hpat : pat ≠ []) (nil : motive [])
    (hit : ∀ l, fits agrees pat l = true → motive (l.drop pat.length) → motive l)
    (other : ∀ x l, ¬fits agrees pat (x :: l) = true → motive l → motive (x :: l)) (l : List α) : motive l := by
  induction hn : l.length using Nat.strongRecOn generalizing l with
  | ind n ih =>
    cases l with
    | nil => exact nil
    | cons x l =>
      by_cases h : fits agrees pat (x :: l) = true
      · have hpos := List.length_pos_iff.2 hpat
        have hlt : ((x :: l).drop pat.length).length < n := by
          rw [List.length_drop, hn]
          rw [List.length_cons] at hn
          omega
        exact hit _ h (ih _ hlt _ rfl)
      · rw [List.length_cons] at hn
        exact other x l h (ih l.length (by omega) l rfl)

variable (agrees) in
theorem flatMap_text_scan (hpat : pat ≠ []) (l : List α) : (scan agrees pat l).flatMap Piece.text = l := by
  induction l using scan_induction agrees hpat with
  | nil => rfl
  | hit l h ih =>
    rw [scan_hit hpat h, List.flatMap_cons, ih]
    exact List.take_append_drop _ l
  | other x l h ih =>
    rw [scan_other h, List.flatMap_cons, ih]
    rfl

theorem found_hit (hpat : pat ≠ []) {l : List α} (h : fits agrees pat l = true) :
    found agrees pat l = l.take pat.length :: found agrees pat (l.drop pat.length) := by
  rw [found, scan_hit hpat h]
  rfl

theorem found_other {x : α} {l : List α} (h : ¬fits agrees pat (x :: l) = true) :
    found agrees pat (x :: l) = found agrees pat l := by
  rw [found, scan_other h]
  rfl

theorem substitute_hit (hpat : pat ≠ []) {l : List α} (h : fits agrees pat l = true) :
    substitute agrees pat new l = new ++ substitute agrees pat new (l.drop pat.length) := by
  rw [substitute, scan_hit hpat h]
  rfl

theorem substitute_other {x : α} {l : List α} (h : ¬fits agrees pat (x :: l) = true) :
    substitute agrees pat new (x :: l) = x :: substitute agrees pat new l := by
  rw [substitute, scan_other h]
  rfl

/-- What is found has the pattern's length and fits it. -/
theorem fits_of_found (hpat : pat ≠ []) {l m : List α} (h : m ∈ found agrees pat l) :
    m.length = pat.length ∧ fits agrees pat m = true := by
  induction l using scan_induction agrees hpat with
  | nil => cases h
  | hit l hfits ih =>
    rw [found_hit hpat hfits] at h
    rcases List.mem_cons.1 h with rfl | h
    · exact ⟨List.length_take_of_le (length_le_of_fits hfits), fits_take hfits⟩
    · exact ih h
  | other x l hfits ih =>
    rw [found_other hfits] at h
    exact ih h

/-- A text the pattern occurs nowhere in is kept. -/
theorem substitute_of_not_occurs {l : List α} (h : occurs agrees pat l = false) : substitute agrees pat new l = l := by
  induction l with
  | nil => rfl
  | cons x l ih =>
    rw [occurs, List.tails, List.any_cons, Bool.or_eq_false_iff] at h
    rw [substitute_other (by rw [h.1]; exact Bool.false_ne_true), ih h.2]

/-! ## What is kept -/

variable (agrees new) in
theorem length_substitute (hpat : pat ≠ []) (l : List α) :
    (substitute agrees pat new l).length + (found agrees pat l).length * pat.length =
      l.length + (found agrees pat l).length * new.length := by
  induction l using scan_induction agrees hpat with
  | nil => simp [substitute, found, scan, scanFrom]
  | hit l h ih =>
    rw [substitute_hit hpat h, found_hit hpat h, List.length_append, List.length_cons, Nat.add_mul, Nat.add_mul]
    rw [List.length_drop] at ih
    have := length_le_of_fits h
    omega
  | other x l h ih =>
    rw [substitute_other h, found_other h, List.length_cons, List.length_cons]
    omega

/-- A text is kept just when the pattern is found in it as the new text only. -/
theorem substitute_eq_self_iff (hpat : pat ≠ []) (l : List α) :
    substitute agrees pat new l = l ↔ ∀ m ∈ found agrees pat l, m = new := by
  -- A place can read `new` only if the two are as long; else the lengths tell that there is none.
  by_cases hlength : new.length = pat.length
  · induction l using scan_induction agrees hpat with
    | nil => exact iff_of_true rfl fun m hm => by cases hm
    | hit l h ih =>
      rw [substitute_hit hpat h, found_hit hpat h, List.forall_mem_cons, ← ih]
      have htake : new.length = (l.take pat.length).length := by
        rw [List.length_take_of_le (length_le_of_fits h), hlength]
      constructor
      · intro heq
        have hsplit := heq.trans (List.take_append_drop pat.length l).symm
        obtain ⟨hnew, hrest⟩ := List.append_inj hsplit htake
        exact ⟨hnew.symm, hrest⟩
      · rintro ⟨hnew, hrest⟩
        rw [hrest, ← hnew, List.take_append_drop]
    | other x l h ih =>
      rw [substitute_other h, found_other h, ← ih, List.cons_inj_right]
  · have hnone : (∀ m ∈ found agrees pat l, m = new) ↔ found agrees pat l = [] := by
      rw [List.eq_nil_iff_forall_not_mem]
      refine forall_congr' fun m => ⟨fun h hm => hlength ?_, fun h hm => absurd hm h⟩
      rw [← h hm]
      exact (fits_of_found hpat hm).1
    rw [hnone]
    have htotal := length_substitute agrees new hpat l
    constructor
    · intro heq
      rw [heq, Nat.add_left_cancel_iff] at htotal
      rcases Nat.eq_zero_or_pos (found agrees pat l).length with hzero | hpos
      · exact List.eq_nil_of_length_eq_zero hzero
      · exact absurd (Nat.eq_of_mul_eq_mul_left hpos htotal).symm hlength
    · intro hnil
      have htext := flatMap_text_scan agrees hpat l
      rw [found, List.filterMap_eq_nil_iff] at hnil
      rw [substitute]
      refine Eq.trans (List.flatMap_congr fun piece hp => ?_) htext
      cases piece with
      | hit m => cases hnil _ hp
      | other x => rfl

/-- A text that is one place is replaced whole. -/
theorem substitute_of_fits (hpat : pat ≠ []) {l : List α} (h : fits agrees pat l = true)
    (hlength : l.length = pat.length) : substitute agrees pat new l = new := by
  rw [substitute_hit hpat h, List.drop_of_length_le (Nat.le_of_eq hlength)]
  exact List.append_nil new

/-! ## Word by word -/

/-- An element of a text that has no place across it separates the two parts. -/
theorem scan_append_cons (hpat : pat ≠ []) {c : α} (a b : List α)
    (hacross : ∀ m ∈ found agrees pat (a ++ c :: b), c ∉ m) :
    scan agrees pat (a ++ c :: b) = scan agrees pat a ++ .other c :: scan agrees pat b := by
  have hpos := List.length_pos_iff.2 hpat
  induction hn : a.length using Nat.strongRecOn generalizing a with
  | ind n ih =>
    by_cases h : fits agrees pat (a ++ c :: b) = true
    · rw [found_hit hpat h, List.forall_mem_cons] at hacross
      -- A place that begins before `c` ends before it, or it would have `c` in it.
      have hinside : pat.length ≤ a.length := by
        by_contra hlt
        refine hacross.1 ?_
        rw [List.take_append, List.take_of_length_le (by omega)]
        obtain ⟨k, hk⟩ : ∃ k, pat.length - a.length = k + 1 := ⟨pat.length - a.length - 1, by omega⟩
        rw [hk]
        simp
      have ha := h
      rw [fits_append hinside] at ha
      rw [scan_hit hpat h, scan_hit hpat ha, List.take_append_of_le_length hinside,
        List.drop_append_of_le_length hinside, List.cons_append]
      rw [List.drop_append_of_le_length hinside] at hacross
      rw [ih (a.drop pat.length).length (by rw [List.length_drop]; omega) _ hacross.2 rfl]
    · cases a with
      | nil =>
        rw [List.nil_append, scan_other h]
        rfl
      | cons x a =>
        have ha : ¬fits agrees pat (x :: a) = true := fun ha => h (by
          rw [fits_append (length_le_of_fits ha)]
          exact ha)
        rw [List.cons_append] at h hacross ⊢
        rw [found_other h] at hacross
        rw [scan_other h, scan_other ha, List.cons_append]
        rw [ih a.length (by rw [← hn]; exact Nat.lt_succ_self _) a hacross rfl]

theorem found_append_cons (hpat : pat ≠ []) {c : α} {a b : List α}
    (hacross : ∀ m ∈ found agrees pat (a ++ c :: b), c ∉ m) :
    found agrees pat (a ++ c :: b) = found agrees pat a ++ found agrees pat b := by
  rw [found, scan_append_cons hpat a b hacross, List.filterMap_append]
  rfl

theorem substitute_append_cons (hpat : pat ≠ []) {c : α} {a b : List α}
    (hacross : ∀ m ∈ found agrees pat (a ++ c :: b), c ∉ m) :
    substitute agrees pat new (a ++ c :: b) = substitute agrees pat new a ++ c :: substitute agrees pat new b := by
  rw [substitute, scan_append_cons hpat a b hacross, List.flatMap_append]
  rfl

section Words

variable {κ : Type} (sep : α → Bool) (next : κ → List α → α → κ)

/-- The words between separators, each with the state it is read in, which its
separator sets for the next. -/
def wordsFrom : κ → List α → List α → List (κ × List α)
  | k, w, [] => [(k, w)]
  | k, w, c :: l => if sep c then (k, w) :: wordsFrom (next k w c) [] l else wordsFrom k (w ++ [c]) l

/-- The text with another word in the place of each. -/
def mapWordsFrom (f : κ → List α → List α) : κ → List α → List α → List α
  | k, w, [] => f k w
  | k, w, c :: l =>
    if sep c then f k w ++ c :: mapWordsFrom f (next k w c) [] l else mapWordsFrom f k (w ++ [c]) l

variable {sep next}

theorem mapWordsFrom_id (k : κ) (w l : List α) : mapWordsFrom sep next (fun _ w => w) k w l = w ++ l := by
  induction l generalizing k w with
  | nil => exact (List.append_nil w).symm
  | cons c l ih =>
    unfold mapWordsFrom
    split
    · rw [ih, List.nil_append]
    · rw [ih, List.append_assoc, List.singleton_append]

/-- Words without separators are put in the place of such. -/
def Inside (sep : α → Bool) (f : κ → List α → List α) : Prop :=
  ∀ k w, (∀ c ∈ w, sep c = false) → ∀ c ∈ f k w, sep c = false

theorem countP_mapWordsFrom {f : κ → List α → List α} (hf : Inside sep f) (k : κ) {w : List α}
    (hw : ∀ c ∈ w, sep c = false) (l : List α) : (mapWordsFrom sep next f k w l).countP sep = l.countP sep := by
  have hnone : ∀ k w, (∀ c ∈ w, sep c = false) → (f k w).countP sep = 0 := fun k w hw =>
    List.countP_eq_zero.2 fun c hc => by rw [hf k w hw c hc]; exact Bool.false_ne_true
  induction l generalizing k w with
  | nil => exact hnone k w hw
  | cons c l ih =>
    unfold mapWordsFrom
    split
    · rename_i hc
      rw [List.countP_append, hnone k w hw, List.countP_cons_of_pos hc, ih _ (fun x hx => by cases hx),
        List.countP_cons_of_pos hc, Nat.zero_add]
    · rename_i hc
      rw [ih k (w := w ++ [c]), List.countP_cons_of_neg hc]
      intro x hx
      rcases List.mem_append.1 hx with hx | hx
      · exact hw x hx
      · rw [List.mem_singleton.1 hx]
        exact Bool.eq_false_iff.2 hc

variable (agrees) in
/-- The separators of a text are those left and those in what is replaced. -/
theorem countP_substitute (hpat : pat ≠ []) (hnew : ∀ c ∈ new, sep c = false) (l : List α) :
    (substitute agrees pat new l).countP sep + (found agrees pat l).flatten.countP sep = l.countP sep := by
  induction l using scan_induction agrees hpat with
  | nil => rfl
  | hit l h ih =>
    have hzero : new.countP sep = 0 :=
      List.countP_eq_zero.2 fun c hc => by rw [hnew c hc]; exact Bool.false_ne_true
    have hsplit : l.countP sep = (l.take pat.length).countP sep + (l.drop pat.length).countP sep := by
      rw [← List.countP_append, List.take_append_drop]
    rw [substitute_hit hpat h, found_hit hpat h, List.countP_append, List.flatten_cons, List.countP_append]
    omega
  | other x l h ih =>
    rw [substitute_other h, found_other h, List.countP_cons, List.countP_cons]
    omega

theorem not_sep_of_substitute (hpat : pat ≠ []) (hnew : ∀ c ∈ new, sep c = false) {l : List α}
    (hl : ∀ c ∈ l, sep c = false) : ∀ c ∈ substitute agrees pat new l, sep c = false := by
  have hcount := countP_substitute agrees hpat hnew l
  have hzero : l.countP sep = 0 :=
    List.countP_eq_zero.2 fun c hc => by rw [hl c hc]; exact Bool.false_ne_true
  have hkept : (substitute agrees pat new l).countP sep = 0 := by omega
  exact fun c hc => Bool.eq_false_iff.2 (List.countP_eq_zero.1 hkept c hc)

/-- A text comes to have other words in the places of its own only without a
place across a separator. -/
theorem not_sep_of_substitute_eq (hpat : pat ≠ []) (hnew : ∀ c ∈ new, sep c = false) {f g : κ → List α → List α}
    (hf : Inside sep f) (hg : Inside sep g) (k : κ) {w : List α} (hw : ∀ c ∈ w, sep c = false) (l : List α)
    (h : substitute agrees pat new (mapWordsFrom sep next f k w l) = mapWordsFrom sep next g k w l) :
    ∀ m ∈ found agrees pat (mapWordsFrom sep next f k w l), ∀ c ∈ m, sep c = false := by
  -- Words are replaced by words, so that no separator may go.
  have hcount := countP_substitute agrees hpat hnew (mapWordsFrom sep next f k w l)
  rw [h, countP_mapWordsFrom hf k hw, countP_mapWordsFrom hg k hw, Nat.add_eq_left] at hcount
  intro m hm c hc
  exact Bool.eq_false_iff.2 (List.countP_eq_zero.1 hcount c (List.mem_flatten_of_mem hm hc))

theorem substitute_mapWordsFrom_of_not_sep [DecidableEq α] (hpat : pat ≠ []) (hnew : ∀ c ∈ new, sep c = false)
    {f g : κ → List α → List α} (hf : Inside sep f) (hg : Inside sep g) (k : κ) {w : List α}
    (hw : ∀ c ∈ w, sep c = false) (l : List α)
    (hacross : ∀ m ∈ found agrees pat (mapWordsFrom sep next f k w l), ∀ c ∈ m, sep c = false) :
    substitute agrees pat new (mapWordsFrom sep next f k w l) = mapWordsFrom sep next g k w l ↔
      ∀ t ∈ wordsFrom sep next k w l, substitute agrees pat new (f t.1 t.2) = g t.1 t.2 := by
  induction l generalizing k w with
  | nil => simp [wordsFrom, mapWordsFrom]
  | cons c l ih =>
    unfold mapWordsFrom at hacross ⊢
    unfold wordsFrom
    split at hacross
    · rename_i hc
      -- The first word ends at `c`, on both sides of the equation.
      have hnot : ∀ m ∈ found agrees pat (f k w ++ c :: mapWordsFrom sep next f (next k w c) [] l), c ∉ m :=
        fun m hm hcm => by rw [hacross m hm c hcm] at hc; cases hc
      rw [found_append_cons hpat hnot, List.forall_mem_append] at hacross
      rw [if_pos hc, if_pos hc, if_pos hc, substitute_append_cons hpat hnot, List.forall_mem_cons,
        ← ih (next k w c) (fun x hx => by cases hx) hacross.2]
      have hfirst : ∀ p : List α, (∀ x ∈ p, sep x = false) → c ∉ p := fun p hp hcp => by
        rw [hp c hcp] at hc
        cases hc
      constructor
      · intro heq
        have htake := congrArg (List.takeWhile (· ≠ c)) heq
        rw [takeWhile_append_cons (hfirst _ (not_sep_of_substitute hpat hnew (hf k w hw))),
          takeWhile_append_cons (hfirst _ (hg k w hw))] at htake
        rw [htake] at heq
        exact ⟨htake, (List.cons.inj (List.append_cancel_left heq)).2⟩
      · rintro ⟨hword, hrest⟩
        rw [hword, hrest]
    · rename_i hc
      rw [if_neg hc, if_neg hc, if_neg hc]
      refine ih k (fun x hx => ?_) hacross
      rcases List.mem_append.1 hx with hx | hx
      · exact hw x hx
      · rw [List.mem_singleton.1 hx]
        exact Bool.eq_false_iff.2 hc

variable (agrees next) in
/-- Substituting changes each word as told, and nothing else, just when no place
runs across a separator and it does so in each word. -/
theorem substitute_mapWords_iff [DecidableEq α] (hpat : pat ≠ []) (hnew : ∀ c ∈ new, sep c = false)
    {f g : κ → List α → List α} (hf : Inside sep f) (hg : Inside sep g) (k : κ) (l : List α) :
    substitute agrees pat new (mapWordsFrom sep next f k [] l) = mapWordsFrom sep next g k [] l ↔
      (∀ m ∈ found agrees pat (mapWordsFrom sep next f k [] l), ∀ c ∈ m, sep c = false) ∧
        ∀ t ∈ wordsFrom sep next k [] l, substitute agrees pat new (f t.1 t.2) = g t.1 t.2 := by
  have hnil : ∀ c ∈ ([] : List α), sep c = false := fun c hc => by cases hc
  constructor
  · intro h
    have hacross := not_sep_of_substitute_eq hpat hnew hf hg k hnil l h
    exact ⟨hacross, (substitute_mapWordsFrom_of_not_sep hpat hnew hf hg k hnil l hacross).1 h⟩
  · rintro ⟨hacross, hwords⟩
    exact (substitute_mapWordsFrom_of_not_sep hpat hnew hf hg k hnil l hacross).2 hwords

end Words

end Lib.Substitute
