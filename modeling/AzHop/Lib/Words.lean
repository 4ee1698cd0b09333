import Mathlib.Data.List.DropRight
import Mathlib.Data.List.Induction
/-!
# Word splitting

How a shell splits the value of an unquoted parameter: blanks separate the
words, a run of blanks counts as one, and blanks at either end are dropped.
`scan` reads the text from the left and keeps the words that are complete and
the one being read, so that what follows a text can be read from there.
-/
namespace Lib.Words

variable {α : Type} (blank : α → Bool)

/-- The words once the one being read has ended. -/
def flush (done : List (List α)) : List α → List (List α)
  | [] => done
  | c :: current => done ++ [c :: current]

/-- A blank ends the word that is open. -/
def step (s : List (List α) × List α) (c : α) : List (List α) × List α :=
  if blank c then (flush s.1 s.2, []) else (s.1, s.2 ++ [c])

def scan (l : List α) : List (List α) × List α := l.foldl (step blank) ([], [])

/-- The words of a list. -/
def words (l : List α) : List (List α) := flush (scan blank l).1 (scan blank l).2

variable {blank}

theorem flush_append (done done' : List (List α)) (current : List α) :
    flush (done ++ done') current = done ++ flush done' current := by
  cases current with
  | nil => rfl
  | cons c current => exact List.append_assoc ..

theorem flush_of_ne_nil {done : List (List α)} {current : List α} (h : current ≠ []) :
    flush done current = done ++ [current] := by
  cases current with
  | nil => exact absurd rfl h
  | cons c current => rfl

theorem scan_append (l s : List α) : scan blank (l ++ s) = s.foldl (step blank) (scan blank l) := List.foldl_append

theorem scan_concat (l : List α) (c : α) : scan blank (l ++ [c]) = step blank (scan blank l) c := scan_append l [c]

/-- The words that are complete do not change how the rest is read. -/
theorem foldl_step (done : List (List α)) (l : List α) :
    l.foldl (step blank) (done, []) = (done ++ (scan blank l).1, (scan blank l).2) := by
  induction l using List.reverseRecOn with
  | nil => simp [scan]
  | append_singleton l c ih =>
    rw [scan_concat, List.foldl_append, ih]
    simp only [List.foldl_cons, List.foldl_nil, step]
    split
    · rw [flush_append]
    · rfl

/-! ## Joining texts -/

theorem scan_append_solid (l : List α) {s : List α} (hs : ∀ c ∈ s, blank c = false) :
    scan blank (l ++ s) = ((scan blank l).1, (scan blank l).2 ++ s) := by
  induction s using List.reverseRecOn with
  | nil => simp
  | append_singleton s c ih =>
    have hc : blank c = false := hs c (by simp)
    rw [← List.append_assoc, scan_concat, ih fun d hd => hs d (by simp [hd])]
    simp [step, hc]

/-- A text without blanks continues the last word. -/
theorem words_append_solid (l : List α) {s : List α} (hs : ∀ c ∈ s, blank c = false) (hne : s ≠ []) :
    words blank (l ++ s) = (scan blank l).1 ++ [(scan blank l).2 ++ s] := by
  unfold words
  rw [scan_append_solid l hs, flush_of_ne_nil (by simp [hne])]

theorem words_solid {s : List α} (hs : ∀ c ∈ s, blank c = false) (hne : s ≠ []) : words blank s = [s] :=
  words_append_solid [] hs hne

theorem words_append_blank (l r : List α) {b : α} (hb : blank b = true) :
    words blank (l ++ b :: r) = words blank l ++ words blank r := by
  have hscan : scan blank (l ++ b :: r) = (words blank l ++ (scan blank r).1, (scan blank r).2) := by
    rw [scan_append, List.foldl_cons, step, if_pos hb]
    exact foldl_step _ r
  rw [words, hscan, flush_append]
  rfl

theorem words_concat_blank (l : List α) {b : α} (hb : blank b = true) : words blank (l ++ [b]) = words blank l :=
  (words_append_blank l [] hb).trans (List.append_nil _)

/-- Words with a blank between any two of them are read back. -/
theorem words_intercalate {b : α} (hb : blank b = true) : ∀ {l : List (List α)},
    (∀ w ∈ l, w ≠ [] ∧ ∀ c ∈ w, blank c = false) → words blank (List.intercalate [b] l) = l
  | [], _ => rfl
  | [w], h => by
    obtain ⟨hne, hs⟩ := h w List.mem_cons_self
    rw [List.intercalate_singleton, words_solid hs hne]
  | w :: v :: l, h => by
    obtain ⟨hne, hs⟩ := h w List.mem_cons_self
    have hrest := words_intercalate hb fun u hu => h u (List.mem_cons_of_mem w hu)
    rw [List.intercalate_cons_cons, List.append_assoc, List.singleton_append, words_append_blank w _ hb, hrest,
      words_solid hs hne, List.singleton_append]

/-- Lines are split one by one. -/
theorem words_lines {b : α} (hb : blank b = true) (lines : List (List α)) :
    words blank (lines.flatMap (· ++ [b])) = lines.flatMap (words blank) := by
  induction lines with
  | nil => rfl
  | cons l lines ih =>
    rw [List.flatMap_cons, List.append_assoc, List.singleton_append, words_append_blank _ _ hb, ih, List.flatMap_cons]

theorem words_rdropWhile {p : α → Bool} (hp : ∀ c, p c = true → blank c = true) (l : List α) :
    words blank (l.rdropWhile p) = words blank l := by
  induction l using List.reverseRecOn with
  | nil => simp
  | append_singleton l c ih =>
    by_cases hc : p c = true
    · rw [List.rdropWhile_concat_pos p l c hc, ih, words_concat_blank l (hp c hc)]
    · rw [List.rdropWhile_concat_neg p l c hc]

/-! ## The words of a text -/

theorem flatten_flush (done : List (List α)) (current : List α) :
    (flush done current).flatten = done.flatten ++ current := by
  cases current <;> simp [flush]

/-- Nothing but blanks is lost. -/
theorem filter_words {p : α → Bool} (hp : ∀ c, blank c = true → p c = false) (l : List α) :
    (words blank l).flatten.filter p = l.filter p := by
  unfold words
  rw [flatten_flush]
  induction l using List.reverseRecOn with
  | nil => rfl
  | append_singleton l c ih =>
    rw [scan_concat, step, List.filter_append l [c], ← ih]
    split
    · rename_i hc
      simp [flatten_flush, hp c hc]
    · simp

/-- Each word a scan has completed or is reading is free of blanks. -/
theorem scan_solid (l : List α) :
    (∀ w ∈ (scan blank l).1, w ≠ [] ∧ ∀ c ∈ w, blank c = false) ∧ ∀ c ∈ (scan blank l).2, blank c = false := by
  induction l using List.reverseRecOn with
  | nil => simp [scan]
  | append_singleton l c ih =>
    rw [scan_concat, step]
    split
    · refine ⟨fun w hw => ?_, by simp⟩
      by_cases he : (scan blank l).2 = []
      · rw [he] at hw
        exact ih.1 w hw
      · rw [flush_of_ne_nil he, List.mem_append, List.mem_singleton] at hw
        rcases hw with hw | rfl
        · exact ih.1 w hw
        · exact ⟨he, ih.2⟩
    · rename_i hc
      refine ⟨ih.1, fun d hd => ?_⟩
      rcases List.mem_append.1 hd with hd | hd
      · exact ih.2 d hd
      · rw [List.mem_singleton.1 hd]
        exact Bool.not_eq_true _ ▸ hc

theorem mem_words {l w : List α} (h : w ∈ words blank l) : w ≠ [] ∧ ∀ c ∈ w, blank c = false := by
  unfold words at h
  by_cases he : (scan blank l).2 = []
  · rw [he] at h
    exact (scan_solid l).1 w h
  · rw [flush_of_ne_nil he, List.mem_append, List.mem_singleton] at h
    rcases h with h | rfl
    · exact (scan_solid l).1 w h
    · exact ⟨he, (scan_solid l).2⟩

/-- The word being read ends the text. -/
theorem scan_suffix (l : List α) : (scan blank l).2 <:+ l := by
  induction l using List.reverseRecOn with
  | nil => exact List.suffix_refl _
  | append_singleton l c ih =>
    rw [scan_concat, step]
    split
    · exact List.nil_suffix
    · obtain ⟨t, ht⟩ := ih
      exact ⟨t, by rw [← List.append_assoc, ht]⟩

/-- A text that ends between two words ends in a blank. -/
theorem blank_of_scan_nil {l : List α} {c : α} (h : (scan blank (l ++ [c])).2 = []) : blank c = true := by
  rw [scan_concat, step] at h
  by_contra hc
  rw [if_neg hc] at h
  exact List.append_ne_nil_of_right_ne_nil _ (List.cons_ne_nil c []) h

/-- A text with one word either ends in it or goes on with a blank. -/
theorem scan_of_words {l w : List α} (h : words blank l = [w]) :
    (w <:+ l ∧ scan blank l = ([], w)) ∨ (¬ w <:+ l ∧ scan blank l = ([w], [])) := by
  have hw : w ≠ [] ∧ ∀ c ∈ w, blank c = false := mem_words (l := l) (by simp [h])
  unfold words at h
  by_cases he : (scan blank l).2 = []
  · right
    rw [he] at h
    refine ⟨fun hs => ?_, Prod.ext h he⟩
    -- the last character of the text would be both a blank and the end of the word
    cases l using List.reverseRecOn with
    | nil => exact hw.1 (List.suffix_nil.1 hs)
    | append_singleton l c =>
      have hc : c ∈ w := by
        obtain ⟨w', d, rfl⟩ := (List.eq_nil_or_concat' w).resolve_left hw.1
        obtain ⟨t, ht⟩ := hs
        rw [← List.append_assoc] at ht
        have hcd := List.append_inj_right' ht rfl
        simp_all
      have hblank := blank_of_scan_nil he
      rw [hw.2 c hc] at hblank
      cases hblank
  · left
    rw [flush_of_ne_nil he] at h
    have hnil : (scan blank l).1 = [] := by
      have := congrArg List.length h
      simpa using this
    rw [hnil, List.nil_append, List.cons.injEq] at h
    exact ⟨h.1 ▸ scan_suffix l, Prod.ext hnil h.1⟩

end Lib.Words
