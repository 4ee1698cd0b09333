import AzHop.Lib.JsonFile
import AzHop.Lib.Replace
import Mathlib.Data.List.TakeWhile
/-!
# Editing JSON text

A replacement on the text of a value, with a pattern of plain letters, is one
in its keys and strings (`replaceAll_pretty`): the structure, the words and the
escapes have nothing the pattern could start with. What is read afterwards is
the old value only where no key and no string changed
(`dedup_mapStrings_eq_iff`), since keys that become equal are merged.
-/
namespace Lib.Json
open Lib.Replace

/-! ## Keys and strings -/

mutual

/-- The value with its keys and strings changed. -/
def mapStrings (f : List Char → List Char) : Value → Value
  | .string s => .string (f s)
  | .array vs => .array (mapItems f vs)
  | .object ms => .object (mapMembers f ms)
  | v => v

def mapItems (f : List Char → List Char) : List Value → List Value
  | [] => []
  | v :: vs => mapStrings f v :: mapItems f vs

def mapMembers (f : List Char → List Char) : Members → Members
  | [] => []
  | (k, v) :: ms => (f k, mapStrings f v) :: mapMembers f ms

end

mutual

/-- The strings of a value, the keys among them. -/
def strings : Value → List (List Char)
  | .string s => [s]
  | .array vs => stringsItems vs
  | .object ms => stringsMembers ms
  | _ => []

def stringsItems : List Value → List (List Char)
  | [] => []
  | v :: vs => strings v ++ stringsItems vs

def stringsMembers : Members → List (List Char)
  | [] => []
  | (k, v) :: ms => k :: strings v ++ stringsMembers ms

end

variable {f : List Char → List Char}

mutual

theorem spelled_mapStrings : ∀ v : Value, Spelled v → Spelled (mapStrings f v)
  | .null, _ => trivial
  | .bool _, _ => trivial
  | .int _, _ => trivial
  | .float _, h => h
  | .string _, _ => trivial
  | .array vs, h => spelled_mapItems vs h
  | .object ms, h => spelled_mapMembers ms h

theorem spelled_mapItems : ∀ vs : List Value, SpelledItems vs → SpelledItems (mapItems f vs)
  | [], _ => trivial
  | v :: vs, h => ⟨spelled_mapStrings v h.1, spelled_mapItems vs h.2⟩

theorem spelled_mapMembers : ∀ ms : Members, SpelledMembers ms → SpelledMembers (mapMembers f ms)
  | [], _ => trivial
  | (_, v) :: ms, h => ⟨spelled_mapStrings v h.1, spelled_mapMembers ms h.2⟩

end

theorem mapMembers_eq_map (ms : Members) : mapMembers f ms = ms.map fun m => (f m.1, mapStrings f m.2) := by
  induction ms with
  | nil => rfl
  | cons m ms ih =>
    obtain ⟨k, v⟩ := m
    rw [mapMembers, ih, List.map_cons]

/-! ## Replacing in the text -/

/-- The characters a value is written with, besides those of its keys and strings. -/
def markup : List Char :=
  ['"', '\\', '[', ']', '{', '}', ':', ',', ' ', '\n', '-', '+', '.', '0', '1', '2', '3', '4', '5', '6', '7', '8', '9',
    'a', 'b', 'c', 'd', 'e', 'f', 'l', 'n', 'r', 's', 't', 'u', 'E']

/-- A pattern that no part of the markup can start. -/
structure Plain (x : Char) (tail rep : List Char) : Prop where
  first : x ∉ markup
  pattern : ((x :: tail).all fun c => escapeChar c = [c]) = true
  replacement : (rep.all fun c => escapeChar c = [c]) = true

theorem all_markup {w : List Char} (h : ∀ c ∈ w, c ∈ markup) : w.all markup.contains = true := by
  simpa using h

theorem of_all_markup {w : List Char} (h : w.all markup.contains = true) : ∀ c ∈ w, c ∈ markup := by
  simpa using h

theorem plain_all {w : List Char} (h : (w.all fun c => escapeChar c = [c]) = true) : ∀ c ∈ w, escapeChar c = [c] := by
  simpa using h

theorem mem_markup_of_isDigit {c : Char} (h : c.isDigit = true) : c ∈ markup := by
  have hvalues : ∀ n, n < 58 → 48 ≤ n → Char.ofNat n ∈ markup := by decide
  have hc : 48 ≤ c.toNat ∧ c.toNat ≤ 57 := by
    exact Char.isDigit_iff_toNat.1 h
  have := hvalues c.toNat (by omega) hc.1
  rwa [Char.ofNat_toNat] at this

theorem mem_markup_digits {n : Int} {c : Char} (h : c ∈ digits n) : c ∈ markup := by
  cases n with
  | ofNat n => exact mem_markup_of_isDigit (isDigit_toDigits h)
  | negSucc n =>
    rcases List.mem_cons.1 h with rfl | h
    · decide
    · exact mem_markup_of_isDigit (isDigit_toDigits h)

theorem mem_markup_exponent {cs : List Char} (h : isExponent cs = true) : ∀ c ∈ cs, c ∈ markup := by
  cases cs with
  | nil => simp
  | cons c cs =>
    simp only [isExponent, Bool.and_eq_true, List.all_eq_true] at h
    intro d hd
    by_cases hc : c = '+' ∨ c = '-'
    · rw [if_pos hc] at h
      rcases List.mem_cons.1 hd with rfl | hd
      · rcases hc with rfl | rfl <;> decide
      · exact mem_markup_of_isDigit (h.2 d hd)
    · rw [if_neg hc] at h
      exact mem_markup_of_isDigit (h.2 d hd)

theorem mem_markup_fraction {cs : List Char} (h : isFraction cs = true) : ∀ c ∈ cs, c ∈ markup := by
  have hexponent : ∀ {e es}, ((e = 'e' || e = 'E') && isExponent es) = true → ∀ c ∈ e :: es, c ∈ markup := by
    intro e es he c hc
    simp only [Bool.and_eq_true, Bool.or_eq_true, decide_eq_true_eq] at he
    rcases List.mem_cons.1 hc with rfl | hc
    · rcases he.1 with rfl | rfl <;> decide
    · exact mem_markup_exponent he.2 c hc
  cases cs with
  | nil => simp
  | cons c cs =>
    by_cases hdot : c = '.'
    · subst hdot
      rw [isFraction, if_pos rfl] at h
      intro d hd
      rcases List.mem_cons.1 hd with rfl | hd
      · decide
      rw [← List.takeWhile_append_dropWhile (p := Char.isDigit) (l := cs)] at hd
      rcases List.mem_append.1 hd with hd | hd
      · exact mem_markup_of_isDigit (List.mem_takeWhile_imp hd)
      · have h := (Bool.and_eq_true_iff.1 h).2
        cases hes : cs.dropWhile Char.isDigit with
        | nil =>
          rw [hes] at hd
          exact absurd hd List.not_mem_nil
        | cons e es =>
          rw [hes] at hd h
          exact hexponent h d hd
    · rw [isFraction, if_neg hdot] at h
      exact hexponent h

theorem mem_markup_float {w : List Char} (h : isFloat w = true) : ∀ c ∈ w, c ∈ markup := by
  intro c hc
  simp only [isFloat, Bool.and_eq_true] at h
  rw [← List.takeWhile_append_dropWhile (p := fun c => c.isDigit || c = '-') (l := w)] at hc
  rcases List.mem_append.1 hc with hc | hc
  · have hc := List.mem_takeWhile_imp hc
    simp only [Bool.or_eq_true, decide_eq_true_eq] at hc
    rcases hc with hc | rfl
    · exact mem_markup_of_isDigit hc
    · decide
  · exact mem_markup_fraction h.2 c hc

theorem escapeChar_cases (c : Char) :
    escapeChar c = [c] ∨ (∀ d ∈ escapeChar c, d ∈ markup) ∧ ∃ t, escapeChar c = '\\' :: t := by
  have hhex : ∀ n, n < 16 → hexDigit n ∈ markup := by decide
  unfold escapeChar
  split_ifs with h1 h2 h3 h4 h5 h6 h7 h8
  iterate 7 exact Or.inr ⟨of_all_markup rfl, _, rfl⟩
  · have hhigh := hhex (c.toNat / 16) (by omega)
    have hlow := hhex (c.toNat % 16) (by omega)
    have hfixed : ∀ d ∈ ['\\', 'u', '0', '0'], d ∈ markup := of_all_markup rfl
    refine Or.inr ⟨fun d hd => ?_, _, rfl⟩
    simp only [List.mem_cons, List.not_mem_nil, or_false] at hd hfixed
    rcases hd with hd | hd | hd | hd | rfl | rfl
    · exact hfixed d (Or.inl hd)
    · exact hfixed d (Or.inr (Or.inl hd))
    · exact hfixed d (Or.inr (Or.inr (Or.inl hd)))
    · exact hfixed d (Or.inr (Or.inr (Or.inl hd)))
    · exact hhigh
    · exact hlow
  · exact Or.inl rfl

section Plain

variable {x : Char} {tail rep : List Char}

/-- A piece of markup is not touched. -/
theorem Plain.replaceAll_markup (h : Plain x tail rep) {w : List Char} (hw : w.all markup.contains = true)
    (rest : List Char) : replaceAll (x :: tail) rep (w ++ rest) = w ++ replaceAll (x :: tail) rep rest := by
  exact replaceAll_append_of_not_mem (fun hx => h.first (of_all_markup hw x hx)) rest

theorem Plain.replaceAll_indent (h : Plain x tail rep) (d : Nat) (rest : List Char) :
    replaceAll (x :: tail) rep (indent d ++ rest) = indent d ++ replaceAll (x :: tail) rep rest := by
  refine h.replaceAll_markup (all_markup fun c hc => ?_) rest
  rw [(List.mem_replicate.1 hc).2]
  decide

theorem Plain.replaceAll_quote (h : Plain x tail rep) (s rest : List Char) :
    replaceAll (x :: tail) rep (quote s ++ rest) =
      quote (replaceAll (x :: tail) rep s) ++ replaceAll (x :: tail) rep rest := by
  have hnot : ∀ c, escapeChar c ≠ [c] → c ∉ x :: tail := fun c hc hmem => hc (plain_all h.pattern c hmem)
  have hquote : '"' ∉ x :: tail := hnot '"' (by decide)
  have hescape : replaceAll (x :: tail) rep (escape s) = escape (replaceAll (x :: tail) rep s) := by
    refine replaceAll_flatMap (plain_all h.pattern) (plain_all h.replacement) (fun c => ?_) s
    refine (escapeChar_cases c).imp_right ?_
    rintro ⟨hall, t, ht⟩
    exact ⟨fun hx => h.first (hall x hx), '\\', t, ht, hnot '\\' (by decide)⟩
  have hopen := h.replaceAll_markup (w := ['"']) rfl (escape s ++ '"' :: rest)
  rw [List.singleton_append, replaceAll_append_cons (List.cons_ne_nil x tail) hquote, hescape] at hopen
  simpa [quote] using hopen

mutual

/-- A replacement in the text is one in the keys and the strings. -/
theorem Plain.replaceAll_pretty (h : Plain x tail rep) : ∀ (d : Nat) (v : Value), Spelled v → ∀ rest,
    replaceAll (x :: tail) rep (pretty d v ++ rest) =
      pretty d (mapStrings (replaceAll (x :: tail) rep) v) ++ replaceAll (x :: tail) rep rest
  | _, .null, _, rest => h.replaceAll_markup (w := "null".toList) rfl rest
  | _, .bool true, _, rest => h.replaceAll_markup (w := "true".toList) rfl rest
  | _, .bool false, _, rest => h.replaceAll_markup (w := "false".toList) rfl rest
  | _, .int _, _, rest => h.replaceAll_markup (all_markup fun _ => mem_markup_digits) rest
  | _, .float w, hs, rest => by
    have hfloat : isFloat w = true := by
      rcases literal?_cases hs.2.2 with hv | ⟨b, hv⟩ | ⟨i, hv⟩ | ⟨-, hv⟩
      · cases hv
      · cases hv
      · cases hv
      · exact hv
    exact h.replaceAll_markup (all_markup (mem_markup_float hfloat)) rest
  | _, .string s, _, rest => h.replaceAll_quote s rest
  | _, .array [], _, rest => h.replaceAll_markup (w := ['[', ']']) rfl rest
  | d, .array (v :: vs), hs, rest => by
    have hv := h.replaceAll_pretty (d + 1) v hs.1
    have hvs := h.replaceAll_items (d + 1) vs hs.2
    simp only [pretty, mapStrings, mapItems, List.append_assoc]
    rw [h.replaceAll_markup rfl, h.replaceAll_indent, hv, hvs, h.replaceAll_markup rfl,
      h.replaceAll_indent, h.replaceAll_markup rfl]
  | _, .object [], _, rest => h.replaceAll_markup (w := ['{', '}']) rfl rest
  | d, .object ((k, v) :: ms), hs, rest => by
    have hv := h.replaceAll_pretty (d + 1) v hs.1
    have hms := h.replaceAll_members (d + 1) ms hs.2
    simp only [pretty, mapStrings, mapMembers, List.append_assoc]
    rw [h.replaceAll_markup rfl, h.replaceAll_indent, h.replaceAll_quote, h.replaceAll_markup rfl, hv, hms,
      h.replaceAll_markup rfl, h.replaceAll_indent, h.replaceAll_markup rfl]

theorem Plain.replaceAll_items (h : Plain x tail rep) : ∀ (d : Nat) (vs : List Value), SpelledItems vs → ∀ rest,
    replaceAll (x :: tail) rep (prettyItems d vs ++ rest) =
      prettyItems d (mapItems (replaceAll (x :: tail) rep) vs) ++ replaceAll (x :: tail) rep rest
  | _, [], _, _ => rfl
  | d, v :: vs, hs, rest => by
    have hv := h.replaceAll_pretty d v hs.1
    have hvs := h.replaceAll_items d vs hs.2
    simp only [prettyItems, mapItems, List.append_assoc]
    rw [h.replaceAll_markup rfl, h.replaceAll_indent, hv, hvs]

theorem Plain.replaceAll_members (h : Plain x tail rep) : ∀ (d : Nat) (ms : Members), SpelledMembers ms → ∀ rest,
    replaceAll (x :: tail) rep (prettyMembers d ms ++ rest) =
      prettyMembers d (mapMembers (replaceAll (x :: tail) rep) ms) ++ replaceAll (x :: tail) rep rest
  | _, [], _, _ => rfl
  | d, (k, v) :: ms, hs, rest => by
    have hv := h.replaceAll_pretty d v hs.1
    have hms := h.replaceAll_members d ms hs.2
    simp only [prettyMembers, mapMembers, List.append_assoc]
    rw [h.replaceAll_markup rfl, h.replaceAll_indent, h.replaceAll_quote, h.replaceAll_markup rfl, hv, hms]

end

/-- What is read after a replacement in a file. -/
theorem Plain.read_replaceAll (h : Plain x tail rep) {v : Value} (hv : Spelled v) :
    read (replaceAll (x :: tail) rep (write v)) = some (dedup (mapStrings (replaceAll (x :: tail) rep) v)) := by
  have hend := h.replaceAll_markup (w := ['\n']) rfl []
  rw [List.append_nil] at hend
  rw [write, h.replaceAll_pretty 0 v hv, hend]
  exact read_write_dedup (spelled_mapStrings v hv)

end Plain

/-! ## The value after it -/

theorem length_store_le (ms : Members) (k : List Char) (v : Value) :
    store ms k v = ms ++ [(k, v)] ∨ (store ms k v).length = ms.length := by
  by_cases hk : k ∈ ms.map Prod.fst
  · refine Or.inr ?_
    have := congrArg List.length (map_fst_store ms k v)
    simpa [hk] using this
  · exact Or.inl (store_of_not_mem hk v)

/-- Members with a key twice get fewer. -/
theorem dedupMembers_eq_or_lt (acc ms : Members) :
    dedupMembers acc ms = acc ++ ms.map (fun m => (m.1, dedup m.2)) ∨
      (dedupMembers acc ms).length < acc.length + ms.length := by
  induction ms generalizing acc with
  | nil => simp [dedupMembers]
  | cons m ms ih =>
    obtain ⟨k, v⟩ := m
    rw [dedupMembers]
    rcases length_store_le acc k (dedup v) with hstore | hstore
    · rcases ih (store acc k (dedup v)) with h | h
      · refine Or.inl ?_
        rw [h, hstore]
        simp
      · refine Or.inr ?_
        simp only [hstore, List.length_append, List.length_cons, List.length_nil] at h ⊢
        omega
    · refine Or.inr ?_
      have hle : (dedupMembers (store acc k (dedup v)) ms).length ≤ acc.length + ms.length := by
        rcases ih (store acc k (dedup v)) with h | h
        · rw [h, List.length_append, List.length_map, hstore]
        · omega
      rw [List.length_cons]
      omega

mutual

theorem mapStrings_eq_self : ∀ v : Value, (∀ s ∈ strings v, f s = s) → mapStrings f v = v
  | .null, _ => rfl
  | .bool _, _ => rfl
  | .int _, _ => rfl
  | .float _, _ => rfl
  | .string s, h => congrArg Value.string (h s (List.mem_singleton.2 rfl))
  | .array vs, h => congrArg Value.array (mapItems_eq_self vs h)
  | .object ms, h => congrArg Value.object (mapMembers_eq_self ms h)

theorem mapItems_eq_self : ∀ vs : List Value, (∀ s ∈ stringsItems vs, f s = s) → mapItems f vs = vs
  | [], _ => rfl
  | v :: vs, h => by
    rw [mapItems, mapStrings_eq_self v fun s hs => h s (List.mem_append_left _ hs),
      mapItems_eq_self vs fun s hs => h s (List.mem_append_right _ hs)]

theorem mapMembers_eq_self : ∀ ms : Members, (∀ s ∈ stringsMembers ms, f s = s) → mapMembers f ms = ms
  | [], _ => rfl
  | (k, v) :: ms, h => by
    rw [mapMembers, h k (by simp [stringsMembers]),
      mapStrings_eq_self v fun s hs => h s (by simp [stringsMembers, hs]),
      mapMembers_eq_self ms fun s hs => h s (by simp [stringsMembers, hs])]

end

mutual

theorem strings_of_dedup_eq : ∀ v : Value, dedup (mapStrings f v) = v → ∀ s ∈ strings v, f s = s
  | .null, _, _, hs => absurd hs List.not_mem_nil
  | .bool _, _, _, hs => absurd hs List.not_mem_nil
  | .int _, _, _, hs => absurd hs List.not_mem_nil
  | .float _, _, _, hs => absurd hs List.not_mem_nil
  | .string s, h, t, ht => by
    rw [List.mem_singleton.1 ht]
    exact Value.string.inj h
  | .array vs, h, t, ht => strings_of_dedupItems_eq vs (Value.array.inj h) t ht
  | .object ms, h, t, ht => by
    have hms : dedupMembers [] (mapMembers f ms) = ms := Value.object.inj h
    have hlength : (mapMembers f ms).length = ms.length := by rw [mapMembers_eq_map, List.length_map]
    rcases dedupMembers_eq_or_lt [] (mapMembers f ms) with hmap | hlt
    · rw [hms, List.nil_append] at hmap
      exact strings_of_dedupMembers_eq ms hmap.symm t ht
    · rw [hms, hlength, List.length_nil] at hlt
      omega

theorem strings_of_dedupItems_eq : ∀ vs : List Value, dedupItems (mapItems f vs) = vs → ∀ s ∈ stringsItems vs, f s = s
  | [], _, _, hs => absurd hs List.not_mem_nil
  | v :: vs, h, s, hs => by
    obtain ⟨hv, hvs⟩ := List.cons.inj h
    rcases List.mem_append.1 hs with hs | hs
    · exact strings_of_dedup_eq v hv s hs
    · exact strings_of_dedupItems_eq vs hvs s hs

theorem strings_of_dedupMembers_eq : ∀ ms : Members, (mapMembers f ms).map (fun m => (m.1, dedup m.2)) = ms →
    ∀ s ∈ stringsMembers ms, f s = s
  | [], _, _, hs => absurd hs List.not_mem_nil
  | (k, v) :: ms, h, s, hs => by
    obtain ⟨hm, hms⟩ := List.cons.inj h
    obtain ⟨hk, hv⟩ := Prod.mk.inj hm
    rcases List.mem_cons.1 hs with rfl | hs
    · exact hk
    rcases List.mem_append.1 hs with hs | hs
    · exact strings_of_dedup_eq v hv s hs
    · exact strings_of_dedupMembers_eq ms hms s hs

end

/-- A value comes back from a text edit exactly where the edit leaves its keys and strings. -/
theorem dedup_mapStrings_eq_iff {v : Value} (h : WellFormed v) :
    dedup (mapStrings f v) = v ↔ ∀ s ∈ strings v, f s = s := by
  refine ⟨strings_of_dedup_eq v, fun hs => ?_⟩
  rw [mapStrings_eq_self v hs, h.dedup_eq]

theorem fetch_of_not_mem {ms : Members} {k : List Char} (h : k ∉ ms.map Prod.fst) : fetch ms k = .null := by
  induction ms with
  | nil => rfl
  | cons m ms ih =>
    simp only [List.map_cons, List.mem_cons, not_or] at h
    have hne : ¬m.1 = k := fun e => h.1 e.symm
    rw [fetch, if_neg hne]
    exact ih h.2

theorem fetch_dedupMembers {k : List Char} (hk : ∀ k', f k' = k ↔ k' = k) (acc : Members) {ms : Members}
    (hnodup : (ms.map Prod.fst).Nodup) : fetch (dedupMembers acc (mapMembers f ms)) k =
      if k ∈ ms.map Prod.fst then dedup (mapStrings f (fetch ms k)) else fetch acc k := by
  induction ms generalizing acc with
  | nil => rfl
  | cons m ms ih =>
    obtain ⟨k₀, v⟩ := m
    obtain ⟨hfresh, hnodup⟩ := List.nodup_cons.1 hnodup
    rw [mapMembers, dedupMembers, ih _ hnodup, fetch_store, fetch]
    by_cases h0 : k₀ = k
    · subst h0
      simp [hfresh, (hk k₀).2 rfl]
    · have hf : ¬f k₀ = k := mt (hk k₀).1 h0
      have hmem : k ∈ ms.map Prod.fst ↔ k ∈ ((k₀, v) :: ms).map Prod.fst := by
        rw [List.map_cons, List.mem_cons]
        exact (or_iff_right fun e : k = k₀ => h0 e.symm).symm
      rw [if_neg hf, if_neg h0]
      exact if_congr hmem rfl rfl

theorem field_dedup_mapStrings {d : Value} (hd : WellFormed d) {k : List Char} (hk : ∀ k', f k' = k ↔ k' = k) :
    field (dedup (mapStrings f d)) k = (field d k).map fun v => dedup (mapStrings f v) := by
  cases d with
  | object ms =>
    have hnodup := (wellFormed_object_iff.1 hd).1
    simp only [mapStrings, dedup, field, fetch_dedupMembers hk [] hnodup, Option.map_some]
    split
    · rfl
    · rename_i hmem
      rw [fetch_of_not_mem hmem]
      rfl
  | _ => rfl

theorem getpath_dedup_mapStrings {d : Value} (hd : WellFormed d) {p : List (List Char)}
    (hp : ∀ k ∈ p, ∀ k', f k' = k ↔ k' = k) :
    getpath (dedup (mapStrings f d)) p = (getpath d p).map fun v => dedup (mapStrings f v) := by
  induction p generalizing d with
  | nil => rfl
  | cons k p ih =>
    rw [getpath_cons, getpath_cons, field_dedup_mapStrings hd (hp k List.mem_cons_self)]
    cases hc : field d k with
    | none => rfl
    | some c => exact ih (wellFormed_field hd hc) fun k' hk' => hp k' (List.mem_cons_of_mem k hk')

/-! ## Members under a replacement -/

theorem mem_keys_dedupMembers (acc ms : Members) (k : List Char) :
    k ∈ (dedupMembers acc ms).map Prod.fst ↔ k ∈ acc.map Prod.fst ∨ k ∈ ms.map Prod.fst := by
  induction ms generalizing acc with
  | nil => simp [dedupMembers]
  | cons m ms ih =>
    obtain ⟨k', v⟩ := m
    have hstore : k ∈ (store acc k' (dedup v)).map Prod.fst ↔ k ∈ acc.map Prod.fst ∨ k = k' := by
      rw [map_fst_store]
      split
      · rename_i hk
        exact ⟨Or.inl, fun h => h.elim id fun e => e ▸ hk⟩
      · simp
    rw [dedupMembers, ih, hstore, List.map_cons, List.mem_cons, or_assoc]

theorem nodup_dedupMembers (acc ms : Members) (h : (acc.map Prod.fst).Nodup) :
    ((dedupMembers acc ms).map Prod.fst).Nodup := by
  induction ms generalizing acc with
  | nil => exact h
  | cons m ms ih => exact ih _ (nodup_store h m.1 (dedup m.2))

theorem length_store (ms : Members) (k : List Char) (v : Value) :
    (store ms k v).length = if k ∈ ms.map Prod.fst then ms.length else ms.length + 1 := by
  have h := congrArg List.length (map_fst_store ms k v)
  rw [List.length_map] at h
  rw [h]
  split <;> simp

theorem filter_store (ms : Members) (k : List Char) (v : Value) (K : List Char) :
    (store ms k v).filter (·.1 ≠ K) =
      if k = K then ms.filter (·.1 ≠ K) else store (ms.filter (·.1 ≠ K)) k v := by
  induction ms with
  | nil => by_cases hk : k = K <;> simp [store, hk]
  | cons m ms ih =>
    obtain ⟨k₀, v₀⟩ := m
    by_cases h : k₀ = k
    · subst h
      by_cases hk : k₀ = K <;> simp [store, hk]
    · by_cases h₀ : k₀ = K
      · subst h₀
        have hne : ¬k = k₀ := fun e => h e.symm
        simpa [store, h, hne] using ih
      · by_cases hk : k = K <;> simpa [store, h, h₀, hk] using ih

/-- A member of a name that is kept can be left out before or after. -/
theorem filter_dedupMembers {K : List Char} (hK : ∀ k, f k = K ↔ k = K) (acc ms : Members) :
    (dedupMembers acc (mapMembers f ms)).filter (·.1 ≠ K) =
      dedupMembers (acc.filter (·.1 ≠ K)) (mapMembers f (ms.filter (·.1 ≠ K))) := by
  induction ms generalizing acc with
  | nil => rfl
  | cons m ms ih =>
    obtain ⟨k, v⟩ := m
    rw [mapMembers, dedupMembers, ih, filter_store]
    by_cases hk : k = K
    · simp [hk, (hK K).2 rfl]
    · simp [hk, mt (hK k).1 hk, mapMembers, dedupMembers]

/-- Two objects made from the same members, with one more member set in both. -/
theorem store_map_eq_iff {ms : Members} {a b : List Char × Value → List Char × Value}
    (hnodup : ((ms.map a).map Prod.fst).Nodup) (k : List Char) (v : Value) :
    store (ms.map a) k v = store (ms.map b) k v ↔
      ∀ m ∈ ms, (a m).1 = (b m).1 ∧ ((a m).1 = k ∨ (a m).2 = (b m).2) := by
  induction ms with
  | nil => simp
  | cons m ms ih =>
    rw [List.map_cons, List.map_cons, List.nodup_cons] at hnodup
    have ih := ih hnodup.2
    rw [List.forall_mem_cons, ← ih, List.map_cons, List.map_cons]
    rcases ha : a m with ⟨ka, va⟩
    rcases hb : b m with ⟨kb, vb⟩
    simp only [store]
    by_cases hka : ka = k
    · subst hka
      by_cases hkb : kb = ka
      · subst hkb
        -- the rest has no more of the key
        have hfresh : kb ∉ (ms.map a).map Prod.fst := by simpa [ha] using hnodup.1
        have hrest : ms.map a = ms.map b ↔ store (ms.map a) kb v = store (ms.map b) kb v := by
          constructor
          · exact fun h => by rw [h]
          · intro h
            have hkeys := ih.1 h
            refine List.map_congr_left fun m' hm' => ?_
            obtain ⟨hk', hv'⟩ := hkeys m' hm'
            have hne : (a m').1 ≠ kb := fun e => hfresh (e ▸ List.mem_map_of_mem (List.mem_map_of_mem hm'))
            exact Prod.ext hk' (hv'.resolve_left hne)
        simpa using hrest
      · have hkb' : ¬ka = kb := fun e => hkb e.symm
        simp [hkb, hkb']
    · by_cases hkb : kb = k
      · subst hkb
        simp [hka]
      · simp [hka, hkb, and_assoc]

end Lib.Json
