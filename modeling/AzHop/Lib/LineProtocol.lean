import AzHop.Lib.Objects
import AzHop.Lib.Split
import Mathlib
/-!
# InfluxDB line protocol

A line is a measurement, its tags and its fields, with commas, equals signs and
a blank between them and perhaps a timestamp at the end. In a name or a tag
these three characters stand after a backslash, and a backslash before any
other character stands for itself. Of the types a field can have only the
integers are read here.

`write` puts a line together without escaping anything, as a script that
concatenates texts does. `decode_write` says which points come back, and
`decode_tokens` what a line must look like for its tags to be read.
-/
namespace Lib.LineProtocol
open Lib.Objects (map_of_mapM mapM_eq_map)
open Lib.Split

/-- A point, with fields that are integers. -/
structure Point where
  measurement : List Char
  tags : List (List Char × List Char)
  fields : List (List Char × Int)
  deriving DecidableEq

/-! ## Writing -/

def writeInt : Int → List Char
  | .ofNat n => Nat.toDigits 10 n ++ ['i']
  | .negSucc n => '-' :: Nat.toDigits 10 (n + 1) ++ ['i']

/-- A tag as it is printed. -/
def writeTag (tag : List Char × List Char) : List Char := ',' :: tag.1 ++ '=' :: tag.2

/-- A field as it is printed. -/
def writeField (field : List Char × Int) : List Char := field.1 ++ '=' :: writeInt field.2

def write (p : Point) : List Char :=
  p.measurement ++ p.tags.flatMap writeTag ++ ' ' :: List.intercalate [','] (p.fields.map writeField)

/-- A line for each point. -/
def print (ps : List Point) : List Char := ps.flatMap fun p => write p ++ ['\n']

/-! ## Reading -/

/-- A character that stands for itself, or one that separates. -/
inductive Token
  | char (c : Char)
  | comma
  | equals
  | blank
  deriving DecidableEq

/-- The characters a backslash can stand before. -/
def isSpecial (c : Char) : Bool := c = ',' || c = '=' || c = ' '

/-- A character without a backslash. -/
def token (c : Char) : Token :=
  if c = ',' then .comma else if c = '=' then .equals else if c = ' ' then .blank else .char c

/-- A backslash before a special character makes it an ordinary one. -/
def lex : List Char → List Token
  | [] => []
  | [c] => [token c]
  | c :: d :: cs => if c = '\\' ∧ isSpecial d then .char d :: lex cs else token c :: lex (d :: cs)

def Token.char? : Token → Option Char
  | .char c => some c
  | _ => none

/-- A text of at least one character. -/
def name? (ts : List Token) : Option (List Char) := if ts = [] then none else ts.mapM Token.char?

/-- Digits. -/
def natural? (cs : List Char) : Option Nat :=
  if cs ≠ [] ∧ cs.all Char.isDigit then some (Nat.ofDigitChars 10 cs 0) else none

/-- Digits, with a minus sign or without. -/
def integer? : List Char → Option Int
  | '-' :: cs => (natural? cs).map fun n => -(n : Int)
  | cs => (natural? cs).map fun n => (n : Int)

/-- An integer and its suffix. -/
def value? (cs : List Char) : Option Int := if cs.getLast? = some 'i' then integer? cs.dropLast else none

/-- A name and a value. -/
def tag? (ts : List Token) : Option (List Char × List Char) :=
  match ts.splitOn .equals with
  | [k, v] => do return (← name? k, ← name? v)
  | _ => none

/-- A name and a number. -/
def field? (ts : List Token) : Option (List Char × Int) :=
  match ts.splitOn .equals with
  | [k, v] => do return (← name? k, ← value? (← name? v))
  | _ => none

/-- A point, from what stands before and after the first blank. -/
def body? (head fields : List Token) : Option Point :=
  match head.splitOn .comma with
  | m :: tags => do
    let measurement ← name? m
    let tags ← tags.mapM tag?
    let fields ← (fields.splitOn .comma).mapM field?
    return { measurement, tags, fields }
  | [] => none

/-- A line, with a timestamp or without. -/
def decode (line : List Char) : Option Point :=
  match (lex line).splitOn .blank with
  | [head, fields] => body? head fields
  | [head, fields, timestamp] => if ((name? timestamp).bind integer?).isSome then body? head fields else none
  | _ => none

/-- The lines of an output, of which empty ones are skipped. -/
def decodeAll (output : List Char) : Option (List Point) :=
  ((output.splitOn '\n').filter (· ≠ [])).mapM decode

example : decode "cpu,host=a\\,b load=3i".toList =
    some ⟨"cpu".toList, [("host".toList, "a,b".toList)], [("load".toList, 3)]⟩ := by decide

/-! ## Tokens -/

theorem lex_cons {c : Char} {cs : List Char} (h : c = '\\' → ∀ d ∈ cs.head?, isSpecial d = false) :
    lex (c :: cs) = token c :: lex cs := by
  cases cs with
  | nil => rfl
  | cons d cs =>
    have hno : ¬(c = '\\' ∧ isSpecial d = true) := by
      rintro ⟨hc, hd⟩
      rw [h hc d rfl] at hd
      cases hd
    rw [lex, if_neg hno]

theorem lex_of_ne {c : Char} (h : c ≠ '\\') (cs : List Char) : lex (c :: cs) = token c :: lex cs :=
  lex_cons fun hc => absurd hc h

theorem token_of_not_special {c : Char} (h : isSpecial c = false) : token c = .char c := by
  simp only [isSpecial, Bool.or_eq_false_iff, decide_eq_false_iff_not] at h
  rw [token, if_neg h.1.1, if_neg h.1.2, if_neg h.2]

/-- Nothing in the text needs an escape. -/
def Plain (cs : List Char) : Prop := ∀ c ∈ cs, isSpecial c = false

/-- The text does not escape what follows it. -/
def Closed (cs : List Char) : Prop := cs.getLast? ≠ some '\\'

/-- A text that is read back as it is written. -/
structure Name (cs : List Char) : Prop where
  ne_nil : cs ≠ []
  plain : Plain cs
  closed : Closed cs

instance (cs : List Char) : Decidable (Plain cs) :=
  decidable_of_iff (cs.all (fun c => !isSpecial c) = true) (by simp [Plain])

instance (cs : List Char) : Decidable (Closed cs) := inferInstanceAs (Decidable (cs.getLast? ≠ some '\\'))

theorem name_iff {cs : List Char} : Name cs ↔ cs ≠ [] ∧ Plain cs ∧ Closed cs :=
  ⟨fun h => ⟨h.ne_nil, h.plain, h.closed⟩, fun h => ⟨h.1, h.2.1, h.2.2⟩⟩

instance (cs : List Char) : Decidable (Name cs) := decidable_of_iff _ name_iff.symm

theorem Plain.append {a b : List Char} (ha : Plain a) (hb : Plain b) : Plain (a ++ b) := by
  intro c hc
  exact (List.mem_append.1 hc).elim (ha c) (hb c)

theorem lex_plain {cs : List Char} (hplain : Plain cs) (hclosed : Closed cs) (rest : List Char) :
    lex (cs ++ rest) = cs.map Token.char ++ lex rest := by
  induction cs with
  | nil => rfl
  | cons c cs ih =>
    have hc : isSpecial c = false := hplain c List.mem_cons_self
    have hcs : Plain cs := fun d hd => hplain d (List.mem_cons_of_mem c hd)
    cases cs with
    | nil =>
      have hne : c ≠ '\\' := fun h => hclosed (by rw [h]; rfl)
      rw [List.cons_append, lex_of_ne hne, token_of_not_special hc]
      rfl
    | cons d cs =>
      have hnext : ∀ e ∈ (d :: cs ++ rest).head?, isSpecial e = false := by
        intro e he
        cases he
        exact hcs d List.mem_cons_self
      rw [List.cons_append, lex_cons fun _ => hnext, token_of_not_special hc,
        ih hcs (by simpa [Closed, List.getLast?_cons_cons] using hclosed)]
      rfl

/-! ## Reading what was written -/

/-- The tokens of a tag. -/
def tagTokens (tag : List Char × List Char) : List Token :=
  .comma :: tag.1.map Token.char ++ .equals :: tag.2.map Token.char

/-- The tokens of a field. -/
def fieldTokens (field : List Char × Int) : List Token :=
  field.1.map Token.char ++ .equals :: (writeInt field.2).map Token.char

theorem mapM_char? (cs : List Char) : (cs.map Token.char).mapM Token.char? = some cs := by
  induction cs with
  | nil => rfl
  | cons c cs ih => simp [Token.char?, ih]

theorem name?_map {cs : List Char} (h : cs ≠ []) : name? (cs.map Token.char) = some cs := by
  rw [name?, if_neg (by simpa using h), mapM_char?]

theorem name?_eq_some {ts : List Token} {cs : List Char} (h : name? ts = some cs) :
    ts = cs.map Token.char ∧ cs ≠ [] := by
  unfold name? at h
  split at h
  · cases h
  · rename_i hne
    have hchar : ∀ t c, Token.char? t = some c → Token.char c = t := by
      intro t c htc
      cases t <;> simp_all [Token.char?]
    have hmap : cs.map Token.char = ts := by simpa using map_of_mapM (h := id) hchar h
    refine ⟨hmap.symm, fun hnil => hne ?_⟩
    rw [← hmap, hnil]
    rfl

theorem not_mem_map_char {t : Token} (h : t.char? = none) (cs : List Char) : t ∉ cs.map Token.char := by
  intro hmem
  obtain ⟨c, -, rfl⟩ := List.mem_map.1 hmem
  cases h

theorem name_of_isDigit {cs : List Char} (hne : cs ≠ []) (h : ∀ c ∈ cs, c.isDigit = true) : Name cs := by
  refine ⟨hne, ?_, ?_⟩
  · intro c hc
    have hdig := h c hc
    simp only [isSpecial, Bool.or_eq_false_iff, decide_eq_false_iff_not]
    refine ⟨⟨?_, ?_⟩, ?_⟩ <;> rintro rfl <;> cases hdig
  · intro hlast
    have hdig := h _ (List.mem_of_getLast? hlast)
    cases hdig

theorem natural?_toDigits (n : Nat) : natural? (Nat.toDigits 10 n) = some n := by
  have hall : (Nat.toDigits 10 n).all Char.isDigit = true :=
    List.all_eq_true.2 fun _ hc => Nat.isDigit_of_mem_toDigits (by decide) (by decide) hc
  rw [natural?, if_pos ⟨Nat.toDigits_ne_nil, hall⟩, Nat.ofDigitChars_ten_toDigits]

theorem value?_writeInt (n : Int) : value? (writeInt n) = some n := by
  cases n with
  | ofNat n =>
    have hhead : ∀ cs, Nat.toDigits 10 n ≠ '-' :: cs := by
      intro cs hcs
      have hdig := Nat.isDigit_of_mem_toDigits (b := 10) (n := n) (c := '-') (by decide) (by decide) (by simp [hcs])
      cases hdig
    have hint : integer? (Nat.toDigits 10 n) = some (n : Int) := by
      unfold integer?
      split
      · rename_i cs h
        exact absurd h (hhead cs)
      · rw [natural?_toDigits]
        rfl
    simpa [value?, writeInt] using hint
  | negSucc n =>
    have hlast : (writeInt (.negSucc n)).getLast? = some 'i' := by rw [writeInt, List.getLast?_concat]
    have hinit : (writeInt (.negSucc n)).dropLast = '-' :: Nat.toDigits 10 (n + 1) := by
      rw [writeInt, List.dropLast_concat]
    rw [value?, if_pos hlast, hinit, integer?, natural?_toDigits]
    rfl

theorem name_writeInt (n : Int) : Name (writeInt n) := by
  have hdigits : ∀ m : Nat, Plain (Nat.toDigits 10 m) := fun m =>
    (name_of_isDigit Nat.toDigits_ne_nil fun _ hc => Nat.isDigit_of_mem_toDigits (by decide) (by decide) hc).plain
  have hsuffix : Plain ['i'] := by
    intro c hc
    rw [List.mem_singleton.1 hc]
    rfl
  cases n with
  | ofNat n => exact ⟨by simp [writeInt], (hdigits n).append hsuffix, by simp [Closed, writeInt]⟩
  | negSucc n =>
    refine ⟨by simp [writeInt], ?_, by rw [Closed, writeInt, List.getLast?_concat]; decide⟩
    intro c hc
    rcases List.mem_cons.1 hc with rfl | hc
    · rfl
    · exact ((hdigits (n + 1)).append hsuffix) c hc

theorem Name.lex {cs : List Char} (h : Name cs) (rest : List Char) :
    lex (cs ++ rest) = cs.map Token.char ++ LineProtocol.lex rest :=
  lex_plain h.plain h.closed rest

theorem lex_writeTag {tag : List Char × List Char} (hk : Name tag.1) (hv : Name tag.2) (rest : List Char) :
    lex (writeTag tag ++ rest) = tagTokens tag ++ lex rest := by
  have hcomma : lex (writeTag tag ++ rest) = .comma :: lex (tag.1 ++ '=' :: (tag.2 ++ rest)) := by
    simp [writeTag, lex_of_ne, token]
  rw [hcomma, hk.lex, lex_of_ne (by decide), hv.lex]
  simp [tagTokens, token]

theorem lex_writeField {field : List Char × Int} (hk : Name field.1) (rest : List Char) :
    lex (writeField field ++ rest) = fieldTokens field ++ lex rest := by
  have hshape : writeField field ++ rest = field.1 ++ '=' :: (writeInt field.2 ++ rest) := by
    simp [writeField]
  rw [hshape, hk.lex, lex_of_ne (by decide), (name_writeInt field.2).lex]
  simp [fieldTokens, token]

/-- A point all of whose names can be written as they are. -/
structure Writable (p : Point) : Prop where
  measurement : Name p.measurement
  tags : ∀ t ∈ p.tags, Name t.1 ∧ Name t.2
  fields : ∀ f ∈ p.fields, Name f.1
  some_field : p.fields ≠ []

theorem lex_tags {tags : List (List Char × List Char)} (h : ∀ t ∈ tags, Name t.1 ∧ Name t.2) (rest : List Char) :
    lex (tags.flatMap writeTag ++ rest) = tags.flatMap tagTokens ++ lex rest := by
  induction tags with
  | nil => rfl
  | cons t tags ih =>
    obtain ⟨hk, hv⟩ := h t List.mem_cons_self
    rw [List.flatMap_cons, List.append_assoc, lex_writeTag hk hv, ih fun u hu => h u (List.mem_cons_of_mem t hu),
      List.flatMap_cons, List.append_assoc]

theorem lex_fields {fields : List (List Char × Int)} (h : ∀ f ∈ fields, Name f.1) :
    lex (fields.flatMap fun f => ',' :: writeField f) = fields.flatMap fun f => .comma :: fieldTokens f := by
  induction fields with
  | nil => rfl
  | cons f fields ih =>
    rw [List.flatMap_cons, List.cons_append, lex_of_ne (by decide), lex_writeField (h f List.mem_cons_self),
      ih fun g hg => h g (List.mem_cons_of_mem f hg), List.flatMap_cons]
    rfl

theorem lex_write {p : Point} (h : Writable p) : lex (write p) = p.measurement.map Token.char ++
    p.tags.flatMap tagTokens ++ .blank :: List.intercalate [.comma] (p.fields.map fieldTokens) := by
  obtain ⟨f, fields, hf⟩ := List.exists_cons_of_ne_nil h.some_field
  have hnames : ∀ g ∈ f :: fields, Name g.1 := hf ▸ h.fields
  have hbody : lex (List.intercalate [','] (p.fields.map writeField)) =
      List.intercalate [.comma] (p.fields.map fieldTokens) := by
    rw [hf, List.map_cons, List.map_cons, intercalate_map, intercalate_map, lex_writeField (hnames f List.mem_cons_self),
      lex_fields fun g hg => hnames g (List.mem_cons_of_mem f hg)]
  have hshape : write p = p.measurement ++ (p.tags.flatMap writeTag ++
      ' ' :: List.intercalate [','] (p.fields.map writeField)) := by
    simp [write]
  rw [hshape, h.measurement.lex, lex_tags h.tags, lex_of_ne (by decide), hbody]
  simp [token]

theorem tag?_tagTokens {tag : List Char × List Char} (hk : tag.1 ≠ []) (hv : tag.2 ≠ []) :
    tag? (tagTokens tag).tail = some tag := by
  have hsplit : (tagTokens tag).tail.splitOn .equals = [tag.1.map Token.char, tag.2.map Token.char] :=
    splitOn_eq_pair_iff.2 ⟨rfl, not_mem_map_char rfl _, not_mem_map_char rfl _⟩
  simp [tag?, hsplit, name?_map hk, name?_map hv]

theorem field?_fieldTokens {field : List Char × Int} (hk : field.1 ≠ []) : field? (fieldTokens field) = some field := by
  have hsplit : (fieldTokens field).splitOn .equals = [field.1.map Token.char, (writeInt field.2).map Token.char] :=
    splitOn_eq_pair_iff.2 ⟨rfl, not_mem_map_char rfl _, not_mem_map_char rfl _⟩
  simp [field?, hsplit, name?_map hk, name?_map (name_writeInt field.2).ne_nil, value?_writeInt]

theorem structural_not_mem_tag {t : Token} (h : t.char? = none) (hne : t ≠ .equals) (tag : List Char × List Char) :
    t ∉ (tagTokens tag).tail := by
  simp [tagTokens, not_mem_map_char h, hne]

theorem structural_not_mem_field {t : Token} (h : t.char? = none) (hne : t ≠ .equals) (field : List Char × Int) :
    t ∉ fieldTokens field := by
  simp [fieldTokens, not_mem_map_char h, hne]

theorem splitOn_comma_head {m : List Char} {tags : List (List Char × List Char)} :
    (m.map Token.char ++ tags.flatMap tagTokens).splitOn .comma =
      m.map Token.char :: tags.map fun t => (tagTokens t).tail := by
  have hjoin : m.map Token.char ++ tags.flatMap tagTokens =
      List.intercalate [.comma] (m.map Token.char :: tags.map fun t => (tagTokens t).tail) :=
    (intercalate_map _ _ _ _).symm
  rw [hjoin, List.splitOn_intercalate]
  · intro l hl
    rcases List.mem_cons.1 hl with rfl | hl
    · exact not_mem_map_char rfl m
    · obtain ⟨t, -, rfl⟩ := List.mem_map.1 hl
      exact structural_not_mem_tag rfl (by decide) t
  · exact List.cons_ne_nil _ _

theorem splitOn_comma_fields {fields : List (List Char × Int)} (h : fields ≠ []) :
    (List.intercalate [.comma] (fields.map fieldTokens)).splitOn .comma = fields.map fieldTokens := by
  refine List.splitOn_intercalate _ ?_ (by simpa using h)
  intro l hl
  obtain ⟨f, -, rfl⟩ := List.mem_map.1 hl
  exact structural_not_mem_field rfl (by decide) f

/-- What is written without escapes is read back when nothing needed one. -/
theorem decode_write {p : Point} (h : Writable p) : decode (write p) = some p := by
  have hhead : Token.blank ∉ p.measurement.map Token.char ++ p.tags.flatMap tagTokens := by
    simp [tagTokens, not_mem_map_char (t := .blank) rfl]
  have hfields : Token.blank ∉ List.intercalate [.comma] (p.fields.map fieldTokens) := by
    obtain ⟨f, fields, hf⟩ := List.exists_cons_of_ne_nil h.some_field
    rw [hf, List.map_cons, intercalate_map]
    simp [structural_not_mem_field (t := .blank) rfl]
  have hsplit : (lex (write p)).splitOn .blank = [p.measurement.map Token.char ++ p.tags.flatMap tagTokens,
      List.intercalate [.comma] (p.fields.map fieldTokens)] := by
    rw [lex_write h, List.splitOn_append_cons_self_of_not_mem hhead, List.splitOn_eq_singleton hfields]
  have htags : (p.tags.map fun t => (tagTokens t).tail).mapM tag? = some p.tags := by
    rw [List.mapM_map]
    have hread : ∀ t ∈ p.tags, (tag? ∘ fun t => (tagTokens t).tail) t = some (id t) := fun t ht =>
      tag?_tagTokens (h.tags t ht).1.ne_nil (h.tags t ht).2.ne_nil
    simpa using mapM_eq_map hread
  have hvalues : (p.fields.map fieldTokens).mapM field? = some p.fields := by
    rw [List.mapM_map]
    have hread : ∀ f ∈ p.fields, (field? ∘ fieldTokens) f = some (id f) := fun f hf =>
      field?_fieldTokens (h.fields f hf).ne_nil
    simpa using mapM_eq_map hread
  rw [decode, hsplit]
  simp only [body?, splitOn_comma_head, splitOn_comma_fields h.some_field, name?_map h.measurement.ne_nil, htags, hvalues]
  rfl

theorem write_ne_nil (p : Point) : write p ≠ [] := by simp [write]

theorem lines_print {ps : List Point} (h : ∀ p ∈ ps, '\n' ∉ write p) :
    ((print ps).splitOn '\n').filter (· ≠ []) = ps.map write := by
  rw [print, splitOn_lines h, List.filter_append, List.filter_eq_self.2]
  · simp
  · intro l hl
    obtain ⟨p, -, rfl⟩ := List.mem_map.1 hl
    simpa using write_ne_nil p

theorem decodeAll_print {ps : List Point} (h : ∀ p ∈ ps, Writable p ∧ '\n' ∉ write p) :
    decodeAll (print ps) = some ps := by
  have hread : ∀ p ∈ ps, (decode ∘ write) p = some (id p) := fun p hp => decode_write (h p hp).1
  rw [decodeAll, lines_print fun p hp => (h p hp).2, List.mapM_map]
  simpa using mapM_eq_map hread

/-! ## What a line that can be read looks like -/

theorem field?_eq_some {ts : List Token} {field : List Char × Int} (h : field? ts = some field) : .equals ∈ ts := by
  unfold field? at h
  split at h
  · rename_i k v hsplit
    rw [(splitOn_eq_pair_iff.1 hsplit).1]
    simp
  · cases h

theorem tag?_eq_some {ts : List Token} {tag : List Char × List Char} (h : tag? ts = some tag) :
    (tagTokens tag).tail = ts ∧ tag.1 ≠ [] ∧ tag.2 ≠ [] := by
  unfold tag? at h
  split at h
  · rename_i k v hsplit
    simp only [Option.bind_eq_bind, Option.bind_eq_some_iff, Option.pure_def, Option.some.injEq] at h
    obtain ⟨k', hk, v', hv, rfl⟩ := h
    obtain ⟨rfl, hkne⟩ := name?_eq_some hk
    obtain ⟨rfl, hvne⟩ := name?_eq_some hv
    exact ⟨(splitOn_eq_pair_iff.1 hsplit).1.symm, hkne, hvne⟩
  · cases h

theorem body?_eq_some {head fields : List Token} {p : Point} (h : body? head fields = some p) :
    head = p.measurement.map Token.char ++ p.tags.flatMap tagTokens ∧ .equals ∈ fields ∧
      ∀ t ∈ p.tags, t.1 ≠ [] ∧ t.2 ≠ [] := by
  unfold body? at h
  split at h
  · rename_i m tags hsplit
    simp only [Option.bind_eq_bind, Option.bind_eq_some_iff, Option.pure_def, Option.some.injEq] at h
    obtain ⟨m', hm, tags', htags, fields', hfields, rfl⟩ := h
    obtain ⟨rfl, -⟩ := name?_eq_some hm
    have hmap : tags'.map (fun t => (tagTokens t).tail) = tags := by
      simpa using map_of_mapM (h := id) (fun _ _ ht => (tag?_eq_some ht).1) htags
    refine ⟨?_, ?_, ?_⟩
    · have hjoin : List.intercalate [Token.comma] (head.splitOn .comma) = head := List.intercalate_splitOn _
      rw [← hjoin, hsplit, ← hmap]
      exact intercalate_map _ _ _ _
    · obtain ⟨piece, pieces, hpieces⟩ := List.exists_cons_of_ne_nil (List.splitOn_ne_nil Token.comma fields)
      rw [hpieces] at hfields
      obtain ⟨c, hc⟩ := Lib.Objects.exists_of_mapM hfields piece List.mem_cons_self
      have hjoin := intercalate_map Token.comma id piece pieces
      rw [List.map_id, ← hpieces, List.intercalate_splitOn] at hjoin
      rw [hjoin]
      exact List.mem_append_left _ (field?_eq_some hc)
    · intro t ht
      obtain ⟨ts, -, hts⟩ := (Lib.Objects.mem_mapM_iff htags t).1 ht
      exact (tag?_eq_some hts).2
  · cases h

theorem decode_eq_some {line : List Char} {p : Point} (h : decode line = some p) : ∃ rest,
    lex line = p.measurement.map Token.char ++ p.tags.flatMap tagTokens ++ .blank :: rest ∧ .equals ∈ rest ∧
      ∀ t ∈ p.tags, t.1 ≠ [] ∧ t.2 ≠ [] := by
  have hjoin : List.intercalate [Token.blank] ((lex line).splitOn .blank) = lex line := List.intercalate_splitOn _
  unfold decode at h
  split at h
  · rename_i head fields hsplit
    obtain ⟨rfl, hequals, htags⟩ := body?_eq_some h
    exact ⟨fields, (splitOn_eq_pair_iff.1 hsplit).1, hequals, htags⟩
  · rename_i head fields timestamp hsplit
    split at h
    · obtain ⟨rfl, hequals, htags⟩ := body?_eq_some h
      refine ⟨fields ++ .blank :: timestamp, ?_, List.mem_append_left _ hequals, htags⟩
      rw [← hjoin, hsplit]
      simp [List.intercalate, List.intersperse]
    · cases h
  · cases h

/-- A backslash that is read as itself stands before another character. -/
def Follows (s t : Token) : Prop := s = .char '\\' → t.char?.isSome = true

theorem head_lex {c : Char} (h : isSpecial c = false) (cs : List Char) :
    ∀ t ∈ (lex (c :: cs)).head?, t.char?.isSome = true := by
  intro t ht
  cases cs with
  | nil =>
    rw [lex, token_of_not_special h] at ht
    cases ht
    rfl
  | cons d cs =>
    unfold lex at ht
    split at ht
    · cases ht
      rfl
    · rw [token_of_not_special h] at ht
      cases ht
      rfl

theorem isChain_lex (line : List Char) : (lex line).IsChain Follows := by
  fun_induction lex line with
  | case1 => exact .nil
  | case2 c => exact .singleton _
  | case3 c d cs hesc ih =>
    refine ih.cons fun t _ hd => ?_
    obtain rfl : d = '\\' := by simpa using hd
    cases hesc.2
  | case4 c d cs hno ih =>
    refine ih.cons fun t ht hc => ?_
    have hback : c = '\\' := by
      unfold token at hc
      split_ifs at hc
      simpa using hc
    have hd : isSpecial d = false := by simpa [hback] using hno
    exact head_lex hd cs t ht

theorem mem_of_char_mem_lex {line : List Char} {c : Char} (h : .char c ∈ lex line) : c ∈ line := by
  have htoken : ∀ d, Token.char c = token d → c = d := by
    intro d hd
    unfold token at hd
    split_ifs at hd
    simpa using hd
  fun_induction lex line with
  | case1 => cases h
  | case2 d => exact List.mem_singleton.2 (htoken d (List.mem_singleton.1 h))
  | case3 d e cs hesc ih =>
    rcases List.mem_cons.1 h with h | h
    · obtain rfl : c = e := by simpa using h
      simp
    · exact List.mem_cons_of_mem _ (List.mem_cons_of_mem _ (ih h))
  | case4 d e cs hno ih =>
    rcases List.mem_cons.1 h with h | h
    · exact htoken d h ▸ List.mem_cons_self
    · exact List.mem_cons_of_mem _ (ih h)

theorem closed_of_lex {line cs : List Char} {front rest : List Token} {t : Token}
    (h : lex line = front ++ cs.map Token.char ++ t :: rest) (ht : t.char? = none) : Closed cs := by
  intro hlast
  obtain ⟨cs, rfl⟩ := List.getLast?_eq_some_iff.1 hlast
  have hchain := isChain_lex line
  have hshape : front ++ (cs ++ ['\\']).map Token.char ++ t :: rest =
      (front ++ cs.map Token.char) ++ .char '\\' :: t :: rest := by
    simp
  rw [h, hshape, List.isChain_append_cons_cons] at hchain
  have hchar := hchain.2.1 rfl
  rw [ht] at hchar
  cases hchar

/-- What is known of a tag that was read from a line. -/
theorem tag_of_decode {line : List Char} {p : Point} (h : decode line = some p) {t : List Char × List Char}
    (ht : t ∈ p.tags) : t.1 ≠ [] ∧ t.2 ≠ [] ∧ Closed t.2 ∧ ∀ c ∈ t.2, c ∈ line := by
  obtain ⟨rest, hlex, -, hne⟩ := decode_eq_some h
  obtain ⟨before, after, htags⟩ := List.append_of_mem ht
  have hnext : ∃ u us, u.char? = none ∧ after.flatMap tagTokens ++ .blank :: rest = u :: us := by
    cases after with
    | nil => exact ⟨.blank, rest, rfl, rfl⟩
    | cons t' after => exact ⟨.comma, _, rfl, rfl⟩
  obtain ⟨u, us, hu, heq⟩ := hnext
  have hshape : lex line = (p.measurement.map Token.char ++ before.flatMap tagTokens ++
      .comma :: t.1.map Token.char ++ [.equals]) ++ t.2.map Token.char ++ u :: us := by
    rw [hlex, htags, ← heq]
    simp [tagTokens]
  refine ⟨(hne t ht).1, (hne t ht).2, closed_of_lex hshape hu, fun c hc => mem_of_char_mem_lex ?_⟩
  rw [hshape]
  exact List.mem_append_left _ (List.mem_append_right _ (List.mem_map_of_mem hc))

/-! ## Weights

Every special character of a line is structural or stands after a backslash, so
a name that was read with special characters in it came from a heavier text.
The characters weigh what `w` says.
-/

section
variable (w : Char → Nat)

def weight (cs : List Char) : Nat := (cs.map w).sum

def Token.cost : Token → Nat
  | .char c => (if isSpecial c then w '\\' else 0) + w c
  | .comma => w ','
  | .equals => w '='
  | .blank => w ' '

/-- What a name costs in the line it is read from. -/
def nameCost (cs : List Char) : Nat := ((cs.map Token.char).map (Token.cost w)).sum

def tagCost (tag : List Char × List Char) : Nat := w ',' + nameCost w tag.1 + w '=' + nameCost w tag.2

@[simp] theorem weight_nil : weight w [] = 0 := rfl

@[simp] theorem weight_cons (c : Char) (cs : List Char) : weight w (c :: cs) = w c + weight w cs := rfl

@[simp] theorem weight_append (a b : List Char) : weight w (a ++ b) = weight w a + weight w b := by
  simp [weight]

theorem cost_token (c : Char) : (token c).cost w = w c := by
  by_cases hs : isSpecial c = true
  · have hcases : c = ',' ∨ c = '=' ∨ c = ' ' := by simpa [isSpecial, or_assoc] using hs
    rcases hcases with rfl | rfl | rfl <;> rfl
  · rw [token_of_not_special (by simpa using hs)]
    simp [Token.cost, hs]

theorem weight_lex (line : List Char) : weight w line = ((lex line).map (Token.cost w)).sum := by
  fun_induction lex line with
  | case1 => rfl
  | case2 c => simp [weight, cost_token]
  | case3 c d cs hesc ih =>
    simp only [weight_cons, ih, List.map_cons, List.sum_cons, Token.cost, if_pos hesc.2, hesc.1, add_assoc]
  | case4 c d cs hno ih => rw [List.map_cons, List.sum_cons, cost_token, ← ih, weight_cons]

theorem nameCost_eq (cs : List Char) : nameCost w cs = weight w cs + (cs.filter isSpecial).length * w '\\' := by
  induction cs with
  | nil => simp [nameCost]
  | cons c cs ih =>
    have hcost : nameCost w (c :: cs) = Token.cost w (.char c) + nameCost w cs := rfl
    rw [hcost, weight_cons, ih, List.filter_cons, Token.cost]
    split
    · rw [List.length_cons, Nat.succ_mul]
      omega
    · omega

theorem cost_tagTokens (tag : List Char × List Char) : ((tagTokens tag).map (Token.cost w)).sum = tagCost w tag := by
  simp only [tagTokens, tagCost, nameCost, List.cons_append, List.map_cons, List.map_append, List.sum_cons,
    List.sum_append, Token.cost]
  omega

/-- The tags of a line that is read, with the blank before the fields and the
equals sign of a field, weigh no more than the line. -/
theorem tagCost_le_weight {line : List Char} {p : Point} (h : decode line = some p) :
    (p.tags.map (tagCost w)).sum + w ' ' + w '=' ≤ weight w line := by
  obtain ⟨rest, hlex, hequals, -⟩ := decode_eq_some h
  have htags : ((p.tags.flatMap tagTokens).map (Token.cost w)).sum = (p.tags.map (tagCost w)).sum := by
    induction p.tags with
    | nil => rfl
    | cons t tags ih =>
      rw [List.flatMap_cons, List.map_append, List.sum_append, ih, cost_tagTokens, List.map_cons, List.sum_cons]
  have hrest : w '=' ≤ (rest.map (Token.cost w)).sum := by
    obtain ⟨front, back, rfl⟩ := List.append_of_mem hequals
    simp only [List.map_append, List.map_cons, List.sum_append, List.sum_cons, Token.cost]
    omega
  rw [weight_lex, hlex]
  simp only [List.map_append, List.map_cons, List.sum_append, List.sum_cons, htags, Token.cost]
  omega

end

end Lib.LineProtocol
