import Mathlib.Data.List.Nodup
import Mathlib.Data.List.Dedup
/-!
# Objects as association lists

A JSON or HCL object is a list of key/value pairs. `union` is Bicep's
`union` and Terraform's `merge` on objects: the second object wins on a key
both have. When all the merged objects have different keys, merging them is
concatenation (`unionAll_eq_flatten`), which is how the large tables built
from conditional blocks are reasoned about.
-/
namespace Lib.Objects

variable {κ α : Type}

/-- The keys of an object. -/
def keys (o : List (κ × α)) : List κ := o.map Prod.fst

@[simp] theorem keys_nil : keys ([] : List (κ × α)) = [] := rfl

@[simp] theorem keys_cons (x : κ × α) (o : List (κ × α)) : keys (x :: o) = x.1 :: keys o := rfl

@[simp] theorem keys_append (a b : List (κ × α)) : keys (a ++ b) = keys a ++ keys b :=
  List.map_append

theorem mem_keys_of_mem {k : κ} {v : α} {o : List (κ × α)} (h : (k, v) ∈ o) : k ∈ keys o :=
  List.mem_map.2 ⟨(k, v), h, rfl⟩

variable [DecidableEq κ]

/-- `a` updated with the properties of `b`. -/
def union (a b : List (κ × α)) : List (κ × α) := a.filter (fun x => x.1 ∉ keys b) ++ b

/-- The union of several, from left to right. -/
def unionAll (os : List (List (κ × α))) : List (κ × α) := os.foldl union []

/-- The value of property `k`, if the object has it. -/
def get? (o : List (κ × α)) (k : κ) : Option α := (o.find? (fun x => x.1 = k)).map Prod.snd

theorem get?_isSome_iff (o : List (κ × α)) (k : κ) : (get? o k).isSome = true ↔ k ∈ keys o := by
  simp only [get?, Option.isSome_map, List.find?_isSome, decide_eq_true_eq, keys, List.mem_map]

theorem mem_of_get? {o : List (κ × α)} {k : κ} {v : α} (h : get? o k = some v) : (k, v) ∈ o := by
  obtain ⟨⟨k', v'⟩, hf, rfl⟩ := Option.map_eq_some_iff.1 h
  have hk : k' = k := by simpa using List.find?_some hf
  subst hk
  exact List.mem_of_find?_eq_some hf

theorem get?_append (a b : List (κ × α)) (k : κ) : get? (a ++ b) k = (get? a k).or (get? b k) := by
  simp only [get?, List.find?_append]
  cases List.find? (fun x : κ × α => decide (x.1 = k)) a <;> rfl

theorem get?_of_not_mem {o : List (κ × α)} {k : κ} (h : k ∉ keys o) : get? o k = none := by
  rw [← Option.not_isSome_iff_eq_none, get?_isSome_iff]
  exact h

theorem mem_keys_union {k : κ} {a b : List (κ × α)} : k ∈ keys (union a b) ↔ k ∈ keys a ∨ k ∈ keys b := by
  by_cases hb : k ∈ keys b
  · simp [union, hb]
  · simp only [union, keys_append, List.mem_append, hb, or_false]
    constructor
    · intro h
      obtain ⟨x, hx, rfl⟩ := List.mem_map.1 h
      exact List.mem_map_of_mem (List.mem_of_mem_filter hx)
    · intro h
      obtain ⟨x, hx, rfl⟩ := List.mem_map.1 h
      exact List.mem_map_of_mem (List.mem_filter.2 ⟨hx, decide_eq_true hb⟩)

theorem mem_keys_foldl_union {k : κ} (os : List (List (κ × α))) :
    ∀ acc : List (κ × α), k ∈ keys (os.foldl union acc) ↔ k ∈ keys acc ∨ ∃ o ∈ os, k ∈ keys o := by
  induction os with
  | nil => intro acc; simp
  | cons o os ih =>
    intro acc
    rw [List.foldl_cons, ih, mem_keys_union]
    simp [or_assoc]

theorem mem_keys_unionAll {k : κ} {os : List (List (κ × α))} :
    k ∈ keys (unionAll os) ↔ ∃ o ∈ os, k ∈ keys o := by
  simp [unionAll, mem_keys_foldl_union]

theorem union_of_disjoint {a b : List (κ × α)} (h : ∀ k ∈ keys a, k ∉ keys b) : union a b = a ++ b := by
  have hf : a.filter (fun x => x.1 ∉ keys b) = a := by
    apply List.filter_eq_self.2
    intro x hx
    exact decide_eq_true (h x.1 (List.mem_map_of_mem hx))
  rw [union, hf]

theorem foldl_union_eq (os : List (List (κ × α))) :
    ∀ acc : List (κ × α), (keys (acc ++ os.flatten)).Nodup → os.foldl union acc = acc ++ os.flatten := by
  induction os with
  | nil => intro acc _; simp
  | cons o os ih =>
    intro acc h
    rw [List.flatten_cons, ← List.append_assoc] at h
    have hd : ∀ k ∈ keys acc, k ∉ keys o := by
      have h' := h
      rw [keys_append, keys_append, List.nodup_append, List.nodup_append] at h'
      intro k hk hko
      exact h'.1.2.2 k hk k hko rfl
    rw [List.foldl_cons, union_of_disjoint hd, ih _ h, List.flatten_cons, List.append_assoc]

/-- Merging objects without a common key is concatenation. -/
theorem unionAll_eq_flatten (os : List (List (κ × α))) (h : (keys os.flatten).Nodup) :
    unionAll os = os.flatten := by
  simpa [unionAll] using foldl_union_eq os [] (by simpa using h)

/-! ## Conditional blocks -/

/-- `cond ? o : {}` for every block of a table. -/
def gated (bs : List (Bool × List (κ × α))) : List (List (κ × α)) :=
  bs.map (fun b => if b.1 then b.2 else [])

omit [DecidableEq κ] in
theorem flatten_gated_sublist (bs : List (Bool × List (κ × α))) :
    (gated bs).flatten.Sublist (bs.map Prod.snd).flatten := by
  induction bs with
  | nil => simp [gated]
  | cons b bs ih =>
    simp only [gated, List.map_cons, List.flatten_cons]
    refine List.Sublist.append ?_ ih
    split
    · exact List.Sublist.refl _
    · exact List.nil_sublist _

/-- When no two blocks share a key, the merged table has exactly the entries
of the blocks whose condition holds. -/
theorem mem_unionAll_gated {bs : List (Bool × List (κ × α))} (h : (keys (bs.map Prod.snd).flatten).Nodup)
    {x : κ × α} : x ∈ unionAll (gated bs) ↔ ∃ b ∈ bs, b.1 = true ∧ x ∈ b.2 := by
  rw [unionAll_eq_flatten _ (h.sublist ((flatten_gated_sublist bs).map Prod.fst)), List.mem_flatten]
  constructor
  · rintro ⟨o, ho, hx⟩
    obtain ⟨b, hb, rfl⟩ := List.mem_map.1 ho
    split at hx
    · exact ⟨b, hb, ‹_›, hx⟩
    · cases hx
  · rintro ⟨b, hb, hc, hx⟩
    refine ⟨b.2, List.mem_map.2 ⟨b, hb, ?_⟩, hx⟩
    simp [hc]

/-! ## Evaluated entries -/

theorem exists_of_mapM {β γ : Type} {f : β → Option γ} {l : List β} :
    ∀ {l' : List γ}, l.mapM f = some l' → ∀ b ∈ l, ∃ c, f b = some c := by
  induction l with
  | nil => intro l' _ b hb; cases hb
  | cons a l ih =>
    intro l' h b hb
    simp only [List.mapM_cons, Option.pure_def, Option.bind_eq_bind, Option.bind_eq_some_iff] at h
    obtain ⟨c, hc, cs, hcs, -⟩ := h
    rcases List.mem_cons.1 hb with rfl | hb
    · exact ⟨c, hc⟩
    · exact ih hcs b hb

theorem mapM_of_forall {β γ : Type} {f : β → Option γ} {l : List β} (h : ∀ b ∈ l, ∃ c, f b = some c) :
    ∃ l', l.mapM f = some l' := by
  induction l with
  | nil => exact ⟨[], rfl⟩
  | cons b l ih =>
    obtain ⟨c, hc⟩ := h b List.mem_cons_self
    obtain ⟨cs, hcs⟩ := ih (fun a ha => h a (List.mem_cons_of_mem b ha))
    exact ⟨c :: cs, by simp [List.mapM_cons, hc, hcs]⟩

/-- The elements of a list every element of which evaluated. -/
theorem mem_mapM_iff {β γ : Type} {f : β → Option γ} {l : List β} :
    ∀ {l' : List γ}, l.mapM f = some l' → ∀ c, c ∈ l' ↔ ∃ b ∈ l, f b = some c := by
  induction l with
  | nil =>
    intro l' h c
    simp only [List.mapM_nil, Option.pure_def, Option.some.injEq] at h
    simp [← h]
  | cons b l ih =>
    intro l' h c
    simp only [List.mapM_cons, Option.pure_def, Option.bind_eq_bind, Option.bind_eq_some_iff,
      Option.some.injEq] at h
    obtain ⟨d, hd, ds, hds, rfl⟩ := h
    simp [ih hds c, hd, eq_comm]

theorem mapM_isSome_iff {β γ : Type} {f : β → Option γ} {l : List β} :
    (l.mapM f).isSome = true ↔ ∀ b ∈ l, (f b).isSome = true := by
  simp only [Option.isSome_iff_exists]
  constructor
  · rintro ⟨l', h⟩
    exact exists_of_mapM h
  · exact mapM_of_forall

theorem mapM_eq_map {β γ : Type} {f : β → Option γ} {g : β → γ} :
    ∀ {l : List β}, (∀ b ∈ l, f b = some (g b)) → l.mapM f = some (l.map g)
  | [], _ => rfl
  | b :: l, h => by
    rw [List.mapM_cons, h b List.mem_cons_self, mapM_eq_map fun c hc => h c (List.mem_cons_of_mem b hc)]
    rfl

/-- What each result says about its argument holds of the lists. -/
theorem map_of_mapM {β γ δ : Type} {f : β → Option γ} {g : γ → δ} {h : β → δ} (hf : ∀ b c, f b = some c → g c = h b)
    {l : List β} : ∀ {l' : List γ}, l.mapM f = some l' → l'.map g = l.map h := by
  induction l with
  | nil =>
    rintro l' hl
    cases hl
    rfl
  | cons b l ih =>
    intro l' hl
    simp only [List.mapM_cons, Option.bind_eq_bind, Option.bind_eq_some_iff, Option.pure_def, Option.some.injEq] at hl
    obtain ⟨c, hc, cs, hcs, rfl⟩ := hl
    rw [List.map_cons, List.map_cons, hf b c hc, ih hcs]

theorem filter_map_of_mapM {β γ δ : Type} {f : β → Option γ} {p : γ → Bool} {q : β → Bool} {g : γ → δ} {h : β → δ}
    (hf : ∀ b c, f b = some c → p c = q b ∧ g c = h b) {l : List β} {l' : List γ} (hl : l.mapM f = some l') :
    (l'.filter p).map g = (l.filter q).map h := by
  have hpairs : l'.map (fun c => (p c, g c)) = l.map fun b => (q b, h b) :=
    map_of_mapM (fun b c hc => Prod.ext (hf b c hc).1 (hf b c hc).2) hl
  have hfilter := congrArg (fun ps => (ps.filter Prod.fst).map Prod.snd) hpairs
  simpa [List.filter_map, Function.comp_def] using hfilter

theorem mem_unionAll {x : κ × α} {os : List (List (κ × α))} : x ∈ unionAll os → ∃ o ∈ os, x ∈ o := by
  suffices h : ∀ acc : List (κ × α), x ∈ os.foldl union acc → x ∈ acc ∨ ∃ o ∈ os, x ∈ o by
    intro hx
    exact (h [] hx).resolve_left List.not_mem_nil
  induction os with
  | nil => exact fun acc hx => .inl hx
  | cons o os ih =>
    intro acc hx
    rcases ih (union acc o) hx with h | ⟨o', ho', h⟩
    · rcases List.mem_append.1 h with h | h
      · exact .inl (List.mem_of_mem_filter h)
      · exact .inr ⟨o, List.mem_cons_self, h⟩
    · exact .inr ⟨o', List.mem_cons_of_mem o ho', h⟩

/-- `cond ? { key: value } : {}`, where the value may fail to evaluate. -/
def optional (cond : Bool) (key : κ) (value : Option α) : Option (List (κ × α)) :=
  if cond then value.map (fun x => [(key, x)]) else some []

/-- The union of the entries whose condition holds. -/
def build (es : List (Bool × κ × Option α)) : Option (List (κ × α)) :=
  (es.mapM fun e => optional e.1 e.2.1 e.2.2).map unionAll

omit [DecidableEq κ] in
theorem optional_eq_some_iff {cond : Bool} {key : κ} {value : Option α} {o : List (κ × α)} :
    optional cond key value = some o ↔
      (cond = true ∧ ∃ x, value = some x ∧ o = [(key, x)]) ∨ (cond = false ∧ o = []) := by
  cases cond with
  | false => simp [optional, eq_comm]
  | true =>
    have hc : (∃ x, value = some x ∧ [(key, x)] = o) ↔ ∃ x, value = some x ∧ o = [(key, x)] := by
      simp only [eq_comm]
    simpa [optional, Option.map_eq_some_iff] using hc

/-- Every entry of the object comes from an entry whose condition holds. -/
theorem mem_build {es : List (Bool × κ × Option α)} {o : List (κ × α)} (h : build es = some o) {k : κ} {x : α}
    (hx : (k, x) ∈ o) : ∃ e ∈ es, e.1 = true ∧ e.2.1 = k ∧ e.2.2 = some x := by
  obtain ⟨os, hos, rfl⟩ := Option.map_eq_some_iff.1 h
  obtain ⟨o, ho, hxo⟩ := mem_unionAll hx
  obtain ⟨e, he, heo⟩ := (mem_mapM_iff hos o).1 ho
  rcases optional_eq_some_iff.1 heo with ⟨hc, y, hy, rfl⟩ | ⟨-, rfl⟩
  · obtain ⟨rfl, rfl⟩ := Prod.mk.inj (List.mem_singleton.1 hxo)
    exact ⟨e, he, hc, rfl, hy⟩
  · cases hxo

/-- The keys of the object are those of the entries whose condition holds. -/
theorem mem_keys_build {es : List (Bool × κ × Option α)} {o : List (κ × α)} (h : build es = some o) {k : κ} :
    k ∈ keys o ↔ ∃ e ∈ es, e.1 = true ∧ e.2.1 = k := by
  constructor
  · intro hk
    obtain ⟨⟨k', x⟩, hx, rfl⟩ := List.mem_map.1 hk
    obtain ⟨e, he, hc, hek, -⟩ := mem_build h hx
    exact ⟨e, he, hc, hek⟩
  · rintro ⟨e, he, hc, rfl⟩
    obtain ⟨os, hos, rfl⟩ := Option.map_eq_some_iff.1 h
    rw [mem_keys_unionAll]
    obtain ⟨o, ho⟩ := exists_of_mapM hos e he
    refine ⟨o, (mem_mapM_iff hos o).2 ⟨e, he, ho⟩, ?_⟩
    rcases optional_eq_some_iff.1 ho with ⟨-, x, -, rfl⟩ | ⟨hf, -⟩
    · simp
    · rw [hf] at hc
      cases hc

/-- The object evaluates when every value whose condition holds does. -/
theorem build_isSome_iff {es : List (Bool × κ × Option α)} :
    (build es).isSome = true ↔ ∀ e ∈ es, e.1 = true → e.2.2.isSome = true := by
  unfold build
  rw [Option.isSome_map]
  constructor
  · intro h e he hc
    obtain ⟨os, hos⟩ := Option.isSome_iff_exists.1 h
    obtain ⟨o, ho⟩ := exists_of_mapM hos e he
    rcases optional_eq_some_iff.1 ho with ⟨-, x, hx, -⟩ | ⟨hf, -⟩
    · simp [hx]
    · rw [hf] at hc
      cases hc
  · intro h
    apply Option.isSome_iff_exists.2
    apply mapM_of_forall
    intro e he
    cases hc : e.1 with
    | false => exact ⟨[], by simp [optional]⟩
    | true =>
      obtain ⟨x, hx⟩ := Option.isSome_iff_exists.1 (h e he hc)
      exact ⟨[(e.2.1, x)], by simp [optional, hx]⟩

/-! ## Arrays -/

/-- Bicep's `union` on arrays: every element once. -/
def arrayUnion (ls : List (List κ)) : List κ := ls.flatten.dedup

@[simp] theorem mem_arrayUnion {x : κ} {ls : List (List κ)} : x ∈ arrayUnion ls ↔ ∃ l ∈ ls, x ∈ l := by
  simp [arrayUnion]

end Lib.Objects
