/-!
Values under numbers, in ascending order of the numbers. The order is part of the type, so a table is
determined by what it holds under each number (`ext_get?`), and each operation is known by what it
does to `get?`.
-/
namespace Transcript

/-- Values under numbers. -/
structure Table (α : Type) where
  entries : List (Nat × α)
  ascending : entries.Pairwise fun a b => a.1 < b.1

namespace Table

variable {α : Type}

def empty : Table α := ⟨[], .nil⟩

instance : Inhabited (Table α) := ⟨empty⟩

/-- The value under a number. -/
def get? (t : Table α) (k : Nat) : Option α := t.entries.lookup k

def contains (t : Table α) (k : Nat) : Bool := (t.get? k).isSome

/-- The numbers in ascending order. -/
def keys (t : Table α) : List Nat := t.entries.map Prod.fst

def size (t : Table α) : Nat := t.entries.length

/-- Puts a value at its place in an ascending list, instead of one under the same number. -/
def insertEntry (k : Nat) (v : α) : List (Nat × α) → List (Nat × α)
  | [] => [(k, v)]
  | e :: es =>
    if k < e.1 then (k, v) :: e :: es
    else if k = e.1 then (k, v) :: es
    else e :: insertEntry k v es

private theorem mem_insertEntry {k : Nat} {v : α} {es : List (Nat × α)} {p : Nat × α}
    (h : p ∈ insertEntry k v es) : p = (k, v) ∨ p ∈ es := by
  induction es with
  | nil => simpa [insertEntry] using h
  | cons e es ih =>
    simp only [insertEntry] at h
    split at h
    · simpa using h
    · split at h
      · rcases List.mem_cons.1 h with rfl | h
        · exact .inl rfl
        · exact .inr (List.mem_cons_of_mem _ h)
      · rcases List.mem_cons.1 h with rfl | h
        · exact .inr List.mem_cons_self
        · rcases ih h with h | h
          · exact .inl h
          · exact .inr (List.mem_cons_of_mem _ h)

private theorem ascending_insertEntry (k : Nat) (v : α) {es : List (Nat × α)}
    (h : es.Pairwise fun a b => a.1 < b.1) :
    (insertEntry k v es).Pairwise fun a b => a.1 < b.1 := by
  induction es with
  | nil => simp [insertEntry]
  | cons e es ih =>
    obtain ⟨he, hes⟩ := List.pairwise_cons.1 h
    simp only [insertEntry]
    split
    · rename_i hk
      refine List.pairwise_cons.2 ⟨?_, h⟩
      intro p hp
      rcases List.mem_cons.1 hp with rfl | hp
      · exact hk
      · exact Nat.lt_trans hk (he p hp)
    · split
      · rename_i hk
        subst hk
        exact List.pairwise_cons.2 ⟨he, hes⟩
      · refine List.pairwise_cons.2 ⟨?_, ih hes⟩
        intro p hp
        rcases mem_insertEntry hp with rfl | hp
        · show e.1 < k
          omega
        · exact he p hp

/-- Puts a value under a number. -/
def insert (t : Table α) (k : Nat) (v : α) : Table α :=
  ⟨insertEntry k v t.entries, ascending_insertEntry k v t.ascending⟩

/-- Keeps the values with property `p`. -/
def filter (t : Table α) (p : Nat → α → Bool) : Table α :=
  ⟨t.entries.filter fun e => p e.1 e.2, t.ascending.filter _⟩

def erase (t : Table α) (k : Nat) : Table α := t.filter fun i _ => i != k

/-- Changes the value under a number, if there is one. -/
def modify (t : Table α) (k : Nat) (f : α → α) : Table α :=
  ⟨t.entries.map fun e => if e.1 = k then (e.1, f e.2) else e, by
    refine List.pairwise_map.2 (t.ascending.imp ?_)
    intro a b hab
    split <;> split <;> exact hab⟩

/-! ## What the operations do to `get?` -/

@[simp] theorem get?_empty (k : Nat) : (empty : Table α).get? k = none := rfl

private theorem lookup_entry_cons (e : Nat × α) (es : List (Nat × α)) (i : Nat) :
    (e :: es).lookup i = if i = e.1 then some e.2 else es.lookup i := by
  obtain ⟨k, v⟩ := e
  by_cases h : i = k
  · simp [h]
  · have hb : (i == k) = false := by simpa using h
    simp [List.lookup_cons, h, hb]

private theorem lookup_insertEntry (k : Nat) (v : α) (es : List (Nat × α)) (i : Nat) :
    (insertEntry k v es).lookup i = if i = k then some v else es.lookup i := by
  induction es with
  | nil => simp [insertEntry, lookup_entry_cons]
  | cons e es ih =>
    simp only [insertEntry]
    split
    · simp [lookup_entry_cons]
    · split
      · rename_i hk
        simp only [lookup_entry_cons, ← hk]
        split <;> rfl
      · rename_i hk
        rw [lookup_entry_cons, lookup_entry_cons, ih]
        by_cases hie : i = e.1
        · have : i ≠ k := fun hik => hk (hik.symm.trans hie)
          simp [hie, Ne.symm hk]
        · simp [hie]

@[simp] theorem get?_insert (t : Table α) (k : Nat) (v : α) (i : Nat) :
    (t.insert k v).get? i = if i = k then some v else t.get? i :=
  lookup_insertEntry k v t.entries i

private theorem lookup_eq_none_of_lt {k : Nat} {es : List (Nat × α)} (h : ∀ e ∈ es, k < e.1) :
    es.lookup k = none := by
  rw [List.lookup_eq_none_iff]
  intro e he
  exact bne_iff_ne.2 (Nat.ne_of_lt (h e he))

private theorem lookup_filter (p : Nat → α → Bool) (es : List (Nat × α)) (i : Nat)
    (h : es.Pairwise fun a b => a.1 < b.1) :
    (es.filter fun e => p e.1 e.2).lookup i = (es.lookup i).filter (p i) := by
  induction es with
  | nil => rfl
  | cons e es ih =>
    obtain ⟨he, hes⟩ := List.pairwise_cons.1 h
    have hnone : es.lookup e.1 = none := lookup_eq_none_of_lt he
    rw [List.filter_cons, lookup_entry_cons]
    by_cases hie : i = e.1
    · subst hie
      by_cases hp : p e.1 e.2 = true
      · simp [hp, lookup_entry_cons, Option.filter]
      · simp [hp, ih hes, hnone, Option.filter]
    · by_cases hp : p e.1 e.2 = true
      · simp [hp, lookup_entry_cons, hie, ih hes]
      · simp [hp, hie, ih hes]

@[simp] theorem get?_filter (t : Table α) (p : Nat → α → Bool) (i : Nat) :
    (t.filter p).get? i = (t.get? i).filter (p i) :=
  lookup_filter p t.entries i t.ascending

@[simp] theorem get?_erase (t : Table α) (k i : Nat) :
    (t.erase k).get? i = if i = k then none else t.get? i := by
  rw [erase, get?_filter]
  by_cases h : i = k <;> cases t.get? i <;> simp [h]

private theorem lookup_modify (k : Nat) (f : α → α) (es : List (Nat × α)) (i : Nat) :
    (es.map fun e => if e.1 = k then (e.1, f e.2) else e).lookup i
      = if i = k then (es.lookup i).map f else es.lookup i := by
  induction es with
  | nil => simp
  | cons e es ih =>
    rw [List.map_cons, lookup_entry_cons, lookup_entry_cons, ih]
    by_cases hek : e.1 = k
    · by_cases hik : i = k <;> simp [hek, hik]
    · by_cases hie : i = e.1
      · simp [hek, hie]
      · simp [hek, hie]

@[simp] theorem get?_modify (t : Table α) (k : Nat) (f : α → α) (i : Nat) :
    (t.modify k f).get? i = if i = k then (t.get? i).map f else t.get? i :=
  lookup_modify k f t.entries i

/-! ## What a table is known by -/

private theorem entries_ext {es fs : List (Nat × α)} (hes : es.Pairwise fun a b => a.1 < b.1)
    (hfs : fs.Pairwise fun a b => a.1 < b.1) (h : ∀ k, es.lookup k = fs.lookup k) : es = fs := by
  induction es generalizing fs with
  | nil =>
    cases fs with
    | nil => rfl
    | cons f fs => simpa [lookup_entry_cons] using h f.1
  | cons e es ih =>
    cases fs with
    | nil => simpa [lookup_entry_cons] using h e.1
    | cons f fs =>
      obtain ⟨he, hes⟩ := List.pairwise_cons.1 hes
      obtain ⟨hf, hfs⟩ := List.pairwise_cons.1 hfs
      have hkey : e.1 = f.1 := by
        rcases Nat.lt_trichotomy e.1 f.1 with hlt | heq | hlt
        · have hbehind : ∀ p ∈ f :: fs, e.1 < p.1 :=
            List.forall_mem_cons.2 ⟨hlt, fun p hp => Nat.lt_trans hlt (hf p hp)⟩
          simpa [lookup_eq_none_of_lt hbehind, lookup_entry_cons] using h e.1
        · exact heq
        · have hbehind : ∀ p ∈ e :: es, f.1 < p.1 :=
            List.forall_mem_cons.2 ⟨hlt, fun p hp => Nat.lt_trans hlt (he p hp)⟩
          simpa [lookup_eq_none_of_lt hbehind, lookup_entry_cons] using h f.1
      have hvalue : e.2 = f.2 := by simpa [lookup_entry_cons, hkey] using h e.1
      have hrest : ∀ k, es.lookup k = fs.lookup k := by
        intro k
        by_cases hk : k = e.1
        · rw [hk, lookup_eq_none_of_lt he, hkey, lookup_eq_none_of_lt hf]
        · simpa [lookup_entry_cons, hk, hkey ▸ hk] using h k
      rw [ih hes hfs hrest, Prod.ext hkey hvalue]

theorem ext_get? {t u : Table α} (h : ∀ k, t.get? k = u.get? k) : t = u := by
  obtain ⟨es, hes⟩ := t
  obtain ⟨fs, hfs⟩ := u
  obtain rfl : es = fs := entries_ext hes hfs h
  rfl

theorem ascending_keys (t : Table α) : t.keys.Pairwise (· < ·) := List.pairwise_map.2 t.ascending

theorem mem_keys {t : Table α} {k : Nat} : k ∈ t.keys ↔ ∃ v, t.get? k = some v := by
  rw [keys, List.mem_map, ← Option.isSome_iff_exists, get?, List.lookup_isSome_iff]
  exact exists_congr fun e => and_congr_right fun _ => by rw [beq_iff_eq, eq_comm]

end Table

end Transcript
