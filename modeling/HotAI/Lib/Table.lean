import HotAI.Lib.Run

/-! # Tables of rows with a primary key

A table is the list of its rows, no two with the same key. `get` is `WHERE id = ?`, `update` an `UPDATE` of every row that
keeps the keys. -/
namespace HotAI.Lib
open List

structure Table (ρ : Type*) {κ : Type*} (key : ρ → κ) where
  rows : List ρ
  unique : (rows.map key).Nodup
deriving DecidableEq

namespace Table

variable {ρ κ : Type*} [DecidableEq κ] {key : ρ → κ}

def get (t : Table ρ key) (k : κ) : Option ρ := t.rows.find? fun row => key row = k

def update (t : Table ρ key) (f : ρ → ρ) (hf : ∀ row, key (f row) = key row) : Table ρ key where
  rows := t.rows.map f
  unique := by
    have hkeys : key ∘ f = key := funext hf
    rw [List.map_map, hkeys]
    exact t.unique

def put (t : Table ρ key) (row : ρ) : Table ρ key :=
  t.update (fun old => if key old = key row then row else old) (by
    intro old
    split
    · next h => exact h.symm
    · rfl)

def remove (t : Table ρ key) (k : κ) : Table ρ key where
  rows := t.rows.filter fun row => key row ≠ k
  unique := t.unique.sublist (List.filter_sublist.map key)

theorem get_eq_some_iff (t : Table ρ key) (k : κ) (row : ρ) : t.get k = some row ↔ row ∈ t.rows ∧ key row = k := by
  obtain ⟨rows, unique⟩ := t
  constructor
  · intro h
    exact ⟨mem_of_find?_eq_some h, by simpa using find?_some h⟩
  · rintro ⟨hmem, rfl⟩
    change rows.find? _ = _
    induction rows with
    | nil => cases hmem
    | cons first rows ih =>
      rw [map_cons, nodup_cons] at unique
      by_cases hk : key first = key row
      · rcases mem_cons.mp hmem with rfl | hrest
        · simp
        · exact absurd (hk ▸ mem_map_of_mem hrest) unique.1
      · rcases mem_cons.mp hmem with rfl | hrest
        · exact absurd rfl hk
        · simpa [hk] using ih unique.2 hrest

variable {t : Table ρ key} {k : κ} {row : ρ}

theorem key_of_get (h : t.get k = some row) : key row = k :=
  ((t.get_eq_some_iff k row).mp h).2

theorem get_of_mem (h : row ∈ t.rows) : t.get (key row) = some row :=
  (t.get_eq_some_iff _ row).mpr ⟨h, rfl⟩

theorem eq_of_key {a b : ρ} (ha : a ∈ t.rows) (hb : b ∈ t.rows) (h : key a = key b) : a = b := by
  have hget := get_of_mem hb
  rw [← h, get_of_mem ha] at hget
  exact Option.some.inj hget

theorem get_update (t : Table ρ key) (f : ρ → ρ) (hf : ∀ row, key (f row) = key row) (k : κ) :
    (t.update f hf).get k = (t.get k).map f := by
  unfold get update
  rw [find?_map]
  congr 2
  funext row
  simp [hf]

theorem get_put_self {t : Table ρ key} {row old : ρ} (h : t.get (key row) = some old) :
    (t.put row).get (key row) = some row := by
  rw [put, get_update, h, Option.map_some, if_pos (key_of_get h)]

theorem get_put_of_ne (h : k ≠ key row) : (t.put row).get k = t.get k := by
  rw [put, get_update]
  cases hk : t.get k with
  | none => rfl
  | some old => rw [Option.map_some, if_neg (by rw [key_of_get hk]; exact h)]

theorem not_mem_keys_of_get_eq_none (h : t.get k = none) : k ∉ t.rows.map key := by
  intro hmem
  obtain ⟨row, hrow, rfl⟩ := mem_map.mp hmem
  rw [get_of_mem hrow] at h
  cases h

def add (t : Table ρ key) (row : ρ) : Table ρ key :=
  if h : t.get (key row) = none then
    { rows := t.rows ++ [row]
      unique := by
        rw [List.map_append, List.nodup_append_comm]
        exact List.nodup_cons.mpr ⟨not_mem_keys_of_get_eq_none h, t.unique⟩ }
  else t

theorem rows_add (h : t.get (key row) = none) : (t.add row).rows = t.rows ++ [row] := by
  rw [add, dif_pos h]

theorem mem_add (h : t.get (key row) = none) (x : ρ) : x ∈ (t.add row).rows ↔ x ∈ t.rows ∨ x = row := by
  rw [rows_add h, mem_append, mem_singleton]

omit [DecidableEq κ] in
theorem mem_update {f : ρ → ρ} {hf : ∀ row, key (f row) = key row} (x : ρ) :
    x ∈ (t.update f hf).rows ↔ ∃ y ∈ t.rows, f y = x := mem_map

theorem mem_remove (x : ρ) : x ∈ (t.remove k).rows ↔ x ∈ t.rows ∧ key x ≠ k := by
  simp [remove, mem_filter]

theorem put_eq_self (h : t.get (key row) = none) : t.put row = t := by
  obtain ⟨rows, unique⟩ := t
  have hkeys := not_mem_keys_of_get_eq_none h
  have hrows : (rows.map fun old => if key old = key row then row else old) = rows := by
    refine (map_congr_left fun old hold => if_neg fun heq => ?_).trans (map_id rows)
    exact hkeys (heq ▸ mem_map_of_mem hold)
  simp only [put, update, hrows]

theorem put_eq_of_get (h : t.get (key row) = some row) : t.put row = t := by
  obtain ⟨rows, unique⟩ := t
  have hrows : (rows.map fun old => if key old = key row then row else old) = rows := by
    refine (map_congr_left fun old hold => ?_).trans (map_id rows)
    split
    · next heq => exact (eq_of_key hold ((get_eq_some_iff _ _ _).mp h).1 heq).symm
    · rfl
  simp only [put, update, hrows]

theorem mem_put {t : Table ρ key} {row old : ρ} (h : t.get (key row) = some old) (x : ρ) :
    x ∈ (t.put row).rows ↔ x = row ∨ x ∈ t.rows ∧ key x ≠ key row := by
  rw [put, mem_update]
  constructor
  · rintro ⟨y, hy, rfl⟩
    by_cases hk : key y = key row
    · exact .inl (if_pos hk)
    · rw [if_neg hk]
      exact .inr ⟨hy, hk⟩
  · rintro (rfl | ⟨hx, hk⟩)
    · obtain ⟨hmem, hkey⟩ := (t.get_eq_some_iff _ old).mp h
      exact ⟨old, hmem, if_pos hkey⟩
    · exact ⟨x, hx, if_neg hk⟩

theorem rows_put {ι : Type*} [DecidableEq ι] {is : List ι} {f : ι → ρ} {i : ι}
    (hrows : t.rows = is.map f) (hi : i ∈ is) (hkey : key (f i) = key row) :
    (t.put row).rows = is.map (Function.update f i row) := by
  have hput : (t.put row).rows = t.rows.map fun old => if key old = key row then row else old := rfl
  rw [hput, hrows, map_map]
  refine map_congr_left fun j hj => ?_
  rw [Function.comp_apply]
  by_cases hji : j = i
  · subst hji
    rw [Function.update_self, if_pos hkey]
  · rw [Function.update_of_ne hji, if_neg]
    intro heq
    have hunique := t.unique
    rw [hrows, map_map] at hunique
    exact hji (inj_on_of_nodup_map hunique hj hi (heq.trans hkey.symm))

theorem rows_put_add {row' : ρ} (hget : t.get (key row) = none) (hkey : key row = key row') :
    ((t.add row).put row').rows = t.rows ++ [row'] := by
  have hput : ((t.add row).put row').rows =
      (t.add row).rows.map fun old => if key old = key row' then row' else old := rfl
  rw [hput, rows_add hget, map_append, map_singleton, if_pos hkey]
  congr 1
  refine (map_congr_left fun old hold => if_neg fun heq => ?_).trans (map_id _)
  exact not_mem_keys_of_get_eq_none hget (mem_map.mpr ⟨old, hold, heq.trans hkey.symm⟩)

theorem remove_eq_self (h : t.rows = []) (k : κ) : t.remove k = t := by
  obtain ⟨rows, unique⟩ := t
  subst h
  rfl

theorem get_add_self (h : t.get (key row) = none) : (t.add row).get (key row) = some row := by
  refine get_of_mem ?_
  rw [rows_add h]
  exact mem_append_right _ (mem_singleton.mpr rfl)

theorem get_add_of_ne (h : k ≠ key row) : (t.add row).get k = t.get k := by
  by_cases hfree : t.get (key row) = none
  · unfold get
    rw [rows_add hfree, find?_append, find?_singleton, if_neg (by simpa using h.symm)]
    exact Option.or_none
  · rw [add, dif_neg hfree]

theorem get_add_of_get {old : ρ} (h : t.get k = some old) : (t.add row).get k = some old := by
  by_cases hfree : t.get (key row) = none
  · obtain ⟨hmem, hkey⟩ := (t.get_eq_some_iff k old).mp h
    exact (get_eq_some_iff _ k old).mpr ⟨(mem_add hfree old).mpr (.inl hmem), hkey⟩
  · rw [add, dif_neg hfree]
    exact h

def empty : Table ρ key := ⟨[], List.nodup_nil⟩

def map {ρ' : Type*} {key' : ρ' → κ} (t : Table ρ key) (f : ρ → ρ') (hf : ∀ row, key' (f row) = key row) :
    Table ρ' key' where
  rows := t.rows.map f
  unique := by
    have hkeys : key' ∘ f = key := funext hf
    rw [List.map_map, hkeys]
    exact t.unique

theorem get_map {ρ' : Type*} {key' : ρ' → κ} (t : Table ρ key) (f : ρ → ρ')
    (hf : ∀ row, key' (f row) = key row) (k : κ) : (t.map f hf).get k = (t.get k).map f := by
  unfold get map
  rw [find?_map]
  congr 2
  funext row
  simp [hf]

section Sum

variable {M G : Type*} [AddCommMonoid M] [AddCommGroup G]

omit [DecidableEq κ] in
def sum (t : Table ρ key) (f : ρ → M) : M := (t.rows.map f).sum

theorem sum_add (h : t.get (key row) = none) (f : ρ → M) : (t.add row).sum f = t.sum f + f row := by
  simp only [sum, rows_add h, map_append, sum_append, map_singleton, sum_singleton]

theorem sum_put {row old : ρ} (h : t.get (key row) = some old) (f : ρ → G) :
    (t.put row).sum f = t.sum f - f old + f row := by
  obtain ⟨rows, unique⟩ := t
  obtain ⟨hmem, hkey⟩ := (get_eq_some_iff _ _ _).mp h
  change ((rows.map fun r => if key r = key row then row else r).map f).sum = (rows.map f).sum - f old + f row
  clear h
  induction rows with
  | nil => cases hmem
  | cons first rest ih =>
    rw [map_cons, nodup_cons] at unique
    simp only [map_cons, sum_cons]
    by_cases hfirst : key first = key row
    · -- no later row has this key
      have hsame : first = old := by
        rcases mem_cons.mp hmem with heq | hrest
        · exact heq.symm
        · exact absurd (hfirst.trans hkey.symm ▸ mem_map_of_mem hrest) unique.1
      have hrest : (rest.map fun r => if key r = key row then row else r) = rest := by
        refine (map_congr_left fun r hr => if_neg fun heq => ?_).trans (map_id rest)
        exact unique.1 ((hfirst.trans heq.symm) ▸ mem_map_of_mem hr)
      rw [if_pos hfirst, hrest, hsame]
      abel
    · have hrest : old ∈ rest := by
        rcases mem_cons.mp hmem with heq | hrest
        · exact absurd (heq ▸ hkey) hfirst
        · exact hrest
      rw [if_neg hfirst, ih unique.2 hrest]
      abel

theorem sum_ite_key (t : Table ρ key) (k : κ) (f : ρ → M) :
    t.sum (fun row => if key row = k then f row else 0) = ((t.get k).map f).getD 0 := by
  obtain ⟨rows, unique⟩ := t
  change (rows.map _).sum = ((rows.find? _).map f).getD 0
  induction rows with
  | nil => rfl
  | cons first rest ih =>
    rw [map_cons, nodup_cons] at unique
    rw [map_cons, sum_cons, ih unique.2]
    by_cases hfirst : key first = k
    · have hrest : (rest.find? fun row => key row = k) = none := by
        refine find?_eq_none.mpr fun row hrow => ?_
        simp only [decide_eq_true_eq]
        intro heq
        exact unique.1 ((hfirst.trans heq.symm) ▸ mem_map_of_mem hrow)
      simp [hfirst, hrest]
    · simp [hfirst]

omit [DecidableEq κ] in
theorem le_sum {f : ρ → ℤ} (hnonneg : ∀ r ∈ t.rows, 0 ≤ f r) (h : row ∈ t.rows) : f row ≤ t.sum f := by
  refine single_le_sum (fun x hx => ?_) (f row) (mem_map_of_mem h)
  obtain ⟨r, hr, rfl⟩ := mem_map.mp hx
  exact hnonneg r hr

end Sum
end Table
end HotAI.Lib
