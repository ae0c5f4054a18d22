import Mathlib.Data.List.Nodup
import Mathlib.Tactic

namespace PaymentLedger

/-- The rows of a table with a primary key, in insertion order: no two rows share a key. -/
@[ext] structure Table {κ ρ : Type} (key : ρ → κ) where
  rows : List ρ
  nodup : (rows.map key).Nodup

namespace Table

variable {κ ρ : Type} {key : ρ → κ}

def empty : Table key := ⟨[], by simp⟩

variable [DecidableEq κ]

/-- The row with the given key. -/
def find (t : Table key) (k : κ) : Option ρ := t.rows.find? fun r => decide (key r = k)

theorem find_none_iff (t : Table key) (k : κ) : t.find k = none ↔ k ∉ t.rows.map key := by
  simp [find]

/-- A row whose key is taken is not inserted. -/
def insert (t : Table key) (r : ρ) : Table key :=
  if h : t.find (key r) = none then
    ⟨t.rows ++ [r], by
      rw [List.map_append, List.map_singleton]
      exact t.nodup.append (List.nodup_singleton _)
        (List.disjoint_singleton.mpr ((t.find_none_iff _).mp h))⟩
  else t

/-- Rewriting the row with the given key; the key itself is never rewritten. -/
def modify (t : Table key) (k : κ) (f : ρ → ρ) (hf : ∀ r, key (f r) = key r) : Table key :=
  ⟨t.rows.map fun r => if key r = k then f r else r, by
    have h : (t.rows.map fun r => if key r = k then f r else r).map key = t.rows.map key := by
      rw [List.map_map]
      apply List.map_congr_left
      intro r _
      by_cases hk : key r = k <;> simp [hk, hf]
    rw [h]
    exact t.nodup⟩

theorem find_key {t : Table key} {k : κ} {r : ρ} (h : t.find k = some r) : key r = k := by
  simpa using List.find?_some h

theorem mem_of_find {t : Table key} {k : κ} {r : ρ} (h : t.find k = some r) : r ∈ t.rows :=
  List.mem_of_find?_eq_some h

theorem find_of_mem {t : Table key} {r : ρ} (h : r ∈ t.rows) : t.find (key r) = some r := by
  cases hf : t.find (key r) with
  | none => exact absurd (List.mem_map_of_mem h) ((t.find_none_iff _).mp hf)
  | some r' => rw [List.inj_on_of_nodup_map t.nodup (mem_of_find hf) h (find_key hf)]

theorem rows_insert {t : Table key} {r : ρ} (h : t.find (key r) = none) :
    (t.insert r).rows = t.rows ++ [r] := by
  simp [insert, h]

theorem find_insert {t : Table key} {r : ρ} (h : t.find (key r) = none) (k : κ) :
    (t.insert r).find k = if key r = k then some r else t.find k := by
  rw [find, rows_insert h, List.find?_append]
  by_cases hk : key r = k
  · subst hk
    rw [show t.rows.find? (fun x => decide (key x = key r)) = none from h]
    simp
  · simp [hk, find]

theorem find_insert_of_ne (t : Table key) {r : ρ} {k : κ} (hk : key r ≠ k) :
    (t.insert r).find k = t.find k := by
  by_cases h : t.find (key r) = none
  · rw [find_insert h, if_neg hk]
  · simp [insert, h]

theorem mem_insert_of_mem {t : Table key} {r r' : ρ} (h : r' ∈ t.rows) : r' ∈ (t.insert r).rows := by
  by_cases hr : t.find (key r) = none
  · rw [rows_insert hr]
    exact List.mem_append_left _ h
  · rw [insert, dif_neg hr]
    exact h

theorem mem_insert {t : Table key} {r r' : ρ} (h : r' ∈ (t.insert r).rows) : r' ∈ t.rows ∨ r' = r := by
  by_cases hr : t.find (key r) = none
  · rw [rows_insert hr, List.mem_append, List.mem_singleton] at h
    exact h
  · rw [insert, dif_neg hr] at h
    exact .inl h

/-- What is found under a key after an insertion depends only on what was found there. -/
theorem find_insert_congr {t t' : Table key} {r : ρ} {k : κ} (h : t'.find k = t.find k) :
    (t'.insert r).find k = (t.insert r).find k := by
  by_cases hk : key r = k
  · subst hk
    by_cases hn : t.find (key r) = none
    · rw [find_insert hn, find_insert (h.trans hn), if_pos rfl, if_pos rfl]
    · rw [insert, dif_neg (by rw [h]; exact hn), insert, dif_neg hn, h]
  · rw [find_insert_of_ne t hk, find_insert_of_ne t' hk, h]

theorem find_insert_of_some {t : Table key} {r r' : ρ} {k : κ} (h : t.find k = some r') :
    (t.insert r).find k = some r' := by
  by_cases hk : key r = k
  · have hn : ¬t.find (key r) = none := by rw [hk, h]; simp
    rw [insert, dif_neg hn, h]
  · rw [find_insert_of_ne t hk, h]

theorem find_modify (t : Table key) (k : κ) (f : ρ → ρ) (hf : ∀ r, key (f r) = key r) (k' : κ) :
    (t.modify k f hf).find k' = (t.find k').map fun r => if k' = k then f r else r := by
  have hkey : ∀ r, key (if key r = k then f r else r) = key r := by
    intro r
    by_cases hk : key r = k <;> simp [hk, hf]
  rw [find, modify, List.find?_map, find]
  simp only [Function.comp_def, hkey]
  cases h : t.rows.find? (fun r => decide (key r = k')) with
  | none => rfl
  | some r =>
    have hr : key r = k' := by simpa using List.find?_some h
    simp [hr]

theorem find_modify_self (t : Table key) (k : κ) (f : ρ → ρ) (hf : ∀ r, key (f r) = key r) :
    (t.modify k f hf).find k = (t.find k).map f := by
  simp [find_modify]

theorem find_modify_of_ne (t : Table key) {k k' : κ} (f : ρ → ρ) (hf : ∀ r, key (f r) = key r)
    (hk : k' ≠ k) : (t.modify k f hf).find k' = t.find k' := by
  simp [find_modify, hk]

theorem map_rows_modify {σ : Type} (t : Table key) (k : κ) (f : ρ → ρ) (hf : ∀ r, key (f r) = key r)
    (g : ρ → σ) (hg : ∀ r, g (f r) = g r) : (t.modify k f hf).rows.map g = t.rows.map g := by
  rw [modify, List.map_map]
  apply List.map_congr_left
  intro r _
  by_cases hk : key r = k <;> simp [hk, hg]

/-- Only the row under the key matters for what it is rewritten to. -/
theorem modify_congr {t : Table key} {k : κ} {f g : ρ → ρ} (hf : ∀ r, key (f r) = key r)
    (hg : ∀ r, key (g r) = key r)
    (h : ∀ r, t.find k = some r → f r = g r) : t.modify k f hf = t.modify k g hg := by
  ext1
  rw [modify, modify]
  apply List.map_congr_left
  intro r hr
  by_cases hk : key r = k
  · rw [if_pos hk, if_pos hk]
    apply h
    rw [← hk]
    exact find_of_mem hr
  · rw [if_neg hk, if_neg hk]

section Images

variable {ρ' : Type} {key' : ρ' → κ}

/-- The rows are those found under the keys, in their order. -/
theorem rows_eq_filterMap (t : Table key) : t.rows = (t.rows.map key).filterMap t.find := by
  rw [List.filterMap_map]
  have hall : ∀ r ∈ t.rows, (t.find ∘ key) r = some r := fun r hr => find_of_mem hr
  rw [List.filterMap_congr hall, List.filterMap_some]

/-- Two tables with the same keys in the same order that find the same rows are the same. -/
theorem ext_find {t t' : Table key} (hk : t.rows.map key = t'.rows.map key)
    (hf : ∀ k, t.find k = t'.find k) : t = t' := by
  ext1
  rw [t.rows_eq_filterMap, t'.rows_eq_filterMap, hk, funext hf]

/-- The rows in another shape that has the same key. -/
def map (t : Table key) (f : ρ → ρ') (hf : ∀ r, key' (f r) = key r) : Table key' :=
  ⟨t.rows.map f, by
    rw [List.map_map, show key' ∘ f = key from funext hf]
    exact t.nodup⟩

theorem find_map (t : Table key) (f : ρ → ρ') (hf : ∀ r, key' (f r) = key r) (k : κ) :
    (t.map f hf).find k = (t.find k).map f := by
  rw [find, map, List.find?_map, find]
  simp only [Function.comp_def, hf]

omit [DecidableEq κ] in
theorem rows_map (t : Table key) (f : ρ → ρ') (hf : ∀ r, key' (f r) = key r) :
    (t.map f hf).rows = t.rows.map f := rfl

/-- A row in its other shape is inserted as its own key says. -/
theorem map_insert (t : Table key) (r : ρ) (f : ρ → ρ') (hf : ∀ r, key' (f r) = key r) :
    (t.insert r).map f hf = (t.map f hf).insert (f r) := by
  apply Table.ext
  by_cases hr : t.find (key r) = none
  · have hr' : (t.map f hf).find (key' (f r)) = none := by rw [hf, find_map, hr, Option.map_none]
    rw [rows_map, rows_insert hr, List.map_append, rows_insert hr', rows_map, List.map_singleton]
  · have hr' : ¬(t.map f hf).find (key' (f r)) = none := by rwa [hf, find_map, Option.map_eq_none_iff]
    rw [insert, dif_neg hr, insert, dif_neg hr']

omit [DecidableEq κ] in
theorem map_map {ρ'' : Type} {key'' : ρ'' → κ} (t : Table key) (f : ρ → ρ') (g : ρ' → ρ'')
    (hf : ∀ r, key' (f r) = key r)
    (hg : ∀ r, key'' (g r) = key' r) : (t.map f hf).map g hg = t.map (g ∘ f) fun r => (hg _).trans (hf r) := by
  apply Table.ext
  rw [rows_map, rows_map, rows_map, List.map_map]

/-- A change that the other shape does not show. -/
theorem map_modify (t : Table key) {k : κ} {m : ρ → ρ} (hm : ∀ r, key (m r) = key r) {f : ρ → ρ'}
    (hf : ∀ r, key' (f r) = key r)
    (h : ∀ r, f (m r) = f r) : (t.modify k m hm).map f hf = t.map f hf := by
  apply Table.ext
  rw [rows_map, rows_map, modify, List.map_map]
  apply List.map_congr_left
  intro r _
  by_cases hk : key r = k <;> simp [hk, h]

end Images

section Sums

variable {M : Type} [AddCommGroup M] (g : ρ → M)

theorem sum_insert {t : Table key} {r : ρ} (h : t.find (key r) = none) :
    ((t.insert r).rows.map g).sum = (t.rows.map g).sum + g r := by
  simp [rows_insert h]

/-- A sum over the rows when one of them is rewritten. -/
theorem sum_modify {t : Table key} {k : κ} {r : ρ} (h : t.find k = some r) (f : ρ → ρ)
    (hf : ∀ r, key (f r) = key r) :
    ((t.modify k f hf).rows.map g).sum = (t.rows.map g).sum + (g (f r) - g r) := by
  obtain ⟨l, l', hl⟩ := List.append_of_mem (mem_of_find h)
  have hkey : key r = k := find_key h
  have hnodup := t.nodup
  rw [hl, List.map_append, List.map_cons, hkey, List.nodup_middle, List.nodup_cons] at hnodup
  have same {l₁ : List ρ} (hoff : k ∉ l₁.map key) : (l₁.map fun r => if key r = k then f r else r) = l₁ := by
    rw [List.map_congr_left (g := id), List.map_id]
    intro r' hr'
    have hne : key r' ≠ k := fun heq => hoff (heq ▸ List.mem_map_of_mem hr')
    rw [if_neg hne, id]
  have hoff : k ∉ l.map key ∧ k ∉ l'.map key := by
    rw [List.mem_append, not_or] at hnodup
    exact hnodup.1
  rw [modify]
  simp only [hl, List.map_append, List.map_cons, List.sum_append, List.sum_cons, same hoff.1,
    same hoff.2, if_pos hkey]
  abel

end Sums

end Table
end PaymentLedger
