import Notary.Lib.Table

/-! The total of an amount over the rows of a table. -/

namespace Relational.Table
open List

variable {ρ : Type} [Schema ρ] {t t' : Table ρ} {g : ρ → ℤ}

def total (t : Table ρ) (g : ρ → ℤ) : ℤ := (t.rows.map g).sum

theorem total_of_insert {r : ρ} (h : t.insert r = some t') : t'.total g = t.total g + g r := by
  simp [total, rows_of_insert h]

variable {p : ρ → Bool} {f : ρ → ρ}

theorem total_of_update_le (h : t.update p f = some t') (hl : ∀ r ∈ t, p r = true → g (f r) ≤ g r) :
    t'.total g ≤ t.total g := by
  simp only [total, rows_of_update h, map_map]
  apply sum_le_sum
  intro r hr
  simp only [Function.comp_apply]
  split_ifs with hp
  · exact hl r hr hp
  · exact le_rfl

/-- Rows that a list has at most one of add their growth at most once. -/
theorem sum_map_update_le {k : Schema.Key ρ} {c : ℤ} (hc : 0 ≤ c)
    (hk : ∀ r, p r = true → Schema.key r = k) {rows : List ρ}
    (hn : (rows.map Schema.key).Nodup) (hl : ∀ r ∈ rows, p r = true → g (f r) ≤ g r + c) :
    (rows.map fun r => g (if p r then f r else r)).sum ≤ (rows.map g).sum + c := by
  induction rows with
  | nil => simpa using hc
  | cons r rest ih =>
    simp only [map_cons, nodup_cons, sum_cons] at hn ⊢
    by_cases hp : p r = true
    · -- No later row has the key, so the rest stays as it is.
      have hre : (rest.map fun s => g (if p s then f s else s)) = rest.map g := by
        refine map_congr_left fun s hs => ?_
        have hns : p s ≠ true := fun hps =>
          hn.1 (mem_map.mpr ⟨s, hs, (hk s hps).trans (hk r hp).symm⟩)
        rw [if_neg hns]
      have hr := hl r mem_cons_self hp
      rw [hre, if_pos hp]
      omega
    · have hi := ih hn.2 fun s hs => hl s (mem_cons_of_mem r hs)
      rw [if_neg hp]
      omega

theorem total_of_update_one_le {k : Schema.Key ρ} {c : ℤ} (hc : 0 ≤ c) (h : t.update p f = some t')
    (hk : ∀ r, p r = true → Schema.key r = k) (hl : ∀ r ∈ t, p r = true → g (f r) ≤ g r + c) :
    t'.total g ≤ t.total g + c := by
  simp only [total, rows_of_update h, map_map]
  exact sum_map_update_le hc hk t.valid.1 hl

theorem total_delete_le (hg : ∀ r ∈ t, 0 ≤ g r) : (t.delete p).total g ≤ t.total g := by
  simp only [total, delete]
  refine (filter_sublist.map g).sum_le_sum fun x hx => ?_
  obtain ⟨r, hr, rfl⟩ := mem_map.mp hx
  exact hg r hr

end Relational.Table
