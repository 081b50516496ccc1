import Mathlib

/-! Tables of rows under a primary key, row checks and uniqueness constraints.
A statement that would leave a constraint violated has no result. -/

namespace Relational
open List Option Function

/-- The constraints declared on a table whose rows have type `ρ`. -/
class Schema (ρ : Type) where
  Key : Type
  [decKey : DecidableEq Key]
  key : ρ → Key
  /-- The conjunction of the row checks. -/
  Check : ρ → Prop
  [decCheck : DecidablePred Check]
  /-- Two rows agree on some unique column set other than the primary key. -/
  Clash : ρ → ρ → Prop
  [decClash : DecidableRel Clash]

attribute [reducible, instance] Schema.decKey Schema.decCheck Schema.decClash

variable {ρ : Type} [Schema ρ]

/-- The row lists that satisfy every declared constraint. -/
def Valid (rows : List ρ) : Prop :=
  (rows.map Schema.key).Nodup ∧ (∀ r ∈ rows, Schema.Check r) ∧
    ∀ r ∈ rows, ∀ s ∈ rows, Schema.Clash r s → Schema.key r = Schema.key s
  deriving Decidable

variable (ρ) in
/-- A table carries the proof that its rows satisfy the declared constraints. -/
structure Table where
  rows : List ρ
  valid : Valid rows

variable {t t' : Table ρ} {r s : ρ} {k : Schema.Key ρ} {p : ρ → Bool} {f : ρ → ρ}

namespace Table

instance : Membership ρ (Table ρ) := ⟨fun t r => r ∈ t.rows⟩

theorem mem_def : r ∈ t ↔ r ∈ t.rows := Iff.rfl

instance : EmptyCollection (Table ρ) := ⟨⟨[], by simp [Valid]⟩⟩

@[simp] theorem rows_empty : (∅ : Table ρ).rows = [] := rfl

@[simp] theorem not_mem_empty (r : ρ) : r ∉ (∅ : Table ρ) := by simp [mem_def]

theorem check (h : r ∈ t) : Schema.Check r := t.valid.2.1 r h

theorem eq_of_key (hr : r ∈ t) (hs : s ∈ t) (hk : Schema.key r = Schema.key s) : r = s :=
  inj_on_of_nodup_map t.valid.1 hr hs hk

theorem eq_of_clash (hr : r ∈ t) (hs : s ∈ t) (hc : Schema.Clash r s) : r = s :=
  t.eq_of_key hr hs (t.valid.2.2 r hr s hs hc)

/-- Constraint checking at the end of a statement. -/
def ofRows? (rows : List ρ) : Option (Table ρ) :=
  if h : Valid rows then some ⟨rows, h⟩ else none

theorem ofRows?_eq_some {rows : List ρ} : ofRows? rows = some t ↔ t.rows = rows := by
  unfold ofRows?
  split
  · rename_i h
    rw [some_inj]
    refine ⟨fun e => by rw [← e], fun e => ?_⟩
    cases t
    cases e
    rfl
  · rename_i h
    simp only [reduceCtorEq, false_iff]
    intro e
    exact h (e ▸ t.valid)

/-- The first row under a primary key; by the key constraint it is the only one. -/
def find? (t : Table ρ) (k : Schema.Key ρ) : Option ρ :=
  t.rows.find? fun r => Schema.key r = k

theorem find?_isSome (hr : r ∈ t) : (t.find? (Schema.key r)).isSome :=
  List.find?_isSome.mpr ⟨r, hr, by simp⟩

theorem find?_eq_some : t.find? k = some r ↔ r ∈ t ∧ Schema.key r = k := by
  have hs {s : ρ} (h : t.find? k = some s) : s ∈ t ∧ Schema.key s = k :=
    ⟨mem_of_find?_eq_some h, by simpa using find?_some h⟩
  refine ⟨hs, ?_⟩
  rintro ⟨hr, rfl⟩
  obtain ⟨s, hf⟩ := isSome_iff_exists.mp (find?_isSome hr)
  rw [hf, t.eq_of_key (hs hf).1 hr (hs hf).2]

theorem find?_eq_none : t.find? k = none ↔ ∀ r ∈ t, Schema.key r ≠ k := by
  simp [find?, List.find?_eq_none, mem_def]

def insert (t : Table ρ) (r : ρ) : Option (Table ρ) := ofRows? (t.rows ++ [r])

theorem rows_of_insert (h : t.insert r = some t') : t'.rows = t.rows ++ [r] := ofRows?_eq_some.mp h

theorem mem_of_insert (h : t.insert r = some t') : s ∈ t' ↔ s ∈ t ∨ s = r := by
  simp [mem_def, rows_of_insert h]

theorem fresh_of_insert (h : t.insert r = some t') (hs : s ∈ t) : Schema.key s ≠ Schema.key r := by
  have hn := t'.valid.1
  rw [rows_of_insert h, map_append, nodup_append] at hn
  exact hn.2.2 _ (List.mem_map_of_mem hs) _ (by simp)

theorem find?_of_insert (h : t.insert r = some t') (k : Schema.Key ρ) :
    t'.find? k = if Schema.key r = k then some r else t.find? k := by
  split_ifs with hk
  · rw [find?_eq_some]
    exact ⟨(mem_of_insert h).mpr (.inr rfl), hk⟩
  · simp [find?, rows_of_insert h, find?_append, hk]

/-- An insertion goes through if the row passes its checks under a new key and agrees with no
other row on unique columns. -/
theorem insert_of_check (hf : t.find? (Schema.key r) = none) (hch : Schema.Check r)
    (hcl : ∀ s ∈ t, ¬Schema.Clash s r ∧ ¬Schema.Clash r s) : ∃ t', t.insert r = some t' := by
  have hn := find?_eq_none.mp hf
  have hv : Valid (t.rows ++ [r]) := by
    refine ⟨?_, ?_, ?_⟩
    · rw [map_append, nodup_append]
      refine ⟨t.valid.1, nodup_singleton _, fun k hk k' hk' => ?_⟩
      obtain ⟨s, hs, rfl⟩ := List.mem_map.mp hk
      obtain rfl : k' = Schema.key r := by simpa using hk'
      exact hn s hs
    · intro s hs
      rcases mem_append.mp hs with hs | hs
      · exact check hs
      · rwa [mem_singleton.mp hs]
    · intro a ha b hb hc
      simp only [mem_append, mem_singleton] at ha hb
      rcases ha with ha | rfl <;> rcases hb with hb | rfl
      · exact t.valid.2.2 a ha b hb hc
      · exact absurd hc (hcl a ha).1
      · exact absurd hc (hcl b hb).2
      · rfl
  exact ⟨⟨_, hv⟩, ofRows?_eq_some.mpr rfl⟩

/-- `UPDATE ... SET f WHERE p`. -/
def update (t : Table ρ) (p : ρ → Bool) (f : ρ → ρ) : Option (Table ρ) :=
  ofRows? (t.rows.map fun r => if p r then f r else r)

/-- The number of rows a condition selects. -/
def count (t : Table ρ) (p : ρ → Bool) : ℕ := t.rows.countP p

theorem exists_of_count_pos (h : 0 < t.count p) : ∃ r ∈ t, p r := countP_pos_iff.mp h

theorem count_le_one (k : Schema.Key ρ) (hp : ∀ r, p r → Schema.key r = k) : t.count p ≤ 1 := by
  calc t.count p ≤ t.rows.countP fun r => Schema.key r = k :=
        countP_mono_left fun r _ h => decide_eq_true (hp r h)
    _ = (t.rows.map Schema.key).count k := by
        rw [List.count, countP_map]
        rfl
    _ ≤ 1 := nodup_iff_count_le_one.mp t.valid.1 k

theorem count_eq_one (hr : r ∈ t) (hp : p r) (hk : ∀ s, p s → Schema.key s = Schema.key r) :
    t.count p = 1 :=
  Nat.le_antisymm (count_le_one _ hk) (countP_pos_iff.mpr ⟨r, hr, hp⟩)

theorem rows_of_update (h : t.update p f = some t') :
    t'.rows = t.rows.map fun r => if p r then f r else r :=
  ofRows?_eq_some.mp h

theorem mem_of_update (h : t.update p f = some t') :
    s ∈ t' ↔ ∃ r ∈ t, s = if p r then f r else r := by
  simp only [mem_def, rows_of_update h, List.mem_map, eq_comm]

/-- An update goes through if it keeps keys and unique columns and the new rows pass their
checks. -/
theorem update_of_check (hk : ∀ r, Schema.key (f r) = Schema.key r)
    (hcl : ∀ r s, Schema.Clash (if p r then f r else r) (if p s then f s else s) →
      Schema.Clash r s) (hch : ∀ r ∈ t, p r → Schema.Check (f r)) :
    ∃ t', t.update p f = some t' := by
  have hsa (r : ρ) : Schema.key (if p r then f r else r) = Schema.key r := by
    split_ifs
    · exact hk r
    · rfl
  have hv : Valid (t.rows.map fun r => if p r then f r else r) := by
    refine ⟨?_, ?_, ?_⟩
    · simpa only [List.map_map, comp_def, hsa] using t.valid.1
    · intro s hs
      obtain ⟨r, hr, rfl⟩ := List.mem_map.mp hs
      split_ifs with hp
      · exact hch r hr hp
      · exact check hr
    · intro a ha b hb hc
      obtain ⟨r, hr, rfl⟩ := List.mem_map.mp ha
      obtain ⟨s, hs, rfl⟩ := List.mem_map.mp hb
      rw [hsa, hsa]
      exact t.valid.2.2 r hr s hs (hcl r s hc)
  exact ⟨⟨_, hv⟩, ofRows?_eq_some.mpr rfl⟩

/-- An update that fixes every selected row changes nothing. -/
theorem update_of_fixed (h : ∀ r ∈ t, p r → f r = r) : t.update p f = some t := by
  rw [update, ofRows?_eq_some]
  have hm : t.rows.map (fun r => if p r then f r else r) = t.rows.map id := by
    apply map_congr_left
    intro r hr
    split_ifs with hp
    · exact h r hr hp
    · rfl
  rw [hm, List.map_id]

theorem mem_update_of_not (h : t.update p f = some t') (hr : r ∈ t) (hp : p r = false) : r ∈ t' :=
  (mem_of_update h).mpr ⟨r, hr, by simp [hp]⟩

theorem find?_of_update (h : t.update p f = some t') (hk : ∀ r, Schema.key (f r) = Schema.key r)
    (k : Schema.Key ρ) : t'.find? k = (t.find? k).map fun r => if p r then f r else r := by
  have hs (r : ρ) : Schema.key (if p r then f r else r) = Schema.key r := by
    split_ifs
    · exact hk r
    · rfl
  simp only [find?, rows_of_update h, find?_map, comp_def, hs]

theorem mem_update_of (h : t.update p f = some t') (hr : r ∈ t) (hp : p r = true) : f r ∈ t' :=
  (mem_of_update h).mpr ⟨r, hr, by simp [hp]⟩

/-- `DELETE ... WHERE p`. -/
def delete (t : Table ρ) (p : ρ → Bool) : Table ρ where
  rows := t.rows.filter fun r => !p r
  valid := by
    refine ⟨t.valid.1.sublist (filter_sublist.map Schema.key), ?_, ?_⟩
    · intro r hr
      exact t.valid.2.1 r (mem_of_mem_filter hr)
    · intro r hr s hs
      exact t.valid.2.2 r (mem_of_mem_filter hr) s (mem_of_mem_filter hs)

theorem mem_delete : r ∈ t.delete p ↔ r ∈ t ∧ p r = false := by
  simp [mem_def, delete]

theorem find?_delete (hp : ∀ r, Schema.key r = k → p r = false) :
    (t.delete p).find? k = t.find? k := by
  simp only [find?, delete, find?_filter]
  congr 1
  funext r
  by_cases hk : Schema.key r = k
  · simp [hk, hp r hk]
  · simp [hk]

theorem find?_delete_of (hp : ∀ r, Schema.key r = k → p r = true) :
    (t.delete p).find? k = none := by
  rw [find?_eq_none]
  intro r hr hk
  have hke := (mem_delete.mp hr).2
  rw [hp r hk] at hke
  cases hke

section Lookups

/-! The rows that a condition on unchanging columns selects. -/

variable {t t' : Table ρ} {p q : ρ → Bool} {f : ρ → ρ} {r : ρ}

theorem first_of_update (h : t.update p f = some t') (hq : ∀ r, q (f r) = q r) :
    t'.rows.find? q = (t.rows.find? q).map fun r => if p r then f r else r := by
  have hs (r : ρ) : q (if p r then f r else r) = q r := by
    split_ifs
    · exact hq r
    · rfl
  simp only [rows_of_update h, find?_map, comp_def, hs]

theorem first_of_insert (h : t.insert r = some t') :
    t'.rows.find? q = (t.rows.find? q).or (if q r then some r else none) := by
  rw [rows_of_insert h, find?_append]
  by_cases hr : q r <;> simp [hr]

theorem first_delete (hp : ∀ r, q r → p r = false) :
    (t.delete p).rows.find? q = t.rows.find? q := by
  simp only [delete, find?_filter]
  congr 1
  funext r
  by_cases hq : q r
  · simp [hq, hp r hq]
  · simp [hq]

theorem first_delete_of (hp : ∀ r, q r → p r = true) : (t.delete p).rows.find? q = none := by
  rw [List.find?_eq_none]
  intro r hr hq
  have hk := (mem_filter.mp hr).2
  rw [hp r hq] at hk
  cases hk

theorem selected_of_update (h : t.update p f = some t') (hq : ∀ r, q (f r) = q r) :
    t'.rows.filter q = (t.rows.filter q).map fun r => if p r then f r else r := by
  have hs (r : ρ) : q (if p r then f r else r) = q r := by
    split_ifs
    · exact hq r
    · rfl
  simp only [rows_of_update h, List.filter_map, comp_def, hs]

theorem selected_of_insert (h : t.insert r = some t') :
    t'.rows.filter q = t.rows.filter q ++ if q r then [r] else [] := by
  rw [rows_of_insert h, filter_append]
  by_cases hr : q r <;> simp [hr]

theorem selected_delete (hp : ∀ r, q r → p r = false) :
    (t.delete p).rows.filter q = t.rows.filter q := by
  simp only [delete, List.filter_filter]
  refine filter_congr fun r _ => ?_
  by_cases hq : q r
  · simp [hq, hp r hq]
  · simp [hq]

end Lookups

end Table

end Relational
