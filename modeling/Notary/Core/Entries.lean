import Notary.Core.Normalize

/-! Maps with numbers as keys: entries in the order of their keys, each key once. -/

namespace Notary.Core
open List

variable {α : Type} {k j : ℕ} {f : Option α → α} {m m' : List (ℕ × α)}

/-- The entries stand in the order of their keys. -/
def Ordered (m : List (ℕ × α)) : Prop := (m.map Prod.fst).Pairwise (· < ·)

theorem ordered_nil : Ordered ([] : List (ℕ × α)) := .nil

theorem ordered_cons : Ordered ((k, a) :: m) ↔ (∀ j ∈ m.map Prod.fst, k < j) ∧ Ordered m :=
  pairwise_cons

theorem Ordered.nodup (h : Ordered m) : (m.map Prod.fst).Nodup :=
  List.Pairwise.imp (fun hl => Nat.ne_of_lt hl) h

theorem mem_keys_alterEntry : j ∈ (alterEntry k f m).map Prod.fst ↔ j = k ∨ j ∈ m.map Prod.fst := by
  induction m with
  | nil => simp [alterEntry]
  | cons e _ ih =>
    obtain ⟨_, _⟩ := e
    rw [alterEntry]
    split_ifs with he hl
    · subst he
      simp
    · simp
    · rw [map_cons, mem_cons, ih, map_cons, mem_cons]
      tauto

theorem Ordered.alterEntry (h : Ordered m) : Ordered (alterEntry k f m) := by
  induction m with
  | nil => exact pairwise_singleton ..
  | cons e _ ih =>
    obtain ⟨_, _⟩ := e
    obtain ⟨hl, hr⟩ := ordered_cons.mp h
    rw [Core.alterEntry]
    split_ifs with he hlt
    · subst he
      exact ordered_cons.mpr ⟨hl, hr⟩
    · refine ordered_cons.mpr ⟨?_, h⟩
      intro j hj
      obtain rfl | hj := mem_cons.mp hj
      · exact hlt
      · exact hlt.trans (hl j hj)
    · refine ordered_cons.mpr ⟨fun j hj => ?_, ih hr⟩
      obtain rfl | hj := mem_keys_alterEntry.mp hj
      · omega
      · exact hl j hj

theorem alterEntry_perm (h : k ∉ m.map Prod.fst) : (alterEntry k f m).Perm ((k, f none) :: m) := by
  induction m with
  | nil => rfl
  | cons e _ ih =>
    obtain ⟨_, _⟩ := e
    rw [map_cons, mem_cons, not_or] at h
    rw [alterEntry, if_neg h.1]
    split_ifs
    · rfl
    · exact ((ih h.2).cons _).trans (.swap ..)

theorem length_alterEntry_of_mem (hm : Ordered m) (h : k ∈ m.map Prod.fst) :
    (alterEntry k f m).length = m.length := by
  induction m with
  | nil => cases h
  | cons e _ ih =>
    obtain ⟨_, _⟩ := e
    obtain ⟨hl, hr⟩ := ordered_cons.mp hm
    rw [alterEntry]
    split_ifs with he hlt
    · rfl
    · obtain rfl | hk := mem_cons.mp h
      · exact absurd rfl he
      · exact absurd (hl k hk) (by omega)
    · obtain rfl | hk := mem_cons.mp h
      · exact absurd rfl he
      · rw [length_cons, ih hr hk, length_cons]

theorem lookup_cons_entry (j k : ℕ) (a : α) (m : List (ℕ × α)) :
    ((k, a) :: m).lookup j = if j = k then some a else m.lookup j := by
  rw [lookup_cons]
  split_ifs with hj
  · rw [beq_iff_eq.mpr hj]
  · rw [beq_false_of_ne hj]

theorem lookup_eq_none_of_lt (h : ∀ i ∈ m.map Prod.fst, k < i) : m.lookup k = none := by
  rw [lookup_eq_none_iff]
  intro e he
  have hl := h e.1 (mem_map_of_mem he)
  exact bne_iff_ne.mpr (Nat.ne_of_lt hl)

theorem lookup_alterEntry (h : Ordered m) :
    (alterEntry k f m).lookup j = if j = k then some (f (m.lookup k)) else m.lookup j := by
  induction m with
  | nil => rw [alterEntry, lookup_cons_entry, lookup_nil, lookup_nil]
  | cons e _ ih =>
    obtain ⟨k', _⟩ := e
    obtain ⟨hl, hr⟩ := ordered_cons.mp h
    rw [alterEntry]
    by_cases he : k = k'
    · subst he
      rw [if_pos rfl, lookup_cons_entry, lookup_cons_entry, lookup_cons_entry, if_pos rfl]
      split_ifs <;> rfl
    · rw [if_neg he, lookup_cons_entry k, if_neg he]
      split_ifs with hlt hj hj
      · have hn := lookup_eq_none_of_lt fun i hi => hlt.trans (hl i hi)
        rw [lookup_cons_entry, if_pos hj, hn]
      · rw [lookup_cons_entry, if_neg hj]
      · rw [lookup_cons_entry, if_neg (hj ▸ he), ih hr, if_pos hj]
      · rw [lookup_cons_entry, lookup_cons_entry, ih hr, if_neg hj]

theorem mem_of_lookup_eq_some (h : m.lookup k = some a) : (k, a) ∈ m := by
  obtain ⟨_, _, rfl, -⟩ := lookup_eq_some_iff.mp h
  exact mem_append_right _ mem_cons_self

theorem lookup_of_mem (h : Ordered m) (he : e ∈ m) : m.lookup e.1 = some e.2 := by
  induction m with
  | nil => cases he
  | cons _ _ ih =>
    obtain ⟨hl, hr⟩ := ordered_cons.mp h
    obtain rfl | he := mem_cons.mp he
    · rw [lookup_cons_entry, if_pos rfl]
    · have hlt := hl e.1 (mem_map_of_mem he)
      rw [lookup_cons_entry, if_neg (Nat.ne_of_gt hlt), ih hr he]

/-- Two such maps with the same values are the same. -/
theorem Ordered.ext (h : Ordered m) (h' : Ordered m') (he : ∀ j, m.lookup j = m'.lookup j) :
    m = m' := by
  induction m generalizing m' with
  | nil =>
    cases m' with
    | nil => rfl
    | cons e =>
      have hh := he e.1
      rw [lookup_cons_entry, if_pos rfl] at hh
      cases hh
  | cons e _ ih =>
    obtain ⟨k, _⟩ := e
    obtain ⟨hl, hr⟩ := ordered_cons.mp h
    cases m' with
    | nil =>
      have hh := he k
      rw [lookup_cons_entry, if_pos rfl] at hh
      cases hh
    | cons e' =>
      obtain ⟨k', _⟩ := e'
      obtain ⟨hl', hr'⟩ := ordered_cons.mp h'
      have hm : k = k' := by
        by_contra hn
        have hk := he k
        have hk' := he k'
        rw [lookup_cons_entry, lookup_cons_entry, if_pos rfl, if_neg hn] at hk
        rw [lookup_cons_entry, lookup_cons_entry, if_neg (Ne.symm hn), if_pos rfl] at hk'
        obtain hlt | hg := Nat.lt_or_gt_of_ne hn
        · rw [lookup_eq_none_of_lt fun i hi => hlt.trans (hl' i hi)] at hk
          cases hk
        · rw [lookup_eq_none_of_lt fun i hi => hg.trans (hl i hi)] at hk'
          cases hk'
      subst hm
      have ha := he k
      rw [lookup_cons_entry, lookup_cons_entry, if_pos rfl, if_pos rfl, Option.some_inj] at ha
      subst ha
      rw [ih hr hr' fun j => ?_]
      by_cases hj : j = k
      · subst hj
        rw [lookup_eq_none_of_lt hl, lookup_eq_none_of_lt hl']
      · have ho := he j
        rwa [lookup_cons_entry, lookup_cons_entry, if_neg hj, if_neg hj] at ho

theorem alterEntry_lookup (h : Ordered m) (g : Option α → α) :
    alterEntry k (fun _ => g (m.lookup k)) m = alterEntry k g m := by
  refine h.alterEntry.ext h.alterEntry fun j => ?_
  rw [lookup_alterEntry h, lookup_alterEntry h]

/-! Maps that grow piece by piece: a piece changes the entry of its key. -/

section

variable {β : Type} {key : β → ℕ} {update : α → β → α} {start : α}

def collect (key : β → ℕ) (update : α → β → α) (start : α) (m : List (ℕ × α)) (pieces : List β) :
    List (ℕ × α) :=
  pieces.foldl
    (fun m piece => alterEntry (key piece) (fun saved => update (saved.getD start) piece) m) m

theorem Ordered.collect (h : Ordered m) (pieces : List β) :
    Ordered (collect key update start m pieces) := by
  induction pieces generalizing m with
  | nil => exact h
  | cons _ _ ih => exact ih h.alterEntry

theorem collect_append (m : List (ℕ × α)) (before after : List β) :
    collect key update start m (before ++ after) =
      collect key update start (collect key update start m before) after :=
  foldl_append ..

/-- The entry of a key is made of the pieces of that key alone. -/
theorem lookup_collect (h : Ordered m) (pieces : List β) :
    (collect key update start m pieces).lookup j = if pieces.filter (key · = j) = [] then m.lookup j
      else some ((pieces.filter (key · = j)).foldl update ((m.lookup j).getD start)) := by
  induction pieces generalizing m with
  | nil => rfl
  | cons piece pieces ih =>
    have hs := ih (h.alterEntry (k := key piece)
      (f := fun saved => update (saved.getD start) piece))
    rw [lookup_alterEntry h] at hs
    refine hs.trans ?_
    by_cases hj : key piece = j
    · subst hj
      have hh : (piece :: pieces).filter (key · = key piece) =
          piece :: pieces.filter (key · = key piece) := filter_cons_of_pos (by simp)
      rw [hh, if_pos rfl, if_neg (cons_ne_nil _ _)]
      split_ifs with hr
      · rw [hr]
        rfl
      · rfl
    · rw [filter_cons_of_neg (by simpa using hj), if_neg (Ne.symm hj)]

/-- A map is collected from pieces that have its keys and give each its value. -/
theorem collect_eq (h : Ordered m) (known : ∀ piece ∈ pieces, key piece ∈ m.map Prod.fst)
    (values : ∀ e ∈ m, pieces.filter (key · = e.1) ≠ [] ∧
      (pieces.filter (key · = e.1)).foldl update start = e.2) :
    collect key update start [] pieces = m := by
  refine (ordered_nil.collect pieces).ext h fun j => ?_
  rw [lookup_collect ordered_nil, lookup_nil]
  split_ifs with hn
  · cases hj : m.lookup j with
    | none => rfl
    | some a => exact absurd hn (values (j, a) (mem_of_lookup_eq_some hj)).1
  · obtain ⟨piece, hp⟩ := exists_mem_of_ne_nil _ hn
    obtain ⟨hm, hk⟩ := mem_filter.mp hp
    obtain ⟨e, he, hf⟩ := mem_map.mp (known piece hm)
    obtain rfl : e.1 = j := hf.trans (of_decide_eq_true hk)
    rw [Option.getD_none, (values e he).2, lookup_of_mem h he]

end

end Notary.Core
