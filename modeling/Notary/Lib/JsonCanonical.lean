import Notary.Lib.JsonRoundTrip

/-! Values that the parser returns unchanged from their own text. -/

namespace Json
open List

variable {F : Type}

variable {v : Value F}

namespace Value

theorem normalizeAll_of_fixed (vs : List (Value F)) (h : ∀ v ∈ vs, v.normalize = v) :
    normalizeAll vs = vs := by
  induction vs with
  | nil => rw [normalizeAll]
  | cons v _ ih => rw [normalizeAll, h v mem_cons_self, ih fun w hw => h w (mem_cons_of_mem v hw)]

theorem insertMember_of_lt {k : String} {ms : List (String × Value F)} (h : ∀ m ∈ ms, k < m.1) :
    insertMember k v ms = (k, v) :: ms := by
  cases ms with
  | nil => rfl
  | cons m =>
    have hl := h m mem_cons_self
    rw [insertMember, if_neg (ne_of_lt hl), if_pos hl]

theorem normalizeMembers_of_fixed (ms : List (String × Value F))
    (hs : (ms.map (·.1)).Pairwise (· < ·)) (h : ∀ m ∈ ms, m.2.normalize = m.2) :
    normalizeMembers ms = ms := by
  induction ms with
  | nil => rw [normalizeMembers]
  | cons m ms ih =>
    obtain ⟨k, v⟩ := m
    obtain ⟨hk, hms⟩ := pairwise_cons.mp hs
    have hl : ∀ m ∈ ms, k < m.1 := fun m hm => hk m.1 (mem_map_of_mem hm)
    have hn : ms.any (·.1 = k) = false := by
      rw [any_eq_false]
      intro m hm
      simpa using (ne_of_lt (hl m hm)).symm
    rw [normalizeMembers, ih hms fun m hm => h m (mem_cons_of_mem _ hm)]
    simp only [hn, Bool.false_eq_true, if_false]
    rw [h (k, v) mem_cons_self, insertMember_of_lt hl]

theorem mem_insertMember {k : String} {ms : List (String × Value F)} {m : String × Value F}
    (h : m ∈ insertMember k v ms) : m = (k, v) ∨ m ∈ ms := by
  induction ms with
  | nil => exact .inl (mem_singleton.mp h)
  | cons m' ms ih =>
    rw [insertMember] at h
    split_ifs at h
    · exact (mem_cons.mp h).imp_right (mem_cons_of_mem _)
    · exact mem_cons.mp h
    · obtain rfl | h := mem_cons.mp h
      · exact .inr mem_cons_self
      · exact (ih h).imp_right (mem_cons_of_mem _)

theorem insertMember_sorted {k : String} {ms : List (String × Value F)}
    (h : ms.Pairwise (·.1 < ·.1)) : (insertMember k v ms).Pairwise (·.1 < ·.1) := by
  induction ms with
  | nil => exact pairwise_singleton _ _
  | cons m ms ih =>
    obtain ⟨hm, hms⟩ := pairwise_cons.mp h
    rw [insertMember]
    split_ifs with he hl
    · exact pairwise_cons.mpr ⟨fun x hx => he ▸ hm x hx, hms⟩
    · refine pairwise_cons.mpr ⟨forall_mem_cons.mpr ⟨hl, fun x hx => hl.trans (hm x hx)⟩, h⟩
    · refine pairwise_cons.mpr ⟨fun x hx => ?_, ih hms⟩
      obtain rfl | hx := mem_insertMember hx
      · exact lt_of_le_of_ne (not_lt.mp hl) (Ne.symm he)
      · exact hm x hx

theorem normalizeMembers_sorted (ms : List (String × Value F)) :
    (normalizeMembers ms).Pairwise (·.1 < ·.1) := by
  induction ms with
  | nil => exact .nil
  | cons m ms ih =>
    rw [normalizeMembers]
    split_ifs
    · exact ih
    · exact insertMember_sorted ih

mutual

/-- No object has two members of one key. -/
def Distinct : Value F → Prop
  | .array vs => DistinctElements vs
  | .object ms => (ms.map (·.1)).Nodup ∧ DistinctMembers ms
  | _ => True

def DistinctElements : List (Value F) → Prop
  | [] => True
  | v :: vs => v.Distinct ∧ DistinctElements vs

def DistinctMembers : List (String × Value F) → Prop
  | [] => True
  | (_, v) :: ms => v.Distinct ∧ DistinctMembers ms

end

theorem distinctMembers_of_mem {ms : List (String × Value F)} (h : ∀ m ∈ ms, m.2.Distinct) :
    DistinctMembers ms := by
  induction ms with
  | nil => trivial
  | cons m ms ih => exact ⟨h m mem_cons_self, ih fun x hx => h x (mem_cons_of_mem m hx)⟩

mutual

theorem normalize_normalize :
    ∀ v : Value F, v.normalize.normalize = v.normalize ∧ v.normalize.Distinct
  | .null | .bool _ | .number _ | .string _ => ⟨rfl, trivial⟩
  | .array vs => by
    obtain ⟨hn, hd⟩ := normalizeAll_normalizeAll vs
    exact ⟨congrArg Value.array hn, hd⟩
  | .object ms => by
    have hf := normalizeMembers_fixed ms
    have hs := normalizeMembers_sorted ms
    exact ⟨congrArg Value.object
      (normalizeMembers_of_fixed _ (pairwise_map.mpr hs) fun m hm => (hf m hm).1),
      pairwise_map.mpr (hs.imp ne_of_lt), distinctMembers_of_mem fun m hm => (hf m hm).2⟩

theorem normalizeAll_normalizeAll : ∀ vs : List (Value F),
    normalizeAll (normalizeAll vs) = normalizeAll vs ∧ DistinctElements (normalizeAll vs)
  | [] => ⟨rfl, trivial⟩
  | v :: vs => by
    obtain ⟨hv, hd⟩ := v.normalize_normalize
    obtain ⟨hvs, hds⟩ := normalizeAll_normalizeAll vs
    exact ⟨congrArg₂ _ hv hvs, hd, hds⟩

theorem normalizeMembers_fixed : ∀ ms : List (String × Value F),
    ∀ m ∈ normalizeMembers ms, m.2.normalize = m.2 ∧ m.2.Distinct
  | [] => nofun
  | (k, v) :: ms => by
    intro m hm
    rw [normalizeMembers] at hm
    split_ifs at hm
    · exact normalizeMembers_fixed ms m hm
    · obtain rfl | hm := mem_insertMember hm
      · exact v.normalize_normalize
      · exact normalizeMembers_fixed ms m hm

end

/-- Normalizing an object without duplicates sorts its members. -/
theorem insertMember_eq_orderedInsert {k : String} {ms : List (String × Value F)}
    (h : ∀ m ∈ ms, m.1 ≠ k) :
    insertMember k v ms = ms.orderedInsert (·.1 ≤ ·.1) (k, v) := by
  induction ms with
  | nil => rfl
  | cons m ms ih =>
    have hn := h m mem_cons_self
    rw [insertMember, if_neg hn.symm, orderedInsert_cons, ih fun x hx => h x (mem_cons_of_mem m hx)]
    simp only [lt_iff_le_and_ne, hn.symm, ne_eq, not_false_eq_true, and_true]

theorem normalizeMembers_eq_insertionSort {ms : List (String × Value F)}
    (h : (ms.map (·.1)).Nodup) :
    normalizeMembers ms = (ms.map fun m => (m.1, m.2.normalize)).insertionSort (·.1 ≤ ·.1) := by
  induction ms with
  | nil => rfl
  | cons m ms ih =>
    obtain ⟨hm, hms⟩ := nodup_cons.mp h
    have hn : ∀ x ∈ normalizeMembers ms, x.1 ≠ m.1 := by
      intro x hx he
      rw [ih hms, mem_insertionSort] at hx
      obtain ⟨y, hy, rfl⟩ := mem_map.mp hx
      exact hm (mem_map.mpr ⟨y, hy, he⟩)
    rw [normalizeMembers, map_cons, insertionSort_cons, ← ih hms,
      ← insertMember_eq_orderedInsert hn]
    refine if_neg ?_
    simpa only [any_eq_true, decide_eq_true_eq, not_exists, not_and] using hn

variable [Floats F]

/-- The objects of the value are maps, and it has no floats that reading changes. -/
structure Canonical (v : Value F) : Prop where
  normalized : v.normalize = v
  reread : v.reread = v

theorem canonical_string (s : String) : (Value.string s : Value F).Canonical :=
  ⟨rfl, rfl⟩

theorem canonical_unsigned (n : UInt64) : (Value.number (.unsigned n) : Value F).Canonical :=
  ⟨rfl, rfl⟩

theorem rereadMembers_of_fixed (ms : List (String × Value F))
    (h : ∀ m ∈ ms, m.2.reread = m.2) : rereadMembers ms = ms := by
  induction ms with
  | nil => rw [rereadMembers]
  | cons m _ ih => rw [rereadMembers, h m mem_cons_self, ih fun w hw => h w (mem_cons_of_mem m hw)]

theorem canonical_array {vs : List (Value F)} (h : ∀ v ∈ vs, v.Canonical) :
    (Value.array vs).Canonical where
  normalized := by rw [normalize, normalizeAll_of_fixed vs fun v hv => (h v hv).normalized]
  reread := by rw [Value.reread, rereadAll_of_fixed vs fun v hv => (h v hv).reread]

theorem canonical_object {ms : List (String × Value F)} (keys : List String)
    (hk : ms.map (·.1) = keys) (hs : keys.Pairwise (· < ·))
    (h : ∀ m ∈ ms, m.2.Canonical) : (Value.object ms).Canonical where
  normalized := by
    rw [normalize, normalizeMembers_of_fixed ms (hk ▸ hs) fun m hm => (h m hm).normalized]
  reread := by rw [Value.reread, rereadMembers_of_fixed ms fun m hm => (h m hm).reread]

theorem canonical_singleton (k : String) (h : v.Canonical) : (Value.object [(k, v)]).Canonical :=
  canonical_object [k] rfl (pairwise_singleton _ k) (by simpa using h)

theorem canonical_pair {k k' : String} {w : Value F} (hl : k < k') (hv : v.Canonical)
    (hw : w.Canonical) : (Value.object [(k, v), (k', w)]).Canonical :=
  canonical_object [k, k'] rfl (pairwise_pair.mpr hl) (by simp [hv, hw])

/-- A canonical value is what its own text spells. -/
theorem Canonical.fromSlice_print (h : v.Canonical) (hd : v.depth < nestingLimit) (L : Layout)
    {ws : List Char} (hw : ∀ c ∈ ws, isSpace c) :
    fromSlice (Utf8.encode (v.print L 0 ++ ws)) = some v := by
  rw [fromSlice, Utf8.decode_encode, Option.bind_some, document_print L v hw, if_pos hd,
    h.reread, Option.map_some, h.normalized]

mutual

theorem reread_eq (hx : ∀ x : F, Floats.read (Floats.write x) = some x) :
    ∀ v : Value F, v.reread = v
  | .null | .bool _ | .string _ => rfl
  | .number (.unsigned _) | .number (.negative _) => rfl
  | .number (.float x) => by simp [reread, Number.reread, hx]
  | .array vs => congrArg Value.array (rereadAll_eq hx vs)
  | .object ms => congrArg Value.object (rereadMembers_eq hx ms)

theorem rereadAll_eq (hx : ∀ x : F, Floats.read (Floats.write x) = some x) :
    ∀ vs : List (Value F), rereadAll vs = vs
  | [] => rfl
  | v :: vs => congrArg₂ _ (reread_eq hx v) (rereadAll_eq hx vs)

theorem rereadMembers_eq (hx : ∀ x : F, Floats.read (Floats.write x) = some x) :
    ∀ ms : List (String × Value F), rereadMembers ms = ms
  | [] => rfl
  | (k, v) :: ms => congrArg₂ _ (congrArg (k, ·) (reread_eq hx v)) (rereadMembers_eq hx ms)

end

theorem print_injective (hx : ∀ x : F, Floats.read (Floats.write x) = some x) (L : Layout) :
    Function.Injective (print L 0 : Value F → List Char) := by
  intro v w he
  have hp (u : Value F) (hu : u.depth < max v.depth w.depth + 1) :
      value (u.print L 0).length (max v.depth w.depth + 1) (u.print L 0) = some (u, []) := by
    have h := value_print L u 0 _ _ [] (Nat.succ_pos (max v.depth w.depth)) le_rfl nofun
    rwa [append_nil, if_pos hu, reread_eq hx] at h
  have hv := hp v (by omega)
  rw [he, hp w (by omega)] at hv
  exact (Prod.mk.inj (Option.some.inj hv)).1.symm

end Value

end Json
