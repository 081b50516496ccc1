import Notary.Core.Entries

/-! Members that may be null, and strings that a stream sends in fragments. -/

namespace Notary.Core
open Utf8 Json List Option

variable {c : Crates} {value : c.Json} {key : String}

theorem getOrNull_of_get {member : c.Json} (h : value.get key = some member) :
    getOrNull value key = member := by
  rw [getOrNull, h, getD_some]

theorem get_of_null (h : getOrNull value key = .null) :
    value.get key = none ∨ value.get key = some .null := by
  unfold getOrNull at h
  cases hg : value.get key with
  | none => exact .inl rfl
  | some =>
    rw [hg, getD_some] at h
    exact .inr (congrArg some h)

theorem get_of_not_null (h : getOrNull value key = member) (hm : member ≠ .null) :
    value.get key = some member := by
  unfold getOrNull at h
  cases hg : value.get key with
  | none =>
    rw [hg] at h
    exact absurd h.symm hm
  | some =>
    rw [hg, getD_some] at h
    exact congrArg some h

theorem optionalString_eq (name : String) (h : getOrNull value key = optionalJson s)
    (hs : s ≠ some "") :
    optionalString value key name = .ok s := by
  unfold optionalString
  cases s with
  | none => obtain hg | hg := get_of_null h <;> rw [hg]
  | some =>
    rw [get_of_not_null h nofun]
    exact if_pos fun ht => hs (congrArg some ht)

theorem optionalU64_eq (h : getOrNull value key = optionalNumber n) :
    optionalU64 value key = .ok n := by
  unfold optionalU64
  cases n with
  | none => obtain hg | hg := get_of_null h <;> rw [hg]
  | some =>
    rw [get_of_not_null h nofun]
    rfl

def stringAt (value : c.Json) (key : String) : Option String := (value.get key).bind Value.asStr

theorem stringOr_eq (value : c.Json) (key : String) :
    stringOr value key = (stringAt value key).getD "" := rfl

theorem stringAt_eq (h : getOrNull value key = optionalJson s) :
    stringAt value key = s := by
  unfold stringAt
  cases s with
  | none => obtain hg | hg := get_of_null h <;> rw [hg] <;> rfl
  | some =>
    rw [get_of_not_null h nofun]
    rfl

/-- A member that is missing, null or a string that is not empty. -/
def Readable (value : c.Json) (key : String) : Prop :=
  ∃ s : Option String, s ≠ some "" ∧ getOrNull value key = optionalJson s

theorem optionalString_of_readable (h : Readable value key) (name : String) :
    optionalString value key name = .ok (stringAt value key) := by
  obtain ⟨_, hs, he⟩ := h
  rw [optionalString_eq name he hs, stringAt_eq he]

/-- The strings that some values have under a key. -/
def strings (key : String) (values : List c.Json) : List String :=
  values.filterMap (stringAt · key)

theorem strings_cons (key : String) (value : c.Json) (values : List c.Json) :
    strings key (value :: values) = (stringAt value key).toList ++ strings key values := by
  cases h : stringAt value key <;> simp [strings, h]

theorem join_strings_cons (key : String) (value : c.Json) (values : List c.Json) :
    String.join (strings key (value :: values)) =
      stringOr value key ++ String.join (strings key values) := by
  rw [strings_cons, stringOr_eq]
  cases stringAt value key with
  | none => exact (String.empty_append).symm
  | some => exact String.join_cons

theorem foldl_or_eq {α β : Type} {f : β → Option α} {a : α} {values : List β} (start : Option α)
    (h : ∀ value ∈ values, f value = none ∨ f value = some a) (hs : ∃ value ∈ values,
      f value = some a) : values.foldl (fun saved value => (f value).or saved) start = some a := by
  have hk : ∀ (values : List β), (∀ value ∈ values, f value = none ∨ f value = some a) →
      values.foldl (fun saved value => (f value).or saved) (some a) = some a := by
    intro values h
    induction values with
    | nil => rfl
    | cons value _ ih =>
      have hva : (f value).or (some a) = some a := by
        obtain hn | hs := h value mem_cons_self
        · rw [hn, none_or]
        · rw [hs, some_or]
      rw [foldl_cons, hva]
      exact ih fun v hv => h v (mem_cons_of_mem _ hv)
  obtain ⟨_, hm, hva⟩ := hs
  obtain ⟨_, after, rfl⟩ := append_of_mem hm
  rw [foldl_append, foldl_cons, hva, some_or]
  exact hk after fun v hv => h v (mem_append_right _ (mem_cons_of_mem _ hv))

theorem findSome?_eq {α β : Type} {f : β → Option α} {a : α} {values : List β}
    (h : ∀ value ∈ values, f value = none ∨ f value = some a)
    (hs : ∃ value ∈ values, f value = some a) : values.findSome? f = some a := by
  cases hf : values.findSome? f with
  | none =>
    obtain ⟨value, hm, hv⟩ := hs
    exact absurd (findSome?_eq_none_iff.mp hf value hm) (by rw [hv]; nofun)
  | some =>
    obtain ⟨value, hm, hv⟩ := exists_of_findSome?_eq_some hf
    obtain hn | hva := h value hm
    · exact absurd (hn.symm.trans hv) nofun
    · exact hv.symm.trans hva

end Notary.Core
