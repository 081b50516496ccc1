import Notary.Core.ArchiveRoundTrip
import Notary.Core.Entries

/-! The output of a Responses stream, rebuilt from its items: when every item is kept. -/

namespace Notary.Core
open Utf8 Json List

variable {c : Crates}

/-- The items that are done, with the indices that their events give. -/
def doneItems (events : List c.Json) : List (Option ℕ × c.Json) :=
  (events.filter (hasType · "response.output_item.done")).filterMap fun event =>
    (event.get "item").map fun item =>
      (((event.get "output_index").bind Value.asU64).map UInt64.toNat, item)

/-- The index of each item, or its position among the items where it has none. -/
def itemKeys (start : ℕ) : List (Option ℕ × c.Json) → List ℕ
  | [] => []
  | (index, _) :: items => index.getD start :: itemKeys (start + 1) items

/-- The items in the order of their events. -/
def collectItems : List (Option ℕ × c.Json) → List (ℕ × c.Json) → List (ℕ × c.Json)
  | [], entries => entries
  | (index, item) :: items, entries =>
    collectItems items (alterEntry (index.getD entries.length) (fun _ => item) entries)

theorem completedItems_eq (events : List c.Json) (entries : List (ℕ × c.Json)) :
    completedItems (events.filter (hasType · "response.output_item.done")) entries =
      collectItems (doneItems events) entries := by
  unfold doneItems
  induction events.filter (hasType · "response.output_item.done") generalizing entries with
  | nil => rfl
  | cons event _ ih =>
    rw [completedItems]
    cases hi : event.get "item" with
    | none =>
      rw [filterMap_cons_none (by rw [hi]; rfl)]
      exact ih entries
    | some =>
      rw [filterMap_cons_some (by rw [hi]; rfl), collectItems]
      have hin : ((event.get "output_index").bind Value.asU64).elim entries.length
          UInt64.toNat = (((event.get "output_index").bind Value.asU64).map
            UInt64.toNat).getD entries.length := by
        cases (event.get "output_index").bind Value.asU64 <;> rfl
      simp only [hin]
      exact ih _

variable {entries : List (ℕ × c.Json)}

theorem length_collectItems_le (items : List (Option ℕ × c.Json)) (h : Ordered entries) :
    (collectItems items entries).length ≤ entries.length + items.length := by
  induction items generalizing entries with
  | nil => exact Nat.le_refl _
  | cons e _ ih =>
    have hs : (alterEntry (e.1.getD entries.length) (fun _ => e.2) entries).length ≤
        entries.length + 1 := by
      by_cases hk : e.1.getD entries.length ∈ entries.map Prod.fst
      · rw [length_alterEntry_of_mem h hk]
        omega
      · rw [(alterEntry_perm hk).length_eq, length_cons]
    have hr := ih (h.alterEntry (k := e.1.getD entries.length) (f := fun _ => e.2))
    rw [collectItems, length_cons]
    omega

/-- With keys that differ from each other and from those at hand, every item gets an entry. -/
theorem collectItems_perm (h : (entries.map Prod.fst ++ itemKeys entries.length items).Nodup) :
    ((collectItems items entries).map Prod.snd).Perm
      (entries.map Prod.snd ++ items.map Prod.snd) := by
  induction items generalizing entries with
  | nil => simp [collectItems]
  | cons e items ih =>
    obtain ⟨index, item⟩ := e
    rw [itemKeys] at h
    have hne : index.getD entries.length ∉ entries.map Prod.fst := by
      intro hme
      exact disjoint_of_nodup_append h hme List.mem_cons_self
    have hp := alterEntry_perm (f := fun _ => item) hne
    have hl : (alterEntry (index.getD entries.length) (fun _ => item) entries).length =
        entries.length + 1 := by
      rw [hp.length_eq, length_cons]
    have hn : ((alterEntry (index.getD entries.length) (fun _ => item) entries).map Prod.fst ++
        itemKeys (entries.length + 1) items).Nodup := by
      have hm := ((hp.map Prod.fst).append_right (itemKeys (entries.length + 1) items)).nodup_iff
      rw [hm, map_cons, cons_append]
      exact (perm_middle.nodup_iff).mp h
    rw [collectItems]
    rw [← hl] at hn
    refine (ih hn).trans ?_
    refine ((hp.map Prod.snd).append_right _).trans ?_
    rw [map_cons, map_cons, cons_append]
    exact perm_middle.symm

/-- As many entries as items need keys that differ. -/
theorem nodup_of_length (ho : Ordered entries)
    (h : (collectItems items entries).length = entries.length + items.length) :
    (entries.map Prod.fst ++ itemKeys entries.length items).Nodup := by
  induction items generalizing entries with
  | nil => simpa [itemKeys] using ho.nodup
  | cons e items ih =>
    obtain ⟨index, item⟩ := e
    have hne := ho.alterEntry (k := index.getD entries.length) (f := fun _ => item)
    have hle := length_collectItems_le items hne
    rw [collectItems, length_cons] at h
    have hnw : index.getD entries.length ∉ entries.map Prod.fst := by
      intro hm
      rw [length_alterEntry_of_mem ho hm] at hle
      omega
    have hp := alterEntry_perm (f := fun _ => item) hnw
    have hl : (alterEntry (index.getD entries.length) (fun _ => item) entries).length =
        entries.length + 1 := by
      rw [hp.length_eq, length_cons]
    have hn := ih hne (by omega)
    rw [hl, ((hp.map Prod.fst).append_right _).nodup_iff, map_cons, cons_append] at hn
    rw [itemKeys]
    exact (perm_middle.nodup_iff).mpr hn

/-- The rebuilt output has every item exactly once if and only if the keys of the items differ. -/
theorem responses_items_kept (events : List c.Json) (members : List (String × c.Json))
    (hresponse : (events.reverse.find? (hasType · "response.completed")).bind
      (·.get "response") = some (.object members))
    (hempty : (((Value.object members).get "output").bind Value.asArray).all List.isEmpty = true) :
    (∃ response, openaiResponsesSse events = .ok response ∧
      (elementsOf response "output").Perm ((doneItems events).map Prod.snd)) ↔
    (itemKeys 0 (doneItems events)).Nodup := by
  have hresult : ∃ response, openaiResponsesSse events = .ok response ∧
      elementsOf response "output" = (collectItems (doneItems events) []).map Prod.snd := by
    simp only [openaiResponsesSse, hresponse, orBail, bind, Except.bind]
    rw [if_pos hempty, completedItems_eq]
    by_cases hitems : collectItems (doneItems events) [] = []
    · refine ⟨.object members, by rw [if_neg (not_not.mpr hitems)], ?_⟩
      rw [hitems]
      unfold elementsOf
      cases hout : ((Value.object members).get "output").bind Value.asArray with
      | none => rfl
      | some =>
        rw [hout] at hempty
        simpa using hempty
    · refine ⟨_, by rw [if_pos hitems]; rfl, ?_⟩
      unfold elementsOf
      rw [Value.get_insertMember]
      rfl
  obtain ⟨response, hok, helements⟩ := hresult
  constructor
  · rintro ⟨response', hok', hperm⟩
    obtain rfl : response = response' := Except.ok.inj (hok.symm.trans hok')
    have hlength := hperm.length_eq
    rw [helements, length_map, length_map] at hlength
    have hnodup := nodup_of_length ordered_nil (hlength.trans (Nat.zero_add _).symm)
    rwa [map_nil, nil_append] at hnodup
  · intro hnodup
    refine ⟨response, hok, ?_⟩
    have hperm : ((collectItems (doneItems events) []).map Prod.snd).Perm
        ([] ++ (doneItems events).map Prod.snd) := collectItems_perm hnodup
    rwa [helements]

def itemDone (index : Option UInt64) (item : String) : c.Json :=
  .object (("item", .string item) ::
    (index.map fun n => ("output_index", Value.number (.unsigned n))).toList ++
      [("type", .string "response.output_item.done")])

def responseCompleted : c.Json :=
  .object [("response", .object []), ("type", .string "response.completed")]

theorem responses_items_kept_sample :
    ∃ response : sampleCrates.Json,
      openaiResponsesSse [itemDone none "a", itemDone (some 1) "b", responseCompleted] =
        .ok response ∧ (elementsOf response "output").Perm [.string "a", .string "b"] :=
  (responses_items_kept [itemDone none "a", itemDone (some 1) "b", responseCompleted] [] rfl
    rfl).mpr (by decide)

/-- An item without an index takes the place of one that stands at the count of the items. -/
theorem item_without_index_replaces :
    ∃ events : List sampleCrates.Json, events = [itemDone (some 1) "a", itemDone none "b",
        responseCompleted] ∧
      (doneItems events).map Prod.snd = [.string "a", .string "b"] ∧
      ∃ response, openaiResponsesSse events = .ok response ∧
        elementsOf response "output" = [.string "b"] :=
  ⟨_, rfl, rfl, _, rfl, rfl⟩

end Notary.Core
