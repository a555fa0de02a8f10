import GoSchema.Sample
import Mathlib.Data.String.Basic

/-! # Ordered samples

Every sample that is read from JSON has its keys in ascending order.
-/

namespace GoSchema

namespace Sample

theorem Ordered.item {items : List Sample} (ordered : (Sample.array items).Ordered)
    {item : Sample} (member : item ∈ items) : item.Ordered := by
  have below : OrderedItems items := by simpa only [Ordered] using ordered
  clear ordered
  induction items with
  | nil => simp at member
  | cons first rest ih =>
      rcases List.mem_cons.mp member with rfl | later
      · exact below.1
      · exact ih later below.2

theorem Ordered.member {members : List (String × Sample)}
    (ordered : (Sample.object members).Ordered) {key : String} {item : Sample}
    (member : (key, item) ∈ members) : item.Ordered := by
  have below : OrderedMembers members := by simpa only [Ordered] using ordered.2
  clear ordered
  induction members with
  | nil => simp at member
  | cons first rest ih =>
      rcases List.mem_cons.mp member with rfl | later
      · exact below.1
      · exact ih later below.2

theorem Ordered.nodup_keys {members : List (String × Sample)}
    (ordered : (Sample.object members).Ordered) : (members.map (·.1)).Nodup := by
  simp only [Ordered] at ordered
  refine List.Pairwise.imp ?_ ordered.1
  intro a b before equal
  exact String.lt_irrefl _ (equal ▸ before)

variable {key : String} {value : Sample} {ms : List (String × Sample)}

theorem mem_insertMember {m : String × Sample} (member : m ∈ insertMember key value ms) :
    m = (key, value) ∨ m ∈ ms := by
  induction ms with
  | nil => exact .inl (List.mem_singleton.mp member)
  | cons head rest ih =>
      obtain ⟨k, v⟩ := head
      simp only [insertMember] at member
      split at member
      · exact List.mem_cons.mp member
      · split at member
        · exact .inr member
        · rcases List.mem_cons.mp member with first | later
          · exact .inr (List.mem_cons.mpr (.inl first))
          · exact (ih later).imp_right (List.mem_cons_of_mem _)

theorem ascends_insertMember (ascends : (ms.map (·.1)).Pairwise (· < ·)) :
    ((insertMember key value ms).map (·.1)).Pairwise (· < ·) := by
  induction ms with
  | nil => exact List.pairwise_singleton _ _
  | cons head rest ih =>
      obtain ⟨k, v⟩ := head
      obtain ⟨above, later⟩ := List.pairwise_cons.mp ascends
      simp only [insertMember]
      split
      · rename_i before
        refine List.pairwise_cons.mpr ⟨?_, ascends⟩
        intro other member
        rcases List.mem_cons.mp member with rfl | member
        · exact before
        · exact lt_trans before (above other member)
      · rename_i notBefore
        split
        · exact ascends
        · rename_i different
          have after : k < key := lt_of_le_of_ne (not_lt.mp notBefore) (Ne.symm different)
          refine List.pairwise_cons.mpr ⟨?_, ih later⟩
          intro other member
          obtain ⟨m, known, rfl⟩ := List.mem_map.mp member
          rcases mem_insertMember known with rfl | old
          · exact after
          · exact above m.1 (List.mem_map.mpr ⟨m, old, rfl⟩)

theorem orderedMembers_insertMember (here : value.Ordered) (others : OrderedMembers ms) :
    OrderedMembers (insertMember key value ms) := by
  induction ms with
  | nil => exact ⟨here, others⟩
  | cons head rest ih =>
      obtain ⟨k, v⟩ := head
      simp only [insertMember]
      split
      · exact ⟨here, others⟩
      · split
        · exact others
        · exact ⟨others.1, ih others.2⟩

mutual
theorem ordered_ofJson (json : Json) : (ofJson json).Ordered := by
  cases json with
  | null | bool | number | string => trivial
  | array items =>
      simp only [ofJson, Ordered]
      exact orderedItems_ofItems items
  | object members =>
      simp only [ofJson, Ordered]
      exact ordered_ofMembers members
termination_by sizeOf json

theorem orderedItems_ofItems (items : List Json) : OrderedItems (ofItems items) := by
  cases items with
  | nil => trivial
  | cons item rest => exact ⟨ordered_ofJson item, orderedItems_ofItems rest⟩
termination_by sizeOf items

theorem ordered_ofMembers (members : List (String × Json)) :
    ((ofMembers members).map (·.1)).Pairwise (· < ·) ∧ OrderedMembers (ofMembers members) := by
  match members with
  | [] => exact ⟨.nil, trivial⟩
  | (key, value) :: rest =>
      obtain ⟨ascends, others⟩ := ordered_ofMembers rest
      exact ⟨ascends_insertMember ascends,
        orderedMembers_insertMember (ordered_ofJson value) others⟩
termination_by sizeOf members
end

end Sample
end GoSchema
