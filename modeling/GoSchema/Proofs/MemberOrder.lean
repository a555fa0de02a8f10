import GoSchema.Conversion
import GoSchema.Proofs.Sample
import GoSchema.Proofs.Schema.SlotSemantics
import GoSchema.Proofs.Text.ByteOrder

/-! # The order of members

A document may list the members of an object in any order. Its sample lists them by their keys, so
two documents that differ only in such orders are the same sample and are converted alike.
-/

namespace GoSchema

namespace Json

mutual
/-- No object has two members with the same key. -/
def Distinct : Json → Prop
  | .array items => DistinctItems items
  | .object members => (members.map (·.1)).Nodup ∧ DistinctMembers members
  | _ => True

def DistinctItems : List Json → Prop
  | [] => True
  | item :: rest => item.Distinct ∧ DistinctItems rest

def DistinctMembers : List (String × Json) → Prop
  | [] => True
  | (_, value) :: rest => value.Distinct ∧ DistinctMembers rest
end

mutual
/-- The members of objects stand in another order, at any depth. -/
inductive Rearranged : Json → Json → Prop where
  | refl (json : Json) : Rearranged json json
  | array {items others} (inside : RearrangedItems items others) :
      Rearranged (.array items) (.array others)
  | object {members inner others} (inside : RearrangedMembers members inner)
      (order : inner.Perm others) : Rearranged (.object members) (.object others)

inductive RearrangedItems : List Json → List Json → Prop where
  | nil : RearrangedItems [] []
  | cons {item other rest others} (here : Rearranged item other)
      (later : RearrangedItems rest others) : RearrangedItems (item :: rest) (other :: others)

/-- The same keys in the same order, with rearranged values. -/
inductive RearrangedMembers : List (String × Json) → List (String × Json) → Prop where
  | nil : RearrangedMembers [] []
  | cons {key value other rest others} (here : Rearranged value other)
      (later : RearrangedMembers rest others) :
      RearrangedMembers ((key, value) :: rest) ((key, other) :: others)
end

/-! ## Documents -/

variable {key : String} {value : Json} {ms : List (String × Json)}

theorem mem_keys_put {k : String} :
    k ∈ (put key value ms).map (·.1) ↔ k = key ∨ k ∈ ms.map (·.1) := by
  induction ms with
  | nil => simp [put]
  | cons head rest ih =>
      obtain ⟨name, old⟩ := head
      by_cases same : name = key
      · simp [put, same]
      · simp only [put, if_neg same, List.map_cons, List.mem_cons, ih]
        exact or_left_comm

theorem nodup_keys_put (distinct : (ms.map (·.1)).Nodup) :
    ((put key value ms).map (·.1)).Nodup := by
  induction ms with
  | nil => simp [put]
  | cons head rest ih =>
      obtain ⟨name, old⟩ := head
      obtain ⟨new, others⟩ := List.nodup_cons.mp distinct
      by_cases same : name = key
      · simpa [put, same] using distinct
      · simp only [put, if_neg same, List.map_cons, List.nodup_cons, mem_keys_put, not_or]
        exact ⟨⟨same, new⟩, ih others⟩

theorem distinctMembers_put (here : value.Distinct) (others : DistinctMembers ms) :
    DistinctMembers (put key value ms) := by
  induction ms with
  | nil => exact ⟨here, trivial⟩
  | cons head rest ih =>
      obtain ⟨name, old⟩ := head
      by_cases same : name = key
      · simpa [put, same, DistinctMembers] using And.intro here others.2
      · simpa [put, same, DistinctMembers] using And.intro others.1 (ih others.2)

mutual
theorem distinct_settled (json : Json) : json.settled.Distinct := by
  cases json with
  | null | bool | number | string => trivial
  | array items =>
      simp only [settled, Distinct]
      exact distinctItems_settledItems items
  | object members =>
      simp only [settled, Distinct]
      exact distinct_settledMembers members .nil trivial
termination_by sizeOf json

theorem distinctItems_settledItems (items : List Json) : DistinctItems (settledItems items) := by
  cases items with
  | nil => trivial
  | cons item rest => exact ⟨distinct_settled item, distinctItems_settledItems rest⟩
termination_by sizeOf items

theorem distinct_settledMembers (members : List (String × Json)) {before : List (String × Json)}
    (distinct : (before.map (·.1)).Nodup) (values : DistinctMembers before) :
    ((settledMembers before members).map (·.1)).Nodup ∧
      DistinctMembers (settledMembers before members) := by
  match members with
  | [] => exact ⟨distinct, values⟩
  | (key, value) :: rest =>
      exact distinct_settledMembers rest (nodup_keys_put distinct)
        (distinctMembers_put (distinct_settled value) values)
termination_by sizeOf members
end

/-- No object that is read has two members with the same key. -/
theorem distinct_of_parse {text : String} {json : Json} (read : parse text = .ok json) :
    json.Distinct := by
  rw [parse] at read
  cases found : Json.read (fun _ => .keep) text with
  | error e =>
      rw [found] at read
      cases read
  | ok raw =>
      rw [found] at read
      cases read
      exact distinct_settled raw

theorem RearrangedMembers.keys {members others : List (String × Json)}
    (inside : RearrangedMembers members others) :
    members.map (·.1) = others.map (·.1) := by
  induction members generalizing others with
  | nil =>
      cases inside
      rfl
  | cons _ rest ih =>
      cases inside with
      | cons here later => simp [ih later]

end Json

/-! ## Samples -/

namespace Sample

theorem perm_insertMember {key : String} {value : Sample} {ms : List (String × Sample)}
    (new : key ∉ ms.map (·.1)) : (insertMember key value ms).Perm ((key, value) :: ms) := by
  induction ms with
  | nil => exact .refl _
  | cons head rest ih =>
      obtain ⟨k, v⟩ := head
      obtain ⟨other, later⟩ : key ≠ k ∧ key ∉ rest.map (·.1) := by simpa using new
      simp only [insertMember, if_neg other]
      split
      · exact .refl _
      · exact ((ih later).cons _).trans (.swap _ _ _)

/-- Members with distinct keys are all kept. -/
theorem perm_ofMembers {ms : List (String × Json)} (distinct : (ms.map (·.1)).Nodup) :
    (ofMembers ms).Perm (ms.map fun m => (m.1, ofJson m.2)) := by
  induction ms with
  | nil => exact .refl _
  | cons head rest ih =>
      obtain ⟨key, value⟩ := head
      obtain ⟨new, others⟩ := List.nodup_cons.mp distinct
      have kept := ih others
      simp only [ofMembers, List.map_cons]
      refine (perm_insertMember ?_).trans (kept.cons _)
      rw [(kept.map (·.1)).mem_iff, List.map_map]
      exact new

/-- Members whose keys ascend are determined by what members there are. -/
theorem eq_of_perm_of_ascends {ms others : List (String × Sample)} (order : ms.Perm others)
    (ascends : (ms.map (·.1)).Pairwise (· < ·)) (ascends' : (others.map (·.1)).Pairwise (· < ·)) :
    ms = others :=
  order.eq_of_pairwise (fun _ _ _ _ before after => absurd after (lt_asymm before))
    (List.pairwise_map.mp ascends) (List.pairwise_map.mp ascends')

mutual
theorem ofJson_rearranged {u w : Json} (rearranged : u.Rearranged w) (distinct : u.Distinct) :
    ofJson u = ofJson w := by
  cases rearranged with
  | refl => rfl
  | @array items others inside =>
      simp only [Json.Distinct] at distinct
      simp only [ofJson, ofItems_rearranged inside distinct]
  | @object members inner others inside order =>
      simp only [Json.Distinct] at distinct
      have same := map_ofJson_rearranged inside distinct.2
      have distinct' : (others.map (·.1)).Nodup :=
        (order.map _).nodup_iff.mp (inside.keys ▸ distinct.1)
      have kept : (ofMembers members).Perm (ofMembers others) := by
        refine (perm_ofMembers distinct.1).trans ?_
        rw [same]
        exact (order.map _).trans (perm_ofMembers distinct').symm
      simp only [ofJson]
      exact congrArg _ (eq_of_perm_of_ascends kept (ordered_ofMembers members).1
        (ordered_ofMembers others).1)
termination_by sizeOf u

theorem ofItems_rearranged {items others : List Json} (inside : Json.RearrangedItems items others)
    (distinct : Json.DistinctItems items) : ofItems items = ofItems others := by
  cases inside with
  | nil => rfl
  | cons here later =>
      simp only [ofItems, ofJson_rearranged here distinct.1, ofItems_rearranged later distinct.2]
termination_by sizeOf items

theorem map_ofJson_rearranged {members others : List (String × Json)}
    (inside : Json.RearrangedMembers members others) (distinct : Json.DistinctMembers members) :
    members.map (fun m => (m.1, ofJson m.2)) = others.map (fun m => (m.1, ofJson m.2)) := by
  cases inside with
  | nil => rfl
  | cons here later =>
      simp only [List.map_cons, ofJson_rearranged here distinct.1,
        map_ofJson_rearranged later distinct.2]
termination_by sizeOf members
end

/-- Documents that differ only in the order of members are the same sample, which lists the members
of each object ascending by the bytes of their keys. They are converted alike. -/
theorem conversions_rearranged {u w : Json} (rearranged : u.Rearranged w)
    (distinct : u.Distinct) :
    ofJson u = ofJson w ∧
      (∀ slot, ∀ ms ∈ (ofJson u).objectsAt slot,
        (ms.map fun m => Text.bytes m.1).Pairwise (· < ·)) ∧
      (∀ options, (ofJson u).convert options = (ofJson w).convert options) ∧
      (ofJson u).outline = (ofJson w).outline := by
  have same := ofJson_rearranged rearranged distinct
  refine ⟨same, ?_, fun options => congrArg _ same, congrArg _ same⟩
  intro slot ms here
  have ascends := (ordered_ofJson u).objectsAt here
  rw [List.pairwise_map] at ascends ⊢
  exact ascends.imp fun before => (Text.bytes_lt_bytes _ _).mpr before

/-- Two objects below an element change their members, and so does the whole document. -/
def membersInTurn : Json :=
  .object [("z", .array [.object [("k", .null), ("ä", .bool true)], .null]), ("a", .string "")]

def membersInReturn : Json :=
  .object [("a", .string ""), ("z", .array [.object [("ä", .bool true), ("k", .null)], .null])]

theorem conversions_rearranged_membersInTurn :
    membersInTurn.Rearranged membersInReturn ∧ membersInTurn.Distinct ∧
      ofJson membersInTurn = ofJson membersInReturn ∧
      (∀ slot, ∀ ms ∈ (ofJson membersInTurn).objectsAt slot,
        (ms.map fun m => Text.bytes m.1).Pairwise (· < ·)) ∧
      (∀ options, (ofJson membersInTurn).convert options =
        (ofJson membersInReturn).convert options) ∧
      (ofJson membersInTurn).outline = (ofJson membersInReturn).outline := by
  have element : Json.Rearranged (.object [("k", .null), ("ä", .bool true)])
      (.object [("ä", .bool true), ("k", .null)]) :=
    .object (.cons (.refl _) (.cons (.refl _) .nil)) (.swap _ _ _)
  have rearranged : membersInTurn.Rearranged membersInReturn :=
    .object (.cons (.array (.cons element (.cons (.refl _) .nil))) (.cons (.refl _) .nil))
      (.swap _ _ _)
  have distinct : membersInTurn.Distinct := by
    simp [membersInTurn, Json.Distinct, Json.DistinctItems, Json.DistinctMembers]
  exact ⟨rearranged, distinct, conversions_rearranged rearranged distinct⟩

/-- What is parsed has distinct keys, so texts need no more than to be rearranged. -/
theorem read_rearranged {text other : String} {u w : Json} (parsed : Json.parse text = .ok u)
    (parsed' : Json.parse other = .ok w) (rearranged : u.Rearranged w) :
    read text = read other := by
  have same := ofJson_rearranged rearranged (Json.distinct_of_parse parsed)
  rw [read, read, parse, parse, parsed, parsed', Except.map, Except.map, same]

end Sample
end GoSchema
