import GoSchema.Proofs.Schema.Keys
import GoSchema.Proofs.Schema.ObjectPlaces
import GoSchema.Proofs.Schema.Siblings

/-! # Separate mode

In separate mode nothing is merged: the numbers of a walk count the objects of a document in the
order of their places, and every struct is made of one object.
-/

namespace GoSchema

namespace Sample

open Place (inside)

/-! ## Types by places -/

mutual
/-- The type of a value, when the places of its objects have the given numbers. -/
def typeUnder (number : Place → TypeId) : Sample → Ty
  | .null => .any
  | .bool _ => .scalar .bool
  | .number x => .scalar (.ofNumber x)
  | .string _ => .scalar .string
  | .array items => .seq (Ty.common (typesUnder number 0 items))
  | .object _ => .named (number Place.root)

def typesUnder (number : Place → TypeId) (i : Nat) : List Sample → List Ty
  | [] => []
  | item :: rest => typeUnder (inside number [.index i]) item :: typesUnder number (i + 1) rest
end

theorem typesUnder_eq_map (number : Place → TypeId) (i : Nat) (items : List Sample) :
    typesUnder number i items =
      (items.zipIdx i).map fun p => typeUnder (inside number [.index p.2]) p.1 := by
  induction items generalizing i with
  | nil => rfl
  | cons item rest ih => rw [typesUnder, ih, List.zipIdx_cons, List.map_cons]

def fieldsUnder (number : Place → TypeId) (ms : List (String × Sample)) : List Field :=
  ms.map fun (key, item) => ⟨key, typeUnder (inside number [.key key]) item, false⟩

/-- The type of an object names its number, and no other type is a name. -/
theorem typeUnder_eq_named {number : Place → TypeId} {sample : Sample} {id : TypeId} :
    typeUnder number sample = .named id ↔
      ∃ ms, sample = .object ms ∧ number Place.root = id := by
  cases sample <;> simp [typeUnder]

/-- An object has no type in common with another element. -/
theorem typeUnder_array_of_object {number : Place → TypeId} {items : List Sample}
    (several : 2 ≤ items.length) {ms : List (String × Sample)} (member : .object ms ∈ items)
    (distinct : ∀ i j ns os, items[i]? = some (.object ns) → items[j]? = some (.object os) →
      number [.index i] = number [.index j] → i = j) :
    typeUnder number (.array items) = .seq .any := by
  rw [typeUnder, ← Ty.unifyAll_eq_common, Ty.unifyAll_eq_any_of_not_forall]
  rintro ⟨t, all⟩
  have typed (i : Nat) (item : Sample) (here : items[i]? = some item) :
      typeUnder (inside number [.index i]) item = t := by
    refine all _ ?_
    rw [typesUnder_eq_map]
    exact List.mem_map_of_mem (List.mk_mem_zipIdx_iff_getElem?.mpr here)
  obtain ⟨i, here⟩ := List.getElem?_of_mem member
  obtain ⟨j, other, bound⟩ : ∃ j, i ≠ j ∧ j < items.length := by
    by_cases first : i = 0
    · exact ⟨1, by omega, several⟩
    · exact ⟨0, first, by omega⟩
  have there : items[j]? = some items[j] := List.getElem?_eq_getElem bound
  have named : typeUnder (inside number [.index j]) items[j] = .named (number [.index i]) := by
    rw [typed j _ there, ← typed i _ here]
    rfl
  obtain ⟨os, object, same⟩ := typeUnder_eq_named.mp named
  exact other (distinct i j ms os here (object ▸ there) same.symm)

/-- The struct of one object. -/
def structUnder (number : Place → TypeId) (object : Place × List (String × Sample)) :
    TypeId × Entry :=
  (number object.1, .struct [fieldsUnder (inside number object.1) object.2])

end Sample

namespace Walk

open Place (below inside)
open Sample (Consecutive typeUnder typesUnder fieldsUnder structUnder)

/-! ## A walk counts the objects -/

variable {number : Place → TypeId} {w : Walk}

/-- The state after the given objects, each with a number and a struct of its own. -/
def after (number : Place → TypeId) (found : List (Place × List (String × Sample))) (w : Walk) :
    Walk :=
  { w with next := w.next + found.length, draft := w.draft ++ found.map (structUnder number) }

theorem after_append (found later : List (Place × List (String × Sample))) :
    w.after number (found ++ later) = (w.after number found).after number later := by
  simp only [after, List.length_append, List.map_append, List.append_assoc, Nat.add_assoc]

theorem after_below (step : PlaceStep) (found : List (Place × List (String × Sample))) :
    w.after number (below step found) = w.after (inside number [step]) found := by
  simp only [after, below, List.length_map, List.map_map]
  rfl

theorem after_nil : w.after number [] = w := by
  simp [after]

/-- Only numbers that have been given are in the draft. -/
def Behind (w : Walk) : Prop :=
  ∀ entry ∈ w.draft, entry.1 < w.next

theorem start_behind : start.Behind :=
  List.forall_mem_nil _

theorem bounds_of_consecutive {first : TypeId} {found : List (Place × List (String × Sample))}
    (numbers : Consecutive number first found) :
    ∀ entry ∈ found.map (structUnder number), first ≤ entry.1 ∧ entry.1 < first + found.length := by
  intro entry member
  obtain ⟨object, here, rfl⟩ := List.mem_map.mp member
  have given : number object.1 ∈ List.range' first found.length :=
    numbers ▸ List.mem_map_of_mem here
  exact List.mem_range'_1.mp given

theorem Behind.after (behind : w.Behind) {found : List (Place × List (String × Sample))}
    (numbers : Consecutive number w.next found) : (w.after number found).Behind := by
  intro entry member
  rcases List.mem_append.mp member with old | new
  · exact Nat.lt_add_right _ (behind entry old)
  · exact (bounds_of_consecutive numbers entry new).2

/-- An object is recorded after its parts, but its number puts it in front of them. -/
theorem draft_contribute_after {id : TypeId} (later : ∀ entry ∈ w.draft, entry.1 < id)
    (given : id < w.next) (root : number Place.root = id) (ms : List (String × Sample))
    {found : List (Place × List (String × Sample))}
    (numbers : Consecutive number w.next found) :
    ((w.after number found).contribute id (fieldsUnder number ms)).draft =
      w.draft ++ ((Place.root, ms) :: found).map (structUnder number) := by
  have above : Draft.Above id (found.map (structUnder number)) := fun entry member =>
    Nat.lt_of_lt_of_le given (bounds_of_consecutive numbers entry member).1
  rw [contribute, after, Draft.contribute, Draft.update_append later, Draft.update_above above,
    ← root]
  rfl

/-- An object that gets the next number. -/
theorem contribute_after_next (behind : w.Behind) (root : number Place.root = w.next)
    (ms : List (String × Sample)) {found : List (Place × List (String × Sample))}
    (numbers : Consecutive number (w.next + 1) found) :
    (({ w with next := w.next + 1 } : Walk).after number found).contribute w.next
        (fieldsUnder number ms) = w.after number ((Place.root, ms) :: found) := by
  have next : w.next + 1 + found.length = w.next + (found.length + 1) :=
    Nat.add_right_comm _ _ _
  have draft := draft_contribute_after (w := { w with next := w.next + 1 }) behind
    (Nat.lt_succ_self _) root ms numbers
  exact (mk.injEq ..).mpr ⟨next, rfl, draft⟩

mutual
/-- In separate mode a walk gives the objects of a value the next numbers, in the order of their
places, and records a struct for each. -/
theorem value_separate (slot : Slot) (sample : Sample) {number : Place → TypeId} {w : Walk}
    (fresh : slot = Slot.root → sample.members? = none) (behind : w.Behind)
    (numbers : Consecutive number w.next sample.objects) :
    value .separate slot sample w = (typeUnder number sample, w.after number sample.objects) := by
  cases sample with
  | null | bool | number | string =>
      rw [value]
      exact congrArg (Prod.mk _) after_nil.symm
  | array items =>
      rw [Sample.objects] at numbers
      rw [value_array, elements_separate slot.element_ne_root 0 items behind numbers,
        Ty.unifyAll_eq_common, typeUnder, Sample.objects]
  | object ms =>
      have below : slot ≠ Slot.root := fun root => Option.some_ne_none ms (fresh root)
      rw [Sample.objects, Sample.consecutive_cons] at numbers
      have others : members .separate slot ms { w with next := w.next + 1 } = _ :=
        members_separate slot ms (fun entry old => Nat.lt_succ_of_lt (behind entry old)) numbers.2
      rw [value_object, objectId_separate below, others, typeUnder, numbers.1, Sample.objects,
        ← contribute_after_next behind numbers.1 ms numbers.2]
termination_by sizeOf sample

theorem elements_separate {slot : Slot} (below : slot ≠ Slot.root) (i : Nat) (items : List Sample)
    {number : Place → TypeId} {w : Walk} (behind : w.Behind)
    (numbers : Consecutive number w.next (Sample.itemObjects i items)) :
    elements .separate slot items w =
      (typesUnder number i items, w.after number (Sample.itemObjects i items)) := by
  cases items with
  | nil => rw [elements, typesUnder, Sample.itemObjects, after_nil]
  | cons item rest =>
      rw [Sample.itemObjects, Sample.consecutive_append] at numbers
      have first := value_separate slot item (fun root => absurd root below) behind
        (Sample.consecutive_below.mp numbers.1)
      have others := elements_separate below (i + 1) rest (behind.after numbers.1) numbers.2
      rw [elements_cons, first, ← after_below, others, typesUnder, Sample.itemObjects,
        after_append]
termination_by sizeOf items

theorem members_separate (slot : Slot) (ms : List (String × Sample))
    {number : Place → TypeId} {w : Walk} (behind : w.Behind)
    (numbers : Consecutive number w.next (Sample.memberObjects ms)) :
    members .separate slot ms w =
      (fieldsUnder number ms, w.after number (Sample.memberObjects ms)) := by
  match ms, numbers with
  | [], _ =>
      rw [members, Sample.memberObjects, after_nil]
      rfl
  | (key, item) :: rest, numbers =>
      rw [Sample.memberObjects, Sample.consecutive_append] at numbers
      have first := value_separate (slot.member key) item
        (fun root => absurd root (slot.member_ne_root key)) behind
        (Sample.consecutive_below.mp numbers.1)
      have others := members_separate slot rest (behind.after numbers.1) numbers.2
      rw [members_cons, first, ← after_below, others, Sample.memberObjects, after_append]
      rfl
termination_by sizeOf ms
end

end Walk

namespace Sample

open Place (inside)

/-! ## What separate mode declares -/

theorem draft_of_object_separate {ms : List (String × Sample)}
    (ordered : (Sample.object ms).Ordered) :
    (Sample.object ms).draft .separate =
      (Sample.object ms).objects.map (structUnder (Sample.object ms).objectNumber) := by
  have numbers := ordered.consecutive
  rw [objects, consecutive_cons] at numbers
  have walked : Walk.members .separate Slot.root ms Walk.start = _ :=
    Walk.members_separate Slot.root ms Walk.start_behind numbers.2
  rw [draft_of_object, Walk.value_object, Walk.objectId_root, walked]
  exact Walk.draft_contribute_after (List.forall_mem_nil _) (Nat.lt_succ_self _) numbers.1 ms
    numbers.2

theorem draft_of_plain_separate {sample : Sample} (ordered : sample.Ordered)
    (plain : sample.members? = none) :
    sample.draft .separate =
      (TypeId.root, .plain (plainBody (typeUnder sample.objectNumber sample))) ::
        sample.objects.map (structUnder sample.objectNumber) := by
  have first : sample.firstNumber = Walk.start.next := by
    cases sample with
    | object => cases plain
    | null | bool | number | string | array => rfl
  have numbers : Consecutive sample.objectNumber Walk.start.next sample.objects :=
    first ▸ ordered.consecutive
  have above : Draft.Above TypeId.root (sample.objects.map (structUnder sample.objectNumber)) :=
    fun entry member => (Walk.bounds_of_consecutive numbers entry member).1
  rw [draft_of_plain plain,
    Walk.value_separate Slot.root sample (fun _ => plain) Walk.start_behind numbers]
  exact Draft.update_above above _

/-- The type of a value that stands at a place of the sample. -/
def typeIn (sample : Sample) (place : Place) (value : Sample) : Ty :=
  typeUnder (inside sample.objectNumber place) value

/-- The fields of an object that stands at a place of the sample. -/
def fieldsIn (sample : Sample) (object : Place × List (String × Sample)) : List Field :=
  object.2.map fun (key, item) => ⟨key, sample.typeIn (object.1 ++ [.key key]) item, false⟩

/-- The declaration of one object. -/
def objectDecl (sample : Sample) (object : Place × List (String × Sample)) : Decl :=
  ⟨sample.objectNumber object.1, .struct (sample.fieldsIn object)⟩

/-- The declaration of a root that is no object. -/
def rootDecl (sample : Sample) : List Decl :=
  match sample with
  | .object _ => []
  | _ => [⟨TypeId.root, plainBody (sample.typeIn Place.root sample)⟩]

theorem keys_fieldsIn (sample : Sample) (object : Place × List (String × Sample)) :
    (sample.fieldsIn object).map (·.key) = object.2.map (·.1) := by
  simp [fieldsIn, Function.comp_def]

theorem fieldsIn_required (sample : Sample) (object : Place × List (String × Sample)) :
    ∀ field ∈ sample.fieldsIn object, field.optional = false := by
  intro field member
  obtain ⟨_, -, rfl⟩ := List.mem_map.mp member
  rfl

theorem fieldsUnder_inside (sample : Sample) (object : Place × List (String × Sample)) :
    fieldsUnder (inside sample.objectNumber object.1) object.2 = sample.fieldsIn object := by
  simp only [fieldsUnder, fieldsIn, typeIn, Place.inside_append]

theorem Ordered.keys_of_mem_objects {sample : Sample} (ordered : sample.Ordered)
    {object : Place × List (String × Sample)} (member : object ∈ sample.objects) :
    (object.2.map (·.1)).Pairwise (· < ·) := by
  have inside := ordered.part? (ordered.mem_objects.mp member)
  simp only [Ordered] at inside
  exact inside.1

/-- A struct to which one object contributes has the fields of that object. -/
theorem Ordered.decls_structUnder {sample : Sample} (ordered : sample.Ordered) :
    Draft.decls (sample.objects.map (structUnder sample.objectNumber)) =
      sample.objects.map sample.objectDecl := by
  rw [Draft.decls, List.map_map]
  refine List.map_congr_left fun object member => ?_
  have distinct : ((sample.fieldsIn object).map (·.key)).Nodup := by
    rw [keys_fieldsIn]
    exact (ordered.keys_of_mem_objects member).imp String.ne_of_lt
  simp only [Function.comp_def, structUnder, Entry.shape, fieldsUnder_inside, objectDecl,
    mergeFields_singleton distinct (sample.fieldsIn_required object)]

theorem Ordered.decls_eq_objectDecls {sample : Sample} (ordered : sample.Ordered) :
    sample.decls .separate = sample.rootDecl ++ sample.objects.map sample.objectDecl := by
  rw [← ordered.decls_structUnder, decls]
  cases plain : sample.members? with
  | some ms =>
      obtain rfl := eq_object_of_members? plain
      rw [draft_of_object_separate ordered]
      rfl
  | none =>
      rw [draft_of_plain_separate ordered plain]
      cases sample with
      | object => cases plain
      | null | bool | number | string | array => rfl

/-! ## Members and elements -/

theorem typeIn_object (sample : Sample) (place : Place) (ms : List (String × Sample)) :
    sample.typeIn place (.object ms) = .named (sample.objectNumber place) := by
  rw [typeIn, typeUnder, inside, Place.root, List.append_nil]

theorem Ordered.typeIn_array {sample : Sample} (ordered : sample.Ordered) {place : Place}
    {items : List Sample} (here : sample.part? place = some (.array items))
    (several : 2 ≤ items.length) {ms : List (String × Sample)} (member : .object ms ∈ items) :
    sample.typeIn place (.array items) = .seq .any := by
  refine typeUnder_array_of_object several member fun i j ns os first second same => ?_
  have element : (.index i, .object ns) ∈ (Sample.array items).parts :=
    List.mem_map.mpr ⟨(.object ns, i), List.mk_mem_zipIdx_iff_getElem?.mpr first, rfl⟩
  have known : place ++ [.index i] ∈ sample.objectPlaces :=
    List.mem_map_of_mem (ordered.mem_objects.mpr (ordered.part?_concat here element))
  simpa using objectNumber_inj known same

/-- What separate mode declares: one struct for each object of the sample. -/
structure Separated (sample : Sample) : Prop where
  /-- A root that is no object is declared in front. -/
  decls : sample.decls .separate = sample.rootDecl ++ sample.objects.map sample.objectDecl
  /-- The objects with a declaration are those anywhere in the sample. -/
  objects : ∀ place ms, (place, ms) ∈ sample.objects ↔ sample.part? place = some (.object ms)
  /-- They are listed once, each before its parts, elements in turn and members by key. -/
  order : sample.objects.Pairwise fun object later => Place.Before object.1 later.1
  /-- They are numbered in this order: from 1 if the root is one of them, and otherwise from 2. So
  no number reaches `2^32` when there are fewer than `2^32 - 3` objects. -/
  numbers : sample.objects.map (sample.objectNumber ·.1) =
    List.range' sample.firstNumber sample.objects.length
  root : ∀ ms, sample = .object ms → sample.objectNumber Place.root = TypeId.root
  /-- A struct has the keys of its own object, in ascending order. -/
  keys : ∀ object ∈ sample.objects, (sample.fieldsIn object).map (·.key) = object.2.map (·.1) ∧
    (object.2.map (·.1)).Pairwise (· < ·)
  required : ∀ object ∈ sample.objects, ∀ field ∈ sample.fieldsIn object, field.optional = false
  /-- The type of a member that is an object is the struct of that object. -/
  members : ∀ place ms, (place, ms) ∈ sample.objects → ∀ key inner, (key, .object inner) ∈ ms →
    (place ++ [.key key], inner) ∈ sample.objects ∧
      ⟨key, .named (sample.objectNumber (place ++ [.key key])), false⟩ ∈
        sample.fieldsIn (place, ms)
  /-- An object in an array with other elements leaves the elements no common type. -/
  arrays : ∀ place items, sample.part? place = some (.array items) → 2 ≤ items.length →
    (∃ ms, .object ms ∈ items) → sample.typeIn place (.array items) = .seq .any

/-- Separate mode never merges. -/
theorem separated_of_ordered {sample : Sample} (ordered : sample.Ordered) :
    sample.Separated where
  decls := ordered.decls_eq_objectDecls
  objects _ _ := ordered.mem_objects
  order := ordered.objects_ascend
  numbers := ordered.consecutive
  root := by
    rintro ms rfl
    exact objectNumber_root ms
  keys object member := ⟨keys_fieldsIn sample object, ordered.keys_of_mem_objects member⟩
  required object _ := sample.fieldsIn_required object
  members place ms here key inner member := by
    have part : (.key key, .object inner) ∈ (Sample.object ms).parts :=
      List.mem_map.mpr ⟨_, member, rfl⟩
    have inside := ordered.part?_concat (ordered.mem_objects.mp here) part
    rw [← typeIn_object sample _ inner]
    exact ⟨ordered.mem_objects.mpr inside, List.mem_map.mpr ⟨_, member, rfl⟩⟩
  arrays place items here several object := by
    obtain ⟨ms, member⟩ := object
    exact ordered.typeIn_array here several member

/-- Objects that unified mode would merge, at two slots. -/
def crowdedSlots : Sample :=
  .array [.object [("a", .object []), ("b", .array [.object [], .null])],
    .object [("a", .object [])], .array [.object []]]

theorem separated_crowdedSlots :
    crowdedSlots.Ordered ∧ crowdedSlots.Separated ∧
      crowdedSlots.decls .separate =
        [⟨1, .alias (.seq .any)⟩,
          ⟨2, .struct [⟨"a", .named 3, false⟩, ⟨"b", .seq .any, false⟩]⟩,
          ⟨3, .struct []⟩, ⟨4, .struct []⟩, ⟨5, .struct [⟨"a", .named 6, false⟩]⟩,
          ⟨6, .struct []⟩, ⟨7, .struct []⟩] := by
  have ordered : crowdedSlots.Ordered := by
    simp only [crowdedSlots, Ordered, OrderedItems, OrderedMembers]
    decide
  exact ⟨ordered, separated_of_ordered ordered, by decide⟩

end Sample
end GoSchema
