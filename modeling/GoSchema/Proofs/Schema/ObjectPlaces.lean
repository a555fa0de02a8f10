import GoSchema.Proofs.Schema.Draft
import GoSchema.Proofs.Schema.Slots
import GoSchema.Proofs.Sample

/-! # Places of objects

A slot forgets positions in arrays. A place keeps them, so every value of a document has one of its
own. The objects of a document are listed here in the lexicographic order of their places, which is
the order in which a walk meets them: each before its parts, elements in turn, members by ascending
key.
-/

namespace GoSchema

/-- One step from a value to one of its parts. -/
inductive PlaceStep where
  | key (name : String)
  | index (i : Nat)
  deriving DecidableEq, Repr

/-- The steps that lead to a value, the first one first. -/
abbrev Place := List PlaceStep

namespace PlaceStep

/-- Members are met by ascending key, elements by their position. -/
inductive Before : PlaceStep → PlaceStep → Prop where
  | key {name other} (before : name < other) : Before (.key name) (.key other)
  | index {i j} (before : i < j) : Before (.index i) (.index j)

theorem not_before_self (step : PlaceStep) : ¬Before step step := by
  intro before
  cases before with
  | key before => exact String.lt_irrefl _ before
  | index before => exact Nat.lt_irrefl _ before

end PlaceStep

namespace Place

def root : Place :=
  []

/-- A value stands before its parts, and parts stand as the first step to them does. -/
def Before : Place → Place → Prop :=
  List.Lex PlaceStep.Before

theorem not_before_self (place : Place) : ¬Before place place :=
  List.lex_irrefl PlaceStep.not_before_self place

/-- Numbers of the places inside of a value at a place. -/
def inside (number : Place → TypeId) (base : Place) : Place → TypeId :=
  fun place => number (base ++ place)

theorem inside_append (number : Place → TypeId) (base place : Place) :
    inside number (base ++ place) = inside (inside number base) place :=
  funext fun below => congrArg number (List.append_assoc base place below)

/-- Put everything below one step. -/
def below {α : Type} (step : PlaceStep) (found : List (Place × α)) : List (Place × α) :=
  found.map fun p => (step :: p.1, p.2)

end Place

namespace Sample

open Place (below inside)

/-! ## Parts of a value -/

/-- The parts of a value, each with the step to it. -/
def parts : Sample → List (PlaceStep × Sample)
  | .array items => items.zipIdx.map fun (item, i) => (.index i, item)
  | .object ms => ms.map fun (key, item) => (.key key, item)
  | _ => []

/-- The value at a place. -/
def part? : Sample → Place → Option Sample
  | sample, [] => some sample
  | sample, step :: place => (sample.parts.lookup step).bind fun part => part.part? place

theorem part?_append (sample : Sample) (base place : Place) :
    sample.part? (base ++ place) = (sample.part? base).bind fun part => part.part? place := by
  induction base generalizing sample with
  | nil => rfl
  | cons step base ih => simp only [List.cons_append, part?, ih, Option.bind_assoc]

theorem sizeOf_part_lt {sample part : Sample} {step : PlaceStep}
    (here : (step, part) ∈ sample.parts) : sizeOf part < sizeOf sample := by
  cases sample with
  | null | bool | number | string => cases here
  | array items =>
      obtain ⟨⟨item, i⟩, found, same⟩ := List.mem_map.mp here
      cases same
      have smaller : sizeOf part < sizeOf items :=
        List.sizeOf_lt_of_mem (List.fst_mem_of_mem_zipIdx found)
      simp only [array.sizeOf_spec]
      omega
  | object ms =>
      obtain ⟨⟨key, item⟩, found, same⟩ := List.mem_map.mp here
      cases same
      have smaller := List.sizeOf_lt_of_mem found
      simp only [Prod.mk.sizeOf_spec] at smaller
      simp only [object.sizeOf_spec]
      omega

theorem Ordered.part {sample part : Sample} (ordered : sample.Ordered) {step : PlaceStep}
    (here : (step, part) ∈ sample.parts) : part.Ordered := by
  cases sample with
  | null | bool | number | string => cases here
  | array items =>
      obtain ⟨⟨item, i⟩, found, same⟩ := List.mem_map.mp here
      cases same
      exact ordered.item (List.fst_mem_of_mem_zipIdx found)
  | object ms =>
      obtain ⟨⟨key, item⟩, found, same⟩ := List.mem_map.mp here
      cases same
      exact ordered.member found

/-- The steps to the parts of a value follow one another. -/
theorem Ordered.steps_ascend {sample : Sample} (ordered : sample.Ordered) :
    sample.parts.Pairwise fun p q => PlaceStep.Before p.1 q.1 := by
  cases sample with
  | null | bool | number | string => exact .nil
  | array items =>
      have positions : (items.zipIdx.map (·.2)).Pairwise (· < ·) := by
        rw [List.zipIdx_map_snd]
        exact List.pairwise_lt_range'
      rw [parts, List.pairwise_map]
      exact (List.pairwise_map.mp positions).imp fun before => .index before
  | object ms =>
      simp only [Ordered] at ordered
      rw [parts, List.pairwise_map]
      exact (List.pairwise_map.mp ordered.1).imp fun before => .key before

theorem Ordered.lookup_parts {sample part : Sample} (ordered : sample.Ordered)
    {step : PlaceStep} : sample.parts.lookup step = some part ↔ (step, part) ∈ sample.parts := by
  apply lookup_eq_some_iff_mem
  refine List.pairwise_map.mpr (ordered.steps_ascend.imp ?_)
  intro p q before same
  exact PlaceStep.not_before_self _ (same ▸ before)

theorem Ordered.part? {sample part : Sample} (ordered : sample.Ordered) {place : Place}
    (here : sample.part? place = some part) : part.Ordered := by
  induction place generalizing sample with
  | nil => exact Option.some.inj here ▸ ordered
  | cons step place ih =>
      obtain ⟨inner, found, later⟩ := Option.bind_eq_some_iff.mp here
      exact ih (ordered.part (ordered.lookup_parts.mp found)) later

theorem Ordered.part?_concat {sample whole part : Sample} (ordered : sample.Ordered)
    {place : Place} (here : sample.part? place = some whole) {step : PlaceStep}
    (inside : (step, part) ∈ whole.parts) : sample.part? (place ++ [step]) = some part := by
  rw [part?_append, here, Option.bind_some, Sample.part?,
    (ordered.part? here).lookup_parts.mpr inside, Option.bind_some, Sample.part?]

/-! ## The objects of a value -/

mutual
/-- The members of every object in a value, each object before its parts. -/
def objects : Sample → List (Place × List (String × Sample))
  | .array items => itemObjects 0 items
  | .object ms => (Place.root, ms) :: memberObjects ms
  | _ => []

def itemObjects (i : Nat) : List Sample → List (Place × List (String × Sample))
  | [] => []
  | item :: rest => below (.index i) (objects item) ++ itemObjects (i + 1) rest

def memberObjects : List (String × Sample) → List (Place × List (String × Sample))
  | [] => []
  | (key, item) :: rest => below (.key key) (objects item) ++ memberObjects rest
end

theorem itemObjects_eq_flatMap (i : Nat) (items : List Sample) :
    itemObjects i items = (items.zipIdx i).flatMap fun p => below (.index p.2) p.1.objects := by
  induction items generalizing i with
  | nil => rfl
  | cons item rest ih => rw [itemObjects, ih, List.zipIdx_cons, List.flatMap_cons]

theorem memberObjects_eq_flatMap (ms : List (String × Sample)) :
    memberObjects ms = ms.flatMap fun m => below (.key m.1) m.2.objects := by
  induction ms with
  | nil => rfl
  | cons m rest ih => rw [memberObjects, ih, List.flatMap_cons]

/-- An object itself comes first, and then the objects in the parts. -/
theorem objects_eq (sample : Sample) :
    sample.objects = sample.members?.toList.map (Place.root, ·) ++
      sample.parts.flatMap fun p => below p.1 p.2.objects := by
  cases sample with
  | null | bool | number | string => rfl
  | array items =>
      rw [objects, itemObjects_eq_flatMap, parts, List.flatMap_map]
      rfl
  | object ms =>
      rw [objects, memberObjects_eq_flatMap, parts, List.flatMap_map]
      rfl

theorem mem_objects_root {sample : Sample} {ms : List (String × Sample)} :
    (Place.root, ms) ∈ sample.objects ↔ sample.members? = some ms := by
  rw [objects_eq]
  simp [below, Place.root]

theorem mem_objects_cons {sample : Sample} {step : PlaceStep} {place : Place}
    {ms : List (String × Sample)} :
    (step :: place, ms) ∈ sample.objects ↔
      ∃ part, (step, part) ∈ sample.parts ∧ (place, ms) ∈ part.objects := by
  rw [objects_eq]
  simp [below, Place.root]

/-- The listed objects are those that places lead to. -/
theorem Ordered.mem_objects {sample : Sample} (ordered : sample.Ordered) {place : Place}
    {ms : List (String × Sample)} :
    (place, ms) ∈ sample.objects ↔ sample.part? place = some (.object ms) := by
  induction place generalizing sample with
  | nil =>
      rw [Sample.part?, Option.some_inj]
      refine mem_objects_root.trans ⟨eq_object_of_members?, ?_⟩
      rintro rfl
      rfl
  | cons step place ih =>
      rw [mem_objects_cons, Sample.part?, Option.bind_eq_some_iff]
      refine exists_congr fun part => ?_
      rw [ordered.lookup_parts]
      exact and_congr_right fun here => ih (ordered.part here)

/-- The listed objects stand in the order of their places. -/
theorem Ordered.objects_ascend {sample : Sample} (ordered : sample.Ordered) :
    sample.objects.Pairwise fun o p => Place.Before o.1 p.1 := by
  have inParts : (sample.parts.flatMap fun p => below p.1 p.2.objects).Pairwise
      fun o p => Place.Before o.1 p.1 := by
    refine List.pairwise_flatMap.mpr ⟨?_, ordered.steps_ascend.imp ?_⟩
    · intro p here
      have inside := (ordered.part here).objects_ascend
      exact List.pairwise_map.mpr (inside.imp fun before => .cons before)
    · intro p q before o first o' second
      obtain ⟨_, -, rfl⟩ := List.mem_map.mp first
      obtain ⟨_, -, rfl⟩ := List.mem_map.mp second
      exact .rel before
  rw [objects_eq]
  cases sample.members? with
  | none => exact inParts
  | some ms =>
      refine List.pairwise_cons.mpr ⟨?_, inParts⟩
      intro o here
      obtain ⟨_, -, found⟩ := List.mem_flatMap.mp here
      obtain ⟨_, -, rfl⟩ := List.mem_map.mp found
      exact .nil
termination_by sizeOf sample
decreasing_by exact sizeOf_part_lt here

/-! ## Numbers of objects -/

def objectPlaces (sample : Sample) : List Place :=
  sample.objects.map (·.1)

theorem Ordered.nodup_objectPlaces {sample : Sample} (ordered : sample.Ordered) :
    sample.objectPlaces.Nodup := by
  refine List.pairwise_map.mpr (ordered.objects_ascend.imp ?_)
  intro o p before same
  exact Place.not_before_self _ (same ▸ before)

/-- The number that the first object gets: that of the root, unless the root is no object. -/
def firstNumber : Sample → TypeId
  | .object _ => TypeId.root
  | _ => TypeId.root + 1

/-- Objects are numbered in the order in which they are listed. -/
def objectNumber (sample : Sample) (place : Place) : TypeId :=
  sample.firstNumber + sample.objectPlaces.idxOf place

theorem objectNumber_inj {sample : Sample} {place other : Place}
    (known : place ∈ sample.objectPlaces)
    (same : sample.objectNumber place = sample.objectNumber other) : place = other :=
  (List.idxOf_inj known).mp (Nat.add_left_cancel same)

/-- The given numbers of objects are consecutive. -/
def Consecutive (number : Place → TypeId) (first : TypeId)
    (found : List (Place × List (String × Sample))) : Prop :=
  found.map (number ·.1) = List.range' first found.length

theorem consecutive_cons {number : Place → TypeId} {first : TypeId}
    {object : Place × List (String × Sample)} {found : List (Place × List (String × Sample))} :
    Consecutive number first (object :: found) ↔
      number object.1 = first ∧ Consecutive number (first + 1) found :=
  List.cons_eq_cons

theorem consecutive_append {number : Place → TypeId} {first : TypeId}
    {found later : List (Place × List (String × Sample))} :
    Consecutive number first (found ++ later) ↔
      Consecutive number first found ∧ Consecutive number (first + found.length) later := by
  rw [Consecutive, List.map_append, List.length_append, ← List.range'_append_1]
  refine ⟨fun same => List.append_inj same (by simp), fun given => ?_⟩
  rw [given.1, given.2]

theorem consecutive_below {number : Place → TypeId} {first : TypeId} {step : PlaceStep}
    {found : List (Place × List (String × Sample))} :
    Consecutive number first (below step found) ↔
      Consecutive (inside number [step]) first found := by
  rw [Consecutive, Consecutive, below, List.map_map, List.length_map]
  rfl

theorem Ordered.consecutive {sample : Sample} (ordered : sample.Ordered) :
    Consecutive sample.objectNumber sample.firstNumber sample.objects := by
  have ranks : sample.objectPlaces.map sample.objectPlaces.idxOf =
      List.range sample.objectPlaces.length := by
    refine List.ext_getElem (by simp) fun i _ _ => ?_
    simp [ordered.nodup_objectPlaces.idxOf_getElem]
  have shifted := congrArg (List.map (sample.firstNumber + ·)) ranks
  rw [← List.range'_eq_map_range, objectPlaces, List.map_map, List.map_map,
    List.length_map] at shifted
  exact shifted

/-- A root that is an object has the number 1. -/
theorem objectNumber_root (ms : List (String × Sample)) :
    (Sample.object ms).objectNumber Place.root = TypeId.root := by
  rw [objectNumber, objectPlaces, objects, List.map_cons, List.idxOf_cons_self]
  rfl

end Sample
end GoSchema
