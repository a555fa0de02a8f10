import GoSchema.Schema.Draft
import GoSchema.Schema.Scalar
import GoSchema.Schema.Slot

/-! # Inference

One walk through a sample, depth first and with keys ascending, gives every value its type and
records the fields of every object under the number of a declaration. Which number an object gets
depends on the mode. Numbers follow the order in which objects are first met; merging what was
recorded is left to the draft.
-/

namespace GoSchema

inductive Mode where
  /-- Objects of one slot share a number and are merged. -/
  | unified
  /-- Every object has a number of its own. -/
  | separate
  deriving DecidableEq, Repr

structure Walk where
  /-- The next unused number. -/
  next : TypeId
  /-- Numbers of the slots that share one. -/
  ids : List (Slot × TypeId)
  draft : Draft
  deriving Repr

namespace Walk

/-- Nothing has been met. The number 1 is reserved for the root. -/
def start : Walk :=
  ⟨TypeId.root + 1, [(Slot.root, TypeId.root)], []⟩

def fresh (w : Walk) : TypeId × Walk :=
  (w.next, { w with next := w.next + 1 })

def objectId (mode : Mode) (slot : Slot) (w : Walk) : TypeId × Walk :=
  match mode with
  | .unified =>
    match w.ids.lookup slot with
    | some id => (id, w)
    | none =>
      let (id, w) := w.fresh
      (id, { w with ids := (slot, id) :: w.ids })
  | .separate => if slot = Slot.root then (TypeId.root, w) else w.fresh

def contribute (id : TypeId) (fields : List Field) (w : Walk) : Walk :=
  { w with draft := w.draft.contribute id fields }

mutual
/-- The type of a value at a slot, and the state after walking through it. -/
def value (mode : Mode) (slot : Slot) : Sample → Walk → Ty × Walk
  | .null, w => (.any, w)
  | .bool _, w => (.scalar .bool, w)
  | .number x, w => (.scalar (.ofNumber x), w)
  | .string _, w => (.scalar .string, w)
  | .array items, w =>
    let (types, w) := elements mode slot.element items w
    (.seq (.unifyAll types), w)
  | .object ms, w =>
    let (id, w) := w.objectId mode slot
    let (fields, w) := members mode slot ms w
    (.named id, w.contribute id fields)

def elements (mode : Mode) (slot : Slot) : List Sample → Walk → List Ty × Walk
  | [], w => ([], w)
  | item :: rest, w =>
    let (type, w) := value mode slot item w
    let (types, w) := elements mode slot rest w
    (type :: types, w)

def members (mode : Mode) (slot : Slot) : List (String × Sample) → Walk → List Field × Walk
  | [], w => ([], w)
  | (key, item) :: rest, w =>
    let (type, w) := value mode (slot.member key) item w
    let (fields, w) := members mode slot rest w
    (⟨key, type, false⟩ :: fields, w)
end

end Walk

namespace Sample

/-- What a walk through the whole sample records. The root always stands under number 1. -/
def draft (mode : Mode) (sample : Sample) : Draft :=
  match Walk.value mode Slot.root sample Walk.start with
  | (.named _, w) => w.draft
  | (.scalar s, w) => w.draft.declare TypeId.root (.scalar s)
  | (type, w) => w.draft.declare TypeId.root (.alias type)

def decls (mode : Mode) (sample : Sample) : List Decl :=
  (sample.draft mode).decls

end Sample
end GoSchema
