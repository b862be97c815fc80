import ScriptSignal.NameMap
import ScriptSignal.Value

/-!
# The object heap

Objects stand in the order of their allocation, and a place is never given out
twice: reclaiming an object leaves its place empty for ever. The view of a heap
is `get?`.
-/

namespace ScriptSignal

set_option autoImplicit false

inductive ObjectKind
  | plain
  | function (name : String)
  /-- An instance of a native class, with one word for native code to use. -/
  | native (classId : ClassId) (slot : Option UInt64)
deriving Repr, DecidableEq

/-- The count of references is a number, though the engine keeps it in a word of 32 bits. The two
are the same while no count outgrows its word, and what is proved of counts is proved of runs in
which none does. -/
structure Object where
  refCount : Nat
  kind : ObjectKind
  proto : Option ObjectId
  properties : NameMap Value
deriving Repr, DecidableEq

/-- What an object owns a reference to: its property values and its prototype. -/
def Object.owned (object : Object) : List Value :=
  object.properties.values ++ object.proto.toList.map .object

structure Heap where
  places : Array (Option Object)
deriving Repr, DecidableEq

namespace Heap

def empty : Heap := ⟨#[]⟩

instance : Inhabited Heap := ⟨empty⟩

def get? (heap : Heap) (id : ObjectId) : Option Object := (heap.places[id.index]?).join

def nextId (heap : Heap) : ObjectId := ⟨heap.places.size⟩

/-- A new object has one reference, which belongs to whoever asked for it. The
reference to the prototype is the new object's own. -/
def alloc (heap : Heap) (kind : ObjectKind) (proto : Option ObjectId) : Heap :=
  ⟨heap.places.push (some ⟨1, kind, proto, .empty⟩)⟩

def put (heap : Heap) (id : ObjectId) (object : Object) : Heap :=
  ⟨heap.places.setIfInBounds id.index (some object)⟩

def remove (heap : Heap) (id : ObjectId) : Heap :=
  ⟨heap.places.setIfInBounds id.index none⟩

def live (heap : Heap) : Nat := heap.places.countP Option.isSome

def lookupWithin (heap : Heap) (key : String) : Nat → ObjectId → Option Value
  | 0, _ => none
  | steps + 1, id =>
      match heap.get? id with
      | none => none
      | some object =>
          match object.properties.find? key with
          | some value => some value
          | none =>
              match object.proto with
              | some proto => lookupWithin heap key steps proto
              | none => none

/-- The nearest definition of a key on an object or along its prototypes. Every
prototype is older than its object, so the chain has no more members than there
are places up to the object's own. -/
def lookup (heap : Heap) (id : ObjectId) (key : String) : Option Value :=
  heap.lookupWithin key (id.index + 1) id

theorem get_eq_none_of_size_le {heap : Heap} {id : ObjectId}
    (beyond : heap.places.size ≤ id.index) : heap.get? id = none := by
  simp [get?, Array.getElem?_eq_none beyond]

theorem index_lt_of_get {heap : Heap} {id : ObjectId} {object : Object}
    (found : heap.get? id = some object) : id.index < heap.places.size := by
  apply Nat.lt_of_not_le
  intro beyond
  rw [get_eq_none_of_size_le beyond] at found
  cases found

@[simp] theorem get_alloc_same (heap : Heap) (kind : ObjectKind) (proto : Option ObjectId) :
    (heap.alloc kind proto).get? heap.nextId = some ⟨1, kind, proto, .empty⟩ := by
  simp [get?, alloc, nextId]

theorem get_alloc_other (heap : Heap) (kind : ObjectKind) (proto : Option ObjectId)
    {id : ObjectId} (different : id ≠ heap.nextId) :
    (heap.alloc kind proto).get? id = heap.get? id := by
  have place : id.index ≠ heap.places.size := by
    intro same
    apply different
    cases id
    simp_all [nextId]
  simp [get?, alloc, Array.getElem?_push, place]

theorem get_put_same {heap : Heap} {id : ObjectId} {old : Object}
    (found : heap.get? id = some old) (object : Object) :
    (heap.put id object).get? id = some object := by
  simp [get?, put, index_lt_of_get found]

theorem get_put_other (heap : Heap) {id other : ObjectId} (different : other ≠ id)
    (object : Object) : (heap.put id object).get? other = heap.get? other := by
  have place : id.index ≠ other.index := by
    intro same
    apply different
    cases id
    cases other
    simp_all
  simp [get?, put, place]

@[simp] theorem get_remove_same (heap : Heap) (id : ObjectId) :
    (heap.remove id).get? id = none := by
  by_cases inside : id.index < heap.places.size
  · simp [get?, remove, inside]
  · exact get_eq_none_of_size_le (by simpa [remove] using Nat.le_of_not_lt inside)

theorem get_remove_other (heap : Heap) {id other : ObjectId} (different : other ≠ id) :
    (heap.remove id).get? other = heap.get? other := by
  have place : id.index ≠ other.index := by
    intro same
    apply different
    cases id
    cases other
    simp_all
  simp [get?, remove, place]

end Heap

end ScriptSignal
