/-!
# Slabs with generational keys

Entries live in numbered slots. A key names a slot together with the generation
that the slot had when the entry came, and taking an entry out moves its slot on
to the next generation. A key that outlived its entry therefore reaches nothing,
even after the slot was filled again. Empty slots are filled again before a new
one is made, the most recently emptied first.
-/

namespace ScriptSignal

set_option autoImplicit false

universe u

structure Key where
  index : UInt32
  generation : UInt32
deriving Repr, DecidableEq, Inhabited

namespace Key

/-- The generation in the high half of a word and the index in the low half. -/
def toBits (key : Key) : UInt64 := key.generation.toUInt64 <<< 32 ||| key.index.toUInt64

def ofBits (bits : UInt64) : Key := ⟨bits.toUInt32, (bits >>> 32).toUInt32⟩

def text (key : Key) : String :=
  "OpaqueKey(" ++ toString key.index.toNat ++ "v" ++ toString key.generation.toNat ++ ")"

end Key

structure Slot (α : Type u) where
  generation : UInt32
  entry : Option α
deriving Repr, DecidableEq

def Slot.vacated {α : Type u} (slot : Slot α) : Slot α :=
  match slot.entry with
  | some _ => ⟨slot.generation + 1, none⟩
  | none => slot

structure Slab (α : Type u) where
  slots : Array (Slot α)
  /-- The empty slots, the most recently emptied first. -/
  free : List UInt32
  count : Nat
deriving Repr, DecidableEq

namespace Slab

variable {α : Type u}

def empty : Slab α := ⟨#[], [], 0⟩

instance : Inhabited (Slab α) := ⟨empty⟩

def slot? (slab : Slab α) (index : UInt32) : Option (Slot α) := slab.slots[index.toNat]?

def get? (slab : Slab α) (key : Key) : Option α :=
  match slab.slot? key.index with
  | some slot => if slot.generation = key.generation then slot.entry else none
  | none => none

def contains (slab : Slab α) (key : Key) : Bool := (slab.get? key).isSome

def isEmpty (slab : Slab α) : Bool := slab.count = 0

def capacity (slab : Slab α) : Nat := slab.slots.size

def nextKey (slab : Slab α) : Key :=
  match slab.free with
  | index :: _ => ⟨index, (slab.slot? index).elim 0 Slot.generation⟩
  | [] => ⟨UInt32.ofNat slab.slots.size, 0⟩

def insert (slab : Slab α) (entry : α) : Slab α :=
  match slab.free with
  | index :: rest =>
      let generation := (slab.slot? index).elim 0 Slot.generation
      { slots := slab.slots.setIfInBounds index.toNat ⟨generation, some entry⟩
        free := rest
        count := slab.count + 1 }
  | [] => { slots := slab.slots.push ⟨0, some entry⟩, free := [], count := slab.count + 1 }

def set (slab : Slab α) (key : Key) (entry : α) : Slab α :=
  if slab.contains key then
    { slab with
      slots := slab.slots.setIfInBounds key.index.toNat ⟨key.generation, some entry⟩ }
  else slab

def erase (slab : Slab α) (key : Key) : Slab α :=
  if slab.contains key then
    { slots := slab.slots.setIfInBounds key.index.toNat ⟨key.generation + 1, none⟩
      free := key.index :: slab.free
      count := slab.count - 1 }
  else slab

def entries (slab : Slab α) : List α := slab.slots.toList.filterMap Slot.entry

def occupied (slab : Slab α) : List UInt32 :=
  slab.slots.toList.zipIdx.filterMap fun (slot, index) =>
    slot.entry.map fun _ => UInt32.ofNat index

def clear (slab : Slab α) : Slab α where
  slots := slab.slots.map Slot.vacated
  free := slab.occupied.reverse ++ slab.free
  count := 0

def text (slab : Slab α) : String :=
  "OpaqueTable \x7b len: " ++ toString slab.count ++ ", capacity: " ++ toString slab.capacity
    ++ " \x7d"

end Slab

end ScriptSignal
