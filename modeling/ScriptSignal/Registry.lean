import ScriptSignal.NameMap
import ScriptSignal.Script
import ScriptSignal.Signal

/-!
# Native classes

Class ids are handed out in order and may be defined later, once. A name means the
class that was defined under it last.
-/

namespace ScriptSignal

set_option autoImplicit false

inductive NativeFunction
  | signal (bridge : BridgeId) (entry : Entry)
  | script (body : Body)

inductive Finalizer
  | signal (bridge : BridgeId)
  | script (body : Body)

structure ClassDefinition where
  name : String
  constructor : NativeFunction
  methods : List (String × NativeFunction)
  finalizer : Finalizer

/-- A defined class, which owns a reference to its prototype. -/
structure ClassRecord where
  name : String
  constructor : NativeFunction
  methods : NameMap NativeFunction
  finalizer : Finalizer
  proto : ObjectId

structure Registry where
  classes : Array (Option ClassRecord)
  names : NameMap ClassId

namespace Registry

def empty : Registry := ⟨#[], .empty⟩

instance : Inhabited Registry := ⟨empty⟩

def record? (registry : Registry) (classId : ClassId) : Option ClassRecord :=
  (registry.classes[classId.number.toNat]?).join

def idOf? (registry : Registry) (name : String) : Option ClassId := registry.names.find? name

def find? (registry : Registry) (name : String) : Option ClassRecord :=
  (registry.idOf? name).bind registry.record?

def nextId (registry : Registry) : ClassId := ⟨UInt32.ofNat registry.classes.size⟩

def reserve (registry : Registry) : Registry :=
  { registry with classes := registry.classes.push none }

def checkOpen (registry : Registry) (classId : ClassId) : Except Failure Unit :=
  match registry.classes[classId.number.toNat]? with
  | none => .error .unknownClass
  | some (some _) => .error .classDefined
  | some none => .ok ()

def define (registry : Registry) (classId : ClassId) (definition : ClassDefinition)
    (proto : ObjectId) : Registry :=
  { classes :=
      registry.classes.setIfInBounds classId.number.toNat
        (some
          { name := definition.name
            constructor := definition.constructor
            methods := .ofList definition.methods
            finalizer := definition.finalizer
            proto })
    names := registry.names.insert definition.name classId }

end Registry

def BridgeId.definition (bridge : BridgeId) : ClassDefinition where
  name := signalClassName
  constructor := .signal bridge .construct
  methods :=
    [("connect", .signal bridge .connect), ("disconnect", .signal bridge .disconnect),
      ("isEmpty", .signal bridge .isEmpty), ("toString", .signal bridge .toString)]
  finalizer := .signal bridge

end ScriptSignal
