import ScriptSignal.Proofs.Agreement
import ScriptSignal.Proofs.Unbinding

/-!
# The life of a Signal

To its client a Signal is a machine with a single slot: it is empty, or connected to a
callback, until it is finalized. The answers of the entry points depend on the life of the
receiver alone. What a bridge keeps in slots and tables for many Signals at once is seen here
as one such machine for each handle.
-/

namespace ScriptSignal

set_option autoImplicit false

/-- The life of a handle. One that was never bound counts as finalized. -/
inductive Life
  | empty (linked : Bool)
  | connected (linked : Bool) (callback : Value)
  | finalized
deriving Repr, DecidableEq

namespace Life

def isLinked : Life → Bool
  | .empty linked | .connected linked _ => linked
  | .finalized => false

/-- The result of a call with the life that follows, or the failure, which changes nothing. -/
abbrev Result := Except Failure (Value × Life)

def fill (life : Life) (callback : Value) : Result :=
  match life with
  | .empty linked => .ok (.int 0, .connected linked callback)
  | _ => .error .alreadyConnected

def connect (life : Life) (config : Config) (isFunction : Value → Bool)
    (arguments : List Value) : Result :=
  match arguments with
  | [callback] =>
      if isFunction callback = false then .error .argumentKind
      else if life = .finalized then .error .noContext
      else if config.link = .required ∧ life.isLinked = false then .error .noLink
      else life.fill callback
  | _ => .error .functionExpected

theorem connect_of_checked {life : Life} {config : Config} {isFunction : Value → Bool}
    {callback : Value} (function : isFunction callback = true) (alive : life ≠ .finalized)
    (linked : ¬(config.link = .required ∧ life.isLinked = false)) :
    life.connect config isFunction [callback] = life.fill callback := by
  have checked : ¬isFunction callback = false := by simp [function]
  unfold connect
  simp only
  rw [if_neg checked, if_neg alive, if_neg linked]

/-- A bridge that never disconnects does not look at the receiver. -/
def disconnect (life : Life) (config : Config) (arguments : List Value) : Result :=
  match arguments with
  | [token] =>
      if token.isNumber = false then .error .argumentKind
      else if config.disconnect = .alwaysFalse then .ok (.bool false, life)
      else
        match life with
        | .empty _ => .ok (.bool false, life)
        | .connected linked _ => .ok (.bool true, .empty linked)
        | .finalized => .error .noContext
  | _ => .error .argumentCount

def isEmpty (life : Life) (arguments : List Value) : Result :=
  match arguments with
  | [] =>
      match life with
      | .empty _ => .ok (.bool true, life)
      | .connected _ _ => .ok (.bool false, life)
      | .finalized => .error .noContext
  | _ => .error .argumentCount

def enter (life : Life) (config : Config) (isFunction : Value → Bool) (arguments : List Value) :
    Entry → Option Result
  | .construct => none
  | .connect => some (life.connect config isFunction arguments)
  | .disconnect => some (life.disconnect config arguments)
  | .isEmpty => some (life.isEmpty arguments)
  | .toString => some (.ok (.string "Signal", life))

def next (life : Life) (result : Result) : Life :=
  match result with
  | .ok (_, later) => later
  | .error _ => life

theorem next_of_finalized {config : Config} {isFunction : Value → Bool} {arguments : List Value}
    {entry : Entry} {result : Result}
    (entered : finalized.enter config isFunction arguments entry = some result) :
    finalized.next result = finalized := by
  cases entry with
  | construct => cases entered
  | connect =>
      cases entered
      unfold connect
      split
      · split <;> rfl
      · rfl
  | disconnect =>
      cases entered
      unfold disconnect
      split
      · split
        · rfl
        · split <;> rfl
      · rfl
  | isEmpty =>
      cases entered
      unfold isEmpty
      split <;> rfl
  | toString =>
      cases entered
      rfl

end Life

def SignalState.life (state : SignalState) : Life :=
  match state.callback with
  | none => .empty state.link.isSome
  | some held => .connected state.link.isSome held.value

namespace World

def life (world : World) (bridge : BridgeId) (handle : Value) : Life :=
  match world.boundState bridge handle with
  | .ok (_, state) => state.life
  | .error _ => .finalized

section Lives

variable {world before : World} {id : BridgeId} {handle : Value}

theorem life_eq (world : World) (id : BridgeId) (handle : Value) :
    world.life id handle = (world.signal? id handle).elim .finalized SignalState.life := by
  unfold life signal?
  cases world.boundState id handle <;> rfl

theorem life_of_missing (missing : world.bridge? id = none) (handle : Value) :
    world.life id handle = .finalized := by
  rw [life_eq, signal_of_missing missing]
  rfl

theorem life_of_bound {key : Key} {state : SignalState}
    (bound : world.boundState id handle = .ok (key, state)) :
    world.life id handle = state.life := by
  simp [life, bound]

theorem life_of_dead (dead : world.isAlive handle = false) : world.life id handle = .finalized := by
  rw [life_eq, signal_of_dead dead]
  rfl

theorem Changes.life (changes : Changes before world) (id : BridgeId) (handle : Value) :
    world.life id handle = before.life id handle := by
  rw [life_eq, life_eq, changes.signal]

theorem life_write (paired : before.Paired) {key : Key} {old : SignalState}
    (bound : before.boundState id handle = .ok (key, old)) (changes : Changes before world)
    (new : SignalState) (other : BridgeId) (value : Value) :
    (world.modifyStates id fun states => states.set key new).life other value =
      if other = id ∧ value = handle then new.life else before.life other value := by
  rw [life_eq, life_eq, signal_write paired bound changes]
  split <;> rfl

theorem life_finalize_signal (paired : world.Paired) (id : BridgeId) (handle : Value)
    (other : BridgeId) (value : Value) :
    (world.finalizeSignal id handle).1.life other value =
      if other = id ∧ value = handle then .finalized else world.life other value := by
  rw [life_eq, life_eq, signal_finalize_signal paired]
  split <;> rfl

theorem life_bind_signal (paired : world.Paired) (awaits : world.Awaits id handle) {route : Route}
    {link : Option StrongRef}
    (room : ∀ later, (world.bindSignal id route handle link).1.bridge? id = some later →
      later.states.capacity ≤ 2 ^ 32) (other : BridgeId) (value : Value) :
    (world.bindSignal id route handle link).1.life other value =
      if other = id ∧ value = handle then .empty link.isSome else world.life other value := by
  rw [life_eq, life_eq, signal_bind_signal paired awaits room]
  split <;> rfl

theorem life_remove_object (removed : ObjectId) (other : BridgeId) (value : Value) :
    (world.removeObject removed).1.life other value =
      if value = .object removed then .finalized else world.life other value := by
  rw [life_eq, life_eq, signal_remove_object]
  split <;> rfl

/-- Whichever bridge an object is a Signal of, its finalizer ends that life and no other. -/
theorem life_run_finalizer (paired : world.Paired) (tidy : world.Tidy) (finalized : ObjectId)
    (other : BridgeId) (value : Value) :
    (world.runFinalizer finalized).1.life other value =
      if value = .object finalized then .finalized else world.life other value := by
  rw [life_eq, life_eq, signal_run_finalizer paired tidy]
  split <;> rfl

end Lives

section Coherence

variable {world before : World} {id : BridgeId}

/-- Every table is as large at most as 32 bits can number its slots. -/
def Roomy (world : World) : Prop :=
  ∀ id bridge, world.bridge? id = some bridge → bridge.states.capacity ≤ 2 ^ 32

theorem Persists.roomy (persists : Persists before world) (room : world.Roomy) : before.Roomy := by
  intro id bridge found
  obtain ⟨later, foundLater, -, -, -, grows⟩ := persists.bridges id bridge found
  exact Nat.le_trans grows (room id later foundLater)

structure Coherent (world : World) : Prop where
  tidy : world.Tidy
  grounded : world.Grounded
  bound : ∀ classId, world.Bound classId
  room : world.Roomy

theorem Coherent.serves (coherent : world.Coherent) {bridge : Bridge}
    (found : world.bridge? id = some bridge) : world.Serves bridge.classId id bridge :=
  serves_of_tidy coherent.tidy found (coherent.room id bridge found)

theorem Coherent.paired (coherent : world.Coherent) : world.Paired where
  agree := fun id bridge found =>
    (coherent.bound bridge.classId).agree id bridge (coherent.serves found)
  apart := fun _ other _ otherBridge found => (coherent.serves found).alone other otherBridge

end Coherence

end World

end ScriptSignal
