import ScriptSignal.Proofs.Mirrors
import ScriptSignal.Proofs.Record

/-!
# What a request does to a world and to its mirror

A request that keeps away from the waste reads the same in both worlds, so it does the same to
both. It answers the same, unless it asks for a count or a key, and leaves the same references
to be given back. A construction stops half way in both or in neither.
-/

namespace ScriptSignal

set_option autoImplicit false

/-- Whether the answer says nothing of counts and keys. A count has the references of waste
that a collection would remove, and a table may have had other slots free. -/
def Command.Discreet : Command → Prop
  | .object (.alive _) | .object .collect | .object (.getSlot _ _) => False
  | .bridge (.describe _) => False
  | _ => True

inductive Outcome.Mirrored (origin : World) (waste : Finset ObjectId) (discreet : Prop) :
    Outcome → Outcome → Prop
  | answers {deferred immediate : World} {early late before after : List Task}
      {reply mirrored : Reply} (mirrors : World.Mirrors origin waste deferred immediate)
      (gives : ∀ task ∈ early ++ late, task.GivesBack)
      (also : ∀ task ∈ before ++ after, task.GivesBack)
      (carried : (before ++ after).flatMap Task.carried = (early ++ late).flatMap Task.carried)
      (values : mirrored.values = reply.values) (same : discreet → mirrored = reply) :
      Mirrored origin waste discreet (deferred, early ++ .answer reply :: late)
        (immediate, before ++ .answer mirrored :: after)
  | binds {deferred immediate : World} {proto handle : Value} {id : BridgeId} {route : Route}
      {link : Option StrongRef} {late : List Task}
      (mirrors : World.Mirrors origin waste deferred immediate) (outside : proto.Outside waste)
      (fresh : handle.Outside waste) (gives : ∀ task ∈ late, task.GivesBack) :
      Mirrored origin waste discreet
        (deferred, .release proto :: .bind id route handle link :: late)
        (immediate, .release proto :: .bind id route handle link :: late)

namespace World

section Requests

variable {origin deferred immediate : World} {waste : Finset ObjectId} {discreet : Prop}

theorem mirrored_after (mirrors : Mirrors origin waste deferred immediate) {tasks : List Task}
    (gives : ∀ task ∈ tasks, task.GivesBack) (reply : Reply) :
    Outcome.Mirrored origin waste discreet (deferred.after tasks reply)
      (immediate.after tasks reply) := by
  have alone : ∀ task ∈ tasks ++ [], task.GivesBack := by
    rw [List.append_nil]
    exact gives
  exact .answers mirrors alone alone rfl rfl fun _ => rfl

theorem mirrored_done (mirrors : Mirrors origin waste deferred immediate) (reply : Reply) :
    Outcome.Mirrored origin waste discreet (deferred.done reply) (immediate.done reply) :=
  @mirrored_after origin deferred immediate waste discreet mirrors [] (by simp) reply

theorem mirrored_look (mirrors : Mirrors origin waste deferred immediate) {reply other : Reply}
    (plain : reply.values = []) (also : other.values = []) (indiscreet : ¬discreet) :
    Outcome.Mirrored origin waste discreet (deferred.done reply) (immediate.done other) := by
  have nothing : ∀ task ∈ ([] : List Task) ++ [], task.GivesBack := by simp
  exact .answers mirrors nothing nothing rfl (also.trans plain.symm)
    fun discreet => absurd discreet indiscreet

theorem mirrored_append {tasks others more : List Task}
    (mirrored : Outcome.Mirrored origin waste discreet (deferred, tasks) (immediate, others))
    (gives : ∀ task ∈ more, task.GivesBack) :
    Outcome.Mirrored origin waste discreet (deferred, tasks ++ more)
      (immediate, others ++ more) := by
  have both : ∀ first : List Task, (∀ task ∈ first, task.GivesBack) →
      ∀ task ∈ first ++ more, task.GivesBack := by
    intro first early task member
    rcases List.mem_append.1 member with old | new
    · exact early task old
    · exact gives task new
  cases mirrored with
  | @answers _ _ early late before after reply other mirrors gives also carried values same =>
      rw [List.append_assoc, List.append_assoc, List.cons_append, List.cons_append]
      refine .answers mirrors ?_ ?_ ?_ values same
      · rw [← List.append_assoc]
        exact both _ gives
      · rw [← List.append_assoc]
        exact both _ also
      · rw [← List.append_assoc, ← List.append_assoc, List.flatMap_append, carried,
          ← List.flatMap_append]
  | binds mirrors outside fresh gives => exact .binds mirrors outside fresh (both _ gives)

theorem mirrored_give (mirrors : Mirrors origin waste deferred immediate)
    {found mirrored : Except Failure Value} (same : mirrored = found)
    (alive : ∀ id, mirrored = .ok (.object id) → immediate.isAlive (.object id) = true) :
    Outcome.Mirrored origin waste discreet (deferred.give found) (immediate.give mirrored) := by
  subst same
  cases mirrored with
  | error failure => exact mirrored_done mirrors _
  | ok value =>
      have outside : value.Outside waste := by
        rintro id rfl
        exact mirrors.outside_of_alive (alive id rfl)
      exact mirrored_done (mirrors.duplicate outside) _

theorem mirrored_construct_linked (mirrors : Mirrors origin waste deferred immediate)
    (covered : immediate.Covered) (id : BridgeId) (route : Route) {target : Value}
    (outside : target.Outside waste) (link : Option StrongRef) :
    Outcome.Mirrored origin waste discreet (deferred.constructLinked id route target link)
      (immediate.constructLinked id route target link) := by
  have unlink : ∀ task ∈ link.toList.map Task.drop, task.GivesBack := gives_back_drops _
  have prototypes := mirrors.signal_prototype covered id outside
  unfold constructLinked
  cases found : deferred.signalPrototype? id target with
  | error failure =>
      rw [found] at prototypes
      rw [prototypes]
      exact mirrored_after mirrors unlink _
  | ok proto =>
      rw [found] at prototypes
      rw [prototypes]
      have apart : proto.Outside waste := by
        rintro place rfl
        exact mirrors.outside_of_alive (alive_of_signal_prototype covered prototypes)
      have duplicated := mirrors.duplicate apart
      have classes := duplicated.signal_class id
      dsimp only
      cases ofClass : (deferred.duplicate proto).signalClass? id with
      | none =>
          rw [ofClass] at classes
          rw [classes]
          apply mirrored_after duplicated
          intro task member
          rcases List.mem_cons.1 member with rfl | drops
          · trivial
          · exact unlink task drops
      | some classId =>
          rw [ofClass] at classes
          rw [classes]
          have defined := (class_of_bridge_of_signal_class ofClass).2
          have next : (immediate.duplicate proto).nextValue =
              (deferred.duplicate proto).nextValue :=
            congrArg Value.object duplicated.next
          have fresh : (deferred.duplicate proto).nextValue.Outside waste := by
            apply Value.outside_object
            intro member
            exact Nat.lt_irrefl _ (duplicated.known _ (.inl member))
          dsimp only
          rw [next]
          exact .binds (duplicated.allocate_instance apart defined) apart fresh (by simp)

theorem mirrored_construct_signal (mirrors : Mirrors origin waste deferred immediate)
    (covered : immediate.Covered) (id : BridgeId) (route : Route) {target : Value}
    (outside : target.Outside waste) {arguments : List Value}
    (apart : ∀ value ∈ arguments, value.Outside waste)
    (alive : ∀ place, .object place ∈ arguments → immediate.isAlive (.object place) = true) :
    Outcome.Mirrored origin waste discreet (deferred.constructSignal id route target arguments)
      (immediate.constructSignal id route target arguments) := by
  have unlinked := @mirrored_construct_linked origin deferred immediate waste discreet mirrors
    covered id route target outside none
  cases arguments with
  | nil => exact unlinked
  | cons first rest =>
      cases rest with
      | cons second rest => cases first <;> exact mirrored_done mirrors _
      | nil =>
          cases first with
          | undefined => exact unlinked
          | object place =>
              have here := alive place (by simp)
              exact mirrored_construct_linked (mirrors.acquire (apart _ (by simp)))
                (covered_acquire covered fun _ _ => here) id route outside _
          | _ => exact mirrored_done mirrors _

theorem mirrored_connect (mirrors : Mirrors origin waste deferred immediate)
    (paired : deferred.Paired) (also : immediate.Paired) (id : BridgeId) (route : Route)
    {handle : Value} (outside : handle.Outside waste) {arguments : List Value}
    (apart : ∀ value ∈ arguments, value.Outside waste) :
    Outcome.Mirrored origin waste discreet (deferred.connect id route handle arguments)
      (immediate.connect id route handle arguments) := by
  unfold connect
  split
  · rename_i callback
    have outsideCallback := apart callback (by simp)
    have functions := mirrors.is_function outsideCallback
    by_cases function : deferred.isFunction callback = true
    · rcases mirrors.bound_state outside id with
        ⟨unbound, unboundMirrored⟩ | ⟨key, mirrored, state, bound, boundMirrored⟩
      · simp only [connectable, functions, function, if_true, unbound, unboundMirrored]
        exact mirrored_done mirrors _
      · simp only [connectable, functions, function, if_true, bound, boundMirrored, mirrors.config]
        by_cases unlinked : (deferred.config id).link = .required ∧ state.link = none
        · simp only [unlinked, and_self, if_true]
          exact mirrored_done mirrors _
        · by_cases empty : state.callback = none
          · simp only [unlinked, empty, if_false, if_true]
            have acquired := mirrors.acquire outsideCallback
            have written := acquired.write paired also outside bound boundMirrored
              (changes_acquire deferred callback) (changes_acquire immediate callback)
              (state.connected callback)
            exact mirrored_done (written.emit _ _) _
          · simp only [unlinked, empty, if_false]
            exact mirrored_done mirrors _
    · simp only [connectable, functions, function]
      exact mirrored_done mirrors _
  · exact mirrored_done mirrors _

theorem Paired.bound_key_of_unbound {world : World} (paired : world.Paired) {id : BridgeId}
    {handle : Value} {failure : Failure} (unbound : world.boundState id handle = .error failure) :
    world.boundKey id handle = .error .noContext := by
  cases reached : world.boundKey id handle with
  | ok key =>
      obtain ⟨state, held⟩ := paired.state_of_bound reached
      rw [bound_state_eq_ok_iff.2 ⟨reached, held⟩] at unbound
      cases unbound
  | error other =>
      unfold boundKey at reached
      split at reached
      · cases reached
      · exact reached.symm

theorem mirrored_disconnect_token (mirrors : Mirrors origin waste deferred immediate)
    (paired : deferred.Paired) (also : immediate.Paired) (id : BridgeId) (route : Route)
    {handle : Value} (outside : handle.Outside waste) (token : Int32) :
    Outcome.Mirrored origin waste discreet (deferred.disconnectToken id route handle token)
      (immediate.disconnectToken id route handle token) := by
  unfold disconnectToken
  rw [mirrors.config]
  split
  · exact mirrored_done mirrors _
  · rcases mirrors.bound_state outside id with
      ⟨unbound, unboundMirrored⟩ | ⟨key, mirrored, state, bound, boundMirrored⟩
    · rw [paired.bound_key_of_unbound unbound, also.bound_key_of_unbound unboundMirrored]
      exact mirrored_done mirrors _
    · obtain ⟨reached, held⟩ := bound_state_eq_ok_iff.1 bound
      obtain ⟨reachedMirrored, heldMirrored⟩ := bound_state_eq_ok_iff.1 boundMirrored
      have left : ∀ event, (deferred.emit event).state? id key = some state := fun _ => held
      have right : ∀ event, (immediate.emit event).state? id mirrored = some state :=
        fun _ => heldMirrored
      have emitted := mirrors.emit (.disconnecting key token) (.disconnecting mirrored token)
      simp only [reached, reachedMirrored, left, right]
      cases connected : state.callback with
      | none => exact mirrored_done emitted _
      | some callback =>
          have written := emitted.write paired also outside bound boundMirrored
            (changes_emit deferred _) (changes_emit immediate _) state.cleared
          have drops : ∀ last, ∀ task ∈ [Task.drop callback, .report (.disconnected last)] ++ [],
              task.GivesBack := by simp [Task.GivesBack]
          exact .answers written (drops key) (drops mirrored) rfl rfl fun _ => rfl

theorem mirrored_disconnect (mirrors : Mirrors origin waste deferred immediate)
    (paired : deferred.Paired) (also : immediate.Paired) (id : BridgeId) (route : Route)
    {handle : Value} (outside : handle.Outside waste) (arguments : List Value) :
    Outcome.Mirrored origin waste discreet (deferred.disconnect id route handle arguments)
      (immediate.disconnect id route handle arguments) := by
  unfold disconnect
  split
  · split
    · exact mirrored_disconnect_token mirrors paired also id route outside _
    · exact mirrored_done mirrors _
  · exact mirrored_done mirrors _

theorem mirrored_is_empty (mirrors : Mirrors origin waste deferred immediate) (id : BridgeId)
    (route : Route) {handle : Value} (outside : handle.Outside waste) (arguments : List Value) :
    Outcome.Mirrored origin waste discreet (deferred.isEmpty id route handle arguments)
      (immediate.isEmpty id route handle arguments) := by
  unfold isEmpty
  split
  · rcases mirrors.bound_state outside id with
      ⟨unbound, unboundMirrored⟩ | ⟨key, mirrored, state, bound, boundMirrored⟩
    · rw [unbound, unboundMirrored]
      exact mirrored_done mirrors _
    · rw [bound, boundMirrored]
      exact mirrored_done mirrors _
  · exact mirrored_done mirrors _

theorem mirrored_enter_signal (mirrors : Mirrors origin waste deferred immediate)
    (paired : deferred.Paired) (also : immediate.Paired) (covered : immediate.Covered)
    (id : BridgeId) (entry : Entry) (route : Route) {receiver : Value}
    (outside : receiver.Outside waste) {arguments : List Value}
    (apart : ∀ value ∈ arguments, value.Outside waste)
    (alive : ∀ place, .object place ∈ arguments → immediate.isAlive (.object place) = true) :
    Outcome.Mirrored origin waste discreet (deferred.enterSignal id entry route receiver arguments)
      (immediate.enterSignal id entry route receiver arguments) := by
  cases entry with
  | construct => exact mirrored_construct_signal mirrors covered id route outside apart alive
  | connect => exact mirrored_connect mirrors paired also id route outside apart
  | disconnect => exact mirrored_disconnect mirrors paired also id route outside arguments
  | isEmpty => exact mirrored_is_empty mirrors id route outside arguments
  | toString => exact mirrored_done mirrors _

theorem mirrored_enter_bridge (mirrors : Mirrors origin waste deferred immediate)
    (paired : deferred.Paired) (also : immediate.Paired) (covered : immediate.Covered)
    (id : BridgeId) (entry : Entry) {receiver : Value} (outside : receiver.Outside waste)
    {arguments : List Value} (apart : ∀ value ∈ arguments, value.Outside waste)
    (alive : ∀ place, .object place ∈ arguments → immediate.isAlive (.object place) = true) :
    Outcome.Mirrored origin waste discreet (deferred.enterBridge id entry receiver arguments)
      (immediate.enterBridge id entry receiver arguments) := by
  have begun : (immediate.beginCall id).Covered := fun place => by
    have same : (immediate.beginCall id).surplus place = immediate.surplus place :=
      surplus_activity place id (· + 1)
    rw [same]
    exact covered place
  have entered := @mirrored_enter_signal origin (deferred.beginCall id) (immediate.beginCall id)
    waste discreet (mirrors.activity id (· + 1)) (paired.begin_call id) (also.begin_call id) begun
    id entry .direct receiver outside arguments apart alive
  exact mirrored_append entered (by simp [Task.GivesBack])

theorem mirrored_finalize_through (mirrors : Mirrors origin waste deferred immediate)
    (paired : deferred.Paired) (also : immediate.Paired) (id : BridgeId) {handle : Value}
    (outside : handle.Outside waste) :
    Outcome.Mirrored origin waste discreet (deferred.finalizeThrough id handle)
      (immediate.finalizeThrough id handle) := by
  have begun := mirrors.activity id (· + 1)
  obtain ⟨finalized, tasks⟩ :=
    begun.finalize_signal (paired.begin_call id) (also.begin_call id) id outside
  have gives : ∀ task ∈ ((deferred.beginCall id).finalizeSignal id handle).2 ++ [.endCall id],
      task.GivesBack := by
    intro task member
    rcases List.mem_append.1 member with early | last
    · exact gives_back_finalize_signal id handle task early
    · cases List.mem_singleton.1 last
      trivial
  have same : ((immediate.beginCall id).finalizeSignal id handle).2 =
      ((deferred.beginCall id).finalizeSignal id handle).2 := tasks
  unfold finalizeThrough
  dsimp only
  rw [same]
  exact .answers finalized gives gives rfl rfl fun _ => rfl

theorem mirrored_finalize_now (mirrors : Mirrors origin waste deferred immediate)
    (tidy : deferred.Tidy) (paired : deferred.Paired) (also : immediate.Paired) {value : Value}
    (outside : value.Outside waste) :
    Outcome.Mirrored origin waste discreet
      ((deferred.finalizeNow value).1.after (deferred.finalizeNow value).2 .nothing)
      ((immediate.finalizeNow value).1.after (immediate.finalizeNow value).2 .nothing) := by
  cases value with
  | object id =>
      obtain ⟨finalized, tasks⟩ := mirrors.run_finalizer tidy paired also (outside id rfl)
      simp only [finalizeNow]
      rw [tasks]
      exact mirrored_after finalized (run_finalizer_law tidy id).2.1 _
  | _ => exact mirrored_done mirrors _

theorem Mirrors.edit_client (mirrors : Mirrors origin waste deferred immediate)
    (edit : Client → Client) :
    Mirrors origin waste { deferred with client := edit deferred.client }
      { immediate with client := edit immediate.client } := by
  rw [mirrors.client]
  exact mirrors.change_client _

theorem mirrored_store_bridge (mirrors : Mirrors origin waste deferred immediate) (name : String)
    (id : BridgeId) (reply : Reply) :
    Outcome.Mirrored origin waste discreet (deferred.storeBridge name id reply)
      (immediate.storeBridge name id reply) := by
  have stored := mirrors.edit_client fun client =>
    { client with bridges := client.bridges.insert name id }
  unfold storeBridge
  dsimp only
  rw [mirrors.client] at stored ⊢
  exact mirrored_after stored (gives_back_settle _) reply

theorem mirrored_install_bridge (mirrors : Mirrors origin waste deferred immediate) (name : String)
    (config : Config) :
    Outcome.Mirrored origin waste discreet (deferred.installBridge name config)
      (immediate.installBridge name config) := by
  have reserved := mirrors.reserve
  have bridge : immediate.nextBridge = deferred.nextBridge :=
    congrArg BridgeId.mk mirrors.setting.size
  unfold installBridge
  dsimp only
  rw [reserved.registry, mirrors.registry, bridge]
  cases vacant :
      deferred.reserveClass.engine.registry.checkOpen deferred.engine.registry.nextId with
  | error failure => exact mirrored_done reserved _
  | ok free =>
      have installed := reserved.install config vacant
      have same : immediate.reserveClass.nextBridge = deferred.nextBridge := bridge
      rw [same] at installed
      exact mirrored_store_bridge (installed.emit _ _) name _ _

theorem mirrored_drop_bridge (mirrors : Mirrors origin waste deferred immediate) (name : String) :
    Outcome.Mirrored origin waste discreet (deferred.dropBridge name)
      (immediate.dropBridge name) := by
  have dropped := mirrors.edit_client fun client =>
    { client with bridges := client.bridges.erase name }
  unfold dropBridge
  rw [mirrors.client] at dropped ⊢
  split
  · exact mirrored_done mirrors _
  · exact mirrored_after dropped (by simp [Task.GivesBack]) _

theorem mirrored_store_reference (mirrors : Mirrors origin waste deferred immediate)
    (name : String) (held : StrongRef) (reply : Reply) :
    Outcome.Mirrored origin waste discreet (deferred.storeReference name held reply)
      (immediate.storeReference name held reply) := by
  have stored := mirrors.edit_client fun client =>
    { client with references := client.references.insert name held }
  unfold storeReference
  dsimp only
  rw [mirrors.client] at stored ⊢
  exact mirrored_after stored (gives_back_drops _) reply

theorem mirrored_drop_named_reference (mirrors : Mirrors origin waste deferred immediate)
    (name : String) :
    Outcome.Mirrored origin waste discreet (deferred.dropNamedReference name)
      (immediate.dropNamedReference name) := by
  have dropped := mirrors.edit_client fun client =>
    { client with references := client.references.erase name }
  unfold dropNamedReference
  rw [mirrors.client] at dropped ⊢
  split
  · exact mirrored_done mirrors _
  · exact mirrored_after dropped (by simp [Task.GivesBack]) _

theorem Mirrors.put_state (mirrors : Mirrors origin waste deferred immediate) (name : String)
    (state : SignalState) :
    Mirrors origin waste (deferred.putState name state) (immediate.putState name state) :=
  mirrors.edit_client fun client => { client with states := client.states.insert name state }

theorem mirrored_create_state (mirrors : Mirrors origin waste deferred immediate) (name : String)
    (link : Option String) :
    Outcome.Mirrored origin waste discreet (deferred.createState name link)
      (immediate.createState name link) := by
  have create : ∀ {bare other : World} (held : Option StrongRef), Mirrors origin waste bare other →
      Outcome.Mirrored origin waste discreet
        ((bare.putState name ⟨none, held⟩).after
          ((bare.client.states.find? name).toList.flatMap fun state => state.held.map .drop)
          .nothing)
        ((other.putState name ⟨none, held⟩).after
          ((other.client.states.find? name).toList.flatMap fun state => state.held.map .drop)
          .nothing) := by
    intro bare other held mirrors
    have put := mirrors.put_state name ⟨none, held⟩
    rw [mirrors.client]
    exact mirrored_after put (gives_back_states _) _
  unfold createState
  rw [mirrors.client]
  cases link with
  | none => exact create none mirrors
  | some link =>
      have unnamed := mirrors.edit_client fun client =>
        { client with references := client.references.erase link }
      rw [mirrors.client] at unnamed
      exact create _ unnamed

theorem mirrored_set_state_callback (mirrors : Mirrors origin waste deferred immediate)
    (name : String) {callback : Value} (outside : callback.Outside waste) :
    Outcome.Mirrored origin waste discreet (deferred.setStateCallback name callback)
      (immediate.setStateCallback name callback) := by
  unfold setStateCallback
  rw [mirrors.client]
  split
  · exact mirrored_done mirrors _
  · split
    · exact mirrored_done ((mirrors.acquire outside).put_state name _) _
    · exact mirrored_done mirrors _

theorem mirrored_clear_state (mirrors : Mirrors origin waste deferred immediate) (name : String)
    (keep : Option String) :
    Outcome.Mirrored origin waste discreet (deferred.clearState name keep)
      (immediate.clearState name keep) := by
  unfold clearState
  rw [mirrors.client]
  split
  · exact mirrored_done mirrors _
  · rename_i state found
    split
    · exact mirrored_done mirrors _
    · have cleared := mirrors.put_state name state.cleared
      dsimp only
      split
      · exact mirrored_store_reference cleared _ _ _
      · exact mirrored_after cleared (by simp [Task.GivesBack]) _

theorem mirrored_drop_state (mirrors : Mirrors origin waste deferred immediate) (name : String) :
    Outcome.Mirrored origin waste discreet (deferred.dropState name)
      (immediate.dropState name) := by
  have dropped := mirrors.edit_client fun client =>
    { client with states := client.states.erase name }
  unfold dropState
  rw [mirrors.client] at dropped ⊢
  split
  · exact mirrored_done mirrors _
  · exact mirrored_after dropped (gives_back_drops _) _

section Commands

variable {read : Operand → Value}

theorem outside_of_operands {operands : List Operand}
    (outside : ∀ operand ∈ operands, (read operand).Outside waste) :
    ∀ value ∈ operands.map read, value.Outside waste := by
  intro value member
  obtain ⟨operand, listed, rfl⟩ := List.mem_map.1 member
  exact outside operand listed

theorem mirrored_set_property (mirrors : Mirrors origin waste deferred immediate) {target : Value}
    (outside : target.Outside waste) (key : String) (value : Value) :
    Outcome.Mirrored origin waste discreet (deferred.setProperty target key value)
      (immediate.setProperty target key value) := by
  have refused : ∀ exception, Outcome.Mirrored origin waste discreet
      (deferred.after [.release value] (.raised exception))
      (immediate.after [.release value] (.raised exception)) :=
    fun exception => mirrored_after mirrors (by simp [Task.GivesBack]) _
  cases target with
  | object id =>
      unfold setProperty
      dsimp only
      cases found : immediate.engine.heap.get? id with
      | none =>
          rw [mirrors.missing (outside id rfl) found]
          exact refused _
      | some object =>
          obtain ⟨full, reached, alike⟩ := mirrors.found (outside id rfl) found
          obtain ⟨counts, kind, proto, properties⟩ := Object.parts_of_laden alike
          rw [reached]
          dsimp only
          rw [properties]
          apply mirrored_after
          · refine mirrors.put (outside id rfl) reached found ?_ ?_ ?_
            · rfl
            · rfl
            · simp [Object.bare, Object.laden, counts, kind, proto]
          · simp [Task.GivesBack]
  | _ => exact refused _

theorem mirrored_allocate (mirrors : Mirrors origin waste deferred immediate) (kind : ObjectKind)
    (unbound : kind.Unbound deferred.engine.registry) :
    Outcome.Mirrored origin waste discreet
      ((deferred.allocate kind none).done (.value deferred.nextValue))
      ((immediate.allocate kind none).done (.value immediate.nextValue)) := by
  have next : immediate.nextValue = deferred.nextValue := congrArg Value.object mirrors.next
  rw [next]
  exact mirrored_done (mirrors.allocate unbound (by simp)) _

theorem mirrored_reserve (mirrors : Mirrors origin waste deferred immediate) :
    Outcome.Mirrored origin waste discreet (deferred.undertake .reserve)
      (immediate.undertake .reserve) := by
  simp only [undertake]
  rw [mirrors.registry]
  exact mirrored_done mirrors.reserve _

theorem mirrored_instantiate (mirrors : Mirrors origin waste deferred immediate) {proto : Value}
    (outside : proto.Outside waste) (classId : ClassId) :
    Outcome.Mirrored origin waste discreet (deferred.instantiate proto classId)
      (immediate.instantiate proto classId) := by
  have next : immediate.nextValue = deferred.nextValue := congrArg Value.object mirrors.next
  simp only [instantiate]
  rw [mirrors.is_defined, next]
  split
  · rename_i defined
    exact mirrored_done (mirrors.allocate_instance outside defined) _
  · exact mirrored_done mirrors _

theorem mirrored_undertake (mirrors : Mirrors origin waste deferred immediate)
    (tidy : deferred.Tidy) (paired : deferred.Paired) (also : immediate.Paired)
    (covered : immediate.Covered) {command : Command} {errand : Errand}
    (account : deferred.Account read command errand) (offered : command.Offered)
    (collects : command ≠ .object .collect)
    (live : ∀ operand ∈ command.operands, ∀ place, read operand = .object place →
      immediate.isAlive (.object place) = true) :
    Outcome.Mirrored origin waste discreet (deferred.undertake errand)
      (immediate.undertake errand) := by
  have outside : ∀ operand ∈ command.operands, (read operand).Outside waste :=
    fun operand member place same => mirrors.outside_of_alive (live operand member place same)
  cases account with
  | answer => exact mirrored_done mirrors _
  | forget register =>
      have forgotten := mirrors.edit_client fun client =>
        { client with registers := client.registers.erase register }
      exact mirrored_done forgotten _
  | create => exact mirrored_allocate mirrors .plain trivial
  | createFunction name => exact mirrored_allocate mirrors (.function name) trivial
  | setProperty object key value =>
      exact mirrored_set_property mirrors (outside object List.mem_cons_self) key _
  | getProperty object key =>
      have here := outside object (List.mem_singleton_self object)
      exact mirrored_give mirrors (mirrors.property covered here key) fun _ found =>
        alive_of_property covered found
  | duplicate value =>
      exact mirrored_done (mirrors.duplicate (outside value (List.mem_singleton_self value))) _
  | release value => exact mirrored_after mirrors (by simp [Task.GivesBack]) _
  | collect => exact absurd rfl collects
  | finalizeNow value =>
      exact mirrored_finalize_now mirrors tidy paired also
        (outside value (List.mem_singleton_self value))
  | reserve => exact mirrored_reserve mirrors
  | classPrototype classId =>
      exact mirrored_give mirrors (mirrors.class_prototype classId) fun _ found =>
        alive_of_class_prototype covered found
  | instantiate proto classId =>
      exact mirrored_instantiate mirrors (outside proto (List.mem_singleton_self proto)) classId
  | @call _ _ receiver operands owns offers receives listed =>
      obtain ⟨bridge, entry, rfl⟩ := of_bridge_of_offers tidy offers
      have apart : receiver.Outside waste := by
        obtain rfl | ⟨operand, member, rfl⟩ := receives
        · simp [Value.Outside]
        · exact outside operand member
      refine mirrored_enter_signal mirrors paired also covered bridge entry .script apart ?_ ?_
      · exact outside_of_operands fun operand member => outside operand (listed operand member)
      · exact alive_of_operands fun operand member => live operand (listed operand member)
  | install name config => exact mirrored_install_bridge mirrors name config
  | dropBridge name => exact mirrored_drop_bridge mirrors name
  | enter entry receiver operands named =>
      refine mirrored_enter_bridge mirrors paired also covered _ entry
        (outside receiver List.mem_cons_self) ?_ ?_
      · exact outside_of_operands fun operand member =>
          outside operand (List.mem_cons_of_mem receiver member)
      · exact alive_of_operands fun operand member =>
          live operand (List.mem_cons_of_mem receiver member)
  | finalize handle named =>
      exact mirrored_finalize_through mirrors paired also _
        (outside handle (List.mem_singleton_self handle))
  | acquire name value =>
      have apart := outside value (List.mem_singleton_self value)
      exact mirrored_store_reference (mirrors.acquire apart) name _ _
  | dropReference name => exact mirrored_drop_named_reference mirrors name
  | createState name link => exact mirrored_create_state mirrors name link
  | setCallback name callback =>
      exact mirrored_set_state_callback mirrors name
        (outside callback (List.mem_singleton_self callback))
  | clearState name keep => exact mirrored_clear_state mirrors name keep
  | dropState name => exact mirrored_drop_state mirrors name
  | setSlot | createBridge | shutDown => exact offered.elim

theorem Mirrors.is_bound (mirrors : Mirrors origin waste deferred immediate) {handle : Value}
    (outside : handle.Outside waste) (id : BridgeId) :
    immediate.isBound id handle = deferred.isBound id handle := by
  unfold isBound
  rcases mirrors.bound_state outside id with
    ⟨unbound, unboundMirrored⟩ | ⟨key, mirrored, state, bound, boundMirrored⟩
  · rw [unbound, unboundMirrored]
  · rw [bound, boundMirrored]
    rfl

/-- A command comes to the same errand in both worlds, unless it asks for a count or a key. -/
theorem Mirrors.errand (mirrors : Mirrors origin waste deferred immediate) {command : Command}
    (discreet : command.Discreet)
    (outside : ∀ operand ∈ command.operands, (read operand).Outside waste) :
    immediate.errand read command = deferred.errand read command := by
  cases command with
  | value command => cases command <;> rfl
  | object command =>
      cases command with
      | prototype value =>
          simp only [World.errand,
            mirrors.prototype (outside value (List.mem_singleton_self value))]
      | functionName value =>
          simp only [World.errand,
            mirrors.function_name (outside value (List.mem_singleton_self value))]
      | classOf value =>
          simp only [World.errand, mirrors.class_of (outside value (List.mem_singleton_self value))]
      | kind value =>
          simp only [World.errand,
            mirrors.is_function (outside value (List.mem_singleton_self value))]
      | alive | getSlot | collect => exact discreet.elim
      | _ => rfl
  | classes command =>
      cases command with
      | callMethod receiver name arguments =>
          simp only [World.errand, method?, mirrors.registry,
            mirrors.class_of (outside receiver List.mem_cons_self)]
      | _ => simp only [World.errand, method?, mirrors.registry]
  | bridge command =>
      cases command with
      | describe name => exact discreet.elim
      | isBound name handle =>
          simp only [World.errand, atBridge, mirrors.client,
            mirrors.is_bound (outside handle (List.mem_singleton_self handle))]
      | _ => simp only [World.errand, atBridge, mirrors.client]
  | reference command => cases command <;> simp only [World.errand, mirrors.client]
  | state command => cases command <;> simp only [World.errand, mirrors.client]
  | shutDown => rfl

theorem mirrored_indiscreet (mirrors : Mirrors origin waste deferred immediate)
    {command : Command} (indiscreet : ¬command.Discreet) (collects : command ≠ .object .collect) :
    Outcome.Mirrored origin waste command.Discreet
      (deferred.undertake (deferred.errand read command))
      (immediate.undertake (immediate.errand read command)) := by
  unfold Command.Discreet at indiscreet
  split at indiscreet
  · exact mirrored_look mirrors rfl rfl id
  · exact absurd rfl collects
  · exact mirrored_look mirrors rfl rfl id
  · rename_i name
    have silent : ∀ (world : World) id,
        ((world.bridge? id).elim (.refused .noBridge) Reply.bridge).values = [] := by
      intro world id
      cases world.bridge? id <;> rfl
    simp only [World.errand, atBridge, mirrors.client]
    cases deferred.client.bridges.find? name with
    | none => exact mirrored_done mirrors _
    | some id =>
        exact mirrored_look mirrors (silent deferred id) (silent immediate id) fun none => none
  · exact absurd trivial indiscreet

/-- Every command that is offered to a client but a collection, on what is alive in the mirror
world. -/
theorem mirrored_perform (mirrors : Mirrors origin waste deferred immediate)
    (tidy : deferred.Tidy) (running : immediate.engine.running = true) (paired : deferred.Paired)
    (also : immediate.Paired) (covered : immediate.Covered) {command : Command}
    (offered : command.Offered) (collects : command ≠ .object .collect)
    (live : ∀ operand ∈ command.operands, ∀ place, read operand = .object place →
      immediate.isAlive (.object place) = true) :
    Outcome.Mirrored origin waste command.Discreet (deferred.perform read command)
      (immediate.perform read command) := by
  rw [perform_errand tidy.running, perform_errand running]
  by_cases discreet : command.Discreet
  · have outside : ∀ operand ∈ command.operands, (read operand).Outside waste :=
      fun operand member place same => mirrors.outside_of_alive (live operand member place same)
    rw [mirrors.errand discreet outside]
    exact mirrored_undertake mirrors tidy paired also covered (deferred.account read command)
      offered collects live
  · exact mirrored_indiscreet mirrors discreet collects

end Commands

end Requests

end World

end ScriptSignal
