import ScriptSignal.Proofs.Lives

/-!
# What calls come to

A call on a handle is answered at once, or after the references that it lets go are given
back, and what is answered follows from the life of the receiver. A construction is answered
once its handle is bound.
-/

namespace ScriptSignal

set_option autoImplicit false

def Task.Silent : Task → Prop
  | .answer _ | .bind _ _ _ _ | .reportCollection _ => False
  | task => task.Native

def Task.Closes : Task → Prop
  | .endCall _ | .finish _ => True
  | _ => False

def Task.Gives (reply : Reply) : Task → Prop
  | .answer given => given = reply
  | .bind _ route handle _ => route.reply (.ok handle) = reply
  | _ => False

def Promising (reply : Reply) (tasks : List Task) : Prop :=
  ∃ early asked late, tasks = early ++ asked :: late ∧ asked.Gives reply ∧
    ∀ task ∈ late, task.Silent

theorem Task.Closes.silent {task : Task} (closes : task.Closes) : task.Silent := by
  cases task <;> trivial

theorem Task.Silent.not_binds {task : Task} (silent : task.Silent) : ¬task.Binds := by
  cases task with
  | bind bridge route handle link => exact silent.elim
  | _ => exact fun binds => binds

section Promises

variable {reply : Reply} {tasks : List Task}

theorem promising_answer (early : List Task) : Promising reply (early ++ [.answer reply]) :=
  ⟨early, .answer reply, [], rfl, rfl, by simp⟩

theorem Promising.append (promising : Promising reply tasks) {more : List Task}
    (silent : ∀ task ∈ more, task.Silent) : Promising reply (tasks ++ more) := by
  obtain ⟨early, asked, late, rfl, gives, quiet⟩ := promising
  refine ⟨early, asked, late ++ more, by simp, gives, ?_⟩
  intro task member
  rcases List.mem_append.1 member with old | new
  · exact quiet task old
  · exact silent task new

/-- A construction that comes to its second half answers with the handle. -/
theorem promising_bind (given : Task) (bridge : BridgeId) (route : Route) (handle : Value)
    (link : Option StrongRef) {late : List Task} (closing : ∀ task ∈ late, task.Closes) :
    Promising (.value handle) (given :: .bind bridge route handle link :: late) := by
  refine ⟨[given], .bind bridge route handle link, late, rfl, ?_, ?_⟩
  · cases route <;> rfl
  · exact fun task member => (closing task member).silent

theorem reply_error_ne_value (route : Route) (failure : Failure) (value : Value) :
    route.reply (.error failure) ≠ .value value := by
  cases route <;> simp [Route.reply]

end Promises

/-- What a call on a handle comes to: the life of the receiver goes on as the result says, and
the result is answered. -/
structure Outcome.Obeys (before : World) (bridge : BridgeId) (receiver : Value) (route : Route)
    (result : Life.Result) (outcome : Outcome) : Prop where
  lives : ∀ other value, outcome.1.life other value =
    if other = bridge ∧ value = receiver then (before.life bridge receiver).next result
    else before.life other value
  answers : Promising (route.reply (result.map Prod.fst)) outcome.2
  unbinding : ∀ task ∈ outcome.2, ¬task.Binds

namespace World

section Entries

variable {world : World} {id : BridgeId} {handle : Value} {route : Route}
  {result : Life.Result}

theorem obeys_done (after : World)
    (lives : ∀ other value, after.life other value = world.life other value)
    (same : (world.life id handle).next result = world.life id handle) :
    Outcome.Obeys world id handle route result
      (after.done (route.reply (result.map Prod.fst))) where
  lives := by
    intro other value
    rw [same]
    split
    · rename_i here
      rw [here.1, here.2]
      exact lives id handle
    · exact lives other value
  answers := promising_answer []
  unbinding := by simp [done, Task.Binds]

theorem obeys_failed (failure : Failure) (failed : result = .error failure) :
    Outcome.Obeys world id handle route result (world.done (route.reply (.error failure))) := by
  subst failed
  exact obeys_done world (fun _ _ => rfl) rfl

/-- A function is connected to a bound handle: first the link is looked at, then the slot. -/
theorem obeys_connect_bound (paired : world.Paired) (id : BridgeId) (route : Route)
    {handle callback : Value} {key : Key} {state : SignalState}
    (function : world.isFunction callback = true)
    (bound : world.boundState id handle = .ok (key, state)) :
    Outcome.Obeys world id handle route
      ((world.life id handle).connect (world.config id) world.isFunction [callback])
      (world.connect id route handle [callback]) := by
  have seen := life_of_bound bound
  by_cases unlinked : (world.config id).link = .required ∧ state.link = none
  · have stopped : world.connect id route handle [callback] =
        world.done (route.reply (.error .noLink)) := by
      simp [connect, connectable, function, bound, unlinked]
    rw [stopped]
    apply obeys_failed
    rw [seen]
    cases held : state.callback <;>
      simp [Life.connect, function, SignalState.life, held, Life.isLinked, unlinked]
  · have linked : ¬((world.config id).link = .required ∧
        (world.life id handle).isLinked = false) := by
      rw [seen]
      cases held : state.callback <;>
        simpa [SignalState.life, held, Life.isLinked] using unlinked
    have alive : world.life id handle ≠ .finalized := by
      rw [seen]
      cases held : state.callback <;> simp [SignalState.life, held]
    have result := Life.connect_of_checked function alive linked
    cases held : state.callback with
    | some other =>
        have stopped : world.connect id route handle [callback] =
            world.done (route.reply (.error .alreadyConnected)) := by
          simp [connect, connectable, function, bound, unlinked, held]
        rw [stopped]
        apply obeys_failed
        rw [result, seen]
        simp [SignalState.life, held, Life.fill]
    | none =>
        have empty : world.life id handle = .empty state.link.isSome := by
          rw [seen]
          simp [SignalState.life, held]
        have reached : world.connectable id handle callback = .ok (key, state) := by
          simp [connectable, function, bound, unlinked, held]
        rw [result, empty]
        simp only [connect, reached]
        refine ⟨?_, promising_answer [], by simp [done, Task.Binds]⟩
        intro other value
        have acquired := changes_acquire world callback
        have written := life_write paired bound acquired (state.connected callback)
        exact written other value

theorem obeys_connect (paired : world.Paired) (id : BridgeId) (route : Route) (handle : Value)
    (arguments : List Value) :
    Outcome.Obeys world id handle route
      ((world.life id handle).connect (world.config id) world.isFunction arguments)
      (world.connect id route handle arguments) := by
  match arguments with
  | [] => exact obeys_failed _ rfl
  | _ :: _ :: _ => exact obeys_failed _ rfl
  | [callback] =>
      by_cases function : world.isFunction callback = true
      · cases bound : world.boundState id handle with
        | error failure =>
            have unbound : world.life id handle = .finalized := by simp [life, bound]
            have stopped : world.connect id route handle [callback] =
                world.done (route.reply (.error .noContext)) := by
              simp [connect, connectable, function, bound, failure_of_unbound bound]
            rw [stopped]
            apply obeys_failed
            simp [Life.connect, function, unbound]
        | ok found =>
            obtain ⟨key, state⟩ := found
            exact obeys_connect_bound paired id route function bound
      · have plain : world.isFunction callback = false := by simpa using function
        have stopped : world.connect id route handle [callback] =
            world.done (route.reply (.error .argumentKind)) := by
          simp [connect, connectable, plain]
        rw [stopped]
        apply obeys_failed
        simp [Life.connect, plain]

theorem obeys_disconnect_token (paired : world.Paired) (id : BridgeId) (route : Route)
    (handle value : Value) (token : Int32) (number : value.isNumber = true) :
    Outcome.Obeys world id handle route
      ((world.life id handle).disconnect (world.config id) [value])
      (world.disconnectToken id route handle token) := by
  unfold disconnectToken
  cases config : (world.config id).disconnect with
  | alwaysFalse =>
      have result : (world.life id handle).disconnect (world.config id) [value] =
          .ok (.bool false, world.life id handle) := by
        simp [Life.disconnect, number, config]
      rw [result]
      exact obeys_done world (fun _ _ => rfl) rfl
  | clearSlot =>
      have clears : (world.config id).disconnect ≠ .alwaysFalse := by simp [config]
      cases reached : world.boundKey id handle with
      | error failure =>
          have unbound : world.boundState id handle = .error failure := by
            simp [boundState, reached]
          have seen : world.life id handle = .finalized := by simp [life, unbound]
          rw [failure_of_unbound unbound]
          apply obeys_failed
          simp [Life.disconnect, number, clears, seen]
      | ok key =>
          have same : (world.emit (.disconnecting key token)).state? id key =
              world.state? id key := rfl
          simp only [same]
          cases held : world.state? id key with
          | none =>
              have seen : world.life id handle = .finalized := by
                simp [life, boundState, reached, held]
              have result : (world.life id handle).disconnect (world.config id) [value] =
                  .error .noContext := by
                simp [Life.disconnect, number, clears, seen]
              rw [result]
              exact obeys_done _ (fun _ _ => rfl) rfl
          | some state =>
              have bound : world.boundState id handle = .ok (key, state) := by
                simp [boundState, reached, held]
              have seen := life_of_bound bound
              simp only
              cases callback : state.callback with
              | none =>
                  have result : (world.life id handle).disconnect (world.config id) [value] =
                      .ok (.bool false, world.life id handle) := by
                    simp [Life.disconnect, number, clears, seen, SignalState.life, callback]
                  rw [result]
                  exact obeys_done _ (fun _ _ => rfl) rfl
              | some connected =>
                  have result : (world.life id handle).disconnect (world.config id) [value] =
                      .ok (.bool true, .empty state.link.isSome) := by
                    simp [Life.disconnect, number, clears, seen, SignalState.life, callback]
                  rw [result]
                  refine ⟨?_, promising_answer [.drop connected, .report (.disconnected key)], ?_⟩
                  · intro other value
                    have emitted := changes_emit world (.disconnecting key token)
                    have written := life_write paired bound emitted state.cleared
                    exact written other value
                  · simp [World.after, Task.Binds]

theorem obeys_disconnect (paired : world.Paired) (id : BridgeId) (route : Route) (handle : Value)
    (arguments : List Value) :
    Outcome.Obeys world id handle route
      ((world.life id handle).disconnect (world.config id) arguments)
      (world.disconnect id route handle arguments) := by
  match arguments with
  | [] => exact obeys_failed _ rfl
  | _ :: _ :: _ => exact obeys_failed _ rfl
  | [.int number] => exact obeys_disconnect_token paired id route handle _ number rfl
  | [.float number] => exact obeys_disconnect_token paired id route handle _ number.toInt32 rfl
  | [.undefined] | [.null] | [.bool _] | [.string _] | [.object _] => exact obeys_failed _ rfl

theorem obeys_is_empty (id : BridgeId) (route : Route) (handle : Value)
    (arguments : List Value) :
    Outcome.Obeys world id handle route ((world.life id handle).isEmpty arguments)
      (world.isEmpty id route handle arguments) := by
  match arguments with
  | _ :: _ => exact obeys_failed _ rfl
  | [] =>
      unfold isEmpty
      cases bound : world.boundState id handle with
      | error failure =>
          have seen : world.life id handle = .finalized := by simp [life, bound]
          rw [failure_of_unbound bound]
          apply obeys_failed
          rw [seen]
          rfl
      | ok found =>
          obtain ⟨key, state⟩ := found
          have seen := life_of_bound bound
          have result : (world.life id handle).isEmpty [] =
              .ok (.bool state.callback.isNone, world.life id handle) := by
            rw [seen]
            unfold SignalState.life
            cases state.callback <;> rfl
          rw [result]
          exact obeys_done world (fun _ _ => rfl) rfl

/-- The entry points that take a handle answer as its life has it. -/
theorem obeys_enter_signal (paired : world.Paired) (id : BridgeId) {entry : Entry} (route : Route)
    (handle : Value) (arguments : List Value)
    (entered : (world.life id handle).enter (world.config id) world.isFunction arguments entry =
      some result) :
    Outcome.Obeys world id handle route result
      (world.enterSignal id entry route handle arguments) := by
  cases entry with
  | construct => cases entered
  | connect =>
      cases entered
      exact obeys_connect paired id route handle arguments
  | disconnect =>
      cases entered
      exact obeys_disconnect paired id route handle arguments
  | isEmpty =>
      cases entered
      exact obeys_is_empty id route handle arguments
  | toString =>
      cases entered
      exact obeys_done world (fun _ _ => rfl) rfl

end Entries

end World

/-- What a construction comes to: a failure that changes no life, or a new object that is to
be bound after one reference was given back. -/
inductive Outcome.Constructs (before : World) (bridge : BridgeId) (route : Route)
    (linked : Bool) : Outcome → Prop
  | failed {after : World} {tasks : List Task} {failure : Failure}
      (changes : World.Changes before after) (unbinding : ∀ task ∈ tasks, ¬task.Binds)
      (answers : Promising (route.reply (.error failure)) tasks) :
      Constructs before bridge route linked (after, tasks)
  | made {after : World} {proto : Value} {handle : ObjectId} {link : Option StrongRef}
      {late : List Task} (changes : World.Changes before after)
      (fresh : before.size ≤ handle.index) (alive : after.isAlive (.object handle) = true)
      (links : link.isSome = linked) (closing : ∀ task ∈ late, task.Closes) :
      Constructs before bridge route linked
        (after, .release proto :: .bind bridge route (.object handle) link :: late)

theorem Outcome.Constructs.append {before world after : World} {bridge : BridgeId} {route : Route}
    {linked : Bool} {tasks more : List Task}
    (constructs : Outcome.Constructs world bridge route linked (after, tasks))
    (first : World.Changes before world) (ends : ∀ task ∈ more, task.Closes) :
    Outcome.Constructs before bridge route linked (after, tasks ++ more) := by
  cases constructs with
  | failed changes unbinding answers =>
      refine .failed (first.trans changes) ?_
        (answers.append fun task member => (ends task member).silent)
      intro task member
      rcases List.mem_append.1 member with early | late
      · exact unbinding task early
      · exact (ends task late).silent.not_binds
  | made changes fresh alive links closing =>
      refine .made (first.trans changes) (Nat.le_trans first.persists.size fresh) alive links ?_
      intro task member
      rcases List.mem_append.1 member with early | late
      · exact closing task early
      · exact ends task late

namespace World

section Construction

variable {world before : World} {route : Route}

theorem constructs_failed (changes : Changes before world) (id : BridgeId) (linked : Bool)
    {tasks : List Task} (gives : ∀ task ∈ tasks, task.GivesBack) (failure : Failure) :
    Outcome.Constructs before id route linked
      (world.after tasks (route.reply (.error failure))) := by
  refine .failed changes ?_ (promising_answer tasks)
  intro task member
  rcases List.mem_append.1 member with early | last
  · have giving := gives task early
    cases task with
    | bind bridge route handle link => exact giving.elim
    | _ => exact fun binds => binds
  · cases List.mem_singleton.1 last
    exact fun binds => binds

theorem constructs_linked (changes : Changes before world) (id : BridgeId) (target : Value)
    (link : Option StrongRef) :
    Outcome.Constructs before id route link.isSome
      (world.constructLinked id route target link) := by
  have drops : ∀ task ∈ link.toList.map Task.drop, task.GivesBack := gives_back_drops _
  unfold constructLinked
  dsimp only
  split
  · exact constructs_failed changes id _ drops _
  · rename_i proto found
    have duplicated : Changes before (world.duplicate proto) :=
      changes.trans (changes_duplicate world proto)
    split
    · apply constructs_failed duplicated
      intro task member
      rcases List.mem_cons.1 member with rfl | later
      · trivial
      · exact drops task later
    · rename_i classId ofClass
      obtain ⟨-, defined⟩ := class_of_bridge_of_signal_class ofClass
      have allocated := duplicated.trans
        (@changes_allocate_instance (world.duplicate proto) proto classId defined)
      refine .made allocated duplicated.persists.size ?_ rfl (by simp)
      have made := @kind_next_allocate_instance (world.duplicate proto) proto classId
      exact is_alive_iff.2 (by rw [← nextValue, made]; rfl)

theorem constructs_signal (world : World) (id : BridgeId) (route : Route) (target : Value)
    (arguments : List Value) :
    Outcome.Constructs world id route (arguments.any Value.isObject)
      (world.constructSignal id route target arguments) := by
  have nothing : ∀ task ∈ ([] : List Task), task.GivesBack := by simp
  have failed : ∀ linked failure, Outcome.Constructs world id route linked
      (world.done (route.reply (.error failure))) :=
    fun linked failure => constructs_failed .refl id linked nothing failure
  unfold constructSignal
  split
  · exact constructs_linked .refl id target none
  · exact constructs_linked .refl id target none
  · rename_i object
    exact constructs_linked (changes_acquire world (.object object)) id target
      (some ⟨.object object⟩)
  · exact failed _ _
  · exact failed _ _

end Construction

end World

/-- A call of an entry point of a bridge. -/
structure Call where
  bridge : BridgeId
  entry : Entry
  route : Route
  receiver : Value
  arguments : List Value

namespace World

def place (world : World) (call : Call) : Outcome :=
  match call.route with
  | .direct => world.enterBridge call.bridge call.entry call.receiver call.arguments
  | .script =>
      world.enterSignal call.bridge call.entry .script call.receiver call.arguments

/-- What a call is to come to, for the entry points that take a handle. -/
def result? (world : World) (call : Call) : Option Life.Result :=
  (world.life call.bridge call.receiver).enter (world.config call.bridge) world.isFunction
    call.arguments call.entry

section Placing

variable {world : World}

theorem bridges_begin_call (world : World) (id other : BridgeId) :
    ((world.beginCall id).bridge? other).map (fun bridge => (bridge.classId, bridge.states)) =
      (world.bridge? other).map fun bridge => (bridge.classId, bridge.states) := by
  rw [beginCall, bridge_modify]
  split
  · rename_i same
    subst same
    cases world.bridge? other <;> rfl
  · rfl

theorem Paired.begin_call (paired : world.Paired) (id : BridgeId) : (world.beginCall id).Paired :=
  paired.of_bridges (bridges_begin_call world id) fun _ _ => rfl

theorem config_begin_call (world : World) (id other : BridgeId) :
    (world.beginCall id).config other = world.config other := by
  unfold config
  rw [beginCall, bridge_modify]
  split
  · rename_i same
    subst same
    cases world.bridge? other <;> rfl
  · rfl

/-- A call on a handle does what is expected of it, however the bridge is reached. -/
theorem obeys_place (paired : world.Paired) {call : Call} {result : Life.Result}
    (expected : world.result? call = some result) :
    Outcome.Obeys world call.bridge call.receiver call.route result (world.place call) := by
  obtain ⟨bridge, entry, route, receiver, arguments⟩ := call
  cases route with
  | script => exact obeys_enter_signal paired bridge .script receiver arguments expected
  | direct =>
      have begun : ∀ other value, (world.beginCall bridge).life other value =
          world.life other value := (changes_begin_call world bridge).life
      have entered : ((world.beginCall bridge).life bridge receiver).enter
          ((world.beginCall bridge).config bridge) (world.beginCall bridge).isFunction arguments
          entry = some result := by
        rw [begun, config_begin_call]
        exact expected
      have obeys := obeys_enter_signal (paired.begin_call bridge) bridge .direct receiver arguments
        entered
      refine ⟨?_, obeys.answers.append (by simp [Task.Silent, Task.Native]), ?_⟩
      · intro other value
        have lives := obeys.lives other value
        rw [begun, begun] at lives
        exact lives
      · intro task member
        rcases List.mem_append.1 member with early | last
        · exact obeys.unbinding task early
        · cases List.mem_singleton.1 last
          exact fun binds => binds

theorem constructs_place {call : Call} (construct : call.entry = .construct) :
    Outcome.Constructs world call.bridge call.route (call.arguments.any Value.isObject)
      (world.place call) := by
  obtain ⟨bridge, entry, route, receiver, arguments⟩ := call
  subst construct
  cases route with
  | script => exact constructs_signal world bridge .script receiver arguments
  | direct =>
      have begun := changes_begin_call world bridge
      have constructs :=
          constructs_signal (world.beginCall bridge) bridge .direct receiver arguments
      exact constructs.append begun (by simp [Task.Closes])

end Placing

end World

end ScriptSignal
