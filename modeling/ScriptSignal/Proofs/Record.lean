import ScriptSignal.Proofs.Calls

/-!
# Requests and the record of lives

A client's requests drive one small machine for each handle that a construction returned to
it. Beside the runs of the engine stands a record of these machines, which looks at nothing
but the requests, their answers, and which objects were reclaimed. What a request leaves to
be done comes to what the record says, unless an object is reclaimed on the way.
-/

namespace ScriptSignal

set_option autoImplicit false

inductive Request
  | call (call : Call)
  | finalize (bridge : BridgeId) (handle : Value)
  | finalizeNow (handle : Value)
  | other

def Request.ofFunction (function : Option NativeFunction) (receiver : Value)
    (arguments : List Value) : Request :=
  match function with
  | some (.signal bridge entry) => .call ⟨bridge, entry, .script, receiver, arguments⟩
  | _ => .other

def Errand.request : Errand → Request
  | .finalizeNow handle => .finalizeNow handle
  | .call function receiver arguments => .ofFunction (some function) receiver arguments
  | .enter bridge entry receiver arguments =>
      .call ⟨bridge, entry, .direct, receiver, arguments⟩
  | .finalize bridge handle => .finalize bridge handle
  | _ => .other

namespace World

def request (world : World) (read : Operand → Value) : Command → Request
  | .object (.finalizeNow handle) => .finalizeNow (read handle)
  | .classes (.construct name target arguments) =>
      .ofFunction ((world.engine.registry.find? name).map ClassRecord.constructor)
        (target.elim .undefined read) (arguments.map read)
  | .classes (.callMethod receiver name arguments) =>
      .ofFunction ((world.classOf? (read receiver)).bind fun classId => world.method? classId name)
        (read receiver) (arguments.map read)
  | .classes (.callClassMethod className name receiver arguments) =>
      .ofFunction ((world.engine.registry.idOf? className).bind fun classId =>
        world.method? classId name) (read receiver) (arguments.map read)
  | .bridge (.enter name entry receiver arguments) =>
      (world.client.bridges.find? name).elim .other fun bridge =>
        .call ⟨bridge, entry, .direct, read receiver, arguments.map read⟩
  | .bridge (.finalize name handle) =>
      (world.client.bridges.find? name).elim .other fun bridge => .finalize bridge (read handle)
  | _ => .other

def fulfil (world : World) : Request → Option Outcome
  | .call call => some (world.place call)
  | .finalize bridge handle => some (world.finalizeThrough bridge handle)
  | .finalizeNow handle =>
      some ((world.finalizeNow handle).1.after (world.finalizeNow handle).2 .nothing)
  | .other => none

section Requests

variable {world : World} {read : Operand → Value} {command : Command}

theorem request_calling (function : Option NativeFunction) (missing : Exception)
    (receiver : Value) (arguments : List Value) :
    (Errand.calling function missing receiver arguments).request =
      .ofFunction function receiver arguments := by
  cases function with
  | none => rfl
  | some found => cases found <;> rfl

theorem request_at_bridge (name : String) (errand : BridgeId → Errand) :
    (world.atBridge name errand).request =
      (world.client.bridges.find? name).elim .other fun id => (errand id).request := by
  unfold atBridge
  cases world.client.bridges.find? name <;> rfl

theorem request_errand (command : Command) :
    (world.errand read command).request = world.request read command := by
  cases command with
  | value command => cases command <;> rfl
  | object command =>
      cases command with
      | toInt32 value =>
          simp only [errand, request]
          split <;> rfl
      | _ => rfl
  | classes command =>
      cases command with
      | construct name target arguments => exact request_calling _ _ _ _
      | callMethod receiver name arguments => exact request_calling _ _ _ _
      | callClassMethod className name receiver arguments =>
          simp only [errand, request]
          cases world.engine.registry.idOf? className with
          | none => rfl
          | some classId => exact request_calling _ _ _ _
      | _ => rfl
  | bridge command =>
      simp only [errand, request]
      cases command with
      | describe name | isBound name _ =>
          rw [request_at_bridge]
          cases world.client.bridges.find? name <;> rfl
      | enter name _ _ _ | finalize name _ => exact request_at_bridge name _
      | _ => rfl
  | reference command => cases command <;> rfl
  | state command => cases command <;> rfl
  | shutDown => rfl

theorem undertake_request {errand : Errand} {outcome : Outcome}
    (meant : world.fulfil errand.request = some outcome) : world.undertake errand = outcome := by
  cases errand with
  | finalizeNow value | finalize bridge handle | enter bridge entry receiver arguments =>
      exact Option.some.inj meant
  | call function receiver arguments =>
      cases function with
      | signal bridge entry => exact Option.some.inj meant
      | script body => cases meant
  | _ => cases meant

theorem perform_request {outcome : Outcome} (running : world.engine.running = true)
    (meant : world.fulfil (world.request read command) = some outcome) :
    world.perform read command = outcome := by
  rw [perform_errand running]
  rw [← request_errand] at meant
  exact undertake_request meant

/-- On a world of Signals only, an errand that means nothing for Signals is slight. -/
theorem slight_of_request (tidy : world.Tidy) (offered : command.Offered)
    {errand : Errand} (account : world.Account read command errand)
    (asks : errand.request = .other) : errand.Slight := by
  cases account with
  | call owns offers receives listed =>
      obtain ⟨bridge, entry, rfl⟩ := of_bridge_of_offers tidy offers
      cases asks
  | finalizeNow | enter | finalize => cases asks
  | setSlot | shutDown => exact offered.elim
  | _ => trivial

theorem plain_perform (tidy : world.Tidy) (grounded : world.Grounded) (offered : command.Offered)
    (known : ∀ operand ∈ command.operands, (read operand).Within world.size)
    (made : AllWithin world.size command.made)
    (asks : world.request read command = .other) :
    Outcome.Plain world (world.perform read command) := by
  have account := world.account read command
  rw [perform_errand tidy.running]
  rw [← request_errand] at asks
  exact plain_undertake grounded account (slight_of_request tidy offered account asks) known made

end Requests

end World

/-- The lives of all handles that a bridge's construction returned. -/
abbrev Lives := BridgeId → Value → Option Life

namespace Lives

def nobody : Lives := fun _ _ => none

/-- A handle that was never returned is as good as finalized. -/
def of (lives : Lives) (bridge : BridgeId) (handle : Value) : Life :=
  (lives bridge handle).getD .finalized

def add (lives : Lives) (bridge : BridgeId) (handle : Value) (linked : Bool) : Lives :=
  fun other value =>
    if other = bridge ∧ value = handle then some (.empty linked) else lives other value

def write (lives : Lives) (bridge : BridgeId) (handle : Value) (life : Life) : Lives :=
  fun other value =>
    if other = bridge ∧ value = handle then (lives other value).map fun _ => life
    else lives other value

def finalize (lives : Lives) (ends : Value → Bool) : Lives := fun other value =>
  if ends value then (lives other value).map fun _ => .finalized else lives other value

def expected (lives : Lives) (world : World) (call : Call) : Option Life.Result :=
  (lives.of call.bridge call.receiver).enter (world.config call.bridge) world.isFunction
    call.arguments call.entry

/-- A construction is known by its answer. -/
def construct (lives : Lives) (call : Call) (reply : Reply) : Lives :=
  match reply with
  | .value handle => lives.add call.bridge handle (call.arguments.any Value.isObject)
  | _ => lives

def call (lives : Lives) (world : World) (call : Call) (reply : Reply) : Lives :=
  match lives.expected world call with
  | some result =>
      lives.write call.bridge call.receiver
        ((lives.of call.bridge call.receiver).next result)
  | none => lives.construct call reply

def request (lives : Lives) (world : World) (reply : Reply) : Request → Lives
  | .call call => lives.call world call reply
  | .finalize bridge handle => lives.write bridge handle .finalized
  | .finalizeNow handle => lives.finalize (· = handle)
  | .other => lives

/-- The lives after a request that was carried out. With an object that is reclaimed its life
ends. -/
def after (lives : Lives) (machine : Machine) (command : Command) (ended : Machine) : Lives :=
  (lives.request machine.world ended.frame.reply
    (machine.world.request machine.read command)).finalize fun handle =>
      !ended.world.isAlive handle

section Record

variable {lives : Lives} {bridge : BridgeId} {handle : Value}

theorem of_write {life : Life} (stays : lives bridge handle = none → life = .finalized)
    (other : BridgeId) (value : Value) :
    (lives.write bridge handle life).of other value =
      if other = bridge ∧ value = handle then life else lives.of other value := by
  unfold of write
  split
  · rename_i here
    obtain ⟨rfl, rfl⟩ := here
    cases found : lives other value with
    | none => exact (stays found).symm
    | some old => rfl
  · rfl

theorem of_add (linked : Bool) (other : BridgeId) (value : Value) :
    (lives.add bridge handle linked).of other value =
      if other = bridge ∧ value = handle then .empty linked else lives.of other value := by
  unfold of add
  split <;> rfl

theorem of_finalize (ends : Value → Bool) (other : BridgeId) (value : Value) :
    (lives.finalize ends).of other value =
      if ends value then .finalized else lives.of other value := by
  unfold of finalize
  split
  · cases lives other value <;> rfl
  · rfl

theorem expected_eq_none_iff {world : World} {call : Call} :
    lives.expected world call = none ↔ call.entry = .construct := by
  unfold expected Life.enter
  cases call.entry <;> simp

/-- What a call is to come to leaves a finalized receiver finalized. -/
theorem next_of_expected {world : World} {call : Call} {result : Life.Result}
    (gone : lives.of call.bridge call.receiver = .finalized)
    (expected : lives.expected world call = some result) :
    (lives.of call.bridge call.receiver).next result = .finalized := by
  unfold Lives.expected at expected
  rw [gone] at expected ⊢
  exact Life.next_of_finalized expected

/-- A finalized handle stays finalized, unless a construction returns it again. -/
theorem finalized_of_finalized (ended : lives bridge handle = some .finalized)
    {machine later : Machine} {command : Command}
    (fresh : ∀ call, machine.world.request machine.read command = .call call →
      call.entry = .construct → later.frame.reply = .value handle → call.bridge ≠ bridge) :
    lives.after machine command later bridge handle = some .finalized := by
  have kept : ∀ record : Lives, record bridge handle = some .finalized →
      ∀ ends, record.finalize ends bridge handle = some .finalized := by
    intro record same ends
    unfold finalize
    split <;> simp [same]
  apply kept
  cases asked : machine.world.request machine.read command with
  | call call =>
      simp only [request, Lives.call]
      cases expected : lives.expected machine.world call with
      | some result =>
          simp only [write]
          split
          · rename_i here
            obtain ⟨rfl, rfl⟩ := here
            have gone : lives.of call.bridge call.receiver = .finalized := by
              simp [of, ended]
            rw [next_of_expected gone expected, ended]
            rfl
          · exact ended
      | none =>
          have construct := expected_eq_none_iff.1 expected
          cases reply : later.frame.reply with
          | value returned =>
              simp only [Lives.construct, add]
              split
              · rename_i here
                obtain ⟨rfl, rfl⟩ := here
                exact absurd rfl (fresh call asked construct reply)
              · exact ended
          | _ => exact ended
  | finalize other value =>
      simp only [request, write]
      split <;> simp [ended]
  | finalizeNow value => exact kept lives ended fun other => other = value
  | other => exact ended

/-- A handle that is alive when a construction returns it begins its life empty. -/
theorem after_construct {machine later : Machine} {command : Command} {call : Call}
    (asks : machine.world.request machine.read command = .call call)
    (construct : call.entry = .construct) (returned : later.frame.reply = .value handle)
    (alive : later.world.isAlive handle = true) :
    lives.after machine command later call.bridge handle =
      some (.empty (call.arguments.any Value.isObject)) := by
  have unknown : lives.expected machine.world call = none := expected_eq_none_iff.2 construct
  simp [after, request, Lives.call, asks, returned, unknown, Lives.construct, finalize, alive, add]

theorem old_or_returned {machine later : Machine} {command : Command}
    (listed : lives.after machine command later bridge handle ≠ none) :
    lives bridge handle ≠ none ∨ ∃ call,
      machine.world.request machine.read command = .call call ∧ call.entry = .construct ∧
        later.frame.reply = .value handle := by
  by_cases old : lives bridge handle = none
  · right
    have before : lives.request machine.world later.frame.reply
        (machine.world.request machine.read command) bridge handle ≠ none := by
      intro missing
      apply listed
      unfold after finalize
      split <;> simp [missing]
    cases asked : machine.world.request machine.read command with
    | call call =>
        rw [asked] at before
        simp only [request, Lives.call] at before
        cases expected : lives.expected machine.world call with
        | some result => simp [expected, write, old] at before
        | none =>
            have construct := expected_eq_none_iff.1 expected
            rw [expected] at before
            refine ⟨call, rfl, construct, ?_⟩
            cases reply : later.frame.reply with
            | value returned =>
                simp only [reply, Lives.construct, add] at before
                split at before
                · rename_i here
                  rw [here.2]
                · exact absurd old before
            | _ => exact absurd old (by simpa [reply, Lives.construct] using before)
    | finalize other value => simp [asked, request, write, old] at before
    | finalizeNow value => simp [asked, request, finalize, old] at before
    | other => simp [asked, request, old] at before
  · exact .inl old

end Record

end Lives

def Task.living (bridge : BridgeId) (handle : Value) (life : Life) : Task → Life
  | .bind id _ bound link => if bridge = id ∧ handle = bound then .empty link.isSome else life
  | _ => life

namespace World

/-- The life of a handle once these tasks are done, unless its object is reclaimed. -/
def prospect (world : World) (tasks : List Task) (bridge : BridgeId) (handle : Value) : Life :=
  tasks.foldl (Task.living bridge handle) (world.life bridge handle)

section Prospects

variable {world before after : World} {read : Operand → Value} {command : Command}

theorem living_of_unbinding {tasks : List Task} (free : ∀ task ∈ tasks, ¬task.Binds)
    (bridge : BridgeId) (handle : Value) (life : Life) :
    tasks.foldl (Task.living bridge handle) life = life := by
  induction tasks with
  | nil => rfl
  | cons task rest induction =>
      have same : Task.living bridge handle life task = life := by
        cases task with
        | bind id route bound link => exact absurd trivial (free _ List.mem_cons_self)
        | _ => rfl
      rw [List.foldl_cons, same]
      exact induction fun other member => free other (List.mem_cons_of_mem _ member)

theorem prospect_of_plain {outcome : Outcome} (plain : outcome.Plain world) (bridge : BridgeId)
    (handle : Value) : outcome.1.prospect outcome.2 bridge handle = world.life bridge handle := by
  unfold prospect
  rw [living_of_unbinding fun task member => (plain.ordinary task member).not_binds]
  exact plain.changes.life bridge handle

theorem prospect_of_obeys {bridge : BridgeId} {receiver : Value} {route : Route}
    {result : Life.Result} {outcome : Outcome}
    (obeys : outcome.Obeys world bridge receiver route result) (other : BridgeId) (value : Value) :
    outcome.1.prospect outcome.2 other value =
      if other = bridge ∧ value = receiver then (world.life bridge receiver).next result
      else world.life other value := by
  unfold prospect
  rw [living_of_unbinding obeys.unbinding]
  exact obeys.lives other value

theorem prospect_call {lives : Lives} (paired : world.Paired)
    (agree : ∀ bridge handle, world.life bridge handle = lives.of bridge handle) (call : Call)
    {reply : Reply} (answered : ∀ promised, Promising promised (world.place call).2 →
      reply = promised) (bridge : BridgeId) (handle : Value) :
    (world.place call).1.prospect (world.place call).2 bridge handle =
      (lives.call world call reply).of bridge handle := by
  have same : world.result? call = lives.expected world call := by
    unfold result? Lives.expected
    rw [agree]
  unfold Lives.call
  cases expected : lives.expected world call with
  | some result =>
      rw [prospect_of_obeys (obeys_place paired (same.trans expected)), Lives.of_write, agree,
        agree]
      intro unknown
      have gone : lives.of call.bridge call.receiver = .finalized := by simp [Lives.of, unknown]
      exact Lives.next_of_expected gone expected
  | none =>
      have construct := Lives.expected_eq_none_iff.1 expected
      have constructs := @constructs_place world call construct
      generalize world.place call = outcome at constructs answered
      cases constructs with
      | @failed later tasks failure changes unbinding answers =>
          have failed := answered _ answers
          have kept : lives.construct call reply = lives := by
            cases reply with
            | value value => exact absurd failed.symm (reply_error_ne_value call.route _ value)
            | _ => rfl
          simp only
          rw [kept, ← agree]
          unfold prospect
          rw [living_of_unbinding unbinding]
          exact changes.life bridge handle
      | @made later proto new link late changes fresh alive links closing =>
          have promised : reply = .value (.object new) :=
            answered _ (promising_bind _ call.bridge call.route (.object new) link closing)
          subst promised
          have quiet : ∀ task ∈ late, ¬task.Binds := fun task member =>
            (closing task member).silent.not_binds
          simp only [Lives.construct]
          rw [Lives.of_add, ← links, ← agree]
          simp only [prospect, List.foldl_cons]
          rw [living_of_unbinding quiet]
          simp only [Task.living]
          rw [changes.life]

/-- To finalize through a bridge ends the life of the handle there. -/
theorem prospect_finalize_through (paired : world.Paired) (id : BridgeId) (value : Value)
    (bridge : BridgeId) (handle : Value) :
    (world.finalizeThrough id value).1.prospect (world.finalizeThrough id value).2 bridge handle =
      if bridge = id ∧ handle = value then .finalized else world.life bridge handle := by
  have unbinding : ∀ task ∈ (world.finalizeThrough id value).2, ¬task.Binds := by
    intro task member
    rcases List.mem_append.1 member with early | late
    · obtain ⟨held, rfl⟩ := drops_of_finalize_signal _ id value task early
      exact fun binds => binds
    · simp only [List.mem_cons, List.not_mem_nil, or_false] at late
      rcases late with rfl | rfl <;> exact fun binds => binds
  unfold prospect
  rw [living_of_unbinding unbinding, ← (changes_begin_call world id).life bridge handle]
  exact life_finalize_signal (paired.begin_call id) id value bridge handle

theorem life_of_not_object (world : World) (bridge : BridgeId) {value : Value}
    (plain : value.object? = none) : world.life bridge value = .finalized := by
  apply life_of_dead
  simp [isAlive, object?, plain]

/-- The engine's finalizer ends the life of the handle at every bridge. -/
theorem prospect_finalize_now (coherent : world.Coherent) (value : Value) (bridge : BridgeId)
    (handle : Value) :
    (world.finalizeNow value).1.prospect ((world.finalizeNow value).2 ++ [.answer .nothing])
        bridge handle =
      if handle = value then .finalized else world.life bridge handle := by
  have regular := regular_finalize_now coherent.grounded value
  have unbinding : ∀ task ∈ (world.finalizeNow value).2 ++ [Task.answer .nothing],
      ¬task.Binds := by
    intro task member
    rcases List.mem_append.1 member with early | late
    · exact (regular.ordinary task early).not_binds
    · cases List.mem_singleton.1 late
      exact fun binds => binds
  unfold prospect
  rw [living_of_unbinding unbinding]
  cases value with
  | object id => exact life_run_finalizer coherent.paired coherent.tidy id bridge handle
  | _ =>
      split
      · rename_i same
        rw [same]
        exact life_of_not_object world bridge rfl
      · rfl

/-- The record tells of every request what its tasks will come to. -/
theorem prospect_perform {lives : Lives} (coherent : world.Coherent)
    (agree : ∀ bridge handle, world.life bridge handle = lives.of bridge handle)
    (offered : command.Offered)
    (known : ∀ operand ∈ command.operands, (read operand).Within world.size)
    (made : AllWithin world.size command.made) {reply : Reply}
    (answered : ∀ promised, Promising promised (world.perform read command).2 → reply = promised)
    (bridge : BridgeId) (handle : Value) :
    (world.perform read command).1.prospect (world.perform read command).2 bridge handle =
      (lives.request world reply (world.request read command)).of bridge handle := by
  have running := coherent.tidy.running
  cases asked : world.request read command with
  | call call =>
      have performed : world.perform read command = world.place call :=
        perform_request running (by rw [asked]; rfl)
      rw [performed] at answered ⊢
      exact prospect_call coherent.paired agree call answered bridge handle
  | finalize id value =>
      have performed : world.perform read command = world.finalizeThrough id value :=
        perform_request running (by rw [asked]; rfl)
      rw [performed, prospect_finalize_through coherent.paired, Lives.request,
        Lives.of_write fun _ => rfl, agree]
  | finalizeNow value =>
      have performed : world.perform read command =
          (world.finalizeNow value).1.after (world.finalizeNow value).2 .nothing :=
        perform_request running (by rw [asked]; rfl)
      have ended := prospect_finalize_now coherent value bridge handle
      rw [performed, Lives.request, Lives.of_finalize, ← agree]
      simpa only [World.after, decide_eq_true_eq] using ended
  | other =>
      exact (prospect_of_plain (plain_perform coherent.tidy coherent.grounded offered known made
        asked) bridge handle).trans (agree bridge handle)

end Prospects

end World

end ScriptSignal
