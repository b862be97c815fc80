import ScriptSignal.Proofs.Programs
import ScriptSignal.Proofs.Tandem

/-!
# The two modes agree

A client that frees only what it owns, and names only what it has a reference to, cannot tell
whether objects are reclaimed at once or wait for a collection. The machines run side by side,
one request after the other, and the world of the one stays the mirror of the other. A
last collection removes the waste, and then the worlds are in the same state.
-/

namespace ScriptSignal

set_option autoImplicit false

namespace World

structure SameState (world other : World) : Prop where
  objects : ∀ id, (other.engine.heap.get? id).map Object.bare =
    (world.engine.heap.get? id).map Object.bare
  signals : ∀ bridge handle, other.signal? bridge handle = world.signal? bridge handle
  states : ∀ bridge, other.liveStates bridge = world.liveStates bridge
  total : other.engine.finalized = world.engine.finalized
  registry : other.engine.registry = world.engine.registry
  client : other.client = world.client

section States

variable {world other : World}

theorem OneHandleOneState.bound_iff {classId : ClassId} {bridge : BridgeId}
    (together : world.OneHandleOneState classId bridge) (id : ObjectId) :
    id ∈ world.boundInstances classId ↔
      ∃ state, world.signal? bridge (.object id) = some state := by
  have read : world.isBound bridge (.object id) = (world.signal? bridge (.object id)).isSome := by
    unfold World.isBound World.signal?
    cases world.boundState bridge (.object id) <;> rfl
  have bound := together.isBound (.object id)
  rw [read, Option.isSome_iff_exists] at bound
  rw [mem_bound_instances, bound]
  constructor
  · rintro ⟨bits, boundTo⟩
    exact ⟨id, bits, rfl, boundTo⟩
  · rintro ⟨handle, bits, same, boundTo⟩
    cases same
    exact ⟨bits, boundTo⟩

/-- A table holds as many states as there are handles with a state. -/
theorem live_states_of_signals (tidy : world.Tidy) (also : other.Tidy) (paired : world.Paired)
    (alsoPaired : other.Paired) (room : world.Roomy) (alsoRoom : other.Roomy)
    (bridges : ∀ id, (other.bridge? id).map (fun bridge => (bridge.classId, bridge.config)) =
      (world.bridge? id).map fun bridge => (bridge.classId, bridge.config))
    (signals : ∀ bridge handle, other.signal? bridge handle = world.signal? bridge handle)
    (bridge : BridgeId) : other.liveStates bridge = world.liveStates bridge := by
  have bridges := bridges bridge
  cases found : world.bridge? bridge with
  | none =>
      rw [found, Option.map_none, Option.map_eq_none_iff] at bridges
      simp [liveStates, found, bridges]
  | some held =>
      rw [found, Option.map_some, Option.map_eq_some_iff] at bridges
      obtain ⟨later, reached, -⟩ := bridges
      have together := (serves_of_tidy tidy found (room bridge held found)).together
        (paired.agree bridge held found)
      have alsoTogether := (serves_of_tidy also reached (alsoRoom bridge later reached)).together
        (alsoPaired.agree bridge later reached)
      rw [together.counted, alsoTogether.counted]
      apply List.Perm.length_eq
      rw [List.perm_ext_iff_of_nodup nodup_bound_instances nodup_bound_instances]
      intro id
      rw [together.bound_iff, alsoTogether.bound_iff, signals]

theorem Reflects.same_state (reflects : world.Reflects other ∅) (tidy : world.Tidy)
    (also : other.Tidy) (paired : world.Paired) (alsoPaired : other.Paired) (room : world.Roomy)
    (alsoRoom : other.Roomy) : world.SameState other := by
  have mirrors := reflects.mirrors
  have outside : ∀ value : Value, value.Outside ∅ := by simp [Value.Outside]
  have signals : ∀ bridge handle, other.signal? bridge handle = world.signal? bridge handle :=
    fun bridge handle => mirrors.signal (outside handle) bridge
  refine ⟨?_, signals, ?_, ?_, mirrors.registry, mirrors.client⟩
  · intro id
    have same := mirrors.objects id (by simp)
    rw [same, RefGraph.held_by_empty]
    rfl
  · exact live_states_of_signals tidy also paired alsoPaired room alsoRoom
      mirrors.setting.bridges signals
  · simpa using mirrors.total

theorem mirrors_start (origin : World) (setting other : Setting) :
    Mirrors origin ∅ (World.start setting) (World.start other) where
  setting := ⟨rfl, rfl, rfl, fun _ => rfl, rfl⟩
  client := rfl
  total := rfl
  known := by simp
  gone := by simp
  kept := by simp
  bound := by simp
  objects := fun _ _ => rfl
  signals := fun _ _ _ => rfl

end States

end World

namespace Machine

/-- The client owns a reference by its ledger, or keeps one by a name. -/
def Holds (machine : Machine) (owned : List Value) (id : ObjectId) : Prop :=
  .object id ∈ owned ∨ .object id ∈ machine.world.clientReferences

/-- A request that names only objects the client has a reference to, and gives away only what
is in the ledger. -/
structure Careful (machine : Machine) (owned : List Value) (command : Command) : Prop where
  named : ∀ operand ∈ command.operands, ∀ id, machine.read operand = .object id →
    machine.Holds owned id
  made : ∀ id, .object id ∈ command.made → machine.Holds owned id
  owns : ∀ id, (command.given machine.read).count (.object id) ≤ owned.count (.object id)

def ledger (machine : Machine) (owned : List Value) (command : Command) (ended : Machine) :
    List Value :=
  owned.diff (command.given machine.read)
    ++ if command.owning then ended.frame.reply.values else []

/-- All requests of a program are careful when their turn comes. -/
inductive Balanced : Machine → List Value → List Instruction → Prop
  | done {machine : Machine} {owned : List Value} : Balanced machine owned []
  | request {machine : Machine} {owned : List Value} {instruction : Instruction}
      {program : List Instruction} (careful : machine.Careful owned instruction.command)
      (rest : ∀ ended, machine.Completes instruction.step ended →
        Balanced ended (machine.ledger owned instruction.command ended) program) :
      Balanced machine owned (instruction :: program)

structure Alongside (deferred immediate : Machine) (owned : List Value) : Prop where
  ledgered : Ledgered deferred owned
  also : Ledgered immediate owned
  mode : deferred.world.engine.mode = .deferred
  alsoMode : immediate.world.engine.mode = .immediate
  receiver : immediate.frame.receiver = deferred.frame.receiver
  arguments : immediate.frame.arguments = deferred.frame.arguments
  reflects : ∃ waste, deferred.world.Reflects immediate.world waste

inductive Answered (deferred immediate : Machine) (instruction : Instruction)
    (ended mirror : Machine) : Prop
  | intro {waste : Finset ObjectId} {reply mirrored : Reply}
      (reflects : ended.world.Reflects mirror.world waste)
      (framed : ended.frame = { deferred.frame with keep := instruction.keep, reply })
      (alsoFramed : mirror.frame =
        { immediate.frame with keep := instruction.keep, reply := mirrored })
      (values : mirrored.values = reply.values)
      (same : instruction.command.Discreet → mirrored = reply) :
      Answered deferred immediate instruction ended mirror

section Careful

variable {machine : Machine} {owned : List Value} {command : Command}

theorem Careful.honest (careful : machine.Careful owned command)
    (ledgered : Ledgered machine owned) (offered : command.Offered) :
    machine.Honest owned command := by
  have settling := ledgered.settled.2
  have alive : ∀ id, machine.Holds owned id → machine.world.isAlive (.object id) = true := by
    rintro id (listed | held)
    · exact settling.alive_of_root (.owned listed)
    · exact settling.alive_of_root (.client held)
  exact ⟨offered, fun operand member id same => alive id (careful.named operand member id same),
    fun id made => alive id (careful.made id made), careful.owns⟩

end Careful

section Requests

variable {deferred immediate ended mirror : Machine} {owned : List Value}
  {instruction : Instruction}

theorem Alongside.client (alongside : deferred.Alongside immediate owned) :
    immediate.world.client = deferred.world.client := by
  obtain ⟨waste, reflects⟩ := alongside.reflects
  exact reflects.mirrors.client

theorem Alongside.read (alongside : deferred.Alongside immediate owned) :
    immediate.read = deferred.read := by
  funext operand
  unfold Machine.read Frame.read
  rw [alongside.client, alongside.receiver, alongside.arguments]

theorem Alongside.careful (alongside : deferred.Alongside immediate owned) {command : Command} :
    immediate.Careful owned command ↔ deferred.Careful owned command := by
  have holds : ∀ id, immediate.Holds owned id ↔ deferred.Holds owned id := by
    intro id
    simp only [Holds, World.clientReferences, alongside.client]
  constructor
  · rintro ⟨named, made, owns⟩
    simp only [alongside.read, holds] at named made owns
    exact ⟨named, made, owns⟩
  · rintro ⟨named, made, owns⟩
    constructor
    · simpa only [alongside.read, holds] using named
    · simpa only [holds] using made
    · simpa only [alongside.read] using owns

theorem alongside_start {setting other : Setting} (mode : setting.mode = .deferred)
    (alsoMode : other.mode = .immediate) : (start setting).Alongside (start other) [] := by
  have room : (start setting).world.Roomy := by
    intro id bridge found
    cases found
  have ledgered := Ledgered.start setting
  have paired := ledgered.paired room
  have unspent := ledgered.visited.attended.2.unspent rfl rfl
  refine ⟨ledgered, .start other, mode, alsoMode, rfl, rfl, ∅, World.mirrors_start _ _ _, ?_⟩
  exact (World.swept_nothing paired unspent).garbage

theorem Alongside.begin (alongside : deferred.Alongside immediate owned) {waste : Finset ObjectId}
    (reflects : deferred.world.Reflects immediate.world waste)
    (offered : instruction.command.Offered)
    (careful : deferred.Careful owned instruction.command)
    (collects : instruction.command ≠ .object .collect) (paired : deferred.world.Paired)
    (alsoPaired : immediate.world.Paired) :
    ∃ tasks others,
      (deferred.submit instruction.step).step.agenda = tasks ++ [.finish instruction.label] ∧
      (immediate.submit instruction.step).step.agenda = others ++ [.finish instruction.label] ∧
      Outcome.Mirrored deferred.world waste instruction.command.Discreet
        ((deferred.submit instruction.step).step.world, tasks)
        ((immediate.submit instruction.step).step.world, others) := by
  obtain ⟨idle, settling⟩ := alongside.ledgered.settled
  obtain ⟨alsoIdle, alsoSettling⟩ := alongside.also.settled
  have alsoHonest := (alongside.careful.2 careful).honest alongside.also offered
  have mirrored := World.mirrored_perform reflects.mirrors settling.calm.tidy
    alsoSettling.calm.tidy.running paired alsoPaired alsoSettling.covered offered collects
    alsoHonest.live
  obtain ⟨world, agenda⟩ :=
    @step_submit deferred instruction.label instruction.command instruction.keep idle offered
  obtain ⟨alsoWorld, alsoAgenda⟩ :=
    @step_submit immediate instruction.label instruction.command instruction.keep alsoIdle offered
  rw [alongside.read] at mirrored alsoWorld alsoAgenda
  refine ⟨_, _, agenda, alsoAgenda, ?_⟩
  unfold Instruction.step
  rw [world, alsoWorld]
  exact mirrored

/-- A request that is no collection is answered alike. -/
theorem Alongside.request (alongside : deferred.Alongside immediate owned)
    (offered : instruction.command.Offered)
    (careful : deferred.Careful owned instruction.command)
    (collects : instruction.command ≠ .object .collect)
    (completes : deferred.Completes instruction.step ended)
    (also : immediate.Completes instruction.step mirror) (room : ended.world.Roomy)
    (alsoRoom : mirror.world.Roomy) : Answered deferred immediate instruction ended mirror := by
  obtain ⟨waste, reflects⟩ := alongside.reflects
  obtain ⟨idle, settling⟩ := alongside.ledgered.settled
  obtain ⟨alsoIdle, alsoSettling⟩ := alongside.also.settled
  have paired := alongside.ledgered.paired
    (settling.calm.roomy_of_completes idle offered completes room)
  have alsoPaired := alongside.also.paired
    (alsoSettling.calm.roomy_of_completes alsoIdle offered also alsoRoom)
  have left := Underway.begin alongside.ledgered (careful.honest alongside.ledgered offered)
    completes room
  have right := Underway.begin alongside.also
    ((alongside.careful.2 careful).honest alongside.also offered) also alsoRoom
  obtain ⟨tasks, others, agenda, alsoAgenda, begun⟩ :=
    alongside.begin reflects offered careful collects paired alsoPaired
  obtain ⟨one, other, reply, answer, underway, alsoUnderway, framed, alsoFramed, paused⟩ :=
    left.pause right begun agenda alsoAgenda
  have frame := framed.trans (frame_submit idle offered)
  have alsoFrame := alsoFramed.trans (frame_submit alsoIdle offered)
  have mode : one.world.engine.mode = .deferred := by
    rw [← underway.mode, (settling.calm.completed idle offered completes).2.2, alongside.mode]
  have alsoMode : other.world.engine.mode = .immediate := by
    rw [← alsoUnderway.mode, (alsoSettling.calm.completed alsoIdle offered also).2.2,
      alongside.alsoMode]
  obtain ⟨all, mirrors⟩ := underway.reflects alsoUnderway mode alsoMode
    (by rw [frame, alsoFrame]) reflects.garbage paired paused
  refine .intro mirrors ?_ ?_ paused.values paused.same
  · rw [(underway.answers paused.answerable).2, frame]
  · rw [(alsoUnderway.answers paused.also).2, alsoFrame]

theorem Alongside.unspent (alongside : deferred.Alongside immediate owned) (id : ObjectId) :
    ¬immediate.world.Spent id := by
  obtain ⟨idle, attended⟩ := alongside.also.visited.attended
  exact attended.unspent idle (attended.prompt alongside.alsoMode) id

/-- A collection takes the waste of the one machine, and there is none in the other. -/
theorem Alongside.collect (alongside : deferred.Alongside immediate owned) {label : String}
    {keep : Option String} {other : World} {rest : Finset ObjectId}
    (completes : deferred.Completes (.act label (.object .collect) keep) ended)
    (room : deferred.world.Roomy) (alsoRoom : immediate.world.Roomy)
    (idle : immediate.world.Swept [] rest other) (client : other.client = immediate.world.client) :
    ended.world.Reflects other ∅ := by
  obtain ⟨waste, reflects⟩ := alongside.reflects
  obtain ⟨⟨dead, swept⟩, kept, -⟩ := alongside.ledgered.collected room completes
  refine reflects.collect alongside.unspent swept idle (alongside.also.paired alsoRoom) ?_
  rw [client, kept, alongside.client]

/-- Every request keeps the machines alongside of each other, and is answered alike. -/
theorem Alongside.serve (alongside : deferred.Alongside immediate owned)
    (offered : instruction.command.Offered)
    (careful : deferred.Careful owned instruction.command)
    (completes : deferred.CompletesInBounds instruction.step ended)
    (also : immediate.CompletesInBounds instruction.step mirror) (room : ended.world.Roomy)
    (alsoRoom : mirror.world.Roomy) :
    ended.Alongside mirror (deferred.ledger owned instruction.command ended) ∧
      immediate.ledger owned instruction.command mirror =
        deferred.ledger owned instruction.command ended ∧
      (instruction.command.Discreet → mirror.frame.reply = ended.frame.reply) := by
  obtain ⟨idle, settling⟩ := alongside.ledgered.settled
  obtain ⟨alsoIdle, alsoSettling⟩ := alongside.also.settled
  have answered : Answered deferred immediate instruction ended mirror := by
    by_cases collects : instruction.command = .object .collect
    · obtain ⟨label, command, keep⟩ := instruction
      cases collects
      have before := settling.calm.roomy_of_completes idle offered completes.completes room
      have alsoBefore :=
        alsoSettling.calm.roomy_of_completes alsoIdle offered also.completes alsoRoom
      obtain ⟨-, -, reply, framed, plain⟩ :=
        alongside.ledgered.collected before completes.completes
      obtain ⟨⟨rest, swept⟩, client, mirrored, alsoFramed, alsoPlain⟩ :=
        alongside.also.collected alsoBefore also.completes
      have reflects := alongside.collect completes.completes before alsoBefore swept client
      exact .intro reflects framed alsoFramed (alsoPlain.trans plain.symm) False.elim
    · exact alongside.request offered careful collects completes.completes also.completes room
        alsoRoom
  obtain ⟨reflects, framed, alsoFramed, values, same⟩ := answered
  have honest := careful.honest alongside.ledgered offered
  have alsoHonest := (alongside.careful.2 careful).honest alongside.also offered
  have answers : mirror.frame.reply.values = ended.frame.reply.values := by
    rw [framed, alsoFramed, values]
  have ledgers : immediate.ledger owned instruction.command mirror =
      deferred.ledger owned instruction.command ended := by
    unfold ledger
    rw [alongside.read, answers]
  have alsoLedgered : Ledgered mirror (immediate.ledger owned instruction.command mirror) :=
    alongside.also.serve alsoHonest also
  rw [ledgers] at alsoLedgered
  refine ⟨⟨alongside.ledgered.serve honest completes, alsoLedgered, ?_, ?_, ?_, ?_, _, reflects⟩,
    ledgers, ?_⟩
  · rw [(settling.calm.completed idle offered completes.completes).2.2, alongside.mode]
  · rw [(alsoSettling.calm.completed alsoIdle offered also.completes).2.2, alongside.alsoMode]
  · rw [framed, alsoFramed, alongside.receiver]
  · rw [framed, alsoFramed, alongside.arguments]
  · rw [framed, alsoFramed]
    exact same

/-- The state after a collection is that of the machine that needs none. -/
theorem Alongside.same_state (alongside : deferred.Alongside immediate owned) {label : String}
    {keep : Option String}
    (completes : deferred.CompletesInBounds (.act label (.object .collect) keep) ended)
    (room : ended.world.Roomy) (alsoRoom : immediate.world.Roomy) :
    ended.world.SameState immediate.world := by
  obtain ⟨idle, settling⟩ := alongside.ledgered.settled
  let collection : Instruction := ⟨label, .object .collect, keep⟩
  have offered : collection.command.Offered := trivial
  have before := settling.calm.roomy_of_completes idle offered completes.completes room
  have honest : deferred.Honest owned collection.command :=
    honest_of_no_operands offered rfl rfl rfl
  have collected := alongside.ledgered.serve honest completes
  have paired := alongside.also.paired alsoRoom
  have nothing := World.swept_nothing paired alongside.unspent
  have reflects := alongside.collect completes.completes before alsoRoom nothing rfl
  exact reflects.same_state collected.settled.2.calm.tidy alongside.also.settled.2.calm.tidy
    (collected.paired room) paired room alsoRoom

end Requests

section Programs

variable {deferred immediate ended mirror : Machine} {owned : List Value}
  {program : List Instruction} {replies mirrored : List Reply}

/-- The answers are the same where they say nothing of counts and keys. -/
def SameAnswers (program : List Instruction) (replies mirrored : List Reply) : Prop :=
  ∀ (index : Nat) (instruction : Instruction), program[index]? = some instruction →
    instruction.command.Discreet → mirrored[index]? = replies[index]?

theorem Alongside.run (alongside : deferred.Alongside immediate owned)
    (offered : ∀ instruction ∈ program, instruction.command.Offered)
    (balanced : deferred.Balanced owned program ∨ immediate.Balanced owned program)
    (executes : deferred.ExecutesInBounds program replies ended)
    (also : immediate.ExecutesInBounds program mirrored mirror) (room : ended.world.Roomy)
    (alsoRoom : mirror.world.Roomy) :
    (∃ ledger, ended.Alongside mirror ledger) ∧ SameAnswers program replies mirrored := by
  induction executes generalizing immediate mirrored owned with
  | done machine =>
      cases also
      exact ⟨⟨owned, alongside⟩, by simp [SameAnswers]⟩
  | @serve machine middle ended instruction program replies completes rest induction =>
      cases also with
      | @serve _ alsoMiddle _ _ _ mirrored alsoCompletes alsoRest =>
          have first := offered instruction List.mem_cons_self
          have others := fun other member => offered other (List.mem_cons_of_mem instruction member)
          obtain ⟨idle, settling⟩ := alongside.ledgered.settled
          obtain ⟨alsoIdle, alsoSettling⟩ := alongside.also.settled
          obtain ⟨waits, calm, -⟩ := settling.calm.completed idle first completes.completes
          obtain ⟨alsoWaits, alsoCalm, -⟩ :=
            alsoSettling.calm.completed alsoIdle first alsoCompletes.completes
          have careful : machine.Careful owned instruction.command := by
            rcases balanced with one | other
            · cases one with
              | request careful later => exact careful
            · cases other with
              | request careful later => exact alongside.careful.1 careful
          obtain ⟨next, ledgers, same⟩ := alongside.serve first careful completes alsoCompletes
            (calm.roomy_of_executes waits others rest.executes room)
            (alsoCalm.roomy_of_executes alsoWaits others alsoRest.executes alsoRoom)
          have later : middle.Balanced (machine.ledger owned instruction.command middle) program ∨
              alsoMiddle.Balanced (machine.ledger owned instruction.command middle) program := by
            rcases balanced with one | other
            · cases one with
              | request careful later => exact .inl (later middle completes.completes)
            · cases other with
              | request careful later =>
                  rw [← ledgers]
                  exact .inr (later alsoMiddle alsoCompletes.completes)
          obtain ⟨alongsideEnd, answers⟩ := induction next others later alsoRest room
          refine ⟨alongsideEnd, ?_⟩
          intro index other asked discreet
          cases index with
          | zero =>
              cases asked
              exact congrArg some (same discreet)
          | succ index => exact answers index other asked discreet

end Programs

/-- Whatever a client of Signals asks for, as long as it frees only what it owns and names only
what it has a reference to, both modes carry its program out. Their answers are the same, except for
counts and keys, and a collection after that leaves the same objects, Signals and numbers of states
where objects wait as there are where they are reclaimed at once. The two may enumerate what objects
own in different orders. It takes that counts stay in bounds at every step of both runs, and that 32
bits number the slots of every table, or two states would have one key. -/
theorem modes_agree {setting other : Setting} (mode : setting.mode = .deferred)
    (alsoMode : other.mode = .immediate) {program : List Instruction}
    (offered : ∀ instruction ∈ program, instruction.command.Offered)
    (balanced : (start setting).Balanced [] program ∨ (start other).Balanced [] program)
    (label : String) (keep : Option String) :
    (∃ replies ended collected, (start setting).Executes program replies ended ∧
      ended.Completes (.act label (.object .collect) keep) collected) ∧
    (∃ mirrored mirror, (start other).Executes program mirrored mirror) ∧
    ∀ replies ended collected mirrored mirror,
      (start setting).ExecutesInBounds program replies ended →
      ended.CompletesInBounds (.act label (.object .collect) keep) collected →
      (start other).ExecutesInBounds program mirrored mirror →
      collected.world.Roomy → mirror.world.Roomy →
      SameAnswers program replies mirrored ∧ collected.world.SameState mirror.world := by
  have waits := calm_start setting
  have prompt := calm_start other
  let collection : Instruction := ⟨label, .object .collect, keep⟩
  have collects : collection.command.Offered := trivial
  refine ⟨?_, ?_, ?_⟩
  · obtain ⟨replies, ended, executes, idle, calm⟩ := waits.executes rfl offered
    obtain ⟨collected, completes, -⟩ := calm.completes idle collects label keep
    exact ⟨replies, ended, collected, executes, completes⟩
  · obtain ⟨mirrored, mirror, executes, -⟩ := prompt.executes rfl offered
    exact ⟨mirrored, mirror, executes⟩
  · intro replies ended collected mirrored mirror executes completes also room alsoRoom
    obtain ⟨idle, calm⟩ := waits.executed rfl offered executes.executes
    have before := @Calm.roomy_of_completes ended collected collection calm idle collects
      completes.completes room
    obtain ⟨⟨ledger, alongside⟩, answers⟩ :=
      (alongside_start mode alsoMode).run offered balanced executes also before alsoRoom
    exact ⟨answers, alongside.same_state completes room alsoRoom⟩

def checkBalanced (fuel : Nat) : Machine → List Value → List Instruction → Bool
  | _, _, [] => true
  | machine, owned, instruction :: program =>
      let ended := (machine.submit instruction.step).run fuel
      machine.checkNamed (fun value =>
          value ∈ owned || value ∈ machine.world.clientReferences) instruction.command &&
        machine.checkGiven owned instruction.command && ended.agenda.isEmpty &&
          checkBalanced fuel ended (machine.ledger owned instruction.command ended) program

theorem balanced_of_check {fuel : Nat} {machine : Machine} {owned : List Value}
    {program : List Instruction} (checked : checkBalanced fuel machine owned program = true) :
    machine.Balanced owned program := by
  induction program generalizing machine owned with
  | nil => exact .done
  | cons instruction program induction =>
      simp only [checkBalanced, Bool.and_eq_true] at checked
      obtain ⟨⟨⟨names, given⟩, idle⟩, later⟩ := checked
      obtain ⟨named, made⟩ := named_of_check names
      refine .request ⟨?_, ?_, given_of_check given⟩ fun ended completes => ?_
      · intro operand member id same
        simpa [Holds] using named operand member id same
      · intro id makes
        simpa [Holds] using made id makes
      · have completed : machine.Completes instruction.step _ :=
          ⟨fuel, rfl, List.isEmpty_iff.1 idle⟩
        rw [completed.unique completes]
        exact induction later

def reversed : Enumeration := ⟨fun _ values => values.reverse, fun _ values => values.reverse_perm⟩

def immediateReversed : Setting := { mode := .immediate, order := reversed }

/-- An object and a Signal are the properties of another object, and this is given up. -/
def releasing : List Instruction :=
  [⟨"install", .bridge (.install "signals" {}), none⟩,
    ⟨"bag", .object .create, some "bag"⟩,
    ⟨"object", .object .create, some "object"⟩,
    ⟨"function", .object (.createFunction "listener"), some "listener"⟩,
    ⟨"construct", .bridge (.enter "signals" .construct (.literal .undefined) []), some "signal"⟩,
    ⟨"connect", .bridge (.enter "signals" .connect (.register "signal") [.register "listener"]),
      none⟩,
    ⟨"first", .object (.setProperty (.register "bag") "first" (.register "object")), none⟩,
    ⟨"last", .object (.setProperty (.register "bag") "last" (.register "signal")), none⟩,
    ⟨"release", .object (.release (.register "bag")), none⟩]

theorem balanced_releasing : (start immediateReversed).Balanced [] releasing :=
  @balanced_of_check 20 _ _ _ rfl

def deferredReleased : Machine := runAll 20 (start .deferred) (releasing.map Instruction.step)

def immediateReleased : Machine :=
  runAll 20 (start immediateReversed) (releasing.map Instruction.step)

def collectedReleased : Machine :=
  (deferredReleased.submit (.act "collect" (.object .collect) none)).run 20

def reclamations : List Event := [.reclaimed ⟨2⟩, .reclaimed ⟨4⟩]

/-- The object and the Signal are reclaimed in different orders. -/
theorem modes_agree_on_reversed_order : ∃ replies mirrored,
    (start .deferred).ExecutesInBounds releasing replies deferredReleased ∧
      (start immediateReversed).ExecutesInBounds releasing mirrored immediateReleased ∧
      deferredReleased.world.engine.finalized = 0 ∧ immediateReleased.world.engine.finalized = 3 ∧
      collectedReleased.world.events.toList.filter (· ∈ reclamations) = reclamations ∧
      immediateReleased.world.events.toList.filter (· ∈ reclamations) = reclamations.reverse ∧
      SameAnswers releasing replies mirrored ∧
      collectedReleased.world.SameState immediateReleased.world := by
  have offered : ∀ instruction ∈ releasing, instruction.command.Offered := by
    simp [releasing, Command.Offered]
  obtain ⟨replies, executes⟩ := @executes_of_check (start .deferred) releasing 20 rfl
  obtain ⟨mirrored, also⟩ := @executes_of_check (start immediateReversed) releasing 20 rfl
  have collects : deferredReleased.CompletesInBounds (.act "collect" (.object .collect) none)
      collectedReleased := completes_of_check rfl
  refine ⟨replies, mirrored, executes, also, rfl, rfl, rfl, rfl, ?_⟩
  apply (modes_agree rfl rfl offered (.inr balanced_releasing) "collect" none).2.2 _ _ _ _ _
    executes collects also
  · intro id bridge found
    cases World.bridge_of_single rfl found
    cases found
    decide
  · intro id bridge found
    cases World.bridge_of_single rfl found
    cases found
    decide

end Machine

end ScriptSignal
