import ScriptSignal.Proofs.Departures

/-!
# The conservation of objects

At every step, within whatever bodies and finalizers, each object that was ever allocated is
alive or was counted once as finalized. A collection answers how many objects left the heap
since it began, whatever ran in between, further collections included.
-/

namespace ScriptSignal

set_option autoImplicit false

/-- Each object that was allocated is alive, or is counted once as finalized. -/
structure World.Conserved (world : World) : Prop where
  total : world.engine.heap.live + world.engine.finalized = world.size
  /-- Objects are numbered from one. -/
  numbered : ∀ id, world.isAlive (.object id) = true →
    1 ≤ id.index + 1 ∧ id.index + 1 ≤ world.size
  once : world.engine.finalized = world.departed.card

theorem World.conserved_of_once {world : World}
    (once : world.engine.finalized = world.departed.card) : world.Conserved := by
  refine ⟨?_, ?_, once⟩
  · rw [once]
    exact world.live_add_departed
  · intro id alive
    obtain ⟨object, found⟩ := Option.isSome_iff_exists.1 alive
    have inside : id.index < world.size := Heap.index_lt_of_get found
    omega

namespace Machine

section Runs

variable {machine : Machine}

theorem Attained.once (attained : machine.Attained) :
    machine.world.engine.finalized = machine.world.departed.card := by
  refine attained.induction (motive := fun machine =>
    machine.world.engine.finalized = machine.world.departed.card) (fun mode => rfl) ?_
    fun _ _ _ _ once => once
  intro machine attained once
  cases running : machine.step.world.engine.running with
  | false =>
      rw [(attained.step.kept.stopped running).1]
      have empty : machine.step.world.departed = ∅ := by
        unfold World.departed World.size
        rw [(attained.step.kept.stopped running).1]
        rfl
      rw [empty]
      rfl
  | true =>
      rcases attained.deed with gentle | ⟨task, rest, -, deed⟩
      · rw [gentle.finalized, World.departed_eq_of_gone gentle.gone]
        exact once
      · rcases deed.departs running with same | ⟨id, object, -, found, -, departed, finalized⟩
        · rw [same.finalized, World.departed_eq_of_gone same.gone]
          exact once
        · have stayed : id.index ∉ machine.world.departed := by
            intro member
            have missing := (World.mem_departed_iff.1 member).2
            rw [found] at missing
            cases missing
          rw [departed, finalized, Finset.card_insert_of_notMem stayed, once]

theorem Attained.conserved (attained : machine.Attained) : machine.world.Conserved :=
  World.conserved_of_once attained.once

/-- What has left the heap never comes back. Once the engine is torn down nothing does. -/
theorem Attained.never (attained : machine.Attained) {id : ObjectId}
    (gone : machine.world.Gone id) {later : Machine}
    (nexts : Relation.ReflTransGen Next machine later) :
    later.world.engine.heap.get? id = none := by
  have onward : later.Attained ∧
      (later.world.Gone id ∨ later.world.engine.running = false) := by
    induction nexts with
    | refl => exact ⟨attained, .inl gone⟩
    | tail _ next induction =>
        obtain ⟨before, away⟩ := induction
        cases next with
        | submit step idle => exact ⟨before.submit idle step, away⟩
        | step =>
            refine ⟨before.step, ?_⟩
            rcases away with gone | stopped
            · cases running : (Machine.step _).world.engine.running with
              | false => exact .inr rfl
              | true => exact .inl (before.gone_step running gone)
            · right
              rw [before.kept.engine_step stopped]
              exact stopped
  rcases onward.2 with gone | stopped
  · exact gone.2
  · rw [(onward.1.kept.stopped stopped).1]
    exact Heap.get_eq_none_of_size_le (Nat.zero_le _)

end Runs

section Collections

theorem answer_number (before : Machine) (count : Option Int) :
    before.answer (.number count) = { before with frame.reply := .number count } := by
  obtain
    ⟨world, agenda, ⟨receiver, arguments, keep, reply⟩, callers, muted, records, reported, limit⟩ :=
    before
  cases keep <;> rfl

inductive Stage (start : Machine) (label : String) (rest : List Task) (later : Machine) :
    Prop
  /-- Objects are taken out. -/
  | waiting {front : List Task}
      (agenda : later.agenda =
        front ++ .reportCollection start.world.engine.finalized :: .finish label :: rest)
      (gone : start.world.departed ⊆ later.world.departed)
  | answering
      (agenda : later.agenda =
        .answer (.number (some ((later.world.departed \ start.world.departed).card : Int)))
          :: .finish label :: rest)
  | answered (agenda : later.agenda = .finish label :: rest)
      (reply : later.frame.reply =
        .number (some ((later.world.departed \ start.world.departed).card : Int)))
  | finished (agenda : later.agenda = rest)
      (reply : later.frame.reply =
        .number (some ((later.world.departed \ start.world.departed).card : Int)))

variable {start later : Machine} {label : String} {rest : List Task}

theorem departed_of_engine {world after : World} (same : after.engine = world.engine) :
    after.departed = world.departed :=
  World.departed_eq_of_gone (World.gentle_of_engine same).gone

/-- The objects that are counted are those that left since the collection began. -/
theorem reported_count (began : start.Attained) (attained : later.Attained)
    (gone : start.world.departed ⊆ later.world.departed) :
    (later.world.engine.finalized - start.world.engine.finalized : Nat) =
      (later.world.departed \ start.world.departed).card := by
  rw [began.once, attained.once, Finset.card_sdiff_of_subset gone]

theorem Stage.step (began : start.Attained) (attained : later.Attained)
    (stage : Stage start label rest later) {task : Task} {front : List Task}
    (shape : later.agenda = task :: (front ++ rest)) :
    Stage start label rest later.step := by
  cases stage with
  | @waiting before agenda gone =>
      cases before with
      | cons first before =>
          obtain ⟨tasks, waits⟩ := attained.agenda_step agenda
          have reports : later.step.agenda = (tasks ++ before) ++
              .reportCollection start.world.engine.finalized :: .finish label :: rest :=
            waits.trans (List.append_assoc _ _ _).symm
          refine .waiting reports ?_
          have running : later.step.world.engine.running = true := by
            cases runs : later.step.world.engine.running with
            | true => rfl
            | false =>
                have outlasts := (attained.step.kept.stopped runs).2
                  (.reportCollection start.world.engine.finalized) (by simp [reports])
                exact outlasts.elim
          intro index member
          have left : later.world.Gone ⟨index⟩ := World.mem_departed_iff.1 (gone member)
          exact World.mem_departed_iff.2 (attained.gone_step running left)
      | nil =>
          have count := reported_count began attained gone
          have outcome : later.step.world =
                (later.world.reportCollection start.world.engine.finalized).1 ∧
              later.step.agenda =
                (later.world.reportCollection start.world.engine.finalized).2
                  ++ .finish label :: rest := by
            rw [step_of_cons agenda]
            exact ⟨rfl, rfl⟩
          have same : later.step.world.departed = later.world.departed := by
            apply departed_of_engine
            rw [outcome.1]
            unfold World.reportCollection
            dsimp only [World.done]
            split <;> rfl
          apply Stage.answering
          rw [outcome.2, same, ← count]
          rfl
  | answering agenda =>
      have stepped := step_of_cons agenda
      have answered : later.step = { later with
          agenda := .finish label :: rest
          frame.reply :=
            .number (some ((later.world.departed \ start.world.departed).card : Int)) } :=
        stepped.trans (answer_number _ _)
      rw [answered]
      exact .answered rfl rfl
  | answered agenda reply =>
      have stepped := step_of_cons agenda
      have same : later.step.agenda = rest ∧ later.step.world = later.world ∧
          later.step.frame = later.frame := by
        rw [stepped]
        simp only [carryOut, record]
        split <;> exact ⟨rfl, rfl, rfl⟩
      refine .finished same.1 ?_
      rw [same.2.1, same.2.2]
      exact reply
  | finished agenda reply =>
      have longer := congrArg List.length (agenda.symm.trans shape)
      simp at longer
      omega

theorem Inside.stage (began : start.Attained)
    (running : start.world.engine.running = true) {keep : Option String}
    (shape : start.agenda = .perform (.act label (.object .collect) keep) :: rest)
    (inside : Inside rest start later) :
    later = start ∨ Stage start label rest later := by
  induction inside with
  | refl => exact .inl rfl
  | @step later task front inside here induction =>
      right
      rcases induction with rfl | stage
      · have stepped : later.step.world = later.world ∧
            later.step.agenda = later.world.collect.2 ++ .finish label :: rest := by
          have allowed : later.isAllowed (.object .collect) = true := rfl
          obtain ⟨world, agenda⟩ := @perform_act later rest label (.object .collect) keep allowed
          have collected : later.world.perform
              (later.frame.read later.world.client.registers) (.object .collect) =
                later.world.collect := by
            simp [World.perform, running, World.performRunning, World.performObject]
          have same : later.world.collect.1 = later.world := by
            unfold World.collect
            dsimp only
            split <;> rfl
          rw [collected] at world agenda
          rw [step_of_cons shape]
          exact ⟨world.trans same, agenda⟩
        have gone : later.world.departed ⊆ later.step.world.departed := by rw [stepped.1]
        cases pending : later.world.engine.backlog.hasPending with
        | true =>
            apply @Stage.waiting later label rest later.step [.drain 0] ?_ gone
            rw [stepped.2]
            simp [World.collect, pending]
        | false =>
            apply @Stage.waiting later label rest later.step [] ?_ gone
            rw [stepped.2]
            simp [World.collect, pending]
      · exact stage.step began (inside.attained began) here

end Collections

/-- Objects are conserved, and collections count those that leave. -/
structure Conservation (machine : Machine) : Prop where
  conserved : machine.world.Conserved
  /-- An object that has left the heap is never alive again. -/
  never : ∀ id, machine.world.Gone id → ∀ later, Relation.ReflTransGen Next machine later →
    later.world.isAlive (.object id) = false
  /-- A collection that begins here answers how many objects leave until its end. -/
  collected : ∀ label keep rest,
    machine.agenda = .perform (.act label (.object .collect) keep) :: rest →
    machine.world.engine.running = true → ∀ later, Inside rest machine later →
      later.agenda = rest → later.frame.reply =
        .number (some ((later.world.departed \ machine.world.departed).card : Int))

/-- Whatever a client and scripts do, objects are conserved at every step. -/
theorem conservation_of_attained {machine : Machine} (attained : machine.Attained) :
    machine.Conservation := by
  refine ⟨attained.conserved, ?_, ?_⟩
  · intro id gone later nexts
    have missing := attained.never gone nexts
    change (later.world.engine.heap.get? id).isSome = false
    rw [missing]
    rfl
  · intro label keep rest shape running later inside ended
    rcases inside.stage attained running shape with rfl | stage
    · have longer := congrArg List.length (shape.symm.trans ended)
      simp at longer
    · cases stage with
      | finished agenda reply => exact reply
      | waiting agenda gone =>
          have longer := congrArg List.length (agenda.symm.trans ended)
          simp at longer
          omega
      | answering agenda =>
          have longer := congrArg List.length (agenda.symm.trans ended)
          simp at longer
          omega
      | answered agenda reply =>
          have longer := congrArg List.length (agenda.symm.trans ended)
          simp at longer

/-- Objects are finalized that allocate and give up objects and collect on their own. -/
def nestedCollection : Machine :=
  runAll 100 (start .deferred)
    [.act "reserve" (.classes .reserve) none,
      .define "define" ⟨0⟩ "Holder" default []
        (.mk
          [.act "create" (.object .create) (some "inner"),
            .act "give up" (.object (.release (.register "inner"))) none,
            .act "collect within" (.object .collect) none]
          (.literal .undefined) none),
      .act "first" (.classes (.instantiate (.literal .undefined) ⟨0⟩)) (some "first"),
      .act "second" (.classes (.instantiate (.literal .undefined) ⟨0⟩)) (some "second"),
      .act "release first" (.object (.release (.register "first"))) none,
      .act "release second" (.object (.release (.register "second"))) none,
      .act "collect" (.object .collect) none]

theorem attained_nested_collection : nestedCollection.Attained :=
  (attained_start .deferred).run_all 100 (by decide)

theorem conservation_of_nested_collection :
    nestedCollection.world.size = 5 ∧ nestedCollection.world.engine.heap.live = 1 ∧
      nestedCollection.world.engine.finalized = 4 ∧
      nestedCollection.frame.reply = .number (some 4) ∧ nestedCollection.Conservation :=
  ⟨rfl, rfl, rfl, rfl, conservation_of_attained attained_nested_collection⟩

end Machine

end ScriptSignal
