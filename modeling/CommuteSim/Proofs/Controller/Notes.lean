import CommuteSim.Controller.Run

/-!
# What is noted is what happens

The history of a run holds notes that the controller makes beside what it does. Each lemma here
takes one kind of note, and says that what is noted is what happens: the event of a round is the one
that the listeners are told of, the result with which a step is over is what its work came to, the
generator of a mobsim is the one that its program finds, and a question is put once, between its
note and that of its answer. (`ListenerBus.tell_run` says the same of calls.)

Main statements: `announce_run` and `notifyShutdown_run` for rounds, `simulate_run` for mobsims,
`attempt_run` with `settle_run` for steps, `wantsIteration_run` with `heed_run` for questions.
-/

namespace CommuteSim

variable {σ α : Type}

/-! ## Sessions -/

namespace Session

/-- A session in a new world. -/
def inWorld (s : Session σ) (w : World σ) : Session σ := { s with world := w }

/-- A session once something is noted. -/
def noted (s : Session σ) (m : Moment σ) : Session σ := s.inWorld (s.world.noted m)

/-- A session whose generator is seeded for an iteration. -/
def seeded (s : Session σ) (i : IterationIndex) : Session σ where
  controller := { s.controller with seeding := s.controller.seeding.advance i }
  world := { s.world with generator := s.controller.seeding.generator i }

end Session

/-- Whether the run goes on, as the flag has it. -/
def Coordinator.progress (c : Coordinator) : Progress := if c.flag then .aborted else .proceed

namespace Controller

theorem onWorld_apply (work : StateM (World σ) α) (s : Session σ) :
    onWorld work s = ((work s.world).1, s.inWorld (work s.world).2) := rfl

/-! ## What the work of a step comes to -/

/-- What a collaborator returns is what its work comes to; a failure becomes a fault. -/
theorem collaborate_run (fault : Cause → Fault) (p : Program σ Cause α) (s : Session σ) :
    (collaborate fault p).run s =
      ((p.run s.world).1.mapError (Abort.map fault), s.inWorld (p.run s.world).2) := rfl

/-- The listeners are told of the event that is noted, and of no other. -/
theorem announce_run (e : Event) (s : Session σ) :
    let t := s.noted (.round e)
    let told := s.controller.bus.notify e t.world
    (announce e).run s =
      ((told.1.mapError (Abort.map Fault.listener)).map fun _ => (), t.inWorld told.2) := rfl

/-- The generator that is noted is the one that the mobsim finds, and what the mobsim returns is
what the work comes to. -/
theorem simulate_run (i : IterationIndex) (s : Session σ) :
    let t := (s.seeded i).noted (.mobsim i (s.seeded i).world.generator)
    let mobsim := s.controller.simulation.mobsim s.controller.context i
    (simulate i).run s = (collaborate (.phase .mobsim i) mobsim).run t ∧
      t.world.generator = (s.seeded i).world.generator :=
  ⟨rfl, rfl⟩

/-- What the simulation prepares is all that its step does. -/
theorem prepare_run (s : Session σ) :
    let prepared := s.controller.simulation.prepare s.controller.context
    prepare.run s = (collaborate (.setup Step.prepare.origin) prepared).run s := rfl

/-! ## Steps -/

/-- A step is over with the result that is noted, and goes on as is noted, which is what its last
look at the flag says. -/
theorem settle_run (step : Step) (result : Outcome Fault Unit) (s : Session σ) :
    let t := (disclose step.origin result s).2
    let seen := World.look t.world
    settle step result s =
      (seen.1.progress, (t.inWorld seen.2).noted (.ended step result seen.1.progress)) := rfl

/-- The result that is noted for a step is what its work came to. -/
theorem attempt_run (step : Step) (work : Guarded σ Unit) (s : Session σ) :
    let worked := work.run (s.noted (.began step))
    attempt step work s = settle step worked.1 worked.2 := rfl

/-! ## Questions -/

/-- What the controller reports of an answer: a panic of who was asked. -/
def reportAnswer : Outcome Empty Bool → Driven σ Unit
  | .error (.panic x) => reportPanic criterionOrigin x
  | _ => return

/-- The answer that is noted is the one that is heeded. -/
theorem heed_run (i : IterationIndex) (answer : Outcome Empty Bool) (s : Session σ) :
    heed i answer s =
      (answer.toOption.getD false, (reportAnswer answer s).2.noted (.answered i answer)) := by
  cases answer with
  | ok _ => rfl
  | error a =>
      cases a with
      | failure e => exact e.elim
      | panic x => rfl

/-- Unless a shutdown was requested the question is put once, after it is noted, and the answer is
the one that is noted. -/
theorem wantsIteration_run (i : IterationIndex) (s : Session σ) :
    let seen := World.flag s.world
    let t := (s.inWorld seen.2).noted (.asked i)
    let asked := (s.controller.question i).run t.world
    wantsIteration i s =
      if seen.1 then (false, s.inWorld seen.2) else heed i asked.1 (t.inWorld asked.2) := by
  intro seen t asked
  have hwants : wantsIteration i s =
      (if seen.1 then pure false else do
        let c := (← get).controller
        onWorld (World.note (.asked i))
        heed i (← onWorld (c.question i).run) : Driven σ Bool) (s.inWorld seen.2) := rfl
  rw [hwants]
  cases seen.1 <;> rfl

/-! ## The shutdown -/

/-- What the controller logs once the listeners were told of the shutdown. -/
def sayTold : Outcome ListenerFailure Nat → Driven σ Unit
  | .ok _ => return
  | .error (.failure _) => onWorld (World.say .error "shutdown listener failed")
  | .error (.panic x) => onWorld (World.note (.said .collaborator ⟨.error, x.payload.message⟩))

/-- The listeners are told of the shutdown that is noted, and what they come to is only logged. -/
theorem notifyShutdown_run (unexpected : Bool) (s : Session σ) :
    let t := s.noted (.round (.shutdown unexpected))
    let told := s.controller.bus.notify (.shutdown unexpected) t.world
    notifyShutdown unexpected s = sayTold told.1 (t.inWorld told.2) := rfl

end Controller

end CommuteSim
