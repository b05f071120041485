import CommuteSim.Coordinator.Basic

/-!
# The threads of a process and its handler of panics

A process has one handler for the panics of all its threads. It is the one the process began with,
or one that watches on behalf of a coordinator. Who puts in a handler of its own gets back the one
that was there, and puts that back later, so handlers nest.
-/

namespace CommuteSim

/-- The number of a coordinator in a process. -/
abbrev CoordinatorId := Nat

/-- What handles the panics of a process. -/
inductive PanicHandler where
  /-- The handler that the process began with. -/
  | initial
  | watching (coordinator : CoordinatorId)
  deriving DecidableEq, Repr

/-- What a thread other than the controller's does, at one moment. -/
inductive ThreadAct where
  | report (origin : String) (fault : Fault)
  /-- The thread panics; one without a name has none. -/
  | panic (thread : Option String) (panic : Panic)
  | interrupt
  | claimTeardown
  | terminate
  deriving DecidableEq, Repr

/-- A process: its handler of panics, its coordinators, and the number of panics that went to the
initial handler. -/
structure Process where
  handler : PanicHandler := .initial
  /-- None for a coordinator that is gone. -/
  coordinators : CoordinatorId → Option Coordinator := fun _ => none
  unwatched : Nat := 0

namespace Process

/-! ## Coordinators -/

/-- Puts a coordinator in its place. -/
def put (p : Process) (i : CoordinatorId) (c : Option Coordinator) : Process :=
  { p with coordinators := fun j => if j = i then c else p.coordinators j }

@[simp] theorem put_coordinators_self (p : Process) (i : CoordinatorId) (c : Option Coordinator) :
    (p.put i c).coordinators i = c := by
  simp [put]

@[simp] theorem put_handler (p : Process) (i : CoordinatorId) (c : Option Coordinator) :
    (p.put i c).handler = p.handler := rfl

/-- A process with one coordinator, the first. -/
def ofCoordinator (c : Coordinator) : Process := ({} : Process).put 0 (some c)

/-- Changes a coordinator, if it is there. -/
def update (p : Process) (i : CoordinatorId) (f : Coordinator → Coordinator) : Process :=
  p.put i ((p.coordinators i).map f)

/-- Reports a fault to a coordinator. -/
def report (p : Process) (i : CoordinatorId) (origin : String) (f : Fault) (now : Instant) :
    Process :=
  p.update i fun c => (c.record ⟨f, origin, now⟩).2

/-! ## Panics -/

/-- Puts in a handler that watches for a coordinator; gives back the one before it. -/
def watch (p : Process) (i : CoordinatorId) : PanicHandler × Process :=
  (p.handler, { p with handler := .watching i })

/-- Puts back a handler. -/
def restore (p : Process) (previous : PanicHandler) : Process := { p with handler := previous }

/-- The fault that a panic on a thread is. -/
def panicFault (thread : Option String) (x : Panic) : Fault :=
  .panic (x.origin thread) x.payload.message

/-- A thread panics: the handler that is in place learns of it. -/
def panic (p : Process) (thread : Option String) (x : Panic) (now : Instant) : Process :=
  match p.handler with
  | .initial => { p with unwatched := p.unwatched + 1 }
  | .watching i => p.report i (x.origin thread) (panicFault thread x) now

/-- What is logged about a panic. A handler whose coordinator is gone can do no more than that, and
the handler that the process began with is not known to log anything. -/
def panicLine? (p : Process) (thread : Option String) (x : Panic) (now : Instant) :
    Option LogLine :=
  match p.handler with
  | .initial => none
  | .watching i =>
    match p.coordinators i with
    | some c => some (c.record ⟨panicFault thread x, x.origin thread, now⟩).1.line
    | none => some ⟨.error, "panic after the controller was dropped"⟩

/-! ## Threads -/

/-- A thread does something to a coordinator. -/
def act (p : Process) (i : CoordinatorId) (now : Instant) : ThreadAct → Process
  | .report origin f => p.report i origin f now
  | .panic thread x => p.panic thread x now
  | .interrupt => p.update i Coordinator.request
  | .claimTeardown => p.update i fun c => c.claim.2
  | .terminate => p.update i Coordinator.terminate

/-- Threads act one after the other. -/
def acts (p : Process) (i : CoordinatorId) (now : Instant) (as : List ThreadAct) : Process :=
  as.foldl (fun p a => p.act i now a) p

end Process

/-! ## What threads do -/

/-- What the end of a worker's work does: a failure is reported, and a panic too, after the handler
has learned of it. -/
def workerActs (name : String) : Outcome Cause Unit → List ThreadAct
  | .ok () => []
  | .error (.failure c) => [.report name (.worker name c)]
  | .error (.panic x) =>
    let origin := s!"worker '{name}'"
    [.panic (some name) x, .report origin (.panic origin x.payload.message)]

/-- What becomes of the wait for a termination signal: once one arrives the run is interrupted,
and a wait that failed does nothing. -/
def signalActs (arrived : Bool) : List ThreadAct := if arrived then [.interrupt] else []

end CommuteSim
