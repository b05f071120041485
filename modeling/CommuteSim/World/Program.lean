import CommuteSim.World.Basic

/-!
# Programs of collaborators

A collaborator is a program: a tree of deeds, each of which is done to the world and answers
something, that ends in a value, a failure or a panic. Every program ends. A collaborator can do
nothing that is no deed, so what holds of all deeds holds of all collaborators.

Main statement: programs put one behind the other run one behind the other (`run_bind`).
-/

namespace CommuteSim

/-- What a collaborator can do to the world. -/
inductive Deed (σ : Type) where
  | memory
  | remember (memory : σ)
  | clock
  | elapse (microseconds : Int)
  | generator
  | setGenerator (generator : Generator)
  | files
  | setFiles (files : FileSystem)
  | say (line : LogLine)
  | coordinator
  | report (origin : String) (fault : Fault)
  | interrupt
  | claimTeardown
  | terminate
  | elsewhere (act : ThreadAct)

/-- What a deed answers. -/
def Deed.Answer {σ : Type} : Deed σ → Type
  | memory => σ
  | clock => Instant
  | generator => Generator
  | files => FileSystem
  | coordinator => Coordinator
  | report _ _ | claimTeardown => Bool
  | remember _ | elapse _ | setGenerator _ | setFiles _ | say _ | interrupt | terminate
  | elsewhere _ => Unit

/-- Does a deed to the world. -/
def World.perform {σ : Type} : (d : Deed σ) → StateM (World σ) d.Answer
  | .memory => return (← get).memory
  | .remember m => modify fun w => { w with memory := m }
  | .clock => return (← get).clock
  | .elapse n => modify fun w => { w with clock := w.clock.after n }
  | .generator => return (← get).generator
  | .setGenerator g => modify fun w => { w with generator := g }
  | .files => return (← get).files
  | .setFiles f => modify fun w => { w with files := f }
  | .say l => World.note (.said .collaborator l)
  | .coordinator => World.look
  | .report origin f => World.reportBy (World.actHere (.report origin f)) origin f
  | .interrupt => World.interrupt
  | .claimTeardown => World.claimTeardown
  | .terminate => World.actHere .terminate fun c => ((), c.terminate)
  | .elsewhere a => World.elsewhere a

/-- A program of a collaborator. It can fail with an `ε`. -/
inductive Program (σ ε α : Type) where
  | done (value : α)
  | fail (error : ε)
  | panic (panic : Panic)
  | act (deed : Deed σ) (next : deed.Answer → Program σ ε α)

namespace Program

variable {σ ε δ α β : Type}

/-! ## Programs one behind the other -/

protected def bind : Program σ ε α → (α → Program σ ε β) → Program σ ε β
  | done a, f => f a
  | fail e, _ => fail e
  | panic x, _ => panic x
  | act d next, f => act d fun answer => (next answer).bind f

instance : Monad (Program σ ε) where
  pure := done
  bind := Program.bind

/-- Goes on with another program where a program fails. -/
def handle : Program σ ε α → (ε → Program σ δ α) → Program σ δ α
  | done a, _ => done a
  | fail e, f => f e
  | panic x, _ => panic x
  | act d next, f => act d fun answer => (next answer).handle f

/-- Changes the failure of a program. -/
def mapError (f : ε → δ) (p : Program σ ε α) : Program σ δ α := p.handle fun e => fail (f e)

/-- The program of a single deed. -/
def doing (d : Deed σ) : Program σ ε d.Answer := act d done

def memory : Program σ ε σ := doing .memory
def remember (m : σ) : Program σ ε Unit := doing (.remember m)

/-- Changes the memory. -/
def memorize (f : σ → σ) : Program σ ε Unit := do remember (f (← memory))

/-- Draws from the shared generator. -/
def draw (f : Generator → α × Generator) : Program σ ε α := do
  let (a, g) := f (← doing .generator)
  doing (.setGenerator g)
  return a

def say (level : LogLevel) (message : String) : Program σ ε Unit := doing (.say ⟨level, message⟩)

/-- Whether a shutdown was requested. -/
def flag : Program σ ε Bool := do
  let c ← doing .coordinator
  return c.flag

/-- Tries an operation on the files. -/
def attempt (operation : FileSystem → FileSystem.FileResult Unit × FileSystem) :
    Program σ ε (FileSystem.FileResult Unit) := do
  let (result, files) := operation (← doing .files)
  doing (.setFiles files)
  return result

/-- Writes a text into a file. -/
def writeText (path text : String) : Program σ ε (FileSystem.FileResult Unit) :=
  attempt fun files =>
    match files.writeText path text with
    | .ok files => (.ok (), files)
    | .error reason => (.error reason, files)

/-- Other threads act one after the other, and are waited for. -/
def elsewhere : List ThreadAct → Program σ ε Unit
  | [] => done ()
  | a :: rest => act (.elsewhere a) fun _ => elsewhere rest

/-! ## Running -/

/-- Runs a program. The handler of panics learns of a panic where it is raised. -/
def run : Program σ ε α → StateM (World σ) (Outcome ε α)
  | done a => return .ok a
  | fail e => return .error (.failure e)
  | panic x => do
    World.panic x
    return .error (.panic x)
  | act d next => do
    let answer ← World.perform d
    (next answer).run

/-- A program behind another one runs from where that one ended, if it ended well. -/
theorem run_bind (p : Program σ ε α) (f : α → Program σ ε β) :
    (p.bind f).run = do
      match ← p.run with
      | .ok a => (f a).run
      | .error e => return .error e := by
  induction p with
  | done a => rfl
  | fail e => rfl
  | panic x => rfl
  | act d next ih =>
    funext w
    show ((next (World.perform d w).1).bind f).run (World.perform d w).2 = _
    rw [ih]
    rfl

end Program

end CommuteSim
