import LedgerClient.Channel.Automaton
import LedgerClient.Rpc.Catalogue

/-!
# Sessions

A session runs the tasks of a client over one channel. Whatever becomes possible takes its turn in
the order in which it became possible, round by round, until nothing is left to do; then the
session waits for the next action: a task is launched, a message comes, the clock advances.

A task that waits for an answer is first noticed to have one and goes on in the next round; a
signal takes one round more, and the answers of a batch are put together first. Deadlines that
have passed are looked at when a round begins.

## Main definitions

* `Channel.Job`, `Channel.Product`: what a task does and what it gives
* `Channel.Session`: a channel with its tasks, its clock and the messages not yet read
* `Channel.Duty`, `Channel.Session.perform`: a turn
* `Channel.Action`, `Channel.Session.act`: an action and everything that follows from it
-/

namespace LedgerClient.Channel

open Rpc (BatchCall BatchReply Call Feed Reply)

/-- What a task does. -/
inductive Job
  | call (call : Call Rpc.Outcome)
  | batch (calls : List BatchCall)
  | subscribe (feed : Feed) (options : Options)
  /-- Ends a subscription at the service that the client has given up. -/
  | release
  | unsubscribe (index : Nat)
  | receive (index : Nat)
  /-- Takes everything up to the end; these items are taken. -/
  | drain (index : Nat) (items : List Reply)
  /-- Waits for a stream to close. -/
  | watch (index : Nat)
  /-- Closes the channel. -/
  | close
  /-- Fails before it reaches the channel. -/
  | refuse (fault : Fault)

/-- What a task gives. -/
inductive Product
  | outcome (outcome : Rpc.Outcome)
  | batch (replies : List BatchReply)
  | stream (index : Nat)
  | item (reply : Reply)
  /-- The stream has ended. -/
  | ended
  | drained (items : List Reply) (fault : Option Fault)
  /-- How a stream was closed. -/
  | closing (fault : Option Fault)
  | nothing
  | failed (fault : Fault)

/-- A task. -/
structure Task where
  /-- The number of the task. -/
  number : Nat
  /-- The name of the task; the channel's own tasks have none. -/
  name : Option String
  /-- What it does. -/
  job : Job
  /-- The seconds to wait, in place of those of the configuration. -/
  timeout : Option Float := none
  /-- The caller's signal is set. -/
  signalled : Bool := false
  /-- The caller can set a signal. -/
  hasSignal : Bool := false
  /-- The task is to go on. -/
  woken : Bool := false
  /-- The task is to be ended. -/
  aborted : Bool := false
  /-- The operation that it waits for. -/
  operation : Option Nat := none

/-- A turn. -/
inductive Duty
  /-- The reader begins. -/
  | begin
  | start (task : Nat)
  /-- The reader goes on. -/
  | read
  | gather (task : Nat)
  /-- A task is noticed to have an answer. -/
  | notice (task : Nat)
  | resume (task : Nat)
  | signal (task : Nat)
  /-- A deadline has passed. -/
  | expire (task : Nat)
  | consumer (index task : Nat)
  /-- The reader is stopped for a task that closes the channel. -/
  | stop (task : Nat)
  /-- The reader has stopped. -/
  | stopped (task : Nat)

/-- What comes from the other side. -/
inductive Inbound
  | message (text : Bytes)
  /-- The connection ends. -/
  | failure (reason : String)
  /-- The connection fails in a way that no one expects. -/
  | breakdown (reason : String)

/-- What happens to a session from outside. -/
inductive Action
  | launch (name : String) (job : Job) (timeout : Option Float) (signalled hasSignal : Bool)
  | push (inbound : List Inbound)
  | signal (name : String)
  | abort (name : String)
  /-- Messages come, and a task is ended before it can go on. -/
  | pushAbort (inbound : List Inbound) (name : String)
  | advance (seconds : Float)
  /-- From now on nothing can be sent. -/
  | sever (reason : String)

/-- A channel with its tasks. -/
structure Session where
  /-- The channel. -/
  channel : Channel
  /-- The time in seconds. -/
  clock : Float := 0
  /-- The turns of the next round. -/
  duties : List Duty := []
  /-- The deadlines that are set. -/
  deadlines : List (Float × Nat) := []
  /-- The tasks that have not ended. -/
  tasks : List Task := []
  /-- The number of the next task. -/
  nextTask : Nat := 0
  /-- What has come and is not read yet. -/
  inbox : List Inbound := []
  /-- Why nothing can be sent, if so. -/
  broken : Option String := none
  /-- What the tasks gave that have ended. -/
  products : List (String × Product) := []
  /-- The streams that tasks were given, by their names. -/
  named : List (String × Nat) := []

namespace Session

/-- The session of a client with a configuration. The first turn is that of the reader. -/
def start (config : Config) : Session := { channel := { config }, duties := [.begin] }

/-! ## Tasks and turns -/

/-- Adds a turn at the end of the next round. -/
def plan (s : Session) (duty : Duty) : Session :=
  { s with duties := s.duties ++ [duty] }

/-- Adds a task, whose first turn is in the next round. -/
def spawn (s : Session) (name : Option String) (job : Job) (timeout : Option Float)
    (signalled hasSignal : Bool) : Session :=
  let number := s.nextTask
  let task : Task := { number, name, job, timeout, signalled, hasSignal }
  plan { s with nextTask := number + 1, tasks := s.tasks ++ [task] } (.start number)

/-- A task that has not ended. -/
def task? (s : Session) (number : Nat) : Option Task :=
  s.tasks.find? (·.number == number)

/-- Changes a task. -/
def modifyTask (s : Session) (number : Nat) (f : Task → Task) : Session :=
  { s with tasks := s.tasks.map fun task => if task.number == number then f task else task }

/-- Ends a task with what it gives. -/
def conclude (s : Session) (task : Task) (product : Product) : Session :=
  { s with
    tasks := s.tasks.filter (·.number != task.number)
    products := match task.name with
      | some name => s.products ++ [(name, product)]
      | none => s.products }

/-- The task goes on in the next round, unless it is to go on already. -/
def rouse (s : Session) (number : Nat) : Session :=
  match s.task? number with
  | some task =>
    if task.woken then s
    else (s.modifyTask number fun task => { task with woken := true }).plan (.resume number)
  | none => s

/-- The task that waits for an operation. -/
def callerOf? (s : Session) (op : Nat) : Option Task :=
  s.tasks.find? (·.operation == some op)

/-- Plans the turns that an event of the channel has given to others. -/
def planAll : List Turn → Session → Session
  | [], s => s
  | turn :: turns, s => planAll turns (match turn with
    | .caller op isBatch => match s.callerOf? op with
      | some task => s.plan (if isBatch then .gather task.number else .notice task.number)
      | none => s
    | .consumer index task => s.plan (.consumer index task)
    | .watcher task => s.plan (.notice task)
    | .reader => s.plan .read
    | .release => s.spawn none .release none false false)

/-- Takes over what has become of the channel. -/
def adopt (s : Session) (result : Channel × Output) : Session × Output :=
  (planAll result.1.turns { s with channel := { result.1 with turns := [] } }, result.2)

/-- Brings about an event of the channel. -/
def emit (s : Session) (event : Event) : Session × Output :=
  s.adopt (s.channel.step event)

/-! ## The turns -/

/-- Reads messages until the reader stalls or ends, or nothing is left. -/
def readAll : List Inbound → Session → Session
  | [], s => { s with inbox := [] }
  | inbound :: rest, s => match s.channel.reader with
    | .idle => match inbound with
      | .message text => readAll rest (s.emit (.accept text)).1
      | .failure reason => readAll rest (s.emit (.fail reason)).1
      | .breakdown reason => readAll rest (s.emit (.crash reason)).1
    | _ => { s with inbox := inbound :: rest }

/-- A task has begun an operation: it waits for it, and its deadline is set. -/
def await (s : Session) (task : Task) (op : Nat) : Session :=
  let s := s.modifyTask task.number fun task => { task with operation := some op }
  match task.timeout.or s.channel.config.timeout with
  | some timeout => { s with deadlines := s.deadlines ++ [(s.clock + timeout, task.number)] }
  | none => s

/-- What follows when a task has tried to begin an operation. -/
def afterBegin (task : Task) : Session × Output → Session
  | (s, .begun (.ok op)) => s.await task op
  | (s, .begun (.error fault)) => s.conclude task (.failed fault)
  | (s, _) => s.conclude task .nothing

/-- What follows when a consumer has looked; one that takes everything looks again. -/
def afterLook (task : Task) : (fuel : Nat) → Session × Output → Session
  | 0, (s, _) => s
  | fuel + 1, (s, .received received) => match task.job, received with
    | _, .waits => s
    | .drain index items, .item reply =>
      let task := { task with job := .drain index (items ++ [reply]) }
      afterLook task fuel
        ((s.modifyTask task.number fun _ => task).emit (.receive index task.number))
    | .drain _ items, .ended => s.conclude task (.drained items none)
    | .drain _ items, .failed fault => s.conclude task (.drained items (some fault))
    | _, .item reply => s.conclude task (.item reply)
    | _, .ended => s.conclude task .ended
    | _, .failed fault => s.conclude task (.failed fault)
  | _, (s, _) => s

/-- The number of items that a consumer may take in one turn. -/
def lookBound (s : Session) (index : Nat) : Nat :=
  (s.channel.streams[index]?.elim 0 (·.queue.length)) + 2

/-- The first turn of a task. -/
def startTask (s : Session) (task : Task) : Session :=
  let n := task.number
  match task.job with
  | .call call =>
    afterBegin task (s.adopt (s.channel.attempt (.ok call) task.signalled s.broken))
  | .batch calls => afterBegin task (s.emit (.batch calls task.signalled s.broken))
  | .subscribe feed options =>
    afterBegin task (s.emit (.subscribe feed options task.signalled s.broken))
  | .release => afterBegin task (s.emit (.release s.broken))
  | .unsubscribe index => afterBegin task (s.emit (.unsubscribe index s.broken))
  | .receive index | .drain index _ =>
    afterLook task (s.lookBound index) (s.emit (.receive index n))
  | .watch index => match (s.channel.streams[index]?).bind (·.outcome) with
    | some outcome => s.conclude task (.closing outcome)
    | none => (s.emit (.watch index n)).1
  | .close =>
    let (s, _) := s.emit .shut
    match s.channel.reader with
    | .ended | .dropped => s.plan (.stopped n)
    | _ => s.plan (.stop n)
  | .refuse fault =>
    let made : Except Fault (Call Rpc.Outcome) := .error fault
    afterBegin task (s.adopt (s.channel.attempt made task.signalled s.broken))

/-- Why the caller of an operation goes on. -/
def wakeOf (s : Session) (task : Task) (op : Nat) : Wake :=
  if task.aborted then .abort
  else if (s.channel.operation? op).any (·.answered) then .answer
  else if task.signalled then .signal
  else match task.timeout.or s.channel.config.timeout with
    | some timeout => .deadline timeout
    | none => .signal

/-- What a task gives when its operation has ended. -/
def productOf (host : Host) (job : Job) (result : Result) : Product :=
  match job, result with
  | _, .failed fault => .failed fault
  | .call call, .text text => match call.read text host with
    | .ok outcome => .outcome outcome
    | .error fault => .failed fault
  | .batch calls, .entries entries => match Rpc.readBatch host calls entries with
    | .ok replies => .batch replies
    | .error fault => .failed fault
  | _, .stream index => .stream index
  | _, _ => .nothing

/-- A stream that a task was given is known by the name of the task. -/
def nameStream (s : Session) (task : Task) (product : Product) : Session :=
  match product, task.name with
  | .stream index, some name =>
    { s with named := Keyed.without Prod.fst name s.named ++ [(name, index)] }
  | _, _ => s

/-- A task goes on. -/
def resumeTask (s : Session) (task : Task) : Session :=
  match task.job with
  | .watch index =>
    if task.aborted then s.conclude task (.failed .aborted)
    else s.conclude task (.closing ((s.channel.streams[index]?.bind (·.outcome)).getD none))
  | .close => s.conclude task .nothing
  | job => match task.operation with
    | none => s
    | some op => match s.emit (.finish op (s.wakeOf task op)) with
      | (s, .ended result) =>
        let product := productOf s.channel.config.host job result
        (s.nameStream task product).conclude task product
      | (s, _) => s

/-- A consumer that was called has its turn. -/
def consumerTurn (s : Session) (index : Nat) (task : Task) : Session :=
  if task.aborted then (s.emit (.leave index task.number)).1.conclude task (.failed .aborted)
  else afterLook task (s.lookBound index) (s.emit (.resume index task.number))

/-- Does what a turn is for; a task that has ended has no more turns. -/
def perform (s : Session) (duty : Duty) : Session :=
  let given (number : Nat) (f : Task → Session) : Session := (s.task? number).elim s f
  match duty with
  | .begin =>
    let (s, _) := s.emit .start
    readAll s.inbox s
  | .start n => given n s.startTask
  | .read =>
    let (s, _) := s.emit .proceed
    readAll s.inbox s
  | .gather n => given n fun task => (task.operation).elim s fun op =>
    let (s, _) := s.emit (.gather op)
    if (s.channel.operation? op).any (·.answered) then s.plan (.notice n) else s
  | .notice n | .expire n => s.rouse n
  | .signal n => (s.modifyTask n fun task => { task with signalled := true }).plan (.notice n)
  | .resume n => given n s.resumeTask
  | .consumer index n => given n (s.consumerTurn index)
  | .stop n => (s.emit (.fail "connection closed")).1.plan (.stopped n)
  | .stopped n => s.plan (.resume n)

/-! ## Rounds -/

/-- The deadline has passed. -/
def isDue (s : Session) (deadline : Float × Nat) : Bool :=
  Deadline.hasPassed deadline.1 s.clock

/-- Nothing is left to do. -/
def isIdle (s : Session) : Bool :=
  s.duties.isEmpty && !s.deadlines.any s.isDue

/-- A round: every turn that was planned, then the deadlines that have passed, earliest first. -/
def round (s : Session) : Session :=
  let due := (s.deadlines.filter s.isDue).mergeSort fun a b => a.1 ≤ b.1
  let duties := s.duties ++ due.map fun deadline => .expire deadline.2
  duties.foldl perform
    { s with duties := [], deadlines := s.deadlines.filter fun d => !s.isDue d }

/-- Rounds until nothing is left to do. -/
def settle : (fuel : Nat) → Session → Session
  | 0, s => s
  | fuel + 1, s => if s.isIdle then s else settle fuel s.round

/-- What has come and is not read yet, in bytes. -/
def inboxSize (s : Session) : Nat :=
  (s.inbox.flatMap fun
    | .message text => text
    | .failure _ | .breakdown _ => []).length

/-- The frames that the reader has not routed yet. -/
def backlog (s : Session) : Nat :=
  match s.channel.reader with
  | .stalled _ _ rest => rest.length
  | _ => 0

/-- A bound on the rounds until nothing is left to do: every frame, item and task gives rise to
few turns. -/
def bound (s : Session) : Nat :=
  16 * (8 + s.tasks.length + s.duties.length + s.deadlines.length + s.inboxSize + s.backlog +
    (s.channel.streams.flatMap Stream.queue).length)

/-- Everything that follows. -/
def run (s : Session) : Session :=
  settle s.bound s

/-! ## Actions -/

/-- Messages come, all at once. -/
def push (s : Session) (inbound : List Inbound) : Session :=
  let s := { s with inbox := s.inbox ++ inbound }
  match s.channel.reader with
  | .idle => s.plan .read
  | _ => s

/-- The task of a name, if it has not ended. -/
def named? (s : Session) (name : String) : Option Task :=
  s.tasks.find? (·.name == some name)

/-- Ends a task from outside: wherever it waits, it goes on to its end. -/
def abort (s : Session) (name : String) : Session :=
  match s.named? name with
  | none => s
  | some task =>
    let s := s.modifyTask task.number fun task => { task with aborted := true }
    match task.job with
    | .receive index | .drain index _ =>
      if s.channel.streams[index]?.any (·.called.contains task.number) then s
      else s.plan (.consumer index task.number)
    | _ => s.rouse task.number

/-- Sets the signal of a task, if it has one. -/
def signal (s : Session) (name : String) : Session :=
  match s.named? name with
  | some task => if task.hasSignal then s.plan (.signal task.number) else s
  | none => s

/-- An action and everything that follows from it; the products are those of this action. -/
def act (s : Session) (action : Action) : Session :=
  let s := { s with products := [] }
  run (match action with
    | .launch name job timeout signalled hasSignal =>
      s.spawn (some name) job timeout signalled hasSignal
    | .push inbound => s.push inbound
    | .signal name => s.signal name
    | .abort name => s.abort name
    | .pushAbort inbound name => (s.push inbound).round.abort name
    | .advance seconds => { s with clock := s.clock + seconds }
    | .sever reason => { s with broken := some reason })

end Session

end LedgerClient.Channel
