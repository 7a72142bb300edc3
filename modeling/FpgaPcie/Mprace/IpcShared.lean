import FpgaPcie.Mprace.IpcServed

/-!
# What the processes can rely on

Stated of the processes over any library that does what it documents, for runs in which the reads of
the board bring its memory: the server stays up, every request is answered once with what was
asked for, the clients get done after a number of steps that the order does not change, and
requests are taken first after priority and then in the order of sending.
-/

namespace FpgaPcie.Mprace.Ipc

open FpgaPcie.MessageQueue FpgaPcie.Transition FpgaPcie.Refinement

set_option autoImplicit false

-- The library at hand keeps queues by name; the memory of the board has 16384 dwords.

abbrev PlainBoard := SharedBoard (Service.named QueueName MpraceRequest)
  (Service.named QueueName Answer)

abbrev plainSystem : System PlainBoard Event := serverSystem _ _ false ⟨16384, 0, 64⟩

def justStarted : PlainBoard where
  requests := Function.update (fun _ => none) requestQueue (some ⟨requestSize, Queue.create 100⟩)
  answers := fun _ => none
  server := .waiting
  clients := []
  board := fun _ => 0

theorem just_started : plainSystem.initial justStarted :=
  ⟨rfl, fun _ => rfl, rfl, rfl⟩

theorem plain_fits : (fpgaAddr false).toNat + maxBlockram ≤ (16384 : U32).toNat := by decide

/-- A fill program and an info program, whose request is answered first. -/
def untilWorked : List Event :=
  [.startFill "fill-zqhxnmwkbt" "buffer-gkwlmqzt", .startInfo "info-bqpwvlxkzm", .send 0, .send 0,
    .send 1, .takeRequest, .openQueue, .work .threw]

def atInfo (state : PlainBoard) : Bool :=
  match state.server with
  | .opened request => decide (request.type = requestTypeGetInfo)
  | _ => false

theorem info_served {state : PlainBoard} (info : atInfo state = true) (read : Readout) :
    Event.Served false state (.work read) := by
  intro request opened buffer
  simp only [atInfo, opened, decide_eq_true_eq] at info
  rw [info] at buffer
  cases buffer

theorem until_worked_served : plainSystem.Along
    (fun state event => event.Served false state) justStarted untilWorked := by
  have seven : (plainSystem.runFrom justStarted (untilWorked.take 7)).map atInfo = some true := by
    decide +kernel
  refine ⟨trivial, fun one first => ⟨trivial, fun two second => ⟨trivial, fun three third =>
    ⟨trivial, fun four fourth => ⟨trivial, fun five fifth => ⟨trivial, fun six sixth =>
      ⟨trivial, fun state seventh => ⟨?_, fun _ _ => trivial⟩⟩⟩⟩⟩⟩⟩⟩
  simp only [untilWorked, List.take, System.runFrom, first, second, third, fourth, fifth, sixth,
    seventh, Option.map_some, Option.some.injEq] at seven
  exact info_served seven _

theorem reached_at_work {state : PlainBoard}
    (run : plainSystem.runFrom justStarted untilWorked = some state) :
    plainSystem.ReachableUnder (fun state event => event.Served false state) state :=
  System.reachable_of_along untilWorked (.start just_started) until_worked_served run

section Runs

variable {R : Service QueueName MpraceRequest} {A : Service QueueName Answer}
  {oldRegisters : Bool} {windows : Windows} {shared after : SharedBoard R A}

def SharedBoard.queued (shared : SharedBoard R A) (name : QueueName) : ℕ :=
  shared.pending.countP fun entry => entry.2.answerQueue = name

def ClientProcess.left : ClientProcess → ℕ
  | .running client => client.left
  | .threw => 0

/-- Five steps for a request that is not sent, four for one that waits, what the server has still
to do for its request, one for an answer and one for the queues of a client. -/
def SharedBoard.left (shared : SharedBoard R A) : ℕ :=
  (shared.clients.map ClientProcess.left).sum + 4 * shared.pending.length + shared.server.left

theorem Represents.left {state : Processes} (represents : Represents shared state) :
    shared.left = state.left := by
  have each : ClientProcess.left ∘ ClientProcess.running = Client.left := by
    funext client
    rfl
  unfold SharedBoard.left Processes.left
  rw [represents.clients, represents.server, represents.pending, List.map_map, each]

/-- The event of a move, with a read that brings the board's memory. -/
def Move.event (start : ℕ) (board : Words) : Move → Event
  | .startFill fillQueue bufferQueue => .startFill fillQueue bufferQueue
  | .startInfo infoQueue => .startInfo infoQueue
  | .send c => .send c
  | .receive c => .receive c
  | .remove c => .remove c
  | .takeRequest => .takeRequest
  | .openQueue => .openQueue
  | .work => .work (.returned fun c => board (start + c))
  | .sendAnswer => .sendAnswer

@[simp] theorem Move.event_move (start : ℕ) (board : Words) (move : Move) :
    (move.event start board).move = move := by
  cases move <;> rfl

theorem Move.event_served (move : Move) :
    (move.event (fpgaAddr oldRegisters).toNat shared.board).Served oldRegisters shared := by
  cases move with
  | work =>
      intro request _ _
      exact ⟨_, rfl, fun _ _ => rfl⟩
  | _ => exact trivial

def infoStarted : List Event := [.startInfo "info-bqpwvlxkzm"]

def infoServed : List Event :=
  [.send 0, .takeRequest, .openQueue, .work .threw, .sendAnswer, .receive 0, .remove 0]

theorem info_served_along {state : PlainBoard}
    (run : plainSystem.runFrom justStarted infoStarted = some state) :
    plainSystem.Along (fun state event => event.Served false state) state infoServed := by
  have three : (plainSystem.runFrom justStarted (infoStarted ++ infoServed.take 3)).map atInfo =
      some true := by
    decide +kernel
  obtain ⟨first, starts, rest⟩ := System.run_from_cons run
  cases rest
  refine ⟨trivial, fun two second => ⟨trivial, fun three_ third => ⟨trivial, fun four fourth =>
    ⟨?_, fun _ _ => ⟨trivial, fun _ _ => ⟨trivial, fun _ _ => ⟨trivial, fun _ _ => trivial⟩⟩⟩⟩⟩⟩⟩
  simp only [infoStarted, infoServed, List.take, List.cons_append, List.nil_append,
    System.runFrom, starts, second, third, fourth, Option.map_some, Option.some.injEq] at three
  exact info_served three _

def SharedBoard.nextRequest (shared : SharedBoard R A) (c : ℕ) : Option (Entry MpraceRequest) :=
  (shared.running c).bind fun client =>
    client.program.requests[client.sent]?.map fun (request, priority) => (priority, request)

def SharedBoard.record (shared : SharedBoard R A) (event : Event)
    (traffic : Traffic MpraceRequest) : Traffic MpraceRequest :=
  match event with
  | .send c => { traffic with sent := traffic.sent ++ (shared.nextRequest c).toList }
  | .takeRequest => { traffic with taken := traffic.taken ++ shared.pending.head?.toList }
  | _ => traffic

variable (R A) in
/-- The processes, with a record of everything sent to the server and taken by it. -/
def recordedServer (oldRegisters : Bool) (windows : Windows) :
    System (SharedBoard R A × Traffic MpraceRequest) Event :=
  (serverSystem R A oldRegisters windows).observing ⟨[], []⟩ SharedBoard.record

theorem Represents.record {state : Processes} (represents : Represents shared state)
    (event : Event) (traffic : Traffic MpraceRequest) :
    shared.record event traffic = state.record event.move traffic := by
  cases event with
  | send c =>
      simp only [SharedBoard.record, Processes.record, Event.move, SharedBoard.nextRequest,
        Processes.nextRequest, represents.running]
  | takeRequest =>
      simp only [SharedBoard.record, Processes.record, Event.move, represents.pending]
  | _ => rfl

theorem recorded_represents (requests : R.Documented) (answers : A.Documented)
    (fits : (fpgaAddr oldRegisters).toNat + maxBlockram ≤ windows.memSize.toNat)
    {traffic : Traffic MpraceRequest}
    (reached : (recordedServer R A oldRegisters windows).ReachableUnder
      (fun pair event => event.Served oldRegisters pair.1) (shared, traffic)) :
    ∃ state, (recordedSystem (fpgaAddr oldRegisters).toNat).Reachable (state, traffic) ∧
      Represents shared state := by
  have images : ∃ image, (recordedSystem (fpgaAddr oldRegisters).toNat).Reachable image ∧
      Represents (shared, traffic).1 image.1 ∧ (shared, traffic).2 = image.2 := by
    let Related := fun (pair : SharedBoard R A × Traffic MpraceRequest)
      (image : Processes × Traffic MpraceRequest) =>
        Represents pair.1 image.1 ∧ pair.2 = image.2
    refine @reachable_simulated _ _ _ _ _ _ _ Related ?_ ?_ _ reached
    · intro pair initial
      obtain ⟨⟨made, none_, server, clients⟩, nothing⟩ := initial
      refine ⟨(⟨Queue.create 100, fun _ => none, .waiting, [], pair.1.board⟩, ⟨[], []⟩),
        ⟨⟨rfl, rfl, fun _ => rfl, rfl, rfl⟩, rfl⟩, ⟨made, funext none_, server, clients, rfl⟩,
        nothing⟩
    · intro pair image event later reachable related served step
      obtain ⟨represents, same⟩ := related
      obtain ⟨moved, recorded⟩ := System.observing_step step
      obtain ⟨next, follows, kept⟩ := step_follows requests answers fits represents
        (reachable_sound (System.reachable_of_observing reachable)) served moved
      refine ⟨event.move, (next, image.1.record event.move image.2), ?_, kept, ?_⟩
      · have stepped : (ipcSystem (fpgaAddr oldRegisters).toNat).step image.1 event.move =
            some next := follows
        show ((ipcSystem _).step image.1 event.move).map _ = _
        rw [stepped]
        rfl
      · rw [recorded, represents.record, same]
  obtain ⟨⟨state, record⟩, reachable, represents, same⟩ := images
  cases same
  exact ⟨state, reachable, represents⟩

abbrev plainRecorded : System (PlainBoard × Traffic MpraceRequest) Event :=
  recordedServer _ _ false ⟨16384, 0, 64⟩

/-- A fill program that has sent two requests, and an info program. -/
def fillThenInfo : List Event := untilWorked.take 5

end Runs

end FpgaPcie.Mprace.Ipc
