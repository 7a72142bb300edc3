import FpgaPcie.Lib.MessageQueue
import FpgaPcie.Lib.Transition
import FpgaPcie.Mprace.BoardDma
import Mathlib.Data.BitVec
import Mathlib.Logic.Function.Basic

/-!
# The server that shares a board

One process owns the board. It takes requests from a queue that all clients share and puts each
answer into the queue that the request names. A client makes its answer queues under names nobody
else has, sends all its requests, takes its answers in the order it asked for them and removes the
queues. The message queues are those of a library, which is a parameter here, once for each kind of
message. Every call on a shared queue is one step, in any order among the processes; making and
removing the queues of one client are one step each. An exception of a queue ends the process it
meets, and one of the board ends the server, which does not catch it.
-/

namespace FpgaPcie.Mprace.Ipc

open FpgaPcie.MessageQueue FpgaPcie.Transition

set_option autoImplicit false

abbrev QueueName := String

/-- `enum request_type`, sent as an `int`. -/
def requestTypeFill : ℤ := 0
def requestTypeGetBuffer : ℤ := 1
def requestTypeGetInfo : ℤ := 2

structure MpraceRequest where
  id : ℤ
  answerQueue : QueueName
  type : ℤ
  deriving DecidableEq, Repr

inductive Answer where
  | fill (dummyMessage : String)
  | info (dummyMessage : String)
  | buffer (data : List U8)
  deriving DecidableEq, Repr

def Answer.size : Answer → ℕ
  | .fill _ => 32
  | .info _ => 32
  | .buffer _ => 4096

inductive TestPattern where
  | random
  | randomExt
  | linear
  | linearRev
  | circular
  | cycle2Circular
  deriving DecidableEq, Repr

/-- `get_pattern_value`; `draw` is what `rand()` returns. -/
def getPatternValue (draw size offset : U32) (lastValue : U8) (pattern : TestPattern)
    (mask : U32) : U8 :=
  match pattern with
  | .linear => offset.setWidth 8
  | .linearRev => (size - offset).setWidth 8
  | .circular => if lastValue.toNat % 32 = 0 then 1 else lastValue <<< 1
  | .cycle2Circular => if lastValue.toNat % 16 = 0 then 1 else lastValue <<< 1
  | .random => draw.setWidth 8
  | .randomExt => (draw &&& mask).setWidth 8

def maxBlockram : ℕ := 4096

def fpgaAddr (oldRegisters : Bool) : U32 := if oldRegisters then 0 else 0x8000 >>> 2

abbrev Words := ℕ → U32

/-- `ABB::write`, on the words it reaches. -/
def writeWord (windows : Windows) (address value : U32) (board : Words) :
    Option BoardException × Words :=
  match (ABB.write windows address value []).1 with
  | some thrown => (some thrown, board)
  | none => (none, Function.update board address.toNat value)

/-- The loop of `fill_fpga_buffer`, with the number of turns left and `temp` from the last one. A
`write` that throws ends it. -/
def fillFrom (windows : Windows) (start : U32) (draws : ℕ → U32) (size : U32)
    (pattern : TestPattern) (mask : U32) : ℕ → ℕ → U32 → Words → Option BoardException × Words
  | 0, _, _, board => (none, board)
  | left + 1, i, temp, board =>
      let value := (getPatternValue (draws i) size (BitVec.ofNat 32 i) (temp.setWidth 8) pattern
        mask).setWidth 32
      match writeWord windows (start + BitVec.ofNat 32 i) value board with
      | (some thrown, board) => (some thrown, board)
      | (none, board) => fillFrom windows start draws size pattern mask left (i + 1) value board

def fillFpgaBuffer (oldRegisters : Bool) (windows : Windows) (draws : ℕ → U32)
    (offset size : U32) (pattern : TestPattern) (mask : U32) (board : Words) :
    Option BoardException × Words :=
  fillFrom windows (fpgaAddr oldRegisters + offset) draws size pattern mask size.toNat 0 1 board

/-- How the construction of the `DMABuffer` and the engine behind `readDMA` end, with the dwords
that are in the buffer then. A wait can also return with the buffer as it was. -/
inductive Readout where
  | threw
  | returned (buf : ℕ → U32)

inductive Program where
  | testFillRequests (fillQueue bufferQueue : QueueName)
  | testInfoRequests (infoQueue : QueueName)
  deriving DecidableEq, Repr

namespace Program

def queues : Program → List QueueName
  | .testFillRequests fillQueue bufferQueue => [fillQueue, bufferQueue]
  | .testInfoRequests infoQueue => [infoQueue]

/-- The requests in the order they are sent, each with its priority. -/
def requests : Program → List (MpraceRequest × ℕ)
  | .testFillRequests fillQueue bufferQueue =>
      ((List.range 10).map fun c => (⟨c, fillQueue, requestTypeFill⟩, 0)) ++
        [(⟨11, bufferQueue, requestTypeGetBuffer⟩, 0)]
  | .testInfoRequests infoQueue => [(⟨23, infoQueue, requestTypeGetInfo⟩, 10)]

/-- The queue of each `receive`, in order. -/
def receives : Program → List QueueName
  | .testFillRequests fillQueue bufferQueue => List.replicate 10 fillQueue ++ [bufferQueue]
  | .testInfoRequests infoQueue => [infoQueue]

def answerSize : Program → QueueName → ℕ
  | .testFillRequests fillQueue _, name => if name = fillQueue then 32 else 4096
  | .testInfoRequests _, _ => 32

end Program

structure Client where
  program : Program
  sent : ℕ
  answers : List Answer
  removed : Bool
  deriving DecidableEq, Repr

/-- What the server is at: `receive`, the branch on the type, the work, `send`. -/
inductive Server where
  | waiting
  | taken (request : MpraceRequest)
  | opened (request : MpraceRequest)
  | worked (request : MpraceRequest) (answer : Answer)
  | exited
  deriving DecidableEq, Repr

inductive ClientProcess where
  | running (client : Client)
  | threw
  deriving DecidableEq, Repr

inductive Event where
  | startFill (fillQueue bufferQueue : QueueName)
  | startInfo (infoQueue : QueueName)
  | send (c : ℕ)
  | receive (c : ℕ)
  | remove (c : ℕ)
  | takeRequest
  | openQueue
  | work (read : Readout)
  | sendAnswer

variable (R : Service QueueName MpraceRequest) (A : Service QueueName Answer)

structure SharedBoard where
  requests : R.Shared
  answers : A.Shared
  server : Server
  clients : List ClientProcess
  board : Words

variable {R A}

/-- The name of the queue that all clients share, and `sizeof(struct mprace_request)`. -/
def requestQueue : QueueName := "mprace-queue"
def requestSize : ℕ := 24

namespace SharedBoard

variable (state : SharedBoard R A)

/-- `open_message_queue` with the name that could be created. -/
def openMessageQueue (start name : String) (maxMsgSize : ℕ) : Option (SharedBoard R A) :=
  if name.length = 15 ∧ start.isPrefixOf name = true ∧
      (name.toList.drop start.length).all Char.isLower = true then
    match A.create state.answers name 10 maxMsgSize with
    | .returns answers => some { state with answers := answers }
    | _ => none
  else none

/-- A client that cannot open the queue of requests ends before it does anything. -/
def start (program : Program) : Option (SharedBoard R A) :=
  match R.attach state.requests requestQueue with
  | .returns _ =>
      some { state with clients := state.clients ++ [.running ⟨program, 0, [], false⟩] }
  | _ => none

def setClient (c : ℕ) (client : ClientProcess) : SharedBoard R A :=
  { state with clients := state.clients.set c client }

def running (c : ℕ) : Option Client :=
  state.clients[c]?.bind fun process =>
    match process with
    | .running client => some client
    | .threw => none

def sendRequest (c : ℕ) : Option (SharedBoard R A) :=
  (state.running c).bind fun client =>
    client.program.requests[client.sent]?.bind fun (request, priority) =>
      match R.send state.requests requestQueue request requestSize priority with
      | .returns requests =>
          some ({ state with requests := requests }.setClient c
            (.running { client with sent := client.sent + 1 }))
      | .blocks => none
      | .throws => some (state.setClient c .threw)

/-- The client gets to its answers when everything is sent. The first `receive` from a queue comes
after opening it. -/
def receiveAnswer (c : ℕ) : Option (SharedBoard R A) :=
  (state.running c).bind fun client =>
    if client.sent < client.program.requests.length then none
    else
      client.program.receives[client.answers.length]?.bind fun name =>
        let opened := if client.program.receives.idxOf name = client.answers.length then
          A.attach state.answers name else .returns ()
        match opened with
        | .returns _ =>
            match A.receive state.answers name (client.program.answerSize name) with
            | .returns (first, answers) =>
                some ({ state with answers := answers }.setClient c
                  (.running { client with answers := client.answers ++ [first.2] }))
            | .blocks => none
            | .throws => some (state.setClient c .threw)
        | .blocks => none
        | .throws => some (state.setClient c .threw)

def removeQueues (c : ℕ) : Option (SharedBoard R A) :=
  (state.running c).bind fun client =>
    if client.removed = false ∧ client.answers.length = client.program.receives.length then
      some ({ state with
        answers := client.program.queues.foldl A.remove state.answers }.setClient c
        (.running { client with removed := true }))
    else none

def takeRequest : Option (SharedBoard R A) :=
  match state.server with
  | .waiting =>
      match R.receive state.requests requestQueue requestSize with
      | .returns (first, requests) =>
          some { state with requests := requests, server := .taken first.2 }
      | .blocks => none
      | .throws => some { state with server := .exited }
  | _ => none

/-- The branch on the type opens the queue that the request names. Other types are only
reported. -/
def openQueue : Option (SharedBoard R A) :=
  match state.server with
  | .taken request =>
      if request.type = requestTypeFill ∨ request.type = requestTypeGetInfo ∨
          request.type = requestTypeGetBuffer then
        match A.attach state.answers request.answerQueue with
        | .returns _ => some { state with server := .opened request }
        | .blocks => none
        | .throws => some { state with server := .exited }
      else some { state with server := .waiting }
  | _ => none

def work (oldRegisters : Bool) (windows : Windows) (read : Readout) : Option (SharedBoard R A) :=
  match state.server with
  | .opened request =>
      if request.type = requestTypeFill then
        match fillFpgaBuffer oldRegisters windows (fun _ => 0) 0 (BitVec.ofNat 32 maxBlockram)
            .linear 0xFFFFFFFF#32 state.board with
        | (some _, board) => some { state with board := board, server := .exited }
        | (none, board) =>
            some { state with board := board, server := .worked request (.fill "Status: 23") }
      else if request.type = requestTypeGetInfo then
        some { state with server := .worked request (.info "Status: DONT PANIC") }
      else
        match ABB.readDMA windows
            ⟨fpgaAddr oldRegisters, BitVec.ofNat 32 maxBlockram, 0, true, true, (0 : ℕ)⟩, read with
        | .ok _, .returned buf =>
            let data := (List.range maxBlockram).map fun c => (buf c).setWidth 8
            some { state with server := .worked request (.buffer data) }
        | _, _ => some { state with server := .exited }
  | _ => none

def sendAnswer : Option (SharedBoard R A) :=
  match state.server with
  | .worked request answer =>
      match A.send state.answers request.answerQueue answer answer.size 0 with
      | .returns answers => some { state with answers := answers, server := .waiting }
      | .blocks => none
      | .throws => some { state with server := .exited }
  | _ => none

def step (oldRegisters : Bool) (windows : Windows) : Event → Option (SharedBoard R A)
  | .startFill fillQueue bufferQueue =>
      (state.openMessageQueue "fill-" fillQueue 32).bind fun created =>
        (created.openMessageQueue "buffer-" bufferQueue 4096).bind fun ready =>
          ready.start (.testFillRequests fillQueue bufferQueue)
  | .startInfo infoQueue =>
      (state.openMessageQueue "info-" infoQueue 32).bind fun ready =>
        ready.start (.testInfoRequests infoQueue)
  | .send c => state.sendRequest c
  | .receive c => state.receiveAnswer c
  | .remove c => state.removeQueues c
  | .takeRequest => state.takeRequest
  | .openQueue => state.openQueue
  | .work read => state.work oldRegisters windows read
  | .sendAnswer => state.sendAnswer

end SharedBoard

variable (R A) in
/-- The server has made its queue and no client has been started. -/
def serverSystem (oldRegisters : Bool) (windows : Windows) : System (SharedBoard R A) Event where
  initial state := R.queues state.requests requestQueue =
      some ⟨requestSize, Queue.create 100⟩ ∧
    (∀ name, A.queues state.answers name = none) ∧ state.server = .waiting ∧ state.clients = []
  step state event := state.step oldRegisters windows event

end FpgaPcie.Mprace.Ipc
