import FpgaPcie.Mprace.IpcServer

/-!
# The processes among queues

What the processes do where the queues of the library are queues and the board answers: the state
holds the queues themselves, a fill leaves the low bytes of the addresses, a read of the memory
finds what is on the board, and nothing throws but for a queue that is missing or too narrow.
-/

namespace FpgaPcie.Mprace.Ipc

open FpgaPcie.MessageQueue FpgaPcie.Transition

set_option autoImplicit false

def filledBoard (base : ℕ) (board : Words) : Words := fun address =>
  if base ≤ address ∧ address < base + maxBlockram then
    ((BitVec.ofNat 32 (address - base)).setWidth 8).setWidth 32
  else board address

def bufferData (base : ℕ) (board : Words) : List U8 :=
  (List.range maxBlockram).map fun c => (board (base + c)).setWidth 8

abbrev AnswerQueue := SharedQueue Answer

structure Processes where
  requests : Queue MpraceRequest
  answerQueues : QueueName → Option AnswerQueue
  server : Server
  clients : List Client
  board : Words

inductive Move where
  | startFill (fillQueue bufferQueue : QueueName)
  | startInfo (infoQueue : QueueName)
  | send (c : ℕ)
  | receive (c : ℕ)
  | remove (c : ℕ)
  | takeRequest
  | openQueue
  | work
  | sendAnswer
  deriving DecidableEq, Repr

namespace Processes

variable (state : Processes)

def openMessageQueue (name : QueueName) (maxMsgSize : ℕ) : Option Processes :=
  match state.answerQueues name with
  | some _ => none
  | none => some { state with
      answerQueues := Function.update state.answerQueues name
        (some ⟨maxMsgSize, Queue.create 10⟩) }

def start (program : Program) : Processes :=
  { state with clients := state.clients ++ [⟨program, 0, [], false⟩] }

def setClient (c : ℕ) (client : Client) : Processes :=
  { state with clients := state.clients.set c client }

def sendRequest (c : ℕ) : Option Processes :=
  state.clients[c]?.bind fun client =>
    client.program.requests[client.sent]?.bind fun (request, priority) =>
      (state.requests.send request priority).map fun requests =>
        { state with requests := requests }.setClient c { client with sent := client.sent + 1 }

/-- The client gets to its answers when everything is sent, and blocks while there is none. -/
def receiveAnswer (c : ℕ) : Option Processes :=
  state.clients[c]?.bind fun client =>
    if client.sent < client.program.requests.length then none
    else
      client.program.receives[client.answers.length]?.bind fun name =>
        (state.answerQueues name).bind fun own =>
          own.queue.receive.map fun (first, queue) =>
            { state with
              answerQueues := Function.update state.answerQueues name
                (some { own with queue := queue }) }.setClient c
              { client with answers := client.answers ++ [first.2] }

def removeQueues (c : ℕ) : Option Processes :=
  state.clients[c]?.bind fun client =>
    if client.removed = false ∧ client.answers.length = client.program.receives.length then
      some ({ state with
        answerQueues := fun name =>
          if name ∈ client.program.queues then none else state.answerQueues name }.setClient c
        { client with removed := true })
    else none

def takeRequest : Option Processes :=
  match state.server with
  | .waiting => state.requests.receive.map fun (first, requests) =>
      { state with requests := requests, server := .taken first.2 }
  | _ => none

/-- The branch on the type opens the queue that the request names; where it does not exist the
exception ends the server. Other types are only reported. -/
def openQueue : Option Processes :=
  match state.server with
  | .taken request =>
      if request.type = requestTypeFill ∨ request.type = requestTypeGetInfo ∨
          request.type = requestTypeGetBuffer then
        match state.answerQueues request.answerQueue with
        | none => some { state with server := .exited }
        | some _ => some { state with server := .opened request }
      else some { state with server := .waiting }
  | _ => none

def work (base : ℕ) : Option Processes :=
  match state.server with
  | .opened request =>
      if request.type = requestTypeFill then
        some { state with
          board := filledBoard base state.board
          server := .worked request (.fill "Status: 23") }
      else if request.type = requestTypeGetInfo then
        some { state with server := .worked request (.info "Status: DONT PANIC") }
      else
        some { state with server := .worked request (.buffer (bufferData base state.board)) }
  | _ => none

/-- Blocks while the queue is full. A message too large for the queue is an exception; a queue
removed after it was opened takes the answer with it. -/
def sendAnswer : Option Processes :=
  match state.server with
  | .worked request answer =>
      match state.answerQueues request.answerQueue with
      | none => some { state with server := .waiting }
      | some own =>
          if own.maxMsgSize < answer.size then some { state with server := .exited }
          else (own.queue.send answer 0).map fun queue =>
            { state with
              answerQueues := Function.update state.answerQueues request.answerQueue
                (some { own with queue := queue })
              server := .waiting }
  | _ => none

def move (base : ℕ) : Move → Option Processes
  | .startFill fillQueue bufferQueue =>
      (state.openMessageQueue fillQueue 32).bind fun created =>
        (created.openMessageQueue bufferQueue 4096).map fun ready =>
          ready.start (.testFillRequests fillQueue bufferQueue)
  | .startInfo infoQueue =>
      (state.openMessageQueue infoQueue 32).map fun ready =>
        ready.start (.testInfoRequests infoQueue)
  | .send c => state.sendRequest c
  | .receive c => state.receiveAnswer c
  | .remove c => state.removeQueues c
  | .takeRequest => state.takeRequest
  | .openQueue => state.openQueue
  | .work => state.work base
  | .sendAnswer => state.sendAnswer

end Processes

/-- The server has made its queue and no client has been started. -/
def ipcSystem (base : ℕ) : System Processes Move where
  initial state := state.requests.capacity = 100 ∧ state.requests.entries = [] ∧
    (∀ name, state.answerQueues name = none) ∧ state.server = .waiting ∧ state.clients = []
  step state := state.move base

end FpgaPcie.Mprace.Ipc
