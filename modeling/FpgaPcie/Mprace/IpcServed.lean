import FpgaPcie.Lib.Refinement
import FpgaPcie.Mprace.IpcOrder

/-!
# The processes over a library of queues

Where the library does what it documents and the board answers, each step of the processes is a
step among queues, and the other way round. So no exception ends a process, no answer is lost, the
clients get done and the requests are served in order.
-/

namespace FpgaPcie.Mprace.Ipc

open FpgaPcie.MessageQueue FpgaPcie.Transition FpgaPcie.Refinement

set_option autoImplicit false

variable {R : Service QueueName MpraceRequest} {A : Service QueueName Answer}

/-- The queues behind the names are those of the state, and no client has met an exception. -/
structure Represents (shared : SharedBoard R A) (state : Processes) : Prop where
  requests : R.queues shared.requests requestQueue = some ⟨requestSize, state.requests⟩
  answers : A.queues shared.answers = state.answerQueues
  server : shared.server = state.server
  clients : shared.clients = state.clients.map .running
  board : shared.board = state.board

def SharedBoard.pending (shared : SharedBoard R A) : List (Entry MpraceRequest) :=
  match R.queues shared.requests requestQueue with
  | some own => own.queue.entries
  | none => []

theorem Represents.pending {shared : SharedBoard R A} {state : Processes}
    (represents : Represents shared state) : shared.pending = state.requests.entries := by
  unfold SharedBoard.pending
  rw [represents.requests]

/-- The read that a buffer request is answered with has brought what is on the board. -/
def Event.Served (oldRegisters : Bool) (shared : SharedBoard R A) : Event → Prop
  | .work read => ∀ request, shared.server = .opened request →
      request.type = requestTypeGetBuffer → ∃ buf, read = .returned buf ∧
        ∀ c < maxBlockram, buf c = shared.board ((fpgaAddr oldRegisters).toNat + c)
  | _ => True

def Event.move : Event → Move
  | .startFill fillQueue bufferQueue => .startFill fillQueue bufferQueue
  | .startInfo infoQueue => .startInfo infoQueue
  | .send c => .send c
  | .receive c => .receive c
  | .remove c => .remove c
  | .takeRequest => .takeRequest
  | .openQueue => .openQueue
  | .work _ => .work
  | .sendAnswer => .sendAnswer

def Event.starts (event : Event) : Bool := event.move.starts

theorem fill_from_linear {windows : Windows} {start : U32} (draws : ℕ → U32) (size mask : U32)
    (left i : ℕ) (temp : U32) (board : Words)
    (fits : start.toNat + i + left ≤ windows.memSize.toNat) :
    fillFrom windows start draws size .linear mask left i temp board = (none, fun address =>
      if start.toNat + i ≤ address ∧ address < start.toNat + i + left then
        ((BitVec.ofNat 32 (address - start.toNat)).setWidth 8).setWidth 32
      else board address) := by
  induction left generalizing i temp board with
  | zero =>
      rw [fillFrom]
      congr
      funext address
      rw [if_neg (by omega)]
  | succ left ih =>
      have bound := windows.memSize.isLt
      have here : (start + BitVec.ofNat 32 i).toNat = start.toNat + i := by
        rw [BitVec.toNat_add, BitVec.toNat_ofNat]
        omega
      have inside : start + BitVec.ofNat 32 i < windows.memSize := by
        rw [BitVec.lt_def, here]
        omega
      have written : ∀ value, writeWord windows (start + BitVec.ofNat 32 i) value board =
          (none, Function.update board (start.toNat + i) value) := by
        intro value
        unfold writeWord ABB.write storeWord
        rw [if_neg (BitVec.not_le.mpr inside), here]
      rw [fillFrom, written]
      dsimp only
      rw [ih _ _ _ (by omega)]
      congr
      funext address
      by_cases own : address = start.toNat + i
      · subst own
        rw [if_neg (by omega), if_pos (by omega), Function.update_self, Nat.add_sub_cancel_left]
        rfl
      · have same : (start.toNat + (i + 1) ≤ address ∧ address < start.toNat + (i + 1) + left) ↔
            (start.toNat + i ≤ address ∧ address < start.toNat + i + (left + 1)) := by omega
        simp only [same, Function.update_of_ne own]

section Steps

variable {shared : SharedBoard R A} {state : Processes} {oldRegisters : Bool} {windows : Windows}

theorem Represents.running (represents : Represents shared state) (c : ℕ) :
    shared.running c = state.clients[c]? := by
  unfold SharedBoard.running
  rw [represents.clients, List.getElem?_map]
  cases state.clients[c]? <;> rfl

theorem Represents.setClient (represents : Represents shared state) (c : ℕ) (client : Client) :
    Represents (shared.setClient c (.running client)) (state.setClient c client) := by
  constructor
  · exact represents.requests
  · exact represents.answers
  · exact represents.server
  · simp only [SharedBoard.setClient, Processes.setClient, represents.clients, List.map_set]
  · exact represents.board

theorem Represents.with_requests (represents : Represents shared state) {requests : R.Shared}
    {queue : Queue MpraceRequest}
    (queues : R.queues requests = Function.update (R.queues shared.requests) requestQueue
      (some ⟨requestSize, queue⟩)) :
    Represents { shared with requests := requests } { state with requests := queue } := by
  constructor
  · rw [queues, Function.update_self]
  · exact represents.answers
  · exact represents.server
  · exact represents.clients
  · exact represents.board

theorem Represents.with_answers (represents : Represents shared state) {answers : A.Shared}
    {name : QueueName} {own : AnswerQueue}
    (queues : A.queues answers = Function.update (A.queues shared.answers) name (some own)) :
    Represents { shared with answers := answers }
      { state with answerQueues := Function.update state.answerQueues name (some own) } := by
  constructor
  · exact represents.requests
  · rw [queues, represents.answers]
  · exact represents.server
  · exact represents.clients
  · exact represents.board

theorem Represents.with_server (represents : Represents shared state) (server : Server) :
    Represents { shared with server := server } { state with server := server } := by
  constructor
  · exact represents.requests
  · exact represents.answers
  · rfl
  · exact represents.clients
  · exact represents.board

theorem send_follows (documented : R.Documented) (represents : Represents shared state) (c : ℕ) :
    Option.Rel Represents (shared.sendRequest c) (state.sendRequest c) := by
  unfold SharedBoard.sendRequest Processes.sendRequest
  rw [represents.running]
  cases state.clients[c]? with
  | none => exact .none
  | some client =>
      simp only [Option.bind_some]
      cases client.program.requests[client.sent]? with
      | none => exact .none
      | some pair =>
          obtain ⟨request, priority⟩ := pair
          have law := documented.send _ _ _ request requestSize priority represents.requests
            (Nat.le_refl _)
          simp only [Option.bind_some]
          cases sent : state.requests.send request priority with
          | none =>
              rw [sent] at law
              rw [law]
              exact .none
          | some queue =>
              rw [sent] at law
              obtain ⟨requests, returned, queues⟩ := law
              rw [returned]
              exact .some ((represents.with_requests queues).setClient c _)

theorem Program.answer_size (program : Program) (name : QueueName) :
    (program.answerOn name).size = program.answerSize name := by
  cases program with
  | testFillRequests fillQueue bufferQueue =>
      dsimp only [answerOn, answerSize]
      split <;> rfl
  | testInfoRequests infoQueue => rfl

theorem receive_follows (documented : A.Documented) (represents : Represents shared state)
    (books : Books state) (c : ℕ) :
    Option.Rel Represents (shared.receiveAnswer c) (state.receiveAnswer c) := by
  unfold SharedBoard.receiveAnswer Processes.receiveAnswer
  rw [represents.running]
  cases found : state.clients[c]? with
  | none => exact .none
  | some client =>
      simp only [Option.bind_some]
      split
      · exact .none
      cases next : client.program.receives[client.answers.length]? with
      | none => exact .none
      | some name =>
          have live : client.removed = false := by
            by_contra removed
            have all := (books.gone c client found (by simpa using removed)).2
            have bound := (List.getElem?_eq_some_iff.mp next).1
            omega
          obtain ⟨own, account⟩ := books.accounts c client found live name
            (Program.receives_own (List.mem_of_getElem? next))
          have there : A.queues shared.answers name = some own := by
            rw [represents.answers, account.found]
          have opened : (if client.program.receives.idxOf name = client.answers.length then
              A.attach shared.answers name else .returns ()) = .returns () := by
            rw [documented.attach, there]
            split <;> rfl
          have law := documented.receive _ _ own (client.program.answerSize name) there
            (by rw [account.size, Program.answer_size])
          simp only [Option.bind_some, opened, account.found]
          cases received : own.queue.receive with
          | none =>
              rw [received] at law
              rw [law]
              exact .none
          | some pair =>
              obtain ⟨first, queue⟩ := pair
              rw [received] at law
              obtain ⟨answers, returned, queues⟩ := law
              rw [returned]
              exact .some ((represents.with_answers queues).setClient c _)

theorem remove_follows (documented : A.Documented) (represents : Represents shared state) (c : ℕ) :
    Option.Rel Represents (shared.removeQueues c) (state.removeQueues c) := by
  unfold SharedBoard.removeQueues Processes.removeQueues
  rw [represents.running]
  cases state.clients[c]? with
  | none => exact .none
  | some client =>
      simp only [Option.bind_some]
      split
      · have gone : Represents
            { shared with answers := client.program.queues.foldl A.remove shared.answers }
            { state with answerQueues := fun name =>
              if name ∈ client.program.queues then none else state.answerQueues name } := by
          constructor
          · exact represents.requests
          · funext name
            rw [documented.remove_all, represents.answers]
          · exact represents.server
          · exact represents.clients
          · exact represents.board
        exact .some (gone.setClient c _)
      · exact .none

theorem take_follows (documented : R.Documented) (represents : Represents shared state) :
    Option.Rel Represents shared.takeRequest state.takeRequest := by
  unfold SharedBoard.takeRequest Processes.takeRequest
  rw [represents.server]
  cases state.server with
  | waiting =>
      have law := documented.receive _ _ _ requestSize represents.requests (Nat.le_refl _)
      dsimp only at law ⊢
      cases received : state.requests.receive with
      | none =>
          rw [received] at law
          rw [law]
          exact .none
      | some pair =>
          obtain ⟨first, queue⟩ := pair
          rw [received] at law
          obtain ⟨requests, returned, queues⟩ := law
          rw [returned]
          exact .some ((represents.with_requests queues).with_server _)
  | _ => exact .none

theorem open_follows (documented : A.Documented) (represents : Represents shared state) :
    Option.Rel Represents shared.openQueue state.openQueue := by
  unfold SharedBoard.openQueue Processes.openQueue
  rw [represents.server]
  cases state.server with
  | taken request =>
      dsimp only
      split
      · rw [documented.attach, represents.answers]
        cases state.answerQueues request.answerQueue with
        | none => exact .some (represents.with_server _)
        | some own => exact .some (represents.with_server _)
      · exact .some (represents.with_server _)
  | _ => exact .none

theorem fill_fits (fits : (fpgaAddr oldRegisters).toNat + maxBlockram ≤ windows.memSize.toNat)
    (draws : ℕ → U32) (mask : U32) (board : Words) :
    fillFpgaBuffer oldRegisters windows draws 0 (BitVec.ofNat 32 maxBlockram) .linear mask board =
      (none, filledBoard (fpgaAddr oldRegisters).toNat board) := by
  have zero : fpgaAddr oldRegisters + 0 = fpgaAddr oldRegisters := BitVec.add_zero _
  have size : (BitVec.ofNat 32 maxBlockram).toNat = maxBlockram := by decide
  unfold fillFpgaBuffer filledBoard
  rw [zero, size, fill_from_linear draws _ mask maxBlockram 0 1 board (by omega)]
  rfl

theorem work_follows (fits : (fpgaAddr oldRegisters).toNat + maxBlockram ≤ windows.memSize.toNat)
    (represents : Represents shared state) (books : Books state) {read : Readout}
    (served : Event.Served oldRegisters shared (.work read)) :
    Option.Rel Represents (shared.work oldRegisters windows read)
      (state.work (fpgaAddr oldRegisters).toNat) := by
  unfold SharedBoard.work Processes.work
  rw [represents.server]
  cases at_ : state.server with
  | opened request =>
      dsimp only
      split
      · rw [fill_fits fits, represents.board]
        apply Option.Rel.some
        constructor
        · exact represents.requests
        · exact represents.answers
        · rfl
        · exact represents.clients
        · rfl
      · rename_i notFill
        split
        · exact .some (represents.with_server _)
        · rename_i notInfo
          obtain ⟨priority, c, client, found, -, member⟩ :=
            books.handled request (by rw [at_]; rfl)
          have buffer : request.type = requestTypeGetBuffer := by
            rcases (Program.request_kind (books.distinct c client found) member).2 with
              ⟨type, -⟩ | ⟨type, -⟩ | ⟨type, -⟩
            · exact absurd type notFill
            · exact absurd type notInfo
            · exact type
          obtain ⟨buf, rfl, brought⟩ := served request (represents.server.trans at_) buffer
          have starts : ¬windows.memSize ≤ fpgaAddr oldRegisters := by
            unfold maxBlockram at fits
            rw [BitVec.not_le, BitVec.lt_def]
            omega
          have short : ¬(8192 : U32) < BitVec.ofNat 32 maxBlockram := by decide
          have data : (List.range maxBlockram).map (fun c => (buf c).setWidth 8) =
              bufferData (fpgaAddr oldRegisters).toNat state.board := by
            unfold bufferData
            apply List.map_congr_left
            intro c member
            rw [brought c (List.mem_range.mp member), represents.board]
          simp only [ABB.readDMA, guardedLength, if_neg starts, if_neg short, if_true, data]
          exact .some (represents.with_server _)
  | _ => exact .none

theorem answer_follows (documented : A.Documented) (represents : Represents shared state)
    {base : ℕ} (books : Books state) (contents : Contents base state) :
    Option.Rel Represents shared.sendAnswer state.sendAnswer := by
  cases at_ : state.server with
  | worked request answer =>
      obtain ⟨c, client, own, queue, -, -, -, right, account, sent, given⟩ :=
        answer_given books contents at_
      have there : A.queues shared.answers request.answerQueue = some own := by
        rw [represents.answers, account.found]
      have law := documented.send _ _ own answer answer.size 0 there
        (by rw [account.size, ← right])
      rw [sent] at law
      obtain ⟨answers, returned, queues⟩ := law
      rw [given]
      unfold SharedBoard.sendAnswer
      rw [represents.server, at_]
      dsimp only
      rw [returned]
      exact .some ((represents.with_answers queues).with_server _)
  | _ =>
      unfold SharedBoard.sendAnswer Processes.sendAnswer
      rw [represents.server, at_]
      exact .none

theorem opened_follows (documented : A.Documented) (represents : Represents shared state)
    {start name : String} {size : ℕ} {after : SharedBoard R A}
    (opened : shared.openMessageQueue start name size = some after) :
    ∃ next, state.openMessageQueue name size = some next ∧ Represents after next := by
  unfold SharedBoard.openMessageQueue at opened
  split at opened
  · split at opened
    · rename_i answers made
      cases opened
      obtain ⟨free, queues⟩ := documented.create _ _ _ _ _ made
      refine ⟨_, ?_, represents.with_answers queues⟩
      unfold Processes.openMessageQueue
      rw [← represents.answers, free]
    · cases opened
  · cases opened

theorem started_follows (represents : Represents shared state) {program : Program}
    {after : SharedBoard R A} (started : shared.start program = some after) :
    Represents after (state.start program) := by
  unfold SharedBoard.start at started
  split at started
  · cases started
    constructor
    · exact represents.requests
    · exact represents.answers
    · exact represents.server
    · simp only [Processes.start, represents.clients, List.map_append, List.map_singleton]
    · exact represents.board
  · cases started

section Events

variable (requests : R.Documented) (answers : A.Documented)
  (fits : (fpgaAddr oldRegisters).toNat + maxBlockram ≤ windows.memSize.toNat)

include requests answers fits

theorem serving_follows (represents : Represents shared state) {base : ℕ}
    (sound : Sound base state) {event : Event} (serving : event.starts = false)
    (served : event.Served oldRegisters shared) :
    Option.Rel Represents (shared.step oldRegisters windows event)
      (state.move (fpgaAddr oldRegisters).toNat event.move) := by
  cases event with
  | startFill fillQueue bufferQueue => cases serving
  | startInfo infoQueue => cases serving
  | send c => exact send_follows requests represents c
  | receive c => exact receive_follows answers represents sound.books c
  | remove c => exact remove_follows answers represents c
  | takeRequest => exact take_follows requests represents
  | openQueue => exact open_follows answers represents
  | work read => exact work_follows fits represents sound.books served
  | sendAnswer => exact answer_follows answers represents sound.books sound.contents

theorem step_follows (represents : Represents shared state) {base : ℕ} (sound : Sound base state)
    {event : Event} (served : event.Served oldRegisters shared) {after : SharedBoard R A}
    (step : shared.step oldRegisters windows event = some after) :
    ∃ next, state.move (fpgaAddr oldRegisters).toNat event.move = some next ∧
      Represents after next := by
  cases serving : event.starts with
  | false =>
      have follows := serving_follows requests answers fits represents sound serving served
      rw [step] at follows
      exact followed_by follows
  | true =>
      cases event with
      | startFill fillQueue bufferQueue =>
          obtain ⟨created, first, rest⟩ := Option.bind_eq_some_iff.mp step
          obtain ⟨ready, second, started⟩ := Option.bind_eq_some_iff.mp rest
          obtain ⟨one, made, held⟩ := opened_follows answers represents first
          obtain ⟨two, madeToo, heldToo⟩ := opened_follows answers held second
          refine ⟨_, ?_, started_follows heldToo started⟩
          simp only [Event.move, Processes.move, made, madeToo, Option.bind_some, Option.map_some]
      | startInfo infoQueue =>
          obtain ⟨ready, first, started⟩ := Option.bind_eq_some_iff.mp step
          obtain ⟨one, made, held⟩ := opened_follows answers represents first
          refine ⟨_, ?_, started_follows held started⟩
          simp only [Event.move, Processes.move, made, Option.map_some]
      | _ => cases serving

/-- Every state that is reached while the board answers is one of the processes among queues. -/
theorem reached_represents
    (reached : (serverSystem R A oldRegisters windows).ReachableUnder
      (fun shared event => event.Served oldRegisters shared) shared) :
    ∃ state, (ipcSystem (fpgaAddr oldRegisters).toNat).Reachable state ∧
      Represents shared state := by
  apply reachable_simulated _ _ reached
  · intro shared initial
    obtain ⟨made, none_, server, clients⟩ := initial
    refine ⟨⟨Queue.create 100, fun _ => none, .waiting, [], shared.board⟩,
      ⟨rfl, rfl, fun _ => rfl, rfl, rfl⟩, made, funext none_, server, clients, rfl⟩
  · intro shared state event after reachable represents served step
    obtain ⟨next, moved, kept⟩ := step_follows requests answers fits represents
      (reachable_sound reachable) served step
    exact ⟨event.move, next, moved, kept⟩

theorem run_follows {events : List Event} (represents : Represents shared state)
    (sound : Sound (fpgaAddr oldRegisters).toNat state)
    (served : (serverSystem R A oldRegisters windows).Along
      (fun shared event => event.Served oldRegisters shared) shared events)
    {after : SharedBoard R A}
    (run : (serverSystem R A oldRegisters windows).runFrom shared events = some after) :
    ∃ next, (ipcSystem (fpgaAddr oldRegisters).toNat).runFrom state (events.map Event.move) =
      some next ∧ Represents after next := by
  induction events generalizing shared state with
  | nil =>
      cases run
      exact ⟨state, rfl, represents⟩
  | cons event rest ih =>
      obtain ⟨middle, step, later⟩ := System.run_from_cons run
      obtain ⟨now, along⟩ := (System.along_cons step).mp served
      obtain ⟨next, moved, kept⟩ := step_follows requests answers fits represents sound now step
      obtain ⟨last, runs, held⟩ := ih kept (move_keeps sound moved) along later
      refine ⟨last, ?_, held⟩
      have first : (ipcSystem (fpgaAddr oldRegisters).toNat).step state event.move =
          some next := moved
      rw [List.map_cons, System.runFrom, first]
      exact runs

end Events

end Steps

end FpgaPcie.Mprace.Ipc
