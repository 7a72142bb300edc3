import FpgaPcie.Mprace.IpcAnswers

/-!
# The server stays up and every client gets done

With the books no exception ends the server, and no queue keeps it from giving an answer. What is
left to do can be counted: five steps for each request, one for each answer a client takes and one
for each clean-up. Every step but the start of a client takes one off, in whatever order they
come, and while something is left a step can be made.
-/

namespace FpgaPcie.Mprace.Ipc

open FpgaPcie.MessageQueue FpgaPcie.Transition

set_option autoImplicit false

section Steps

variable {base : ℕ} {state after : Processes}

theorem busy_for_worked (request : MpraceRequest) (answer : Answer) (name : QueueName) :
    Server.busyFor (.worked request answer) name = if request.answerQueue = name then 1 else 0 := by
  simp [Server.busyFor, Server.handling]

theorem Account.room {client : Client} {name : QueueName} {own : AnswerQueue}
    (account : Account state client name own) (distinct : client.program.Distinct)
    (member : name ∈ client.program.queues) (busy : 0 < state.server.busyFor name) :
    own.queue.entries.length < own.queue.capacity := by
  have balance := account.balance
  have all := (Program.balanced distinct member).2
  have some_ : client.unreceived name ≤ client.program.receives.count name := by
    unfold Client.unreceived
    exact (List.drop_sublist _ _).count_le name
  rw [account.capacity]
  omega

/-- The queue that the request names is there, takes messages of the size and is not full. -/
theorem answer_given (books : Books state) (contents : Contents base state)
    {request : MpraceRequest} {answer : Answer} (worked : state.server = .worked request answer) :
    ∃ (c : ℕ) (client : Client) (own : AnswerQueue) (queue : Queue Answer),
      state.clients[c]? = some client ∧ client.removed = false ∧
      request.answerQueue ∈ client.program.queues ∧
      answer = client.program.answerOn request.answerQueue ∧
      Account state client request.answerQueue own ∧ own.queue.send answer 0 = some queue ∧
      state.sendAnswer = some { state with
        answerQueues := Function.update state.answerQueues request.answerQueue
          (some { own with queue := queue })
        server := .waiting } := by
  obtain ⟨priority, owned⟩ := books.handled request (by rw [worked]; rfl)
  obtain ⟨c, client, own, found, live, member, ownName, account⟩ := books.owned_account owned
  have right := contents.worked request answer worked c client priority found live member
  have busy : 0 < state.server.busyFor request.answerQueue := by
    rw [worked, busy_for_worked, if_pos rfl]
    exact Nat.one_pos
  have room := account.room (books.distinct c client found) ownName busy
  obtain ⟨queue, sent⟩ : ∃ queue, own.queue.send answer 0 = some queue := Queue.send_isSome room
  refine ⟨c, client, own, queue, found, live, ownName, right, account, sent, ?_⟩
  have fits : ¬own.maxMsgSize < answer.size := by
    rw [account.size, ← right]
    exact Nat.lt_irrefl _
  unfold Processes.sendAnswer
  rw [worked]
  simp only [account.found, if_neg fits, sent, Option.map_some]

theorem books_answer (books : Books state) (contents : Contents base state)
    (step : state.sendAnswer = some after) : Books after := by
  cases at_ : state.server with
  | worked request answer =>
      obtain ⟨c, client, own, queue, found, live, ownName, right, account, sent, given⟩ :=
        answer_given books contents at_
      rw [given, Option.some.injEq] at step
      subst step
      obtain ⟨-, capacity, entries⟩ := Queue.send_some_iff.mp sent
      refine @Books.served state _ books rfl ?_ ?_ ?_ ?_
      · intro same
        cases same
      · intro other name box old
        have balance := old.balance
        rw [at_, busy_for_worked] at balance
        by_cases same : request.answerQueue = name
        · subst same
          have one := old.found
          rw [account.found, Option.some.injEq] at one
          subst one
          refine ⟨_, Function.update_self _ _ _, capacity.trans old.capacity, old.size, ?_⟩
          rw [if_pos rfl] at balance
          simp only [entries, insert_length]
          have free : Server.busyFor .waiting request.answerQueue = 0 := rfl
          simp only [Processes.queued] at balance ⊢
          omega
        · rw [if_neg same] at balance
          refine ⟨box, old.moved (Function.update_of_ne (Ne.symm same) _ _) rfl ?_⟩
          rw [at_, busy_for_worked, if_neg same]
          rfl
      · exact fun entry inside => inside
      · intro other handling
        cases handling
  | waiting => simp [Processes.sendAnswer, at_] at step
  | taken request => simp [Processes.sendAnswer, at_] at step
  | opened request => simp [Processes.sendAnswer, at_] at step
  | exited => simp [Processes.sendAnswer, at_] at step

theorem contents_answer (contents : Contents base state) (books : Books state)
    (step : state.sendAnswer = some after) : Contents base after := by
  cases at_ : state.server with
  | worked request answer =>
      obtain ⟨c, client, own, queue, found, live, ownName, right, account, sent, given⟩ :=
        answer_given books contents at_
      rw [given, Option.some.injEq] at step
      subst step
      obtain ⟨-, -, entries⟩ := Queue.send_some_iff.mp sent
      have same : ∀ front, Primed base state front → Primed base { state with
          answerQueues := Function.update state.answerQueues request.answerQueue
            (some { own with queue := queue })
          server := .waiting } front := by
        intro front primed
        rcases primed with filled | filling | queued
        · exact Or.inl filled
        · exact absurd filling (not_about_to_fill at_)
        · exact Or.inr (Or.inr queued)
      constructor
      · exact contents.given
      · intro d other there liveOther name member box boxed entry inside
        by_cases here : name = request.answerQueue
        · subst here
          have one := books.apart c d client other found there live liveOther _ ownName member
          subst one
          rw [found, Option.some.injEq] at there
          subst there
          simp only [Function.update_self, Option.some.injEq] at boxed
          subst boxed
          rw [entries] at inside
          rcases mem_insert.mp inside with rfl | before
          · exact right
          · exact contents.right c client found live _ member own account.found entry before
        · simp only [Function.update_of_ne here] at boxed
          exact contents.right d other there liveOther name member box boxed entry inside
      · intro asked given_ worked
        cases worked
      · intro asked serving
        rcases serving with taken | opened
        · cases taken
        · cases opened
      · exact fun d other there some_ fills => same _ (contents.primed d other there some_ fills)
      · exact fun front entry back split buffer =>
          same _ (contents.ahead front entry back split buffer)
  | waiting => simp [Processes.sendAnswer, at_] at step
  | taken request => simp [Processes.sendAnswer, at_] at step
  | opened request => simp [Processes.sendAnswer, at_] at step
  | exited => simp [Processes.sendAnswer, at_] at step

theorem opened_queue {name : QueueName} {size : ℕ}
    (opened : state.openMessageQueue name size = some after) :
    state.answerQueues name = none ∧ after = { state with
      answerQueues := Function.update state.answerQueues name (some ⟨size, Queue.create 10⟩) } := by
  unfold Processes.openMessageQueue at opened
  split at opened
  · cases opened
  · rename_i free
    cases opened
    exact ⟨free, rfl⟩

/-- A start makes the queues of a program under names that were free, and nothing else. -/
structure Started (state after : Processes) (program : Program) : Prop where
  distinct : program.Distinct
  fresh : ∀ name ∈ program.queues, state.answerQueues name = none
  made : ∀ name ∈ program.queues, after.answerQueues name =
    some ⟨(program.answerOn name).size, Queue.create 10⟩
  kept : ∀ name, name ∉ program.queues → after.answerQueues name = state.answerQueues name
  requests : after.requests = state.requests
  server : after.server = state.server
  clients : after.clients = state.clients ++ [⟨program, 0, [], false⟩]
  board : after.board = state.board

theorem start_fill_started {fillQueue bufferQueue : QueueName}
    (step : state.move base (.startFill fillQueue bufferQueue) = some after) :
    Started state after (.testFillRequests fillQueue bufferQueue) := by
  obtain ⟨created, first, rest⟩ := Option.bind_eq_some_iff.mp step
  obtain ⟨ready, second, rfl⟩ := Option.map_eq_some_iff.mp rest
  obtain ⟨freeFill, rfl⟩ := opened_queue first
  obtain ⟨freeBuffer, rfl⟩ := opened_queue second
  dsimp only at freeBuffer
  have differ : bufferQueue ≠ fillQueue := by
    intro same
    rw [same, Function.update_self] at freeBuffer
    cases freeBuffer
  rw [Function.update_of_ne differ] at freeBuffer
  constructor
  · simpa [Program.Distinct, Program.queues] using differ.symm
  · intro name member
    have either : name = fillQueue ∨ name = bufferQueue := by simpa [Program.queues] using member
    rcases either with rfl | rfl
    · exact freeFill
    · exact freeBuffer
  · intro name member
    have either : name = fillQueue ∨ name = bufferQueue := by simpa [Program.queues] using member
    dsimp only [Processes.start]
    rcases either with rfl | rfl
    · rw [Function.update_of_ne differ.symm, Function.update_self, Program.answerOn, if_pos rfl]
      rfl
    · rw [Function.update_self, Program.answerOn, if_neg differ]
      rfl
  · intro name foreign
    have neither : name ≠ fillQueue ∧ name ≠ bufferQueue := by
      simpa [Program.queues] using foreign
    dsimp only [Processes.start]
    rw [Function.update_of_ne neither.2, Function.update_of_ne neither.1]
  all_goals rfl

theorem start_info_started {infoQueue : QueueName}
    (step : state.move base (.startInfo infoQueue) = some after) :
    Started state after (.testInfoRequests infoQueue) := by
  obtain ⟨ready, opened, rfl⟩ := Option.map_eq_some_iff.mp step
  obtain ⟨free, rfl⟩ := opened_queue opened
  constructor
  · simp [Program.Distinct, Program.queues]
  · intro name member
    have same : name = infoQueue := by simpa [Program.queues] using member
    rw [same]
    exact free
  · intro name member
    have same : name = infoQueue := by simpa [Program.queues] using member
    dsimp only [Processes.start]
    rw [same, Function.update_self]
    rfl
  · intro name foreign
    have differ : name ≠ infoQueue := by simpa [Program.queues] using foreign
    exact Function.update_of_ne differ _ _
  all_goals rfl

def Tidy (state : Processes) : Prop :=
  ∀ name own, state.answerQueues name = some own → ∃ (c : ℕ) (client : Client),
    state.clients[c]? = some client ∧ client.removed = false ∧ name ∈ client.program.queues

theorem Tidy.kept (tidy : Tidy state)
    (queues : ∀ name own, after.answerQueues name = some own →
      ∃ own, state.answerQueues name = some own)
    (clients : ∀ (c : ℕ) (client : Client), state.clients[c]? = some client →
      client.removed = false → ∃ next : Client, after.clients[c]? = some next ∧
        next.removed = false ∧ next.program = client.program) : Tidy after := by
  intro name own there
  obtain ⟨own, before⟩ := queues name own there
  obtain ⟨c, client, found, live, member⟩ := tidy name own before
  obtain ⟨next, foundNext, liveNext, same⟩ := clients c client found live
  exact ⟨c, next, foundNext, liveNext, by rw [same]; exact member⟩

theorem Tidy.start (tidy : Tidy state) {program : Program} (started : Started state after program) :
    Tidy after := by
  intro name own there
  by_cases new : name ∈ program.queues
  · refine ⟨state.clients.length, ⟨program, 0, [], false⟩, ?_, rfl, new⟩
    rw [started.clients, List.getElem?_append_right (Nat.le_refl _), Nat.sub_self]
    rfl
  · rw [started.kept name new] at there
    obtain ⟨c, client, found, live, member⟩ := tidy name own there
    have bound := (List.getElem?_eq_some_iff.mp found).1
    exact ⟨c, client, by rw [started.clients, List.getElem?_append_left bound, found], live, member⟩

/-- A client that changes in what it has sent and received is still there. -/
theorem edited_client {clients : List Client} {c : ℕ} {client : Client} (next : Client)
    (found : clients[c]? = some client) (stays : next.removed = client.removed)
    (program : next.program = client.program) (d : ℕ) (other : Client)
    (there : clients[d]? = some other) (live : other.removed = false) :
    ∃ kept : Client, (clients.set c next)[d]? = some kept ∧ kept.removed = false ∧
      kept.program = other.program := by
  by_cases same : d = c
  · subst same
    rw [found, Option.some.injEq] at there
    subst there
    have bound := (List.getElem?_eq_some_iff.mp found).1
    exact ⟨next, List.getElem?_set_self bound, stays.trans live, program⟩
  · exact ⟨other, by rw [List.getElem?_set_ne (Ne.symm same), there], live, rfl⟩

structure Sound (base : ℕ) (state : Processes) : Prop where
  books : Books state
  contents : Contents base state
  tidy : Tidy state
  capacity : state.requests.capacity = 100

theorem Sound.started (sound : Sound base state) {program : Program}
    (started : Started state after program) : Sound base after where
  books := sound.books.start started.distinct started.fresh started.made started.kept
    started.requests started.server started.clients
  contents := sound.contents.start sound.books started.distinct started.fresh started.made
    started.kept started.requests started.server started.clients started.board
  tidy := sound.tidy.start started
  capacity := by
    rw [started.requests]
    exact sound.capacity

/-- What a client has left: five steps for a request, one for an answer, one for the queues. -/
def Client.left (client : Client) : ℕ :=
  5 * (client.program.requests.length - client.sent) +
    (client.program.receives.length - client.answers.length) + if client.removed then 0 else 1

def Server.left : Server → ℕ
  | .waiting => 0
  | .taken _ => 3
  | .opened _ => 2
  | .worked _ _ => 1
  | .exited => 0

def Processes.left (state : Processes) : ℕ :=
  (state.clients.map Client.left).sum + 4 * state.requests.entries.length + state.server.left

theorem set_left {clients : List Client} {c : ℕ} {client : Client} (next : Client)
    (found : clients[c]? = some client) :
    ((clients.set c next).map Client.left).sum + client.left =
      (clients.map Client.left).sum + next.left := by
  induction clients generalizing c with
  | nil => simp at found
  | cons head rest ih =>
      cases c with
      | zero =>
          rw [List.getElem?_cons_zero, Option.some.injEq] at found
          subst found
          simp only [List.set_cons_zero, List.map_cons, List.sum_cons]
          omega
      | succ c =>
          rw [List.getElem?_cons_succ] at found
          have later := ih found
          simp only [List.set_cons_succ, List.map_cons, List.sum_cons]
          omega

theorem send_keeps (sound : Sound base state) {c : ℕ} (step : state.sendRequest c = some after) :
    Sound base after ∧ state.left = after.left + 1 := by
  have books := books_send sound.books step
  have contents := contents_send sound.contents step
  obtain ⟨client, found, rest⟩ := Option.bind_eq_some_iff.mp step
  obtain ⟨⟨request, priority⟩, next, sends⟩ := Option.bind_eq_some_iff.mp rest
  obtain ⟨requests, sent, rfl⟩ := Option.map_eq_some_iff.mp sends
  obtain ⟨-, capacity, entries⟩ := Queue.send_some_iff.mp sent
  have bound := (List.getElem?_eq_some_iff.mp next).1
  constructor
  · refine ⟨books, contents, ?_, capacity.trans sound.capacity⟩
    exact sound.tidy.kept (fun _ own there => ⟨own, there⟩)
      (edited_client { client with sent := client.sent + 1 } found rfl rfl)
  · have moved := set_left { client with sent := client.sent + 1 } found
    simp only [Processes.left, Processes.setClient, entries, insert_length]
    simp only [Client.left] at moved ⊢
    omega

theorem receive_keeps (sound : Sound base state) {c : ℕ}
    (step : state.receiveAnswer c = some after) :
    Sound base after ∧ state.left = after.left + 1 := by
  have books := books_receive sound.books step
  have contents := contents_receive sound.contents sound.books step
  obtain ⟨client, name, own, first, queue, found, -, next, exists_, -, rfl⟩ := receive_cases step
  have bound := (List.getElem?_eq_some_iff.mp next).1
  constructor
  · refine ⟨books, contents, ?_, sound.capacity⟩
    refine sound.tidy.kept ?_ (edited_client { client with
      answers := client.answers ++ [first.2] } found rfl rfl)
    intro named box there
    by_cases same : named = name
    · exact ⟨own, by rw [same, exists_]⟩
    · exact ⟨box, (Function.update_of_ne same _ _).symm.trans there⟩
  · have moved := set_left { client with answers := client.answers ++ [first.2] } found
    simp only [Processes.left, Processes.setClient]
    simp only [Client.left, List.length_append, List.length_singleton] at moved ⊢
    omega

theorem remove_keeps (sound : Sound base state) {c : ℕ}
    (step : state.removeQueues c = some after) :
    Sound base after ∧ state.left = after.left + 1 := by
  have books := books_remove sound.books step
  have contents := contents_remove sound.contents step
  obtain ⟨client, found, rest⟩ := Option.bind_eq_some_iff.mp step
  split at rest
  swap
  · cases rest
  rename_i ready
  cases rest
  constructor
  · refine ⟨books, contents, ?_, sound.capacity⟩
    intro name own there
    have kept : (if name ∈ client.program.queues then none else state.answerQueues name) =
        some own := there
    split at kept
    · cases kept
    · rename_i foreign
      obtain ⟨d, other, foundOther, live, member⟩ := sound.tidy name own kept
      refine ⟨d, other, ?_, live, member⟩
      have differ : c ≠ d := by
        intro same
        subst same
        rw [found, Option.some.injEq] at foundOther
        subst foundOther
        exact foreign member
      exact (List.getElem?_set_ne differ).trans foundOther
  · have moved := set_left { client with removed := true } found
    simp only [Processes.left, Processes.setClient]
    simp only [Client.left, ready.1] at moved ⊢
    simp only [if_true, Bool.false_eq_true, if_false] at moved
    omega

theorem take_keeps (sound : Sound base state) (step : state.takeRequest = some after) :
    Sound base after ∧ state.left = after.left + 1 := by
  have books := books_take sound.books step
  have contents := contents_take sound.contents step
  unfold Processes.takeRequest at step
  split at step
  swap
  · cases step
  rename_i idle
  obtain ⟨⟨first, requests⟩, received, rfl⟩ := Option.map_eq_some_iff.mp step
  obtain ⟨capacity, entries⟩ := Queue.receive_some_iff.mp received
  constructor
  · refine ⟨books, contents, ?_, capacity.trans sound.capacity⟩
    exact sound.tidy
  · simp only [Processes.left, idle, Server.left, entries, List.length_cons]
    omega

theorem open_keeps (sound : Sound base state) (step : state.openQueue = some after) :
    Sound base after ∧ state.left = after.left + 1 := by
  obtain ⟨books, request, taken, rfl⟩ := books_open sound.books step
  constructor
  · exact ⟨books, contents_open sound.contents taken, sound.tidy, sound.capacity⟩
  · simp only [Processes.left, taken, Server.left]

theorem work_keeps (sound : Sound base state) (step : state.work base = some after) :
    Sound base after ∧ state.left = after.left + 1 := by
  have books := books_work sound.books step
  have contents := contents_work sound.contents sound.books step
  obtain ⟨request, answer, opened, worked, requests, queues, clients, -⟩ := work_cases step
  constructor
  · refine ⟨books, contents, ?_, by rw [requests]; exact sound.capacity⟩
    unfold Tidy
    rw [queues, clients]
    exact sound.tidy
  · simp only [Processes.left, opened, worked, requests, clients, Server.left]

theorem answer_keeps (sound : Sound base state) (step : state.sendAnswer = some after) :
    Sound base after ∧ state.left = after.left + 1 := by
  have books := books_answer sound.books sound.contents step
  have contents := contents_answer sound.contents sound.books step
  cases at_ : state.server with
  | worked request answer =>
      obtain ⟨c, client, own, queue, -, -, -, -, account, -, given⟩ :=
        answer_given sound.books sound.contents at_
      rw [given, Option.some.injEq] at step
      subst step
      constructor
      · refine ⟨books, contents, ?_, sound.capacity⟩
        refine sound.tidy.kept ?_ fun d other there live => ⟨other, there, live, rfl⟩
        intro name box there
        by_cases same : name = request.answerQueue
        · exact ⟨own, by rw [same, account.found]⟩
        · exact ⟨box, (Function.update_of_ne same _ _).symm.trans there⟩
      · simp only [Processes.left, at_, Server.left]
  | waiting => simp [Processes.sendAnswer, at_] at step
  | taken request => simp [Processes.sendAnswer, at_] at step
  | opened request => simp [Processes.sendAnswer, at_] at step
  | exited => simp [Processes.sendAnswer, at_] at step

def Move.starts : Move → Bool
  | .startFill _ _ => true
  | .startInfo _ => true
  | _ => false

theorem serving_keeps (sound : Sound base state) {move : Move} (serving : move.starts = false)
    (step : state.move base move = some after) : Sound base after ∧ state.left = after.left + 1 := by
  cases move with
  | startFill fillQueue bufferQueue => cases serving
  | startInfo infoQueue => cases serving
  | send c => exact send_keeps sound step
  | receive c => exact receive_keeps sound step
  | remove c => exact remove_keeps sound step
  | takeRequest => exact take_keeps sound step
  | openQueue => exact open_keeps sound step
  | work => exact work_keeps sound step
  | sendAnswer => exact answer_keeps sound step

theorem move_keeps (sound : Sound base state) {move : Move}
    (step : state.move base move = some after) : Sound base after := by
  cases serving : move.starts with
  | false => exact (serving_keeps sound serving step).1
  | true =>
      cases move with
      | startFill fillQueue bufferQueue => exact sound.started (start_fill_started step)
      | startInfo infoQueue => exact sound.started (start_info_started step)
      | _ => cases serving

end Steps

variable {base : ℕ} {state after : Processes}

theorem initial_sound (initial : (ipcSystem base).initial state) :
    Sound base state := by
  obtain ⟨capacity, entries, queues, server, clients⟩ := initial
  have nobody : ∀ (c : ℕ) (client : Client), state.clients[c]? ≠ some client := by
    intro c client found
    rw [clients] at found
    cases found
  constructor
  · constructor
    · rw [server]
      intro same
      cases same
    · exact fun c client found => absurd found (nobody c client)
    · exact fun c client found => absurd found (nobody c client)
    · exact fun c client found => absurd found (nobody c client)
    · exact fun c client found => absurd found (nobody c client)
    · exact fun c client found => absurd found (nobody c client)
    · exact fun c d client other found => absurd found (nobody c client)
    · intro entry member
      rw [entries] at member
      cases member
    · intro request handling
      rw [server] at handling
      cases handling
  · constructor
    · exact fun c client found => absurd found (nobody c client)
    · exact fun c client found => absurd found (nobody c client)
    · exact fun request answer worked c client priority found => absurd found (nobody c client)
    · intro request serving
      rw [server] at serving
      rcases serving with same | same <;> cases same
    · exact fun c client found => absurd found (nobody c client)
    · intro front entry back split
      rw [entries] at split
      cases front <;> cases split
  · intro name own there
    rw [queues] at there
    cases there
  · exact capacity

theorem reachable_sound (reached : (ipcSystem base).Reachable state) :
    Sound base state :=
  System.invariant (fun _ initial => initial_sound initial)
    (fun _ _ _ sound step => move_keeps sound step) reached

/-- No exception ends the server: the queue of the request it is at exists, has room for the
answer and takes messages of its size, so that the answer is given without waiting. -/
theorem answers_go_through (reached : (ipcSystem base).Reachable state) :
    state.server ≠ .exited ∧
      (∀ request, state.server.handling = some request →
        ∃ own, state.answerQueues request.answerQueue = some own ∧
          own.queue.entries.length < own.queue.capacity) ∧
      ∀ request answer, state.server = .worked request answer →
        ∃ own queue, state.answerQueues request.answerQueue = some own ∧
          answer.size ≤ own.maxMsgSize ∧ own.queue.send answer 0 = some queue ∧
          state.sendAnswer = some { state with
            answerQueues := Function.update state.answerQueues request.answerQueue
              (some { own with queue := queue })
            server := .waiting } := by
  have sound := reachable_sound reached
  refine ⟨sound.books.alive, ?_, ?_⟩
  · intro request handling
    obtain ⟨priority, owned⟩ := sound.books.handled request handling
    obtain ⟨c, client, own, found, live, -, member, account⟩ := sound.books.owned_account owned
    refine ⟨own, account.found, account.room (sound.books.distinct c client found) member ?_⟩
    exact List.countP_pos_iff.mpr ⟨request, by rw [handling]; simp, by simp⟩
  · intro request answer worked
    obtain ⟨c, client, own, queue, -, -, -, right, account, sent, given⟩ :=
      answer_given sound.books sound.contents worked
    refine ⟨own, queue, account.found, ?_, sent, given⟩
    rw [account.size, right]

theorem Program.sent_and_unsent (client : Client) (name : QueueName) :
    (client.program.requests.take client.sent).countP (fun entry => entry.1.answerQueue = name) +
      client.unsent name =
        client.program.requests.countP fun entry => entry.1.answerQueue = name := by
  unfold Client.unsent
  rw [← List.countP_append, List.take_append_drop]

theorem Program.received_and_unreceived (client : Client) (name : QueueName) :
    (client.program.receives.take client.answers.length).count name + client.unreceived name =
      client.program.receives.count name := by
  unfold Client.unreceived
  rw [← List.count_append, List.take_append_drop]

/-- What a live client has sent for one of its queues is waiting, with the server, in the queue or
received, each request once, and every answer is the one that was asked for. -/
theorem answers_accounted (reached : (ipcSystem base).Reachable state) {c : ℕ}
    {client : Client} (found : state.clients[c]? = some client) (live : client.removed = false) :
    client.answers = client.program.expected.take client.answers.length ∧
      ∀ name ∈ client.program.queues, ∃ own, state.answerQueues name = some own ∧
        (client.program.requests.take client.sent).countP
            (fun entry => entry.1.answerQueue = name) =
          state.queued name + state.server.busyFor name + own.queue.entries.length +
            (client.program.receives.take client.answers.length).count name ∧
        ∀ entry ∈ own.queue.entries, entry.2 = client.program.answerOn name := by
  have sound := reachable_sound reached
  apply And.intro (sound.contents.given c client found)
  intro name member
  obtain ⟨own, account⟩ := sound.books.accounts c client found live name member
  refine ⟨own, account.found, ?_, sound.contents.right c client found live name member own
    account.found⟩
  have balance := account.balance
  have sent := Program.sent_and_unsent client name
  have received := Program.received_and_unreceived client name
  have same := (Program.balanced (sound.books.distinct c client found) member).1
  omega

theorem Client.left_pos {clients : List Client} (some_ : (clients.map Client.left).sum ≠ 0) :
    ∃ (c : ℕ) (client : Client), clients[c]? = some client ∧ client.left ≠ 0 := by
  obtain ⟨left, member, more⟩ := List.sum_pos_iff_exists_pos_nat.mp (Nat.pos_of_ne_zero some_)
  obtain ⟨client, inside, rfl⟩ := List.mem_map.mp member
  obtain ⟨c, found⟩ := List.getElem?_of_mem inside
  exact ⟨c, client, found, Nat.ne_of_gt more⟩

/-- With no work for the server, a client that has something left can go on. -/
theorem client_goes_on (sound : Sound base state) (idle : state.server = .waiting)
    (nothing : state.requests.entries = []) {c : ℕ} {client : Client}
    (found : state.clients[c]? = some client) (more : client.left ≠ 0) :
    ∃ move : Move, move.starts = false ∧ (state.move base move).isSome = true := by
  by_cases unsent : client.sent < client.program.requests.length
  · refine ⟨.send c, rfl, ?_⟩
    have next := List.getElem?_eq_getElem unsent
    have room : state.requests.entries.length < state.requests.capacity := by
      rw [nothing, sound.capacity]
      exact Nat.zero_lt_succ _
    generalize client.program.requests[client.sent] = request at next
    obtain ⟨request, priority⟩ := request
    obtain ⟨queue, sent⟩ : ∃ queue, state.requests.send request priority = some queue :=
      Queue.send_isSome room
    simp only [Processes.move, Processes.sendRequest, found, next, sent, Option.bind_some,
      Option.map_some, Option.isSome_some]
  have all : client.sent = client.program.requests.length :=
    Nat.le_antisymm (sound.books.sent c client found) (Nat.le_of_not_lt unsent)
  by_cases unreceived : client.answers.length < client.program.receives.length
  · refine ⟨.receive c, rfl, ?_⟩
    have next := List.getElem?_eq_getElem unreceived
    have live : client.removed = false := by
      by_contra removed
      have done := (sound.books.gone c client found (by simpa using removed)).2
      omega
    generalize named : client.program.receives[client.answers.length] = name at next
    have member := Program.receives_own (List.mem_of_getElem? next)
    obtain ⟨own, account⟩ := sound.books.accounts c client found live name member
    have balance := account.balance
    have sent : client.unsent name = 0 := by
      rw [Client.unsent, all, List.drop_length]
      rfl
    have waits : state.queued name = 0 := by
      rw [Processes.queued, nothing]
      rfl
    have free : state.server.busyFor name = 0 := by
      rw [idle]
      rfl
    have missing : 0 < client.unreceived name := by
      rw [Client.unreceived, List.drop_eq_getElem_cons unreceived, named, List.count_cons_self]
      exact Nat.succ_pos _
    have there : own.queue.entries ≠ [] := by
      intro none_
      rw [none_, List.length_nil] at balance
      omega
    obtain ⟨first, queue, received⟩ := Queue.receive_isSome there
    simp only [Processes.move, Processes.receiveAnswer, found, all, Nat.lt_irrefl, if_false, next,
      account.found, received, Option.bind_some, Option.map_some, Option.isSome_some]
  · refine ⟨.remove c, rfl, ?_⟩
    have done : client.answers.length = client.program.receives.length :=
      Nat.le_antisymm (sound.books.received c client found) (Nat.le_of_not_lt unreceived)
    have live : client.removed = false := by
      by_contra removed
      apply more
      rw [Client.left, all, done, if_pos (by simpa using removed), Nat.sub_self, Nat.sub_self]
    have ready : client.removed = false ∧
        client.answers.length = client.program.receives.length := ⟨live, done⟩
    simp only [Processes.move, Processes.removeQueues, found, if_pos ready, Option.bind_some,
      Option.isSome_some]

theorem goes_on (sound : Sound base state) (more : state.left ≠ 0) :
    ∃ move : Move, move.starts = false ∧ (state.move base move).isSome = true := by
  cases at_ : state.server with
  | waiting =>
      by_cases nothing : state.requests.entries = []
      · have some_ : (state.clients.map Client.left).sum ≠ 0 := by
          intro none_
          apply more
          rw [Processes.left, none_, nothing, at_]
          rfl
        obtain ⟨c, client, found, more⟩ := Client.left_pos some_
        exact client_goes_on sound at_ nothing found more
      · obtain ⟨first, requests, received⟩ := Queue.receive_isSome nothing
        refine ⟨.takeRequest, rfl, ?_⟩
        simp only [Processes.move, Processes.takeRequest, at_, received, Option.map_some,
          Option.isSome_some]
  | taken request =>
      refine ⟨.openQueue, rfl, ?_⟩
      simp only [Processes.move, Processes.openQueue, at_]
      split
      · split <;> rfl
      · rfl
  | opened request =>
      refine ⟨.work, rfl, ?_⟩
      simp only [Processes.move, Processes.work, at_]
      split
      · rfl
      · split <;> rfl
  | worked request answer =>
      obtain ⟨c, client, own, queue, -, -, -, -, -, -, given⟩ :=
        answer_given sound.books sound.contents at_
      refine ⟨.sendAnswer, rfl, ?_⟩
      rw [Processes.move, given]
      rfl
  | exited => exact absurd at_ sound.books.alive

/-- With nothing left every client has its answers and has cleaned up. -/
theorem nothing_left (sound : Sound base state) (done : state.left = 0) :
    state.server = .waiting ∧ state.requests.entries = [] ∧
      (∀ name, state.answerQueues name = none) ∧
      ∀ client ∈ state.clients, client.removed = true ∧
        client.answers = client.program.expected := by
  have parts : (state.clients.map Client.left).sum = 0 ∧ state.requests.entries.length = 0 ∧
      state.server.left = 0 := by
    unfold Processes.left at done
    omega
  have each : ∀ client ∈ state.clients, client.removed = true ∧
      client.answers.length = client.program.receives.length := by
    intro client member
    have none_ : client.left = 0 :=
      List.sum_eq_zero_iff_forall_eq_nat.mp parts.1 _ (List.mem_map_of_mem member)
    obtain ⟨c, bound, here⟩ := List.getElem_of_mem member
    have received := sound.books.received c client (by rw [List.getElem?_eq_getElem bound, here])
    unfold Client.left at none_
    split at none_
    · rename_i removed
      exact ⟨removed, by omega⟩
    · omega
  refine ⟨?_, List.eq_nil_of_length_eq_zero parts.2.1, ?_, ?_⟩
  · cases at_ : state.server with
    | waiting => rfl
    | exited => exact absurd at_ sound.books.alive
    | taken request =>
        have busy := parts.2.2
        rw [at_] at busy
        cases busy
    | opened request =>
        have busy := parts.2.2
        rw [at_] at busy
        cases busy
    | worked request answer =>
        have busy := parts.2.2
        rw [at_] at busy
        cases busy
  · intro name
    cases there : state.answerQueues name with
    | none => rfl
    | some own =>
        obtain ⟨c, client, found, live, -⟩ := sound.tidy name own there
        have removed := (each client (List.mem_of_getElem? found)).1
        rw [live] at removed
        cases removed
  · intro client member
    obtain ⟨removed, all⟩ := each client member
    obtain ⟨c, bound, here⟩ := List.getElem_of_mem member
    have given := sound.contents.given c client (by rw [List.getElem?_eq_getElem bound, here])
    apply And.intro removed
    rw [given, all]
    apply List.take_of_length_le
    rw [Program.expected, List.length_map]

/-- Without further starts a run has exactly as many steps as are left in the beginning, whatever
their order: until then a step can be made, and then every client has received what it asked for,
the server waits and no queue and no request is left behind. -/
theorem processes_get_done (reached : (ipcSystem base).Reachable state)
    {moves : List Move} (serving : ∀ move ∈ moves, move.starts = false)
    (run : (ipcSystem base).runFrom state moves = some after) :
    moves.length ≤ state.left ∧
      (moves.length < state.left → ∃ move : Move, move.starts = false ∧
        ((ipcSystem base).step after move).isSome = true) ∧
      (moves.length = state.left → after.server = .waiting ∧ after.requests.entries = [] ∧
        (∀ name, after.answerQueues name = none) ∧
        ∀ client ∈ after.clients, client.removed = true ∧
          client.answers = client.program.expected) := by
  have keeps : ∀ state move after, Sound base state → Move.starts move = false →
      (ipcSystem base).step state move = some after →
        Sound base after :=
    fun _ _ _ sound still step => (serving_keeps sound still step).1
  have lowers : ∀ state move after, Sound base state →
      Move.starts move = false → (ipcSystem base).step state move = some after →
        state.left = after.left + 1 :=
    fun _ _ _ sound still step => (serving_keeps sound still step).2
  have sound := System.run_keeps keeps moves (reachable_sound reached) serving run
  have counted := System.run_counts keeps lowers moves (reachable_sound reached) serving run
  refine ⟨by omega, ?_, ?_⟩
  · intro short
    exact goes_on sound (by omega)
  · intro whole
    exact nothing_left sound (by omega)

end FpgaPcie.Mprace.Ipc
