import FpgaPcie.Mprace.IpcQueues

/-!
# Every request is answered once

For each queue of a live client, what it has still to send for that queue, what waits for the
server, what the server is at and what lies in the queue add up to what it has still to receive.
From this no answer queue is ever full when the server comes with an answer, no queue is missing,
and nothing is lost or given twice, whatever the order of the steps.
-/

namespace FpgaPcie.Mprace.Ipc

open FpgaPcie.MessageQueue FpgaPcie.Transition

set_option autoImplicit false

def linearData : List U8 := (List.range maxBlockram).map fun c => BitVec.ofNat 8 c

theorem filled_data (base : ℕ) (board : Words) :
    bufferData base (filledBoard base board) = linearData := by
  unfold bufferData linearData filledBoard
  apply List.map_congr_left
  intro c member
  have bound := List.mem_range.mp member
  have inside : base ≤ base + c ∧ base + c < base + maxBlockram := by omega
  rw [if_pos inside]
  apply BitVec.eq_of_toNat_eq
  simp only [BitVec.toNat_setWidth, BitVec.toNat_ofNat, Nat.add_sub_cancel_left]
  unfold maxBlockram at bound
  omega

namespace Program

def answerOn : Program → QueueName → Answer
  | .testFillRequests fillQueue _, name =>
      if name = fillQueue then .fill "Status: 23" else .buffer linearData
  | .testInfoRequests _, _ => .info "Status: DONT PANIC"

def expected (program : Program) : List Answer := program.receives.map program.answerOn

def Distinct (program : Program) : Prop := program.queues.Nodup

variable {program : Program}

theorem receives_own {name : QueueName} (member : name ∈ program.receives) :
    name ∈ program.queues := by
  cases program with
  | testFillRequests fillQueue bufferQueue => simpa [receives, queues] using member
  | testInfoRequests infoQueue => simpa [receives, queues] using member

/-- As many requests name a queue as answers are taken from it, at most ten. -/
theorem balanced (distinct : program.Distinct) {name : QueueName} (own : name ∈ program.queues) :
    program.requests.countP (fun entry => entry.1.answerQueue = name) =
      program.receives.count name ∧ program.receives.count name ≤ 10 := by
  cases program with
  | testFillRequests fillQueue bufferQueue =>
      have differ : fillQueue ≠ bufferQueue := by
        simpa [Distinct, queues] using distinct
      have either : name = fillQueue ∨ name = bufferQueue := by simpa [queues] using own
      rcases either with rfl | rfl
      · simp [requests, receives, List.countP_map, Function.comp_def, differ.symm]
      · simp [requests, receives, List.countP_map, Function.comp_def, differ]
  | testInfoRequests infoQueue =>
      have same : name = infoQueue := by simpa [queues] using own
      subst same
      simp [requests, receives]

/-- Each request names an own queue, and its type decides what is to come out of it. -/
theorem request_kind (distinct : program.Distinct) {request : MpraceRequest} {priority : ℕ}
    (member : (request, priority) ∈ program.requests) :
    request.answerQueue ∈ program.queues ∧
      ((request.type = requestTypeFill ∧ priority = 0 ∧
          program.answerOn request.answerQueue = .fill "Status: 23") ∨
        (request.type = requestTypeGetInfo ∧ priority = 10 ∧
          program.answerOn request.answerQueue = .info "Status: DONT PANIC") ∨
        (request.type = requestTypeGetBuffer ∧ priority = 0 ∧
          program.answerOn request.answerQueue = .buffer linearData)) := by
  cases program with
  | testFillRequests fillQueue bufferQueue =>
      have differ : bufferQueue ≠ fillQueue := by
        intro same
        simp [Distinct, queues, same] at distinct
      simp only [requests, List.mem_append, List.mem_map, List.mem_singleton, Prod.mk.injEq]
        at member
      rcases member with ⟨c, -, rfl, rfl⟩ | ⟨rfl, rfl⟩
      · exact ⟨by simp [queues], Or.inl ⟨rfl, rfl, by simp [answerOn]⟩⟩
      · exact ⟨by simp [queues], Or.inr (Or.inr ⟨rfl, rfl, by simp [answerOn, differ]⟩)⟩
  | testInfoRequests infoQueue =>
      simp only [requests, List.mem_singleton, Prod.mk.injEq] at member
      obtain ⟨rfl, rfl⟩ := member
      exact ⟨by simp [queues], Or.inr (Or.inl ⟨rfl, rfl, rfl⟩)⟩

end Program

def Server.handling : Server → Option MpraceRequest
  | .waiting => none
  | .taken request => some request
  | .opened request => some request
  | .worked request _ => some request
  | .exited => none

def Client.unsent (client : Client) (name : QueueName) : ℕ :=
  (client.program.requests.drop client.sent).countP fun entry => entry.1.answerQueue = name

def Client.unreceived (client : Client) (name : QueueName) : ℕ :=
  (client.program.receives.drop client.answers.length).count name

def Processes.queued (state : Processes) (name : QueueName) : ℕ :=
  state.requests.entries.countP fun entry => entry.2.answerQueue = name

def Server.busyFor (server : Server) (name : QueueName) : ℕ :=
  server.handling.toList.countP fun request => request.answerQueue = name

/-- The queue of a live client, and the requests that have not been answered into it. -/
structure Account (state : Processes) (client : Client) (name : QueueName) (own : AnswerQueue) :
    Prop where
  found : state.answerQueues name = some own
  capacity : own.queue.capacity = 10
  size : own.maxMsgSize = (client.program.answerOn name).size
  balance : client.unsent name + state.queued name + state.server.busyFor name +
    own.queue.entries.length = client.unreceived name

def Owned (state : Processes) (request : MpraceRequest) (priority : ℕ) : Prop :=
  ∃ (c : ℕ) (client : Client), state.clients[c]? = some client ∧ client.removed = false ∧
    (request, priority) ∈ client.program.requests

structure Books (state : Processes) : Prop where
  alive : state.server ≠ .exited
  distinct : ∀ (c : ℕ) (client : Client), state.clients[c]? = some client → client.program.Distinct
  sent : ∀ (c : ℕ) (client : Client), state.clients[c]? = some client →
    client.sent ≤ client.program.requests.length
  received : ∀ (c : ℕ) (client : Client), state.clients[c]? = some client →
    client.answers.length ≤ client.program.receives.length
  gone : ∀ (c : ℕ) (client : Client), state.clients[c]? = some client → client.removed = true →
    client.sent = client.program.requests.length ∧
      client.answers.length = client.program.receives.length
  accounts : ∀ (c : ℕ) (client : Client), state.clients[c]? = some client → client.removed = false →
    ∀ name ∈ client.program.queues, ∃ own, Account state client name own
  apart : ∀ (c d : ℕ) (client other : Client), state.clients[c]? = some client →
    state.clients[d]? = some other → client.removed = false → other.removed = false →
      ∀ name ∈ client.program.queues, name ∈ other.program.queues → c = d
  waiting : ∀ entry ∈ state.requests.entries, Owned state entry.2 entry.1
  handled : ∀ request, state.server.handling = some request → ∃ priority,
    Owned state request priority

theorem set_cases {clients : List Client} {c d : ℕ} {next other : Client}
    (found : (clients.set c next)[d]? = some other) :
    (d = c ∧ other = next) ∨ (d ≠ c ∧ clients[d]? = some other) := by
  rw [List.getElem?_set] at found
  by_cases same : c = d
  · rw [if_pos same] at found
    split at found
    · cases found
      exact Or.inl ⟨same.symm, rfl⟩
    · cases found
  · rw [if_neg same] at found
    exact Or.inr ⟨Ne.symm same, found⟩

theorem Account.moved {state after : Processes} {client next : Client} {name : QueueName}
    {own : AnswerQueue} (account : Account state client name own)
    (found : after.answerQueues name = state.answerQueues name)
    (program : next.program = client.program)
    (balance : next.unsent name + after.queued name + after.server.busyFor name +
      client.unreceived name = client.unsent name + state.queued name +
        state.server.busyFor name + next.unreceived name) : Account after next name own := by
  have old := account.balance
  constructor
  · rw [found, account.found]
  · exact account.capacity
  · rw [program, account.size]
  · omega

section Steps

variable {state after : Processes}

/-- The owner of a request has an account for the queue it names. -/
theorem Books.owned_account (books : Books state) {request : MpraceRequest} {priority : ℕ}
    (owned : Owned state request priority) :
    ∃ (c : ℕ) (client : Client) (own : AnswerQueue), state.clients[c]? = some client ∧
      client.removed = false ∧ (request, priority) ∈ client.program.requests ∧
      request.answerQueue ∈ client.program.queues ∧
      Account state client request.answerQueue own := by
  obtain ⟨c, client, found, live, member⟩ := owned
  have own := (Program.request_kind (books.distinct c client found) member).1
  obtain ⟨queue, account⟩ := books.accounts c client found live _ own
  exact ⟨c, client, queue, found, live, member, own, account⟩

theorem Books.nothing_queued (books : Books state) {name : QueueName}
    (missing : state.answerQueues name = none) :
    state.queued name = 0 ∧ state.server.busyFor name = 0 := by
  have absent : ∀ request priority, Owned state request priority →
      request.answerQueue ≠ name := by
    intro request priority owned same
    obtain ⟨c, client, own, -, -, -, -, account⟩ := books.owned_account owned
    have found := account.found
    rw [same, missing] at found
    cases found
  constructor
  · apply List.countP_eq_zero.mpr
    intro entry member
    simpa using absent _ _ (books.waiting entry member)
  · apply List.countP_eq_zero.mpr
    intro request member
    obtain ⟨priority, owned⟩ := books.handled request (by simpa using member)
    simpa using absent _ _ owned

theorem Books.start (books : Books state) {program : Program} (distinct : program.Distinct)
    (fresh : ∀ name ∈ program.queues, state.answerQueues name = none)
    (made : ∀ name ∈ program.queues, after.answerQueues name =
      some ⟨(program.answerOn name).size, Queue.create 10⟩)
    (kept : ∀ name, name ∉ program.queues → after.answerQueues name = state.answerQueues name)
    (requests : after.requests = state.requests) (server : after.server = state.server)
    (clients : after.clients = state.clients ++ [⟨program, 0, [], false⟩]) : Books after := by
  have cases_ : ∀ (c : ℕ) (client : Client), after.clients[c]? = some client →
      state.clients[c]? = some client ∨
        (c = state.clients.length ∧ client = ⟨program, 0, [], false⟩) := by
    intro c client found
    rw [clients, List.getElem?_append] at found
    split at found
    · exact Or.inl found
    · rw [List.getElem?_singleton] at found
      split at found
      · rename_i beyond here
        cases found
        exact Or.inr ⟨by omega, rfl⟩
      · cases found
  have still : ∀ (c : ℕ) (client : Client), state.clients[c]? = some client →
      after.clients[c]? = some client := by
    intro c client found
    have bound := (List.getElem?_eq_some_iff.mp found).1
    rw [clients, List.getElem?_append_left bound, found]
  have owned : ∀ request priority, Owned state request priority → Owned after request priority := by
    intro request priority has
    obtain ⟨c, client, found, rest⟩ := has
    exact ⟨c, client, still c client found, rest⟩
  have old : ∀ (c : ℕ) (client : Client), state.clients[c]? = some client → client.removed = false →
      ∀ name ∈ client.program.queues, name ∉ program.queues := by
    intro c client found live name own new
    obtain ⟨queue, account⟩ := books.accounts c client found live name own
    have there := account.found
    rw [fresh name new] at there
    cases there
  constructor
  · rw [server]
    exact books.alive
  · intro c client found
    rcases cases_ c client found with before | ⟨-, rfl⟩
    · exact books.distinct c client before
    · exact distinct
  · intro c client found
    rcases cases_ c client found with before | ⟨-, rfl⟩
    · exact books.sent c client before
    · exact Nat.zero_le _
  · intro c client found
    rcases cases_ c client found with before | ⟨-, rfl⟩
    · exact books.received c client before
    · exact Nat.zero_le _
  · intro c client found removed
    rcases cases_ c client found with before | ⟨-, rfl⟩
    · exact books.gone c client before removed
    · cases removed
  · intro c client found live name own
    rcases cases_ c client found with before | ⟨-, rfl⟩
    · obtain ⟨queue, account⟩ := books.accounts c client before live name own
      have same := kept name (old c client before live name own)
      exact ⟨queue, account.moved same rfl (by simp only [Processes.queued, requests, server])⟩
    · refine ⟨_, made name own, rfl, rfl, ?_⟩
      obtain ⟨none_, idle⟩ := books.nothing_queued (fresh name own)
      have balance := (Program.balanced distinct own).1
      simp only [Processes.queued] at none_ ⊢
      rw [requests, server, none_, idle]
      exact balance
  · intro c d client other found foundOther live liveOther name own ownOther
    rcases cases_ c client found with before | ⟨here, rfl⟩ <;>
      rcases cases_ d other foundOther with beforeOther | ⟨hereOther, rfl⟩
    · exact books.apart c d client other before beforeOther live liveOther name own ownOther
    · exact absurd ownOther (old c client before live name own)
    · exact absurd own (old d other beforeOther liveOther name ownOther)
    · rw [here, hereOther]
  · intro entry member
    rw [requests] at member
    exact owned _ _ (books.waiting entry member)
  · intro request handling
    rw [server] at handling
    obtain ⟨priority, has⟩ := books.handled request handling
    exact ⟨priority, owned _ _ has⟩

theorem Books.edited (books : Books state) {c : ℕ} {client next : Client}
    (found : state.clients[c]? = some client) (program : next.program = client.program)
    (live : client.removed = false) (stays : next.removed = false)
    (clients : after.clients = state.clients.set c next) (server : after.server = state.server)
    (sent : next.sent ≤ client.program.requests.length)
    (received : next.answers.length ≤ client.program.receives.length)
    (own : ∀ name ∈ client.program.queues, ∀ queue, Account state client name queue →
      ∃ queue, Account after next name queue)
    (others : ∀ other : Client, ∀ name, name ∉ client.program.queues → ∀ queue,
      Account state other name queue → ∃ queue, Account after other name queue)
    (waiting : ∀ entry ∈ after.requests.entries, Owned state entry.2 entry.1) : Books after := by
  have owned : ∀ request priority, Owned state request priority → Owned after request priority := by
    intro request priority has
    obtain ⟨d, other, foundOther, liveOther, member⟩ := has
    by_cases same : d = c
    · subst same
      rw [found, Option.some.injEq] at foundOther
      subst foundOther
      have bound := (List.getElem?_eq_some_iff.mp found).1
      refine ⟨d, next, ?_, stays, by rwa [program]⟩
      rw [clients, List.getElem?_set_self bound]
    · exact ⟨d, other, by rw [clients, List.getElem?_set_ne (Ne.symm same), foundOther], liveOther,
        member⟩
  have cases_ : ∀ (d : ℕ) (other : Client), after.clients[d]? = some other →
      (d = c ∧ other = next) ∨ (d ≠ c ∧ state.clients[d]? = some other) := by
    intro d other there
    rw [clients] at there
    exact set_cases there
  constructor
  · rw [server]
    exact books.alive
  · intro d other there
    rcases cases_ d other there with ⟨rfl, rfl⟩ | ⟨-, before⟩
    · rw [program]
      exact books.distinct d client found
    · exact books.distinct d other before
  · intro d other there
    rcases cases_ d other there with ⟨rfl, rfl⟩ | ⟨-, before⟩
    · rwa [program]
    · exact books.sent d other before
  · intro d other there
    rcases cases_ d other there with ⟨rfl, rfl⟩ | ⟨-, before⟩
    · rwa [program]
    · exact books.received d other before
  · intro d other there removed
    rcases cases_ d other there with ⟨rfl, rfl⟩ | ⟨-, before⟩
    · rw [stays] at removed
      cases removed
    · exact books.gone d other before removed
  · intro d other there liveOther name member
    rcases cases_ d other there with ⟨rfl, rfl⟩ | ⟨differ, before⟩
    · rw [program] at member
      obtain ⟨queue, account⟩ := books.accounts d client found live name member
      exact own name member queue account
    · obtain ⟨queue, account⟩ := books.accounts d other before liveOther name member
      apply others other name _ queue account
      intro also
      exact differ (books.apart d c other client before found liveOther live name member also)
  · have names : ∀ (d : ℕ) (other : Client), after.clients[d]? = some other →
        other.removed = false → ∃ old, state.clients[d]? = some old ∧ old.removed = false ∧
          old.program = other.program := by
      intro d other there liveOther
      rcases cases_ d other there with ⟨rfl, rfl⟩ | ⟨-, before⟩
      · exact ⟨client, found, live, program.symm⟩
      · exact ⟨other, before, liveOther, rfl⟩
    intro d e one two there thereToo liveOne liveTwo name member also
    obtain ⟨first, foundFirst, liveFirst, sameFirst⟩ := names d one there liveOne
    obtain ⟨second, foundSecond, liveSecond, sameSecond⟩ := names e two thereToo liveTwo
    rw [← sameFirst] at member
    rw [← sameSecond] at also
    exact books.apart d e first second foundFirst foundSecond liveFirst liveSecond name member also
  · exact fun entry member => owned _ _ (waiting entry member)
  · intro request handling
    rw [server] at handling
    obtain ⟨priority, has⟩ := books.handled request handling
    exact ⟨priority, owned _ _ has⟩

theorem Books.served (books : Books state) (clients : after.clients = state.clients)
    (alive : after.server ≠ .exited)
    (accounts : ∀ client name queue, Account state client name queue →
      ∃ queue, Account after client name queue)
    (waiting : ∀ entry ∈ after.requests.entries, entry ∈ state.requests.entries)
    (handled : ∀ request, after.server.handling = some request →
      ∃ priority, Owned state request priority) : Books after := by
  have owned : ∀ request priority, Owned state request priority → Owned after request priority := by
    intro request priority has
    unfold Owned
    rw [clients]
    exact has
  constructor
  · exact alive
  · rw [clients]
    exact books.distinct
  · rw [clients]
    exact books.sent
  · rw [clients]
    exact books.received
  · rw [clients]
    exact books.gone
  · intro c client found live name own
    rw [clients] at found
    obtain ⟨queue, account⟩ := books.accounts c client found live name own
    exact accounts client name queue account
  · rw [clients]
    exact books.apart
  · exact fun entry member => owned _ _ (books.waiting entry (waiting entry member))
  · intro request handling
    obtain ⟨priority, has⟩ := handled request handling
    exact ⟨priority, owned _ _ has⟩

theorem books_send (books : Books state) {c : ℕ} (step : state.sendRequest c = some after) :
    Books after := by
  obtain ⟨client, found, rest⟩ := Option.bind_eq_some_iff.mp step
  obtain ⟨⟨request, priority⟩, next, sends⟩ := Option.bind_eq_some_iff.mp rest
  obtain ⟨requests, sent, rfl⟩ := Option.map_eq_some_iff.mp sends
  obtain ⟨-, -, entries⟩ := Queue.send_some_iff.mp sent
  have bound := (List.getElem?_eq_some_iff.mp next).1
  have live : client.removed = false := by
    by_contra removed
    have all := (books.gone c client found (by simpa using removed)).1
    omega
  have member := List.mem_of_getElem? next
  have kind := Program.request_kind (books.distinct c client found) member
  have countAll : ∀ name, requests.entries.countP (fun entry => entry.2.answerQueue = name) =
      state.queued name + if request.answerQueue = name then 1 else 0 := by
    intro name
    rw [entries, (insert_perm _ _).countP_eq, List.countP_cons]
    simp [Processes.queued]
  have fewer : ∀ name, client.unsent name =
      Client.unsent { client with sent := client.sent + 1 } name +
        if request.answerQueue = name then 1 else 0 := by
    intro name
    have here := (List.getElem?_eq_some_iff.mp next).2
    simp only [Client.unsent]
    rw [List.drop_eq_getElem_cons bound, here, List.countP_cons]
    simp
  refine @Books.edited state _ books c client { client with sent := client.sent + 1 } found rfl live
    live rfl rfl ?_ ?_ ?_ ?_ ?_
  · exact bound
  · exact books.received c client found
  · intro name own queue account
    refine ⟨queue, account.moved rfl rfl ?_⟩
    have more := countAll name
    have less := fewer name
    simp only [Processes.queued, Processes.setClient, Client.unreceived] at more ⊢
    omega
  · intro other name foreign queue account
    refine ⟨queue, account.moved rfl rfl ?_⟩
    have more := countAll name
    have notOwn : request.answerQueue ≠ name := by
      intro same
      exact foreign (same ▸ kind.1)
    rw [if_neg notOwn] at more
    simp only [Processes.queued, Processes.setClient] at more ⊢
    omega
  · intro entry inside
    simp only [Processes.setClient, entries] at inside
    rcases mem_insert.mp inside with rfl | before
    · exact ⟨c, client, found, live, member⟩
    · exact books.waiting entry before

theorem receive_cases {c : ℕ} (step : state.receiveAnswer c = some after) :
    ∃ (client : Client) (name : QueueName) (own : AnswerQueue) (first : Entry Answer)
      (queue : Queue Answer), state.clients[c]? = some client ∧
      client.program.requests.length ≤ client.sent ∧
      client.program.receives[client.answers.length]? = some name ∧
      state.answerQueues name = some own ∧ own.queue.receive = some (first, queue) ∧
      after = { state with
        answerQueues := Function.update state.answerQueues name
          (some { own with queue := queue }) }.setClient c
        { client with answers := client.answers ++ [first.2] } := by
  obtain ⟨client, found, rest⟩ := Option.bind_eq_some_iff.mp step
  split at rest
  · cases rest
  · rename_i all
    obtain ⟨name, next, opened⟩ := Option.bind_eq_some_iff.mp rest
    obtain ⟨own, exists_, receives⟩ := Option.bind_eq_some_iff.mp opened
    obtain ⟨⟨first, queue⟩, received, rfl⟩ := Option.map_eq_some_iff.mp receives
    exact ⟨client, name, own, first, queue, found, Nat.le_of_not_lt all, next, exists_, received,
      rfl⟩

theorem books_receive (books : Books state) {c : ℕ} (step : state.receiveAnswer c = some after) :
    Books after := by
  obtain ⟨client, name, own, first, queue, found, -, next, exists_, received, rfl⟩ :=
    receive_cases step
  obtain ⟨capacity, entries⟩ := Queue.receive_some_iff.mp received
  have bound := (List.getElem?_eq_some_iff.mp next).1
  have live : client.removed = false := by
    by_contra removed
    have all := (books.gone c client found (by simpa using removed)).2
    omega
  have ownName := Program.receives_own (List.mem_of_getElem? next)
  have fewer : ∀ other, client.unreceived other =
      Client.unreceived { client with answers := client.answers ++ [first.2] } other +
        if name = other then 1 else 0 := by
    intro other
    have here := (List.getElem?_eq_some_iff.mp next).2
    simp only [Client.unreceived, List.length_append, List.length_singleton]
    rw [List.drop_eq_getElem_cons bound, here, List.count_cons]
    simp
  refine @Books.edited state _ books c client { client with answers := client.answers ++ [first.2] }
    found rfl live live rfl rfl ?_ ?_ ?_ ?_ ?_
  · exact books.sent c client found
  · simpa using Nat.succ_le_of_lt bound
  · intro other _ old account
    have less := fewer other
    by_cases same : other = name
    · subst same
      have before := account.found
      rw [exists_, Option.some.injEq] at before
      subst before
      have balance := account.balance
      refine ⟨_, Function.update_self _ _ _, ?_, account.size, ?_⟩
      · exact capacity.trans account.capacity
      · rw [if_pos rfl] at less
        rw [entries, List.length_cons] at balance
        simp only [Processes.queued, Processes.setClient, Client.unsent] at balance ⊢
        omega
    · rw [if_neg (Ne.symm same)] at less
      refine ⟨old, account.moved (Function.update_of_ne same _ _) rfl ?_⟩
      simp only [Processes.queued, Processes.setClient, Client.unsent]
      omega
  · intro other foreign notOwn old account
    have differ : foreign ≠ name := by
      intro same
      exact notOwn (same ▸ ownName)
    exact ⟨old, account.moved (Function.update_of_ne differ _ _) rfl rfl⟩
  · exact books.waiting

/-- A client that has received everything leaves nothing behind. -/
theorem books_remove (books : Books state) {c : ℕ} (step : state.removeQueues c = some after) :
    Books after := by
  obtain ⟨client, found, rest⟩ := Option.bind_eq_some_iff.mp step
  split at rest
  swap
  · cases rest
  rename_i ready
  obtain ⟨live, all⟩ := ready
  cases rest
  have nothing : ∀ name ∈ client.program.queues, client.unsent name = 0 ∧
      state.queued name = 0 ∧ state.server.busyFor name = 0 := by
    intro name own
    obtain ⟨queue, account⟩ := books.accounts c client found live name own
    have balance := account.balance
    have none_ : client.unreceived name = 0 := by
      rw [Client.unreceived, all, List.drop_length]
      rfl
    omega
  have cases_ : ∀ (d : ℕ) (other : Client),
      (state.clients.set c { client with removed := true })[d]? = some other →
      other.removed = false → d ≠ c ∧ state.clients[d]? = some other := by
    intro d other there liveOther
    rcases set_cases there with ⟨-, rfl⟩ | before
    · cases liveOther
    · exact before
  have owned : ∀ request priority, Owned state request priority →
      0 < state.queued request.answerQueue + state.server.busyFor request.answerQueue →
      ∃ (d : ℕ) (other : Client),
        (state.clients.set c { client with removed := true })[d]? = some other ∧
        other.removed = false ∧ (request, priority) ∈ other.program.requests := by
    intro request priority has pending
    obtain ⟨d, other, foundOther, liveOther, member⟩ := has
    have own := (Program.request_kind (books.distinct d other foundOther) member).1
    have differ : d ≠ c := by
      intro same
      subst same
      rw [found, Option.some.injEq] at foundOther
      subst foundOther
      obtain ⟨-, queued, busy⟩ := nothing _ own
      omega
    exact ⟨d, other, by rw [List.getElem?_set_ne (Ne.symm differ), foundOther], liveOther, member⟩
  constructor
  · exact books.alive
  · intro d other there
    rcases set_cases there with ⟨rfl, rfl⟩ | ⟨-, before⟩
    · exact books.distinct d client found
    · exact books.distinct d other before
  · intro d other there
    rcases set_cases there with ⟨rfl, rfl⟩ | ⟨-, before⟩
    · exact books.sent d client found
    · exact books.sent d other before
  · intro d other there
    rcases set_cases there with ⟨rfl, rfl⟩ | ⟨-, before⟩
    · exact books.received d client found
    · exact books.received d other before
  · intro d other there removed
    rcases set_cases there with ⟨rfl, rfl⟩ | ⟨-, before⟩
    · refine ⟨?_, all⟩
      apply Nat.le_antisymm (books.sent d client found)
      by_contra more
      have bound : client.sent < client.program.requests.length := Nat.lt_of_not_le more
      have kind := Program.request_kind (books.distinct d client found)
        (List.getElem_mem bound)
      have none_ := (nothing _ kind.1).1
      rw [Client.unsent, List.drop_eq_getElem_cons bound, List.countP_cons] at none_
      simp at none_
    · exact books.gone d other before removed
  · intro d other there liveOther name own
    obtain ⟨differ, before⟩ := cases_ d other there liveOther
    obtain ⟨queue, account⟩ := books.accounts d other before liveOther name own
    refine ⟨queue, account.moved ?_ rfl rfl⟩
    have foreign : name ∉ client.program.queues := by
      intro also
      exact differ (books.apart d c other client before found liveOther live name own also)
    exact if_neg foreign
  · intro d e one two there thereToo liveOne liveTwo name member also
    exact books.apart d e one two (cases_ d one there liveOne).2 (cases_ e two thereToo liveTwo).2
      liveOne liveTwo name member also
  · intro entry inside
    apply owned _ _ (books.waiting entry inside)
    apply Nat.add_pos_left
    exact List.countP_pos_iff.mpr ⟨entry, inside, by simp⟩
  · intro request handling
    have busy : state.server.handling = some request := handling
    obtain ⟨priority, has⟩ := books.handled request busy
    refine ⟨priority, owned _ _ has ?_⟩
    apply Nat.add_pos_right
    exact List.countP_pos_iff.mpr ⟨request, by rw [busy]; simp, by simp⟩

theorem books_take (books : Books state) (step : state.takeRequest = some after) :
    Books after := by
  unfold Processes.takeRequest at step
  split at step
  swap
  · cases step
  rename_i idle
  obtain ⟨⟨first, requests⟩, received, rfl⟩ := Option.map_eq_some_iff.mp step
  obtain ⟨-, entries⟩ := Queue.receive_some_iff.mp received
  refine @Books.served state _ books rfl ?_ ?_ ?_ ?_
  · intro same
    cases same
  · intro client name queue account
    refine ⟨queue, account.moved rfl rfl ?_⟩
    have free : state.server.busyFor name = 0 := by
      rw [idle]
      rfl
    have moves : state.queued name = requests.entries.countP (fun entry =>
        entry.2.answerQueue = name) + Server.busyFor (.taken first.2) name := by
      rw [Processes.queued, entries, List.countP_cons]
      simp [Server.busyFor, Server.handling]
    simp only [Processes.queued] at moves ⊢
    omega
  · intro entry inside
    rw [entries]
    exact List.mem_cons_of_mem _ inside
  · intro request handling
    cases handling
    exact ⟨first.1, books.waiting first (by rw [entries]; exact List.mem_cons_self)⟩

/-- The queue of the request exists, and its type is one of the three. -/
theorem books_open (books : Books state) (step : state.openQueue = some after) :
    Books after ∧ ∃ request, state.server = .taken request ∧
      after = { state with server := .opened request } := by
  unfold Processes.openQueue at step
  split at step
  swap
  · cases step
  rename_i request taken
  obtain ⟨priority, owned⟩ := books.handled request (by rw [taken]; rfl)
  obtain ⟨c, client, own, found, -, member, -, account⟩ := books.owned_account owned
  have kind := (Program.request_kind (books.distinct c client found) member).2
  have known : request.type = requestTypeFill ∨ request.type = requestTypeGetInfo ∨
      request.type = requestTypeGetBuffer := by
    rcases kind with ⟨type, -⟩ | ⟨type, -⟩ | ⟨type, -⟩
    · exact Or.inl type
    · exact Or.inr (Or.inl type)
    · exact Or.inr (Or.inr type)
  rw [if_pos known, account.found] at step
  cases step
  refine ⟨?_, request, taken, rfl⟩
  refine @Books.served state _ books rfl ?_ ?_ ?_ ?_
  · intro same
    cases same
  · intro client name queue account
    exact ⟨queue, account.moved rfl rfl (by rw [taken]; rfl)⟩
  · exact fun entry inside => inside
  · intro other handling
    cases handling
    exact ⟨priority, owned⟩

theorem work_cases {base : ℕ} (step : state.work base = some after) :
    ∃ request answer, state.server = .opened request ∧ after.server = .worked request answer ∧
      after.requests = state.requests ∧ after.answerQueues = state.answerQueues ∧
      after.clients = state.clients ∧
      ((request.type = requestTypeFill ∧ answer = .fill "Status: 23" ∧
          bufferData base after.board = linearData) ∨
        (request.type = requestTypeGetInfo ∧ answer = .info "Status: DONT PANIC" ∧
          after.board = state.board) ∨
        (request.type ≠ requestTypeFill ∧ request.type ≠ requestTypeGetInfo ∧
          answer = .buffer (bufferData base state.board) ∧ after.board = state.board)) := by
  unfold Processes.work at step
  split at step
  swap
  · cases step
  rename_i request opened
  split at step
  · rename_i fill
    cases step
    refine ⟨request, _, opened, rfl, rfl, rfl, rfl, Or.inl ⟨fill, rfl, ?_⟩⟩
    dsimp only
    exact filled_data base state.board
  · rename_i notFill
    split at step
    · rename_i info
      cases step
      exact ⟨request, _, opened, rfl, rfl, rfl, rfl, Or.inr (Or.inl ⟨info, rfl, rfl⟩)⟩
    · rename_i notInfo
      cases step
      exact ⟨request, _, opened, rfl, rfl, rfl, rfl, Or.inr (Or.inr ⟨notFill, notInfo, rfl, rfl⟩)⟩

theorem books_work (books : Books state) {base : ℕ} (step : state.work base = some after) :
    Books after := by
  obtain ⟨request, answer, opened, worked, requests, queues, clients, -⟩ := work_cases step
  apply books.served clients
  · rw [worked]
    intro same
    cases same
  · intro client name queue account
    refine ⟨queue, account.moved (by rw [queues]) rfl ?_⟩
    simp only [Processes.queued, requests, worked, opened]
    rfl
  · rw [requests]
    exact fun entry inside => inside
  · intro other handling
    rw [worked] at handling
    exact books.handled other (by rw [opened]; exact handling)

end Steps

end FpgaPcie.Mprace.Ipc
