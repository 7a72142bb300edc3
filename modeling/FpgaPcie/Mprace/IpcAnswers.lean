import FpgaPcie.Mprace.IpcRuns

/-!
# The right answers

A buffer request is the last one of its client and has the lowest priority, so a fill of the same
client has been served before it and the board holds the linear pattern, which every fill writes
anew. With the books this gives each client the answers it asked for, in its order.
-/

namespace FpgaPcie.Mprace.Ipc

open FpgaPcie.MessageQueue FpgaPcie.Transition

set_option autoImplicit false

/-- The server is going to fill the board before it takes another request. -/
def Server.AboutToFill (server : Server) : Prop :=
  ∃ request, (server = .taken request ∨ server = .opened request) ∧
    request.type = requestTypeFill

/-- The pattern is on the board, or will be before the server gets behind `front`. -/
def Primed (base : ℕ) (state : Processes) (front : List (Entry MpraceRequest)) : Prop :=
  bufferData base state.board = linearData ∨ state.server.AboutToFill ∨
    ∃ entry ∈ front, entry.2.type = requestTypeFill

structure Contents (base : ℕ) (state : Processes) : Prop where
  given : ∀ (c : ℕ) (client : Client), state.clients[c]? = some client →
    client.answers = client.program.expected.take client.answers.length
  right : ∀ (c : ℕ) (client : Client), state.clients[c]? = some client → client.removed = false →
    ∀ name ∈ client.program.queues, ∀ own, state.answerQueues name = some own →
      ∀ entry ∈ own.queue.entries, entry.2 = client.program.answerOn name
  worked : ∀ request answer, state.server = .worked request answer →
    ∀ (c : ℕ) (client : Client) (priority : ℕ), state.clients[c]? = some client →
      client.removed = false → (request, priority) ∈ client.program.requests →
        answer = client.program.answerOn request.answerQueue
  serving : ∀ request, state.server = .taken request ∨ state.server = .opened request →
    request.type = requestTypeGetBuffer → bufferData base state.board = linearData
  primed : ∀ (c : ℕ) (client : Client), state.clients[c]? = some client → 0 < client.sent →
    (∃ entry ∈ client.program.requests, entry.1.type = requestTypeFill) →
      Primed base state state.requests.entries
  ahead : ∀ front entry back, state.requests.entries = front ++ entry :: back →
    entry.2.type = requestTypeGetBuffer → Primed base state front

theorem Primed.mono {base : ℕ} {state : Processes} {front longer : List (Entry MpraceRequest)}
    (primed : Primed base state front) (inside : ∀ entry ∈ front, entry ∈ longer) :
    Primed base state longer := by
  rcases primed with filled | filling | ⟨entry, member, fill⟩
  · exact Or.inl filled
  · exact Or.inr (Or.inl filling)
  · exact Or.inr (Or.inr ⟨entry, inside entry member, fill⟩)

theorem not_about_to_fill {server : Server} {request : MpraceRequest} {answer : Answer}
    (worked : server = .worked request answer) : ¬server.AboutToFill := by
  intro filling
  obtain ⟨other, taken | opened, -⟩ := filling
  · rw [worked] at taken
    cases taken
  · rw [worked] at opened
    cases opened

namespace Program

theorem first_fills {program : Program}
    (fills : ∃ entry ∈ program.requests, entry.1.type = requestTypeFill) {request : MpraceRequest}
    {priority : ℕ} (first : program.requests[0]? = some (request, priority)) :
    request.type = requestTypeFill := by
  cases program with
  | testFillRequests fillQueue bufferQueue =>
      cases first
      rfl
  | testInfoRequests infoQueue =>
      obtain ⟨entry, member, type⟩ := fills
      simp only [requests, List.mem_singleton] at member
      subst member
      cases type

theorem buffer_after_fills {program : Program} {request : MpraceRequest} {priority sent : ℕ}
    (next : program.requests[sent]? = some (request, priority))
    (buffer : request.type = requestTypeGetBuffer) :
    0 < sent ∧ priority = 0 ∧ ∃ entry ∈ program.requests, entry.1.type = requestTypeFill := by
  cases program with
  | testFillRequests fillQueue bufferQueue =>
      have member := List.mem_of_getElem? next
      simp only [requests, List.mem_append, List.mem_map, List.mem_singleton, Prod.mk.injEq]
        at member
      rcases member with ⟨c, -, rfl, rfl⟩ | ⟨rfl, rfl⟩
      · cases buffer
      · refine ⟨?_, rfl, (⟨0, fillQueue, requestTypeFill⟩, 0), by simp [requests], rfl⟩
        rw [Nat.pos_iff_ne_zero]
        intro zero
        subst zero
        cases next
  | testInfoRequests infoQueue =>
      have member := List.mem_of_getElem? next
      simp only [requests, List.mem_singleton, Prod.mk.injEq] at member
      obtain ⟨rfl, rfl⟩ := member
      cases buffer

end Program

section Steps

variable {base : ℕ} {state after : Processes}

theorem Contents.start (contents : Contents base state) (books : Books state) {program : Program}
    (distinct : program.Distinct)
    (fresh : ∀ name ∈ program.queues, state.answerQueues name = none)
    (made : ∀ name ∈ program.queues, after.answerQueues name =
      some ⟨(program.answerOn name).size, Queue.create 10⟩)
    (kept : ∀ name, name ∉ program.queues → after.answerQueues name = state.answerQueues name)
    (requests : after.requests = state.requests) (server : after.server = state.server)
    (clients : after.clients = state.clients ++ [⟨program, 0, [], false⟩])
    (board : after.board = state.board) : Contents base after := by
  have same : ∀ front, Primed base state front → Primed base after front := by
    intro front primed
    unfold Primed
    rw [board, server]
    exact primed
  have cases_ : ∀ (c : ℕ) (client : Client), after.clients[c]? = some client →
      state.clients[c]? = some client ∨ client = ⟨program, 0, [], false⟩ := by
    intro c client found
    rw [clients, List.getElem?_append] at found
    split at found
    · exact Or.inl found
    · exact Or.inr (by simpa using List.mem_of_getElem? found)
  constructor
  · intro c client found
    rcases cases_ c client found with before | rfl
    · exact contents.given c client before
    · rfl
  · intro c client found live name own queue exists_ entry inside
    by_cases new : name ∈ program.queues
    · rw [made name new, Option.some.injEq] at exists_
      subst exists_
      cases inside
    · rcases cases_ c client found with before | rfl
      · rw [kept name new] at exists_
        exact contents.right c client before live name own queue exists_ entry inside
      · exact absurd own new
  · intro request answer worked c client priority found live member
    rw [server] at worked
    rcases cases_ c client found with before | rfl
    · exact contents.worked request answer worked c client priority before live member
    · have own := (Program.request_kind distinct member).1
      have idle := (books.nothing_queued (fresh _ own)).2
      simp [Server.busyFor, worked, Server.handling] at idle
  · rw [server, board]
    exact contents.serving
  · intro c client found some_ fills
    rcases cases_ c client found with before | rfl
    · rw [requests]
      exact same _ (contents.primed c client before some_ fills)
    · cases some_
  · intro front entry back split buffer
    rw [requests] at split
    exact same _ (contents.ahead front entry back split buffer)

theorem contents_send (contents : Contents base state) {c : ℕ}
    (step : state.sendRequest c = some after) : Contents base after := by
  obtain ⟨client, found, rest⟩ := Option.bind_eq_some_iff.mp step
  obtain ⟨⟨request, priority⟩, next, sends⟩ := Option.bind_eq_some_iff.mp rest
  obtain ⟨requests, sent, rfl⟩ := Option.map_eq_some_iff.mp sends
  obtain ⟨-, -, entries⟩ := Queue.send_some_iff.mp sent
  have longer : ∀ entry ∈ state.requests.entries, entry ∈ requests.entries := by
    intro entry member
    rw [entries]
    exact mem_insert.mpr (Or.inr member)
  constructor
  · intro d other there
    rcases set_cases there with ⟨rfl, rfl⟩ | ⟨-, before⟩
    · exact contents.given d client found
    · exact contents.given d other before
  · intro d other there live
    rcases set_cases there with ⟨rfl, rfl⟩ | ⟨-, before⟩
    · exact contents.right d client found live
    · exact contents.right d other before live
  · intro asked answer worked d other level there live
    rcases set_cases there with ⟨rfl, rfl⟩ | ⟨-, before⟩
    · exact contents.worked asked answer worked d client level found live
    · exact contents.worked asked answer worked d other level before live
  · exact contents.serving
  · intro d other there some_ fills
    rcases set_cases there with ⟨rfl, rfl⟩ | ⟨-, before⟩
    · by_cases started : 0 < client.sent
      · exact (contents.primed d client found started fills).mono longer
      · have first : client.sent = 0 := by omega
        rw [first] at next
        refine Or.inr (Or.inr ⟨(priority, request), ?_, Program.first_fills fills next⟩)
        show (priority, request) ∈ requests.entries
        rw [entries]
        exact mem_insert.mpr (Or.inl rfl)
    · exact (contents.primed d other before some_ fills).mono longer
  · intro front entry back split buffer
    have parts : insertEntry (priority, request) state.requests.entries = front ++ entry :: back :=
      entries.symm.trans split
    rcases insert_split state.requests.ordered parts with ⟨rfl, whole, lower⟩ |
      ⟨before, behind, whole, kept⟩
    · obtain ⟨started, lowest, fills⟩ := Program.buffer_after_fills next buffer
      have last : back = [] := by
        apply List.eq_nil_iff_forall_not_mem.mpr
        intro other member
        have below := lower other member
        omega
      have primed := contents.primed c client found started fills
      rw [whole, last, List.append_nil] at primed
      exact primed
    · exact (contents.ahead before entry behind whole buffer).mono kept

theorem contents_receive (contents : Contents base state) (books : Books state) {c : ℕ}
    (step : state.receiveAnswer c = some after) : Contents base after := by
  obtain ⟨client, name, own, first, queue, found, -, next, exists_, received, rfl⟩ :=
    receive_cases step
  obtain ⟨-, entries⟩ := Queue.receive_some_iff.mp received
  have bound := (List.getElem?_eq_some_iff.mp next).1
  have live : client.removed = false := by
    by_contra removed
    have all := (books.gone c client found (by simpa using removed)).2
    omega
  have ownName := Program.receives_own (List.mem_of_getElem? next)
  have given : first.2 = client.program.answerOn name :=
    contents.right c client found live name ownName own exists_ first (by simp [entries])
  have right : ∀ (d : ℕ) (other : Client), state.clients[d]? = some other →
      other.removed = false → ∀ named ∈ other.program.queues, ∀ box,
        Function.update state.answerQueues name (some { own with queue := queue }) named =
          some box → ∀ entry ∈ box.queue.entries, entry.2 = other.program.answerOn named := by
    intro d other there liveOther named member box boxed entry inside
    by_cases same : named = name
    · subst same
      rw [Function.update_self, Option.some.injEq] at boxed
      subst boxed
      apply contents.right d other there liveOther named member own exists_ entry
      rw [entries]
      exact List.mem_cons_of_mem _ inside
    · rw [Function.update_of_ne same] at boxed
      exact contents.right d other there liveOther named member box boxed entry inside
  constructor
  · intro d other there
    rcases set_cases there with ⟨rfl, rfl⟩ | ⟨-, before⟩
    · have old := contents.given d client found
      have here : client.program.expected[client.answers.length]? =
          some (client.program.answerOn name) := by
        rw [Program.expected, List.getElem?_map, next]
        rfl
      simp only [List.length_append, List.length_singleton]
      rw [List.take_add_one, here, ← old, given]
      rfl
    · exact contents.given d other before
  · intro d other there liveOther
    rcases set_cases there with ⟨rfl, rfl⟩ | ⟨-, before⟩
    · exact right d client found live
    · exact right d other before liveOther
  · intro asked answer worked d other level there liveOther
    rcases set_cases there with ⟨rfl, rfl⟩ | ⟨-, before⟩
    · exact contents.worked asked answer worked d client level found liveOther
    · exact contents.worked asked answer worked d other level before liveOther
  · exact contents.serving
  · intro d other there some_ fills
    rcases set_cases there with ⟨rfl, rfl⟩ | ⟨-, before⟩
    · exact contents.primed d client found some_ fills
    · exact contents.primed d other before some_ fills
  · exact contents.ahead

theorem contents_remove (contents : Contents base state) {c : ℕ}
    (step : state.removeQueues c = some after) : Contents base after := by
  obtain ⟨client, found, rest⟩ := Option.bind_eq_some_iff.mp step
  split at rest
  swap
  · cases rest
  cases rest
  have cases_ : ∀ (d : ℕ) (other : Client),
      (state.clients.set c { client with removed := true })[d]? = some other →
      other.removed = false → state.clients[d]? = some other := by
    intro d other there liveOther
    rcases set_cases there with ⟨-, rfl⟩ | ⟨-, before⟩
    · cases liveOther
    · exact before
  constructor
  · intro d other there
    rcases set_cases there with ⟨rfl, rfl⟩ | ⟨-, before⟩
    · exact contents.given d client found
    · exact contents.given d other before
  · intro d other there live name own box boxed
    have boxed_ : (if name ∈ client.program.queues then none else state.answerQueues name) =
        some box := boxed
    split at boxed_
    · cases boxed_
    · exact contents.right d other (cases_ d other there live) live name own box boxed_
  · intro asked answer worked d other level there live
    exact contents.worked asked answer worked d other level (cases_ d other there live) live
  · exact contents.serving
  · intro d other there some_ fills
    rcases set_cases there with ⟨rfl, rfl⟩ | ⟨-, before⟩
    · exact contents.primed d client found some_ fills
    · exact contents.primed d other before some_ fills
  · exact contents.ahead

theorem contents_take (contents : Contents base state) (step : state.takeRequest = some after) :
    Contents base after := by
  unfold Processes.takeRequest at step
  split at step
  swap
  · cases step
  rename_i idle
  obtain ⟨⟨first, requests⟩, received, rfl⟩ := Option.map_eq_some_iff.mp step
  obtain ⟨-, entries⟩ := Queue.receive_some_iff.mp received
  have notFilling : ¬state.server.AboutToFill := by
    intro filling
    obtain ⟨request, taken | opened, -⟩ := filling
    · rw [idle] at taken
      cases taken
    · rw [idle] at opened
      cases opened
  -- what stood first is now with the server
  have shift : ∀ front, Primed base state (first :: front) →
      Primed base { state with requests := requests, server := .taken first.2 } front := by
    intro front primed
    rcases primed with filled | filling | ⟨entry, member, fill⟩
    · exact Or.inl filled
    · exact absurd filling notFilling
    · rcases List.mem_cons.mp member with rfl | later
      · exact Or.inr (Or.inl ⟨entry.2, Or.inl rfl, fill⟩)
      · exact Or.inr (Or.inr ⟨entry, later, fill⟩)
  constructor
  · exact contents.given
  · exact contents.right
  · intro request answer worked
    cases worked
  · intro request taken buffer
    rcases taken with same | same
    · cases same
      rcases contents.ahead [] first requests.entries entries buffer with filled | filling |
        ⟨entry, member, -⟩
      · exact filled
      · exact absurd filling notFilling
      · cases member
    · cases same
  · intro c client found some_ fills
    apply shift
    rw [← entries]
    exact contents.primed c client found some_ fills
  · intro front entry back split buffer
    apply shift
    apply contents.ahead (first :: front) entry back _ buffer
    rw [entries, split]
    rfl

theorem contents_open (contents : Contents base state) {request : MpraceRequest}
    (taken : state.server = .taken request) :
    Contents base { state with server := .opened request } := by
  have same : ∀ front, Primed base state front →
      Primed base { state with server := .opened request } front := by
    intro front primed
    rcases primed with filled | ⟨other, filling, fill⟩ | queued
    · exact Or.inl filled
    · rw [taken] at filling
      rcases filling with here | here
      · cases here
        exact Or.inr (Or.inl ⟨request, Or.inr rfl, fill⟩)
      · cases here
    · exact Or.inr (Or.inr queued)
  constructor
  · exact contents.given
  · exact contents.right
  · intro other answer worked
    cases worked
  · intro other at_ buffer
    rcases at_ with here | here
    · cases here
    · cases here
      exact contents.serving request (Or.inl taken) buffer
  · exact fun c client found some_ fills => same _ (contents.primed c client found some_ fills)
  · exact fun front entry back split buffer => same _ (contents.ahead front entry back split buffer)

theorem contents_work (contents : Contents base state) (books : Books state)
    (step : state.work base = some after) : Contents base after := by
  obtain ⟨request, answer, opened, worked, requests, queues, clients, kind⟩ := work_cases step
  have same : ∀ front, Primed base state front → Primed base after front := by
    intro front primed
    rcases kind with ⟨-, -, filled⟩ | ⟨info, -, board⟩ | ⟨notFill, -, -, board⟩
    · exact Or.inl filled
    · rcases primed with filled | ⟨other, filling, fill⟩ | queued
      · exact Or.inl (by rw [board]; exact filled)
      · rw [opened] at filling
        rcases filling with here | here
        · cases here
        · cases here
          rw [info] at fill
          cases fill
      · exact Or.inr (Or.inr queued)
    · rcases primed with filled | ⟨other, filling, fill⟩ | queued
      · exact Or.inl (by rw [board]; exact filled)
      · rw [opened] at filling
        rcases filling with here | here
        · cases here
        · cases here
          exact absurd fill notFill
      · exact Or.inr (Or.inr queued)
  constructor
  · rw [clients]
    exact contents.given
  · rw [clients, queues]
    exact contents.right
  · intro asked given there c client priority found live member
    rw [worked] at there
    cases there
    rw [clients] at found
    rcases (Program.request_kind (books.distinct c client found) member).2 with
      ⟨type, -, right⟩ | ⟨type, -, right⟩ | ⟨type, -, right⟩
    · rcases kind with ⟨-, answered, -⟩ | ⟨info, -, -⟩ | ⟨notFill, -, -, -⟩
      · rw [answered, right]
      · rw [info] at type
        cases type
      · exact absurd type notFill
    · rcases kind with ⟨fill, -, -⟩ | ⟨-, answered, -⟩ | ⟨-, notInfo, -, -⟩
      · rw [fill] at type
        cases type
      · rw [answered, right]
      · exact absurd type notInfo
    · rcases kind with ⟨fill, -, -⟩ | ⟨info, -, -⟩ | ⟨-, -, answered, -⟩
      · rw [fill] at type
        cases type
      · rw [info] at type
        cases type
      · rw [answered, right, contents.serving request (Or.inr opened) type]
  · intro other at_
    rw [worked] at at_
    rcases at_ with here | here <;> cases here
  · intro c client found some_ fills
    rw [clients] at found
    rw [requests]
    exact same _ (contents.primed c client found some_ fills)
  · intro front entry back split buffer
    rw [requests] at split
    exact same _ (contents.ahead front entry back split buffer)

end Steps

end FpgaPcie.Mprace.Ipc
