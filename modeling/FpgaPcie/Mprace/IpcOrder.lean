import FpgaPcie.Mprace.IpcProgress

/-!
# The order in which requests are served

The server sorts first after priority, then in the order in which the requests were sent. With a
record of everything sent and taken beside the processes this holds of whole runs: for each
priority the requests are taken in the order of sending, and an info request is never kept waiting
behind a fill or a buffer request that has not been taken yet.
-/

namespace FpgaPcie.Mprace.Ipc

open FpgaPcie.MessageQueue FpgaPcie.Transition

set_option autoImplicit false

def Processes.nextRequest (state : Processes) (c : ℕ) : Option (Entry MpraceRequest) :=
  state.clients[c]?.bind fun client =>
    client.program.requests[client.sent]?.map fun (request, priority) => (priority, request)

def Processes.record (state : Processes) (move : Move) (traffic : Traffic MpraceRequest) :
    Traffic MpraceRequest :=
  match move with
  | .send c => { traffic with sent := traffic.sent ++ (state.nextRequest c).toList }
  | .takeRequest => { traffic with taken := traffic.taken ++ state.requests.entries.head?.toList }
  | _ => traffic

def recordedSystem (base : ℕ) : System (Processes × Traffic MpraceRequest) Move :=
  (ipcSystem base).observing ⟨[], []⟩ Processes.record

section Steps

variable {state after : Processes} {traffic : Traffic MpraceRequest}

theorem send_recorded (explains : traffic.Explains state.requests) {c : ℕ}
    (step : state.sendRequest c = some after) :
    (state.record (.send c) traffic).Explains after.requests := by
  obtain ⟨client, found, rest⟩ := Option.bind_eq_some_iff.mp step
  obtain ⟨⟨request, priority⟩, next, sends⟩ := Option.bind_eq_some_iff.mp rest
  obtain ⟨requests, sent, rfl⟩ := Option.map_eq_some_iff.mp sends
  have asked : state.nextRequest c = some (priority, request) := by
    simp only [Processes.nextRequest, found, next, Option.bind_some, Option.map_some]
  have recorded : state.record (.send c) traffic =
      { traffic with sent := traffic.sent ++ [(priority, request)] } := by
    simp only [Processes.record, asked, Option.toList_some]
  rw [recorded]
  exact explains.send sent

theorem take_cases (step : state.takeRequest = some after) : ∃ first,
    state.requests.receive = some (first, after.requests) ∧ after.server = .taken first.2 := by
  unfold Processes.takeRequest at step
  split at step
  swap
  · cases step
  obtain ⟨⟨first, requests⟩, received, rfl⟩ := Option.map_eq_some_iff.mp step
  exact ⟨first, received, rfl⟩

theorem take_recorded (explains : traffic.Explains state.requests)
    (step : state.takeRequest = some after) :
    (state.record .takeRequest traffic).Explains after.requests := by
  obtain ⟨first, received, -⟩ := take_cases step
  have recorded : state.record .takeRequest traffic =
      { traffic with taken := traffic.taken ++ [first] } := by
    simp only [Processes.record, (Queue.receive_some_iff.mp received).2, List.head?_cons,
      Option.toList_some]
  rw [recorded]
  exact explains.receive received

theorem requests_untouched {base : ℕ} {move : Move} (step : state.move base move = some after)
    (notSend : ∀ c, move ≠ .send c) (notTake : move ≠ .takeRequest) :
    after.requests = state.requests := by
  cases move with
  | startFill fillQueue bufferQueue => exact (start_fill_started step).requests
  | startInfo infoQueue => exact (start_info_started step).requests
  | send c => exact absurd rfl (notSend c)
  | receive c =>
      obtain ⟨client, name, own, first, queue, -, -, -, -, -, rfl⟩ := receive_cases step
      rfl
  | remove c =>
      obtain ⟨client, -, rest⟩ := Option.bind_eq_some_iff.mp step
      split at rest
      · cases rest
        rfl
      · cases rest
  | takeRequest => exact absurd rfl notTake
  | openQueue =>
      dsimp only [Processes.move, Processes.openQueue] at step
      split at step
      · split at step
        · split at step <;> cases step <;> rfl
        · cases step
          rfl
      · cases step
  | work =>
      obtain ⟨request, answer, -, -, requests, -⟩ := work_cases step
      exact requests
  | sendAnswer =>
      dsimp only [Processes.move, Processes.sendAnswer] at step
      split at step
      · split at step
        · cases step
          rfl
        · split at step
          · cases step
            rfl
          · obtain ⟨queue, -, rfl⟩ := Option.map_eq_some_iff.mp step
            rfl
      · cases step

theorem move_recorded (explains : traffic.Explains state.requests) {base : ℕ} {move : Move}
    (step : state.move base move = some after) :
    (state.record move traffic).Explains after.requests := by
  cases move with
  | send c => exact send_recorded explains step
  | takeRequest => exact take_recorded explains step
  | _ =>
      rw [requests_untouched step (fun _ same => by cases same) (fun same => by cases same)]
      exact explains

end Steps

variable {base : ℕ} {state : Processes} {traffic : Traffic MpraceRequest}

theorem traffic_explains (reached : (recordedSystem base).Reachable (state, traffic)) :
    traffic.Explains state.requests := by
  have all : (state, traffic).2.Explains (state, traffic).1.requests := by
    refine @System.invariant _ _ _ (fun pair => pair.2.Explains pair.1.requests) ?_ ?_ _ reached
    · intro pair initial priority
      obtain ⟨⟨-, entries, -⟩, nothing⟩ := initial
      rw [entries, nothing]
      rfl
    · intro pair move after explains step
      obtain ⟨moved, recorded⟩ := System.observing_step step
      rw [recorded]
      exact move_recorded explains moved
  exact all

/-- In every run the requests of one priority are taken in the order in which they were sent, each
once; the one taken next has at least the priority of all that wait, and is an info request
whenever one waits. -/
theorem taken_in_order
    (reached : (recordedSystem base).Reachable (state, traffic)) :
    (∀ priority, traffic.sent.filter (fun entry => entry.1 = priority) =
      traffic.taken.filter (fun entry => entry.1 = priority) ++
        state.requests.entries.filter fun entry => entry.1 = priority) ∧
      ∀ after, state.takeRequest = some after → ∃ first,
        state.requests.entries = first :: after.requests.entries ∧
        after.server = .taken first.2 ∧
        (∀ other ∈ after.requests.entries, other.1 ≤ first.1) ∧
        ((∃ entry ∈ state.requests.entries, entry.2.type = requestTypeGetInfo) →
          first.2.type = requestTypeGetInfo) := by
  apply And.intro (traffic_explains reached)
  intro after step
  have books := (reachable_sound (System.reachable_of_observing reached)).books
  obtain ⟨first, received, taken⟩ := take_cases step
  have entries := (Queue.receive_some_iff.mp received).2
  have highest := Queue.received_first received
  refine ⟨first, entries, taken, highest, ?_⟩
  intro waits
  obtain ⟨entry, member, info⟩ := waits
  have kind : ∀ entry ∈ state.requests.entries, (entry.2.type = requestTypeGetInfo ∧ entry.1 = 10) ∨
      (entry.2.type ≠ requestTypeGetInfo ∧ entry.1 = 0) := by
    intro entry member
    obtain ⟨c, client, found, -, asked⟩ := books.waiting entry member
    rcases (Program.request_kind (books.distinct c client found) asked).2 with
      ⟨type, priority, -⟩ | ⟨type, priority, -⟩ | ⟨type, priority, -⟩
    · exact Or.inr ⟨by rw [type]; decide, priority⟩
    · exact Or.inl ⟨type, priority⟩
    · exact Or.inr ⟨by rw [type]; decide, priority⟩
  rcases kind first (by rw [entries]; exact List.mem_cons_self) with ⟨type, -⟩ | ⟨-, low⟩
  · exact type
  · rw [entries] at member
    rcases List.mem_cons.mp member with rfl | later
    · exact info
    · have above := highest entry later
      rcases kind entry (by rw [entries]; exact List.mem_cons_of_mem _ later) with
        ⟨-, priority⟩ | ⟨notInfo, -⟩
      · omega
      · exact absurd info notInfo

end FpgaPcie.Mprace.Ipc
