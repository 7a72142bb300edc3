import FpgaPcie.Mprace.EngineWalk

/-!
# The engine stays inside the request

What a channel has still to read is a chain of descriptors inside the request, up to an
end, as long as nothing takes an end away or widens a range in it. A transfer that starts
makes such a chain for its own channel and at most cuts the other one's; a wait that
restores undoes the end of a chain, so it must come after the channel has read it. Nothing
in `waitChannel` sees to that when it gives up.
-/

namespace FpgaPcie.Mprace

open FpgaPcie.Segments FpgaPcie.Transition FpgaPcie.Keyed FpgaPcie.LinkReader DMADescriptorWG

set_option autoImplicit false

/-- Every buffer is known, was made from memory it can be filled from, and shares no bus
address with another descriptor. -/
structure Placed (made : List BufId) (bufs : BufId → Option DMABuffer) : Prop where
  listed : ∀ b buf, bufs b = some buf → b ∈ made
  fillable : ∀ b buf, bufs b = some buf → buf.hasList = true →
    Fillable buf.memory buf.size ∧ buf.descriptors.length = descriptorCount buf.memory
  apart : ∀ b c buf other (i j : ℕ) (d e : DMADescriptorWG), bufs b = some buf →
    bufs c = some other → buf.descriptors[i]? = some d → other.descriptors[j]? = some e →
      d.pa = e.pa → b = c ∧ i = j

section Memory

variable {made : List BufId} {bufs later : BufId → Option DMABuffer} {b : BufId}
  {buf after : DMABuffer} {address : U64} {node : Descriptor} {index : ℕ} {d : DMADescriptorWG}

theorem host_memory_found (result : hostMemory made bufs address = some node) :
    ∃ b buf, ∃ index : ℕ, ∃ d : DMADescriptorWG, bufs b = some buf ∧
      buf.descriptors[index]? = some d ∧ d.pa = address ∧ d.native = node := by
  obtain ⟨b, -, found⟩ := List.exists_of_findSome?_eq_some result
  obtain ⟨buf, live, found⟩ := Option.bind_eq_some_iff.mp found
  obtain ⟨d, found, native⟩ := Option.map_eq_some_iff.mp found
  have pa : d.pa = address := by simpa using List.find?_some found
  obtain ⟨index, present⟩ := List.getElem?_of_mem (List.mem_of_find?_eq_some found)
  exact ⟨b, buf, index, d, live, present, pa, native⟩

theorem Placed.host_memory (placed : Placed made bufs) (live : bufs b = some buf)
    (present : buf.descriptors[index]? = some d) : hostMemory made bufs d.pa = some d.native := by
  have some_ : hostMemory made bufs d.pa ≠ none := by
    intro none_
    have missing := List.findSome?_eq_none_iff.mp none_ b (placed.listed b buf live)
    simp only [live, Option.bind_some, Option.map_eq_none_iff, List.find?_eq_none] at missing
    exact missing d (List.mem_of_getElem? present) (by simp)
  obtain ⟨node, found⟩ := Option.ne_none_iff_exists'.mp some_
  obtain ⟨c, other, place, e, liveOther, presentOther, pa, native⟩ := host_memory_found found
  obtain ⟨rfl, rfl⟩ := placed.apart c b other buf place index e d liveOther live presentOther
    present pa
  rw [live, Option.some.injEq] at liveOther
  subst liveOther
  rw [present, Option.some.injEq] at presentOther
  subst presentOther
  rw [found, native]

theorem Placed.distinct (placed : Placed made bufs) (live : bufs b = some buf) :
    (buf.descriptors.map DMADescriptorWG.pa).Nodup := by
  rw [List.nodup_iff_getElem?_ne_getElem?]
  intro i j less bound same
  rw [List.length_map] at bound
  rw [List.getElem?_map, List.getElem?_map, List.getElem?_eq_getElem bound,
    List.getElem?_eq_getElem (less.trans bound), Option.map_some, Option.map_some,
    Option.some.injEq] at same
  have equal := (placed.apart b b buf buf i j _ _ live live (List.getElem?_eq_getElem _)
    (List.getElem?_eq_getElem _) same).2
  omega

theorem SameFill.present (same : SameFill buf after)
    (present : after.descriptors[index]? = some d) :
    ∃ e, buf.descriptors[index]? = some e ∧ e.pa = d.pa := by
  have pas : (after.descriptors.map DMADescriptorWG.pa)[index]? =
      (buf.descriptors.map DMADescriptorWG.pa)[index]? := by rw [same.pas]
  rw [List.getElem?_map, List.getElem?_map, present, Option.map_some] at pas
  exact Option.map_eq_some_iff.mp pas.symm

structure Spares (bufs later : BufId → Option DMABuffer) (unread : U64 → Prop) : Prop where
  dead : ∀ b, bufs b = none → later b = none
  live : ∀ b buf, bufs b = some buf → ∃ after, later b = some after ∧ SameFill buf after ∧
    ∀ (index : ℕ) (d : DMADescriptorWG), buf.descriptors[index]? = some d → unread d.pa →
      ∃ e : DMADescriptorWG, after.descriptors[index]? = some e ∧ CutFrom d.native e.native

variable {unread : U64 → Prop}

theorem Spares.earlier (spares : Spares bufs later unread) (live : later b = some after) :
    ∃ buf, bufs b = some buf ∧ SameFill buf after := by
  cases before : bufs b with
  | none => simp [spares.dead b before] at live
  | some buf =>
      obtain ⟨found, liveFound, same, -⟩ := spares.live b buf before
      rw [live, Option.some.injEq] at liveFound
      subst liveFound
      exact ⟨buf, rfl, same⟩

theorem Placed.spared (placed : Placed made bufs) (spares : Spares bufs later unread) :
    Placed made later where
  listed := by
    intro b after live
    obtain ⟨buf, before, -⟩ := spares.earlier live
    exact placed.listed b buf before
  fillable := by
    intro b after live listed
    obtain ⟨buf, before, same⟩ := spares.earlier live
    exact same.made (placed.fillable b buf before (same.has_list ▸ listed))
  apart := by
    intro b c after other i j d e live liveOther present presentOther pa
    obtain ⟨buf, before, same⟩ := spares.earlier live
    obtain ⟨found, beforeOther, sameOther⟩ := spares.earlier liveOther
    obtain ⟨x, presentBefore, xPa⟩ := same.present present
    obtain ⟨y, presentFound, yPa⟩ := sameOther.present presentOther
    exact placed.apart b c buf found i j x y before beforeOther presentBefore presentFound
      (by rw [xPa, pa, yPa])

theorem Spares.memory (spares : Spares bufs later unread) (placed : Placed made bufs)
    (wanted : unread address) (found : hostMemory made bufs address = some node) :
    ∃ edited, hostMemory made later address = some edited ∧ CutFrom node edited := by
  obtain ⟨b, buf, index, d, live, present, rfl, rfl⟩ := host_memory_found found
  obtain ⟨after, liveAfter, same, cuts⟩ := spares.live b buf live
  obtain ⟨e, presentAfter, cut⟩ := cuts index d present wanted
  obtain ⟨x, presentBefore, pa⟩ := same.present presentAfter
  rw [present, Option.some.injEq] at presentBefore
  subst presentBefore
  rw [pa]
  exact ⟨e.native, (placed.spared spares).host_memory liveAfter presentAfter, cut⟩

theorem spares_same : Spares bufs bufs unread where
  dead := fun _ none_ => none_
  live := fun _ buf live => ⟨buf, live, ⟨rfl, rfl, rfl⟩,
    fun _ d present _ => ⟨d, present, cut_of_same rfl rfl rfl⟩⟩

theorem spares_update (live : bufs b = some buf) (same : SameFill buf after)
    (cuts : ∀ (index : ℕ) (d : DMADescriptorWG), buf.descriptors[index]? = some d → unread d.pa →
      ∃ e : DMADescriptorWG, after.descriptors[index]? = some e ∧ CutFrom d.native e.native) :
    Spares bufs (Function.update bufs b (some after)) unread where
  dead := by
    intro other none_
    have differ : other ≠ b := by
      intro same
      subst same
      rw [live] at none_
      cases none_
    rw [Function.update_of_ne differ, none_]
  live := by
    intro other found liveOther
    by_cases this : other = b
    · subst this
      rw [live, Option.some.injEq] at liveOther
      subst liveOther
      exact ⟨after, Function.update_self _ _ _, same, cuts⟩
    · rw [Function.update_of_ne this]
      exact spares_same.live other found liveOther

theorem spares_map (world : World) (b : BufId) (edit : DMABuffer → DMABuffer)
    (memory : ∀ buf, (edit buf).memory = buf.memory) (size : ∀ buf, (edit buf).size = buf.size)
    (descriptors : ∀ buf, (edit buf).descriptors = buf.descriptors) :
    Spares world.bufs (world.mapBuf b edit).bufs unread := by
  cases live : world.bufs b with
  | none =>
      have same : (world.mapBuf b edit).bufs = world.bufs := by
        simp only [World.mapBuf, live, Option.map_none]
        rw [← live, Function.update_eq_self]
      rw [same]
      exact spares_same
  | some buf =>
      simp only [World.mapBuf, live, Option.map_some]
      apply spares_update live ⟨memory buf, size buf, by rw [descriptors]⟩
      intro index d present _
      exact ⟨d, by rw [descriptors, present], cut_of_same rfl rfl rfl⟩

theorem Placed.create (placed : Placed made bufs) (dead : bufs b = none) {pas : List U64}
    (creatable : Creatable buf.memory buf.size pas) (distinct : pas.Nodup)
    (unused : ∀ address ∈ pas, hostMemory made bufs address = none) :
    Placed (b :: made) (Function.update bufs b
      (some { buf with descriptors := fillDescriptorList buf.memory buf.size pas })) := by
  have pasSame := fill_descriptor_list_pas buf.memory buf.size pas creatable.1
  have own : ∀ {i : ℕ} {d : DMADescriptorWG},
      (fillDescriptorList buf.memory buf.size pas)[i]? = some d → pas[i]? = some d.pa := by
    intro i d present
    have entry : ((fillDescriptorList buf.memory buf.size pas).map DMADescriptorWG.pa)[i]? =
        some d.pa := by rw [List.getElem?_map, present, Option.map_some]
    rwa [pasSame] at entry
  have strange : ∀ {c : BufId} {found : DMABuffer} {i j : ℕ} {d e : DMADescriptorWG},
      bufs c = some found → found.descriptors[i]? = some d →
        (fillDescriptorList buf.memory buf.size pas)[j]? = some e → d.pa ≠ e.pa := by
    intro c found i j d e live present presentNew same
    have none_ := unused e.pa (List.mem_of_getElem? (own presentNew))
    rw [← same, placed.host_memory live present] at none_
    cases none_
  constructor
  · intro c found live
    rcases update_some_cases live with ⟨rfl, -⟩ | ⟨-, old⟩
    · exact List.mem_cons_self
    · exact List.mem_cons_of_mem b (placed.listed c found old)
  · intro c found live listed
    rcases update_some_cases live with ⟨rfl, rfl⟩ | ⟨-, old⟩
    · exact created_fillable creatable listed
    · exact placed.fillable c found old listed
  · intro c k found other i j d e live liveOther present presentOther same
    rcases update_some_cases live with ⟨rfl, rfl⟩ | ⟨-, old⟩
    · rcases update_some_cases liveOther with ⟨rfl, rfl⟩ | ⟨-, oldOther⟩
      · have first := own present
        rw [same, ← own presentOther] at first
        exact ⟨rfl, (List.getElem?_inj (List.getElem?_eq_some_iff.mp (own present)).1 distinct).mp
          first⟩
      · exact absurd same.symm (strange oldOther presentOther present)
    · rcases update_some_cases liveOther with ⟨rfl, rfl⟩ | ⟨-, oldOther⟩
      · exact absurd same (strange old present presentOther)
      · exact placed.apart c k found other i j d e old oldOther present presentOther same

end Memory

/-- What a channel with a request has loaded is inside it, and so is all it will load if
nothing changes any more. -/
structure Walk.OnTrack (memory : U64 → Option Descriptor) (walk : Walk) : Prop where
  loaded : ∀ requested, walk.requested = some requested → ∀ segment ∈ walk.loaded,
    ∀ address ∈ expand segment, address ∈ requested
  ahead : ∀ requested current, walk.requested = some requested → walk.current = some current →
    Stays engineFormat memory (Within requested) current

section Walks

variable {memory later : U64 → Option Descriptor} {walk : Walk}

theorem on_track_unwatched (unwatched : walk.requested = none) : walk.OnTrack memory where
  loaded := fun requested watched => by simp [unwatched] at watched
  ahead := fun requested current watched => by simp [unwatched] at watched

theorem Walk.OnTrack.stop (onTrack : walk.OnTrack memory) : walk.stop.OnTrack later where
  loaded := onTrack.loaded
  ahead := fun _ _ _ holds => by cases holds

theorem on_track_begin {registers : Descriptor} {requested : List U64}
    (stays : Stays engineFormat memory (Within requested) registers) :
    (Walk.begin registers (some requested)).OnTrack memory where
  loaded := by
    intro requested watched segment member
    cases watched
    rw [List.mem_singleton.mp member]
    exact stays.own
  ahead := by
    intro requested current watched holds
    cases watched
    cases holds
    exact stays

theorem Walk.OnTrack.load (onTrack : walk.OnTrack memory) {current : Descriptor}
    (holds : walk.current = some current) (goesOn : hasLast current.control = false)
    (garbage : Descriptor) :
    (walk.load ((memory current.nextBda).getD garbage)).OnTrack memory := by
  cases watched : walk.requested with
  | none => exact on_track_unwatched watched
  | some requested =>
      obtain ⟨following, found, stays⟩ :=
        (onTrack.ahead requested current watched holds).step goesOn
      have read : (memory current.nextBda).getD garbage = following := by
        change (memory (engineFormat.next current)).getD garbage = following
        rw [found]
        rfl
      rw [read]
      constructor
      · intro other watchedAgain segment member
        rw [Walk.load, watched, Option.some.injEq] at watchedAgain
        subst watchedAgain
        rcases List.mem_append.mp member with before | own
        · exact onTrack.loaded requested watched segment before
        · rw [List.mem_singleton.mp own]
          exact stays.own
      · intro other now watchedAgain holdsNow
        rw [Walk.load, watched, Option.some.injEq] at watchedAgain
        subst watchedAgain
        cases holdsNow
        exact stays

theorem Walk.OnTrack.edited (onTrack : walk.OnTrack memory)
    (edits : ∀ address node, walk.requested ≠ none → (∃ current, walk.current = some current ∧
      StillToRead engineFormat memory current address) → memory address = some node →
        ∃ edited, later address = some edited ∧ CutFrom node edited) : walk.OnTrack later where
  loaded := onTrack.loaded
  ahead := by
    intro requested current watched holds
    apply (onTrack.ahead requested current watched holds).edited
    intro address node unread found
    obtain ⟨edited, foundLater, cut⟩ := edits address node (by simp [watched])
      ⟨current, holds, unread⟩ found
    exact ⟨edited, foundLater, cut.cuts requested⟩

end Walks

structure Session.OnTrack (session : Session) : Prop where
  placed : Placed session.made session.world.bufs
  walks : ∀ ch, (session.walks ch).OnTrack session.memory

section Steps

variable {session : Session}

/-- Calls that touch no channel and at most cut what a channel has still to read. -/
theorem Session.OnTrack.spared (onTrack : session.OnTrack) (world : World)
    (spares : Spares session.world.bufs world.bufs fun address =>
      ∃ ch, session.Unread ch address) : Session.OnTrack { session with world := world } where
  placed := onTrack.placed.spared spares
  walks := by
    intro ch
    apply (onTrack.walks ch).edited
    intro address node watched unread found
    exact spares.memory onTrack.placed ⟨ch, watched, unread⟩ found

theorem Session.OnTrack.advance (onTrack : session.OnTrack) {ch : Channel} {garbage : Descriptor}
    {after : Session} (step : session.advance ch garbage = some after) : after.OnTrack := by
  unfold Session.advance at step
  cases holds : (session.walks ch).current with
  | none => simp [holds] at step
  | some current =>
      simp only [holds, Option.some.injEq] at step
      subst step
      refine ⟨onTrack.placed, fun other => ?_⟩
      by_cases this : other = ch
      · subst this
        simp only [Session.setWalk, Function.update_self]
        cases stops : hasLast current.control with
        | true => exact (onTrack.walks other).stop
        | false => exact (onTrack.walks other).load holds stops garbage
      · simp only [Session.setWalk, Function.update_of_ne this]
        exact onTrack.walks other

theorem Session.OnTrack.reset (onTrack : session.OnTrack) (ch : Channel) (engine : DMAEngineWG) :
    Session.OnTrack { session.setWalk ch (session.walks ch).stop with
      world := { session.world with engine := engine } } where
  placed := onTrack.placed
  walks := by
    intro other
    by_cases this : other = ch
    · subst this
      simp only [Session.setWalk, Function.update_self]
      exact (onTrack.walks other).stop
    · simp only [Session.setWalk, Function.update_of_ne this]
      exact onTrack.walks other

theorem Session.OnTrack.restarted (onTrack : session.OnTrack) (world : World) (ch : Channel)
    (walk : Walk) (spares : Spares session.world.bufs world.bufs fun address =>
      session.Unread (flip ch) address)
    (own : walk.OnTrack (hostMemory session.made world.bufs)) :
    Session.OnTrack ⟨world, session.made, Function.update session.walks ch walk⟩ where
  placed := onTrack.placed.spared spares
  walks := by
    intro other
    by_cases this : other = ch
    · subst this
      simp only [Function.update_self]
      exact own
    · simp only [Function.update_of_ne this]
      have same := eq_flip this
      subst same
      apply (onTrack.walks _).edited
      intro address node watched unread found
      exact spares.memory onTrack.placed ⟨watched, unread⟩ found

/-- What a request leaves for its channel is the chain of the bytes asked for. -/
theorem sent_chain_stays {made : List BufId} {bufs : BufId → Option DMABuffer} {b : BufId}
    {buf after : DMABuffer} {request : Request} {word : U32} {programmed : Programmed}
    (placed : Placed made bufs) (live : bufs b = some buf) (listed : buf.hasList = true)
    (clean : buf.descriptors = buf.filled) (checked : checkRequest buf request = none)
    (unwrapped : request.offset.toNat + request.count.toNat < 2 ^ 32) (plain : hasLast word = false)
    (sent : programList word b buf.size request buf.descriptors = some programmed)
    (descriptors : after.descriptors = programmed.list)
    (placedAfter : Placed made (Function.update bufs b (some after))) :
    Stays engineFormat (hostMemory made (Function.update bufs b (some after)))
      (Within (((busAddresses buf.filled).drop (4 * request.offset.toNat)).take
        (4 * request.count.toNat))) programmed.temp.native := by
  have filled := as_filled_of_made (placed.fillable b buf live listed)
  obtain ⟨-, range⟩ := accepted_range buf request checked
  rw [Nat.mod_eq_of_lt unwrapped] at range
  obtain ⟨offset, count⟩ := exact_range request buf.size range
  obtain ⟨again, visited, same, walk, bytes⟩ := program_list_exact word b buf.size request
    buf.descriptors (clean ▸ filled) (placed.distinct live) plain (by rw [offset, count]; omega)
  rw [sent, Option.some.injEq] at same
  subst same
  rw [offset, count, clean] at bytes
  rw [← bytes]
  refine stays_of_walk_chain ?_ (walk _ le_rfl)
  intro address d found
  have pa : d.pa = address := by simpa using List.find?_some found
  obtain ⟨index, present⟩ := List.getElem?_of_mem (List.mem_of_find?_eq_some found)
  rw [← pa]
  exact placedAfter.host_memory (Function.update_self _ _ _) (by rw [descriptors]; exact present)

theorem Session.OnTrack.start (onTrack : session.OnTrack) {ch : Channel} {b : BufId}
    {request : Request} {after : Session}
    (careful : ∀ buf, session.world.bufs b = some buf → checkRequest buf request = none →
      buf.hasList = true →
        (buf.descriptors = buf.filled → request.offset.toNat + request.count.toNat < 2 ^ 32) ∧
        ∀ index d, secondDescriptor request buf.size buf.descriptors = some index →
          buf.descriptors[index]? = some d → hasLast d.native.control = true →
            ¬session.Unread (flip ch) d.pa)
    (step : session.start ch b request = some after) : after.OnTrack := by
  unfold Session.start at step
  cases live : session.world.bufs b with
  | none => simp [live] at step
  | some buf =>
      simp only [live] at step
      cases checked : checkRequest buf request with
      | some refusal =>
          simp only [checked, Option.some.injEq] at step
          exact step ▸ onTrack
      | none =>
          simp only [checked] at step
          obtain ⟨started, begins, rfl⟩ := Option.map_eq_some_iff.mp step
          obtain ⟨found, liveFound, ⟨kBuf, kernel, rfl⟩ | ⟨listed, programmed, sent, rfl⟩⟩ :=
            World.start_cases begins <;> rw [live, Option.some.injEq] at liveFound <;>
              subst liveFound
          · apply onTrack.restarted
            · apply spares_update live ⟨by simp, by simp, by simp⟩
              intro index d present _
              exact ⟨d, by simpa using present, cut_of_same rfl rfl rfl⟩
            · have unlisted : buf.hasList = false := by simp [DMABuffer.hasList, kernel]
              exact on_track_unwatched (by simp [Walk.begin, requestedBytes, unlisted])
          · obtain ⟨unwrapped, kept⟩ := careful buf live checked listed
            have plain := control_word_plain session.world.engine.oldRegisters
              session.world.engine.useInterrupts request
            have spares : Spares session.world.bufs
                (session.world.afterList ch b buf request programmed).bufs fun address =>
                  session.Unread (flip ch) address := by
              refine spares_update live
                ⟨by simp, by simp, program_list_pas _ _ _ _ _ sent⟩ fun index d present unread => ?_
              have goesOn : secondDescriptor request buf.size buf.descriptors = some index →
                  hasLast d.native.control = false := fun second => by
                by_contra stops
                exact kept index d second present (by simpa using stops) unread
              obtain ⟨e, edited, -, cut⟩ := program_list_cuts _ b buf.size request buf.descriptors
                plain sent present goesOn
              exact ⟨e, edited, cut⟩
            apply onTrack.restarted _ _ _ spares
            unfold requestedBytes
            split
            · rename_i whole
              apply on_track_begin
              have registers : (session.world.afterList ch b buf request programmed).engine.channel
                  ch = programmed.temp.native := Function.update_self _ _ _
              rw [registers]
              exact sent_chain_stays onTrack.placed live listed whole.2 checked
                (unwrapped whole.2) plain sent rfl (onTrack.placed.spared spares)
            · exact on_track_unwatched rfl

theorem Session.OnTrack.create (onTrack : session.OnTrack) {b : BufId} {buf : DMABuffer}
    {pas : List U64} {world : World} (fresh : session.Fresh pas)
    (result : session.world.create b buf pas = some world) :
    Session.OnTrack { session with world := world, made := b :: session.made } := by
  unfold World.create at result
  cases dead : session.world.bufs b with
  | some found => simp [dead] at result
  | none =>
      simp only [dead] at result
      split at result
      · rename_i creatable
        cases result
        have placed := onTrack.placed.create dead creatable fresh.1 fresh.2
        refine ⟨placed, fun ch => (onTrack.walks ch).edited fun address node _ _ found => ?_⟩
        obtain ⟨c, other, index, d, live, present, rfl, rfl⟩ := host_memory_found found
        have differ : c ≠ b := by
          intro same
          subst same
          rw [dead] at live
          cases live
        exact ⟨d.native, placed.host_memory ((Function.update_of_ne differ _ _).trans live) present,
          cut_of_same rfl rfl rfl⟩
      · cases result

theorem Session.OnTrack.destroy (onTrack : session.OnTrack) {b : BufId} {world : World}
    (careful : ∀ buf, session.world.bufs b = some buf →
      ∀ d ∈ buf.descriptors, ∀ ch, ¬session.Unread ch d.pa)
    (result : session.world.destroy b = some world) :
    Session.OnTrack { session with world := world } := by
  unfold World.destroy at result
  cases live : session.world.bufs b with
  | none => simp [live] at result
  | some buf =>
      simp only [live, Option.some.injEq] at result
      subst result
      have placed : Placed session.made (Function.update session.world.bufs b none) := {
        listed := fun c found alive => onTrack.placed.listed c found (update_none_cases alive).2
        fillable := fun c found alive =>
          onTrack.placed.fillable c found (update_none_cases alive).2
        apart := fun c k found other i j d e alive aliveOther =>
          onTrack.placed.apart c k found other i j d e (update_none_cases alive).2
            (update_none_cases aliveOther).2 }
      refine ⟨placed, fun ch => ?_⟩
      apply (onTrack.walks ch).edited
      intro address node watched unread found
      obtain ⟨c, other, index, d, alive, present, rfl, rfl⟩ := host_memory_found found
      have differ : c ≠ b := by
        intro same
        subst same
        rw [live, Option.some.injEq] at alive
        subst alive
        exact careful buf live d (List.mem_of_getElem? present) ch ⟨watched, unread⟩
      exact ⟨d.native, placed.host_memory ((Function.update_of_ne differ _ _).trans alive) present,
        cut_of_same rfl rfl rfl⟩

/-- A channel that has read an end, or is at rest, reads nothing more. -/
theorem Session.not_unread_of_ended {ch : Channel} (ended : ∀ current,
    (session.walks ch).current = some current → hasLast current.control = true) (address : U64) :
    ¬session.Unread ch address := by
  intro facts
  rcases facts with ⟨-, current, holds, unread⟩
  exact nothing_after_stop (ended current holds) address unread

/-- A wait that ends after both channels have come that far may restore. -/
theorem Session.wait_careful_of_ended {Time : Type} {ch : Channel} {timeout : Time}
    {env : Environment Time} {fuel : ℕ}
    (ended : ∀ other current, (session.walks other).current = some current →
      hasLast current.control = true) : session.Careful (.wait ch timeout env fuel) :=
  fun _ _ _ _ _ d _ _ other => Session.not_unread_of_ended (ended other) d.pa

variable {Time : Type} [Zero Time] [LT Time] [DecidableLT Time]

/-- A wait that the driver refuses to make leaves the lists alone. -/
theorem refused_wait_keeps {ch : Channel} {timeout : Time} {env : Environment Time} {fuel : ℕ}
    {waited : Waited} (refused : session.Refused env)
    (result : waitChannel session.world ch timeout env fuel = some waited) :
    waited.world.bufs = session.world.bufs := by
  obtain ⟨mode, waiting, fails⟩ := refused
  obtain ⟨exception, fails⟩ := Option.ne_none_iff_exists'.mp fails
  simp only [waitChannel, mode, if_true, if_pos waiting, fails, Option.some.injEq] at result
  rw [← result]

theorem Session.OnTrack.wait (onTrack : session.OnTrack) {ch : Channel} {timeout : Time}
    {env : Environment Time} {fuel : ℕ} {waited : Waited}
    (careful : session.Careful (.wait ch timeout env fuel))
    (result : waitChannel session.world ch timeout env fuel = some waited) :
    Session.OnTrack { session with world := waited.world } := by
  apply onTrack.spared
  by_cases refused : session.Refused env
  · rw [refused_wait_keeps refused result]
    exact spares_same
  · obtain ⟨inte, woken, rfl, ⟨-, kept⟩ | restored⟩ := wait_channel_cases result
    · rw [kept]
      exact spares_same
    · rcases World.restore_cases restored with ⟨-, kept⟩ | ⟨flag, buf, list, live, undone, kept⟩
      · rw [kept]
        exact spares_same
      · rw [kept]
        refine spares_update live ⟨rfl, rfl, restore_list_pas undone⟩ ?_
        intro index d present both
        rcases both with ⟨other, unread⟩
        have spared : ¬Rewrites (session.world.engine.savedData ch) index d.native :=
          fun rewrites => careful flag refused buf live index d present rewrites other unread
        obtain ⟨e, edited, -, cut⟩ := restore_list_cuts undone present spared
        exact ⟨e, edited, cut⟩

theorem on_track_step {after : Session} (onTrack : session.OnTrack) (label : WalkStep Time)
    (careful : session.Careful label) (step : session.step label = some after) :
    after.OnTrack := by
  cases label with
  | create b buf pas =>
      simp only [Session.step] at step
      split at step
      · rename_i fresh
        obtain ⟨world, result, rfl⟩ := Option.map_eq_some_iff.mp step
        exact onTrack.create fresh result
      · cases step
  | start ch b request => exact onTrack.start careful step
  | arrive b arrived =>
      cases step
      exact onTrack.spared _ (spares_map _ b _ (fun buf => receive_memory buf _)
        (fun buf => receive_size buf _) fun buf => receive_descriptors buf _)
  | wait ch timeout env fuel =>
      obtain ⟨waited, result, rfl⟩ := Option.map_eq_some_iff.mp step
      exact onTrack.wait careful result
  | sync b dir =>
      cases step
      exact onTrack.spared _ (spares_map _ b _ (fun buf => DMABuffer.sync_memory buf _)
        (fun buf => DMABuffer.sync_size buf _) fun buf => DMABuffer.sync_descriptors buf _)
  | getStatus ch =>
      cases step
      exact onTrack
  | reset ch =>
      cases step
      exact onTrack.reset ch _
  | setUseInterrupts value =>
      cases step
      exact onTrack.spared _ spares_same
  | destroy b =>
      obtain ⟨world, result, rfl⟩ := Option.map_eq_some_iff.mp step
      exact onTrack.destroy careful result
  | engine ch garbage => exact onTrack.advance step

theorem on_track_of_reached
    (reached : (Session.system Time).ReachableUnder Session.Careful session) :
    session.OnTrack := by
  apply System.invariant_under _ _ reached
  · intro session initial
    rcases initial with ⟨-, empty, idle⟩
    constructor
    · constructor
      · intro b buf live
        simp [empty b] at live
      · intro b buf live
        simp [empty b] at live
      · intro b c buf other i j d e live
        simp [empty b] at live
    · intro ch
      rw [idle ch]
      exact on_track_unwatched rfl
  · intro session label after onTrack careful step
    exact on_track_step onTrack label careful step

/-- In every run of careful steps, all that a channel has loaded for a request lies inside
the bytes requested. -/
theorem engine_stays_in_request
    (reached : (Session.system Time).ReachableUnder Session.Careful session) (ch : Channel)
    (requested : List U64) (watched : (session.walks ch).requested = some requested) :
    ∀ segment ∈ (session.walks ch).loaded, ∀ address ∈ expand segment, address ∈ requested :=
  ((on_track_of_reached reached).walks ch).loaded requested watched

end Steps

def afterStep (session : Session) (label : WalkStep ℕ) : Session :=
  (session.step label).getD session

/-- A board at rest, and the buffer of 40 bytes in pieces of 13, 13 and 14. -/
def restingSession : Session := ⟨emptyWorld, [], fun _ => .idle⟩

def pieceSession : Session :=
  afterStep restingSession (.create 0 threePieces [0x100#64, 0x140#64, 0x180#64])

/-- Bytes 8 to 27 are asked for, which are in all three pieces. -/
def sentSession : Session := afterStep pieceSession (.start 1 0 ⟨1, 0x20, 5, 2, true⟩)

def onward (session : Session) : Session := afterStep session (.engine 1 unset.native)

/-- The wait sees a status, and gives up after three instants. -/
def waitSession (session : Session) (status : U32) : Session :=
  afterStep session (.wait 1 1 (steadyBoard status) 2)

theorem engine_stays_in_request_three_pieces : ∃ session requested,
    session = waitSession (onward (onward (onward sentSession))) 0#32 ∧
      (session.walks 1).requested = some requested ∧ (session.walks 1).loaded.length = 3 ∧
      ∀ segment ∈ (session.walks 1).loaded, ∀ address ∈ expand segment, address ∈ requested := by
  have rest : (Session.system ℕ).ReachableUnder Session.Careful restingSession :=
    .start ⟨fun _ => rfl, fun _ => rfl, fun _ => rfl⟩
  have pieces : (Session.system ℕ).ReachableUnder Session.Careful pieceSession :=
    @System.ReachableUnder.next _ _ _ _ _ pieceSession
      (.create 0 threePieces [0x100#64, 0x140#64, 0x180#64]) rest trivial rfl
  have careful : pieceSession.Careful (.start 1 0 ⟨1, 0x20, 5, 2, true⟩ : WalkStep ℕ) :=
    fun _ _ _ _ => ⟨fun _ => by decide, fun _ _ _ _ _ unread => unread.1 rfl⟩
  have sent : (Session.system ℕ).ReachableUnder Session.Careful sentSession :=
    pieces.next careful rfl
  have step : ∀ {session}, (Session.system ℕ).ReachableUnder Session.Careful session →
      session.step (.engine 1 unset.native : WalkStep ℕ) = some (onward session) →
        (Session.system ℕ).ReachableUnder Session.Careful (onward session) :=
    fun {session} reached result =>
      reached.next (show session.Careful (.engine 1 unset.native : WalkStep ℕ) from trivial) result
  have walked := step (step (step sent rfl) rfl) rfl
  have ended : (onward (onward (onward sentSession))).Careful
      (.wait 1 1 (steadyBoard 0#32) 2 : WalkStep ℕ) := by
    apply Session.wait_careful_of_ended
    intro other current holds
    rcases channel_cases other with rfl | rfl
    · cases holds
    · cases holds
  have waited : (Session.system ℕ).ReachableUnder Session.Careful
      (waitSession (onward (onward (onward sentSession))) 0#32) := walked.next ended rfl
  exact ⟨_, _, rfl, rfl, rfl, engine_stays_in_request waited 1 _ rfl⟩

/-- The wait gives up while the channel is in the second piece. The restored list leads it
on, past byte 27. -/
theorem timed_out_wait_lets_engine_overrun : ∃ session requested,
    (Session.system ℕ).Reachable session ∧ (session.walks 1).requested = some requested ∧
      ∃ segment ∈ (session.walks 1).loaded, ∃ address ∈ expand segment, address ∉ requested := by
  have rest : (Session.system ℕ).Reachable restingSession :=
    .start ⟨fun _ => rfl, fun _ => rfl, fun _ => rfl⟩
  have run : (Session.system ℕ).runFrom restingSession
      [.create 0 threePieces [0x100#64, 0x140#64, 0x180#64], .start 1 0 ⟨1, 0x20, 5, 2, true⟩,
        .engine 1 unset.native, .wait 1 1 (steadyBoard statusBusy) 2, .engine 1 unset.native] =
      some (onward (waitSession (onward sentSession) statusBusy)) := rfl
  have loaded : (((onward (waitSession (onward sentSession) statusBusy)).walks 1).loaded)[2]? =
      some ⟨0x1001a#64, 14⟩ := rfl
  exact ⟨_, _, System.reachable_of_run _ rest (fun _ _ _ => trivial) run, rfl, _,
    List.mem_of_getElem? loaded, 0x1001c#64, by decide, by decide⟩

end FpgaPcie.Mprace
