import FpgaPcie.Mprace.SendExact
import FpgaPcie.Mprace.WaitOutcome

/-!
# A read and the rest of the host buffer

For a user buffer the board writes into a bounce copy, and the synchronisation at
the end copies all of it back. Bytes outside the request survive only if the copy
was brought up to date first, or happened to be. `board2host` decides this by
comparing the count with the size in whole dwords.
-/

namespace FpgaPcie.Mprace

open FpgaPcie.Segments FpgaPcie.Polling

set_option autoImplicit false

/-- Byte `index` of the words the board sends, each word in little-endian order. -/
def boardByte (words : ℕ → U32) (index : ℕ) : U8 :=
  (words (index / 4) >>> (8 * (index % 4))).setWidth 8

/-- The device writes bytes to the addresses of its chain, those of them that have `arrived`;
`placement` holds the bus address of each byte of the bounce copy. -/
def deviceWrite (placement : List U64) (words : ℕ → U32) (arrived : ℕ → Bool) :
    List U64 → ℕ → List U8 → List U8
  | [], _, bytes => bytes
  | address :: rest, index, bytes =>
      deviceWrite placement words arrived rest (index + 1)
        (if arrived index then bytes.set (placement.idxOf address) (boardByte words index)
        else bytes)

theorem device_write_getElem? (placement : List U64) (distinct : placement.Nodup)
    (words : ℕ → U32) (arrived : ℕ → Bool) (count start index : ℕ) (bytes : List U8)
    (inside : start + count ≤ placement.length) (length : bytes.length = placement.length)
    (k : ℕ) :
    (deviceWrite placement words arrived ((placement.drop start).take count) index bytes)[k]? =
      if start ≤ k ∧ k < start + count ∧ arrived (index + (k - start)) = true then
        some (boardByte words (index + (k - start)))
      else bytes[k]? := by
  induction count generalizing start index bytes with
  | zero =>
      have none_ : ¬(start ≤ k ∧ k < start + 0 ∧ arrived (index + (k - start)) = true) := by omega
      rw [if_neg none_]
      simp [deviceWrite]
  | succ count ih =>
      have bound : start < placement.length := by omega
      have here : placement.idxOf placement[start] = start := distinct.idxOf_getElem start bound
      have same : (if arrived index = true then bytes.set start (boardByte words index)
          else bytes).length = placement.length := by
        split
        · simpa using length
        · exact length
      rw [List.drop_eq_getElem_cons bound, List.take_succ_cons, deviceWrite, here,
        ih (start + 1) (index + 1) _ (by omega) same]
      by_cases own : k = start
      · subst own
        have notLater : ¬(k + 1 ≤ k ∧ k < k + 1 + count ∧
            arrived (index + 1 + (k - (k + 1))) = true) := by omega
        have own : index + (k - k) = index := by omega
        rw [if_neg notLater, own]
        by_cases there : arrived index = true
        · have now : k ≤ k ∧ k < k + (count + 1) ∧ arrived index = true := ⟨by omega, by omega, there⟩
          rw [if_pos there, if_pos now, List.getElem?_set_self (by omega)]
        · rw [if_neg there, if_neg fun all => there all.2.2]
      · have untouched : (if arrived index = true then bytes.set start (boardByte words index)
            else bytes)[k]? = bytes[k]? := by
          split
          · exact List.getElem?_set_ne (Ne.symm own)
          · rfl
        rw [untouched]
        by_cases behind : start + 1 ≤ k
        · have shifted : index + 1 + (k - (start + 1)) = index + (k - start) := by omega
          have range : (start + 1 ≤ k ∧ k < start + 1 + count ∧
              arrived (index + (k - start)) = true) ↔ (start ≤ k ∧ k < start + (count + 1) ∧
              arrived (index + (k - start)) = true) := by
            constructor
            · exact fun all => ⟨by have := all.1; omega, by have := all.2.1; omega, all.2.2⟩
            · exact fun all => ⟨behind, by have := all.2.1; omega, all.2.2⟩
          rw [shifted, if_congr range rfl rfl]
        · have before : ¬(start ≤ k ∧ k < start + (count + 1) ∧
              arrived (index + (k - start)) = true) :=
            fun all => behind (Nat.lt_of_le_of_ne all.1 (Ne.symm own))
          rw [if_neg fun all => behind all.1, if_neg before]

namespace World

def programmedBytes (world : World) (ch : Channel) (b : BufId) : Option (List U64) :=
  match world.bufs b with
  | none => none
  | some buf =>
      (walkChain buf.descriptors buf.descriptors.length (world.engine.channel ch)).map expandAll

section Reads

variable {Time : Type} [Zero Time] [LT Time] [DecidableLT Time]

/-- `board2host` with `lock`, where the device writes the words of the board along
the chain it was given; `arrived` tells which bytes of them are there when the wait ends. A
chain that does not end gives no answer. -/
def lockedRead (world : World) (b : BufId) (request : Request) (words : ℕ → U32)
    (arrived : ℕ → Bool) (timeout : Time) (env : Environment Time) (fuel : ℕ) : Option Waited :=
  match world.bufs b, world.startBoard2host b request with
  | some buf, some started =>
      match started.programmedBytes 1 b with
      | none => none
      | some targets =>
          world.board2host b request (some (timeout, { env with
            arrived := deviceWrite (busAddresses buf.descriptors) words arrived targets 0 })) fuel
  | _, _ => none

end Reads

end World

/-- Bytes outside the request are as before, bytes inside are the board's. The
range is the exact one, without wrapping. -/
def FrameKept (before after : List U8) (request : Request) (words : ℕ → U32) : Prop :=
  ∀ k byte, before[k]? = some byte →
    if 4 * request.offset.toNat ≤ k ∧ k < 4 * (request.offset.toNat + request.count.toNat) then
      after[k]? = some (boardByte words (k - 4 * request.offset.toNat))
    else after[k]? = some byte

/-- The bounce copy that the device finds: brought up to date, or as it was. -/
def bounceFound (buf : DMABuffer) (request : Request) : List U8 :=
  if 0 < request.offset.toNat ∨ request.count.toNat < buf.size.toNat / 4 then buf.host
  else buf.bounce

/-- When a read keeps the frame. A sum that does not wrap: the buffer is synchronised
first, or the bytes behind the last whole dword are the same in the bounce copy; and every byte
of the request has arrived, or is the board's already. A wrapping sum, where the board is sent to
the range of the wrapped products: no byte shows the difference. -/
def ReadSafe (buf : DMABuffer) (request : Request) (words : ℕ → U32) (arrived : ℕ → Bool) :
    Prop :=
  if request.offset.toNat + request.count.toNat < 2 ^ 32 then
    (0 < request.offset.toNat ∨ request.count.toNat < buf.size.toNat / 4 ∨
      ∀ k, 4 * request.count.toNat ≤ k → k < buf.size.toNat → buf.bounce[k]? = buf.host[k]?) ∧
    ∀ k < 4 * request.count.toNat, arrived k = true ∨
      (bounceFound buf request)[4 * request.offset.toNat + k]? = some (boardByte words k)
  else ∀ k byte, buf.host[k]? = some byte →
    if 4 * request.offset.toNat ≤ k then
      (byteOffset request ≤ k ∧ k < byteOffset request + byteCount request ∧
        arrived (k - byteOffset request) = true) ∨
        byte = boardByte words (k - 4 * request.offset.toNat)
    else k < byteOffset request ∨ byteOffset request + byteCount request ≤ k ∨
      arrived (k - byteOffset request) = false ∨
      byte = boardByte words (k - byteOffset request)

theorem sync_from_device_user (buf : DMABuffer) (entries : List UmemSgEntry)
    (user : buf.memory = .user entries) : (buf.sync .fromDevice).host = buf.bounce := by
  simp [DMABuffer.sync, user]

theorem receive_user (buf : DMABuffer) (entries : List UmemSgEntry)
    (user : buf.memory = .user entries) (arrived : List U8 → List U8) :
    (buf.receive arrived).memory = .user entries ∧
      (buf.receive arrived).bounce = arrived buf.bounce := by
  simp [DMABuffer.receive, user]

section Read

variable {Time : Type} [Zero Time] [LT Time] [DecidableLT Time]

/-- What a locked read of a started transfer leaves in the buffer. -/
theorem board2host_contents {world started : World} {b : BufId} {buf sent : DMABuffer}
    {entries : List UmemSgEntry} {request : Request} {timeout : Time} {env : Environment Time}
    {fuel : ℕ} {waited : Waited} (live : world.bufs b = some buf)
    (start : world.startBoard2host b request = some started)
    (liveSent : started.bufs b = some sent) (user : sent.memory = .user entries)
    (returned : world.board2host b request (some (timeout, env)) fuel = some waited)
    (normal : waited.thrown = none) :
    checkRequest buf request = none ∧
      ReturnsAt started.engine.useInterrupts timeout env waited.instant ∧
      ∃ final, waited.world.bufs b = some final ∧ final.host = env.arrived sent.bounce := by
  unfold World.board2host at returned
  simp only [live] at returned
  cases check : checkRequest buf request with
  | some exception =>
      simp only [check, Option.some.injEq] at returned
      subst returned
      cases normal
  | none =>
      simp only [check, start] at returned
      obtain ⟨before, wait, rfl⟩ := Option.map_eq_some_iff.mp returned
      have returns := wait_returns_at wait normal
      refine ⟨rfl, returns, ?_⟩
      · obtain ⟨inte, woken, rfl, ⟨raised, -⟩ | restored⟩ := wait_channel_cases wait
        · exact absurd normal raised
        · obtain ⟨receivedUser, receivedBounce⟩ := receive_user sent entries user env.arrived
          have received : (started.mapBuf b fun buf => buf.receive env.arrived).bufs b =
              some (sent.receive env.arrived) := by
            simp [World.mapBuf, liveSent]
          obtain ⟨after, liveAfter, memory, -, -, bounce⟩ :=
            World.restore_keeps_contents restored received
          refine ⟨after.sync .fromDevice, by simp [World.mapBuf, liveAfter], ?_⟩
          rw [sync_from_device_user after entries (memory.trans receivedUser), bounce,
            receivedBounce]

theorem locked_read_contents {world : World} {b : BufId} {buf : DMABuffer}
    {entries : List UmemSgEntry} {request : Request} {words : ℕ → U32} {arrived : ℕ → Bool}
    {timeout : Time} {env : Environment Time} {fuel : ℕ} {waited : Waited}
    (live : world.bufs b = some buf) (user : buf.memory = .user entries)
    (filled : AsFilled buf.descriptors buf.size)
    (chained : (buf.descriptors.map DMADescriptorWG.pa).Nodup)
    (returned : world.lockedRead b request words arrived timeout env fuel = some waited)
    (normal : waited.thrown = none) :
    checkRequest buf request = none ∧
      byteOffset request + byteCount request ≤ buf.size.toNat ∧
      ReturnsAt world.engine.useInterrupts timeout env waited.instant ∧
      ∃ final, waited.world.bufs b = some final ∧ final.host =
        deviceWrite (busAddresses buf.descriptors) words arrived
          (((busAddresses buf.descriptors).drop (byteOffset request)).take (byteCount request)) 0
          (buf.syncedFor 1 request).bounce := by
  have listed : buf.hasList = true := by simp [DMABuffer.hasList, user]
  have flip : ¬(1 : Channel) = 0 := by decide
  have begun := World.start_list 1 request live listed
  have mode : ∀ started, world.start 1 b request = some started →
      started.engine.useInterrupts = world.engine.useInterrupts :=
    fun _ result => start_use_interrupts result
  rw [World.start, if_neg flip] at begun mode
  have plain := control_word_plain world.engine.oldRegisters world.engine.useInterrupts request
  unfold World.lockedRead at returned
  simp only [live] at returned
  cases result : programList (controlWord world.engine.oldRegisters world.engine.useInterrupts
      request) b buf.size request buf.descriptors with
  | none => simp [begun, result] at returned
  | some programmed =>
      rw [result, Option.map_some] at begun
      have lengths := program_list_length _ _ _ _ _ result
      have targets_eq : World.programmedBytes (world.afterList 1 b buf request programmed) 1 b =
          (walkChain programmed.list programmed.list.length programmed.temp.native).map
            expandAll := by
        simp [World.programmedBytes, World.afterList, DMAEngineWG.write]
      simp only [begun] at returned
      change (match World.programmedBytes (world.afterList 1 b buf request programmed) 1 b with
        | none => none
        | some targets => world.board2host b request (some (timeout, { env with
            arrived := deviceWrite (busAddresses buf.descriptors) words arrived targets 0 }))
              fuel) =
          some waited at returned
      rw [targets_eq] at returned
      cases walk : walkChain programmed.list programmed.list.length programmed.temp.native with
      | none => simp [walk] at returned
      | some visited =>
          simp only [walk, Option.map_some] at returned
          have range := walkable_range _ b buf.size request buf.descriptors filled plain result walk
          obtain ⟨again, exactly, sameResult, sameWalk, bytes⟩ := program_list_exact _ b buf.size
            request buf.descriptors filled chained plain range
          rw [result, Option.some.injEq] at sameResult
          subst sameResult
          have sameVisited := sameWalk programmed.list.length (by omega)
          rw [walk, Option.some.injEq] at sameVisited
          subst sameVisited
          rw [bytes] at returned
          obtain ⟨accepted, returns, final, liveFinal, contents⟩ := board2host_contents live begun
            (Function.update_self _ _ _) (by simpa using user) returned normal
          rw [mode _ begun] at returns
          exact ⟨accepted, range, returns, final, liveFinal, contents⟩

end Read

theorem synced_bounce (buf : DMABuffer) (entries : List UmemSgEntry) (request : Request)
    (user : buf.memory = .user entries) :
    (buf.syncedFor 1 request).bounce = bounceFound buf request := by
  have flip : ¬(1 : Channel) = 0 := by decide
  have zero : (0 : U32).toNat = 0 := rfl
  have four : (4 : U32).toNat = 4 := rfl
  have test : (0 < request.offset ∨ request.count < buf.size / 4) ↔
      (0 < request.offset.toNat ∨ request.count.toNat < buf.size.toNat / 4) := by
    rw [BitVec.lt_def, BitVec.lt_def, BitVec.toNat_udiv, zero, four]
  unfold DMABuffer.syncedFor bounceFound
  rw [if_neg flip]
  by_cases ahead : 0 < request.offset.toNat ∨ request.count.toNat < buf.size.toNat / 4
  · rw [if_pos (test.mpr ahead), if_pos ahead]
    simp [DMABuffer.sync, user]
  · rw [if_neg (fun less => ahead (test.mp less)), if_neg ahead]

/-- A sum that does not wrap: the programmed range is the requested one. -/
theorem frame_kept_iff_exact (buf : DMABuffer) (request : Request) (words : ℕ → U32)
    (arrived : ℕ → Bool) (final : List U8) (host : buf.host.length = buf.size.toNat)
    (inside : 4 * request.offset.toNat + 4 * request.count.toNat ≤ buf.size.toNat)
    (contents : ∀ k, final[k]? = if 4 * request.offset.toNat ≤ k ∧
        k < 4 * request.offset.toNat + 4 * request.count.toNat ∧
        arrived (k - 4 * request.offset.toNat) = true then
      some (boardByte words (k - 4 * request.offset.toNat)) else (bounceFound buf request)[k]?) :
    FrameKept buf.host final request words ↔
      (0 < request.offset.toNat ∨ request.count.toNat < buf.size.toNat / 4 ∨
        ∀ k, 4 * request.count.toNat ≤ k → k < buf.size.toNat → buf.bounce[k]? = buf.host[k]?) ∧
      ∀ k < 4 * request.count.toNat, arrived k = true ∨
        (bounceFound buf request)[4 * request.offset.toNat + k]? = some (boardByte words k) := by
  have sameEnd : 4 * (request.offset.toNat + request.count.toNat) =
      4 * request.offset.toNat + 4 * request.count.toNat := by omega
  constructor
  · intro kept
    constructor
    · by_cases ahead : 0 < request.offset.toNat ∨ request.count.toNat < buf.size.toNat / 4
      · exact ahead.imp_right Or.inl
      · refine Or.inr (Or.inr fun k behind below => ?_)
        have byte := List.getElem?_eq_getElem (show k < buf.host.length by omega)
        have after := kept k _ byte
        rw [if_neg (by omega), contents k, if_neg (by omega), bounceFound, if_neg ahead] at after
        rw [after, byte]
    · intro k below
      by_cases there : arrived k = true
      · exact Or.inl there
      · have byte := List.getElem?_eq_getElem
          (show 4 * request.offset.toNat + k < buf.host.length by omega)
        have after := kept _ _ byte
        rw [if_pos (by omega), contents, Nat.add_sub_cancel_left, if_neg fun all => there all.2.2]
          at after
        exact Or.inr after
  · intro safe k byte before
    obtain ⟨outside, within⟩ := safe
    have below : k < buf.size.toNat := by
      rw [← host]
      exact (List.getElem?_eq_some_iff.mp before).1
    rw [contents k, sameEnd]
    by_cases range : 4 * request.offset.toNat ≤ k ∧
        k < 4 * request.offset.toNat + 4 * request.count.toNat
    · rw [if_pos range]
      rcases within (k - 4 * request.offset.toNat) (by omega) with there | same
      · rw [if_pos ⟨range.1, range.2, there⟩]
      · rw [Nat.add_sub_cancel' range.1] at same
        split
        · rfl
        · exact same
    · rw [if_neg range, if_neg fun all => range ⟨all.1, all.2.1⟩, bounceFound]
      split
      · exact before
      · rename_i behind
        rw [not_or] at behind
        rcases outside with moved | short | same
        · exact absurd moved behind.1
        · exact absurd short behind.2
        · rw [same k (by omega) below]
          exact before

/-- A sum that wraps: the buffer was synchronised, and the board wrote to the range
of the wrapped products. -/
theorem frame_kept_iff_wrapped (buf : DMABuffer) (request : Request) (words : ℕ → U32)
    (arrived : ℕ → Bool) (final : List U8) (host : buf.host.length = buf.size.toNat)
    (wraps : 2 ^ 32 ≤ request.offset.toNat + request.count.toNat)
    (contents : ∀ k, final[k]? = if byteOffset request ≤ k ∧
        k < byteOffset request + byteCount request ∧ arrived (k - byteOffset request) = true then
      some (boardByte words (k - byteOffset request)) else buf.host[k]?) :
    FrameKept buf.host final request words ↔ ∀ k byte, buf.host[k]? = some byte →
      if 4 * request.offset.toNat ≤ k then
        (byteOffset request ≤ k ∧ k < byteOffset request + byteCount request ∧
          arrived (k - byteOffset request) = true) ∨
          byte = boardByte words (k - 4 * request.offset.toNat)
      else k < byteOffset request ∨ byteOffset request + byteCount request ≤ k ∨
        arrived (k - byteOffset request) = false ∨
        byte = boardByte words (k - byteOffset request) := by
  have sizeBound := buf.size.isLt
  have four : (4 : U32).toNat = 4 := rfl
  unfold FrameKept
  refine forall_congr' fun k => forall_congr' fun byte => imp_congr_right ?_
  intro before
  have inside : k < buf.size.toNat := by
    rw [← host]
    exact (List.getElem?_eq_some_iff.mp before).1
  rw [contents k, before]
  by_cases behind : 4 * request.offset.toNat ≤ k
  · have same : byteOffset request = 4 * request.offset.toNat := by
      simp only [byteOffset, BitVec.toNat_mul, four]
      omega
    rw [if_pos (by omega), if_pos behind, same]
    split
    · rename_i written
      exact iff_of_true rfl (Or.inl written)
    · rename_i written
      rw [or_iff_right written, Option.some.injEq]
  · rw [if_neg (fun both => behind both.1), if_neg behind]
    by_cases written : byteOffset request ≤ k ∧
        k < byteOffset request + byteCount request ∧ arrived (k - byteOffset request) = true
    · rw [if_pos written, Option.some.injEq]
      constructor
      · intro equal
        exact Or.inr (Or.inr (Or.inr equal.symm))
      · intro either
        rcases either with before_ | after | missing | equal
        · omega
        · omega
        · exact absurd written.2.2 (by rw [missing]; exact Bool.false_ne_true)
        · exact equal.symm
    · rw [if_neg written]
      refine iff_of_true rfl ?_
      by_cases range : byteOffset request ≤ k ∧ k < byteOffset request + byteCount request
      · have missing : arrived (k - byteOffset request) = false := by
          rw [← Bool.not_eq_true]
          exact fun there => written ⟨range.1, range.2, there⟩
        exact Or.inr (Or.inr (Or.inl missing))
      · omega

section Read

variable {Time : Type} [Zero Time] [LT Time] [DecidableLT Time]

/-- `arrived instant` tells which bytes of the transfer are there at an instant. After a locked
read of a user buffer that returns normally, the bytes around the request are untouched and the
bytes inside are the board's exactly when the read is safe at the instant that ends the wait. -/
theorem board_read_keeps_frame_iff (world : World) (b : BufId) (buf : DMABuffer)
    (entries : List UmemSgEntry) (request : Request) (words : ℕ → U32)
    (arrived : ℕ → ℕ → Bool) (timeout : Time) (env : Environment Time) (fuel : ℕ)
    (waited : Waited) (live : world.bufs b = some buf)
    (user : buf.memory = .user entries) (filled : AsFilled buf.descriptors buf.size)
    (chained : (buf.descriptors.map DMADescriptorWG.pa).Nodup)
    (placed : (busAddresses buf.descriptors).Nodup) (host : buf.host.length = buf.size.toNat)
    (bounce : buf.bounce.length = buf.size.toNat)
    (returned : world.lockedRead b request words (arrived waited.instant) timeout env fuel =
      some waited)
    (normal : waited.thrown = none) :
    (∃ final, waited.world.bufs b = some final ∧ FrameKept buf.host final.host request words) ↔
      ∀ instant, ReturnsAt world.engine.useInterrupts timeout env instant →
        ReadSafe buf request words (arrived instant) := by
  obtain ⟨accepted, range, returns, final, liveFinal, result⟩ :=
    locked_read_contents live user filled chained returned normal
  have source := synced_bounce buf entries request user
  have places : (busAddresses buf.descriptors).length = buf.size.toNat := by
    rw [busAddresses, expand_all_length, filled.covers]
  have foundLength : (bounceFound buf request).length = buf.size.toNat := by
    rw [bounceFound]
    split
    · exact host
    · exact bounce
  rw [source] at result
  have contents : ∀ k, final.host[k]? = if byteOffset request ≤ k ∧
      k < byteOffset request + byteCount request ∧
      arrived waited.instant (k - byteOffset request) = true then
      some (boardByte words (k - byteOffset request)) else (bounceFound buf request)[k]? := by
    intro k
    rw [result, device_write_getElem? _ placed words _ _ _ 0 _ (by omega) (by omega), Nat.zero_add]
  have only : (∃ last, waited.world.bufs b = some last ∧
      FrameKept buf.host last.host request words) ↔
      FrameKept buf.host final.host request words := by
    constructor
    · intro present
      rcases present with ⟨last, liveLast, kept⟩
      rw [liveFinal, Option.some.injEq] at liveLast
      rw [liveLast]
      exact kept
    · intro kept
      exact ⟨final, liveFinal, kept⟩
  have ended : (∀ instant, ReturnsAt world.engine.useInterrupts timeout env instant →
      ReadSafe buf request words (arrived instant)) ↔
      ReadSafe buf request words (arrived waited.instant) := by
    constructor
    · intro safe
      exact safe _ returns
    · intro safe instant again
      rw [returns_at_unique again returns]
      exact safe
  rw [only, ended]
  obtain ⟨-, summed⟩ := accepted_range buf request accepted
  by_cases exact_ : request.offset.toNat + request.count.toNat < 2 ^ 32
  · rw [ReadSafe, if_pos exact_]
    obtain ⟨offset, count⟩ := exact_range request buf.size (by omega)
    rw [offset, count] at contents range
    exact frame_kept_iff_exact buf request words _ final.host host range contents
  · rw [ReadSafe, if_neg exact_]
    have moved : 0 < request.offset.toNat := by
      have bound := request.count.isLt
      omega
    have found : bounceFound buf request = buf.host := if_pos (Or.inl moved)
    rw [found] at contents
    exact frame_kept_iff_wrapped buf request words _ final.host host (by omega) contents

end Read

-- Six bytes, of which the board sends one dword from the start.

def sixBytes (stale : U8) : DMABuffer where
  memory := .user [⟨0x1000#64, 6#64⟩]
  size := 6
  descriptors := fillDescriptorList (.user [⟨0x1000#64, 6#64⟩]) 6 [0x100#64]
  host := [1, 2, 3, 4, 5, 6]
  bounce := [0, 0, 0, 0, stale, 6]

def sixByteWorld (stale : U8) : World where
  engine := DMAEngineWG.construct false (fun _ => DMADescriptorWG.unset.native) 0
  bufs := fun b => if b = 0 then some (sixBytes stale) else none

def firstDword : Request := ⟨1, 0x20, 1, 0, true⟩

/-- The host bytes after a locked read that returns normally. -/
def hostAfter (world : World) (b : BufId) (request : Request) (words : ℕ → U32)
    (arrived : ℕ → Bool) (env : Environment ℕ) (fuel : ℕ) : Option (List U8) :=
  (world.lockedRead b request words arrived 0 env fuel).bind fun waited =>
    if waited.thrown = none then (waited.world.bufs b).map fun buf => buf.host else none

theorem host_after_some {world : World} {b : BufId} {request : Request} {words : ℕ → U32}
    {arrived : ℕ → Bool} {env : Environment ℕ} {fuel : ℕ} {bytes : List U8}
    (result : hostAfter world b request words arrived env fuel = some bytes) :
    ∃ waited final, world.lockedRead b request words arrived 0 env fuel = some waited ∧
      waited.thrown = none ∧ waited.world.bufs b = some final ∧ final.host = bytes := by
  obtain ⟨waited, returned, rest⟩ := Option.bind_eq_some_iff.mp result
  split at rest
  · rename_i normal
    obtain ⟨final, live, host⟩ := Option.map_eq_some_iff.mp rest
    exact ⟨waited, final, returned, normal, live, host⟩
  · cases rest

/-- With a stale byte behind the dword: the host byte 5 comes back as 9. -/
theorem odd_tail_overwritten : ∃ waited final,
    (sixByteWorld 9).lockedRead 0 firstDword (fun _ => 0x44332211#32) (fun _ => true) 0
      (steadyBoard 0) 1 = some waited ∧ waited.thrown = none ∧
      waited.world.bufs 0 = some final ∧
      ¬FrameKept (sixBytes 9).host final.host firstDword (fun _ => 0x44332211#32) := by
  have read : hostAfter (sixByteWorld 9) 0 firstDword (fun _ => 0x44332211#32) (fun _ => true)
      (steadyBoard 0) 1 = some [0x11, 0x22, 0x33, 0x44, 9, 6] := by decide
  obtain ⟨waited, final, returned, normal, live, host⟩ := host_after_some read
  refine ⟨waited, final, returned, normal, live, fun kept => ?_⟩
  have fifth := kept 4 5 rfl
  rw [if_neg (by decide), host] at fifth
  exact absurd fifth (by decide)

/-- Nothing stale, and a wait that a `TIMEOUT` ends before anything has come: the call returns
normally, and the dword is not the board's. -/
theorem board_read_keeps_frame_iff_timed_out : ∃ waited,
    (sixByteWorld 5).lockedRead 0 firstDword (fun _ => 0x44332211#32) (fun _ => false) 0
      (steadyBoard statusTout) 1 = some waited ∧ waited.thrown = none ∧
      ¬∃ final, waited.world.bufs 0 = some final ∧
        FrameKept (sixBytes 5).host final.host firstDword (fun _ => 0x44332211#32) := by
  have read : hostAfter (sixByteWorld 5) 0 firstDword (fun _ => 0x44332211#32) (fun _ => false)
      (steadyBoard statusTout) 1 = some [0, 0, 0, 0, 5, 6] := by decide
  have covers : CoversBuffer [⟨0x1000#64, 6#64⟩] 6 := ⟨by decide, by decide, by decide⟩
  obtain ⟨waited, final, returned, normal, -, -⟩ := host_after_some read
  refine ⟨waited, returned, normal, fun kept => ?_⟩
  have safe := (board_read_keeps_frame_iff (sixByteWorld 5) 0 (sixBytes 5)
    [⟨0x1000#64, 6#64⟩] firstDword _ (fun _ _ => false) 0 (steadyBoard statusTout) 1 waited rfl rfl
    (fill_descriptor_list_filled (.user [⟨0x1000#64, 6#64⟩]) 6 [0x100#64] covers rfl)
    (by decide) (by decide) rfl rfl returned normal).mp kept 1
    ⟨0, ⟨Nat.le_refl 0, by decide, fun _ _ before => absurd before (Nat.not_lt_zero _)⟩, rfl⟩
  rw [ReadSafe, if_pos (by decide)] at safe
  rcases safe.2 0 (by decide) with there | same
  · cases there
  · exact absurd same (by decide)

end FpgaPcie.Mprace
