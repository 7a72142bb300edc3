import FpgaPcie.Mprace.DescriptorWG

/-!
# Programming a descriptor list

The two branches of `sendDescriptorList`: the whole-buffer fast path and the
partial path with its two searches. Both work on the list in host memory, leave
marks in it, and put a copy of the first descriptor into the channel registers.
Reading past the end of the list is undefined in the source and `none` here.
-/

namespace FpgaPcie.Mprace

open FpgaPcie.Segments DMADescriptorWG

set_option autoImplicit false

/-- Names a `DMABuffer` object, as a pointer does in the source. -/
abbrev BufId := ℕ

/-- The arguments that `host2board` and `board2host` share. -/
structure Request where
  bar : U32
  addr : U32
  count : U32
  offset : U32
  inc : Bool
  deriving DecidableEq, Repr

structure SavedData where
  savedBuf : BufId
  savedInitDescriptor : ℕ
  savedLastDescriptor : ℕ
  savedOffset : U32
  savedLength : U32
  deriving DecidableEq, Repr

/-- What programming a list leaves behind: the list in memory, the descriptor for
the channel registers, and the record for `restoreSavedData` if one was made. -/
structure Programmed where
  list : List DMADescriptorWG
  temp : DMADescriptorWG
  saved : Option SavedData
  deriving DecidableEq, Repr

/-- Offset path, first loop: skip the descriptors that end before the start. The
sum is computed in `unsigned long`, the running count kept in `unsigned int`. -/
def findInitDescriptor (byteOffset : U32) : List DMADescriptorWG → ℕ → U32 → ℕ × U32
  | [], initDescriptor, _ => (initDescriptor, 0)
  | d :: rest, initDescriptor, byteCount =>
      if byteCount.setWidth 64 + d.getLength < byteOffset.setWidth 64 then
        findInitDescriptor byteOffset rest (initDescriptor + 1)
          ((byteCount.setWidth 64 + d.getLength).setWidth 32)
      else (initDescriptor, byteOffset - byteCount)

/-- Where the transfer starts; no search is made for offset 0. -/
def initPosition (request : Request) (list : List DMADescriptorWG) : ℕ × U32 :=
  if request.offset ≠ 0 then findInitDescriptor (request.offset * 4) list 0 0 else (0, 0)

structure LastSearch where
  lastDescriptor : ℕ
  byteCount : U32
  fitsInDescriptor : Bool
  deriving DecidableEq, Repr

/-- Second loop: take whole descriptors until the rest of the count fits. In the
initial descriptor only the part behind the block offset counts. -/
def findLastDescriptor (initDescriptor : ℕ) (blockOffset : U32) :
    List DMADescriptorWG → ℕ → U32 → LastSearch
  | [], lastDescriptor, byteCount => ⟨lastDescriptor, byteCount, false⟩
  | d :: rest, lastDescriptor, byteCount =>
      let room := if lastDescriptor = initDescriptor then d.getLength - blockOffset.setWidth 64
        else d.getLength
      if byteCount.setWidth 64 ≤ room then ⟨lastDescriptor, byteCount, true⟩
      else findLastDescriptor initDescriptor blockOffset rest (lastDescriptor + 1)
        ((byteCount.setWidth 64 - room).setWidth 32)

/-- `control_word`, before the flags of the first and the last descriptor. -/
def controlWord (oldRegisters useInterrupts : Bool) (request : Request) : U32 :=
  (ctrlV ||| ctrlBar request.bar) ||| (if request.inc then ctrlInc else 0) |||
    (if oldRegisters && useInterrupts then ctrlEdi else 0)

def setControl32 (word : U32) (d : DMADescriptorWG) : DMADescriptorWG :=
  d.setControl (word.setWidth 64)

/-- What makes a descriptor the truly last one on the partial path. -/
def closeWith (word byteCount : U32) (d : DMADescriptorWG) : DMADescriptorWG :=
  setControl32 (word ||| ctrlLast)
    ((d.setLength (byteCount.setWidth 64)).setNextDescriptorAddress 0)

def registerCopy (word addr : U32) (alone : Bool) (temp : DMADescriptorWG) : DMADescriptorWG :=
  setControl32 ((word ||| ctrlUpa) ||| (if alone then ctrlLast else 0))
    (temp.setPeripheralAddress ((addr * 4).setWidth 64))

/-- The branch for `offset == 0 && count*4 == buf.size()`. -/
def programWhole (word : U32) (buf : BufId) (request : Request) (list : List DMADescriptorWG) :
    Option Programmed :=
  let nrDescriptors := list.length
  let lastDescriptor := nrDescriptors - 1
  let second := if 2 < nrDescriptors then list.modify 1 (setControl32 word) else list
  let marked := second.modify lastDescriptor (setControl32 (word ||| ctrlLast))
  match marked[lastDescriptor]?, marked[0]? with
  | some last, some first =>
      some {
        list := marked
        temp := registerCopy word request.addr (nrDescriptors == 1) (unset.assign first)
        saved := some {
          savedBuf := buf
          savedInitDescriptor := 0
          savedLastDescriptor := lastDescriptor
          savedOffset := 0
          savedLength := last.getLength.setWidth 32 } }
  | _, _ => none

/-- The branch that applies an offset, ends the transfer early, or both. When no
descriptor takes the rest of the count nothing is saved, but the edits of the
initial descriptor are made all the same. -/
def programPartial (word : U32) (buf : BufId) (request : Request) (list : List DMADescriptorWG) :
    Option Programmed :=
  let (initDescriptor, blockOffset) := initPosition request list
  let search := findLastDescriptor initDescriptor blockOffset (list.drop initDescriptor)
    initDescriptor (request.count * 4)
  let lastDescriptor := search.lastDescriptor
  let saved := if search.fitsInDescriptor then
      list[lastDescriptor]?.map fun last => {
        savedBuf := buf
        savedInitDescriptor := initDescriptor
        savedLastDescriptor := lastDescriptor
        savedOffset := blockOffset
        savedLength := last.getLength.setWidth 32 }
    else none
  let closed := if search.fitsInDescriptor then
      list.modify lastDescriptor (closeWith word search.byteCount)
    else list
  let second := if initDescriptor + 1 < lastDescriptor then
      closed.modify (initDescriptor + 1) (setControl32 word)
    else closed
  match second[initDescriptor]? with
  | none => none
  | some first =>
      let newHostAddress := first.getHostAddress + blockOffset.setWidth 64
      let temp := (unset.assign first).setHostAddress newHostAddress
      let moved := second.modify initDescriptor fun d => d.setHostAddress newHostAddress
      let newLength := temp.getLength - blockOffset.setWidth 64
      let temp := if initDescriptor ≠ lastDescriptor then temp.setLength newLength else temp
      let shortened := if initDescriptor ≠ lastDescriptor then
          moved.modify initDescriptor fun d => d.setLength newLength
        else moved
      some {
        list := shortened
        temp := registerCopy word request.addr (initDescriptor == lastDescriptor) temp
        saved := saved }

/-- `sendDescriptorList` on the list of one buffer, up to the register write. -/
def programList (word : U32) (buf : BufId) (size : U32) (request : Request)
    (list : List DMADescriptorWG) : Option Programmed :=
  if request.offset = 0 ∧ request.count * 4 = size then programWhole word buf request list
  else programPartial word buf request list

end FpgaPcie.Mprace
