import FpgaPcie.Driver.KmemMapping

/-!
# Entries and who is responsible for them

Each listed entry that will still be freed is claimed by one owner, a thread or an
object, together with the mapping made for it. Claims are made with a new entry, change
hands, and end with the free; each of these keeps the ledger.
-/

namespace FpgaPcie.Driver

open FpgaPcie.Keyed

set_option autoImplicit false

/-- The address an owner will free, and the mapping it has made for it, if any. -/
structure Claim where
  pa : U64
  mem : Option Mapping
  deriving DecidableEq, Repr

/-- The mapping leads to the memory whose bus address is `pa`. -/
def MapsOwn (kmemList : List KmemEntry) (pa : U64) (mem : Mapping) : Prop :=
  ∃ entry ∈ kmemList, entry.dmaHandle = pa ∧ mem = .kernel entry.cpua

/-- Every claimed entry is listed and claimed once, and every mapping made is that of
the claimed entry. -/
structure Ledger {Owner : Type} (kmemList : List KmemEntry) (claims : Owner → Option Claim) :
    Prop where
  addresses : Distinct KmemEntry.dmaHandle kmemList
  memory : Distinct KmemEntry.cpua kmemList
  listed : ∀ owner claim, claims owner = some claim → ∃ entry ∈ kmemList,
    entry.dmaHandle = claim.pa
  exclusive : ∀ left right leftClaim rightClaim, claims left = some leftClaim →
    claims right = some rightClaim → leftClaim.pa = rightClaim.pa → left = right
  own : ∀ owner claim mem, claims owner = some claim → claim.mem = some mem →
    MapsOwn kmemList claim.pa mem

namespace Ledger

theorem empty {Owner : Type} : Ledger [] fun _ : Owner => none where
  addresses := List.nodup_nil
  memory := List.nodup_nil
  listed := by simp
  exclusive := by simp
  own := by simp

variable {Owner : Type} [DecidableEq Owner] {kmemList : List KmemEntry}
  {claims : Owner → Option Claim}

theorem granted (ledger : Ledger kmemList claims) (owner : Owner) (entry : KmemEntry)
    (fresh : ∀ other ∈ kmemList, other.cpua ≠ entry.cpua ∧ other.dmaHandle ≠ entry.dmaHandle) :
    Ledger (kmemList ++ [entry])
      (Function.update claims owner (some ⟨entry.dmaHandle, none⟩)) := by
  have unclaimed : ∀ other claim, claims other = some claim → claim.pa ≠ entry.dmaHandle := by
    intro other claim found same
    obtain ⟨listed, member, address⟩ := ledger.listed other claim found
    exact (fresh listed member).2 (address.trans same)
  have cases : ∀ {other claim}, Function.update claims owner (some ⟨entry.dmaHandle, none⟩) other =
      some claim → (other = owner ∧ claim = ⟨entry.dmaHandle, none⟩) ∨ claims other = some claim := by
    intro other claim found
    exact (update_some_cases found).imp_right And.right
  constructor
  · exact ledger.addresses.append_fresh fun other member => (fresh other member).2
  · exact ledger.memory.append_fresh fun other member => (fresh other member).1
  · intro other claim found
    rcases cases found with ⟨-, rfl⟩ | old
    · exact ⟨entry, by simp, rfl⟩
    · obtain ⟨listed, member, address⟩ := ledger.listed other claim old
      exact ⟨listed, by simp [member], address⟩
  · intro left right leftClaim rightClaim leftFound rightFound same
    rcases cases leftFound with ⟨rfl, rfl⟩ | leftOld <;>
      rcases cases rightFound with ⟨rfl, rfl⟩ | rightOld
    · rfl
    · exact absurd same.symm (unclaimed right rightClaim rightOld)
    · exact absurd same (unclaimed left leftClaim leftOld)
    · exact ledger.exclusive left right leftClaim rightClaim leftOld rightOld same
  · intro other claim mem found made
    rcases cases found with ⟨-, rfl⟩ | old
    · cases made
    · obtain ⟨listed, member, own⟩ := ledger.own other claim mem old made
      exact ⟨listed, by simp [member], own⟩

theorem moved (ledger : Ledger kmemList claims) {source target : Owner} {claim after : Claim}
    (held : claims source = some claim) (free : target = source ∨ claims target = none)
    (pa : after.pa = claim.pa)
    (own : ∀ mem, after.mem = some mem → MapsOwn kmemList after.pa mem) :
    Ledger kmemList
      (Function.update (Function.update claims source none) target (some after)) := by
  have cases : ∀ {other found}, Function.update (Function.update claims source none) target
      (some after) other = some found →
      (other = target ∧ found = after) ∨ (other ≠ source ∧ claims other = some found) := by
    intro other found claimed
    exact (update_some_cases claimed).imp_right fun ⟨_, held⟩ => update_none_cases held
  have unclaimed : ∀ other found, other ≠ source → claims other = some found →
      found.pa ≠ after.pa := by
    intro other found differ claimed same
    exact differ (ledger.exclusive other source found claim claimed held (same.trans pa))
  refine ⟨ledger.addresses, ledger.memory, ?_, ?_, ?_⟩
  · intro other found claimed
    rcases cases claimed with ⟨-, rfl⟩ | ⟨-, old⟩
    · rw [pa]
      exact ledger.listed source claim held
    · exact ledger.listed other found old
  · intro left right leftClaim rightClaim leftFound rightFound same
    rcases cases leftFound with ⟨rfl, rfl⟩ | ⟨leftOther, leftOld⟩ <;>
      rcases cases rightFound with ⟨rfl, rfl⟩ | ⟨rightOther, rightOld⟩
    · rfl
    · exact absurd same.symm (unclaimed right rightClaim rightOther rightOld)
    · exact absurd same (unclaimed left leftClaim leftOther leftOld)
    · exact ledger.exclusive left right leftClaim rightClaim leftOld rightOld same
  · intro other found mem claimed made
    rcases cases claimed with ⟨-, rfl⟩ | ⟨-, old⟩
    · exact own mem made
    · exact ledger.own other found mem old made

theorem freed (ledger : Ledger kmemList claims) {owner : Owner} {claim : Claim}
    (held : claims owner = some claim) :
    Ledger (kmemList.eraseP fun entry => entry.dmaHandle = claim.pa)
      (Function.update claims owner none) := by
  have left : ∀ {other found}, Function.update claims owner none other = some found →
      claims other = some found ∧ found.pa ≠ claim.pa := by
    intro other found claimed
    by_cases same : other = owner
    · subst same
      simp at claimed
    · rw [Function.update_of_ne same] at claimed
      exact ⟨claimed, fun equal =>
        same (ledger.exclusive other owner found claim claimed held equal)⟩
  refine ⟨ledger.addresses.erase _, ledger.memory.erase _, ?_, ?_, ?_⟩
  · intro other found claimed
    obtain ⟨old, differ⟩ := left claimed
    obtain ⟨entry, member, address⟩ := ledger.listed other found old
    exact ⟨entry, (ledger.addresses.mem_erase_iff _ entry).mpr ⟨member, address ▸ differ⟩, address⟩
  · intro one other oneClaim otherClaim oneFound otherFound same
    exact ledger.exclusive one other oneClaim otherClaim (left oneFound).1 (left otherFound).1 same
  · intro other found mem claimed made
    obtain ⟨old, differ⟩ := left claimed
    obtain ⟨entry, member, address, same⟩ := ledger.own other found mem old made
    exact ⟨entry, (ledger.addresses.mem_erase_iff _ entry).mpr ⟨member, address ▸ differ⟩, address,
      same⟩

end Ledger

end FpgaPcie.Driver
