import Mathlib.Data.Nat.Size
import Mathlib.Data.Set.Card
import Pigs.Cache.C100k.Shard

/-! `Cache::with_capacity` and the shard that `Cache::shard` chooses for a hash. -/

set_option linter.dupNamespace false

namespace Pigs.Cache.C100k

structure Cache (K : Type) (capacity : Nat) where
  shards : List (Shard K capacity)

namespace Cache

variable {K : Type} {capacity : Nat}

def withCapacity (K : Type) (capacity shardLen : Nat) : Cache K capacity where
  shards := List.replicate shardLen (Shard.new K capacity)

/-- `(hash as usize) & (self.shards.len() - 1)` -/
def shardIndex (c : Cache K capacity) (hash : UInt64) : Nat := hash.toNat &&& (c.shards.length - 1)

/-- `none` is the panic of an index out of bounds. -/
def shard (c : Cache K capacity) (hash : UInt64) : Option (Shard K capacity) :=
  c.shards[c.shardIndex hash]?

/-- Every hash has a shard, every shard has a hash, and the shards that have one hold as much as is
configured. -/
structure UsesEveryShard (c : Cache K capacity) : Prop where
  inBounds : ∀ hash, (c.shard hash).isSome
  reached : ∀ i < c.shards.length, ∃ hash, c.shardIndex hash = i
  filled : (Set.range c.shardIndex).ncard * capacity = c.shards.length * capacity

theorem length_withCapacity (K : Type) (capacity shardLen : Nat) :
    (withCapacity K capacity shardLen).shards.length = shardLen :=
  List.length_replicate

theorem shardIndex_lt (c : Cache K capacity) (nonempty : 1 ≤ c.shards.length) (hash : UInt64) :
    c.shardIndex hash < c.shards.length := by
  have below : c.shardIndex hash ≤ c.shards.length - 1 := Nat.and_le_right
  omega

/-- A mask keeps every smaller number only if its bits are all ones. -/
theorem mask_of_kept (mask : Nat) (kept : ∀ i ≤ mask, i &&& mask = i) : ∃ k, mask + 1 = 2 ^ k := by
  cases mask with
  | zero => exact ⟨0, rfl⟩
  | succ below =>
      obtain ⟨high, size⟩ : ∃ high, (below + 1).size = high + 1 :=
        Nat.exists_eq_succ_of_ne_zero (Nat.size_pos.mpr (Nat.succ_pos below)).ne'
      have upper : below + 1 < 2 ^ (high + 1) := by
        rw [← size]
        exact Nat.lt_size_self _
      have lower : 2 ^ high ≤ below + 1 := Nat.lt_size.mp (by omega)
      have positive : 0 < 2 ^ high := Nat.two_pow_pos high
      have low := kept (2 ^ high - 1) (by omega)
      rw [Nat.and_comm, Nat.and_two_pow_sub_one_eq_mod] at low
      refine ⟨high + 1, ?_⟩
      rw [pow_succ] at upper ⊢
      have whole := Nat.div_add_mod (below + 1) (2 ^ high)
      have one : (below + 1) / 2 ^ high = 1 := by
        rw [Nat.div_eq_iff positive]
        omega
      rw [one, low] at whole
      omega

theorem shardIndex_of_power (c : Cache K capacity) (k : Nat) (power : c.shards.length = 2 ^ k)
    (hash : UInt64) : c.shardIndex hash = hash.toNat % 2 ^ k := by
  rw [shardIndex, power, Nat.and_two_pow_sub_one_eq_mod]

theorem shard_isSome (c : Cache K capacity) (nonempty : 1 ≤ c.shards.length) (hash : UInt64) :
    (c.shard hash).isSome := by
  rw [shard, List.getElem?_eq_getElem (c.shardIndex_lt nonempty hash)]
  rfl

/-- A shard index is a submask of the mask, and masking it again changes nothing. -/
theorem shardIndex_and (c : Cache K capacity) (hash : UInt64) :
    c.shardIndex hash &&& (c.shards.length - 1) = c.shardIndex hash := by
  rw [shardIndex, Nat.and_assoc, Nat.and_self]

theorem power_of_reached (c : Cache K capacity) (nonempty : 1 ≤ c.shards.length)
    (reached : ∀ i < c.shards.length, ∃ hash, c.shardIndex hash = i) : ∃ k, c.shards.length = 2 ^ k := by
  obtain ⟨k, power⟩ := mask_of_kept (c.shards.length - 1) fun i below => by
    obtain ⟨hash, rfl⟩ := reached i (by omega)
    exact c.shardIndex_and hash
  exact ⟨k, by omega⟩

theorem reached_of_power (c : Cache K capacity) (k : Nat) (power : c.shards.length = 2 ^ k)
    (usize : c.shards.length ≤ 18446744073709551616) (i : Nat) (inside : i < c.shards.length) :
    ∃ hash, c.shardIndex hash = i := by
  have small : i < 18446744073709551616 := by omega
  refine ⟨UInt64.ofNat i, ?_⟩
  rw [shardIndex_of_power c k power, UInt64.toNat_ofNat_of_lt' small]
  exact Nat.mod_eq_of_lt (by omega)

theorem range_of_reached (c : Cache K capacity) (nonempty : 1 ≤ c.shards.length)
    (reached : ∀ i < c.shards.length, ∃ hash, c.shardIndex hash = i) :
    Set.range c.shardIndex = Set.Iio c.shards.length := by
  ext i
  constructor
  · rintro ⟨hash, rfl⟩
    exact c.shardIndex_lt nonempty hash
  · exact reached i

/-- Every shard is used exactly when their number is a power of two. -/
theorem every_shard_used_iff (K : Type) (capacity shardLen : Nat) (positive : 1 ≤ shardLen)
    (usize : shardLen < 18446744073709551616) :
    UsesEveryShard (withCapacity K capacity shardLen) ↔ ∃ k, shardLen = 2 ^ k := by
  have length := length_withCapacity K capacity shardLen
  have nonempty : 1 ≤ (withCapacity K capacity shardLen).shards.length := by rwa [length]
  constructor
  · intro uses
    have power := power_of_reached _ nonempty uses.reached
    rwa [length] at power
  · rintro ⟨k, power⟩
    have reached := reached_of_power (withCapacity K capacity shardLen) k (length.trans power)
      (by rw [length]; exact usize.le)
    refine ⟨shard_isSome _ nonempty, reached, ?_⟩
    rw [range_of_reached _ nonempty reached, Set.ncard_eq_toFinset_card', Set.toFinset_Iio, Nat.card_Iio]

theorem every_shard_used_of_four :
    UsesEveryShard (withCapacity String 128000 4) ↔ ∃ k, 4 = 2 ^ k :=
  every_shard_used_iff String 128000 4 (by decide) (by decide)

/-- With three shards no hash is routed to the second one. -/
theorem second_of_three_unused :
    ¬ ∀ (capacity shardLen : Nat), 1 ≤ shardLen → shardLen < 18446744073709551616 →
        UsesEveryShard (withCapacity String capacity shardLen) := by
  intro always
  obtain ⟨hash, chosen⟩ := (always 1 3 (by decide) (by decide)).reached 1 (by decide)
  have kept := shardIndex_and (withCapacity String 1 3) hash
  rw [chosen] at kept
  revert kept
  decide

end Cache

end Pigs.Cache.C100k
