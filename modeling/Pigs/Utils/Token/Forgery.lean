import Pigs.Utils.Token.Verify

/-! `simple_hash` is affine in its start value, so the signature of one text under a key gives that of
every other text without the key. -/

namespace Pigs.Utils.Token

def hashStep (hash : UInt64) (b : UInt8) : UInt64 := ((hash <<< 5) + hash) + b.toUInt64

/-- The signature `verify_token` expects for `payload`. -/
def sig (payload key : String) : UInt64 := simpleHash (payload ++ key)

/-- The signature of `payload'`, from that of `payload` and the key's length in bytes. -/
def forge (payload : String) (known : UInt64) (keyLen : Nat) (payload' : String) : UInt64 :=
  known + (simpleHash payload' - simpleHash payload) * 33 ^ keyLen

/-- No function gives every signature from one of the same key and the key's length. -/
def NoForgery : Prop :=
  ¬ ∃ attack : String → UInt64 → Nat → String → UInt64, ∀ key payload payload', payload' ≠ payload →
    attack payload (sig payload key) key.utf8ByteSize payload' = sig payload' key

theorem shift_left_five (hash : UInt64) : hash <<< 5 = hash * 32 := by
  apply UInt64.toNat_inj.mp
  simp [UInt64.toNat_shiftLeft, Nat.shiftLeft_eq]

theorem hash_step_eq (hash : UInt64) (b : UInt8) : hashStep hash b = hash * 33 + b.toUInt64 := by
  rw [hashStep, shift_left_five]
  grind

/-- Two runs over the same bytes keep their difference, multiplied by 33 at every byte. -/
theorem hash_from_sub (bytes : List UInt8) (start start' : UInt64) :
    bytes.foldl hashStep start' =
      bytes.foldl hashStep start + (start' - start) * 33 ^ bytes.length := by
  induction bytes generalizing start start' with
  | nil =>
      simp only [List.foldl_nil, List.length_nil, UInt64.pow_zero]
      grind
  | cons b bytes ih =>
      rw [List.foldl_cons, List.foldl_cons, ih (hashStep start b) (hashStep start' b), hash_step_eq,
        hash_step_eq, List.length_cons, UInt64.pow_succ]
      grind

theorem sig_eq (payload key : String) :
    sig payload key = (intoBytes key).foldl hashStep (simpleHash payload) := by
  rw [sig, simpleHash, into_bytes_append, List.foldl_append]
  rfl

theorem forge_eq (key payload payload' : String) :
    forge payload (sig payload key) key.utf8ByteSize payload' = sig payload' key := by
  rw [forge, sig_eq, sig_eq, ← length_into_bytes]
  exact (hash_from_sub (intoBytes key) (simpleHash payload) (simpleHash payload')).symm

/-- Under every key, a valid signature of one text gives an accepted token for every other text. -/
theorem forged_token_verifies (engine : Engine) (key payload payload' : String) :
    forge payload (sig payload key) key.utf8ByteSize payload' = sig payload' key ∧
      verifyToken engine
        (signed engine payload' (forge payload (sig payload key) key.utf8ByteSize payload')) key =
          some true := by
  refine ⟨forge_eq key payload payload', ?_⟩
  rw [forge_eq, verify_signed, sig, beq_self_eq_true]

theorem tokens_are_forgeable : ¬ NoForgery := by
  intro none
  exact none ⟨forge, fun key payload payload' _ => forge_eq key payload payload'⟩

end Pigs.Utils.Token
