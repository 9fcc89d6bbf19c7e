import VortexEngine.Configuration
import VortexEngine.Network.NetworkSession

open VortexEngine.Foundations

namespace VortexEngine
namespace Network

/-!
# The sizes that a configuration leads to

The configured `log_size` counts mebibytes.  The constructor of a session
multiplies it out, rounds the product down to a power of two and derives
`max_log_size` from the result; the ring checks the size and cuts it to a
`DWORD`; and the framing loop adds eight to a length in 32 bits.  No function
on the way tests the value again, so all of this is sound exactly when the
value that `GetUserCofig` returned is in range modulo `2 ^ 44`.
-/

namespace MagicRingBuffer

/-- The size test of the constructor. -/
def SizeAccepted (physicalSize : SizeT) : Prop :=
  ¬ (physicalSize = 0 ∨ physicalSize % (64 * 1024) ≠ 0)

/-- The constructor succeeds on such a size as soon as the views are mapped. -/
theorem create_of_accepted {api : MemoryApi} (mapped : Nat -> Byte) {physicalSize : SizeT}
    {basePtr : Nat}
    (accepted : SizeAccepted physicalSize) (portal : startPortal api physicalSize = some basePtr) :
    Exists fun ring => create api mapped physicalSize = some ring := by
  unfold create
  rw [if_neg accepted, portal]
  exact ⟨_, rfl⟩

theorem sizeAccepted_of_power {physicalSize : SizeT} {exponent : Nat}
    (power : physicalSize.toNat = 2 ^ exponent)
    (least : 16 ≤ exponent) : SizeAccepted physicalSize := by
  rintro (zero | uneven)
  · rw [zero] at power
    exact absurd power.symm (Nat.two_pow_pos exponent).ne'
  · apply uneven
    apply BitVec.eq_of_toNat_eq
    rw [BitVec.toNat_umod, power]
    exact Nat.mod_eq_zero_of_dvd (Nat.pow_dvd_pow 2 least)

/-- Both views of a section that has the ring's size can be mapped. -/
theorem startPortal_willing {size : SizeT} (nonzero : size.setWidth 32 ≠ 0)
    (kept : (size.setWidth 32).setWidth 64 = size) :
      startPortal MemoryApi.willing size = some 0x10000 := by
  have mapped : forall address,
      MemoryApi.willing.mapView (size.setWidth 32) address size = true := by
    intro address
    apply decide_eq_true
    have position := congrArg BitVec.toNat kept
    rw [BitVec.toNat_setWidth 64] at position
    rw [← position]
    exact Nat.mod_le _ _
  have created : MemoryApi.willing.createSection (size.setWidth 32) = true := decide_eq_true nonzero
  unfold startPortal
  rw [show MemoryApi.willing.reserve (size * 2) = some 0x10000 from rfl]
  simp only [mapped, created, Bool.true_eq_false, if_false]
  rfl

end MagicRingBuffer

namespace NetworkSession

/-- The ring size that the constructor computes. -/
def ringSize (maxSize : SizeT) : SizeT :=
  bitFloor (maxSize * 1024 * 1024)

/-- The length test of the framing loop. -/
def LengthAccepted (maxLogSize : SizeT) (logLen : UInt32T) : Prop :=
  ¬ (logLen = 0 ∨ maxLogSize < logLen.setWidth 64)

/-- Every value on the way is what it is meant to be. -/
structure SizingSound (maxSize : SizeT) : Prop where
  accepted : MagicRingBuffer.SizeAccepted (ringSize maxSize)
  power : Exists fun exponent => (ringSize maxSize).toNat = 2 ^ exponent
  dword : ((ringSize maxSize).setWidth 32).setWidth 64 = ringSize maxSize
  limit : (ringSize maxSize - 32).toNat + 32 = (ringSize maxSize).toNat
  frames : forall logLen : UInt32T, LengthAccepted (ringSize maxSize - 32) logLen ->
    (8 + logLen).toNat = 8 + logLen.toNat ∧ (8 + logLen).toNat ≤ (ringSize maxSize).toNat

/-- A session has the ring size and the limit that the sizing is about. -/
theorem create_sizes {api : MemoryApi} {mapped : Nat -> Byte} {maxSize : SizeT}
    {session : NetworkSession} (created : create api mapped maxSize = some session) :
    session.stashBuffer.size = ringSize maxSize ∧ session.maxLogSize = ringSize maxSize - 32 := by
  refine ⟨create_size created, ?_⟩
  rcases Option.map_eq_some_iff.mp created with ⟨stash, _, rfl⟩
  rfl

/-! ## The ring size -/

theorem mebibytes_toNat (maxSize : SizeT) :
    (maxSize * 1024 * 1024).toNat = (maxSize.toNat % 2 ^ 44) * 2 ^ 20 := by
  rw [BitVec.toNat_mul, BitVec.toNat_mul, show (1024 : SizeT).toNat = 1024 from rfl]
  omega

theorem ringSize_zero {maxSize : SizeT}
    (zero : maxSize.toNat % 2 ^ 44 = 0) : ringSize maxSize = 0 := by
  have product : maxSize * 1024 * 1024 = 0 := by
    apply BitVec.eq_of_toNat_eq
    rw [mebibytes_toNat, zero, Nat.zero_mul]
    rfl
  rw [ringSize, product, bitFloor_zero]

/-- The ring has at least a mebibyte, and less than four gibibytes exactly for
less than 4096 mebibytes. -/
theorem ringSize_power {maxSize : SizeT} (positive : maxSize.toNat % 2 ^ 44 ≠ 0) :
    Exists fun exponent => (ringSize maxSize).toNat = 2 ^ exponent ∧ 20 ≤ exponent ∧
      (exponent < 32 ↔ maxSize.toNat % 2 ^ 44 < 4096) := by
  have product := mebibytes_toNat maxSize
  have nonzero : (maxSize * 1024 * 1024).toNat ≠ 0 := by
    rw [product]
    omega
  refine ⟨(maxSize * 1024 * 1024).toNat.log2, ?_, ?_, ?_⟩
  · apply toNat_bitFloor
    intro zero
    exact nonzero (congrArg BitVec.toNat zero)
  · rw [Nat.le_log2 nonzero, product]
    omega
  · rw [Nat.log2_lt nonzero, product]
    omega

/-! ## The sizing -/

/-- A ring below four gibibytes leaves room for every accepted frame. -/
theorem frames_fit {size : SizeT} {exponent : Nat} (power : size.toNat = 2 ^ exponent)
    (least : 20 ≤ exponent)
    (most : exponent < 32) {logLen : UInt32T} (accepted : LengthAccepted (size - 32) logLen) :
    (8 + logLen).toNat = 8 + logLen.toNat ∧ (8 + logLen).toNat ≤ size.toNat := by
  have room : 2 ^ 20 ≤ 2 ^ exponent := Nat.pow_le_pow_right (by decide) least
  have narrow : 2 ^ exponent < 2 ^ 32 := Nat.pow_lt_pow_right (by decide) most
  have limit : (size - 32).toNat = 2 ^ exponent - 32 := by
    rw [BitVec.toNat_sub_of_le, power]
    · rfl
    · rw [BitVec.le_def, power, show (32 : SizeT).toNat = 32 from rfl]
      omega
  have eight : 8 + (size - 32).toNat < 2 ^ 32 := by
    rw [limit]
    omega
  rcases framed_toNat eight accepted with ⟨short, sum⟩
  rw [limit] at short
  exact ⟨sum, by omega⟩

theorem sizingSound_of_range {maxSize : SizeT} (positive : maxSize.toNat % 2 ^ 44 ≠ 0)
    (small : maxSize.toNat % 2 ^ 44 < 4096) : SizingSound maxSize := by
  rcases ringSize_power positive with ⟨exponent, power, least, narrow⟩
  have most := narrow.mpr small
  have room : 2 ^ 20 ≤ 2 ^ exponent := Nat.pow_le_pow_right (by decide) least
  have fits : 2 ^ exponent < 2 ^ 32 := Nat.pow_lt_pow_right (by decide) most
  refine ⟨MagicRingBuffer.sizeAccepted_of_power power (by omega), ⟨exponent, power⟩, ?_, ?_, ?_⟩
  · apply BitVec.eq_of_toNat_eq
    rw [BitVec.toNat_setWidth, BitVec.toNat_setWidth, power]
    omega
  · rw [BitVec.toNat_sub, power, show (32 : SizeT).toNat = 32 from rfl]
    omega
  · exact fun logLen => frames_fit power least most

theorem sizingSound_iff {maxSize : SizeT} :
    SizingSound maxSize ↔ 0 < maxSize.toNat % 2 ^ 44 ∧ maxSize.toNat % 2 ^ 44 < 4096 := by
  constructor
  · intro sound
    have positive : maxSize.toNat % 2 ^ 44 ≠ 0 := by
      intro zero
      exact sound.accepted (Or.inl (ringSize_zero zero))
    refine ⟨Nat.pos_of_ne_zero positive, ?_⟩
    rcases ringSize_power positive with ⟨exponent, power, _, narrow⟩
    apply narrow.mp
    have kept := congrArg BitVec.toNat sound.dword
    have cut := ((ringSize maxSize).setWidth 32).isLt
    rw [BitVec.toNat_setWidth, Nat.mod_eq_of_lt (by omega)] at kept
    rw [kept, power] at cut
    exact (Nat.pow_lt_pow_iff_right (by decide)).mp cut
  · rintro ⟨positive, small⟩
    exact sizingSound_of_range (Nat.pos_iff_ne_zero.mp positive) small

/-- A session comes into being for sound sizes only, whatever the system says. -/
theorem sizingSound_of_created {api : MemoryApi} {mapped : Nat -> Byte} {maxSize : SizeT}
    {session : NetworkSession}
    (created : create api mapped maxSize = some session) : SizingSound maxSize := by
  rcases create_sized created with ⟨⟨exponent, sized⟩, _⟩
  have power := sized.power
  rw [(create_sizes created).1] at power
  have positive : maxSize.toNat % 2 ^ 44 ≠ 0 := by
    intro zero
    rw [ringSize_zero zero] at power
    exact absurd power.symm (Nat.two_pow_pos exponent).ne'
  rcases ringSize_power positive with ⟨other, power', _, narrow⟩
  have same : exponent = other := Nat.pow_right_injective (Nat.le_refl 2) (power.symm.trans power')
  have most := sized.most
  exact sizingSound_of_range positive (narrow.mp (by omega))

/-- Where the calls of the system succeed whenever they may, a ring of a sound size
can be mapped. -/
theorem SizingSound.startPortal {maxSize : SizeT} (sound : SizingSound maxSize) :
    MagicRingBuffer.startPortal MemoryApi.willing (ringSize maxSize) = some 0x10000 := by
  refine MagicRingBuffer.startPortal_willing ?_ sound.dword
  intro zero
  have kept := sound.dword
  rw [zero] at kept
  exact sound.accepted (Or.inl kept.symm)

/-- The sizes of a session are sound exactly when the configured `log_size`,
modulo `2 ^ 44`, is neither zero nor 4096 or more. -/
theorem configured_sizing_sound_iff (file : ConfigFile) :
    SizingSound (MainConfig.getUserCofig file).logSize ↔
      0 < (MainConfig.getUserCofig file).logSize.toNat % 2 ^ 44 ∧
        (MainConfig.getUserCofig file).logSize.toNat % 2 ^ 44 < 4096 :=
  sizingSound_iff

/-- A document with the given `log_size` and nothing else. -/
def logSizeDocument (value : UInt64T) : ConfigFile :=
  .document fun name => if name = "log_size" then some (.unsigned value) else none

/-- Every value can be configured. -/
theorem logSize_of_document (value : UInt64T) :
    (MainConfig.getUserCofig (logSizeDocument value)).logSize = value :=
  rfl

/-- A `log_size` of zero gives a ring of no bytes, on which the constructor
throws, and a limit that wraps.  A `log_size` of 4096 gives a ring of four
gibibytes, of which the section gets none. -/
theorem zero_and_fourGibibytes_unsound :
    ¬ SizingSound (MainConfig.getUserCofig (logSizeDocument 0)).logSize ∧
      ¬ SizingSound (MainConfig.getUserCofig (logSizeDocument 4096)).logSize := by
  rw [logSize_of_document, logSize_of_document]
  constructor
  · intro sound
    exact sound.accepted (Or.inl (by decide))
  · intro sound
    have kept := sound.dword
    revert kept
    decide

end NetworkSession
end Network
end VortexEngine
