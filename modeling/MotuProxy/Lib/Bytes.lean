import Mathlib.Data.Nat.Basic
import Mathlib.Logic.Function.Iterate
import Mathlib.Tactic.Ring

/-! # Byte strings

Byte strings with little-endian words, and the CRC-32 of the IEEE polynomial. `leBytes w n` is the
`w`-byte little-endian word of `n`, `leNat` reads one back, and `Bytes.word w p i` is the word of
`w` bytes that stands at offset `i` of `p`.
-/

namespace MotuProxy

abbrev Bytes := List UInt8

/-- The `w`-byte little-endian word of `n`. -/
def leBytes : Nat → Nat → Bytes
  | 0, _ => []
  | w + 1, n => UInt8.ofNat n :: leBytes w (n / 256)

/-- The value of a little-endian word. -/
def leNat : Bytes → Nat
  | [] => 0
  | b :: bs => b.toNat + 256 * leNat bs

@[simp] theorem length_leBytes : (leBytes w n).length = w := by
  induction w generalizing n with
  | zero => rfl
  | succ w ih => simp [leBytes, ih]

theorem leNat_leBytes : leNat (leBytes w n) = n % 256 ^ w := by
  induction w generalizing n with
  | zero => simp [leBytes, leNat, Nat.mod_one]
  | succ w ih =>
    have hb : (UInt8.ofNat n).toNat = n % 256 := by simp
    rw [leBytes, leNat, ih, hb, Nat.pow_succ, Nat.mul_comm (256 ^ w), Nat.mod_mul]

theorem leNat_leBytes_of_lt (h : n < 256 ^ w) : leNat (leBytes w n) = n := by
  rw [leNat_leBytes, Nat.mod_eq_of_lt h]

theorem leNat_lt (bs : Bytes) : leNat bs < 256 ^ bs.length := by
  induction bs with
  | nil => simp [leNat]
  | cons b bs ih =>
    have hb : b.toNat < 256 := b.toNat_lt
    rw [leNat, List.length_cons, Nat.pow_succ]
    omega

theorem leBytes_leNat (bs : Bytes) : leBytes bs.length (leNat bs) = bs := by
  induction bs with
  | nil => rfl
  | cons b bs ih =>
    have hb : b.toNat < 256 := b.toNat_lt
    have hdiv : (b.toNat + 256 * leNat bs) / 256 = leNat bs := by omega
    have hmod : UInt8.ofNat (b.toNat + 256 * leNat bs) = b := by
      apply UInt8.toNat_inj.mp
      simp only [UInt8.toNat_ofNat']
      omega
    rw [List.length_cons, leNat, leBytes, hdiv, ih, hmod]

namespace Bytes

/-- `data[i:j]`. -/
def slice (data : Bytes) (i j : Nat) : Bytes := (data.drop i).take (j - i)

/-- The little-endian word of `w` bytes at offset `i`. -/
def word (w : Nat) (data : Bytes) (i : Nat) : Nat := leNat (data.slice i (i + w))

theorem slice_append_left {a b : Bytes} (h : j ≤ a.length) :
    slice (a ++ b) i j = slice a i j := by
  unfold slice
  by_cases hi : i ≤ a.length
  · rw [List.drop_append_of_le_length hi, List.take_append_of_le_length]
    simp; omega
  · have hj : j - i = 0 := by omega
    simp [hj]

theorem slice_append_right {a b : Bytes} (h : a.length ≤ i) :
    slice (a ++ b) i j = slice b (i - a.length) (j - a.length) := by
  unfold slice
  have hj : j - a.length - (i - a.length) = j - i := by omega
  rw [List.drop_append, List.drop_of_length_le h, List.nil_append, hj]

@[simp] theorem slice_zero_length (a : Bytes) : slice a 0 a.length = a := by
  simp [slice]

theorem length_slice {d : Bytes} (h : j ≤ d.length) : (slice d i j).length = j - i := by
  simp [slice]; omega

theorem slice_slice {data : Bytes} (h : i + l ≤ j) :
    slice (slice data i j) k l = slice data (i + k) (i + l) := by
  simp only [slice, List.drop_take, List.take_take, List.drop_drop]
  congr 1
  omega

/-- A word that lies in the first part of a concatenation. -/
theorem word_append_left {a b : Bytes} (h : i + w ≤ a.length) : word w (a ++ b) i = word w a i := by
  rw [word, word, slice_append_left h]

/-- The middle part of a concatenation. -/
theorem slice_middle {p m q : Bytes} (hi : i = p.length) (hj : j = i + m.length) :
    slice (p ++ (m ++ q)) i j = m := by
  subst hi hj
  rw [slice_append_right (Nat.le_refl _), slice_append_left (by omega)]
  simp [slice]

/-- The word in the middle of a concatenation. -/
theorem word_middle {p q : Bytes} (hi : i = p.length) (hn : n < 256 ^ w) :
    word w (p ++ (leBytes w n ++ q)) i = n := by
  rw [word, slice_middle hi (by simp), leNat_leBytes_of_lt hn]

theorem word_lt (w : Nat) (data : Bytes) (i : Nat) : word w data i < 256 ^ w := by
  refine Nat.lt_of_lt_of_le (leNat_lt _) (Nat.pow_le_pow_right (by omega) ?_)
  simp only [slice, List.length_take]
  omega

/-- Two slices that meet. -/
theorem slice_append_slice {d : Bytes} (hij : i ≤ j) (hjk : j ≤ k) :
    slice d i j ++ slice d j k = slice d i k := by
  have hk : k - i = (j - i) + (k - j) := by omega
  have hd : d.drop j = (d.drop i).drop (j - i) := by
    rw [List.drop_drop]
    congr 1
    omega
  rw [slice, slice, slice, hk, hd, List.take_add]

/-- A word of the data, written again. -/
theorem leBytes_word {d : Bytes} (h : i + w ≤ d.length) :
    leBytes w (word w d i) = slice d i (i + w) := by
  have hlen : (slice d i (i + w)).length = w := by rw [length_slice h]; omega
  have := leBytes_leNat (slice d i (i + w))
  rwa [hlen] at this

end Bytes

/-! ## CRC-32 -/

/-- One bit of the reflected IEEE polynomial division. -/
def crcBit (c : Nat) : Nat := if c % 2 = 1 then (c / 2) ^^^ 0xEDB88320 else c / 2

def crcByte (c : Nat) (b : UInt8) : Nat := crcBit^[8] (c ^^^ b.toNat)

/-- `zlib.crc32(data) & 0xFFFFFFFF`. -/
def crc32 (data : Bytes) : Nat := ((data.foldl crcByte 0xFFFFFFFF) ^^^ 0xFFFFFFFF) % 2 ^ 32

theorem crc32_lt (data : Bytes) : crc32 data < 256 ^ 4 := Nat.mod_lt _ (by decide)

/-- The check value of CRC-32: the checksum of the ASCII text `123456789`. -/
example : crc32 [0x31, 0x32, 0x33, 0x34, 0x35, 0x36, 0x37, 0x38, 0x39] = 0xCBF43926 := by
  decide +kernel

end MotuProxy
