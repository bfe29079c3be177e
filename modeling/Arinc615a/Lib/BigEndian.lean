import Mathlib.Algebra.Order.Ring.Nat
import Mathlib.Tactic.Ring

/-!
# Big-endian integers of a fixed number of bytes

`beBytes n v` writes the low `n` bytes of `v`, most significant first;
`beNat` reads such bytes back. They are inverse on values below `256 ^ n`
and on byte lists of length `n`.
-/

namespace BigEndian

/-- The value of a byte list, most significant byte first. -/
def beNat : List UInt8 → Nat
  | [] => 0
  | b :: bs => b.toNat * 256 ^ bs.length + beNat bs

/-- The low `n` bytes of `v`, most significant byte first. -/
def beBytes : Nat → Nat → List UInt8
  | 0, _ => []
  | n + 1, v => UInt8.ofNat (v / 256 ^ n) :: beBytes n v

@[simp] theorem length_beBytes (n v : Nat) : (beBytes n v).length = n := by
  induction n with
  | zero => rfl
  | succ n ih => simp [beBytes, ih]

/-- Reading what was written gives the value, cut to the width. -/
theorem beNat_beBytes (n v : Nat) : beNat (beBytes n v) = v % 256 ^ n := by
  induction n with
  | zero => simp [beBytes, beNat, Nat.mod_one]
  | succ n ih =>
    have hsplit : v % (256 ^ n * 256) = v % 256 ^ n + 256 ^ n * (v / 256 ^ n % 256) :=
      Nat.mod_mul
    have hhead : (UInt8.ofNat (v / 256 ^ n)).toNat = v / 256 ^ n % 256 :=
      UInt8.toNat_ofNat'
    rw [beBytes, beNat, length_beBytes, ih, hhead, pow_succ, hsplit]
    ring

theorem beNat_beBytes_of_lt {n v : Nat} (h : v < 256 ^ n) :
    beNat (beBytes n v) = v := by
  rw [beNat_beBytes, Nat.mod_eq_of_lt h]

theorem beNat_lt (bs : List UInt8) : beNat bs < 256 ^ bs.length := by
  induction bs with
  | nil => simp [beNat]
  | cons b bs ih =>
    have hb : b.toNat ≤ 255 := Nat.le_of_lt_succ (UInt8.toNat_lt b)
    have hmul : b.toNat * 256 ^ bs.length ≤ 255 * 256 ^ bs.length :=
      Nat.mul_le_mul_right _ hb
    rw [beNat, List.length_cons, pow_succ]
    omega

/-- Bytes above the written width do not matter. -/
theorem beBytes_add_mul (n k v : Nat) :
    beBytes n (k * 256 ^ n + v) = beBytes n v := by
  induction n generalizing k with
  | zero => rfl
  | succ n ih =>
    have hpos : 0 < 256 ^ n := Nat.pow_pos (by omega)
    have hk : k * 256 ^ (n + 1) + v = k * 256 * 256 ^ n + v := by ring
    have hhead : UInt8.ofNat ((k * 256 * 256 ^ n + v) / 256 ^ n)
        = UInt8.ofNat (v / 256 ^ n) := by
      apply UInt8.toNat_inj.mp
      rw [UInt8.toNat_ofNat', UInt8.toNat_ofNat', Nat.add_comm,
        Nat.add_mul_div_right _ _ hpos]
      omega
    rw [beBytes, beBytes, hk, hhead, ih]

/-- Writing what was read gives the bytes back. -/
theorem beBytes_beNat (bs : List UInt8) : beBytes bs.length (beNat bs) = bs := by
  induction bs with
  | nil => rfl
  | cons b bs ih =>
    have hlt : beNat bs < 256 ^ bs.length := beNat_lt bs
    have hhead : UInt8.ofNat ((b.toNat * 256 ^ bs.length + beNat bs) / 256 ^ bs.length)
        = b := by
      rw [Nat.add_comm, Nat.add_mul_div_right _ _ (Nat.pow_pos (by omega)),
        Nat.div_eq_of_lt hlt, Nat.zero_add, UInt8.ofNat_toNat]
    rw [beNat, List.length_cons, beBytes, hhead, beBytes_add_mul, ih]

/-- Bytes of a given width are determined by their value. -/
theorem eq_beBytes_iff {n v : Nat} {bs : List UInt8} (hv : v < 256 ^ n) :
    bs = beBytes n v ↔ bs.length = n ∧ beNat bs = v := by
  constructor
  · rintro rfl
    exact ⟨length_beBytes n v, beNat_beBytes_of_lt hv⟩
  · intro h
    rcases h with ⟨rfl, rfl⟩
    exact (beBytes_beNat bs).symm

end BigEndian
