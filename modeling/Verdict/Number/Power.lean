namespace Verdict

def twoPow (n : Nat) : Nat :=
  Nat.pow 2 n

def tenPow (n : Nat) : Nat :=
  Nat.pow 10 n

theorem twoPow_pos (n : Nat) : 0 < twoPow n :=
  Nat.two_pow_pos n

theorem twoPow_add (m n : Nat) : twoPow (m + n) = twoPow m * twoPow n :=
  Nat.pow_add 2 m n

theorem twoPow_le_twoPow {m n : Nat} (h : m ≤ n) : twoPow m ≤ twoPow n :=
  Nat.pow_le_pow_right (by decide) h

theorem twoPow_dvd_twoPow {m n : Nat} (h : m ≤ n) : twoPow m ∣ twoPow n :=
  Nat.pow_dvd_pow 2 h

theorem log2_twoPow (n : Nat) : (twoPow n).log2 = n :=
  Nat.log2_two_pow

theorem lt_twoPow_log2 (n : Nat) : n < twoPow (n.log2 + 1) :=
  Nat.lt_log2_self

theorem log2_lt_of_lt_twoPow {m n : Nat} (h : m ≠ 0) (hlt : m < twoPow n) : m.log2 < n :=
  (Nat.log2_lt h).mpr hlt

end Verdict
