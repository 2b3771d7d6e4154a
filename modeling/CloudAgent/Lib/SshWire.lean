import Mathlib.Data.Nat.Digits.Lemmas

/-! Numbers as bytes, the most significant one first, and the strings and numbers that the wire format of ssh is made
of: a length of four bytes, and as many bytes. A number is a string in two's complement. -/
namespace CloudAgent.SshWire

/-! ### Numbers as bytes -/

/-- The value of the bytes, the most significant one first. -/
def toNat (bytes : List UInt8) : ℕ := bytes.foldl (fun n b => 256 * n + b.toNat) 0

/-- The bytes of a number without leading zeros. -/
def ofNat (n : ℕ) : List UInt8 := (Nat.digits 256 n).reverse.map UInt8.ofNat

@[simp] theorem toNat_nil : toNat [] = 0 := rfl

@[simp] theorem toNat_zero_cons (bytes : List UInt8) : toNat (0 :: bytes) = toNat bytes := rfl

theorem toNat_append_singleton (bytes : List UInt8) (b : UInt8) :
    toNat (bytes ++ [b]) = 256 * toNat bytes + b.toNat := by
  rw [toNat, List.foldl_append]
  rfl

theorem toNat_reverse_map {ds : List ℕ} (h : ∀ d ∈ ds, d < 256) :
    toNat (ds.reverse.map UInt8.ofNat) = Nat.ofDigits 256 ds := by
  induction ds with
  | nil => rfl
  | cons d ds ih =>
    have hd : (UInt8.ofNat d).toNat = d := by
      rw [UInt8.toNat_ofNat']
      exact Nat.mod_eq_of_lt (h d List.mem_cons_self)
    have hds : toNat (ds.reverse.map UInt8.ofNat) = Nat.ofDigits 256 ds := ih fun x hx => h x (List.mem_cons_of_mem d hx)
    rw [List.reverse_cons, List.map_append, List.map_singleton, toNat_append_singleton, hds, hd, Nat.ofDigits_cons,
      Nat.add_comm]

theorem toNat_ofNat (n : ℕ) : toNat (ofNat n) = n := by
  rw [ofNat, toNat_reverse_map fun d hd => Nat.digits_lt_base (by decide) hd, Nat.ofDigits_digits]

theorem length_ofNat_le {n k : ℕ} (h : n < 256 ^ k) : (ofNat n).length ≤ k := by
  rw [ofNat, List.length_map, List.length_reverse]
  exact (Nat.digits_length_le_iff (by decide) n).mpr h

/-! ### Strings and numbers on the wire -/

/-- The length of a string. -/
def uint32 (n : ℕ) : List UInt8 :=
  [UInt8.ofNat (n >>> 24), UInt8.ofNat (n >>> 16), UInt8.ofNat (n >>> 8), UInt8.ofNat n]

/-- What is read, and the bytes after it. -/
def readUint32 : List UInt8 → Option (ℕ × List UInt8)
  | a :: b :: c :: d :: rest => some (toNat [a, b, c, d], rest)
  | _ => none

def readString (bytes : List UInt8) : Option (List UInt8 × List UInt8) :=
  (readUint32 bytes).bind fun (n, rest) => if n ≤ rest.length then some (rest.take n, rest.drop n) else none

/-- A number that is not negative; its first byte has no sign bit. -/
def readMpint (bytes : List UInt8) : Option (ℕ × List UInt8) :=
  (readString bytes).bind fun (s, rest) => if s.head?.all (· < 128) then some (toNat s, rest) else none

theorem readUint32_append {n : ℕ} (hn : n < 2 ^ 32) (rest : List UInt8) :
    readUint32 (uint32 n ++ rest) = some (n, rest) := by
  have hvalue : toNat (uint32 n) = n := by
    simp only [toNat, uint32, List.foldl_cons, List.foldl_nil, UInt8.toNat_ofNat', Nat.shiftRight_eq_div_pow]
    omega
  simp only [readUint32, uint32, List.cons_append, List.nil_append, Option.some.injEq, Prod.mk.injEq, and_true]
  exact hvalue

/-- A string that was written with its length comes back, and what follows it. -/
theorem readString_append {s : List UInt8} (hs : s.length < 2 ^ 32) (rest : List UInt8) :
    readString (uint32 s.length ++ s ++ rest) = some (s, rest) := by
  rw [readString, List.append_assoc, readUint32_append hs]
  simp

/-- A number whose bytes have a sign bit needs a zero before them. -/
def mpint (bytes : List UInt8) : List UInt8 :=
  if bytes.head?.any (128 ≤ ·) then 0 :: bytes else bytes

theorem toNat_mpint (bytes : List UInt8) : toNat (mpint bytes) = toNat bytes := by
  rw [mpint]
  split
  · exact toNat_zero_cons bytes
  · rfl

theorem mpint_positive (bytes : List UInt8) : (mpint bytes).head?.all (· < 128) = true := by
  rw [mpint]
  split
  · rfl
  · rename_i hsign
    cases bytes with
    | nil => rfl
    | cons b bytes =>
      simp only [List.head?_cons, Option.any_some, decide_eq_true_eq, UInt8.not_le] at hsign
      simpa using hsign

theorem readMpint_append {bytes : List UInt8} (hlen : (mpint bytes).length < 2 ^ 32) (rest : List UInt8) :
    readMpint (uint32 (mpint bytes).length ++ mpint bytes ++ rest) = some (toNat bytes, rest) := by
  rw [readMpint, readString_append hlen, Option.bind_some]
  dsimp only
  rw [if_pos (mpint_positive bytes), toNat_mpint]

end CloudAgent.SshWire
