import CloudAgent.Lib.SshWire

/-! The public key of a key pair in the format of ssh, up to the bytes that are then turned into text. -/
namespace CloudAgent.Platform.RsaKeygen
open SshWire

/-- The length and the name of the format. -/
def sshHeader : List UInt8 := [0x00, 0x00, 0x00, 0x07, 0x73, 0x73, 0x68, 0x2d, 0x72, 0x73, 0x61]

/-- Whether the first byte of a number has the sign bit. -/
def hasMsb (buf : List UInt8) : Bool := buf.head?.any fun b => b &&& 0x80 != 0

/-- `_ssh_encode_buffer`: the bytes that it writes from `enc` on; it returns how many they are. -/
def sshEncodeBuffer (buf : List UInt8) : List UInt8 :=
  let adjLen := if hasMsb buf then buf.length + 1 else buf.length
  let zero : List UInt8 := if hasMsb buf then [0] else []
  [UInt8.ofNat (adjLen >>> 24), UInt8.ofNat (adjLen >>> 16), UInt8.ofNat (adjLen >>> 8), UInt8.ofNat adjLen] ++
    zero ++ buf

/-- `enc_len`, the bytes that are allocated for the key, which an `int` counts. -/
def encLen (eBytes nBytes : List UInt8) : ℤ :=
  Int.bmod (11 + 4 + eBytes.length + 4 + nBytes.length + (if hasMsb eBytes then 1 else 0) +
    (if hasMsb nBytes then 1 else 0)) (2 ^ 32)

/-- What `_public_key_pem_to_ssh` puts there, for a public exponent and a modulus. -/
def enc (e n : ℕ) : List UInt8 := sshHeader ++ sshEncodeBuffer (ofNat e) ++ sshEncodeBuffer (ofNat n)

theorem hasMsb_iff (buf : List UInt8) : hasMsb buf = buf.head?.any (128 ≤ ·) := by
  cases buf with
  | nil => rfl
  | cons b buf =>
    have hbyte : ∀ k < 256, (UInt8.ofNat k &&& 0x80 != 0) = decide (128 ≤ UInt8.ofNat k) := by decide +kernel
    have hb := hbyte b.toNat b.toNat_lt
    rwa [UInt8.ofNat_toNat] at hb

theorem sshEncodeBuffer_eq (buf : List UInt8) : sshEncodeBuffer buf = uint32 (mpint buf).length ++ mpint buf := by
  rw [sshEncodeBuffer, mpint, ← hasMsb_iff]
  cases hasMsb buf <;> rfl

theorem length_mpint (buf : List UInt8) : (mpint buf).length = buf.length + if hasMsb buf then 1 else 0 := by
  rw [mpint, ← hasMsb_iff]
  cases hasMsb buf <;> rfl

/-- Both numbers have a first byte to look at, and `enc_len` can count the bytes of the key. -/
structure Fits (e n : ℕ) : Prop where
  exponent : 0 < e
  modulus : 0 < n
  length : (ofNat e).length + (ofNat n).length + 21 < 2 ^ 31

theorem length_enc {e n : ℕ} (h : Fits e n) : ((enc e n).length : ℤ) = encLen (ofNat e) (ofNat n) := by
  have hlen := h.length
  rw [encLen, Int.bmod_eq_of_le]
  · simp only [enc, sshEncodeBuffer_eq, List.length_append, length_mpint, sshHeader, uint32, List.length_cons,
      List.length_nil]
    push_cast
    ring
  · split <;> split <;> omega
  · split <;> split <;> omega

theorem length_mpint_lt {n : ℕ} (hn : (ofNat n).length + 1 < 2 ^ 31) : (mpint (ofNat n)).length < 2 ^ 32 := by
  rw [length_mpint]
  split <;> omega

/-- The key fills the memory that is allocated for it, and whoever reads it gets the name of the format, the public
exponent and the modulus, and nothing is left. -/
theorem public_key_lossless {e n : ℕ} (h : Fits e n) :
    ((enc e n).length : ℤ) = encLen (ofNat e) (ofNat n) ∧ ∃ numbers modulus,
      readString (enc e n) = some ("ssh-rsa".toUTF8.toList, numbers) ∧ readMpint numbers = some (e, modulus) ∧
        readMpint modulus = some (n, []) := by
  have hlen := h.length
  have hname : sshHeader = uint32 "ssh-rsa".toUTF8.toList.length ++ "ssh-rsa".toUTF8.toList := by decide +kernel
  have hmodulus : readMpint (sshEncodeBuffer (ofNat n)) = some (n, []) := by
    have hread := readMpint_append (length_mpint_lt (n := n) (by omega)) []
    rwa [List.append_nil, toNat_ofNat, ← sshEncodeBuffer_eq] at hread
  have hnumbers : readMpint (sshEncodeBuffer (ofNat e) ++ sshEncodeBuffer (ofNat n)) =
      some (e, sshEncodeBuffer (ofNat n)) := by
    have hread := readMpint_append (length_mpint_lt (n := e) (by omega)) (sshEncodeBuffer (ofNat n))
    rwa [toNat_ofNat, ← sshEncodeBuffer_eq] at hread
  refine ⟨length_enc h, _, _, ?_, hnumbers, hmodulus⟩
  rw [enc, List.append_assoc, hname]
  exact readString_append (by decide +kernel) _

/-- The usual exponent, and a modulus whose first byte has the sign bit. -/
theorem public_key_lossless_short :
    ((enc 65537 0xc1a9).length : ℤ) = encLen (ofNat 65537) (ofNat 0xc1a9) ∧ ∃ numbers modulus,
      readString (enc 65537 0xc1a9) = some ("ssh-rsa".toUTF8.toList, numbers) ∧
        readMpint numbers = some (65537, modulus) ∧ readMpint modulus = some (0xc1a9, []) := by
  have he : (ofNat 65537).length ≤ 3 := length_ofNat_le (by decide)
  have hn : (ofNat 0xc1a9).length ≤ 2 := length_ofNat_le (by decide)
  exact public_key_lossless ⟨by decide, by decide, by omega⟩

end CloudAgent.Platform.RsaKeygen
