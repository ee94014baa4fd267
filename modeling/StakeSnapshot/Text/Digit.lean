/-!
# Decimal digits

The value of a character that Unicode lists as a decimal digit. Such characters come in runs of
ten, one run per script, so a table of the zeros is enough.
-/

namespace StakeSnapshot.Text

/-- The characters that stand for zero in the decimal digits of some script. -/
def decimalZeros : List Nat := [
    0x30, 0x660, 0x6f0, 0x7c0, 0x966, 0x9e6, 0xa66, 0xae6, 0xb66, 0xbe6,
    0xc66, 0xce6, 0xd66, 0xde6, 0xe50, 0xed0, 0xf20, 0x1040, 0x1090, 0x17e0,
    0x1810, 0x1946, 0x19d0, 0x1a80, 0x1a90, 0x1b50, 0x1bb0, 0x1c40, 0x1c50, 0xa620,
    0xa8d0, 0xa900, 0xa9d0, 0xa9f0, 0xaa50, 0xabf0, 0xff10, 0x104a0, 0x10d30, 0x11066,
    0x110f0, 0x11136, 0x111d0, 0x112f0, 0x11450, 0x114d0, 0x11650, 0x116c0, 0x11730, 0x118e0,
    0x11950, 0x11c50, 0x11d50, 0x11da0, 0x16a60, 0x16ac0, 0x16b50, 0x1d7ce, 0x1d7d8, 0x1d7e2,
    0x1d7ec, 0x1d7f6, 0x1e140, 0x1e2f0, 0x1e950, 0x1fbf0]

/-- The digit a character stands for in its script, if it is a decimal digit. -/
def decimalValue? (c : Char) : Option Nat :=
  if '0' ≤ c ∧ c ≤ '9' then some (c.toNat - '0'.toNat)
  else if c.toNat < 128 then none
  else (decimalZeros.find? fun z => z ≤ c.toNat && c.toNat < z + 10).map (c.toNat - ·)

/-- The value of a hexadecimal digit in either case. -/
def hexValue? (c : Char) : Option Nat :=
  if '0' ≤ c ∧ c ≤ '9' then some (c.toNat - '0'.toNat)
  else if 'a' ≤ c ∧ c ≤ 'f' then some (c.toNat - 'a'.toNat + 10)
  else if 'A' ≤ c ∧ c ≤ 'F' then some (c.toNat - 'A'.toNat + 10)
  else none

/-- The lower-case digit for a value below sixteen. -/
def hexDigit (n : Nat) : Char :=
  if n < 10 then Char.ofNat ('0'.toNat + n) else Char.ofNat ('a'.toNat + (n - 10))

/-- A number below `16 ^ width` as exactly `width` hexadecimal digits, most significant first. -/
def hexPadded : (width : Nat) → Nat → List Char
  | 0, _ => []
  | width + 1, n => hexPadded width (n / 16) ++ [hexDigit (n % 16)]

/-- Two hexadecimal digits per byte. -/
def hexOfBytes (octets : List UInt8) : List Char :=
  octets.flatMap fun b => [hexDigit (b.toNat / 16), hexDigit (b.toNat % 16)]

theorem hexValue?_hexDigit : ∀ n < 16, hexValue? (hexDigit n) = some n := by decide

theorem hexDigit_ne_slash : ∀ n < 16, hexDigit n ≠ '/' := by decide

theorem utf8Size_hexDigit : ∀ n < 16, (hexDigit n).utf8Size = 1 := by decide

@[simp] theorem length_hexPadded (width n : Nat) : (hexPadded width n).length = width := by
  induction width generalizing n with
  | zero => rfl
  | succ width ih => simp [hexPadded, ih]

@[simp] theorem length_hexOfBytes (octets : List UInt8) :
    (hexOfBytes octets).length = 2 * octets.length := by
  induction octets with
  | nil => rfl
  | cons b octets ih => simp_all [hexOfBytes]; omega

theorem exists_hexDigit_of_mem_hexOfBytes {octets : List UInt8} {c : Char}
    (h : c ∈ hexOfBytes octets) : ∃ n < 16, c = hexDigit n := by
  simp only [hexOfBytes, List.mem_flatMap] at h
  obtain ⟨b, -, h⟩ := h
  have hb := b.toNat_lt
  rcases List.mem_cons.1 h with rfl | h
  · exact ⟨_, by omega, rfl⟩
  · exact ⟨_, by omega, List.mem_singleton.1 h⟩

theorem slash_notMem_hexOfBytes (octets : List UInt8) : '/' ∉ hexOfBytes octets := by
  intro h
  obtain ⟨n, hn, hslash⟩ := exists_hexDigit_of_mem_hexOfBytes h
  exact hexDigit_ne_slash n hn hslash.symm

theorem utf8Size_of_mem_hexOfBytes {octets : List UInt8} {c : Char} (h : c ∈ hexOfBytes octets) :
    c.utf8Size = 1 := by
  obtain ⟨n, hn, rfl⟩ := exists_hexDigit_of_mem_hexOfBytes h
  exact utf8Size_hexDigit n hn

end StakeSnapshot.Text
