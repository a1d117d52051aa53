import Kodezart.PercentEncoding

/-! Byte strings framed by their length, and what a framed stream says of the strings in it. -/
namespace Kodezart

abbrev Bytes := List UInt8

namespace ByteFraming

/-- `n.to_bytes(width, "big")` -/
def bigEndian : Nat → Nat → Bytes
  | 0, _ => []
  | width + 1, n => UInt8.ofNat (n / 256 ^ width) :: bigEndian width (n % 256 ^ width)

theorem bigEndianLength (width n : Nat) : (bigEndian width n).length = width := by
  induction width generalizing n with
  | zero => rfl
  | succ width ih => rw [bigEndian, List.length_cons, ih]

theorem bigEndianInjective {width n m : Nat} (small : n < 256 ^ width) (small' : m < 256 ^ width)
    (same : bigEndian width n = bigEndian width m) : n = m := by
  induction width generalizing n m with
  | zero => omega
  | succ width ih =>
    rw [bigEndian, bigEndian] at same
    obtain ⟨first, rest⟩ := List.cons.inj same
    have positive : 0 < 256 ^ width := by positivity
    have low : n % 256 ^ width = m % 256 ^ width := ih (Nat.mod_lt _ positive) (Nat.mod_lt _ positive) rest
    have high (k : Nat) (small : k < 256 ^ (width + 1)) : (UInt8.ofNat (k / 256 ^ width)).toNat = k / 256 ^ width := by
      have bound : k / 256 ^ width < 256 := by
        rw [Nat.div_lt_iff_lt_mul positive, mul_comm]
        exact small
      rw [UInt8.toNat_ofNat', Nat.mod_eq_of_lt bound]
    have top : n / 256 ^ width = m / 256 ^ width := by rw [← high n small, ← high m small', first]
    rw [← Nat.div_add_mod n (256 ^ width), ← Nat.div_add_mod m (256 ^ width), top, low]

/-- The bytes of a length field. -/
def fieldWidth : Nat := 8

/-- A string whose length its field can hold. -/
abbrev Chunk := { value : Bytes // value.length < 256 ^ fieldWidth }

def framed (value : Bytes) : Bytes := bigEndian fieldWidth value.length ++ value

theorem framedApart : ApartCode fun chunk : Chunk => framed chunk.1 := by
  refine ⟨?_, ?_⟩
  · intro chunk other rest more same
    simp only [framed, List.append_assoc] at same
    have widths : (bigEndian fieldWidth chunk.1.length).length = (bigEndian fieldWidth other.1.length).length := by
      rw [bigEndianLength, bigEndianLength]
    obtain ⟨fields, after⟩ := List.append_inj same widths
    have lengths := bigEndianInjective chunk.2 other.2 fields
    obtain ⟨values, rests⟩ := List.append_inj after lengths
    exact ⟨Subtype.ext values, rests⟩
  · intro chunk empty
    have lengths := congrArg List.length empty
    simp [framed, bigEndianLength, fieldWidth] at lengths

/-- What a framed stream holds is told by the stream. -/
theorem framesInjective {values others : List Bytes} (short : ∀ value ∈ values, value.length < 256 ^ fieldWidth)
    (short' : ∀ value ∈ others, value.length < 256 ^ fieldWidth)
    (same : values.flatMap framed = others.flatMap framed) : values = others := by
  lift values to List Chunk using short
  lift others to List Chunk using short'
  rw [List.flatMap_map, List.flatMap_map] at same
  rw [framedApart.flatMapInjective same]

end ByteFraming
end Kodezart
