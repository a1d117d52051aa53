import Mathlib
import Kodezart.TextLines

/-! Percent-encoding of a text's UTF-8 bytes, and codes whose words can be told apart at the
front of whatever follows them. -/
namespace Kodezart

/-- No word of a code starts another word's text. -/
structure ApartCode {α β : Type*} (code : α → List β) : Prop where
  apart : ∀ a b rest more, code a ++ rest = code b ++ more → a = b ∧ rest = more
  visible : ∀ a, code a ≠ []

theorem ApartCode.flatMapInjective {α β : Type*} {code : α → List β} (words : ApartCode code) :
    Function.Injective fun text : List α => text.flatMap code := by
  intro text other same
  dsimp only at same
  induction text generalizing other with
  | nil =>
    cases other with
    | nil => rfl
    | cons b other =>
      rw [List.flatMap_nil, List.flatMap_cons] at same
      exact absurd (List.append_eq_nil_iff.mp same.symm).1 (words.visible b)
  | cons a text ih =>
    cases other with
    | nil =>
      rw [List.flatMap_nil, List.flatMap_cons] at same
      exact absurd (List.append_eq_nil_iff.mp same).1 (words.visible a)
    | cons b other =>
      rw [List.flatMap_cons, List.flatMap_cons] at same
      obtain ⟨rfl, rest⟩ := words.apart _ _ _ _ same
      rw [ih rest]

namespace PercentEncoding
open TextLines

/-- The characters `quote` never encodes. -/
def alwaysSafe (c : Char) : Bool := c.isAlphanum || c = '_' || c = '.' || c = '-' || c = '~'

def hexUpper (n : Nat) : Char := (Nat.digitChar n).toUpper

def byteChar (byte : UInt8) : Char := Char.ofNat byte.toNat

def quoteByte (byte : UInt8) : Text :=
  if alwaysSafe (byteChar byte) then [byteChar byte]
  else ['%', hexUpper (byte.toNat / 16), hexUpper (byte.toNat % 16)]

def utf8 (text : Text) : List UInt8 := text.flatMap String.utf8EncodeChar

/-- `quote(text, safe="")` -/
def quote (text : Text) : Text := (utf8 text).flatMap quoteByte

theorem utf8Injective : Function.Injective utf8 := by
  intro text other same
  have bytes : text.utf8Encode = other.utf8Encode := congrArg List.toByteArray same
  have decoded := congrArg ByteArray.utf8Decode? bytes
  rw [List.utf8Decode?_utf8Encode, List.utf8Decode?_utf8Encode, Option.some.injEq] at decoded
  exact congrArg Array.toList decoded

theorem hexUpperInjective : ∀ n < 16, ∀ m < 16, hexUpper n = hexUpper m → n = m := by decide

theorem hexUpperPlain : ∀ n < 16, (hexUpper n).isAlphanum := by decide

theorem byteCharInjective : Function.Injective byteChar := by
  intro byte other same
  have low (byte : UInt8) : (byteChar byte).toNat = byte.toNat := by
    have small := byte.toNat_lt
    have valid : byte.toNat.isValidChar := by
      left
      omega
    simp [byteChar, Char.ofNat, valid, Char.toNat, Char.ofNatAux]
  have codes := congrArg Char.toNat same
  rw [low, low] at codes
  exact UInt8.toNat_inj.mp codes

theorem quoteByteApart : ApartCode quoteByte := by
  refine ⟨?_, ?_⟩
  · intro byte other rest more same
    have mixed {plainByte coded : UInt8} {rest more : Text} (plain : alwaysSafe (byteChar plainByte))
        (same : byteChar plainByte :: rest = '%' :: hexUpper (coded.toNat / 16) :: hexUpper (coded.toNat % 16) :: more) :
        False := by
      rw [(List.cons.inj same).1] at plain
      exact absurd plain (by decide)
    simp only [quoteByte] at same
    split at same
    · rename_i plain
      split at same
      · obtain ⟨chars, rest⟩ := List.cons.inj same
        exact ⟨byteCharInjective chars, rest⟩
      · exact (mixed plain same).elim
    · split at same
      · rename_i plain
        exact (mixed plain same.symm).elim
      · simp only [List.cons_append, List.nil_append, List.cons.injEq, true_and] at same
        obtain ⟨high, low, rest⟩ := same
        have sizes := byte.toNat_lt
        have others := other.toNat_lt
        have front := hexUpperInjective _ (by omega) _ (by omega) high
        have back := hexUpperInjective _ (by omega) _ (by omega) low
        exact ⟨UInt8.toNat_inj.mp (by omega), rest⟩
  · intro byte
    unfold quoteByte
    split <;> simp

theorem quoteInjective : Function.Injective quote :=
  quoteByteApart.flatMapInjective.comp utf8Injective

theorem quoteMember {c : Char} {text : Text} (member : c ∈ quote text) : alwaysSafe c ∨ c = '%' := by
  obtain ⟨byte, -, inside⟩ := List.mem_flatMap.mp member
  have digit {n : Nat} (small : n < 16) : alwaysSafe (hexUpper n) := by
    simp [alwaysSafe, hexUpperPlain n small]
  have size := byte.toNat_lt
  unfold quoteByte at inside
  split at inside
  · rename_i plain
    rw [List.mem_singleton.mp inside]
    exact Or.inl plain
  · simp only [List.mem_cons, List.not_mem_nil, or_false] at inside
    rcases inside with rfl | rfl | rfl
    · exact Or.inr rfl
    · exact Or.inl (digit (by omega))
    · exact Or.inl (digit (by omega))

theorem quoteEmpty {text : Text} : quote text = [] ↔ text = [] := by
  constructor
  · intro empty
    exact quoteInjective (empty.trans rfl)
  · rintro rfl
    rfl

end PercentEncoding
end Kodezart
