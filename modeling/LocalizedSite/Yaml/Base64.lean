import LocalizedSite.Text.DecimalDigit

/-!
# Bytes written as text

Bytes are written in groups of four characters for three bytes, six bits to a character. Characters
outside of the alphabet do not count. The last group may be shorter if it is filled up by equals signs,
and what follows it does not count.
-/

namespace LocalizedSite.Yaml.Base64

/-- The six bits that a character stands for. -/
def sextet? (character : Char) : Option Nat :=
  if 'A' ≤ character ∧ character ≤ 'Z' then some (character.toNat - 'A'.toNat)
  else if 'a' ≤ character ∧ character ≤ 'z' then some (character.toNat - 'a'.toNat + 26)
  else if Text.isLatinDigit character then some (character.toNat - '0'.toNat + 52)
  else if character = '+' then some 62
  else if character = '/' then some 63
  else none

/-- What was read of a group of four characters. -/
structure Group where
  /-- The number of characters with bits. -/
  size : Nat
  /-- The bits that belong to no byte yet. -/
  left : Nat
  /-- The equals signs directly before the place. -/
  fillers : Nat

/-- Take six bits; the result is the byte that they complete, if any, and the group behind them. -/
def Group.take (group : Group) (bits : Nat) : List UInt8 × Group :=
  match group.size with
  | 0 => ([], ⟨1, bits, 0⟩)
  | 1 => ([UInt8.ofNat (group.left * 4 + bits / 16)], ⟨2, bits % 16, 0⟩)
  | 2 => ([UInt8.ofNat (group.left * 16 + bits / 4)], ⟨3, bits % 4, 0⟩)
  | _ => ([UInt8.ofNat (group.left * 64 + bits)], ⟨0, 0, 0⟩)

/-- Decode characters, given the group that is open. -/
def decodeFrom (group : Group) : Text → Option (List UInt8)
  | [] => if group.size = 0 then some [] else none
  | character :: rest =>
    if character = '=' then
      if 2 ≤ group.size then
        if 4 ≤ group.size + group.fillers + 1 then some []
        else decodeFrom { group with fillers := group.fillers + 1 } rest
      else decodeFrom group rest
    else
      match sextet? character with
      | none => decodeFrom group rest
      | some bits =>
        let (bytes, group) := group.take bits
        (decodeFrom group rest).map (bytes ++ ·)

/-- The bytes that a text encodes; the text must have basic Latin characters only. -/
def decode? (text : Text) : Option (List UInt8) :=
  if text.all fun character ↦ character.toNat < 128 then decodeFrom ⟨0, 0, 0⟩ text else none

end LocalizedSite.Yaml.Base64
