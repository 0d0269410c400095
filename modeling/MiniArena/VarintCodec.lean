/-
MiniArena/VarintCodec.lean

`encodeVarint` of `robot/frame.go`, against `parseVarint`.

The encoder shifts a word of 64 bits to the right, seven places a round, and
appends its low bits.  `encodeVarint_eq` says that these are the digits of
`WireFormat.encode`, put after the buffer; the rest follows from what is known
of those.

Main result (`varint_round_trip`): the decoder reads the word back, from
behind any prefix and in front of any suffix, and stops behind the encoding.
No encoding is a prefix of another, since a decoder of the longer one would
stop at the shorter.
-/
import MiniArena.LoginPayload

namespace MiniArena

open WireFormat

namespace Robot

/-- The loop of the encoder: `byte` keeps the low eight bits. -/
def encodeVarint (buf : List UInt8) (v : BitVec 64) : List UInt8 :=
  if v ≥ 0x80 then
    encodeVarint (buf ++ [UInt8.ofBitVec ((v &&& 0x7F).setWidth 8) ||| 0x80]) (v >>> 7)
  else buf ++ [UInt8.ofBitVec (v.setWidth 8)]
termination_by v.toNat
decreasing_by
  rename_i h
  have hge : 128 ≤ v.toNat := BitVec.le_def.mp h
  rw [BitVec.toNat_ushiftRight, Nat.shiftRight_eq_div_pow]
  omega

/-! ### The bytes the loop appends -/

theorem toNat_shiftRight_seven (v : BitVec 64) : (v >>> 7).toNat = v.toNat / 128 := by
  rw [BitVec.toNat_ushiftRight, Nat.shiftRight_eq_div_pow]

/-- The last byte is the low eight bits of the word, which are all there is of it. -/
theorem last_byte (v : BitVec 64) : UInt8.ofBitVec (v.setWidth 8) = UInt8.ofNat v.toNat := by
  apply UInt8.toNat_inj.mp
  show (v.setWidth 8).toNat = _
  rw [BitVec.toNat_setWidth, UInt8.toNat_ofNat']

/-- The other bytes are the low seven bits, and the high bit set. -/
theorem more_byte (v : BitVec 64) :
    UInt8.ofBitVec ((v &&& 0x7F).setWidth 8) ||| 0x80 = UInt8.ofNat (v.toNat % 128 + 128) := by
  have hlow : (v &&& 0x7F).toNat = v.toNat % 128 := by
    rw [BitVec.toNat_and]
    exact Nat.and_two_pow_sub_one_eq_mod v.toNat 7
  have hbyte : (UInt8.ofBitVec ((v &&& 0x7F).setWidth 8)).toNat = v.toNat % 128 := by
    show ((v &&& 0x7F).setWidth 8).toNat = _
    rw [BitVec.toNat_setWidth, hlow]
    omega
  have hor : v.toNat % 128 ||| 128 = v.toNat % 128 + 128 := by
    have hlt : v.toNat % 128 < 2 ^ 7 := Nat.mod_lt _ (by norm_num)
    have hsum := Nat.two_pow_add_eq_or_of_lt hlt 1
    rw [Nat.mul_one, Nat.lor_comm] at hsum
    rw [Nat.add_comm]
    exact hsum.symm
  apply UInt8.toNat_inj.mp
  rw [UInt8.toNat_or, hbyte, UInt8.toNat_ofNat']
  show v.toNat % 128 ||| 128 = _
  omega

/-- **The encoder appends the digits of the word**: induction on the word, a
round of the loop being a digit. -/
theorem encodeVarint_eq (buf : List UInt8) (v : BitVec 64) :
    encodeVarint buf v = buf ++ encode v.toNat := by
  induction hn : v.toNat using Nat.strong_induction_on generalizing buf v with
  | _ n ih =>
    subst hn
    rw [encodeVarint]
    split
    · rename_i h
      have hge : 128 ≤ v.toNat := BitVec.le_def.mp h
      have hless : (v >>> 7).toNat < v.toNat := by
        rw [toNat_shiftRight_seven]
        omega
      rw [ih _ hless _ (v >>> 7) rfl, toNat_shiftRight_seven, more_byte, encode_of_le hge,
        List.append_assoc, List.singleton_append]
    · rename_i h
      have hlt : v.toNat < 128 := not_le.mp fun hge => h (BitVec.le_def.mpr hge)
      rw [last_byte, encode_of_lt hlt]

/-! ### Reading it back -/

theorem parseVarint_encodeVarint (pre rest : List UInt8) (v : BitVec 64) :
    parseVarint (encodeVarint pre v ++ rest) pre.length =
      some (v, ((encodeVarint pre v).length : ℤ)) := by
  rw [encodeVarint_eq, parseVarint_at (List.append_assoc _ _ _), BitVec.ofNat_toNat,
    BitVec.setWidth_eq]

/-- The decoder cannot tell what follows an encoding: two that agree up to the end of
the shorter one are of the same word. -/
theorem encodeVarint_prefix_iff (v v' : BitVec 64) :
    encodeVarint [] v <+: encodeVarint [] v' ↔ v = v' := by
  constructor
  · rintro ⟨rest, heq⟩
    have hread := parseVarint_encodeVarint [] rest v
    have hread' := parseVarint_encodeVarint [] [] v'
    rw [List.append_nil, ← heq, hread] at hread'
    exact congrArg Prod.fst (Option.some.inj hread')
  · rintro rfl
    exact List.prefix_rfl

/-- **Varint round trip.**  The word comes back with the position behind its
encoding, whatever stands around it; the encoding is what the buffer grows
by, ten bytes at most; and encodings of different words are no prefixes of
each other. -/
theorem varint_round_trip (pre rest : List UInt8) (v : BitVec 64) :
    parseVarint (encodeVarint pre v ++ rest) pre.length =
        some (v, ((encodeVarint pre v).length : ℤ)) ∧
      encodeVarint pre v = pre ++ encodeVarint [] v ∧
      (encodeVarint [] v).length ≤ 10 ∧
      ∀ v', encodeVarint [] v <+: encodeVarint [] v' ↔ v = v' := by
  refine ⟨parseVarint_encodeVarint pre rest v, ?_, ?_, encodeVarint_prefix_iff v⟩
  · rw [encodeVarint_eq, encodeVarint_eq, List.nil_append]
  · rw [encodeVarint_eq, List.nil_append]
    exact length_encode_le_ten v.isLt

end Robot

end MiniArena
