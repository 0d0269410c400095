/-
MiniArena/WireFormat.lean

The protobuf wire format, as far as varints and length-delimited fields go.

A varint is a number in base 128, least significant digit first; every byte
but the last has its high bit set.  `decode` puts the digits together in a
word of `w` bits, and ignores whatever follows the number:

    decode 0 0 (encode n ++ rest) = (n mod 2 ^ w, (encode n).length)

A message is its fields one after the other, each after a tag that holds its
number and its wire type.
-/
import Mathlib

namespace WireFormat

/-! ### Varints -/

def encode (n : ℕ) : List UInt8 :=
  if n < 128 then [UInt8.ofNat n] else UInt8.ofNat (n % 128 + 128) :: encode (n / 128)
termination_by n
decreasing_by omega

theorem encode_of_lt {n : ℕ} (h : n < 128) : encode n = [UInt8.ofNat n] := by
  rw [encode, if_pos h]

theorem encode_of_le {n : ℕ} (h : 128 ≤ n) :
    encode n = UInt8.ofNat (n % 128 + 128) :: encode (n / 128) := by
  rw [encode, if_neg (by omega)]

theorem length_encode_pos (n : ℕ) : 0 < (encode n).length := by
  rw [encode]
  split <;> simp

theorem length_encode_le {k n : ℕ} (h : n < 128 ^ (k + 1)) : (encode n).length ≤ k + 1 := by
  induction k generalizing n with
  | zero =>
    have hn : n < 128 := by simpa using h
    rw [encode_of_lt hn]
    rfl
  | succ k ih =>
    rcases lt_or_ge n 128 with hn | hn
    · rw [encode_of_lt hn]
      simp
    · have hrest : n / 128 < 128 ^ (k + 1) := by
        rw [Nat.div_lt_iff_lt_mul (by norm_num), ← pow_succ]
        exact h
      rw [encode_of_le hn, List.length_cons]
      exact Nat.succ_le_succ (ih hrest)

/-- A word of 64 bits takes ten bytes at most. -/
theorem length_encode_le_ten {n : ℕ} (h : n < 2 ^ 64) : (encode n).length ≤ 10 :=
  length_encode_le (lt_of_lt_of_le h (by norm_num))

variable {w : ℕ}

/-- The number that starts here, its digits from `shift` on put over `v`, and
how many bytes it takes.  Bits that do not fit the word are lost. -/
def decode (v : BitVec w) (shift : ℕ) : List UInt8 → BitVec w × ℕ
  | [] => (v, 0)
  | b :: rest =>
      let v := v ||| BitVec.ofNat w (b &&& 0x7F).toNat <<< shift
      if b < 0x80 then (v, 1)
      else
        let (v, n) := decode v (shift + 7) rest
        (v, n + 1)

theorem toNat_digit (b : UInt8) : (b &&& 0x7F).toNat = b.toNat % 128 := by
  rw [UInt8.toNat_and]
  exact Nat.and_two_pow_sub_one_eq_mod b.toNat 7

/-- A number is its lowest digit and the rest, seven places up. -/
theorem digit_or_rest (n : ℕ) :
    BitVec.ofNat w (n % 128) ||| BitVec.ofNat w (n / 128) <<< 7 = BitVec.ofNat w n := by
  apply BitVec.eq_of_getLsbD_eq
  intro i hi
  have hlow : (n % 128).testBit i = (decide (i < 7) && n.testBit i) := Nat.testBit_mod_two_pow n 7 i
  have hrest : (n / 128).testBit (i - 7) = n.testBit (i - 7 + 7) := by
    rw [show 128 = 2 ^ 7 from rfl, Nat.testBit_div_two_pow]
  rw [BitVec.getLsbD_or, BitVec.getLsbD_shiftLeft, BitVec.getLsbD_ofNat, BitVec.getLsbD_ofNat,
    BitVec.getLsbD_ofNat, hlow, hrest]
  by_cases h7 : i < 7
  · simp [hi, h7]
  · have hback : i - 7 + 7 = i := by omega
    have hin : i - 7 < w := by omega
    simp [hi, h7, hback, hin]

theorem decode_encode_append (v : BitVec w) (shift n : ℕ) (rest : List UInt8) :
    decode v shift (encode n ++ rest)
      = (v ||| BitVec.ofNat w n <<< shift, (encode n).length) := by
  induction n using Nat.strong_induction_on generalizing v shift with
  | _ n ih =>
    rcases lt_or_ge n 128 with h | h
    · have hlow : (UInt8.ofNat n).toNat = n := by simp; omega
      have hlast : UInt8.ofNat n < 0x80 := by
        rw [UInt8.lt_iff_toNat_lt, hlow]
        exact h
      rw [encode_of_lt h]
      simp only [List.singleton_append, decode, if_pos hlast, toNat_digit, hlow,
        Nat.mod_eq_of_lt h, List.length_singleton]
    · have hbyte : (UInt8.ofNat (n % 128 + 128)).toNat = n % 128 + 128 := by simp; omega
      have hmore : ¬ UInt8.ofNat (n % 128 + 128) < 0x80 := by
        rw [UInt8.lt_iff_toNat_lt, hbyte]
        simp
      have hdigit : (n % 128 + 128) % 128 = n % 128 := by omega
      rw [encode_of_le h]
      simp only [List.cons_append, decode, if_neg hmore, toNat_digit, hbyte, hdigit,
        ih (n / 128) (by omega), List.length_cons]
      rw [BitVec.or_assoc, Nat.add_comm shift 7, BitVec.shiftLeft_add,
        ← BitVec.shiftLeft_or_distrib, digit_or_rest]

/-- A number comes back modulo the size of the word, whatever follows it. -/
theorem decode_encode (n : ℕ) (rest : List UInt8) :
    decode 0 0 (encode n ++ rest) = (BitVec.ofNat w n, (encode n).length) := by
  rw [decode_encode_append]
  simp

/-! ### Fields -/

/-- A field with its number: a varint (wire type 0) or a run of bytes (wire type 2). -/
inductive Field
  | varint (num value : ℕ)
  | bytes (num : ℕ) (data : List UInt8)
  deriving DecidableEq, Repr

namespace Field

def num : Field → ℕ
  | varint num _ => num
  | bytes num _ => num

def encode : Field → List UInt8
  | varint num value => WireFormat.encode (num * 8) ++ WireFormat.encode value
  | bytes num data =>
      WireFormat.encode (num * 8 + 2) ++ WireFormat.encode data.length ++ data

end Field

/-- A message: its fields in the order given. -/
def encodeFields (fields : List Field) : List UInt8 := fields.flatMap Field.encode

@[simp] theorem encodeFields_nil : encodeFields [] = [] := rfl

@[simp] theorem encodeFields_cons (f : Field) (fields : List Field) :
    encodeFields (f :: fields) = f.encode ++ encodeFields fields := rfl

theorem Field.length_encode_pos (f : Field) : 0 < f.encode.length := by
  cases f with
  | varint num value =>
    have htag := WireFormat.length_encode_pos (num * 8)
    rw [Field.encode, List.length_append]
    omega
  | bytes num data =>
    have htag := WireFormat.length_encode_pos (num * 8 + 2)
    rw [Field.encode, List.length_append, List.length_append]
    omega

/-- A varint field is short, and a run of bytes adds little to its data. -/
theorem Field.length_encode_varint {num value : ℕ} (hnum : num < 2 ^ 60) (h : value < 2 ^ 64) :
    (varint num value).encode.length ≤ 20 := by
  have htag : (WireFormat.encode (num * 8)).length ≤ 10 := length_encode_le_ten (by omega)
  have hvalue := length_encode_le_ten h
  rw [Field.encode, List.length_append]
  omega

theorem Field.length_encode_bytes {num : ℕ} {data : List UInt8} (hnum : num < 2 ^ 60)
    (h : data.length < 2 ^ 64) : (bytes num data).encode.length ≤ 20 + data.length := by
  have htag : (WireFormat.encode (num * 8 + 2)).length ≤ 10 := length_encode_le_ten (by omega)
  have hlength := length_encode_le_ten h
  rw [Field.encode, List.length_append, List.length_append]
  omega

/-- No message has more fields than bytes. -/
theorem length_le_length_encodeFields (fields : List Field) :
    fields.length ≤ (encodeFields fields).length := by
  induction fields with
  | nil => rfl
  | cons f fields ih =>
    have hf := f.length_encode_pos
    rw [encodeFields_cons, List.length_append, List.length_cons]
    omega

@[simp] theorem encodeFields_append (l r : List Field) :
    encodeFields (l ++ r) = encodeFields l ++ encodeFields r := List.flatMap_append ..

/-- The value of the first varint field with the number `num`, 0 if there is none. -/
def firstVarint (num : ℕ) : List Field → ℕ
  | [] => 0
  | .varint k value :: fields => if k = num then value else firstVarint num fields
  | .bytes _ _ :: fields => firstVarint num fields

/-! ### Fields with a default

A field that has its default value, 0 or no bytes, is left out. -/

def varintField (num value : ℕ) : List Field := if value = 0 then [] else [.varint num value]

def bytesField (num : ℕ) (data : List UInt8) : List Field :=
  if data = [] then [] else [.bytes num data]

variable {num k value : ℕ} {data : List UInt8} {fields : List Field}

theorem firstVarint_varintField_of_ne (h : k ≠ num) :
    firstVarint num (varintField k value ++ fields) = firstVarint num fields := by
  unfold varintField
  split
  · rfl
  · exact if_neg h

/-- A field that is left out is read as its default. -/
theorem firstVarint_varintField (h : firstVarint num fields = 0) :
    firstVarint num (varintField num value ++ fields) = value := by
  unfold varintField
  split
  · rename_i hzero
    rw [List.nil_append, h, hzero]
  · exact if_pos rfl

theorem firstVarint_bytesField : firstVarint num (bytesField k data ++ fields)
    = firstVarint num fields := by
  unfold bytesField
  split <;> rfl

/-- The numbers of a message's fields stay below a bound. -/
theorem num_lt_varintField {bound : ℕ} (hnum : num < bound) (h : ∀ f ∈ fields, f.num < bound) :
    ∀ f ∈ varintField num value ++ fields, f.num < bound := by
  unfold varintField
  split
  · exact h
  · exact List.forall_mem_cons.mpr ⟨hnum, h⟩

theorem num_lt_bytesField {bound : ℕ} (hnum : num < bound) (h : ∀ f ∈ fields, f.num < bound) :
    ∀ f ∈ bytesField num data ++ fields, f.num < bound := by
  unfold bytesField
  split
  · exact h
  · exact List.forall_mem_cons.mpr ⟨hnum, h⟩

theorem length_varintField (hnum : num < 2 ^ 60) (h : value < 2 ^ 64) :
    (encodeFields (varintField num value)).length ≤ 20 := by
  unfold varintField
  split
  · simp
  · simpa using Field.length_encode_varint hnum h

theorem length_bytesField (hnum : num < 2 ^ 60) (h : data.length < 2 ^ 64) :
    (encodeFields (bytesField num data)).length ≤ 20 + data.length := by
  unfold bytesField
  split
  · simp
  · simpa using Field.length_encode_bytes hnum h

end WireFormat
