import Fips2Go.BitGroups
import Fips2Go.ByteStrings
import Fips2Go.CheckRegister
import Fips2Go.Utf8Text
import Mathlib.Data.List.Nodup

/-!
# Bech32

The encoder of BIP-173.  A symbol is an element of the field with 32 elements,
five bits as a polynomial in a root `α` of `x⁵ + x³ + 1`.  The checksum makes the
prefix, the data and itself, as the coefficients of a polynomial, leave the
remainder 1 modulo `x⁶ + 29x⁵ + 22x⁴ + 20x³ + 21x² + 29x + 18`.
-/

namespace Bech32

open BitGroups (pack unpack)
open CheckRegister (Feedback feed toSymbols)
open Utf8Text (Text)

@[ext]
structure Symbol where
  bits : BitVec 5
  deriving DecidableEq

namespace Symbol

instance : Zero Symbol := ⟨⟨0⟩⟩

instance : Add Symbol := ⟨fun a b => ⟨a.bits ^^^ b.bits⟩⟩

instance : Neg Symbol := ⟨id⟩

@[simp]
theorem add_bits (a b : Symbol) : (a + b).bits = a.bits ^^^ b.bits := rfl

instance : AddCommGroup Symbol where
  add_assoc a b c := Symbol.ext (BitVec.xor_assoc _ _ _)
  zero_add a := Symbol.ext (BitVec.zero_xor)
  add_zero a := Symbol.ext (BitVec.xor_zero)
  add_comm a b := Symbol.ext (BitVec.xor_comm _ _)
  neg_add_cancel a := Symbol.ext (BitVec.xor_self)
  nsmul := nsmulRec
  zsmul := zsmulRec

theorem add_self (a : Symbol) : a + a = 0 := Symbol.ext BitVec.xor_self

/-- `α⁵ = α³ + 1`. -/
def timesAlpha (a : Symbol) : Symbol := ⟨a.bits <<< 1⟩ + if a.bits.msb then ⟨9⟩ else 0

/-- The product, by the powers of `α` in the first factor. -/
def times (a b : Symbol) : Symbol :=
  [4, 3, 2, 1, 0].foldl
    (fun product place => product.timesAlpha + if a.bits.getLsbD place then b else 0) 0

theorem ite_xor (first second : Bool) (a : Symbol) :
    (if first ^^ second then a else 0) = (if first then a else 0) + if second then a else 0 := by
  cases first <;> cases second <;> simp [add_self]

theorem timesAlpha_add (a b : Symbol) : (a + b).timesAlpha = a.timesAlpha + b.timesAlpha := by
  have shifted : (⟨(a + b).bits <<< 1⟩ : Symbol) = ⟨a.bits <<< 1⟩ + ⟨b.bits <<< 1⟩ :=
    Symbol.ext (BitVec.shiftLeft_xor_distrib _ _ _)
  rw [timesAlpha, shifted, add_bits, BitVec.msb_xor, ite_xor, add_add_add_comm]
  rfl

theorem foldl_times_add (places : List Nat) (a b c : Symbol) (p q : Symbol) :
    places.foldl (fun product place =>
        product.timesAlpha + if (a + b).bits.getLsbD place then c else 0) (p + q) =
      places.foldl (fun product place =>
        product.timesAlpha + if a.bits.getLsbD place then c else 0) p +
      places.foldl (fun product place =>
        product.timesAlpha + if b.bits.getLsbD place then c else 0) q := by
  induction places generalizing p q with
  | nil => rfl
  | cons place places ih =>
      rw [List.foldl_cons, List.foldl_cons, List.foldl_cons, ← ih, timesAlpha_add, add_bits,
        BitVec.getLsbD_xor, ite_xor, add_add_add_comm]

theorem add_times (a b c : Symbol) : (a + b).times c = a.times c + b.times c := by
  have sum := foldl_times_add [4, 3, 2, 1, 0] a b c 0 0
  rw [add_zero] at sum
  exact sum

theorem zero_times (a : Symbol) : (0 : Symbol).times a = 0 := by
  have twice := add_times 0 0 a
  rw [add_zero] at twice
  exact left_eq_add.mp twice

end Symbol

/-! ### The checksum -/

/-- The generator without its leading coefficient, from the constant one up. -/
def generator : Vector Symbol 6 := #v[⟨18⟩, ⟨29⟩, ⟨21⟩, ⟨20⟩, ⟨22⟩, ⟨29⟩]

/-- What a symbol that leaves the register adds to it. -/
def feedback : Feedback Symbol 5 where
  toFun symbol := generator.map symbol.times
  map_zero := by
    apply Vector.ext
    intro place inside
    rw [Vector.getElem_map, Vector.getElem_zero, Symbol.zero_times]
  map_add a b := by
    apply Vector.ext
    intro place inside
    rw [Vector.getElem_add, Vector.getElem_map, Vector.getElem_map, Vector.getElem_map,
      Symbol.add_times]

/-- The polynomial 1. -/
def one : Vector Symbol 6 := #v[⟨1⟩, 0, 0, 0, 0, 0]

/-- The high bits of a prefix, a zero, and its low bits. -/
def hrpExpand (hrp : Text) : List Symbol :=
  (hrp.map fun char => ⟨BitVec.ofNat 5 (char.toNat / 32)⟩) ++ [0] ++
    hrp.map fun char => ⟨BitVec.ofNat 5 char.toNat⟩

/-- What takes the remainder of the prefix and the data to 1. -/
def checksum (hrp : Text) (data : List Symbol) : List Symbol :=
  toSymbols (one - feed feedback (feed feedback one (hrpExpand hrp ++ data)) (List.replicate 6 0))

/-- The only check symbols with remainder 1 are those of the checksum. -/
theorem feed_eq_one_iff (hrp : Text) (data : List Symbol) {check : List Symbol}
    (six : check.length = 6) :
    feed feedback one (hrpExpand hrp ++ (data ++ check)) = one ↔ check = checksum hrp data := by
  rw [← List.append_assoc, CheckRegister.feed_append]
  exact CheckRegister.feed_eq_iff feedback six _ _

theorem length_checksum (hrp : Text) (data : List Symbol) : (checksum hrp data).length = 6 :=
  CheckRegister.length_toSymbols _

/-! ### The text -/

def charset : Text := "qpzry9x8gf2tvdw0s3jn54khce6mua7l".toList

theorem length_charset : charset.length = 32 := by rfl

def Symbol.char (symbol : Symbol) : Char :=
  charset.get ⟨symbol.bits.toNat, length_charset.symm ▸ symbol.bits.isLt⟩

theorem nodup_charset : charset.Nodup := by decide

theorem char_injective : Function.Injective Symbol.char := by
  intro a b same
  have places := List.nodup_iff_injective_get.mp nodup_charset same
  exact Symbol.ext (BitVec.eq_of_toNat_eq (congrArg Fin.val places))

def encode (hrp : Text) (data : List Symbol) : Text :=
  hrp ++ '1' :: (data ++ checksum hrp data).map Symbol.char

/-- Data of one length are read back from their encoding. -/
theorem encode_injective {hrp : Text} {data other : List Symbol}
    (same : encode hrp data = encode hrp other) (length : data.length = other.length) :
    data = other := by
  have symbols := (List.cons.inj (List.append_cancel_left same)).2
  exact (List.append_inj (char_injective.list_map symbols) length).1

/-! ### Octets -/

/-- Octets as symbols, with zero bits at the end where their bits do not come out
even. -/
def regroup (octets : Bytes) : List Symbol :=
  (pack ((8 * octets.length + 4) / 5) (unpack (octets.map UInt8.toBitVec) ++
    List.replicate (5 * ((8 * octets.length + 4) / 5) - 8 * octets.length) false)).map Symbol.mk

/-- The bits of symbols in turn. -/
def bitsOf (data : List Symbol) : List Bool := unpack (data.map Symbol.bits)

theorem length_regroup (octets : Bytes) :
    (regroup octets).length = (8 * octets.length + 4) / 5 := by
  rw [regroup, List.length_map, BitGroups.length_pack]

theorem bitsOf_regroup (octets : Bytes) :
    bitsOf (regroup octets) = unpack (octets.map UInt8.toBitVec) ++
      List.replicate (5 * ((8 * octets.length + 4) / 5) - 8 * octets.length) false := by
  rw [bitsOf, regroup, List.map_map]
  have same : Symbol.bits ∘ Symbol.mk = id := rfl
  rw [same, List.map_id, BitGroups.unpack_pack]
  rw [List.length_append, BitGroups.length_unpack, List.length_map, List.length_replicate]
  omega

/-- Symbols are regrouped octets exactly if their bits are those of whole octets
and fewer than five zeros. -/
theorem exists_regroup_iff {data : List Symbol} (count : Nat)
    (length : data.length = (8 * count + 4) / 5) :
    (∃ octets, octets.length = count ∧ regroup octets = data) ↔
      (bitsOf data).drop (8 * count) = List.replicate (5 * data.length - 8 * count) false := by
  constructor
  · rintro ⟨octets, rfl, rfl⟩
    rw [bitsOf_regroup, length_regroup, List.drop_left']
    rw [BitGroups.length_unpack, List.length_map]
  · intro padded
    have whole : (bitsOf data).length = 5 * data.length := by
      rw [bitsOf, BitGroups.length_unpack, List.length_map]
    have fits : ((bitsOf data).take (8 * count)).length = 8 * count := by
      rw [List.length_take, whole, length]
      omega
    let words : List (BitVec 8) := pack count ((bitsOf data).take (8 * count))
    have octetWords : (words.map UInt8.ofBitVec).map UInt8.toBitVec = words := by
      rw [List.map_map]
      exact List.map_id words
    refine ⟨words.map UInt8.ofBitVec, ?_, ?_⟩
    · rw [List.length_map, BitGroups.length_pack]
    · have number : (words.map UInt8.ofBitVec).length = count := by
        rw [List.length_map, BitGroups.length_pack]
      rw [regroup, number, octetWords, BitGroups.unpack_pack fits, ← length, ← padded,
        List.take_append_drop]
      have packed := BitGroups.pack_unpack (data.map Symbol.bits)
      rw [List.length_map] at packed
      rw [bitsOf, packed, List.map_map]
      exact List.map_id data

end Bech32
