import Fips2Go.Bech32
import Mathlib.Tactic.IntervalCases

/-!
# Public keys as the settings accept them

`isNpub` of `ConfigStore.kt`, which computes the checksum with shifts and masks of
32-bit integers.
-/

namespace Fips2Go.ConfigStore

open Bech32 (Symbol bitsOf checksum encode feedback hrpExpand one regroup)
open CheckRegister (feed push step)
open Utf8Text (Text)

def bech32 : Text := "qpzry9x8gf2tvdw0s3jn54khce6mua7l".toList

def gen : List (BitVec 32) := [0x3b6a57b2, 0x26508e6d, 0x1ea119fa, 0x3d4233dd, 0x2a1462b3]

def mixOne (top chk : BitVec 32) (gen : BitVec 32 × Nat) : BitVec 32 :=
  if (top >>> gen.2) &&& 1 = 1 then chk ^^^ gen.1 else chk

/-- The inner loop of `isNpub` over the generators. -/
def mixGen (top chk : BitVec 32) : BitVec 32 := gen.zipIdx.foldl (mixOne top) chk

/-- One pass of the loop of `isNpub` over the values. -/
def mix (chk v : BitVec 32) : BitVec 32 :=
  mixGen (chk >>> 25) (((chk &&& 0x1ffffff) <<< 5) ^^^ v)

def isNpub (s : Text) : Bool :=
  if s.length ≠ 63 ∨ "npub1".toList.isPrefixOf s = false then false
  else
    match (s.drop 5).mapM fun char => (bech32.idxOf? char).map (BitVec.ofNat 32) with
    | none => false
    | some data =>
        let hrp := "npub".toList
        let values :=
          (hrp.map fun char => (BitVec.ofNat 32 char.toNat).sshiftRight 5) ++ [0] ++
            (hrp.map fun char => BitVec.ofNat 32 char.toNat &&& 31) ++ data
        values.foldl mix 1 = 1

/-- The key in bech32 under the prefix npub. -/
def encodeNpub (key : FixedBytes 32) : Text := encode "npub".toList (regroup key.1)

/-! ### The checksum register as an integer -/

def word (symbol : Symbol) : BitVec 32 := symbol.bits.setWidth 32

/-- Six symbols in the low thirty bits. -/
def packed (register : Vector Symbol 6) : BitVec 32 :=
  (register[5].bits ++ register[4].bits ++ register[3].bits ++ register[2].bits ++
    register[1].bits ++ register[0].bits).setWidth 32

theorem packed_add (a b : Vector Symbol 6) : packed (a + b) = packed a ^^^ packed b := by
  simp only [packed, Vector.getElem_add, Symbol.add_bits, ← BitVec.xor_append, BitVec.setWidth_xor]

theorem packed_top (register : Vector Symbol 6) :
    packed register >>> 25 = word register[5] := by
  apply BitVec.eq_of_getLsbD_eq
  intro place inside
  simp only [packed, word, BitVec.getLsbD_ushiftRight, BitVec.getLsbD_setWidth,
    BitVec.getLsbD_append]
  interval_cases place <;> simp

theorem packed_push (register : Vector Symbol 6) (symbol : Symbol) :
    ((packed register &&& 0x1ffffff) <<< 5) ^^^ word symbol = packed (push symbol register) := by
  apply BitVec.eq_of_getLsbD_eq
  intro place inside
  simp only [packed, word, push, Vector.getElem_ofFn, BitVec.getLsbD_xor,
    BitVec.getLsbD_shiftLeft, BitVec.getLsbD_and, BitVec.getLsbD_setWidth, BitVec.getLsbD_append]
  interval_cases place <;> simp

theorem bits_of_packed (register : Vector Symbol 6) (index : Nat) (inside : index < 6) :
    register[index].bits = (packed register >>> (5 * index)).setWidth 5 := by
  apply BitVec.eq_of_getLsbD_eq
  intro place inSymbol
  simp only [packed, BitVec.getLsbD_setWidth, BitVec.getLsbD_ushiftRight, BitVec.getLsbD_append]
  interval_cases index <;> interval_cases place <;> simp

theorem packed_injective : Function.Injective packed := by
  intro a b same
  apply Vector.ext
  intro index inside
  apply Symbol.ext
  rw [bits_of_packed a index inside, bits_of_packed b index inside, same]

/-! ### One pass -/

theorem foldl_mixOne_xor (gens : List (BitVec 32 × Nat)) (top a b : BitVec 32) :
    gens.foldl (mixOne top) (a ^^^ b) = a ^^^ gens.foldl (mixOne top) b := by
  induction gens generalizing b with
  | nil => rfl
  | cons gen gens ih =>
      have moved : mixOne top (a ^^^ b) gen = a ^^^ mixOne top b gen := by
        unfold mixOne
        split
        · exact BitVec.xor_assoc _ _ _
        · rfl
      rw [List.foldl_cons, List.foldl_cons, moved, ih]

/-- The constants of the source are the products of the powers of `α` with the
generator. -/
theorem mixGen_zero (symbol : Symbol) :
    mixGen (word symbol) 0 = packed (feedback.toFun symbol) := by
  have products : ∀ number : Fin 32,
      mixGen (word ⟨BitVec.ofFin number⟩) 0 = packed (feedback.toFun ⟨BitVec.ofFin number⟩) := by
    decide +kernel
  exact products symbol.bits.toFin

theorem mixGen_word (symbol : Symbol) (register : Vector Symbol 6) :
    mixGen (word symbol) (packed register) = packed (register + feedback.toFun symbol) := by
  have unchanged : packed register ^^^ 0 = packed register := BitVec.xor_zero
  rw [packed_add, ← mixGen_zero, mixGen, mixGen, ← foldl_mixOne_xor, unchanged]

/-- A pass of the loop feeds one symbol to the register. -/
theorem mix_word (register : Vector Symbol 6) (symbol : Symbol) :
    mix (packed register) (word symbol) = packed (step feedback register symbol) := by
  rw [mix, packed_top, packed_push, mixGen_word]
  rfl

theorem foldl_mix (register : Vector Symbol 6) (symbols : List Symbol) :
    (symbols.map word).foldl mix (packed register) = packed (feed feedback register symbols) := by
  induction symbols generalizing register with
  | nil => rfl
  | cons symbol symbols ih =>
      rw [List.map_cons, List.foldl_cons, mix_word, ih]
      rfl

/-! ### What is accepted -/

theorem bech32_idxOf (symbol : Symbol) :
    (bech32.idxOf? symbol.char).map (BitVec.ofNat 32) = some (word symbol) := by
  have places : ∀ number : Fin 32, (bech32.idxOf? (Symbol.char ⟨BitVec.ofFin number⟩)).map
      (BitVec.ofNat 32) = some (word ⟨BitVec.ofFin number⟩) := by
    decide +kernel
  exact places symbol.bits.toFin

theorem exists_symbol {char : Char} {value : BitVec 32}
    (found : (bech32.idxOf? char).map (BitVec.ofNat 32) = some value) :
    ∃ symbol : Symbol, symbol.char = char := by
  obtain ⟨place, first, -⟩ := Option.map_eq_some_iff.mp found
  have member : char ∈ bech32 := by
    by_contra absent
    rw [List.idxOf?_eq_none_iff.mpr absent] at first
    cases first
  have all : bech32.all (fun char => (List.finRange 32).any fun number =>
      Symbol.char ⟨BitVec.ofFin number⟩ = char) = true := by
    decide +kernel
  have some := List.all_eq_true.mp all char member
  simp only [List.any_eq_true, decide_eq_true_eq] at some
  obtain ⟨number, -, same⟩ := some
  exact ⟨_, same⟩

/-- Data are read exactly where every character is that of a symbol. -/
theorem mapM_idxOf_eq_some_iff {text : Text} {values : List (BitVec 32)} :
    (text.mapM fun char => (bech32.idxOf? char).map (BitVec.ofNat 32)) = some values ↔
      ∃ symbols : List Symbol, text = symbols.map Symbol.char ∧ values = symbols.map word := by
  induction text generalizing values with
  | nil =>
      constructor
      · intro read
        cases read
        exact ⟨[], rfl, rfl⟩
      · rintro ⟨symbols, empty, rfl⟩
        rw [List.map_eq_nil_iff.mp empty.symm]
        rfl
  | cons char text ih =>
      rw [List.mapM_cons]
      simp only [Option.bind_eq_bind, Option.bind_eq_some_iff, Option.pure_def,
        Option.some.injEq]
      constructor
      · rintro ⟨value, found, rest, read, rfl⟩
        obtain ⟨symbols, rfl, rfl⟩ := ih.mp read
        obtain ⟨symbol, rfl⟩ := exists_symbol found
        rw [bech32_idxOf, Option.some.injEq] at found
        exact ⟨symbol :: symbols, rfl, by rw [List.map_cons, found]⟩
      · rintro ⟨symbols, written, rfl⟩
        cases symbols with
        | nil => cases written
        | cons symbol symbols =>
            obtain ⟨rfl, rfl⟩ := List.cons.inj written
            exact ⟨word symbol, bech32_idxOf symbol, symbols.map word, ih.mpr ⟨symbols, rfl, rfl⟩,
              rfl⟩

/-- What stands in front of the data. -/
theorem hrp_values :
    ("npub".toList.map fun char => (BitVec.ofNat 32 char.toNat).sshiftRight 5) ++ [0] ++
        ("npub".toList.map fun char => BitVec.ofNat 32 char.toNat &&& 31) =
      (hrpExpand "npub".toList).map word := by
  decide +kernel

/-- The loop ends with 1 exactly if the last six symbols are the checksum. -/
theorem foldl_mix_eq_one_iff (data : List Symbol) {check : List Symbol} (six : check.length = 6) :
    (((hrpExpand "npub".toList).map word ++ (data ++ check).map word).foldl mix 1 = 1) ↔
      check = checksum "npub".toList data := by
  have start : (1 : BitVec 32) = packed one := by decide +kernel
  rw [← List.map_append, start, foldl_mix, packed_injective.eq_iff,
    Bech32.feed_eq_one_iff _ _ six]

/-- Exactly the bech32 texts of 52 symbols are accepted. -/
theorem isNpub_iff (s : Text) :
    isNpub s = true ↔
      ∃ data : List Symbol, data.length = 52 ∧ encode "npub".toList data = s := by
  unfold isNpub
  constructor
  · intro accepted
    split at accepted
    · cases accepted
    next shape =>
      simp only [not_or, Decidable.not_not, Bool.not_eq_false] at shape
      obtain ⟨length, front⟩ := shape
      obtain ⟨rest, rfl⟩ := List.isPrefixOf_iff_prefix.mp front
      split at accepted
      · cases accepted
      next values read =>
        obtain ⟨symbols, written, rfl⟩ := mapM_idxOf_eq_some_iff.mp read
        have behind : rest = symbols.map Symbol.char := written
        have number : symbols.length = 58 := by
          rw [List.length_append, behind, List.length_map] at length
          exact Nat.add_left_cancel (length.trans (by rfl : 63 = "npub1".toList.length + 58))
        have six : (symbols.drop 52).length = 6 := by rw [List.length_drop, number]
        simp only [decide_eq_true_eq, hrp_values] at accepted
        rw [← List.take_append_drop 52 symbols, foldl_mix_eq_one_iff _ six] at accepted
        refine ⟨symbols.take 52, by rw [List.length_take, number]; rfl, ?_⟩
        rw [encode, ← accepted, List.take_append_drop, behind]
        rfl
  · rintro ⟨data, length, rfl⟩
    have six := Bech32.length_checksum "npub".toList data
    have shape : ¬((encode "npub".toList data).length ≠ 63 ∨
        "npub1".toList.isPrefixOf (encode "npub".toList data) = false) := by
      rw [not_or, Decidable.not_not, Bool.not_eq_false]
      constructor
      · rw [encode, List.length_append, List.length_cons, List.length_map, List.length_append,
          length, six]
        rfl
      · exact List.isPrefixOf_iff_prefix.mpr ⟨_, rfl⟩
    rw [if_neg shape]
    have read := mapM_idxOf_eq_some_iff.mpr
      ⟨data ++ checksum "npub".toList data, rfl, rfl⟩
    have behind : (encode "npub".toList data).drop 5 =
        (data ++ checksum "npub".toList data).map Symbol.char := rfl
    rw [behind, read]
    simp only [decide_eq_true_eq, hrp_values]
    exact (foldl_mix_eq_one_iff data six).mpr rfl

theorem char_mem_charset (symbol : Symbol) : symbol.char ∈ Bech32.charset := List.get_mem _ _

/-- What is accepted consists of lower-case letters and digits. -/
theorem lower_of_isNpub {s : Text} (accepted : isNpub s = true) :
    s ≠ [] ∧ ∀ char ∈ s, char.isLower = true ∨ char.isDigit = true := by
  obtain ⟨data, -, rfl⟩ := (isNpub_iff s).mp accepted
  have front : "npub1".toList.all (fun char => char.isLower || char.isDigit) = true := by decide
  have symbols : Bech32.charset.all (fun char => char.isLower || char.isDigit) = true := by
    decide
  have text : encode "npub".toList data =
      "npub1".toList ++ (data ++ checksum "npub".toList data).map Symbol.char := rfl
  rw [text]
  refine ⟨List.append_ne_nil_of_left_ne_nil (List.cons_ne_nil _ _) _, ?_⟩
  intro char member
  rw [← Bool.or_eq_true]
  rcases List.mem_append.mp member with inFront | inData
  · exact List.all_eq_true.mp front char inFront
  · obtain ⟨symbol, -, rfl⟩ := List.mem_map.mp inData
    exact List.all_eq_true.mp symbols _ (char_mem_charset symbol)

/-! ### Keys -/

/-- The four bits behind those of a key are zeros. -/
def ZeroPadded (data : List Symbol) : Prop :=
  (bitsOf data).drop 256 = List.replicate 4 false

instance : DecidablePred ZeroPadded := fun _ => inferInstanceAs (Decidable (_ = _))

/-- The texts of keys are those of 52 symbols that are padded with zeros. -/
theorem exists_key_iff (s : Text) :
    (∃ key, encodeNpub key = s) ↔
      ∃ data : List Symbol, data.length = 52 ∧ ZeroPadded data ∧
        encode "npub".toList data = s := by
  constructor
  · rintro ⟨key, rfl⟩
    have length : (regroup key.1).length = 52 := by rw [Bech32.length_regroup, key.2]
    refine ⟨regroup key.1, length, ?_, rfl⟩
    have padded := (Bech32.exists_regroup_iff 32 length).mp ⟨key.1, key.2, rfl⟩
    rw [length] at padded
    exact padded
  · rintro ⟨data, length, padded, rfl⟩
    obtain ⟨octets, number, rfl⟩ := (Bech32.exists_regroup_iff 32 length).mpr
      (by rw [length]; exact padded)
    exact ⟨⟨octets, number⟩, rfl⟩

/-- Every key in bech32 is accepted. -/
theorem isNpub_encodeNpub (key : FixedBytes 32) : isNpub (encodeNpub key) = true := by
  obtain ⟨data, length, -, same⟩ := (exists_key_iff _).mp ⟨key, rfl⟩
  exact (isNpub_iff _).mpr ⟨data, length, same⟩

/-- Whether exactly the texts of keys are accepted is up to the four bits that the
52 symbols have beyond those of a key. -/
theorem isNpub_exact_iff (s : Text) :
    (isNpub s = true ↔ ∃ key, encodeNpub key = s) ↔
      ∀ data : List Symbol, data.length = 52 → encode "npub".toList data = s →
        ZeroPadded data := by
  rw [isNpub_iff, exists_key_iff]
  constructor
  · rintro exact data length written
    obtain ⟨other, otherLength, padded, same⟩ := exact.mp ⟨data, length, written⟩
    have equal := Bech32.encode_injective (same.trans written.symm) (otherLength.trans length.symm)
    exact equal ▸ padded
  · intro padded
    constructor
    · rintro ⟨data, length, written⟩
      exact ⟨data, length, padded data length written, written⟩
    · rintro ⟨data, length, -, written⟩
      exact ⟨data, length, written⟩

/-- The symbols of a key with the last bit of the padding set. -/
def paddedData : List Symbol := (regroup (List.replicate 32 1)).take 51 ++ [⟨17⟩]

/-- Their text. -/
def paddedNpub : Text := "npub1qyqszqgpqyqszqgpqyqszqgpqyqszqgpqyqszqgpqyqszqgpqyq36y3asf".toList

/-- It is accepted, and it is not the text of a key. -/
theorem isNpub_accepts_padding :
    ¬(isNpub paddedNpub = true ↔ ∃ key, encodeNpub key = paddedNpub) := by
  have accepted : isNpub paddedNpub = true := by decide +kernel
  have known : encode "npub".toList paddedData = paddedNpub := by decide +kernel
  have unpadded : ¬ZeroPadded paddedData := by decide +kernel
  intro exact
  obtain ⟨data, length, padded, written⟩ := (exists_key_iff _).mp (exact.mp accepted)
  have equal := Bech32.encode_injective (written.trans known.symm) (length.trans (by rfl))
  exact unpadded (equal ▸ padded)

end Fips2Go.ConfigStore
