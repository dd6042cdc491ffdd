import Mathlib.Logic.ExistsUnique
import RecordQuery.Proofs.Utf8
import RecordQuery.Random

/-!
# Hashing bytes

A round of the hash mixes a byte into a state of 64 bits and multiplies by an odd number, so it loses nothing: states
that differ stay apart through every round, whatever bytes come next (`hash_append_ne`), and one byte that differs parts
states that were the same. So two texts that differ in one byte have different seeds (`seedOf_ne_of_oneByte`).
-/

namespace RecordQuery

/-- What a round of the hash makes of a state. -/
def hashRound (state : UInt64) (byte : UInt8) : UInt64 := (state ^^^ byte.toUInt64) * 0x00000100000001B3

theorem hash_append (front back : Bytes) : hash (front ++ back) = back.foldl hashRound (hash front) := List.foldl_append

/-- The factor of a round is odd, so that 64 bits hold its inverse. -/
theorem eq_of_mul_factor {a b : UInt64} (same : a * 0x00000100000001B3 = b * 0x00000100000001B3) : a = b := by
  have inverse : (0x00000100000001B3 : UInt64) * 0xCE965057AFF6957B = 1 := by decide
  have undone := congrArg (· * 0xCE965057AFF6957B) same
  simpa only [UInt64.mul_assoc, inverse, UInt64.mul_one] using undone

theorem hashRound_state_ne {a b : UInt64} (apart : a ≠ b) (byte : UInt8) : hashRound a byte ≠ hashRound b byte := by
  intro same
  exact apart ((UInt64.xor_left_inj _).mp (eq_of_mul_factor same))

theorem hashRound_byte_ne (state : UInt64) {x y : UInt8} (apart : x ≠ y) : hashRound state x ≠ hashRound state y := by
  intro same
  exact apart (UInt8.toUInt64_inj.mp ((UInt64.xor_right_inj _).mp (eq_of_mul_factor same)))

/-- No bytes bring two states together. -/
theorem foldl_hashRound_ne {a b : UInt64} (apart : a ≠ b) (bytes : Bytes) :
    bytes.foldl hashRound a ≠ bytes.foldl hashRound b := by
  induction bytes generalizing a b with
  | nil => exact apart
  | cons byte bytes ih => exact ih (hashRound_state_ne apart byte)

/-- Bytes with different hashes have different hashes whatever is appended to both. -/
theorem hash_append_ne {front front' : Bytes} (apart : hash front ≠ hash front') (back : Bytes) :
    hash (front ++ back) ≠ hash (front' ++ back) := by
  rw [hash_append, hash_append]
  exact foldl_hashRound_ne apart back

theorem hash_ne_of_byte (front back : Bytes) {x y : UInt8} (apart : x ≠ y) :
    hash (front ++ x :: back) ≠ hash (front ++ y :: back) := by
  have parted : hash (front ++ [x]) ≠ hash (front ++ [y]) := by
    rw [hash_append, hash_append]
    exact hashRound_byte_ne (hash front) apart
  simpa using hash_append_ne parted back

/-! ## Single differences -/

/-- Bytes of one length that differ in one place are the same in front of it and behind it. -/
theorem split_of_oneByte {bytes bytes' : Bytes} (sameLength : bytes.length = bytes'.length)
    (oneByte : ∃! place : Nat, bytes[place]? ≠ bytes'[place]?) :
    ∃ front x y back, x ≠ y ∧ bytes = front ++ x :: back ∧ bytes' = front ++ y :: back := by
  obtain ⟨place, differ, alone⟩ := oneByte
  induction bytes generalizing bytes' place with
  | nil =>
    cases bytes' with
    | nil => exact absurd rfl differ
    | cons byte' bytes' => cases sameLength
  | cons byte bytes ih =>
    cases bytes' with
    | nil => cases sameLength
    | cons byte' bytes' =>
      by_cases same : byte = byte'
      · subst same
        cases place with
        | zero => exact absurd rfl differ
        | succ place =>
          obtain ⟨front, x, y, back, apart, rfl, rfl⟩ := ih (Nat.succ.inj sameLength) place differ
            fun other differs => Nat.succ.inj (alone (other + 1) differs)
          exact ⟨byte :: front, x, y, back, apart, rfl, rfl⟩
      · -- The first bytes differ, and so no others do.
        have first : 0 = place := alone 0 fun found => same (Option.some.inj found)
        have others : bytes = bytes' := by
          refine List.ext_getElem? fun other => Decidable.byContradiction fun differs => ?_
          exact Nat.succ_ne_zero other ((alone (other + 1) differs).trans first.symm)
        exact ⟨[], byte, byte', bytes, same, rfl, by rw [others]; rfl⟩

/-- Texts of the same number of bytes that differ in exactly one of these have different seeds, however long they are. -/
theorem seedOf_ne_of_oneByte (s t : String) (sameLength : s.utf8ByteSize = t.utf8ByteSize)
    (oneByte : ∃! place : Nat, (Utf8.encode s)[place]? ≠ (Utf8.encode t)[place]?) :
    seedOf (.string s) ≠ seedOf (.string t) := by
  rw [← Utf8.length_encode, ← Utf8.length_encode] at sameLength
  obtain ⟨front, x, y, back, apart, ofS, ofT⟩ := split_of_oneByte sameLength oneByte
  have hashed (text : String) : seedOf (.string text) = hash (Utf8.encode text) := rfl
  rw [hashed, hashed, ofS, ofT]
  exact hash_ne_of_byte front back apart

/-- Two letters of two bytes each that differ in the second one. -/
theorem seedOf_ne_of_oneByte_accent :
    "café!".utf8ByteSize = "cafè!".utf8ByteSize ∧
      (∃! place : Nat, (Utf8.encode "café!")[place]? ≠ (Utf8.encode "cafè!")[place]?) ∧
      seedOf (.string "café!") ≠ seedOf (.string "cafè!") := by
  have acute : Utf8.encode "café!" = [0x63, 0x61, 0x66, 0xC3, 0xA9, 0x21] := by decide
  have grave : Utf8.encode "cafè!" = [0x63, 0x61, 0x66, 0xC3, 0xA8, 0x21] := by decide
  have sameLength : "café!".utf8ByteSize = "cafè!".utf8ByteSize := by decide
  have oneByte : ∃! place : Nat, (Utf8.encode "café!")[place]? ≠ (Utf8.encode "cafè!")[place]? := by
    rw [acute, grave]
    refine ⟨4, by decide, fun place differs => ?_⟩
    match place with
    | 4 => rfl
    | 0 | 1 | 2 | 3 | 5 | _ + 6 => exact absurd rfl differs
  exact ⟨sameLength, oneByte, seedOf_ne_of_oneByte _ _ sameLength oneByte⟩

end RecordQuery
