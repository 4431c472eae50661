import DeadDrop.Proofs.Envelope.Layers
import DeadDrop.Proofs.Packet.Reader

/-!
Session keys by operations that have a range. A count is expanded by a shift, repetitions are
absorbed from a batch that is divided, subtracted and sliced, a decrypted key is indexed and
measured, and a cipher takes keys of its own size only. None of these leaves its range, whatever the
packet and the passphrase, and so the result is the one that is given without ranges.
-/

namespace DeadDrop.Envelope

open Cipher (Feedback)
open Packet (Cursor Reader)
open Packet.Reader (At Read)
open Checked (Tracks index slice minus divide shift wordSize)

namespace Ranged

section Specifiers

variable (digest : Digest)

def readSalt (reader : Reader) : Checked (Salt × Reader) := do
  let (octets, reader) ← reader.take 8
  let salt ← Sized.ofBytes? 8 octets
  return (salt, reader)

def readHash (reader : Reader) : Checked (Digest.Algorithm × Reader) := do
  let (number, reader) ← reader.octet
  match Digest.Algorithm.ofNumber? number with
  | some hash => return (hash, reader)
  | none => throw (.unsupported (.digest number))

def readSpecifier (reader : Reader) : Checked (Specifier × Reader) := do
  let (kind, reader) ← reader.octet
  let (hash, reader) ← readHash reader
  if kind = 0 then return (.simple hash, reader)
  else if kind = 1 then
    let (salt, reader) ← readSalt reader
    return (.salted hash salt, reader)
  else if kind = 3 then
    let (salt, reader) ← readSalt reader
    let (count, reader) ← reader.octet
    return (.iterated hash salt count, reader)
  else throw (.unsupported (.specifier kind))

def decodeCount (coded : UInt8) : Option Nat :=
  shift (16 + coded.toNat % 16) (coded.toNat / 16 + 6)

def absorbBatches (batch : Bytes) (filled : 0 < batch.length) (remaining : Nat)
    (state : digest.State) : Option digest.State :=
  if batch.length ≤ remaining then
    match _ : minus remaining batch.length with
    | none => none
    | some left => absorbBatches batch filled left (digest.absorbAll state batch)
  else do
    let last ← slice batch 0 remaining
    return digest.absorbAll state last
termination_by remaining
decreasing_by exact Checked.minus_lt ‹_› filled

/-- Absorbing an empty batch would never come to an end. -/
def absorbRepeated (material : Bytes) (total : Nat) (state : digest.State) :
    Option digest.State :=
  if material = [] then some state
  else do
    let repetitions ← divide Specifier.batchSize material.length
    let batch := (List.replicate (max repetitions 1) material).flatten
    if filled : 0 < batch.length then absorbBatches digest batch filled total state else none

def absorbMaterial (specifier : Specifier) (passphrase : Bytes) (state : digest.State) :
    Option digest.State :=
  match specifier with
  | .simple _ => some (digest.absorbAll state passphrase)
  | .salted _ salt => some (digest.absorbAll state (salt.val ++ passphrase))
  | .iterated _ salt count => do
      let material := salt.val ++ passphrase
      let count ← decodeCount count
      absorbRepeated digest material (max count material.length) state

def keyBlock (specifier : Specifier) (passphrase : Bytes) (zeros : Nat) :
    Option (Sized digest.size) := do
  let state ← absorbMaterial digest specifier passphrase
    (digest.absorbAll digest.start (List.replicate zeros 0))
  return ⟨digest.finish state, digest.length_finish state⟩

def lengthen (specifier : Specifier) (passphrase : Bytes) (size zeros : Nat) (key : Bytes) :
    Option Bytes :=
  if key.length < size then do
    let block ← keyBlock digest specifier passphrase zeros
    lengthen specifier passphrase size (zeros + 1) (key ++ block.val)
  else some (key.take size)
termination_by size - key.length
decreasing_by
  have longer := digest.size_pos
  rw [List.length_append, block.property]
  omega

def derive (specifier : Specifier) (passphrase : Bytes) (size : Nat) : Option Bytes :=
  lengthen specifier.hash.digest specifier passphrase size 0 []

end Specifiers

def plausibleKey (plain : Bytes) : Checked (Option (Cipher.Algorithm × Bytes)) := do
  let number ← index plain 0
  match Cipher.Algorithm.ofNumber? number with
  | none => return none
  | some algorithm =>
      let length ← minus plain.length 1
      if length = algorithm.keySize then
        let key ← slice plain 1 plain.length
        return some (algorithm, key)
      else return none

def unlock (body passphrase : Bytes) : Checked (Option (Cipher.Algorithm × Bytes)) := do
  let (version, reader) ← (Reader.start body).octet
  if version ≠ sessionKeyVersion then throw (.unsupported (.sessionKeyVersion version))
  let (number, reader) ← reader.octet
  let algorithm ← cipherOf number
  let (specifier, reader) ← readSpecifier reader
  let derived ← derive specifier passphrase algorithm.keySize
  let (sent, _) ← reader.remainder
  if sent.isEmpty then return some (algorithm, derived)
  else
    let key ← Cipher.Key.ofBytes? algorithm derived
    plausibleKey (Feedback.start.apply key.block .decrypt sent).2

end Ranged

section Derivation

variable (digest : Digest)

theorem decodeCount_in_range (coded : UInt8) :
    Ranged.decodeCount coded = some (Specifier.decodeCount coded) := by
  have few : coded.toNat / 16 + 6 ≤ 21 := by
    have most := coded.toNat_lt
    omega
  have mantissa : 16 + coded.toNat % 16 < 32 := by
    have most := Nat.mod_lt coded.toNat (show 0 < 16 by decide)
    omega
  have small : (16 + coded.toNat % 16) <<< (coded.toNat / 16 + 6) < wordSize := by
    rw [Nat.shiftLeft_eq]
    calc (16 + coded.toNat % 16) * 2 ^ (coded.toNat / 16 + 6)
        ≤ 32 * 2 ^ 21 :=
          Nat.mul_le_mul (Nat.le_of_lt mantissa) (Nat.pow_le_pow_right (by decide) few)
      _ < wordSize := by decide
  exact Checked.shift_of_lt (Nat.lt_of_le_of_lt few (by decide)) small

theorem absorbBatches_in_range {batch : Bytes} (filled : 0 < batch.length) (remaining : Nat)
    (state : digest.State) :
    Ranged.absorbBatches digest batch filled remaining state =
      some (Specifier.absorbBatches digest batch filled remaining state) := by
  induction remaining, state using Specifier.absorbBatches.induct digest batch filled with
  | case1 remaining state more ih =>
      rw [Ranged.absorbBatches, if_pos more, Specifier.absorbBatches, if_pos more]
      have taken := Checked.minus_of_le more
      -- The recursion stands under a match on the difference, which is known.
      split
      · next beyond =>
          rw [taken] at beyond
          cases beyond
      · next left found =>
          rw [taken] at found
          cases found
          exact ih
  | case2 remaining state short =>
      rw [Ranged.absorbBatches, if_neg short, Specifier.absorbBatches, if_neg short,
        Checked.slice_of_le (Nat.zero_le _) (Nat.le_of_lt (Nat.lt_of_not_le short))]
      rfl

theorem absorbRepeated_in_range (material : Bytes) (total : Nat) (state : digest.State) :
    Ranged.absorbRepeated digest material total state =
      some (Specifier.absorbRepeated digest material total state) := by
  by_cases empty : material = []
  · rw [Ranged.absorbRepeated, if_pos empty, Specifier.absorbRepeated, dif_pos empty]
  · have some : 0 < material.length := List.length_pos_iff.mpr empty
    rw [Ranged.absorbRepeated, if_neg empty, Checked.divide_of_pos some, Option.bind_eq_bind,
      Option.bind_some, Specifier.absorbRepeated, dif_neg empty]
    exact (dif_pos (Specifier.length_batchOf_pos empty)).trans
      (absorbBatches_in_range digest _ total state)

theorem absorbMaterial_in_range (specifier : Specifier) (passphrase : Bytes)
    (state : digest.State) :
    Ranged.absorbMaterial digest specifier passphrase state =
      some (Specifier.absorbMaterial digest specifier passphrase state) := by
  cases specifier with
  | simple hash => rfl
  | salted hash salt => rfl
  | iterated hash salt count =>
      rw [Ranged.absorbMaterial, decodeCount_in_range, Option.bind_eq_bind, Option.bind_some]
      exact absorbRepeated_in_range digest _ _ state

theorem keyBlock_in_range (specifier : Specifier) (passphrase : Bytes) (zeros : Nat) :
    Ranged.keyBlock digest specifier passphrase zeros =
      some ⟨Specifier.keyBlock digest specifier passphrase zeros,
        Specifier.length_keyBlock digest specifier passphrase zeros⟩ := by
  rw [Ranged.keyBlock, absorbMaterial_in_range]
  rfl

theorem lengthen_in_range (specifier : Specifier) (passphrase : Bytes) (size zeros : Nat)
    (key : Bytes) :
    Ranged.lengthen digest specifier passphrase size zeros key =
      some (Specifier.lengthen digest specifier passphrase size zeros key) := by
  induction zeros, key using Specifier.lengthen.induct digest specifier passphrase size with
  | case1 zeros key short ih =>
      rw [Ranged.lengthen, if_pos short, keyBlock_in_range, Option.bind_eq_bind,
        Option.bind_some, ih]
      conv => rhs; rw [Specifier.lengthen, if_pos short]
  | case2 zeros key long =>
      rw [Ranged.lengthen, if_neg long, Specifier.lengthen, if_neg long]

theorem derive_in_range (specifier : Specifier) (passphrase : Bytes) (size : Nat) :
    Ranged.derive specifier passphrase size = some (specifier.derive passphrase size) :=
  lengthen_in_range _ specifier passphrase size 0 []

end Derivation

section Session

variable {reader : Reader} {cursor : Cursor}

theorem tracks_readSalt (place : At reader cursor) :
    Tracks Read (Ranged.readSalt reader) (Specifier.readSalt cursor) := by
  by_cases enough : 8 ≤ cursor.rest.length
  · obtain ⟨taken, next⟩ := place.take_ok enough
    have full : (cursor.rest.take 8).length = 8 := by
      rw [List.length_take, Nat.min_eq_left enough]
    have copied : Sized.ofBytes? 8 (cursor.rest.take 8) = some ⟨cursor.rest.take 8, full⟩ :=
      dif_pos full
    rw [Ranged.readSalt, taken, pure_bind]
    dsimp only
    rw [Specifier.readSalt, copied]
    exact .done ⟨rfl, next⟩
  · have cut : (cursor.rest.take 8).length ≠ 8 := by
      rw [List.length_take]
      omega
    have none : Sized.ofBytes? 8 (cursor.rest.take 8) = none := dif_neg cut
    rw [Ranged.readSalt, place.take_short (Nat.lt_of_not_le enough), Specifier.readSalt, none]
    exact .failed _

theorem tracks_readHash (place : At reader cursor) :
    Tracks Read (Ranged.readHash reader) (Specifier.readHash cursor) := by
  refine (Reader.tracks_octet place).bind ?_
  rintro ⟨number, reader⟩ ⟨_, cursor⟩ ⟨rfl, place⟩
  dsimp only
  cases Digest.Algorithm.ofNumber? number with
  | none => exact .failed _
  | some hash => exact .done ⟨rfl, place⟩

theorem tracks_readSpecifier (place : At reader cursor) :
    Tracks Read (Ranged.readSpecifier reader) (Specifier.read cursor) := by
  refine (Reader.tracks_octet place).bind ?_
  rintro ⟨kind, reader⟩ ⟨_, cursor⟩ ⟨rfl, place⟩
  refine (tracks_readHash place).bind ?_
  rintro ⟨hash, reader⟩ ⟨_, cursor⟩ ⟨rfl, place⟩
  refine .ite (fun _ => .done ⟨rfl, place⟩) fun _ => ?_
  refine .ite (fun _ => ?_) fun _ => .ite (fun _ => ?_) fun _ => .failed _
  · refine (tracks_readSalt place).bind ?_
    rintro ⟨salt, reader⟩ ⟨_, cursor⟩ ⟨rfl, place⟩
    exact .done ⟨rfl, place⟩
  · refine (tracks_readSalt place).bind ?_
    rintro ⟨salt, reader⟩ ⟨_, cursor⟩ ⟨rfl, place⟩
    refine (Reader.tracks_octet place).bind ?_
    rintro ⟨count, reader⟩ ⟨_, cursor⟩ ⟨rfl, place⟩
    exact .done ⟨rfl, place⟩

/-- The same key for the same cipher, and of the size that the cipher asks for. -/
def Fitting (read plain : Option (Cipher.Algorithm × Bytes)) : Prop :=
  read = plain ∧ ∀ pair ∈ plain, pair.2.length = pair.1.keySize

theorem fitting_none : Fitting none none := ⟨rfl, nofun⟩

theorem fitting_some {algorithm : Cipher.Algorithm} {key : Bytes}
    (fits : key.length = algorithm.keySize) :
    Fitting (some (algorithm, key)) (some (algorithm, key)) := by
  refine ⟨rfl, ?_⟩
  rintro pair ⟨⟩
  exact fits

theorem ofBytes_of_length {algorithm : Cipher.Algorithm} {bytes : Bytes}
    (fits : bytes.length = algorithm.keySize) :
    Cipher.Key.ofBytes? algorithm bytes = some ⟨bytes, fits⟩ :=
  dif_pos fits

theorem tracks_plausibleKey {plain : Bytes} (filled : plain ≠ []) :
    Tracks Fitting (Ranged.plausibleKey plain) (.ok (plausibleKey plain)) := by
  cases plain with
  | nil => exact absurd rfl filled
  | cons number key =>
      have first : index (number :: key) 0 = some number := rfl
      have left : minus (number :: key).length 1 = some key.length :=
        Checked.minus_of_le (Nat.le_add_left _ _)
      have behind : slice (number :: key) 1 (number :: key).length = some key :=
        Checked.slice_to_end (Nat.le_add_left _ _)
      rw [Ranged.plausibleKey, first, Checked.some_bind, plausibleKey]
      cases Cipher.Algorithm.ofNumber? number with
      | none => exact .done fitting_none
      | some algorithm =>
          dsimp only
          rw [left, Checked.some_bind]
          by_cases fits : key.length = algorithm.keySize
          · rw [if_pos fits, if_pos fits, behind]
            exact .done (fitting_some fits)
          · rw [if_neg fits, if_neg fits]
            exact .done fitting_none

-- Nothing but the check that something was sent keeps the index of its cipher in range.
example : (Ranged.plausibleKey []).run = none := rfl

theorem tracks_unlock {body : Bytes} (fits : body.length < wordSize) (passphrase : Bytes) :
    Tracks Fitting (Ranged.unlock body passphrase) (unlock body passphrase) := by
  refine (Reader.tracks_octet (Reader.at_start fits)).bind ?_
  rintro ⟨version, reader⟩ ⟨_, cursor⟩ ⟨rfl, place⟩
  refine .ite (fun _ => .failed _) fun _ => ?_
  refine (Reader.tracks_octet place).bind ?_
  rintro ⟨number, reader⟩ ⟨_, cursor⟩ ⟨rfl, place⟩
  refine (Checked.tracks_plain (cipherOf number)).bind ?_
  rintro algorithm _ rfl
  refine (tracks_readSpecifier place).bind ?_
  rintro ⟨specifier, reader⟩ ⟨_, cursor⟩ ⟨rfl, place⟩
  have size := specifier.length_derive passphrase algorithm.keySize
  dsimp only
  rw [derive_in_range, Checked.some_bind, place.remainder_eq, pure_bind]
  refine .ite (fun _ => .done (fitting_some size)) fun some => ?_
  rw [keyFor, ofBytes_of_length size, Checked.some_bind]
  refine tracks_plausibleKey ?_
  rw [← List.length_pos_iff, Feedback.length_apply]
  exact List.length_pos_iff.mpr fun empty => some (List.isEmpty_iff.mpr empty)

end Session

end DeadDrop.Envelope
