import DeadDrop.Proofs.Envelope.Attempt
import DeadDrop.Proofs.Envelope.Integrity
import DeadDrop.Proofs.Packet.Acceptance

/-!
How deep a message goes. Layers are taken off until one holds no further layer. A stored layer is
shorter than what holds it, so stored layers come to an end by themselves. Inflated data may be as
long as what it came from, or longer, and nothing else bounds the layers: a message is answered
exactly if they come to an end, and there are octets that inflate to themselves.
-/

namespace DeadDrop.Envelope

def beneath (octets : Bytes) : Option Bytes :=
  match peel octets with
  | .ok (.inr layer) => some layer.data
  | _ => none

def layerAt : Nat → Bytes → Option Bytes
  | 0, octets => some octets
  | count + 1, octets => (beneath octets).bind (layerAt count)

/-- Nothing in the octets is inflated, at whatever depth. -/
def OnlyStored (octets : Bytes) : Prop :=
  ∀ count layer, layerAt count octets = some layer →
    ∀ inner, peel layer ≠ .ok (.inr (.inflated inner))

section Layers

variable {octets inner : Bytes} {count : Nat}

theorem beneath_of_layer {layer : Unwrapped} (found : peel octets = .ok (.inr layer)) :
    beneath octets = some layer.data := by
  rw [beneath, found]

theorem layerAt_of_layer {layer : Unwrapped} (found : peel octets = .ok (.inr layer)) :
    layerAt (count + 1) octets = layerAt count layer.data := by
  rw [layerAt, beneath_of_layer found, Option.bind_some]

theorem OnlyStored.beneath (stored : OnlyStored octets)
    (found : peel octets = .ok (.inr (.stored inner))) : OnlyStored inner := by
  intro count layer reached
  apply stored (count + 1) layer
  rw [layerAt_of_layer found]
  exact reached

theorem length_of_stored (found : peel octets = .ok (.inr (.stored inner))) :
    inner.length < octets.length := by
  obtain ⟨packets, packet, read, first, _, unwrapped⟩ := peel_eq_layer_iff.mp found
  obtain ⟨markers, others, rfl, _, _⟩ := firstInside_eq_ok_iff.mp first
  have shorter := Packet.length_of_readAll read
    (List.mem_append_right markers List.mem_cons_self)
  have body : packet.body = 0 :: inner := by
    unfold unwrap at unwrapped
    split at unwrapped
    · cases unwrapped
    · next method data shape =>
        rw [shape]
        dsimp only at unwrapped
        split at unwrapped
        · next kind =>
            cases unwrapped
            rw [kind]
        · split at unwrapped
          · split at unwrapped <;> cases unwrapped
          · split at unwrapped
            · split at unwrapped <;> cases unwrapped
            · cases unwrapped
  rw [body, List.length_cons] at shorter
  omega

end Layers

section Looking

variable {octets : Bytes} {depth room : Nat} {answer : Except Error Decrypted}

theorem look_more (done : look depth room octets = some answer) {depth' room' : Nat}
    (deeper : depth ≤ depth') (wider : room ≤ room') :
    look depth' room' octets = some answer := by
  induction depth, room, octets using look.induct generalizing depth' room' with
  | case1 depth room octets error failed =>
      rw [look, failed] at done ⊢
      exact done
  | case2 depth room octets literal found =>
      rw [look, found] at done ⊢
      exact done
  | case3 depth octets inner found =>
      rw [look, found] at done
      cases done
  | case4 depth octets inner found room ih =>
      rw [look, found] at done
      obtain ⟨room', rfl⟩ := Nat.exists_eq_succ_of_ne_zero (Nat.ne_zero_of_lt wider)
      rw [look, found]
      exact ih done deeper (Nat.le_of_succ_le_succ wider)
  | case5 room octets inner found =>
      rw [look, found] at done
      cases done
  | case6 room octets inner found depth ih =>
      rw [look, found] at done
      obtain ⟨depth', rfl⟩ := Nat.exists_eq_succ_of_ne_zero (Nat.ne_zero_of_lt deeper)
      rw [look, found]
      exact ih done (Nat.le_of_succ_le_succ deeper) (Nat.le_refl _)

theorem layers_end_of_look (done : look depth room octets = some answer) :
    ∃ count, layerAt count octets = none := by
  induction depth, room, octets using look.induct with
  | case1 depth room octets error failed =>
      exact ⟨1, by rw [layerAt, beneath, failed, Option.bind_none]⟩
  | case2 depth room octets literal found =>
      exact ⟨1, by rw [layerAt, beneath, found, Option.bind_none]⟩
  | case3 depth octets inner found =>
      rw [look, found] at done
      cases done
  | case4 depth octets inner found room ih =>
      rw [look, found] at done
      obtain ⟨count, ended⟩ := ih done
      exact ⟨count + 1, by rw [layerAt_of_layer found]; exact ended⟩
  | case5 room octets inner found =>
      rw [look, found] at done
      cases done
  | case6 room octets inner found depth ih =>
      rw [look, found] at done
      obtain ⟨count, ended⟩ := ih done
      exact ⟨count + 1, by rw [layerAt_of_layer found]; exact ended⟩

/-- As many growing layers as there are layers at all are enough. -/
theorem look_of_layers_end {count : Nat} (ended : layerAt count octets = none)
    (enough : octets.length ≤ room) : ∃ answer, look count room octets = some answer := by
  induction count generalizing octets room with
  | zero => cases ended
  | succ count ih =>
      cases found : peel octets with
      | error error => exact ⟨.error error, by rw [look, found]⟩
      | ok inside =>
          rcases inside with literal | layer
          · exact ⟨.ok literal, by rw [look, found]⟩
          · rw [layerAt_of_layer found] at ended
            rcases layer with inner | inner
            · -- A stored layer takes room, and the count allows for one growing layer more.
              have shorter := length_of_stored found
              obtain ⟨room, rfl⟩ := Nat.exists_eq_succ_of_ne_zero
                (Nat.ne_zero_of_lt (Nat.lt_of_lt_of_le shorter enough))
              obtain ⟨answer, done⟩ := ih ended
                (Nat.le_of_lt_succ (Nat.lt_of_lt_of_le shorter enough))
              refine ⟨answer, ?_⟩
              rw [look, found]
              exact look_more done (Nat.le_succ count) (Nat.le_refl room)
            · obtain ⟨answer, done⟩ := ih ended (Nat.le_refl inner.length)
              refine ⟨answer, ?_⟩
              rw [look, found]
              exact done

theorem look_of_onlyStored (depth : Nat) (stored : OnlyStored octets)
    (enough : octets.length ≤ room) : ∃ answer, look depth room octets = some answer := by
  induction depth, room, octets using look.induct with
  | case1 depth room octets error failed => exact ⟨.error error, by rw [look, failed]⟩
  | case2 depth room octets literal found => exact ⟨.ok literal, by rw [look, found]⟩
  | case3 depth octets inner found =>
      have shorter := length_of_stored found
      omega
  | case4 depth octets inner found room ih =>
      have shorter := length_of_stored found
      rw [look, found]
      exact ih (stored.beneath found) (by omega)
  | case5 room octets inner found => exact absurd found (stored 0 octets rfl inner)
  | case6 room octets inner found depth ih => exact absurd found (stored 0 octets rfl inner)

end Looking

section Message

variable {source : Source} {key : String} {inner : Bytes} {depth : Nat}

theorem decryptWithin_of_reveal (revealed : reveal source key = .ok inner) (depth : Nat) :
    decryptWithin depth source key = look depth inner.length inner := by
  rw [decryptWithin, revealed]

/-- A message is answered, and in one way however many growing layers are followed, exactly if the
layers of its verified data come to an end; and they do if each of them was only stored. -/
theorem answered_iff_layers_end (source : Source) (key : String) :
    ((∃ depth answer, ∀ more, depth ≤ more → decryptWithin more source key = some answer) ↔
        ∀ inner, reveal source key = .ok inner → ∃ count, layerAt count inner = none) ∧
      ((∀ inner, reveal source key = .ok inner → OnlyStored inner) →
        ∃ answer, ∀ depth, decryptWithin depth source key = some answer) := by
  cases revealed : reveal source key with
  | error error =>
      have failed (depth : Nat) : decryptWithin depth source key = some (.error error) := by
        rw [decryptWithin, revealed]
      refine ⟨⟨?_, ?_⟩, ?_⟩
      · intro _ inner shown
        cases shown
      · intro _
        exact ⟨0, .error error, fun more _ => failed more⟩
      · intro _
        exact ⟨.error error, failed⟩
  | ok inner =>
      have looked := decryptWithin_of_reveal revealed
      refine ⟨⟨?_, ?_⟩, ?_⟩
      · rintro ⟨depth, answer, answered⟩ other shown
        cases shown
        have done := answered depth (Nat.le_refl depth)
        rw [looked] at done
        exact layers_end_of_look done
      · intro ends
        obtain ⟨count, ended⟩ := ends inner rfl
        obtain ⟨answer, done⟩ := look_of_layers_end ended (Nat.le_refl inner.length)
        refine ⟨count, answer, ?_⟩
        intro more deeper
        rw [looked]
        exact look_more done deeper (Nat.le_refl _)
      · intro stored
        obtain ⟨answer, done⟩ := look_of_onlyStored 0 (stored inner rfl) (Nat.le_refl inner.length)
        refine ⟨answer, ?_⟩
        intro depth
        rw [looked]
        exact look_more done (Nat.zero_le depth) (Nat.le_refl _)

end Message

/-! Octets that inflate to themselves. Blocks of stored octets spell out the blocks around them,
and copies print a second time what was just printed, so that the headers of the stored blocks are
printed as well. The packet's own header is part of what is spelled out first. -/
section Endless

/-- The header of a block of so many stored octets. -/
def storedHeader (count : UInt8) : Bytes := [0, count, 0, 255 - count, 255]

/-- A block that prints the last nine octets again. -/
def nineAgain : Bytes := [2, 51, 64, 12, 0]

def twentyAgain : Bytes := [66, 136, 33, 196, 0]

/-- The last block, which prints the last three octets again. -/
def threeAgain : Bytes := [3, 34, 0]

def endlessStream : Bytes := List.flatten [
  storedHeader 9, [0xA1, 0, 0x80, 1], storedHeader 9, nineAgain,
  storedHeader 5, nineAgain,
  storedHeader 5, storedHeader 5,
  storedHeader 20, nineAgain, storedHeader 5, storedHeader 5, storedHeader 20, twentyAgain,
  storedHeader 20, twentyAgain, storedHeader 20, twentyAgain, storedHeader 20, twentyAgain,
  storedHeader 20, List.replicate 17 0, threeAgain, threeAgain]

/-- A compressed packet with two octets of length, and the stream by the raw method. -/
def endless : Bytes :=
  Packet.oldHeader Packet.Tag.compressed 1 :: (Bytes.ofNat 2 128 ++ 1 :: endlessStream)

theorem inflate_endlessStream : Inflate.inflate endlessStream = .ok endless := by
  have printed : (Inflate.inflate endlessStream).toOption = some endless := by decide +kernel
  cases done : Inflate.inflate endlessStream with
  | error fault =>
      rw [done] at printed
      cases printed
  | ok out =>
      rw [done] at printed
      cases printed
      rfl

theorem peel_endless : peel endless = .ok (.inr (.inflated endless)) := by
  have size : (1 :: endlessStream).length = 128 := by decide +kernel
  have packet : Packet.Delimited ⟨Packet.Tag.compressed, 1 :: endlessStream⟩ endless := by
    rw [endless, ← size]
    exact .old (by decide) (.two (by rw [size]; decide))
  have read := Packet.readAll_single (Packet.encodes_of_delimited packet)
  refine peel_eq_layer_iff.mpr ⟨_, _, read, rfl, by decide, ?_⟩
  rw [unwrap]
  simp [inflate_endlessStream]

theorem layerAt_endless (count : Nat) : layerAt count endless = some endless := by
  induction count with
  | zero => rfl
  | succ count ih =>
      rw [layerAt_of_layer peel_endless]
      exact ih

def endlessMessage : List Packet := [
  ⟨Packet.Tag.sessionKey, noteSession (Text.Utf8.bytes "key")⟩,
  ⟨Packet.Tag.protectedData,
    dataVersion :: protect noteKey.block (fillerBlock (Sized.filled 16 5) ++ endless)⟩]

theorem reveal_endlessMessage :
    reveal (Source.ofPackets endlessMessage) "key" = .ok endless := by
  have small : ∀ packet ∈ endlessMessage, packet.tag < 64 := by decide
  have holds := ofPackets_holds small
  rw [reveal_of_pair holds]
  exact trySessions_eq_ok_iff.mpr ⟨_, [], .aes256, noteKey.bytes, rfl,
    unlock_noteSession _, openProtected_protect _ endless (keyFor_eq_ok_iff.mpr rfl)⟩

/-- There is a message that opens with its key, vouches for itself and is never answered: below
each of its layers is the same layer again. -/
theorem endless_message_is_never_answered :
    reveal (Source.ofPackets endlessMessage) "key" = .ok endless ∧
      (∀ count, layerAt count endless = some endless) ∧
      ∀ depth, decryptWithin depth (Source.ofPackets endlessMessage) "key" = none := by
  refine ⟨reveal_endlessMessage, layerAt_endless, ?_⟩
  intro depth
  cases done : decryptWithin depth (Source.ofPackets endlessMessage) "key" with
  | none => rfl
  | some answer =>
      rw [decryptWithin_of_reveal reveal_endlessMessage] at done
      obtain ⟨count, ended⟩ := layers_end_of_look done
      rw [layerAt_endless] at ended
      cases ended

end Endless

end DeadDrop.Envelope
