import DeadDrop.Cipher.Keyed

/-!
A key makes blocks of blocks. The key schedule has words of four octets and enough of them for a
key to every round, and no step of a round changes the length of what it works on.
-/

namespace DeadDrop.Cipher

def Blockwise (block : Bytes → Bytes) : Prop :=
  ∀ before, before.length = blockSize → (block before).length = blockSize

namespace Aes

theorem length_xor {left right : Bytes} {size : Nat} (first : left.length = size)
    (second : right.length = size) : (Bytes.xor left right).length = size := by
  rw [Bytes.xor, List.length_zipWith, first, second, Nat.min_self]

section Schedule

theorem length_of_mem_inGroups {size count : Nat} {bytes group : Bytes}
    (enough : count * size ≤ bytes.length) (member : group ∈ inGroups size count bytes) :
    group.length = size := by
  induction count generalizing bytes with
  | zero => cases member
  | succ count ih =>
      rw [Nat.succ_mul] at enough
      rcases List.mem_cons.mp member with rfl | later
      · rw [List.length_take]
        omega
      · apply ih _ later
        rw [List.length_drop]
        omega

theorem length_inGroups (size count : Nat) (bytes : Bytes) :
    (inGroups size count bytes).length = count := by
  induction count generalizing bytes with
  | zero => rfl
  | succ count ih => rw [inGroups, List.length_cons, ih]

structure Words (wordsInKey : Nat) (words : List Bytes) : Prop where
  four : ∀ word ∈ words, word.length = 4
  enough : wordsInKey ≤ words.length

variable {wordsInKey : Nat} {words : List Bytes}

theorem Words.getD (sound : Words wordsInKey words) {index : Nat} (inside : index < wordsInKey) :
    (words.getD index []).length = 4 := by
  have within : index < words.length := Nat.lt_of_lt_of_le inside sound.enough
  rw [List.getD_eq_getElem?_getD, List.getElem?_eq_getElem within, Option.getD_some]
  exact sound.four _ (List.getElem_mem within)

theorem Words.next (sound : Words wordsInKey words) {word : Bytes} (four : word.length = 4) :
    Words wordsInKey (word :: words) :=
  ⟨List.forall_mem_cons.mpr ⟨four, sound.four⟩, Nat.le_succ_of_le sound.enough⟩

theorem scheduleWords_sound (some : 0 < wordsInKey) (sound : Words wordsInKey words)
    (more index : Nat) (rcon : UInt8) :
    Words wordsInKey (scheduleWords wordsInKey more index rcon words) ∧
      (scheduleWords wordsInKey more index rcon words).length = words.length + more := by
  induction more generalizing index rcon words with
  | zero => exact ⟨sound, rfl⟩
  | succ more ih =>
      have last := sound.getD some
      have first := sound.getD (Nat.sub_lt some Nat.zero_lt_one)
      unfold scheduleWords
      split
      · have turned : (((words.getD 0 []).drop 1 ++ (words.getD 0 []).take 1).map
            substitute).length = 4 := by
          rw [List.length_map, List.length_append, List.length_drop, List.length_take, last]
          rfl
        have round : [rcon, 0, 0, 0].length = 4 := rfl
        have mixed := length_xor turned round
        obtain ⟨kept, length⟩ :=
          ih (sound.next (length_xor first mixed)) (index + 1) (double rcon)
        exact ⟨kept, by rw [length, List.length_cons, Nat.add_right_comm, Nat.add_assoc]⟩
      · have turned : (if wordsInKey > 6 ∧ index % wordsInKey = 4 then
            (words.getD 0 []).map substitute else words.getD 0 []).length = 4 := by
          split
          · rw [List.length_map, last]
          · exact last
        obtain ⟨kept, length⟩ := ih (sound.next (length_xor first turned)) (index + 1) rcon
        exact ⟨kept, by rw [length, List.length_cons, Nat.add_right_comm, Nat.add_assoc]⟩

theorem length_flatten_of_four (four : ∀ word ∈ words, word.length = 4) :
    words.flatten.length = 4 * words.length := by
  induction words with
  | nil => rfl
  | cons word rest ih =>
      obtain ⟨first, others⟩ := List.forall_mem_cons.mp four
      rw [List.flatten_cons, List.length_append, first, ih others, List.length_cons]
      omega

theorem length_of_mem_roundKeys {key roundKey : Bytes} (whole : 4 ≤ key.length)
    (member : roundKey ∈ roundKeys key) : roundKey.length = blockSize := by
  have some : 0 < key.length / 4 := Nat.div_pos whole (by decide)
  have start : Words (key.length / 4) (inGroups 4 (key.length / 4) key).reverse := by
    refine ⟨?_, Nat.le_of_eq (by rw [List.length_reverse, length_inGroups])⟩
    intro word member
    exact length_of_mem_inGroups (Nat.div_mul_le_self _ _) (List.mem_reverse.mp member)
  obtain ⟨sound, length⟩ := scheduleWords_sound some start (3 * (key.length / 4) + 28)
    (key.length / 4) 1
  apply length_of_mem_inGroups _ member
  rw [length_flatten_of_four fun word inside => sound.four word (List.mem_reverse.mp inside),
    List.length_reverse, length, List.length_reverse, length_inGroups]
  omega

end Schedule

section Rounds

theorem length_shiftRows (block : Bytes) : (shiftRows block).length = block.length := by
  unfold shiftRows
  split <;> rfl

theorem length_mixColumns (block : Bytes) : (mixColumns block).length = block.length := by
  induction block using mixColumns.induct with
  | case1 a b c d rest ih => simp only [mixColumns, List.length_cons, ih]
  | case2 rest short =>
      rw [mixColumns]
      exact short

theorem length_rounds {block : Bytes} {keys : List Bytes} (whole : block.length = blockSize)
    (sizes : ∀ key ∈ keys, key.length = blockSize) : (rounds block keys).length = blockSize := by
  induction block, keys using rounds.induct with
  | case1 block => exact whole
  | case2 block last =>
      apply length_xor _ (sizes last List.mem_cons_self)
      rw [length_shiftRows, List.length_map, whole]
  | case3 block key keys others ih =>
      obtain ⟨size, later⟩ := List.forall_mem_cons.mp sizes
      rw [rounds]
      · apply ih _ later
        apply length_xor _ size
        rw [length_mixColumns, length_shiftRows, List.length_map, whole]
      · exact others

end Rounds

end Aes

theorem Key.blockwise {algorithm : Algorithm} (key : Key algorithm) : Blockwise key.block := by
  intro before whole
  have words : 4 ≤ key.bytes.length := by
    rw [key.length_eq]
    cases algorithm <;> decide
  unfold Key.block Aes.encryptBlock
  split
  · exact whole
  · next first rest keys =>
      obtain ⟨size, sizes⟩ := List.forall_mem_cons.mp fun roundKey member =>
        Aes.length_of_mem_roundKeys words (keys ▸ member)
      exact Aes.length_rounds (Aes.length_xor whole size) sizes

end DeadDrop.Cipher
