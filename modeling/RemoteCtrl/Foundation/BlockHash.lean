import Mathlib.Data.List.Basic
import Mathlib.Tactic.Common

/-!
# Hashing a stream in blocks

An iterated hash compresses one whole block after another into its chaining value and keeps what is left
over until more data comes. `chain` is the chaining value after the whole blocks of some data, `pending` the
part behind them, shorter than a block. Everything rests on `chain_append` and `pending_append`: data that
comes later is put behind what is pending, and nothing else of the past counts. So it does not matter how the
data was cut.
-/

namespace CProgram.BlockHash

variable {α σ : Type} (size : Nat) (compress : σ → List α → σ)

/-- The first blocks of the data, compressed in their order. -/
def chainBlocks : Nat → σ → List α → σ
  | 0, s, _ => s
  | count + 1, s, data => chainBlocks count (compress s (data.take size)) (data.drop size)

def chain (s : σ) (data : List α) : σ := chainBlocks size compress (data.length / size) s data

def pending (data : List α) : List α := data.drop (size * (data.length / size))

/-! ### One block at a time -/

variable {size} {compress}

theorem chain_of_lt {data : List α} (hlt : data.length < size) (s : σ) : chain size compress s data = s := by
  rw [chain, Nat.div_eq_of_lt hlt, chainBlocks]

theorem pending_of_lt {data : List α} (hlt : data.length < size) : pending size data = data := by
  rw [pending, Nat.div_eq_of_lt hlt, Nat.mul_zero, List.drop_zero]

theorem blocks_of_append {block rest : List α} (hsize : 0 < size) (hblock : block.length = size) :
    (block ++ rest).length / size = rest.length / size + 1 := by
  rw [List.length_append, hblock, Nat.add_div_left _ hsize]

theorem chain_block_append {block : List α} (hsize : 0 < size) (hblock : block.length = size) (s : σ)
    (rest : List α) :
    chain size compress s (block ++ rest) = chain size compress (compress s block) rest := by
  rw [chain, blocks_of_append hsize hblock, chainBlocks, chain, List.take_left' hblock,
    List.drop_left' hblock]

theorem pending_block_append {block : List α} (hsize : 0 < size) (hblock : block.length = size)
    (rest : List α) : pending size (block ++ rest) = pending size rest := by
  rw [pending, blocks_of_append hsize hblock, Nat.mul_add, Nat.mul_one, Nat.add_comm, ← List.drop_drop,
    List.drop_left' hblock, pending]

theorem chain_of_le {data : List α} (hsize : 0 < size) (hle : size ≤ data.length) (s : σ) :
    chain size compress s data = chain size compress (compress s (data.take size)) (data.drop size) := by
  have hblock : (data.take size).length = size := List.length_take_of_le hle
  rw [← chain_block_append hsize hblock, List.take_append_drop]

/-- Data is shorter than a block, or a block in front of data. -/
theorem block_induction {p : List α → Prop} (hsize : 0 < size)
    (hshort : ∀ data : List α, data.length < size → p data)
    (hblock : ∀ block rest : List α, block.length = size → p rest → p (block ++ rest)) (data : List α) :
    p data := by
  induction hn : data.length using Nat.strongRecOn generalizing data with
  | ind n ih =>
      by_cases hlt : data.length < size
      · exact hshort data hlt
      · have hle : size ≤ data.length := Nat.le_of_not_lt hlt
        have hrest : (data.drop size).length < n := by
          rw [List.length_drop]
          omega
        rw [← List.take_append_drop size data]
        exact hblock _ _ (List.length_take_of_le hle) (ih _ hrest _ rfl)

/-! ### Data in pieces -/

variable (compress)

theorem pending_length (data : List α) : (pending size data).length = data.length % size := by
  rw [pending, List.length_drop, Nat.mod_def]

theorem chain_append (hsize : 0 < size) (s : σ) (xs ys : List α) :
    chain size compress s (xs ++ ys)
      = chain size compress (chain size compress s xs) (pending size xs ++ ys) := by
  induction xs using block_induction hsize generalizing s with
  | hshort xs hlt => rw [chain_of_lt hlt, pending_of_lt hlt]
  | hblock block rest hlen ih =>
      rw [List.append_assoc, chain_block_append hsize hlen, ih, chain_block_append hsize hlen,
        pending_block_append hsize hlen]

theorem pending_append (hsize : 0 < size) (xs ys : List α) :
    pending size (xs ++ ys) = pending size (pending size xs ++ ys) := by
  induction xs using block_induction hsize with
  | hshort xs hlt => rw [pending_of_lt hlt]
  | hblock block rest hlen ih =>
      rw [List.append_assoc, pending_block_append hsize hlen, ih, pending_block_append hsize hlen]

end CProgram.BlockHash
