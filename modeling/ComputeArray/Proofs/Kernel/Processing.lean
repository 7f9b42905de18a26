import ComputeArray.Proofs.Kernel.Grid
import ComputeArray.Proofs.Kernel.Processor
import ComputeArray.Proofs.Memory.Words

/-!
# Kernels on buffers of words

A kernel of words reads its arrays from the buffers bound to its slots and leaves them there:
`Kernel.process` is what a single invocation makes of the bytes of these buffers. Words and vectors
of four words lie in a buffer one after the other, so what has been stored is read back
(`streams_ofCells`, `words_ofCells`).
-/

set_option autoImplicit false

namespace ComputeArray

open ComputeArray.Random

namespace Bytes

def word (bytes : Bytes) (i : Nat) : UInt32 := .ofNat (bytes.element 4 i)

/-- The words of a buffer. -/
def words (bytes : Bytes) : List UInt32 := (List.range (bytes.size / 4)).map bytes.word

/-- The vectors of four words of a buffer. -/
def streams (bytes : Bytes) : List StreamState :=
  (List.range (bytes.size / 16)).map fun i ↦
    ⟨bytes.word (4 * i), bytes.word (4 * i + 1), bytes.word (4 * i + 2), bytes.word (4 * i + 3)⟩

end Bytes

theorem Bytes.word_ofWords {words : List UInt32} {i : Nat} (hi : i < words.length) :
    (Bytes.ofWords (words.map UInt32.toNat)).word i = words[i] := by
  have hbound : ∀ word ∈ words.map UInt32.toNat, word < 2 ^ 32 := by
    intro word hmem
    obtain ⟨x, -, rfl⟩ := List.mem_map.mp hmem
    exact UInt32.toNat_lt x
  have helements := Bytes.elements_ofWords hbound
  have helement : (Bytes.ofWords (words.map UInt32.toNat)).element 4 i = words[i].toNat := by
    have hget := congrArg (·[i]?) helements
    simpa [Bytes.elements, hi] using hget
  rw [Bytes.word, helement, UInt32.ofNat_toNat]

namespace Kernel

namespace Register

/-- The words a cell is stored as. -/
def words : Register → List UInt32
  | .word x => [x]
  | .vector v => v.toList
  | _ => []

/-- The cells of a buffer by the type of its elements. -/
def cellsOf? (elements : String) (bytes : Bytes) : Option (List Register) :=
  if elements = "u32" then some (bytes.words.map .word)
  else if elements = "vec4<u32>" then some (bytes.streams.map .vector)
  else if elements = "f32" then
    some ((bytes.elements 4 (bytes.size / 4)).map fun bits ↦ .numeral (.held bits))
  else if elements = "f16" then
    some ((bytes.elements 2 (bytes.size / 2)).map fun bits ↦ .numeral (.held bits))
  else none

/-- The bytes cells are stored as. -/
def bytesOf (cells : List Register) : Bytes :=
  .ofWords ((cells.flatMap Register.words).map UInt32.toNat)

theorem size_bytesOf_words (words : List UInt32) :
    (bytesOf (words.map .word)).size = 4 * words.length := by
  simp [bytesOf, List.flatMap_map, Register.words]

/-- Words are read back as they were stored. -/
theorem words_bytesOf (words : List UInt32) : (bytesOf (words.map .word)).words = words := by
  have hcells : (words.map Register.word).flatMap Register.words = words := by
    simp [List.flatMap_map, Register.words]
  rw [Bytes.words, size_bytesOf_words, Nat.mul_div_cancel_left _ (by decide), bytesOf, hcells]
  refine List.ext_getElem (by simp) fun i hi hi' ↦ ?_
  rw [List.getElem_map, List.getElem_range, Bytes.word_ofWords]

theorem length_flatMap_toList (rows : List StreamState) :
    (rows.flatMap StreamState.toList).length = 4 * rows.length := by
  induction rows with
  | nil => rfl
  | cons row rest ih =>
    have hrow : row.toList.length = 4 := rfl
    rw [List.flatMap_cons, List.length_append, ih, hrow, List.length_cons]
    omega

/-- The words of a row lie together. -/
theorem getElem?_flatMap_toList (rows : List StreamState) (i j : Nat) (hj : j < 4) :
    (rows.flatMap StreamState.toList)[4 * i + j]? = rows[i]?.bind (·.toList[j]?) := by
  induction rows generalizing i with
  | nil => rfl
  | cons row rest ih =>
    have hrow : row.toList.length = 4 := rfl
    rw [List.flatMap_cons]
    cases i with
    | zero =>
      rw [Nat.mul_zero, Nat.zero_add, List.getElem?_append_left (by rwa [hrow])]
      rfl
    | succ i =>
      have hplace : 4 * (i + 1) + j - 4 = 4 * i + j := by omega
      rw [List.getElem?_append_right (by rw [hrow]; omega), List.getElem?_cons_succ, ← ih, hrow,
        hplace]

theorem size_bytesOf_vectors (rows : List StreamState) :
    (bytesOf (rows.map .vector)).size = 16 * rows.length := by
  have hcells : (rows.map Register.vector).flatMap Register.words =
      rows.flatMap StreamState.toList := by
    simp [List.flatMap_map, Register.words]
  rw [bytesOf, hcells, Bytes.size_ofWords, List.length_map, length_flatMap_toList]
  omega

/-- Vectors are read back as they were stored. -/
theorem streams_bytesOf (rows : List StreamState) :
    (bytesOf (rows.map .vector)).streams = rows := by
  have hcells : (rows.map Register.vector).flatMap Register.words =
      rows.flatMap StreamState.toList := by
    simp [List.flatMap_map, Register.words]
  have hword {i j : Nat} {row : StreamState} (hrow : rows[i]? = some row) (hj : j < 4) :
      some ((bytesOf (rows.map .vector)).word (4 * i + j)) = row.toList[j]? := by
    have hi : i < rows.length := (List.getElem?_eq_some_iff.mp hrow).1
    have hlt : 4 * i + j < (rows.flatMap StreamState.toList).length := by
      rw [length_flatMap_toList]; omega
    rw [bytesOf, hcells, Bytes.word_ofWords hlt, ← List.getElem?_eq_getElem hlt,
      getElem?_flatMap_toList _ _ _ hj, hrow, Option.bind_some]
  rw [Bytes.streams, size_bytesOf_vectors, Nat.mul_div_cancel_left _ (by decide)]
  refine List.ext_getElem (by simp) fun i hi hi' ↦ ?_
  have hrow : rows[i]? = some rows[i] := List.getElem?_eq_getElem hi'
  have h0 := hword hrow (show 0 < 4 by decide)
  have h1 := hword hrow (show 1 < 4 by decide)
  have h2 := hword hrow (show 2 < 4 by decide)
  have h3 := hword hrow (show 3 < 4 by decide)
  simp [StreamState.toList] at h0 h1 h2 h3
  simp [h0, h1, h2, h3]

end Register

/-- The memory of a kernel: its arrays as they lie in the buffers of their slots. -/
def memoryOf (kernel : Kernel) (held : List Bytes) : Memory := fun name ↦
  kernel.items.findSome? fun
    | .array (some position) _ array elements =>
      if array = name then held[position.toNat]?.bind (Register.cellsOf? elements) else none
    | _ => none

/-- What a single invocation of a kernel leaves in the buffers of its slots. -/
def process (kernel : Kernel) (rounds : Nat) (held : List Bytes) : List Bytes :=
  match kernel.runSingle rounds (kernel.memoryOf held) with
  | none => held
  | some memory =>
    held.zipIdx.map fun (bytes, slot) ↦
      ((kernel.items.findSome? (Item.nameAt? slot)).bind memory).elim bytes Register.bytesOf

end Kernel

end ComputeArray
