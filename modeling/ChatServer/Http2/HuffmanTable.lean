import ChatServer.Lib.PrefixCode
import Mathlib.Data.List.Sort

/-!
# The Huffman table

`huffman_codes` and `huffman_code_len` of `huffman_table.h`, and what the coder relies
on: the codes are prefix-free, every bit string of 30 bits but the one of all ones (the
code of EOS, which is not in the table) starts with a code, and behind every whole number
of bytes of a code some code ends within the next byte.
-/

namespace ChatServer.Http2

set_option autoImplicit false

open BitString PrefixCode

def huffmanCodes : List Nat := [
    0x1ff8, 0x7fffd8, 0xfffffe2, 0xfffffe3, 0xfffffe4, 0xfffffe5, 0xfffffe6, 0xfffffe7,
    0xfffffe8, 0xffffea, 0x3ffffffc, 0xfffffe9, 0xfffffea, 0x3ffffffd, 0xfffffeb, 0xfffffec,
    0xfffffed, 0xfffffee, 0xfffffef, 0xffffff0, 0xffffff1, 0xffffff2, 0x3ffffffe, 0xffffff3,
    0xffffff4, 0xffffff5, 0xffffff6, 0xffffff7, 0xffffff8, 0xffffff9, 0xffffffa, 0xffffffb,
    0x14, 0x3f8, 0x3f9, 0xffa, 0x1ff9, 0x15, 0xf8, 0x7fa,
    0x3fa, 0x3fb, 0xf9, 0x7fb, 0xfa, 0x16, 0x17, 0x18,
    0x0, 0x1, 0x2, 0x19, 0x1a, 0x1b, 0x1c, 0x1d,
    0x1e, 0x1f, 0x5c, 0xfb, 0x7ffc, 0x20, 0xffb, 0x3fc,
    0x1ffa, 0x21, 0x5d, 0x5e, 0x5f, 0x60, 0x61, 0x62,
    0x63, 0x64, 0x65, 0x66, 0x67, 0x68, 0x69, 0x6a,
    0x6b, 0x6c, 0x6d, 0x6e, 0x6f, 0x70, 0x71, 0x72,
    0xfc, 0x73, 0xfd, 0x1ffb, 0x7fff0, 0x1ffc, 0x3ffc, 0x22,
    0x7ffd, 0x3, 0x23, 0x4, 0x24, 0x5, 0x25, 0x26,
    0x27, 0x6, 0x74, 0x75, 0x28, 0x29, 0x2a, 0x7,
    0x2b, 0x76, 0x2c, 0x8, 0x9, 0x2d, 0x77, 0x78,
    0x79, 0x7a, 0x7b, 0x7ffe, 0x7fc, 0x3ffd, 0x1ffd, 0xffffffc,
    0xfffe6, 0x3fffd2, 0xfffe7, 0xfffe8, 0x3fffd3, 0x3fffd4, 0x3fffd5, 0x7fffd9,
    0x3fffd6, 0x7fffda, 0x7fffdb, 0x7fffdc, 0x7fffdd, 0x7fffde, 0xffffeb, 0x7fffdf,
    0xffffec, 0xffffed, 0x3fffd7, 0x7fffe0, 0xffffee, 0x7fffe1, 0x7fffe2, 0x7fffe3,
    0x7fffe4, 0x1fffdc, 0x3fffd8, 0x7fffe5, 0x3fffd9, 0x7fffe6, 0x7fffe7, 0xffffef,
    0x3fffda, 0x1fffdd, 0xfffe9, 0x3fffdb, 0x3fffdc, 0x7fffe8, 0x7fffe9, 0x1fffde,
    0x7fffea, 0x3fffdd, 0x3fffde, 0xfffff0, 0x1fffdf, 0x3fffdf, 0x7fffeb, 0x7fffec,
    0x1fffe0, 0x1fffe1, 0x3fffe0, 0x1fffe2, 0x7fffed, 0x3fffe1, 0x7fffee, 0x7fffef,
    0xfffea, 0x3fffe2, 0x3fffe3, 0x3fffe4, 0x7ffff0, 0x3fffe5, 0x3fffe6, 0x7ffff1,
    0x3ffffe0, 0x3ffffe1, 0xfffeb, 0x7fff1, 0x3fffe7, 0x7ffff2, 0x3fffe8, 0x1ffffec,
    0x3ffffe2, 0x3ffffe3, 0x3ffffe4, 0x7ffffde, 0x7ffffdf, 0x3ffffe5, 0xfffff1, 0x1ffffed,
    0x7fff2, 0x1fffe3, 0x3ffffe6, 0x7ffffe0, 0x7ffffe1, 0x3ffffe7, 0x7ffffe2, 0xfffff2,
    0x1fffe4, 0x1fffe5, 0x3ffffe8, 0x3ffffe9, 0xffffffd, 0x7ffffe3, 0x7ffffe4, 0x7ffffe5,
    0xfffec, 0xfffff3, 0xfffed, 0x1fffe6, 0x3fffe9, 0x1fffe7, 0x1fffe8, 0x7ffff3,
    0x3fffea, 0x3fffeb, 0x1ffffee, 0x1ffffef, 0xfffff4, 0xfffff5, 0x3ffffea, 0x7ffff4,
    0x3ffffeb, 0x7ffffe6, 0x3ffffec, 0x3ffffed, 0x7ffffe7, 0x7ffffe8, 0x7ffffe9, 0x7ffffea,
    0x7ffffeb, 0xffffffe, 0x7ffffec, 0x7ffffed, 0x7ffffee, 0x7ffffef, 0x7fffff0, 0x3ffffee]

def huffmanCodeLen : List Nat := [
    13, 23, 28, 28, 28, 28, 28, 28, 28, 24, 30, 28, 28, 30, 28, 28,
    28, 28, 28, 28, 28, 28, 30, 28, 28, 28, 28, 28, 28, 28, 28, 28,
    6, 10, 10, 12, 13, 6, 8, 11, 10, 10, 8, 11, 8, 6, 6, 6,
    5, 5, 5, 6, 6, 6, 6, 6, 6, 6, 7, 8, 15, 6, 12, 10,
    13, 6, 7, 7, 7, 7, 7, 7, 7, 7, 7, 7, 7, 7, 7, 7,
    7, 7, 7, 7, 7, 7, 7, 7, 8, 7, 8, 13, 19, 13, 14, 6,
    15, 5, 6, 5, 6, 5, 6, 6, 6, 5, 7, 7, 6, 6, 6, 5,
    6, 7, 6, 5, 5, 6, 7, 7, 7, 7, 7, 15, 11, 14, 13, 28,
    20, 22, 20, 20, 22, 22, 22, 23, 22, 23, 23, 23, 23, 23, 24, 23,
    24, 24, 22, 23, 24, 23, 23, 23, 23, 21, 22, 23, 22, 23, 23, 24,
    22, 21, 20, 22, 22, 23, 23, 21, 23, 22, 22, 24, 21, 22, 23, 23,
    21, 21, 22, 21, 23, 22, 23, 23, 20, 22, 22, 22, 23, 22, 22, 23,
    26, 26, 20, 19, 22, 23, 22, 25, 26, 26, 26, 27, 27, 26, 24, 25,
    19, 21, 26, 27, 27, 26, 27, 24, 21, 21, 26, 26, 28, 27, 27, 27,
    20, 24, 20, 21, 22, 21, 21, 23, 22, 22, 25, 25, 24, 24, 26, 23,
    26, 27, 26, 26, 27, 27, 27, 27, 27, 28, 27, 27, 27, 27, 27, 26]

def hfCode (symbol : UInt8) : Nat := huffmanCodes.getD symbol.toNat 0

/-- `HEX_TO_HF_CODE_LEN(hex)`. -/
def hfCodeLen (symbol : UInt8) : Nat := huffmanCodeLen.getD symbol.toNat 0

/-- The bits of a symbol's code in the order they are sent. -/
def codeBits (symbol : UInt8) : List Bool := natBits (hfCodeLen symbol) (hfCode symbol)

theorem code_bits_length (symbol : UInt8) : (codeBits symbol).length = hfCodeLen symbol :=
  nat_bits_length _ _

/-- The two arrays row by row, with the symbol each row belongs to. -/
def huffmanTable : List (UInt8 × Nat × Nat) :=
  ((List.range 256).map UInt8.ofNat).zip (huffmanCodes.zip huffmanCodeLen)

theorem huffman_codes_length : huffmanCodes.length = 256 := by decide +kernel

theorem huffman_code_len_length : huffmanCodeLen.length = 256 := by decide +kernel

theorem huffman_table_length : huffmanTable.length = 256 := by
  rw [huffmanTable, List.length_zip, List.length_zip, List.length_map, List.length_range,
    huffman_codes_length, huffman_code_len_length, Nat.min_self, Nat.min_self]

theorem huffman_table_get (index : Nat) (inside : index < huffmanTable.length) :
    huffmanTable[index] = (UInt8.ofNat index, hfCode (UInt8.ofNat index),
      hfCodeLen (UInt8.ofNat index)) := by
  have bound : index < 256 := by rwa [huffman_table_length] at inside
  have same : (UInt8.ofNat index).toNat = index := by
    rw [UInt8.toNat_ofNat', Nat.mod_eq_of_lt bound]
  simp only [huffmanTable, List.getElem_zip, List.getElem_map, List.getElem_range]
  rw [hfCode, hfCodeLen, same, List.getD_eq_getElem _ _ (by rwa [huffman_codes_length]),
    List.getD_eq_getElem _ _ (by rwa [huffman_code_len_length])]

theorem table_row (symbol : UInt8) : (symbol, hfCode symbol, hfCodeLen symbol) ∈ huffmanTable := by
  have inside : symbol.toNat < huffmanTable.length := by
    rw [huffman_table_length]
    exact symbol.toNat_lt
  have row := huffman_table_get symbol.toNat inside
  rw [UInt8.ofNat_toNat] at row
  rw [← row]
  exact List.getElem_mem inside

theorem table_row_eq {row : UInt8 × Nat × Nat} (member : row ∈ huffmanTable) :
    row = (row.1, hfCode row.1, hfCodeLen row.1) := by
  obtain ⟨index, inside, rfl⟩ := List.mem_iff_getElem.mp member
  rw [huffman_table_get index inside]

theorem hf_code_bounds (symbol : UInt8) :
    5 ≤ hfCodeLen symbol ∧ hfCodeLen symbol ≤ 30 ∧ hfCode symbol < 2 ^ hfCodeLen symbol := by
  have checked : ∀ row ∈ huffmanTable, 5 ≤ row.2.2 ∧ row.2.2 ≤ 30 ∧ row.2.1 < 2 ^ row.2.2 := by
    decide +kernel
  exact checked _ (table_row symbol)

theorem hf_code_fits : Fits 30 hfCode hfCodeLen := fun symbol => (hf_code_bounds symbol).2

/-- The rows in the order of their codes. Irreducible, so that only the kernel sorts. -/
@[irreducible] def orderedTable : List (UInt8 × Nat × Nat) :=
  huffmanTable.insertionSort fun first second =>
    first.2.1 * 2 ^ (30 - first.2.2) ≤ second.2.1 * 2 ^ (30 - second.2.2)

theorem ordered_table_tiles : Tiles 0 (2 ^ 30 - 1)
    (orderedTable.map (interval 30 (fun row => row.2.1) fun row => row.2.2)) := by
  decide +kernel

def orderedSymbols : List UInt8 := orderedTable.map (·.1)

theorem mem_ordered_table {row : UInt8 × Nat × Nat} :
    row ∈ orderedTable ↔ row ∈ huffmanTable := by
  unfold orderedTable
  exact List.mem_insertionSort _

theorem mem_ordered_symbols (symbol : UInt8) : symbol ∈ orderedSymbols :=
  List.mem_map.mpr ⟨_, mem_ordered_table.mpr (table_row symbol), rfl⟩

theorem ordered_symbols_tiles :
    Tiles 0 (2 ^ 30 - 1) (orderedSymbols.map (interval 30 hfCode hfCodeLen)) := by
  have same : orderedSymbols.map (interval 30 hfCode hfCodeLen) =
      orderedTable.map (interval 30 (fun row => row.2.1) fun row => row.2.2) := by
    rw [orderedSymbols, List.map_map]
    apply List.map_congr_left
    intro row member
    rw [table_row_eq (mem_ordered_table.mp member)]
    rfl
  rw [same]
  exact ordered_table_tiles

theorem code_prefix_free : PrefixFree codeBits := by
  unfold codeBits
  exact tiles_prefix_free hf_code_fits mem_ordered_symbols ordered_symbols_tiles

def eosBits : List Bool := List.replicate 30 true

theorem eos_stuck : Stuck codeBits eosBits := by
  intro symbol starts
  have ones : eosBits = natBits 30 (2 ^ 30 - 1) := (nat_bits_ones (Nat.le_refl 30)).symm
  rw [ones] at starts
  have below := tiles_word_lt hf_code_fits mem_ordered_symbols ordered_symbols_tiles
    (by decide) starts
  exact absurd below (Nat.lt_irrefl _)

/-- Thirty bits start with the code of a symbol or are the code of EOS. -/
theorem code_or_eos {bits : List Bool} (whole : bits.length = 30) :
    (∃ symbol, codeBits symbol <+: bits) ∨ bits = eosBits := by
  by_cases below : ofBits bits < 2 ^ 30 - 1
  · exact .inl (tiles_complete hf_code_fits ordered_symbols_tiles whole below)
  · right
    have bound := of_bits_lt bits
    rw [whole] at bound
    have value : ofBits bits = 2 ^ 30 - 1 := by omega
    have back := nat_bits_of_bits bits
    rw [whole, value, nat_bits_ones (Nat.le_refl 30)] at back
    exact back.symm

theorem sibling_within_byte (symbol : UInt8) (bytes : Nat) (more : 8 * bytes < hfCodeLen symbol) :
    ∃ sibling, 8 * bytes < hfCodeLen sibling ∧ hfCodeLen sibling ≤ 8 * bytes + 8 ∧
      hfCode sibling / 2 ^ (hfCodeLen sibling - 8 * bytes) =
        hfCode symbol / 2 ^ (hfCodeLen symbol - 8 * bytes) := by
  have checked : ∀ row ∈ huffmanTable, ∀ bytes ∈ [0, 1, 2, 3], 8 * bytes < row.2.2 →
      ∃ sibling ∈ huffmanTable, 8 * bytes < sibling.2.2 ∧ sibling.2.2 ≤ 8 * bytes + 8 ∧
        sibling.2.1 / 2 ^ (sibling.2.2 - 8 * bytes) = row.2.1 / 2 ^ (row.2.2 - 8 * bytes) := by
    decide +kernel
  have few : bytes ∈ [0, 1, 2, 3] := by
    have bounds := hf_code_bounds symbol
    simp only [List.mem_cons, List.not_mem_nil, or_false]
    omega
  obtain ⟨row, member, found⟩ := checked _ (table_row symbol) bytes few more
  rw [table_row_eq member] at found
  exact ⟨row.1, found⟩

/-- The codes that share their first bytes with a longer one: one of them ends within the
next byte. -/
theorem sibling_bits {symbol : UInt8} {path : List Bool} {bytes : Nat}
    (starts : path <+: codeBits symbol) (whole : path.length = 8 * bytes)
    (more : path.length < hfCodeLen symbol) :
    ∃ sibling, path <+: codeBits sibling ∧ path.length < hfCodeLen sibling ∧
      hfCodeLen sibling ≤ path.length + 8 := by
  rw [whole] at more
  obtain ⟨sibling, longer, near, same⟩ := sibling_within_byte symbol bytes more
  have cut (other : UInt8) (inside : 8 * bytes < hfCodeLen other) :
      (codeBits other).take (8 * bytes) =
        natBits (8 * bytes) (hfCode other / 2 ^ (hfCodeLen other - 8 * bytes)) := by
    have split := nat_bits_add (8 * bytes) (hfCodeLen other - 8 * bytes) (hfCode other)
    rw [Nat.add_sub_cancel' (Nat.le_of_lt inside)] at split
    rw [codeBits, split, List.take_left' (nat_bits_length _ _)]
  refine ⟨sibling, ?_, by rwa [whole], by rwa [whole]⟩
  rw [List.prefix_iff_eq_take, whole] at starts ⊢
  rw [starts, cut symbol more, cut sibling longer, same]

end ChatServer.Http2
