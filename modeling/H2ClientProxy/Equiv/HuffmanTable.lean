import H2ClientProxy.Lib.Bits
import H2ClientProxy.Lib.PrefixCode
import H2ClientProxy.Nghttp2.Huffman
import Mathlib.Data.List.Basic

/-!
# The tables of the Huffman code

`huff_sym_table` is a prefix code, and `huff_decode_table` is an automaton for it.

* `huffTree`: the code as a tree; `symOk` compares it with `huff_sym_table`.
* `huffPath`: the bits that a state stands for; `stateOk` compares them with the entries of
  `huff_decode_table`.
* `huffAutomaton`: the automaton.
-/

namespace H2ClientProxy.Nghttp2

open PrefixCode PrefixCode.CodeTree

/-! ### The code -/

/-- The bits of a code. -/
def HuffSym.bits (sym : HuffSym) : List Bool := Bits.ofNat sym.nbits sym.code

/-- The code of a byte. -/
def huffCode (c : UInt8) : List Bool := (huffSym c.toNat).bits

/-- The code of the end of a string. -/
def eosCode : List Bool := (huffSym 256).bits

/-- The code as a tree. -/
def huffTree : CodeTree UInt8 :=
  node (node (node (node (node (leaf 48) (leaf 49)) (node (leaf 50) (leaf 97))) (node (node (leaf
  99) (leaf 101)) (node (leaf 105) (leaf 111)))) (node (node (node (leaf 115) (leaf 116)) (node
  (node (leaf 32) (leaf 37)) (node (leaf 45) (leaf 46)))) (node (node (node (leaf 47) (leaf 51))
  (node (leaf 52) (leaf 53))) (node (node (leaf 54) (leaf 55)) (node (leaf 56) (leaf 57)))))) (node
  (node (node (node (node (leaf 61) (leaf 65)) (node (leaf 95) (leaf 98))) (node (node (leaf 100)
  (leaf 102)) (node (leaf 103) (leaf 104)))) (node (node (node (leaf 108) (leaf 109)) (node (leaf
  110) (leaf 112))) (node (node (leaf 114) (leaf 117)) (node (node (leaf 58) (leaf 66)) (node (leaf
  67) (leaf 68)))))) (node (node (node (node (node (leaf 69) (leaf 70)) (node (leaf 71) (leaf 72)))
  (node (node (leaf 73) (leaf 74)) (node (leaf 75) (leaf 76)))) (node (node (node (leaf 77) (leaf
  78)) (node (leaf 79) (leaf 80))) (node (node (leaf 81) (leaf 82)) (node (leaf 83) (leaf 84)))))
  (node (node (node (node (leaf 85) (leaf 86)) (node (leaf 87) (leaf 89))) (node (node (leaf 106)
  (leaf 107)) (node (leaf 113) (leaf 118)))) (node (node (node (leaf 119) (leaf 120)) (node (leaf
  121) (leaf 122))) (node (node (node (leaf 38) (leaf 42)) (node (leaf 44) (leaf 59))) (node (node
  (leaf 88) (leaf 90)) (node (node (node (leaf 33) (leaf 34)) (node (leaf 40) (leaf 41))) (node
  (node (leaf 63) (node (leaf 39) (leaf 43))) (node (node (leaf 124) (node (leaf 35) (leaf 62)))
  (node (node (node (leaf 0) (leaf 36)) (node (leaf 64) (leaf 91))) (node (node (leaf 93) (leaf
  126)) (node (node (leaf 94) (leaf 125)) (node (node (leaf 60) (leaf 96)) (node (leaf 123) (node
  (node (node (node (leaf 92) (leaf 195)) (node (leaf 208) (node (leaf 128) (leaf 130)))) (node
  (node (node (leaf 131) (leaf 162)) (node (leaf 184) (leaf 194))) (node (node (leaf 224) (leaf
  226)) (node (node (leaf 153) (leaf 161)) (node (leaf 167) (leaf 172)))))) (node (node (node (node
  (node (leaf 176) (leaf 177)) (node (leaf 179) (leaf 209))) (node (node (leaf 216) (leaf 217))
  (node (leaf 227) (leaf 229)))) (node (node (node (leaf 230) (node (leaf 129) (leaf 132))) (node
  (node (leaf 133) (leaf 134)) (node (leaf 136) (leaf 146)))) (node (node (node (leaf 154) (leaf
  156)) (node (leaf 160) (leaf 163))) (node (node (leaf 164) (leaf 169)) (node (leaf 170) (leaf
  173)))))) (node (node (node (node (node (leaf 178) (leaf 181)) (node (leaf 185) (leaf 186)))
  (node (node (leaf 187) (leaf 189)) (node (leaf 190) (leaf 196)))) (node (node (node (leaf 198)
  (leaf 228)) (node (leaf 232) (leaf 233))) (node (node (node (leaf 1) (leaf 135)) (node (leaf 137)
  (leaf 138))) (node (node (leaf 139) (leaf 140)) (node (leaf 141) (leaf 143)))))) (node (node
  (node (node (node (leaf 147) (leaf 149)) (node (leaf 150) (leaf 151))) (node (node (leaf 152)
  (leaf 155)) (node (leaf 157) (leaf 158)))) (node (node (node (leaf 165) (leaf 166)) (node (leaf
  168) (leaf 174))) (node (node (leaf 175) (leaf 180)) (node (leaf 182) (leaf 183))))) (node (node
  (node (node (leaf 188) (leaf 191)) (node (leaf 197) (leaf 231))) (node (node (leaf 239) (node
  (leaf 9) (leaf 142))) (node (node (leaf 144) (leaf 145)) (node (leaf 148) (leaf 159))))) (node
  (node (node (node (leaf 171) (leaf 206)) (node (leaf 215) (leaf 225))) (node (node (leaf 236)
  (leaf 237)) (node (node (leaf 199) (leaf 207)) (node (leaf 234) (leaf 235))))) (node (node (node
  (node (node (leaf 192) (leaf 193)) (node (leaf 200) (leaf 201))) (node (node (leaf 202) (leaf
  205)) (node (leaf 210) (leaf 213)))) (node (node (node (leaf 218) (leaf 219)) (node (leaf 238)
  (leaf 240))) (node (node (leaf 242) (leaf 243)) (node (leaf 255) (node (leaf 203) (leaf 204))))))
  (node (node (node (node (node (leaf 211) (leaf 212)) (node (leaf 214) (leaf 221))) (node (node
  (leaf 222) (leaf 223)) (node (leaf 241) (leaf 244)))) (node (node (node (leaf 245) (leaf 246))
  (node (leaf 247) (leaf 248))) (node (node (leaf 250) (leaf 251)) (node (leaf 252) (leaf 253)))))
  (node (node (node (node (leaf 254) (node (leaf 2) (leaf 3))) (node (node (leaf 4) (leaf 5)) (node
  (leaf 6) (leaf 7)))) (node (node (node (leaf 8) (leaf 11)) (node (leaf 12) (leaf 14))) (node
  (node (leaf 15) (leaf 16)) (node (leaf 17) (leaf 18))))) (node (node (node (node (leaf 19) (leaf
  20)) (node (leaf 21) (leaf 23))) (node (node (leaf 24) (leaf 25)) (node (leaf 26) (leaf 27))))
  (node (node (node (leaf 28) (leaf 29)) (node (leaf 30) (leaf 31))) (node (node (leaf 127) (leaf
  220)) (node (leaf 249) (node (node (leaf 10) (leaf 13)) (node (leaf 22)
  stop)))))))))))))))))))))))))))))

/-- The code leads to the leaf for the byte `i`, or to the one for the end. -/
def leafOk (i : ℕ) (sym : ℕ × ℕ) : Bool :=
  match huffTree.walk (Bits.ofNat sym.1 sym.2) with
  | some (leaf c) => c.toNat == i
  | some stop => i == 256
  | _ => false

theorem of_zipIdx_all {α : Type} {l : List α} {f : α × ℕ → Bool} (h : l.zipIdx.all f = true) {i : ℕ}
    (hi : i < l.length) (d : α) : f (l.getD i d, i) = true := by
  apply List.all_eq_true.mp h
  rw [List.mk_mem_zipIdx_iff_getElem?, List.getD_eq_getElem?_getD, List.getElem?_eq_getElem hi]
  rfl

/-! ### The states -/

/-- For each state how many bits have been read, with two digits, and these bits, with eight. -/
def huffPaths : List ℕ :=
  [0x00000000000100000000020000000003000000000400000000040000000103000000010400000002,
   0x04000000030200000001030000000204000000040400000005050000000a050000000b0300000003,
   0x0400000006050000000c050000000d0400000007050000000e050000000f01000000010200000002,
   0x03000000040400000008050000001005000000110400000009050000001205000000130300000005,
   0x040000000a05000000140500000015040000000b05000000160500000017060000002e060000002f,
   0x02000000030300000006040000000c05000000180600000030060000003105000000190600000032,
   0x0600000033040000000d050000001a06000000340600000035050000001b06000000360600000037,
   0x0300000007040000000e050000001c06000000380600000039050000001d060000003a060000003b,
   0x040000000f050000001e060000003c060000003d050000001f060000003e070000007c070000007d,
   0x060000003f070000007e070000007f08000000fe09000001fc09000001fd08000000ff09000001fe,
   0x0a000003fd09000001ff0a000003fe0b000007fd0a000003ff0b000007fe0c00000ffc0c00000ffd,
   0x0b000007ff0c00000ffe0c00000fff0d00001ffe0d00001fff0e00003ffe0e00003fff0f00007fff,
   0x100000fffe110001fffc120003fff8120003fff9130007fff3110001fffd120003fffa130007fff4,
   0x130007fff5120003fffb130007fff6130007fff714000fffee14000fffef100000ffff110001fffe,
   0x120003fffc130007fff814000ffff014000ffff1130007fff914000ffff214000ffff3120003fffd,
   0x130007fffa14000ffff415001fffe914000ffff515001fffea15001fffeb130007fffb14000ffff6,
   0x15001fffec15001fffed14000ffff715001fffee15001fffef110001ffff120003fffe130007fffc,
   0x14000ffff815001ffff015001ffff114000ffff915001ffff215001ffff3130007fffd14000ffffa,
   0x15001ffff415001ffff514000ffffb15001ffff616003fffec16003fffed15001ffff716003fffee,
   0x16003fffef120003ffff130007fffe14000ffffc15001ffff816003ffff016003ffff115001ffff9,
   0x16003ffff216003ffff314000ffffd15001ffffa16003ffff416003ffff515001ffffb16003ffff6,
   0x16003ffff7130007ffff14000ffffe15001ffffc16003ffff816003ffff915001ffffd16003ffffa,
   0x17007ffff516003ffffb17007ffff617007ffff714000fffff15001ffffe16003ffffc17007ffff8,
   0x17007ffff916003ffffd17007ffffa17007ffffb1800fffff61800fffff715001fffff16003ffffe,
   0x17007ffffc1800fffff81901fffff01901fffff11800fffff91901fffff21901fffff317007ffffd,
   0x1800fffffa1901fffff41901fffff51800fffffb1901fffff61901fffff71a03ffffef16003fffff,
   0x17007ffffe1800fffffc1901fffff81a03fffff01a03fffff11901fffff91a03fffff21a03fffff3,
   0x1800fffffd1901fffffa1a03fffff41a03fffff51901fffffb1a03fffff61a03fffff717007fffff,
   0x1800fffffe1901fffffc1a03fffff81b07fffff11a03fffff91b07fffff21b07fffff31901fffffd,
   0x1a03fffffa1b07fffff41b07fffff51a03fffffb1b07fffff61b07fffff71800ffffff1901fffffe,
   0x1a03fffffc1b07fffff81b07fffff91a03fffffd1b07fffffa1b07fffffb1901ffffff1a03fffffe,
   0x1b07fffffc1b07fffffd1a03ffffff1b07fffffe1b07ffffff1c0fffffff1d1ffffffe1d1fffffff]

/-- `huff_sym_table` in the same form. -/
def huffCodes : List ℕ :=
  [0x0d00001ff817007fffd81c0fffffe21c0fffffe31c0fffffe41c0fffffe51c0fffffe61c0fffffe7,
   0x1c0fffffe81800ffffea1e3ffffffc1c0fffffe91c0fffffea1e3ffffffd1c0fffffeb1c0fffffec,
   0x1c0fffffed1c0fffffee1c0fffffef1c0ffffff01c0ffffff11c0ffffff21e3ffffffe1c0ffffff3,
   0x1c0ffffff41c0ffffff51c0ffffff61c0ffffff71c0ffffff81c0ffffff91c0ffffffa1c0ffffffb,
   0x06000000140a000003f80a000003f90c00000ffa0d00001ff9060000001508000000f80b000007fa,
   0x0a000003fa0a000003fb08000000f90b000007fb08000000fa060000001606000000170600000018,
   0x0500000000050000000105000000020600000019060000001a060000001b060000001c060000001d,
   0x060000001e060000001f070000005c08000000fb0f00007ffc06000000200c00000ffb0a000003fc,
   0x0d00001ffa0600000021070000005d070000005e070000005f070000006007000000610700000062,
   0x0700000063070000006407000000650700000066070000006707000000680700000069070000006a,
   0x070000006b070000006c070000006d070000006e070000006f070000007007000000710700000072,
   0x08000000fc070000007308000000fd0d00001ffb130007fff00d00001ffc0e00003ffc0600000022,
   0x0f00007ffd0500000003060000002305000000040600000024050000000506000000250600000026,
   0x060000002705000000060700000074070000007506000000280600000029060000002a0500000007,
   0x060000002b0700000076060000002c05000000080500000009060000002d07000000770700000078,
   0x0700000079070000007a070000007b0f00007ffe0b000007fc0e00003ffd0d00001ffd1c0ffffffc,
   0x14000fffe616003fffd214000fffe714000fffe816003fffd316003fffd416003fffd517007fffd9,
   0x16003fffd617007fffda17007fffdb17007fffdc17007fffdd17007fffde1800ffffeb17007fffdf,
   0x1800ffffec1800ffffed16003fffd717007fffe01800ffffee17007fffe117007fffe217007fffe3,
   0x17007fffe415001fffdc16003fffd817007fffe516003fffd917007fffe617007fffe71800ffffef,
   0x16003fffda15001fffdd14000fffe916003fffdb16003fffdc17007fffe817007fffe915001fffde,
   0x17007fffea16003fffdd16003fffde1800fffff015001fffdf16003fffdf17007fffeb17007fffec,
   0x15001fffe015001fffe116003fffe015001fffe217007fffed16003fffe117007fffee17007fffef,
   0x14000fffea16003fffe216003fffe316003fffe417007ffff016003fffe516003fffe617007ffff1,
   0x1a03ffffe01a03ffffe114000fffeb130007fff116003fffe717007ffff216003fffe81901ffffec,
   0x1a03ffffe21a03ffffe31a03ffffe41b07ffffde1b07ffffdf1a03ffffe51800fffff11901ffffed,
   0x130007fff215001fffe31a03ffffe61b07ffffe01b07ffffe11a03ffffe71b07ffffe21800fffff2,
   0x15001fffe415001fffe51a03ffffe81a03ffffe91c0ffffffd1b07ffffe31b07ffffe41b07ffffe5,
   0x14000fffec1800fffff314000fffed15001fffe616003fffe915001fffe715001fffe817007ffff3,
   0x16003fffea16003fffeb1901ffffee1901ffffef1800fffff41800fffff51a03ffffea17007ffff4,
   0x1a03ffffeb1b07ffffe61a03ffffec1a03ffffed1b07ffffe71b07ffffe81b07ffffe91b07ffffea,
   0x1b07ffffeb1c0ffffffe1b07ffffec1b07ffffed1b07ffffee1b07ffffef1b07fffff01a03ffffee,
   0x1e3fffffff0000000000000000000000000000000000000000000000000000000000000000000000]

/-- An entry of these lists. -/
def unpack (rows : List ℕ) (i : ℕ) : ℕ := rows.getD (i / 8) 0 >>> (40 * (7 - i % 8)) % 2 ^ 40

/-- The bits that have been read of the next code in a state. -/
def huffPath (state : ℕ) : List Bool :=
  Bits.ofNat (unpack huffPaths state / 2 ^ 32) (unpack huffPaths state % 2 ^ 32)

/-- The next state stands for the `n` bits `v`. -/
def pathIs (state n v : ℕ) : Bool :=
  unpack huffPaths state / 2 ^ 32 == n && unpack huffPaths state % 2 ^ 32 == v

/-- The step completes a code, and the next state stands for what has been read behind it; or it stands
for all that has been read. -/
def stepTo (n v : ℕ) (sym : Option UInt8) (state : ℕ) : Bool :=
  match sym with
  | some c =>
    let k := unpack huffCodes c.toNat / 2 ^ 32
    decide (k ≤ n) && v >>> (n - k) == unpack huffCodes c.toNat % 2 ^ 32 &&
      pathIs state (n - k) (v % 2 ^ (n - k))
  | none => pathIs state n v

/-- The state stands for at most seven bits, which are all set. -/
def mayEnd (state : ℕ) : Bool :=
  decide (unpack huffPaths state / 2 ^ 32 < 8) &&
    unpack huffPaths state % 2 ^ 32 == 2 ^ (unpack huffPaths state / 2 ^ 32) - 1

/-- An entry of `huff_decode_table` is as it should be. -/
def stepOk (state block : ℕ) (t : HuffDecode) : Bool :=
  let n := unpack huffPaths state / 2 ^ 32 + 4
  let v := unpack huffPaths state % 2 ^ 32 * 2 ^ 4 + block
  if t.fail then decide (30 ≤ n) && v >>> (n - 30) == 2 ^ 30 - 1
  else stepTo n v t.sym t.state && t.accepted == mayEnd t.state

/-- A state is a node of the tree. -/
def isNode (state : ℕ) : Bool :=
  match huffTree.walk (huffPath state) with
  | some (node _ _) => true
  | _ => false

/-! ### The checks -/

/-- A code leads to its leaf, has at most thirty bits and fits into them, and is in the list above. -/
def symOk (i : ℕ) (sym : ℕ × ℕ) : Bool :=
  leafOk i sym && decide (0 < sym.1 ∧ sym.1 ≤ 30 ∧ sym.2 < 2 ^ sym.1) &&
    (unpack huffCodes i / 2 ^ 32 == sym.1 && unpack huffCodes i % 2 ^ 32 == sym.2)

/-- A state is a node, its bits fit into their number, and its entries are as they should be. -/
def stateOk (state row : ℕ) : Bool :=
  isNode state && decide (unpack huffPaths state % 2 ^ 32 < 2 ^ (unpack huffPaths state / 2 ^ 32)) &&
    (List.range 16).all fun x => stepOk state x (.ofDigits (row >>> (24 * (15 - x))))

/-- The tables are evaluated here, and nowhere else. -/
theorem tables_all :
    huffSymTable.length = 257 ∧ huffDecodeTable.length = 256 ∧ huffSym 256 = ⟨30, 2 ^ 30 - 1⟩ ∧
      huffPath 0 = [] ∧ huffSymTable.zipIdx.all (fun r => symOk r.2 r.1) = true ∧
      huffDecodeTable.zipIdx.all (fun r => stateOk r.2 r.1) = true := by
  decide +kernel

theorem length_huffSymTable : huffSymTable.length = 257 := tables_all.1

theorem length_huffDecodeTable : huffDecodeTable.length = 256 := tables_all.2.1

/-- The code of the end of a string is all ones. -/
theorem huffSym_eos : huffSym 256 = ⟨30, 2 ^ 30 - 1⟩ := tables_all.2.2.1

/-- Nothing has been read in the first state. -/
theorem huffPath_zero : huffPath 0 = [] := tables_all.2.2.2.1

theorem symOk_huffSym {i : ℕ} (hi : i < 257) : symOk i ((huffSym i).nbits, (huffSym i).code) = true :=
  of_zipIdx_all tables_all.2.2.2.2.1 (hi.trans_eq length_huffSymTable.symm) (0, 0)

theorem stateOk_huffDecode {s : ℕ} (hs : s < 256) : stateOk s (huffDecodeTable.getD s 0) = true :=
  of_zipIdx_all tables_all.2.2.2.2.2 (hs.trans_eq length_huffDecodeTable.symm) 0

theorem leafOk_huffSym {i : ℕ} (hi : i < 257) : leafOk i ((huffSym i).nbits, (huffSym i).code) = true := by
  have h := symOk_huffSym hi
  rw [symOk, Bool.and_eq_true, Bool.and_eq_true] at h
  exact h.1.1

/-- A code has at most thirty bits, and fits into them. -/
theorem huffSym_ok {i : ℕ} (hi : i < 257) :
    0 < (huffSym i).nbits ∧ (huffSym i).nbits ≤ 30 ∧ (huffSym i).code < 2 ^ (huffSym i).nbits := by
  have h := symOk_huffSym hi
  rw [symOk, Bool.and_eq_true, Bool.and_eq_true] at h
  exact of_decide_eq_true h.1.2

theorem walk_huffCode (c : UInt8) : huffTree.walk (huffCode c) = some (leaf c) := by
  have h := leafOk_huffSym (i := c.toNat) (c.toNat_lt.trans (by decide))
  unfold leafOk at h
  rw [huffCode, HuffSym.bits]
  split at h
  · next d hd =>
    rw [hd, UInt8.toNat_inj.mp (eq_of_beq h)]
  · have hlt := c.toNat_lt
    have heq := eq_of_beq h
    omega
  · exact absurd h Bool.false_ne_true

theorem walk_eosCode : huffTree.walk eosCode = some stop := by
  have h := leafOk_huffSym (i := 256) (by decide)
  unfold leafOk at h
  rw [eosCode, HuffSym.bits]
  split at h
  · next d hd =>
    have hlt := d.toNat_lt
    have heq := eq_of_beq h
    omega
  · next hd => exact hd
  · exact absurd h Bool.false_ne_true

theorem isPrefixCode_huffCode : IsPrefixCode huffCode :=
  CodeTree.isPrefixCode walk_huffCode

theorem noSymbol_of_eosCode {p : List Bool} (hp : eosCode <+: p) : NoSymbol huffCode p :=
  noSymbol_of_eos walk_huffCode walk_eosCode hp

theorem eosCode_eq : eosCode = List.replicate 30 true := by
  rw [eosCode, huffSym_eos, HuffSym.bits, Bits.ofNat_ones]

/-! ### The automaton -/

theorem huffCodes_eq (c : UInt8) : unpack huffCodes c.toNat / 2 ^ 32 = (huffSym c.toNat).nbits ∧
    unpack huffCodes c.toNat % 2 ^ 32 = (huffSym c.toNat).code := by
  have h := symOk_huffSym (c.toNat_lt.trans (by decide))
  rw [symOk, Bool.and_eq_true, Bool.and_eq_true, Bool.and_eq_true, beq_iff_eq, beq_iff_eq] at h
  exact h.2

theorem stepOk_huffDecode {s x : ℕ} (hs : s < 256) (hx : x < 16) : stepOk s x (huffDecode s x) = true := by
  have h := stateOk_huffDecode hs
  rw [stateOk, Bool.and_eq_true] at h
  exact List.all_eq_true.mp h.2 x (List.mem_range.mpr hx)

theorem huffPath_noSymbol {s : ℕ} (hs : s < 256) : NoSymbol huffCode (huffPath s) := by
  have h := stateOk_huffDecode hs
  rw [stateOk, Bool.and_eq_true, Bool.and_eq_true] at h
  have hnode := h.1.1
  unfold isNode at hnode
  split at hnode
  · next zero one hp => exact noSymbol_of_node walk_huffCode hp
  · exact absurd hnode Bool.false_ne_true

/-- The bits of a state fit into their number. -/
theorem huffPaths_fit {s : ℕ} (hs : s < 256) :
    unpack huffPaths s % 2 ^ 32 < 2 ^ (unpack huffPaths s / 2 ^ 32) := by
  have h := stateOk_huffDecode hs
  rw [stateOk, Bool.and_eq_true, Bool.and_eq_true] at h
  exact of_decide_eq_true h.1.2

theorem state_lt (s x : ℕ) : (huffDecode s x).state < 256 :=
  Nat.mod_lt _ (by decide)

/-- The bits that have been read when a block of four follows. -/
theorem huffPath_block {s x : ℕ} (hx : x < 16) :
    huffPath s ++ Bits.ofNat 4 x =
      Bits.ofNat (unpack huffPaths s / 2 ^ 32 + 4) (unpack huffPaths s % 2 ^ 32 * 2 ^ 4 + x) := by
  have hhigh : (unpack huffPaths s % 2 ^ 32 * 2 ^ 4 + x) >>> 4 = unpack huffPaths s % 2 ^ 32 := by
    rw [Nat.shiftRight_eq_div_pow]
    omega
  have hlow : Bits.ofNat 4 (unpack huffPaths s % 2 ^ 32 * 2 ^ 4 + x) = Bits.ofNat 4 x := by
    rw [← Bits.ofNat_mod le_rfl, show (unpack huffPaths s % 2 ^ 32 * 2 ^ 4 + x) % 2 ^ 4 = x by omega]
  rw [Bits.ofNat_add, hhigh, hlow, huffPath]

theorem huffPath_of_pathIs {s n v : ℕ} (h : pathIs s n v = true) : huffPath s = Bits.ofNat n v := by
  rw [pathIs, Bool.and_eq_true, beq_iff_eq, beq_iff_eq] at h
  rw [huffPath, h.1, h.2]

theorem stepTo_spec {n v state : ℕ} {sym : Option UInt8} (h : stepTo n v sym state = true) :
    Bits.ofNat n v = encode huffCode sym.toList ++ huffPath state := by
  cases sym with
  | none =>
    rw [Option.toList_none, encode_nil, List.nil_append]
    exact (huffPath_of_pathIs h).symm
  | some c =>
    obtain ⟨hn, hc⟩ := huffCodes_eq c
    rw [stepTo, hn, hc, Bool.and_eq_true, Bool.and_eq_true, decide_eq_true_iff, beq_iff_eq] at h
    obtain ⟨⟨hle, hv⟩, hp⟩ := h
    have hlen : n = (huffSym c.toNat).nbits + (n - (huffSym c.toNat).nbits) := by omega
    conv_lhs => rw [hlen, Bits.ofNat_add, hv]
    rw [huffPath_of_pathIs hp, Bits.ofNat_mod le_rfl, Option.toList_some, encode_cons, encode_nil,
      List.append_nil, huffCode, HuffSym.bits]

/-- **A step** reads four bits and completes a code at most. -/
theorem huffDecode_step {s x : ℕ} (hs : s < 256) (hx : x < 16) (hf : (huffDecode s x).fail = false) :
    huffPath s ++ Bits.ofNat 4 x =
      encode huffCode (huffDecode s x).sym.toList ++ huffPath (huffDecode s x).state := by
  have h := stepOk_huffDecode hs hx
  rw [stepOk, hf, if_neg Bool.false_ne_true, Bool.and_eq_true] at h
  rw [huffPath_block hx]
  exact stepTo_spec h.1

/-- A step fails at the code of the end. -/
theorem huffDecode_fail {s x : ℕ} (hs : s < 256) (hx : x < 16) (hf : (huffDecode s x).fail = true) :
    eosCode <+: huffPath s ++ Bits.ofNat 4 x := by
  have h := stepOk_huffDecode hs hx
  rw [stepOk, hf, if_pos rfl, Bool.and_eq_true, decide_eq_true_iff, beq_iff_eq] at h
  obtain ⟨hle, hv⟩ := h
  refine ⟨Bits.ofNat (unpack huffPaths s / 2 ^ 32 + 4 - 30) (unpack huffPaths s % 2 ^ 32 * 2 ^ 4 + x), ?_⟩
  rw [huffPath_block hx, eosCode_eq, ← Bits.ofNat_ones, ← hv, ← Bits.ofNat_add, Nat.add_sub_of_le hle]

/-- The entry is accepting if the bits that are left may fill up the last byte. -/
theorem accepted_iff {s x : ℕ} (hs : s < 256) (hx : x < 16) (hf : (huffDecode s x).fail = false) :
    (huffDecode s x).accepted = mayEnd (huffDecode s x).state := by
  have h := stepOk_huffDecode hs hx
  rw [stepOk, hf, if_neg Bool.false_ne_true, Bool.and_eq_true, beq_iff_eq] at h
  exact h.2

theorem mayEnd_iff {s : ℕ} (hs : s < 256) :
    mayEnd s = true ↔ ∃ k < 8, huffPath s = List.replicate k true := by
  rw [mayEnd, Bool.and_eq_true, decide_eq_true_iff, beq_iff_eq, huffPath]
  constructor
  · rintro ⟨hlt, hv⟩
    exact ⟨_, hlt, by rw [hv, Bits.ofNat_ones]⟩
  · rintro ⟨k, hk, h⟩
    have hlen := congrArg List.length h
    rw [Bits.length_ofNat, List.length_replicate] at hlen
    have hfits := huffPaths_fit hs
    rw [hlen] at h hfits ⊢
    refine ⟨hk, Bits.ofNat_injOn hfits (Nat.sub_lt (Nat.two_pow_pos k) Nat.one_pos) ?_⟩
    rw [h, Bits.ofNat_ones]

/-- The automaton of `huff_decode_table`. -/
def huffAutomaton : Automaton huffCode eosCode (Fin 256) (Fin 16) where
  bits := fun x => Bits.ofNat 4 x
  path := fun s => huffPath s
  step := fun s x =>
    if (huffDecode s x).fail then none
    else some ((huffDecode s x).sym, ⟨(huffDecode s x).state, state_lt s x⟩)
  path_noSymbol := fun s => huffPath_noSymbol s.isLt
  step_some := fun {s x o s'} h => by
    split_ifs at h with hf
    obtain ⟨rfl, rfl⟩ := Prod.mk.inj (Option.some.inj h)
    exact huffDecode_step s.isLt x.isLt (Bool.eq_false_iff.mpr hf)
  step_none := fun {s x} h => by
    split_ifs at h with hf
    exact huffDecode_fail s.isLt x.isLt hf

end H2ClientProxy.Nghttp2
