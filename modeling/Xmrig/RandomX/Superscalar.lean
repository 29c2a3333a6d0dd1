import Xmrig.Foundation.Vex
import Xmrig.RandomX.Bytecode
import Xmrig.RandomX.Reciprocal
import Mathlib.Data.Fintype.Fin
import Mathlib.Data.Nat.Size
import Mathlib.Tactic.FinCases
import Mathlib.Tactic.Ring

/-! Superscalar programs and the AVX2 code generated for them.

`executeSuperscalar` gives the meaning of a superscalar instruction on eight
registers. `generateSuperscalarCode<true>` emits code for the integer
registers and, after it, a vector sequence that does the same to four lanes
held in `ymm0` to `ymm7`. The sequences are byte templates patched with
multiples of the register numbers; here they are decoded again and run.
-/

set_option autoImplicit false

namespace Xmrig.RandomX

open Foundation

inductive SuperscalarType where
  | isubR | ixorR | iaddRs | imulR | irorC
  | iaddC7 | ixorC7 | iaddC8 | ixorC8 | iaddC9 | ixorC9
  | imulhR | ismulhR | imulRcp
  deriving DecidableEq, Repr

/-- A superscalar instruction: the generator picks both registers below eight. -/
structure SuperscalarInstruction where
  type : SuperscalarType
  dst : Fin 8
  src : Fin 8
  mod : BitVec 8
  imm32 : BitVec 32
  deriving DecidableEq, Repr

def SuperscalarInstruction.getModShift (instr : SuperscalarInstruction) : Nat :=
  ((instr.mod >>> 2) &&& 3).toNat

/-- The new value of `r[dst]` in `executeSuperscalar`. -/
def superscalarResult (instr : SuperscalarInstruction) (dst src : BitVec 64) : BitVec 64 :=
  match instr.type with
  | .isubR => dst - src
  | .ixorR => dst ^^^ src
  | .iaddRs => dst + src <<< instr.getModShift
  | .imulR => dst * src
  | .irorC => dst.rotateRight instr.imm32.toNat
  | .iaddC7 | .iaddC8 | .iaddC9 => dst + signExtend2sCompl instr.imm32
  | .ixorC7 | .ixorC8 | .ixorC9 => dst ^^^ signExtend2sCompl instr.imm32
  | .imulhR => mulh dst src
  | .ismulhR => smulh dst src
  | .imulRcp => dst * reciprocal (instr.imm32.setWidth 64)

def executeSuperscalar (r : Fin 8 → BitVec 64) : List SuperscalarInstruction → Fin 8 → BitVec 64
  | [] => r
  | instr :: rest =>
      executeSuperscalar
        (Function.update r instr.dst (superscalarResult instr (r instr.dst) (r instr.src))) rest

section Reciprocal

/-- `randomx_reciprocal_fast`: `2^bsr` in the upper half of the dividend. The generator draws the
constants of IMUL_RCP until they are neither 0 nor a power of two, so that `div` does not
overflow. -/
def reciprocalFast (divisor : BitVec 64) : BitVec 64 :=
  BitVec.ofNat 64 ((2 ^ divisor.toNat.log2 * 2 ^ 64) / divisor.toNat)

theorem reciprocalFast_eq (divisor : BitVec 32) :
    reciprocalFast (divisor.setWidth 64) = reciprocal (divisor.setWidth 64) := by
  by_cases zero : divisor = 0
  · rw [zero]
    decide
  · have value : (divisor.setWidth 64).toNat = divisor.toNat :=
      BitVec.toNat_setWidth_of_le (by decide)
    have positive : 0 < divisor.toNat := by
      rw [Nat.pos_iff_ne_zero]
      intro none
      exact zero (BitVec.eq_of_toNat_eq none)
    generalize d : divisor.toNat = n at value positive
    have size : n.size = n.log2 + 1 := by
      apply Nat.le_antisymm
      · exact Nat.size_le.mpr Nat.lt_log2_self
      · exact Nat.lt_size.mpr (Nat.log2_self_le positive.ne')
    have dividend : 2 ^ (63 + (n.log2 + 1)) = 2 ^ n.log2 * 2 ^ 64 := by
      rw [← pow_add]
      congr 1
      omega
    apply BitVec.eq_of_toNat_eq
    rw [reciprocal_toNat (value ▸ positive), reciprocalFast, BitVec.toNat_ofNat, value, size, dividend]

end Reciprocal

section Emit

/-- `emit32` of a word, or of its first `count` bytes. -/
def wordBytes (word : BitVec 32) (count : Nat) : List (BitVec 8) :=
  [word.setWidth 8, (word >>> 8).setWidth 8, (word >>> 16).setWidth 8,
    (word >>> 24).setWidth 8].take count

def quadBytes (quad : BitVec 64) : List (BitVec 8) :=
  [quad.extractLsb' 0 8, quad.extractLsb' 8 8, quad.extractLsb' 16 8, quad.extractLsb' 24 8,
    quad.extractLsb' 32 8, quad.extractLsb' 40 8, quad.extractLsb' 48 8, quad.extractLsb' 56 8]

/-- `p[index] += delta`. -/
def patch (index : Nat) (delta : BitVec 8) (code : List (BitVec 8)) : List (BitVec 8) :=
  code.modify index (· + delta)

def reg32 (index : Fin 8) : BitVec 32 := BitVec.ofNat 32 index.val
def reg8 (index : Fin 8) : BitVec 8 := BitVec.ofNat 8 index.val

def genSIB (scale : Nat) (index base : Fin 8) : BitVec 32 :=
  (BitVec.ofNat 32 scale <<< 6) ||| (reg32 index <<< 3) ||| reg32 base

variable (instr : SuperscalarInstruction)

/-- The code for the integer registers that precedes the vector sequence. The operations with
a constant have theirs inside the vector template. -/
def scalarCode : List (BitVec 8) :=
  let dst := reg32 instr.dst
  let src := reg32 instr.src
  match instr.type with
  | .isubR => wordBytes (0x00C02B4D + (dst <<< 19) + (src <<< 16)) 3
  | .ixorR => wordBytes (0x00C0334D + (dst <<< 19) + (src <<< 16)) 3
  | .iaddRs =>
      wordBytes (0x00048D4F + (dst <<< 19) +
        (genSIB instr.getModShift instr.src instr.dst <<< 24)) 4
  | .imulR => wordBytes (0xC0AF0F4D + (dst <<< 27) + (src <<< 24)) 4
  | .irorC => wordBytes (0x00C8C149 + (dst <<< 16) + ((instr.imm32 &&& 63) <<< 24)) 4
  | .iaddC7 | .iaddC8 | .iaddC9 | .ixorC7 | .ixorC8 | .ixorC9 => []
  | .imulhR =>
      wordBytes (0x00C08B49 + (dst <<< 16)) 3 ++ wordBytes (0x00E0F749 + (src <<< 16)) 3 ++
        wordBytes (0x00C28B4C + (dst <<< 19)) 3
  | .ismulhR =>
      wordBytes (0x00C08B49 + (dst <<< 16)) 3 ++ wordBytes (0x00E8F749 + (src <<< 16)) 3 ++
        wordBytes (0x00C28B4C + (dst <<< 19)) 3
  | .imulRcp =>
      wordBytes 0x0000B848 2 ++ quadBytes (reciprocalFast (instr.imm32.setWidth 64)) ++
        wordBytes (0xC0AF0F4C + (dst <<< 27)) 4

/-- `emit32(base + (src << 24) + (dst << 27) - (dst << 11))`. -/
def lanesWord (base : BitVec 32) (dst src : Fin 8) : List (BitVec 8) :=
  wordBytes (base + (reg32 src <<< 24) + (reg32 dst <<< 27) - (reg32 dst <<< 11)) 4

def iaddRsCode (dst src : Fin 8) (shift : Nat) : List (BitVec 8) :=
  [0xC5, 0xBD, 0x73, 0xF0, 0x00, 0xC5, 0xBD, 0xD4, 0xC0]
    |> patch 3 (reg8 src) |>.set 4 (BitVec.ofNat 8 shift) |> patch 8 (reg8 dst * 9)

def imulCode (dst src : Fin 8) : List (BitVec 8) :=
  [0xC5, 0xBD, 0x73, 0xD0, 0x20,
    0xC5, 0xB5, 0x73, 0xD0, 0x20,
    0xC5, 0x7D, 0xF4, 0xD0,
    0xC5, 0x35, 0xF4, 0xD8,
    0xC5, 0xBD, 0xF4, 0xC0,
    0xC4, 0xC1, 0x25, 0x73, 0xF3, 0x20,
    0xC5, 0xFD, 0x73, 0xF0, 0x20,
    0xC4, 0x41, 0x2D, 0xD4, 0xD3,
    0xC5, 0xAD, 0xD4, 0xC0]
    |> patch 3 (reg8 dst) |> patch 8 (reg8 src) |> patch 11 (-(reg8 dst * 8))
    |> patch 13 (reg8 src) |> patch 17 (reg8 dst) |> patch 21 (reg8 dst * 8 + reg8 src)
    |> patch 29 (-(reg8 dst * 8)) |> patch 31 (reg8 dst) |> patch 41 (reg8 dst * 9)

def irorCode (dst : Fin 8) (shift : Nat) : List (BitVec 8) :=
  [0xC5, 0xBD, 0x73, 0xD0, 0x00, 0xC5, 0xB5, 0x73, 0xF0, 0x00, 0xC4, 0xC1, 0x3D, 0xEB, 0xC1]
    |> patch 3 (reg8 dst) |>.set 4 (BitVec.ofNat 8 shift) |> patch 8 (reg8 dst)
    |>.set 9 (BitVec.ofNat 8 (64 - shift)) |> patch 14 (reg8 dst * 8)

/-- The operations with a constant: `mov rax, imm64`, the operation on the integer register,
the constant broadcast from the first instruction, and the operation on the lanes. -/
def constantCode (general vector : BitVec 8) (dst : Fin 8) (quad : BitVec 64) :
    List (BitVec 8) :=
  [0x48, 0xB8] ++ quadBytes quad ++
    [0x4C, general, 0xC0,
      0xC4, 0x62, 0x7D, 0x19, 0x05, 0xEC, 0xFF, 0xFF, 0xFF,
      0xC4, 0xC1, 0x7D, vector, 0xC0]
    |> patch 12 (reg8 dst * 8) |> patch 24 (-(reg8 dst * 8)) |> patch 26 (reg8 dst * 8)

def imulhCode (dst src : Fin 8) : List (BitVec 8) :=
  [0xC5, 0xBD, 0x73, 0xD0, 0x20,
    0xC5, 0xB5, 0x73, 0xD0, 0x20,
    0xC5, 0x7D, 0xF4, 0xD0,
    0xC5, 0x3D, 0xF4, 0xD8,
    0xC4, 0x41, 0x7D, 0xF4, 0xE1,
    0xC4, 0xC1, 0x3D, 0xF4, 0xC1,
    0xC4, 0xC1, 0x2D, 0x73, 0xD2, 0x20,
    0xC4, 0x41, 0x25, 0xEF, 0xC6,
    0xC4, 0x41, 0x25, 0xD4, 0xDC,
    0xC4, 0x41, 0x25, 0xD4, 0xDA,
    0xC4, 0x41, 0x25, 0xEF, 0xCE,
    0xC4, 0x42, 0x3D, 0x37, 0xC1,
    0xC4, 0x41, 0x3D, 0xDB, 0xC7,
    0xC5, 0xBD, 0xD4, 0xC0,
    0xC4, 0xC1, 0x25, 0x73, 0xD3, 0x20,
    0xC5, 0xA5, 0xD4, 0xC0]
    |> patch 3 (reg8 dst) |> patch 8 (reg8 src) |> patch 11 (-(reg8 dst * 8))
    |> patch 13 (reg8 src) |> patch 17 (reg8 src) |> patch 20 (-(reg8 dst * 8))
    |> patch 27 (reg8 dst * 8) |> patch 67 (reg8 dst * 9) |> patch 77 (reg8 dst * 9)

def ismulhCode (dst src : Fin 8) : List (BitVec 8) :=
  [0xC5, 0xBD, 0x73, 0xD0, 0x20,
    0xC5, 0xB5, 0x73, 0xD0, 0x20,
    0xC5, 0x7D, 0xF4, 0xD0,
    0xC5, 0x3D, 0xF4, 0xD8,
    0xC4, 0x41, 0x7D, 0xF4, 0xE1,
    0xC4, 0x41, 0x3D, 0xF4, 0xE9,
    0xC4, 0xC1, 0x2D, 0x73, 0xD2, 0x20,
    0xC4, 0x41, 0x25, 0xEF, 0xC6,
    0xC4, 0x41, 0x25, 0xD4, 0xDC,
    0xC4, 0x41, 0x25, 0xD4, 0xDA,
    0xC4, 0x41, 0x25, 0xEF, 0xCE,
    0xC4, 0x42, 0x3D, 0x37, 0xC1,
    0xC4, 0x41, 0x3D, 0xDB, 0xC7,
    0xC4, 0x41, 0x15, 0xD4, 0xE8,
    0xC4, 0xC1, 0x25, 0x73, 0xD3, 0x20,
    0xC4, 0x41, 0x15, 0xD4, 0xC3,
    0xC4, 0x41, 0x35, 0xEF, 0xC9,
    0xC4, 0x62, 0x35, 0x37, 0xD0,
    0xC4, 0x62, 0x35, 0x37, 0xD8,
    0xC5, 0x2D, 0xDB, 0xD0,
    0xC5, 0x25, 0xDB, 0xD8,
    0xC4, 0x41, 0x3D, 0xFB, 0xC2,
    0xC4, 0xC1, 0x3D, 0xFB, 0xC3]
    |> patch 3 (reg8 dst) |> patch 8 (reg8 src) |> patch 11 (-(reg8 dst * 8))
    |> patch 13 (reg8 src) |> patch 17 (reg8 src) |> patch 20 (-(reg8 dst * 8))
    |> patch 89 (reg8 dst) |> patch 94 (reg8 src) |> patch 98 (reg8 src)
    |> patch 102 (reg8 dst) |> patch 112 (reg8 dst * 8)

def imulRcpCode (dst : Fin 8) : List (BitVec 8) :=
  [0xC4, 0x62, 0x7D, 0x19, 0x25, 0xEB, 0xFF, 0xFF, 0xFF,
    0xC5, 0xBD, 0x73, 0xD0, 0x20,
    0xC4, 0xC1, 0x35, 0x73, 0xD4, 0x20,
    0xC4, 0x41, 0x7D, 0xF4, 0xD4,
    0xC5, 0x35, 0xF4, 0xD8,
    0xC4, 0xC1, 0x3D, 0xF4, 0xC4,
    0xC4, 0xC1, 0x25, 0x73, 0xF3, 0x20,
    0xC5, 0xFD, 0x73, 0xF0, 0x20,
    0xC4, 0x41, 0x2D, 0xD4, 0xD3,
    0xC5, 0xAD, 0xD4, 0xC0]
    |> patch 12 (reg8 dst) |> patch 22 (-(reg8 dst * 8)) |> patch 28 (reg8 dst)
    |> patch 33 (reg8 dst * 8) |> patch 41 (-(reg8 dst * 8)) |> patch 43 (reg8 dst)
    |> patch 53 (reg8 dst * 9)

/-- The bytes emitted under `if (AVX2)`. -/
def vectorCode : List (BitVec 8) :=
  match instr.type with
  | .isubR => lanesWord 0xC0FBFDC5 instr.dst instr.src
  | .ixorR => lanesWord 0xC0EFFDC5 instr.dst instr.src
  | .iaddRs =>
      if instr.getModShift ≠ 0 then iaddRsCode instr.dst instr.src instr.getModShift
      else lanesWord 0xC0D4FDC5 instr.dst instr.src
  | .imulR => imulCode instr.dst instr.src
  | .irorC => irorCode instr.dst (instr.imm32 &&& 63).toNat
  | .iaddC7 | .iaddC8 | .iaddC9 =>
      constantCode 0x03 0xD4 instr.dst (signExtend2sCompl instr.imm32)
  | .ixorC7 | .ixorC8 | .ixorC9 =>
      constantCode 0x33 0xEF instr.dst (signExtend2sCompl instr.imm32)
  | .imulhR => imulhCode instr.dst instr.src
  | .ismulhR => ismulhCode instr.dst instr.src
  | .imulRcp => imulRcpCode instr.dst

/-- `generateSuperscalarCode<true>` of one instruction. -/
def generateSuperscalarCode : List (BitVec 8) := scalarCode instr ++ vectorCode instr

def runVectorCode (ymm : VectorRegisters) : Option VectorRegisters :=
  runVectors (generateSuperscalarCode instr) (scalarCode instr).length ymm

end Emit

section Decode

/-- The vector register that holds the lanes of an integer register. -/
def ymm (index : Fin 8) : Fin 16 := Fin.castLE (by decide) index

def iaddRsOps (dst src : Fin 8) (shift : Nat) : List VectorInstr :=
  [.vpsllq 8 (ymm src) (BitVec.ofNat 8 shift), .lanes .vpaddq (ymm dst) 8 (ymm dst)]

def imulOps (dst src : Fin 8) : List VectorInstr :=
  [.vpsrlq 8 (ymm dst) 32, .vpsrlq 9 (ymm src) 32,
    .lanes .vpmuludq 10 (ymm dst) (ymm src), .lanes .vpmuludq 11 9 (ymm dst),
    .lanes .vpmuludq (ymm dst) 8 (ymm src), .vpsllq 11 11 32, .vpsllq (ymm dst) (ymm dst) 32,
    .lanes .vpaddq 10 10 11, .lanes .vpaddq (ymm dst) 10 (ymm dst)]

def irorOps (dst : Fin 8) (shift : Nat) : List VectorInstr :=
  [.vpsrlq 8 (ymm dst) (BitVec.ofNat 8 shift), .vpsllq 9 (ymm dst) (BitVec.ofNat 8 (64 - shift)),
    .lanes .vpor (ymm dst) 8 9]

def constantOps (op : LaneOp) (dst : Fin 8) : List VectorInstr :=
  [.general, .general, .vbroadcastsd 8 2, .lanes op (ymm dst) (ymm dst) 8]

/-- The partial products, the middle sum in `ymm11` and its carry in `ymm8`. -/
def middleOps (dst src high : Fin 16) : List VectorInstr :=
  [.vpsrlq 8 dst 32, .vpsrlq 9 src 32,
    .lanes .vpmuludq 10 dst src, .lanes .vpmuludq 11 8 src, .lanes .vpmuludq 12 dst 9,
    .lanes .vpmuludq high 8 9, .vpsrlq 10 10 32, .lanes .vpxor 8 11 14, .lanes .vpaddq 11 11 12,
    .lanes .vpaddq 11 11 10, .lanes .vpxor 9 11 14, .lanes .vpcmpgtq 8 8 9, .lanes .vpand 8 8 15]

def imulhOps (dst src : Fin 8) : List VectorInstr :=
  middleOps (ymm dst) (ymm src) (ymm dst) ++
    [.lanes .vpaddq (ymm dst) 8 (ymm dst), .vpsrlq 11 11 32,
      .lanes .vpaddq (ymm dst) 11 (ymm dst)]

def ismulhOps (dst src : Fin 8) : List VectorInstr :=
  middleOps (ymm dst) (ymm src) 13 ++
    [.lanes .vpaddq 13 13 8, .vpsrlq 11 11 32, .lanes .vpaddq 8 13 11, .lanes .vpxor 9 9 9,
      .lanes .vpcmpgtq 10 9 (ymm dst), .lanes .vpcmpgtq 11 9 (ymm src),
      .lanes .vpand 10 10 (ymm src), .lanes .vpand 11 11 (ymm dst), .lanes .vpsubq 8 8 10,
      .lanes .vpsubq (ymm dst) 8 11]

def imulRcpOps (dst : Fin 8) : List VectorInstr :=
  [.vbroadcastsd 12 2, .vpsrlq 8 (ymm dst) 32, .vpsrlq 9 12 32,
    .lanes .vpmuludq 10 (ymm dst) 12, .lanes .vpmuludq 11 9 (ymm dst),
    .lanes .vpmuludq (ymm dst) 8 12, .vpsllq 11 11 32, .vpsllq (ymm dst) (ymm dst) 32,
    .lanes .vpaddq 10 10 11, .lanes .vpaddq (ymm dst) 10 (ymm dst)]

theorem decode_tables :
    (∀ dst src : Fin 8, decodeVectors 7 3 (lanesWord 0xC0FBFDC5 dst src) =
      some [.lanes .vpsubq (ymm dst) (ymm dst) (ymm src)]) ∧
    (∀ dst src : Fin 8, decodeVectors 7 3 (lanesWord 0xC0EFFDC5 dst src) =
      some [.lanes .vpxor (ymm dst) (ymm dst) (ymm src)]) ∧
    (∀ dst src : Fin 8, decodeVectors 8 4 (lanesWord 0xC0D4FDC5 dst src) =
      some [.lanes .vpaddq (ymm dst) (ymm dst) (ymm src)]) ∧
    (∀ (dst src : Fin 8) (shift : Fin 4), decodeVectors 13 4 (iaddRsCode dst src shift) =
      some (iaddRsOps dst src shift)) ∧
    (∀ dst src : Fin 8, decodeVectors 46 4 (imulCode dst src) = some (imulOps dst src)) ∧
    (∀ (dst : Fin 8) (shift : Fin 64), decodeVectors 19 4 (irorCode dst shift) =
      some (irorOps dst shift)) ∧
    (∀ dst src : Fin 8, decodeVectors 87 9 (imulhCode dst src) = some (imulhOps dst src)) ∧
    (∀ dst src : Fin 8, decodeVectors 122 9 (ismulhCode dst src) = some (ismulhOps dst src)) ∧
    (∀ dst : Fin 8, decodeVectors 68 14 (imulRcpCode dst) = some (imulRcpOps dst)) := by
  refine ⟨?_, ?_, ?_, ?_, ?_, ?_, ?_, ?_, ?_⟩
  -- One register after the other keeps what the kernel evaluates small.
  all_goals
    intro dst
    fin_cases dst <;> decide +kernel

theorem decode_iaddC (quad : BitVec 64) (dst : Fin 8) :
    decodeVectors 27 0 (constantCode 0x03 0xD4 dst quad) = some (constantOps .vpaddq dst) := by
  fin_cases dst <;> rfl

theorem decode_ixorC (quad : BitVec 64) (dst : Fin 8) :
    decodeVectors 27 0 (constantCode 0x33 0xEF dst quad) = some (constantOps .vpxor dst) := by
  fin_cases dst <;> rfl

end Decode

section Execute
variable (code : List (BitVec 8)) (before : VectorRegisters)

theorem ymm_ne_scratch : ∀ index : Fin 8,
    (ymm index ≠ 8 ∧ ymm index ≠ 9 ∧ ymm index ≠ 10 ∧ ymm index ≠ 11 ∧ ymm index ≠ 12 ∧
      ymm index ≠ 13 ∧ ymm index ≠ 14 ∧ ymm index ≠ 15) ∧
    (8 ≠ ymm index ∧ 9 ≠ ymm index ∧ 10 ≠ ymm index ∧ 11 ≠ ymm index ∧ 12 ≠ ymm index ∧
      13 ≠ ymm index ∧ 14 ≠ ymm index ∧ 15 ≠ ymm index) := by
  decide

theorem ymm_lt (index : Fin 8) : ymm index < 8 := index.isLt

theorem ymm_injective : Function.Injective ymm := Fin.castLE_injective (by decide)

theorem ite_allOnes_and (condition : Bool) (mask : BitVec 64) :
    (if condition then 0xFFFFFFFFFFFFFFFF#64 else 0#64) &&& mask =
      if condition then mask else 0#64 := by
  cases condition
  · exact BitVec.zero_and
  · exact BitVec.allOnes_and

/-- The sequence runs, and leaves in every lane of the destination the given function of the
lanes of destination and source. -/
def Computes (instrs : List VectorInstr) (dst src : Fin 8)
    (result : BitVec 64 → BitVec 64 → BitVec 64) : Prop :=
  ∃ after, execVectors code instrs before = some after ∧
    ∀ lane, after (ymm dst) lane = result (before (ymm dst) lane) (before (ymm src) lane)

variable {code before}

theorem computes_of_laneAfter {instrs : List VectorInstr} {dst src : Fin 8}
    {result : BitVec 64 → BitVec 64 → BitVec 64}
    (loads : ∀ dst address, .vbroadcastsd dst address ∈ instrs → (loadQuad code address).isSome)
    (value : ∀ lane, laneAfter code before lane instrs.reverse (ymm dst) =
      result (before (ymm dst) lane) (before (ymm src) lane)) :
    Computes code before instrs dst src result := by
  obtain ⟨after, ran⟩ := execVectors_isSome loads before
  refine ⟨after, ran, fun lane => ?_⟩
  rw [laneAfter_of_exec ran, value]

theorem computes_lanes (op : LaneOp) (dst src : Fin 8) :
    Computes code before [.lanes op (ymm dst) (ymm dst) (ymm src)] dst src op.eval := by
  apply computes_of_laneAfter
  · simp
  · intro lane
    simp [laneAfter]

theorem computes_iaddRs (dst src : Fin 8) {shift : Nat} (small : shift < 4) :
    Computes code before (iaddRsOps dst src shift) dst src fun x y => x + y <<< shift := by
  have count : shift % 256 = shift := Nat.mod_eq_of_lt (by omega)
  apply computes_of_laneAfter
  · simp [iaddRsOps]
  · intro lane
    simp [iaddRsOps, laneAfter, ymm_ne_scratch, LaneOp.eval, count, BitVec.add_comm]

theorem computes_imul (dst src : Fin 8) :
    Computes code before (imulOps dst src) dst src fun x y => x * y := by
  apply computes_of_laneAfter
  · simp [imulOps]
  · intro lane
    rw [mul_eq_mulLow32]
    simp [imulOps, laneAfter, ymm_ne_scratch, LaneOp.eval]

theorem computes_iror (dst src : Fin 8) {shift : Nat} (small : shift < 64) :
    Computes code before (irorOps dst shift) dst src fun x _ => x.rotateRight shift := by
  have right : shift % 256 = shift := Nat.mod_eq_of_lt (by omega)
  have left : (64 - shift) % 256 = 64 - shift := Nat.mod_eq_of_lt (by omega)
  apply computes_of_laneAfter
  · simp [irorOps]
  · intro lane
    rw [BitVec.rotateRight_def, Nat.mod_eq_of_lt small]
    simp [irorOps, laneAfter, ymm_ne_scratch, LaneOp.eval, right, left]

theorem computes_constant (op : LaneOp) (dst src : Fin 8) {quad : BitVec 64}
    (loaded : loadQuad code 2 = some quad) :
    Computes code before (constantOps op dst) dst src fun x _ => op.eval x quad := by
  apply computes_of_laneAfter
  · simp [constantOps, loaded]
  · intro lane
    simp [constantOps, laneAfter, ymm_ne_scratch, loaded]

theorem computes_imulRcp (dst src : Fin 8) {quad : BitVec 64}
    (loaded : loadQuad code 2 = some quad) :
    Computes code before (imulRcpOps dst) dst src fun x _ => x * quad := by
  apply computes_of_laneAfter
  · simp [imulRcpOps, loaded]
  · intro lane
    rw [mul_eq_mulLow32]
    simp [imulRcpOps, laneAfter, ymm_ne_scratch, LaneOp.eval, loaded]

/-- The constants that the prologue loads into `ymm14` and `ymm15`. -/
structure Constants (registers : VectorRegisters) : Prop where
  sign : ∀ lane, registers 14 lane = 0x8000000000000000
  carry : ∀ lane, registers 15 lane = 0x100000000

theorem computes_imulh (constants : Constants before) (dst src : Fin 8) :
    Computes code before (imulhOps dst src) dst src mulh := by
  apply computes_of_laneAfter
  · simp [imulhOps, middleOps]
  · intro lane
    generalize left : before (ymm dst) lane = x
    generalize right : before (ymm src) lane = y
    calc laneAfter code before lane (imulhOps dst src).reverse (ymm dst)
        = middle x y >>> 32 + ((if middleCarry x y then (0x100000000 : BitVec 64) else 0) +
            mulLow32 (x >>> 32) (y >>> 32)) := by
          simp [imulhOps, middleOps, laneAfter, ymm_ne_scratch, LaneOp.eval, constants.sign,
            constants.carry, slt_xor_sign, ite_allOnes_and, middle, middleCarry, left, right]
          rfl
      _ = mulh x y := (mulHigh_eq x y).symm

theorem computes_ismulh (constants : Constants before) (dst src : Fin 8) :
    Computes code before (ismulhOps dst src) dst src smulh := by
  apply computes_of_laneAfter
  · simp [ismulhOps, middleOps]
  · intro lane
    generalize left : before (ymm dst) lane = x
    generalize right : before (ymm src) lane = y
    calc laneAfter code before lane (ismulhOps dst src).reverse (ymm dst)
        = mulLow32 (x >>> 32) (y >>> 32) +
            (if middleCarry x y then (0x100000000 : BitVec 64) else 0) + middle x y >>> 32 -
            (if x.msb then y else 0) - (if y.msb then x else 0) := by
          simp [ismulhOps, middleOps, laneAfter, ymm_ne_scratch, LaneOp.eval, constants.sign,
            constants.carry, slt_xor_sign, ite_allOnes_and, middle, middleCarry,
            BitVec.slt_zero_eq_msb, left, right]
          rfl
      _ = mulHigh x y - (if x.msb then y else 0) - (if y.msb then x else 0) := by
          rw [mulHigh_eq, BitVec.add_comm (middle x y >>> 32),
            BitVec.add_comm (mulLow32 (x >>> 32) (y >>> 32))]
      _ = smulh x y := (mulHighSigned_eq x y).symm

end Execute

section Sequence

def vectorOps (instr : SuperscalarInstruction) : List VectorInstr :=
  match instr.type with
  | .isubR => [.lanes .vpsubq (ymm instr.dst) (ymm instr.dst) (ymm instr.src)]
  | .ixorR => [.lanes .vpxor (ymm instr.dst) (ymm instr.dst) (ymm instr.src)]
  | .iaddRs =>
      if instr.getModShift ≠ 0 then iaddRsOps instr.dst instr.src instr.getModShift
      else [.lanes .vpaddq (ymm instr.dst) (ymm instr.dst) (ymm instr.src)]
  | .imulR => imulOps instr.dst instr.src
  | .irorC => irorOps instr.dst (instr.imm32 &&& 63).toNat
  | .iaddC7 | .iaddC8 | .iaddC9 => constantOps .vpaddq instr.dst
  | .ixorC7 | .ixorC8 | .ixorC9 => constantOps .vpxor instr.dst
  | .imulhR => imulhOps instr.dst instr.src
  | .ismulhR => ismulhOps instr.dst instr.src
  | .imulRcp => imulRcpOps instr.dst

theorem getModShift_lt (instr : SuperscalarInstruction) : instr.getModShift < 4 := by
  unfold SuperscalarInstruction.getModShift
  rw [BitVec.toNat_and]
  exact Nat.lt_of_le_of_lt Nat.and_le_right (by decide)

theorem toNat_and_63 (imm32 : BitVec 32) : (imm32 &&& 63).toNat = imm32.toNat % 64 := by
  rw [BitVec.toNat_and]
  exact Nat.and_two_pow_sub_one_eq_mod imm32.toNat 6

theorem decode_vectorCode (instr : SuperscalarInstruction) :
    decodeVectors (generateSuperscalarCode instr).length (scalarCode instr).length
      (vectorCode instr) = some (vectorOps instr) := by
  have shift := getModShift_lt instr
  obtain ⟨type, dst, src, mod, imm32⟩ := instr
  obtain ⟨isubR, ixorR, iaddR, iaddRs, imulR, irorC, imulhR, ismulhR, imulRcp⟩ := decode_tables
  cases type with
  | isubR => exact isubR dst src
  | ixorR => exact ixorR dst src
  | iaddRs =>
    by_cases zero : SuperscalarInstruction.getModShift ⟨.iaddRs, dst, src, mod, imm32⟩ = 0
    · simp only [vectorCode, vectorOps, generateSuperscalarCode, zero, ne_eq, not_true_eq_false,
        if_false]
      exact iaddR dst src
    · simp only [vectorCode, vectorOps, generateSuperscalarCode, zero, ne_eq, not_false_eq_true,
        if_true]
      exact iaddRs dst src ⟨_, shift⟩
  | imulR => exact imulR dst src
  | irorC =>
    have small : (imm32 &&& 63).toNat < 64 := by
      rw [toNat_and_63]
      omega
    exact irorC dst ⟨_, small⟩
  | iaddC7 | iaddC8 | iaddC9 => exact decode_iaddC _ dst
  | ixorC7 | ixorC8 | ixorC9 => exact decode_ixorC _ dst
  | imulhR => exact imulhR dst src
  | ismulhR => exact ismulhR dst src
  | imulRcp => exact imulRcp dst

/-- A sequence writes its destination and scratch registers only. -/
theorem vectorOps_target (instr : SuperscalarInstruction) :
    ∀ op ∈ vectorOps instr, ∀ index, op.target = some index →
      index = ymm instr.dst ∨ (8 ≤ index ∧ index ≤ 13) := by
  intro op member index written
  have kept : ∀ ops : List VectorInstr, op ∈ ops →
      (∀ other ∈ ops, other.target = none ∨ other.target = some (ymm instr.dst) ∨
        ∃ scratch, other.target = some scratch ∧ 8 ≤ scratch ∧ scratch ≤ 13) →
      index = ymm instr.dst ∨ (8 ≤ index ∧ index ≤ 13) := by
    intro ops listed allowed
    rcases allowed op listed with none | same | ⟨scratch, other, bounds⟩
    · rw [none] at written
      cases written
    · rw [same] at written
      exact .inl (Option.some.inj written).symm
    · rw [other] at written
      cases written
      exact .inr bounds
  apply kept _ member
  obtain ⟨type, dst, src, mod, imm32⟩ := instr
  cases type with
  | iaddRs =>
    simp only [vectorOps]
    split <;> simp [iaddRsOps, VectorInstr.target]
  | isubR | ixorR | imulR | irorC | iaddC7 | iaddC8 | iaddC9 | ixorC7 | ixorC8 | ixorC9 | imulhR
  | ismulhR | imulRcp =>
    simp [vectorOps, imulOps, irorOps, constantOps, imulhOps, ismulhOps, middleOps, imulRcpOps,
      VectorInstr.target]

theorem append_quadBytes (quad : BitVec 64) :
    quad.extractLsb' 56 8 ++ quad.extractLsb' 48 8 ++ quad.extractLsb' 40 8 ++
      quad.extractLsb' 32 8 ++ quad.extractLsb' 24 8 ++ quad.extractLsb' 16 8 ++
      quad.extractLsb' 8 8 ++ quad.extractLsb' 0 8 = quad := by
  repeat rw [BitVec.extractLsb'_append_extractLsb'_eq_extractLsb' (by rfl)]
  exact BitVec.extractLsb'_eq_self

theorem loadQuad_quadBytes (rest : List (BitVec 8)) (quad : BitVec 64) :
    loadQuad ([0x48, 0xB8] ++ quadBytes quad ++ rest) 2 = some quad :=
  congrArg some (append_quadBytes quad)

theorem computes_vectorOps (instr : SuperscalarInstruction) {before : VectorRegisters}
    (constants : Constants before) :
    Computes (generateSuperscalarCode instr) before (vectorOps instr) instr.dst instr.src
      (superscalarResult instr) := by
  have shift := getModShift_lt instr
  obtain ⟨type, dst, src, mod, imm32⟩ := instr
  cases type with
  | isubR => exact computes_lanes .vpsubq dst src
  | ixorR => exact computes_lanes .vpxor dst src
  | iaddRs =>
    by_cases zero : SuperscalarInstruction.getModShift ⟨.iaddRs, dst, src, mod, imm32⟩ = 0
    · have same : superscalarResult ⟨.iaddRs, dst, src, mod, imm32⟩ = LaneOp.vpaddq.eval := by
        funext x y
        simp only [superscalarResult, zero, BitVec.shiftLeft_zero]
        rfl
      simp only [vectorOps, zero, ne_eq, not_true_eq_false, if_false]
      rw [same]
      exact computes_lanes .vpaddq dst src
    · simp only [vectorOps, zero, ne_eq, not_false_eq_true, if_true]
      exact computes_iaddRs dst src shift
  | imulR => exact computes_imul dst src
  | irorC =>
    have small : (imm32 &&& 63).toNat < 64 := by
      rw [toNat_and_63]
      omega
    have rotated : superscalarResult ⟨.irorC, dst, src, mod, imm32⟩ =
        fun x _ => x.rotateRight (imm32 &&& 63).toNat := by
      funext x _
      rw [toNat_and_63, BitVec.rotateRight_mod_eq_rotateRight]
      rfl
    rw [rotated]
    exact computes_iror dst src small
  | iaddC7 | iaddC8 | iaddC9 => exact computes_constant .vpaddq dst src (loadQuad_quadBytes _ _)
  | ixorC7 | ixorC8 | ixorC9 => exact computes_constant .vpxor dst src (loadQuad_quadBytes _ _)
  | imulhR => exact computes_imulh constants dst src
  | ismulhR => exact computes_ismulh constants dst src
  | imulRcp =>
    have factor : superscalarResult ⟨.imulRcp, dst, src, mod, imm32⟩ =
        fun x _ => x * reciprocalFast (imm32.setWidth 64) := by
      funext x _
      rw [reciprocalFast_eq]
      rfl
    rw [factor]
    exact computes_imulRcp dst src (loadQuad_quadBytes _ _)

theorem runVectorCode_eq (instr : SuperscalarInstruction) (before : VectorRegisters) :
    runVectorCode instr before =
      execVectors (generateSuperscalarCode instr) (vectorOps instr) before := by
  have dropped : (generateSuperscalarCode instr).drop (scalarCode instr).length =
      vectorCode instr := List.drop_left
  unfold runVectorCode runVectors
  rw [dropped, decode_vectorCode]
  rfl

end Sequence

/-- One vector sequence does to every lane what the instruction does to the registers, and keeps
the constants for the next one. -/
theorem runVectorCode_step (instr : SuperscalarInstruction) {before : VectorRegisters}
    (constants : Constants before) :
    ∃ after, runVectorCode instr before = some after ∧ Constants after ∧
      ∀ lane, (fun index => after (ymm index) lane) =
        executeSuperscalar (fun index => before (ymm index) lane) [instr] := by
  obtain ⟨after, ran, result⟩ := computes_vectorOps instr constants
  have kept : ∀ index, index ≠ ymm instr.dst → ¬ (8 ≤ index ∧ index ≤ 13) →
      after index = before index := by
    intro index other upper
    apply execVectors_frame ran
    intro op member written
    rcases vectorOps_target instr op member index written with same | scratch
    · exact other same
    · exact upper scratch
  have constant : ∀ index : Fin 16, 13 < index → after index = before index := by
    intro index above
    have low := ymm_lt instr.dst
    apply kept
    · intro same
      rw [same] at above
      omega
    · omega
  refine ⟨after, ?_, ?_, fun lane => ?_⟩
  · rw [runVectorCode_eq]
    exact ran
  · constructor
    · intro lane
      rw [constant 14 (by decide)]
      exact constants.sign lane
    · intro lane
      rw [constant 15 (by decide)]
      exact constants.carry lane
  · funext index
    simp only [executeSuperscalar, Function.update_apply]
    split
    · rename_i same
      rw [same, result]
    · rename_i other
      have low := ymm_lt index
      rw [kept]
      · intro same
        exact other (ymm_injective same)
      · omega

/-- The vector sequence of every instruction, run as machine code with the prologue's constants:
each lane of the destination becomes what `executeSuperscalar` makes of the register, and the
other seven registers are kept. -/
theorem runVectorCode_executes (instr : SuperscalarInstruction) (before : VectorRegisters)
    (constants : Constants before) :
    ∃ after, runVectorCode instr before = some after ∧
      (∀ lane, after (ymm instr.dst) lane =
        executeSuperscalar (fun index => before (ymm index) lane) [instr] instr.dst) ∧
      ∀ index, index ≠ instr.dst → after (ymm index) = before (ymm index) := by
  obtain ⟨after, ran, _, lanes⟩ := runVectorCode_step instr constants
  refine ⟨after, ran, fun lane => congrFun (lanes lane) instr.dst, fun index other => ?_⟩
  funext lane
  rw [congrFun (lanes lane) index, executeSuperscalar, executeSuperscalar,
    Function.update_of_ne other]

/-- Squaring `1 - 2^63` as a signed number, with `dst = src`. -/
theorem runVectorCode_executes_ismulh :
    ∃ after, runVectorCode ⟨.ismulhR, 3, 3, 0, 0⟩
        (fun index _ => if index = 15 then 0x100000000 else if index = 14 then 0x8000000000000000
          else 0x8000000000000001) = some after ∧
      (∀ lane, after 3 lane = 0x3FFFFFFFFFFFFFFF) ∧
      ∀ lane, after 5 lane = 0x8000000000000001 := by
  obtain ⟨after, ran, result, kept⟩ := runVectorCode_executes ⟨.ismulhR, 3, 3, 0, 0⟩
    (fun index _ => if index = 15 then 0x100000000 else if index = 14 then 0x8000000000000000
      else 0x8000000000000001) ⟨fun _ => rfl, fun _ => rfl⟩
  refine ⟨after, ran, fun lane => ?_, fun lane => ?_⟩
  · exact (result lane).trans (by decide)
  · exact congrFun (kept 5 (by decide)) lane

/-- The vector code of a whole program, instruction after instruction. -/
def runVectorProgram : List SuperscalarInstruction → VectorRegisters → Option VectorRegisters
  | [], registers => some registers
  | instr :: rest, registers => (runVectorCode instr registers).bind (runVectorProgram rest)

theorem runVectorProgram_executes (program : List SuperscalarInstruction)
    {before : VectorRegisters} (constants : Constants before) :
    ∃ after, runVectorProgram program before = some after ∧
      ∀ lane, (fun index => after (ymm index) lane) =
        executeSuperscalar (fun index => before (ymm index) lane) program := by
  induction program generalizing before with
  | nil => exact ⟨before, rfl, fun _ => rfl⟩
  | cons instr rest ih =>
    obtain ⟨middle, first, kept, lanes⟩ := runVectorCode_step instr constants
    obtain ⟨after, ran, result⟩ := ih kept
    refine ⟨after, ?_, fun lane => ?_⟩
    · rw [runVectorProgram, first]
      exact ran
    · rw [result, lanes]
      rfl

end Xmrig.RandomX
