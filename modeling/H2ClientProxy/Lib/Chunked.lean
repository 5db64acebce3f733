import Mathlib.Data.Nat.Notation

/-!
# The chunked transfer coding

The receiver's side of the coding of RFC 7230, section 4.1: a body is a sequence of chunks, each with
its size in hexadecimal on a line of its own, and ends with a chunk of size zero and an empty line.
Chunk extensions and trailers, which the grammar allows, are not accepted here, so a body that is
accepted is well formed.

* `decode s`: the chunks of the body at the front of `s`, and what follows the body.
* `decode_flatMap`: a sender whose size lines are read back as the sizes it meant is understood,
  whatever bytes the chunks consist of.
-/

namespace Chunked

/-- The value of a hexadecimal digit. -/
def hexVal (c : UInt8) : Option ℕ :=
  if 48 ≤ c ∧ c ≤ 57 then some (c.toNat - 48)
  else if 65 ≤ c ∧ c ≤ 70 then some (c.toNat - 55)
  else if 97 ≤ c ∧ c ≤ 102 then some (c.toNat - 87)
  else none

/-- Read hexadecimal digits onto `acc`, as far as they go. -/
def readDigits (acc : ℕ) : List UInt8 → ℕ × List UInt8
  | [] => (acc, [])
  | c :: cs =>
    match hexVal c with
    | some d => readDigits (acc * 16 + d) cs
    | none => (acc, c :: cs)

/-- The rest after a line end. -/
def skipCrlf : List UInt8 → Option (List UInt8)
  | 13 :: 10 :: rest => some rest
  | _ => none

/-- A line that consists of at least one hexadecimal digit. -/
def readSize (s : List UInt8) : Option (ℕ × List UInt8) :=
  if s.head?.any (fun c => (hexVal c).isSome) then
    let (n, rest) := readDigits 0 s
    (skipCrlf rest).map fun rest => (n, rest)
  else none

/-- Read chunks up to the first one of size zero; each takes one unit of fuel. -/
def decodeFuel : ℕ → List UInt8 → Option (List (List UInt8) × List UInt8)
  | 0, _ => none
  | fuel + 1, s =>
    match readSize s with
    | none => none
    | some (n, rest) =>
      if n = 0 then (skipCrlf rest).map fun rest => ([], rest)
      else if rest.length < n then none
      else
        match skipCrlf (rest.drop n) with
        | none => none
        | some next => (decodeFuel fuel next).map fun p => (rest.take n :: p.1, p.2)

/-- The chunks of the body at the front of `s` and what follows it.  Every chunk is longer than one
byte, so the fuel does not run out. -/
def decode (s : List UInt8) : Option (List (List UInt8) × List UInt8) := decodeFuel s.length s

/-- `line n` is read back as the size `n`, whatever follows it. -/
def IsSizeLine (line : ℕ → List UInt8) : Prop :=
  ∀ n rest, readSize (line n ++ rest) = some (n, rest)

/-- The chunk with the data `data`. -/
def chunk (line : ℕ → List UInt8) (data : List UInt8) : List UInt8 :=
  line data.length ++ data ++ [13, 10]

variable {line : ℕ → List UInt8} {rest : List UInt8}

/-- The last chunk ends the body. -/
theorem decodeFuel_last (hline : IsSizeLine line) (fuel : ℕ) :
    decodeFuel (fuel + 1) (line 0 ++ [13, 10] ++ rest) = some ([], rest) := by
  rw [decodeFuel, List.append_assoc, hline 0]
  rfl

/-- A chunk is taken off by its length: its own bytes are not looked at. -/
theorem decodeFuel_chunk (hline : IsSizeLine line) (fuel : ℕ) {data : List UInt8}
    (hdata : data ≠ []) :
    decodeFuel (fuel + 1) (chunk line data ++ rest) =
      (decodeFuel fuel rest).map fun p => (data :: p.1, p.2) := by
  have hzero : data.length ≠ 0 := mt List.length_eq_zero_iff.mp hdata
  have hsize : readSize (chunk line data ++ rest) =
      some (data.length, data ++ 13 :: 10 :: rest) := by
    rw [← hline data.length, chunk]
    simp only [List.append_assoc, List.cons_append, List.nil_append]
  have hlen : ¬ (data ++ 13 :: 10 :: rest).length < data.length := by
    rw [List.length_append]
    omega
  rw [decodeFuel, hsize]
  dsimp only
  rw [if_neg hzero, if_neg hlen, List.drop_left, List.take_left]
  rfl

/-- **A chunked body is decoded into its chunks**, and ends with its last chunk. -/
theorem decode_flatMap (hline : IsSizeLine line) {chunks : List (List UInt8)}
    (h : ∀ data ∈ chunks, data ≠ []) :
    decode (chunks.flatMap (chunk line) ++ line 0 ++ [13, 10]) = some (chunks, []) := by
  -- induction on the chunks, for any fuel that is enough for them and the last one
  have key : ∀ fuel, chunks.length < fuel →
      decodeFuel fuel (chunks.flatMap (chunk line) ++ line 0 ++ [13, 10]) = some (chunks, []) := by
    induction chunks with
    | nil =>
      intro fuel hfuel
      obtain ⟨fuel, rfl⟩ := Nat.exists_eq_succ_of_ne_zero (Nat.ne_of_gt hfuel)
      have hlast : decodeFuel (fuel + 1) (line 0 ++ [13, 10] ++ []) = some ([], []) :=
        decodeFuel_last hline fuel
      rw [List.append_nil] at hlast
      exact hlast
    | cons data chunks ih =>
      intro fuel hfuel
      obtain ⟨fuel, rfl⟩ := Nat.exists_eq_succ_of_ne_zero (Nat.ne_zero_of_lt hfuel)
      have hrest := ih (fun d hd => h d (List.mem_cons_of_mem _ hd)) fuel
        (Nat.lt_of_succ_lt_succ hfuel)
      rw [List.flatMap_cons, List.append_assoc, List.append_assoc,
        decodeFuel_chunk hline fuel (h data List.mem_cons_self), ← List.append_assoc, hrest]
      rfl
  apply key
  -- every chunk has its line end
  have hle : chunks.length ≤ (chunks.flatMap (chunk line)).length := by
    clear h key
    induction chunks with
    | nil => exact Nat.le_refl _
    | cons data chunks ih =>
      rw [List.flatMap_cons, List.length_append, chunk, List.length_append, List.length_cons]
      simp only [List.length_cons, List.length_nil]
      omega
  rw [List.length_append, List.length_append, List.length_cons]
  omega

end Chunked
