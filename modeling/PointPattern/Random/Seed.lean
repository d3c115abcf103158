/-
# Seeds of random streams

Entropy is a list of natural numbers. It is split into words of thirty-two bits
and mixed into a pool of four words; a child of a seed mixes its own number in
after the entropy, so that children do not depend on how many of them there are.
The pool is then expanded into the words that start a stream. All word arithmetic
is modulo two to the power of thirty-two.
-/

import PointPattern.Error

namespace PointPattern.Random

/-- The entropy of a run and, for a child seed, its number. -/
structure Seed where
  entropy : List Nat
  child : Option Nat := none
  deriving DecidableEq, Repr

/-- The child of a seed with the given number. -/
def Seed.spawn (seed : Seed) (number : Nat) : Seed := { seed with child := some number }

/-- The words of a natural number, least significant first. Zero has one. -/
def wordsOf (n : Nat) : List UInt32 :=
  go (n.log2 / 32 + 1) n
where
  go : Nat → Nat → List UInt32
    | 0, _ => []
    | count + 1, n => UInt32.ofNat n :: go count (n / Nat.pow 2 32)

/-- The words that are mixed into the pool. The number of a child follows at
least four words of entropy. -/
def Seed.words (seed : Seed) : List UInt32 :=
  let own := seed.entropy.flatMap wordsOf
  match seed.child with
  | none => own
  | some number => own ++ List.replicate (4 - own.length) 0 ++ wordsOf number

/-- Four words and the constant that the next mixing step starts from. -/
structure Pool where
  words : Vector UInt32 4
  constant : UInt32

/-- Spreads the bits of one word and advances the constant. -/
def hashWord (constant multiplier value : UInt32) : UInt32 × UInt32 :=
  let mixed := value ^^^ constant
  let constant := constant * multiplier
  let mixed := mixed * constant
  (mixed ^^^ (mixed >>> 16), constant)

/-- Combines two words into one. -/
def mixWords (x y : UInt32) : UInt32 :=
  let mixed := 0xca01f9dd * x - 0x4973f715 * y
  mixed ^^^ (mixed >>> 16)

/-- Mixes a word into one place of the pool. -/
def Pool.absorb (pool : Pool) (word : UInt32) (i : Fin 4) : Pool :=
  let (hashed, constant) := hashWord pool.constant 0x931e8875 word
  ⟨pool.words.set i (mixWords pool.words[i] hashed), constant⟩

/-- The pool that the first four words fill; missing words are zero. -/
def Pool.fill (words : List UInt32) : Pool :=
  (List.finRange 4).foldl
    (fun pool (i : Fin 4) =>
      let (hashed, constant) := hashWord pool.constant 0x931e8875 (words.getD i 0)
      ⟨pool.words.set i hashed, constant⟩)
    ⟨Vector.replicate 4 0, 0x43b0d7e5⟩

/-- Mixes every place of the pool into every other one. -/
def Pool.stir (pool : Pool) : Pool :=
  (List.finRange 4).foldl
    (fun pool i =>
      (List.finRange 4).foldl
        (fun pool j => if j = i then pool else pool.absorb pool.words[i] j) pool)
    pool

/-- The pool of a seed: words beyond the fourth are mixed into every place. -/
def Seed.pool (seed : Seed) : Pool :=
  let words := seed.words
  (words.drop 4).foldl
    (fun pool word => (List.finRange 4).foldl (fun pool j => pool.absorb word j) pool)
    (Pool.fill words).stir

/-- Expands the pool into the given number of words. -/
def Pool.expand (pool : Pool) (count : Nat) : List UInt32 :=
  ((List.range count).foldl
    (fun (out, constant) i =>
      let word := pool.words.get ⟨i % 4, Nat.mod_lt _ (by decide)⟩
      let (hashed, constant) := hashWord constant 0x58f38ded word
      (hashed :: out, constant))
    (([] : List UInt32), (0x8b51f9dd : UInt32))).1.reverse

mutual

/-- The natural numbers in a value: a number by itself, or those of its items. -/
def naturals : Value → Except Error (List Nat)
  | .bool b => .ok [b.toNat]
  | .list items => naturalsOf items
  | .tuple items => naturalsOf items
  | .array _ _ cells => naturalsOf cells
  | .real _ | .sized (.real _) _ => .error (.random .entropyNotIntegral)
  | v => match v.integral? with
    | some i => if i < 0 then .error (.random .negativeEntropy) else .ok [i.toNat]
    | none => .error (.random (.notEntropy v))

/-- The natural numbers in several values. -/
def naturalsOf : List Value → Except Error (List Nat)
  | [] => .ok []
  | v :: rest => do return (← naturals v) ++ (← naturalsOf rest)

end

/-- The entropy that a value denotes: a natural number or a sequence of them. -/
def entropyOf (v : Value) : Except Error (List Nat) :=
  match v with
  | .real _ | .sized (.real _) _ => .error (.random (.notEntropy v))
  | v => naturals v

end PointPattern.Random
