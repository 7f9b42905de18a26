import ComputeArray.Engine.Basic

/-!
# Lifetime of arrays

An array nobody refers to any more is released and forgotten. Generators keep the array of their
streams and the samples they hold back, and an outstanding read-back keeps the array it belongs to.
-/

set_option autoImplicit false

namespace ComputeArray.Engine

/-- The arrays a generator keeps. -/
def keptBy (state : Nat) (generator : Generator) : List Nat :=
  state :: (generator.kept.map Prod.snd).toList

/-- The arrays kept by what is in progress. -/
def outstanding (engine : Engine) : List Nat :=
  (engine.arrays.filter fun (_, array) => array.loading.isUnderWay).map Prod.fst

/-- Forgets the generators that are not among the given ones. -/
def keepGenerators (states : List Nat) (engine : Engine) : Engine :=
  { engine with generators := engine.generators.filter fun (state, _) => states.contains state }

/-- Releases and forgets the arrays that are not among the given ones. -/
def keepArrays (buffers : List Nat) (engine : Engine) : Engine :=
  let lapsed := (engine.arrays.map Prod.fst).filter fun buffer => !buffers.contains buffer
  let released := lapsed.foldl (fun engine buffer => engine.release buffer) engine
  { released with
    arrays := released.arrays.filter fun (buffer, _) => buffers.contains buffer }

/-- Keeps what the given arrays and generators lead to and what is in progress. -/
def collect (arrays generators : List Nat) (engine : Engine) : Engine :=
  let engine := engine.keepGenerators generators
  let kept := engine.generators.flatMap fun (state, generator) => keptBy state generator
  engine.keepArrays (arrays ++ kept ++ engine.outstanding)

end ComputeArray.Engine
